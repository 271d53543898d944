import AiArtifactStore.Storage.ChunkTree
import Mathlib.Data.List.Nodup

/-!
# A chunk tree as a chunk store

What the operations of a chunk store find in a tree is what stands at the paths of chunks.
Where no fan-out directory is a symlink, the tree is the chunk store that it lists.
-/

namespace AiArtifactStore.Storage

open AiArtifactStore.Foundation
open AiArtifactStore.Identity
open AiArtifactStore.Metadata

namespace ChunkTree

variable {tree tree' : ChunkTree} {fanout name : String} {f : Files → Files}
  {chunkId : ContentId}

/-! ## Rewriting a directory -/

theorem resolve_mapFiles (f : Files → Files) (node : Fanout) :
    (node.mapFiles f).resolve = node.resolve.map fun resolved => (resolved.1, f resolved.2) := by
  cases node with
  | directory files => rfl
  | symlink target => cases target <;> rfl
  | other => rfl

theorem filesOf_modify (tree : ChunkTree) (fanout : String) (f : Files → Files) :
    filesOf (modify tree fanout f) fanout =
      (filesOf tree fanout).map fun resolved => (resolved.1, f resolved.2) := by
  unfold filesOf modify
  rw [Table.find?_mapRows]
  cases h : tree.find? fanout with
  | none => rfl
  | some entry =>
      have hname : entry.name = fanout := Table.key_of_find? h
      simp only [Option.map_some, Option.bind_some, hname, ↓reduceIte]
      exact resolve_mapFiles f entry.node

theorem filesOf_modify_of_ne {other : String} (h : other ≠ fanout) (f : Files → Files) :
    filesOf (modify tree fanout f) other = filesOf tree other := by
  unfold filesOf modify
  rw [Table.find?_mapRows]
  cases hfind : tree.find? other with
  | none => rfl
  | some entry =>
      have hname : entry.name = other := Table.key_of_find? hfind
      have hne : ¬entry.name = fanout := by rwa [hname]
      simp only [Option.map_some, Option.bind_some, hne, ↓reduceIte]

theorem entryOf_modify_of_find? (h : ∀ files : Files,
      (f files).find? chunkId.hex = files.find? chunkId.hex) :
    entryOf (modify tree fanout f) chunkId = entryOf tree chunkId := by
  unfold entryOf
  by_cases hname : fanoutName chunkId = fanout
  · rw [hname, filesOf_modify]
    cases filesOf tree fanout with
    | none => rfl
    | some resolved => simp only [Option.map_some, Option.bind_some, h]
  · rw [filesOf_modify_of_ne hname]

theorem find?_without {files : Files} {name other : String} (h : other ≠ name) :
    (files.filter fun entry => entry.name ≠ name).find? other = files.find? other := by
  ext entry
  rw [Table.find?_filter, and_iff_left_iff_imp]
  intro hfind
  have hkey : entry.name = other := Table.key_of_find? hfind
  rw [hkey]
  exact decide_eq_true h

theorem find?_upsert_of_ne {files : Files} {name other : String} (h : name ≠ other)
    (file : ChunkFile) : (files.upsert ⟨name, file⟩).find? other = files.find? other := by
  rw [Table.find?_upsert, if_neg h]

theorem entryOf_removeFile_of_ne {other : ContentId} (h : other.hex ≠ name) :
    entryOf (removeFile tree fanout name) other = entryOf tree other :=
  entryOf_modify_of_find? fun _ => find?_without h

theorem entryOf_removeFile :
    entryOf (removeFile tree (fanoutName chunkId) chunkId.hex) chunkId = none := by
  rw [entryOf, removeFile, filesOf_modify]
  cases filesOf tree (fanoutName chunkId) with
  | none => rfl
  | some resolved =>
      rw [Option.map_some, Option.bind_some, Option.map_eq_none_iff, Table.find?_eq_none]
      intro entry hentry
      exact of_decide_eq_true (Table.mem_filter.mp hentry).2

/-! ## What the scan finds -/

/-- A file whose name is that of a chunk of the fan-out directory. -/
def chunkEntryOf? (fanout : String) (entry : FileEntry) : Option ChunkEntry :=
  (ContentId.ofHex? entry.name).bind fun id =>
    if fanoutName id = fanout then some ⟨id, entry.file⟩ else none

def chunkEntries (entry : FanoutEntry) : List ChunkEntry :=
  match entry.node with
  | .directory files => files.rows.filterMap (chunkEntryOf? entry.name)
  | _ => []

theorem chunkEntryOf?_eq_some {entry : FileEntry} {chunk : ChunkEntry} :
    chunkEntryOf? fanout entry = some chunk ↔
      entry = ⟨chunk.chunkId.hex, chunk.file⟩ ∧ fanoutName chunk.chunkId = fanout := by
  obtain ⟨name, file⟩ := entry
  rw [chunkEntryOf?, Option.bind_eq_some_iff]
  constructor
  · rintro ⟨id, hid, h⟩
    split at h
    · rename_i hfanout
      obtain rfl := Option.some.inj h
      exact ⟨by rw [ContentId.hex_of_ofHex? hid], hfanout⟩
    · cases h
  · rintro ⟨hentry, hfanout⟩
    obtain ⟨rfl, rfl⟩ := FileEntry.mk.inj hentry
    exact ⟨chunk.chunkId, ContentId.ofHex?_hex _, if_pos hfanout⟩

theorem mem_chunkEntries {entry : FanoutEntry} {chunk : ChunkEntry} :
    chunk ∈ chunkEntries entry ↔ fanoutName chunk.chunkId = entry.name ∧
      ∃ files : Files, entry.node = .directory files ∧
        ⟨chunk.chunkId.hex, chunk.file⟩ ∈ files := by
  obtain ⟨name, node⟩ := entry
  unfold chunkEntries
  cases node with
  | directory files =>
      simp only [List.mem_filterMap, chunkEntryOf?_eq_some, Fanout.directory.injEq,
        exists_eq_left']
      constructor
      · rintro ⟨entry, hentry, rfl, hfanout⟩
        exact ⟨hfanout, hentry⟩
      · rintro ⟨hfanout, hentry⟩
        exact ⟨_, hentry, rfl, hfanout⟩
  | symlink target => simp
  | other => simp

theorem chunkIds_nodup (tree : ChunkTree) :
    ((tree.rows.flatMap chunkEntries).map ChunkEntry.chunkId).Nodup := by
  rw [List.map_flatMap, List.nodup_flatMap]
  constructor
  · rintro ⟨name, node⟩ -
    cases node with
    | directory files =>
        -- Two files of a directory have different names.
        have hrows : (files.rows.filterMap (chunkEntryOf? name)).Pairwise
            fun a b => a.chunkId ≠ b.chunkId := by
          rw [List.pairwise_filterMap]
          refine (List.pairwise_map.mp files.keysNodup).imp ?_
          intro a b hne chunk hchunk chunk' hchunk' hsame
          rw [(chunkEntryOf?_eq_some.mp hchunk).1, (chunkEntryOf?_eq_some.mp hchunk').1, hsame] at hne
          exact hne rfl
        exact List.pairwise_map.mpr hrows
    | symlink target => exact List.nodup_nil
    | other => exact List.nodup_nil
  · refine (List.pairwise_map.mp tree.keysNodup).imp ?_
    intro a b hne id hid hid'
    obtain ⟨chunk, hchunk, rfl⟩ := List.mem_map.mp hid
    obtain ⟨chunk', hchunk', hsame⟩ := List.mem_map.mp hid'
    have hfanout := (mem_chunkEntries.mp hchunk).1
    have hfanout' := (mem_chunkEntries.mp hchunk').1
    rw [hsame] at hfanout'
    exact hne (hfanout.symm.trans hfanout')

def listedStore (tree : ChunkTree) : ChunkStore :=
  ⟨tree.rows.flatMap chunkEntries, chunkIds_nodup tree⟩

theorem mem_listedStore {chunk : ChunkEntry} :
    chunk ∈ listedStore tree ↔ entryOf tree chunk.chunkId = some (true, chunk.file) := by
  have hrows : chunk ∈ listedStore tree ↔ chunk ∈ tree.rows.flatMap chunkEntries := Iff.rfl
  rw [hrows, List.mem_flatMap, entryOf, filesOf]
  constructor
  · rintro ⟨⟨name, node⟩, hentry, hchunk⟩
    obtain ⟨hname, files, hnode, hfile⟩ := mem_chunkEntries.mp hchunk
    obtain rfl : node = .directory files := hnode
    obtain rfl : fanoutName chunk.chunkId = name := hname
    have hfind := Table.find?_of_mem (show _ ∈ tree from hentry)
    have hfindFile := Table.find?_of_mem hfile
    simp only at hfind hfindFile
    rw [hfind, Option.bind_some, Fanout.resolve, Option.bind_some, hfindFile, Option.map_some]
  · intro h
    obtain ⟨resolved, hresolved, hfile⟩ := Option.bind_eq_some_iff.mp h
    obtain ⟨⟨name, node⟩, hentry, hnode⟩ := Option.bind_eq_some_iff.mp hresolved
    obtain ⟨⟨fileName, file⟩, hfind, hpair⟩ := Option.map_eq_some_iff.mp hfile
    obtain ⟨hlisted, rfl⟩ := Prod.mk.inj hpair
    obtain ⟨hmem, hname⟩ := Table.find?_eq_some.mp hentry
    obtain ⟨hfileMem, hfileName⟩ := Table.find?_eq_some.mp hfind
    refine ⟨_, hmem, mem_chunkEntries.mpr ⟨hname.symm, resolved.2, ?_, ?_⟩⟩
    · cases node with
      | directory files =>
          obtain rfl := Option.some.inj hnode
          rfl
      | symlink target =>
          obtain ⟨files, -, rfl⟩ := Option.map_eq_some_iff.mp hnode
          cases hlisted
      | other => cases hnode
    · obtain rfl : fileName = chunk.chunkId.hex := hfileName
      exact hfileMem

theorem find?_listedStore {file : ChunkFile} :
    (listedStore tree).find? chunkId = some ⟨chunkId, file⟩ ↔
      entryOf tree chunkId = some (true, file) := by
  rw [Table.find?_eq_some, and_iff_left rfl, mem_listedStore]

/-- What the inventory says of a chunk whose file is regular. -/
def infoOf? (chunk : ChunkEntry) : Option StoredChunkInfo :=
  match chunk.file with
  | .regular bytes => some ⟨chunk.chunkId, bytes.length⟩
  | _ => none

theorem scanFile_eq (entry : FileEntry) :
    scanFile fanout entry = (chunkEntryOf? fanout entry).bind infoOf? := by
  obtain ⟨name, file⟩ := entry
  cases hid : ContentId.ofHex? name with
  | none =>
      unfold scanFile
      simp only [chunkEntryOf?, hid, Option.bind_none, Option.map_none]
      split
      · rfl
      · split
        · rfl
        · split
          · rfl
          · cases file <;> rfl
  | some id =>
      obtain rfl := ContentId.hex_of_ofHex? hid
      have hfanout : id.hex.toList.take 2 = fanout.toList ↔ fanoutName id = fanout := by
        rw [toList_hex, fanoutName, ← String.toList_inj, String.toList_ofList]
      by_cases h : fanoutName id = fanout
      · have hstarts : ¬id.hex.toList.take 2 ≠ fanout.toList := not_not.mpr (hfanout.mpr h)
        simp only [scanFile, not_temporary_hex, isValidChunkFilename_hex, not_true_eq_false,
          Bool.false_eq_true, if_false, if_neg hstarts, chunkEntryOf?, hid, Option.bind_some,
          Option.map_some, if_pos h]
        cases file <;> rfl
      · have hstarts : id.hex.toList.take 2 ≠ fanout.toList := fun heq => h (hfanout.mp heq)
        simp only [scanFile, not_temporary_hex, isValidChunkFilename_hex, not_true_eq_false,
          Bool.false_eq_true, if_false, if_pos hstarts, chunkEntryOf?, hid, Option.bind_some,
          Option.bind_none, if_neg h]

theorem scanFanout_eq (entry : FanoutEntry) :
    scanFanout entry = (chunkEntries entry).filterMap infoOf? := by
  obtain ⟨name, node⟩ := entry
  cases node with
  | directory files =>
      simp only [scanFanout, chunkEntries, List.filterMap_filterMap]
      split
      · exact List.filterMap_congr fun entry _ => scanFile_eq entry
      · rename_i hinvalid
        rw [eq_comm, List.filterMap_eq_nil_iff]
        intro entry _
        rw [Option.bind_eq_none_iff]
        intro chunk hchunk
        have hname := (chunkEntryOf?_eq_some.mp hchunk).2
        rw [← hname, isValidFanoutDirectoryName_fanoutName] at hinvalid
        exact absurd rfl hinvalid
  | symlink target => rfl
  | other => rfl

theorem discoveredChunks_eq (tree : ChunkTree) :
    discoveredChunks tree = LocalChunkStore.discoveredChunks (listedStore tree) := by
  have hscan : tree.rows.flatMap scanFanout =
      (tree.rows.flatMap chunkEntries).filterMap infoOf? := by
    rw [List.filterMap_flatMap]
    exact List.flatMap_congr fun entry _ => scanFanout_eq entry
  rw [discoveredChunks, hscan]
  rfl

theorem regular?_listedStore {bytes : List UInt8} :
    LocalChunkStore.regular? (listedStore tree) chunkId = some bytes ↔
      entryOf tree chunkId = some (true, .regular bytes) := by
  rw [LocalChunkStore.regular?_eq_some, mem_listedStore]

theorem discoveredChunks_congr (h : ∀ id, entryOf tree id = entryOf tree' id) :
    discoveredChunks tree = discoveredChunks tree' := by
  rw [discoveredChunks_eq, discoveredChunks_eq]
  refine LocalChunkStore.discoveredChunks_congr fun id => ?_
  ext bytes
  rw [regular?_listedStore, regular?_listedStore, h]

/-! ## Operations on either -/

def Listed (tree : ChunkTree) : Prop := ∀ name resolved, filesOf tree name = some resolved →
  resolved.1 = true

theorem validateChunkId_of_ofHex? {expectedChunkId : String}
    (h : ContentId.ofHex? expectedChunkId = some chunkId) :
    validateChunkId expectedChunkId = .ok chunkId := by
  rw [validateChunkId, h, orFail_some]

theorem listChunks_eq (tree : ChunkTree) (after : Option ContentId) (limit : Nat) :
    listChunks tree (after.map ContentId.hex) limit =
      LocalChunkStore.listChunks (listedStore tree) after limit := by
  have hafter : (after.map ContentId.hex).mapM validateChunkId = .ok after := by
    cases after with
    | none => rfl
    | some id =>
        simp only [Option.map_some, Option.mapM_some,
          validateChunkId_of_ofHex? (ContentId.ofHex?_hex id)]
        rfl
  rw [listChunks, hafter, discoveredChunks_eq, LocalChunkStore.listChunks]
  rfl

theorem file_listedStore (h : Listed tree) :
    ((listedStore tree).find? chunkId).map ChunkEntry.file = (entryOf tree chunkId).map Prod.snd := by
  cases hentry : entryOf tree chunkId with
  | none =>
      rw [Option.map_none, Option.map_eq_none_iff, Table.find?_eq_none]
      intro chunk hchunk hid
      rw [mem_listedStore, hid, hentry] at hchunk
      cases hchunk
  | some entry =>
      obtain ⟨resolved, hresolved, hfile⟩ := Option.bind_eq_some_iff.mp hentry
      obtain ⟨file, -, rfl⟩ := Option.map_eq_some_iff.mp hfile
      rw [h _ _ hresolved] at hentry
      rw [find?_listedStore.mpr hentry, Option.map_some, Option.map_some]

theorem storedBytes_eq (h : Listed tree) :
    storedBytes tree chunkId = LocalChunkStore.readFile (listedStore tree) chunkId := by
  have hfile := @file_listedStore tree chunkId h
  rw [storedBytes, LocalChunkStore.readFile]
  calc (entryOf tree chunkId).bind (fun entry => entry.2.regularBytes)
      = ((entryOf tree chunkId).map Prod.snd).bind ChunkFile.regularBytes := by
        rw [Option.bind_map]
        rfl
    _ = (((listedStore tree).find? chunkId).map ChunkEntry.file).bind ChunkFile.regularBytes := by
        rw [hfile]
    _ = ((listedStore tree).find? chunkId).bind (fun entry => entry.file.regularBytes) := by
        rw [Option.bind_map]
        rfl

theorem contains_hex (h : Listed tree) :
    contains tree chunkId.hex = .ok (LocalChunkStore.contains (listedStore tree) chunkId) := by
  rw [contains, validateChunkId_of_ofHex? (ContentId.ofHex?_hex _), ok_bind, storedBytes_eq h,
    LocalChunkStore.contains]

theorem get_hex (h : Listed tree) (env : Environment) :
    get env tree chunkId.hex = LocalChunkStore.get env (listedStore tree) chunkId := by
  have hfail (data : List UInt8) :
      (env.contentId data).hex ≠ chunkId.hex ↔ env.contentId data ≠ chunkId :=
    not_congr ContentId.hex_injective.eq_iff
  rw [get, validateChunkId_of_ofHex? (ContentId.ofHex?_hex _), ok_bind, storedBytes_eq h,
    LocalChunkStore.get]
  simp only [hfail]

end ChunkTree

end AiArtifactStore.Storage
