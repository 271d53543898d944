import AiArtifactStore.Storage.PutAtomicity

/-!
# What a put accepts

A put of a chunk that the store does not have looks at the data only.  A put of one that it
has looks at the stored file only: it accepts any data while the file is intact, and refuses
the right data while it is corrupted.
-/

namespace AiArtifactStore.Storage

open AiArtifactStore.Foundation
open AiArtifactStore.Identity
open AiArtifactStore.Metadata

namespace ChunkTree

/-- The directory and the temporary file can be created and the chunk can be renamed into
place. -/
structure NoIoErrors (tree : ChunkTree) (suffix : List Char) (chunkId : ContentId) : Prop where
  temporary : ∃ made created, createDirectories tree (fanoutName chunkId) = .ok made ∧
    createTemporary made (fanoutName chunkId) (temporaryName suffix) = .ok created
  target : (entryOf tree chunkId).map Prod.snd ≠ some .directory

variable {env : Environment} {expectedChunkId : String} {data : List UInt8}
  {tree before : ChunkTree} {chunkId : ContentId} {suffix : List Char}

theorem get_of_stored {bytes : List UInt8} (hid : ContentId.ofHex? expectedChunkId = some chunkId)
    (hstored : storedBytes tree chunkId = some bytes) :
    get env tree expectedChunkId = if (env.contentId bytes).hex = expectedChunkId then .ok bytes
      else .error (.runtimeError "stored chunk failed SHA-256 verification") := by
  rw [get, validateChunkId_of_ofHex? hid, ok_bind, hstored, orFail_some, ok_bind]
  by_cases hhash : (env.contentId bytes).hex = expectedChunkId
  · rw [if_pos hhash, failIf_of_false (not_not.mpr hhash), ok_bind]
  · rw [if_neg hhash, failIf_of_true hhash, error_bind]

theorem put_of_stored {bytes : List UInt8} (hid : ContentId.ofHex? expectedChunkId = some chunkId)
    (hstored : storedBytes tree chunkId = some bytes) :
    put env tree suffix expectedChunkId data =
      if (env.contentId bytes).hex = expectedChunkId then (.ok (), tree)
      else (.error (.runtimeError "stored chunk failed SHA-256 verification"), tree) := by
  have hsome : (storedBytes tree chunkId).isSome = true := by rw [hstored, Option.isSome_some]
  rw [put, validateChunkId_of_ofHex? hid]
  simp only [if_pos hsome, get_of_stored hid hstored]
  by_cases hhash : (env.contentId bytes).hex = expectedChunkId
  · simp only [if_pos hhash]
  · simp only [if_neg hhash]

theorem Staged.renameFile_isOk {files : Files} {entry : FileEntry}
    (h : Staged before tree chunkId files)
    (htemporary : files.find? (temporaryName suffix) = some entry)
    (htarget : (entryOf before chunkId).map Prod.snd ≠ some .directory) :
    ∃ renamed, renameFile tree (fanoutName chunkId) (temporaryName suffix) chunkId.hex =
      .ok renamed := by
  have hfile : ¬(files.find? chunkId.hex).map FileEntry.file = some .directory := by
    rw [← h.unchanged, entryOf, h.directory, Option.bind_some, Option.map_map] at htarget
    exact htarget
  rw [renameFile, h.directory, orFail_some, ok_bind]
  simp only [htemporary, orFail_some, ok_bind]
  rw [failIf_of_false hfile, ok_bind]
  exact ⟨_, rfl⟩

theorem put_of_absent (h : Absent tree expectedChunkId chunkId)
    (hio : NoIoErrors tree suffix chunkId) :
    ((env.contentId data).hex = expectedChunkId →
      ∃ renamed, put env tree suffix expectedChunkId data = (.ok (), renamed) ∧
        Published tree renamed chunkId data) ∧
    ((env.contentId data).hex ≠ expectedChunkId →
      ∃ final, put env tree suffix expectedChunkId data =
        (.error (.runtimeError "chunk content does not match expected chunk ID"), final)) := by
  obtain ⟨hid, hstored⟩ := h
  obtain ⟨made, created, hmade, hcreated⟩ := hio.temporary
  have hnone : ¬(storedBytes tree chunkId).isSome = true := by
    rw [hstored]
    exact Bool.false_ne_true
  rw [put, validateChunkId_of_ofHex? hid]
  simp only [if_neg hnone, hmade, hcreated]
  obtain ⟨files, hstaged⟩ := createDirectories_staged hmade
  obtain ⟨files, hstaged, -⟩ := hstaged.createTemporary hcreated
  obtain ⟨files, hstaged, htemporary⟩ := @Staged.write _ _ _ suffix _ hstaged data
  obtain ⟨renamed, hrenamed⟩ := hstaged.renameFile_isOk htemporary hio.target
  have hpublished := hstaged.rename htemporary hrenamed
  rw [ContentId.hex_of_ofHex? hid] at hrenamed
  constructor
  · intro hhash
    rw [publish, failIf_of_false (not_not.mpr hhash), ok_bind, hrenamed]
    exact ⟨renamed, rfl, hpublished⟩
  · intro hhash
    rw [publish, failIf_of_true hhash, error_bind]
    exact ⟨_, rfl⟩

theorem put_of_invalid (h : ContentId.ofHex? expectedChunkId = none) :
    ∃ e, put env tree suffix expectedChunkId data = (.error e, tree) := by
  rw [put, validateChunkId, h]
  exact ⟨_, rfl⟩

/-- A put that throws has changed nothing for any chunk: the directory that it may have
created is empty. -/
theorem put_threw {e : Exc} {final : ChunkTree}
    (h : put env tree suffix expectedChunkId data = (.error e, final)) (id : ContentId) :
    entryOf final id = entryOf tree id := by
  have hsame {x : Exc} (h : ((.error x, tree) : Except Exc Unit × ChunkTree) = (.error e, final)) :
      entryOf final id = entryOf tree id := by rw [(Prod.mk.inj h).2]
  rw [put] at h
  cases hvalid : validateChunkId expectedChunkId with
  | error x => exact hsame (by rwa [hvalid] at h)
  | ok chunkId =>
      rw [hvalid] at h
      simp only at h
      split at h
      · cases hget : get env tree expectedChunkId with
        | error x => exact hsame (by rwa [hget] at h)
        | ok bytes =>
            rw [hget] at h
            cases (Prod.mk.inj h).1
      · cases hmade : createDirectories tree (fanoutName chunkId) with
        | error x => exact hsame (by rwa [hmade] at h)
        | ok made =>
            obtain ⟨files, hstaged⟩ := createDirectories_staged hmade
            rw [hmade] at h
            simp only at h
            cases hcreated : createTemporary made (fanoutName chunkId) (temporaryName suffix) with
            | error x =>
                rw [hcreated] at h
                rw [← (Prod.mk.inj h).2, hstaged.unchanged]
            | ok created =>
                obtain ⟨files, hcreatedStaged, -⟩ := hstaged.createTemporary hcreated
                obtain ⟨files, hwritten, -⟩ :=
                  @Staged.write _ _ _ suffix _ hcreatedStaged data
                rw [hcreated] at h
                simp only at h
                split at h
                · rw [← (Prod.mk.inj h).2,
                    entryOf_removeFile_of_ne (temporaryName_ne_hex suffix id).symm,
                    hwritten.unchanged]
                · cases (Prod.mk.inj h).1

/-- The put of the chunk store that the tree lists, up to the order of its files. -/
theorem put_hex (hlisted : Listed tree) (hio : NoIoErrors tree suffix chunkId) :
    (∀ e final, put env tree suffix chunkId.hex data = (.error e, final) →
      LocalChunkStore.put env (listedStore tree) chunkId data = .error e) ∧
    ∀ stored, put env tree suffix chunkId.hex data = (.ok (), stored) →
      ∃ store, LocalChunkStore.put env (listedStore tree) chunkId data = .ok store ∧
        ∀ id, (store.find? id).map ChunkEntry.file = (entryOf stored id).map Prod.snd := by
  have hid := ContentId.ofHex?_hex chunkId
  cases hstored : storedBytes tree chunkId with
  | some bytes =>
      have hput := @put_of_stored env chunkId.hex data tree chunkId suffix bytes hid hstored
      have hget := @get_of_stored env chunkId.hex tree chunkId bytes hid hstored
      rw [get_hex hlisted] at hget
      rw [storedBytes_eq hlisted] at hstored
      have hcontains : LocalChunkStore.contains (listedStore tree) chunkId = true := by
        rw [LocalChunkStore.contains, hstored, Option.isSome_some]
      rw [LocalChunkStore.put, if_pos hcontains, hget, hput]
      by_cases hhash : (env.contentId bytes).hex = chunkId.hex
      · simp only [if_pos hhash]
        constructor
        · rintro e final ⟨⟩
        · rintro stored ⟨⟩
          exact ⟨_, rfl, fun id => file_listedStore hlisted⟩
      · simp only [if_neg hhash]
        constructor
        · exact fun e final he => congrArg Except.error (Except.error.inj (Prod.mk.inj he).1)
        · rintro stored ⟨⟩
  | none =>
      obtain ⟨hmatch, hmismatch⟩ :=
        @put_of_absent env chunkId.hex data tree chunkId suffix ⟨hid, hstored⟩ hio
      rw [storedBytes_eq hlisted] at hstored
      have hcontains : ¬LocalChunkStore.contains (listedStore tree) chunkId = true := by
        rw [LocalChunkStore.contains, hstored]
        exact Bool.false_ne_true
      rw [LocalChunkStore.put, if_neg hcontains]
      by_cases hhash : (env.contentId data).hex = chunkId.hex
      · obtain ⟨renamed, hput, hpublished⟩ := hmatch hhash
        have htarget : ¬((listedStore tree).find? chunkId).map ChunkEntry.file =
            some .directory := by
          rw [file_listedStore hlisted]
          exact hio.target
        rw [failIf_of_false (not_not.mpr (ContentId.hex_injective hhash)), ok_bind,
          failIf_of_false htarget, ok_bind, hput]
        constructor
        · rintro e final ⟨⟩
        · rintro stored ⟨⟩
          refine ⟨_, rfl, fun id => ?_⟩
          rw [Table.find?_upsert]
          by_cases hother : chunkId = id
          · rw [if_pos hother, ← hother, hpublished.stored, Option.map_some, Option.map_some]
          · rw [if_neg hother, file_listedStore hlisted,
              hpublished.unchanged id (Ne.symm hother)]
      · have hne : env.contentId data ≠ chunkId := fun heq => hhash (congrArg ContentId.hex heq)
        obtain ⟨final, hput⟩ := hmismatch hhash
        rw [failIf_of_true hne, error_bind, hput]
        constructor
        · exact fun e final he => congrArg Except.error (Except.error.inj (Prod.mk.inj he).1)
        · rintro stored ⟨⟩

/-! ## Data and id -/

/-- A put returns exactly if the data has the id, and stores it. -/
def PutStores (env : Environment) (tree : ChunkTree) (suffix : List Char)
    (expectedChunkId : String) (data : List UInt8) : Prop :=
  ((∃ stored, put env tree suffix expectedChunkId data = (.ok (), stored)) ↔
    (env.contentId data).hex = expectedChunkId) ∧
  ∀ stored, put env tree suffix expectedChunkId data = (.ok (), stored) →
    get env stored expectedChunkId = .ok data

theorem putStores_of_absent (h : Absent tree expectedChunkId chunkId)
    (hio : NoIoErrors tree suffix chunkId) : PutStores env tree suffix expectedChunkId data := by
  obtain ⟨hmatch, hmismatch⟩ := @put_of_absent env expectedChunkId data tree chunkId suffix h hio
  by_cases hhash : (env.contentId data).hex = expectedChunkId
  · obtain ⟨renamed, hok, hpublished⟩ := hmatch hhash
    refine ⟨iff_of_true ⟨renamed, hok⟩ hhash, fun stored hstored => ?_⟩
    obtain rfl := (Prod.mk.inj (hok.symm.trans hstored)).2
    have hbytes : storedBytes renamed chunkId = some data := by
      rw [storedBytes, hpublished.stored, Option.bind_some, ChunkFile.regularBytes]
    rw [get_of_stored h.1 hbytes, if_pos hhash]
  · obtain ⟨final, hput⟩ := hmismatch hhash
    refine ⟨iff_of_false ?_ hhash, fun stored hstored => ?_⟩
    · rintro ⟨stored, hstored⟩
      cases hput.symm.trans hstored
    · cases hput.symm.trans hstored

theorem putStores_iff_of_stored {bytes : List UInt8}
    (hid : ContentId.ofHex? expectedChunkId = some chunkId)
    (hstored : storedBytes tree chunkId = some bytes) :
    PutStores env tree suffix expectedChunkId data ↔ bytes = data ∨
      ((env.contentId bytes).hex ≠ expectedChunkId ∧
        (env.contentId data).hex ≠ expectedChunkId) := by
  have hput := @put_of_stored env expectedChunkId data tree chunkId suffix bytes hid hstored
  have hget := @get_of_stored env expectedChunkId tree chunkId bytes hid hstored
  by_cases hbytes : (env.contentId bytes).hex = expectedChunkId
  · rw [if_pos hbytes] at hput hget
    constructor
    · rintro ⟨-, hstores⟩
      exact .inl (Except.ok.inj (hget.symm.trans (hstores tree hput)))
    · rintro (rfl | ⟨hne, -⟩)
      · refine ⟨iff_of_true ⟨tree, hput⟩ hbytes, fun stored hok => ?_⟩
        obtain rfl := (Prod.mk.inj (hput.symm.trans hok)).2
        exact hget
      · exact absurd hbytes hne
  · rw [if_neg hbytes] at hput
    have hfails : ¬∃ stored, put env tree suffix expectedChunkId data = (.ok (), stored) := by
      rintro ⟨stored, hok⟩
      cases hput.symm.trans hok
    constructor
    · rintro ⟨haccepts, -⟩
      exact .inr ⟨hbytes, fun hdata => hfails (haccepts.mpr hdata)⟩
    · intro h
      have hdata : ¬(env.contentId data).hex = expectedChunkId := by
        rcases h with rfl | ⟨-, hdata⟩
        · exact hbytes
        · exact hdata
      exact ⟨iff_of_false hfails hdata, fun stored hok => absurd ⟨stored, hok⟩ hfails⟩

/-- Where a file is stored for the id, it has to be the data itself, unless neither has
the id. -/
theorem putStores_iff (hio : ∀ chunkId, ContentId.ofHex? expectedChunkId = some chunkId →
      NoIoErrors tree suffix chunkId) :
    PutStores env tree suffix expectedChunkId data ↔
      ∀ chunkId bytes, ContentId.ofHex? expectedChunkId = some chunkId →
        storedBytes tree chunkId = some bytes →
        bytes = data ∨ ((env.contentId bytes).hex ≠ expectedChunkId ∧
          (env.contentId data).hex ≠ expectedChunkId) := by
  cases hid : ContentId.ofHex? expectedChunkId with
  | none =>
      obtain ⟨e, hput⟩ := @put_of_invalid env expectedChunkId data tree suffix hid
      refine iff_of_true ⟨iff_of_false ?_ ?_, fun stored hok => ?_⟩ ?_
      · rintro ⟨stored, hok⟩
        cases hput.symm.trans hok
      · intro hhex
        rw [← hhex, ContentId.ofHex?_hex] at hid
        cases hid
      · cases hput.symm.trans hok
      · rintro chunkId bytes ⟨⟩
  | some chunkId =>
      cases hstored : storedBytes tree chunkId with
      | none =>
          refine iff_of_true (putStores_of_absent ⟨hid, hstored⟩ (hio chunkId hid)) ?_
          rintro other bytes hother hbytes
          obtain rfl := Option.some.inj hother
          rw [hstored] at hbytes
          cases hbytes
      | some bytes =>
          rw [putStores_iff_of_stored hid hstored]
          constructor
          · intro h other bytes' hother hbytes
            obtain rfl := Option.some.inj hother
            obtain rfl := Option.some.inj (hstored.symm.trans hbytes)
            exact h
          · exact fun h => h chunkId bytes rfl hstored

theorem putStores_iff_sample :
    PutStores Metadata.Sample.env .empty "abcdef".toList Metadata.Sample.chunkId.hex [97] ↔
      ∀ chunkId bytes, ContentId.ofHex? Metadata.Sample.chunkId.hex = some chunkId →
        storedBytes .empty chunkId = some bytes →
        bytes = [97] ∨
          ((Metadata.Sample.env.contentId bytes).hex ≠ Metadata.Sample.chunkId.hex ∧
            (Metadata.Sample.env.contentId [97]).hex ≠ Metadata.Sample.chunkId.hex) := by
  refine putStores_iff fun chunkId h => ?_
  obtain rfl := Option.some.inj ((ContentId.ofHex?_hex _).symm.trans h)
  exact ⟨⟨_, _, rfl, rfl⟩, by decide⟩

/-! ### A stored file -/

/-- A store with one file, for the chunk that consists of the byte `a`. -/
def Sample.treeWith (bytes : List UInt8) : ChunkTree :=
  ⟨[⟨fanoutName Metadata.Sample.chunkId,
    .directory ⟨[⟨Metadata.Sample.chunkId.hex, .regular bytes⟩], List.nodup_singleton _⟩⟩],
    List.nodup_singleton _⟩

theorem Sample.storedBytes_treeWith (bytes : List UInt8) :
    storedBytes (Sample.treeWith bytes) Metadata.Sample.chunkId = some bytes := by
  have hentry := Table.find?_of_mem (show _ ∈ Sample.treeWith bytes from List.mem_singleton_self _)
  have hmem : (⟨Metadata.Sample.chunkId.hex, .regular bytes⟩ : FileEntry) ∈
      (⟨[⟨Metadata.Sample.chunkId.hex, .regular bytes⟩], List.nodup_singleton _⟩ : Files) :=
    List.mem_singleton_self _
  have hfile := Table.find?_of_mem hmem
  simp only at hentry hfile
  rw [storedBytes, entryOf, filesOf, hentry, Option.bind_some, Fanout.resolve, Option.bind_some,
    hfile, Option.map_some, Option.bind_some, ChunkFile.regularBytes]

/-- An intact file hides wrong data, and a corrupted one keeps right data out. -/
theorem put_ignores_data :
    ¬PutStores Metadata.Sample.env (Sample.treeWith [97]) [] Metadata.Sample.chunkId.hex [98] ∧
      ¬PutStores Metadata.Sample.env (Sample.treeWith [98]) [] Metadata.Sample.chunkId.hex [97] := by
  have hid := ContentId.ofHex?_hex Metadata.Sample.chunkId
  have hhash : (Metadata.Sample.env.contentId [97]).hex = Metadata.Sample.chunkId.hex := by
    decide +kernel
  constructor
  · rw [putStores_iff_of_stored hid (Sample.storedBytes_treeWith [97])]
    rintro (h | ⟨hne, -⟩)
    · exact absurd h (by decide)
    · exact hne hhash
  · rw [putStores_iff_of_stored hid (Sample.storedBytes_treeWith [98])]
    rintro (h | ⟨-, hne⟩)
    · exact absurd h (by decide)
    · exact hne hhash

end ChunkTree

end AiArtifactStore.Storage
