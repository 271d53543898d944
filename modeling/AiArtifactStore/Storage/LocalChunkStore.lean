import AiArtifactStore.Identity.ContentId
import AiArtifactStore.Metadata.Exceptions
import AiArtifactStore.Foundation.Paging
import AiArtifactStore.Foundation.Table

/-!
# The chunk store of a storage node

The directory `chunks` of one node: at most one entry for each chunk id.  `put`
takes effect with its rename; an I/O error is not modelled here.
-/

namespace AiArtifactStore.Storage

open AiArtifactStore.Foundation
open AiArtifactStore.Identity
open AiArtifactStore.Metadata

/-- What stands at the path of a chunk.  A symlink carries the bytes of the
regular file that it resolves to, if it does. -/
inductive ChunkFile where
  | regular (bytes : List UInt8)
  | symlink (target : Option (List UInt8))
  | directory
  deriving DecidableEq, Repr

structure ChunkEntry where
  chunkId : ContentId
  file : ChunkFile
  deriving DecidableEq, Repr

abbrev ChunkStore := Table ChunkEntry.chunkId

structure StoredChunkInfo where
  chunkId : ContentId
  sizeBytes : Nat
  deriving DecidableEq, Repr

structure StoredChunkPage where
  chunks : List StoredChunkInfo
  nextAfter : Option ContentId
  deriving DecidableEq, Repr

def ChunkFile.regularBytes : ChunkFile → Option (List UInt8)
  | .regular bytes => some bytes
  | .symlink target => target
  | .directory => none

namespace LocalChunkStore

def readFile (store : ChunkStore) (chunkId : ContentId) : Option (List UInt8) :=
  (store.find? chunkId).bind fun entry => entry.file.regularBytes

def contains (store : ChunkStore) (chunkId : ContentId) : Bool := (readFile store chunkId).isSome

def get (env : Environment) (store : ChunkStore) (chunkId : ContentId) :
    Except Exc (List UInt8) := do
  let data ← orFail (readFile store chunkId) (.runtimeError "requested chunk does not exist")
  failIf (env.contentId data ≠ chunkId)
    (.runtimeError "stored chunk failed SHA-256 verification")
  .ok data

def put (env : Environment) (store : ChunkStore) (expectedChunkId : ContentId)
    (data : List UInt8) : Except Exc ChunkStore :=
  if contains store expectedChunkId then
    match get env store expectedChunkId with
    | .error e => .error e
    | .ok _ => .ok store
  else do
    failIf (env.contentId data ≠ expectedChunkId)
      (.runtimeError "chunk content does not match expected chunk ID")
    failIf ((store.find? expectedChunkId).map ChunkEntry.file = some .directory)
      (.runtimeError "cannot rename")
    .ok (store.upsert ⟨expectedChunkId, .regular data⟩)

def remove (store : ChunkStore) (chunkId : ContentId) : Except Exc (Bool × ChunkStore) :=
  match (store.find? chunkId).map ChunkEntry.file with
  | none => .ok (false, store)
  | some (.symlink none) => .ok (false, store)
  | some (.symlink (some _)) =>
      .error (.runtimeError "chunk path is a symlink; refusing to remove")
  | some .directory =>
      .error (.invalidArgument "chunk path exists but is not a regular file")
  | some (.regular _) => .ok (true, store.filter fun entry => entry.chunkId ≠ chunkId)

def discoveredChunks (store : ChunkStore) : List StoredChunkInfo :=
  (store.rows.filterMap fun entry =>
    match entry.file with
    | .regular bytes => some ⟨entry.chunkId, bytes.length⟩
    | _ => none).insertionSort fun a b => a.chunkId ≤ b.chunkId

def remainingChunks (after : Option ContentId) (chunks : List StoredChunkInfo) :
    List StoredChunkInfo :=
  match after with
  | none => chunks
  | some afterChunkId => chunks.dropWhile fun info => info.chunkId ≤ afterChunkId

def listChunks (store : ChunkStore) (after : Option ContentId) (limit : Nat) :
    Except Exc StoredChunkPage := do
  failIf (limit < 1 ∨ limit > 256)
    (.invalidArgument "chunk inventory limit must be between 1 and 256")
  let remaining := remainingChunks after (discoveredChunks store)
  let chunks := remaining.take limit
  .ok
    { chunks := chunks
      nextAfter :=
        if limit < remaining.length then chunks.getLast?.map StoredChunkInfo.chunkId else none }

/-! ## Regular files -/

def regular? (store : ChunkStore) (chunkId : ContentId) : Option (List UInt8) :=
  match (store.find? chunkId).map ChunkEntry.file with
  | some (.regular bytes) => some bytes
  | _ => none

theorem regular?_eq_some {store : ChunkStore} {chunkId : ContentId} {bytes : List UInt8} :
    regular? store chunkId = some bytes ↔ ⟨chunkId, .regular bytes⟩ ∈ store := by
  unfold regular?
  cases hfind : store.find? chunkId with
  | none =>
      simp only [Option.map_none, reduceCtorEq, false_iff]
      intro hmem
      exact Table.find?_eq_none.mp hfind _ hmem rfl
  | some entry =>
      obtain ⟨hmem, hkey⟩ := Table.find?_eq_some.mp hfind
      obtain ⟨id, file⟩ := entry
      obtain rfl : id = chunkId := hkey
      constructor
      · intro h
        cases file <;> simp_all
      · intro h
        obtain ⟨-, rfl⟩ := ChunkEntry.mk.inj (Table.key_inj hmem h rfl)
        rfl

theorem regular?_without {store : ChunkStore} {chunkId other : ContentId} {bytes : List UInt8} :
    regular? (store.filter fun entry => entry.chunkId ≠ chunkId) other = some bytes ↔
      regular? store other = some bytes ∧ other ≠ chunkId := by
  simp only [regular?_eq_some, Table.mem_filter, decide_eq_true_eq]

theorem remove_of_regular {store : ChunkStore} {chunkId : ContentId} {bytes : List UInt8}
    (h : regular? store chunkId = some bytes) :
    remove store chunkId = .ok (true, store.filter fun entry => entry.chunkId ≠ chunkId) := by
  have hfind := Table.find?_of_mem (regular?_eq_some.mp h)
  simp only at hfind
  simp [remove, hfind]

theorem remove_ok {store store' : ChunkStore} {chunkId : ContentId} {deleted : Bool}
    (h : remove store chunkId = .ok (deleted, store')) :
    (∀ entry, entry.chunkId ≠ chunkId → (entry ∈ store' ↔ entry ∈ store)) ∧
      (∀ entry ∈ store', entry ∈ store) ∧ regular? store' chunkId = none := by
  unfold remove at h
  cases hfile : (store.find? chunkId).map ChunkEntry.file with
  | none =>
      simp only [hfile, Except.ok.injEq, Prod.mk.injEq] at h
      obtain ⟨-, rfl⟩ := h
      exact ⟨fun _ _ => Iff.rfl, fun _ h => h, by simp [regular?, hfile]⟩
  | some file =>
      cases file with
      | directory => simp [hfile] at h
      | symlink target =>
          cases target with
          | some bytes => simp [hfile] at h
          | none =>
              simp only [hfile, Except.ok.injEq, Prod.mk.injEq] at h
              obtain ⟨-, rfl⟩ := h
              exact ⟨fun _ _ => Iff.rfl, fun _ h => h, by simp [regular?, hfile]⟩
      | regular bytes =>
          simp only [hfile, Except.ok.injEq, Prod.mk.injEq] at h
          obtain ⟨-, rfl⟩ := h
          refine ⟨fun entry hne => by simp [Table.mem_filter, hne],
            fun entry hentry => (Table.mem_filter.mp hentry).1, ?_⟩
          cases hnone : regular? _ chunkId with
          | none => rfl
          | some rest => simpa [Table.mem_filter] using regular?_eq_some.mp hnone

/-! ## Inventory pages -/

def chunkKey (info : StoredChunkInfo) : Nat := info.chunkId.digest.toNat

def cursorKey (after : Option ContentId) : Option Nat := after.map fun id => id.digest.toNat

theorem remainingChunks_eq (after : Option ContentId) (chunks : List StoredChunkInfo) :
    remainingChunks after chunks = Paging.beyond chunkKey (cursorKey after) chunks := by
  cases after <;> rfl

theorem mem_discoveredChunks {store : ChunkStore} {info : StoredChunkInfo} :
    info ∈ discoveredChunks store ↔
      ∃ bytes, regular? store info.chunkId = some bytes ∧ info.sizeBytes = bytes.length := by
  rw [discoveredChunks, (List.perm_insertionSort _ _).mem_iff, List.mem_filterMap]
  constructor
  · rintro ⟨⟨id, file⟩, hentry, hinfo⟩
    cases file with
    | regular bytes =>
        obtain rfl := Option.some.inj hinfo
        exact ⟨bytes, regular?_eq_some.mpr hentry, rfl⟩
    | symlink target => cases hinfo
    | directory => cases hinfo
  · rintro ⟨bytes, hbytes, hsize⟩
    refine ⟨_, regular?_eq_some.mp hbytes, ?_⟩
    simp [← hsize]

theorem discoveredChunks_sorted (store : ChunkStore) :
    Paging.Sorted chunkKey (discoveredChunks store) := by
  have hle : (discoveredChunks store).Pairwise fun a b => a.chunkId ≤ b.chunkId := by
    have : IsTrans StoredChunkInfo fun a b => a.chunkId ≤ b.chunkId :=
      ⟨fun a b c hab hbc => Nat.le_trans hab hbc⟩
    have : Std.Total fun a b : StoredChunkInfo => a.chunkId ≤ b.chunkId :=
      ⟨fun a b => Nat.le_total _ _⟩
    exact List.pairwise_insertionSort _ _
  have hkeys : ((discoveredChunks store).map StoredChunkInfo.chunkId).Nodup := by
    have hperm := (List.perm_insertionSort (fun a b : StoredChunkInfo => a.chunkId ≤ b.chunkId)
      (store.rows.filterMap fun entry =>
        match entry.file with
        | .regular bytes => some ⟨entry.chunkId, bytes.length⟩
        | _ => none)).map StoredChunkInfo.chunkId
    rw [discoveredChunks, hperm.nodup_iff, List.map_filterMap]
    refine List.Nodup.sublist ?_ store.keysNodup
    generalize store.rows = rows
    induction rows with
    | nil => exact .slnil
    | cons entry rows ih =>
        obtain ⟨id, file⟩ := entry
        cases file with
        | regular bytes => simpa using ih
        | symlink target => exact .cons _ ih
        | directory => exact .cons _ ih
  have hne : (discoveredChunks store).Pairwise fun a b => a.chunkId ≠ b.chunkId :=
    List.pairwise_map.mp hkeys
  refine (hle.and hne).imp fun {a b} h => ?_
  rcases Nat.lt_or_eq_of_le h.1 with hlt | heq
  · exact hlt
  · exact absurd (ContentId.ext_toNat heq) h.2

theorem discoveredChunks_congr {store store' : ChunkStore}
    (h : ∀ chunkId, regular? store chunkId = regular? store' chunkId) :
    discoveredChunks store = discoveredChunks store' :=
  (discoveredChunks_sorted store).ext (discoveredChunks_sorted store') fun info => by
    rw [mem_discoveredChunks, mem_discoveredChunks, h]

structure PageOf (store : ChunkStore) (after : Option ContentId) (page : StoredChunkPage) :
    Prop where
  listed : ∀ info ∈ page.chunks, info ∈ discoveredChunks store
  beyond : ∀ info ∈ page.chunks, ∀ a ∈ after, a < info.chunkId
  sorted : page.chunks.Pairwise fun a b => a.chunkId < b.chunkId
  complete : ∀ info ∈ discoveredChunks store, (∀ a ∈ after, a < info.chunkId) →
    info ∈ page.chunks ∨ ∃ next ∈ page.nextAfter, next < info.chunkId
  cursor : ∀ next ∈ page.nextAfter, page.chunks.getLast?.map StoredChunkInfo.chunkId = some next

theorem mem_remainingChunks {store : ChunkStore} {after : Option ContentId}
    {info : StoredChunkInfo} :
    info ∈ remainingChunks after (discoveredChunks store) ↔
      info ∈ discoveredChunks store ∧ ∀ a ∈ after, a < info.chunkId := by
  rw [remainingChunks_eq, Paging.mem_beyond (discoveredChunks_sorted store)]
  cases after with
  | none => simp [cursorKey]
  | some a => simp [cursorKey, chunkKey, ContentId.lt_iff]

theorem remainingChunks_sorted (store : ChunkStore) (after : Option ContentId) :
    Paging.Sorted chunkKey (remainingChunks after (discoveredChunks store)) := by
  rw [remainingChunks_eq]
  exact Paging.beyond_sorted (discoveredChunks_sorted store) _

theorem listChunks_isOk (store : ChunkStore) (after : Option ContentId) {limit : Nat}
    (h : 1 ≤ limit ∧ limit ≤ 256) : ∃ page, listChunks store after limit = .ok page := by
  have hlimit : ¬(limit < 1 ∨ limit > 256) := by omega
  exact ⟨_, by rw [listChunks, failIf_of_false hlimit, ok_bind]⟩

theorem listChunks_ok {store : ChunkStore} {after : Option ContentId} {limit : Nat}
    {page : StoredChunkPage} (h : listChunks store after limit = .ok page) :
    PageOf store after page ∧ page.chunks.length ≤ limit := by
  simp only [listChunks, bind_eq_ok, exists_unit, failIf_eq_ok] at h
  obtain ⟨hlimit, h⟩ := h
  obtain rfl := Except.ok.inj h
  have hsorted := remainingChunks_sorted store after
  have hmem := @mem_remainingChunks store after
  generalize remainingChunks after (discoveredChunks store) = remaining at hsorted hmem
  have hsplit := List.take_append_drop limit remaining
  have hpairwise := hsorted
  rw [← hsplit, Paging.Sorted, List.pairwise_append] at hpairwise
  refine ⟨⟨?_, ?_, hpairwise.1, ?_, ?_⟩, List.length_take_le _ _⟩
  · exact fun info hinfo => (hmem.mp (List.mem_of_mem_take hinfo)).1
  · exact fun info hinfo => (hmem.mp (List.mem_of_mem_take hinfo)).2
  · intro info hinfo hbeyond
    have hremaining := hmem.mpr ⟨hinfo, hbeyond⟩
    rw [← hsplit] at hremaining
    rcases List.mem_append.mp hremaining with htaken | hdropped
    · exact .inl htaken
    · -- A dropped entry stands after the last one of the page, if the page has one.
      have hlength : limit < remaining.length := by
        by_contra hge
        rw [List.drop_eq_nil_of_le (Nat.le_of_not_lt hge)] at hdropped
        simp at hdropped
      cases hlast : (remaining.take limit).getLast? with
      | none =>
          have hempty := congrArg List.length (List.getLast?_eq_none_iff.mp hlast)
          simp only [List.length_take, List.length_nil] at hempty
          omega
      | some last =>
          refine .inr ⟨last.chunkId, by simp only [hlength, ↓reduceIte]; rfl, ?_⟩
          exact hpairwise.2.2 last (List.mem_of_getLast? hlast) info hdropped
  · intro next hnext
    split at hnext
    · exact hnext
    · cases hnext

end LocalChunkStore

end AiArtifactStore.Storage
