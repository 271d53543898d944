import AiArtifactStore.Gc.Engine
import AiArtifactStore.Metadata.Completion
import Mathlib.Algebra.Order.BigOperators.Group.List
import Mathlib.Data.List.Perm.Subperm

/-!
# One undisturbed walk

What holds between two requests of `collect` in apply mode when no other client
acts: `Underway` until the run completes, `Finished` from then on.
-/

namespace AiArtifactStore.Gc

open AiArtifactStore.Foundation
open AiArtifactStore.Identity
open AiArtifactStore.Metadata
open AiArtifactStore.Storage
open AiArtifactStore.Client

/-! ## The metadata of an open run -/

def startedDb (engine : GcEngine) (request : GcRequest) (db : Db) : Db :=
  { db with gcRuns := db.gcRuns.insert (requestedRun engine request) }

structure Opened (engine : GcEngine) (request : GcRequest) (db : Db) (run : GcRun) : Prop where
  validNode : nodeIdInvalid engine.storageNodeId = false
  accepted : startGcRun db (requestedRun engine request) = .ok (run, startedDb engine request db)
  isOpen : run.state = .open

section

variable {engine : GcEngine} {request : GcRequest} {db : Db} {run : GcRun}

theorem validateGcRunStartRequest_requested (h : nodeIdInvalid engine.storageNodeId = false) :
    validateGcRunStartRequest (requestedRun engine request) = .ok () := by
  have hstate : ¬(requestedRun engine request).state ≠ .open := fun h => h rfl
  have hnode : ¬nodeIdInvalid (requestedRun engine request).targetNodeId = true := by
    simp [requestedRun, h]
  have hstats : ¬((requestedRun engine request).physicalStats ≠ .zero ∨
      (requestedRun engine request).metadataStats ≠ .zero) := by
    simp [requestedRun]
  rw [validateGcRunStartRequest, failIf_of_false hstate, ok_bind, failIf_of_false hnode, ok_bind,
    failIf_of_false hstats]

theorem startGcRun_stored (hvalid : nodeIdInvalid engine.storageNodeId = false)
    (h : db.gcRuns.find? request.runId = some run) (hnode : run.targetNodeId = engine.storageNodeId)
    (hmode : run.mode = request.mode) :
    startGcRun db (requestedRun engine request) = .ok (run, db) := by
  have hfind : db.gcRuns.find? (requestedRun engine request).runId = some run := h
  have hsame : run.targetNodeId = (requestedRun engine request).targetNodeId ∧
      run.mode = (requestedRun engine request).mode := ⟨hnode, hmode⟩
  rw [startGcRun, validateGcRunStartRequest_requested hvalid, ok_bind, hfind]
  simp only [hsame, and_self, ↓reduceIte]

theorem Opened.stored (h : Opened engine request db run) :
    (startedDb engine request db).gcRuns.find? request.runId = some run := by
  rcases startGcRun_ok h.accepted with ⟨hdb, hfind, -, -⟩ | ⟨hstarts, rfl, -⟩
  · rw [hdb]
    exact hfind
  · exact Table.find?_of_mem (Table.mem_insert_new hstarts.fresh)

theorem Opened.runId (h : Opened engine request db run) : run.runId = request.runId :=
  Table.key_of_find? h.stored

theorem Opened.identity (h : Opened engine request db run) :
    run.targetNodeId = engine.storageNodeId ∧ run.mode = request.mode := by
  rcases startGcRun_ok h.accepted with ⟨-, -, hnode, hmode⟩ | ⟨-, rfl, -⟩
  · exact ⟨hnode, hmode⟩
  · exact ⟨rfl, rfl⟩

theorem Opened.again (h : Opened engine request db run) :
    startGcRun (startedDb engine request db) (requestedRun engine request) =
      .ok (run, startedDb engine request db) :=
  startGcRun_stored h.validNode h.stored h.identity.1 h.identity.2

theorem Opened.unique {run' : GcRun} (h : Opened engine request db run)
    (h' : Opened engine request db run') : run' = run :=
  Option.some.inj (h'.stored.symm.trans h.stored)

theorem opened_of_startGcRun (hvalid : nodeIdInvalid engine.storageNodeId = false)
    (hopen : ∀ run, db.gcRuns.find? request.runId = some run → run.state = .open) {db' : Db}
    (h : startGcRun db (requestedRun engine request) = .ok (run, db')) :
    Opened engine request db run ∧ db' = startedDb engine request db := by
  have hdb' : db' = startedDb engine request db := by
    rcases startGcRun_ok h with ⟨rfl, hfind, -, -⟩ | ⟨-, -, hdb'⟩
    · unfold startedDb
      rw [Table.insert_of_find?_some hfind]
    · exact hdb'
  have hstate : run.state = .open := by
    rcases startGcRun_ok h with ⟨-, hfind, -, -⟩ | ⟨-, rfl, -⟩
    · exact hopen run hfind
    · rfl
  exact ⟨⟨hvalid, hdb' ▸ h, hstate⟩, hdb'⟩

end

/-! ## The chunks of the node -/

/-- An entry that a completed apply run leaves in place. -/
def keepable (db : Db) (entry : ChunkEntry) : Bool :=
  match entry.file with
  | .regular _ => db.isLiveChunk entry.chunkId
  | _ => true

def liveStore (world : World) : ChunkStore := world.store.filter (keepable world.db)

/-- The store is the one of the world without some regular files of dead chunks. -/
def Trimmed (world : World) (store : ChunkStore) : Prop :=
  ∃ removed : List ContentId,
    (∀ chunkId ∈ removed, (LocalChunkStore.regular? world.store chunkId).isSome ∧
      ¬world.db.LiveChunk chunkId) ∧
    store = world.store.filter fun entry => entry.chunkId ∉ removed

section

variable {world : World} {store : ChunkStore} {chunkId : ContentId} {bytes : List UInt8}

theorem Trimmed.refl (world : World) : Trimmed world world.store :=
  ⟨[], by simp, (Table.filter_eq_self fun _ _ => by simp).symm⟩

theorem Trimmed.regular (h : Trimmed world store)
    (hbytes : LocalChunkStore.regular? store chunkId = some bytes) :
    LocalChunkStore.regular? world.store chunkId = some bytes := by
  obtain ⟨removed, -, rfl⟩ := h
  exact LocalChunkStore.regular?_eq_some.mpr
    (Table.mem_filter.mp (LocalChunkStore.regular?_eq_some.mp hbytes)).1

theorem Trimmed.remove (h : Trimmed world store)
    (hregular : (LocalChunkStore.regular? store chunkId).isSome)
    (hdead : ¬world.db.LiveChunk chunkId) :
    Trimmed world (store.filter fun entry => entry.chunkId ≠ chunkId) := by
  obtain ⟨bytes, hbytes⟩ := Option.isSome_iff_exists.mp hregular
  have hbefore := h.regular hbytes
  obtain ⟨removed, hremoved, rfl⟩ := h
  refine ⟨chunkId :: removed, fun id hid => ?_, Table.ext_rows ?_⟩
  · rcases List.mem_cons.mp hid with rfl | hid
    · exact ⟨by rw [hbefore]; rfl, hdead⟩
    · exact hremoved id hid
  · change (List.filter _ (List.filter _ _)) = _
    rw [List.filter_filter]
    refine List.filter_congr fun entry _ => ?_
    simp only [List.mem_cons, not_or, Bool.decide_and]

/-- When every regular file left is live, exactly the dead ones are gone. -/
theorem Trimmed.eq_liveStore (h : Trimmed world store)
    (hlive : ∀ chunkId, (LocalChunkStore.regular? store chunkId).isSome →
      world.db.LiveChunk chunkId) : store = liveStore world := by
  obtain ⟨removed, hremoved, rfl⟩ := h
  refine Table.ext_rows (List.filter_congr fun entry hentry => ?_)
  obtain ⟨chunkId, file⟩ := entry
  by_cases hmem : chunkId ∈ removed
  · obtain ⟨hregular, hdead⟩ := hremoved chunkId hmem
    obtain ⟨bytes, hbytes⟩ := Option.isSome_iff_exists.mp hregular
    have hsame := Table.key_inj (LocalChunkStore.regular?_eq_some.mp hbytes) hentry rfl
    obtain ⟨-, rfl⟩ := ChunkEntry.mk.inj hsame
    simp [hmem, keepable, Db.isLiveChunk_eq_false.mpr hdead]
  · cases file with
    | regular bytes =>
        have hkept : LocalChunkStore.regular?
            (world.store.filter fun entry => entry.chunkId ∉ removed) chunkId = some bytes :=
          LocalChunkStore.regular?_eq_some.mpr
            (Table.mem_filter.mpr ⟨hentry, by simpa using hmem⟩)
        have hchunk := hlive chunkId (by rw [hkept]; rfl)
        simp [hmem, keepable, hchunk]
    | symlink target => simp [hmem, keepable]
    | directory => simp [hmem, keepable]

theorem regular?_liveStore :
    LocalChunkStore.regular? (liveStore world) chunkId = some bytes ↔
      LocalChunkStore.regular? world.store chunkId = some bytes ∧ world.db.LiveChunk chunkId := by
  simp only [LocalChunkStore.regular?_eq_some, liveStore, Table.mem_filter, keepable,
    Db.isLiveChunk_iff]

end

/-! ## Counters -/

def totalBytes (chunks : List StoredChunkInfo) : Nat :=
  (chunks.map StoredChunkInfo.sizeBytes).sum

/-- No counter of a walk over the store exceeds a `BIGINT`. -/
def TotalsFit (store : ChunkStore) : Prop :=
  (LocalChunkStore.discoveredChunks store).length ≤ postgresBigintMax ∧
    totalBytes (LocalChunkStore.discoveredChunks store) ≤ postgresBigintMax

/-- The counters are bounded by the chunks of the store that the walk has passed;
`rest` are those of the page whose decisions are still to be taken. -/
structure Tally (store : ChunkStore) (stats : GcPhysicalStats)
    (passed rest : List StoredChunkInfo) : Prop where
  sorted : (passed ++ rest).Pairwise fun a b => a.chunkId < b.chunkId
  listed : ∀ info ∈ passed ++ rest, info ∈ LocalChunkStore.discoveredChunks store
  scannedChunks : stats.physicalChunksScanned ≤ (passed ++ rest).length
  scannedBytes : stats.physicalBytesScanned ≤ totalBytes (passed ++ rest)
  collectibleChunks : stats.collectibleChunks ≤ passed.length
  collectibleBytes : stats.collectibleBytes ≤ totalBytes passed
  deletedChunks : stats.physicallyDeletedChunks ≤ passed.length
  deletedBytes : stats.physicallyDeletedBytes ≤ totalBytes passed

section

variable {store : ChunkStore} {stats : GcPhysicalStats} {passed rest : List StoredChunkInfo}
  {info : StoredChunkInfo}

theorem addU64_le {a b bound bound' : Nat} (ha : a ≤ bound) (h : bound + b = bound') :
    addU64 a b ≤ bound' := by
  have := Nat.mod_le (a + b) (2 ^ 64)
  unfold addU64
  omega

theorem totalBytes_append (xs ys : List StoredChunkInfo) :
    totalBytes (xs ++ ys) = totalBytes xs + totalBytes ys := by
  simp [totalBytes]

theorem Tally.zero (store : ChunkStore) : Tally store .zero [] [] :=
  ⟨.nil, by simp, Nat.le_refl _, Nat.le_refl _, Nat.le_refl _, Nat.le_refl _, Nat.le_refl _,
    Nat.le_refl _⟩

theorem Tally.pass {stats' : GcPhysicalStats} (h : Tally store stats passed (info :: rest))
    (hscanned : stats'.physicalChunksScanned = stats.physicalChunksScanned ∧
      stats'.physicalBytesScanned = stats.physicalBytesScanned)
    (hcollectible : stats'.collectibleChunks ≤ passed.length + 1 ∧
      stats'.collectibleBytes ≤ totalBytes passed + info.sizeBytes)
    (hdeleted : stats'.physicallyDeletedChunks ≤ passed.length + 1 ∧
      stats'.physicallyDeletedBytes ≤ totalBytes passed + info.sizeBytes) :
    Tally store stats' (passed ++ [info]) rest := by
  have hlist : passed ++ [info] ++ rest = passed ++ info :: rest := by simp
  have hlength : (passed ++ [info]).length = passed.length + 1 := by simp
  have hbytes : totalBytes (passed ++ [info]) = totalBytes passed + info.sizeBytes := by
    rw [totalBytes_append]
    simp [totalBytes]
  refine ⟨hlist ▸ h.sorted, hlist ▸ h.listed, ?_, ?_, ?_, ?_, ?_, ?_⟩
  · rw [hlist, hscanned.1]
    exact h.scannedChunks
  · rw [hlist, hscanned.2]
    exact h.scannedBytes
  · exact hlength ▸ hcollectible.1
  · exact hbytes ▸ hcollectible.2
  · exact hlength ▸ hdeleted.1
  · exact hbytes ▸ hdeleted.2

theorem Tally.skip (h : Tally store stats passed (info :: rest)) :
    Tally store stats (passed ++ [info]) rest :=
  h.pass ⟨rfl, rfl⟩ ⟨Nat.le_succ_of_le h.collectibleChunks, Nat.le_add_right_of_le h.collectibleBytes⟩
    ⟨Nat.le_succ_of_le h.deletedChunks, Nat.le_add_right_of_le h.deletedBytes⟩

theorem Tally.delete (h : Tally store stats passed (info :: rest)) :
    Tally store (countDeleted (countCollectible stats info) info) (passed ++ [info]) rest :=
  h.pass ⟨rfl, rfl⟩ ⟨addU64_le h.collectibleChunks rfl, addU64_le h.collectibleBytes rfl⟩
    ⟨addU64_le h.deletedChunks rfl, addU64_le h.deletedBytes rfl⟩

theorem Tally.scan (h : Tally store stats passed []) {chunks : List StoredChunkInfo}
    (hsorted : (passed ++ chunks).Pairwise fun a b => a.chunkId < b.chunkId)
    (hlisted : ∀ info ∈ chunks, info ∈ LocalChunkStore.discoveredChunks store) :
    Tally store (chunks.foldl countScanned stats) passed chunks := by
  have hscan : ∀ (chunks : List StoredChunkInfo) (stats : GcPhysicalStats) (m n : Nat),
      stats.physicalChunksScanned ≤ m → stats.physicalBytesScanned ≤ n →
      (chunks.foldl countScanned stats).physicalChunksScanned ≤ m + chunks.length ∧
        (chunks.foldl countScanned stats).physicalBytesScanned ≤ n + totalBytes chunks ∧
        (chunks.foldl countScanned stats).collectibleChunks = stats.collectibleChunks ∧
        (chunks.foldl countScanned stats).collectibleBytes = stats.collectibleBytes ∧
        (chunks.foldl countScanned stats).physicallyDeletedChunks =
          stats.physicallyDeletedChunks ∧
        (chunks.foldl countScanned stats).physicallyDeletedBytes =
          stats.physicallyDeletedBytes := by
    intro chunks
    induction chunks with
    | nil => exact fun _ _ _ hm hn => ⟨hm, hn, rfl, rfl, rfl, rfl⟩
    | cons info chunks ih =>
        intro stats m n hm hn
        have hrest := ih (countScanned stats info) (m + 1) (n + info.sizeBytes)
          (addU64_le hm rfl) (addU64_le hn rfl)
        simp only [List.foldl_cons, List.length_cons, totalBytes, List.map_cons, List.sum_cons]
        refine ⟨?_, ?_, hrest.2.2⟩
        · have := hrest.1
          omega
        · have := hrest.2.1
          simp only [totalBytes] at this
          omega
  have hchunks := h.scannedChunks
  have hbytes := h.scannedBytes
  rw [List.append_nil] at hchunks hbytes
  obtain ⟨h1, h2, h3, h4, h5, h6⟩ := hscan chunks stats _ _ hchunks hbytes
  refine ⟨hsorted, fun info hinfo => ?_, ?_, ?_, ?_, ?_, ?_, ?_⟩
  · rcases List.mem_append.mp hinfo with hinfo | hinfo
    · exact h.listed info (by simpa using hinfo)
    · exact hlisted info hinfo
  · rw [List.length_append]
    exact h1
  · rw [totalBytes_append]
    exact h2
  · exact h3 ▸ h.collectibleChunks
  · exact h4 ▸ h.collectibleBytes
  · exact h5 ▸ h.deletedChunks
  · exact h6 ▸ h.deletedBytes

theorem Tally.fits (h : Tally store stats passed rest) (htotals : TotalsFit store) :
    stats.Fits := by
  have hnodup : (passed ++ rest).Nodup := h.sorted.imp fun hlt he => by
    rw [he] at hlt
    exact Nat.lt_irrefl _ hlt
  obtain ⟨sub, hperm, hsublist⟩ := hnodup.subperm h.listed
  have hlength : (passed ++ rest).length ≤ postgresBigintMax :=
    hperm.length_eq ▸ hsublist.length_le.trans htotals.1
  have hbytes : totalBytes (passed ++ rest) ≤ postgresBigintMax := by
    have hsum : totalBytes sub = totalBytes (passed ++ rest) :=
      (hperm.map StoredChunkInfo.sizeBytes).sum_eq
    rw [← hsum]
    exact ((hsublist.map StoredChunkInfo.sizeBytes).sum_le_sum fun _ _ => Nat.zero_le _).trans
      htotals.2
  have hscannedChunks := h.scannedChunks
  have hscannedBytes := h.scannedBytes
  have hcollectibleChunks := h.collectibleChunks
  have hcollectibleBytes := h.collectibleBytes
  have hdeletedChunks := h.deletedChunks
  have hdeletedBytes := h.deletedBytes
  rw [List.length_append] at hlength hscannedChunks
  rw [totalBytes_append] at hbytes hscannedBytes
  unfold GcPhysicalStats.Fits
  omega

end

end AiArtifactStore.Gc
