import AiArtifactStore.Foundation.Attempts
import AiArtifactStore.Metadata.Histories
import AiArtifactStore.Pull.Engine

/-!
# Fallback across the sources of a chunk

When a download gets past the sources that fail, and which source ends it.
-/

namespace AiArtifactStore.Pull

open AiArtifactStore.Client
open AiArtifactStore.Foundation
open AiArtifactStore.Identity
open AiArtifactStore.Metadata
open AiArtifactStore.Storage

def addNodeId (nodeIds : List String) (nodeId : String) : List String :=
  if nodeId ∈ nodeIds then nodeIds else nodeIds ++ [nodeId]

def poolNodeIds (plan : MultiNodeRestorePlan) : List String :=
  (plan.chunks.flatMap fun chunk => chunk.sources.map NodeEndpoint.nodeId).foldl addNodeId []

section

variable {ctx : PullContext} {plan : MultiNodeRestorePlan} {chunkIndex position i : Nat}
  {answers : Answers} {chunkId : ContentId} {sources : List NodeEndpoint} {bytes : List UInt8}

def sourceAttempt (ctx : PullContext) (chunkId : ContentId) (answers : Answers)
    (entry : NodeEndpoint × Nat) : Attempt EngineExc (List UInt8) :=
  if entry.1.nodeId ∉ ctx.pool then
    .aborted (.invalidArgument "storage node client not found in pool")
  else
    match StorageNodeClient.getChunk ctx.env chunkId (answers entry.2) with
    | .ok (some bytes) => .supplied bytes
    | .ok none => .skipped
    | .error e => if isRuntimeError e then .skipped else .aborted e

theorem fetchChunk_eq :
    fetchChunk ctx chunkId answers position sources =
      Attempt.firstSupplied ((sources.zipIdx position).map (sourceAttempt ctx chunkId answers)) := by
  induction sources generalizing position with
  | nil => rfl
  | cons source sources ih =>
      rw [List.zipIdx_cons, List.map_cons, fetchChunk, ih]
      by_cases hpool : source.nodeId ∉ ctx.pool
      · simp only [sourceAttempt, failIf_of_true hpool, if_pos hpool, error_bind]
        rfl
      · simp only [sourceAttempt, failIf_of_false hpool, if_neg hpool, ok_bind]
        cases StorageNodeClient.getChunk ctx.env chunkId (answers position) with
        | ok found =>
            cases found with
            | some bytes => rfl
            | none => rfl
        | error e =>
            by_cases hcaught : isRuntimeError e = true
            · simp [hcaught, Attempt.firstSupplied]
            · simp [hcaught, Attempt.firstSupplied]

theorem isRuntimeError_of_request {e : EngineExc} (h : e.isRequestError = true) :
    isRuntimeError e = true := by
  unfold EngineExc.isRequestError EngineExc.isRemoteError at h
  unfold isRuntimeError
  split <;> simp_all

/-! ## The sources of a chunk -/

/-- The source at the position is in the pool and answers with bytes that hash to the id of
the chunk. -/
structure SuppliesAt (ctx : PullContext) (plan : MultiNodeRestorePlan) (chunkIndex : Nat)
    (answers : Answers) (i : Nat) (bytes : List UInt8) : Prop where
  pooled : ∃ source, (sourcesAt plan chunkIndex)[i]? = some source ∧ source.nodeId ∈ ctx.pool
  answered : answers i = .ok (.content bytes)
  digest : ctx.env.contentId bytes = (chunkAt plan chunkIndex).chunkId

structure SuppliesFirst (ctx : PullContext) (plan : MultiNodeRestorePlan) (chunkIndex : Nat)
    (answers : Answers) (i : Nat) (bytes : List UInt8) : Prop where
  supplies : SuppliesAt ctx plan chunkIndex answers i bytes
  earlier : ∀ j < i, ∀ other, ¬SuppliesAt ctx plan chunkIndex answers j other

def AnswersFail (answers : Answers) : Prop :=
  ∀ i e, answers i = .error e → e.isRequestError = true

def attempts (ctx : PullContext) (plan : MultiNodeRestorePlan) (chunkIndex : Nat)
    (answers : Answers) : List (Attempt EngineExc (List UInt8)) :=
  ((sourcesAt plan chunkIndex).zipIdx 0).map
    (sourceAttempt ctx (chunkAt plan chunkIndex).chunkId answers)

theorem attempts_getElem? :
    (attempts ctx plan chunkIndex answers)[i]? = (sourcesAt plan chunkIndex)[i]?.map fun source =>
      sourceAttempt ctx (chunkAt plan chunkIndex).chunkId answers (source, i) := by
  rw [attempts, List.getElem?_map, List.getElem?_zipIdx]
  cases (sourcesAt plan chunkIndex)[i]? with
  | none => rfl
  | some source => simp

theorem attempt_supplied_iff :
    (attempts ctx plan chunkIndex answers)[i]? = some (.supplied bytes) ↔
      SuppliesAt ctx plan chunkIndex answers i bytes := by
  rw [attempts_getElem?, Option.map_eq_some_iff]
  constructor
  · rintro ⟨source, hsource, hattempt⟩
    unfold sourceAttempt at hattempt
    split at hattempt
    · cases hattempt
    · rename_i hpool
      split at hattempt
      · rename_i hget
        obtain rfl := Attempt.supplied.inj hattempt
        obtain ⟨hanswered, hdigest⟩ := StorageNodeClient.getChunk_eq_some.mp hget
        exact ⟨⟨source, hsource, not_not.mp hpool⟩, hanswered, hdigest⟩
      · cases hattempt
      · split at hattempt <;> cases hattempt
  · rintro ⟨⟨source, hsource, hpool⟩, hanswered, hdigest⟩
    refine ⟨source, hsource, ?_⟩
    have hget := StorageNodeClient.getChunk_eq_some.mpr ⟨hanswered, hdigest⟩
    simp only [sourceAttempt, hget, if_neg (not_not.mpr hpool)]

theorem attempt_aborted_iff (hanswers : AnswersFail answers) :
    (∃ e, (attempts ctx plan chunkIndex answers)[i]? = some (.aborted e)) ↔
      ∃ source, (sourcesAt plan chunkIndex)[i]? = some source ∧ source.nodeId ∉ ctx.pool := by
  constructor
  · rintro ⟨e, h⟩
    rw [attempts_getElem?, Option.map_eq_some_iff] at h
    obtain ⟨source, hsource, hattempt⟩ := h
    refine ⟨source, hsource, ?_⟩
    by_contra hpool
    simp only [sourceAttempt, if_neg (not_not.mpr hpool)] at hattempt
    split at hattempt
    · cases hattempt
    · cases hattempt
    · rename_i e' hget
      have hcaught := isRuntimeError_of_request
        (StorageNodeClient.isRequestError_of_getChunk (fun e => hanswers i e) hget)
      rw [if_pos hcaught] at hattempt
      cases hattempt
  · rintro ⟨source, hsource, hpool⟩
    refine ⟨.invalidArgument "storage node client not found in pool", ?_⟩
    rw [attempts_getElem?, hsource, Option.map_some, sourceAttempt, if_pos hpool]

theorem isFirst_iff :
    Attempt.IsFirst (attempts ctx plan chunkIndex answers) i bytes ↔
      SuppliesFirst ctx plan chunkIndex answers i bytes := by
  constructor
  · intro h
    refine ⟨attempt_supplied_iff.mp h.supplies, fun j hj other hother => ?_⟩
    exact h.earlier j hj other (attempt_supplied_iff.mpr hother)
  · intro h
    refine ⟨attempt_supplied_iff.mpr h.supplies, fun j hj other hother => ?_⟩
    exact h.earlier j hj other (attempt_supplied_iff.mp hother)

theorem downloadChunk_eq_ok :
    downloadChunk ctx plan chunkIndex answers = .ok bytes ↔
      Attempt.firstSupplied (attempts ctx plan chunkIndex answers) = .ok (some bytes) ∧
        bytes.length = (chunkAt plan chunkIndex).size := by
  simp only [downloadChunk, bind_eq_ok, exists_unit, orFail_eq_ok, failIf_eq_ok,
    Decidable.not_not, fetchChunk_eq]
  constructor
  · rintro ⟨found, hfound, received, rfl, hsize, hbytes⟩
    obtain rfl := Except.ok.inj hbytes
    exact ⟨hfound, hsize⟩
  · rintro ⟨hfound, hsize⟩
    exact ⟨some bytes, hfound, bytes, rfl, hsize, rfl⟩

/-- Where some source in the pool supplies the chunk, the download succeeds exactly when no
source before the first that supplies it is missing from the pool, and what that one
supplies has the planned size. -/
theorem downloadChunk_fallback_iff (hanswers : AnswersFail answers)
    (hgood : ∃ i bytes, SuppliesAt ctx plan chunkIndex answers i bytes ∧
      bytes.length = (chunkAt plan chunkIndex).size) :
    (∃ bytes, downloadChunk ctx plan chunkIndex answers = .ok bytes) ↔
      ∀ i bytes, SuppliesFirst ctx plan chunkIndex answers i bytes →
        bytes.length = (chunkAt plan chunkIndex).size ∧
          ∀ j < i, ∀ source, (sourcesAt plan chunkIndex)[j]? = some source →
            source.nodeId ∈ ctx.pool := by
  obtain ⟨k, good, hgood, -⟩ := hgood
  obtain ⟨first, supplied, hfirst⟩ := Attempt.exists_isFirst (attempt_supplied_iff.mpr hgood)
  constructor
  · rintro ⟨bytes, hbytes⟩ i other hother
    obtain ⟨hfound, hsize⟩ := downloadChunk_eq_ok.mp hbytes
    obtain ⟨rfl, hearlier⟩ := (Attempt.firstSupplied_iff (isFirst_iff.mpr hother)).mp hfound
    refine ⟨hsize, fun j hj source hsource => ?_⟩
    by_contra hpool
    obtain ⟨e, he⟩ := (attempt_aborted_iff hanswers).mpr ⟨source, hsource, hpool⟩
    exact hearlier j hj e he
  · intro hall
    obtain ⟨hsize, hpooled⟩ := hall first supplied (isFirst_iff.mp hfirst)
    refine ⟨supplied, downloadChunk_eq_ok.mpr ⟨?_, hsize⟩⟩
    refine (Attempt.firstSupplied_iff hfirst).mpr ⟨rfl, fun j hj e he => ?_⟩
    obtain ⟨source, hsource, hpool⟩ := (attempt_aborted_iff hanswers).mp ⟨e, he⟩
    exact hpool (hpooled j hj source hsource)

theorem mem_addNodeId {nodeIds : List String} {nodeId other : String} :
    other ∈ addNodeId nodeIds nodeId ↔ other ∈ nodeIds ∨ other = nodeId := by
  by_cases h : nodeId ∈ nodeIds
  · simp only [addNodeId, if_pos h]
    exact ⟨.inl, fun hother => hother.elim id fun heq => heq ▸ h⟩
  · simp [addNodeId, if_neg h]

theorem mem_foldl_addNodeId {nodeIds found : List String} {nodeId : String} :
    nodeId ∈ nodeIds.foldl addNodeId found ↔ nodeId ∈ found ∨ nodeId ∈ nodeIds := by
  induction nodeIds generalizing found with
  | nil => simp
  | cons head rest ih => rw [List.foldl_cons, ih, mem_addNodeId, List.mem_cons, or_assoc]

theorem mem_poolNodeIds {source : NodeEndpoint} (h : source ∈ sourcesAt plan chunkIndex) :
    source.nodeId ∈ poolNodeIds plan := by
  refine mem_foldl_addNodeId.mpr (.inr ?_)
  unfold sourcesAt at h
  cases hchunk : plan.chunks[chunkIndex]? with
  | none => simp [hchunk] at h
  | some chunk =>
      simp only [hchunk, Option.map_some, Option.getD_some] at h
      exact List.mem_flatMap.mpr
        ⟨chunk, List.mem_of_getElem? hchunk, List.mem_map_of_mem h⟩

theorem downloadChunk_of_samePlan (hanswers : AnswersFail answers)
    (hpool : ctx.pool = poolNodeIds plan)
    (hsizes : ∀ i bytes, SuppliesAt ctx plan chunkIndex answers i bytes →
      bytes.length = (chunkAt plan chunkIndex).size)
    (hgood : SuppliesAt ctx plan chunkIndex answers i bytes) :
    ∃ bytes, downloadChunk ctx plan chunkIndex answers = .ok bytes := by
  refine (downloadChunk_fallback_iff hanswers ⟨i, bytes, hgood, hsizes i bytes hgood⟩).mpr ?_
  intro k other hfirst
  refine ⟨hsizes k other hfirst.supplies, fun j _ source hsource => ?_⟩
  rw [hpool]
  exact mem_poolNodeIds (List.mem_of_getElem? hsource)

end

/-! ## A source that joined after the pool was built -/

namespace Sample

def sourcedPlan (sources : List NodeEndpoint) : MultiNodeRestorePlan where
  artifactId := Metadata.Sample.uuid 1
  versionId := Metadata.Sample.versionId
  objectId := Metadata.Sample.descriptor.objectId
  layoutId := Metadata.Sample.descriptor.layoutId Metadata.Sample.env
  layoutDescriptor := Metadata.Sample.descriptor
  chunks := [⟨Metadata.Sample.chunkId, 0, 1, sources⟩]

def earlierPlan : MultiNodeRestorePlan := sourcedPlan [⟨"n1", "127.0.0.1", 9000⟩]

def fetchedPlan : MultiNodeRestorePlan :=
  sourcedPlan [⟨"n0", "127.0.0.1", 8999⟩, ⟨"n1", "127.0.0.1", 9000⟩]

def pooledContext (plan : MultiNodeRestorePlan) : PullContext where
  env := Metadata.Sample.env
  request := ⟨Metadata.Sample.versionId.hex, "/out/a", false⟩
  pool := poolNodeIds plan

def firstRefuses : Answers := fun i =>
  if i = 0 then .error (.client (.transport "connect failed"))
  else .ok (.content (asciiBytes ['a']))

theorem answersFail_firstRefuses : AnswersFail firstRefuses := by
  intro i e h
  unfold firstRefuses at h
  split at h
  · obtain rfl := Except.error.inj h
    rfl
  · cases h

theorem suppliesAt_firstRefuses {plan : MultiNodeRestorePlan} (h : "n1" ∈ poolNodeIds plan) :
    SuppliesAt (pooledContext plan) fetchedPlan 0 firstRefuses 1 (asciiBytes ['a']) := by
  have hdigest : Metadata.Sample.env.contentId (asciiBytes ['a']) =
      (chunkAt fetchedPlan 0).chunkId := by decide +kernel
  exact ⟨⟨⟨"n1", "127.0.0.1", 9000⟩, rfl, h⟩, rfl, hdigest⟩

end Sample

open Sample in
/-- The second source has the chunk and is in the pool, and the download fails at the first. -/
theorem downloadChunk_unpooled :
    SuppliesAt (pooledContext earlierPlan) fetchedPlan 0 firstRefuses 1 (asciiBytes ['a']) ∧
      (asciiBytes ['a']).length = (chunkAt fetchedPlan 0).size ∧
      downloadChunk (pooledContext earlierPlan) fetchedPlan 0 firstRefuses =
        .error (.invalidArgument "storage node client not found in pool") :=
  ⟨suppliesAt_firstRefuses (by decide), by decide, by decide +kernel⟩

open Sample in
theorem downloadChunk_fallback_iff_sample :
    (∃ bytes, downloadChunk (pooledContext fetchedPlan) fetchedPlan 0 firstRefuses = .ok bytes) ↔
      ∀ i bytes, SuppliesFirst (pooledContext fetchedPlan) fetchedPlan 0 firstRefuses i bytes →
        bytes.length = (chunkAt fetchedPlan 0).size ∧
          ∀ j < i, ∀ source, (sourcesAt fetchedPlan 0)[j]? = some source →
            source.nodeId ∈ (pooledContext fetchedPlan).pool :=
  downloadChunk_fallback_iff answersFail_firstRefuses
    ⟨1, asciiBytes ['a'], suppliesAt_firstRefuses (by decide), by decide⟩

end AiArtifactStore.Pull
