import AiArtifactStore.Metadata.Completion
import AiArtifactStore.Metadata.Schema

/-!
# What the columns hold

The records that a reachable database stores passed the checks of their columns, so
every number of a session or of a run is in the range of a `BIGINT`.
-/

namespace AiArtifactStore.Metadata

open AiArtifactStore.Foundation
open AiArtifactStore.Identity

structure ColumnsChecked (db : Db) : Prop where
  chunking : db.uploadSessions.Checked fun row => checkChunkingColumns row.session.chunking = .ok ()
  finalizedNotParent : db.uploadSessions.Checked fun row =>
    ∀ versionId ∈ row.status.finalizedVersionId, row.session.parentVersionId ≠ some versionId
  gcRuns : db.gcRuns.Checked fun run =>
    checkPhysicalStats run.physicalStats = .ok () ∧ checkMetadataStats run.metadataStats = .ok ()
  replicationRuns : db.replicationRuns.Checked fun run => checkReplicationStats run.stats = .ok ()
  lifecycleRuns : db.lifecycleRuns.Checked fun row => checkLifecycleStats row.run.stats = .ok ()
  lifecycleDecisions : db.lifecycleRuns.Checked fun row =>
    ∀ d ∈ row.decisions, checkDecisionRow d = .ok ()

variable {env : Environment} {db db' : Db} {op : ServiceOp}

/-! ## What each write establishes -/

theorem columnsChecked_initial : ColumnsChecked Db.initial := by
  constructor
  all_goals exact Table.checked_empty

theorem columnsChecked_createUploadSession {requested : SessionRow}
    (h : createUploadSession db requested = .ok db') (hchecked : ColumnsChecked db) :
    ColumnsChecked db' := by
  simp only [createUploadSession, bind_eq_ok, exists_unit] at h
  obtain ⟨-, -, -, h⟩ := h
  split at h
  · simp only [bind_eq_ok, exists_unit] at h
    obtain ⟨_, -, -, h⟩ := h
    obtain rfl := Except.ok.inj h
    exact hchecked
  · simp only [insertUploadSession, bind_eq_ok, exists_unit] at h
    obtain ⟨-, hcolumns, -, -, -, _, -, _, -, -, h⟩ := h
    obtain rfl := Except.ok.inj h
    exact { hchecked with
      chunking := hchecked.chunking.insert hcolumns
      finalizedNotParent := hchecked.finalizedNotParent.insert
        (by simp [UploadSessionStatus.finalizedVersionId]) }

theorem columnsChecked_startGcRun {requested run : GcRun}
    (h : startGcRun db requested = .ok (run, db')) (hchecked : ColumnsChecked db) :
    ColumnsChecked db' := by
  have hzero : requested.physicalStats = .zero ∧ requested.metadataStats = .zero := by
    simp only [startGcRun, validateGcRunStartRequest, bind_eq_ok, exists_unit, failIf_eq_ok,
      not_or, Decidable.not_not] at h
    exact h.1.2.2
  rcases startGcRun_ok h with ⟨rfl, -⟩ | ⟨-, -, rfl⟩
  · exact hchecked
  · refine { hchecked with gcRuns := hchecked.gcRuns.insert ?_ }
    rw [hzero.1, hzero.2]
    exact ⟨rfl, rfl⟩

theorem columnsChecked_completeGcRun {runId : UuidV7} {stats : GcPhysicalStats} {result : GcRun}
    (h : completeGcRun db runId stats = .ok (result, db')) (hchecked : ColumnsChecked db) :
    ColumnsChecked db' := by
  simp only [completeGcRun, bind_eq_ok, orFail_eq_ok] at h
  obtain ⟨run, -, h⟩ := h
  cases hstate : run.state with
  | completed =>
      simp only [hstate, Except.ok.injEq, Prod.mk.injEq] at h
      exact h.2 ▸ hchecked
  | «open» =>
      simp only [hstate, completeOpenGcRun, bind_eq_ok, exists_unit] at h
      obtain ⟨-, ⟨metadata, swept⟩, hsweep, hphysical, hmetadata, h⟩ := h
      obtain ⟨rfl, -⟩ := completionSweep_ok hsweep
      obtain ⟨-, rfl⟩ := Prod.ext_iff.mp (Except.ok.inj h)
      unfold completionDb
      cases run.mode with
      | dryRun => exact { hchecked with gcRuns := hchecked.gcRuns.upsert ⟨hphysical, hmetadata⟩ }
      | apply => exact { hchecked with gcRuns := hchecked.gcRuns.upsert ⟨hphysical, hmetadata⟩ }

theorem columnsChecked_startReplicationRun {runId : UuidV7} {versionId : ContentId}
    {replicationFactor : Nat} {run : ReplicationRun}
    (h : startReplicationRun env db runId versionId replicationFactor = .ok (run, db'))
    (hchecked : ColumnsChecked db) : ColumnsChecked db' := by
  rcases startReplicationRun_started h with ⟨rfl, -⟩ | ⟨hstarted, rfl⟩
  · exact hchecked
  · refine { hchecked with replicationRuns := hchecked.replicationRuns.insert ?_ }
    rw [hstarted.stats]
    rfl

theorem columnsChecked_completeReplicationRun {runId : UuidV7} {stats : ReplicationStats}
    {result : ReplicationRun} (h : completeReplicationRun env db runId stats = .ok (result, db'))
    (hchecked : ColumnsChecked db) : ColumnsChecked db' := by
  simp only [completeReplicationRun, bind_eq_ok, orFail_eq_ok] at h
  obtain ⟨run, -, h⟩ := h
  cases hstate : run.state with
  | completed =>
      simp only [hstate, Except.ok.injEq, Prod.mk.injEq] at h
      exact h.2 ▸ hchecked
  | «open» =>
      simp only [hstate, completeOpenReplicationRun, bind_eq_ok, exists_unit] at h
      obtain ⟨-, _, -, _, -, -, hstats, h⟩ := h
      obtain ⟨-, rfl⟩ := Prod.ext_iff.mp (Except.ok.inj h)
      exact { hchecked with replicationRuns := hchecked.replicationRuns.upsert hstats }

theorem columnsChecked_runLifecycle {runId policyId : UuidV7} {mode : LifecycleRunMode}
    {evaluatedAtMs : Int} {run : LifecycleRun}
    (h : runLifecycle db runId policyId mode evaluatedAtMs = .ok (run, db'))
    (hchecked : ColumnsChecked db) : ColumnsChecked db' := by
  unfold runLifecycle at h
  split at h
  · split at h
    · obtain ⟨-, rfl⟩ := Prod.ext_iff.mp (Except.ok.inj h)
      exact hchecked
    · cases h
  · simp only [insertLifecycleRun, bind_eq_ok, exists_unit, forEach_eq_ok] at h
    obtain ⟨-, -, -, policy, -, decisions, -, hstats, retirements, -, hdecisions, loaded, -, h⟩ := h
    obtain ⟨-, rfl⟩ := Prod.ext_iff.mp (Except.ok.inj h)
    exact { hchecked with
      lifecycleRuns := hchecked.lifecycleRuns.insert hstats
      lifecycleDecisions := hchecked.lifecycleDecisions.insert hdecisions }

theorem columnsChecked_transact {reply : Reply} (h : transact env db op = .ok (reply, db'))
    (hparents : ParentsDiffer db') (hchecked : ColumnsChecked db) : ColumnsChecked db' := by
  cases transact_effect h with
  | sessionOpened => exact columnsChecked_createUploadSession (done_eq_ok.mp h).1 hchecked
  | @sessionAborted sessionId row hrow hopen =>
      exact { hchecked with
        chunking := hchecked.chunking.upsert (hchecked.chunking row hrow)
        finalizedNotParent := hchecked.finalizedNotParent.upsert
          (by simp [UploadSessionStatus.finalizedVersionId]) }
  | @finalized now createdAt row d table hfinalizes =>
      have hrow := Table.mem_of_find? hfinalizes.stored
      have hparent := hparents (versionRow env createdAt (finalVersion row d)) Table.mem_upsert_self
      refine { hchecked with
        chunking := hchecked.chunking.upsert (hchecked.chunking row hrow)
        finalizedNotParent := hchecked.finalizedNotParent.upsert ?_ }
      intro versionId hversion
      obtain rfl := Option.some.inj hversion
      exact hparent
  | gcStarted =>
      obtain ⟨run, hstarted, -⟩ := replyWith_eq_ok.mp h
      exact columnsChecked_startGcRun hstarted hchecked
  | gcCompleted =>
      obtain ⟨run, hcompleted, -⟩ := replyWith_eq_ok.mp h
      exact columnsChecked_completeGcRun hcompleted hchecked
  | replicationStarted =>
      obtain ⟨run, hstarted, -⟩ := replyWith_eq_ok.mp h
      exact columnsChecked_startReplicationRun hstarted hchecked
  | replicationCompleted =>
      obtain ⟨run, hcompleted, -⟩ := replyWith_eq_ok.mp h
      exact columnsChecked_completeReplicationRun hcompleted hchecked
  | lifecycleRan =>
      obtain ⟨run, hran, -⟩ := replyWith_eq_ok.mp h
      exact columnsChecked_runLifecycle hran hchecked
  | _ => exact { hchecked with }

/-! ## Every reachable database -/

theorem columnsChecked_of_reachable (h : Reachable env db) : ColumnsChecked db :=
  (Evolves.invariant (P := fun db => ParentsDiffer db ∧ ColumnsChecked db) h
    (fun _ _ _ _ _ htransact hdb =>
      have hparents := parentsDiffer_effect (transact_effect htransact) hdb.1
      ⟨hparents, columnsChecked_transact htransact hparents hdb.2⟩)
    ⟨fun version hversion => absurd hversion (Table.not_mem_empty version),
      columnsChecked_initial⟩).2

theorem reconstructUploadSession_stored (h : Reachable env db) :
    ∀ row ∈ db.uploadSessions, reconstructUploadSession row = .ok row := by
  intro row hrow
  have hparent := (columnsChecked_of_reachable h).finalizedNotParent row hrow
  have hdiffer : ¬∃ v ∈ row.status.finalizedVersionId, row.session.parentVersionId = some v :=
    fun ⟨v, hv, heq⟩ => hparent v hv heq
  rw [reconstructUploadSession, failIf_of_false hdiffer, ok_bind]

end AiArtifactStore.Metadata
