import AiArtifactStore.Metadata.Histories

/-!
# Mutual exclusion of maintenance

At most one GC run and at most one replication run are open, an open GC run
excludes open replication runs and open upload sessions, and a lifecycle run is
stored only while nothing is open.
-/

namespace AiArtifactStore.Metadata

open AiArtifactStore.Foundation
open AiArtifactStore.Identity

structure Exclusive (db : Db) : Prop where
  oneGcRun : db.gcRuns.AtMostOne fun run => run.state = .open
  oneReplicationRun : db.replicationRuns.AtMostOne fun run => run.state = .open
  gcExcludesReplication : db.hasOpenGcRun = true → db.hasOpenReplicationRun = false
  gcExcludesSession : db.hasOpenGcRun = true → db.hasOpenUploadSession = false

structure Quiescent (db : Db) : Prop where
  gcRun : db.hasOpenGcRun = false
  replicationRun : db.hasOpenReplicationRun = false
  uploadSession : db.hasOpenUploadSession = false

variable {env : Environment} {db db' : Db} {op : ServiceOp}

/-! ## Open rows -/

theorem hasOpenGcRun_of_mem {run : GcRun} (h : run ∈ db.gcRuns) (hopen : run.state = .open) :
    db.hasOpenGcRun = true :=
  List.any_eq_true.mpr ⟨run, h, by simpa using hopen⟩

theorem hasOpenReplicationRun_of_mem {run : ReplicationRun} (h : run ∈ db.replicationRuns)
    (hopen : run.state = .open) : db.hasOpenReplicationRun = true :=
  List.any_eq_true.mpr ⟨run, h, by simpa using hopen⟩

theorem hasOpenUploadSession_of_mem {row : SessionRow} (h : row ∈ db.uploadSessions)
    (hopen : row.status = .open) : db.hasOpenUploadSession = true :=
  List.any_eq_true.mpr ⟨row, h, by simpa using hopen⟩

theorem not_open_of_noGcRun (h : db.hasOpenGcRun = false) :
    ∀ run ∈ db.gcRuns, ¬run.state = .open := fun run hrun hopen => by
  rw [hasOpenGcRun_of_mem hrun hopen] at h
  cases h

theorem not_open_of_noReplicationRun (h : db.hasOpenReplicationRun = false) :
    ∀ run ∈ db.replicationRuns, ¬run.state = .open := fun run hrun hopen => by
  rw [hasOpenReplicationRun_of_mem hrun hopen] at h
  cases h

/-! ## The invariant -/

theorem exclusive_initial : Exclusive Db.initial :=
  ⟨fun a ha => absurd ha (Table.not_mem_empty a), fun a ha => absurd ha (Table.not_mem_empty a),
    fun h => absurd h (by decide), fun h => absurd h (by decide)⟩

theorem Exclusive.of_closing (h : Exclusive db)
    (hgc : db'.gcRuns.AtMostOne fun run => run.state = .open)
    (hreplication : db'.replicationRuns.AtMostOne fun run => run.state = .open)
    (hgcOpen : db'.hasOpenGcRun = true → db.hasOpenGcRun = true)
    (hreplicationOpen : db.hasOpenReplicationRun = false → db'.hasOpenReplicationRun = false)
    (hsessionOpen : db.hasOpenUploadSession = false → db'.hasOpenUploadSession = false) :
    Exclusive db' :=
  ⟨hgc, hreplication, fun hopen => hreplicationOpen (h.gcExcludesReplication (hgcOpen hopen)),
    fun hopen => hsessionOpen (h.gcExcludesSession (hgcOpen hopen))⟩

theorem Exclusive.of_closedSession (h : Exclusive db) (row : SessionRow)
    (hstatus : row.status ≠ .open)
    (hgc : db'.gcRuns = db.gcRuns) (hreplication : db'.replicationRuns = db.replicationRuns)
    (hsessions : db'.uploadSessions = db.uploadSessions.upsert row) : Exclusive db' := by
  refine h.of_closing (hgc ▸ h.oneGcRun) (hreplication ▸ h.oneReplicationRun) ?_ ?_ ?_
  · rw [Db.hasOpenGcRun, hgc]
    exact id
  · rw [Db.hasOpenReplicationRun, Db.hasOpenReplicationRun, hreplication]
    exact id
  · rw [Db.hasOpenUploadSession, Db.hasOpenUploadSession, hsessions]
    exact fun hnone => Table.any_upsert_eq_false hnone (by simpa using hstatus)

theorem exclusive_effect (he : Effect env db op db') (h : Exclusive db) : Exclusive db' := by
  cases he with
  | sessionOpened hopened =>
      have hnone : ¬db.hasOpenGcRun = true := by simp [hopened.noGcRun]
      exact ⟨h.oneGcRun, h.oneReplicationRun, h.gcExcludesReplication, fun hopen =>
        absurd hopen hnone⟩
  | @sessionAborted _ row _ _ =>
      exact h.of_closedSession { row with status := .aborted } (by simp) rfl rfl rfl
  | @finalized _ _ row d _ _ =>
      exact h.of_closedSession
        { row with status := .committed ((finalVersion row d).versionId env) }
        (by simp) rfl rfl rfl
  | gcStarted hstarts =>
      exact ⟨Table.atMostOne_insert (not_open_of_noGcRun hstarts.noGcRun), h.oneReplicationRun,
        fun _ => hstarts.noReplicationRun, fun _ => hstarts.noUploadSession⟩
  | @gcCompleted run _ _ hcompletes =>
      obtain ⟨physical, metadata, rfl⟩ := hcompletes.row
      obtain ⟨_, _, _, _, _, heq⟩ := completedGcDb_frame db run _
      rw [heq]
      exact h.of_closing (Table.atMostOne_upsert h.oneGcRun (by simp)) h.oneReplicationRun
        (Table.any_of_any_upsert (by simp)) id id
  | replicationStarted hstarts =>
      have hnone : ¬db.hasOpenGcRun = true := by simp [hstarts.noGcRun]
      exact ⟨h.oneGcRun,
        Table.atMostOne_insert (not_open_of_noReplicationRun hstarts.noReplicationRun),
        fun hopen => absurd hopen hnone, h.gcExcludesSession⟩
  | replicationCompleted hstored hopen hgc =>
      exact h.of_closing h.oneGcRun (Table.atMostOne_upsert h.oneReplicationRun (by simp)) id
        (fun hnone => Table.any_upsert_eq_false hnone (by simp)) id
  | _ => exact ⟨h.oneGcRun, h.oneReplicationRun, h.gcExcludesReplication, h.gcExcludesSession⟩

theorem exclusive_of_reachable (h : Reachable env db) : Exclusive db :=
  reachable_invariant exclusive_initial (fun _ _ _ he => exclusive_effect he) h

/-- Only a lifecycle run, and only while nothing is open, stores a lifecycle run
or retires a version. -/
theorem quiescent_of_effect (he : Effect env db op db')
    (h : db'.lifecycleRuns ≠ db.lifecycleRuns ∨ db'.retirements ≠ db.retirements) :
    Quiescent db := by
  cases he with
  | lifecycleRan hstarts _ =>
      exact ⟨hstarts.noGcRun, hstarts.noReplicationRun, hstarts.noUploadSession⟩
  | @gcCompleted run completed _ hcompletes =>
      obtain ⟨_, _, _, _, _, heq⟩ := completedGcDb_frame db run completed
      rw [heq] at h
      exact absurd h (by simp)
  | _ => exact absurd h (by simp [finalizedDb, insertChunks])

/-- Maintenance excludes itself and the uploads in every reachable database, and
every stored lifecycle run and every retirement finds nothing open. -/
theorem maintenance_exclusive (h : Reachable env db) :
    Exclusive db ∧ ∀ op,
      (∃ runId, db.lifecycleRuns.find? runId = none ∧
          (serve env db op).2.lifecycleRuns.find? runId ≠ none) ∨
        (∃ versionId, ¬db.Retired versionId ∧ (serve env db op).2.Retired versionId) →
      Quiescent db := by
  refine ⟨exclusive_of_reachable h, fun op hchange => ?_⟩
  refine quiescent_of_effect (serve_effect env db op) ?_
  rcases hchange with ⟨runId, hnone, hstored⟩ | ⟨versionId, hbefore, hafter⟩
  · exact .inl fun heq => hstored (heq ▸ hnone)
  · refine .inr fun heq => hbefore ?_
    unfold Db.Retired at hafter
    rwa [heq] at hafter

open Sample in
theorem maintenance_exclusive_sample :
    let db := afterOps Sample.env .initial (pushOps ++ repairOps ++ retireOps ++
      [.startGcRun gcRun])
    db.hasOpenGcRun = true ∧ Exclusive db :=
  ⟨by decide +kernel, (maintenance_exclusive (reachable_afterOps _ _)).1⟩

end AiArtifactStore.Metadata
