import AiArtifactStore.Metadata.Exclusion
import AiArtifactStore.Metadata.Sweep

/-!
# Completion of a GC run

When `complete_gc_run` can complete an open apply run: the sweep must not delete
a layout that a replication run references.
-/

namespace AiArtifactStore.Metadata

open AiArtifactStore.Foundation
open AiArtifactStore.Identity

def GcPhysicalStats.Fits (stats : GcPhysicalStats) : Prop :=
  stats.physicalChunksScanned ≤ postgresBigintMax ∧
    stats.physicalBytesScanned ≤ postgresBigintMax ∧
    stats.collectibleChunks ≤ postgresBigintMax ∧ stats.collectibleBytes ≤ postgresBigintMax ∧
    stats.physicallyDeletedChunks ≤ postgresBigintMax ∧
    stats.physicallyDeletedBytes ≤ postgresBigintMax

def GcMetadataStats.Fits (stats : GcMetadataStats) : Prop :=
  stats.storageLocationsSwept ≤ postgresBigintMax ∧ stats.chunkRowsSwept ≤ postgresBigintMax ∧
    stats.objectLayoutsSwept ≤ postgresBigintMax ∧ stats.objectsSwept ≤ postgresBigintMax

instance (stats : GcPhysicalStats) : Decidable stats.Fits :=
  inferInstanceAs (Decidable (_ ∧ _))

instance (stats : GcMetadataStats) : Decidable stats.Fits :=
  inferInstanceAs (Decidable (_ ∧ _))

/-- A replication run of a version retired since then references a layout that
nothing else keeps live. -/
def RepairedLayoutDead (db : Db) : Prop :=
  ∃ run ∈ db.replicationRuns, db.Retired run.versionId ∧
    ∃ layout ∈ db.objectLayouts, layout.layoutId = run.layoutId ∧ ¬db.LiveLayout layout

/-- Every replication run references a stored layout of the root object of its
version. -/
def ReplicationRooted (db : Db) : Prop :=
  ∀ run ∈ db.replicationRuns, ∃ version ∈ db.artifactVersions, version.versionId = run.versionId ∧
    ∃ layout ∈ db.objectLayouts, layout.layoutId = run.layoutId ∧
      layout.objectId = version.rootObjectId

variable {env : Environment} {db db' : Db} {op : ServiceOp} {run : GcRun}

/-! ## Replication runs and their layouts -/

theorem replicationRooted_finalized {row : SessionRow} {d : ObjectLayoutDescriptor}
    {createdAt : Int} {table : Table ChunkMetadata.chunkId}
    (hfinalizes : Finalizes env db row d createdAt table) (h : ReplicationRooted db) :
    ReplicationRooted (finalizedDb env db row d createdAt table) := by
  intro run hrun
  obtain ⟨version, hversion, hid, layout, hlayout, hlayoutId, hobject⟩ := h run hrun
  obtain ⟨version', hversion', hsame⟩ := version_finalized hfinalizes hversion
  have hlayout' : layout ∈ (finalizedDb env db row d createdAt table).objectLayouts := by
    unfold finalizedDb
    exact Table.mem_insert_of_mem hlayout
  have hid' : version'.versionId = run.versionId := by
    rw [hsame]
    exact hid
  have hobject' : layout.objectId = version'.rootObjectId := by
    rw [hsame]
    exact hobject
  exact ⟨version', hversion', hid', layout, hlayout', hlayoutId, hobject'⟩

theorem replicationRooted_completed {completed : GcRun} (hcompletes : GcCompletes db run completed)
    (h : ReplicationRooted db) : ReplicationRooted (completedGcDb db run completed) := by
  unfold completedGcDb completionDb
  cases hmode : run.mode with
  | dryRun => exact h
  | apply =>
      intro replication hrun
      obtain ⟨version, hversion, hid, layout, hlayout, hlayoutId, hobject⟩ := h replication hrun
      have hlive : db.LiveLayout layout := by
        by_contra hdead
        exact hcompletes.unpinned hmode ⟨layout, hlayout, hdead, replication, hrun, hlayoutId.symm⟩
      have hkept : layout ∈ (sweptDb db run.targetNodeId).objectLayouts :=
        mem_sweptDb_objectLayouts.mpr ⟨hlayout, hlive⟩
      exact ⟨version, hversion, hid, layout, hkept, hlayoutId, hobject⟩

theorem replicationRooted_effect (he : Effect env db op db') (h : ReplicationRooted db) :
    ReplicationRooted db' := by
  cases he with
  | finalized hfinalizes => exact replicationRooted_finalized hfinalizes h
  | gcCompleted hcompletes => exact replicationRooted_completed hcompletes h
  | replicationStarted hstarts =>
      intro run hrun
      rcases Table.mem_insert.mp hrun with hrun | ⟨rfl, -⟩
      · exact h run hrun
      · exact hstarts.version
  | @replicationCompleted other stats hstored hopen hgc =>
      intro run hrun
      rcases Table.mem_upsert.mp hrun with rfl | ⟨hrun, -⟩
      · exact h other (Table.mem_of_find? hstored)
      · exact h run hrun
  | _ => exact h

theorem replicationRooted_of_reachable (h : Reachable env db) : ReplicationRooted db :=
  reachable_invariant (fun run hrun => absurd hrun (Table.not_mem_empty run))
    (fun _ _ _ he => replicationRooted_effect he) h

/-- The layouts of versions that are not retired are live, so a dead layout is
referenced only by replication runs of retired versions. -/
theorem pinsDeadLayout_iff (h : ReplicationRooted db) :
    PinsDeadLayout db ↔ RepairedLayoutDead db := by
  constructor
  · rintro ⟨layout, hlayout, hdead, run, hrun, hid⟩
    refine ⟨run, hrun, ?_, layout, hlayout, hid.symm, hdead⟩
    obtain ⟨version, hversion, hversionId, rooted, hrooted, hrootedId, hobject⟩ := h run hrun
    obtain rfl : layout = rooted := Table.key_inj hlayout hrooted (hid.symm.trans hrootedId.symm)
    by_contra hretired
    exact hdead (liveLayout_of_rootObject hversion (hversionId ▸ hretired) hobject)
  · rintro ⟨run, hrun, -, layout, hlayout, hid, hdead⟩
    exact ⟨layout, hlayout, hdead, run, hrun, hid.symm⟩

/-! ## Completing -/

theorem checkPhysicalStats_of_fits {stats : GcPhysicalStats} (h : stats.Fits) :
    checkPhysicalStats stats = .ok () := by
  obtain ⟨h1, h2, h3, h4, h5, h6⟩ := h
  simp only [checkPhysicalStats, toPostgresBigint_of_le h1, toPostgresBigint_of_le h2,
    toPostgresBigint_of_le h3, toPostgresBigint_of_le h4, toPostgresBigint_of_le h5,
    toPostgresBigint_of_le h6, ok_bind]
  rfl

theorem fits_of_checkMetadataStats {stats : GcMetadataStats} {u : Unit}
    (h : checkMetadataStats stats = .ok u) : stats.Fits := by
  simp only [checkMetadataStats, bind_eq_ok, toPostgresBigint_eq_ok] at h
  obtain ⟨_, ⟨h1, -⟩, _, ⟨h2, -⟩, _, ⟨h3, -⟩, _, ⟨h4, -⟩, -⟩ := h
  exact ⟨h1, h2, h3, h4⟩

theorem checkMetadataStats_of_fits {stats : GcMetadataStats} (h : stats.Fits) :
    checkMetadataStats stats = .ok () := by
  obtain ⟨h1, h2, h3, h4⟩ := h
  simp only [checkMetadataStats, toPostgresBigint_of_le h1, toPostgresBigint_of_le h2,
    toPostgresBigint_of_le h3, toPostgresBigint_of_le h4, ok_bind]
  rfl

theorem completeGcRun_apply {stats : GcPhysicalStats}
    (hstored : db.gcRuns.find? run.runId = some run) (hopen : run.state = .open)
    (hmode : run.mode = .apply) (hsession : db.hasOpenUploadSession = false)
    (hunpinned : ¬PinsDeadLayout db) (hstats : stats.Fits)
    (hrows : (sweptStats db run.targetNodeId).Fits) :
    let completed := { run with
      state := .completed
      physicalStats := stats
      metadataStats := sweptStats db run.targetNodeId }
    completeGcRun db run.runId stats = .ok (completed, completedGcDb db run completed) := by
  have hsweep : sweepGcMetadata db run.targetNodeId =
      .ok (sweptStats db run.targetNodeId, sweptDb db run.targetNodeId) := by
    rcases sweepGcMetadata_eq db run.targetNodeId with ⟨hpins, -⟩ | ⟨-, hs⟩
    · exact absurd hpins hunpinned
    · exact hs
  have hnone : ¬db.hasOpenUploadSession = true := by simp [hsession]
  rw [completeGcRun, hstored, orFail_some, ok_bind]
  simp only [hopen, completeOpenGcRun, ensureNoOpenUploadSessions, failIf_of_false hnone, ok_bind,
    completionSweep, hmode, hsweep, checkPhysicalStats_of_fits hstats,
    checkMetadataStats_of_fits hrows, completedGcDb, completionDb]
  rfl

theorem sweptStats_fits {stats : GcPhysicalStats} {completed : GcRun}
    (hstored : db.gcRuns.find? run.runId = some run) (hopen : run.state = .open)
    (hmode : run.mode = .apply) (h : completeGcRun db run.runId stats = .ok (completed, db')) :
    (sweptStats db run.targetNodeId).Fits := by
  rw [completeGcRun, hstored, orFail_some, ok_bind] at h
  simp only [hopen, completeOpenGcRun, completionSweep, hmode, bind_eq_ok, exists_unit] at h
  obtain ⟨-, ⟨metadata, swept⟩, hsweep, -, hmetadata, -⟩ := h
  obtain ⟨-, rfl, -⟩ := sweepGcMetadata_ok hsweep
  exact fits_of_checkMetadataStats hmetadata

/-- `complete_gc_run` moves an open apply run to completed exactly when no
replication run of a retired version references a layout that the sweep deletes. -/
theorem completeGcRun_succeeds_iff {stats : GcPhysicalStats} (h : Reachable env db)
    (hstored : db.gcRuns.find? run.runId = some run) (hopen : run.state = .open)
    (hmode : run.mode = .apply) (hstats : stats.Fits)
    (hrows : (sweptStats db run.targetNodeId).Fits) :
    (∃ completed db', completeGcRun db run.runId stats = .ok (completed, db') ∧
        completed.state = .completed ∧ db'.gcRuns.find? run.runId = some completed) ↔
      ¬RepairedLayoutDead db := by
  have hrooted := replicationRooted_of_reachable h
  have hsession : db.hasOpenUploadSession = false :=
    (exclusive_of_reachable h).gcExcludesSession
      (hasOpenGcRun_of_mem (Table.mem_of_find? hstored) hopen)
  rw [← pinsDeadLayout_iff hrooted]
  constructor
  · rintro ⟨completed, db', hcomplete, -, -⟩
    rcases completeGcRun_ok hcomplete with ⟨-, hfind, hstate⟩ | ⟨other, hid, hcompletes, -⟩
    · obtain rfl := Option.some.inj (hstored.symm.trans hfind)
      rw [hopen] at hstate
      cases hstate
    · have hsame : other = run := by
        have := hcompletes.stored
        rw [hid, hstored] at this
        exact (Option.some.inj this).symm
      exact hcompletes.unpinned (by rw [hsame, hmode])
  · intro hunpinned
    have hcomplete := completeGcRun_apply hstored hopen hmode hsession hunpinned hstats hrows
    exact ⟨_, _, hcomplete, rfl, Table.find?_of_mem Table.mem_upsert_self⟩

open Sample in
theorem completeGcRun_succeeds_iff_sample :
    let db := afterOps Sample.env .initial (pushOps ++ retireOps ++ [.startGcRun gcRun])
    ∃ completed db', completeGcRun db gcRun.runId .zero = .ok (completed, db') ∧
      completed.state = .completed ∧ db'.gcRuns.find? gcRun.runId = some completed := by
  intro db
  have hruns : db.replicationRuns.rows = [] := by decide +kernel
  refine (@completeGcRun_succeeds_iff Sample.env db gcRun .zero (reachable_afterOps _ _)
    (by decide +kernel) rfl rfl (by decide +kernel) (by decide +kernel)).mpr ?_
  rintro ⟨run, hrun, -⟩
  rw [← Table.mem_rows, hruns] at hrun
  simp at hrun

open Sample in
/-- After a push, a repair and a retirement the open GC run cannot complete. -/
theorem completeGcRun_wedged :
    ¬∀ (ops : List ServiceOp) (run : GcRun) (stats : GcPhysicalStats),
      let db := afterOps Sample.env .initial ops
      db.gcRuns.find? run.runId = some run → run.state = .open → run.mode = .apply →
        stats.Fits → (sweptStats db run.targetNodeId).Fits →
          (completeGcRun db run.runId stats).isOk = true := by
  intro h
  have hok := h (pushOps ++ repairOps ++ retireOps ++ [.startGcRun gcRun]) gcRun .zero
    (by decide +kernel) rfl rfl (by decide +kernel) (by decide +kernel)
  exact absurd hok (by decide +kernel)

end AiArtifactStore.Metadata
