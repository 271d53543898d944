import AiArtifactStore.Metadata.GcRuns
import AiArtifactStore.Metadata.LifecycleRuns
import AiArtifactStore.Metadata.ReplicationRuns

/-!
# What the maintenance operations do

The inversion of a successful GC, replication or lifecycle operation, and the
exact effect of the metadata sweep.
-/

namespace AiArtifactStore.Metadata

open AiArtifactStore.Foundation
open AiArtifactStore.Identity

variable {env : Environment} {db db' : Db}

/-! ## The sweep -/

def PinsDeadLayout (db : Db) : Prop :=
  ∃ layout ∈ db.objectLayouts, ¬db.LiveLayout layout ∧
    ∃ run ∈ db.replicationRuns, run.layoutId = layout.layoutId

/-- The database after a sweep that runs to completion. -/
def sweptDb (db : Db) (targetNodeId : String) : Db :=
  let db₁ := deleteStorageLocations db (isDeadLocation db targetNodeId)
  let db₂ := withoutLayouts db₁ fun layout => !db₁.isLiveLayout layout
  let db₃ :=
    { db₂ with objects := db₂.objects.filter fun row => !isUnreferencedObject db₂ row }
  { db₃ with chunks := db₃.chunks.filter fun row => !isUnreferencedChunk db₃ row }

def sweptStats (db : Db) (targetNodeId : String) : GcMetadataStats :=
  let db₁ := deleteStorageLocations db (isDeadLocation db targetNodeId)
  let db₂ := withoutLayouts db₁ fun layout => !db₁.isLiveLayout layout
  let db₃ :=
    { db₂ with objects := db₂.objects.filter fun row => !isUnreferencedObject db₂ row }
  { storageLocationsSwept := db.storageLocations.rows.countP (isDeadLocation db targetNodeId)
    chunkRowsSwept := db₃.chunks.rows.countP (isUnreferencedChunk db₃)
    objectLayoutsSwept := db₁.objectLayouts.rows.countP fun layout => !db₁.isLiveLayout layout
    objectsSwept := db₂.objects.rows.countP (isUnreferencedObject db₂) }

theorem withoutLayouts_none {dead : ObjectLayoutRow → Bool}
    (h : ∀ layout ∈ db.objectLayouts, dead layout = false) : withoutLayouts db dead = db := by
  have hisDead : ∀ layoutId, (db.objectLayouts.rows.any fun row =>
      dead row && row.layoutId = layoutId) = false := by
    intro layoutId
    rw [List.any_eq_false]
    intro layout hlayout
    simp [h layout hlayout]
  have hclear : ∀ row ∈ db.finalizations, FinalizationRow.clearLayout
      (fun layoutId => db.objectLayouts.rows.any fun r => dead r && r.layoutId = layoutId) row =
        row := by
    intro row _
    obtain ⟨sessionId, layoutId⟩ := row
    cases layoutId <;> simp [FinalizationRow.clearLayout, hisDead]
  have hlayouts : (db.objectLayouts.filter fun row => !dead row) = db.objectLayouts :=
    Table.filter_eq_self fun layout hlayout => by simp [h layout hlayout]
  exact congrArg₂ (fun layouts finalizations =>
    ({ db with objectLayouts := layouts, finalizations := finalizations } : Db)) hlayouts
      (Table.mapRows_eq_self hclear)

theorem deleteObjectLayouts_none {dead : ObjectLayoutRow → Bool}
    (h : ∀ layout ∈ db.objectLayouts, dead layout = false) :
    deleteObjectLayouts db dead = .ok db := by
  have hpinned : ¬∃ layout ∈ db.objectLayouts.rows, dead layout = true ∧
      ∃ run ∈ db.replicationRuns.rows, run.layoutId = layout.layoutId := by
    rintro ⟨layout, hlayout, hdead, -⟩
    rw [h layout hlayout] at hdead
    cases hdead
  rw [deleteObjectLayouts, failIf_of_false hpinned, ok_bind, withoutLayouts_none h]

theorem deleteObjects_unreferenced :
    deleteObjects db (isUnreferencedObject db) =
      .ok { db with objects := db.objects.filter fun row => !isUnreferencedObject db row } := by
  have hversions : ¬∃ object ∈ db.objects.rows, isUnreferencedObject db object = true ∧
      ∃ version ∈ db.artifactVersions.rows, version.rootObjectId = object.objectId := by
    rintro ⟨object, -, hdead, version, hversion, hroot⟩
    simp only [isUnreferencedObject, Bool.and_eq_true, Bool.not_eq_true', List.any_eq_false,
      decide_eq_true_eq] at hdead
    exact hdead.1 version hversion hroot
  have hlayouts : ∀ layout ∈ db.objectLayouts, (db.objects.rows.any fun object =>
      isUnreferencedObject db object && object.objectId = layout.objectId &&
        object.totalSize = layout.totalSizeBytes) = false := by
    intro layout hlayout
    rw [List.any_eq_false]
    intro object _ hdead
    simp only [Bool.and_eq_true, isUnreferencedObject, Bool.not_eq_true', List.any_eq_false,
      decide_eq_true_eq] at hdead
    exact hdead.1.1.2 layout hlayout hdead.1.2.symm
  simp only [deleteObjects, failIf_of_false hversions, ok_bind,
    deleteObjectLayouts_none hlayouts]

theorem deleteChunks_unreferenced :
    deleteChunks db (isUnreferencedChunk db) =
      .ok { db with chunks := db.chunks.filter fun row => !isUnreferencedChunk db row } := by
  have hlayouts : ¬∃ chunk ∈ db.chunks.rows, isUnreferencedChunk db chunk = true ∧
      ∃ layout ∈ db.objectLayouts.rows, ∃ row ∈ layout.chunkRows,
        row.chunkId = chunk.chunkId ∧ row.chunkSizeBytes = chunk.sizeBytes := by
    rintro ⟨chunk, -, hdead, layout, hlayout, row, hrow, hid, -⟩
    simp only [isUnreferencedChunk, Bool.and_eq_true, Bool.not_eq_true', List.any_eq_false] at hdead
    refine hdead.1 layout hlayout (List.any_eq_true.mpr ⟨row, hrow, ?_⟩)
    simpa using hid
  have hlocations : ∀ location ∈ db.storageLocations, (!db.chunks.rows.any fun chunk =>
      isUnreferencedChunk db chunk && chunk.chunkId = location.chunkId) = true := by
    intro location hlocation
    rw [Bool.not_eq_true', List.any_eq_false]
    intro chunk _ hdead
    simp only [Bool.and_eq_true, isUnreferencedChunk, Bool.not_eq_true', List.any_eq_false,
      decide_eq_true_eq] at hdead
    exact hdead.1.2 location hlocation hdead.2.symm
  simp only [deleteChunks, failIf_of_false hlayouts, ok_bind, deleteStorageLocations,
    Table.filter_eq_self hlocations]

/-- The sweep fails exactly when a replication run references a dead layout. -/
theorem sweepGcMetadata_eq (db : Db) (targetNodeId : String) :
    (PinsDeadLayout db ∧
        sweepGcMetadata db targetNodeId = .error (.sqlError "replication_runs_layout_fk")) ∨
      (¬PinsDeadLayout db ∧ sweepGcMetadata db targetNodeId =
        .ok (sweptStats db targetNodeId, sweptDb db targetNodeId)) := by
  have hlive : (∃ layout ∈ db.objectLayouts.rows, (!db.isLiveLayout layout) = true ∧
      ∃ run ∈ db.replicationRuns.rows, run.layoutId = layout.layoutId) ↔ PinsDeadLayout db := by
    simp [PinsDeadLayout, Table.mem_rows, ← Bool.not_eq_true]
  -- Deleting locations changes neither the layouts nor their liveness.
  have hpins : (∃ layout ∈ (deleteStorageLocations db
        (isDeadLocation db targetNodeId)).objectLayouts.rows,
      (!(deleteStorageLocations db (isDeadLocation db targetNodeId)).isLiveLayout layout) = true ∧
        ∃ run ∈ (deleteStorageLocations db
          (isDeadLocation db targetNodeId)).replicationRuns.rows,
            run.layoutId = layout.layoutId) ↔ PinsDeadLayout db := hlive
  by_cases h : PinsDeadLayout db
  · refine .inl ⟨h, ?_⟩
    have hdead := hpins.mpr h
    rw [sweepGcMetadata, deleteObjectLayouts, failIf_of_true hdead, error_bind, error_bind]
  · refine .inr ⟨h, ?_⟩
    have hdead := mt hpins.mp h
    rw [sweepGcMetadata, deleteObjectLayouts, failIf_of_false hdead, ok_bind, ok_bind,
      deleteObjects_unreferenced, ok_bind, deleteChunks_unreferenced, ok_bind]
    rfl

/-! ## GC runs -/

structure GcStarts (db : Db) (run : GcRun) : Prop where
  isOpen : run.state = .open
  validNode : nodeIdInvalid run.targetNodeId = false
  fresh : db.gcRuns.find? run.runId = none
  noGcRun : db.hasOpenGcRun = false
  noReplicationRun : db.hasOpenReplicationRun = false
  noUploadSession : db.hasOpenUploadSession = false

theorem startGcRun_ok {requested run : GcRun} (h : startGcRun db requested = .ok (run, db')) :
    (db' = db ∧ db.gcRuns.find? requested.runId = some run ∧
        run.targetNodeId = requested.targetNodeId ∧ run.mode = requested.mode) ∨
      (GcStarts db requested ∧ run = requested ∧
        db' = { db with gcRuns := db.gcRuns.insert requested }) := by
  simp only [startGcRun, validateGcRunStartRequest, bind_eq_ok, exists_unit, failIf_eq_ok,
    Decidable.not_not, Bool.not_eq_true] at h
  obtain ⟨⟨hopen, hnode, -⟩, h⟩ := h
  cases hfind : db.gcRuns.find? requested.runId with
  | some existing =>
      simp only [hfind] at h
      split at h
      · rename_i hsame
        obtain ⟨rfl, rfl⟩ := Prod.ext_iff.mp (Except.ok.inj h)
        exact .inl ⟨rfl, rfl, hsame⟩
      · cases h
  | none =>
      simp only [hfind, insertGcRun, ensureNoOpenUploadSessions, bind_eq_ok, exists_unit,
        failIf_eq_ok, orFail_eq_ok, Bool.not_eq_true] at h
      obtain ⟨hgc, hreplication, hsession, loaded, hloaded, h⟩ := h
      obtain ⟨rfl, rfl⟩ := Prod.ext_iff.mp (Except.ok.inj h)
      rw [Table.find?_insert_new hfind] at hloaded
      simp only [↓reduceIte, Option.some.injEq] at hloaded
      exact .inr ⟨⟨hopen, hnode, hfind, hgc, hreplication, hsession⟩, hloaded.symm, rfl⟩

/-- The database that a completed run leaves, before its own row changes. -/
def completionDb (db : Db) (run : GcRun) : Db :=
  match run.mode with
  | .dryRun => db
  | .apply => sweptDb db run.targetNodeId

structure GcCompletes (db : Db) (run completed : GcRun) : Prop where
  stored : db.gcRuns.find? run.runId = some run
  isOpen : run.state = .open
  noUploadSession : db.hasOpenUploadSession = false
  unpinned : run.mode = .apply → ¬PinsDeadLayout db
  row : ∃ physical metadata, completed =
    { run with state := .completed, physicalStats := physical, metadataStats := metadata }

def completedGcDb (db : Db) (run completed : GcRun) : Db :=
  { completionDb db run with gcRuns := db.gcRuns.upsert completed }

theorem completedGcDb_frame (db : Db) (run completed : GcRun) :
    ∃ chunks objects objectLayouts storageLocations finalizations,
      completedGcDb db run completed = { db with
        chunks := chunks
        objects := objects
        objectLayouts := objectLayouts
        storageLocations := storageLocations
        finalizations := finalizations
        gcRuns := db.gcRuns.upsert completed } := by
  unfold completedGcDb completionDb
  cases run.mode with
  | dryRun => exact ⟨_, _, _, _, _, rfl⟩
  | apply => exact ⟨_, _, _, _, _, rfl⟩

theorem completionSweep_ok {run : GcRun} {stats : GcMetadataStats}
    (h : completionSweep db run = .ok (stats, db')) :
    db' = completionDb db run ∧ (run.mode = .apply → ¬PinsDeadLayout db) := by
  unfold completionSweep completionDb at *
  cases hmode : run.mode with
  | dryRun =>
      simp only [hmode, Except.ok.injEq, Prod.mk.injEq] at h
      exact ⟨h.2.symm, by simp⟩
  | apply =>
      simp only [hmode] at h
      rcases sweepGcMetadata_eq db run.targetNodeId with ⟨-, hs⟩ | ⟨hunpinned, hs⟩
      · rw [hs] at h
        cases h
      · rw [hs] at h
        exact ⟨(Prod.ext_iff.mp (Except.ok.inj h)).2.symm, fun _ => hunpinned⟩

theorem completionDb_gcRuns (db : Db) (run : GcRun) :
    (completionDb db run).gcRuns = db.gcRuns := by
  unfold completionDb
  cases run.mode <;> rfl

theorem completeGcRun_ok {runId : UuidV7} {stats : GcPhysicalStats} {result : GcRun}
    (h : completeGcRun db runId stats = .ok (result, db')) :
    (db' = db ∧ db.gcRuns.find? runId = some result ∧ result.state = .completed) ∨
      ∃ run, run.runId = runId ∧ GcCompletes db run result ∧
        db' = completedGcDb db run result := by
  simp only [completeGcRun, bind_eq_ok, orFail_eq_ok] at h
  obtain ⟨run, hfind, h⟩ := h
  have hkey : run.runId = runId := Table.key_of_find? hfind
  cases hstate : run.state with
  | completed =>
      simp only [hstate, Except.ok.injEq, Prod.mk.injEq] at h
      obtain ⟨rfl, rfl⟩ := h
      exact .inl ⟨rfl, hfind, hstate⟩
  | «open» =>
      simp only [hstate, completeOpenGcRun, ensureNoOpenUploadSessions, bind_eq_ok, exists_unit,
        failIf_eq_ok, Bool.not_eq_true] at h
      obtain ⟨hsession, ⟨metadata, swept⟩, hsweep, -, -, h⟩ := h
      obtain ⟨rfl, hunpinned⟩ := completionSweep_ok hsweep
      obtain ⟨rfl, rfl⟩ := Prod.ext_iff.mp (Except.ok.inj h)
      refine .inr ⟨run, hkey, ⟨hkey ▸ hfind, hstate, hsession, hunpinned, stats, metadata, rfl⟩, ?_⟩
      simp only [completedGcDb, completionDb_gcRuns]

/-! ## Replication runs -/

structure ReplicationStarts (env : Environment) (db : Db) (run : ReplicationRun) : Prop where
  isOpen : run.state = .open
  fresh : db.replicationRuns.find? run.runId = none
  noGcRun : db.hasOpenGcRun = false
  noReplicationRun : db.hasOpenReplicationRun = false
  version : ∃ row ∈ db.artifactVersions, row.versionId = run.versionId ∧
    ∃ layout ∈ db.objectLayouts, layout.layoutId = run.layoutId ∧
      layout.objectId = row.rootObjectId
  notRetired : ¬db.Retired run.versionId

theorem loadVersion_ok {versionId : ContentId} {version : ArtifactVersion}
    (h : loadVersion env db versionId = .ok (some version)) :
    ∃ row ∈ db.artifactVersions, row.versionId = versionId ∧
      row.rootObjectId = version.rootObjectId ∧ row.state = version.state := by
  unfold loadVersion at h
  cases hfind : db.artifactVersions.find? versionId with
  | none => simp [hfind] at h
  | some row =>
      cases hread : readVersionRow env row with
      | error e => simp [hfind, hread] at h
      | ok v =>
          simp only [hfind, hread, Except.ok.injEq, Option.some.injEq] at h
          subst h
          simp only [readVersionRow, bind_eq_ok, exists_unit] at hread
          obtain ⟨-, -, -, hread⟩ := hread
          obtain rfl := Except.ok.inj hread
          exact ⟨row, Table.mem_of_find? hfind, Table.key_of_find? hfind, rfl, rfl⟩

theorem leastLayout_some {objectId : ContentId} {usable : ObjectLayoutRow → Bool}
    {layout : ObjectLayoutRow} (h : leastLayout db objectId usable = some layout) :
    layout ∈ db.objectLayouts ∧ layout.objectId = objectId ∧ usable layout = true := by
  have hsorted := List.mem_of_mem_head? h
  have hfiltered := (List.perm_insertionSort _ _).mem_iff.mp hsorted
  obtain ⟨hmem, hcondition⟩ := List.mem_filter.mp hfiltered
  simp only [Bool.and_eq_true, decide_eq_true_eq] at hcondition
  exact ⟨hmem, hcondition.1, hcondition.2⟩

theorem startReplicationRun_ok {runId : UuidV7} {versionId : ContentId}
    {replicationFactor : Nat} {run : ReplicationRun}
    (h : startReplicationRun env db runId versionId replicationFactor = .ok (run, db')) :
    (db' = db ∧ db.replicationRuns.find? runId = some run ∧
        run.versionId = versionId ∧ run.replicationFactor = replicationFactor) ∨
      (run.runId = runId ∧ run.versionId = versionId ∧
        run.replicationFactor = replicationFactor ∧ ReplicationStarts env db run ∧
        db' = { db with replicationRuns := db.replicationRuns.insert run }) := by
  simp only [startReplicationRun, bind_eq_ok, exists_unit, failIf_eq_ok, Bool.not_eq_true] at h
  obtain ⟨-, hgc, h⟩ := h
  cases hfind : db.replicationRuns.find? runId with
  | some existing =>
      simp only [hfind] at h
      split at h
      · rename_i hsame
        obtain ⟨rfl, rfl⟩ := Prod.ext_iff.mp (Except.ok.inj h)
        exact .inl ⟨rfl, rfl, hsame⟩
      · cases h
  | none =>
      simp only [hfind, insertReplicationRun, bind_eq_ok, exists_unit, failIf_eq_ok, orFail_eq_ok,
        Bool.not_eq_true, Decidable.not_not] at h
      obtain ⟨hreplication, _, hload, version, rfl, hcommitted, hretired, selected, hselected,
        -, -, loaded, hloaded, h⟩ := h
      obtain ⟨rfl, rfl⟩ := Prod.ext_iff.mp (Except.ok.inj h)
      rw [Table.find?_insert_new hfind] at hloaded
      simp only [↓reduceIte, Option.some.injEq] at hloaded
      obtain ⟨row, hrow, hid, hroot, -⟩ := loadVersion_ok hload
      obtain ⟨hlayout, hobject, -⟩ := leastLayout_some hselected
      subst hloaded
      refine .inr ⟨rfl, rfl, rfl, ⟨rfl, hfind, hgc, hreplication, ?_, ?_⟩, rfl⟩
      · exact ⟨row, hrow, hid, selected, hlayout, rfl, hobject.trans hroot.symm⟩
      · exact Db.isVersionRetired_eq_false.mp hretired

theorem completeReplicationRun_ok {runId : UuidV7} {stats : ReplicationStats}
    {result : ReplicationRun} (h : completeReplicationRun env db runId stats = .ok (result, db')) :
    (db' = db ∧ db.replicationRuns.find? runId = some result) ∨
      ∃ run, run.runId = runId ∧ db.replicationRuns.find? runId = some run ∧
        run.state = .open ∧ db.hasOpenGcRun = false ∧
        result = { run with state := .completed, stats := stats } ∧
        db' = { db with replicationRuns := db.replicationRuns.upsert result } := by
  simp only [completeReplicationRun, bind_eq_ok, orFail_eq_ok] at h
  obtain ⟨run, hfind, h⟩ := h
  cases hstate : run.state with
  | completed =>
      simp only [hstate, Except.ok.injEq, Prod.mk.injEq] at h
      obtain ⟨rfl, rfl⟩ := h
      exact .inl ⟨rfl, hfind⟩
  | «open» =>
      simp only [hstate, completeOpenReplicationRun, bind_eq_ok, exists_unit, failIf_eq_ok,
        Bool.not_eq_true] at h
      obtain ⟨hgc, _, -, _, -, -, -, h⟩ := h
      obtain ⟨rfl, rfl⟩ := Prod.ext_iff.mp (Except.ok.inj h)
      exact .inr ⟨run, Table.key_of_find? hfind, hfind, hstate, hgc, rfl, rfl⟩

/-! ## Lifecycle runs -/

structure Unprotected (db : Db) (versionId : ContentId) : Prop where
  unpinned : isPinned db versionId = false
  untagged : isTagged db versionId = false
  unreferenced : isManifestReferenced db versionId = false

structure LifecycleStarts (db : Db) (runId : UuidV7) : Prop where
  fresh : db.lifecycleRuns.find? runId = none
  noUploadSession : db.hasOpenUploadSession = false
  noGcRun : db.hasOpenGcRun = false
  noReplicationRun : db.hasOpenReplicationRun = false

/-- The retirements after a lifecycle run. -/
structure Retires (db : Db) (retirements : Table RetirementRow.versionId) : Prop where
  kept : ∀ row ∈ db.retirements, row ∈ retirements
  added : ∀ row ∈ retirements, row ∈ db.retirements ∨
    (Unprotected db row.versionId ∧ ∃ version ∈ db.artifactVersions,
      version.versionId = row.versionId ∧ version.state = .committed)

theorem mem_rankCandidates {previous : Option (Candidate × Nat)} {candidates : List Candidate}
    {ranked : Candidate × Nat} (h : ranked ∈ rankCandidates previous candidates) :
    ranked.1 ∈ candidates := by
  induction candidates generalizing previous with
  | nil => simp [rankCandidates] at h
  | cons candidate rest ih =>
      rcases List.mem_cons.mp h with rfl | h
      · simp
      · exact List.mem_cons_of_mem _ (ih h)

theorem decisionReason_policyRetire {rule : LifecycleRule} {evaluatedAtMs : Int}
    {candidate : Candidate} {rank : Nat}
    (h : decisionReason rule evaluatedAtMs candidate rank = .policyRetire) :
    candidate.pinned = false ∧ candidate.tagged = false ∧ candidate.manifestReferenced = false := by
  unfold decisionReason at h
  cases hp : candidate.pinned <;> cases ht : candidate.tagged <;>
    cases hm : candidate.manifestReferenced <;> simp_all

theorem unprotected_of_decision {policy : LifecyclePolicy} {evaluatedAtMs : Int}
    {decisions : List LifecycleDecision} {d : LifecycleDecision}
    (h : lifecycleDecisions db policy evaluatedAtMs = .ok decisions) (hd : d ∈ decisions)
    (hreason : d.reason = .policyRetire) :
    Unprotected db d.versionId ∧ ∃ version ∈ db.artifactVersions,
      version.versionId = d.versionId ∧ version.state = .committed := by
  simp only [lifecycleDecisions, bind_eq_ok] at h
  obtain ⟨candidates, hcandidates, h⟩ := h
  obtain ⟨ranked, hranked, hdecide⟩ := mem_of_mapEach h hd
  have hsorted := (List.perm_insertionSort _ _).mem_iff.mp (mem_rankCandidates hranked)
  obtain ⟨row, hrow, hread⟩ := mem_of_mapEach hcandidates hsorted
  simp only [decide?, bind_eq_ok, orFail_eq_ok] at hdecide
  obtain ⟨rule, -, hdecide⟩ := hdecide
  obtain rfl := Except.ok.inj hdecide
  obtain ⟨hp, ht, hm⟩ := decisionReason_policyRetire hreason
  simp only [readCandidate, bind_eq_ok] at hread
  obtain ⟨kind, -, hread⟩ := hread
  have hread := Except.ok.inj hread
  rw [← hread] at hp ht hm
  obtain ⟨version, hversion, hobject⟩ := List.mem_filterMap.mp hrow
  obtain ⟨object, -, rfl⟩ := Option.map_eq_some_iff.mp hobject
  obtain ⟨hmem, hcondition⟩ := List.mem_filter.mp hversion
  simp only [Bool.and_eq_true, decide_eq_true_eq] at hcondition
  rw [← hread]
  exact ⟨⟨hp, ht, hm⟩, version, hmem, rfl, hcondition.1⟩

theorem insertRetirements_ok {runId : UuidV7} {decisions : List LifecycleDecision}
    {retirements : Table RetirementRow.versionId}
    (hunprotected : ∀ d ∈ decisions, Unprotected db d.versionId ∧
      ∃ version ∈ db.artifactVersions, version.versionId = d.versionId ∧
        version.state = .committed)
    (h : foldEach decisions db.retirements (insertRetirement runId) = .ok retirements) :
    Retires db retirements := by
  refine foldEach_invariant (P := Retires db) h ⟨fun _ h => h, fun _ h => .inl h⟩ ?_
  intro before d after hd hinsert hbefore
  simp only [insertRetirement, bind_eq_ok, exists_unit] at hinsert
  obtain rfl := Except.ok.inj hinsert.2
  refine ⟨fun row hrow => Table.mem_insert_of_mem (hbefore.kept row hrow), fun row hrow => ?_⟩
  rcases Table.mem_insert.mp hrow with hrow | ⟨rfl, -⟩
  · exact hbefore.added row hrow
  · exact .inr (hunprotected d hd)

theorem runLifecycle_ok {runId policyId : UuidV7} {mode : LifecycleRunMode}
    {evaluatedAtMs : Int} {run : LifecycleRun}
    (h : runLifecycle db runId policyId mode evaluatedAtMs = .ok (run, db')) :
    (db' = db ∧ ∃ decisions, db.lifecycleRuns.find? runId = some ⟨run, decisions⟩ ∧
        run.policyId = policyId ∧ run.mode = mode) ∨
      ∃ decisions retirements, run.runId = runId ∧ run.policyId = policyId ∧ run.mode = mode ∧
        LifecycleStarts db runId ∧ Retires db retirements ∧
        db' = { db with
          lifecycleRuns := db.lifecycleRuns.insert ⟨run, decisions⟩
          retirements := retirements } := by
  unfold runLifecycle at h
  cases hfind : db.lifecycleRuns.find? runId with
  | some existing =>
      simp only [hfind] at h
      split at h
      · rename_i hsame
        obtain ⟨rfl, rfl⟩ := Prod.ext_iff.mp (Except.ok.inj h)
        exact .inl ⟨rfl, existing.decisions, rfl, hsame⟩
      · cases h
  | none =>
      simp only [hfind, insertLifecycleRun, bind_eq_ok, exists_unit, failIf_eq_ok, orFail_eq_ok,
        Bool.not_eq_true] at h
      obtain ⟨hsession, hgc, hreplication, policy, -, decisions, hdecisions, -, retirements,
        hretirements, -, loaded, hloaded, h⟩ := h
      obtain ⟨rfl, rfl⟩ := Prod.ext_iff.mp (Except.ok.inj h)
      rw [Table.find?_insert_new hfind] at hloaded
      simp only [LifecycleRunRow.runId, ↓reduceIte, Option.some.injEq] at hloaded
      subst hloaded
      refine .inr ⟨decisions, retirements, rfl, rfl, rfl, ⟨hfind, hsession, hgc, hreplication⟩,
        insertRetirements_ok (fun d hd => ?_) hretirements, rfl⟩
      have hd : d ∈ decisions ∧ d.reason = .policyRetire := by
        cases mode with
        | dryRun => simp [retirementsToPersist] at hd
        | apply =>
            obtain ⟨hmem, hcondition⟩ := List.mem_filter.mp hd
            simp only [Bool.and_eq_true, decide_eq_true_eq] at hcondition
            exact ⟨hmem, hcondition.2⟩
      exact unprotected_of_decision hdecisions hd.1 hd.2

end AiArtifactStore.Metadata
