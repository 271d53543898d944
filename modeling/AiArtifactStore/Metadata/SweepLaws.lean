import AiArtifactStore.Metadata.Completion

/-!
# Laws of the metadata sweep

Repeated sweeps, sweeps of two nodes in either order, and the counters of a dry
run beside those of a sweep.
-/

namespace AiArtifactStore.Metadata

open AiArtifactStore.Foundation
open AiArtifactStore.Identity

section

variable {db db' : Db} {node other : String}

/-! ## The tables after a sweep -/

theorem liveLayout_sweptDb {layout : ObjectLayoutRow} (h : layout ∈ db.objectLayouts)
    (hlive : db.LiveLayout layout) : (sweptDb db node).LiveLayout layout := by
  rcases hlive with hversion | ⟨⟨sessionId, layoutId⟩, hfinalization, hid, hversion⟩
  · exact .inl hversion
  · obtain rfl : layoutId = some layout.layoutId := hid
    have hkept := @find?_sweptDb_finalizations db node sessionId layout
      (Table.find?_of_mem hfinalization) h (.inr ⟨_, hfinalization, rfl, hversion⟩)
    exact .inr ⟨_, Table.mem_of_find? hkept, rfl, hversion⟩

theorem isDeadLocation_sweptDb {location : StorageLocation} :
    isDeadLocation (sweptDb db node) other location = isDeadLocation db other location := by
  have hlive :
      (sweptDb db node).isLiveChunk location.chunkId = db.isLiveChunk location.chunkId := by
    rw [Bool.eq_iff_iff, Db.isLiveChunk_iff, Db.isLiveChunk_iff, liveChunk_sweptDb]
  rw [isDeadLocation, isDeadLocation, hlive]

theorem sweptDb_storageLocations :
    (sweptDb db node).storageLocations =
      db.storageLocations.filter fun row => !isDeadLocation db node row := rfl

theorem sweptDb_objects :
    (sweptDb db node).objects =
      db.objects.filter fun row => !isUnreferencedObject (sweptDb db node) row := rfl

theorem sweptDb_chunks :
    (sweptDb db node).chunks =
      db.chunks.filter fun row => !isUnreferencedChunk (sweptDb db node) row := rfl

theorem sweptDb_layouts (node other : String) :
    (sweptDb db node).objectLayouts = (sweptDb db other).objectLayouts ∧
      (sweptDb db node).finalizations = (sweptDb db other).finalizations := ⟨rfl, rfl⟩

theorem isUnreferencedObject_congr {object : StoredObject}
    (hversions : db.artifactVersions = db'.artifactVersions)
    (hlayouts : db.objectLayouts = db'.objectLayouts) :
    isUnreferencedObject db object = isUnreferencedObject db' object := by
  rw [isUnreferencedObject, isUnreferencedObject, hversions, hlayouts]

theorem isUnreferencedChunk_congr {chunk : ChunkMetadata}
    (hlayouts : db.objectLayouts = db'.objectLayouts)
    (hlocations : db.storageLocations = db'.storageLocations) :
    isUnreferencedChunk db chunk = isUnreferencedChunk db' chunk := by
  rw [isUnreferencedChunk, isUnreferencedChunk, hlayouts, hlocations]

/-! ## Swept databases -/

structure Swept (db : Db) (node : String) : Prop where
  locations : ∀ location ∈ db.storageLocations, isDeadLocation db node location = false
  layouts : ∀ layout ∈ db.objectLayouts, db.LiveLayout layout
  objects : ∀ object ∈ db.objects, isUnreferencedObject db object = false
  chunks : ∀ chunk ∈ db.chunks, isUnreferencedChunk db chunk = false

theorem swept_sweptDb (db : Db) (node : String) : Swept (sweptDb db node) node := by
  constructor
  · intro location hlocation
    rw [sweptDb_storageLocations, Table.mem_filter, Bool.not_eq_true'] at hlocation
    rw [isDeadLocation_sweptDb]
    exact hlocation.2
  · intro layout hlayout
    obtain ⟨hmem, hlive⟩ := mem_sweptDb_objectLayouts.mp hlayout
    exact liveLayout_sweptDb hmem hlive
  · intro object hobject
    rw [sweptDb_objects, Table.mem_filter, Bool.not_eq_true'] at hobject
    exact hobject.2
  · intro chunk hchunk
    rw [sweptDb_chunks, Table.mem_filter, Bool.not_eq_true'] at hchunk
    exact hchunk.2

theorem withoutLayouts_of_live (h : ∀ layout ∈ db.objectLayouts, db.LiveLayout layout) :
    withoutLayouts db (fun layout => !db.isLiveLayout layout) = db := by
  refine withoutLayouts_none fun layout hlayout => ?_
  rw [Db.isLiveLayout_iff.mpr (h layout hlayout)]
  rfl

theorem objectLayouts_of_live (h : ∀ layout ∈ db.objectLayouts, db.LiveLayout layout) :
    (sweptDb db node).objectLayouts = db.objectLayouts ∧
      (sweptDb db node).finalizations = db.finalizations := by
  have hlayouts := congrArg Db.objectLayouts (withoutLayouts_of_live h)
  have hfinalizations := congrArg Db.finalizations (withoutLayouts_of_live h)
  exact ⟨hlayouts, hfinalizations⟩

theorem sweptDb_ext {db₁ db₂ : Db}
    (hrest : { db₁ with
      chunks := db₂.chunks
      objects := db₂.objects
      objectLayouts := db₂.objectLayouts
      storageLocations := db₂.storageLocations
      finalizations := db₂.finalizations } = db₂)
    (hlocations : db₁.storageLocations = db₂.storageLocations)
    (hlayouts : db₁.objectLayouts = db₂.objectLayouts ∧ db₁.finalizations = db₂.finalizations)
    (hobjects : db₁.objects = db₂.objects) (hchunks : db₁.chunks = db₂.chunks) : db₁ = db₂ := by
  rw [← hrest, ← hlocations, ← hlayouts.1, ← hlayouts.2, ← hobjects, ← hchunks]

theorem sweptDb_eq_self (h : Swept db node) : sweptDb db node = db := by
  have hlocations : (sweptDb db node).storageLocations = db.storageLocations := by
    rw [sweptDb_storageLocations]
    refine Table.filter_eq_self fun location hlocation => ?_
    rw [h.locations location hlocation]
    rfl
  have hlayouts := @objectLayouts_of_live db node h.layouts
  refine sweptDb_ext rfl hlocations hlayouts ?_ ?_
  · rw [sweptDb_objects]
    refine Table.filter_eq_self fun object hobject => ?_
    have hsame : isUnreferencedObject (sweptDb db node) object = isUnreferencedObject db object :=
      isUnreferencedObject_congr rfl hlayouts.1
    rw [hsame, h.objects object hobject]
    rfl
  · rw [sweptDb_chunks]
    refine Table.filter_eq_self fun chunk hchunk => ?_
    have hsame : isUnreferencedChunk (sweptDb db node) chunk = isUnreferencedChunk db chunk :=
      isUnreferencedChunk_congr hlayouts.1 hlocations
    rw [hsame, h.chunks chunk hchunk]
    rfl

/-! ## The counters -/

theorem sweptStats_eq (db : Db) (node : String) :
    sweptStats db node =
      { storageLocationsSwept := db.storageLocations.rows.countP (isDeadLocation db node)
        chunkRowsSwept := db.chunks.rows.countP (isUnreferencedChunk (sweptDb db node))
        objectLayoutsSwept := db.objectLayouts.rows.countP fun layout => !db.isLiveLayout layout
        objectsSwept := db.objects.rows.countP (isUnreferencedObject (sweptDb db node)) } := rfl

theorem sweptStats_eq_zero (h : Swept db node) : sweptStats db node = .zero := by
  have hlocations : db.storageLocations.rows.countP (isDeadLocation db node) = 0 :=
    List.countP_eq_zero.mpr fun location hlocation => by simp [h.locations location hlocation]
  have hlayouts : (db.objectLayouts.rows.countP fun layout => !db.isLiveLayout layout) = 0 :=
    List.countP_eq_zero.mpr fun layout hlayout => by simp [h.layouts layout hlayout]
  have hobjects : db.objects.rows.countP (isUnreferencedObject db) = 0 :=
    List.countP_eq_zero.mpr fun object hobject => by simp [h.objects object hobject]
  have hchunks : db.chunks.rows.countP (isUnreferencedChunk db) = 0 :=
    List.countP_eq_zero.mpr fun chunk hchunk => by simp [h.chunks chunk hchunk]
  rw [sweptStats_eq, sweptDb_eq_self h, hlocations, hlayouts, hobjects, hchunks]
  rfl

/-! ## Two sweeps -/

theorem not_pinsDeadLayout_sweptDb : ¬PinsDeadLayout (sweptDb db node) := by
  rintro ⟨layout, hlayout, hdead, -⟩
  exact hdead ((swept_sweptDb db node).layouts layout hlayout)

theorem layouts_sweptDb_twice :
    (sweptDb (sweptDb db node) other).objectLayouts = (sweptDb db node).objectLayouts ∧
      (sweptDb (sweptDb db node) other).finalizations = (sweptDb db node).finalizations :=
  objectLayouts_of_live (swept_sweptDb db node).layouts

theorem locations_sweptDb_twice :
    (sweptDb (sweptDb db node) other).storageLocations =
      db.storageLocations.filter fun row =>
        !isDeadLocation db other row && !isDeadLocation db node row := by
  rw [sweptDb_storageLocations, sweptDb_storageLocations, Table.filter_filter]
  refine Table.filter_congr fun location _ => ?_
  rw [isDeadLocation_sweptDb]

theorem objects_sweptDb_twice :
    (sweptDb (sweptDb db node) other).objects = (sweptDb db node).objects := by
  have hsame : ∀ object, isUnreferencedObject (sweptDb (sweptDb db node) other) object =
      isUnreferencedObject (sweptDb db node) object := fun object =>
    isUnreferencedObject_congr rfl layouts_sweptDb_twice.1
  refine Table.filter_eq_self fun object hobject => ?_
  have hkept := (swept_sweptDb db node).objects object hobject
  rw [Bool.not_eq_true', ← hkept]
  exact hsame object

theorem isUnreferencedChunk_sweptDb_twice {chunk : ChunkMetadata}
    (h : isUnreferencedChunk (sweptDb db node) chunk = true) :
    isUnreferencedChunk (sweptDb (sweptDb db node) other) chunk = true := by
  simp only [isUnreferencedChunk, Bool.and_eq_true, Bool.not_eq_true', List.any_eq_false,
    Table.mem_rows] at h ⊢
  rw [layouts_sweptDb_twice.1]
  refine ⟨h.1, fun location hlocation => ?_⟩
  exact h.2 location (mem_sweptDb_storageLocations.mp hlocation).1

theorem chunks_sweptDb_twice :
    (sweptDb (sweptDb db node) other).chunks =
      db.chunks.filter fun row =>
        !isUnreferencedChunk (sweptDb (sweptDb db node) other) row := by
  rw [@sweptDb_chunks (sweptDb db node), sweptDb_chunks, Table.filter_filter]
  refine Table.filter_congr fun chunk _ => ?_
  cases hfirst : isUnreferencedChunk (sweptDb db node) chunk with
  | false => simp
  | true => rw [isUnreferencedChunk_sweptDb_twice hfirst]; rfl

theorem sweptDb_comm (db : Db) (node other : String) :
    sweptDb (sweptDb db node) other = sweptDb (sweptDb db other) node := by
  have hlayouts : (sweptDb (sweptDb db node) other).objectLayouts =
      (sweptDb (sweptDb db other) node).objectLayouts := by
    rw [layouts_sweptDb_twice.1, layouts_sweptDb_twice.1, (sweptDb_layouts node other).1]
  have hfinalizations : (sweptDb (sweptDb db node) other).finalizations =
      (sweptDb (sweptDb db other) node).finalizations := by
    rw [layouts_sweptDb_twice.2, layouts_sweptDb_twice.2, (sweptDb_layouts node other).2]
  have hlocations : (sweptDb (sweptDb db node) other).storageLocations =
      (sweptDb (sweptDb db other) node).storageLocations := by
    rw [locations_sweptDb_twice, locations_sweptDb_twice]
    exact Table.filter_congr fun location _ => Bool.and_comm _ _
  refine sweptDb_ext rfl hlocations ⟨hlayouts, hfinalizations⟩ ?_ ?_
  · rw [objects_sweptDb_twice, objects_sweptDb_twice, sweptDb_objects, sweptDb_objects]
    exact Table.filter_congr fun object _ => congrArg _ (isUnreferencedObject_congr rfl rfl)
  · rw [chunks_sweptDb_twice, chunks_sweptDb_twice]
    exact Table.filter_congr fun chunk _ =>
      congrArg _ (isUnreferencedChunk_congr hlayouts hlocations)

theorem sweepGcMetadata_of_unpinned (h : ¬PinsDeadLayout db) (node : String) :
    sweepGcMetadata db node = .ok (sweptStats db node, sweptDb db node) := by
  rcases sweepGcMetadata_eq db node with ⟨hpins, -⟩ | ⟨-, hs⟩
  · exact absurd hpins h
  · exact hs

def sweepInTurn (db : Db) (first second : String) : Except Exc Db := do
  let (_, db) ← sweepGcMetadata db first
  let (_, db) ← sweepGcMetadata db second
  .ok db

theorem sweepInTurn_of_unpinned (h : ¬PinsDeadLayout db) (first second : String) :
    sweepInTurn db first second = .ok (sweptDb (sweptDb db first) second) := by
  simp only [sweepInTurn, sweepGcMetadata_of_unpinned h, ok_bind,
    sweepGcMetadata_of_unpinned not_pinsDeadLayout_sweptDb]

/-- Where no replication run references a dead layout, a second sweep of a node finds
nothing and changes nothing, and sweeps of two nodes commute. -/
theorem sweepGcMetadata_laws (h : ¬PinsDeadLayout db) (node other : String) :
    (∃ stats swept, sweepGcMetadata db node = .ok (stats, swept) ∧
      sweepGcMetadata swept node = .ok (.zero, swept)) ∧
    ∃ swept, sweepInTurn db node other = .ok swept ∧ sweepInTurn db other node = .ok swept := by
  constructor
  · refine ⟨_, _, sweepGcMetadata_of_unpinned h node, ?_⟩
    have hswept := swept_sweptDb db node
    rw [sweepGcMetadata_of_unpinned not_pinsDeadLayout_sweptDb, sweptStats_eq_zero hswept,
      sweptDb_eq_self hswept]
  · refine ⟨_, sweepInTurn_of_unpinned h node other, ?_⟩
    rw [sweepInTurn_of_unpinned h, sweptDb_comm]

/-! ## The counters of a dry run -/

/-- What a sweep of the node frees before it deletes objects and chunk rows was free before
the sweep. -/
structure SweepForeseen (db : Db) (node : String) : Prop where
  objects : ∀ object ∈ db.objects,
    (∀ version ∈ db.artifactVersions, version.rootObjectId ≠ object.objectId) →
    (∀ layout ∈ db.objectLayouts, layout.objectId = object.objectId → ¬db.LiveLayout layout) →
      ∀ layout ∈ db.objectLayouts, layout.objectId ≠ object.objectId
  chunks : ∀ chunk ∈ db.chunks, ¬db.LiveChunk chunk.chunkId →
    (∀ location ∈ db.storageLocations, location.chunkId = chunk.chunkId →
      location.nodeId = node) →
      (∀ layout ∈ db.objectLayouts, layout.containsChunk chunk.chunkId = false) ∧
        ∀ location ∈ db.storageLocations, location.chunkId ≠ chunk.chunkId

theorem isUnreferencedObject_iff {object : StoredObject} :
    isUnreferencedObject db object = true ↔
      (∀ version ∈ db.artifactVersions, version.rootObjectId ≠ object.objectId) ∧
        ∀ layout ∈ db.objectLayouts, layout.objectId ≠ object.objectId := by
  simp [isUnreferencedObject, Table.mem_rows]

theorem isUnreferencedChunk_iff {chunk : ChunkMetadata} :
    isUnreferencedChunk db chunk = true ↔
      (∀ layout ∈ db.objectLayouts, layout.containsChunk chunk.chunkId = false) ∧
        ∀ location ∈ db.storageLocations, location.chunkId ≠ chunk.chunkId := by
  simp [isUnreferencedChunk, Table.mem_rows]

theorem isUnreferencedObject_sweptDb {object : StoredObject} :
    isUnreferencedObject (sweptDb db node) object = true ↔
      (∀ version ∈ db.artifactVersions, version.rootObjectId ≠ object.objectId) ∧
        ∀ layout ∈ db.objectLayouts, layout.objectId = object.objectId →
          ¬db.LiveLayout layout := by
  rw [isUnreferencedObject_iff]
  refine and_congr Iff.rfl (forall_congr' fun layout => ?_)
  rw [mem_sweptDb_objectLayouts]
  exact ⟨fun h hmem hid hlive => h ⟨hmem, hlive⟩ hid, fun h hmem hid => h hmem.1 hid hmem.2⟩

theorem isUnreferencedChunk_sweptDb {chunk : ChunkMetadata} :
    isUnreferencedChunk (sweptDb db node) chunk = true ↔
      ¬db.LiveChunk chunk.chunkId ∧
        ∀ location ∈ db.storageLocations, location.chunkId = chunk.chunkId →
          location.nodeId = node := by
  rw [isUnreferencedChunk_iff]
  constructor
  · rintro ⟨hlayouts, hlocations⟩
    have hdead : ¬db.LiveChunk chunk.chunkId := by
      rintro ⟨layout, hlayout, hcontains, hlive⟩
      rw [hlayouts layout (mem_sweptDb_objectLayouts.mpr ⟨hlayout, hlive⟩)] at hcontains
      cases hcontains
    refine ⟨hdead, fun location hlocation hid => ?_⟩
    by_contra hnode
    exact hlocations location
      (mem_sweptDb_storageLocations.mpr ⟨hlocation, fun h => absurd h hnode⟩) hid
  · rintro ⟨hdead, hnodes⟩
    constructor
    · intro layout hlayout
      obtain ⟨hmem, hlive⟩ := mem_sweptDb_objectLayouts.mp hlayout
      rw [← Bool.not_eq_true]
      exact fun hcontains => hdead ⟨layout, hmem, hcontains, hlive⟩
    · intro location hlocation hid
      obtain ⟨hmem, hlive⟩ := mem_sweptDb_storageLocations.mp hlocation
      exact hdead (hid ▸ hlive (hnodes location hmem hid))

theorem sweepCandidates_eq_iff :
    countGcMetadataSweepCandidates db node = sweptStats db node ↔ SweepForeseen db node := by
  have hobjects := db.objects.countP_eq_iff (p := isUnreferencedObject db)
    (q := isUnreferencedObject (sweptDb db node)) fun object _ h => by
      rw [isUnreferencedObject_iff] at h
      refine isUnreferencedObject_sweptDb.mpr ⟨h.1, fun layout hlayout hid => ?_⟩
      exact absurd hid (h.2 layout hlayout)
  have hchunks := db.chunks.countP_eq_iff (p := isUnreferencedChunk db)
    (q := isUnreferencedChunk (sweptDb db node)) fun chunk _ h => by
      obtain ⟨hlayouts, hlocations⟩ := isUnreferencedChunk_iff.mp h
      refine isUnreferencedChunk_sweptDb.mpr ⟨?_, fun location hlocation hid => ?_⟩
      · rintro ⟨layout, hlayout, hcontains, -⟩
        rw [hlayouts layout hlayout] at hcontains
        cases hcontains
      · exact absurd hid (hlocations location hlocation)
  rw [sweptStats_eq, countGcMetadataSweepCandidates, GcMetadataStats.mk.injEq, hobjects, hchunks]
  simp only [isUnreferencedObject_sweptDb, isUnreferencedChunk_sweptDb]
  simp only [isUnreferencedObject_iff, isUnreferencedChunk_iff]
  constructor
  · rintro ⟨-, hchunk, -, hobject⟩
    exact ⟨fun object hmem hversions hdead => (hobject object hmem ⟨hversions, hdead⟩).2,
      fun chunk hmem hdead hnodes => hchunk chunk hmem ⟨hdead, hnodes⟩⟩
  · rintro ⟨hobject, hchunk⟩
    exact ⟨trivial, fun chunk hmem h => hchunk chunk hmem h.1 h.2, trivial,
      fun object hmem h => ⟨h.1, hobject object hmem h.1 h.2⟩⟩

def completionStats (db : Db) (run : GcRun) : GcMetadataStats :=
  match run.mode with
  | .dryRun => countGcMetadataSweepCandidates db run.targetNodeId
  | .apply => sweptStats db run.targetNodeId

theorem completeGcRun_metadataStats {run completed : GcRun} {stats : GcPhysicalStats}
    (hstored : db.gcRuns.find? run.runId = some run) (hopen : run.state = .open)
    (h : completeGcRun db run.runId stats = .ok (completed, db')) :
    completed.metadataStats = completionStats db run := by
  rw [completeGcRun, hstored, orFail_some, ok_bind] at h
  simp only [hopen, completeOpenGcRun, bind_eq_ok, exists_unit] at h
  obtain ⟨-, ⟨metadata, swept⟩, hsweep, -, -, h⟩ := h
  obtain ⟨rfl, -⟩ := Prod.ext_iff.mp (Except.ok.inj h)
  cases hmode : run.mode with
  | dryRun =>
      simp only [completionSweep, hmode] at hsweep
      simp only [completionStats, hmode]
      exact (Prod.ext_iff.mp (Except.ok.inj hsweep)).1.symm
  | apply =>
      simp only [completionSweep, hmode] at hsweep
      simp only [completionStats, hmode]
      exact (sweepGcMetadata_ok hsweep).2.1

/-- A dry run and an apply run of one node that complete on the same tables report the same
metadata counters exactly when the sweep frees no object and no chunk row by itself. -/
theorem completeGcRun_dryRun_iff {dryRuns applyRuns : Table GcRun.runId}
    {dry apply dryCompleted applyCompleted : GcRun} {dryStats applyStats : GcPhysicalStats}
    {afterDry afterApply : Db} (hdry : dryRuns.find? dry.runId = some dry)
    (happly : applyRuns.find? apply.runId = some apply) (hdryOpen : dry.state = .open)
    (happlyOpen : apply.state = .open) (hdryMode : dry.mode = .dryRun)
    (happlyMode : apply.mode = .apply) (hnode : dry.targetNodeId = apply.targetNodeId)
    (hdryDone : completeGcRun { db with gcRuns := dryRuns } dry.runId dryStats =
      .ok (dryCompleted, afterDry))
    (happlyDone : completeGcRun { db with gcRuns := applyRuns } apply.runId applyStats =
      .ok (applyCompleted, afterApply)) :
    dryCompleted.metadataStats = applyCompleted.metadataStats ↔
      SweepForeseen db apply.targetNodeId := by
  have hcounted : dryCompleted.metadataStats =
      countGcMetadataSweepCandidates db dry.targetNodeId := by
    rw [completeGcRun_metadataStats hdry hdryOpen hdryDone, completionStats, hdryMode]
    rfl
  have hswept : applyCompleted.metadataStats = sweptStats db apply.targetNodeId := by
    rw [completeGcRun_metadataStats happly happlyOpen happlyDone, completionStats, happlyMode]
    rfl
  rw [hcounted, hswept, hnode]
  exact sweepCandidates_eq_iff

end

/-! ## Runs on the retired sample -/

namespace Sample

def retiredDb : Db := afterOps env .initial (pushOps ++ retireOps)

def dryGcRun : GcRun := { gcRun with mode := .dryRun }

end Sample

open Sample in
theorem sweepGcMetadata_laws_sample :
    (∃ stats swept, sweepGcMetadata retiredDb "n1" = .ok (stats, swept) ∧
      sweepGcMetadata swept "n1" = .ok (.zero, swept)) ∧
    ∃ swept, sweepInTurn retiredDb "n1" "n2" = .ok swept ∧
      sweepInTurn retiredDb "n2" "n1" = .ok swept := by
  have hruns : retiredDb.replicationRuns.rows = [] := by decide +kernel
  have hunpinned : ¬PinsDeadLayout retiredDb := by
    rintro ⟨layout, -, -, run, hrun, -⟩
    rw [← Table.mem_rows, hruns] at hrun
    simp at hrun
  exact sweepGcMetadata_laws hunpinned "n1" "n2"

def onlyGcRun (run : GcRun) : Table GcRun.runId := Table.empty.insert run

theorem find?_onlyGcRun (run : GcRun) : (onlyGcRun run).find? run.runId = some run :=
  Table.find?_of_mem (Table.mem_insert_new rfl)

/-- The completion of the run in the database, were it the only GC run. -/
def completionOf (db : Db) (run : GcRun) : Except Exc (GcRun × Db) :=
  completeGcRun { db with gcRuns := onlyGcRun run } run.runId .zero

open Sample in
/-- The only chunk row is in the dead layout and located on the node: a dry run does not
count it, and the sweep deletes it. -/
theorem completeGcRun_dryRun_differs :
    (completionOf retiredDb dryGcRun).map (fun answer => answer.1.metadataStats) =
        .ok ⟨1, 0, 1, 0⟩ ∧
      (completionOf retiredDb gcRun).map (fun answer => answer.1.metadataStats) =
        .ok ⟨1, 1, 1, 0⟩ := by
  decide +kernel

open Sample in
theorem completeGcRun_dryRun_iff_sample :
    ∃ dryCompleted applyCompleted afterDry afterApply,
      completionOf retiredDb dryGcRun = .ok (dryCompleted, afterDry) ∧
      completionOf retiredDb gcRun = .ok (applyCompleted, afterApply) ∧
      (dryCompleted.metadataStats = applyCompleted.metadataStats ↔
        SweepForeseen retiredDb "n1") := by
  have hdry : ((completionOf retiredDb dryGcRun).toOption).isSome = true := by decide +kernel
  have happly : ((completionOf retiredDb gcRun).toOption).isSome = true := by decide +kernel
  cases hdryDone : completionOf retiredDb dryGcRun with
  | error e =>
      rw [hdryDone] at hdry
      cases hdry
  | ok dryAnswer =>
      cases happlyDone : completionOf retiredDb gcRun with
      | error e =>
          rw [happlyDone] at happly
          cases happly
      | ok applyAnswer =>
          exact ⟨dryAnswer.1, applyAnswer.1, dryAnswer.2, applyAnswer.2, rfl, rfl,
            completeGcRun_dryRun_iff (find?_onlyGcRun dryGcRun) (find?_onlyGcRun gcRun)
              rfl rfl rfl rfl rfl hdryDone happlyDone⟩

end AiArtifactStore.Metadata
