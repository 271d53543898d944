import AiArtifactStore.Metadata.Registration

/-!
# Garbage collection runs

`start_gc_run`, `classify_gc_chunks` and `complete_gc_run`.  A `DELETE` applies
the referential actions that the migrations declare.
-/

namespace AiArtifactStore.Metadata

open AiArtifactStore.Foundation
open AiArtifactStore.Identity

/-! ## Deletes with their referential actions -/

def deleteStorageLocations (db : Db) (dead : StorageLocation → Bool) : Db :=
  { db with storageLocations := db.storageLocations.filter fun row => !dead row }

def FinalizationRow.clearLayout (dead : ContentId → Bool) (row : FinalizationRow) :
    FinalizationRow :=
  { row with layoutId := row.layoutId.filter fun layoutId => !dead layoutId }

theorem FinalizationRow.clearLayout_sessionId (dead : ContentId → Bool) (row : FinalizationRow) :
    (row.clearLayout dead).sessionId = row.sessionId := rfl

/-- The layouts without the dead ones, and no finalization that references one. -/
def withoutLayouts (db : Db) (dead : ObjectLayoutRow → Bool) : Db :=
  let isDead := fun layoutId => db.objectLayouts.rows.any fun row =>
    dead row && row.layoutId = layoutId
  { db with
    objectLayouts := db.objectLayouts.filter fun row => !dead row
    finalizations := db.finalizations.mapRows (FinalizationRow.clearLayout isDead)
      (FinalizationRow.clearLayout_sessionId isDead) }

/-- `DELETE FROM object_layouts`: chunk rows cascade, finalizations are set to
null, replication runs restrict. -/
def deleteObjectLayouts (db : Db) (dead : ObjectLayoutRow → Bool) : Except Exc Db := do
  failIf (∃ layout ∈ db.objectLayouts.rows, dead layout ∧
      ∃ run ∈ db.replicationRuns.rows, run.layoutId = layout.layoutId)
    (.sqlError "replication_runs_layout_fk")
  .ok (withoutLayouts db dead)

def deleteObjects (db : Db) (dead : StoredObject → Bool) : Except Exc Db := do
  failIf (∃ object ∈ db.objects.rows, dead object ∧
      ∃ version ∈ db.artifactVersions.rows, version.rootObjectId = object.objectId)
    (.sqlError "artifact_versions_root_object_fk")
  let db ← deleteObjectLayouts db fun layout => db.objects.rows.any fun object =>
    dead object && object.objectId = layout.objectId && object.totalSize = layout.totalSizeBytes
  .ok { db with objects := db.objects.filter fun row => !dead row }

def deleteChunks (db : Db) (dead : ChunkMetadata → Bool) : Except Exc Db := do
  failIf (∃ chunk ∈ db.chunks.rows, dead chunk ∧ ∃ layout ∈ db.objectLayouts.rows,
      ∃ row ∈ layout.chunkRows, row.chunkId = chunk.chunkId ∧ row.chunkSizeBytes = chunk.sizeBytes)
    (.sqlError "object_layout_chunks_chunk_fk")
  let db := deleteStorageLocations db fun location => db.chunks.rows.any fun chunk =>
    dead chunk && chunk.chunkId = location.chunkId
  .ok { db with chunks := db.chunks.filter fun row => !dead row }

/-! ## The sweep -/

def isDeadLocation (db : Db) (targetNodeId : String) (location : StorageLocation) : Bool :=
  location.nodeId = targetNodeId && !db.isLiveChunk location.chunkId

def isUnreferencedObject (db : Db) (object : StoredObject) : Bool :=
  !(db.artifactVersions.rows.any fun version => version.rootObjectId = object.objectId) &&
    !(db.objectLayouts.rows.any fun layout => layout.objectId = object.objectId)

def isUnreferencedChunk (db : Db) (chunk : ChunkMetadata) : Bool :=
  !(db.objectLayouts.rows.any fun layout => layout.containsChunk chunk.chunkId) &&
    !(db.storageLocations.rows.any fun location => location.chunkId = chunk.chunkId)

def countGcMetadataSweepCandidates (db : Db) (targetNodeId : String) : GcMetadataStats :=
  { storageLocationsSwept := db.storageLocations.rows.countP (isDeadLocation db targetNodeId)
    chunkRowsSwept := db.chunks.rows.countP (isUnreferencedChunk db)
    objectLayoutsSwept := db.objectLayouts.rows.countP fun layout => !db.isLiveLayout layout
    objectsSwept := db.objects.rows.countP (isUnreferencedObject db) }

def sweepGcMetadata (db : Db) (targetNodeId : String) : Except Exc (GcMetadataStats × Db) := do
  let db₁ := deleteStorageLocations db (isDeadLocation db targetNodeId)
  let db₂ ← deleteObjectLayouts db₁ fun layout => !db₁.isLiveLayout layout
  let db₃ ← deleteObjects db₂ (isUnreferencedObject db₂)
  let db₄ ← deleteChunks db₃ (isUnreferencedChunk db₃)
  .ok
    ({ storageLocationsSwept := db.storageLocations.rows.countP (isDeadLocation db targetNodeId)
       chunkRowsSwept := db₃.chunks.rows.countP (isUnreferencedChunk db₃)
       objectLayoutsSwept := db₁.objectLayouts.rows.countP fun layout => !db₁.isLiveLayout layout
       objectsSwept := db₂.objects.rows.countP (isUnreferencedObject db₂) }, db₄)

/-! ## The runs -/

def validateGcRunStartRequest (requested : GcRun) : Except Exc Unit := do
  failIf (requested.state ≠ .open)
    (.invalidArgument "start_gc_run requires an open GC run state")
  failIf (nodeIdInvalid requested.targetNodeId) (.invalidArgument "source node ID is invalid")
  failIf (requested.physicalStats ≠ .zero ∨ requested.metadataStats ≠ .zero)
    (.invalidArgument "start_gc_run requires zero stats")

def ensureNoOpenUploadSessions (db : Db) : Except Exc Unit :=
  failIf db.hasOpenUploadSession
    (.gcError .openUploadSessionsPresent "open upload sessions are present")

def insertGcRun (db : Db) (requested : GcRun) : Except Exc (GcRun × Db) := do
  failIf db.hasOpenGcRun (.gcError .anotherRunOpen "another GC run is already open")
  failIf db.hasOpenReplicationRun (.gcError .replicationInProgress "replication is in progress")
  ensureNoOpenUploadSessions db
  let db := { db with gcRuns := db.gcRuns.insert requested }
  let loaded ← orFail (db.gcRuns.find? requested.runId)
    (.runtimeError "GC run disappeared immediately after insert")
  .ok (loaded, db)

def startGcRun (db : Db) (requested : GcRun) : Except Exc (GcRun × Db) := do
  validateGcRunStartRequest requested
  match db.gcRuns.find? requested.runId with
  | some existing =>
      if existing.targetNodeId = requested.targetNodeId ∧ existing.mode = requested.mode then
        .ok (existing, db)
      else
        .error (.gcError .runConflict "GC run ID conflicts with an existing run")
  | none => insertGcRun db requested

def classifyGcChunks (db : Db) (runId : UuidV7) (chunkIds : List ContentId) :
    Except Exc (List GcChunkDecision) := do
  failIf (chunkIds = [] ∨ chunkIds.length > 256)
    (.invalidArgument "classify_gc_chunks requires 1 to 256 chunk IDs")
  failIf (¬chunkIds.Nodup) (.invalidArgument "classify_gc_chunks requires unique chunk IDs")
  let run ← orFail (db.gcRuns.find? runId) (.gcError .runNotFound "GC run does not exist")
  failIf (run.state ≠ .open) (.gcError .runNotOpen "GC run is not open")
  .ok (chunkIds.map fun chunkId => ⟨chunkId, !db.isLiveChunk chunkId⟩)

def checkPhysicalStats (stats : GcPhysicalStats) : Except Exc Unit := do
  let _ ← toPostgresBigint stats.physicalChunksScanned "physical_chunks_scanned"
  let _ ← toPostgresBigint stats.physicalBytesScanned "physical_bytes_scanned"
  let _ ← toPostgresBigint stats.collectibleChunks "collectible_chunks"
  let _ ← toPostgresBigint stats.collectibleBytes "collectible_bytes"
  let _ ← toPostgresBigint stats.physicallyDeletedChunks "physically_deleted_chunks"
  let _ ← toPostgresBigint stats.physicallyDeletedBytes "physically_deleted_bytes"

def checkMetadataStats (stats : GcMetadataStats) : Except Exc Unit := do
  let _ ← toPostgresBigint stats.storageLocationsSwept "storage_locations_swept"
  let _ ← toPostgresBigint stats.chunkRowsSwept "chunk_rows_swept"
  let _ ← toPostgresBigint stats.objectLayoutsSwept "object_layouts_swept"
  let _ ← toPostgresBigint stats.objectsSwept "objects_swept"

/-- The metadata statistics of a completion, and the database after its sweep. -/
def completionSweep (db : Db) (run : GcRun) : Except Exc (GcMetadataStats × Db) :=
  match run.mode with
  | .dryRun => .ok (countGcMetadataSweepCandidates db run.targetNodeId, db)
  | .apply => sweepGcMetadata db run.targetNodeId

def completeOpenGcRun (db : Db) (run : GcRun) (physicalStats : GcPhysicalStats) :
    Except Exc (GcRun × Db) := do
  ensureNoOpenUploadSessions db
  let (metadataStats, db) ← completionSweep db run
  checkPhysicalStats physicalStats
  checkMetadataStats metadataStats
  let completed :=
    { run with state := .completed, physicalStats := physicalStats, metadataStats := metadataStats }
  .ok (completed, { db with gcRuns := db.gcRuns.upsert completed })

def completeGcRun (db : Db) (runId : UuidV7) (physicalStats : GcPhysicalStats) :
    Except Exc (GcRun × Db) := do
  let run ← orFail (db.gcRuns.find? runId) (.gcError .runNotFound "GC run does not exist")
  match run.state with
  | .completed => .ok (run, db)
  | .open => completeOpenGcRun db run physicalStats

end AiArtifactStore.Metadata
