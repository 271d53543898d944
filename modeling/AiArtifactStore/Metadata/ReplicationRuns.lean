import AiArtifactStore.Metadata.Placement
import AiArtifactStore.Metadata.Restore

/-!
# Replication runs

`start_replication_run`, `get_replication_plan` and `complete_replication_run`.
-/

namespace AiArtifactStore.Metadata

open AiArtifactStore.Foundation
open AiArtifactStore.Identity

/-- The active nodes, in the order of the query. -/
def activeNodeIds (env : Environment) (db : Db) : List String :=
  (env.orderByText StorageNode.nodeId (db.storageNodes.rows.filter fun node =>
    node.state = .active)).map StorageNode.nodeId

def insertReplicationRun (env : Environment) (db : Db) (runId : UuidV7) (versionId : ContentId)
    (replicationFactor : Nat) : Except Exc (ReplicationRun × Db) := do
  failIf db.hasOpenReplicationRun
    (.replicationError .anotherRunOpen "another replication run is already open")
  let version ← orFail (← loadVersion env db versionId)
    (.replicationError .versionNotFound ("artifact version does not exist: " ++ versionId.hex))
  failIf (version.state ≠ .committed)
    (.replicationError .versionNotCommitted
      ("artifact version is not committed: " ++ versionId.hex))
  failIf (db.isVersionRetired versionId)
    (.replicationError .versionRetired ("artifact version has been retired: " ++ versionId.hex))
  let selected ← orFail (leastLayout db version.rootObjectId (isRestorableLayout db))
    (.replicationError .sourceUnavailable
      "no fully restorable layout for registered active or draining nodes")
  let nodeIds := activeNodeIds env db
  failIf (nodeIds.length > 64)
    (.replicationError .sourceUnavailable
      "active storage node snapshot exceeds supported placement size")
  failIf (nodeIds.length < replicationFactor)
    (.replicationError .sourceUnavailable
      "active storage node count is below replication factor")
  let run : ReplicationRun :=
    { runId := runId
      versionId := versionId
      layoutId := selected.layoutId
      replicationFactor := replicationFactor
      placementNodeIds := nodeIds
      state := .open
      stats := .zero }
  let db := { db with replicationRuns := db.replicationRuns.insert run }
  let loaded ← orFail (db.replicationRuns.find? runId)
    (.runtimeError "replication run disappeared immediately after insert")
  .ok (loaded, db)

def startReplicationRun (env : Environment) (db : Db) (runId : UuidV7) (versionId : ContentId)
    (replicationFactor : Nat) : Except Exc (ReplicationRun × Db) := do
  failIf (replicationFactor < 1 ∨ replicationFactor > 8)
    (.invalidArgument "replication factor must be between 1 and 8")
  failIf db.hasOpenGcRun (.replicationError .gcInProgress "garbage collection is in progress")
  match db.replicationRuns.find? runId with
  | some existing =>
      if existing.versionId = versionId ∧ existing.replicationFactor = replicationFactor then
        .ok (existing, db)
      else
        .error (.replicationError .runConflict
          "replication run ID conflicts with an existing run")
  | none => insertReplicationRun env db runId versionId replicationFactor

/-! ## Plans -/

structure ReplicationChunkPlan where
  chunkId : ContentId
  offset : Nat
  sizeBytes : Nat
  desiredNodeIds : List String
  sourceNodes : List NodeEndpoint
  targetNodes : List NodeEndpoint
  deriving DecidableEq, Repr

structure ReplicationPlan where
  runId : UuidV7
  versionId : ContentId
  layoutId : ContentId
  replicationFactor : Nat
  placementNodeIds : List String
  chunks : List ReplicationChunkPlan
  deriving DecidableEq, Repr

def replicationTarget (db : Db) (nodeId : String) : Except Exc NodeEndpoint :=
  match db.storageNodes.find? nodeId with
  | none =>
      .error (.replicationError .targetDisabled
        ("replication target node is disabled: " ++ nodeId))
  | some node =>
      if node.state = .disabled then
        .error (.replicationError .targetDisabled
          ("replication target node is disabled: " ++ nodeId))
      else .ok ⟨nodeId, node.address, node.port⟩

def planReplicationChunk (env : Environment) (db : Db) (run : ReplicationRun)
    (chunk : ChunkRef) : Except Exc ReplicationChunkPlan := do
  let desired ← selectReplicaNodes env chunk.chunkId run.placementNodeIds run.replicationFactor
  let targets ← mapEach desired (replicationTarget db)
  .ok ⟨chunk.chunkId, chunk.offset, chunk.size, desired, chunkSources env db chunk.chunkId,
    targets⟩

def getReplicationPlan (env : Environment) (db : Db) (runId : UuidV7) :
    Except Exc ReplicationPlan := do
  let run ← orFail (db.replicationRuns.find? runId)
    (.replicationError .runNotFound "replication run does not exist")
  failIf (run.state ≠ .open) (.replicationError .runNotOpen "replication run is not open")
  let descriptor ← orFail (← loadObjectLayout env db run.layoutId)
    (.runtimeError "replication run layout could not be loaded")
  let chunks ← mapEach descriptor.layout.chunks (planReplicationChunk env db run)
  .ok ⟨run.runId, run.versionId, run.layoutId, run.replicationFactor, run.placementNodeIds, chunks⟩

/-! ## Completion -/

def checkReplicatedOn (db : Db) (chunkId : ContentId) (nodeId : String) : Except Exc Unit :=
  failIf (¬∃ location ∈ db.storageLocations.find? (chunkId, nodeId), location.state = .available)
    (.replicationError .underReplicated ("chunk is under-replicated: " ++ chunkId.hex))

def checkChunkReplicated (env : Environment) (db : Db) (run : ReplicationRun)
    (chunk : ChunkRef) : Except Exc Unit := do
  let desired ← selectReplicaNodes env chunk.chunkId run.placementNodeIds run.replicationFactor
  forEach desired (checkReplicatedOn db chunk.chunkId)

def checkReplicationStats (stats : ReplicationStats) : Except Exc Unit := do
  let _ ← toPostgresBigint stats.chunksScanned "chunks_scanned"
  let _ ← toPostgresBigint stats.chunksUnderReplicated "chunks_under_replicated"
  let _ ← toPostgresBigint stats.replicasVerified "replicas_verified"
  let _ ← toPostgresBigint stats.replicasWritten "replicas_written"
  let _ ← toPostgresBigint stats.bytesCopied "bytes_copied"
  let _ ← toPostgresBigint stats.sourceFailovers "source_failovers"

def completeOpenReplicationRun (env : Environment) (db : Db) (run : ReplicationRun)
    (stats : ReplicationStats) : Except Exc (ReplicationRun × Db) := do
  failIf db.hasOpenGcRun (.replicationError .gcInProgress "garbage collection is in progress")
  let descriptor ← orFail (← loadObjectLayout env db run.layoutId)
    (.runtimeError "replication run layout could not be loaded")
  forEach descriptor.layout.chunks (checkChunkReplicated env db run)
  checkReplicationStats stats
  let completed := { run with state := .completed, stats := stats }
  .ok (completed, { db with replicationRuns := db.replicationRuns.upsert completed })

def completeReplicationRun (env : Environment) (db : Db) (runId : UuidV7)
    (stats : ReplicationStats) : Except Exc (ReplicationRun × Db) := do
  let run ← orFail (db.replicationRuns.find? runId)
    (.replicationError .runNotFound "replication run does not exist")
  match run.state with
  | .completed => .ok (run, db)
  | .open => completeOpenReplicationRun env db run stats

end AiArtifactStore.Metadata
