import AiArtifactStore.Client.ReplicaClients
import AiArtifactStore.Foundation.Stateful

/-!
# The repair engine

`RepairEngine::repair`: start a run, read its plan, copy every missing replica,
complete the run.  One client sends its requests in order; any request may fail on
the way.
-/

namespace AiArtifactStore.Replication

open AiArtifactStore.Foundation
open AiArtifactStore.Identity
open AiArtifactStore.Metadata
open AiArtifactStore.Storage
open AiArtifactStore.Client

structure RepairRequest where
  runId : UuidV7
  versionId : ContentId
  replicationFactor : Nat
  deriving DecidableEq, Repr

structure RepairResult where
  runId : UuidV7
  versionId : ContentId
  layoutId : ContentId
  replicationFactor : Nat
  stats : ReplicationStats
  deriving DecidableEq, Repr

inductive RepairMessage where
  | metadata (op : ServiceOp)
  | storage (nodeId : String) (request : StorageRequest)

/-- The services, the local `stats`, and the requests sent so far. -/
structure RepairState where
  services : Services
  stats : ReplicationStats
  sent : List RepairMessage

abbrev RepairM := Stateful RepairState EngineExc

def planEntries (plan : ReplicationPlan) : Nat :=
  plan.chunks.length + (plan.chunks.map fun chunkPlan => chunkPlan.sourceNodes.length).sum

/-- What a repair keeps fixed: the nodes of its client pool, and what becomes of
each request.  The body of a plan spells out each element of its arrays. -/
structure RepairContext where
  env : Environment
  pool : List String
  network : Nat → Delivery
  planBodyBytes : ReplicationPlan → Nat
  planEntries_le : ∀ plan, planEntries plan ≤ planBodyBytes plan

def maxBodyBytes : Nat := 8 * 1024 * 1024

def addCounter (counter amount : Nat) : Nat := (counter + amount) % 2 ^ 64

namespace RepairEngine

variable (context : RepairContext)

/-! ## Requests -/

def sendMetadata (op : ServiceOp) : RepairM Reply := fun s =>
  let answer := exchange (context.network s.sent.length) s.services.db
    (serveMetadata context.env s.services.db op)
  (answer.1,
    { s with services := s.services.setDb answer.2, sent := s.sent ++ [.metadata op] })

def sendStorage (nodeId : String) (request : StorageRequest) : RepairM (Except EngineExc StorageReply) :=
  fun s =>
    let answer := exchange (context.network s.sent.length) (s.services.stores nodeId)
      (serveStorage context.env (s.services.stores nodeId) request)
    (.ok answer.1,
      { s with
        services := s.services.setStore nodeId answer.2
        sent := s.sent ++ [.storage nodeId request] })

def sendLocation (location : StorageLocation) : RepairM Unit := fun s =>
  let answer := exchange (context.network s.sent.length) s.services.db
    (serveRegisterStorageLocation context.env s.services.db location)
  (answer.1,
    { s with
      services := s.services.setDb answer.2
      sent := s.sent ++ [.metadata (.registerStorageLocation location)] })

def startReplicationRun (request : RepairRequest) : RepairM ReplicationRun := do
  Stateful.check (MetadataClient.checkReplicationFactor request.replicationFactor)
  let reply ← sendMetadata context
    (.startReplicationRun request.runId request.versionId request.replicationFactor)
  Stateful.check (MetadataClient.startReplicationRun request.runId reply)

def checkResponseBody (bodyBytes : Nat) : Except EngineExc Unit :=
  failIf (bodyBytes > maxBodyBytes) (.client (.transport "read response too large"))

def getReplicationPlan (runId : UuidV7) : RepairM ReplicationPlan := do
  let reply ← sendMetadata context (.getReplicationPlan runId)
  let plan ← Stateful.check (MetadataClient.getReplicationPlan reply)
  Stateful.check (checkResponseBody (context.planBodyBytes plan))
  pure plan

def completeReplicationRun (runId : UuidV7) (stats : ReplicationStats) :
    RepairM ReplicationRun := do
  let reply ← sendMetadata context (.completeReplicationRun runId stats)
  Stateful.check (MetadataClient.completeReplicationRun runId reply)

def hasChunk (nodeId : String) (chunkId : ContentId) : RepairM Bool := do
  let response ← sendStorage context nodeId (.headChunk chunkId)
  Stateful.check (StorageNodeClient.hasChunk response)

def contentBytes : Except EngineExc StorageReply → Nat
  | .ok (.content bytes) => bytes.length
  | _ => 0

def getChunk (nodeId : String) (chunkId : ContentId) : RepairM (Option (List UInt8)) := do
  let response ← sendStorage context nodeId (.getChunk chunkId)
  Stateful.check do
    checkResponseBody (contentBytes response)
    StorageNodeClient.getChunk context.env chunkId response

def putChunk (nodeId : String) (chunkId : ContentId) (bytes : List UInt8) : RepairM Unit := do
  Stateful.check (failIf (bytes.length > maxBodyBytes)
    (.invalidArgument "HTTP client request body exceeds configured maximum"))
  let response ← sendStorage context nodeId (.putChunk chunkId bytes)
  Stateful.check (StorageNodeClient.putChunk response)

def registerStorageLocation (location : StorageLocation) : RepairM Unit := do
  Stateful.check (MetadataClient.checkStorageLocation location)
  sendLocation context location

/-! ## One chunk -/

def countStats (f : ReplicationStats → ReplicationStats) : RepairM Unit :=
  Stateful.update fun s => { s with stats := f s.stats }

def logicalStoragePath (chunkId : ContentId) : String := "/v1/chunks/" ++ chunkId.hex

def metadataSaysAvailable (chunkPlan : ReplicationChunkPlan) (nodeId : String) : Bool :=
  chunkPlan.sourceNodes.any fun source => source.nodeId = nodeId

def needsRepair (chunkPlan : ReplicationChunkPlan) (nodeId : String) : RepairM Bool := do
  Stateful.check (failIf (nodeId ∉ context.pool)
    (.runtimeError "replication target node is not available in storage client pool"))
  if metadataSaysAvailable chunkPlan nodeId then
    if ← hasChunk context nodeId chunkPlan.chunkId then
      countStats fun stats =>
        { stats with replicasVerified := addCounter stats.replicasVerified 1 }
      pure false
    else pure true
  else pure true

def targetsNeedingRepair (chunkPlan : ReplicationChunkPlan) : List String → RepairM (List String)
  | [] => pure []
  | nodeId :: rest => do
      let needed ← needsRepair context chunkPlan nodeId
      let targets ← targetsNeedingRepair chunkPlan rest
      pure (if needed then nodeId :: targets else targets)

/-- The chunk from a source; a remote error counts as a failover. -/
def tryNode (nodeId : String) (chunkId : ContentId) : RepairM (Option (List UInt8)) :=
  Stateful.catching (getChunk context nodeId chunkId) fun e =>
    if e.isRemoteError then
      some do
        countStats fun stats =>
          { stats with sourceFailovers := addCounter stats.sourceFailovers 1 }
        pure none
    else none

def readFromSources (chunkId : ContentId) : List NodeEndpoint → RepairM (Option (List UInt8))
  | [] => pure none
  | source :: rest =>
      if source.nodeId ∈ context.pool then do
        match ← tryNode context source.nodeId chunkId with
        | some bytes => pure (some bytes)
        | none => readFromSources chunkId rest
      else readFromSources chunkId rest

def writeTarget (chunkPlan : ReplicationChunkPlan) (bytes : List UInt8) (nodeId : String) :
    RepairM Unit := do
  putChunk context nodeId chunkPlan.chunkId bytes
  registerStorageLocation context
    ⟨chunkPlan.chunkId, nodeId, logicalStoragePath chunkPlan.chunkId, .available⟩
  countStats fun stats =>
    { stats with
      replicasWritten := addCounter stats.replicasWritten 1
      bytesCopied := addCounter stats.bytesCopied chunkPlan.sizeBytes }

def repairChunk (chunkPlan : ReplicationChunkPlan) : RepairM Unit := do
  countStats fun stats => { stats with chunksScanned := addCounter stats.chunksScanned 1 }
  let targets ← targetsNeedingRepair context chunkPlan chunkPlan.desiredNodeIds
  if targets = [] then pure ()
  else do
    countStats fun stats =>
      { stats with chunksUnderReplicated := addCounter stats.chunksUnderReplicated 1 }
    let found ← readFromSources context chunkPlan.chunkId chunkPlan.sourceNodes
    let bytes ← Stateful.check (orFail found
      (.runtimeError "no healthy replication source could supply chunk bytes"))
    Stateful.check (failIf (bytes.length ≠ chunkPlan.sizeBytes)
      (.runtimeError "replication source chunk size mismatch"))
    Stateful.forEach (writeTarget context chunkPlan bytes) targets

/-! ## A repair -/

inductive RepairProgress where
  | alreadyCompleted (run : ReplicationRun)
  | copied (plan : ReplicationPlan)
  deriving DecidableEq, Repr

def copyReplicas (request : RepairRequest) : RepairM RepairProgress := do
  let run ← startReplicationRun context request
  if run.state = .completed then pure (.alreadyCompleted run)
  else do
    let plan ← getReplicationPlan context request.runId
    countStats fun _ => run.stats
    Stateful.forEach (repairChunk context) plan.chunks
    pure (.copied plan)

def repairResult (run : ReplicationRun) : RepairResult :=
  ⟨run.runId, run.versionId, run.layoutId, run.replicationFactor, run.stats⟩

def repair (request : RepairRequest) : RepairM RepairResult := do
  match ← copyReplicas context request with
  | .alreadyCompleted run => pure (repairResult run)
  | .copied _ => do
      let stats ← Stateful.read RepairState.stats
      let run ← completeReplicationRun context request.runId stats
      pure (repairResult run)

end RepairEngine

end AiArtifactStore.Replication
