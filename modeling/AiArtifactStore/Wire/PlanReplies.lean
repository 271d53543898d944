import AiArtifactStore.Wire.LayoutJson

/-!
# Plans and runs in replies

What the client makes of the bodies of a single-node restore plan, a replication
run and a replication plan.  The ids of a received run and of a received plan are
texts that nothing has checked.
-/

namespace AiArtifactStore.Wire

open AiArtifactStore.Foundation
open AiArtifactStore.Foundation.Json
open AiArtifactStore.Identity
open AiArtifactStore.Metadata
open AiArtifactStore.Client

variable {Text : Type} (json : JsonLibrary Text)

/-! ## The restore plan of one node -/

namespace SourceRestorePlanResponse

def parseChunk (entry : Json) : Except ClientExc ChunkRef := do
  let members ← orFail entry.asObject?
    (.remoteProtocol "restore plan chunk entry is not an object")
  failIf (¬hasExactKeys members ["chunk_id", "offset", "size_bytes"])
    (.remoteProtocol "restore plan chunk entry has unexpected fields")
  let chunkIdText ← orFail ((members.lookup "chunk_id").bind asString?)
    (.remoteProtocol "restore plan chunk entry has unexpected fields")
  let chunkId ← orFail (ContentId.ofHex? chunkIdText)
    (.remoteProtocol "restore plan chunk_id is invalid")
  let offset ← orFail ((members.lookup "offset").bind extractNonnegativeUint64)
    (.remoteProtocol "restore plan chunk offset is invalid")
  let size ← orFail ((members.lookup "size_bytes").bind extractPositiveUint64)
    (.remoteProtocol "restore plan chunk size_bytes is invalid")
  .ok ⟨chunkId, offset, size⟩

def parseChunking (strategy : String) (parameters : Members) : Except ClientExc LayoutChunking :=
  if strategy = "fixed-size" then
    if parameters.isEmpty then .ok .fixedSize
    else .error (.remoteProtocol "restore plan chunking_parameters are invalid")
  else if strategy = "fastcdc" then
    orFail ((parseFastCdcParametersJson parameters).map .fastCdc)
      (.remoteProtocol "restore plan chunking_parameters are invalid")
  else .error (.remoteProtocol "restore plan chunking strategy is unsupported")

def domain {α : Type} (result : Except Exc α) : Except ClientExc α :=
  result.mapError fun _ => .remoteProtocol "restore plan response failed domain validation"

/-- The type test that `get_restore_plan` makes of a field before it reads any. -/
def typedField {α : Type} (members : Members) (key : String) (as? : Json → Option α) :
    Except ClientExc α :=
  orFail ((members.lookup key).bind as?)
    (.remoteProtocol "restore plan response has unexpected fields")

def parse (env : Environment) (versionId : ContentId) (sourceNodeId : String) (body : Text) :
    Except ClientExc RestorePlan := do
  let members ← orFail ((json.parse body).bind asObject?)
    (.remoteProtocol "restore plan response is not a JSON object")
  failIf (¬hasExactKeys members
    ["version_id", "artifact_id", "source_node_id", "object_id", "total_size_bytes", "layout_id",
     "chunking_strategy", "chunking_parameters", "chunk_count", "chunks"])
    (.remoteProtocol "restore plan response has unexpected fields")
  let responseVersionId ← typedField members "version_id" asString?
  let artifactIdText ← typedField members "artifact_id" asString?
  let responseSourceNodeId ← typedField members "source_node_id" asString?
  let objectIdText ← typedField members "object_id" asString?
  let layoutIdText ← typedField members "layout_id" asString?
  let strategy ← typedField members "chunking_strategy" asString?
  let parameters ← typedField members "chunking_parameters" asObject?
  let entries ← typedField members "chunks" asArray?
  failIf (responseVersionId ≠ versionId.hex)
    (.remoteProtocol "restore plan response version_id does not match request")
  failIf (responseSourceNodeId ≠ sourceNodeId)
    (.remoteProtocol "restore plan response source_node_id does not match request")
  let objectId ← orFail (ContentId.ofHex? objectIdText)
    (.remoteProtocol "restore plan response contains an invalid content ID")
  let layoutId ← orFail (ContentId.ofHex? layoutIdText)
    (.remoteProtocol "restore plan response contains an invalid content ID")
  let totalSizeBytes ← orFail ((members.lookup "total_size_bytes").bind extractNonnegativeUint64)
    (.remoteProtocol "restore plan total_size_bytes is invalid")
  let chunkCount ← orFail ((members.lookup "chunk_count").bind extractNonnegativeUint64)
    (.remoteProtocol "restore plan chunk_count is invalid")
  failIf (chunkCount ≠ entries.length)
    (.remoteProtocol "restore plan chunk_count does not match chunks array size")
  let chunks ← mapEach entries parseChunk
  -- this constructor stands in front of the `try`
  let artifactId ← (UuidV7.parse artifactIdText).mapError .invalidArgument
  let layout ← domain (ObjectLayout.make chunks)
  let chunking ← parseChunking strategy parameters
  let descriptor ←
    domain (ObjectLayoutDescriptor.make ⟨objectId, totalSizeBytes⟩ chunking layout)
  failIf (descriptor.objectId ≠ objectId)
    (.remoteProtocol "restore plan reconstructed object_id does not match response")
  failIf (descriptor.layoutId env ≠ layoutId)
    (.remoteProtocol "restore plan reconstructed layout_id does not match response")
  failIf (descriptor.object.totalSize ≠ totalSizeBytes)
    (.remoteProtocol "restore plan reconstructed total size does not match response")
  .ok ⟨artifactId, versionId, sourceNodeId, descriptor⟩

end SourceRestorePlanResponse

/-! ## Replication runs -/

structure ReceivedRun where
  runId : UuidV7
  versionId : String
  layoutId : String
  replicationFactor : Nat
  placementNodeIds : List String
  state : RunState
  stats : ReplicationStats
  deriving DecidableEq, Repr

namespace ReplicationRunResponse

/-- `replication_run_state_from_string_strict` -/
def runStateFromString (state : String) : Except ClientExc RunState :=
  if state = "open" then .ok .open
  else if state = "completed" then .ok .completed
  else .error (.remoteProtocol "replication run state is invalid")

def typedField {α : Type} (members : Members) (key : String) (as? : Json → Option α) :
    Except ClientExc α :=
  orFail ((members.lookup key).bind as?)
    (.remoteProtocol "replication run response field types are invalid")

def extractStat (members : Members) (key : String) : Except ClientExc Nat :=
  orFail ((members.lookup key).bind extractNonnegativeUint64)
    (.remoteProtocol "replication run stats are invalid")

/-- `parse_replication_run_json` -/
def parseRun (body : Text) : Except ClientExc ReceivedRun := do
  let members ← orFail ((json.parse body).bind asObject?)
    (.remoteProtocol "replication run response is not a JSON object")
  failIf (¬hasExactKeys members
    ["replication_run_id", "version_id", "layout_id", "replication_factor", "placement_node_ids",
     "state", "chunks_scanned", "chunks_under_replicated", "replicas_verified",
     "replicas_written", "bytes_copied", "source_failovers"])
    (.remoteProtocol "replication run response has unexpected fields")
  let runIdText ← typedField members "replication_run_id" asString?
  let versionId ← typedField members "version_id" asString?
  let layoutId ← typedField members "layout_id" asString?
  let nodeEntries ← typedField members "placement_node_ids" asArray?
  let stateText ← typedField members "state" asString?
  let replicationFactor ← orFail ((members.lookup "replication_factor").bind extractPositiveUint64)
    (.remoteProtocol "replication run replication_factor is invalid")
  failIf (replicationFactor > 8)
    (.remoteProtocol "replication run replication_factor is invalid")
  let placementNodeIds ← mapEach nodeEntries fun entry => orFail entry.asString?
    (.remoteProtocol "replication run placement_node_ids must be strings")
  let runId ← (UuidV7.parse runIdText).mapError .invalidArgument
  let state ← runStateFromString stateText
  let chunksScanned ← extractStat members "chunks_scanned"
  let chunksUnderReplicated ← extractStat members "chunks_under_replicated"
  let replicasVerified ← extractStat members "replicas_verified"
  let replicasWritten ← extractStat members "replicas_written"
  let bytesCopied ← extractStat members "bytes_copied"
  let sourceFailovers ← extractStat members "source_failovers"
  .ok ⟨runId, versionId, layoutId, replicationFactor, placementNodeIds, state,
    ⟨chunksScanned, chunksUnderReplicated, replicasVerified, replicasWritten, bytesCopied,
      sourceFailovers⟩⟩

def parse (runId : UuidV7) (body : Text) : Except ClientExc ReceivedRun := do
  let run ← parseRun json body
  failIf (run.runId ≠ runId)
    (.remoteProtocol "replication run response run_id does not match request")
  .ok run

end ReplicationRunResponse

/-! ## Replication plans -/

structure ReceivedChunkPlan where
  chunkId : String
  offset : Nat
  sizeBytes : Nat
  desiredNodeIds : List String
  sourceNodes : List NodeEndpoint
  targetNodes : List NodeEndpoint
  deriving DecidableEq, Repr

structure ReceivedPlan where
  runId : UuidV7
  versionId : String
  layoutId : String
  replicationFactor : Nat
  placementNodeIds : List String
  chunks : List ReceivedChunkPlan
  deriving DecidableEq, Repr

namespace ReplicationPlanResponse

open RestorePlanResponse (field)

/-- `parse_replication_node_endpoint` -/
def parseEndpoint (members : Members) : Except ClientExc NodeEndpoint := do
  failIf (¬hasExactKeys members ["node_id", "address", "port"])
    (.remoteProtocol "replication node endpoint has unexpected fields")
  let nodeId ← orFail ((members.lookup "node_id").bind asString?)
    (.remoteProtocol "replication node endpoint field types are invalid")
  let address ← orFail ((members.lookup "address").bind asString?)
    (.remoteProtocol "replication node endpoint field types are invalid")
  let port ← orFail ((members.lookup "port").bind extractPositiveUint64)
    (.remoteProtocol "replication node endpoint port is invalid")
  failIf (port > 65535) (.remoteProtocol "replication node endpoint port is invalid")
  .ok ⟨nodeId, address, port⟩

/-- `as_object`, `as_string`: another kind throws. -/
def element {α : Type} (as? : Json → Option α) (entry : Json) : Except ClientExc α :=
  orFail (as? entry) (.runtimeError "not the expected kind")

def parseNode (entry : Json) : Except ClientExc NodeEndpoint := do
  let members ← element asObject? entry
  parseEndpoint members

def parseChunk (entry : Json) : Except ClientExc ReceivedChunkPlan := do
  let members ← element asObject? entry
  let chunkId ← field members "chunk_id" asString?
  let offset ← field members "offset" some
  let sizeBytes ← field members "size_bytes" some
  let sourceEntries ← field members "source_nodes" asArray?
  let sourceNodes ← mapEach sourceEntries parseNode
  let desiredEntries ← field members "desired_node_ids" asArray?
  let desiredNodeIds ← mapEach desiredEntries (element asString?)
  let targetEntries ← field members "target_nodes" asArray?
  let targetNodes ← mapEach targetEntries parseNode
  .ok ⟨chunkId, (extractNonnegativeUint64 offset).getD 0, (extractPositiveUint64 sizeBytes).getD 0,
    desiredNodeIds, sourceNodes, targetNodes⟩

def parse (body : Text) : Except ClientExc ReceivedPlan := do
  let members ← orFail ((json.parse body).bind asObject?)
    (.remoteProtocol "replication plan response is not a JSON object")
  failIf (¬∀ key ∈ ["replication_run_id", "version_id", "layout_id", "replication_factor",
      "placement_node_ids", "chunks"], (members.lookup key).isSome)
    (.remoteProtocol "replication plan response has unexpected fields")
  let replicationFactor ← orFail ((members.lookup "replication_factor").bind extractPositiveUint64)
    (.remoteProtocol "replication plan replication_factor is invalid")
  failIf (replicationFactor > 8)
    (.remoteProtocol "replication plan replication_factor is invalid")
  let nodeEntries ← field members "placement_node_ids" asArray?
  let placementNodeIds ← mapEach nodeEntries (element asString?)
  let chunkEntries ← field members "chunks" asArray?
  let chunks ← mapEach chunkEntries parseChunk
  let runIdText ← field members "replication_run_id" asString?
  let runId ← (UuidV7.parse runIdText).mapError .invalidArgument
  let versionId ← field members "version_id" asString?
  let layoutId ← field members "layout_id" asString?
  .ok ⟨runId, versionId, layoutId, replicationFactor, placementNodeIds, chunks⟩

end ReplicationPlanResponse

end AiArtifactStore.Wire
