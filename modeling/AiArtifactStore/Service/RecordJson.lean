import AiArtifactStore.Service.LifecycleCommands
import AiArtifactStore.Service.Server
import AiArtifactStore.Wire.PlanReplies

/-!
# The responses of the metadata service

The JSON texts of the payloads and of the failures, with the status and the headers that
the service and its server give them.
-/

namespace AiArtifactStore.Service

open AiArtifactStore.Foundation
open AiArtifactStore.Identity
open AiArtifactStore.Metadata
open AiArtifactStore.Client
open AiArtifactStore.Wire

/-! ## States and modes as texts -/

/-- `gc_run_state_to_string` and `replication_run_state_to_string` -/
def runStateToString : RunState → String
  | .open => "open"
  | .completed => "completed"

def uploadSessionStateToString : UploadSessionState → String
  | .open => "open"
  | .committed => "committed"
  | .aborted => "aborted"

def storageNodeStateToString : StorageNodeState → String
  | .active => "active"
  | .draining => "draining"
  | .disabled => "disabled"

def storageLocationStateToString : StorageLocationState → String
  | .available => "available"
  | .missing => "missing"
  | .corrupt => "corrupt"

def availabilityToString : ChunkAvailability → String
  | .availableOnTarget => "available_on_target"
  | .availableElsewhere => "available_elsewhere"
  | .noAvailableLocation => "no_available_location"

def lifecycleRunModeToString : LifecycleRunMode → String
  | .dryRun => "dry-run"
  | .apply => "apply"

def lifecycleDecisionReasonToString : LifecycleDecisionReason → String
  | .pinned => "pinned"
  | .tagged => "tagged"
  | .manifestReferenced => "manifest-referenced"
  | .keepLastN => "keep-last-n"
  | .ageNotReached => "age-not-reached"
  | .policyRetire => "policy-retire"

/-! ## Records -/

def textOrNull (text : Option String) : Json := (text.map Json.string).getD .null

def texts (values : List String) : Json := .array (values.map Json.string)

def sessionChunkingToJson : SessionChunking → Json
  | .fixedSize chunkSizeBytes => .object [("chunk_size_bytes", .uint64 chunkSizeBytes)]
  | .fastCdc parameters => chunkingParametersToJson (.fastCdc parameters)

def immutableMetadataToJson (metadata : ImmutableMetadata) : Json :=
  .object (metadata.map.entries.map fun entry => (entry.1, .string entry.2))

def sessionIdentityMembers (session : UploadSession) : Json.Members :=
  [("session_id", .string session.sessionId.str),
   ("artifact_id", .string session.artifactId.str),
   ("target_node_id", .string session.targetNodeId),
   ("replication_factor", .uint64 session.replicationFactor),
   ("placement_node_ids", texts session.placementNodeIds),
   ("chunking_strategy", .string (chunkingStrategyToString session.chunking.strategy)),
   ("chunking_parameters", sessionChunkingToJson session.chunking),
   ("immutable_metadata", immutableMetadataToJson session.immutableMetadata)]

def uploadSessionToJson (row : SessionRow) : Json :=
  .object <| sessionIdentityMembers row.session ++
    [("state", .string (uploadSessionStateToString row.status.state)),
     ("parent_version_id", textOrNull (row.session.parentVersionId.map ContentId.hex)),
     ("finalized_version_id", textOrNull (row.status.finalizedVersionId.map ContentId.hex))]

def finalizeResultToJson (result : FinalizeUploadResult) : Json :=
  .object
    [("session_id", .string result.sessionId.str),
     ("version_id", .string result.versionId.hex),
     ("object_id", .string result.objectId.hex),
     ("layout_id", .string result.layoutId.hex),
     ("state", .string "committed")]

def negotiatedChunkToJson (entry : NegotiatedChunk) : Json :=
  .object
    [("chunk_id", .string entry.chunk.chunkId.hex),
     ("size_bytes", .uint64 entry.chunk.sizeBytes),
     ("metadata_was_known", .bool entry.metadataWasKnown),
     ("availability", .string (availabilityToString entry.availability)),
     ("available_node_ids", texts entry.availableNodeIds)]

def negotiationToJson (result : ChunkNegotiationResult) : Json :=
  .object
    [("session_id", .string result.sessionId.str),
     ("target_node_id", .string result.targetNodeId),
     ("chunks", .array (result.chunks.map negotiatedChunkToJson))]

def storageLocationToJson (location : StorageLocation) : Json :=
  .object
    [("node_id", .string location.nodeId),
     ("storage_path", .string location.storagePath),
     ("state", .string (storageLocationStateToString location.state))]

def gcRunToJson (run : GcRun) : Json :=
  .object
    [("gc_run_id", .string run.runId.str),
     ("target_node_id", .string run.targetNodeId),
     ("dry_run", .bool (run.mode = .dryRun)),
     ("state", .string (runStateToString run.state)),
     ("physical_chunks_scanned", .uint64 run.physicalStats.physicalChunksScanned),
     ("physical_bytes_scanned", .uint64 run.physicalStats.physicalBytesScanned),
     ("collectible_chunks", .uint64 run.physicalStats.collectibleChunks),
     ("collectible_bytes", .uint64 run.physicalStats.collectibleBytes),
     ("physically_deleted_chunks", .uint64 run.physicalStats.physicallyDeletedChunks),
     ("physically_deleted_bytes", .uint64 run.physicalStats.physicallyDeletedBytes),
     ("storage_locations_swept", .uint64 run.metadataStats.storageLocationsSwept),
     ("chunk_rows_swept", .uint64 run.metadataStats.chunkRowsSwept),
     ("object_layouts_swept", .uint64 run.metadataStats.objectLayoutsSwept),
     ("objects_swept", .uint64 run.metadataStats.objectsSwept)]

def gcDecisionToJson (decision : GcChunkDecision) : Json :=
  .object [("chunk_id", .string decision.chunkId.hex), ("collectible", .bool decision.collectible)]

def storageNodeToJson (node : StorageNode) : Json :=
  .object
    [("node_id", .string node.nodeId),
     ("address", .string node.address),
     ("port", .uint64 node.port),
     ("state", .string (storageNodeStateToString node.state))]

def replicationRunToJson (run : ReplicationRun) : Json :=
  .object
    [("replication_run_id", .string run.runId.str),
     ("version_id", .string run.versionId.hex),
     ("layout_id", .string run.layoutId.hex),
     ("replication_factor", .uint64 run.replicationFactor),
     ("placement_node_ids", texts run.placementNodeIds),
     ("state", .string (runStateToString run.state)),
     ("chunks_scanned", .uint64 run.stats.chunksScanned),
     ("chunks_under_replicated", .uint64 run.stats.chunksUnderReplicated),
     ("replicas_verified", .uint64 run.stats.replicasVerified),
     ("replicas_written", .uint64 run.stats.replicasWritten),
     ("bytes_copied", .uint64 run.stats.bytesCopied),
     ("source_failovers", .uint64 run.stats.sourceFailovers)]

def replicationChunkPlanToJson (chunk : ReplicationChunkPlan) : Json :=
  .object
    [("chunk_id", .string chunk.chunkId.hex),
     ("offset", .uint64 chunk.offset),
     ("size_bytes", .uint64 chunk.sizeBytes),
     ("desired_node_ids", texts chunk.desiredNodeIds),
     ("source_nodes", .array (chunk.sourceNodes.map sourceToJson)),
     ("target_nodes", .array (chunk.targetNodes.map sourceToJson))]

def replicationPlanToJson (plan : ReplicationPlan) : Json :=
  .object
    [("replication_run_id", .string plan.runId.str),
     ("version_id", .string plan.versionId.hex),
     ("layout_id", .string plan.layoutId.hex),
     ("replication_factor", .uint64 plan.replicationFactor),
     ("placement_node_ids", texts plan.placementNodeIds),
     ("chunks", .array (plan.chunks.map replicationChunkPlanToJson))]

def restorePlanToJson (env : Environment) (plan : RestorePlan) : Json :=
  .object
    [("version_id", .string plan.versionId.hex),
     ("artifact_id", .string plan.artifactId.str),
     ("source_node_id", .string plan.sourceNodeId),
     ("object_id", .string plan.layoutDescriptor.objectId.hex),
     ("total_size_bytes", .uint64 plan.layoutDescriptor.object.totalSize),
     ("layout_id", .string (plan.layoutDescriptor.layoutId env).hex),
     ("chunking_strategy",
       .string (chunkingStrategyToString plan.layoutDescriptor.chunkingStrategy)),
     ("chunking_parameters", chunkingParametersToJson plan.layoutDescriptor.chunking),
     ("chunk_count", .uint64 plan.layoutDescriptor.layout.chunks.length),
     ("chunks", .array (plan.layoutDescriptor.layout.chunks.map chunkToJson))]

/-- A policy without a rule for each kind of artifact ends with a `std::logic_error`. -/
def lifecyclePolicyToJson (policy : LifecyclePolicy) : Option Json :=
  (ArtifactKind.all.mapM fun kind => policy.rules.find? kind).map fun rules =>
    .object
      [("policy_id", .string policy.policyId.str),
       ("name", .string policy.name),
       ("rules", .array (rules.map lifecycleRuleToJson))]

def lifecycleRunToJson (run : LifecycleRun) : Json :=
  .object
    [("run_id", .string run.runId.str),
     ("policy_id", .string run.policyId.str),
     ("mode", .string (lifecycleRunModeToString run.mode)),
     ("evaluated_at_unix_ms", .int64 run.evaluatedAtUnixMs),
     ("versions_scanned", .uint64 run.stats.versionsScanned),
     ("versions_protected", .uint64 run.stats.versionsProtected),
     ("versions_retained_by_policy", .uint64 run.stats.versionsRetainedByPolicy),
     ("versions_candidates", .uint64 run.stats.versionsCandidates),
     ("versions_retired", .uint64 run.stats.versionsRetired),
     ("logical_bytes_candidates", .uint64 run.stats.logicalBytesCandidates),
     ("logical_bytes_retired", .uint64 run.stats.logicalBytesRetired)]

def lifecycleDecisionToJson (decision : LifecycleDecision) : Json :=
  .object
    [("version_id", .string decision.versionId.hex),
     ("artifact_id", .string decision.artifactId.str),
     ("artifact_kind", .string decision.artifactKind.toText),
     ("decision", .string (if decision.retire then "retire" else "retain")),
     ("reason", .string (lifecycleDecisionReasonToString decision.reason)),
     ("logical_size_bytes", .uint64 decision.logicalSizeBytes)]

def versionPinToJson (versionId : ContentId) : Option String → Json
  | none => .object [("version_id", .string versionId.hex), ("pinned", .bool false)]
  | some reason =>
      .object
        [("version_id", .string versionId.hex), ("pinned", .bool true), ("reason", .string reason)]

/-- The body of a successful response, unless writing it throws. -/
def payloadToJson (env : Environment) : Payload → Option Json
  | .healthy => some (.object [("status", .string "ok")])
  | .storageNodes nodes => some (.object [("nodes", .array (nodes.map storageNodeToJson))])
  | .storageNode node => some (storageNodeToJson node)
  | .replicationRun run => some (replicationRunToJson run)
  | .replicationPlan plan => some (replicationPlanToJson plan)
  | .restorePlan plan => some (restorePlanToJson env plan)
  | .multiNodeRestorePlan plan => some (multiNodeRestorePlanToJson plan)
  | .lifecyclePolicy policy => lifecyclePolicyToJson policy
  | .lifecycleRun run => some (lifecycleRunToJson run)
  | .lifecycleDecisions decisions nextAfter =>
      some <| .object
        [("decisions", .array (decisions.map lifecycleDecisionToJson)),
         ("next_after", textOrNull (nextAfter.map ContentId.hex))]
  | .versionPin versionId reason => some (versionPinToJson versionId reason)
  | .uploadSession row => some (uploadSessionToJson row)
  | .finalized result => some (finalizeResultToJson result)
  | .negotiated result => some (negotiationToJson result)
  | .storageLocations chunkId locations =>
      some <| .object
        [("chunk_id", .string chunkId.hex),
         ("locations", .array (locations.map storageLocationToJson))]
  | .gcRun run => some (gcRunToJson run)
  | .gcDecisions gcRunId decisions =>
      some <| .object
        [("gc_run_id", .string gcRunId.str), ("chunks", .array (decisions.map gcDecisionToJson))]
  | .noContent => none

/-! ## Responses -/

structure WireResponse where
  status : Nat
  contentType : Option String := none
  allow : Option String := none
  body : List UInt8 := []

def plainResponse (status : Nat) (body : String) : WireResponse where
  status := status
  contentType := some "text/plain"
  body := body.toUTF8.toList

/-- `make_json_response` -/
def jsonResponse (json : JsonLibrary (List UInt8)) (status : Nat) (body : Json) : WireResponse where
  status := status
  contentType := some "application/json"
  body := json.serialize body

def HttpResponse.wire (env : Environment) (json : JsonLibrary (List UInt8)) :
    HttpResponse → WireResponse
  | .payloadTooLarge => plainResponse 413 "payload too large"
  | .internalServerError => plainResponse 500 "internal server error"
  | .failed failure =>
      { jsonResponse json failure.status.code
          (.object (("error", .string failure.error) :: failure.details)) with
        allow := failure.allow }
  | .succeeded .noContent => { status := 204 }
  | .succeeded payload =>
      match payloadToJson env payload with
      | some body => jsonResponse json 200 body
      | none => plainResponse 500 "internal server error"

end AiArtifactStore.Service
