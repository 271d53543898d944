import AiArtifactStore.Service.Routes

/-!
# Well-formed requests

The requests that the service offers: for each endpoint its method and path, which
parts of the path are valid, and what the query string or the body has to state.
-/

namespace AiArtifactStore.Service

open AiArtifactStore.Foundation
open AiArtifactStore.Foundation.Json
open AiArtifactStore.Identity
open AiArtifactStore.Metadata
open AiArtifactStore.Wire

/-! ## Methods and paths -/

def Endpoint.method : Endpoint → Verb
  | .startReplicationRun | .completeReplicationRun _ | .registerLifecyclePolicy | .runLifecycle
  | .createUploadSession | .abortUploadSession _ | .finalizeUploadSession _ | .negotiateChunks
  | .startGcRun | .classifyGcChunks _ | .completeGcRun _ => .post
  | .putStorageNode _ | .putVersionPin _ | .putStorageLocation _ _ => .put
  | .deleteVersionPin _ => .delete
  | _ => .get

section

variable (request : Request)

/-- The path of an item, whose id is one segment. -/
def ItemPath (before : List Char) (id : String) (after : List Char) : Prop :=
  request.path = before ++ id.toList ++ after ∧ '/' ∉ id.toList

def ContentPath (before : List Char) (id : ContentId) (after : List Char) : Prop :=
  ∃ text, contentId? text = some id ∧ request.path = before ++ text ++ after

/-- The target is one of the endpoint, whether or not the ids in it are valid. -/
def Endpoint.Path : Endpoint → Prop
  | .health => request.target = "/health".toList
  | .listStorageNodes => request.path = kStorageNodesCollection
  | .getStorageNode nodeId | .putStorageNode nodeId =>
      ItemPath request kStorageNodesPrefix nodeId [] ∧ ¬request.hasFragment
  | .startReplicationRun => request.path = kReplicationRunsCollection
  | .getReplicationRun runId => ItemPath request kReplicationRunsPrefix runId []
  | .getReplicationPlan runId => ItemPath request kReplicationRunsPrefix runId "/plan".toList
  | .completeReplicationRun runId =>
      ItemPath request kReplicationRunsPrefix runId "/complete".toList
  | .getRestorePlan versionId nodeId =>
      ContentPath request kArtifactVersionsPrefix versionId kRestorePlanSuffix ∧
          parseQueryParam request.query "source_node_id" = some nodeId.toList ∨
        ContentPath request kArtifactVersionsPrefix versionId
            (kRestorePlanInfix ++ nodeId.toList) ∧ '/' ∉ nodeId.toList ∧ request.suffix = []
  | .getMultiNodeRestorePlan versionId =>
      ContentPath request kArtifactVersionsPrefix versionId kRestorePlanSuffix ∧
        parseQueryParam request.query "source_node_id" = none
  | .registerLifecyclePolicy =>
      request.path = kLifecyclePoliciesCollection ∧ ¬request.hasFragment
  | .getLifecyclePolicy policyId =>
      ItemPath request kLifecyclePoliciesPrefix policyId [] ∧ ¬request.hasFragment
  | .runLifecycle => request.path = kLifecycleRunsCollection ∧ ¬request.hasFragment
  | .getLifecycleRun runId =>
      ItemPath request kLifecycleRunsPrefix runId [] ∧ ¬request.hasFragment
  | .listLifecycleDecisions runId query =>
      ItemPath request kLifecycleRunsPrefix runId "/decisions".toList ∧ ¬request.hasFragment ∧
        query = request.query
  | .putVersionPin versionId | .deleteVersionPin versionId | .getVersionPin versionId =>
      ContentPath request kArtifactVersionsPrefix versionId kPinSuffix ∧ ¬request.hasFragment
  | .createUploadSession => request.path = kUploadSessionsCollection ∧ request.suffix = []
  | .getUploadSession sessionId =>
      ItemPath request kUploadSessionsPrefix sessionId [] ∧ request.suffix = []
  | .abortUploadSession sessionId =>
      ItemPath request kUploadSessionsPrefix sessionId "/abort".toList ∧ request.suffix = []
  | .finalizeUploadSession sessionId =>
      ItemPath request kUploadSessionsPrefix sessionId "/finalize".toList ∧ request.suffix = []
  | .negotiateChunks => request.path = kNegotiatePath ∧ request.suffix = []
  | .getStorageLocations chunkId =>
      ContentPath request kChunkRoutePrefix chunkId kLocationsSuffix ∧ request.suffix = []
  | .putStorageLocation chunkId nodeId =>
      ContentPath request kChunkRoutePrefix chunkId (kLocationsPrefix ++ nodeId.toList) ∧
        '/' ∉ nodeId.toList ∧ request.suffix = []
  | .startGcRun => request.path = kGcRunsCollection ∧ request.suffix = []
  | .getGcRun runId => ItemPath request kGcRunsPrefix runId [] ∧ request.suffix = []
  | .classifyGcChunks runId =>
      ItemPath request kGcRunsPrefix runId "/classify".toList ∧ request.suffix = []
  | .completeGcRun runId =>
      ItemPath request kGcRunsPrefix runId "/complete".toList ∧ request.suffix = []

end

def Endpoint.IdsValid : Endpoint → Prop
  | .getStorageNode nodeId | .putStorageNode nodeId | .getRestorePlan _ nodeId
  | .putStorageLocation _ nodeId => nodeIdInvalid nodeId = false
  | .getReplicationRun id | .getReplicationPlan id | .completeReplicationRun id
  | .getLifecyclePolicy id | .getLifecycleRun id | .listLifecycleDecisions id _
  | .getUploadSession id | .abortUploadSession id | .finalizeUploadSession id
  | .getGcRun id | .classifyGcChunks id | .completeGcRun id => isUuid id = true
  | _ => True

/-! ## Query strings -/

def ReadsAfter (pair : List Char) : Prop :=
  ∃ text id, pair = "after=".toList ++ text ∧ contentId? text = some id

def ReadsLimit (pair : List Char) : Prop :=
  ∃ text limit, pair = "limit=".toList ++ text ∧ parsePositiveSize text = some limit ∧
    1 ≤ limit ∧ limit ≤ kMaxLifecycleDecisionPageLimit

/-- Only limits, and at most one version to begin after. -/
def StatesDecisionQuery (query : List Char) : Prop :=
  (∀ pair ∈ queryPairs query, ReadsAfter pair ∨ ReadsLimit pair) ∧
    (queryPairs query).Pairwise fun a b => ¬(ReadsAfter a ∧ ReadsAfter b)

/-! ## Bodies -/

section

variable (json : JsonLibrary (List UInt8)) (request : Request)

/-- A JSON object with exactly these keys, whose members have the property. -/
def HasBody (keys : List String) (states : Members → Prop) : Prop :=
  request.contentType = "application/json" ∧
    ∃ members, (json.parse request.body).bind asObject? = some members ∧
      hasExactKeys members keys = true ∧ states members

def StatesStorageNode (body : StorageNodeBody) : Prop :=
  HasBody json request ["address", "port", "state"] fun members =>
    Reads members "address" asString? body.address ∧ Reads members "port" asPort? body.port ∧
      Reads members "state" asString? body.state

def KnownNodeState (state : String) : Prop := state ∈ ["active", "draining", "disabled"]

/-- A numeric IP address, of which nothing is cut off. -/
def NodeAddress (env : Environment) (address : String) : Prop :=
  address ≠ "" ∧ nul ∉ address.toList ∧ env.isNumericAddress address = true

def StatesReplicationRun (body : StartReplicationRunBody) : Prop :=
  HasBody json request ["replication_run_id", "version_id", "replication_factor"] fun members =>
    Reads members "replication_run_id" asUuid? body.runId ∧
      Reads members "version_id" asContentId? body.versionId ∧
      Reads members "replication_factor" asFactor? body.replicationFactor

def StatesReplicationStats (stats : ReplicationStats) : Prop :=
  HasBody json request
    ["chunks_scanned", "chunks_under_replicated", "replicas_verified", "replicas_written",
     "bytes_copied", "source_failovers"]
    fun members => ReadsStats members stats

def ReadsLifecycleRule (entry : Json) (rule : LifecycleRule) : Prop :=
  ∃ members, entry.asObject? = some members ∧
    hasExactKeys members ["artifact_kind", "keep_last_n", "max_age_seconds"] = true ∧
    Reads members "artifact_kind" (fun value => value.asString?.bind ArtifactKind.ofText?)
      rule.artifactKind ∧
    Reads members "keep_last_n" extractNonnegativeUint64 rule.keepLastN ∧
    Reads members "max_age_seconds" (orNull extractNonnegativeUint64) rule.maxAgeSeconds

/-- The policy as the body states it, with the rules in their order. -/
structure StatedPolicy where
  policyId : UuidV7
  name : String
  rules : List LifecycleRule

def StatesLifecyclePolicy (policy : StatedPolicy) : Prop :=
  HasBody json request ["policy_id", "name", "rules"] fun members =>
    Reads members "policy_id" asUuid? policy.policyId ∧ Reads members "name" asString? policy.name ∧
      ReadsEach members "rules" ReadsLifecycleRule policy.rules

def StatedPolicy.OneRuleEach (policy : StatedPolicy) : Prop :=
  policy.rules.length = 5 ∧ (policy.rules.map LifecycleRule.artifactKind).Nodup

def StatedPolicy.NameValid (policy : StatedPolicy) : Prop :=
  policy.name ≠ "" ∧ policy.name.utf8ByteSize ≤ 128

def AgeValid (rule : LifecycleRule) : Prop := ∀ maxAge ∈ rule.maxAgeSeconds, maxAge ≤ 315360000

/-- Everything about the policy but the counts of its rules. -/
def StatedPolicy.FrameValid (policy : StatedPolicy) : Prop :=
  policy.OneRuleEach ∧ policy.NameValid ∧ ∀ rule ∈ policy.rules, AgeValid rule

def StatedPolicy.Valid (policy : StatedPolicy) : Prop :=
  policy.FrameValid ∧ ∀ rule ∈ policy.rules, rule.keepLastN ≤ 1000

def StatesLifecycleRun (body : RunLifecycleBody) : Prop :=
  HasBody json request ["run_id", "policy_id", "mode"] fun members =>
    Reads members "run_id" asUuid? body.runId ∧ Reads members "policy_id" asUuid? body.policyId ∧
      Reads members "mode" (fun value => value.asString?.bind lifecycleRunMode?) body.mode

def StatesPinReason (reason : String) : Prop :=
  HasBody json request ["reason"] fun members => Reads members "reason" asString? reason

def ReadsSessionChunking (strategy : String) (parameters : Members) : SessionChunking → Prop
  | .fixedSize chunkSizeBytes =>
      strategy = "fixed-size" ∧ hasExactKeys parameters ["chunk_size_bytes"] = true ∧
        Reads parameters "chunk_size_bytes" extractPositiveUint64 chunkSizeBytes
  | .fastCdc p => strategy = "fastcdc" ∧ parseFastCdcParametersJson parameters = some p

def ReadsEntry (member : String × Json) (entry : String × String) : Prop :=
  entry.1 = member.1 ∧ member.2.asString? = some entry.2

def StatesUploadSession (session : UploadSession) : Prop :=
  HasBody json request
    ["session_id", "artifact_id", "target_node_id", "replication_factor", "placement_node_ids",
     "chunking_strategy", "chunking_parameters", "parent_version_id", "immutable_metadata"]
    fun members =>
      Reads members "session_id" asUuid? session.sessionId ∧
        Reads members "artifact_id" asUuid? session.artifactId ∧
        Reads members "target_node_id" asString? session.targetNodeId ∧
        Reads members "replication_factor" asFactor? session.replicationFactor ∧
        ReadsEach members "placement_node_ids" ReadsText session.placementNodeIds ∧
        (∃ strategy parameters, Reads members "chunking_strategy" asString? strategy ∧
          Reads members "chunking_parameters" asObject? parameters ∧
          ReadsSessionChunking strategy parameters session.chunking) ∧
        Reads members "parent_version_id" (orNull asContentId?) session.parentVersionId ∧
        ∃ metadata entries, Reads members "immutable_metadata" asObject? metadata ∧
          List.Forall₂ ReadsEntry metadata entries ∧ (∀ entry ∈ entries, entry.1 ≠ "") ∧
          session.immutableMetadata.map = .ofList strictTotal_string entries

def ReadsLayoutChunking (strategy : String) (parameters : Members) : LayoutChunking → Prop
  | .fixedSize => strategy = "fixed-size" ∧ parameters = []
  | .fastCdc p => strategy = "fastcdc" ∧ parseFastCdcParametersJson parameters = some p

def ReadsLayoutChunk (entry : Json) (chunk : ChunkRef) : Prop :=
  ∃ members, entry.asObject? = some members ∧
    hasExactKeys members ["chunk_id", "offset", "size_bytes"] = true ∧
    Reads members "chunk_id" asContentId? chunk.chunkId ∧
    Reads members "offset" extractNonnegativeUint64 chunk.offset ∧
    Reads members "size_bytes" extractPositiveUint64 chunk.size

def StatesFinalize (descriptor : ObjectLayoutDescriptor) : Prop :=
  HasBody json request
    ["object_id", "total_size_bytes", "chunking_strategy", "chunking_parameters", "chunks"]
    fun members =>
      Reads members "object_id" asContentId? descriptor.objectId ∧
        Reads members "total_size_bytes" extractNonnegativeUint64 descriptor.object.totalSize ∧
        (∃ strategy parameters, Reads members "chunking_strategy" asString? strategy ∧
          Reads members "chunking_parameters" asObject? parameters ∧
          ReadsLayoutChunking strategy parameters descriptor.chunking) ∧
        ReadsEach members "chunks" ReadsLayoutChunk descriptor.layout.chunks

def ReadsNegotiatedChunk (entry : Json) (chunk : ChunkMetadata) : Prop :=
  ∃ members, entry.asObject? = some members ∧
    hasExactKeys members ["chunk_id", "size_bytes"] = true ∧
    Reads members "chunk_id" asContentId? chunk.chunkId ∧
    Reads members "size_bytes" extractPositiveUint64 chunk.sizeBytes

def StatesNegotiation (body : NegotiateBody) : Prop :=
  HasBody json request ["session_id", "chunks"] fun members =>
    Reads members "session_id" asUuid? body.sessionId ∧
      ReadsEach members "chunks" ReadsNegotiatedChunk body.chunks

def StatesStorageLocation (body : StorageLocationBody) : Prop :=
  HasBody json request ["storage_path", "state"] fun members =>
    Reads members "storage_path" asString? body.storagePath ∧ body.storagePath ≠ "" ∧
      Reads members "state" (fun value => value.asString?.bind storageLocationState?) body.state

def StatesGcRun : Prop :=
  HasBody json request ["gc_run_id", "target_node_id", "dry_run"] fun members =>
    ∃ runId targetNodeId dryRun, Reads members "gc_run_id" asUuid? runId ∧
      Reads members "target_node_id" asString? targetNodeId ∧ nodeIdInvalid targetNodeId = false ∧
      Reads members "dry_run" asBool? dryRun

def StatesChunkIds (chunkIds : List ContentId) : Prop :=
  HasBody json request ["chunk_ids"] fun members =>
    ReadsEach members "chunk_ids" (fun entry id => asContentId? entry = some id) chunkIds ∧
      chunkIds ≠ [] ∧ chunkIds.length ≤ kMaxClassifyChunks ∧ chunkIds.Nodup

def StatesGcStats (stats : GcPhysicalStats) : Prop :=
  HasBody json request
    ["physical_chunks_scanned", "physical_bytes_scanned", "collectible_chunks",
     "collectible_bytes", "physically_deleted_chunks", "physically_deleted_bytes"]
    fun members =>
      Reads members "physical_chunks_scanned" extractNonnegativeUint64
          stats.physicalChunksScanned ∧
        Reads members "physical_bytes_scanned" extractNonnegativeUint64
          stats.physicalBytesScanned ∧
        Reads members "collectible_chunks" extractNonnegativeUint64 stats.collectibleChunks ∧
        Reads members "collectible_bytes" extractNonnegativeUint64 stats.collectibleBytes ∧
        Reads members "physically_deleted_chunks" extractNonnegativeUint64
          stats.physicallyDeletedChunks ∧
        Reads members "physically_deleted_bytes" extractNonnegativeUint64
          stats.physicallyDeletedBytes

/-! ## Requests -/

variable (env : Environment)

def Endpoint.InputValid : Endpoint → Prop
  | .putStorageNode _ => ∃ body, StatesStorageNode json request body ∧
      NodeAddress env body.address ∧ KnownNodeState body.state
  | .startReplicationRun => ∃ body, StatesReplicationRun json request body
  | .completeReplicationRun _ => ∃ stats, StatesReplicationStats json request stats
  | .registerLifecyclePolicy => ∃ policy, StatesLifecyclePolicy json request policy ∧ policy.Valid
  | .runLifecycle => ∃ body, StatesLifecycleRun json request body
  | .listLifecycleDecisions _ query => StatesDecisionQuery query
  | .putVersionPin _ =>
      ∃ reason, StatesPinReason json request reason ∧ reason ≠ "" ∧ reason.utf8ByteSize ≤ 256
  | .createUploadSession => ∃ session, StatesUploadSession json request session
  | .abortUploadSession _ => request.body = []
  | .finalizeUploadSession _ => ∃ descriptor, StatesFinalize json request descriptor
  | .negotiateChunks => ∃ body, StatesNegotiation json request body ∧ body.chunks ≠ [] ∧
      body.chunks.length ≤ Client.kMaxNegotiationChunks ∧ ¬Client.SizesConflict body.chunks
  | .putStorageLocation _ _ => ∃ body, StatesStorageLocation json request body
  | .startGcRun => StatesGcRun json request
  | .classifyGcChunks _ => ∃ chunkIds, StatesChunkIds json request chunkIds
  | .completeGcRun _ => ∃ stats, StatesGcStats json request stats
  | _ => True

end

end AiArtifactStore.Service
