import AiArtifactStore.Service.RecordJson
import AiArtifactStore.Service.StorageNodeCalls

/-!
# Records in replies

What `MetadataClient` makes of the body of each response, with the text of the error for
every body that it does not take.  Ids that it does not check stay texts.
-/

namespace AiArtifactStore.Service

open AiArtifactStore.Foundation
open AiArtifactStore.Foundation.Json
open AiArtifactStore.Identity
open AiArtifactStore.Metadata
open AiArtifactStore.Client
open AiArtifactStore.Wire

namespace MetadataReply

variable (json : JsonLibrary (List UInt8))

/-! ## Fields -/

def replyObject (body : List UInt8) (what : String) : Except ClientExc Members :=
  orFail ((json.parse body).bind asObject?) (.remoteProtocol what)

def replyField {α : Type} (members : Members) (key : String) (as? : Json → Option α)
    (what : String) : Except ClientExc α :=
  orFail ((members.lookup key).bind as?) (.remoteProtocol what)

def replyUuid (text what : String) : Except ClientExc UuidV7 :=
  (UuidV7.parse text).mapError fun _ => .remoteProtocol what

def replyId (text what : String) : Except ClientExc ContentId :=
  orFail (ContentId.ofHex? text) (.remoteProtocol what)

def replyIdOrNull (what : String) : Option String → Except ClientExc (Option ContentId)
  | none => .ok none
  | some text => (replyId text what).map some

def replyStat (members : Members) (what key : String) : Except ClientExc Nat :=
  replyField members key extractNonnegativeUint64 what

/-! ## Upload sessions -/

def uploadSessionStateFromString (state : String) : Except ClientExc UploadSessionState :=
  if state = "open" then .ok .open
  else if state = "committed" then .ok .committed
  else if state = "aborted" then .ok .aborted
  else .error (.remoteProtocol "upload session state is invalid")

/-- The state and the finalized version that the constructor takes together. -/
def uploadSessionStatus? : UploadSessionState → Option ContentId → Option UploadSessionStatus
  | .open, none => some .open
  | .committed, some versionId => some (.committed versionId)
  | .aborted, none => some .aborted
  | _, _ => none

def sessionRow? (fields : UploadSessionFields) (state : UploadSessionState)
    (finalizedVersionId : Option ContentId) : Option SessionRow := do
  let session ← uploadSession? fields
  let status ← uploadSessionStatus? state finalizedVersionId
  guard (¬∃ versionId ∈ finalizedVersionId, fields.parentVersionId = some versionId)
  some ⟨session, status⟩

def parseSessionChunking (strategy : String) (parameters : Members) :
    Except ClientExc SessionChunking :=
  if strategy = "fixed-size" then do
    failIf (¬hasExactKeys parameters ["chunk_size_bytes"])
      (.remoteProtocol "upload session chunking_parameters are invalid")
    let chunkSizeBytes ← replyField parameters "chunk_size_bytes" extractPositiveUint64
      "upload session chunk_size_bytes is invalid"
    .ok (.fixedSize chunkSizeBytes)
  else if strategy = "fastcdc" then
    orFail ((parseFastCdcParametersJson parameters).map .fastCdc)
      (.remoteProtocol "upload session chunking_parameters are invalid")
  else .error (.remoteProtocol "upload session chunking strategy is unsupported")

/-- `parse_upload_session_json` -/
def parseUploadSession (body : List UInt8) : Except ClientExc SessionRow := do
  let members ← replyObject json body "upload session response is not a JSON object"
  failIf (¬hasExactKeys members
    ["session_id", "artifact_id", "target_node_id", "replication_factor", "placement_node_ids",
     "chunking_strategy", "chunking_parameters", "parent_version_id", "immutable_metadata",
     "state", "finalized_version_id"])
    (.remoteProtocol "upload session response has unexpected fields")
  let typed := "upload session response field types are invalid"
  let sessionIdText ← replyField members "session_id" asString? typed
  let artifactIdText ← replyField members "artifact_id" asString? typed
  let _ ← replyField members "target_node_id" asString? typed
  let nodeEntries ← replyField members "placement_node_ids" asArray? typed
  let strategy ← replyField members "chunking_strategy" asString? typed
  let parameters ← replyField members "chunking_parameters" asObject? typed
  let metadataEntries ← replyField members "immutable_metadata" asObject? typed
  let stateText ← replyField members "state" asString? typed
  let replicationFactor ← replyField members "replication_factor" extractPositiveUint64
    "upload session replication_factor is invalid"
  failIf (replicationFactor > 8) (.remoteProtocol "upload session replication_factor is invalid")
  let placementNodeIds ← mapEach nodeEntries fun entry => orFail entry.asString?
    (.remoteProtocol "upload session placement_node_ids must be strings")
  let parentText ← replyField members "parent_version_id" (orNull asString?)
    "upload session parent_version_id is invalid"
  let finalizedText ← replyField members "finalized_version_id" (orNull asString?)
    "upload session finalized_version_id is invalid"
  let metadata ← mapEach metadataEntries fun entry =>
    (orFail entry.2.asString?
      (.remoteProtocol "upload session immutable_metadata values must be strings")).map
      fun text => (entry.1, text)
  -- from here on every other exception is a failed domain validation
  let domain := "upload session response failed domain validation"
  let sessionId ← replyUuid sessionIdText domain
  let artifactId ← replyUuid artifactIdText domain
  let state ← uploadSessionStateFromString stateText
  let chunking ← parseSessionChunking strategy parameters
  let parentVersionId ← replyIdOrNull domain parentText
  let finalizedVersionId ← replyIdOrNull domain finalizedText
  let immutableMetadata ← orFail (immutableMetadata? metadata) (.remoteProtocol domain)
  orFail
    (sessionRow?
      { sessionId := sessionId
        artifactId := artifactId
        replicationFactor := replicationFactor
        placementNodeIds := placementNodeIds
        chunking := chunking
        parentVersionId := parentVersionId
        immutableMetadata := immutableMetadata } state finalizedVersionId)
    (.remoteProtocol domain)

def finalizeUpload (env : Environment) (sessionId : UuidV7) (d : ObjectLayoutDescriptor)
    (body : List UInt8) : Except ClientExc FinalizeUploadResult := do
  let members ← replyObject json body "finalize response is not a JSON object"
  let unexpected := "finalize response has unexpected fields"
  failIf (¬hasExactKeys members ["session_id", "version_id", "object_id", "layout_id", "state"])
    (.remoteProtocol unexpected)
  let sessionIdText ← replyField members "session_id" asString? unexpected
  let versionIdText ← replyField members "version_id" asString? unexpected
  let objectIdText ← replyField members "object_id" asString? unexpected
  let layoutIdText ← replyField members "layout_id" asString? unexpected
  let stateText ← replyField members "state" asString? unexpected
  let responseSessionId ← replyUuid sessionIdText "finalize response session_id is invalid"
  failIf (responseSessionId ≠ sessionId)
    (.remoteProtocol "finalize response session_id does not match request")
  let invalidId := "finalize response contains an invalid content ID"
  let versionId ← replyId versionIdText invalidId
  let objectId ← replyId objectIdText invalidId
  let layoutId ← replyId layoutIdText invalidId
  failIf (objectId ≠ d.objectId)
    (.remoteProtocol "finalize response object_id does not match request")
  failIf (layoutId ≠ d.layoutId env)
    (.remoteProtocol "finalize response layout_id does not match request")
  failIf (stateText ≠ "committed") (.remoteProtocol "finalize response state is invalid")
  .ok ⟨responseSessionId, versionId, objectId, layoutId⟩

/-! ## Negotiations -/

def chunkAvailabilityFromString (availability : String) : Except ClientExc ChunkAvailability :=
  if availability = "available_on_target" then .ok .availableOnTarget
  else if availability = "available_elsewhere" then .ok .availableElsewhere
  else if availability = "no_available_location" then .ok .noAvailableLocation
  else .error (.remoteProtocol "chunk availability is invalid")

/-- The node ids of an entry, after the node `previous`. -/
def parseAvailableNodeIds (previous : Option String) :
    List Json → Except ClientExc (List String)
  | [] => .ok []
  | entry :: rest => do
      let nodeId ← orFail entry.asString?
        (.remoteProtocol "negotiation available_node_ids entries must be strings")
      failIf (nodeIdInvalid nodeId)
        (.remoteProtocol "negotiation available_node_ids contains an invalid node ID")
      failIf (∃ p ∈ previous, ¬p < nodeId)
        (.remoteProtocol "negotiation available_node_ids must be ascending and unique")
      let later ← parseAvailableNodeIds (some nodeId) rest
      .ok (nodeId :: later)

def parseNegotiatedChunk (entry : Json) : Except ClientExc NegotiatedChunk := do
  let members ← orFail entry.asObject?
    (.remoteProtocol "negotiation chunk entry is not an object")
  let unexpected := "negotiation chunk entry has unexpected fields"
  failIf (¬hasExactKeys members
    ["chunk_id", "size_bytes", "metadata_was_known", "availability", "available_node_ids"])
    (.remoteProtocol unexpected)
  let chunkIdText ← replyField members "chunk_id" asString? unexpected
  let metadataWasKnown ← replyField members "metadata_was_known" asBool? unexpected
  let availabilityText ← replyField members "availability" asString? unexpected
  let nodeEntries ← replyField members "available_node_ids" asArray? unexpected
  let chunkId ← replyId chunkIdText "negotiation chunk_id is invalid"
  let sizeBytes ← replyField members "size_bytes" extractPositiveUint64
    "negotiation size_bytes is invalid"
  let availableNodeIds ← parseAvailableNodeIds none nodeEntries
  let availability ← chunkAvailabilityFromString availabilityText
  .ok ⟨⟨chunkId, sizeBytes⟩, metadataWasKnown, availability, availableNodeIds⟩

def negotiateChunks (sessionId : UuidV7) (body : List UInt8) :
    Except ClientExc ChunkNegotiationResult := do
  let members ← replyObject json body "negotiation response is not a JSON object"
  let unexpected := "negotiation response has unexpected fields"
  failIf (¬hasExactKeys members ["session_id", "target_node_id", "chunks"])
    (.remoteProtocol unexpected)
  let sessionIdText ← replyField members "session_id" asString? unexpected
  let targetNodeId ← replyField members "target_node_id" asString? unexpected
  let entries ← replyField members "chunks" asArray? unexpected
  let responseSessionId ← replyUuid sessionIdText "negotiation response session_id is invalid"
  failIf (responseSessionId ≠ sessionId)
    (.remoteProtocol "negotiation response session_id does not match request")
  failIf (nodeIdInvalid targetNodeId)
    (.remoteProtocol "negotiation response target_node_id is invalid")
  let chunks ← mapEach entries parseNegotiatedChunk
  .ok ⟨responseSessionId, targetNodeId, chunks⟩

/-! ## Garbage collection -/

/-- `gc_run_state_from_string_strict` -/
def gcRunStateFromString (state : String) : Except ClientExc RunState :=
  if state = "open" then .ok .open
  else if state = "completed" then .ok .completed
  else .error (.remoteProtocol "GC run state is invalid")

/-- `parse_gc_run_json` -/
def parseGcRun (body : List UInt8) : Except ClientExc GcRun := do
  let members ← replyObject json body "GC run response is not a JSON object"
  failIf (¬hasExactKeys members
    ["gc_run_id", "target_node_id", "dry_run", "state", "physical_chunks_scanned",
     "physical_bytes_scanned", "collectible_chunks", "collectible_bytes",
     "physically_deleted_chunks", "physically_deleted_bytes", "storage_locations_swept",
     "chunk_rows_swept", "object_layouts_swept", "objects_swept"])
    (.remoteProtocol "GC run response has unexpected fields")
  let typed := "GC run response field types are invalid"
  let runIdText ← replyField members "gc_run_id" asString? typed
  let targetNodeId ← replyField members "target_node_id" asString? typed
  let dryRun ← replyField members "dry_run" asBool? typed
  let stateText ← replyField members "state" asString? typed
  failIf (nodeIdInvalid targetNodeId) (.remoteProtocol "GC run target_node_id is invalid")
  let stat := replyStat members "GC run stats are invalid"
  let physicalChunksScanned ← stat "physical_chunks_scanned"
  let physicalBytesScanned ← stat "physical_bytes_scanned"
  let collectibleChunks ← stat "collectible_chunks"
  let collectibleBytes ← stat "collectible_bytes"
  let physicallyDeletedChunks ← stat "physically_deleted_chunks"
  let physicallyDeletedBytes ← stat "physically_deleted_bytes"
  let storageLocationsSwept ← stat "storage_locations_swept"
  let chunkRowsSwept ← stat "chunk_rows_swept"
  let objectLayoutsSwept ← stat "object_layouts_swept"
  let objectsSwept ← stat "objects_swept"
  let runId ← replyUuid runIdText "GC run response failed domain validation"
  let state ← gcRunStateFromString stateText
  .ok
    { runId := runId
      targetNodeId := targetNodeId
      mode := if dryRun then .dryRun else .apply
      state := state
      physicalStats := ⟨physicalChunksScanned, physicalBytesScanned, collectibleChunks,
        collectibleBytes, physicallyDeletedChunks, physicallyDeletedBytes⟩
      metadataStats := ⟨storageLocationsSwept, chunkRowsSwept, objectLayoutsSwept,
        objectsSwept⟩ }

def otherGcRun : ClientExc :=
  .remoteProtocol "GC run response gc_run_id does not match request"

def startGcRun (runId : UuidV7) (targetNodeId : String) (dryRun : Bool) (body : List UInt8) :
    Except ClientExc GcRun := do
  let run ← parseGcRun json body
  failIf (run.runId ≠ runId) otherGcRun
  failIf (run.targetNodeId ≠ targetNodeId)
    (.remoteProtocol "GC run response target_node_id does not match request")
  failIf (run.mode ≠ if dryRun then .dryRun else .apply)
    (.remoteProtocol "GC run response dry_run does not match request")
  .ok run

def getGcRun (runId : UuidV7) (body : List UInt8) : Except ClientExc GcRun := do
  let run ← parseGcRun json body
  failIf (run.runId ≠ runId) otherGcRun
  .ok run

def completeGcRun (runId : UuidV7) (body : List UInt8) : Except ClientExc GcRun := do
  let run ← parseGcRun json body
  failIf (run.runId ≠ runId) otherGcRun
  failIf (run.state ≠ .completed) (.remoteProtocol "GC run response state is not completed")
  .ok run

/-- One entry of a classification and the chunk that was asked for at its place. -/
def parseGcDecision (asked : Json × ContentId) : Except ClientExc GcChunkDecision := do
  let members ← orFail asked.1.asObject?
    (.remoteProtocol "GC classification chunk entry is not an object")
  let unexpected := "GC classification chunk entry has unexpected fields"
  failIf (¬hasExactKeys members ["chunk_id", "collectible"]) (.remoteProtocol unexpected)
  let chunkIdText ← replyField members "chunk_id" asString? unexpected
  let collectible ← replyField members "collectible" asBool? unexpected
  failIf (chunkIdText ≠ asked.2.hex)
    (.remoteProtocol "GC classification response chunk order does not match request")
  let chunkId ← replyId chunkIdText "GC classification chunk_id is invalid"
  .ok ⟨chunkId, collectible⟩

def classifyGcChunks (runId : UuidV7) (chunkIds : List ContentId) (body : List UInt8) :
    Except ClientExc (List GcChunkDecision) := do
  let members ← replyObject json body "GC classification response is not a JSON object"
  let unexpected := "GC classification response has unexpected fields"
  failIf (¬hasExactKeys members ["gc_run_id", "chunks"]) (.remoteProtocol unexpected)
  let runIdText ← replyField members "gc_run_id" asString? unexpected
  let entries ← replyField members "chunks" asArray? unexpected
  let responseRunId ← replyUuid runIdText "GC classification response gc_run_id is invalid"
  failIf (responseRunId ≠ runId)
    (.remoteProtocol "GC classification response gc_run_id does not match request")
  failIf (entries.length ≠ chunkIds.length)
    (.remoteProtocol "GC classification response chunk count does not match request")
  mapEach (entries.zip chunkIds) parseGcDecision

/-! ## Storage nodes -/

/-- `parse_storage_node_json` -/
def parseStorageNode (members : Members) : Except ClientExc StorageNode := do
  failIf (¬hasExactKeys members ["node_id", "address", "port", "state"])
    (.remoteProtocol "storage node response has unexpected fields")
  let typed := "storage node response field types are invalid"
  let nodeId ← replyField members "node_id" asString? typed
  let address ← replyField members "address" asString? typed
  let stateText ← replyField members "state" asString? typed
  let port ← replyField members "port" extractPositiveUint64 "storage node port is invalid"
  failIf (port > 65535) (.remoteProtocol "storage node port is invalid")
  let state ← (storageNodeStateFromString stateText).mapError fun _ =>
    .remoteProtocol "storage node response failed domain validation"
  .ok ⟨nodeId, address, port, state⟩

def getStorageNode (body : List UInt8) : Except ClientExc StorageNode := do
  let members ← replyObject json body "storage node response is not a JSON object"
  parseStorageNode members

def registerStorageNode (node : StorageNode) (body : List UInt8) : Except ClientExc Unit := do
  let registered ← getStorageNode json body
  failIf (registered ≠ node) (.remoteProtocol "storage node response does not match request")

def listStorageNodes (body : List UInt8) : Except ClientExc (List StorageNode) := do
  let members ← replyObject json body "storage node list response is not a JSON object"
  let unexpected := "storage node list response has unexpected fields"
  failIf (¬hasExactKeys members ["nodes"]) (.remoteProtocol unexpected)
  let entries ← replyField members "nodes" asArray? unexpected
  mapEach entries fun entry => do
    let members ← orFail entry.asObject?
      (.remoteProtocol "storage node list entry is not an object")
    parseStorageNode members

def completeReplicationRun (runId : UuidV7) (body : List UInt8) : Except ClientExc ReceivedRun := do
  let run ← ReplicationRunResponse.parse json runId body
  failIf (run.state ≠ .completed)
    (.remoteProtocol "replication run response state is not completed")
  .ok run

/-! ## Lifecycle -/

def extractSignedInt64 : Json → Option Int
  | .int64 n => some n
  | .uint64 n => if n > postgresBigintMax then none else some n
  | _ => none

/-- `parse_lifecycle_rule_json`: the count is narrowed to 32 bits. -/
def parseLifecycleRule (members : Members) : Except ClientExc LifecycleRule := do
  let unexpected := "lifecycle policy rule has unexpected fields"
  failIf (¬hasExactKeys members ["artifact_kind", "keep_last_n", "max_age_seconds"])
    (.remoteProtocol unexpected)
  let kindText ← replyField members "artifact_kind" asString? unexpected
  let keepLastN ← replyField members "keep_last_n" extractNonnegativeUint64
    "lifecycle policy keep_last_n is invalid"
  let maxAgeSeconds ← replyField members "max_age_seconds" (orNull extractNonnegativeUint64)
    "lifecycle policy max_age_seconds is invalid"
  let artifactKind ← orFail (ArtifactKind.ofText? kindText)
    (.remoteProtocol "lifecycle policy artifact_kind is invalid")
  .ok ⟨artifactKind, keepLastN % 2 ^ 32, maxAgeSeconds⟩

/-- One entry, after the rules that were read. -/
def addLifecycleRule (rules : List LifecycleRule) (entry : Json) :
    Except ClientExc (List LifecycleRule) := do
  let members ← orFail entry.asObject? (.remoteProtocol "lifecycle policy rule is not an object")
  let rule ← parseLifecycleRule members
  failIf (rule.artifactKind ∈ rules.map LifecycleRule.artifactKind)
    (.remoteProtocol "lifecycle policy rules contain duplicate artifact kinds")
  .ok (rules ++ [rule])

/-- `parse_lifecycle_policy_body` -/
def parseLifecyclePolicy (body : List UInt8) : Except ClientExc LifecyclePolicy := do
  let members ← replyObject json body "lifecycle policy response is not a JSON object"
  let unexpected := "lifecycle policy response has unexpected fields"
  failIf (¬hasExactKeys members ["policy_id", "name", "rules"]) (.remoteProtocol unexpected)
  let policyIdText ← replyField members "policy_id" asString? unexpected
  let name ← replyField members "name" asString? unexpected
  let entries ← replyField members "rules" asArray? unexpected
  failIf (entries.length ≠ 5) (.remoteProtocol "lifecycle policy rules count is invalid")
  let rules ← foldEach entries [] addLifecycleRule
  failIf (¬∀ kind ∈ ArtifactKind.all, kind ∈ rules.map LifecycleRule.artifactKind)
    (.remoteProtocol "lifecycle policy rules are missing a canonical artifact kind")
  let policyId ← replyUuid policyIdText "lifecycle policy policy_id is invalid"
  .ok ⟨policyId, name, .ofList strictTotal_artifactKind
    (rules.map fun rule => (rule.artifactKind, rule))⟩

def registerLifecyclePolicy (policy : LifecyclePolicy) (body : List UInt8) :
    Except ClientExc LifecyclePolicy := do
  let loaded ← parseLifecyclePolicy json body
  failIf (loaded ≠ policy) (.remoteProtocol "lifecycle policy response does not match request")
  .ok loaded

def getLifecyclePolicy (policyId : UuidV7) (body : List UInt8) :
    Except ClientExc LifecyclePolicy := do
  let policy ← parseLifecyclePolicy json body
  failIf (policy.policyId ≠ policyId)
    (.remoteProtocol "lifecycle policy response policy_id does not match request")
  .ok policy

/-- `parse_lifecycle_run_body` -/
def parseLifecycleRun (body : List UInt8) : Except ClientExc LifecycleRun := do
  let members ← replyObject json body "lifecycle run response is not a JSON object"
  let unexpected := "lifecycle run response has unexpected fields"
  failIf (¬hasExactKeys members
    ["run_id", "policy_id", "mode", "evaluated_at_unix_ms", "versions_scanned",
     "versions_protected", "versions_retained_by_policy", "versions_candidates",
     "versions_retired", "logical_bytes_candidates", "logical_bytes_retired"])
    (.remoteProtocol unexpected)
  let runIdText ← replyField members "run_id" asString? unexpected
  let policyIdText ← replyField members "policy_id" asString? unexpected
  let modeText ← replyField members "mode" asString? unexpected
  let evaluatedAtUnixMs ← replyField members "evaluated_at_unix_ms" extractSignedInt64
    "lifecycle run evaluated_at_unix_ms is invalid"
  let stat := replyStat members "lifecycle run stats are invalid"
  let versionsScanned ← stat "versions_scanned"
  let versionsProtected ← stat "versions_protected"
  let versionsRetainedByPolicy ← stat "versions_retained_by_policy"
  let versionsCandidates ← stat "versions_candidates"
  let versionsRetired ← stat "versions_retired"
  let logicalBytesCandidates ← stat "logical_bytes_candidates"
  let logicalBytesRetired ← stat "logical_bytes_retired"
  let runId ← replyUuid runIdText "lifecycle run identifiers are invalid"
  let policyId ← replyUuid policyIdText "lifecycle run identifiers are invalid"
  let mode ← orFail (lifecycleRunMode? modeText) (.remoteProtocol "lifecycle run mode is invalid")
  .ok ⟨runId, policyId, mode, evaluatedAtUnixMs,
    ⟨versionsScanned, versionsProtected, versionsRetainedByPolicy, versionsCandidates,
      versionsRetired, logicalBytesCandidates, logicalBytesRetired⟩⟩

def runLifecycle (runId policyId : UuidV7) (mode : LifecycleRunMode) (body : List UInt8) :
    Except ClientExc LifecycleRun := do
  let run ← parseLifecycleRun json body
  failIf (run.runId ≠ runId ∨ run.policyId ≠ policyId ∨ run.mode ≠ mode)
    (.remoteProtocol "lifecycle run response does not match request")
  .ok run

def getLifecycleRun (runId : UuidV7) (body : List UInt8) : Except ClientExc LifecycleRun := do
  let run ← parseLifecycleRun json body
  failIf (run.runId ≠ runId)
    (.remoteProtocol "lifecycle run response run_id does not match request")
  .ok run

structure ReceivedDecision where
  versionId : String
  artifactId : UuidV7
  artifactKind : ArtifactKind
  retire : Bool
  reason : LifecycleDecisionReason
  logicalSizeBytes : Nat
  deriving DecidableEq, Repr

/-- `lifecycle_decision_reason_from_string` -/
def lifecycleDecisionReason? (reason : String) : Option LifecycleDecisionReason :=
  if reason = "pinned" then some .pinned
  else if reason = "tagged" then some .tagged
  else if reason = "manifest-referenced" then some .manifestReferenced
  else if reason = "keep-last-n" then some .keepLastN
  else if reason = "age-not-reached" then some .ageNotReached
  else if reason = "policy-retire" then some .policyRetire
  else none

/-- `parse_lifecycle_decision_json` -/
def parseLifecycleDecision (members : Members) : Except ClientExc ReceivedDecision := do
  let unexpected := "lifecycle decision has unexpected fields"
  failIf (¬hasExactKeys members
    ["version_id", "artifact_id", "artifact_kind", "decision", "reason", "logical_size_bytes"])
    (.remoteProtocol unexpected)
  let versionId ← replyField members "version_id" asString? unexpected
  let artifactIdText ← replyField members "artifact_id" asString? unexpected
  let kindText ← replyField members "artifact_kind" asString? unexpected
  let decision ← replyField members "decision" asString? unexpected
  let reasonText ← replyField members "reason" asString? unexpected
  failIf (decision ≠ "retain" ∧ decision ≠ "retire")
    (.remoteProtocol "lifecycle decision value is invalid")
  let logicalSizeBytes ← replyField members "logical_size_bytes" extractNonnegativeUint64
    "lifecycle decision logical_size_bytes is invalid"
  let artifactId ← replyUuid artifactIdText "lifecycle decision artifact_id is invalid"
  let kindOrReason := "lifecycle decision kind or reason is invalid"
  let artifactKind ← orFail (ArtifactKind.ofText? kindText) (.remoteProtocol kindOrReason)
  let reason ← orFail (lifecycleDecisionReason? reasonText) (.remoteProtocol kindOrReason)
  .ok ⟨versionId, artifactId, artifactKind, decision = "retire", reason, logicalSizeBytes⟩

def listLifecycleDecisions (body : List UInt8) :
    Except ClientExc (List ReceivedDecision × Option String) := do
  let members ← replyObject json body "lifecycle decisions response is not a JSON object"
  let unexpected := "lifecycle decisions response has unexpected fields"
  failIf (¬hasExactKeys members ["decisions", "next_after"]) (.remoteProtocol unexpected)
  let entries ← replyField members "decisions" asArray? unexpected
  let decisions ← mapEach entries fun entry => do
    let members ← orFail entry.asObject?
      (.remoteProtocol "lifecycle decision entry is not an object")
    parseLifecycleDecision members
  let nextAfter ← replyField members "next_after" (orNull asString?)
    "lifecycle decisions next_after is invalid"
  .ok (decisions, nextAfter)

/-! ## Pins -/

def pinVersion (versionId : ContentId) (reason : String) (body : List UInt8) :
    Except ClientExc Unit := do
  let members ← replyObject json body "pin response is not a JSON object"
  failIf
    (¬(hasExactKeys members ["version_id", "pinned", "reason"] ∧
      (members.lookup "version_id").bind asString? = some versionId.hex ∧
      (members.lookup "pinned").bind asBool? = some true ∧
      (members.lookup "reason").bind asString? = some reason))
    (.remoteProtocol "pin response does not match request")

def unpinVersion (versionId : ContentId) (body : List UInt8) : Except ClientExc Unit := do
  let members ← replyObject json body "unpin response is not a JSON object"
  failIf
    (¬(hasExactKeys members ["version_id", "pinned"] ∧
      (members.lookup "version_id").bind asString? = some versionId.hex ∧
      (members.lookup "pinned").bind asBool? = some false))
    (.remoteProtocol "unpin response does not match request")

/-- The body of `get_version_pin`: the reason of the pin, if there is one.  `at` throws where
a key is missing. -/
def getVersionPin (versionId : ContentId) (body : List UInt8) :
    Except ClientExc (Option String) := do
  let members ← replyObject json body "pin status response is not a JSON object"
  let versionIdField ← orFail (members.lookup "version_id") (.runtimeError "out of range")
  let versionIdText ← orFail versionIdField.asString?
    (.remoteProtocol "pin status response version_id is invalid")
  let pinnedField ← orFail (members.lookup "pinned") (.runtimeError "out of range")
  let pinned ← orFail (asBool? pinnedField)
    (.remoteProtocol "pin status response version_id is invalid")
  failIf (versionIdText ≠ versionId.hex)
    (.remoteProtocol "pin status response version_id is invalid")
  if pinned then do
    let unexpected := "pinned pin status response has unexpected fields"
    failIf (¬hasExactKeys members ["version_id", "pinned", "reason"]) (.remoteProtocol unexpected)
    let reason ← replyField members "reason" asString? unexpected
    .ok (some reason)
  else do
    failIf (¬hasExactKeys members ["version_id", "pinned"])
      (.remoteProtocol "unpinned pin status response has unexpected fields")
    .ok none

end MetadataReply

end AiArtifactStore.Service
