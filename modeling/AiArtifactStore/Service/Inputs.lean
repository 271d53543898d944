import AiArtifactStore.Service.Http
import AiArtifactStore.Wire.Fields

/-!
# What the handlers read of a request

The bodies and query strings that the handlers of the metadata service accept, with
the failure responses for all others.
-/

namespace AiArtifactStore.Service

open AiArtifactStore.Foundation
open AiArtifactStore.Foundation.Json
open AiArtifactStore.Identity
open AiArtifactStore.Metadata
open AiArtifactStore.Wire

variable (json : JsonLibrary (List UInt8)) (request : Request)

def invalidRequest : Stop := badRequest "invalid_request"

/-- The body as a JSON object, with the error text for a value of another kind. -/
def jsonObject (notObject : String) : Except Stop Members := do
  failIf (request.contentType ≠ "application/json") unsupportedMediaType
  let parsed ← orFail (json.parse request.body) (badRequest "invalid_json")
  orFail parsed.asObject? (badRequest notObject)

def field {α : Type} (members : Members) (key : String) (as? : Json → Option α) : Except Stop α :=
  orFail ((members.lookup key).bind as?) invalidRequest

def validUuid (text : String) : Except Stop UuidV7 :=
  (UuidV7.parse text).mapError fun _ => invalidRequest

/-- The constructor of `UuidV7` outside any `try` block. -/
def constructUuid (text : String) : Except Stop UuidV7 :=
  (UuidV7.parse text).mapError fun what => .throw (.invalidArgument what)

def asBool? : Json → Option Bool
  | .bool b => some b
  | _ => none

def orNull {α : Type} (as? : Json → Option α) : Json → Option (Option α)
  | .null => some none
  | value => (as? value).map some

/-! ## Storage nodes and replication runs -/

structure StorageNodeBody where
  address : String
  port : Nat
  state : String

def StorageNodeBody.parse : Except Stop StorageNodeBody := do
  let members ← jsonObject json request "invalid_json"
  failIf (¬hasExactKeys members ["address", "port", "state"]) invalidRequest
  let address ← field members "address" asString?
  let state ← field members "state" asString?
  let port ← field members "port" extractPositiveUint64
  failIf (port > 65535) invalidRequest
  .ok ⟨address, port, state⟩

structure StartReplicationRunBody where
  runId : UuidV7
  versionId : ContentId
  replicationFactor : Nat

def StartReplicationRunBody.parse : Except Stop StartReplicationRunBody := do
  let members ← jsonObject json request "invalid_json"
  failIf (¬hasExactKeys members ["replication_run_id", "version_id", "replication_factor"])
    invalidRequest
  let runIdText ← field members "replication_run_id" asString?
  let versionIdText ← field members "version_id" asString?
  let replicationFactor ← field members "replication_factor" extractPositiveUint64
  failIf (replicationFactor > 8) invalidRequest
  let runId ← validUuid runIdText
  let versionId ← orFail (ContentId.ofHex? versionIdText) invalidRequest
  .ok ⟨runId, versionId, replicationFactor⟩

def parseReplicationStats : Except Stop ReplicationStats := do
  let members ← jsonObject json request "invalid_json"
  failIf (¬hasExactKeys members
    ["chunks_scanned", "chunks_under_replicated", "replicas_verified", "replicas_written",
     "bytes_copied", "source_failovers"])
    invalidRequest
  let chunksScanned ← field members "chunks_scanned" extractNonnegativeUint64
  let chunksUnderReplicated ← field members "chunks_under_replicated" extractNonnegativeUint64
  let replicasVerified ← field members "replicas_verified" extractNonnegativeUint64
  let replicasWritten ← field members "replicas_written" extractNonnegativeUint64
  let bytesCopied ← field members "bytes_copied" extractNonnegativeUint64
  let sourceFailovers ← field members "source_failovers" extractNonnegativeUint64
  .ok ⟨chunksScanned, chunksUnderReplicated, replicasVerified, replicasWritten, bytesCopied,
    sourceFailovers⟩

/-! ## Garbage collection -/

def parseGcRun : Except Stop GcRun := do
  let members ← jsonObject json request "invalid_request"
  failIf (¬hasExactKeys members ["gc_run_id", "target_node_id", "dry_run"]) invalidRequest
  let runIdText ← field members "gc_run_id" asString?
  let targetNodeId ← field members "target_node_id" asString?
  let dryRun ← field members "dry_run" asBool?
  failIf (nodeIdInvalid targetNodeId) invalidRequest
  let runId ← validUuid runIdText
  .ok
    { runId := runId
      targetNodeId := targetNodeId
      mode := if dryRun then .dryRun else .apply
      state := .open
      physicalStats := .zero
      metadataStats := .zero }

def kMaxClassifyChunks : Nat := 256

def parseClassifyChunks : Except Stop (List ContentId) := do
  let members ← jsonObject json request "invalid_request"
  failIf (¬hasExactKeys members ["chunk_ids"]) invalidRequest
  let entries ← field members "chunk_ids" asArray?
  failIf (entries = [] ∨ entries.length > kMaxClassifyChunks) invalidRequest
  let chunkIds ← mapEach entries fun entry => orFail (asContentId? entry) invalidRequest
  failIf (¬chunkIds.Nodup) invalidRequest
  .ok chunkIds

/-- `parse_gc_physical_stats_json` -/
def parseGcPhysicalStats : Except Stop GcPhysicalStats := do
  let members ← jsonObject json request "invalid_request"
  failIf (¬hasExactKeys members
    ["physical_chunks_scanned", "physical_bytes_scanned", "collectible_chunks",
     "collectible_bytes", "physically_deleted_chunks", "physically_deleted_bytes"])
    invalidRequest
  let physicalChunksScanned ← field members "physical_chunks_scanned" extractNonnegativeUint64
  let physicalBytesScanned ← field members "physical_bytes_scanned" extractNonnegativeUint64
  let collectibleChunks ← field members "collectible_chunks" extractNonnegativeUint64
  let collectibleBytes ← field members "collectible_bytes" extractNonnegativeUint64
  let physicallyDeletedChunks ← field members "physically_deleted_chunks" extractNonnegativeUint64
  let physicallyDeletedBytes ← field members "physically_deleted_bytes" extractNonnegativeUint64
  .ok ⟨physicalChunksScanned, physicalBytesScanned, collectibleChunks, collectibleBytes,
    physicallyDeletedChunks, physicallyDeletedBytes⟩

/-! ## Lifecycle -/

theorem strictTotal_artifactKind : StrictTotal ArtifactKind where
  trans := fun h h' => Nat.lt_trans h h'
  total := fun {a b} hne hge => by
    refine Nat.lt_of_le_of_ne (Nat.le_of_not_lt hge) fun hsame => hne ?_
    cases a <;> cases b <;> first | rfl | cases hsame

/-- `parse_lifecycle_rule_json`: the count is narrowed to 32 bits. -/
def parseLifecycleRule (entry : Json) : Except Stop LifecycleRule := do
  let members ← orFail entry.asObject? invalidRequest
  failIf (¬hasExactKeys members ["artifact_kind", "keep_last_n", "max_age_seconds"])
    invalidRequest
  let kindText ← field members "artifact_kind" asString?
  let keepLastN ← field members "keep_last_n" extractNonnegativeUint64
  let maxAgeSeconds ← field members "max_age_seconds" (orNull extractNonnegativeUint64)
  let artifactKind ← orFail (ArtifactKind.ofText? kindText) invalidRequest
  .ok ⟨artifactKind, keepLastN % 2 ^ 32, maxAgeSeconds⟩

/-- `parse_lifecycle_policy_json` -/
def parseLifecyclePolicy : Except Stop LifecyclePolicy := do
  let members ← jsonObject json request "invalid_request"
  failIf (¬hasExactKeys members ["policy_id", "name", "rules"]) invalidRequest
  let policyIdText ← field members "policy_id" asString?
  let name ← field members "name" asString?
  let entries ← field members "rules" asArray?
  failIf (entries.length ≠ 5) invalidRequest
  let rules ← mapEach entries parseLifecycleRule
  failIf (¬(rules.map LifecycleRule.artifactKind).Nodup) invalidRequest
  let policyId ← validUuid policyIdText
  .ok ⟨policyId, name, .ofList strictTotal_artifactKind
    (rules.map fun rule => (rule.artifactKind, rule))⟩

def parsePinReason : Except Stop String := do
  let members ← jsonObject json request "invalid_request"
  failIf (¬hasExactKeys members ["reason"]) invalidRequest
  field members "reason" asString?

structure RunLifecycleBody where
  runId : UuidV7
  policyId : UuidV7
  mode : LifecycleRunMode

/-- `lifecycle_run_mode_from_string` -/
def lifecycleRunMode? (mode : String) : Option LifecycleRunMode :=
  if mode = "dry-run" then some .dryRun else if mode = "apply" then some .apply else none

def RunLifecycleBody.parse : Except Stop RunLifecycleBody := do
  let members ← jsonObject json request "invalid_request"
  failIf (¬hasExactKeys members ["run_id", "policy_id", "mode"]) invalidRequest
  let runIdText ← field members "run_id" asString?
  let policyIdText ← field members "policy_id" asString?
  let modeText ← field members "mode" asString?
  let mode ← orFail (lifecycleRunMode? modeText) invalidRequest
  let runId ← validUuid runIdText
  let policyId ← validUuid policyIdText
  .ok ⟨runId, policyId, mode⟩

/-! ## Query strings -/

/-- The pairs that a query string separates by ampersands; a last empty one is none. -/
def queryPairs (query : List Char) : List (List Char) :=
  let pairs := query.splitOn '&'
  if pairs.getLast? = some [] then pairs.dropLast else pairs

def parseQueryParam (query : List Char) (key : String) : Option (List Char) :=
  (queryPairs query).findSome? fun pair =>
    (pair.dropInfix? ['=']).bind fun parts =>
      if parts.1 = key.toList then some parts.2 else none

def parsePositiveSize (text : List Char) : Option Nat :=
  if text = [] then none
  else
    text.foldlM (fun value character =>
      if character < '0' ∨ character > '9' then none
      else
        let digit := character.toNat - '0'.toNat
        if value > (2 ^ 64 - 1 - digit) / 10 then none else some (value * 10 + digit)) 0

structure LifecycleDecisionQuery where
  after : Option ContentId
  limit : Nat

def kDefaultLifecycleDecisionPageLimit : Nat := 128

def kMaxLifecycleDecisionPageLimit : Nat := 256

def addDecisionParam (parsed : LifecycleDecisionQuery) (pair : List Char) :
    Except Stop LifecycleDecisionQuery := do
  let (key, value) ← orFail (pair.dropInfix? ['=']) invalidRequest
  if key = "after".toList then do
    failIf parsed.after.isSome invalidRequest
    let after ← orFail (ContentId.ofHex? (String.ofList value)) invalidRequest
    .ok { parsed with after := some after }
  else if key = "limit".toList then do
    let limit ← orFail (parsePositiveSize value) invalidRequest
    failIf (limit < 1 ∨ limit > kMaxLifecycleDecisionPageLimit) invalidRequest
    .ok { parsed with limit := limit }
  else .error invalidRequest

def parseLifecycleDecisionsQuery (query : List Char) : Except Stop LifecycleDecisionQuery :=
  foldEach (queryPairs query) ⟨none, kDefaultLifecycleDecisionPageLimit⟩ addDecisionParam

/-! ## Upload sessions and chunks -/

def parseSessionChunking (strategy : String) (parameters : Members) :
    Except Stop SessionChunking :=
  if strategy = "fixed-size" then do
    failIf (¬hasExactKeys parameters ["chunk_size_bytes"]) invalidRequest
    let chunkSizeBytes ← field parameters "chunk_size_bytes" extractPositiveUint64
    .ok (.fixedSize chunkSizeBytes)
  else if strategy = "fastcdc" then
    orFail ((parseFastCdcParametersJson parameters).map .fastCdc) invalidRequest
  else .error invalidRequest

/-- The metadata of a session, where the constructor accepts their keys. -/
def immutableMetadata? (entries : List (String × String)) : Option ImmutableMetadata :=
  if h : ∀ entry ∈ entries, entry.1 ≠ "" then
    some ⟨.ofList strictTotal_string entries, fun entry hentry =>
      (mem_of_mem_emplaceAll hentry).elim (h entry) fun hnil => absurd hnil List.not_mem_nil⟩
  else none

def uploadSession? (fields : UploadSessionFields) : Option UploadSession :=
  match h : fields.validate with
  | .ok () => some ⟨fields, h⟩
  | .error _ => none

def parseUploadSession : Except Stop UploadSession := do
  let members ← jsonObject json request "invalid_request"
  failIf (¬hasExactKeys members
    ["session_id", "artifact_id", "target_node_id", "replication_factor", "placement_node_ids",
     "chunking_strategy", "chunking_parameters", "parent_version_id", "immutable_metadata"])
    invalidRequest
  let sessionIdText ← field members "session_id" asString?
  let artifactIdText ← field members "artifact_id" asString?
  let targetNodeId ← field members "target_node_id" asString?
  let nodeEntries ← field members "placement_node_ids" asArray?
  let strategy ← field members "chunking_strategy" asString?
  let parameters ← field members "chunking_parameters" asObject?
  let metadataEntries ← field members "immutable_metadata" asObject?
  let replicationFactor ← field members "replication_factor" extractPositiveUint64
  failIf (replicationFactor > 8) invalidRequest
  let placementNodeIds ← mapEach nodeEntries fun entry => orFail entry.asString? invalidRequest
  failIf (placementNodeIds.head? ≠ some targetNodeId) invalidRequest
  let chunking ← parseSessionChunking strategy parameters
  let parentVersionId ← field members "parent_version_id" (orNull asContentId?)
  let metadata ← mapEach metadataEntries fun entry =>
    (orFail entry.2.asString? invalidRequest).map fun text => (entry.1, text)
  let sessionId ← validUuid sessionIdText
  let artifactId ← validUuid artifactIdText
  let immutableMetadata ← orFail (immutableMetadata? metadata) invalidRequest
  orFail
    (uploadSession?
      { sessionId := sessionId
        artifactId := artifactId
        replicationFactor := replicationFactor
        placementNodeIds := placementNodeIds
        chunking := chunking
        parentVersionId := parentVersionId
        immutableMetadata := immutableMetadata })
    invalidRequest

def parseFinalize : Except Stop ObjectLayoutDescriptor := do
  failIf (request.contentType ≠ "application/json") unsupportedMediaType
  (FinalizeRequest.parse json request.body).mapError fun
    | .invalidJson => badRequest "invalid_json"
    | .invalidRequest => invalidRequest

structure NegotiateBody where
  sessionId : UuidV7
  chunks : List ChunkMetadata

def parseNegotiatedChunk (entry : Json) : Except Stop ChunkMetadata := do
  let members ← orFail entry.asObject? invalidRequest
  failIf (¬hasExactKeys members ["chunk_id", "size_bytes"]) invalidRequest
  let chunkId ← field members "chunk_id" asContentId?
  let sizeBytes ← field members "size_bytes" extractPositiveUint64
  .ok ⟨chunkId, sizeBytes⟩

def NegotiateBody.parse : Except Stop NegotiateBody := do
  let members ← jsonObject json request "invalid_request"
  failIf (¬hasExactKeys members ["session_id", "chunks"]) invalidRequest
  let sessionIdText ← field members "session_id" asString?
  let entries ← field members "chunks" asArray?
  let sessionId ←
    (UuidV7.parse sessionIdText).mapError fun _ => badRequest "invalid_session_id"
  let chunks ← mapEach entries parseNegotiatedChunk
  .ok ⟨sessionId, chunks⟩

/-- `storage_location_state_from_string` -/
def storageLocationState? (state : String) : Option StorageLocationState :=
  if state = "available" then some .available
  else if state = "missing" then some .missing
  else if state = "corrupt" then some .corrupt
  else none

structure StorageLocationBody where
  storagePath : String
  state : StorageLocationState

def StorageLocationBody.parse : Except Stop StorageLocationBody := do
  let members ← jsonObject json request "invalid_request"
  failIf (¬hasExactKeys members ["storage_path", "state"]) invalidRequest
  let storagePath ← field members "storage_path" asString?
  let stateText ← field members "state" asString?
  failIf (storagePath = "") invalidRequest
  let state ← orFail (storageLocationState? stateText) (badRequest "invalid_state")
  .ok ⟨storagePath, state⟩

end AiArtifactStore.Service
