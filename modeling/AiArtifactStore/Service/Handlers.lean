import AiArtifactStore.Metadata.GcRuns
import AiArtifactStore.Metadata.LifecycleRuns
import AiArtifactStore.Metadata.ReplicationRuns
import AiArtifactStore.Service.Inputs

/-!
# The handlers of the metadata service

Each handler as the source has it: what it reads of the request, the transactions
that it runs, and the exceptions that its `catch` clauses turn into responses.
-/

namespace AiArtifactStore.Service

open AiArtifactStore.Foundation
open AiArtifactStore.Foundation.Stateful (check read)
open AiArtifactStore.Identity
open AiArtifactStore.Metadata
open AiArtifactStore.Client
open Handler

structure Clock where
  now : Int
  evaluatedAtMs : Int

variable (env : Environment) (json : JsonLibrary (List UInt8)) (clock : Clock) (request : Request)

/-! ## Storage nodes -/

def handleListStorageNodes : Handler := do
  let nodes ← read (Push.listStorageNodes env)
  pure (.storageNodes nodes)

def handleGetStorageNode (nodeId : String) : Handler := do
  let found ← read fun db => db.storageNodes.find? nodeId
  let node ← check (orFail found (notFound "storage_node_not_found"))
  pure (.storageNode node)

def storageNodeStateFromString (state : String) : Except Exc StorageNodeState :=
  if state = "active" then .ok .active
  else if state = "draining" then .ok .draining
  else if state = "disabled" then .ok .disabled
  else .error (.runtimeError "unsupported storage node state string")

def handlePutStorageNode (nodeId : String) : Handler := do
  let body ← check (StorageNodeBody.parse json request)
  catching invalidArgumentFailure do
    let state ← check ((storageNodeStateFromString body.state).mapError .throw)
    let node : StorageNode := ⟨nodeId, body.address, body.port, state⟩
    update fun db => registerStorageNode env db node
    pure (.storageNode node)

/-! ## Restore plans -/

def restorePlanFailure : Exc → Option Failure
  | .restorePlanError kind _ =>
      match kind with
      | .versionNotFound => some { status := .notFound, error := "artifact_version_not_found" }
      | .versionNotCommitted =>
          some { status := .conflict, error := "artifact_version_not_committed" }
      | .sourceUnavailable => some { status := .conflict, error := "restore_source_unavailable" }
      | .versionRetired => some { status := .gone, error := "artifact_version_retired" }
  | _ => none

def handleGetRestorePlan (versionId : ContentId) (sourceNodeId : String) : Handler :=
  catching restorePlanFailure do
    let plan ← query fun db => resolveRestorePlan env db versionId sourceNodeId
    pure (.restorePlan plan)

def handleGetMultiNodeRestorePlan (versionId : ContentId) : Handler :=
  catching restorePlanFailure do
    let plan ← query fun db => resolveMultiNodeRestorePlan env db versionId
    pure (.multiNodeRestorePlan plan)

/-! ## Replication runs -/

def startReplicationFailure : Exc → Option Failure
  | .replicationError kind _ =>
      some <|
        match kind with
        | .runConflict => { status := .conflict, error := "replication_run_conflict" }
        | .anotherRunOpen => { status := .conflict, error := "replication_already_in_progress" }
        | .gcInProgress => { status := .conflict, error := "gc_in_progress" }
        | .versionNotFound => { status := .notFound, error := "artifact_version_not_found" }
        | .versionNotCommitted => { status := .conflict, error := "artifact_version_not_committed" }
        | .versionRetired => { status := .gone, error := "artifact_version_retired" }
        | .sourceUnavailable => { status := .conflict, error := "restore_source_unavailable" }
        | .underReplicated => { status := .conflict, error := "chunk_under_replicated" }
        | .targetDisabled => { status := .conflict, error := "replication_target_disabled" }
        | _ => { status := .conflict, error := "replication_error" }
  | _ => none

def replicationPlanFailure : Exc → Option Failure
  | .replicationError kind _ =>
      some <|
        match kind with
        | .runNotFound => { status := .notFound, error := "replication_run_not_found" }
        | .targetDisabled => { status := .conflict, error := "replication_target_disabled" }
        | _ => { status := .conflict, error := "replication_error" }
  | _ => none

def completeReplicationFailure : Exc → Option Failure
  | .replicationError kind _ =>
      some <|
        match kind with
        | .runNotFound => { status := .notFound, error := "replication_run_not_found" }
        | .runNotOpen => { status := .conflict, error := "replication_run_not_open" }
        | .gcInProgress => { status := .conflict, error := "gc_in_progress" }
        | .underReplicated => { status := .conflict, error := "chunk_under_replicated" }
        | _ => { status := .conflict, error := "replication_error" }
  | _ => none

def handleStartReplicationRun : Handler := do
  let body ← check (StartReplicationRunBody.parse json request)
  catching (orElse startReplicationFailure invalidArgumentFailure) do
    let run ← transaction fun db =>
      startReplicationRun env db body.runId body.versionId body.replicationFactor
    pure (.replicationRun run)

def handleGetReplicationRun (runIdText : String) : Handler := do
  let runId ← check (constructUuid runIdText)
  let found ← read fun db => db.replicationRuns.find? runId
  let run ← check (orFail found (notFound "replication_run_not_found"))
  pure (.replicationRun run)

def handleGetReplicationPlan (runIdText : String) : Handler := do
  let runId ← check (constructUuid runIdText)
  catching replicationPlanFailure do
    let plan ← query fun db => getReplicationPlan env db runId
    pure (.replicationPlan plan)

def handleCompleteReplicationRun (runIdText : String) : Handler := do
  let stats ← check (parseReplicationStats json request)
  let runId ← check (constructUuid runIdText)
  catching completeReplicationFailure do
    let run ← transaction fun db => completeReplicationRun env db runId stats
    pure (.replicationRun run)

/-! ## Lifecycle -/

/-- `map_lifecycle_error` -/
def lifecycleFailure : Exc → Option Failure
  | .lifecycleError kind _ =>
      some <|
        match kind with
        | .invalidRequest => { status := .badRequest, error := "invalid_request" }
        | .policyNotFound => { status := .notFound, error := "lifecycle_policy_not_found" }
        | .runNotFound => { status := .notFound, error := "lifecycle_run_not_found" }
        | .versionNotFound => { status := .notFound, error := "artifact_version_not_found" }
        | .versionRetired => { status := .gone, error := "artifact_version_retired" }
        | .runConflict => { status := .conflict, error := "lifecycle_run_conflict" }
        | .blockedByOpenUploadSessions =>
            { status := .conflict, error := "lifecycle_blocked_by_open_upload_sessions" }
        | .blockedByGc => { status := .conflict, error := "lifecycle_blocked_by_gc" }
        | .blockedByReplication =>
            { status := .conflict, error := "lifecycle_blocked_by_replication" }
        | .invalidArtifactKind => { status := .conflict, error := "invalid_artifact_kind" }
        | .policyConflict => { status := .conflict, error := "invalid_request" }
  | _ => none

def handleRegisterLifecyclePolicy : Handler := do
  let policy ← check (parseLifecyclePolicy json request)
  catching lifecycleFailure do
    update fun db => registerLifecyclePolicy db policy
    let found ← read fun db => db.lifecyclePolicies.find? policy.policyId
    let loaded ← check (orFail found
      (.throw (.runtimeError "lifecycle policy could not be reloaded after registration")))
    pure (.lifecyclePolicy loaded)

def handleGetLifecyclePolicy (policyIdText : String) : Handler := do
  let policyId ← check (constructUuid policyIdText)
  let found ← read fun db => db.lifecyclePolicies.find? policyId
  let policy ← check (orFail found (notFound "lifecycle_policy_not_found"))
  pure (.lifecyclePolicy policy)

def handleRunLifecycle : Handler := do
  let body ← check (RunLifecycleBody.parse json request)
  catching (orElse lifecycleFailure invalidArgumentFailure) do
    let run ← transaction fun db =>
      runLifecycle db body.runId body.policyId body.mode clock.evaluatedAtMs
    pure (.lifecycleRun run)

def handleGetLifecycleRun (runIdText : String) : Handler := do
  let runId ← check (constructUuid runIdText)
  let found ← read fun db => db.lifecycleRuns.find? runId
  let row ← check (orFail found (notFound "lifecycle_run_not_found"))
  pure (.lifecycleRun row.run)

/-- `list_lifecycle_decisions`, where the database compares the version ids as texts. -/
def listLifecycleDecisions (db : Db) (runId : UuidV7) (parsed : LifecycleDecisionQuery) :
    Except Exc (List LifecycleDecision) := do
  failIf (parsed.limit < 1 ∨ parsed.limit > kMaxLifecycleDecisionPageLimit)
    (.lifecycleError .invalidRequest "lifecycle decision page limit must be between 1 and 256")
  let row ← orFail (db.lifecycleRuns.find? runId)
    (.lifecycleError .runNotFound "lifecycle run does not exist")
  let later := row.decisions.filter fun d =>
    parsed.after.all fun after => !env.textLe d.versionId.hex after.hex
  .ok ((env.orderByText (fun d => d.versionId.hex) later).take parsed.limit)

def handleListLifecycleDecisions (runIdText : String) (queryText : List Char) : Handler := do
  let parsed ← check (parseLifecycleDecisionsQuery queryText)
  let runId ← check (constructUuid runIdText)
  catching (orElse lifecycleFailure invalidArgumentFailure) do
    let decisions ← query fun db => listLifecycleDecisions env db runId parsed
    let nextAfter := if decisions.length = parsed.limit then
        decisions.getLast?.map LifecycleDecision.versionId
      else none
    pure (.lifecycleDecisions decisions nextAfter)

def handlePutVersionPin (versionId : ContentId) : Handler := do
  let reason ← check (parsePinReason json request)
  catching (orElse lifecycleFailure invalidArgumentFailure) do
    update fun db => pinVersion env db versionId reason
    pure (.versionPin versionId (some reason))

def requireVersion (versionId : ContentId) : Stateful Db Stop Unit := do
  let version ← query fun db => loadVersion env db versionId
  check (failIf (version = none) (notFound "artifact_version_not_found"))

def handleDeleteVersionPin (versionId : ContentId) : Handler :=
  catching invalidArgumentFailure do
    requireVersion env versionId
    let _ ← transaction fun db => .ok (unpinVersion db versionId)
    pure (.versionPin versionId none)

def handleGetVersionPin (versionId : ContentId) : Handler :=
  catching invalidArgumentFailure do
    requireVersion env versionId
    let pin ← read fun db => db.pins.find? versionId
    pure (.versionPin versionId (pin.map PinRow.reason))

/-! ## Upload sessions -/

def createSessionStop : Push.CreateSessionError → Stop
  | .uploadSessionConflict => conflict "upload_session_conflict"
  | .invalidRequest => invalidRequest
  | .prerequisiteNotFound => notFound "upload_session_prerequisite_not_found"
  | .gcInProgress => conflict "gc_in_progress"
  | .exception e => .throw e

def handleCreateUploadSession : Handler := do
  let requested ← check (parseUploadSession json request)
  fun db =>
    let (created, next) := Push.handleCreateUploadSession db requested
    ((created.mapError createSessionStop).map .uploadSession, next)

def getUploadSession (db : Db) (sessionId : UuidV7) : Except Exc (Option SessionRow) :=
  match db.uploadSessions.find? sessionId with
  | none => .ok none
  | some stored => (reconstructUploadSession stored).map some

def handleGetUploadSession (sessionIdText : String) : Handler := do
  let sessionId ← check (constructUuid sessionIdText)
  let found ← query fun db => getUploadSession db sessionId
  let row ← check (orFail found (notFound "upload_session_not_found"))
  pure (.uploadSession row)

def handleAbortUploadSession (sessionIdText : String) : Handler := do
  check (failIf (request.body ≠ []) invalidRequest)
  let sessionId ← check (constructUuid sessionIdText)
  let found ← query fun db => getUploadSession db sessionId
  let existing ← check (orFail found (notFound "upload_session_not_found"))
  check (failIf (existing.status.state = .committed) (conflict "upload_session_committed"))
  update fun db => abortUploadSession db sessionId
  let reloaded ← query fun db => getUploadSession db sessionId
  let aborted ← check (orFail reloaded
    (.throw (.runtimeError "aborted upload session could not be reloaded")))
  pure (.uploadSession aborted)

def chunkDetail (chunkId : Option String) : Json.Members :=
  (chunkId.map fun id => ("chunk_id", Json.string id)).toList

def finalizeFailure : Exc → Option Failure
  | .finalizeUploadError kind _ chunkId =>
      some <|
        match kind with
        | .sessionNotFound => { status := .notFound, error := "upload_session_not_found" }
        | .sessionNotOpen => { status := .conflict, error := "upload_session_not_open" }
        | .conflict => { status := .conflict, error := "finalize_conflict" }
        | .chunkNotAvailableOnTarget =>
            { status := .conflict
              error := "chunk_not_available_on_target"
              details := chunkDetail chunkId }
        | .chunkUnderReplicated =>
            { status := .conflict
              error := "chunk_under_replicated"
              details := chunkDetail chunkId }
        | .versionRetired => { status := .gone, error := "artifact_version_retired" }
  | _ => none

def handleFinalizeUploadSession (sessionIdText : String) : Handler := do
  let descriptor ← check (parseFinalize json request)
  let sessionId ← check (constructUuid sessionIdText)
  catching (orElse finalizeFailure invalidArgumentFailure) do
    let result ← transaction fun db => finalizeUpload env clock.now db sessionId descriptor
    pure (.finalized result)

/-! ## Chunks -/

def negotiationStop : NegotiationError → Stop
  | .invalidRequest => invalidRequest
  | .uploadSessionNotFound => notFound "upload_session_not_found"
  | .uploadSessionNotOpen => conflict "upload_session_not_open"
  | .chunkSizeConflict c =>
      .respond
        { status := .conflict
          error := "chunk_size_conflict"
          details :=
            [("chunk_id", .string c.chunkId.hex),
             ("requested_size_bytes", .uint64 c.requestedSizeBytes),
             ("stored_size_bytes", .uint64 c.storedSizeBytes)] }
  | .exception e => .throw e

def handleNegotiateChunks : Handler := do
  check (failIf (request.method ≠ .post) (methodNotAllowed "POST"))
  let body ← check (NegotiateBody.parse json request)
  fun db =>
    match Client.handleNegotiateChunks env db body.sessionId body.chunks with
    | .ok (result, next) => (.ok (.negotiated result), next)
    | .error e => (.error (negotiationStop e), db)

def getStorageLocations (db : Db) (chunkId : ContentId) : List StorageLocation :=
  env.orderByText StorageLocation.nodeId
    (db.storageLocations.rows.filter fun location => location.chunkId = chunkId)

def handleGetStorageLocations (chunkId : ContentId) : Handler := do
  let locations ← read fun db => getStorageLocations env db chunkId
  pure (.storageLocations chunkId locations)

def locationFailure : Exc → Option Failure
  | .sqlError constraint =>
      if constraint = "storage_locations_chunk_fk" then
        some { status := .notFound, error := "chunk_not_found" }
      else if constraint = "storage_locations_node_path_unique" then
        some { status := .conflict, error := "location_conflict" }
      else none
  | _ => none

def handlePutStorageLocation (chunkId : ContentId) (nodeId : String) : Handler := do
  let body ← check (StorageLocationBody.parse json request)
  catching locationFailure do
    update fun db =>
      registerStorageLocation db ⟨chunkId, nodeId, body.storagePath, body.state⟩
    pure .noContent

/-! ## Garbage collection -/

/-- `make_gc_error_response` -/
def gcFailure : Exc → Option Failure
  | .gcError kind _ =>
      some <|
        match kind with
        | .runNotFound => { status := .notFound, error := "gc_run_not_found" }
        | .runConflict => { status := .conflict, error := "gc_run_conflict" }
        | .anotherRunOpen => { status := .conflict, error := "gc_already_in_progress" }
        | .openUploadSessionsPresent =>
            { status := .conflict, error := "gc_blocked_by_open_upload_sessions" }
        | .runNotOpen => { status := .conflict, error := "gc_run_not_open" }
        | .gcInProgress => { status := .conflict, error := "gc_in_progress" }
        | .replicationInProgress => { status := .conflict, error := "replication_in_progress" }
  | _ => none

def handleStartGcRun : Handler := do
  let requested ← check (parseGcRun json request)
  catching (orElse invalidArgumentFailure gcFailure) do
    let run ← transaction fun db => startGcRun db requested
    pure (.gcRun run)

def handleGetGcRun (gcRunIdText : String) : Handler := do
  let gcRunId ← check (constructUuid gcRunIdText)
  let found ← read fun db => db.gcRuns.find? gcRunId
  let run ← check (orFail found (notFound "gc_run_not_found"))
  pure (.gcRun run)

def handleClassifyGcChunks (gcRunIdText : String) : Handler := do
  let chunkIds ← check (parseClassifyChunks json request)
  let gcRunId ← check (constructUuid gcRunIdText)
  catching (orElse gcFailure invalidArgumentFailure) do
    let decisions ← query fun db => classifyGcChunks db gcRunId chunkIds
    pure (.gcDecisions gcRunId decisions)

def handleCompleteGcRun (gcRunIdText : String) : Handler := do
  let physicalStats ← check (parseGcPhysicalStats json request)
  let gcRunId ← check (constructUuid gcRunIdText)
  catching gcFailure do
    let run ← transaction fun db => completeGcRun db gcRunId physicalStats
    pure (.gcRun run)

end AiArtifactStore.Service
