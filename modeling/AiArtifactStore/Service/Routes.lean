import AiArtifactStore.Service.Handlers

/-!
# Routes of the metadata service

Which handler `handle_request` calls for a request, or the failure response that it
gives before any handler.  The groups of routes are tried in the order of the source.
-/

namespace AiArtifactStore.Service

open AiArtifactStore.Foundation
open AiArtifactStore.Identity
open AiArtifactStore.Metadata

inductive Endpoint where
  | health
  | listStorageNodes
  | getStorageNode (nodeId : String)
  | putStorageNode (nodeId : String)
  | startReplicationRun
  | getReplicationRun (runIdText : String)
  | getReplicationPlan (runIdText : String)
  | completeReplicationRun (runIdText : String)
  | getRestorePlan (versionId : ContentId) (sourceNodeId : String)
  | getMultiNodeRestorePlan (versionId : ContentId)
  | registerLifecyclePolicy
  | getLifecyclePolicy (policyIdText : String)
  | runLifecycle
  | getLifecycleRun (runIdText : String)
  | listLifecycleDecisions (runIdText : String) (query : List Char)
  | putVersionPin (versionId : ContentId)
  | deleteVersionPin (versionId : ContentId)
  | getVersionPin (versionId : ContentId)
  | createUploadSession
  | getUploadSession (sessionIdText : String)
  | abortUploadSession (sessionIdText : String)
  | finalizeUploadSession (sessionIdText : String)
  | negotiateChunks
  | getStorageLocations (chunkId : ContentId)
  | putStorageLocation (chunkId : ContentId) (nodeId : String)
  | startGcRun
  | getGcRun (gcRunIdText : String)
  | classifyGcChunks (gcRunIdText : String)
  | completeGcRun (gcRunIdText : String)
  deriving DecidableEq

abbrev Route := Except Stop Endpoint

/-! ## Targets -/

def Request.path (request : Request) : List Char :=
  request.target.takeWhile fun character => character ≠ '?' ∧ character ≠ '#'

def Request.suffix (request : Request) : List Char :=
  request.target.dropWhile fun character => character ≠ '?' ∧ character ≠ '#'

def Request.query (request : Request) : List Char :=
  if request.suffix.head? = some '?' then request.suffix.tail.takeWhile fun character =>
    character ≠ '#'
  else []

def Request.hasFragment (request : Request) : Prop := request.suffix.head? = some '#'

instance (request : Request) : Decidable request.hasFragment :=
  inferInstanceAs (Decidable (request.suffix.head? = some '#'))

def kStorageNodesCollection : List Char := "/v1/storage-nodes".toList

def kStorageNodesPrefix : List Char := "/v1/storage-nodes/".toList

def kReplicationRunsCollection : List Char := "/v1/replication-runs".toList

def kReplicationRunsPrefix : List Char := "/v1/replication-runs/".toList

def kArtifactVersionsPrefix : List Char := "/v1/artifact-versions/".toList

def kRestorePlanSuffix : List Char := "/restore-plan".toList

def kRestorePlanInfix : List Char := "/restore-plan/".toList

def kLifecyclePoliciesCollection : List Char := "/v1/lifecycle-policies".toList

def kLifecyclePoliciesPrefix : List Char := "/v1/lifecycle-policies/".toList

def kLifecycleRunsCollection : List Char := "/v1/lifecycle-runs".toList

def kLifecycleRunsPrefix : List Char := "/v1/lifecycle-runs/".toList

def kPinSuffix : List Char := "/pin".toList

def kUploadSessionsCollection : List Char := "/v1/upload-sessions".toList

def kUploadSessionsPrefix : List Char := "/v1/upload-sessions/".toList

def kNegotiatePath : List Char := "/v1/chunks/negotiate".toList

def kChunkRoutePrefix : List Char := "/v1/chunks/".toList

def kLocationsSuffix : List Char := "/locations".toList

def kLocationsPrefix : List Char := "/locations/".toList

def kGcRunsCollection : List Char := "/v1/gc-runs".toList

def kGcRunsPrefix : List Char := "/v1/gc-runs/".toList

/-- The text up to the first slash, and the rest with the slash if there is one. -/
def splitAtSlash (text : List Char) : List Char × List Char := text.span fun c => c ≠ '/'

def contentId? (text : List Char) : Option ContentId := ContentId.ofHex? (String.ofList text)

def only (request : Request) (method : Verb) (allow : String) (endpoint : Endpoint) : Route :=
  if request.method = method then .ok endpoint else .error (methodNotAllowed allow)

def isUuid (text : String) : Bool := (UuidV7.parse text).toOption.isSome

/-! ## `try_handle_m8_routes` -/

def storageNodeRoutes (request : Request) : Option Route :=
  if request.path = kStorageNodesCollection then
    some (only request .get "GET" .listStorageNodes)
  else
    (request.path.dropPrefix? kStorageNodesPrefix).map fun nodeId => do
      failIf ('/' ∈ nodeId ∨ nodeIdInvalid (String.ofList nodeId)) (badRequest "invalid_node_id")
      failIf request.hasFragment invalidRequest
      if request.method = .get then .ok (.getStorageNode (String.ofList nodeId))
      else if request.method = .put then .ok (.putStorageNode (String.ofList nodeId))
      else .error (methodNotAllowed "GET, PUT")

def replicationRunRoutes (request : Request) : Option Route :=
  if request.path = kReplicationRunsCollection then
    some (only request .post "POST" .startReplicationRun)
  else
    (request.path.dropPrefix? kReplicationRunsPrefix).bind fun remainder =>
      let (runId, subroute) := splitAtSlash remainder
      if subroute = [] then
        some (only request .get "GET" (.getReplicationRun (String.ofList runId)))
      else if subroute = "/plan".toList then
        some (only request .get "GET" (.getReplicationPlan (String.ofList runId)))
      else if subroute = "/complete".toList then
        some (only request .post "POST" (.completeReplicationRun (String.ofList runId)))
      else none

def restorePlanQuery (request : Request) (versionId : ContentId) : Route := do
  failIf (request.method ≠ .get) (methodNotAllowed "GET")
  match parseQueryParam request.query "source_node_id" with
  | some sourceNodeId => do
      failIf (nodeIdInvalid (String.ofList sourceNodeId)) (badRequest "invalid_node_id")
      .ok (.getRestorePlan versionId (String.ofList sourceNodeId))
  | none => .ok (.getMultiNodeRestorePlan versionId)

def multiNodeRestorePlanRoutes (request : Request) : Option Route :=
  (request.path.dropPrefix? kArtifactVersionsPrefix).bind fun afterPrefix =>
    (afterPrefix.dropInfix? kRestorePlanSuffix).bind fun (versionText, afterRestore) =>
      match contentId? versionText with
      | none => some (.error (badRequest "invalid_version_id"))
      | some versionId =>
          match afterRestore with
          | [] => some (restorePlanQuery request versionId)
          | '/' :: sourceNodeId =>
              if '/' ∈ sourceNodeId then some (.error (notFound "not_found")) else none
          | _ => none

def tryHandleM8Routes (request : Request) : Option Route :=
  storageNodeRoutes request <|> replicationRunRoutes request <|>
    multiNodeRestorePlanRoutes request

/-! ## `try_handle_m9_routes` -/

/-- A `GET` whose id is tested in front of the handler. -/
def getWithUuid (request : Request) (idText : List Char) (endpoint : String → Endpoint) : Route := do
  failIf request.hasFragment invalidRequest
  failIf (request.method ≠ .get) (methodNotAllowed "GET")
  failIf (¬isUuid (String.ofList idText)) invalidRequest
  .ok (endpoint (String.ofList idText))

def postCollection (request : Request) (endpoint : Endpoint) : Route := do
  failIf request.hasFragment invalidRequest
  only request .post "POST" endpoint

def lifecyclePolicyRoutes (request : Request) : Option Route :=
  if request.path = kLifecyclePoliciesCollection then
    some (postCollection request .registerLifecyclePolicy)
  else
    (request.path.dropPrefix? kLifecyclePoliciesPrefix).bind fun policyId =>
      if policyId = [] ∨ '/' ∈ policyId then none
      else some (getWithUuid request policyId .getLifecyclePolicy)

def lifecycleRunRoutes (request : Request) : Option Route :=
  if request.path = kLifecycleRunsCollection then some (postCollection request .runLifecycle)
  else
    (request.path.dropPrefix? kLifecycleRunsPrefix).bind fun remainder =>
      let (runId, subroute) := splitAtSlash remainder
      if subroute = [] then some (getWithUuid request runId .getLifecycleRun)
      else if subroute = "/decisions".toList then
        some (getWithUuid request runId fun runIdText =>
          .listLifecycleDecisions runIdText request.query)
      else none

/-- The version of a pin route, where the suffix may share its slash with the prefix. -/
def pinVersionText (path : List Char) : Option (List Char) :=
  (path.dropPrefix? kArtifactVersionsPrefix).bind fun afterPrefix =>
    if kPinSuffix <:+ path then
      some (if afterPrefix.length < kPinSuffix.length then afterPrefix
        else afterPrefix.take (afterPrefix.length - kPinSuffix.length))
    else none

def versionPinRoutes (request : Request) : Option Route :=
  (pinVersionText request.path).bind fun versionText =>
    if versionText = [] ∨ '/' ∈ versionText then none
    else some do
      failIf request.hasFragment invalidRequest
      let versionId ← orFail (contentId? versionText) (badRequest "invalid_version_id")
      if request.method = .put then .ok (.putVersionPin versionId)
      else if request.method = .delete then .ok (.deleteVersionPin versionId)
      else if request.method = .get then .ok (.getVersionPin versionId)
      else .error (methodNotAllowed "GET, PUT, DELETE")

def tryHandleM9Routes (request : Request) : Option Route :=
  lifecyclePolicyRoutes request <|> lifecycleRunRoutes request <|> versionPinRoutes request

/-! ## The other routes -/

def itemRoutes (request : Request) (collection itemPrefix : List Char) (invalidId : String)
    (create : Endpoint) (item : String → Endpoint)
    (actions : List (List Char × (String → Endpoint))) : Option Route :=
  if request.path = collection then
    some do
      failIf (request.suffix ≠ []) invalidRequest
      only request .post "POST" create
  else
    (request.path.dropPrefix? itemPrefix).map fun remainder => do
      failIf (request.suffix ≠ []) invalidRequest
      failIf (remainder = [] ∨ remainder.head? = some '/') (notFound "not_found")
      let (idText, subroute) := splitAtSlash remainder
      failIf (¬isUuid (String.ofList idText)) (badRequest invalidId)
      if subroute = [] then only request .get "GET" (item (String.ofList idText))
      else
        match actions.lookup subroute with
        | some action => only request .post "POST" (action (String.ofList idText))
        | none => .error (notFound "not_found")

def uploadSessionRoutes (request : Request) : Option Route :=
  itemRoutes request kUploadSessionsCollection kUploadSessionsPrefix "invalid_session_id"
    .createUploadSession .getUploadSession
    [("/abort".toList, .abortUploadSession), ("/finalize".toList, .finalizeUploadSession)]

def gcRunRoutes (request : Request) : Option Route :=
  itemRoutes request kGcRunsCollection kGcRunsPrefix "invalid_gc_run_id"
    .startGcRun .getGcRun
    [("/classify".toList, .classifyGcChunks), ("/complete".toList, .completeGcRun)]

def negotiateRoutes (request : Request) : Option Route :=
  if request.path = kNegotiatePath then
    some do
      failIf (request.suffix ≠ []) invalidRequest
      .ok .negotiateChunks
  else none

def restorePlanRoutes (request : Request) : Option Route :=
  (request.path.dropPrefix? kArtifactVersionsPrefix).map fun afterPrefix => do
    let (versionText, sourceNodeId) ← orFail (afterPrefix.dropInfix? kRestorePlanInfix)
      (notFound "not_found")
    let versionId ← orFail (contentId? versionText) (badRequest "invalid_version_id")
    failIf (sourceNodeId = [] ∨ '/' ∈ sourceNodeId) (notFound "not_found")
    failIf (nodeIdInvalid (String.ofList sourceNodeId)) (badRequest "invalid_node_id")
    failIf (request.suffix ≠ []) invalidRequest
    only request .get "GET" (.getRestorePlan versionId (String.ofList sourceNodeId))

def locationRoutes (request : Request) : Option Route :=
  (request.path.dropPrefix? kChunkRoutePrefix).map fun afterPrefix => do
    let (chunkText, remainder) := splitAtSlash afterPrefix
    let chunkId ← orFail (contentId? chunkText) (badRequest "invalid_chunk_id")
    if remainder = kLocationsSuffix then do
      failIf (request.suffix ≠ []) invalidRequest
      only request .get "GET" (.getStorageLocations chunkId)
    else do
      let nodeId ← orFail (remainder.dropPrefix? kLocationsPrefix) (notFound "not_found")
      failIf ('/' ∈ nodeId ∨ nodeIdInvalid (String.ofList nodeId)) (badRequest "invalid_node_id")
      failIf (request.suffix ≠ []) invalidRequest
      only request .put "PUT" (.putStorageLocation chunkId (String.ofList nodeId))

/-- The branches of `handle_request`, in their order. -/
def route (request : Request) : Route :=
  if request.target = "/health".toList then only request .get "GET" .health
  else
    (tryHandleM8Routes request <|> tryHandleM9Routes request <|> uploadSessionRoutes request <|>
      negotiateRoutes request <|> restorePlanRoutes request <|> locationRoutes request <|>
      gcRunRoutes request).getD (.error (notFound "not_found"))

section

variable (env : Environment) (json : JsonLibrary (List UInt8)) (clock : Clock) (request : Request)

def dispatch : Endpoint → Handler
  | .health => pure .healthy
  | .listStorageNodes => handleListStorageNodes env
  | .getStorageNode nodeId => handleGetStorageNode nodeId
  | .putStorageNode nodeId => handlePutStorageNode env json request nodeId
  | .startReplicationRun => handleStartReplicationRun env json request
  | .getReplicationRun runIdText => handleGetReplicationRun runIdText
  | .getReplicationPlan runIdText => handleGetReplicationPlan env runIdText
  | .completeReplicationRun runIdText => handleCompleteReplicationRun env json request runIdText
  | .getRestorePlan versionId sourceNodeId => handleGetRestorePlan env versionId sourceNodeId
  | .getMultiNodeRestorePlan versionId => handleGetMultiNodeRestorePlan env versionId
  | .registerLifecyclePolicy => handleRegisterLifecyclePolicy json request
  | .getLifecyclePolicy policyIdText => handleGetLifecyclePolicy policyIdText
  | .runLifecycle => handleRunLifecycle json clock request
  | .getLifecycleRun runIdText => handleGetLifecycleRun runIdText
  | .listLifecycleDecisions runIdText query => handleListLifecycleDecisions env runIdText query
  | .putVersionPin versionId => handlePutVersionPin env json request versionId
  | .deleteVersionPin versionId => handleDeleteVersionPin env versionId
  | .getVersionPin versionId => handleGetVersionPin env versionId
  | .createUploadSession => handleCreateUploadSession json request
  | .getUploadSession sessionIdText => handleGetUploadSession sessionIdText
  | .abortUploadSession sessionIdText => handleAbortUploadSession request sessionIdText
  | .finalizeUploadSession sessionIdText =>
      handleFinalizeUploadSession env json clock request sessionIdText
  | .negotiateChunks => handleNegotiateChunks env json request
  | .getStorageLocations chunkId => handleGetStorageLocations env chunkId
  | .putStorageLocation chunkId nodeId => handlePutStorageLocation json request chunkId nodeId
  | .startGcRun => handleStartGcRun json request
  | .getGcRun gcRunIdText => handleGetGcRun gcRunIdText
  | .classifyGcChunks gcRunIdText => handleClassifyGcChunks json request gcRunIdText
  | .completeGcRun gcRunIdText => handleCompleteGcRun json request gcRunIdText

def handleRequest : Handler := do
  let endpoint ← Stateful.check (route request)
  dispatch env json clock request endpoint

end

end AiArtifactStore.Service
