import AiArtifactStore.Service.DecisionPages
import AiArtifactStore.Service.RecordRoundTrip
import AiArtifactStore.Service.Requests

/-!
# The read calls of the metadata client

A call of `MetadataClient` that reads a record asks the service for it over HTTP.  What it
returns is what the database holds, unless the response exceeds the limit of the HTTP client.
-/

namespace AiArtifactStore.Service

open AiArtifactStore.Foundation
open AiArtifactStore.Foundation.Stateful
open AiArtifactStore.Identity
open AiArtifactStore.Metadata
open AiArtifactStore.Client
open AiArtifactStore.Wire

/-! ## The calls -/

/-- What a call to the metadata service throws. -/
inductive CallExc where
  | client (e : ClientExc)
  | remoteApi (status : Nat) (errorCode : String)
  | responseTooLarge
  deriving DecidableEq, Repr

def maxResponseBodyBytes : Nat := 8 * 1024 * 1024

/-- What `HttpClient::request` returns: the response parser has a body limit. -/
def receive (response : WireResponse) : Except CallExc WireResponse := do
  failIf (response.body.length > maxResponseBodyBytes) .responseTooLarge
  return response

theorem receive_bind {α : Type} {response : WireResponse}
    {call : WireResponse → Except CallExc α} {value : α} (h : call response = .ok value) :
    (receive response >>= call) = (receive response).map fun _ => value := by
  by_cases hlarge : response.body.length > maxResponseBodyBytes
  · rw [receive, failIf_of_true hlarge]
    rfl
  · rw [receive, failIf_of_false hlarge]
    exact h

namespace MetadataReads

def getRequest (target : List Char) : Request := ⟨.get, target, "", []⟩

section

variable (json : JsonLibrary (List UInt8))

/-- `throw_remote_api_error` -/
def remoteApiError (response : WireResponse) : CallExc :=
  .remoteApi response.status (NodeClient.extractErrorCode json response.body)

def getFound {α : Type} (notFoundCode : String) (parse : List UInt8 → Except ClientExc α)
    (response : WireResponse) : Except CallExc (Option α) :=
  if response.status = 200 then ((parse response.body).mapError .client).map some
  else if response.status = 404 ∧
      NodeClient.extractErrorCode json response.body = notFoundCode then .ok none
  else .error (remoteApiError json response)

def getAll {α : Type} (parse : List UInt8 → Except ClientExc α) (response : WireResponse) :
    Except CallExc α :=
  if response.status = 200 then (parse response.body).mapError .client
  else .error (remoteApiError json response)

variable (env : Environment) (clock : Clock) (db : Db)

def responseTo (target : List Char) : WireResponse :=
  (toResponse (handleRequest env json clock (getRequest target) db).1).wire env json

/-- The response of a service with the database, as the HTTP client returns it. -/
def respond (target : List Char) : Except CallExc WireResponse :=
  receive (responseTo json env clock db target)

def getUploadSession (sessionId : UuidV7) : Except CallExc (Option SessionRow) :=
  respond json env clock db (kUploadSessionsPrefix ++ sessionId.str.toList) >>=
    getFound json "upload_session_not_found" (MetadataReply.parseUploadSession json)

def getGcRun (runId : UuidV7) : Except CallExc (Option GcRun) :=
  respond json env clock db (kGcRunsPrefix ++ runId.str.toList) >>=
    getFound json "gc_run_not_found" (MetadataReply.getGcRun json runId)

def getReplicationRun (runId : UuidV7) : Except CallExc (Option ReceivedRun) :=
  respond json env clock db (kReplicationRunsPrefix ++ runId.str.toList) >>=
    getFound json "replication_run_not_found" (ReplicationRunResponse.parse json runId)

def getStorageNode (nodeId : String) : Except CallExc (Option StorageNode) := do
  failIf (nodeIdInvalid nodeId) (.client (.invalidArgument "node_id is invalid"))
  let response ← respond json env clock db (kStorageNodesPrefix ++ nodeId.toList)
  getFound json "storage_node_not_found" (MetadataReply.getStorageNode json) response

def listStorageNodes : Except CallExc (List StorageNode) :=
  respond json env clock db kStorageNodesCollection >>=
    getAll json (MetadataReply.listStorageNodes json)

def getLifecyclePolicy (policyId : UuidV7) : Except CallExc (Option LifecyclePolicy) :=
  respond json env clock db (kLifecyclePoliciesPrefix ++ policyId.str.toList) >>=
    getFound json "lifecycle_policy_not_found" (MetadataReply.getLifecyclePolicy json policyId)

def getLifecycleRun (runId : UuidV7) : Except CallExc (Option LifecycleRun) :=
  respond json env clock db (kLifecycleRunsPrefix ++ runId.str.toList) >>=
    getFound json "lifecycle_run_not_found" (MetadataReply.getLifecycleRun json runId)

/-- What a call returns that reads the value from the response, unless it is too large. -/
def returned {α : Type} (target : List Char) (value : α) : Except CallExc α :=
  (respond json env clock db target).map fun _ => value

end

variable {json : JsonLibrary (List UInt8)} {env : Environment} {clock : Clock} {db : Db}

/-! ## Targets -/

theorem target_plain {path : List Char} (hquery : '?' ∉ path) (hfragment : '#' ∉ path) :
    (getRequest path).path = path ∧ (getRequest path).suffix = [] := by
  have hall : ∀ c ∈ path, decide (c ≠ '?' ∧ c ≠ '#') = true := fun c hc =>
    decide_eq_true ⟨fun heq => hquery (heq ▸ hc), fun heq => hfragment (heq ▸ hc)⟩
  exact ⟨List.takeWhile_eq_self_iff.mpr hall, List.dropWhile_eq_nil_iff.mpr hall⟩

theorem itemTarget {before : List Char} {id : String} (hbefore : '?' ∉ before ∧ '#' ∉ before)
    (hid : Plain id.toList) :
    ItemPath (getRequest (before ++ id.toList)) before id [] ∧
      (getRequest (before ++ id.toList)).suffix = [] ∧
      ¬(getRequest (before ++ id.toList)).hasFragment := by
  obtain ⟨hpath, hsuffix⟩ := target_plain
    (List.not_mem_append hbefore.1 (hid.notMem (by decide)))
    (List.not_mem_append hbefore.2 (hid.notMem (by decide)))
  refine ⟨⟨by rw [hpath, List.append_nil], hid.notMem (by decide)⟩, hsuffix, ?_⟩
  rw [Request.hasFragment, hsuffix]
  simp

theorem plain_nodeId {nodeId : String} (h : nodeIdInvalid nodeId = false) :
    Plain nodeId.toList := by
  simp only [nodeIdInvalid, Bool.or_eq_false_iff, nodeIdCharacterInvalid, Bool.not_eq_false',
    List.all_eq_true] at h
  intro c hc hmem
  have hchar := h.2 c hc
  simp only [List.mem_cons, List.not_mem_nil, or_false] at hmem
  rcases hmem with rfl | rfl | rfl | rfl | rfl <;> exact absurd hchar (by decide)

theorem responseTo_routed {target : List Char} {e : Endpoint} (h : e.Routed (getRequest target)) :
    responseTo json env clock db target =
      (toResponse (dispatch env json clock (getRequest target) e db).1).wire env json := by
  rw [responseTo, handleRequest, route_eq_ok_iff.mpr h]
  rfl

/-! ## Handlers -/

theorem readRecord_fst {α : Type} (find : Db → Option α) (missing : Stop) (payload : α → Payload) :
    ((do
      let found ← read find
      let record ← check (orFail found missing)
      pure (payload record) : Handler) db).1 = (orFail (find db) missing).map payload := by
  rw [read_bind]
  cases find db <;> rfl

theorem constructUuid_str (id : UuidV7) : constructUuid id.str = .ok id := by
  rw [constructUuid, UuidV7.parse_str]
  rfl

theorem withUuid {α : Type} (id : UuidV7) (handler : UuidV7 → Stateful Db Stop α) :
    (check (constructUuid id.str) >>= handler) db = handler id db := by
  rw [constructUuid_str]
  rfl

/-! ## Responses -/

theorem getFound_answer {α β : Type} {found : Option α} {payload : α → Payload} {view : α → β}
    {code : String} {parse : List UInt8 → Except ClientExc β}
    (hread : ∀ record, found = some record →
      ((HttpResponse.succeeded (payload record)).wire env json).status = 200 ∧
        parse (responseBody env json (payload record)) = .ok (view record)) :
    getFound json code parse
        ((toResponse ((orFail found (notFound code)).map payload)).wire env json) =
      .ok (found.map view) := by
  cases found with
  | none =>
      have hcode : NodeClient.extractErrorCode json
          (json.serialize (.object [("error", .string code)])) = code := by
        rw [NodeClient.extractErrorCode, json.parse_serialize]
        simp
      have hresponse : (toResponse ((orFail (none : Option α) (notFound code)).map payload)).wire
          env json = jsonResponse json 404 (.object [("error", .string code)]) := rfl
      rw [hresponse, getFound, jsonResponse, if_neg (show ¬404 = 200 by decide),
        if_pos ⟨rfl, hcode⟩]
      rfl
  | some record =>
      obtain ⟨hstatus, hparse⟩ := hread record rfl
      have hresponse : (toResponse ((orFail (some record) (notFound code)).map payload)).wire
          env json = (HttpResponse.succeeded (payload record)).wire env json := rfl
      rw [responseBody] at hparse
      rw [hresponse, getFound, if_pos hstatus, hparse]
      rfl

theorem getFound_routed {α β : Type} {found : Option α} {payload : α → Payload} {view : α → β}
    {code : String} {parse : List UInt8 → Except ClientExc β} {target : List Char} (e : Endpoint)
    (hrouted : e.Routed (getRequest target))
    (hhandler : (dispatch env json clock (getRequest target) e db).1 =
      (orFail found (notFound code)).map payload)
    (hread : ∀ record, found = some record →
      ((HttpResponse.succeeded (payload record)).wire env json).status = 200 ∧
        parse (responseBody env json (payload record)) = .ok (view record)) :
    (respond json env clock db target >>= getFound json code parse) =
      returned json env clock db target (found.map view) := by
  refine receive_bind ?_
  rw [responseTo_routed hrouted, hhandler]
  exact getFound_answer hread

theorem getFound_record {α : Type} {found : Option α} {payload : α → Payload}
    {code : String} {parse : List UInt8 → Except ClientExc α} {target : List Char} (e : Endpoint)
    (hrouted : e.Routed (getRequest target))
    (hhandler : (dispatch env json clock (getRequest target) e db).1 =
      (orFail found (notFound code)).map payload)
    (hread : ∀ record, found = some record →
      ((HttpResponse.succeeded (payload record)).wire env json).status = 200 ∧
        parse (responseBody env json (payload record)) = .ok record) :
    (respond json env clock db target >>= getFound json code parse) =
      returned json env clock db target found := by
  have hview : (respond json env clock db target >>= getFound json code parse) =
      returned json env clock db target (found.map id) :=
    getFound_routed e hrouted hhandler hread
  rwa [Option.map_id] at hview

/-! ## What the calls return -/

theorem getUploadSession_eq (hrecords : RecordsRead env json db)
    (hparents : ∀ row ∈ db.uploadSessions, reconstructUploadSession row = .ok row)
    (sessionId : UuidV7) :
    getUploadSession json env clock db sessionId =
      returned json env clock db (kUploadSessionsPrefix ++ sessionId.str.toList)
        (db.uploadSessions.find? sessionId) := by
  obtain ⟨hpath, hsuffix, -⟩ :=
    @itemTarget kUploadSessionsPrefix sessionId.str ⟨by decide, by decide⟩ (plain_str sessionId)
  have hhandler : (handleGetUploadSession sessionId.str db).1 =
      (orFail (db.uploadSessions.find? sessionId) (notFound "upload_session_not_found")).map
        .uploadSession := by
    rw [handleGetUploadSession, withUuid]
    cases hfind : db.uploadSessions.find? sessionId with
    | none =>
        have hquery : Service.getUploadSession db sessionId = .ok none := by
          rw [Service.getUploadSession, hfind]
        rw [bind_of_ok (query_eq_ok.mpr hquery)]
        rfl
    | some row =>
        have hquery : Service.getUploadSession db sessionId = .ok (some row) := by
          rw [Service.getUploadSession, hfind]
          simp only [hparents row (Table.mem_of_find? hfind), Except.map]
        rw [bind_of_ok (query_eq_ok.mpr hquery)]
        rfl
  exact getFound_record (.getUploadSession sessionId.str)
    ⟨.inl rfl, ⟨hpath, hsuffix⟩, .inl (isUuid_str sessionId)⟩ hhandler
    fun row hfind => ⟨rfl, hrecords.uploadSessions row (Table.mem_of_find? hfind)⟩

theorem getGcRun_eq (hrecords : RecordsRead env json db) (runId : UuidV7) :
    getGcRun json env clock db runId =
      returned json env clock db (kGcRunsPrefix ++ runId.str.toList)
        (db.gcRuns.find? runId) := by
  obtain ⟨hpath, hsuffix, -⟩ :=
    @itemTarget kGcRunsPrefix runId.str ⟨by decide, by decide⟩ (plain_str runId)
  have hhandler : (handleGetGcRun runId.str db).1 =
      (orFail (db.gcRuns.find? runId) (notFound "gc_run_not_found")).map .gcRun := by
    rw [handleGetGcRun, withUuid]
    exact readRecord_fst _ _ _
  refine getFound_record (.getGcRun runId.str)
    ⟨.inl rfl, ⟨hpath, hsuffix⟩, .inl (isUuid_str runId)⟩ hhandler fun run hfind => ⟨rfl, ?_⟩
  obtain rfl : run.runId = runId := Table.key_of_find? hfind
  exact hrecords.gcRuns run (Table.mem_of_find? hfind)

theorem getReplicationRun_eq (hrecords : RecordsRead env json db) (runId : UuidV7) :
    getReplicationRun json env clock db runId =
      returned json env clock db (kReplicationRunsPrefix ++ runId.str.toList)
        ((db.replicationRuns.find? runId).map MetadataReply.receivedRun) := by
  obtain ⟨hpath, -, -⟩ :=
    @itemTarget kReplicationRunsPrefix runId.str ⟨by decide, by decide⟩ (plain_str runId)
  have hhandler : (handleGetReplicationRun runId.str db).1 =
      (orFail (db.replicationRuns.find? runId) (notFound "replication_run_not_found")).map
        .replicationRun := by
    rw [handleGetReplicationRun, withUuid]
    exact readRecord_fst _ _ _
  refine getFound_routed (.getReplicationRun runId.str) ⟨.inl rfl, hpath, .inr trivial⟩ hhandler
    fun run hfind => ⟨rfl, ?_⟩
  obtain rfl : run.runId = runId := Table.key_of_find? hfind
  exact hrecords.replicationRuns run (Table.mem_of_find? hfind)

theorem getLifecyclePolicy_eq (hrecords : RecordsRead env json db)
    (hvalid : ∀ policy ∈ db.lifecyclePolicies, validateLifecyclePolicy policy = .ok ())
    (policyId : UuidV7) :
    getLifecyclePolicy json env clock db policyId =
      returned json env clock db (kLifecyclePoliciesPrefix ++ policyId.str.toList)
        (db.lifecyclePolicies.find? policyId) := by
  obtain ⟨hpath, -, hfragment⟩ :=
    @itemTarget kLifecyclePoliciesPrefix policyId.str ⟨by decide, by decide⟩ (plain_str policyId)
  have hhandler : (handleGetLifecyclePolicy policyId.str db).1 =
      (orFail (db.lifecyclePolicies.find? policyId) (notFound "lifecycle_policy_not_found")).map
        .lifecyclePolicy := by
    rw [handleGetLifecyclePolicy, withUuid]
    exact readRecord_fst _ _ _
  refine getFound_record (.getLifecyclePolicy policyId.str)
    ⟨.inl rfl, ⟨hpath, hfragment⟩, .inl (isUuid_str policyId)⟩ hhandler
    fun policy hfind => ⟨?_, ?_⟩
  · obtain ⟨body, hbody, -⟩ := @MetadataReply.getLifecyclePolicy_wire json _
      (hvalid policy (Table.mem_of_find? hfind))
    simp only [HttpResponse.wire, payloadToJson, hbody]
    rfl
  · obtain rfl : policy.policyId = policyId := Table.key_of_find? hfind
    exact hrecords.lifecyclePolicies policy (Table.mem_of_find? hfind)

theorem getLifecycleRun_eq (hrecords : RecordsRead env json db) (runId : UuidV7) :
    getLifecycleRun json env clock db runId =
      returned json env clock db (kLifecycleRunsPrefix ++ runId.str.toList)
        ((db.lifecycleRuns.find? runId).map LifecycleRunRow.run) := by
  obtain ⟨hpath, -, hfragment⟩ :=
    @itemTarget kLifecycleRunsPrefix runId.str ⟨by decide, by decide⟩ (plain_str runId)
  have hhandler : (handleGetLifecycleRun runId.str db).1 =
      (orFail (db.lifecycleRuns.find? runId) (notFound "lifecycle_run_not_found")).map
        fun row => .lifecycleRun row.run := by
    rw [handleGetLifecycleRun, withUuid]
    exact readRecord_fst _ _ _
  refine getFound_routed (.getLifecycleRun runId.str)
    ⟨.inl rfl, ⟨hpath, hfragment⟩, .inl (isUuid_str runId)⟩ hhandler fun row hfind => ⟨rfl, ?_⟩
  have hkey : row.runId = runId := Table.key_of_find? hfind
  obtain rfl : row.run.runId = runId := hkey
  exact hrecords.lifecycleRuns row (Table.mem_of_find? hfind)

theorem getStorageNode_eq (hrecords : RecordsRead env json db) {nodeId : String}
    (hnodeId : nodeIdInvalid nodeId = false) :
    getStorageNode json env clock db nodeId =
      returned json env clock db (kStorageNodesPrefix ++ nodeId.toList)
        (db.storageNodes.find? nodeId) := by
  obtain ⟨hpath, -, hfragment⟩ :=
    @itemTarget kStorageNodesPrefix nodeId ⟨by decide, by decide⟩ (plain_nodeId hnodeId)
  rw [getStorageNode, failIf_of_false (by simp [hnodeId]), ok_bind]
  have hhandler : (handleGetStorageNode nodeId db).1 =
      (orFail (db.storageNodes.find? nodeId) (notFound "storage_node_not_found")).map
        .storageNode := by
    rw [handleGetStorageNode]
    exact readRecord_fst _ _ _
  exact getFound_record (.getStorageNode nodeId) ⟨.inl rfl, ⟨hpath, hfragment⟩, .inl hnodeId⟩
    hhandler fun node hfind => ⟨rfl, hrecords.storageNode node (Table.mem_of_find? hfind)⟩

theorem listStorageNodes_eq (hrecords : RecordsRead env json db) :
    listStorageNodes json env clock db =
      returned json env clock db kStorageNodesCollection (Push.listStorageNodes env db) := by
  have hpath := (target_plain (show '?' ∉ kStorageNodesCollection by decide) (by decide)).1
  have hhandler : (dispatch env json clock (getRequest kStorageNodesCollection) .listStorageNodes
      db).1 = .ok (.storageNodes (Push.listStorageNodes env db)) := rfl
  have hread := hrecords.storageNodes (Push.listStorageNodes env db) fun node hnode =>
    Environment.mem_orderByText.mp hnode
  have hrouted : Endpoint.Routed (getRequest kStorageNodesCollection) .listStorageNodes :=
    ⟨.inl rfl, hpath, .inl trivial⟩
  have hstatus : ((toResponse (.ok (.storageNodes (Push.listStorageNodes env db)))).wire
      env json).status = 200 := rfl
  refine receive_bind ?_
  rw [responseTo_routed hrouted, hhandler, getAll, if_pos hstatus]
  exact congrArg (Except.mapError CallExc.client) hread

end MetadataReads

/-! ## Reachable databases -/

/-- Each read call returns what the database holds, unless the response to it is too large. -/
structure ReadsReturn (json : JsonLibrary (List UInt8)) (env : Environment) (clock : Clock)
    (db : Db) : Prop where
  uploadSession : ∀ sessionId, MetadataReads.getUploadSession json env clock db sessionId =
    MetadataReads.returned json env clock db (kUploadSessionsPrefix ++ sessionId.str.toList)
      (db.uploadSessions.find? sessionId)
  gcRun : ∀ runId, MetadataReads.getGcRun json env clock db runId =
    MetadataReads.returned json env clock db (kGcRunsPrefix ++ runId.str.toList)
      (db.gcRuns.find? runId)
  replicationRun : ∀ runId, MetadataReads.getReplicationRun json env clock db runId =
    MetadataReads.returned json env clock db (kReplicationRunsPrefix ++ runId.str.toList)
      ((db.replicationRuns.find? runId).map MetadataReply.receivedRun)
  storageNode : ∀ nodeId, nodeIdInvalid nodeId = false →
    MetadataReads.getStorageNode json env clock db nodeId =
      MetadataReads.returned json env clock db (kStorageNodesPrefix ++ nodeId.toList)
        (db.storageNodes.find? nodeId)
  storageNodes : MetadataReads.listStorageNodes json env clock db =
    MetadataReads.returned json env clock db kStorageNodesCollection
      (Push.listStorageNodes env db)
  lifecyclePolicy : ∀ policyId, MetadataReads.getLifecyclePolicy json env clock db policyId =
    MetadataReads.returned json env clock db (kLifecyclePoliciesPrefix ++ policyId.str.toList)
      (db.lifecyclePolicies.find? policyId)
  lifecycleRun : ∀ runId, MetadataReads.getLifecycleRun json env clock db runId =
    MetadataReads.returned json env clock db (kLifecycleRunsPrefix ++ runId.str.toList)
      ((db.lifecycleRuns.find? runId).map LifecycleRunRow.run)

/-- A read call to a service with a reachable database returns what the database holds: no
record is refused or altered on the way. -/
theorem reads_over_http (json : JsonLibrary (List UInt8)) {env : Environment} (clock : Clock)
    {db : Db} (h : Reachable env db) : ReadsReturn json env clock db := by
  have hrecords := records_survive_wire env json h
  have hstored := reconstructUploadSession_stored h
  have hvalid := validPolicies_of_reachable h
  constructor
  case uploadSession => exact MetadataReads.getUploadSession_eq hrecords hstored
  case gcRun => exact MetadataReads.getGcRun_eq hrecords
  case replicationRun => exact MetadataReads.getReplicationRun_eq hrecords
  case storageNode => exact fun _ hnodeId => MetadataReads.getStorageNode_eq hrecords hnodeId
  case storageNodes => exact MetadataReads.listStorageNodes_eq hrecords
  case lifecyclePolicy => exact MetadataReads.getLifecyclePolicy_eq hrecords hvalid
  case lifecycleRun => exact MetadataReads.getLifecycleRun_eq hrecords

/-- The answers of the sample service are short enough. -/
theorem reads_over_http_afterPush :
    let db := afterOps Metadata.Sample.env .initial
      (Metadata.Sample.pushOps ++ Metadata.Sample.repairOps ++ Metadata.Sample.retireOps)
    ReadsReturn treeJson Metadata.Sample.env (Clock.mk 0 0) db ∧
      MetadataReads.listStorageNodes treeJson Metadata.Sample.env (Clock.mk 0 0) db =
        .ok [Metadata.Sample.node] ∧
      MetadataReads.getLifecyclePolicy treeJson Metadata.Sample.env (Clock.mk 0 0) db
        Metadata.Sample.policy.policyId = .ok (some Metadata.Sample.policy) := by
  intro db
  have hreads : ReadsReturn treeJson Metadata.Sample.env (Clock.mk 0 0) db :=
    reads_over_http treeJson (Clock.mk 0 0) (reachable_afterOps _ _)
  have hnodes : (MetadataReads.listStorageNodes treeJson Metadata.Sample.env (Clock.mk 0 0)
      db).toOption = some [Metadata.Sample.node] := by
    decide +kernel
  have hpolicy : db.lifecyclePolicies.find? Metadata.Sample.policy.policyId =
      some Metadata.Sample.policy := by
    decide +kernel
  have hanswer : (MetadataReads.respond treeJson Metadata.Sample.env (Clock.mk 0 0) db
      (kLifecyclePoliciesPrefix ++ Metadata.Sample.policy.policyId.str.toList)).toOption.isSome =
        true := by
    decide +kernel
  obtain ⟨response, hresponse⟩ := Option.isSome_iff_exists.mp hanswer
  refine ⟨hreads, eq_ok_of_toOption hnodes, ?_⟩
  rw [hreads.lifecyclePolicy, MetadataReads.returned, eq_ok_of_toOption hresponse, hpolicy]
  rfl

end AiArtifactStore.Service
