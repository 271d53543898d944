import AiArtifactStore.Metadata.SessionPlacement
import AiArtifactStore.Push.Command

/-!
# Retries of a committed push

What the command does when the session it names is committed.  It builds the client
pool of the stored placement before it finds out that no storage is needed.
-/

namespace AiArtifactStore.Push

open AiArtifactStore.Foundation
open AiArtifactStore.Identity
open AiArtifactStore.Metadata
open AiArtifactStore.Client

def Describes (env : Environment) (session : UploadSession) (input : List UInt8)
    (d : ObjectLayoutDescriptor) : Prop :=
  ∃ chunkFeed, makeChunkFeed session = .ok chunkFeed ∧
    describe env session input ((chunkFeed.allChunks input).map (chunkRef env)) = .ok d

def NoneDisabled (db : Db) (nodeIds : List String) : Prop :=
  ∀ node ∈ db.storageNodes, node.nodeId ∈ nodeIds → node.state ≠ .disabled

variable {env : Environment} {db : Db} {services : Services} {row : SessionRow}
  {d : ObjectLayoutDescriptor}

theorem describes_of_push {engine : PushEngine} {sessionId : UuidV7} {source : Option (List UInt8)}
    {pushContext : PushContext} {start done : PushState} {prepared : PreparedPush}
    (hpush : engine.push services sessionId source = .ok (pushContext, start))
    (hrun : PushState.Runs env pushContext start done)
    (hreturns : done.returns env pushContext = some (.ok prepared)) :
    ∃ input, source = some input ∧
      Describes env pushContext.session input prepared.layoutDescriptor := by
  obtain ⟨chunkFeed, input, hsource, hstarted⟩ := push_started hpush
  exact ⟨input, hsource, chunkFeed, hstarted.feed, (push_describes hstarted hrun hreturns).1⟩

/-! ## The client pool -/

theorem find?_listStorageNodes {nodeId : String} :
    (listStorageNodes env db).find? (fun node => node.nodeId = nodeId) =
      db.storageNodes.find? nodeId := by
  cases hfind : db.storageNodes.find? nodeId with
  | none =>
      rw [List.find?_eq_none]
      intro node hnode
      simpa using Table.find?_eq_none.mp hfind node (Environment.mem_orderByText.mp hnode)
  | some node =>
      obtain ⟨hnode, hid⟩ := Table.find?_eq_some.mp hfind
      cases hother : (listStorageNodes env db).find? fun node => node.nodeId = nodeId with
      | none =>
          have := List.find?_eq_none.mp hother node (Environment.mem_orderByText.mpr hnode)
          simp [hid] at this
      | some other =>
          have hotherId : other.nodeId = nodeId := by simpa using List.find?_some hother
          have hmem := Environment.mem_orderByText.mp (List.mem_of_find?_eq_some hother)
          rw [Table.key_inj hmem hnode (hotherId.trans hid.symm)]

theorem poolEntry_ok {nodeId : String} {node : StorageNode} (hvalid : EndpointsValid env db)
    (h : db.storageNodes.find? nodeId = some node) (hstate : node.state ≠ .disabled) :
    poolEntry env (listStorageNodes env db) nodeId = .ok ⟨nodeId, node.address, node.port⟩ := by
  obtain ⟨haddress, hnumeric, hport⟩ := hvalid node (Table.mem_of_find? h)
  have hendpoint : checkHttpEndpoint env node.address node.port = .ok () := by
    rw [checkHttpEndpoint, failIf_of_false haddress, ok_bind,
      failIf_of_false (not_not.mpr hnumeric), ok_bind, failIf_of_false hport]
  rw [poolEntry, find?_listStorageNodes, h, orFail_some, ok_bind, failIf_of_false hstate, ok_bind,
    hendpoint, ok_bind]

theorem poolEntry_disabled {nodeId : String} {node : StorageNode}
    (h : db.storageNodes.find? nodeId = some node) (hstate : node.state = .disabled) :
    poolEntry env (listStorageNodes env db) nodeId =
      .error (.runtimeError ("required storage node is disabled: " ++ nodeId)) := by
  rw [poolEntry, find?_listStorageNodes, h, orFail_some, ok_bind, failIf_of_true hstate, error_bind]

theorem poolEntry_nodeId {nodes : List StorageNode} {nodeId : String} {client : NodeEndpoint}
    (h : poolEntry env nodes nodeId = .ok client) : client.nodeId = nodeId := by
  simp only [poolEntry, bind_eq_ok, exists_unit] at h
  obtain ⟨node, -, -, -, h⟩ := h
  rw [← Except.ok.inj h]

theorem foldEach_addClient {clients pool : List NodeEndpoint}
    (hnonempty : ∀ client ∈ clients, client.nodeId ≠ "")
    (hnodup : ((pool ++ clients).map NodeEndpoint.nodeId).Nodup) :
    foldEach clients pool addClient = .ok (pool ++ clients) := by
  induction clients generalizing pool with
  | nil => simp [foldEach]
  | cons client clients ih =>
      have hfresh : client.nodeId ∉ pool.map NodeEndpoint.nodeId := by
        intro hmem
        rw [List.map_append, List.nodup_append] at hnodup
        exact hnodup.2.2 _ hmem client.nodeId (by simp) rfl
      have hadd : addClient pool client = .ok (pool ++ [client]) := by
        rw [addClient, failIf_of_false (hnonempty client (by simp)), ok_bind,
          failIf_of_false hfresh, ok_bind]
      have hrest : foldEach clients (pool ++ [client]) addClient = .ok (pool ++ [client] ++ clients) :=
        ih (fun other hother => hnonempty other (by simp [hother]))
          (by rwa [List.append_assoc, List.singleton_append])
      rw [foldEach]
      simp only [hadd]
      rw [hrest, List.append_assoc, List.singleton_append]

/-- Over the registered placement of a session, the pool can be built exactly when none of its
nodes is disabled. -/
theorem buildPoolForNodes_iff {session : UploadSession} (hvalid : EndpointsValid env db)
    (hregistered : ∀ nodeId ∈ session.placementNodeIds,
      ∃ node, db.storageNodes.find? nodeId = some node) :
    (∃ pool, buildPoolForNodes env (listStorageNodes env db) session.placementNodeIds = .ok pool) ↔
      NoneDisabled db session.placementNodeIds := by
  constructor
  · rintro ⟨pool, hpool⟩ node hnode hnodeId hdisabled
    obtain ⟨clients, hclients, -⟩ := bind_eq_ok.mp hpool
    obtain ⟨client, -, hentry⟩ := mapEach_mem hclients hnodeId
    rw [poolEntry_disabled (Table.find?_of_mem hnode) hdisabled] at hentry
    cases hentry
  · intro hnone
    have hentries : ∀ nodeId ∈ session.placementNodeIds,
        ∃ client, poolEntry env (listStorageNodes env db) nodeId = .ok client := by
      intro nodeId hnodeId
      obtain ⟨node, hnode⟩ := hregistered nodeId hnodeId
      have hkey : node.nodeId = nodeId := Table.key_of_find? hnode
      have hstate := hnone node (Table.mem_of_find? hnode) (by rwa [hkey])
      exact ⟨_, poolEntry_ok hvalid hnode hstate⟩
    obtain ⟨clients, hclients⟩ := exists_mapEach_ok hentries
    have hnames : clients.map NodeEndpoint.nodeId = session.placementNodeIds :=
      (map_of_mapEach (k := id) hclients fun _ _ => poolEntry_nodeId).trans (List.map_id _)
    obtain ⟨-, -, -, -, hids, hsorted, -⟩ := UploadSession.valid_iff.mp session.valid
    have hnonempty : ∀ client ∈ clients, client.nodeId ≠ "" := by
      intro client hclient hempty
      have hmem : client.nodeId ∈ session.placementNodeIds :=
        hnames ▸ List.mem_map_of_mem hclient
      have hinvalid := hids _ hmem
      rw [hempty] at hinvalid
      revert hinvalid
      decide
    have hnodup : (clients.map NodeEndpoint.nodeId).Nodup := by
      rw [hnames]
      refine (List.isChain_iff_pairwise.mp hsorted).imp fun hlt heq => ?_
      rw [heq] at hlt
      exact String.lt_irrefl _ hlt
    have hpool : foldEach clients [] addClient = .ok ([] ++ clients) :=
      foldEach_addClient hnonempty hnodup
    exact ⟨clients, by rw [buildPoolForNodes, hclients, ok_bind, hpool, List.nil_append]⟩

/-! ## The requested session -/

theorem buildPushSession_same {options : PushOptions} {session : UploadSession}
    (h : session.toUploadSessionFields = pushSessionFields options session.placementNodeIds) :
    buildPushSession options session.placementNodeIds = .ok session := by
  obtain ⟨-, hnodes, -⟩ := UploadSession.valid_iff.mp session.valid
  have hvalid := session.valid
  rw [h] at hvalid
  rw [buildPushSession, if_neg hnodes]
  split
  · cases session
    rw [Except.ok.injEq, UploadSession.mk.injEq]
    exact h.symm
  · rename_i e he
    rw [hvalid] at he
    cases he

theorem creationIdentityMatches_self (session : UploadSession) :
    creationIdentityMatches session session = true := by
  simp [creationIdentityMatches]

/-! ## The requests -/

theorem getUploadSession_committed (h : CommittedAs env db row d) :
    MetadataClient.getUploadSession db row.sessionId = .ok (some row) := by
  simp only [MetadataClient.getUploadSession, h.session, h.reconstructs, Except.mapError, Except.map]

theorem handleCreateUploadSession_committed (h : CommittedAs env db row d)
    {requested : UploadSession} (hid : requested.sessionId = row.sessionId) :
    handleCreateUploadSession db requested = (.error .uploadSessionConflict, db) := by
  have hmatch : creationFieldsMatch row requested = false := by
    simp [creationFieldsMatch, h.status, UploadSessionStatus.state]
  rw [handleCreateUploadSession, hid, h.session]
  simp [h.reconstructs, hmatch]

namespace PushCommand

variable {ctx : CommandContext} {s : CommandState}

theorem send_bind {α : Type} {request : CommandRequest} {f : Unit → CommandM α} :
    (send request >>= f) s = f () (s.sends request) := rfl

theorem listNodes_bind {α : Type} {f : List StorageNode → CommandM α} :
    (listNodes env >>= f) s =
      f (listStorageNodes env s.services.db) (s.sends .listStorageNodes) := rfl

theorem engine_bind {α β : Type} {a : α} {result : Except EngineExc α} {f : α → CommandM β}
    (h : result = .ok a) : (engine result >>= f) s = f a s := by
  rw [h]
  rfl

theorem engine_bind_error {α β : Type} {e : EngineExc} {result : Except EngineExc α}
    {f : α → CommandM β} (h : result = .error e) :
    (engine result >>= f) s = (.error (.engine e), s) := by
  rw [h]
  rfl

theorem getSession_committed (h : CommittedAs env s.services.db row d) :
    getSession row.sessionId s = (.ok (some row), s.sends .getUploadSession) := by
  have hanswer := getUploadSession_committed h
  rw [getSession, send_bind, Stateful.read_bind]
  change engine (MetadataClient.getUploadSession s.services.db row.sessionId) _ = _
  rw [hanswer]
  rfl

theorem createSession_committed (h : CommittedAs env s.services.db row d) {requested : UploadSession}
    (hid : requested.sessionId = row.sessionId) :
    createSession requested s =
      (.ok (.error .uploadSessionConflict), s.sends .createUploadSession) := by
  have hanswer := handleCreateUploadSession_committed h hid
  rw [createSession, send_bind, Stateful.read_bind, Stateful.update_bind]
  change (Except.ok (handleCreateUploadSession s.services.db requested).1,
    { s.sends .createUploadSession with
      services := s.services.setDb (handleCreateUploadSession s.services.db requested).2 }) = _
  rw [hanswer]
  rfl

/-! ## The start -/

structure Rerun (ctx : CommandContext) (db : Db) (row : SessionRow) (d : ObjectLayoutDescriptor) :
    Prop where
  identity : row.session.toUploadSessionFields =
    pushSessionFields ctx.options row.session.placementNodeIds
  committed : CommittedAs ctx.env db row d
  file : ∃ reads, ctx.reads = some reads ∧ (∀ data ∈ reads, data ≠ []) ∧
    Describes ctx.env row.session reads.flatten d

theorem Rerun.sessionId (h : Rerun ctx db row d) : ctx.options.sessionId = row.sessionId :=
  (congrArg UploadSessionFields.sessionId h.identity).symm

theorem Rerun.placement (h : Rerun ctx db row d) (nodes : List StorageNode) :
    choosePlacement ctx.options nodes (some row) = .ok row.session.placementNodeIds := by
  have hfactor : row.session.replicationFactor = ctx.options.replicationFactor :=
    congrArg UploadSessionFields.replicationFactor h.identity
  rw [choosePlacement, failIf_of_false (not_not.mpr hfactor), ok_bind]

theorem Rerun.prepares (h : Rerun ctx db row d) :
    ∃ prepared, prepareCommittedRetry ctx.env row.sessionId row ctx.reads = .ok prepared ∧
      prepared.sessionId = row.sessionId ∧ prepared.layoutDescriptor = d := by
  obtain ⟨reads, hfile, hreads, chunkFeed, hfeed, hd⟩ := h.file
  rw [hfile]
  exact prepareCommittedRetry_ok rfl h.committed.status hfeed hreads hd

theorem retryCommitted_eq {prepared : PreparedPush} (h : Rerun ctx s.services.db row d)
    (hprepared : prepareCommittedRetry ctx.env row.sessionId row ctx.reads = .ok prepared) :
    retryCommitted ctx row.session s = (.ok prepared, s.sends .getUploadSession) := by
  have hbranch : row.status.state = .committed ∧
      creationIdentityMatches row.session row.session = true :=
    ⟨by rw [h.committed.status, UploadSessionStatus.state], creationIdentityMatches_self _⟩
  rw [retryCommitted, h.sessionId, Stateful.bind_of_ok (getSession_committed h.committed)]
  simp only [if_pos hbranch, hprepared]
  rfl

theorem establish_committed {prepared : PreparedPush} {pool : List NodeEndpoint}
    (h : Rerun ctx s.services.db row d)
    (hprepared : prepareCommittedRetry ctx.env row.sessionId row ctx.reads = .ok prepared) :
    establish ctx pool row.session s =
      (.ok (.prepared prepared), (s.sends .createUploadSession).sends .getUploadSession) := by
  have hcreate := createSession_committed h.committed rfl
  have hretry : retryCommitted ctx row.session (s.sends .createUploadSession) = _ :=
    retryCommitted_eq (s := s.sends .createUploadSession) h hprepared
  rw [establish, Stateful.bind_of_ok hcreate]
  simp only
  rw [Stateful.bind_of_ok hretry]
  rfl

/-- The pool for the stored placement is built before the session is offered. -/
theorem startPush_pool (h : Rerun ctx s.services.db row d) :
    startPush ctx s =
      (engine (buildPoolForNodes ctx.env (listStorageNodes ctx.env s.services.db)
        row.session.placementNodeIds) >>= fun pool => do
          let session ← engine (buildPushSession ctx.options row.session.placementNodeIds)
          let upload ← establish ctx pool session
          pure (session, upload))
        ((s.sends .listStorageNodes).sends .getUploadSession) := by
  have hsession : getSession row.sessionId (s.sends .listStorageNodes) = _ :=
    getSession_committed (s := s.sends .listStorageNodes) h.committed
  rw [startPush, listNodes_bind, h.sessionId, Stateful.bind_of_ok hsession,
    engine_bind (h.placement _)]

theorem startPush_prepared {prepared : PreparedPush} {pool : List NodeEndpoint}
    (h : Rerun ctx s.services.db row d)
    (hpool : buildPoolForNodes ctx.env (listStorageNodes ctx.env s.services.db)
      row.session.placementNodeIds = .ok pool)
    (hprepared : prepareCommittedRetry ctx.env row.sessionId row ctx.reads = .ok prepared) :
    startPush ctx s = (.ok (row.session, .prepared prepared),
      (((s.sends .listStorageNodes).sends .getUploadSession).sends .createUploadSession).sends
        .getUploadSession) := by
  have hestablish : establish ctx pool row.session
      ((s.sends .listStorageNodes).sends .getUploadSession) = _ :=
    establish_committed (s := (s.sends .listStorageNodes).sends .getUploadSession) h hprepared
  rw [startPush_pool h, engine_bind hpool, engine_bind (buildPushSession_same h.identity),
    Stateful.bind_of_ok hestablish]
  rfl

theorem startPush_noPool {e : EngineExc} (h : Rerun ctx s.services.db row d)
    (hpool : buildPoolForNodes ctx.env (listStorageNodes ctx.env s.services.db)
      row.session.placementNodeIds = .error e) :
    startPush ctx s =
      (.error (.engine e), (s.sends .listStorageNodes).sends .getUploadSession) := by
  rw [startPush_pool h, engine_bind_error hpool]

/-! ## The finalization -/

theorem finishPush_committed {prepared : PreparedPush} {session : UploadSession}
    (h : CommittedAs ctx.env s.services.db row d)
    (hretired : ¬s.services.db.Retired ((finalVersion row d).versionId ctx.env))
    (hid : prepared.sessionId = row.sessionId) (hd : prepared.layoutDescriptor = d) :
    finishPush ctx session prepared s =
      (.ok ⟨row.sessionId, ctx.options.artifactId, session.targetNodeId,
        (finalVersion row d).versionId ctx.env, d.objectId, d.layoutId ctx.env, prepared.stats⟩,
        s.sends .finalizeUpload) := by
  have hsame : finalizeUpload ctx.env ctx.now s.services.db row.sessionId d =
      .ok (finalResult ctx.env row d, s.services.db) := finalizeUpload_same h hretired
  have hanswer : (finalizeUpload ctx.env ctx.now (s.sends .finalizeUpload).services.db
      row.sessionId d).mapError (fun e => EngineExc.client (.remoteApi e)) =
        .ok (finalResult ctx.env row d, s.services.db) := by
    simp only [CommandState.sends, hsame, Except.mapError]
  have hechoed : ¬(finalResult ctx.env row d).sessionId ≠ row.sessionId := not_not.mpr rfl
  have hfinalize : finalize ctx prepared s =
      (.ok (finalResult ctx.env row d), s.sends .finalizeUpload) := by
    rw [finalize, send_bind, Stateful.read_bind, hid, hd, engine_bind hanswer,
      Stateful.update_bind, engine_bind (failIf_of_false hechoed)]
    rfl
  rw [finishPush, Stateful.bind_of_ok hfinalize]
  simp [engine, Stateful.check, emitSuccessJson, failIf, hid, hd, finalResult, Except.mapError]

/-! ## The runs -/

theorem runs_of_error {e : CommandExc} {s₁ s' : CommandState}
    {result : Except CommandExc PushOutput} (hstart : startPush ctx s = (.error e, s₁)) :
    Runs ctx s result s' ↔ result = .error e ∧ s' = s₁ := by
  constructor
  · intro hruns
    cases hruns with
    | fails hfails =>
        rw [hstart] at hfails
        obtain ⟨herror, rfl⟩ := Prod.mk.inj hfails
        exact ⟨by rw [Except.error.inj herror], rfl⟩
    | retries hother => rw [hstart] at hother; cases hother
    | uploads hother => rw [hstart] at hother; cases hother
    | uploadThrows hother => rw [hstart] at hother; cases hother
  · rintro ⟨rfl, rfl⟩
    exact .fails hstart

theorem runs_of_prepared {session : UploadSession} {prepared : PreparedPush}
    {s₁ s' : CommandState} {result : Except CommandExc PushOutput}
    (hstart : startPush ctx s = (.ok (session, .prepared prepared), s₁)) :
    Runs ctx s result s' ↔ finishPush ctx session prepared s₁ = (result, s') := by
  constructor
  · intro hruns
    cases hruns with
    | fails hother => rw [hstart] at hother; cases hother
    | retries hretries hfinish =>
        rw [hstart] at hretries
        cases hretries
        exact hfinish
    | uploads hother => rw [hstart] at hother; cases hother
    | uploadThrows hother => rw [hstart] at hother; cases hother
  · exact .retries hstart

/-- Every run of the command prints the given result, sends nothing to a storage node and leaves
the services as they are. -/
def ReturnsCommitted (ctx : CommandContext) (services : Services) (result : FinalizeUploadResult) :
    Prop :=
  (∃ answer s', Runs ctx ⟨services, []⟩ answer s') ∧
    ∀ answer s', Runs ctx ⟨services, []⟩ answer s' →
      (∃ output, answer = .ok output ∧ output.versionId = result.versionId ∧
        output.objectId = result.objectId ∧ output.layoutId = result.layoutId) ∧
      .upload ∉ s'.requests ∧ s'.services = services

theorem Rerun.of_finalize {db₀ db₁ : Db} {now : Int} {result : FinalizeUploadResult}
    {reads : List (List UInt8)} (hreachable : Reachable ctx.env db₀)
    (hfinalize : serve ctx.env db₀ (.finalizeUpload now ctx.options.sessionId d) =
      (.ok (.finalized result), db₁))
    (hevolves : Evolves ctx.env (fun _ => True) db₁ db) (hretired : ¬db.Retired result.versionId)
    (hrow : db.uploadSessions.find? ctx.options.sessionId = some row)
    (hidentity : row.session.toUploadSessionFields =
      pushSessionFields ctx.options row.session.placementNodeIds)
    (hfile : ctx.reads = some reads ∧ ∀ data ∈ reads, data ≠ [])
    (hunchanged : Describes ctx.env row.session reads.flatten d) :
    Rerun ctx db row d ∧ result = finalResult ctx.env row d := by
  obtain ⟨committed, hid, hcommitted, rfl⟩ :=
    committedAs_of_ok (parentsDiffer_of_reachable hreachable) (finalizeUpload_of_serve hfinalize)
  have hlater := hcommitted.evolves hevolves hretired
  have hsession := hlater.session
  rw [hid, hrow] at hsession
  obtain rfl := Option.some.inj hsession
  exact ⟨⟨hidentity, hlater, reads, hfile.1, hfile.2, hunchanged⟩, rfl⟩

theorem returnsCommitted_of_pool (h : Rerun ctx services.db row d)
    (hretired : ¬services.db.Retired ((finalVersion row d).versionId ctx.env))
    (hpool : ∃ pool, buildPoolForNodes ctx.env (listStorageNodes ctx.env services.db)
      row.session.placementNodeIds = .ok pool) :
    ReturnsCommitted ctx services (finalResult ctx.env row d) := by
  obtain ⟨pool, hpool⟩ := hpool
  obtain ⟨prepared, hprepared, hid, hd⟩ := h.prepares
  have hstart := startPush_prepared (s := ⟨services, []⟩) h hpool hprepared
  generalize hsent : CommandState.sends _ _ = s₁ at hstart
  have hservices : s₁.services = services := hsent ▸ rfl
  have hrequests : .upload ∉ s₁.requests := by simp [← hsent, CommandState.sends]
  subst hservices
  have hfinish : finishPush ctx row.session prepared s₁ = _ :=
    finishPush_committed h.committed hretired hid hd
  refine ⟨⟨_, _, (runs_of_prepared hstart).mpr hfinish⟩, fun answer s' hruns => ?_⟩
  have hanswer := (runs_of_prepared hstart).mp hruns
  rw [hfinish] at hanswer
  obtain ⟨rfl, rfl⟩ := Prod.mk.inj hanswer
  exact ⟨⟨_, rfl, rfl, rfl, rfl⟩, by simpa [CommandState.sends] using hrequests, rfl⟩

theorem fails_of_noPool {e : EngineExc} (h : Rerun ctx services.db row d)
    (hpool : buildPoolForNodes ctx.env (listStorageNodes ctx.env services.db)
      row.session.placementNodeIds = .error e) :
    (∃ s', Runs ctx ⟨services, []⟩ (.error (.engine e)) s') ∧
      ∀ answer s', Runs ctx ⟨services, []⟩ answer s' → answer = .error (.engine e) := by
  have hstart := startPush_noPool (s := ⟨services, []⟩) h hpool
  exact ⟨⟨_, .fails hstart⟩, fun answer s' hruns => ((runs_of_error hstart).mp hruns).1⟩

/-- A rerun over a committed session returns the committed version without storage exactly when
no node of the stored placement is disabled. -/
theorem committedRetry_iff {db₀ db₁ : Db} {now : Int} {result : FinalizeUploadResult}
    {reads : List (List UInt8)} (hreachable : Reachable ctx.env db₀)
    (hfinalize : serve ctx.env db₀ (.finalizeUpload now ctx.options.sessionId d) =
      (.ok (.finalized result), db₁))
    (hevolves : Evolves ctx.env (fun _ => True) db₁ services.db)
    (hretired : ¬services.db.Retired result.versionId)
    (hrow : services.db.uploadSessions.find? ctx.options.sessionId = some row)
    (hidentity : row.session.toUploadSessionFields =
      pushSessionFields ctx.options row.session.placementNodeIds)
    (hfile : ctx.reads = some reads ∧ ∀ data ∈ reads, data ≠ [])
    (hunchanged : Describes ctx.env row.session reads.flatten d) :
    ReturnsCommitted ctx services result ↔
      NoneDisabled services.db row.session.placementNodeIds := by
  obtain ⟨hrerun, rfl⟩ :=
    Rerun.of_finalize hreachable hfinalize hevolves hretired hrow hidentity hfile hunchanged
  have hcommitted : Reachable ctx.env db₁ := by
    have hserved : Reachable ctx.env
        (serve ctx.env db₀ (.finalizeUpload now ctx.options.sessionId d)).2 := hreachable.serve
    rwa [hfinalize] at hserved
  have hlater : Reachable ctx.env services.db := hcommitted.evolves hevolves
  have hregistered := placementRegistered_of_reachable hlater row (Table.mem_of_find? hrow)
  rw [← buildPoolForNodes_iff (endpointsValid_of_reachable hlater) hregistered]
  constructor
  · rintro ⟨⟨answer, s', hruns⟩, hall⟩
    cases hpool : buildPoolForNodes ctx.env (listStorageNodes ctx.env services.db)
        row.session.placementNodeIds with
    | ok pool => exact ⟨pool, rfl⟩
    | error e =>
        obtain ⟨⟨output, houtput, -⟩, -⟩ := hall answer s' hruns
        rw [(fails_of_noPool hrerun hpool).2 answer s' hruns] at houtput
        cases houtput
  · exact returnsCommitted_of_pool hrerun hretired

end PushCommand

/-! ## A sample rerun -/

namespace Sample

open Metadata.Sample

def options : PushOptions :=
  ⟨session.sessionId, session.artifactId, 1, .fixedSize 4, none, metadata⟩

def commandContext : CommandContext := ⟨Metadata.Sample.env, options, 1, some [asciiBytes ['a']]⟩

/-- The services after the commit, once the only node has been registered again. -/
def committedServices (registered : StorageNode) : Services :=
  ⟨afterOps Metadata.Sample.env (afterOps Metadata.Sample.env Db.initial pushOps)
    [.registerStorageNode registered], fun _ => .empty⟩

def drainingNode : StorageNode := ⟨"n1", "127.0.0.1", 9001, .draining⟩

def disabledNode : StorageNode := { node with state := .disabled }

theorem evolves_committedServices (registered : StorageNode) :
    Evolves Metadata.Sample.env (fun _ => True) (afterOps Metadata.Sample.env Db.initial pushOps)
      (committedServices registered).db :=
  evolves_afterOps _ _ _ fun _ _ => trivial

theorem identity_options :
    session.toUploadSessionFields = pushSessionFields options session.placementNodeIds := rfl

theorem describes_sample :
    Describes Metadata.Sample.env session ([asciiBytes ['a']] : List (List UInt8)).flatten
      descriptor :=
  ⟨_, eq_ok_of_toOption (by rfl), eq_ok_of_toOption (by decide +kernel)⟩

theorem serve_finalizeUpload :
    serve Metadata.Sample.env (afterOps Metadata.Sample.env Db.initial pushOps.dropLast)
        (.finalizeUpload 0 options.sessionId descriptor) =
      (.ok (.finalized (finalResult Metadata.Sample.env ⟨session, .open⟩ descriptor)),
        afterOps Metadata.Sample.env Db.initial pushOps) :=
  Prod.ext (by decide +kernel) rfl

end Sample

open Sample Metadata.Sample in
theorem committedRetry_iff_sample :
    PushCommand.ReturnsCommitted commandContext (committedServices drainingNode)
        (finalResult Metadata.Sample.env ⟨session, .open⟩ descriptor) ↔
      NoneDisabled (committedServices drainingNode).db session.placementNodeIds := by
  have hretired : (committedServices drainingNode).db.isVersionRetired versionId = false := by
    decide +kernel
  have hrow : (committedServices drainingNode).db.uploadSessions.find? options.sessionId =
      some ⟨session, .committed versionId⟩ := by
    decide +kernel
  exact @PushCommand.committedRetry_iff _ _ _ commandContext _ _ _ _ _ (reachable_afterOps _ _)
    serve_finalizeUpload (evolves_committedServices drainingNode)
    (Db.isVersionRetired_eq_false.mp hretired) hrow identity_options
    ⟨rfl, by simp [asciiBytes]⟩ describes_sample

open Sample Metadata.Sample in
/-- Once the only node is disabled, the rerun fails at its client pool. -/
theorem committedRetry_disabled :
    (∃ row, (committedServices disabledNode).db.uploadSessions.find? options.sessionId = some row ∧
      row.status = .committed versionId ∧
      row.session.toUploadSessionFields =
        pushSessionFields options row.session.placementNodeIds) ∧
    ¬(committedServices disabledNode).db.Retired versionId ∧
    serve Metadata.Sample.env (afterOps Metadata.Sample.env Db.initial pushOps.dropLast)
        (.finalizeUpload 0 options.sessionId descriptor) =
      (.ok (.finalized (finalResult Metadata.Sample.env ⟨session, .open⟩ descriptor)),
        afterOps Metadata.Sample.env Db.initial pushOps) ∧
    Describes Metadata.Sample.env session ([asciiBytes ['a']] : List (List UInt8)).flatten
      descriptor ∧
    (∃ s', PushCommand.Runs commandContext ⟨committedServices disabledNode, []⟩
      (.error (.engine (.runtimeError "required storage node is disabled: n1"))) s') ∧
    ∀ answer s', PushCommand.Runs commandContext ⟨committedServices disabledNode, []⟩ answer s' →
      answer = .error (.engine (.runtimeError "required storage node is disabled: n1")) := by
  have hretired : (committedServices disabledNode).db.isVersionRetired versionId = false := by
    decide +kernel
  have hrow : (committedServices disabledNode).db.uploadSessions.find? options.sessionId =
      some ⟨session, .committed versionId⟩ := by
    decide +kernel
  have hnode : (committedServices disabledNode).db.storageNodes.find? "n1" = some disabledNode := by
    decide +kernel
  have hnotRetired := Db.isVersionRetired_eq_false.mp hretired
  have hrerun : PushCommand.Rerun commandContext (committedServices disabledNode).db
      ⟨session, .committed versionId⟩ descriptor :=
    (@PushCommand.Rerun.of_finalize _ _ _ commandContext _ _ _ _ _ (reachable_afterOps _ _)
      serve_finalizeUpload (evolves_committedServices disabledNode) hnotRetired hrow
      identity_options ⟨rfl, by simp [asciiBytes]⟩ describes_sample).1
  refine ⟨⟨_, hrow, rfl, rfl⟩, hnotRetired, serve_finalizeUpload, describes_sample, ?_⟩
  refine PushCommand.fails_of_noPool hrerun ?_
  have hentry : poolEntry commandContext.env
      (listStorageNodes commandContext.env (committedServices disabledNode).db) "n1" =
        .error (.runtimeError ("required storage node is disabled: " ++ "n1")) :=
    poolEntry_disabled hnode rfl
  have hplacement : session.placementNodeIds = ["n1"] := rfl
  rw [buildPoolForNodes, hplacement]
  simp only [mapEach, hentry]
  rfl

end AiArtifactStore.Push
