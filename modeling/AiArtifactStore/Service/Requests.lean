import AiArtifactStore.Metadata.RunSnapshots
import AiArtifactStore.Service.Policies
import AiArtifactStore.Service.Routing

/-!
# What a request does to the metadata

A request that gets a result has committed at most one service operation.  Every other
request, malformed or failing, leaves the metadata as they are, and so does every `GET`.
-/

namespace AiArtifactStore.Service

open AiArtifactStore.Foundation
open AiArtifactStore.Foundation.Stateful (check read Preserves)
open AiArtifactStore.Identity
open AiArtifactStore.Metadata
open AiArtifactStore.Client
open Handler

/-! ## Handlers that commit once -/

section

variable {α β : Type} {env : Environment} {db next : Db}

def Commits (env : Environment) (db next : Db) : Prop :=
  ∃ op reply, op.Routed ∧ transact env db op = .ok (reply, next)

/-- The metadata changes only together with a result, and then by one operation. -/
def CommitsOnce (env : Environment) (m : Stateful Db Stop α) (db : Db) : Prop :=
  (m db).2 = db ∨ (∃ a, (m db).1 = .ok a) ∧ Commits env db (m db).2

theorem commitsOnce_unchanged {m : Stateful Db Stop α} (h : (m db).2 = db) :
    CommitsOnce env m db :=
  .inl h

theorem commitsOnce_of_eq {m m' : Stateful Db Stop α} (heq : m db = m' db)
    (h : CommitsOnce env m' db) : CommitsOnce env m db := by
  rw [CommitsOnce, heq]
  exact h

/-- What only reads comes before the operation. -/
theorem commitsOnce_reading_bind {m : Stateful Db Stop α} {f : α → Stateful Db Stop β}
    (hm : (m db).2 = db) (h : ∀ a, m db = (.ok a, db) → CommitsOnce env (f a) db) :
    CommitsOnce env (m >>= f) db := by
  cases hrun : m db with
  | mk result next =>
      obtain rfl : next = db := by rwa [hrun] at hm
      cases result with
      | error stop => exact commitsOnce_unchanged (by rw [Stateful.bind_of_error hrun])
      | ok a => exact commitsOnce_of_eq (Stateful.bind_of_ok hrun) (h a hrun)

theorem commitsOnce_check_bind {x : Except Stop α} {f : α → Stateful Db Stop β}
    (h : ∀ a, x = .ok a → CommitsOnce env (f a) db) : CommitsOnce env (check x >>= f) db :=
  commitsOnce_reading_bind rfl fun a ha => h a (Stateful.check_eq_ok.mp ha).1

theorem query_eq_ok {run : Db → Except Exc α} {a : α} :
    query run db = (.ok a, db) ↔ run db = .ok a := by
  cases hrun : run db <;> simp [query, transaction, hrun, Except.map]

theorem query_snd (run : Db → Except Exc α) : (query run db).2 = db := by
  cases hrun : run db <;> simp [query, transaction, hrun, Except.map]

theorem commitsOnce_query_bind {run : Db → Except Exc α} {f : α → Stateful Db Stop β}
    (h : ∀ a, run db = .ok a → CommitsOnce env (f a) db) : CommitsOnce env (query run >>= f) db :=
  commitsOnce_reading_bind (query_snd run) fun a ha => h a (query_eq_ok.mp ha)

theorem commitsOnce_transaction {run : Db → Except Exc (α × Db)} {payload : α → β}
    (h : ∀ a next, run db = .ok (a, next) → next = db ∨ Commits env db next) :
    CommitsOnce env (transaction run >>= fun a => pure (payload a)) db := by
  cases hrun : run db with
  | error e =>
      have htransaction : transaction run db = (.error (.throw e), db) := by
        simp [transaction, hrun]
      exact .inl (by rw [Stateful.bind_of_error htransaction])
  | ok r =>
      have htransaction : transaction run db = (.ok r.1, r.2) := by
        simp [transaction, hrun]
      rw [CommitsOnce, Stateful.bind_of_ok htransaction]
      exact (h r.1 r.2 hrun).imp id fun hcommits => ⟨⟨_, rfl⟩, hcommits⟩

/-- A transaction after which the handler reads its own change and ends. -/
theorem commitsOnce_update {run : Db → Except Exc Db} {f : Unit → Stateful Db Stop β}
    (h : ∀ next, run db = .ok next →
      (next = db ∨ Commits env db next) ∧ ∃ b, f () next = (.ok b, next)) :
    CommitsOnce env (update run >>= f) db := by
  cases hrun : run db with
  | error e => exact .inl (by rw [Stateful.bind_of_error (update_of_error hrun)])
  | ok next =>
      obtain ⟨hcommits, b, hrest⟩ := h next hrun
      rw [CommitsOnce, Stateful.bind_of_ok (update_eq_ok (u := ()).mpr hrun), hrest]
      exact hcommits.imp id fun hcommits => ⟨⟨b, rfl⟩, hcommits⟩

/-- The `catch` clauses change neither the metadata nor a result. -/
theorem catching_fst_ok {caught : Exc → Option Failure} {body : Stateful Db Stop α} {a : α}
    (h : (body db).1 = .ok a) : (catching caught body db).1 = .ok a := by
  rw [catching_eq_ok.mpr (Prod.ext h rfl : body db = (.ok a, (body db).2))]

theorem catching_snd {caught : Exc → Option Failure} {body : Stateful Db Stop α} :
    (catching caught body db).2 = (body db).2 := by
  simp only [catching, Stateful.catching]
  cases body db with
  | mk result next =>
      cases result with
      | ok a => rfl
      | error stop =>
          cases stop with
          | respond failure => rfl
          | throw e =>
              cases hcaught : caught e with
              | none => simp [hcaught]
              | some failure => simp [hcaught, Stateful.throw]

theorem commitsOnce_catching {caught : Exc → Option Failure} {body : Stateful Db Stop α}
    (h : CommitsOnce env body db) : CommitsOnce env (catching caught body) db := by
  rw [CommitsOnce, catching_snd]
  rcases h with h | ⟨⟨a, ha⟩, hcommits⟩
  · exact .inl h
  · exact .inr ⟨⟨a, catching_fst_ok ha⟩, hcommits⟩

/-! ## Handlers that only read -/

theorem preserves_query {I : Db → Prop} (run : Db → Except Exc α) : Preserves I (query run) := by
  intro s hs
  rwa [query_snd]

theorem preserves_catching {I : Db → Prop} {caught : Exc → Option Failure}
    {body : Stateful Db Stop α} (h : Preserves I body) : Preserves I (catching caught body) := by
  intro s hs
  rw [catching_snd]
  exact h s hs

end

/-! ## Operations behind the handlers -/

section

variable {env : Environment} {db next : Db}

theorem commits_done (op : ServiceOp) {result : Except Exc Db} (hop : op.Routed)
    (htransact : transact env db op = done result) (h : result = .ok next) :
    Commits env db next :=
  ⟨op, .done, hop, htransact.trans (done_eq_ok.mpr ⟨h, rfl⟩)⟩

theorem commits_replyWith {α : Type} (op : ServiceOp) {reply : α → Reply}
    {result : Except Exc (α × Db)} {a : α} (hop : op.Routed)
    (htransact : transact env db op = replyWith reply result) (h : result = .ok (a, next)) :
    Commits env db next :=
  ⟨op, reply a, hop, htransact.trans (replyWith_eq_ok.mpr ⟨a, h, rfl⟩)⟩

theorem handleCreateUploadSession_commits {requested : UploadSession}
    {f : Handler} (hf : f db = (((Push.handleCreateUploadSession db requested).1.mapError createSessionStop).map
      .uploadSession, (Push.handleCreateUploadSession db requested).2)) :
    CommitsOnce env f db := by
  rw [CommitsOnce, hf]
  unfold Push.handleCreateUploadSession
  cases hfind : db.uploadSessions.find? requested.sessionId with
  | some stored =>
      simp only
      split
      · exact .inl rfl
      · split <;> exact .inl rfl
  | none =>
      simp only
      cases hcreate : createUploadSession db ⟨requested, .open⟩ with
      | error e => exact .inl rfl
      | ok next =>
          have hcommits : Commits env db next :=
            commits_done (.createUploadSession ⟨requested, .open⟩) trivial rfl hcreate
          have hreload : next.uploadSessions.find? requested.sessionId =
              some ⟨requested, .open⟩ := by
            have hfresh : db.uploadSessions.find?
                (SessionRow.mk requested .open).sessionId = none := hfind
            simp only [createUploadSession, bind_eq_ok, exists_unit, hfresh,
              insertUploadSession] at hcreate
            obtain ⟨-, -, -, -, -, -, -, -, -, -, -, -, -, hnext⟩ := hcreate
            obtain rfl := Except.ok.inj hnext
            exact (Table.find?_insert_new hfind).trans (if_pos rfl)
          simp only [hreload, orFail_some]
          exact .inr ⟨⟨_, rfl⟩, hcommits⟩

theorem handleNegotiateChunks_commits {sessionId : UuidV7} {chunks : List ChunkMetadata}
    {result : ChunkNegotiationResult}
    (h : Client.handleNegotiateChunks env db sessionId chunks = .ok (result, next)) :
    Commits env db next := by
  simp only [Client.handleNegotiateChunks, bind_eq_ok, exists_unit, mapError_eq_ok] at h
  obtain ⟨-, -, -, stored, -, row, -, -, ⟨batch, negotiated⟩, hnegotiate, h⟩ := h
  cases hconflict : batch.conflict with
  | some conflict => simp [hconflict] at h
  | none =>
      simp only [hconflict] at h
      obtain ⟨-, rfl⟩ := Prod.mk.inj (Except.ok.inj h)
      exact commits_replyWith (.negotiateChunks chunks) trivial rfl hnegotiate

/-- The reload of an aborted session succeeds, since its row had been read before. -/
theorem getUploadSession_aborted {sessionId : UuidV7} {row : SessionRow}
    (hread : getUploadSession db sessionId = .ok (some row))
    (h : abortUploadSession db sessionId = .ok next) :
    ∃ aborted, getUploadSession next sessionId = .ok (some aborted) := by
  unfold getUploadSession at hread
  unfold abortUploadSession at h
  cases hfind : db.uploadSessions.find? sessionId with
  | none => simp [hfind] at h
  | some stored =>
      cases hstatus : stored.status with
      | committed v => simp [hfind, hstatus] at h
      | aborted =>
          simp only [hfind, hstatus] at h
          obtain rfl := Except.ok.inj h
          exact ⟨row, by rw [getUploadSession, hfind]; simpa [hfind] using hread⟩
      | «open» =>
          simp only [hfind, hstatus] at h
          obtain rfl := Except.ok.inj h
          have hkey : stored.sessionId = sessionId := Table.key_of_find? hfind
          have hreload : (db.uploadSessions.upsert { stored with status := .aborted }).find?
              sessionId = some { stored with status := .aborted } := by
            rw [Table.find?_upsert]
            exact if_pos hkey
          refine ⟨{ stored with status := .aborted }, ?_⟩
          rw [getUploadSession]
          simp only [hreload]
          simp [reconstructUploadSession, failIf, UploadSessionStatus.finalizedVersionId, Except.map]

end

/-! ## Requests -/

section

variable {env : Environment} {json : JsonLibrary (List UInt8)} {clock : Clock} {request : Request}
  {db : Db} {e : Endpoint}

theorem requireVersion_snd (versionId : ContentId) : (requireVersion env versionId db).2 = db :=
  ((preserves_query _).bind fun _ => .check _ : Preserves (fun s => s = db) _) db rfl

/-- The handlers of `GET` requests, and of every request without a route, only read. -/
theorem dispatch_get_preserves {I : Db → Prop} (hmethod : e.method = .get) :
    Preserves I (dispatch env json clock request e) := by
  cases e <;> cases hmethod
  case health => exact .pure _
  case listStorageNodes => exact (Preserves.read _).bind fun _ => .pure _
  case getStorageNode => exact (Preserves.read _).bind fun _ => (Preserves.check _).bind fun _ => .pure _
  case getReplicationRun =>
    exact (Preserves.check _).bind fun _ => (Preserves.read _).bind fun _ =>
      (Preserves.check _).bind fun _ => .pure _
  case getReplicationPlan =>
    exact (Preserves.check _).bind fun _ => preserves_catching <|
      (preserves_query _).bind fun _ => .pure _
  case getRestorePlan => exact preserves_catching <| (preserves_query _).bind fun _ => .pure _
  case getMultiNodeRestorePlan =>
    exact preserves_catching <| (preserves_query _).bind fun _ => .pure _
  case getLifecyclePolicy =>
    exact (Preserves.check _).bind fun _ => (Preserves.read _).bind fun _ =>
      (Preserves.check _).bind fun _ => .pure _
  case getLifecycleRun =>
    exact (Preserves.check _).bind fun _ => (Preserves.read _).bind fun _ =>
      (Preserves.check _).bind fun _ => .pure _
  case listLifecycleDecisions =>
    exact (Preserves.check _).bind fun _ => (Preserves.check _).bind fun _ => preserves_catching <|
      (preserves_query _).bind fun _ => .pure _
  case getVersionPin =>
    exact preserves_catching <| ((preserves_query _).bind fun _ => .check _).bind fun _ =>
      (Preserves.read _).bind fun _ => .pure _
  case getUploadSession =>
    exact (Preserves.check _).bind fun _ => (preserves_query _).bind fun _ =>
      (Preserves.check _).bind fun _ => .pure _
  case getStorageLocations => exact (Preserves.read _).bind fun _ => .pure _
  case getGcRun =>
    exact (Preserves.check _).bind fun _ => (Preserves.read _).bind fun _ =>
      (Preserves.check _).bind fun _ => .pure _

theorem dispatch_commitsOnce (hrouted : e.Routed request) :
    CommitsOnce env (dispatch env json clock request e) db := by
  by_cases hget : e.method = .get
  · exact commitsOnce_unchanged (dispatch_get_preserves (I := fun s => s = db) hget db rfl)
  cases e <;> first | exact absurd rfl hget | skip
  case putStorageNode nodeId =>
    refine commitsOnce_check_bind fun body _ => commitsOnce_catching ?_
    refine commitsOnce_check_bind fun state _ => commitsOnce_update fun next hrun => ?_
    exact ⟨.inr (commits_done (.registerStorageNode _) trivial rfl hrun), _, rfl⟩
  case startReplicationRun =>
    refine commitsOnce_check_bind fun body _ => commitsOnce_catching ?_
    refine commitsOnce_transaction fun run next hrun => .inr ?_
    exact commits_replyWith (.startReplicationRun _ _ _) trivial rfl hrun
  case completeReplicationRun runIdText =>
    refine commitsOnce_check_bind fun stats _ => commitsOnce_check_bind fun runId _ => ?_
    refine commitsOnce_catching <| commitsOnce_transaction fun run next hrun => .inr ?_
    exact commits_replyWith (.completeReplicationRun _ _) trivial rfl hrun
  case registerLifecyclePolicy =>
    refine commitsOnce_check_bind fun policy _ => commitsOnce_catching ?_
    refine commitsOnce_update fun next hrun => ?_
    refine ⟨.inr (commits_done (.registerLifecyclePolicy _) trivial rfl hrun),
      .lifecyclePolicy (registeredPolicy db policy), ?_⟩
    rw [Stateful.read_bind, find?_registered hrun]
    rfl
  case runLifecycle =>
    refine commitsOnce_check_bind fun body _ => commitsOnce_catching ?_
    refine commitsOnce_transaction fun run next hrun => .inr ?_
    exact commits_replyWith (.runLifecycle _ _ _ _) trivial rfl hrun
  case putVersionPin versionId =>
    refine commitsOnce_check_bind fun reason _ => commitsOnce_catching ?_
    refine commitsOnce_update fun next hrun => ?_
    exact ⟨.inr (commits_done (.pinVersion _ _) trivial rfl hrun), _, rfl⟩
  case deleteVersionPin versionId =>
    refine commitsOnce_catching ?_
    refine commitsOnce_reading_bind (requireVersion_snd versionId) fun _ _ => ?_
    refine commitsOnce_transaction fun removed next hrun => .inr ?_
    exact ⟨.unpinVersion versionId, .unpinned removed, trivial, by
      obtain ⟨rfl, rfl⟩ := Prod.mk.inj (Except.ok.inj hrun)
      rfl⟩
  case createUploadSession =>
    refine commitsOnce_check_bind fun requested _ => ?_
    exact handleCreateUploadSession_commits rfl
  case abortUploadSession sessionIdText =>
    refine commitsOnce_check_bind fun _ _ => commitsOnce_check_bind fun sessionId _ => ?_
    refine commitsOnce_query_bind fun found hfound => commitsOnce_check_bind fun existing hsome => ?_
    refine commitsOnce_check_bind fun _ _ => commitsOnce_update fun next hrun => ?_
    obtain rfl := orFail_eq_ok.mp hsome
    obtain ⟨aborted, hreload⟩ := getUploadSession_aborted hfound hrun
    refine ⟨.inr (commits_done (.abortUploadSession _) trivial rfl hrun),
      .uploadSession aborted, ?_⟩
    rw [Stateful.bind_of_ok (query_eq_ok.mpr hreload)]
    rfl
  case finalizeUploadSession sessionIdText =>
    refine commitsOnce_check_bind fun descriptor _ => commitsOnce_check_bind fun sessionId _ => ?_
    refine commitsOnce_catching <| commitsOnce_transaction fun result next hrun => .inr ?_
    exact commits_replyWith (.finalizeUpload _ _ _) trivial rfl hrun
  case negotiateChunks =>
    refine commitsOnce_check_bind fun _ _ => commitsOnce_check_bind fun body _ => ?_
    cases hrun : Client.handleNegotiateChunks env db body.sessionId body.chunks with
    | error e => exact commitsOnce_unchanged (by simp [hrun])
    | ok r => exact .inr (by simpa [hrun] using handleNegotiateChunks_commits hrun)
  case putStorageLocation chunkId nodeId =>
    have hvalid : nodeIdInvalid nodeId = false := hrouted.idsValid id
    refine commitsOnce_check_bind fun body _ => commitsOnce_catching ?_
    refine commitsOnce_update fun next hrun => ?_
    exact ⟨.inr (commits_done (.registerStorageLocation
      ⟨chunkId, nodeId, body.storagePath, body.state⟩) hvalid rfl hrun), _, rfl⟩
  case startGcRun =>
    refine commitsOnce_check_bind fun requested _ => commitsOnce_catching ?_
    refine commitsOnce_transaction fun run next hrun => .inr ?_
    exact commits_replyWith (.startGcRun _) trivial rfl hrun
  case classifyGcChunks gcRunIdText =>
    refine commitsOnce_check_bind fun chunkIds _ => commitsOnce_check_bind fun runId _ => ?_
    exact commitsOnce_catching <| commitsOnce_query_bind fun decisions _ => .inl rfl
  case completeGcRun gcRunIdText =>
    refine commitsOnce_check_bind fun stats _ => commitsOnce_check_bind fun runId _ => ?_
    refine commitsOnce_catching <| commitsOnce_transaction fun run next hrun => .inr ?_
    exact commits_replyWith (.completeGcRun _ _) trivial rfl hrun

theorem method_get_of_routed (hrouted : e.Routed request) (hmethod : request.method = .get) :
    e.method = .get ∨ e = .negotiateChunks :=
  hrouted.1.imp (fun h => h.symm.trans hmethod) id

theorem handleNegotiateChunks_get {I : Db → Prop} (hmethod : request.method = .get) :
    Preserves I (handleNegotiateChunks env json request) := by
  intro s hs
  have hrefuses : failIf (request.method ≠ .post) (methodNotAllowed "POST") =
      .error (methodNotAllowed "POST") := failIf_of_true (by simp [hmethod])
  rw [handleNegotiateChunks, hrefuses]
  exact hs

/-- A request commits at most one service operation, and only when it gets a result and is
no `GET`: any other request leaves the metadata as it found them. -/
theorem handleRequest_commits_once :
    (handleRequest env json clock request db).2 = db ∨
      request.method ≠ .get ∧ (∃ payload, (handleRequest env json clock request db).1 = .ok payload) ∧
        ∃ op reply, op.Routed ∧
          transact env db op = .ok (reply, (handleRequest env json clock request db).2) := by
  cases hroute : route request with
  | error stop =>
      have hrefused : handleRequest env json clock request db = (.error stop, db) := by
        rw [handleRequest, hroute]
        rfl
      exact .inl (by rw [hrefused])
  | ok e =>
      have hrouted := route_eq_ok_iff.mp hroute
      have heq : handleRequest env json clock request db = dispatch env json clock request e db := by
        rw [handleRequest, hroute]
        rfl
      rw [heq]
      by_cases hmethod : request.method = .get
      · refine .inl ?_
        rcases method_get_of_routed hrouted hmethod with hget | rfl
        · exact dispatch_get_preserves (I := fun s => s = db) hget db rfl
        · exact handleNegotiateChunks_get (I := fun s => s = db) hmethod db rfl
      · exact (dispatch_commitsOnce hrouted).imp id fun hcommits => ⟨hmethod, hcommits⟩

end

end AiArtifactStore.Service
