import AiArtifactStore.Metadata.Advance
import AiArtifactStore.Metadata.Exclusion
import AiArtifactStore.Push.Finalizable

/-!
# Pushes among other clients

Any number of pushes share the metadata service and the storage nodes with every
other client.  A step of the fleet is a step of one push, or a request that
anyone makes of the services.
-/

namespace AiArtifactStore.Push

open AiArtifactStore.Foundation
open AiArtifactStore.Identity
open AiArtifactStore.Metadata
open AiArtifactStore.Storage
open AiArtifactStore.Chunking
open AiArtifactStore.Client
open Relation

/-! ## Requests -/

inductive SharedRequest where
  | metadata (op : ServiceOp)
  | storage (nodeId : String) (request : StorageRequest)

namespace SharedRequest

/-- The services after a request has been served. -/
def serve (env : Environment) (services : Services) : SharedRequest → Services
  | .metadata op => services.setDb (Metadata.serve env services.db op).2
  | .storage nodeId request =>
      services.setStore nodeId (serveStorage env (services.stores nodeId) request).2

/-- The request takes no replica away: it declares none lost and deletes none.  A run of the
garbage collector is not excluded. -/
def keepsReplicas : SharedRequest → Bool
  | .metadata (.registerStorageLocation location) => location.state = .available
  | .metadata _ => true
  | .storage _ request => !request.isDelete

end SharedRequest

/-! ## The fleet -/

structure PushCall where
  source : List UInt8
  ctx : PushContext
  state : PushState

def PushCall.on (call : PushCall) (services : Services) : PushState :=
  { call.state with services := services }

structure Fleet (ι : Type) where
  services : Services
  calls : ι → Option PushCall

inductive FleetOp (ι : Type) where
  | call (i : ι) (engine : PushEngine) (sessionId : UuidV7) (source : List UInt8)
  | push (i : ι) (op : PushOp)
  | others (request : SharedRequest)

def FleetOp.keepsReplicas {ι : Type} : FleetOp ι → Bool
  | .others request => request.keepsReplicas
  | _ => true

namespace Fleet

variable {ι : Type} [DecidableEq ι]

def setCall (f : Fleet ι) (i : ι) (call : PushCall) : Fleet ι :=
  { f with calls := Function.update f.calls i (some call) }

def start (f : Fleet ι) (i : ι) (engine : PushEngine) (sessionId : UuidV7)
    (source : List UInt8) : Option (Fleet ι) :=
  match f.calls i, engine.push f.services sessionId (some source) with
  | none, .ok (ctx, state) => some (f.setCall i ⟨source, ctx, state⟩)
  | _, _ => none

def step (env : Environment) (f : Fleet ι) : FleetOp ι → Option (Fleet ι)
  | .call i engine sessionId source => f.start i engine sessionId source
  | .push i op =>
      match f.calls i with
      | none => none
      | some call =>
          (PushState.step env call.ctx (call.on f.services) op).map fun next =>
            { f with services := next.services }.setCall i { call with state := next }
  | .others request => some { f with services := request.serve env f.services }

def Step (env : Environment) (allowed : FleetOp ι → Bool) (f f' : Fleet ι) : Prop :=
  ∃ op, allowed op = true ∧ step env f op = some f'

def Runs (env : Environment) (allowed : FleetOp ι → Bool) : Fleet ι → Fleet ι → Prop :=
  ReflTransGen (Step env allowed)

def idle (services : Services) : Fleet ι := ⟨services, fun _ => none⟩

theorem runs_afterOps {env : Environment} {allowed : FleetOp ι → Bool} (f : Fleet ι)
    {ops : List (FleetOp ι)} (h : ∀ op ∈ ops, allowed op = true) :
    Runs env allowed f (Foundation.afterOps (step env) f ops) := by
  induction ops generalizing f with
  | nil => exact .refl
  | cons op ops ih =>
      have hrest := fun g => ih g fun other hother => h other (List.mem_cons_of_mem _ hother)
      rw [Foundation.afterOps, List.foldl_cons]
      cases hstep : step env f op with
      | none => exact hrest f
      | some f' => exact .head ⟨op, h op List.mem_cons_self, hstep⟩ (hrest f')

end Fleet

/-! ## A step of a push is at most one request -/

section

variable {env : Environment} {ctx : PushContext} {s s' : PushState} {delivery : Delivery}

/-- The services are those before, or those after one request that keeps the replicas. -/
def OneRequest (env : Environment) (before after : Services) : Prop :=
  after = before ∨ ∃ request : SharedRequest, request.keepsReplicas = true ∧ after = request.serve env before

theorem exchange_cases {α σ : Type} (delivery : Delivery) (state : σ)
    (served : Except EngineExc α × σ) :
    (exchange delivery state served).2 = state ∨ (exchange delivery state served).2 = served.2 := by
  cases delivery with
  | answered => exact .inr rfl
  | requestLost e => exact .inl rfl
  | responseLost e => exact .inr rfl

theorem serveNegotiateChunks_cases (env : Environment) (db : Db) (sessionId : UuidV7)
    (chunks : List ChunkMetadata) :
    (serveNegotiateChunks env db sessionId chunks).2 = db ∨
      (serveNegotiateChunks env db sessionId chunks).2 =
        (Metadata.serve env db (.negotiateChunks chunks)).2 := by
  cases hr : handleNegotiateChunks env db sessionId chunks with
  | error e => exact .inl (by simp [serveNegotiateChunks, hr])
  | ok r =>
      obtain ⟨body, next⟩ := r
      refine .inr ?_
      have hserved : serveNegotiateChunks env db sessionId chunks = (.ok body, next) := by
        simp only [serveNegotiateChunks, hr]
      simp only [handleNegotiateChunks, bind_eq_ok, exists_unit] at hr
      obtain ⟨-, -, -, stored, -, row, -, -, ⟨batch, after⟩, hbatch, hbody⟩ := hr
      have hnegotiate := mapError_eq_ok.mp hbatch
      have hsame : next = after := by
        cases hconflict : batch.conflict with
        | some conflict => simp [hconflict] at hbody
        | none =>
            simp only [hconflict] at hbody
            exact (Prod.mk.inj (Except.ok.inj hbody)).2.symm
      simp [hserved, Metadata.serve, commit, transact, replyWith, hnegotiate, Except.map, hsame]

theorem negotiation_db :
    OneRequest env s.services (s.services.setDb (s.negotiation env ctx delivery).2) := by
  unfold PushState.negotiation
  simp only
  split
  · exact .inl rfl
  · rename_i hchecked
    let chunks := s.reader.staging.map StagedChunk.metadata
    rcases exchange_cases delivery s.services.db
      (serveNegotiateChunks env s.services.db ctx.sessionId chunks) with hsame | hserved
    · exact .inl (congrArg s.services.setDb hsame)
    · rcases serveNegotiateChunks_cases env s.services.db ctx.sessionId chunks with hsame | hnext
      · exact .inl (congrArg s.services.setDb (hserved.trans hsame))
      · refine .inr ⟨.metadata (.negotiateChunks chunks), rfl, ?_⟩
        exact congrArg s.services.setDb (hserved.trans hnext)

theorem negotiate_services : OneRequest env s.services (s.negotiate env ctx delivery).services := by
  have hdb := @negotiation_db env ctx s delivery
  unfold PushState.negotiate
  simp only
  split
  · exact hdb
  · split
    · exact hdb
    · exact hdb

theorem fed_services {data rest : List UInt8} {atEnd : Bool}
    {result : Except ChunkerExc (ChunkFeed × List ChunkBuffer)} :
    (s.fed data rest atEnd result).services = s.services := by
  unfold PushState.fed
  split <;> rfl

theorem read_services {count : Nat} (h : s.read count = some s') : s'.services = s.services := by
  unfold PushState.read at h
  split at h
  · split at h
    · obtain rfl := Option.some.inj h
      rfl
    · split at h
      · cases h
      · split at h
        · split at h
          · obtain rfl := Option.some.inj h
            exact fed_services
          · cases h
        · obtain rfl := Option.some.inj h
          exact fed_services
  · cases h

theorem enqueue_services {staged : StagedChunk} {negotiated : NegotiatedChunk}
    {rest : List (StagedChunk × NegotiatedChunk)}
    (h : s.enqueue env ctx staged negotiated rest = some s') : s'.services = s.services := by
  unfold PushState.enqueue at h
  split at h
  · obtain rfl := Option.some.inj h
    rfl
  · split at h
    · cases h
    · obtain rfl := Option.some.inj h
      rfl
    · obtain rfl := Option.some.inj h
      rfl

theorem readerStep_services (h : s.readerStep env ctx delivery = some s') :
    OneRequest env s.services s'.services := by
  unfold PushState.readerStep at h
  split at h
  · obtain rfl := Option.some.inj h
    exact .inl rfl
  · exact .inl (enqueue_services h)
  · obtain rfl := Option.some.inj h
    exact .inl rfl
  · cases h
  · cases h
  · split at h
    · obtain rfl := Option.some.inj h
      exact negotiate_services
    · split at h
      · obtain rfl := Option.some.inj h
        exact .inl rfl
      · split at h
        · obtain rfl := Option.some.inj h
          exact .inl rfl
        · split at h
          · obtain rfl := Option.some.inj h
            exact .inl fed_services
          · cases h

theorem storageExchange_services {nodeId : String} {request : StorageRequest}
    (hkeeps : request.isDelete = false) :
    OneRequest env s.services
      (s.setStore nodeId (s.storageExchange env nodeId request delivery).2).services := by
  rcases exchange_cases delivery (s.services.stores nodeId)
    (serveStorage env (s.services.stores nodeId) request) with hsame | hserved
  · refine .inl ?_
    simp only [PushState.setStore, PushState.storageExchange, hsame, Function.update_eq_self]
  · refine .inr ⟨.storage nodeId request, congrArg Bool.not hkeeps, ?_⟩
    simp only [PushState.setStore, PushState.storageExchange, hserved, SharedRequest.serve,
      Services.setStore]

theorem startNode_services {task : UploadTask} {nodeId : String} {rest : List String} :
    OneRequest env s.services (s.startNode env ctx task nodeId rest delivery).1.services := by
  have hhead := @storageExchange_services env s delivery nodeId (.headChunk task.chunk.chunkId) rfl
  unfold PushState.startNode
  simp only
  split
  · exact .inl rfl
  · split
    · split
      · exact hhead
      · exact hhead
      · exact hhead
    · exact .inl rfl

theorem putNode_services {task : UploadTask} {nodeId : String} {rest : List String}
    {repaired : Bool} :
    OneRequest env s.services (s.putNode env task nodeId rest repaired delivery).1.services := by
  have hput :=
    @storageExchange_services env s delivery nodeId (.putChunk task.chunk.chunkId task.bytes) rfl
  unfold PushState.putNode
  simp only
  split
  · exact hput
  · exact hput

theorem registerNode_services {task : UploadTask} {nodeId : String} {rest : List String} :
    OneRequest env s.services (s.registerNode env task nodeId rest delivery).1.services := by
  unfold PushState.registerNode
  simp only
  split
  · exact .inl rfl
  · let location : StorageLocation :=
      ⟨task.chunk.chunkId, nodeId, logicalStoragePath task.chunk.chunkId, .available⟩
    have hregister : OneRequest env s.services (s.services.setDb (exchange delivery s.services.db
        (serveRegisterStorageLocation env s.services.db location)).2) := by
      rcases exchange_cases delivery s.services.db
        (serveRegisterStorageLocation env s.services.db location) with hsame | hserved
      · exact .inl (congrArg s.services.setDb hsame)
      · refine .inr ⟨.metadata (.registerStorageLocation location), rfl, ?_⟩
        exact congrArg s.services.setDb hserved
    split
    · exact hregister
    · exact hregister

theorem workerStep_services {index : Nat} (h : s.workerStep env ctx index delivery = some s') :
    OneRequest env s.services s'.services := by
  unfold PushState.workerStep at h
  split at h
  · cases h
  · rename_i worker hworker
    split at h
    · cases h
    · rename_i next worker' haction
      obtain rfl := Option.some.inj h
      change OneRequest env s.services next.services
      unfold PushState.workerAction at haction
      split at haction
      · split at haction
        · cases haction
        · obtain ⟨rfl, -⟩ := Prod.mk.inj (Option.some.inj haction)
          exact .inl rfl
        · obtain ⟨rfl, -⟩ := Prod.mk.inj (Option.some.inj haction)
          exact .inl rfl
      · obtain ⟨rfl, -⟩ := Prod.mk.inj (Option.some.inj haction)
        exact .inl rfl
      · obtain rfl := congrArg Prod.fst (Option.some.inj haction)
        exact startNode_services
      · obtain rfl := congrArg Prod.fst (Option.some.inj haction)
        exact putNode_services
      · obtain rfl := congrArg Prod.fst (Option.some.inj haction)
        exact registerNode_services
      · obtain ⟨rfl, -⟩ := Prod.mk.inj (Option.some.inj haction)
        exact .inl rfl
      · cases haction

/-- For everyone else, a step of a push is at most one request that keeps the replicas. -/
theorem step_services {op : PushOp} (h : PushState.step env ctx s op = some s') :
    OneRequest env s.services s'.services := by
  cases op with
  | read count => exact .inl (read_services h)
  | readFailure =>
      simp only [PushState.step] at h
      split at h
      · obtain rfl := Option.some.inj h
        exact .inl rfl
      · cases h
  | reader delivery => exact readerStep_services h
  | worker index delivery => exact workerStep_services h

end

/-! ## What stays while a session is open -/

structure KeepsRecords (a b : Services) : Prop where
  known : ∀ chunk, a.Known chunk → b.Known chunk
  available : ∀ chunkId nodeId, a.Available chunkId nodeId → b.Available chunkId nodeId
  present : ∀ chunkId nodeId, a.Present chunkId nodeId → b.Present chunkId nodeId

section

variable {env : Environment} {services a b : Services} {request : SharedRequest}

theorem KeepsRecords.refl (a : Services) : KeepsRecords a a :=
  ⟨fun _ h => h, fun _ _ h => h, fun _ _ h => h⟩

/-- No sweep runs while a session is open, so no transaction but the loss of a replica takes
a record away. -/
theorem keepsRecords_effect {op : ServiceOp} {db : Db} (he : Effect env services.db op db)
    (hexclusive : Exclusive services.db) (hopen : services.db.hasOpenUploadSession = true)
    (hkeeps : (SharedRequest.metadata op).keepsReplicas = true) :
    KeepsRecords services (services.setDb db) := by
  cases he with
  | @locationRegistered location =>
      refine ⟨fun _ h => h, fun chunkId nodeId havailable => ?_, fun _ _ h => h⟩
      simp only [Services.Available, Services.setDb, Table.find?_upsert]
      by_cases hkey : location.locationKey = (chunkId, nodeId)
      · exact ⟨location.stored, by simp [hkey], of_decide_eq_true hkeeps⟩
      · simpa only [StorageLocation.stored_locationKey, hkey, ↓reduceIte, Services.Available]
          using havailable
  | chunksNegotiated =>
      exact ⟨fun _ h => find?_insertChunks h, fun _ _ h => h, fun _ _ h => h⟩
  | finalized hfinalizes =>
      exact ⟨fun _ h => hfinalizes.layout.chunks.kept _ _ h, fun _ _ h => h, fun _ _ h => h⟩
  | @gcCompleted run completed stats hcompletes =>
      have hgc := hasOpenGcRun_of_mem (Table.mem_of_find? hcompletes.stored) hcompletes.isOpen
      have hnone := hexclusive.gcExcludesSession hgc
      rw [hopen] at hnone
      cases hnone
  | _ => exact ⟨fun _ h => h, fun _ _ h => h, fun _ _ h => h⟩

theorem contains_serveStorage {store : ChunkStore} {request : StorageRequest} {chunkId : ContentId}
    (hkeeps : request.isDelete = false) (h : LocalChunkStore.contains store chunkId = true) :
    LocalChunkStore.contains (serveStorage env store request).2 chunkId = true := by
  cases request with
  | listChunks after limit =>
      unfold serveStorage StorageNodeService.handleRequest
      cases hr : StorageNodeService.respond env store (.listChunks after limit) with
      | error e => exact h
      | ok r =>
          simp only [StorageNodeService.respond, bind_eq_ok] at hr
          obtain ⟨page, -, hr⟩ := hr
          obtain rfl := Except.ok.inj hr
          exact h
  | headChunk other => exact h
  | putChunk other data => exact serveStorage_putChunk.1 h
  | getChunk other =>
      rw [serveStorage_getChunk_state]
      exact h
  | deleteChunk other => cases hkeeps

theorem keepsRecords_serve (hreach : Reachable env services.db)
    (hopen : services.db.hasOpenUploadSession = true) (hkeeps : request.keepsReplicas = true) :
    KeepsRecords services (request.serve env services) := by
  cases request with
  | metadata op =>
      exact keepsRecords_effect (serve_effect env services.db op) (exclusive_of_reachable hreach)
        hopen hkeeps
  | storage nodeId request =>
      have hdelete : request.isDelete = false := by
        simpa [SharedRequest.keepsReplicas] using hkeeps
      refine ⟨fun _ h => h, fun _ _ h => h, fun other otherNode hpresent => ?_⟩
      by_cases hnode : otherNode = nodeId
      · subst hnode
        simpa [Services.Present, SharedRequest.serve, Services.setStore] using
          contains_serveStorage hdelete hpresent
      · simpa [Services.Present, SharedRequest.serve, Services.setStore, hnode] using hpresent

/-! ## What a call knows, among other clients -/

variable {ctx : PushContext} {s : PushState} {input : List UInt8} {chunks : List ChunkBuffer}

theorem Durable.kept {chunk : ChunkMetadata} (h : KeepsRecords a b) (hd : Durable env ctx a chunk) :
    Durable env ctx b chunk := by
  obtain ⟨hknown, desired, hdesired, hstored⟩ := hd
  refine ⟨h.known _ hknown, desired, hdesired, fun nodeId hnode => ?_⟩
  obtain ⟨hpresent, havailable⟩ := hstored nodeId hnode
  exact ⟨h.present _ _ hpresent, h.available _ _ havailable⟩

theorem TaskSound.kept {task : UploadTask} (h : KeepsRecords a b) (ht : TaskSound env ctx a task) :
    TaskSound env ctx b task :=
  ⟨h.known _ ht.known, ht.desired, fun nodeId hn => h.available _ _ (ht.available nodeId hn)⟩

theorem WorkerSound.kept {worker : Worker} (h : KeepsRecords a b)
    (hw : WorkerSound env ctx a worker) : WorkerSound env ctx b worker := by
  cases worker with
  | uploading task nodes phase =>
      obtain ⟨htask, ⟨before, hsplit, hstored⟩, hpresent⟩ := hw
      refine ⟨htask.kept h, ⟨before, hsplit, fun nodeId hnode => ?_⟩,
        fun hphase nodeId hnode => h.present _ _ (hpresent hphase nodeId hnode)⟩
      obtain ⟨hfile, havailable⟩ := hstored nodeId hnode
      exact ⟨h.present _ _ hfile, h.available _ _ havailable⟩
  | idle => trivial
  | failing => trivial
  | exited => trivial

theorem Reader.Sound.kept {r : Reader} (h : KeepsRecords a b) (hr : r.Sound env input chunks a) :
    r.Sound env input chunks b :=
  { hr with
    known := fun entry hentry => h.known _ (hr.known entry hentry)
    available := fun entry hentry nodeId hn => h.available _ _ (hr.available entry hentry nodeId hn) }

theorem Sound.kept (h : Sound env ctx input chunks s) (hkeeps : KeepsRecords s.services b) :
    Sound env ctx input chunks { s with services := b } := by
  refine ⟨h.reader.kept hkeeps, fun task htask => (h.queue task htask).kept hkeeps,
    fun worker hworker => ⟨(h.workers worker hworker).1, (h.workers worker hworker).2.kept hkeeps⟩,
    fun hfree ref href => ?_, h.drained, h.staffed⟩
  rcases h.covered hfree ref href with hheld | hdurable
  · exact .inl hheld
  · exact .inr (hdurable.kept hkeeps)

end

/-! ## Sessions of calls -/

def PushCall.SessionStored (services : Services) (call : PushCall) : Prop :=
  ∃ row, services.db.uploadSessions.find? call.ctx.sessionId = some row ∧
    row.session = call.ctx.session

def PushCall.SessionOpen (services : Services) (call : PushCall) : Prop :=
  ∃ row, services.db.uploadSessions.find? call.ctx.sessionId = some row ∧ row.status = .open

section

variable {env : Environment} {services a b : Services} {request : SharedRequest} {call : PushCall}

theorem reachable_serve (hreach : Reachable env services.db) :
    Reachable env (request.serve env services).db := by
  cases request with
  | metadata op => exact hreach.serve
  | storage nodeId request => exact hreach

theorem advances_serve : Advances services.db (request.serve env services).db := by
  cases request with
  | metadata op => exact advances_effect (serve_effect env services.db op)
  | storage nodeId request => exact .refl _

theorem session_advances {sessionId : UuidV7} {row : SessionRow} (h : Advances a.db b.db)
    (hrow : a.db.uploadSessions.find? sessionId = some row) :
    ∃ row', b.db.uploadSessions.find? sessionId = some row' ∧ row'.session = row.session ∧
      (row'.status = .open → row.status = .open) := by
  obtain ⟨row', hrow', hkey, hsession, hstatus⟩ :=
    h.uploadSessions row (Table.mem_of_find? hrow)
  refine ⟨row', ?_, hsession, fun hopen => ?_⟩
  · rw [← Table.key_of_find? hrow, ← hkey]
    exact Table.find?_of_mem hrow'
  · exact hstatus.elim id fun hsame => hsame ▸ hopen

theorem PushCall.SessionStored.advances (h : Advances a.db b.db) (hstored : call.SessionStored a) :
    call.SessionStored b := by
  obtain ⟨row, hrow, hsession⟩ := hstored
  obtain ⟨row', hrow', hsame, -⟩ := session_advances h hrow
  exact ⟨row', hrow', hsame.trans hsession⟩

theorem PushCall.SessionOpen.before (h : Advances a.db b.db) (hstored : call.SessionStored a)
    (hopen : call.SessionOpen b) : call.SessionOpen a := by
  obtain ⟨row, hrow, -⟩ := hstored
  obtain ⟨row', hrow', -, hback⟩ := session_advances h hrow
  obtain ⟨found, hfound, hstatus⟩ := hopen
  obtain rfl : found = row' := Option.some.inj (hfound.symm.trans hrow')
  exact ⟨row, hrow, hback hstatus⟩

theorem PushCall.SessionOpen.any (hopen : call.SessionOpen services) :
    services.db.hasOpenUploadSession = true := by
  obtain ⟨row, hrow, hstatus⟩ := hopen
  exact hasOpenUploadSession_of_mem (Table.mem_of_find? hrow) hstatus

end

/-! ## The invariant -/

structure CallSound (env : Environment) (services : Services) (call : PushCall)
    (chunkFeed : ChunkFeed) : Prop where
  stored : call.SessionStored services
  feed : makeChunkFeed call.ctx.session = .ok chunkFeed
  sound : call.SessionOpen services → call.state.shared.firstFailure = none →
    Sound env call.ctx call.source (chunkFeed.allChunks call.source) (call.on services)

structure FleetSound {ι : Type} (env : Environment) (f : Fleet ι) : Prop where
  reachable : Reachable env f.services.db
  calls : ∀ i call, f.calls i = some call → ∃ chunkFeed, CallSound env f.services call chunkFeed

section

variable {ι : Type} {env : Environment} {services a b : Services} {call : PushCall}
  {chunkFeed : ChunkFeed} {f f' : Fleet ι} {i : ι} {request : SharedRequest}

theorem fleetSound_idle (hreach : Reachable env services.db) :
    FleetSound env (Fleet.idle services : Fleet ι) :=
  ⟨hreach, fun i call hcall => by cases hcall⟩

theorem CallSound.serve (h : CallSound env services call chunkFeed)
    (hreach : Reachable env services.db) (hkeeps : request.keepsReplicas = true) :
    CallSound env (request.serve env services) call chunkFeed := by
  refine ⟨h.stored.advances advances_serve, h.feed, fun hopen hok => ?_⟩
  have hbefore := hopen.before advances_serve h.stored
  exact (h.sound hbefore hok).kept (keepsRecords_serve hreach hbefore.any hkeeps)

theorem CallSound.others (h : CallSound env a call chunkFeed) (hreach : Reachable env a.db)
    (hrequest : OneRequest env a b) : CallSound env b call chunkFeed := by
  rcases hrequest with rfl | ⟨request, hkeeps, rfl⟩
  · exact h
  · exact h.serve hreach hkeeps

theorem OneRequest.advances (h : OneRequest env a b) : Advances a.db b.db := by
  rcases h with rfl | ⟨request, -, rfl⟩
  · exact .refl _
  · exact advances_serve

theorem OneRequest.reachable (h : OneRequest env a b) (hreach : Reachable env a.db) :
    Reachable env b.db := by
  rcases h with rfl | ⟨request, -, rfl⟩
  · exact hreach
  · exact reachable_serve hreach

theorem CallSound.step {op : PushOp} {next : PushState} (h : CallSound env services call chunkFeed)
    (hstep : PushState.step env call.ctx (call.on services) op = some next) :
    CallSound env next.services { call with state := next } chunkFeed := by
  have hadvances := (step_services hstep).advances
  refine ⟨h.stored.advances hadvances, h.feed, fun hopen hok => ?_⟩
  have hbefore : call.SessionOpen services := PushCall.SessionOpen.before hadvances h.stored hopen
  rcases PushState.step_cases hstep with hfailed | hprogress
  · exact absurd hok hfailed
  · exact sound_progress (h.sound hbefore (hprogress.firstFailure.symm.trans hok)) hprogress

theorem callSound_started {engine : PushEngine} {sessionId : UuidV7} {source : List UInt8}
    {ctx : PushContext} {state : PushState}
    (h : engine.push services sessionId (some source) = .ok (ctx, state)) :
    ∃ chunkFeed, CallSound env services ⟨source, ctx, state⟩ chunkFeed := by
  obtain ⟨chunkFeed, input, hinput, hstarted⟩ := push_started h
  obtain rfl := Option.some.inj hinput
  obtain ⟨row, hrow, -, hsession⟩ := hstarted.stored
  refine ⟨chunkFeed, ⟨row, ?_, hsession⟩, hstarted.feed, fun _ _ => ?_⟩
  · rw [hstarted.request]
    exact hrow
  · rw [PushCall.on, hstarted.initial]
    exact sound_initial

theorem FleetSound.serve (h : FleetSound env f) (hrequest : OneRequest env f.services b) :
    FleetSound env { f with services := b } := by
  refine ⟨hrequest.reachable h.reachable, fun j other hother => ?_⟩
  obtain ⟨chunkFeed, hsound⟩ := h.calls j other hother
  exact ⟨chunkFeed, hsound.others h.reachable hrequest⟩

variable [DecidableEq ι]

theorem FleetSound.setCall (h : FleetSound env f)
    (hcall : ∃ chunkFeed, CallSound env f.services call chunkFeed) :
    FleetSound env (f.setCall i call) := by
  refine ⟨h.reachable, fun j other hother => ?_⟩
  simp only [Fleet.setCall, Function.update_apply] at hother
  split at hother
  · obtain rfl := Option.some.inj hother
    exact hcall
  · exact h.calls j other hother

theorem fleetSound_step (h : FleetSound env f) (hstep : Fleet.Step env FleetOp.keepsReplicas f f') :
    FleetSound env f' := by
  obtain ⟨op, hkeeps, hstep⟩ := hstep
  cases op with
  | call i engine sessionId source =>
      simp only [Fleet.step, Fleet.start] at hstep
      split at hstep
      · rename_i ctx state hfree hpush
        obtain rfl := Option.some.inj hstep
        exact h.setCall (callSound_started hpush)
      · cases hstep
  | push i op =>
      simp only [Fleet.step] at hstep
      split at hstep
      · cases hstep
      · rename_i call hcall
        obtain ⟨next, hnext, rfl⟩ := Option.map_eq_some_iff.mp hstep
        obtain ⟨chunkFeed, hsound⟩ := h.calls i call hcall
        exact (h.serve (step_services hnext)).setCall ⟨chunkFeed, hsound.step hnext⟩
  | others request =>
      obtain rfl := Option.some.inj hstep
      exact h.serve (.inr ⟨request, hkeeps, rfl⟩)

theorem fleetSound_runs (hreach : Reachable env services.db)
    (hrun : Fleet.Runs env FleetOp.keepsReplicas (Fleet.idle services) f) : FleetSound env f :=
  invariant_of_step (P := FleetSound env) (fun _ _ hstep h => fleetSound_step h hstep) hrun
    (fleetSound_idle hreach)

/-- Among any number of pushes and any other requests, the descriptor of a push that returns
describes its source, its chunks are on the nodes that placement assigns them, and it passes
the checks of `finalize_upload` for as long as its session is open. -/
theorem fleet_finalizable {prepared : PreparedPush} {row : SessionRow}
    (hreach : Reachable env services.db)
    (hrun : Fleet.Runs env FleetOp.keepsReplicas (Fleet.idle services) f)
    (hcall : f.calls i = some call)
    (hreturns : (call.on f.services).returns env call.ctx = some (.ok prepared))
    (hrow : f.services.db.uploadSessions.find? call.ctx.sessionId = some row)
    (hopen : row.status = .open) (hfeed : makeChunkFeed call.ctx.session = .ok chunkFeed)
    (hfree : CollisionFree env (chunkFeed.allChunks call.source)) :
    prepared.layoutDescriptor.object = ⟨env.contentId call.source, call.source.length⟩ ∧
      (∀ ref ∈ prepared.layoutDescriptor.layout.chunks, ∃ desired,
        desiredNodes env call.ctx ref.chunkId = .ok desired ∧
          ∀ nodeId ∈ desired, f.services.Stored ref.chunkId nodeId) ∧
      checkFinalizable env f.services.db row.session prepared.layoutDescriptor = .ok () := by
  obtain ⟨feed, hcallSound⟩ := (fleetSound_runs hreach hrun).calls i call hcall
  obtain rfl : feed = chunkFeed := Except.ok.inj (hcallSound.feed.symm.trans hfeed)
  obtain ⟨hjoined, hok, hdescribe⟩ := returns_ok hreturns
  have hsound := hcallSound.sound ⟨row, hrow, hopen⟩ hok
  obtain ⟨hrefs, hfed, hdurable⟩ := hsound.durable hjoined
  rw [hrefs, hfed] at hdescribe
  obtain ⟨hobject, hchunking, hchunks⟩ := describe_ok hdescribe
  rw [hrefs, ← hchunks] at hdurable
  obtain ⟨stored, hstored, hsession⟩ := hcallSound.stored
  obtain rfl : stored = row := Option.some.inj (hstored.symm.trans hrow)
  refine ⟨hobject, fun ref href => (hdurable hfree ref href).replicated, ?_⟩
  rw [hsession]
  exact checkFinalizable_of_durable hfeed hfree hchunking hchunks (hdurable hfree)

end

/-! ## A sample fleet -/

namespace Sample

open Metadata.Sample

/-- Two calls for one session; another client adds an artifact and reads a chunk meanwhile. -/
def fleetOps : List (FleetOp Bool) :=
  [.call true engine session.sessionId (asciiBytes ['a']),
   .call false engine session.sessionId (asciiBytes ['a']),
   .push false (.read 1), .push false (.reader .answered),
   .others (.metadata (.createArtifact { artifact with artifactId := uuid 9 }))] ++
    (pushSteps.take 9).map (.push true) ++ [.others (.storage "n1" (.getChunk chunkId))] ++
    (pushSteps.drop 9).map (.push true)

def fleet : Fleet Bool := Foundation.afterOps (Fleet.step env) (Fleet.idle services) fleetOps

/-- What the first call returns, if it returns. -/
def fleetResult : Option (PushCall × PreparedPush) := do
  let call ← fleet.calls true
  let result ← (call.on fleet.services).returns env call.ctx
  let prepared ← result.toOption
  some (call, prepared)

def fleetFree (call : PushCall) : Bool :=
  (makeChunkFeed call.ctx.session).toOption.any fun chunkFeed =>
    decide (CollisionFree env (chunkFeed.allChunks call.source))

def fleetOpen (call : PushCall) : Bool :=
  (fleet.services.db.uploadSessions.find? call.ctx.sessionId).any fun row => row.status = .open

end Sample

open Metadata.Sample in
theorem fleet_finalizable_sample :
    ∃ (call : PushCall) (prepared : PreparedPush) (row : SessionRow),
      Sample.fleet.calls true = some call ∧
      prepared.layoutDescriptor.object = ⟨env.contentId call.source, call.source.length⟩ ∧
      (∀ ref ∈ prepared.layoutDescriptor.layout.chunks, ∃ desired,
        desiredNodes env call.ctx ref.chunkId = .ok desired ∧
          ∀ nodeId ∈ desired, Sample.fleet.services.Stored ref.chunkId nodeId) ∧
      checkFinalizable env Sample.fleet.services.db row.session prepared.layoutDescriptor =
        .ok () := by
  have hresult : (Sample.fleetResult.any fun result =>
      Sample.fleetFree result.1 && Sample.fleetOpen result.1) = true := by
    decide +kernel
  obtain ⟨⟨call, prepared⟩, hcall, hready⟩ := Option.any_eq_true _ _ |>.mp hresult
  simp only [Sample.fleetResult, Option.bind_eq_bind, Option.bind_eq_some_iff, Option.some.injEq,
    Prod.mk.injEq] at hcall
  obtain ⟨found, hstored, result, hreturns, answer, hprepared, hfound, hanswer⟩ := hcall
  subst hfound hanswer
  rw [eq_ok_of_toOption hprepared] at hreturns
  simp only [Bool.and_eq_true, Sample.fleetFree, Sample.fleetOpen, Option.any_eq_true,
    decide_eq_true_eq] at hready
  obtain ⟨⟨chunkFeed, hfeed, hfree⟩, row, hrow, hopen⟩ := hready
  have hallowed : ∀ op ∈ Sample.fleetOps, op.keepsReplicas = true := by
    rw [← List.all_eq_true]
    decide +kernel
  exact ⟨found, answer, row, hstored, fleet_finalizable (reachable_afterOps env _)
    (Fleet.runs_afterOps _ hallowed) hstored hreturns hrow hopen (eq_ok_of_toOption hfeed) hfree⟩

end AiArtifactStore.Push
