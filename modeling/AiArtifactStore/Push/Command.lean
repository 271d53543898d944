import AiArtifactStore.Foundation.Stateful
import AiArtifactStore.Metadata.Restore
import AiArtifactStore.Push.Rescan

/-!
# The push command

`run_push` of the CLI, from the options to the printed result, with the handler
that creates an upload session.
-/

namespace AiArtifactStore.Push

open AiArtifactStore.Foundation
open AiArtifactStore.Identity
open AiArtifactStore.Metadata
open AiArtifactStore.Client

structure PushOptions where
  sessionId : UuidV7
  artifactId : UuidV7
  replicationFactor : Nat
  chunking : SessionChunking
  parentVersionId : Option ContentId
  immutableMetadata : ImmutableMetadata

structure PushOutput where
  sessionId : UuidV7
  artifactId : UuidV7
  targetNodeId : String
  versionId : ContentId
  objectId : ContentId
  layoutId : ContentId
  stats : PushStats
  deriving DecidableEq, Repr

/-! ## Creating the session -/

inductive CreateSessionError where
  | uploadSessionConflict
  | invalidRequest
  | prerequisiteNotFound
  | gcInProgress
  | exception (e : Exc)
  deriving DecidableEq, Repr

/-- `catch (const pqxx::foreign_key_violation&)` takes the foreign keys of `upload_sessions`. -/
def createSessionError : Exc → CreateSessionError
  | .invalidArgument _ => .invalidRequest
  | .sqlError constraint =>
      if constraint ∈ ["upload_sessions_artifact_fk", "upload_sessions_parent_version_fk"] then
        .prerequisiteNotFound
      else .exception (.sqlError constraint)
  | .gcError .gcInProgress _ => .gcInProgress
  | e => .exception e

def creationFieldsMatch (existing : SessionRow) (requested : UploadSession) : Bool :=
  existing.session = requested && existing.status.state = .open &&
    existing.status.finalizedVersionId = none

def handleCreateUploadSession (db : Db) (requested : UploadSession) :
    Except CreateSessionError SessionRow × Db :=
  match db.uploadSessions.find? requested.sessionId with
  | some stored =>
      match reconstructUploadSession stored with
      | .error e => (.error (createSessionError e), db)
      | .ok existing =>
          if creationFieldsMatch existing requested then (.ok existing, db)
          else (.error .uploadSessionConflict, db)
  | none =>
      match createUploadSession db ⟨requested, .open⟩ with
      | .error e => (.error (createSessionError e), db)
      | .ok next =>
          (orFail (next.uploadSessions.find? requested.sessionId)
            (.exception (.runtimeError "created upload session could not be reloaded")), next)

/-! ## Nodes and sessions of the command -/

def listStorageNodes (env : Environment) (db : Db) : List StorageNode :=
  env.orderByText StorageNode.nodeId db.storageNodes.rows

def collectActiveNodeIds (nodes : List StorageNode) : List String :=
  ((nodes.filter fun node => node.state = .active).map StorageNode.nodeId).insertionSort
    fun a b => a ≤ b

def choosePlacement (options : PushOptions) (nodes : List StorageNode)
    (existing : Option SessionRow) : Except EngineExc (List String) :=
  match existing with
  | some row => do
      failIf (row.session.replicationFactor ≠ options.replicationFactor)
        (.runtimeError "existing upload session replication factor does not match request")
      .ok row.session.placementNodeIds
  | none => do
      let active := collectActiveNodeIds nodes
      failIf (active.length > 64)
        (.runtimeError "too many active storage nodes for upload session placement snapshot")
      failIf (active.length < options.replicationFactor)
        (.runtimeError "not enough active storage nodes for requested replication factor")
      .ok active

def checkHttpEndpoint (env : Environment) (address : String) (port : Nat) :
    Except EngineExc Unit := do
  failIf (address = "") (.invalidArgument "HTTP client endpoint address must not be empty")
  failIf (¬env.isNumericAddress address)
    (.invalidArgument "HTTP client endpoint address must be a numeric IP address")
  failIf (port = 0) (.invalidArgument "HTTP client endpoint port must be greater than zero")

def poolEntry (env : Environment) (nodes : List StorageNode) (nodeId : String) :
    Except EngineExc NodeEndpoint := do
  let node ← orFail (nodes.find? fun node => node.nodeId = nodeId)
    (.runtimeError ("required storage node is not registered: " ++ nodeId))
  failIf (node.state = .disabled)
    (.runtimeError ("required storage node is disabled: " ++ nodeId))
  checkHttpEndpoint env node.address node.port
  .ok ⟨nodeId, node.address, node.port⟩

def addClient (clients : List NodeEndpoint) (client : NodeEndpoint) :
    Except EngineExc (List NodeEndpoint) := do
  failIf (client.nodeId = "") (.invalidArgument "storage node client pool node_id must be nonempty")
  failIf (client.nodeId ∈ clients.map NodeEndpoint.nodeId)
    (.invalidArgument "duplicate storage node ID in client pool")
  .ok (clients ++ [client])

def buildPoolForNodes (env : Environment) (nodes : List StorageNode) (nodeIds : List String) :
    Except EngineExc (List NodeEndpoint) := do
  let clients ← mapEach nodeIds (poolEntry env nodes)
  foldEach clients [] addClient

def pushSessionFields (options : PushOptions) (placementNodeIds : List String) :
    UploadSessionFields where
  sessionId := options.sessionId
  artifactId := options.artifactId
  replicationFactor := options.replicationFactor
  placementNodeIds := placementNodeIds
  chunking := options.chunking
  parentVersionId := options.parentVersionId
  immutableMetadata := options.immutableMetadata

def buildPushSession (options : PushOptions) (placementNodeIds : List String) :
    Except EngineExc UploadSession :=
  if placementNodeIds = [] then
    .error (.runtimeError "push requires at least one placement node")
  else
    match h : (pushSessionFields options placementNodeIds).validate with
    | .ok () => .ok ⟨pushSessionFields options placementNodeIds, h⟩
    | .error e => .error (.domain e)

def creationIdentityMatches (requested existing : UploadSession) : Bool :=
  existing.artifactId = requested.artifactId && existing.targetNodeId = requested.targetNodeId &&
    existing.replicationFactor = requested.replicationFactor &&
    existing.placementNodeIds = requested.placementNodeIds &&
    existing.parentVersionId = requested.parentVersionId &&
    existing.immutableMetadata = requested.immutableMetadata &&
    existing.chunking = requested.chunking

/-! ## The command -/

inductive CommandExc where
  | engine (e : EngineExc)
  | createSession (e : CreateSessionError)
  deriving DecidableEq, Repr

/-- `upload` stands for the requests of `push_engine.push`, which alone go to storage nodes. -/
inductive CommandRequest where
  | listStorageNodes
  | getUploadSession
  | createUploadSession
  | upload
  | finalizeUpload
  deriving DecidableEq, Repr

structure CommandState where
  services : Services
  requests : List CommandRequest

def CommandState.sends (s : CommandState) (request : CommandRequest) : CommandState :=
  { s with requests := s.requests ++ [request] }

abbrev CommandM := Stateful CommandState CommandExc

/-- What a call of the command keeps fixed: its options, the time of its finalization and the
reads of the file, if it can be opened. -/
structure CommandContext where
  env : Environment
  options : PushOptions
  now : Int
  reads : Option (List (List UInt8))

/-- How the upload of a file goes on: the threads start, or a committed retry is prepared. -/
inductive Upload where
  | running (pushContext : PushContext) (start : PushState)
  | prepared (prepared : PreparedPush)

namespace PushCommand

def engine {α : Type} (result : Except EngineExc α) : CommandM α :=
  Stateful.check (result.mapError .engine)

def send (request : CommandRequest) : CommandM Unit :=
  Stateful.update fun s => s.sends request

def listNodes (env : Environment) : CommandM (List StorageNode) := do
  send .listStorageNodes
  Stateful.read fun s => listStorageNodes env s.services.db

def getSession (sessionId : UuidV7) : CommandM (Option SessionRow) := do
  send .getUploadSession
  let db ← Stateful.read fun s => s.services.db
  engine (MetadataClient.getUploadSession db sessionId)

def createSession (session : UploadSession) :
    CommandM (Except CreateSessionError SessionRow) := do
  send .createUploadSession
  let answer ← Stateful.read fun s => handleCreateUploadSession s.services.db session
  Stateful.update fun s => { s with services := s.services.setDb answer.2 }
  pure answer.1

def retryCommitted (ctx : CommandContext) (session : UploadSession) : CommandM PreparedPush := do
  let existing ← getSession ctx.options.sessionId
  match existing with
  | some row =>
      if row.status.state = .committed ∧ creationIdentityMatches session row.session then
        engine (prepareCommittedRetry ctx.env ctx.options.sessionId row ctx.reads)
      else Stateful.throw (.createSession .uploadSessionConflict)
  | none => Stateful.throw (.createSession .uploadSessionConflict)

def startUpload (ctx : CommandContext) (pool : List NodeEndpoint) : CommandM Upload := do
  send .upload
  let services ← Stateful.read CommandState.services
  let call ← engine (PushEngine.push ⟨pool.map NodeEndpoint.nodeId⟩ services
    ctx.options.sessionId (ctx.reads.map List.flatten))
  pure (.running call.1 call.2)

/-- The inner `try` block: a new or open session is uploaded, a committed one is rescanned. -/
def establish (ctx : CommandContext) (pool : List NodeEndpoint) (session : UploadSession) :
    CommandM Upload := do
  let created ← createSession session
  match created with
  | .ok _ => startUpload ctx pool
  | .error .uploadSessionConflict => do
      let prepared ← retryCommitted ctx session
      pure (.prepared prepared)
  | .error e => Stateful.throw (.createSession e)

def startPush (ctx : CommandContext) : CommandM (UploadSession × Upload) := do
  let nodes ← listNodes ctx.env
  let existing ← getSession ctx.options.sessionId
  let placementNodeIds ← engine (choosePlacement ctx.options nodes existing)
  let pool ← engine (buildPoolForNodes ctx.env nodes placementNodeIds)
  let session ← engine (buildPushSession ctx.options placementNodeIds)
  let upload ← establish ctx pool session
  pure (session, upload)

def finalize (ctx : CommandContext) (prepared : PreparedPush) : CommandM FinalizeUploadResult := do
  send .finalizeUpload
  let db ← Stateful.read fun s => s.services.db
  let answer ← engine ((finalizeUpload ctx.env ctx.now db prepared.sessionId
    prepared.layoutDescriptor).mapError fun e => .client (.remoteApi e))
  Stateful.update fun s => { s with services := s.services.setDb answer.2 }
  engine (failIf (answer.1.sessionId ≠ prepared.sessionId)
    (.remoteProtocol "finalize response session_id does not match request"))
  pure answer.1

def emitSuccessJson (env : Environment) (targetNodeId : String) (artifactId : UuidV7)
    (prepared : PreparedPush) (result : FinalizeUploadResult) : Except EngineExc PushOutput := do
  failIf (result.sessionId ≠ prepared.sessionId)
    (.runtimeError "finalize result session_id does not match push session_id")
  failIf (result.objectId ≠ prepared.layoutDescriptor.objectId)
    (.runtimeError "finalize result object_id does not match prepared layout object_id")
  failIf (result.layoutId ≠ prepared.layoutDescriptor.layoutId env)
    (.runtimeError "finalize result layout_id does not match prepared layout layout_id")
  .ok ⟨prepared.sessionId, artifactId, targetNodeId, result.versionId, result.objectId,
    result.layoutId, prepared.stats⟩

def finishPush (ctx : CommandContext) (session : UploadSession) (prepared : PreparedPush) :
    CommandM PushOutput := do
  let result ← finalize ctx prepared
  engine (emitSuccessJson ctx.env session.targetNodeId ctx.options.artifactId prepared result)

/-- A run of the command: what it prints or throws, after any interleaving of the threads of an
upload. -/
inductive Runs (ctx : CommandContext) (s : CommandState) :
    Except CommandExc PushOutput → CommandState → Prop
  | fails {e : CommandExc} {s' : CommandState} (hstart : startPush ctx s = (.error e, s')) :
      Runs ctx s (.error e) s'
  | retries {session : UploadSession} {prepared : PreparedPush} {s₁ s' : CommandState}
      {result : Except CommandExc PushOutput}
      (hstart : startPush ctx s = (.ok (session, .prepared prepared), s₁))
      (hfinish : finishPush ctx session prepared s₁ = (result, s')) :
      Runs ctx s result s'
  | uploads {session : UploadSession} {pushContext : PushContext} {start done : PushState}
      {prepared : PreparedPush} {s₁ s' : CommandState} {result : Except CommandExc PushOutput}
      (hstart : startPush ctx s = (.ok (session, .running pushContext start), s₁))
      (hrun : PushState.Runs ctx.env pushContext start done)
      (hreturns : done.returns ctx.env pushContext = some (.ok prepared))
      (hfinish : finishPush ctx session prepared { s₁ with services := done.services } =
        (result, s')) :
      Runs ctx s result s'
  | uploadThrows {session : UploadSession} {pushContext : PushContext} {start done : PushState}
      {e : EngineExc} {s₁ : CommandState}
      (hstart : startPush ctx s = (.ok (session, .running pushContext start), s₁))
      (hrun : PushState.Runs ctx.env pushContext start done)
      (hreturns : done.returns ctx.env pushContext = some (.error e)) :
      Runs ctx s (.error (.engine e)) { s₁ with services := done.services }

end PushCommand

end AiArtifactStore.Push
