import AiArtifactStore.Chunking.FixedSize
import AiArtifactStore.Client.GcClients

/-!
# The clients of a push

Requests that may fail on the way, the negotiation route of the metadata service
with the decoder of its response, and the requests of an upload worker.
-/

namespace AiArtifactStore.Client

open AiArtifactStore.Foundation
open AiArtifactStore.Identity
open AiArtifactStore.Metadata
open AiArtifactStore.Storage
open AiArtifactStore.Chunking

inductive NegotiationError where
  | invalidRequest
  | uploadSessionNotFound
  | uploadSessionNotOpen
  | chunkSizeConflict (conflict : ChunkSizeConflict)
  | exception (e : Exc)
  deriving DecidableEq, Repr

inductive EngineExc where
  | client (e : ClientExc)
  | negotiation (e : NegotiationError)
  | unexpectedStatus
  | chunker (e : ChunkerExc)
  | domain (e : Exc)
  deriving DecidableEq, Repr

def EngineExc.runtimeError (what : String) : EngineExc := .client (.runtimeError what)

def EngineExc.invalidArgument (what : String) : EngineExc := .client (.invalidArgument what)

def EngineExc.remoteProtocol (what : String) : EngineExc := .client (.remoteProtocol what)

/-! ## Requests -/

structure Services where
  db : Db
  stores : String → ChunkStore

/-- A request is answered by its service, or fails before or after its effect. -/
inductive Delivery where
  | answered
  | requestLost (e : EngineExc)
  | responseLost (e : EngineExc)
  deriving DecidableEq, Repr

/-- The response of a request and the state of the service after it. -/
def exchange {α σ : Type} (delivery : Delivery) (state : σ) (served : Except EngineExc α × σ) :
    Except EngineExc α × σ :=
  match delivery with
  | .answered => served
  | .requestLost e => (.error e, state)
  | .responseLost e => (.error e, served.2)

theorem exchange_state {α σ : Type} {P : σ → Prop} {delivery : Delivery} {state : σ}
    {served : Except EngineExc α × σ} (h : P state) (hserved : P served.2) :
    P (exchange delivery state served).2 := by
  cases delivery with
  | answered => exact hserved
  | requestLost e => exact h
  | responseLost e => exact hserved

theorem exchange_ok {α σ : Type} {delivery : Delivery} {state : σ}
    {served : Except EngineExc α × σ} {a : α} (h : (exchange delivery state served).1 = .ok a) :
    exchange delivery state served = served := by
  cases delivery with
  | answered => rfl
  | requestLost e => cases h
  | responseLost e => cases h

/-! ## Negotiation -/

inductive ChunkAvailability where
  | availableOnTarget
  | availableElsewhere
  | noAvailableLocation
  deriving DecidableEq, Repr

def classifyAvailability (targetNodeId : String) (availableNodeIds : List String) :
    ChunkAvailability :=
  if targetNodeId ∈ availableNodeIds then .availableOnTarget
  else if availableNodeIds ≠ [] then .availableElsewhere
  else .noAvailableLocation

structure NegotiatedChunk where
  chunk : ChunkMetadata
  metadataWasKnown : Bool
  availability : ChunkAvailability
  availableNodeIds : List String
  deriving DecidableEq, Repr

structure ChunkNegotiationResult where
  sessionId : UuidV7
  targetNodeId : String
  chunks : List NegotiatedChunk
  deriving DecidableEq, Repr

def kMaxNegotiationChunks : Nat := 256

def negotiatedChunk (targetNodeId : String) (entry : ChunkNegotiationEntry) : NegotiatedChunk :=
  ⟨entry.chunk, entry.metadataWasKnown, classifyAvailability targetNodeId entry.availableNodeIds,
    entry.availableNodeIds⟩

def SizesConflict (chunks : List ChunkMetadata) : Prop :=
  ¬chunks.Pairwise fun a b => a.chunkId = b.chunkId → a.sizeBytes = b.sizeBytes

instance (chunks : List ChunkMetadata) : Decidable (SizesConflict chunks) :=
  inferInstanceAs (Decidable (¬chunks.Pairwise fun a b =>
    a.chunkId = b.chunkId → a.sizeBytes = b.sizeBytes))

def handleNegotiateChunks (env : Environment) (db : Db) (sessionId : UuidV7)
    (chunks : List ChunkMetadata) : Except NegotiationError (ChunkNegotiationResult × Db) := do
  failIf (chunks = [] ∨ chunks.length > kMaxNegotiationChunks) .invalidRequest
  failIf (∃ chunk ∈ chunks, chunk.sizeBytes = 0) .invalidRequest
  failIf (SizesConflict chunks) .invalidRequest
  let stored ← orFail (db.uploadSessions.find? sessionId) .uploadSessionNotFound
  let row ← (reconstructUploadSession stored).mapError .exception
  failIf (row.status.state ≠ .open) .uploadSessionNotOpen
  let (batch, db) ← (negotiateChunks env db chunks).mapError .exception
  match batch.conflict with
  | some conflict => .error (.chunkSizeConflict conflict)
  | none =>
      .ok (⟨sessionId, row.session.targetNodeId,
        batch.chunks.map (negotiatedChunk row.session.targetNodeId)⟩, db)

def serveNegotiateChunks (env : Environment) (db : Db) (sessionId : UuidV7)
    (chunks : List ChunkMetadata) : Except EngineExc ChunkNegotiationResult × Db :=
  match handleNegotiateChunks env db sessionId chunks with
  | .ok (result, next) => (.ok result, next)
  | .error e => (.error (.negotiation e), db)

namespace MetadataClient

/-- The loop of `negotiate_chunks` over its argument, after the chunks already seen. -/
def checkNegotiationSizes (seen : List ChunkMetadata) : List ChunkMetadata → Except EngineExc Unit
  | [] => .ok ()
  | chunk :: rest => do
      failIf (chunk.sizeBytes = 0 ∨ chunk.sizeBytes > postgresBigintMax)
        (.invalidArgument "negotiate_chunks size_bytes is out of range")
      failIf (∃ s ∈ seen, s.chunkId = chunk.chunkId ∧ s.sizeBytes ≠ chunk.sizeBytes)
        (.invalidArgument "negotiate_chunks contains conflicting sizes for the same chunk ID")
      checkNegotiationSizes (seen ++ [chunk]) rest

/-- The checks of `negotiate_chunks` before its request. -/
def checkNegotiation (chunks : List ChunkMetadata) : Except EngineExc Unit := do
  failIf (chunks = [] ∨ chunks.length > kMaxNegotiationChunks)
    (.invalidArgument "negotiate_chunks requires between 1 and 256 chunks")
  checkNegotiationSizes [] chunks

/-- The node ids of an entry, after the node `previous`. -/
def checkAvailableNodeIds (previous : Option String) : List String → Except EngineExc Unit
  | [] => .ok ()
  | nodeId :: rest => do
      failIf (nodeIdInvalid nodeId)
        (.remoteProtocol "negotiation available_node_ids contains an invalid node ID")
      failIf (∃ p ∈ previous, ¬p < nodeId)
        (.remoteProtocol "negotiation available_node_ids must be ascending and unique")
      checkAvailableNodeIds (some nodeId) rest

def checkNegotiatedChunk (entry : NegotiatedChunk) : Except EngineExc Unit := do
  failIf (entry.chunk.sizeBytes = 0) (.remoteProtocol "negotiation size_bytes is invalid")
  checkAvailableNodeIds none entry.availableNodeIds

def negotiateChunks (sessionId : UuidV7) (response : Except EngineExc ChunkNegotiationResult) :
    Except EngineExc ChunkNegotiationResult := do
  let result ← response
  failIf (result.sessionId ≠ sessionId)
    (.remoteProtocol "negotiation response session_id does not match request")
  failIf (nodeIdInvalid result.targetNodeId)
    (.remoteProtocol "negotiation response target_node_id is invalid")
  forEach result.chunks checkNegotiatedChunk
  .ok result

def getUploadSession (db : Db) (sessionId : UuidV7) : Except EngineExc (Option SessionRow) :=
  match db.uploadSessions.find? sessionId with
  | none => .ok none
  | some stored => ((reconstructUploadSession stored).mapError .domain).map some

/-- The checks of `register_storage_location` before its request. -/
def checkStorageLocation (location : StorageLocation) : Except EngineExc Unit := do
  failIf (nodeIdInvalid location.nodeId) (.invalidArgument "storage location node_id is invalid")
  failIf (location.storagePath = "")
    (.invalidArgument "storage location storage_path must not be empty")

end MetadataClient

def serveRegisterStorageLocation (env : Environment) (db : Db) (location : StorageLocation) :
    Except EngineExc Unit × Db :=
  let answer := serve env db (.registerStorageLocation location)
  ((answer.1.map fun _ => ()).mapError fun e => .client (.remoteApi e), answer.2)

/-! ## Storage nodes -/

def serveStorage (env : Environment) (store : ChunkStore) (request : StorageRequest) :
    Except EngineExc StorageReply × ChunkStore :=
  let answer := StorageNodeService.handleRequest env store request
  (answer.1.mapError fun e => .client (.storageApi e), answer.2)

namespace StorageNodeClient

def hasChunk (response : Except EngineExc StorageReply) : Except EngineExc Bool := do
  match ← response with
  | .present found => .ok found
  | _ => .error .unexpectedStatus

def putChunk (response : Except EngineExc StorageReply) : Except EngineExc Unit := do
  match ← response with
  | .noContent => .ok ()
  | _ => .error .unexpectedStatus

end StorageNodeClient

end AiArtifactStore.Client
