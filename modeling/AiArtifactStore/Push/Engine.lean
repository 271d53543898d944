import AiArtifactStore.Client.PushClients
import AiArtifactStore.Push.ChunkFeed
import AiArtifactStore.Push.Queue

/-!
# The push engine

`PushEngine::push` as a machine of five threads: the reader and four upload
workers that share a bounded queue.  A step of a thread is one critical section
or one request; any thread that can make a step may make the next one.
-/

namespace AiArtifactStore.Push

open AiArtifactStore.Foundation
open AiArtifactStore.Identity
open AiArtifactStore.Metadata
open AiArtifactStore.Storage
open AiArtifactStore.Chunking
open AiArtifactStore.Client
open Relation

def kReadBufferSize : Nat := 1024 * 1024

def kWorkerCount : Nat := 4

def kQueueCapacity : Nat := 8

def kNegotiationBatchSize : Nat := 4

def kMaxM4ChunkSize : Nat := 8 * 1024 * 1024

def logicalStoragePath (chunkId : ContentId) : String := "/v1/chunks/" ++ chunkId.hex

/-! ## Data -/

structure UploadTask where
  chunk : ChunkMetadata
  bytes : List UInt8
  availability : ChunkAvailability
  availableNodeIds : List String
  desiredNodeIds : List String
  deriving DecidableEq, Repr

structure StagedChunk where
  metadata : ChunkMetadata
  bytes : List UInt8
  deriving DecidableEq, Repr

structure PushStats where
  bytesRead : Nat
  totalChunks : Nat
  uniqueChunks : Nat
  putRequests : Nat
  verifiedTargetChunks : Nat
  repairedTargetChunks : Nat
  bytesSentToStorage : Nat
  deriving DecidableEq, Repr

structure PreparedPush where
  sessionId : UuidV7
  layoutDescriptor : ObjectLayoutDescriptor
  stats : PushStats
  deriving DecidableEq

structure UploadCounters where
  putRequests : Nat
  verifiedTargetChunks : Nat
  repairedTargetChunks : Nat
  bytesSentToStorage : Nat
  deriving DecidableEq, Repr

structure SharedWorkerState where
  queue : BoundedQueue UploadTask
  firstFailure : Option EngineExc
  counters : UploadCounters
  deriving DecidableEq

def recordFailure (shared : SharedWorkerState) (e : EngineExc) : SharedWorkerState :=
  { shared with firstFailure := shared.firstFailure.or (some e) }

/-- What a push keeps fixed: its request, the session it read, and the nodes of
its client pool. -/
structure PushContext where
  sessionId : UuidV7
  session : UploadSession
  pool : List String

/-! ## The reader -/

inductive ReaderPhase where
  | scanning
  | enqueueing (work : List (StagedChunk × NegotiatedChunk))
  | failing
  | failed
  | finished
  deriving DecidableEq, Repr

/-- `pending` holds the chunks that the consumer has not been called with yet;
`fed` is what the object hasher has seen. -/
structure Reader where
  phase : ReaderPhase
  input : List UInt8
  fed : List UInt8
  chunkFeed : ChunkFeed
  pending : List ChunkBuffer
  atEnd : Bool
  layoutRefs : List ChunkRef
  seenChunkIds : List ContentId
  staging : List StagedChunk

def chunkRef (env : Environment) (chunk : ChunkBuffer) : ChunkRef :=
  ⟨env.contentId chunk.bytes, chunk.offset, chunk.bytes.length⟩

def stagedChunk (env : Environment) (chunk : ChunkBuffer) : StagedChunk :=
  ⟨⟨env.contentId chunk.bytes, chunk.bytes.length⟩, chunk.bytes⟩

namespace Reader

def recordChunk (env : Environment) (r : Reader) (chunk : ChunkBuffer) : Reader :=
  let r := { r with layoutRefs := r.layoutRefs ++ [chunkRef env chunk] }
  if env.contentId chunk.bytes ∈ r.seenChunkIds then r
  else
    { r with
      seenChunkIds := r.seenChunkIds ++ [env.contentId chunk.bytes]
      staging := r.staging ++ [stagedChunk env chunk] }

/-- The staged chunks are due: a full batch, or the rest after the last chunk. -/
def batchReady (r : Reader) : Bool :=
  r.staging.length = kNegotiationBatchSize || (r.atEnd && r.pending.isEmpty && !r.staging.isEmpty)

def atTop (r : Reader) : Bool :=
  decide (r.phase = .scanning) && !r.batchReady && r.pending.isEmpty && !r.atEnd

end Reader

/-! ## The workers -/

inductive UploadPhase where
  | start
  | put (repaired : Bool)
  | register
  deriving DecidableEq, Repr

inductive Worker where
  | idle
  | uploading (task : UploadTask) (nodes : List String) (phase : UploadPhase)
  | failing
  | exited
  deriving DecidableEq, Repr

structure PushState where
  services : Services
  shared : SharedWorkerState
  reader : Reader
  workers : List Worker

namespace PushState

def failReader (s : PushState) (e : EngineExc) : PushState :=
  { s with
    shared := recordFailure s.shared e
    reader := { s.reader with phase := .failing } }

/-! ## Steps of the reader -/

def fed (s : PushState) (data rest : List UInt8) (atEnd : Bool)
    (result : Except ChunkerExc (ChunkFeed × List ChunkBuffer)) : PushState :=
  match result with
  | .error e => s.failReader (.chunker e)
  | .ok (chunkFeed, chunks) =>
      { s with
        reader := { s.reader with
          input := rest
          fed := s.reader.fed ++ data
          chunkFeed := chunkFeed
          pending := chunks
          atEnd := atEnd } }

def finalizeFeed (s : PushState) : PushState :=
  s.fed [] s.reader.input true s.reader.chunkFeed.finalize

def read (s : PushState) (count : Nat) : Option PushState :=
  if s.reader.atTop then
    if s.shared.queue.cancelled then some (s.failReader (.runtimeError "push cancelled"))
    else if count > kReadBufferSize ∨ count > s.reader.input.length then none
    else if count = 0 then
      if s.reader.input = [] then some s.finalizeFeed else none
    else
      some (s.fed (s.reader.input.take count) (s.reader.input.drop count) false
        (s.reader.chunkFeed.update (s.reader.input.take count)))
  else none

def matchNegotiation (ctx : PushContext) (batch : List StagedChunk)
    (result : ChunkNegotiationResult) : Except EngineExc Unit :=
  failIf (result.sessionId ≠ ctx.sessionId ∨ result.targetNodeId ≠ ctx.session.targetNodeId ∨
      result.chunks.length ≠ batch.length)
    (.remoteProtocol "negotiation response does not match staged batch")

def negotiation (env : Environment) (ctx : PushContext) (s : PushState) (delivery : Delivery) :
    Except EngineExc ChunkNegotiationResult × Db :=
  let chunks := s.reader.staging.map StagedChunk.metadata
  match MetadataClient.checkNegotiation chunks with
  | .error e => (.error e, s.services.db)
  | .ok () =>
      let answer := exchange delivery s.services.db
        (serveNegotiateChunks env s.services.db ctx.sessionId chunks)
      (MetadataClient.negotiateChunks ctx.sessionId answer.1, answer.2)

def negotiate (env : Environment) (ctx : PushContext) (s : PushState) (delivery : Delivery) :
    PushState :=
  let answer := negotiation env ctx s delivery
  let next := { s with services := { s.services with db := answer.2 } }
  match answer.1 with
  | .error e => next.failReader e
  | .ok result =>
      match matchNegotiation ctx s.reader.staging result with
      | .error e => next.failReader e
      | .ok () =>
          { next with
            reader := { s.reader with
              phase := .enqueueing (s.reader.staging.zip result.chunks)
              staging := [] } }

def uploadTask (env : Environment) (ctx : PushContext) (staged : StagedChunk)
    (negotiated : NegotiatedChunk) : Except EngineExc UploadTask := do
  failIf (negotiated.chunk.chunkId ≠ staged.metadata.chunkId ∨
      negotiated.chunk.sizeBytes ≠ staged.metadata.sizeBytes)
    (.remoteProtocol "negotiation chunk metadata mismatch")
  let desired ← (selectReplicaNodes env staged.metadata.chunkId ctx.session.placementNodeIds
    ctx.session.replicationFactor).mapError .domain
  forEach desired fun nodeId => failIf (nodeId ∉ ctx.pool)
    (.runtimeError "upload session desired replica node is not available in storage pool")
  .ok ⟨staged.metadata, staged.bytes, negotiated.availability, negotiated.availableNodeIds,
    desired⟩

def enqueue (env : Environment) (ctx : PushContext) (s : PushState) (staged : StagedChunk)
    (negotiated : NegotiatedChunk) (rest : List (StagedChunk × NegotiatedChunk)) :
    Option PushState :=
  match uploadTask env ctx staged negotiated with
  | .error e => some (s.failReader e)
  | .ok task =>
      match s.shared.queue.push task with
      | none => none
      | some (false, _) =>
          some (s.failReader (.runtimeError "push cancelled while enqueueing upload work"))
      | some (true, queue) =>
          some { s with
            shared := { s.shared with queue := queue }
            reader := { s.reader with phase := .enqueueing rest } }

def closeQueue (s : PushState) : PushState :=
  { s with
    shared := { s.shared with queue := s.shared.queue.close }
    reader := { s.reader with phase := .finished } }

def cancelQueue (s : PushState) : PushState :=
  { s with shared := { s.shared with queue := s.shared.queue.cancel } }

def readerStep (env : Environment) (ctx : PushContext) (s : PushState) (delivery : Delivery) :
    Option PushState :=
  match s.reader.phase with
  | .enqueueing [] => some { s with reader := { s.reader with phase := .scanning } }
  | .enqueueing ((staged, negotiated) :: rest) => s.enqueue env ctx staged negotiated rest
  | .failing => some { s.cancelQueue with reader := { s.reader with phase := .failed } }
  | .failed => none
  | .finished => none
  | .scanning =>
      if s.reader.batchReady then some (s.negotiate env ctx delivery)
      else
        match s.reader.pending with
        | chunk :: rest =>
            some { s with reader := Reader.recordChunk env { s.reader with pending := rest } chunk }
        | [] =>
            if s.reader.atEnd then some s.closeQueue
            else if s.reader.input = [] then some s.finalizeFeed
            else none

/-! ## Steps of a worker -/

def failWorker (s : PushState) (e : EngineExc) : PushState × Worker :=
  ({ s with shared := recordFailure s.shared e }, .failing)

def setStore (s : PushState) (nodeId : String) (store : ChunkStore) : PushState :=
  { s with
    services := { s.services with stores := Function.update s.services.stores nodeId store } }

def setCounters (s : PushState) (counters : UploadCounters) : PushState :=
  { s with shared := { s.shared with counters := counters } }

def storageExchange (env : Environment) (s : PushState) (nodeId : String) (request : StorageRequest)
    (delivery : Delivery) : Except EngineExc StorageReply × ChunkStore :=
  exchange delivery (s.services.stores nodeId)
    (serveStorage env (s.services.stores nodeId) request)

/-- The start of one desired node: `client_for`, then `has_chunk` on a node that
the negotiation gave as available. -/
def startNode (env : Environment) (ctx : PushContext) (s : PushState) (task : UploadTask)
    (nodeId : String) (rest : List String) (delivery : Delivery) : PushState × Worker :=
  if nodeId ∉ ctx.pool then
    s.failWorker (.invalidArgument "storage node client not found in pool")
  else if nodeId ∈ task.availableNodeIds then
    let answer := s.storageExchange env nodeId (.headChunk task.chunk.chunkId) delivery
    let next := s.setStore nodeId answer.2
    match StorageNodeClient.hasChunk answer.1 with
    | .error e => next.failWorker e
    | .ok true =>
        (next.setCounters { s.shared.counters with
          verifiedTargetChunks := s.shared.counters.verifiedTargetChunks + 1 },
          .uploading task rest .start)
    | .ok false => (next, .uploading task (nodeId :: rest) (.put true))
  else (s, .uploading task (nodeId :: rest) (.put false))

def putNode (env : Environment) (s : PushState) (task : UploadTask) (nodeId : String)
    (rest : List String) (repaired : Bool) (delivery : Delivery) : PushState × Worker :=
  let answer := s.storageExchange env nodeId (.putChunk task.chunk.chunkId task.bytes) delivery
  let next := s.setStore nodeId answer.2
  match StorageNodeClient.putChunk answer.1 with
  | .error e => next.failWorker e
  | .ok () =>
      (next.setCounters
        { putRequests := s.shared.counters.putRequests + 1
          verifiedTargetChunks := s.shared.counters.verifiedTargetChunks
          repairedTargetChunks :=
            s.shared.counters.repairedTargetChunks + if repaired then 1 else 0
          bytesSentToStorage := s.shared.counters.bytesSentToStorage + task.bytes.length },
        .uploading task (nodeId :: rest) .register)

/-- `register_available` -/
def registerNode (env : Environment) (s : PushState) (task : UploadTask) (nodeId : String)
    (rest : List String) (delivery : Delivery) : PushState × Worker :=
  let location : StorageLocation :=
    ⟨task.chunk.chunkId, nodeId, logicalStoragePath task.chunk.chunkId, .available⟩
  match MetadataClient.checkStorageLocation location with
  | .error e => s.failWorker e
  | .ok () =>
      let answer := exchange delivery s.services.db
        (serveRegisterStorageLocation env s.services.db location)
      let next := { s with services := { s.services with db := answer.2 } }
      match answer.1 with
      | .error e => next.failWorker e
      | .ok () => (next, .uploading task rest .start)

def workerAction (env : Environment) (ctx : PushContext) (s : PushState) (delivery : Delivery) :
    Worker → Option (PushState × Worker)
  | .idle =>
      match s.shared.queue.pop with
      | none => none
      | some (none, queue) => some ({ s with shared := { s.shared with queue := queue } }, .exited)
      | some (some task, queue) =>
          some ({ s with shared := { s.shared with queue := queue } },
            .uploading task task.desiredNodeIds .start)
  | .uploading _ [] _ => some (s, .idle)
  | .uploading task (nodeId :: rest) .start =>
      some (s.startNode env ctx task nodeId rest delivery)
  | .uploading task (nodeId :: rest) (.put repaired) =>
      some (s.putNode env task nodeId rest repaired delivery)
  | .uploading task (nodeId :: rest) .register =>
      some (s.registerNode env task nodeId rest delivery)
  | .failing => some (s.cancelQueue, .exited)
  | .exited => none

def workerStep (env : Environment) (ctx : PushContext) (s : PushState) (index : Nat)
    (delivery : Delivery) : Option PushState :=
  match s.workers[index]? with
  | none => none
  | some worker =>
      match s.workerAction env ctx delivery worker with
      | none => none
      | some (next, worker') => some { next with workers := s.workers.set index worker' }

end PushState

/-! ## Runs -/

inductive PushOp where
  | read (count : Nat)
  | readFailure
  | reader (delivery : Delivery)
  | worker (index : Nat) (delivery : Delivery)

namespace PushState

def step (env : Environment) (ctx : PushContext) (s : PushState) : PushOp → Option PushState
  | .read count => s.read count
  | .readFailure =>
      if s.reader.atTop then
        some (s.failReader (.runtimeError "failed while reading source file"))
      else none
  | .reader delivery => s.readerStep env ctx delivery
  | .worker index delivery => s.workerStep env ctx index delivery

def Step (env : Environment) (ctx : PushContext) (s s' : PushState) : Prop :=
  ∃ op, step env ctx s op = some s'

def Runs (env : Environment) (ctx : PushContext) : PushState → PushState → Prop :=
  ReflTransGen (Step env ctx)

def afterOps (env : Environment) (ctx : PushContext) (s : PushState) (ops : List PushOp) :
    Option PushState :=
  ops.foldlM (step env ctx) s

theorem runs_afterOps {env : Environment} {ctx : PushContext} {s s' : PushState}
    {ops : List PushOp} (h : afterOps env ctx s ops = some s') : Runs env ctx s s' := by
  induction ops generalizing s with
  | nil =>
      obtain rfl := Option.some.inj h
      exact .refl
  | cons op ops ih =>
      simp only [afterOps, List.foldlM_cons, Option.bind_eq_bind, Option.bind_eq_some_iff] at h
      obtain ⟨next, hstep, hrest⟩ := h
      exact .head ⟨op, hstep⟩ (ih hrest)

end PushState

/-! ## The call -/

def makeLayoutDescriptor (object : StoredObject) (chunking : SessionChunking)
    (layout : ObjectLayout) : Except Exc ObjectLayoutDescriptor :=
  match chunking with
  | .fixedSize _ => ObjectLayoutDescriptor.make object .fixedSize layout
  | .fastCdc p => ObjectLayoutDescriptor.make object (.fastCdc p) layout

def describe (env : Environment) (session : UploadSession) (fed : List UInt8)
    (layoutRefs : List ChunkRef) : Except EngineExc ObjectLayoutDescriptor := do
  let layout ← (ObjectLayout.make layoutRefs).mapError .domain
  (makeLayoutDescriptor ⟨env.contentId fed, fed.length⟩ session.chunking layout).mapError .domain

def makeChunkFeed (session : UploadSession) : Except EngineExc ChunkFeed :=
  match session.chunking with
  | .fixedSize chunkSizeBytes => do
      failIf (chunkSizeBytes = 0 ∨ chunkSizeBytes > kMaxM4ChunkSize)
        (.invalidArgument "upload session chunk size exceeds M4 storage limits")
      let chunker ← (FixedSizeChunker.make chunkSizeBytes).mapError .chunker
      .ok (.fixedSize chunker)
  | .fastCdc p => do
      let chunker ← (FastCdcChunker.make p).mapError .chunker
      .ok (.fastCdc chunker)

namespace PushState

theorem kQueueCapacity_pos : 0 < kQueueCapacity := by decide

/-- The threads of `execute_push_data_plane` before their first step. -/
def initial (services : Services) (chunkFeed : ChunkFeed) (input : List UInt8) : PushState :=
  { services := services
    shared := ⟨.make kQueueCapacity kQueueCapacity_pos, none, ⟨0, 0, 0, 0⟩⟩
    reader :=
      { phase := .scanning
        input := input
        fed := []
        chunkFeed := chunkFeed
        pending := []
        atEnd := false
        layoutRefs := []
        seenChunkIds := []
        staging := [] }
    workers := List.replicate kWorkerCount .idle }

def joined (s : PushState) : Bool :=
  decide (s.reader.phase = .finished ∨ s.reader.phase = .failed) &&
    s.workers.all fun worker => worker = .exited

def prepare (env : Environment) (ctx : PushContext) (s : PushState) :
    Except EngineExc PreparedPush :=
  match s.shared.firstFailure with
  | some e => .error e
  | none => do
      let descriptor ← describe env ctx.session s.reader.fed s.reader.layoutRefs
      .ok
        { sessionId := ctx.sessionId
          layoutDescriptor := descriptor
          stats :=
            { bytesRead := s.reader.fed.length
              totalChunks := descriptor.layout.chunks.length
              uniqueChunks := s.reader.seenChunkIds.length
              putRequests := s.shared.counters.putRequests
              verifiedTargetChunks := s.shared.counters.verifiedTargetChunks
              repairedTargetChunks := s.shared.counters.repairedTargetChunks
              bytesSentToStorage := s.shared.counters.bytesSentToStorage } }

/-- The call returns or throws only after the join. -/
def returns (env : Environment) (ctx : PushContext) (s : PushState) :
    Option (Except EngineExc PreparedPush) :=
  if s.joined then some (s.prepare env ctx) else none

end PushState

structure PushEngine where
  pool : List String

/-- The start of `push`: `source` is the content of the file, if it can be opened. -/
def PushEngine.push (engine : PushEngine) (services : Services) (sessionId : UuidV7)
    (source : Option (List UInt8)) : Except EngineExc (PushContext × PushState) := do
  let found ← MetadataClient.getUploadSession services.db sessionId
  let row ← orFail found (.runtimeError "upload session does not exist")
  failIf (row.status.state ≠ .open) (.runtimeError "upload session must be open")
  failIf (row.session.targetNodeId ∉ engine.pool)
    (.invalidArgument "upload session target node is not available in storage pool")
  let chunkFeed ← makeChunkFeed row.session
  let input ← orFail source (.runtimeError "failed to open source file for push")
  .ok (⟨sessionId, row.session, engine.pool⟩, .initial services chunkFeed input)

end AiArtifactStore.Push
