import AiArtifactStore.Client.Growth
import AiArtifactStore.Push.Engine

/-!
# What a step of a push can do

A step records a failure or makes progress: `Progress` and `WorkerProgress` say,
for each step of the reader and of a worker, what it changes and what its
requests have established.
-/

namespace AiArtifactStore.Push

open AiArtifactStore.Foundation
open AiArtifactStore.Identity
open AiArtifactStore.Metadata
open AiArtifactStore.Storage
open AiArtifactStore.Chunking
open AiArtifactStore.Client

/-- A step of a worker that meets no exception: the services, the queue and the
worker after it. -/
inductive WorkerProgress (env : Environment) (s : PushState) :
    Worker → Services → BoundedQueue UploadTask → Worker → Prop
  | pop {task : UploadTask} {queue : BoundedQueue UploadTask}
      (hpop : s.shared.queue.pop = some (some task, queue)) :
      WorkerProgress env s .idle s.services queue (.uploading task task.desiredNodeIds .start)
  | exit {queue : BoundedQueue UploadTask} (hpop : s.shared.queue.pop = some (none, queue)) :
      WorkerProgress env s .idle s.services queue .exited
  | uploaded {task : UploadTask} {phase : UploadPhase} :
      WorkerProgress env s (.uploading task [] phase) s.services s.shared.queue .idle
  | verified {task : UploadTask} {nodeId : String} {rest : List String} {services : Services}
      (havailable : nodeId ∈ task.availableNodeIds) (hgrows : s.services.Grows services)
      (hpresent : s.services.Present task.chunk.chunkId nodeId) :
      WorkerProgress env s (.uploading task (nodeId :: rest) .start) services s.shared.queue
        (.uploading task rest .start)
  | absent {task : UploadTask} {nodeId : String} {rest : List String} {services : Services}
      {repaired : Bool} (hgrows : s.services.Grows services) :
      WorkerProgress env s (.uploading task (nodeId :: rest) .start) services s.shared.queue
        (.uploading task (nodeId :: rest) (.put repaired))
  | put {task : UploadTask} {nodeId : String} {rest : List String} {services : Services}
      {repaired : Bool} (hgrows : s.services.Grows services)
      (hpresent : services.Present task.chunk.chunkId nodeId) :
      WorkerProgress env s (.uploading task (nodeId :: rest) (.put repaired)) services
        s.shared.queue (.uploading task (nodeId :: rest) .register)
  | registered {task : UploadTask} {nodeId : String} {rest : List String} {services : Services}
      (hgrows : s.services.Grows services)
      (havailable : services.Available task.chunk.chunkId nodeId) :
      WorkerProgress env s (.uploading task (nodeId :: rest) .register) services s.shared.queue
        (.uploading task rest .start)
  | cancelled : WorkerProgress env s .failing s.services s.shared.queue.cancel .exited

structure Negotiated (before after : Services) (staging : List StagedChunk)
    (work : List (StagedChunk × NegotiatedChunk)) : Prop where
  staged : work.map Prod.fst = staging
  known : ∀ entry ∈ work, after.Known entry.2.chunk
  available : ∀ entry ∈ work, ∀ nodeId ∈ entry.2.availableNodeIds,
    before.Available entry.2.chunk.chunkId nodeId

inductive Progress (env : Environment) (ctx : PushContext) (s : PushState) : PushState → Prop
  | read {data rest : List UInt8} (htop : s.reader.atTop = true)
      (hinput : s.reader.input = data ++ rest) :
      Progress env ctx s { s with
        reader := { s.reader with
          input := rest
          fed := s.reader.fed ++ data
          chunkFeed := (s.reader.chunkFeed.advance data).1
          pending := (s.reader.chunkFeed.advance data).2
          atEnd := false } }
  | finalized {chunkFeed : ChunkFeed} (hphase : s.reader.phase = .scanning)
      (hpending : s.reader.pending = []) (hopen : s.reader.atEnd = false)
      (hinput : s.reader.input = []) :
      Progress env ctx s { s with
        reader := { s.reader with
          input := s.reader.input
          fed := s.reader.fed ++ []
          chunkFeed := chunkFeed
          pending := s.reader.chunkFeed.lastChunk
          atEnd := true } }
  | record {chunk : ChunkBuffer} {rest : List ChunkBuffer} (hphase : s.reader.phase = .scanning)
      (hpending : s.reader.pending = chunk :: rest) :
      Progress env ctx s
        { s with reader := Reader.recordChunk env { s.reader with pending := rest } chunk }
  | negotiated {services : Services} {work : List (StagedChunk × NegotiatedChunk)}
      (hphase : s.reader.phase = .scanning) (hgrows : s.services.Grows services)
      (hwork : Negotiated s.services services s.reader.staging work) :
      Progress env ctx s { s with
        services := services
        reader := { s.reader with phase := .enqueueing work, staging := [] } }
  | enqueued {staged : StagedChunk} {negotiated : NegotiatedChunk}
      {rest : List (StagedChunk × NegotiatedChunk)} {task : UploadTask}
      {queue : BoundedQueue UploadTask}
      (hphase : s.reader.phase = .enqueueing ((staged, negotiated) :: rest))
      (htask : PushState.uploadTask env ctx staged negotiated = .ok task)
      (hpush : s.shared.queue.push task = some (true, queue)) :
      Progress env ctx s { s with
        shared := { s.shared with queue := queue }
        reader := { s.reader with phase := .enqueueing rest } }
  | resumed (hphase : s.reader.phase = .enqueueing []) :
      Progress env ctx s { s with reader := { s.reader with phase := .scanning } }
  | closed (hphase : s.reader.phase = .scanning) (hstaging : s.reader.staging = [])
      (hpending : s.reader.pending = []) (hend : s.reader.atEnd = true) :
      Progress env ctx s s.closeQueue
  | cancelled (hphase : s.reader.phase = .failing) :
      Progress env ctx s { s.cancelQueue with reader := { s.reader with phase := .failed } }
  | worker {index : Nat} {worker worker' : Worker} {services : Services}
      {queue : BoundedQueue UploadTask} {counters : UploadCounters}
      (hworker : s.workers[index]? = some worker)
      (hprogress : WorkerProgress env s worker services queue worker') :
      Progress env ctx s
        { services := services
          shared := ⟨queue, s.shared.firstFailure, counters⟩
          reader := s.reader
          workers := s.workers.set index worker' }

namespace PushState

variable {env : Environment} {ctx : PushContext} {s s' : PushState} {delivery : Delivery}

theorem recordFailure_ne_none {shared : SharedWorkerState} {e : EngineExc} :
    (recordFailure shared e).firstFailure ≠ none := by
  simp [recordFailure]

theorem failReader_failed {e : EngineExc} : (s.failReader e).shared.firstFailure ≠ none :=
  recordFailure_ne_none

theorem atTop_iff : s.reader.atTop = true ↔
    s.reader.phase = .scanning ∧ s.reader.batchReady = false ∧ s.reader.pending = [] ∧
      s.reader.atEnd = false := by
  simp [Reader.atTop, and_assoc]

theorem finalizeFeed_cases (hphase : s.reader.phase = .scanning) (hpending : s.reader.pending = [])
    (hopen : s.reader.atEnd = false) (hinput : s.reader.input = []) :
    s.finalizeFeed.shared.firstFailure ≠ none ∨ Progress env ctx s s.finalizeFeed := by
  unfold finalizeFeed
  cases hfinalize : s.reader.chunkFeed.finalize with
  | error e => exact .inl failReader_failed
  | ok r =>
      obtain ⟨chunkFeed, chunks⟩ := r
      obtain rfl := ChunkFeed.finalize_ok hfinalize
      exact .inr (.finalized hphase hpending hopen hinput)

theorem read_cases {count : Nat} (h : s.read count = some s') :
    s'.shared.firstFailure ≠ none ∨ Progress env ctx s s' := by
  unfold read at h
  split at h
  · rename_i htop
    obtain ⟨hphase, -, hpending, hopen⟩ := atTop_iff.mp htop
    split at h
    · obtain rfl := Option.some.inj h
      exact .inl failReader_failed
    · split at h
      · cases h
      · split at h
        · split at h
          · rename_i hinput
            obtain rfl := Option.some.inj h
            exact finalizeFeed_cases hphase hpending hopen hinput
          · cases h
        · obtain rfl := Option.some.inj h
          cases hupdate : s.reader.chunkFeed.update (s.reader.input.take count) with
          | error e => exact .inl failReader_failed
          | ok r =>
              obtain ⟨chunkFeed, chunks⟩ := r
              obtain ⟨rfl, rfl⟩ := ChunkFeed.update_ok hupdate
              exact .inr (.read htop (List.take_append_drop count _).symm)
  · cases h

theorem negotiation_spec :
    s.services.Grows (s.services.setDb (s.negotiation env ctx delivery).2) ∧
      ∀ result, (s.negotiation env ctx delivery).1 = .ok result →
        ∀ entry ∈ result.chunks,
          (s.services.setDb (s.negotiation env ctx delivery).2).Known entry.chunk ∧
            ∀ nodeId ∈ entry.availableNodeIds,
              s.services.Available entry.chunk.chunkId nodeId := by
  unfold negotiation
  simp only
  split
  · exact ⟨.refl _, fun result hresult => by cases hresult⟩
  · exact Services.serveNegotiateChunks_spec

theorem negotiate_cases (hphase : s.reader.phase = .scanning) :
    (s.negotiate env ctx delivery).shared.firstFailure ≠ none ∨
      Progress env ctx s (s.negotiate env ctx delivery) := by
  obtain ⟨hgrows, hentries⟩ := @negotiation_spec env ctx s delivery
  unfold negotiate
  simp only
  cases hanswer : (s.negotiation env ctx delivery).1 with
  | error e => exact .inl failReader_failed
  | ok result =>
      simp only
      cases hmatch : matchNegotiation ctx s.reader.staging result with
      | error e => exact .inl failReader_failed
      | ok u =>
          simp only [matchNegotiation, failIf_eq_ok, not_or, Decidable.not_not] at hmatch
          have hwork : Negotiated s.services
              (s.services.setDb (s.negotiation env ctx delivery).2) s.reader.staging
              (s.reader.staging.zip result.chunks) := by
            refine ⟨List.map_fst_zip (Nat.le_of_eq hmatch.2.2.symm), ?_, ?_⟩
            · exact fun entry hentry => (hentries result hanswer _ (List.of_mem_zip hentry).2).1
            · exact fun entry hentry => (hentries result hanswer _ (List.of_mem_zip hentry).2).2
          exact .inr (.negotiated hphase hgrows hwork)

theorem enqueue_cases {staged : StagedChunk} {negotiated : NegotiatedChunk}
    {rest : List (StagedChunk × NegotiatedChunk)}
    (hphase : s.reader.phase = .enqueueing ((staged, negotiated) :: rest))
    (h : s.enqueue env ctx staged negotiated rest = some s') :
    s'.shared.firstFailure ≠ none ∨ Progress env ctx s s' := by
  unfold enqueue at h
  cases htask : uploadTask env ctx staged negotiated with
  | error e =>
      simp only [htask] at h
      obtain rfl := Option.some.inj h
      exact .inl failReader_failed
  | ok task =>
      simp only [htask] at h
      cases hpush : s.shared.queue.push task with
      | none => simp [hpush] at h
      | some r =>
          obtain ⟨accepted, queue⟩ := r
          cases accepted with
          | false =>
              simp only [hpush] at h
              obtain rfl := Option.some.inj h
              exact .inl failReader_failed
          | true =>
              simp only [hpush] at h
              obtain rfl := Option.some.inj h
              exact .inr (.enqueued hphase htask hpush)

theorem readerStep_cases (h : s.readerStep env ctx delivery = some s') :
    s'.shared.firstFailure ≠ none ∨ Progress env ctx s s' := by
  unfold readerStep at h
  split at h
  · rename_i hphase
    obtain rfl := Option.some.inj h
    exact .inr (.resumed hphase)
  · rename_i hphase
    exact enqueue_cases hphase h
  · rename_i hphase
    obtain rfl := Option.some.inj h
    exact .inr (.cancelled hphase)
  · cases h
  · cases h
  · rename_i hphase
    split at h
    · obtain rfl := Option.some.inj h
      exact negotiate_cases hphase
    · rename_i hready
      split at h
      · rename_i chunk rest hpending
        obtain rfl := Option.some.inj h
        exact .inr (.record hphase hpending)
      · rename_i hpending
        split at h
        · rename_i hend
          obtain rfl := Option.some.inj h
          simp [Reader.batchReady, hpending, hend] at hready
          exact .inr (.closed hphase hready.2 hpending hend)
        · rename_i hopen
          split at h
          · rename_i hinput
            obtain rfl := Option.some.inj h
            exact finalizeFeed_cases hphase hpending (by simpa using hopen) hinput
          · cases h

/-! ## Workers -/

def WorkerCases (env : Environment) (s : PushState) (worker : Worker)
    (result : PushState × Worker) : Prop :=
  result.1.shared.firstFailure ≠ none ∨
    result.1.reader = s.reader ∧ result.1.shared.firstFailure = s.shared.firstFailure ∧
      WorkerProgress env s worker result.1.services result.1.shared.queue result.2

theorem startNode_cases {task : UploadTask} {nodeId : String} {rest : List String} :
    WorkerCases env s (.uploading task (nodeId :: rest) .start)
      (s.startNode env ctx task nodeId rest delivery) := by
  obtain ⟨hgrows, hpresent⟩ :=
    @Services.headChunk_spec env s.services delivery task.chunk.chunkId nodeId
  unfold startNode
  simp only
  split
  · exact .inl recordFailure_ne_none
  · split
    · rename_i havailable
      split
      · exact .inl recordFailure_ne_none
      · rename_i hanswer
        exact .inr ⟨rfl, rfl, .verified havailable hgrows (hpresent hanswer)⟩
      · exact .inr ⟨rfl, rfl, .absent hgrows⟩
    · exact .inr ⟨rfl, rfl, .absent (.refl _)⟩

theorem putNode_cases {task : UploadTask} {nodeId : String} {rest : List String}
    {repaired : Bool} :
    WorkerCases env s (.uploading task (nodeId :: rest) (.put repaired))
      (s.putNode env task nodeId rest repaired delivery) := by
  obtain ⟨hgrows, hpresent⟩ :=
    @Services.putChunk_spec env s.services delivery task.chunk.chunkId nodeId task.bytes
  unfold putNode
  simp only
  split
  · exact .inl recordFailure_ne_none
  · rename_i hanswer
    exact .inr ⟨rfl, rfl, .put hgrows (hpresent hanswer)⟩

theorem registerNode_cases {task : UploadTask} {nodeId : String} {rest : List String} :
    WorkerCases env s (.uploading task (nodeId :: rest) .register)
      (s.registerNode env task nodeId rest delivery) := by
  unfold registerNode
  simp only
  split
  · exact .inl recordFailure_ne_none
  · obtain ⟨hgrows, havailable⟩ := @Services.grows_registerStorageLocation env s.services delivery
      ⟨task.chunk.chunkId, nodeId, logicalStoragePath task.chunk.chunkId, .available⟩ rfl
    split
    · exact .inl recordFailure_ne_none
    · rename_i hanswer
      exact .inr ⟨rfl, rfl, .registered hgrows (havailable hanswer)⟩

theorem workerAction_cases {worker : Worker} {result : PushState × Worker}
    (h : s.workerAction env ctx delivery worker = some result) :
    WorkerCases env s worker result := by
  unfold workerAction at h
  split at h
  · split at h
    · cases h
    · rename_i hpop
      obtain rfl := Option.some.inj h
      exact .inr ⟨rfl, rfl, .exit hpop⟩
    · rename_i hpop
      obtain rfl := Option.some.inj h
      exact .inr ⟨rfl, rfl, .pop hpop⟩
  · obtain rfl := Option.some.inj h
    exact .inr ⟨rfl, rfl, .uploaded⟩
  · obtain rfl := Option.some.inj h
    exact startNode_cases
  · obtain rfl := Option.some.inj h
    exact putNode_cases
  · obtain rfl := Option.some.inj h
    exact registerNode_cases
  · obtain rfl := Option.some.inj h
    exact .inr ⟨rfl, rfl, .cancelled⟩
  · cases h

theorem workerStep_cases {index : Nat} (h : s.workerStep env ctx index delivery = some s') :
    s'.shared.firstFailure ≠ none ∨ Progress env ctx s s' := by
  unfold workerStep at h
  split at h
  · cases h
  · rename_i worker hworker
    split at h
    · cases h
    · rename_i next worker' haction
      obtain rfl := Option.some.inj h
      rcases workerAction_cases haction with hfailed | ⟨hreader, hfailure, hprogress⟩
      · exact .inl hfailed
      · have heq : { next with workers := s.workers.set index worker' } =
            (⟨next.services, ⟨next.shared.queue, s.shared.firstFailure, next.shared.counters⟩,
              s.reader, s.workers.set index worker'⟩ : PushState) := by
          rw [← hreader, ← hfailure]
        rw [heq]
        exact .inr (.worker hworker hprogress)

theorem step_cases {op : PushOp} (h : step env ctx s op = some s') :
    s'.shared.firstFailure ≠ none ∨ Progress env ctx s s' := by
  cases op with
  | read count => exact read_cases h
  | readFailure =>
      simp only [step] at h
      split at h
      · obtain rfl := Option.some.inj h
        exact .inl failReader_failed
      · cases h
  | reader delivery => exact readerStep_cases h
  | worker index delivery => exact workerStep_cases h

end PushState

theorem Progress.firstFailure {env : Environment} {ctx : PushContext} {s s' : PushState}
    (h : Progress env ctx s s') : s'.shared.firstFailure = s.shared.firstFailure := by
  cases h <;> rfl

end AiArtifactStore.Push
