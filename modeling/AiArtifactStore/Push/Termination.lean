import AiArtifactStore.Foundation.Termination
import AiArtifactStore.Push.Fleet

/-!
# A push comes to its end

Whatever the services answer and whoever else uses them: the threads of a push
never wait for each other in a circle, and they make finitely many steps.
-/

namespace AiArtifactStore.Push

open AiArtifactStore.Foundation
open AiArtifactStore.Identity
open AiArtifactStore.Metadata
open AiArtifactStore.Storage
open AiArtifactStore.Chunking
open AiArtifactStore.Client
open Relation

/-! ## What is left to do -/

def ReaderPhase.rank : ReaderPhase → Nat
  | .scanning | .enqueueing _ => 2
  | .failing => 1
  | .failed | .finished => 0

def ReaderPhase.workLeft : ReaderPhase → Nat
  | .enqueueing work => work.length + 1
  | _ => 0

def Reader.inputLeft (r : Reader) : Nat := r.input.length + if r.atEnd then 0 else 1

def UploadPhase.left : UploadPhase → Nat
  | .start => 2
  | .put _ => 1
  | .register => 0

def Worker.left : Worker → Nat
  | .idle => 2
  | .uploading _ nodes phase => 3 * nodes.length + phase.left + 3
  | .failing => 1
  | .exited => 0

def workersLeft (workers : List Worker) : Nat := (workers.map Worker.left).sum

/-- In the order in which a step may trade one for another. -/
def PushState.left (s : PushState) : Nat ×ₗ Nat ×ₗ Nat ×ₗ Nat ×ₗ Nat ×ₗ Nat ×ₗ Nat :=
  toLex (s.reader.phase.rank, toLex (s.reader.inputLeft, toLex (s.reader.pending.length,
    toLex (s.reader.staging.length, toLex (s.reader.phase.workLeft,
      toLex (s.shared.queue.items.length, workersLeft s.workers))))))

section

variable {env : Environment} {ctx : PushContext} {s s' : PushState} {delivery : Delivery}

theorem left_lt_iff : s'.left < s.left ↔
    s'.reader.phase.rank < s.reader.phase.rank ∨
      s'.reader.phase.rank = s.reader.phase.rank ∧
    (s'.reader.inputLeft < s.reader.inputLeft ∨ s'.reader.inputLeft = s.reader.inputLeft ∧
    (s'.reader.pending.length < s.reader.pending.length ∨
      s'.reader.pending.length = s.reader.pending.length ∧
    (s'.reader.staging.length < s.reader.staging.length ∨
      s'.reader.staging.length = s.reader.staging.length ∧
    (s'.reader.phase.workLeft < s.reader.phase.workLeft ∨
      s'.reader.phase.workLeft = s.reader.phase.workLeft ∧
    (s'.shared.queue.items.length < s.shared.queue.items.length ∨
      s'.shared.queue.items.length = s.shared.queue.items.length ∧
        workersLeft s'.workers < workersLeft s.workers))))) := by
  simp only [PushState.left, Prod.Lex.toLex_lt_toLex]

/-! ## Steps of the reader -/

structure ReaderMoves (s s' : PushState) : Prop where
  less : s'.left < s.left
  workers : s'.workers = s.workers
  closed : s.shared.queue.closed = true → s'.shared.queue.closed = true
  ended : s'.reader.phase.rank = 0 → s'.shared.queue.closed = true

theorem running_moves (hrank : s'.reader.phase.rank ≠ 0) (hworkers : s'.workers = s.workers)
    (hqueue : s'.shared.queue = s.shared.queue) (hless : s'.left < s.left) : ReaderMoves s s' :=
  ⟨hless, hworkers, fun hclosed => hqueue ▸ hclosed, fun hended => absurd hended hrank⟩

theorem failing_moves (hrunning : s.reader.phase.rank = 2) (hphase : s'.reader.phase = .failing)
    (hworkers : s'.workers = s.workers) (hqueue : s'.shared.queue = s.shared.queue) :
    ReaderMoves s s' := by
  refine running_moves ?_ hworkers hqueue ?_
  · rw [hphase]
    exact Nat.one_ne_zero
  · rw [left_lt_iff, hphase, hrunning]
    exact .inl Nat.one_lt_two

theorem fed_moves {data rest : List UInt8} {atEnd : Bool}
    {result : Except ChunkerExc (ChunkFeed × List ChunkBuffer)}
    (hphase : s.reader.phase = .scanning)
    (hless : Reader.inputLeft { s.reader with input := rest, atEnd := atEnd } <
      s.reader.inputLeft) :
    ReaderMoves s (s.fed data rest atEnd result) := by
  have hrunning : s.reader.phase.rank = 2 := by
    rw [hphase]
    rfl
  unfold PushState.fed
  split
  · exact failing_moves hrunning rfl rfl rfl
  · refine running_moves ?_ rfl rfl ?_
    · simp only [hrunning]
      exact two_ne_zero
    · rw [left_lt_iff]
      exact .inr ⟨rfl, .inl hless⟩

theorem finalizeFeed_moves (hphase : s.reader.phase = .scanning) (hopen : s.reader.atEnd = false) :
    ReaderMoves s s.finalizeFeed := by
  refine fed_moves hphase ?_
  simp [Reader.inputLeft, hopen]

theorem read_moves {count : Nat} (h : s.read count = some s') : ReaderMoves s s' := by
  unfold PushState.read at h
  split at h
  · rename_i htop
    obtain ⟨hphase, -, -, hopen⟩ := PushState.atTop_iff.mp htop
    have hrunning : s.reader.phase.rank = 2 := by
      rw [hphase]
      rfl
    split at h
    · cases h
      exact failing_moves hrunning rfl rfl rfl
    · split at h
      · cases h
      · rename_i hcount
        split at h
        · split at h
          · cases h
            exact finalizeFeed_moves hphase hopen
          · cases h
        · rename_i hzero
          cases h
          refine fed_moves hphase ?_
          simp only [Reader.inputLeft, hopen, List.length_drop]
          omega
  · cases h

theorem negotiate_moves (hphase : s.reader.phase = .scanning)
    (hready : s.reader.batchReady = true) :
    ReaderMoves s (s.negotiate env ctx delivery) := by
  have hrunning : s.reader.phase.rank = 2 := by
    rw [hphase]
    rfl
  have hstaging : 0 < s.reader.staging.length := by
    simp only [Reader.batchReady, Bool.or_eq_true, decide_eq_true_eq, Bool.and_eq_true] at hready
    rcases hready with hfull | ⟨-, hrest⟩
    · rw [hfull]
      decide
    · exact List.length_pos_iff.mpr (by simpa using hrest)
  unfold PushState.negotiate
  simp only
  split
  · exact failing_moves hrunning rfl rfl rfl
  · split
    · exact failing_moves hrunning rfl rfl rfl
    · refine running_moves two_ne_zero rfl rfl ?_
      rw [left_lt_iff]
      exact .inr ⟨hrunning.symm, .inr ⟨rfl, .inr ⟨rfl, .inl hstaging⟩⟩⟩

theorem enqueue_moves {staged : StagedChunk} {negotiated : NegotiatedChunk}
    {rest : List (StagedChunk × NegotiatedChunk)}
    (hphase : s.reader.phase = .enqueueing ((staged, negotiated) :: rest))
    (h : s.enqueue env ctx staged negotiated rest = some s') : ReaderMoves s s' := by
  have hrunning : s.reader.phase.rank = 2 := by
    rw [hphase]
    rfl
  unfold PushState.enqueue at h
  split at h
  · cases h
    exact failing_moves hrunning rfl rfl rfl
  · split at h
    · cases h
    · cases h
      exact failing_moves hrunning rfl rfl rfl
    · rename_i hpush
      cases h
      refine ⟨?_, rfl, fun hclosed => ?_, fun hended => absurd hended two_ne_zero⟩
      · rw [left_lt_iff]
        refine .inr ⟨hrunning.symm, .inr ⟨rfl, .inr ⟨rfl, .inr ⟨rfl, .inl ?_⟩⟩⟩⟩
        simp only [hphase, ReaderPhase.workLeft, List.length_cons]
        omega
      · rw [(BoundedQueue.push_accepted hpush).1] at hclosed
        cases hclosed

theorem record_moves {chunk : ChunkBuffer} {rest : List ChunkBuffer}
    (hphase : s.reader.phase = .scanning) (hpending : s.reader.pending = chunk :: rest) :
    ReaderMoves s { s with
      reader := Reader.recordChunk env { s.reader with pending := rest } chunk } := by
  have hkept : (Reader.recordChunk env { s.reader with pending := rest } chunk).phase = .scanning ∧
      (Reader.recordChunk env { s.reader with pending := rest } chunk).inputLeft =
        s.reader.inputLeft ∧
      (Reader.recordChunk env { s.reader with pending := rest } chunk).pending = rest := by
    simp only [Reader.recordChunk]
    split
    · exact ⟨hphase, rfl, rfl⟩
    · exact ⟨hphase, rfl, rfl⟩
  obtain ⟨hscanning, hinput, hrest⟩ := hkept
  refine running_moves ?_ rfl rfl ?_
  · simp only [hscanning]
    exact two_ne_zero
  · rw [left_lt_iff]
    refine .inr ⟨?_, .inr ⟨hinput, .inl ?_⟩⟩
    · rw [hscanning, hphase]
    · rw [hrest, hpending]
      exact Nat.lt_succ_self _

theorem readerStep_moves (h : s.readerStep env ctx delivery = some s') : ReaderMoves s s' := by
  unfold PushState.readerStep at h
  split at h
  · rename_i hphase
    cases h
    refine running_moves two_ne_zero rfl rfl ?_
    rw [left_lt_iff, hphase]
    exact .inr ⟨rfl, .inr ⟨rfl, .inr ⟨rfl, .inr ⟨rfl, .inl Nat.one_pos⟩⟩⟩⟩
  · rename_i hphase
    exact enqueue_moves hphase h
  · rename_i hphase
    cases h
    refine ⟨?_, rfl, fun _ => rfl, fun _ => rfl⟩
    rw [left_lt_iff, hphase]
    exact .inl Nat.one_pos
  · cases h
  · cases h
  · rename_i hphase
    split at h
    · rename_i hready
      cases h
      exact negotiate_moves hphase hready
    · split at h
      · rename_i hpending
        cases h
        exact record_moves hphase hpending
      · split at h
        · cases h
          refine ⟨?_, rfl, fun _ => rfl, fun _ => rfl⟩
          rw [left_lt_iff, hphase]
          exact .inl Nat.two_pos
        · rename_i hopen
          split at h
          · cases h
            exact finalizeFeed_moves hphase (by simpa using hopen)
          · cases h

/-! ## Steps of a worker -/

/-- A worker takes a task, or has less left; the reader stands still, and a worker that
exits has found or left the queue closed. -/
structure WorkerMoves (s : PushState) (worker : Worker) (result : PushState × Worker) :
    Prop where
  reader : result.1.reader = s.reader
  less : result.1.shared.queue.items.length < s.shared.queue.items.length ∨
    result.1.shared.queue.items.length = s.shared.queue.items.length ∧ result.2.left < worker.left
  closed : s.shared.queue.closed = true → result.1.shared.queue.closed = true
  exited : result.2 = .exited → result.1.shared.queue.closed = true

theorem uploading_moves {task : UploadTask} {nodeId : String} {rest : List String}
    {phase : UploadPhase} {next : PushState} {worker : Worker} (hreader : next.reader = s.reader)
    (hqueue : next.shared.queue = s.shared.queue)
    (hworker : worker = .failing ∨ worker = .uploading task rest .start ∨
      ∃ phase', phase'.left < phase.left ∧ worker = .uploading task (nodeId :: rest) phase') :
    WorkerMoves s (.uploading task (nodeId :: rest) phase) (next, worker) := by
  refine ⟨hreader, .inr ⟨congrArg (fun queue => queue.items.length) hqueue, ?_⟩,
    fun hclosed => hqueue ▸ hclosed, fun hexited => ?_⟩
  · rcases hworker with rfl | rfl | ⟨phase', hless, rfl⟩
    · simp only [Worker.left]
      omega
    · simp only [Worker.left, UploadPhase.left, List.length_cons]
      omega
    · simp only [Worker.left]
      omega
  · rcases hworker with rfl | rfl | ⟨phase', -, rfl⟩ <;> cases hexited

theorem startNode_moves {task : UploadTask} {nodeId : String} {rest : List String} :
    WorkerMoves s (.uploading task (nodeId :: rest) .start)
      (s.startNode env ctx task nodeId rest delivery) := by
  unfold PushState.startNode
  simp only
  split
  · exact uploading_moves rfl rfl (.inl rfl)
  · split
    · split
      · exact uploading_moves rfl rfl (.inl rfl)
      · exact uploading_moves rfl rfl (.inr (.inl rfl))
      · exact uploading_moves rfl rfl (.inr (.inr ⟨.put true, by decide, rfl⟩))
    · exact uploading_moves rfl rfl (.inr (.inr ⟨.put false, by decide, rfl⟩))

theorem putNode_moves {task : UploadTask} {nodeId : String} {rest : List String}
    {repaired : Bool} :
    WorkerMoves s (.uploading task (nodeId :: rest) (.put repaired))
      (s.putNode env task nodeId rest repaired delivery) := by
  unfold PushState.putNode
  simp only
  split
  · exact uploading_moves rfl rfl (.inl rfl)
  · exact uploading_moves rfl rfl (.inr (.inr ⟨.register, Nat.one_pos, rfl⟩))

theorem registerNode_moves {task : UploadTask} {nodeId : String} {rest : List String} :
    WorkerMoves s (.uploading task (nodeId :: rest) .register)
      (s.registerNode env task nodeId rest delivery) := by
  unfold PushState.registerNode
  simp only
  split
  · exact uploading_moves rfl rfl (.inl rfl)
  · split
    · exact uploading_moves rfl rfl (.inl rfl)
    · exact uploading_moves rfl rfl (.inr (.inl rfl))

theorem workerAction_moves {worker : Worker} {result : PushState × Worker}
    (h : s.workerAction env ctx delivery worker = some result) : WorkerMoves s worker result := by
  unfold PushState.workerAction at h
  split at h
  · split at h
    · cases h
    · rename_i queue hpop
      cases h
      obtain ⟨rfl, -, hclosed⟩ := BoundedQueue.pop_none hpop
      exact ⟨rfl, .inr ⟨rfl, Nat.two_pos⟩, id, fun _ => hclosed⟩
    · rename_i task queue hpop
      cases h
      obtain ⟨hitems, hclosed, -⟩ := BoundedQueue.pop_some hpop
      refine ⟨rfl, .inl ?_, hclosed.trans, fun hexited => by cases hexited⟩
      rw [hitems]
      exact Nat.lt_succ_self _
  · cases h
    refine ⟨rfl, .inr ⟨rfl, ?_⟩, id, fun hexited => by cases hexited⟩
    simp only [Worker.left]
    omega
  · cases h
    exact startNode_moves
  · cases h
    exact putNode_moves
  · cases h
    exact registerNode_moves
  · cases h
    refine ⟨rfl, ?_, fun _ => rfl, fun _ => rfl⟩
    rcases Nat.eq_zero_or_pos s.shared.queue.items.length with hempty | hpos
    · exact .inr ⟨hempty.symm, Nat.one_pos⟩
    · exact .inl hpos
  · cases h

theorem workersLeft_set {workers : List Worker} {index : Nat} {worker worker' : Worker}
    (h : workers[index]? = some worker) (hless : worker'.left < worker.left) :
    workersLeft (workers.set index worker') < workersLeft workers := by
  induction workers generalizing index with
  | nil => cases h
  | cons first rest ih =>
      cases index with
      | zero =>
          obtain rfl := Option.some.inj h
          simp only [workersLeft, List.set_cons_zero, List.map_cons, List.sum_cons]
          omega
      | succ index =>
          have hrest := ih h
          simp only [workersLeft, List.set_cons_succ, List.map_cons, List.sum_cons] at hrest ⊢
          omega

theorem worker_lowers {index : Nat} {worker worker' : Worker} {next : PushState}
    (hworker : s.workers[index]? = some worker) (hmoves : WorkerMoves s worker (next, worker')) :
    PushState.left { next with workers := s.workers.set index worker' } < s.left := by
  rw [left_lt_iff]
  have hreader := hmoves.reader
  simp only at hreader ⊢
  rw [hreader]
  refine .inr ⟨rfl, .inr ⟨rfl, .inr ⟨rfl, .inr ⟨rfl, .inr ⟨rfl, ?_⟩⟩⟩⟩⟩
  rcases hmoves.less with hitems | ⟨hitems, hless⟩
  · exact .inl hitems
  · exact .inr ⟨hitems, workersLeft_set hworker hless⟩

/-! ## No thread waits for ever -/

def PushOp.answered : PushOp → Bool
  | .read _ => true
  | .readFailure => false
  | .reader delivery => delivery = .answered
  | .worker _ delivery => delivery = .answered

def AnsweredStep (env : Environment) (ctx : PushContext) (s s' : PushState) : Prop :=
  ∃ op : PushOp, op.answered = true ∧ PushState.step env ctx s op = some s'

/-- There are workers; one of them exits, like the reader, only once the queue is closed. -/
structure Alive (s : PushState) : Prop where
  staffed : s.workers ≠ []
  exited : .exited ∈ s.workers → s.shared.queue.closed = true
  ended : s.reader.phase.rank = 0 → s.shared.queue.closed = true

theorem alive_initial {services : Services} {chunkFeed : ChunkFeed} {input : List UInt8} :
    Alive (.initial services chunkFeed input) := by
  refine ⟨by simp [PushState.initial, kWorkerCount], fun hexited => ?_, fun hended => ?_⟩
  · cases List.eq_of_mem_replicate hexited
  · cases hended

theorem ReaderMoves.alive (h : ReaderMoves s s') (hs : Alive s) : Alive s' := by
  refine ⟨?_, fun hexited => h.closed (hs.exited ?_), h.ended⟩
  · rw [h.workers]
    exact hs.staffed
  · rwa [← h.workers]

theorem WorkerMoves.alive {index : Nat} {worker worker' : Worker} {next : PushState}
    (h : WorkerMoves s worker (next, worker')) (hs : Alive s) :
    Alive { next with workers := s.workers.set index worker' } := by
  refine ⟨?_, fun hexited => ?_, fun hended => ?_⟩
  · simpa using hs.staffed
  · rcases List.mem_or_eq_of_mem_set hexited with hbefore | hnow
    · exact h.closed (hs.exited hbefore)
    · exact h.exited hnow.symm
  · refine h.closed (hs.ended ?_)
    rw [← h.reader]
    exact hended

theorem step_moves {op : PushOp} (h : PushState.step env ctx s op = some s') :
    s'.left < s.left ∧ (Alive s → Alive s') := by
  cases op with
  | read count => exact ⟨(read_moves h).less, (read_moves h).alive⟩
  | readFailure =>
      simp only [PushState.step] at h
      split at h
      · rename_i htop
        cases h
        have hrunning : s.reader.phase.rank = 2 := by
          rw [(PushState.atTop_iff.mp htop).1]
          rfl
        have hmoves : ReaderMoves s
            (s.failReader (.runtimeError "failed while reading source file")) :=
          failing_moves hrunning rfl rfl rfl
        exact ⟨hmoves.less, hmoves.alive⟩
      · cases h
  | reader delivery => exact ⟨(readerStep_moves h).less, (readerStep_moves h).alive⟩
  | worker index delivery =>
      simp only [PushState.step, PushState.workerStep] at h
      split at h
      · cases h
      · rename_i worker hworker
        split at h
        · cases h
        · rename_i next worker' haction
          cases h
          have hmoves := workerAction_moves haction
          exact ⟨worker_lowers hworker hmoves, hmoves.alive⟩

theorem BoundedQueue.pop_enabled {α : Type} {q : BoundedQueue α}
    (h : q.items ≠ [] ∨ q.closed = true) : ∃ result, q.pop = some result := by
  unfold BoundedQueue.pop
  split
  · rename_i hitems
    rcases h with hrest | hclosed
    · exact absurd hitems hrest
    · exact ⟨_, if_pos (.inr hclosed)⟩
  · exact ⟨_, rfl⟩

theorem BoundedQueue.push_blocked {α : Type} {q : BoundedQueue α} {item : α}
    (h : q.push item = none) : q.items ≠ [] ∧ q.closed = false := by
  unfold BoundedQueue.push at h
  split at h
  · cases h
  · rename_i hstop
    split at h
    · cases h
    · rename_i hfull
      refine ⟨fun hempty => ?_, ?_⟩
      · rw [hempty] at hfull
        exact hfull q.capacityPos
      · simpa using (not_or.mp hstop).2

/-- A worker waits only for work on an open queue. -/
theorem worker_enabled (hqueue : s.shared.queue.items ≠ [] ∨ s.shared.queue.closed = true)
    {worker : Worker} (hworker : worker ∈ s.workers) (hrunning : worker ≠ .exited) :
    ∃ s', AnsweredStep env ctx s s' := by
  obtain ⟨index, hindex, rfl⟩ := List.getElem_of_mem hworker
  have haction : ∃ result, s.workerAction env ctx .answered s.workers[index] = some result := by
    obtain ⟨⟨popped, queue⟩, hpop⟩ := BoundedQueue.pop_enabled hqueue
    unfold PushState.workerAction
    split
    · rw [hpop]
      cases popped <;> exact ⟨_, rfl⟩
    · exact ⟨_, rfl⟩
    · exact ⟨_, rfl⟩
    · exact ⟨_, rfl⟩
    · exact ⟨_, rfl⟩
    · exact ⟨_, rfl⟩
    · exact absurd ‹_› hrunning
  obtain ⟨⟨next, worker'⟩, haction⟩ := haction
  refine ⟨{ next with workers := s.workers.set index worker' }, .worker index .answered, rfl, ?_⟩
  simp only [PushState.step, PushState.workerStep, List.getElem?_eq_getElem hindex, haction]

/-- The reader waits only for room in an open queue that is full. -/
theorem reader_enabled (hqueue : s.shared.queue.items = [] ∨ s.shared.queue.closed = true)
    (hrunning : s.reader.phase.rank ≠ 0) : ∃ s', AnsweredStep env ctx s s' := by
  have hsome : (s.readerStep env ctx .answered).isSome ∨ (s.read 1).isSome := by
    unfold PushState.readerStep
    cases hphase : s.reader.phase with
    | scanning =>
        simp only
        cases hready : s.reader.batchReady with
        | true => exact .inl rfl
        | false =>
            cases hpending : s.reader.pending with
            | cons chunk rest => exact .inl rfl
            | nil =>
                cases hend : s.reader.atEnd with
                | true => exact .inl rfl
                | false =>
                    have htop := PushState.atTop_iff.mpr ⟨hphase, hready, hpending, hend⟩
                    cases hinput : s.reader.input with
                    | nil => exact .inl rfl
                    | cons byte rest =>
                        refine .inr ?_
                        simp only [PushState.read, htop, hinput, if_true]
                        split
                        · rfl
                        · simp [kReadBufferSize]
    | enqueueing work =>
        cases work with
        | nil => exact .inl rfl
        | cons entry rest =>
            refine .inl ?_
            simp only [PushState.enqueue]
            split
            · rfl
            · split
              · rename_i hpush
                obtain ⟨hitems, hopen⟩ := BoundedQueue.push_blocked hpush
                rcases hqueue with hempty | hclosed
                · exact absurd hempty hitems
                · rw [hopen] at hclosed
                  cases hclosed
              · rfl
              · rfl
    | failing => exact .inl rfl
    | failed => exact absurd (congrArg ReaderPhase.rank hphase) hrunning
    | finished => exact absurd (congrArg ReaderPhase.rank hphase) hrunning
  rcases hsome with hreader | hread
  · obtain ⟨s', hstep⟩ := Option.isSome_iff_exists.mp hreader
    exact ⟨s', .reader .answered, rfl, hstep⟩
  · obtain ⟨s', hstep⟩ := Option.isSome_iff_exists.mp hread
    exact ⟨s', .read 1, rfl, hstep⟩

theorem rank_ne_zero_of_not_joined (hopen : s.joined = false)
    (hexited : ∀ worker ∈ s.workers, worker = .exited) : s.reader.phase.rank ≠ 0 := by
  intro hended
  have hjoined : s.joined = true := by
    simp only [PushState.joined, Bool.and_eq_true, decide_eq_true_eq, List.all_eq_true]
    refine ⟨?_, fun worker hworker => by simp [hexited worker hworker]⟩
    cases hphase : s.reader.phase <;> simp [hphase, ReaderPhase.rank] at hended ⊢
  rw [hopen] at hjoined
  cases hjoined

theorem step_enabled (hs : Alive s) (hopen : s.joined = false) :
    ∃ s', AnsweredStep env ctx s s' := by
  by_cases hqueue : s.shared.queue.items ≠ [] ∨ s.shared.queue.closed = true
  · by_cases hexited : ∀ worker ∈ s.workers, worker = .exited
    · obtain ⟨worker, hworker⟩ := List.exists_mem_of_ne_nil _ hs.staffed
      have hclosed := hs.exited (hexited worker hworker ▸ hworker)
      exact reader_enabled (.inr hclosed) (rank_ne_zero_of_not_joined hopen hexited)
    · push Not at hexited
      obtain ⟨worker, hworker, hrunning⟩ := hexited
      exact worker_enabled hqueue hworker hrunning
  · obtain ⟨hempty, hclosed⟩ := not_or.mp hqueue
    exact reader_enabled (.inl (not_not.mp hempty)) fun hended => hclosed (hs.ended hended)

/-! ## The call returns -/

def ServicesChange (s s' : PushState) : Prop := ∃ services, s' = { s with services := services }

def SharedRuns (env : Environment) (ctx : PushContext) : PushState → PushState → Prop :=
  ReflTransGen fun s s' => PushState.Step env ctx s s' ∨ ServicesChange s s'

theorem push_lowers : Lowers PushState.left (PushState.Step env ctx) ServicesChange where
  own := by
    rintro s s' ⟨op, hstep⟩
    exact (step_moves hstep).1
  others := by
    rintro s s' ⟨services, rfl⟩
    rfl

theorem AnsweredStep.step (h : AnsweredStep env ctx s s') : PushState.Step env ctx s s' := by
  obtain ⟨op, -, hstep⟩ := h
  exact ⟨op, hstep⟩

theorem alive_step (h : PushState.Step env ctx s s') (hs : Alive s) : Alive s' := by
  obtain ⟨op, hstep⟩ := h
  exact (step_moves hstep).2 hs

theorem alive_change (h : ServicesChange s s') (hs : Alive s) : Alive s' := by
  obtain ⟨services, rfl⟩ := h
  exact ⟨hs.staffed, hs.exited, hs.ended⟩

theorem alive_runs (h : SharedRuns env ctx s s') (hs : Alive s) : Alive s' := by
  induction h with
  | refl => exact hs
  | tail _ hstep ih => exact hstep.elim (fun hown => alive_step hown ih) (alive_change · ih)

def Returned (env : Environment) (ctx : PushContext) (s : PushState) : Prop :=
  ∃ result, s.returns env ctx = some result

theorem step_or_returned (hs : Alive s) (hopen : ¬Returned env ctx s) :
    ∃ s', AnsweredStep env ctx s s' := by
  refine step_enabled hs ?_
  by_contra hjoined
  exact hopen ⟨_, if_pos (by simpa using hjoined)⟩

theorem alive_push {engine : PushEngine} {services : Services} {sessionId : UuidV7}
    {source : Option (List UInt8)} {start : PushState}
    (hpush : engine.push services sessionId source = .ok (ctx, start)) : Alive start := by
  obtain ⟨chunkFeed, input, -, hstarted⟩ := push_started hpush
  rw [hstarted.initial]
  exact alive_initial

end

/-- A push makes finitely many steps whatever the services answer and whoever else changes
them, it returns in every fair run, and from every state it comes to it can still return. -/
theorem push_terminates {env : Environment} {engine : PushEngine} {services : Services}
    {sessionId : UuidV7} {source : Option (List UInt8)} {ctx : PushContext} {start : PushState}
    (hpush : engine.push services sessionId source = .ok (ctx, start)) :
    (∀ run, EndlessRun (PushState.Step env ctx) ServicesChange run →
      ∃ last, ∀ n, last ≤ n → ¬PushState.Step env ctx (run n) (run (n + 1))) ∧
    (∀ run, run 0 = start → EndlessRun (PushState.Step env ctx) ServicesChange run →
      Fair (PushState.Step env ctx) run →
      ∃ n result, (run n).returns env ctx = some result) ∧
    ∀ s, SharedRuns env ctx start s →
      ∃ s' result, PushState.Runs env ctx s s' ∧ s'.returns env ctx = some result := by
  have hstart := alive_push hpush
  have hown : ∀ s s', PushState.Step env ctx s s' → Alive s → Alive s' := fun _ _ => alive_step
  have hprogress : ∀ s, Alive s → ¬Returned env ctx s → ∃ s', PushState.Step env ctx s s' := by
    intro s hs hopen
    obtain ⟨s', hstep⟩ := step_or_returned hs hopen
    exact ⟨s', hstep.step⟩
  refine ⟨fun run hrun => push_lowers.eventually_others hrun, fun run hzero hrun hfair => ?_,
    fun s hs => ?_⟩
  · have halive := hrun.invariant hown (fun _ _ => alive_change) (hzero ▸ hstart)
    exact push_lowers.fair_reaches hrun hfair fun n => hprogress _ (halive n)
  · obtain ⟨s', hsteps, result, hreturns⟩ :=
      push_lowers.reaches hown hprogress s (alive_runs hs hstart)
    exact ⟨s', result, hsteps, hreturns⟩

theorem push_terminates_sample :
    ∃ (ctx : PushContext) (start s : PushState) (result : Except EngineExc PreparedPush),
      Sample.pushCall (asciiBytes ['a']) = .ok (ctx, start) ∧
        PushState.Runs Metadata.Sample.env ctx start s ∧
        s.returns Metadata.Sample.env ctx = some result := by
  obtain ⟨ctx, start, -, -, hpush, -⟩ := Sample.pushCall_returns Sample.pushReturns_a
  obtain ⟨-, -, halone⟩ := @push_terminates Metadata.Sample.env _ _ _ _ _ _ hpush
  obtain ⟨s, result, hrun, hreturns⟩ := halone start .refl
  exact ⟨ctx, start, s, result, hpush, hrun, hreturns⟩

end AiArtifactStore.Push
