import AiArtifactStore.Client.PushClients
import Mathlib.Logic.Function.Basic
import Mathlib.Logic.Relation

/-!
# The download window

The four download workers and the writer of a pull.  A step is one critical
section, one download or one `pwrite`; a condition wait is a step that is not
possible yet.
-/

namespace AiArtifactStore.Pull

open AiArtifactStore.Client
open Relation

def kWorkerCount : Nat := 4

instance : NeZero kWorkerCount := ⟨by decide⟩

def kWindowCapacity : Nat := 8

/-! ## Data -/

structure SharedDownloadState where
  firstFailure : Option EngineExc
  cancelled : Bool
  nextWriteIndex : Nat
  nextClaimIndex : Nat
  ready : Nat → Option (List UInt8)
  chunksDownloaded : Nat
  bytesReceivedFromStorage : Nat

def recordFailure (shared : SharedDownloadState) (e : EngineExc) : SharedDownloadState :=
  { shared with firstFailure := shared.firstFailure.or (some e) }

def cancelDownload (shared : SharedDownloadState) : SharedDownloadState :=
  { shared with cancelled := true }

def SharedDownloadState.stopped (shared : SharedDownloadState) : Bool :=
  shared.cancelled || shared.firstFailure.isSome

inductive Worker where
  | unstarted
  | waiting
  | downloading (chunkIndex : Nat)
  | recording (e : EngineExc)
  | cancelling
  | returned
  deriving DecidableEq, Repr

/-- The thread of `pull`, from the start of its workers to their join. -/
inductive Writer where
  | starting (workerIndex : Nat)
  | waiting (chunkIndex : Nat)
  | writing (chunkIndex : Nat) (chunkBytes : List UInt8) (position : Nat)
  | advancing (chunkIndex : Nat)
  | closing
  | recording (e : EngineExc)
  | cancelling
  | joining
  | joined
  deriving DecidableEq, Repr

/-- What a download keeps fixed: its range of chunks, how a download ends for each
behaviour of the storage nodes, and what the writer does to its sink, the partial file
and the object hasher. -/
structure WindowContext (Answers Sink : Type) where
  totalChunks : Nat
  resumeIndex : Nat
  resume_lt : resumeIndex < totalChunks
  download : Nat → Answers → Except EngineExc (List UInt8)
  pwrite : Nat → Nat → List UInt8 → Sink → Sink
  update : List UInt8 → Sink → Sink

/-- The threads and, beside them, the indices claimed and written and the exceptions
recorded so far. -/
structure WindowState (Sink : Type) where
  shared : SharedDownloadState
  workers : Fin kWorkerCount → Worker
  writer : Writer
  sink : Sink
  claimed : List Nat
  written : List Nat
  recorded : List EngineExc

variable {Answers Sink : Type}

namespace WindowState

def setWorker (s : WindowState Sink) (index : Fin kWorkerCount) (worker : Worker) : WindowState Sink :=
  { s with workers := Function.update s.workers index worker }

/-! ## Steps of a worker -/

def mayProceed (ctx : WindowContext Answers Sink) (shared : SharedDownloadState) : Bool :=
  shared.stopped || decide (ctx.totalChunks ≤ shared.nextClaimIndex) ||
    decide (shared.nextClaimIndex < shared.nextWriteIndex + kWindowCapacity)

def claim (ctx : WindowContext Answers Sink) (s : WindowState Sink) (index : Fin kWorkerCount) :
    Option (WindowState Sink) :=
  if ¬mayProceed ctx s.shared then none
  else if s.shared.stopped then some (s.setWorker index .returned)
  else if ctx.totalChunks ≤ s.shared.nextClaimIndex then some (s.setWorker index .returned)
  else
    some { s with
      shared := { s.shared with nextClaimIndex := s.shared.nextClaimIndex + 1 }
      workers := Function.update s.workers index (.downloading s.shared.nextClaimIndex)
      claimed := s.claimed ++ [s.shared.nextClaimIndex] }

def deliver (s : WindowState Sink) (index : Fin kWorkerCount) (chunkIndex : Nat) (bytes : List UInt8) :
    WindowState Sink :=
  { s with
    shared := { s.shared with
      ready := Function.update s.shared.ready chunkIndex
        ((s.shared.ready chunkIndex).or (some bytes))
      chunksDownloaded := s.shared.chunksDownloaded + 1
      bytesReceivedFromStorage := s.shared.bytesReceivedFromStorage + bytes.length }
    workers := Function.update s.workers index .waiting }

def recordWorker (s : WindowState Sink) (index : Fin kWorkerCount) (e : EngineExc) : WindowState Sink :=
  { s with
    shared := recordFailure s.shared e
    workers := Function.update s.workers index .cancelling
    recorded := s.recorded ++ [e] }

def cancelWorker (s : WindowState Sink) (index : Fin kWorkerCount) : WindowState Sink :=
  { s with
    shared := cancelDownload s.shared
    workers := Function.update s.workers index .returned }

def workerStep (ctx : WindowContext Answers Sink) (s : WindowState Sink) (index : Fin kWorkerCount)
    (answers : Answers) : Option (WindowState Sink) :=
  match s.workers index with
  | .waiting => claim ctx s index
  | .downloading chunkIndex =>
      match ctx.download chunkIndex answers with
      | .ok bytes => some (s.deliver index chunkIndex bytes)
      | .error e => some (s.setWorker index (.recording e))
  | .recording e => some (s.recordWorker index e)
  | .cancelling => some (s.cancelWorker index)
  | .unstarted => none
  | .returned => none

/-! ## Steps of the writer -/

def atIndex (ctx : WindowContext Answers Sink) (chunkIndex : Nat) : Writer :=
  if chunkIndex < ctx.totalChunks then .waiting chunkIndex else .closing

def take (s : WindowState Sink) (chunkIndex : Nat) : Option (WindowState Sink) :=
  match s.shared.firstFailure with
  | some e => some { s with writer := .recording e }
  | none =>
      if s.shared.cancelled then
        some { s with writer := .recording (.runtimeError "pull cancelled") }
      else
        match s.shared.ready chunkIndex with
        | none => none
        | some bytes =>
            some { s with
              shared := { s.shared with ready := Function.update s.shared.ready chunkIndex none }
              writer := .writing chunkIndex bytes 0 }

def startWorker (ctx : WindowContext Answers Sink) (s : WindowState Sink) (workerIndex : Nat) :
    WindowState Sink :=
  if h : workerIndex < kWorkerCount then
    { s with
      workers := Function.update s.workers ⟨workerIndex, h⟩ .waiting
      writer := .starting (workerIndex + 1) }
  else { s with writer := atIndex ctx ctx.resumeIndex }

def writerStep (ctx : WindowContext Answers Sink) (s : WindowState Sink) :
    Option (WindowState Sink) :=
  match s.writer with
  | .starting workerIndex => some (s.startWorker ctx workerIndex)
  | .waiting chunkIndex => s.take chunkIndex
  | .writing chunkIndex chunkBytes position =>
      if position < chunkBytes.length then none
      else
        some { s with
          sink := ctx.update chunkBytes s.sink
          writer := .advancing chunkIndex
          written := s.written ++ [chunkIndex] }
  | .advancing chunkIndex =>
      some { s with
        shared := { s.shared with nextWriteIndex := chunkIndex + 1 }
        writer := atIndex ctx (chunkIndex + 1) }
  | .closing => some { s with shared := cancelDownload s.shared, writer := .joining }
  | .recording e =>
      some { s with
        shared := recordFailure s.shared e
        writer := .cancelling
        recorded := s.recorded ++ [e] }
  | .cancelling => some { s with shared := cancelDownload s.shared, writer := .joining }
  | .joining =>
      if ∀ index, s.workers index = .returned ∨ s.workers index = .unstarted then
        some { s with writer := .joined }
      else none
  | .joined => none

def pwrite (ctx : WindowContext Answers Sink) (s : WindowState Sink) (count : Nat) :
    Option (WindowState Sink) :=
  match s.writer with
  | .writing chunkIndex chunkBytes position =>
      if 0 < count ∧ position + count ≤ chunkBytes.length then
        some { s with
          sink := ctx.pwrite chunkIndex position ((chunkBytes.drop position).take count) s.sink
          writer := .writing chunkIndex chunkBytes (position + count) }
      else none
  | _ => none

def throwWriter (s : WindowState Sink) (e : EngineExc) : Option (WindowState Sink) :=
  match s.writer with
  | .starting workerIndex =>
      if workerIndex < kWorkerCount then some { s with writer := .recording e } else none
  | .writing _ chunkBytes position =>
      if position < chunkBytes.length then some { s with writer := .recording e } else none
  | _ => none

end WindowState

/-! ## Runs -/

inductive WindowOp (Answers : Type) where
  | worker (index : Fin kWorkerCount) (answers : Answers)
  | writer
  | pwrite (count : Nat)
  | throwWriter (e : EngineExc)

namespace WindowState

def step (ctx : WindowContext Answers Sink) (s : WindowState Sink) :
    WindowOp Answers → Option (WindowState Sink)
  | .worker index answers => s.workerStep ctx index answers
  | .writer => s.writerStep ctx
  | .pwrite count => s.pwrite ctx count
  | .throwWriter e => s.throwWriter e

def Step (ctx : WindowContext Answers Sink) (s s' : WindowState Sink) : Prop :=
  ∃ op, step ctx s op = some s'

def Runs (ctx : WindowContext Answers Sink) : WindowState Sink → WindowState Sink → Prop :=
  ReflTransGen (Step ctx)

def initial (ctx : WindowContext Answers Sink) (sink : Sink) : WindowState Sink :=
  { shared :=
      { firstFailure := none
        cancelled := false
        nextWriteIndex := ctx.resumeIndex
        nextClaimIndex := ctx.resumeIndex
        ready := fun _ => none
        chunksDownloaded := 0
        bytesReceivedFromStorage := 0 }
    workers := fun _ => .unstarted
    writer := .starting 0
    sink := sink
    claimed := []
    written := []
    recorded := [] }

def withSink (s : WindowState Sink) (sink : Sink) : WindowState Sink := { s with sink := sink }

/-! ## What a step can do -/

/-- The steps of the workers and of the writer, with their guards. -/
inductive Moves (ctx : WindowContext Answers Sink) (s : WindowState Sink) :
    WindowState Sink → Prop
  | returns {index : Fin kWorkerCount} (hworker : s.workers index = .waiting)
      (hend : s.shared.stopped = true ∨ ctx.totalChunks ≤ s.shared.nextClaimIndex) :
      Moves ctx s (s.setWorker index .returned)
  | claims {index : Fin kWorkerCount} (hworker : s.workers index = .waiting)
      (hrunning : s.shared.stopped = false) (hlt : s.shared.nextClaimIndex < ctx.totalChunks)
      (hwindow : s.shared.nextClaimIndex < s.shared.nextWriteIndex + kWindowCapacity) :
      Moves ctx s { s with
        shared := { s.shared with nextClaimIndex := s.shared.nextClaimIndex + 1 }
        workers := Function.update s.workers index (.downloading s.shared.nextClaimIndex)
        claimed := s.claimed ++ [s.shared.nextClaimIndex] }
  | delivers {index : Fin kWorkerCount} {chunkIndex : Nat} {answers : Answers} {bytes : List UInt8}
      (hworker : s.workers index = .downloading chunkIndex)
      (hdownload : ctx.download chunkIndex answers = .ok bytes) :
      Moves ctx s (s.deliver index chunkIndex bytes)
  | fails {index : Fin kWorkerCount} {chunkIndex : Nat} {e : EngineExc}
      (hworker : s.workers index = .downloading chunkIndex) :
      Moves ctx s (s.setWorker index (.recording e))
  | records {index : Fin kWorkerCount} {e : EngineExc} (hworker : s.workers index = .recording e) :
      Moves ctx s (s.recordWorker index e)
  | cancels {index : Fin kWorkerCount} (hworker : s.workers index = .cancelling) :
      Moves ctx s (s.cancelWorker index)
  | starts {workerIndex : Nat} (hwriter : s.writer = .starting workerIndex)
      (hlt : workerIndex < kWorkerCount) :
      Moves ctx s { s with
        workers := Function.update s.workers ⟨workerIndex, hlt⟩ .waiting
        writer := .starting (workerIndex + 1) }
  | enters {workerIndex : Nat} (hwriter : s.writer = .starting workerIndex)
      (hall : kWorkerCount ≤ workerIndex) :
      Moves ctx s { s with writer := .waiting ctx.resumeIndex }
  | startThrows {workerIndex : Nat} {e : EngineExc} (hwriter : s.writer = .starting workerIndex) :
      Moves ctx s { s with writer := .recording e }
  | observes {chunkIndex : Nat} {e : EngineExc} (hwriter : s.writer = .waiting chunkIndex)
      (hstopped : s.shared.stopped = true) :
      Moves ctx s { s with writer := .recording e }
  | takes {chunkIndex : Nat} {bytes : List UInt8} (hwriter : s.writer = .waiting chunkIndex)
      (hrunning : s.shared.stopped = false) (hready : s.shared.ready chunkIndex = some bytes) :
      Moves ctx s { s with
        shared := { s.shared with ready := Function.update s.shared.ready chunkIndex none }
        writer := .writing chunkIndex bytes 0 }
  | pwrites {chunkIndex position count : Nat} {chunkBytes : List UInt8}
      (hwriter : s.writer = .writing chunkIndex chunkBytes position) (hcount : 0 < count)
      (hle : position + count ≤ chunkBytes.length) :
      Moves ctx s { s with
        sink := ctx.pwrite chunkIndex position ((chunkBytes.drop position).take count) s.sink
        writer := .writing chunkIndex chunkBytes (position + count) }
  | writeThrows {chunkIndex position : Nat} {chunkBytes : List UInt8} {e : EngineExc}
      (hwriter : s.writer = .writing chunkIndex chunkBytes position) :
      Moves ctx s { s with writer := .recording e }
  | completes {chunkIndex position : Nat} {chunkBytes : List UInt8}
      (hwriter : s.writer = .writing chunkIndex chunkBytes position)
      (hdone : chunkBytes.length ≤ position) :
      Moves ctx s { s with
        sink := ctx.update chunkBytes s.sink
        writer := .advancing chunkIndex
        written := s.written ++ [chunkIndex] }
  | advances {chunkIndex : Nat} (hwriter : s.writer = .advancing chunkIndex) :
      Moves ctx s { s with
        shared := { s.shared with nextWriteIndex := chunkIndex + 1 }
        writer := atIndex ctx (chunkIndex + 1) }
  | closes (hwriter : s.writer = .closing) :
      Moves ctx s { s with shared := cancelDownload s.shared, writer := .joining }
  | writerRecords {e : EngineExc} (hwriter : s.writer = .recording e) :
      Moves ctx s { s with
        shared := recordFailure s.shared e
        writer := .cancelling
        recorded := s.recorded ++ [e] }
  | writerCancels (hwriter : s.writer = .cancelling) :
      Moves ctx s { s with shared := cancelDownload s.shared, writer := .joining }
  | joins (hwriter : s.writer = .joining)
      (hall : ∀ index, s.workers index = .returned ∨ s.workers index = .unstarted) :
      Moves ctx s { s with writer := .joined }

variable {ctx : WindowContext Answers Sink} {s s' : WindowState Sink}

theorem moves_of_claim {index : Fin kWorkerCount} (hworker : s.workers index = .waiting)
    (h : s.claim ctx index = some s') : Moves ctx s s' := by
  unfold claim at h
  split at h
  · cases h
  · rename_i hproceed
    split at h
    · rename_i hstopped
      obtain rfl := Option.some.inj h
      exact .returns hworker (.inl hstopped)
    · rename_i hrunning
      split at h
      · rename_i hend
        obtain rfl := Option.some.inj h
        exact .returns hworker (.inr hend)
      · rename_i hlt
        obtain rfl := Option.some.inj h
        simp only [mayProceed, Bool.or_eq_true, decide_eq_true_eq, hrunning, hlt, or_false,
          Bool.false_eq_true, false_or, not_not] at hproceed
        exact .claims hworker (Bool.eq_false_iff.mpr hrunning) (Nat.lt_of_not_le hlt) hproceed

theorem moves_of_workerStep {index : Fin kWorkerCount} {answers : Answers}
    (h : s.workerStep ctx index answers = some s') : Moves ctx s s' := by
  unfold workerStep at h
  split at h
  · rename_i hworker
    exact moves_of_claim hworker h
  · rename_i chunkIndex hworker
    split at h
    · rename_i bytes hdownload
      obtain rfl := Option.some.inj h
      exact .delivers hworker hdownload
    · obtain rfl := Option.some.inj h
      exact .fails hworker
  · rename_i e hworker
    obtain rfl := Option.some.inj h
    exact .records hworker
  · rename_i hworker
    obtain rfl := Option.some.inj h
    exact .cancels hworker
  · cases h
  · cases h

theorem moves_of_take {chunkIndex : Nat} (hwriter : s.writer = .waiting chunkIndex)
    (h : s.take chunkIndex = some s') : Moves ctx s s' := by
  unfold take at h
  split at h
  · rename_i e hfailure
    obtain rfl := Option.some.inj h
    exact .observes hwriter (by simp [SharedDownloadState.stopped, hfailure])
  · rename_i hfailure
    split at h
    · rename_i hcancelled
      obtain rfl := Option.some.inj h
      exact .observes hwriter (by simp [SharedDownloadState.stopped, hcancelled])
    · rename_i hcancelled
      split at h
      · cases h
      · rename_i bytes hready
        obtain rfl := Option.some.inj h
        exact .takes hwriter (by simp [SharedDownloadState.stopped, hfailure, hcancelled]) hready

theorem moves_of_writerStep (h : s.writerStep ctx = some s') : Moves ctx s s' := by
  unfold writerStep at h
  split at h
  · rename_i workerIndex hwriter
    obtain rfl := Option.some.inj h
    unfold startWorker
    split
    · rename_i hlt
      exact .starts hwriter hlt
    · rename_i hall
      rw [atIndex, if_pos ctx.resume_lt]
      exact .enters hwriter (Nat.le_of_not_lt hall)
  · rename_i chunkIndex hwriter
    exact moves_of_take hwriter h
  · rename_i hwriter
    split at h
    · cases h
    · rename_i hdone
      obtain rfl := Option.some.inj h
      exact .completes hwriter (Nat.le_of_not_lt hdone)
  · rename_i hwriter
    obtain rfl := Option.some.inj h
    exact .advances hwriter
  · rename_i hwriter
    obtain rfl := Option.some.inj h
    exact .closes hwriter
  · rename_i hwriter
    obtain rfl := Option.some.inj h
    exact .writerRecords hwriter
  · rename_i hwriter
    obtain rfl := Option.some.inj h
    exact .writerCancels hwriter
  · rename_i hwriter
    split at h
    · rename_i hall
      obtain rfl := Option.some.inj h
      exact .joins hwriter hall
    · cases h
  · cases h

theorem moves_of_step {op : WindowOp Answers} (h : step ctx s op = some s') : Moves ctx s s' := by
  cases op with
  | worker index answers => exact moves_of_workerStep h
  | writer => exact moves_of_writerStep h
  | pwrite count =>
      simp only [step, pwrite] at h
      split at h
      · rename_i hwriter
        split at h
        · rename_i hcount
          obtain rfl := Option.some.inj h
          exact .pwrites hwriter hcount.1 hcount.2
        · cases h
      · cases h
  | throwWriter e =>
      simp only [step, throwWriter] at h
      split at h
      · rename_i hwriter
        split at h
        · obtain rfl := Option.some.inj h
          exact .startThrows hwriter
        · cases h
      · rename_i hwriter
        split at h
        · obtain rfl := Option.some.inj h
          exact .writeThrows hwriter
        · cases h
      · cases h

/-! ## What a step does to the sink -/

theorem sink_of_workerStep {index : Fin kWorkerCount} {answers : Answers}
    (h : s.workerStep ctx index answers = some s') : s'.sink = s.sink := by
  grind [workerStep, claim, deliver, setWorker, recordWorker, cancelWorker]

theorem sink_of_writerStep (h : s.writerStep ctx = some s') :
    s'.sink = s.sink ∨ ∃ bytes, s'.sink = ctx.update bytes s.sink := by
  grind [writerStep, take, startWorker]

theorem sink_of_pwrite {count : Nat} (h : s.pwrite ctx count = some s') :
    ∃ index position data, s'.sink = ctx.pwrite index position data s.sink := by
  grind [pwrite]

theorem sink_of_throwWriter {e : EngineExc} (h : s.throwWriter e = some s') :
    s'.sink = s.sink := by
  grind [throwWriter]

end WindowState

end AiArtifactStore.Pull
