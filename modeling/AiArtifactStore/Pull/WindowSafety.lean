import AiArtifactStore.Pull.Window

/-!
# The download window is safe

What holds in every state that an interleaving of the workers and the writer
reaches, and that no such state is stuck.
-/

namespace AiArtifactStore.Pull

open AiArtifactStore.Client
open AiArtifactStore.Foundation
open Relation

variable {Answers Sink : Type}

namespace Writer

def index? : Writer → Option Nat
  | .waiting i => some i
  | .writing i _ _ => some i
  | .advancing i => some i
  | _ => none

/-- The index whose chunk the writer has taken. -/
def held? : Writer → Option Nat
  | .writing i _ _ => some i
  | .advancing i => some i
  | _ => none

/-- The chunk that is written while `next_write_index` still names it. -/
def ahead : Writer → Nat
  | .advancing _ => 1
  | _ => 0

/-- The writer has left its loop after a failure, or has left the block of the workers. -/
def Unwinding : Writer → Prop
  | .recording _ => True
  | .cancelling => True
  | .joining => True
  | .joined => True
  | _ => False

theorem Unwinding.facts {writer : Writer} (h : writer.Unwinding) :
    writer.index? = none ∧ writer.held? = none ∧ writer.ahead = 0 ∧ writer ≠ .closing ∧
      ∀ k, writer ≠ .starting k := by
  cases writer <;> simp_all [Unwinding, index?, held?, ahead]

end Writer

namespace WindowState

variable {ctx : WindowContext Answers Sink} {s s' : WindowState Sink}

/-! ## Counters -/

structure Counters (ctx : WindowContext Answers Sink) (s : WindowState Sink) : Prop where
  resumed : ctx.resumeIndex ≤ s.shared.nextWriteIndex
  ordered : s.shared.nextWriteIndex ≤ s.shared.nextClaimIndex
  bounded : s.shared.nextClaimIndex ≤ ctx.totalChunks
  window : s.shared.nextClaimIndex ≤ s.shared.nextWriteIndex + kWindowCapacity
  claimed : s.claimed =
    List.range' ctx.resumeIndex (s.shared.nextClaimIndex - ctx.resumeIndex)
  written : s.written = List.range' ctx.resumeIndex
    (s.shared.nextWriteIndex + s.writer.ahead - ctx.resumeIndex)
  atNext : ∀ i, s.writer.index? = some i → i = s.shared.nextWriteIndex ∧ i < ctx.totalChunks
  held : ∀ i, s.writer.held? = some i → i < s.shared.nextClaimIndex
  ready : ∀ i, (s.shared.ready i).isSome = true → i < s.shared.nextClaimIndex
  downloading : ∀ index i, s.workers index = .downloading i → i < s.shared.nextClaimIndex
  starting : ∀ k, s.writer = .starting k → s.shared.nextWriteIndex = ctx.resumeIndex
  closing : s.writer = .closing → s.shared.nextWriteIndex = ctx.totalChunks

theorem range'_split {start middle next : Nat} (hstart : start ≤ middle) (hnext : middle ≤ next) :
    List.range' start (next - start) =
      List.range' start (middle - start) ++ List.range' middle (next - middle) := by
  have happend := List.range'_append_1 (s := start) (m := middle - start) (n := next - middle)
  rw [show start + (middle - start) = middle by omega,
    show middle - start + (next - middle) = next - start by omega] at happend
  exact happend.symm

theorem range'_succ_of_le {start next : Nat} (h : start ≤ next) :
    List.range' start (next + 1 - start) = List.range' start (next - start) ++ [next] := by
  simpa using range'_split h (Nat.le_succ next)

theorem counters_initial (sink : Sink) : Counters ctx (initial ctx sink) := by
  have hlt := ctx.resume_lt
  constructor <;> simp [initial, Writer.ahead, Writer.index?, Writer.held?, hlt.le]

theorem worker_of_update {workers : Fin kWorkerCount → Worker} {index other : Fin kWorkerCount}
    {worker state : Worker} (h : Function.update workers index worker other = state) :
    worker = state ∨ (other ≠ index ∧ workers other = state) := by
  by_cases hindex : other = index
  · subst hindex
    exact .inl (by simpa using h)
  · exact .inr ⟨hindex, by simpa [hindex] using h⟩

theorem Counters.setWorker {shared : SharedDownloadState} {index : Fin kWorkerCount}
    {worker : Worker} {recorded : List EngineExc} (hs : Counters ctx s)
    (hworker : ∀ i, worker ≠ .downloading i)
    (hwrite : shared.nextWriteIndex = s.shared.nextWriteIndex)
    (hclaim : shared.nextClaimIndex = s.shared.nextClaimIndex)
    (hready : ∀ i, (shared.ready i).isSome = true → i < s.shared.nextClaimIndex) :
    Counters ctx { s with
      shared := shared
      workers := Function.update s.workers index worker
      recorded := recorded } := by
  constructor
  case downloading =>
    intro other i hother
    rcases worker_of_update hother with hself | ⟨-, hother⟩
    · exact absurd hself (hworker i)
    · simpa only [hclaim] using hs.downloading other i hother
  all_goals simp only [hwrite, hclaim]
  · exact hs.resumed
  · exact hs.ordered
  · exact hs.bounded
  · exact hs.window
  · exact hs.claimed
  · exact hs.written
  · exact hs.atNext
  · exact hs.held
  · exact hready
  · exact hs.starting
  · exact hs.closing

theorem Counters.unwind {shared : SharedDownloadState} {writer : Writer}
    {recorded : List EngineExc} (hs : Counters ctx s) (hloop : s.writer.ahead = 0)
    (hwriter : writer.Unwinding) (hwrite : shared.nextWriteIndex = s.shared.nextWriteIndex)
    (hclaim : shared.nextClaimIndex = s.shared.nextClaimIndex)
    (hready : shared.ready = s.shared.ready) :
    Counters ctx { s with shared := shared, writer := writer, recorded := recorded } := by
  obtain ⟨hindex, hheld, hahead, hclosing, hstarting⟩ := hwriter.facts
  have hwritten := hs.written
  rw [hloop] at hwritten
  constructor
  case written => simpa only [hwrite, hahead] using hwritten
  case atNext => simp [hindex]
  case held => simp [hheld]
  case closing => exact fun h => absurd h hclosing
  case starting => exact fun k h => absurd h (hstarting k)
  all_goals simp only [hwrite, hclaim, hready]
  · exact hs.resumed
  · exact hs.ordered
  · exact hs.bounded
  · exact hs.window
  · exact hs.claimed
  · exact hs.ready
  · exact hs.downloading

theorem counters_moves (h : Moves ctx s s') (hs : Counters ctx s) : Counters ctx s' := by
  cases h with
  | returns => exact hs.setWorker (by simp) rfl rfl hs.ready
  | fails => exact hs.setWorker (by simp) rfl rfl hs.ready
  | records => exact hs.setWorker (by simp) rfl rfl hs.ready
  | cancels => exact hs.setWorker (by simp) rfl rfl hs.ready
  | delivers hworker =>
      refine hs.setWorker (by simp) rfl rfl fun i hi => ?_
      rename_i index chunkIndex answers bytes hdownload
      by_cases hindex : i = chunkIndex
      · exact hindex ▸ hs.downloading _ _ hworker
      · exact hs.ready i (by simpa [hindex] using hi)
  | claims hworker hrunning hlt hwindow =>
      refine ⟨hs.resumed, Nat.le_succ_of_le hs.ordered, hlt, hwindow, ?_, hs.written, hs.atNext,
        fun i hi => Nat.lt_succ_of_lt (hs.held i hi),
        fun i hi => Nat.lt_succ_of_lt (hs.ready i hi), fun other i hother => ?_, hs.starting,
        hs.closing⟩
      · rw [hs.claimed, range'_succ_of_le (hs.resumed.trans hs.ordered)]
      · rcases worker_of_update hother with hself | ⟨-, hother⟩
        · cases hself
          exact Nat.lt_succ_self _
        · exact Nat.lt_succ_of_lt (hs.downloading other i hother)
  | starts hwriter hlt =>
      refine ⟨hs.resumed, hs.ordered, hs.bounded, hs.window, hs.claimed,
        by simpa [hwriter, Writer.ahead] using hs.written, by simp [Writer.index?],
        by simp [Writer.held?], hs.ready, fun other i hother => ?_,
        fun _ _ => hs.starting _ hwriter, by simp⟩
      rcases worker_of_update hother with hself | ⟨-, hother⟩
      · cases hself
      · exact hs.downloading other i hother
  | enters hwriter hall =>
      exact ⟨hs.resumed, hs.ordered, hs.bounded, hs.window, hs.claimed,
        by simpa [hwriter, Writer.ahead] using hs.written,
        by simp [Writer.index?, hs.starting _ hwriter, ctx.resume_lt], by simp [Writer.held?],
        hs.ready, hs.downloading, by simp, by simp⟩
  | takes hwriter hrunning hready =>
      rename_i chunkIndex bytes
      have hat := hs.atNext chunkIndex (by rw [hwriter]; rfl)
      have hclaimed := hs.ready chunkIndex (by simp [hready])
      refine ⟨hs.resumed, hs.ordered, hs.bounded, hs.window, hs.claimed,
        by simpa [hwriter, Writer.ahead] using hs.written, by simpa [Writer.index?] using hat,
        by simpa [Writer.held?] using hclaimed, fun i hi => hs.ready i ?_, hs.downloading,
        by simp, by simp⟩
      by_cases hindex : i = chunkIndex
      · simp [hindex] at hi
      · simpa [hindex] using hi
  | pwrites hwriter =>
      have hat := hs.atNext _ (by rw [hwriter]; rfl)
      have hheld := hs.held _ (by rw [hwriter]; rfl)
      exact ⟨hs.resumed, hs.ordered, hs.bounded, hs.window, hs.claimed,
        by simpa [hwriter, Writer.ahead] using hs.written, by simpa [Writer.index?] using hat,
        by simpa [Writer.held?] using hheld, hs.ready, hs.downloading, by simp, by simp⟩
  | completes hwriter =>
      rename_i chunkIndex position chunkBytes hdone
      have hat := hs.atNext chunkIndex (by rw [hwriter]; rfl)
      have hheld := hs.held chunkIndex (by rw [hwriter]; rfl)
      refine ⟨hs.resumed, hs.ordered, hs.bounded, hs.window, hs.claimed, ?_,
        by simpa [Writer.index?] using hat, by simpa [Writer.held?] using hheld, hs.ready,
        hs.downloading, by simp, by simp⟩
      have hwritten := hs.written
      rw [hwriter] at hwritten
      simp only [Writer.ahead, Nat.add_zero] at hwritten ⊢
      rw [hwritten, range'_succ_of_le hs.resumed, hat.1]
  | advances hwriter =>
      rename_i chunkIndex
      have hat := hs.atNext chunkIndex (by rw [hwriter]; rfl)
      have hheld := hs.held chunkIndex (by rw [hwriter]; rfl)
      have hresumed := hs.resumed
      have hbounded := hs.bounded
      have hwindow := hs.window
      have hwritten := hs.written
      rw [hwriter] at hwritten
      simp only [Writer.ahead, ← hat.1] at hwritten
      have hnext : ctx.resumeIndex ≤ chunkIndex + 1 := by omega
      have hahead : s.shared.nextClaimIndex ≤ chunkIndex + 1 + kWindowCapacity := by omega
      unfold atIndex
      split
      · rename_i hlt
        exact ⟨hnext, hheld, hbounded, hahead, hs.claimed, hwritten,
          by simpa [Writer.index?] using hlt, by simp [Writer.held?], hs.ready,
          hs.downloading, by simp, by simp⟩
      · rename_i hlast
        have htotal : chunkIndex + 1 = ctx.totalChunks := by omega
        exact ⟨hnext, hheld, hbounded, hahead, hs.claimed, hwritten,
          by simp [Writer.index?], by simp [Writer.held?], hs.ready, hs.downloading, by simp,
          fun _ => htotal⟩
  | startThrows hwriter => exact hs.unwind (by rw [hwriter]; rfl) trivial rfl rfl rfl
  | observes hwriter => exact hs.unwind (by rw [hwriter]; rfl) trivial rfl rfl rfl
  | writeThrows hwriter => exact hs.unwind (by rw [hwriter]; rfl) trivial rfl rfl rfl
  | closes hwriter => exact hs.unwind (by rw [hwriter]; rfl) trivial rfl rfl rfl
  | writerRecords hwriter => exact hs.unwind (by rw [hwriter]; rfl) trivial rfl rfl rfl
  | writerCancels hwriter => exact hs.unwind (by rw [hwriter]; rfl) trivial rfl rfl rfl
  | joins hwriter => exact hs.unwind (by rw [hwriter]; rfl) trivial rfl rfl rfl

/-! ## Failure and shutdown -/

structure Shutdown (ctx : WindowContext Answers Sink) (s : WindowState Sink) : Prop where
  first : s.shared.firstFailure = s.recorded.head?
  cancelled : s.shared.cancelled = true →
    s.shared.firstFailure.isSome = true ∨ s.shared.nextWriteIndex = ctx.totalChunks
  workerCancels : ∀ index, s.workers index = .cancelling → s.shared.firstFailure.isSome = true
  writerCancels : s.writer = .cancelling → s.shared.firstFailure.isSome = true
  joining : s.writer = .joining ∨ s.writer = .joined → s.shared.cancelled = true
  returned : ∀ index, s.workers index = .returned →
    s.shared.stopped = true ∨ ctx.totalChunks ≤ s.shared.nextClaimIndex
  pending : ∀ k, s.writer = .starting k →
    ∀ index : Fin kWorkerCount, k ≤ index → s.workers index = .unstarted
  launched : ∀ index, s.workers index = .unstarted →
    (∃ k, k ≤ index.val ∧ s.writer = .starting k) ∨ s.writer.Unwinding
  joined : s.writer = .joined →
    ∀ index, s.workers index = .returned ∨ s.workers index = .unstarted

theorem shutdown_initial (sink : Sink) : Shutdown ctx (initial ctx sink) := by
  constructor <;> simp [initial]

theorem recordFailure_isSome (shared : SharedDownloadState) (e : EngineExc) :
    (recordFailure shared e).firstFailure.isSome = true := by
  cases h : shared.firstFailure <;> simp [recordFailure, h]

theorem recordFailure_head {shared : SharedDownloadState} {recorded : List EngineExc}
    (h : shared.firstFailure = recorded.head?) (e : EngineExc) :
    (recordFailure shared e).firstFailure = (recorded ++ [e]).head? := by
  rw [recordFailure, h, List.head?_append, List.head?_cons]

structure Advances (shared shared' : SharedDownloadState) : Prop where
  failed : shared.firstFailure.isSome = true → shared'.firstFailure.isSome = true
  cancelled : shared.cancelled = true → shared'.cancelled = true
  claimed : shared.nextClaimIndex ≤ shared'.nextClaimIndex

theorem Advances.stopped {shared shared' : SharedDownloadState} (h : Advances shared shared')
    (hstopped : shared.stopped = true) : shared'.stopped = true := by
  simp only [SharedDownloadState.stopped, Bool.or_eq_true] at hstopped ⊢
  exact hstopped.imp h.cancelled h.failed

theorem Advances.refl (shared : SharedDownloadState) : Advances shared shared :=
  ⟨id, id, Nat.le_refl _⟩

theorem advances_recordFailure (shared : SharedDownloadState) (e : EngineExc) :
    Advances shared (recordFailure shared e) :=
  ⟨fun _ => recordFailure_isSome _ _, id, Nat.le_refl _⟩

theorem advances_cancelDownload (shared : SharedDownloadState) :
    Advances shared (cancelDownload shared) :=
  ⟨id, fun _ => rfl, Nat.le_refl _⟩

theorem Shutdown.worker {shared : SharedDownloadState} {index : Fin kWorkerCount} {worker : Worker}
    {claimed : List Nat} {recorded : List EngineExc} (hs : Shutdown ctx s)
    (hactive : s.workers index ≠ .returned ∧ s.workers index ≠ .unstarted)
    (hstarted : worker ≠ .unstarted) (hshared : Advances s.shared shared)
    (hfirst : shared.firstFailure = recorded.head?)
    (hcancelled : shared.cancelled = true →
      shared.firstFailure.isSome = true ∨ shared.nextWriteIndex = ctx.totalChunks)
    (hcancels : worker = .cancelling → shared.firstFailure.isSome = true)
    (hreturned : worker = .returned →
      shared.stopped = true ∨ ctx.totalChunks ≤ shared.nextClaimIndex) :
    Shutdown ctx { s with
      shared := shared
      workers := Function.update s.workers index worker
      claimed := claimed
      recorded := recorded } := by
  refine ⟨hfirst, hcancelled, fun other hother => ?_, fun h => hshared.failed (hs.writerCancels h),
    fun h => hshared.cancelled (hs.joining h), fun other hother => ?_,
    fun k hk other hle => ?_, fun other hother => ?_, fun hjoined => ?_⟩
  · rcases worker_of_update hother with h | ⟨-, h⟩
    · exact hcancels h
    · exact hshared.failed (hs.workerCancels other h)
  · rcases worker_of_update hother with h | ⟨-, h⟩
    · exact hreturned h
    · exact (hs.returned other h).imp hshared.stopped fun hend => hend.trans hshared.claimed
  · have hunstarted := hs.pending k hk other hle
    have hne : other ≠ index := fun h => hactive.2 (h ▸ hunstarted)
    exact (Function.update_of_ne hne _ _).trans hunstarted
  · rcases worker_of_update hother with h | ⟨-, h⟩
    · exact absurd h hstarted
    · exact hs.launched other h
  · rcases hs.joined hjoined index with h | h
    · exact absurd h hactive.1
    · exact absurd h hactive.2

theorem Shutdown.writer {shared : SharedDownloadState} {writer : Writer} {sink : Sink}
    {written : List Nat} {recorded : List EngineExc} (hs : Shutdown ctx s)
    (hstarting : ∀ k, writer ≠ .starting k)
    (hleaves : ∀ k, s.writer = .starting k → kWorkerCount ≤ k ∨ writer.Unwinding)
    (hunwound : s.writer.Unwinding → writer.Unwinding) (hshared : Advances s.shared shared)
    (hfirst : shared.firstFailure = recorded.head?)
    (hcancelled : shared.cancelled = true →
      shared.firstFailure.isSome = true ∨ shared.nextWriteIndex = ctx.totalChunks)
    (hcancels : writer = .cancelling → shared.firstFailure.isSome = true)
    (hjoining : writer = .joining ∨ writer = .joined → shared.cancelled = true)
    (hjoined : writer = .joined →
      ∀ index, s.workers index = .returned ∨ s.workers index = .unstarted) :
    Shutdown ctx { s with
      shared := shared
      writer := writer
      sink := sink
      written := written
      recorded := recorded } := by
  refine ⟨hfirst, hcancelled, fun index h => hshared.failed (hs.workerCancels index h), hcancels,
    hjoining, fun index h => ?_, fun k h => absurd h (hstarting k), fun index h => .inr ?_, hjoined⟩
  · exact (hs.returned index h).imp hshared.stopped fun hend => hend.trans hshared.claimed
  · rcases hs.launched index h with ⟨k, hk, hwriter⟩ | hwriter
    · exact (hleaves k hwriter).resolve_left (by omega)
    · exact hunwound hwriter

theorem shutdown_moves (h : Moves ctx s s') (hc : Counters ctx s) (hs : Shutdown ctx s) :
    Shutdown ctx s' := by
  cases h with
  | returns hworker hend =>
      exact hs.worker (by simp [hworker]) (by simp) (.refl _) hs.first hs.cancelled (by simp)
        fun _ => hend
  | claims hworker =>
      exact hs.worker (by simp [hworker]) (by simp) ⟨id, id, Nat.le_succ _⟩ hs.first hs.cancelled
        (by simp) (by simp)
  | delivers hworker =>
      exact hs.worker (by simp [hworker]) (by simp) ⟨id, id, Nat.le_refl _⟩ hs.first hs.cancelled
        (by simp) (by simp)
  | fails hworker =>
      exact hs.worker (by simp [hworker]) (by simp) (.refl _) hs.first hs.cancelled (by simp)
        (by simp)
  | records hworker =>
      exact hs.worker (by simp [hworker]) (by simp) (advances_recordFailure _ _)
        (recordFailure_head hs.first _) (fun _ => .inl (recordFailure_isSome _ _))
        (fun _ => recordFailure_isSome _ _) (by simp)
  | cancels hworker =>
      have hfailed := hs.workerCancels _ hworker
      exact hs.worker (by simp [hworker]) (by simp) (advances_cancelDownload _) hs.first
        (fun _ => .inl hfailed) (by simp)
        (fun _ => .inl (by simp [SharedDownloadState.stopped, cancelDownload]))
  | starts hwriter hlt =>
      rename_i workerIndex
      refine ⟨hs.first, hs.cancelled, fun other hother => ?_, by simp, by simp,
        fun other hother => ?_, fun k hk other hle => ?_, fun other hother => .inl ?_, by simp⟩
      · rcases worker_of_update hother with h | ⟨-, h⟩
        · cases h
        · exact hs.workerCancels other h
      · rcases worker_of_update hother with h | ⟨-, h⟩
        · cases h
        · exact hs.returned other h
      · obtain rfl : workerIndex + 1 = k := by simpa using hk
        have hne : other ≠ ⟨workerIndex, hlt⟩ := fun h => by simp [h] at hle
        exact (Function.update_of_ne hne _ _).trans (hs.pending _ hwriter other (by omega))
      · rcases worker_of_update hother with h | ⟨hne, h⟩
        · cases h
        · rcases hs.launched other h with ⟨k, hk, hstarting⟩ | hunwinding
          · obtain rfl : workerIndex = k := by simpa [hwriter] using hstarting
            have hval : other.val ≠ workerIndex := fun h => hne (Fin.ext h)
            exact ⟨workerIndex + 1, by omega, rfl⟩
          · exact absurd hunwinding (by simp [hwriter, Writer.Unwinding])
  | enters hwriter hall =>
      refine hs.writer (by simp) (fun k hk => .inl ?_) (by simp [hwriter, Writer.Unwinding])
        (.refl _) hs.first hs.cancelled (by simp) (by simp) (by simp)
      obtain rfl : _ = k := by simpa [hwriter] using hk
      exact hall
  | startThrows hwriter =>
      exact hs.writer (by simp) (fun _ _ => .inr trivial) (fun _ => trivial) (.refl _) hs.first
        hs.cancelled (by simp) (by simp) (by simp)
  | observes hwriter =>
      exact hs.writer (by simp) (by simp [hwriter]) (fun _ => trivial) (.refl _) hs.first
        hs.cancelled (by simp) (by simp) (by simp)
  | takes hwriter =>
      exact hs.writer (by simp) (by simp [hwriter]) (by simp [hwriter, Writer.Unwinding])
        ⟨id, id, Nat.le_refl _⟩ hs.first hs.cancelled (by simp) (by simp) (by simp)
  | pwrites hwriter =>
      exact hs.writer (by simp) (by simp [hwriter]) (by simp [hwriter, Writer.Unwinding])
        (.refl _) hs.first hs.cancelled (by simp) (by simp) (by simp)
  | writeThrows hwriter =>
      exact hs.writer (by simp) (by simp [hwriter]) (fun _ => trivial) (.refl _) hs.first
        hs.cancelled (by simp) (by simp) (by simp)
  | completes hwriter =>
      exact hs.writer (by simp) (by simp [hwriter]) (by simp [hwriter, Writer.Unwinding])
        (.refl _) hs.first hs.cancelled (by simp) (by simp) (by simp)
  | advances hwriter =>
      rename_i chunkIndex
      have hat := hc.atNext chunkIndex (by rw [hwriter]; rfl)
      have hcancelled : s.shared.cancelled = true → s.shared.firstFailure.isSome = true :=
        fun h => (hs.cancelled h).resolve_right (by omega)
      unfold atIndex
      split
      all_goals
        exact hs.writer (by simp) (by simp [hwriter]) (by simp [hwriter, Writer.Unwinding])
          ⟨id, id, Nat.le_refl _⟩ hs.first (fun h => .inl (hcancelled h)) (by simp) (by simp)
          (by simp)
  | closes hwriter =>
      exact hs.writer (by simp) (by simp [hwriter]) (fun _ => trivial) (advances_cancelDownload _)
        hs.first (fun _ => .inr (hc.closing hwriter)) (by simp) (fun _ => rfl) (by simp)
  | writerRecords hwriter =>
      exact hs.writer (by simp) (by simp [hwriter]) (fun _ => trivial) (advances_recordFailure _ _)
        (recordFailure_head hs.first _) (fun _ => .inl (recordFailure_isSome _ _))
        (fun _ => recordFailure_isSome _ _) (by simp) (by simp)
  | writerCancels hwriter =>
      exact hs.writer (by simp) (by simp [hwriter]) (fun _ => trivial) (advances_cancelDownload _)
        hs.first (fun _ => .inl (hs.writerCancels hwriter)) (by simp) (fun _ => rfl) (by simp)
  | joins hwriter hall =>
      exact hs.writer (by simp) (by simp [hwriter]) (fun _ => trivial) (.refl _) hs.first
        hs.cancelled (by simp) (fun _ => hs.joining (.inl hwriter)) (fun _ => hall)

/-! ## Custody of claimed chunks -/

def Failing (s : WindowState Sink) : Prop :=
  s.shared.firstFailure.isSome = true ∨ (∃ index e, s.workers index = .recording e) ∨
    ∃ e, s.writer = .recording e

theorem Failing.worker {index : Fin kWorkerCount} {worker : Worker}
    {shared : SharedDownloadState} {claimed : List Nat}
    (hindex : ∀ e, s.workers index ≠ .recording e)
    (hfailure : shared.firstFailure = s.shared.firstFailure) (hs : Failing s) :
    Failing { s with
      shared := shared
      workers := Function.update s.workers index worker
      claimed := claimed } := by
  rcases hs with h | ⟨other, e, hother⟩ | h
  · exact .inl (hfailure ▸ h)
  · have hne : other ≠ index := fun heq => hindex e (heq ▸ hother)
    exact .inr (.inl ⟨other, e, (Function.update_of_ne hne _ _).trans hother⟩)
  · exact .inr (.inr h)

theorem Failing.writer {shared : SharedDownloadState} {writer : Writer} {sink : Sink}
    {written : List Nat} (hwriter : ∀ e, s.writer ≠ .recording e)
    (hfailure : shared.firstFailure = s.shared.firstFailure) (hs : Failing s) :
    Failing { s with shared := shared, writer := writer, sink := sink, written := written } := by
  rcases hs with h | h | ⟨e, h⟩
  · exact .inl (hfailure ▸ h)
  · exact .inr (.inl h)
  · exact absurd h (hwriter e)

theorem failing_moves (h : Moves ctx s s') (hc : Shutdown ctx s) (hs : Failing s) :
    Failing s' := by
  cases h with
  | returns hworker => exact hs.worker (by simp [hworker]) rfl
  | claims hworker => exact hs.worker (by simp [hworker]) rfl
  | delivers hworker => exact hs.worker (by simp [hworker]) rfl
  | fails hworker => exact hs.worker (by simp [hworker]) rfl
  | records => exact .inl (recordFailure_isSome _ _)
  | cancels hworker => exact hs.worker (by simp [hworker]) rfl
  | starts hwriter hlt =>
      have hunstarted := hc.pending _ hwriter ⟨_, hlt⟩ (Nat.le_refl _)
      exact (hs.worker (by simp [hunstarted]) rfl).writer (by simp [hwriter]) rfl
  | enters hwriter => exact hs.writer (by simp [hwriter]) rfl
  | startThrows => exact .inr (.inr ⟨_, rfl⟩)
  | observes => exact .inr (.inr ⟨_, rfl⟩)
  | takes hwriter => exact hs.writer (by simp [hwriter]) rfl
  | pwrites hwriter => exact hs.writer (by simp [hwriter]) rfl
  | writeThrows => exact .inr (.inr ⟨_, rfl⟩)
  | completes hwriter => exact hs.writer (by simp [hwriter]) rfl
  | advances hwriter => exact hs.writer (by simp [hwriter]) rfl
  | closes hwriter => exact hs.writer (by simp [hwriter]) rfl
  | writerRecords => exact .inl (recordFailure_isSome _ _)
  | writerCancels hwriter => exact hs.writer (by simp [hwriter]) rfl
  | joins hwriter => exact hs.writer (by simp [hwriter]) rfl

/-- Where a claimed chunk is until `next_write_index` passes it. -/
def InCustody (s : WindowState Sink) (i : Nat) : Prop :=
  (s.shared.ready i).isSome = true ∨ s.writer.held? = some i ∨
    ∃ index, s.workers index = .downloading i

structure Custody (s : WindowState Sink) : Prop where
  distinct : ∀ index other i, s.workers index = .downloading i →
    s.workers other = .downloading i → index = other
  covered : Failing s ∨
    ∀ i, s.shared.nextWriteIndex ≤ i → i < s.shared.nextClaimIndex → InCustody s i

theorem custody_initial (sink : Sink) : Custody (initial ctx sink) :=
  ⟨by simp [initial], .inr fun _ hle hlt => absurd hlt (Nat.not_lt_of_le hle)⟩

theorem distinct_update {index : Fin kWorkerCount} {worker : Worker}
    (hfresh : ∀ other i, worker = .downloading i → s.workers other ≠ .downloading i)
    (hs : Custody s) (first second : Fin kWorkerCount) (i : Nat)
    (hfirst : Function.update s.workers index worker first = .downloading i)
    (hsecond : Function.update s.workers index worker second = .downloading i) :
    first = second := by
  by_cases hindex : first = index <;> by_cases hother : second = index
  · exact hindex.trans hother.symm
  · subst hindex
    rw [Function.update_self] at hfirst
    rw [Function.update_of_ne hother] at hsecond
    exact absurd hsecond (hfresh second i hfirst)
  · subst hother
    rw [Function.update_of_ne hindex] at hfirst
    rw [Function.update_self] at hsecond
    exact absurd hfirst (hfresh first i hsecond)
  · rw [Function.update_of_ne hindex] at hfirst
    rw [Function.update_of_ne hother] at hsecond
    exact hs.distinct first second i hfirst hsecond

/-- A worker that leaves another state than `downloading` leaves no chunk behind. -/
theorem InCustody.worker {index : Fin kWorkerCount} {worker : Worker}
    {shared : SharedDownloadState} {claimed : List Nat} {i : Nat}
    (hindex : s.workers index ≠ .downloading i)
    (hready : (s.shared.ready i).isSome = true → (shared.ready i).isSome = true)
    (hs : InCustody s i) :
    InCustody { s with
      shared := shared
      workers := Function.update s.workers index worker
      claimed := claimed } i := by
  rcases hs with h | h | ⟨other, hother⟩
  · exact .inl (hready h)
  · exact .inr (.inl h)
  · have hne : other ≠ index := fun heq => hindex (heq ▸ hother)
    exact .inr (.inr ⟨other, (Function.update_of_ne hne _ _).trans hother⟩)

theorem covered_moves (h : Moves ctx s s') (hc : Counters ctx s) (hd : Shutdown ctx s)
    (hs : ¬Failing s →
      ∀ i, s.shared.nextWriteIndex ≤ i → i < s.shared.nextClaimIndex → InCustody s i)
    (hfailing : ¬Failing s') (i : Nat) (hle : s'.shared.nextWriteIndex ≤ i)
    (hlt : i < s'.shared.nextClaimIndex) : InCustody s' i := by
  have hall := hs fun h' => hfailing (failing_moves h hd h')
  cases h with
  | returns hworker => exact (hall i hle hlt).worker (by simp [hworker]) id
  | claims hworker =>
      rename_i index hrunning hend hwindow
      by_cases hnew : i = s.shared.nextClaimIndex
      · exact .inr (.inr ⟨index, by simp [hnew]⟩)
      · have hold : i < s.shared.nextClaimIndex := by
          have : i < s.shared.nextClaimIndex + 1 := hlt
          omega
        exact (hall i hle hold).worker (by simp [hworker]) id
  | delivers hworker =>
      rename_i index chunkIndex answers bytes hdownload
      by_cases hindex : i = chunkIndex
      · refine .inl ?_
        cases hready : s.shared.ready chunkIndex <;> simp [deliver, hindex, hready]
      · refine (hall i hle hlt).worker ?_ (by simp [hindex])
        simpa [hworker] using fun h => hindex h.symm
  | fails hworker => exact absurd (.inr (.inl ⟨_, _, Function.update_self ..⟩)) hfailing
  | records => exact absurd (.inl (recordFailure_isSome _ _)) hfailing
  | cancels hworker => exact (hall i hle hlt).worker (by simp [hworker]) id
  | starts hwriter hstart =>
      have hunstarted := hd.pending _ hwriter ⟨_, hstart⟩ (Nat.le_refl _)
      rcases hall i hle hlt with h | h | ⟨other, hother⟩
      · exact .inl h
      · simp [hwriter, Writer.held?] at h
      · have hne : other ≠ ⟨_, hstart⟩ := fun heq => by simp [heq ▸ hother] at hunstarted
        exact .inr (.inr ⟨other, (Function.update_of_ne hne _ _).trans hother⟩)
  | enters hwriter =>
      exact (hall i hle hlt).imp_right (Or.imp_left (by simp [hwriter, Writer.held?]))
  | startThrows => exact absurd (.inr (.inr ⟨_, rfl⟩)) hfailing
  | observes => exact absurd (.inr (.inr ⟨_, rfl⟩)) hfailing
  | takes hwriter =>
      rename_i chunkIndex bytes hrunning hready
      by_cases hindex : i = chunkIndex
      · exact .inr (.inl (by simp [Writer.held?, hindex]))
      · rcases hall i hle hlt with h | h | h
        · exact .inl (by simpa [hindex] using h)
        · simp [hwriter, Writer.held?] at h
        · exact .inr (.inr h)
  | pwrites hwriter =>
      exact (hall i hle hlt).imp_right (Or.imp_left (by simp [hwriter, Writer.held?]))
  | writeThrows => exact absurd (.inr (.inr ⟨_, rfl⟩)) hfailing
  | completes hwriter =>
      exact (hall i hle hlt).imp_right (Or.imp_left (by simp [hwriter, Writer.held?]))
  | advances hwriter =>
      rename_i chunkIndex
      have hat := hc.atNext chunkIndex (by rw [hwriter]; rfl)
      have hpassed : chunkIndex < i := hle
      rcases hall i (by omega) hlt with h | h | h
      · exact .inl h
      · simp [hwriter, Writer.held?] at h
        omega
      · exact .inr (.inr h)
  | closes hwriter =>
      exact (hall i hle hlt).imp_right (Or.imp_left (by simp [hwriter, Writer.held?]))
  | writerRecords => exact absurd (.inl (recordFailure_isSome _ _)) hfailing
  | writerCancels hwriter =>
      exact (hall i hle hlt).imp_right (Or.imp_left (by simp [hwriter, Writer.held?]))
  | joins hwriter =>
      exact (hall i hle hlt).imp_right (Or.imp_left (by simp [hwriter, Writer.held?]))

theorem distinct_moves (h : Moves ctx s s') (hc : Counters ctx s) (hs : Custody s) :
    ∀ index other i, s'.workers index = .downloading i → s'.workers other = .downloading i →
      index = other := by
  cases h with
  | claims =>
      refine distinct_update (fun other i hnew hother => ?_) hs
      obtain rfl : _ = i := by simpa using hnew
      exact absurd (hc.downloading other _ hother) (Nat.lt_irrefl _)
  | returns => exact distinct_update (by simp) hs
  | delivers => exact distinct_update (by simp) hs
  | fails => exact distinct_update (by simp) hs
  | records => exact distinct_update (by simp) hs
  | cancels => exact distinct_update (by simp) hs
  | starts => exact distinct_update (by simp) hs
  | _ => exact hs.distinct

theorem custody_moves (h : Moves ctx s s') (hc : Counters ctx s) (hd : Shutdown ctx s)
    (hs : Custody s) : Custody s' :=
  ⟨distinct_moves h hc hs,
    or_iff_not_imp_left.mpr (covered_moves h hc hd (or_iff_not_imp_left.mp hs.covered))⟩

/-! ## Reachable states -/

structure Invariant (ctx : WindowContext Answers Sink) (s : WindowState Sink) : Prop where
  counters : Counters ctx s
  shutdown : Shutdown ctx s
  custody : Custody s

theorem invariant_initial (sink : Sink) : Invariant ctx (initial ctx sink) :=
  ⟨counters_initial sink, shutdown_initial sink, custody_initial sink⟩

theorem Invariant.withSink (hs : Invariant ctx s) (sink : Sink) : Invariant ctx (s.withSink sink) := by
  obtain ⟨hc, hd, hu⟩ := hs
  refine ⟨?_, ?_, ⟨hu.distinct, hu.covered⟩⟩
  · exact ⟨hc.resumed, hc.ordered, hc.bounded, hc.window, hc.claimed, hc.written, hc.atNext, hc.held,
      hc.ready, hc.downloading, hc.starting, hc.closing⟩
  · exact ⟨hd.first, hd.cancelled, hd.workerCancels, hd.writerCancels, hd.joining, hd.returned,
      hd.pending, hd.launched, hd.joined⟩

theorem Invariant.moves (hs : Invariant ctx s) (h : Moves ctx s s') : Invariant ctx s' :=
  ⟨counters_moves h hs.counters, shutdown_moves h hs.counters hs.shutdown,
    custody_moves h hs.counters hs.shutdown hs.custody⟩

theorem Invariant.runs (hs : Invariant ctx s) (hrun : Runs ctx s s') : Invariant ctx s' :=
  invariant_of_step (fun _ _ ⟨_, hop⟩ hi => hi.moves (moves_of_step hop)) hrun hs

theorem invariant_of_runs {sink : Sink} (hrun : Runs ctx (initial ctx sink) s) : Invariant ctx s :=
  (invariant_initial sink).runs hrun

theorem Unwinding.moves (h : Moves ctx s s') (hs : s.writer.Unwinding) :
    s'.writer.Unwinding ∧ s'.written = s.written ∧ s'.sink = s.sink := by
  cases h with
  | returns | claims | delivers | fails | records | cancels => exact ⟨hs, rfl, rfl⟩
  | writerRecords | writerCancels | joins => exact ⟨trivial, rfl, rfl⟩
  | starts hwriter | enters hwriter | startThrows hwriter | observes hwriter | takes hwriter
  | pwrites hwriter | writeThrows hwriter | completes hwriter | advances hwriter
  | closes hwriter => exact absurd hs (by simp [hwriter, Writer.Unwinding])

theorem Unwinding.runs (hs : s.writer.Unwinding) (hrun : Runs ctx s s') :
    s'.writer.Unwinding ∧ s'.written = s.written ∧ s'.sink = s.sink := by
  induction hrun with
  | refl => exact ⟨hs, rfl, rfl⟩
  | tail _ hstep ih =>
      obtain ⟨op, hop⟩ := hstep
      obtain ⟨hunwinding, hwritten, hsink⟩ := ih
      obtain ⟨hunwinding', hwritten', hsink'⟩ := Unwinding.moves (moves_of_step hop) hunwinding
      exact ⟨hunwinding', hwritten'.trans hwritten, hsink'.trans hsink⟩

/-! ## No state is stuck -/

theorem enabled_of_downloading [Inhabited Answers] {index : Fin kWorkerCount} {chunkIndex : Nat}
    (hworker : s.workers index = .downloading chunkIndex) :
    ∃ op s', step ctx s op = some s' := by
  refine ⟨.worker index default, ?_⟩
  cases hdownload : ctx.download chunkIndex default <;>
    simp [step, workerStep, hworker, hdownload]

theorem enabled_of_recording [Inhabited Answers] {index : Fin kWorkerCount} {e : EngineExc}
    (hworker : s.workers index = .recording e) : ∃ op s', step ctx s op = some s' :=
  ⟨.worker index default, by simp [step, workerStep, hworker]⟩

theorem enabled_of_cancelling [Inhabited Answers] {index : Fin kWorkerCount}
    (hworker : s.workers index = .cancelling) : ∃ op s', step ctx s op = some s' :=
  ⟨.worker index default, by simp [step, workerStep, hworker]⟩

theorem enabled_of_mayProceed [Inhabited Answers] {index : Fin kWorkerCount}
    (hworker : s.workers index = .waiting) (hproceed : mayProceed ctx s.shared = true) :
    ∃ op s', step ctx s op = some s' := by
  refine ⟨.worker index default, ?_⟩
  simp only [step, workerStep, hworker, claim, hproceed, not_true_eq_false, ↓reduceIte]
  split
  · exact ⟨_, rfl⟩
  · split <;> exact ⟨_, rfl⟩

/-- The writer waits for the chunk at `next_write_index`.  It is ready, or a worker has it, or
nobody has claimed it and the window is open. -/
theorem enabled_of_waiting [Inhabited Answers] (hs : Invariant ctx s) {chunkIndex : Nat}
    (hwriter : s.writer = .waiting chunkIndex) : ∃ op s', step ctx s op = some s' := by
  obtain ⟨hat, hlt⟩ := hs.counters.atNext chunkIndex (by rw [hwriter]; rfl)
  by_cases hstopped : s.shared.stopped = true
  · refine ⟨.writer, ?_⟩
    simp only [SharedDownloadState.stopped, Bool.or_eq_true] at hstopped
    cases hfailure : s.shared.firstFailure with
    | some e => simp [step, writerStep, take, hwriter, hfailure]
    | none => simp [step, writerStep, take, hwriter, hfailure, by simpa [hfailure] using hstopped]
  have hrunning : s.shared.cancelled = false ∧ s.shared.firstFailure = none := by
    simpa [SharedDownloadState.stopped] using hstopped
  by_cases hclaimed : chunkIndex < s.shared.nextClaimIndex
  · rcases hs.custody.covered with hfailing | hcovered
    · rcases hfailing with h | ⟨index, e, hworker⟩ | ⟨e, h⟩
      · simp [hrunning.2] at h
      · exact enabled_of_recording hworker
      · simp [hwriter] at h
    · rcases hcovered chunkIndex (by omega) hclaimed with h | h | ⟨index, hworker⟩
      · obtain ⟨bytes, hready⟩ := Option.isSome_iff_exists.mp h
        exact ⟨.writer, by simp [step, writerStep, take, hwriter, hrunning, hready]⟩
      · simp [hwriter, Writer.held?] at h
      · exact enabled_of_downloading hworker
  · -- The chunk is unclaimed, so no worker has returned and each one may claim it.
    cases hworker : s.workers 0 with
    | unstarted =>
        rcases hs.shutdown.launched 0 hworker with ⟨k, -, h⟩ | h
        · simp [hwriter] at h
        · simp [hwriter, Writer.Unwinding] at h
    | waiting =>
        have hwindow : s.shared.nextClaimIndex < s.shared.nextWriteIndex + kWindowCapacity := by
          have hpos : 0 < kWindowCapacity := by decide
          omega
        exact enabled_of_mayProceed hworker (by simp [mayProceed, hwindow])
    | downloading i => exact enabled_of_downloading hworker
    | recording e => exact enabled_of_recording hworker
    | cancelling => exact enabled_of_cancelling hworker
    | returned =>
        rcases hs.shutdown.returned 0 hworker with h | h
        · exact absurd h hstopped
        · omega

theorem enabled_of_joining [Inhabited Answers] (hs : Invariant ctx s)
    (hwriter : s.writer = .joining) : ∃ op s', step ctx s op = some s' := by
  have hcancelled := hs.shutdown.joining (.inl hwriter)
  by_cases hall : ∀ index, s.workers index = .returned ∨ s.workers index = .unstarted
  · exact ⟨.writer, by simp [step, writerStep, hwriter, hall]⟩
  · obtain ⟨index, hindex⟩ := not_forall.mp hall
    cases hworker : s.workers index with
    | unstarted => exact absurd (.inr hworker) hindex
    | returned => exact absurd (.inl hworker) hindex
    | waiting =>
        exact enabled_of_mayProceed hworker
          (by simp [mayProceed, SharedDownloadState.stopped, hcancelled])
    | downloading i => exact enabled_of_downloading hworker
    | recording e => exact enabled_of_recording hworker
    | cancelling => exact enabled_of_cancelling hworker

theorem Invariant.enabled [Inhabited Answers] (hs : Invariant ctx s) (hwriter : s.writer ≠ .joined) :
    ∃ op s', step ctx s op = some s' := by
  cases hphase : s.writer with
  | starting k => exact ⟨.writer, by simp [step, writerStep, hphase]⟩
  | waiting i => exact enabled_of_waiting hs hphase
  | writing i bytes position =>
      by_cases hdone : position < bytes.length
      · exact ⟨.pwrite 1, by simp [step, pwrite, hphase, Nat.succ_le_of_lt hdone]⟩
      · exact ⟨.writer, by simp [step, writerStep, hphase, hdone]⟩
  | advancing i => exact ⟨.writer, by simp [step, writerStep, hphase]⟩
  | closing => exact ⟨.writer, by simp [step, writerStep, hphase]⟩
  | recording e => exact ⟨.writer, by simp [step, writerStep, hphase]⟩
  | cancelling => exact ⟨.writer, by simp [step, writerStep, hphase]⟩
  | joining => exact enabled_of_joining hs hphase
  | joined => exact absurd hphase hwriter

/-! ## Safety -/

theorem Invariant.unwritten (hs : Invariant ctx s) :
    ∃ unwritten, s.claimed = s.written ++ unwritten ∧ unwritten.length ≤ kWindowCapacity := by
  have hresumed := hs.counters.resumed
  have hwindow := hs.counters.window
  have hordered : s.shared.nextWriteIndex + s.writer.ahead ≤ s.shared.nextClaimIndex := by
    cases hphase : s.writer with
    | advancing i =>
        have hat := hs.counters.atNext i (by rw [hphase]; rfl)
        have hheld := hs.counters.held i (by rw [hphase]; rfl)
        simp only [Writer.ahead]
        omega
    | _ => exact hs.counters.ordered
  refine ⟨List.range' (s.shared.nextWriteIndex + s.writer.ahead)
    (s.shared.nextClaimIndex - (s.shared.nextWriteIndex + s.writer.ahead)), ?_, ?_⟩
  · rw [hs.counters.claimed, hs.counters.written]
    exact range'_split (by omega) hordered
  · rw [List.length_range']
    omega

theorem Invariant.complete (hs : Invariant ctx s) (hwriter : s.writer = .joined)
    (hrecorded : s.recorded = []) :
    s.written = List.range' ctx.resumeIndex (ctx.totalChunks - ctx.resumeIndex) := by
  have hfailure : s.shared.firstFailure = none := by rw [hs.shutdown.first, hrecorded]; rfl
  have hnext : s.shared.nextWriteIndex = ctx.totalChunks := by
    rcases hs.shutdown.cancelled (hs.shutdown.joining (.inr hwriter)) with h | h
    · simp [hfailure] at h
    · exact h
  rw [hs.counters.written, hwriter, hnext]
  rfl

/-- The window protocol, in every state that an interleaving reaches: what is claimed is what is
written and at most a window more, the writer goes through its range in order and stops for good
at a failure, the first failure recorded is the one rethrown, and no state is stuck. -/
theorem window_safe [Inhabited Answers] (ctx : WindowContext Answers Sink) (sink : Sink)
    (s : WindowState Sink) (hrun : Runs ctx (initial ctx sink) s) :
    (s.claimed.Nodup ∧ (∀ i ∈ s.claimed, ctx.resumeIndex ≤ i ∧ i < ctx.totalChunks) ∧
      ∀ index other i, s.workers index = .downloading i → s.workers other = .downloading i →
        index = other) ∧
    s.written = List.range' ctx.resumeIndex s.written.length ∧
    (∃ unwritten, s.claimed = s.written ++ unwritten ∧ unwritten.length ≤ kWindowCapacity) ∧
    (s.writer.Unwinding → ∀ s', Runs ctx s s' → s'.written = s.written ∧ s'.sink = s.sink) ∧
    s.shared.firstFailure = s.recorded.head? ∧
    (s.writer = .joined →
      (∀ index, s.workers index = .returned ∨ s.workers index = .unstarted) ∧
      (s.recorded = [] →
        s.written = List.range' ctx.resumeIndex (ctx.totalChunks - ctx.resumeIndex))) ∧
    (s.writer ≠ .joined → ∃ op s', step ctx s op = some s') := by
  have hs := invariant_of_runs hrun
  refine ⟨⟨?_, fun i hi => ?_, hs.custody.distinct⟩, ?_, hs.unwritten,
    fun hunwinding s' hrun' => (Unwinding.runs hunwinding hrun').2, hs.shutdown.first,
    fun hwriter => ⟨hs.shutdown.joined hwriter, hs.complete hwriter⟩, hs.enabled⟩
  · rw [hs.counters.claimed]
    exact List.nodup_range'
  · rw [hs.counters.claimed, List.mem_range'_1] at hi
    have hbounded := hs.counters.bounded
    omega
  · rw [hs.counters.written, List.length_range']

def sampleContext : WindowContext Unit (List UInt8) where
  totalChunks := 2
  resumeIndex := 0
  resume_lt := by decide
  download chunkIndex _ := .ok [UInt8.ofNat chunkIndex]
  pwrite _ _ bytes sink := sink ++ bytes
  update _ sink := sink

/-- The second chunk arrives before the first. -/
def sampleOps : List (WindowOp Unit) :=
  [.writer, .writer, .writer, .writer, .writer, .worker 0 (), .worker 1 (), .worker 1 (),
    .worker 0 (), .writer, .pwrite 1, .writer, .writer, .writer, .pwrite 1, .writer, .writer,
    .writer, .worker 0 (), .worker 1 (), .worker 2 (), .worker 3 (), .writer]

def sampleEnd : WindowState (List UInt8) :=
  afterOps (step sampleContext) (initial sampleContext []) sampleOps

theorem window_safe_sample : sampleEnd.writer = .joined ∧ sampleEnd.written = [0, 1] := by
  have hjoined : sampleEnd.writer = .joined := by decide +kernel
  obtain ⟨-, -, -, -, -, hfinal, -⟩ :=
    window_safe sampleContext [] sampleEnd (runs_afterOps (step sampleContext) _ sampleOps)
  exact ⟨hjoined, (hfinal hjoined).2 (by decide +kernel)⟩

end WindowState

end AiArtifactStore.Pull
