import AiArtifactStore.Foundation.Termination
import AiArtifactStore.Pull.Content
import Mathlib.Algebra.BigOperators.Fin
import Mathlib.Algebra.Order.BigOperators.Group.Finset

/-!
# A pull comes to its end

Whatever the services answer, whatever fails and whoever else writes at the
destination: the threads of the download window never wait for each other in a
circle, and a call makes finitely many steps.
-/

namespace AiArtifactStore.Pull

open AiArtifactStore.Foundation
open AiArtifactStore.Metadata
open AiArtifactStore.Storage
open AiArtifactStore.Client
open Relation

/-! ## What the window has left to do -/

def Worker.left : Worker → Nat
  | .downloading _ => 4
  | .waiting => 3
  | .recording _ => 2
  | .cancelling => 1
  | .unstarted | .returned => 0

def Writer.stage : Writer → Nat
  | .starting _ => 5
  | .waiting _ | .writing .. | .advancing _ => 4
  | .closing | .recording _ => 3
  | .cancelling => 2
  | .joining => 1
  | .joined => 0

/-- The workers still to be started, or the chunks still to be written. -/
def Writer.turnsLeft (totalChunks : Nat) : Writer → Nat
  | .starting workerIndex => kWorkerCount - workerIndex
  | .waiting i | .writing i _ _ | .advancing i => totalChunks - i
  | _ => 0

def Writer.turn : Writer → Nat
  | .waiting _ => 2
  | .writing .. => 1
  | _ => 0

def Writer.bytesLeft : Writer → Nat
  | .writing _ chunkBytes position => chunkBytes.length - position
  | _ => 0

namespace WindowState

section

variable {Answers Sink : Type}

def workersLeft (s : WindowState Sink) : Nat := ∑ index, (s.workers index).left

/-- In the order in which a step may trade one for another. -/
def left (ctx : WindowContext Answers Sink) (s : WindowState Sink) :
    Nat ×ₗ Nat ×ₗ Nat ×ₗ Nat ×ₗ Nat ×ₗ Nat :=
  toLex (s.writer.stage, toLex (s.writer.turnsLeft ctx.totalChunks, toLex (s.writer.turn,
    toLex (s.writer.bytesLeft, toLex (ctx.totalChunks - s.shared.nextClaimIndex,
      s.workersLeft)))))

variable {ctx : WindowContext Answers Sink} {s s' : WindowState Sink}

theorem left_lt_iff : s'.left ctx < s.left ctx ↔
    s'.writer.stage < s.writer.stage ∨ s'.writer.stage = s.writer.stage ∧
    (s'.writer.turnsLeft ctx.totalChunks < s.writer.turnsLeft ctx.totalChunks ∨
      s'.writer.turnsLeft ctx.totalChunks = s.writer.turnsLeft ctx.totalChunks ∧
    (s'.writer.turn < s.writer.turn ∨ s'.writer.turn = s.writer.turn ∧
    (s'.writer.bytesLeft < s.writer.bytesLeft ∨ s'.writer.bytesLeft = s.writer.bytesLeft ∧
    (ctx.totalChunks - s'.shared.nextClaimIndex < ctx.totalChunks - s.shared.nextClaimIndex ∨
      ctx.totalChunks - s'.shared.nextClaimIndex = ctx.totalChunks - s.shared.nextClaimIndex ∧
        s'.workersLeft < s.workersLeft)))) := by
  simp only [left, Prod.Lex.toLex_lt_toLex]

theorem workersLeft_update {index : Fin kWorkerCount} {worker : Worker}
    (hless : worker.left < (s.workers index).left) :
    ∑ other, (Function.update s.workers index worker other).left < s.workersLeft := by
  refine Finset.sum_lt_sum (fun other _ => ?_) ⟨index, Finset.mem_univ _, by simpa using hless⟩
  by_cases hother : other = index
  · subst hother
    simpa using hless.le
  · simp [hother]

theorem worker_lowers {index : Fin kWorkerCount} {worker : Worker} (hwriter : s'.writer = s.writer)
    (hclaimed : s'.shared.nextClaimIndex = s.shared.nextClaimIndex)
    (hworkers : s'.workers = Function.update s.workers index worker)
    (hless : worker.left < (s.workers index).left) : s'.left ctx < s.left ctx := by
  rw [left_lt_iff, hwriter, hclaimed, workersLeft, hworkers]
  exact .inr ⟨rfl, .inr ⟨rfl, .inr ⟨rfl, .inr ⟨rfl, .inr ⟨rfl, workersLeft_update hless⟩⟩⟩⟩⟩

theorem stage_lowers (hless : s'.writer.stage < s.writer.stage) : s'.left ctx < s.left ctx :=
  left_lt_iff.mpr (.inl hless)

theorem turn_lowers (hstage : s'.writer.stage = s.writer.stage)
    (hturns : s'.writer.turnsLeft ctx.totalChunks = s.writer.turnsLeft ctx.totalChunks)
    (hless : s'.writer.turn < s.writer.turn) : s'.left ctx < s.left ctx :=
  left_lt_iff.mpr (.inr ⟨hstage, .inr ⟨hturns, .inl hless⟩⟩)

theorem advances_lowers {chunkIndex : Nat} (hwriter : s.writer = .advancing chunkIndex)
    (hnext : s'.writer = atIndex ctx (chunkIndex + 1)) : s'.left ctx < s.left ctx := by
  unfold atIndex at hnext
  split at hnext
  · rename_i hlt
    rw [left_lt_iff, hwriter, hnext]
    refine .inr ⟨rfl, .inl ?_⟩
    simp only [Writer.turnsLeft]
    omega
  · refine stage_lowers ?_
    rw [hwriter, hnext]
    simp [Writer.stage]

theorem Moves.lowers (h : Moves ctx s s') : s'.left ctx < s.left ctx := by
  cases h with
  | returns hworker | delivers hworker | fails hworker | records hworker | cancels hworker =>
      exact worker_lowers rfl rfl rfl (by rw [hworker]; simp [Worker.left])
  | claims hworker hrunning hlt hwindow =>
      rw [left_lt_iff]
      refine .inr ⟨rfl, .inr ⟨rfl, .inr ⟨rfl, .inr ⟨rfl, .inl ?_⟩⟩⟩⟩
      simp only
      omega
  | starts hwriter hlt =>
      rw [left_lt_iff, hwriter]
      refine .inr ⟨rfl, .inl ?_⟩
      simp only [Writer.turnsLeft]
      omega
  | takes hwriter =>
      refine turn_lowers ?_ ?_ ?_ <;> rw [hwriter]
      · rfl
      · rfl
      · exact Nat.one_lt_two
  | completes hwriter =>
      refine turn_lowers ?_ ?_ ?_ <;> rw [hwriter]
      · rfl
      · rfl
      · exact Nat.one_pos
  | pwrites hwriter hcount hle =>
      rw [left_lt_iff, hwriter]
      refine .inr ⟨rfl, .inr ⟨rfl, .inr ⟨rfl, .inl ?_⟩⟩⟩
      simp only [Writer.bytesLeft]
      omega
  | advances hwriter => exact advances_lowers hwriter rfl
  | enters hwriter | startThrows hwriter | observes hwriter | writeThrows hwriter
  | closes hwriter | writerRecords hwriter | writerCancels hwriter | joins hwriter =>
      exact stage_lowers (by rw [hwriter]; simp [Writer.stage])

end

end WindowState

/-! ## What a call has left to do -/

def Phase.stage : Phase → Nat
  | .validating => 13
  | .planning => 12
  | .opening _ => 11
  | .sizing _ => 10
  | .emptying _ => 9
  | .resuming .. => 8
  | .cutting .. => 7
  | .downloading .. => 6
  | .verifying _ => 5
  | .flushing _ => 4
  | .closing _ => 3
  | .publishing _ => 2
  | .unlinking _ => 1
  | .published _ | .thrown _ => 0

def Phase.uncompared : Phase → Nat
  | .resuming file _ state => file.chunks.length - state.firstDownloadIndex
  | _ => 0

def Phase.windowLeft (ctx : PullContext) : Phase → Nat ×ₗ Nat ×ₗ Nat ×ₗ Nat ×ₗ Nat ×ₗ Nat
  | .downloading file state remaining window =>
      window.left (windowContext ctx file state remaining)
  | _ => toLex (0, toLex (0, toLex (0, toLex (0, toLex (0, 0)))))

namespace PullState

def toDo (ctx : PullContext) (s : PullState) :
    Nat ×ₗ Nat ×ₗ Nat ×ₗ Nat ×ₗ Nat ×ₗ Nat ×ₗ Nat ×ₗ Nat :=
  toLex (s.phase.stage, toLex (s.phase.uncompared, s.phase.windowLeft ctx))

variable {ctx : PullContext} {s s' : PullState} {op : PullOp}

theorem toDo_lt_iff : s'.toDo ctx < s.toDo ctx ↔
    s'.phase.stage < s.phase.stage ∨ s'.phase.stage = s.phase.stage ∧
    (s'.phase.uncompared < s.phase.uncompared ∨ s'.phase.uncompared = s.phase.uncompared ∧
      s'.phase.windowLeft ctx < s.phase.windowLeft ctx) := by
  simp only [toDo, Prod.Lex.toLex_lt_toLex]

theorem stage_lowers (hless : s'.phase.stage < s.phase.stage) : s'.toDo ctx < s.toDo ctx :=
  toDo_lt_iff.mpr (.inl hless)

theorem stage_afterResume {file : PartialFile} {state : ResumeState} :
    (s.afterResume ctx file state).phase.stage ≤ 6 := by
  unfold afterResume
  split <;> simp [goto, Phase.stage]

def PullOp.own : PullOp → Bool
  | .others _ => false
  | _ => true

theorem thrown_final {e : EngineExc} (hown : PullOp.own op = true) (hphase : s.phase = .thrown e) :
    step ctx s op = none := by
  cases op with
  | next => simp only [step, next, hphase]
  | metadata => simp only [step, receivePlan, hphase]
  | window => simp only [step, stepWindow, hphase]
  | fails => simp only [step, fail, hphase]
  | others => cases hown

theorem step_lowers (hown : PullOp.own op = true) (h : step ctx s op = some s') :
    s'.toDo ctx < s.toDo ctx := by
  cases moves_of_step h with
  | throws hbefore =>
      refine stage_lowers ?_
      cases hphase : s.phase with
      | thrown => rw [thrown_final hown hphase] at h; cases h
      | unlinking | published => simp [hphase, Phase.beforePublication] at hbefore
      | _ => simp [goto, Phase.stage]
  | validates hphase | plans hphase | opens hphase | oversized hphase | sized hphase
  | empties hphase | mismatches hphase | joins hphase | verifies hphase | flushes hphase
  | closes hphase | renames hphase | links hphase | unlinks hphase | keeps hphase =>
      exact stage_lowers (by rw [hphase]; simp [goto, Phase.stage])
  | resumes hphase | cuts hphase =>
      refine stage_lowers (stage_afterResume.trans_lt ?_)
      rw [hphase]
      simp [Phase.stage]
  | reuses hphase hchunk =>
      rw [toDo_lt_iff, hphase]
      refine .inr ⟨rfl, .inl ?_⟩
      have hlt := (List.getElem?_eq_some_iff.mp hchunk).1
      simp only [Phase.uncompared]
      omega
  | window hphase hstep =>
      rw [toDo_lt_iff, hphase]
      exact .inr ⟨rfl, .inr ⟨rfl, (WindowState.moves_of_step hstep).lowers⟩⟩
  | othersCreate | othersRemove => cases hown

/-! ## No thread waits for ever -/

def OwnStep (ctx : PullContext) (s s' : PullState) : Prop :=
  ∃ op, PullOp.own op = true ∧ step ctx s op = some s'

/-- What everybody else does: nothing that the call can see, or a write at the destination. -/
def OthersStep (ctx : PullContext) (s s' : PullState) : Prop :=
  s' = s ∨ ∃ bytes, step ctx s (.others bytes) = some s'

theorem toDo_others (h : OthersStep ctx s s') : s'.toDo ctx = s.toDo ctx := by
  rcases h with rfl | ⟨bytes, hstep⟩
  · rfl
  · simp only [step, othersWrite] at hstep
    split at hstep
    · cases bytes <;> cases hstep <;> rfl
    · cases hstep

theorem pull_lowers : Lowers (toDo ctx) (OwnStep ctx) (OthersStep ctx) where
  own := by
    rintro s s' ⟨op, hown, hstep⟩
    exact step_lowers hown hstep
  others _ _ h := toDo_others h

theorem content_own (h : OwnStep ctx s s') (hs : Content ctx s) : Content ctx s' := by
  obtain ⟨op, -, hstep⟩ := h
  exact content_moves (moves_of_step hstep) hs

theorem content_others (h : OthersStep ctx s s') (hs : Content ctx s) : Content ctx s' := by
  rcases h with rfl | ⟨bytes, hstep⟩
  · exact hs
  · exact content_moves (moves_of_step hstep) hs

instance : Inhabited Answers := ⟨fun _ => .error (.runtimeError "")⟩

/-- The threads of the window can make a step until the writer has joined the workers. -/
theorem window_enabled {file : PartialFile} {state : ResumeState}
    {remaining : state.firstDownloadIndex < file.chunks.length} {window : WindowState Files}
    (hphase : s.phase = .downloading file state remaining window)
    (hwindow : WindowState.Invariant (windowContext ctx file state remaining)
      (window.withSink s.files)) : ∃ s', OwnStep ctx s s' := by
  by_cases hjoined : window.writer = .joined
  · refine ⟨_, .next, rfl, Option.eq_some_of_isSome ?_⟩
    simp only [step, next, hphase, hjoined]
    cases window.shared.firstFailure <;> rfl
  · obtain ⟨op, window', hstep⟩ := hwindow.enabled hjoined
    exact ⟨_, .window op, rfl, by simp only [step, stepWindow, hphase, hstep]; rfl⟩

def Returned (ctx : PullContext) (s : PullState) : Prop := ∃ result, s.returned ctx = some result

theorem next_isSome (hplanning : s.phase ≠ .planning)
    (hwindow : ∀ file state remaining window, s.phase ≠ .downloading file state remaining window)
    (hopen : ¬Returned ctx s) : (s.next ctx).isSome = true := by
  cases hphase : s.phase with
  | planning => exact absurd hphase hplanning
  | downloading => exact absurd hphase (hwindow _ _ _ _)
  | published | thrown => exact absurd ⟨_, by rw [returned, hphase]⟩ hopen
  | _ =>
      simp only [next, hphase]
      repeat split
      all_goals rfl

theorem own_enabled (hs : Content ctx s) (hopen : ¬Returned ctx s) : ∃ s', OwnStep ctx s s' := by
  cases hphase : s.phase with
  | planning =>
      refine ⟨_, .metadata (.error (.runtimeError "")), rfl, Option.eq_some_of_isSome ?_⟩
      simp only [step, receivePlan, hphase]
      split <;> rfl
  | downloading file state remaining window =>
      unfold Content at hs
      rw [hphase] at hs
      exact window_enabled hphase hs.1
  | _ =>
      have hnext : (s.next ctx).isSome = true :=
        next_isSome (by simp [hphase]) (by simp [hphase]) hopen
      exact ⟨_, .next, rfl, Option.eq_some_of_isSome hnext⟩

/-- A pull makes finitely many steps whatever the services and the file system answer and
whoever else writes at its destination, it returns in every fair run, and from every state it
comes to it can still return. -/
theorem pull_terminates (ctx : PullContext) (fs : FileSystem String) :
    (∀ run, EndlessRun (OwnStep ctx) (OthersStep ctx) run →
      ∃ last, ∀ n, last ≤ n → ¬OwnStep ctx (run n) (run (n + 1))) ∧
    (∀ run, run 0 = initial ctx fs → EndlessRun (OwnStep ctx) (OthersStep ctx) run →
      Fair (OwnStep ctx) run → ∃ n result, (run n).returned ctx = some result) ∧
    ∀ s, Runs ctx (initial ctx fs) s →
      ∃ s' result, ReflTransGen (OwnStep ctx) s s' ∧ s'.returned ctx = some result := by
  refine ⟨fun run hrun => pull_lowers.eventually_others hrun, fun run hzero hrun hfair => ?_,
    fun s hs => ?_⟩
  · have hcontent := hrun.invariant (fun _ _ => content_own) (fun _ _ => content_others)
      (hzero ▸ content_initial fs)
    exact pull_lowers.fair_reaches hrun hfair fun n => own_enabled (hcontent n)
  · obtain ⟨s', hsteps, result, hreturns⟩ :=
      pull_lowers.reaches (fun _ _ => content_own) (fun _ => own_enabled) s (content_of_runs hs)
    exact ⟨s', result, hsteps, hreturns⟩

end PullState

end AiArtifactStore.Pull
