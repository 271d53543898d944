import AiArtifactStore.Pull.WindowSafety

/-!
# The loop of the writer

A rule for the sink of a download window: what holds before each chunk of the
loop, and while a chunk is written, holds of every interleaving.
-/

namespace AiArtifactStore.Pull

open AiArtifactStore.Client

variable {Answers Sink : Type}

/-- What a downloaded chunk satisfies, and what the sink satisfies before a chunk and in the
middle of one. -/
structure LoopSpec (Sink : Type) where
  Fetched : Nat → List UInt8 → Prop
  Before : Nat → Sink → Prop
  During : Nat → List UInt8 → Nat → Sink → Prop

structure LoopSpec.Holds (spec : LoopSpec Sink) (ctx : WindowContext Answers Sink) : Prop where
  fetched : ∀ i answers bytes, i < ctx.totalChunks → ctx.download i answers = .ok bytes →
    spec.Fetched i bytes
  enter : ∀ i bytes sink, i < ctx.totalChunks → spec.Fetched i bytes → spec.Before i sink →
    spec.During i bytes 0 sink
  pwrite : ∀ i bytes position count sink, position + count ≤ bytes.length →
    spec.During i bytes position sink →
    spec.During i bytes (position + count)
      (ctx.pwrite i position ((bytes.drop position).take count) sink)
  complete : ∀ i bytes sink, i < ctx.totalChunks → spec.During i bytes bytes.length sink →
    spec.Before (i + 1) (ctx.update bytes sink)

namespace WindowState

def AtWriter (spec : LoopSpec Sink) (ctx : WindowContext Answers Sink) (s : WindowState Sink) :
    Prop :=
  match s.writer with
  | .starting _ => spec.Before ctx.resumeIndex s.sink
  | .waiting i => spec.Before i s.sink
  | .writing i bytes position => position ≤ bytes.length ∧ spec.During i bytes position s.sink
  | .advancing i => spec.Before (i + 1) s.sink
  | .closing => spec.Before ctx.totalChunks s.sink
  | .recording _ => True
  | .cancelling => True
  | .joining => s.shared.firstFailure = none → spec.Before ctx.totalChunks s.sink
  | .joined => s.shared.firstFailure = none → spec.Before ctx.totalChunks s.sink

structure Loaded (spec : LoopSpec Sink) (ctx : WindowContext Answers Sink)
    (s : WindowState Sink) : Prop where
  ready : ∀ i bytes, s.shared.ready i = some bytes → spec.Fetched i bytes
  loop : AtWriter spec ctx s

variable {spec : LoopSpec Sink} {ctx : WindowContext Answers Sink} {s s' : WindowState Sink}

theorem loaded_initial {sink : Sink} (h : spec.Before ctx.resumeIndex sink) :
    Loaded spec ctx (initial ctx sink) :=
  ⟨by simp [initial], h⟩

theorem Loaded.withSink {sink : Sink} (hbefore : ∀ i, spec.Before i s.sink → spec.Before i sink)
    (hduring : ∀ i bytes position, spec.During i bytes position s.sink →
      spec.During i bytes position sink) (hs : Loaded spec ctx s) :
    Loaded spec ctx (s.withSink sink) := by
  refine ⟨hs.ready, ?_⟩
  have hloop := hs.loop
  simp only [AtWriter, WindowState.withSink] at hloop ⊢
  cases hphase : s.writer <;> rw [hphase] at hloop
  case starting => exact hbefore _ hloop
  case waiting => exact hbefore _ hloop
  case writing => exact hloop.imp_right (hduring _ _ _)
  case advancing => exact hbefore _ hloop
  case closing => exact hbefore _ hloop
  case recording => trivial
  case cancelling => trivial
  case joining => exact fun h => hbefore _ (hloop h)
  case joined => exact fun h => hbefore _ (hloop h)

theorem AtWriter.worker (hwriter : s'.writer = s.writer) (hsink : s'.sink = s.sink)
    (hfailure : s'.shared.firstFailure = none → s.shared.firstFailure = none)
    (hs : AtWriter spec ctx s) : AtWriter spec ctx s' := by
  unfold AtWriter at hs ⊢
  rw [hwriter, hsink]
  cases hphase : s.writer <;> rw [hphase] at hs
  case joining => exact fun h => hs (hfailure h)
  case joined => exact fun h => hs (hfailure h)
  all_goals exact hs

theorem recordFailure_ne_none (shared : SharedDownloadState) (e : EngineExc) :
    (recordFailure shared e).firstFailure ≠ none := by
  simp [recordFailure]

theorem Loaded.moves (hspec : spec.Holds ctx) (hi : Invariant ctx s) (h : Moves ctx s s')
    (hs : Loaded spec ctx s) : Loaded spec ctx s' := by
  have hloop := hs.loop
  cases h with
  | returns => exact ⟨hs.ready, hloop.worker rfl rfl id⟩
  | claims => exact ⟨hs.ready, hloop.worker rfl rfl id⟩
  | fails => exact ⟨hs.ready, hloop.worker rfl rfl id⟩
  | cancels => exact ⟨hs.ready, hloop.worker rfl rfl id⟩
  | records =>
      refine ⟨hs.ready, AtWriter.worker (s := s) rfl rfl (fun h => ?_) hloop⟩
      exact absurd h (recordFailure_ne_none _ _)
  | delivers hworker hdownload =>
      rename_i index chunkIndex answers bytes
      refine ⟨fun i stored hstored => ?_, hloop.worker rfl rfl id⟩
      by_cases hindex : i = chunkIndex
      · subst hindex
        simp only [deliver, Function.update_self] at hstored
        cases hready : s.shared.ready i with
        | some before =>
            simp only [hready, Option.some_or, Option.some.injEq] at hstored
            exact hstored ▸ hs.ready i before hready
        | none =>
            simp only [hready, Option.none_or, Option.some.injEq] at hstored
            have hlt := (hi.counters.downloading index i hworker).trans_le hi.counters.bounded
            exact hstored ▸ hspec.fetched i answers bytes hlt hdownload
      · exact hs.ready i stored (by simpa [deliver, hindex] using hstored)
  | starts hwriter =>
      simp only [AtWriter, hwriter] at hloop
      exact ⟨hs.ready, hloop⟩
  | enters hwriter =>
      simp only [AtWriter, hwriter] at hloop
      exact ⟨hs.ready, hloop⟩
  | startThrows => exact ⟨hs.ready, trivial⟩
  | observes => exact ⟨hs.ready, trivial⟩
  | writeThrows => exact ⟨hs.ready, trivial⟩
  | takes hwriter hrunning hready =>
      rename_i chunkIndex bytes
      simp only [AtWriter, hwriter] at hloop
      have hlt := (hi.counters.atNext chunkIndex (by rw [hwriter]; rfl)).2
      have hfetched := hs.ready chunkIndex bytes hready
      refine ⟨fun i stored hstored => ?_, Nat.zero_le _, hspec.enter _ _ _ hlt hfetched hloop⟩
      by_cases hindex : i = chunkIndex
      · simp [hindex] at hstored
      · exact hs.ready i stored (by simpa [hindex] using hstored)
  | pwrites hwriter hcount hle =>
      simp only [AtWriter, hwriter] at hloop
      exact ⟨hs.ready, hle, hspec.pwrite _ _ _ _ _ hle hloop.2⟩
  | completes hwriter hdone =>
      rename_i chunkIndex position chunkBytes
      simp only [AtWriter, hwriter] at hloop
      have hlt := (hi.counters.atNext chunkIndex (by rw [hwriter]; rfl)).2
      have hposition : position = chunkBytes.length := Nat.le_antisymm hloop.1 hdone
      exact ⟨hs.ready, hspec.complete _ _ _ hlt (hposition ▸ hloop.2)⟩
  | advances hwriter =>
      rename_i chunkIndex
      simp only [AtWriter, hwriter] at hloop
      have hlt := (hi.counters.atNext chunkIndex (by rw [hwriter]; rfl)).2
      refine ⟨hs.ready, ?_⟩
      unfold atIndex
      split
      · exact hloop
      · have htotal : chunkIndex + 1 = ctx.totalChunks := by omega
        exact htotal ▸ hloop
  | closes hwriter =>
      simp only [AtWriter, hwriter] at hloop
      exact ⟨hs.ready, fun _ => hloop⟩
  | writerRecords => exact ⟨hs.ready, trivial⟩
  | writerCancels hwriter =>
      have hfailed := hi.shutdown.writerCancels hwriter
      exact ⟨hs.ready, fun h => by simp [show s.shared.firstFailure = none from h] at hfailed⟩
  | joins hwriter =>
      simp only [AtWriter, hwriter] at hloop
      exact ⟨hs.ready, hloop⟩

end WindowState

end AiArtifactStore.Pull
