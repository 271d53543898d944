import Mathlib.Logic.Relation

/-!
# Runs of a transition system

Invariants of the states that a relation reaches, and rules for the events of a run.
-/

namespace AiArtifactStore.Foundation

open Relation

variable {σ : Type} {step : σ → σ → Prop}

/-- A property that every step keeps holds at the end of a run if at its start. -/
theorem invariant_of_step {P : σ → Prop} (hstep : ∀ s s', step s s' → P s → P s') {s s' : σ}
    (hrun : ReflTransGen step s s') (h : P s) : P s' := by
  induction hrun with
  | refl => exact h
  | tail _ hs ih => exact hstep _ _ hs ih

/-- Operations one after the other.  One that is not possible is left out. -/
def afterOps {ο : Type} (perform : σ → ο → Option σ) (s : σ) (ops : List ο) : σ :=
  ops.foldl (fun s op => (perform s op).getD s) s

theorem runs_afterOps {ο : Type} (perform : σ → ο → Option σ) (s : σ) (ops : List ο) :
    ReflTransGen (fun s s' => ∃ op, perform s op = some s') s (afterOps perform s ops) := by
  induction ops generalizing s with
  | nil => exact .refl
  | cons op ops ih =>
      rw [afterOps, List.foldl_cons]
      cases hstep : perform s op with
      | none => exact ih s
      | some s' => exact .head ⟨op, hstep⟩ (ih s')

/-! ## One of many parties moves -/

theorem mem_set_or {α : Type} {xs : List α} {index : Nat} {x x' y : α} (hx : xs[index]? = some x)
    (hy : y ∈ xs) : y ∈ xs.set index x' ∨ y = x := by
  obtain ⟨i, hi, rfl⟩ := List.mem_iff_getElem.mp hy
  by_cases h : index = i
  · subst h
    refine .inr ?_
    rw [List.getElem?_eq_getElem hi] at hx
    exact Option.some.inj hx
  · exact .inl (List.mem_iff_getElem.mpr ⟨i, by simpa using hi, by simp [h]⟩)

/-! ## Histories -/

/-- Every event of a history obeys a rule about the events before it. -/
def Follows {ε : Type} (rule : List ε → ε → Prop) (events : List ε) : Prop :=
  ∀ before event after, events = before ++ event :: after → rule before event

theorem follows_nil {ε : Type} (rule : List ε → ε → Prop) : Follows rule [] :=
  fun before event after h => by simp at h

theorem Follows.concat {ε : Type} {rule : List ε → ε → Prop} {events : List ε} {event : ε}
    (h : Follows rule events) (hevent : rule events event) : Follows rule (events ++ [event]) := by
  intro before other after heq
  rcases List.eq_nil_or_concat after with rfl | ⟨front, last, rfl⟩
  · obtain ⟨rfl, hlast⟩ := List.append_inj' heq rfl
    obtain rfl := List.head_eq_of_cons_eq hlast
    exact hevent
  · have hsplit : events ++ [event] = (before ++ other :: front) ++ [last] := by
      rw [heq, List.concat_eq_append, List.append_assoc, List.cons_append]
    exact h before other front (List.append_inj' hsplit rfl).1

end AiArtifactStore.Foundation
