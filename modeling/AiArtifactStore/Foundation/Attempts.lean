import Mathlib.Data.List.Basic
import Mathlib.Order.Lattice

/-!
# Attempts in order

A loop that tries one source after the other: an attempt supplies a value, is
skipped, or ends the loop with an exception.
-/

namespace AiArtifactStore.Foundation

inductive Attempt (ε β : Type) where
  | supplied (b : β)
  | skipped
  | aborted (e : ε)
  deriving DecidableEq, Repr

namespace Attempt

variable {ε β : Type} {xs : List (Attempt ε β)} {i : Nat} {b b' : β}

def firstSupplied : List (Attempt ε β) → Except ε (Option β)
  | [] => .ok none
  | supplied b :: _ => .ok (some b)
  | skipped :: rest => firstSupplied rest
  | aborted e :: _ => .error e

/-- The attempt at the position supplies the value, and no earlier one supplies any. -/
structure IsFirst (xs : List (Attempt ε β)) (i : Nat) (b : β) : Prop where
  supplies : xs[i]? = some (supplied b)
  earlier : ∀ j < i, ∀ b', xs[j]? ≠ some (supplied b')

theorem exists_isFirst (h : xs[i]? = some (supplied b)) : ∃ j b', IsFirst xs j b' := by
  induction i using Nat.strong_induction_on generalizing b with
  | _ i ih =>
      by_cases hearlier : ∃ j < i, ∃ b', xs[j]? = some (supplied b')
      · obtain ⟨j, hj, b', hb'⟩ := hearlier
        exact ih j hj hb'
      · exact ⟨i, b, h, fun j hj b' hb' => hearlier ⟨j, hj, b', hb'⟩⟩

theorem IsFirst.tail {x : Attempt ε β} (h : IsFirst (x :: xs) (i + 1) b) : IsFirst xs i b := by
  constructor
  · simpa using h.supplies
  · intro j hj b' hb'
    exact h.earlier (j + 1) (Nat.succ_lt_succ hj) b' (by simpa using hb')

/-- The loop returns the first supplied value exactly when no earlier attempt ends it. -/
theorem firstSupplied_iff (h : IsFirst xs i b) :
    firstSupplied xs = .ok (some b') ↔
      b' = b ∧ ∀ j < i, ∀ e, xs[j]? ≠ some (aborted e) := by
  induction xs generalizing i with
  | nil => simpa using h.supplies
  | cons x xs ih =>
      cases i with
      | zero =>
          obtain rfl : x = supplied b := by simpa using h.supplies
          simp [firstSupplied, eq_comm]
      | succ i =>
          cases x with
          | supplied b'' => exact absurd rfl (h.earlier 0 (Nat.succ_pos i) b'')
          | aborted e =>
              constructor
              · intro hfirst
                cases hfirst
              · rintro ⟨-, hall⟩
                exact absurd rfl (hall 0 (Nat.succ_pos i) e)
          | skipped =>
              rw [firstSupplied, ih h.tail]
              refine and_congr Iff.rfl ⟨fun hall j hj e => ?_, fun hall j hj e he => ?_⟩
              · cases j with
                | zero => simp
                | succ j => simpa using hall j (Nat.lt_of_succ_lt_succ hj) e
              · exact hall (j + 1) (Nat.succ_lt_succ hj) e (by simpa using he)

end Attempt

end AiArtifactStore.Foundation
