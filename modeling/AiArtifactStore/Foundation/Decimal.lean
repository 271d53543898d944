import Mathlib.Logic.Basic

/-!
# Decimal numbers that fit a bound

A loop over digits keeps the number that it has read, and looks before each step
whether the next number still fits.  It reads exactly the numbers up to the bound.
-/

namespace AiArtifactStore.Foundation

def decimal? (text : List Char) : Option Nat :=
  if text ≠ [] ∧ text.all Char.isDigit then some (Nat.ofDigitChars 10 text 0) else none

theorem isDigit_iff {c : Char} : c.isDigit = true ↔ '0' ≤ c ∧ c ≤ '9' := by
  rw [Char.isDigit, Bool.and_eq_true, decide_eq_true_iff, decide_eq_true_iff]
  rfl

/-- One step of the loop: it goes on with a digit, where the next number is no larger than
the bound. -/
def AddsDigit (max : Nat) (step : Nat → Char → Option Nat) : Prop :=
  ∀ value c next, step value c = some next ↔
    c.isDigit ∧ next = 10 * value + (c.toNat - '0'.toNat) ∧ next ≤ max

theorem le_ofDigitChars (text : List Char) (value : Nat) :
    value ≤ Nat.ofDigitChars 10 text value := by
  induction text generalizing value with
  | nil => exact Nat.le_refl value
  | cons c text ih =>
      rw [Nat.ofDigitChars_cons]
      have hstep : value ≤ 10 * value + (c.toNat - '0'.toNat) := by omega
      exact Nat.le_trans hstep (ih _)

theorem AddsDigit.foldlM_eq_some {max : Nat} {step : Nat → Char → Option Nat}
    (h : AddsDigit max step) {text : List Char} {value n : Nat} (hvalue : value ≤ max) :
    text.foldlM step value = some n ↔
      text.all Char.isDigit ∧ Nat.ofDigitChars 10 text value = n ∧ n ≤ max := by
  induction text generalizing value with
  | nil =>
      simp only [List.foldlM_nil, Option.pure_def, Option.some.injEq, List.all_nil,
        Nat.ofDigitChars_nil, true_and]
      exact ⟨fun hsame => ⟨hsame, hsame ▸ hvalue⟩, And.left⟩
  | cons c text ih =>
      rw [List.foldlM_cons, Option.bind_eq_bind, Option.bind_eq_some_iff, Nat.ofDigitChars_cons,
        List.all_cons, Bool.and_eq_true]
      constructor
      · rintro ⟨next, hnext, hrest⟩
        obtain ⟨hdigit, rfl, hfits⟩ := (h value c next).mp hnext
        obtain ⟨hdigits, hn, hmax⟩ := (ih hfits).mp hrest
        exact ⟨⟨hdigit, hdigits⟩, hn, hmax⟩
      · rintro ⟨⟨hdigit, hdigits⟩, hn, hmax⟩
        have hfits : 10 * value + (c.toNat - '0'.toNat) ≤ max :=
          Nat.le_trans (le_ofDigitChars text _) (hn ▸ hmax)
        exact ⟨_, (h value c _).mpr ⟨hdigit, rfl, hfits⟩, (ih hfits).mpr ⟨hdigits, hn, hmax⟩⟩

theorem AddsDigit.foldlM_eq_decimal? {max : Nat} {step : Nat → Char → Option Nat}
    (h : AddsDigit max step) {text : List Char} {n : Nat} (hne : text ≠ []) :
    text.foldlM step 0 = some n ↔ decimal? text = some n ∧ n ≤ max := by
  rw [h.foldlM_eq_some (Nat.zero_le max), decimal?]
  simp [hne, and_assoc]

theorem addsDigit_of_division {max : Nat} (hmax : 9 ≤ max) {step : Nat → Char → Option Nat}
    (hstep : ∀ value c, step value c =
      if c < '0' ∨ c > '9' then none
      else if value > (max - (c.toNat - '0'.toNat)) / 10 then none
      else some (value * 10 + (c.toNat - '0'.toNat))) : AddsDigit max step := by
  intro value c next
  rw [hstep, isDigit_iff]
  by_cases hdigit : '0' ≤ c ∧ c ≤ '9'
  · have hsmall : c.toNat - '0'.toNat ≤ 9 := by
      have htop : c.toNat ≤ '9'.toNat := hdigit.2
      exact Nat.sub_le_sub_right htop _
    rw [if_neg (not_or.mpr ⟨Char.not_lt.mpr hdigit.1, Char.not_lt.mpr hdigit.2⟩)]
    generalize c.toNat - '0'.toNat = digit at hsmall
    split
    case isTrue hover =>
      refine iff_of_false nofun ?_
      rintro ⟨-, rfl, hfits⟩
      omega
    case isFalse hfits =>
      rw [Option.some.injEq]
      constructor
      · rintro rfl
        exact ⟨hdigit, by omega, by omega⟩
      · rintro ⟨-, rfl, -⟩
        omega
  · rw [if_pos ((Classical.not_and_iff_not_or_not.mp hdigit).imp Char.not_le.mp Char.not_le.mp)]
    exact iff_of_false nofun fun h => hdigit h.1

end AiArtifactStore.Foundation
