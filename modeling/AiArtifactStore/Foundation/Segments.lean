import Mathlib.Data.List.Infix
import Mathlib.Data.List.TakeWhile
import Mathlib.Algebra.GroupWithZero.Nat

/-!
# Prefixes, infixes and separated lists

What `dropPrefix?`, `dropInfix?` and a split at a separator return, for lists whose
elements are compared by equality.
-/

namespace AiArtifactStore.Foundation

/-! ## Prefixes -/

theorem not_prefix_of_prefix {α : Type} {l stem other : List α} (h : other <+: l)
    (hstem : ¬stem <+: other) (hother : ¬other <+: stem) : ¬stem <+: l :=
  fun hl => (List.prefix_or_prefix_of_prefix hl h).elim hstem hother

theorem length_le_of_split {α : Type} {separator : α} {front rest front' back' : List α}
    (h : separator ∉ front) (hsplit : front ++ rest = front' ++ separator :: back') :
    front.length ≤ front'.length := by
  by_contra hshort
  have hlt : front'.length < front.length := Nat.lt_of_not_le hshort
  have hget := congrArg (fun l => l[front'.length]?) hsplit
  rw [List.getElem?_append_left hlt, List.getElem?_append_right (Nat.le_refl _),
    Nat.sub_self, List.getElem?_cons_zero] at hget
  exact h (List.mem_of_getElem? hget)

section

variable {α : Type} [BEq α] [LawfulBEq α] {l p s : List α}

theorem dropPrefix?_eq_some : l.dropPrefix? p = some s ↔ l = p ++ s := by
  rw [List.dropPrefix?_eq_some_iff]
  constructor
  · rintro ⟨p', rfl, hp⟩
    rw [eq_of_beq hp]
  · rintro rfl
    exact ⟨p, rfl, BEq.rfl⟩

@[simp] theorem dropPrefix?_append : (p ++ s).dropPrefix? p = some s :=
  dropPrefix?_eq_some.mpr rfl

theorem dropPrefix?_eq_none (h : ¬p <+: l) : l.dropPrefix? p = none := by
  cases hdrop : l.dropPrefix? p with
  | none => rfl
  | some s => exact absurd ⟨s, (dropPrefix?_eq_some.mp hdrop).symm⟩ h

/-! ## Infixes -/

theorem eq_of_dropInfix? {i front back : List α} (h : l.dropInfix? i = some (front, back)) :
    l = front ++ i ++ back := by
  obtain ⟨⟨i', hl, hi⟩, -⟩ := List.dropInfix?_eq_some_iff.mp h
  rwa [eq_of_beq hi] at hl

/-- The first occurrence of an infix whose first element stands nowhere in front of it. -/
theorem dropInfix?_append {separator : α} {i front back : List α} (h : separator ∉ front) :
    (front ++ separator :: i ++ back).dropInfix? (separator :: i) = some (front, back) := by
  refine List.dropInfix?_eq_some_iff.mpr ⟨⟨separator :: i, rfl, BEq.rfl⟩, ?_⟩
  intro front' i' back' hsplit hi
  rw [eq_of_beq hi, List.append_assoc, List.append_assoc, List.cons_append] at hsplit
  exact length_le_of_split h hsplit

theorem dropInfix?_eq_none {i : List α} (h : ¬i <:+: l) : l.dropInfix? i = none := by
  cases hdrop : l.dropInfix? i with
  | none => rfl
  | some parts => exact absurd ⟨parts.1, parts.2, (eq_of_dropInfix? hdrop).symm⟩ h

end

/-! ## Separators -/

section

variable {α : Type} [DecidableEq α] {separator : α} {text front rest : List α}

def Separated (separator : α) (rest : List α) : Prop := rest = [] ∨ rest.head? = some separator

theorem span_separator (hfront : separator ∉ front) (hrest : Separated separator rest) :
    (front ++ rest).span (fun a => a ≠ separator) = (front, rest) := by
  rw [List.span_eq_takeWhile_dropWhile]
  have hall : ∀ a ∈ front, decide (a ≠ separator) = true := fun a ha =>
    decide_eq_true fun h => hfront (h ▸ ha)
  rw [List.takeWhile_append_of_pos hall, List.dropWhile_append_of_pos hall]
  cases rest with
  | nil => simp
  | cons head rest =>
      have hhead : head = separator := by simpa [Separated] using hrest
      simp [hhead]

theorem of_span_separator (h : text.span (fun a => a ≠ separator) = (front, rest)) :
    text = front ++ rest ∧ separator ∉ front ∧ Separated separator rest := by
  rw [List.span_eq_takeWhile_dropWhile, Prod.mk.injEq] at h
  obtain ⟨rfl, rfl⟩ := h
  refine ⟨List.takeWhile_append_dropWhile.symm, fun hmem => ?_, ?_⟩
  · simpa using List.mem_takeWhile_imp hmem
  have hhead := List.head?_dropWhile_not (fun a => decide (a ≠ separator)) text
  cases hrest : text.dropWhile fun a => decide (a ≠ separator) with
  | nil => exact .inl rfl
  | cons head rest =>
      rw [hrest] at hhead
      exact .inr (by simpa using hhead)

end

end AiArtifactStore.Foundation
