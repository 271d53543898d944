import Mathlib.Algebra.BigOperators.Group.List.Basic
import Mathlib.Algebra.GroupWithZero.Nat
import Mathlib.Data.List.Forall2

/-!
# Contiguous ranges

Ranges of a content that follow each other without a gap: where they end, and what they cut
out of the content.  Where their offsets are 64-bit words, the end of a range may wrap around.
-/

namespace AiArtifactStore.Foundation

variable {α β : Type} {offset size : α → Nat} {start : Nat} {ranges : List α}

/-- Each range starts where the ranges before it end. -/
def Contiguous (offset size : α → Nat) (start : Nat) (ranges : List α) : Prop :=
  ∀ (index : Nat) (range : α), ranges[index]? = some range →
    offset range = start + ((ranges.take index).map size).sum

theorem contiguous_nil : Contiguous offset size start [] := by
  intro index range h
  cases h

theorem contiguous_cons {range : α} :
    Contiguous offset size start (range :: ranges) ↔
      offset range = start ∧ Contiguous offset size (start + size range) ranges := by
  constructor
  · intro h
    refine ⟨by simpa using h 0 range rfl, fun index other hother => ?_⟩
    have hoffset := h (index + 1) other (by simpa using hother)
    simpa [Nat.add_assoc] using hoffset
  · rintro ⟨hoffset, hrest⟩ index other hother
    cases index with
    | zero =>
        obtain rfl := Option.some.inj hother
        simpa using hoffset
    | succ index =>
        rw [hrest index other (by simpa using hother)]
        simp [Nat.add_assoc]

theorem Contiguous.end_le (h : Contiguous offset size start ranges) {range : α}
    (hrange : range ∈ ranges) :
    offset range + size range ≤ start + (ranges.map size).sum := by
  induction ranges generalizing start with
  | nil => cases hrange
  | cons first ranges ih =>
      rw [contiguous_cons] at h
      rw [List.map_cons, List.sum_cons]
      rcases List.mem_cons.mp hrange with rfl | hrange
      · rw [h.1]
        omega
      · have hle := ih h.2 hrange
        omega

theorem Contiguous.end_last (h : Contiguous offset size start ranges) {last : α}
    (hlast : ranges.getLast? = some last) :
    offset last + size last = start + (ranges.map size).sum := by
  obtain ⟨front, rfl⟩ := List.getLast?_eq_some_iff.mp hlast
  have hoffset := h front.length last (by simp)
  rw [List.take_left] at hoffset
  simp [hoffset, Nat.add_assoc]

theorem Contiguous.next (h : Contiguous offset size start ranges) {index : Nat} {range next : α}
    (hrange : ranges[index]? = some range) (hnext : ranges[index + 1]? = some next) :
    offset next = offset range + size range := by
  rw [h (index + 1) next hnext, h index range hrange, List.take_add_one, hrange]
  simp [Nat.add_assoc]

theorem Contiguous.left {others : List α} (h : Contiguous offset size start (ranges ++ others)) :
    Contiguous offset size start ranges := by
  intro index range hrange
  obtain ⟨hlt, -⟩ := List.getElem?_eq_some_iff.mp hrange
  have hoffset := h index range (by rwa [List.getElem?_append_left hlt])
  rwa [List.take_append_of_le_length (Nat.le_of_lt hlt)] at hoffset

/-- Contiguous ranges cut one piece out of the content. -/
theorem Contiguous.flatten (h : Contiguous offset size start ranges) (content : List β) :
    (ranges.map fun range => (content.drop (offset range)).take (size range)).flatten =
      (content.drop start).take (ranges.map size).sum := by
  induction ranges generalizing start with
  | nil => rfl
  | cons range ranges ih =>
      rw [contiguous_cons] at h
      rw [List.map_cons, List.flatten_cons, ih h.2, List.map_cons, List.sum_cons, List.take_add,
        List.drop_drop, h.1]

theorem map_eq_of_forall₂ {γ : Type} {f : α → γ} {g : β → γ} {others : List β} {R : α → β → Prop}
    (h : List.Forall₂ R ranges others) (hfg : ∀ x y, R x y → f x = g y) :
    ranges.map f = others.map g := by
  induction h with
  | nil => rfl
  | cons hfirst _ ih => rw [List.map_cons, List.map_cons, hfg _ _ hfirst, ih]

theorem contiguous_congr {offset' size' : β → Nat} {others : List β} {R : α → β → Prop}
    (h : List.Forall₂ R ranges others) (hoffset : ∀ x y, R x y → offset x = offset' y)
    (hsize : ∀ x y, R x y → size x = size' y) :
    Contiguous offset size start ranges ↔ Contiguous offset' size' start others := by
  induction h generalizing start with
  | nil => exact ⟨fun _ => contiguous_nil, fun _ => contiguous_nil⟩
  | cons hfirst _ ih =>
      rw [contiguous_cons, contiguous_cons, hoffset _ _ hfirst, hsize _ _ hfirst, ih]

/-! ## Additions of words -/

/-- A computation on words takes its addition as a parameter: the one of the machine, which
wraps around, or one without a value where it would. -/
abbrev Addition := UInt64 → UInt64 → Option UInt64

def addWrapping : Addition := fun a b => some (a + b)

def addExact : Addition := fun a b => if a.toNat + b.toNat < 2 ^ 64 then some (a + b) else none

theorem toNat_add_of_lt {a b : UInt64} (h : a.toNat + b.toNat < 2 ^ 64) :
    (a + b).toNat = a.toNat + b.toNat := by
  rw [UInt64.toNat_add, Nat.mod_eq_of_lt h]

theorem addExact_of_lt {a b : UInt64} (h : a.toNat + b.toNat < 2 ^ 64) :
    addExact a b = addWrapping a b := if_pos h

end AiArtifactStore.Foundation
