import AiArtifactStore.Foundation.Succession
import Mathlib.Data.List.Induction
import Mathlib.Logic.Relation

/-!
# Rows that refer to earlier rows

A table whose rows may name one other row as their parent.  If a parent always
stands before its child, no row is its own ancestor and every line ends.
-/

namespace AiArtifactStore.Foundation

open Relation

variable {κ ρ : Type} {key : ρ → κ} {parent : ρ → Option κ}

def ParentOf (t : Table key) (parent : ρ → Option κ) (ancestor child : κ) : Prop :=
  ∃ row ∈ t, key row = child ∧ parent row = some ancestor

def RefersBack (key : ρ → κ) (parent : ρ → Option κ) (rows : List ρ) : Prop :=
  ∀ before row after, rows = before ++ row :: after → ∀ ancestor, parent row = some ancestor →
    ∃ earlier ∈ before, key earlier = ancestor

theorem refersBack_nil : RefersBack key parent [] := by
  intro before row after h
  simp at h

theorem RefersBack.append {rows : List ρ} {row : ρ} (h : RefersBack key parent rows)
    (hrow : ∀ ancestor, parent row = some ancestor → ∃ earlier ∈ rows, key earlier = ancestor) :
    RefersBack key parent (rows ++ [row]) := by
  intro before stored after heq ancestor hparent
  cases after using List.reverseRecOn with
  | nil =>
      obtain ⟨rfl, hlast⟩ := List.append_inj' heq rfl
      obtain rfl : row = stored := by simpa using hlast
      exact hrow ancestor hparent
  | append_singleton after last =>
      rw [← List.cons_append, ← List.append_assoc] at heq
      obtain ⟨hinit, -⟩ := List.append_inj' heq rfl
      exact h before stored after hinit ancestor hparent

/-- Rows may change as long as their keys and parents stay. -/
theorem RefersBack.map {rows : List ρ} {f : ρ → ρ} (h : RefersBack key parent rows)
    (hkey : ∀ row ∈ rows, key (f row) = key row)
    (hparent : ∀ row ∈ rows, parent (f row) = parent row) :
    RefersBack key parent (rows.map f) := by
  intro before stored after heq ancestor hancestor
  obtain ⟨front, back, rfl, rfl, hback⟩ := List.map_eq_append_iff.mp heq
  obtain ⟨row, rest, rfl, rfl, rfl⟩ := List.map_eq_cons_iff.mp hback
  have hmem : row ∈ front ++ row :: rest := by simp
  obtain ⟨earlier, hearlier, hid⟩ :=
    h front row rest rfl ancestor ((hparent row hmem).symm.trans hancestor)
  refine ⟨f earlier, List.mem_map.mpr ⟨earlier, hearlier, rfl⟩, ?_⟩
  rw [hkey earlier (by simp [hearlier]), hid]

/-! ## Tables -/

section

variable [DecidableEq κ]

theorem RefersBack.insert {t : Table key} {row : ρ} (h : RefersBack key parent t.rows)
    (hrow : ∀ ancestor, parent row = some ancestor → ∃ earlier ∈ t, key earlier = ancestor) :
    RefersBack key parent (t.insert row).rows := by
  unfold Table.insert
  split
  · exact h
  · exact h.append hrow

theorem RefersBack.upsert {t : Table key} {row : ρ} (h : RefersBack key parent t.rows)
    (hsame : ∀ stored ∈ t, key stored = key row → parent row = parent stored)
    (hrow : ∀ ancestor, parent row = some ancestor → ∃ earlier ∈ t, key earlier = ancestor) :
    RefersBack key parent (t.upsert row).rows := by
  unfold Table.upsert
  split
  · refine h.map (fun stored _ => ?_) fun stored hstored => ?_
    · by_cases hkey : key stored = key row <;> simp [hkey]
    · by_cases hkey : key stored = key row
      · simpa [hkey] using hsame stored hstored hkey
      · simp [hkey]
  · exact h.insert hrow

end

/-! ## Lines of ancestors -/

section

variable {t : Table key}

theorem exists_split {row : ρ} (h : row ∈ t) : ∃ before after, t.rows = before ++ row :: after :=
  List.append_of_mem h

/-- The rows before a key, which shrink from a row to its parent. -/
theorem wellFounded_parentOf (h : RefersBack key parent t.rows) :
    WellFounded (ParentOf t parent) := by
  have hacc : ∀ n before row after, before.length = n → t.rows = before ++ row :: after →
      Acc (ParentOf t parent) (key row) := by
    intro n
    induction n using Nat.strongRecOn with
    | _ n ih =>
        intro before row after hlength hsplit
        constructor
        rintro ancestor ⟨child, hchild, hkey, hparent⟩
        have hmem : row ∈ t := by
          rw [← Table.mem_rows, hsplit]
          simp
        obtain rfl : child = row := Table.key_inj hchild hmem hkey
        obtain ⟨earlier, hearlier, rfl⟩ := h before child after hsplit ancestor hparent
        obtain ⟨front, back, rfl⟩ := List.append_of_mem hearlier
        refine ih front.length ?_ front earlier (back ++ child :: after) rfl ?_
        · rw [← hlength]
          simp
        · rw [hsplit]
          simp
  constructor
  intro id
  by_cases hstored : ∃ row ∈ t, key row = id
  · obtain ⟨row, hrow, rfl⟩ := hstored
    obtain ⟨before, after, hsplit⟩ := exists_split hrow
    exact hacc _ before row after rfl hsplit
  · constructor
    rintro ancestor ⟨row, hrow, hkey, -⟩
    exact absurd ⟨row, hrow, hkey⟩ hstored

theorem exists_parent_row (h : RefersBack key parent t.rows) {ancestor child : κ}
    (hparent : ParentOf t parent ancestor child) : ∃ row ∈ t, key row = ancestor := by
  obtain ⟨row, hrow, -, hancestor⟩ := hparent
  obtain ⟨before, after, hsplit⟩ := exists_split hrow
  obtain ⟨earlier, hearlier, hid⟩ := h before row after hsplit ancestor hancestor
  refine ⟨earlier, ?_, hid⟩
  rw [← Table.mem_rows, hsplit]
  simp [hearlier]

/-- Every line of a stored row ends in a stored row without a parent. -/
theorem exists_root (h : RefersBack key parent t.rows) {row : ρ} (hrow : row ∈ t) :
    ∃ root ∈ t, parent root = none ∧ ReflTransGen (ParentOf t parent) (key root) (key row) := by
  have hline : ∀ id, ∀ row ∈ t, key row = id →
      ∃ root ∈ t, parent root = none ∧ ReflTransGen (ParentOf t parent) (key root) id := by
    intro id
    induction id using (wellFounded_parentOf h).induction with
    | _ id ih =>
        rintro row hrow rfl
        cases hparent : parent row with
        | none => exact ⟨row, hrow, hparent, .refl⟩
        | some ancestor =>
            have hstep : ParentOf t parent ancestor (key row) := ⟨row, hrow, rfl, hparent⟩
            obtain ⟨earlier, hearlier, hid⟩ := exists_parent_row h hstep
            obtain ⟨root, hroot, hnone, hpath⟩ := ih ancestor hstep earlier hearlier hid
            exact ⟨root, hroot, hnone, hpath.tail hstep⟩
  exact hline (key row) row hrow rfl

theorem line_iff {t' : Table key} (h : RefersBack key parent t.rows)
    (hkept : Table.Succeeds (fun row row' => parent row' = parent row) t t') {row : ρ}
    (hrow : row ∈ t) {ancestor : κ} :
    ReflTransGen (ParentOf t' parent) ancestor (key row) ↔
      ReflTransGen (ParentOf t parent) ancestor (key row) := by
  constructor
  · intro hline
    have hboth : ReflTransGen (ParentOf t parent) ancestor (key row) ∧
        ∃ stored ∈ t, key stored = ancestor := by
      induction hline using ReflTransGen.head_induction_on with
      | refl => exact ⟨.refl, row, hrow, rfl⟩
      | head hparent _ ih =>
          obtain ⟨hpath, child, hchild, rfl⟩ := ih
          obtain ⟨later, hlater, hkey, hancestor⟩ := hparent
          have hsame := hkept.of_mem hchild hlater hkey
          have hstep : ParentOf t parent _ (key child) :=
            ⟨child, hchild, rfl, hsame.symm.trans hancestor⟩
          exact ⟨.head hstep hpath, exists_parent_row h hstep⟩
    exact hboth.1
  · intro hline
    refine ReflTransGen.mono ?_ _ _ hline
    rintro a child ⟨stored, hstored, rfl, hparent⟩
    obtain ⟨later, hlater, hkey, hsame⟩ := hkept stored hstored
    exact ⟨later, hlater, hkey, hsame.trans hparent⟩

end

end AiArtifactStore.Foundation
