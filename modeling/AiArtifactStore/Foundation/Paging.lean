import Mathlib.Data.List.Nodup
import Mathlib.Data.List.Perm.Basic
import Mathlib.Data.List.Pairwise
import Mathlib.Logic.Relation
import Mathlib.Order.Lattice

/-!
# Paging through a sorted list

Pages of a list that is sorted by a key, each from the key at which the one before it
ended.  Items that have been listed may go between two pages: nothing is skipped and
nothing is listed twice.
-/

namespace AiArtifactStore.Foundation.Paging

open Relation

def beyond {α κ : Type} [LE κ] [DecidableLE κ] (key : α → κ) (cursor : Option κ)
    (items : List α) : List α :=
  match cursor with
  | none => items
  | some k => items.dropWhile fun x => key x ≤ k

/-- The cursor that a page leads to, unless the page is the last one. -/
def nextCursor {α κ : Type} [LE κ] [DecidableLE κ] (key : α → κ) (limit : Nat)
    (cursor : Option κ) (items : List α) : Option κ :=
  if limit < (beyond key cursor items).length then
    ((beyond key cursor items).take limit).getLast?.map key
  else none

section

variable {α κ : Type} [LinearOrder κ] {key : α → κ} {cursor : Option κ} {items items' : List α}
  {limit : Nat} {x : α}

def Sorted (key : α → κ) (items : List α) : Prop := items.Pairwise fun a b => key a < key b

theorem Sorted.ext (h : Sorted key items) (h' : Sorted key items')
    (hmem : ∀ x, x ∈ items ↔ x ∈ items') : items = items' := by
  have hne : ∀ {a b : α}, key a < key b → a ≠ b := by
    rintro a b hlt rfl
    exact lt_irrefl _ hlt
  have hperm : items.Perm items' :=
    (List.perm_ext_iff_of_nodup (h.imp hne) (h'.imp hne)).mpr hmem
  exact hperm.eq_of_pairwise (fun a b _ _ hab hba => absurd hba hab.asymm) h h'

theorem mem_dropWhile (h : Sorted key items) {k : κ} :
    x ∈ (items.dropWhile fun x => key x ≤ k) ↔ x ∈ items ∧ k < key x := by
  induction items with
  | nil => simp
  | cons head rest ih =>
      obtain ⟨hhead, hrest⟩ := List.pairwise_cons.mp h
      by_cases hle : key head ≤ k
      · rw [List.dropWhile_cons_of_pos (by simpa using hle), ih hrest]
        constructor
        · rintro ⟨hx, hlt⟩
          exact ⟨List.mem_cons_of_mem _ hx, hlt⟩
        · rintro ⟨hx, hlt⟩
          rcases List.mem_cons.mp hx with rfl | hx
          · exact absurd hlt hle.not_gt
          · exact ⟨hx, hlt⟩
      · rw [List.dropWhile_cons_of_neg (by simpa using hle)]
        have hlt := lt_of_not_ge hle
        constructor
        · intro hx
          refine ⟨hx, ?_⟩
          rcases List.mem_cons.mp hx with rfl | hx
          · exact hlt
          · exact hlt.trans (hhead x hx)
        · exact fun hx => hx.1

theorem mem_beyond (h : Sorted key items) :
    x ∈ beyond key cursor items ↔ x ∈ items ∧ ∀ k ∈ cursor, k < key x := by
  cases cursor with
  | none => simp [beyond]
  | some k => simp [beyond, mem_dropWhile h]

theorem beyond_sorted (h : Sorted key items) (cursor : Option κ) :
    Sorted key (beyond key cursor items) := by
  cases cursor with
  | none => exact h
  | some k => exact h.sublist (List.dropWhile_sublist _)

theorem beyond_congr (h : Sorted key items) (h' : Sorted key items')
    (hmem : ∀ x, (∀ k ∈ cursor, k < key x) → (x ∈ items ↔ x ∈ items')) :
    beyond key cursor items = beyond key cursor items' := by
  refine (beyond_sorted h cursor).ext (beyond_sorted h' cursor) fun x => ?_
  rw [mem_beyond h, mem_beyond h']
  exact and_congr_left (hmem x)

theorem nextCursor_spec (h : Sorted key items) {k : κ}
    (hnext : nextCursor key limit cursor items = some k) :
    (∀ k' ∈ cursor, k' < k) ∧ (∀ x ∈ (beyond key cursor items).take limit, key x ≤ k) ∧
      ∀ x ∈ (beyond key cursor items).drop limit, k < key x := by
  unfold nextCursor at hnext
  split at hnext
  · obtain ⟨last, hlast, rfl⟩ := Option.map_eq_some_iff.mp hnext
    have hlastMem := List.mem_of_getLast? hlast
    have hpairs := beyond_sorted h cursor
    rw [Sorted, ← List.take_append_drop limit (beyond key cursor items),
      List.pairwise_append] at hpairs
    refine ⟨((mem_beyond h).mp (List.mem_of_mem_take hlastMem)).2, ?_, hpairs.2.2 last hlastMem⟩
    intro x hx
    obtain ⟨front, hfront⟩ := List.getLast?_eq_some_iff.mp hlast
    rw [hfront] at hx hpairs
    rcases List.mem_append.mp hx with hx | hx
    · exact ((List.pairwise_append.mp hpairs.1).2.2 x hx last (List.mem_singleton_self last)).le
    · rw [List.mem_singleton.mp hx]
  · cases hnext

theorem beyond_nextCursor (h : Sorted key items) {k : κ}
    (hnext : nextCursor key limit cursor items = some k) :
    beyond key (some k) items = (beyond key cursor items).drop limit := by
  obtain ⟨hcursor, htake, hdrop⟩ := nextCursor_spec h hnext
  refine (beyond_sorted h _).ext ((beyond_sorted h cursor).sublist (List.drop_sublist _ _))
    fun x => ?_
  rw [mem_beyond h]
  constructor
  · rintro ⟨hx, hlt⟩
    have hbeyond : x ∈ beyond key cursor items :=
      (mem_beyond h).mpr ⟨hx, fun k' hk' => (hcursor k' hk').trans (hlt k rfl)⟩
    rw [← List.take_append_drop limit (beyond key cursor items)] at hbeyond
    refine (List.mem_append.mp hbeyond).resolve_left fun hpage => ?_
    exact absurd (hlt k rfl) (htake x hpage).not_gt
  · intro hx
    refine ⟨((mem_beyond h).mp (List.mem_of_mem_drop hx)).1, ?_⟩
    rintro _ ⟨⟩
    exact hdrop x hx

/-! ## Walks -/

structure Walk (α κ : Type) where
  items : List α
  cursor : Option κ
  listed : List α
  pages : Nat
  done : Bool

/-- Read a page, or lose items that have been listed. -/
inductive Step (key : α → κ) (limit : Nat) : Walk α κ → Walk α κ → Prop
  | page {w} (hopen : w.done = false) :
      Step key limit w
        { w with
          cursor := nextCursor key limit w.cursor w.items
          listed := w.listed ++ (beyond key w.cursor w.items).take limit
          pages := w.pages + 1
          done := (nextCursor key limit w.cursor w.items).isNone }
  | lose {w} {items : List α} (hsorted : Sorted key items)
      (hitems : ∀ x ∈ items, x ∈ w.items)
      (hlost : ∀ x ∈ w.items, x ∈ items ∨ ∃ y ∈ w.listed, key y = key x) :
      Step key limit w { w with items := items }

def start (items : List α) : Walk α κ := ⟨items, none, [], 0, false⟩

/-- What has been listed and what is still to come are all items of the start. -/
structure Invariant (key : α → κ) (limit : Nat) (items : List α) (w : Walk α κ) : Prop where
  sorted : Sorted key w.items
  split : w.done = false → w.listed ++ beyond key w.cursor w.items = items
  passed : w.done = false → ∀ x ∈ w.listed, ∃ k ∈ w.cursor, key x ≤ k
  finished : w.done = true → w.listed = items
  pages_le : w.done = false → w.pages ≤ w.listed.length
  pages_done : w.pages ≤ items.length + 1

theorem invariant_page (hlimit : 1 ≤ limit) {w : Walk α κ} (h : Invariant key limit items w)
    (hopen : w.done = false) :
    Invariant key limit items
      { w with
        cursor := nextCursor key limit w.cursor w.items
        listed := w.listed ++ (beyond key w.cursor w.items).take limit
        pages := w.pages + 1
        done := (nextCursor key limit w.cursor w.items).isNone } := by
  have hsplit := h.split hopen
  have hpages := h.pages_le hopen
  have htake := List.take_append_drop limit (beyond key w.cursor w.items)
  have hlength := congrArg List.length hsplit
  rw [List.length_append] at hlength
  cases hnext : nextCursor key limit w.cursor w.items with
  | none =>
      have hall : (beyond key w.cursor w.items).take limit = beyond key w.cursor w.items := by
        unfold nextCursor at hnext
        split at hnext
        · rename_i hlt
          rw [Option.map_eq_none_iff, List.getLast?_eq_none_iff, List.take_eq_nil_iff] at hnext
          rcases hnext with hzero | hnil
          · omega
          · rw [hnil] at hlt
            simp at hlt
        · rename_i hge
          exact List.take_of_length_le (Nat.le_of_not_lt hge)
      constructor
      · exact h.sorted
      · exact fun hdone => absurd hdone (by simp)
      · exact fun hdone => absurd hdone (by simp)
      · exact fun _ => by rw [hall, hsplit]
      · exact fun hdone => absurd hdone (by simp)
      · simp only
        omega
  | some k =>
      have hbeyond := beyond_nextCursor h.sorted hnext
      have hlonger : limit < (beyond key w.cursor w.items).length := by
        by_contra hge
        rw [nextCursor, if_neg hge] at hnext
        cases hnext
      have hpage : ((beyond key w.cursor w.items).take limit).length = limit := by
        rw [List.length_take]
        omega
      constructor
      · exact h.sorted
      · intro _
        simp only
        rw [hbeyond, List.append_assoc, htake, hsplit]
      · intro _ x hx
        obtain ⟨hcursor, hpageKeys, -⟩ := nextCursor_spec h.sorted hnext
        refine ⟨k, rfl, ?_⟩
        rcases List.mem_append.mp hx with hx | hx
        · obtain ⟨k', hk', hle⟩ := h.passed hopen x hx
          exact hle.trans (hcursor k' hk').le
        · exact hpageKeys x hx
      · exact fun hdone => absurd hdone (by simp)
      · intro _
        simp only [List.length_append, hpage]
        omega
      · simp only
        omega

theorem invariant_lose {w : Walk α κ} (h : Invariant key limit items w)
    (hsorted : Sorted key items') (hitems : ∀ x ∈ items', x ∈ w.items)
    (hlost : ∀ x ∈ w.items, x ∈ items' ∨ ∃ y ∈ w.listed, key y = key x) :
    Invariant key limit items { w with items := items' } := by
  have hbeyond : w.done = false → beyond key w.cursor items' = beyond key w.cursor w.items := by
    intro hopen
    refine beyond_congr hsorted h.sorted fun x hx => ⟨hitems x, fun hmem => ?_⟩
    refine (hlost x hmem).resolve_right ?_
    rintro ⟨y, hlisted, hkey⟩
    obtain ⟨k, hk, hle⟩ := h.passed hopen y hlisted
    rw [hkey] at hle
    exact absurd (hx k hk) hle.not_gt
  constructor
  · exact hsorted
  · intro hopen
    simp only
    rw [hbeyond hopen, h.split hopen]
  · exact h.passed
  · exact h.finished
  · exact h.pages_le
  · exact h.pages_done

theorem invariant_run (hlimit : 1 ≤ limit) (hsorted : Sorted key items) {w : Walk α κ}
    (hrun : ReflTransGen (Step key limit) (start items) w) : Invariant key limit items w := by
  induction hrun with
  | refl =>
      constructor
      · exact hsorted
      · exact fun _ => rfl
      · exact fun _ x hx => absurd hx List.not_mem_nil
      · exact fun hdone => absurd hdone (by simp [start])
      · exact fun _ => Nat.le_refl 0
      · exact Nat.zero_le _
  | tail _ hstep ih =>
      cases hstep with
      | page hopen => exact invariant_page hlimit ih hopen
      | lose hsorted hitems hlost => exact invariant_lose ih hsorted hitems hlost

end

end AiArtifactStore.Foundation.Paging
