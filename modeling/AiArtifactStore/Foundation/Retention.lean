import Mathlib.Data.List.Induction
import Mathlib.Data.List.Perm.Basic
import Mathlib.Order.Defs.PartialOrder

/-!
# Retention by rank and age

Items fall into groups, and each group has an order.  A retention policy keeps
the first items of every group, the exempt ones and the ones that have not aged;
the others are due.  Numbering a sorted list group by group computes the ranks,
and retiring at two times is retiring at the later one.
-/

namespace AiArtifactStore.Foundation

variable {α β : Type} [DecidableEq β] {group : α → β} {before : α → α → Bool}

def rankIn (group : α → β) (before : α → α → Bool) (items : List α) (item : α) : Nat :=
  1 + items.countP fun other => group other = group item && before other item

theorem rankIn_perm {items items' : List α} (h : items.Perm items') (item : α) :
    rankIn group before items item = rankIn group before items' item := by
  rw [rankIn, rankIn, h.countP_eq]

theorem rankIn_le_of_sublist {items items' : List α} (h : items.Sublist items') (item : α) :
    rankIn group before items item ≤ rankIn group before items' item :=
  Nat.add_le_add_left h.countP_le 1

/-! ## Ranks of a sorted list -/

structure GroupedOrder (group : α → β) (before : α → α → Bool) : Prop where
  asymm : ∀ a b, before a b = true → before b a = false
  convex : ∀ a b c, before a b = true → before b c = true → group a = group c →
    group b = group c

/-- Number each item of a list after the last one of its group, modulo `modulus`. -/
def numberGroups (group : α → β) (modulus : Nat) (previous : Option (α × Nat)) :
    List α → List (α × Nat)
  | [] => []
  | item :: rest =>
      let number :=
        match previous with
        | none => 1
        | some (last, number) =>
            if group last = group item then (number + 1) % modulus else 1
      (item, number) :: numberGroups group modulus (some (item, number)) rest

/-- In a sorted list the items before an item are the ones in front of it. -/
theorem rankIn_split (h : GroupedOrder group before) {done rest : List α} {item : α}
    (hsorted : (done ++ item :: rest).Pairwise fun a b => before a b = true) :
    rankIn group before (done ++ item :: rest) item =
      1 + done.countP fun other => group other = group item := by
  rw [List.pairwise_append, List.pairwise_cons] at hsorted
  obtain ⟨-, ⟨hrest, -⟩, hdone⟩ := hsorted
  have hfront : done.countP (fun other => group other = group item && before other item) =
      done.countP fun other => group other = group item := by
    refine List.countP_congr fun other hother => ?_
    simp [hdone other hother item (by simp)]
  have hitem : before item item = false := by
    cases hself : before item item with
    | false => rfl
    | true => rw [← hself, h.asymm item item hself]
  have hback : rest.countP (fun other => group other = group item && before other item) = 0 := by
    refine List.countP_eq_zero.mpr fun other hother => ?_
    simp [h.asymm item other (hrest other hother)]
  rw [rankIn, List.countP_append, List.countP_cons, hfront, hback]
  simp [hitem]

theorem number_eq_rankIn (h : GroupedOrder group before) {modulus : Nat} (hmodulus : 1 < modulus)
    {done rest : List α} {item : α}
    (hsorted : (done ++ item :: rest).Pairwise fun a b => before a b = true) :
    (match done.getLast?.map fun last =>
        (last, rankIn group before (done ++ item :: rest) last % modulus) with
      | none => 1
      | some (last, number) => if group last = group item then (number + 1) % modulus else 1) =
      rankIn group before (done ++ item :: rest) item % modulus := by
  rw [rankIn_split h hsorted]
  rcases List.eq_nil_or_concat done with rfl | ⟨init, last, rfl⟩
  · simp [Nat.mod_eq_of_lt hmodulus]
  · rw [List.concat_eq_append, List.append_assoc, List.singleton_append] at hsorted ⊢
    simp only [List.getLast?_append, List.getLast?_singleton, Option.some_or, Option.map_some,
      rankIn_split h hsorted, List.countP_append, List.countP_singleton, decide_eq_true_eq]
    by_cases hgroup : group last = group item
    · simp only [hgroup, ↓reduceIte, Nat.mod_add_mod, Nat.add_assoc]
    · have hinit : init.countP (fun other => group other = group item) = 0 := by
        refine List.countP_eq_zero.mpr fun other hother => ?_
        rw [List.pairwise_append, List.pairwise_cons] at hsorted
        have hfirst := hsorted.2.2 other hother last (by simp)
        have hsecond := hsorted.2.1.1 item (by simp)
        rw [decide_eq_true_eq]
        exact fun hsame => hgroup (h.convex _ _ _ hfirst hsecond hsame)
      simp [hgroup, hinit, Nat.mod_eq_of_lt hmodulus]

theorem numberGroups_append (h : GroupedOrder group before) {modulus : Nat}
    (hmodulus : 1 < modulus) (done rest : List α)
    (hsorted : (done ++ rest).Pairwise fun a b => before a b = true) :
    numberGroups group modulus (done.getLast?.map fun last =>
        (last, rankIn group before (done ++ rest) last % modulus)) rest =
      rest.map fun item => (item, rankIn group before (done ++ rest) item % modulus) := by
  induction rest generalizing done with
  | nil => rfl
  | cons item rest ih =>
      have htail := ih (done ++ [item]) (by simpa using hsorted)
      simp only [List.append_assoc, List.singleton_append, List.getLast?_append,
        List.getLast?_singleton, Option.some_or, Option.map_some] at htail
      simp only [numberGroups, number_eq_rankIn h hmodulus hsorted, htail, List.map_cons]

theorem numberGroups_eq (h : GroupedOrder group before) {modulus : Nat} (hmodulus : 1 < modulus)
    {items : List α} (hsorted : items.Pairwise fun a b => before a b = true) :
    numberGroups group modulus none items =
      items.map fun item => (item, rankIn group before items item % modulus) :=
  numberGroups_append h hmodulus [] items hsorted

/-! ## Policies -/

/-- What is kept whatever its rank, how many of each group are kept, and what has aged.
Age grows with time, and along the order of a group. -/
structure RetentionPolicy (τ : Type) [LE τ] (group : α → β) (before : α → α → Bool) where
  exempt : α → Bool
  keeps : α → Nat
  aged : τ → α → Bool
  aged_mono : ∀ {t t' a}, t ≤ t' → aged t a = true → aged t' a = true
  aged_later : ∀ {t a b}, group a = group b → before a b = true → aged t a = true →
    aged t b = true

namespace RetentionPolicy

variable {τ : Type} [LE τ] (policy : RetentionPolicy τ group before) {t t' : τ}
  {items : List α} {item : α}

def due (t : τ) (items : List α) (item : α) : Bool :=
  !policy.exempt item && policy.keeps item < rankIn group before items item && policy.aged t item

def retain (t : τ) (items : List α) : List α := items.filter fun item => !policy.due t items item

variable {policy}

theorem due_iff : policy.due t items item = true ↔
    policy.exempt item = false ∧ policy.keeps item < rankIn group before items item ∧
      policy.aged t item = true := by
  simp [due, and_assoc]

theorem due_mono (h : t ≤ t') (hdue : policy.due t items item = true) :
    policy.due t' items item = true := by
  obtain ⟨hexempt, hrank, haged⟩ := due_iff.mp hdue
  exact due_iff.mpr ⟨hexempt, hrank, policy.aged_mono h haged⟩

theorem rankIn_retain (haged : policy.aged t item = false) :
    rankIn group before (policy.retain t items) item = rankIn group before items item := by
  rw [rankIn, rankIn, retain, List.countP_filter]
  congr 1
  refine List.countP_congr fun other _ => ?_
  simp only [Bool.and_eq_true, decide_eq_true_eq, Bool.not_eq_true']
  constructor
  · exact fun h => h.1
  · intro h
    refine ⟨h, ?_⟩
    cases hdue : policy.due t items other with
    | false => rfl
    | true =>
        have hlater := policy.aged_later h.1 h.2 (due_iff.mp hdue).2.2
        rw [haged] at hlater
        cases hlater

theorem rankIn_retain_le :
    rankIn group before (policy.retain t items) item ≤ rankIn group before items item :=
  rankIn_le_of_sublist List.filter_sublist item

/-- The run in between neither saves nor loses an item it leaves. -/
theorem due_retain (hkept : policy.due t items item = false) :
    policy.due t' (policy.retain t items) item = policy.due t' items item := by
  cases haged : policy.aged t item with
  | false => rw [due, due, rankIn_retain haged]
  | true =>
      by_cases hexempt : policy.exempt item = true
      · simp [due, hexempt]
      · have hrank : rankIn group before items item ≤ policy.keeps item := by
          by_contra hlarge
          have hdue : policy.due t items item = true :=
            due_iff.mpr ⟨Bool.not_eq_true _ ▸ hexempt, by omega, haged⟩
          rw [hkept] at hdue
          cases hdue
        have hnot : ¬policy.keeps item < rankIn group before items item :=
          Nat.not_lt.mpr hrank
        have hnot' : ¬policy.keeps item < rankIn group before (policy.retain t items) item :=
          Nat.not_lt.mpr (Nat.le_trans rankIn_retain_le hrank)
        simp [due, hnot, hnot']

theorem due_or_due_retain (h : t ≤ t') :
    (item ∈ items ∧ policy.due t items item = true) ∨
        (item ∈ policy.retain t items ∧ policy.due t' (policy.retain t items) item = true) ↔
      item ∈ items ∧ policy.due t' items item = true := by
  cases hdue : policy.due t items item with
  | true =>
      have hdropped : item ∉ policy.retain t items := by simp [retain, hdue]
      simp [hdropped, due_mono h hdue]
  | false =>
      have hkept : item ∈ policy.retain t items ↔ item ∈ items := by simp [retain, hdue]
      rw [due_retain hdue, hkept]
      simp

end RetentionPolicy

end AiArtifactStore.Foundation
