import Mathlib.Data.List.Pairwise
import Mathlib.Data.List.Sort

/-!
# Sorting by one order and reading by another

A list sorted by one linear order is strictly increasing in another exactly when
the two orders compare its elements alike.
-/

namespace AiArtifactStore.Foundation

variable {α : Type}

structure LinearComparison (le : α → α → Prop) : Prop where
  total : ∀ a b, le a b ∨ le b a
  trans : ∀ a b c, le a b → le b c → le a c
  antisymm : ∀ a b, le a b → le b a → a = b

structure StrictComparison (lt : α → α → Prop) : Prop where
  irrefl : ∀ a, ¬lt a a
  trans : ∀ a b c, lt a b → lt b c → lt a c
  connected : ∀ a b, ¬lt a b → ¬lt b a → a = b

theorem strictComparison_string : StrictComparison fun a b : String => a < b :=
  ⟨String.lt_irrefl, fun _ _ _ => String.lt_trans, fun _ _ hab hba =>
    String.le_antisymm (String.not_lt.mp hba) (String.not_lt.mp hab)⟩

theorem StrictComparison.linear {lt : α → α → Prop} (h : StrictComparison lt) :
    LinearComparison fun a b => ¬lt b a := by
  constructor
  · intro a b
    by_contra hneither
    obtain ⟨hba, hab⟩ := not_or.mp hneither
    exact h.irrefl a (h.trans a b a (not_not.mp hab) (not_not.mp hba))
  · intro a b c hba hcb hca
    by_cases hab : lt a b
    · exact hcb (h.trans c a b hca hab)
    · obtain rfl := h.connected a b hab hba
      exact hcb hca
  · exact fun a b hba hab => h.connected a b hab hba

theorem LinearComparison.of_key {β : Type} {ltKey : β → β → Prop} {lt : α → α → Prop}
    (hkey : StrictComparison ltKey) (hlt : StrictComparison lt) (key : α → β) :
    LinearComparison fun a b => ltKey (key a) (key b) ∨ (key a = key b ∧ ¬lt b a) := by
  constructor
  · intro a b
    by_cases hab : ltKey (key a) (key b)
    · exact .inl (.inl hab)
    by_cases hba : ltKey (key b) (key a)
    · exact .inr (.inl hba)
    have heq := hkey.connected _ _ hab hba
    by_cases hlast : lt b a
    · exact .inr (.inr ⟨heq.symm, fun h => hlt.irrefl a (hlt.trans a b a h hlast)⟩)
    · exact .inl (.inr ⟨heq, hlast⟩)
  · rintro a b c (hab | ⟨hab, hba⟩) (hbc | ⟨hbc, hcb⟩)
    · exact .inl (hkey.trans _ _ _ hab hbc)
    · exact .inl (hbc ▸ hab)
    · exact .inl (hab ▸ hbc)
    · refine .inr ⟨hab.trans hbc, fun hca => ?_⟩
      by_cases hlast : lt a b
      · exact hcb (hlt.trans c a b hca hlast)
      · obtain rfl := hlt.connected a b hlast hba
        exact hcb hca
  · rintro a b (hab | ⟨hab, hba⟩) (hother | ⟨heq, hab'⟩)
    · exact absurd (hkey.trans _ _ _ hab hother) (hkey.irrefl _)
    · exact absurd (heq ▸ hab) (hkey.irrefl _)
    · exact absurd (hab ▸ hother) (hkey.irrefl _)
    · exact hlt.connected a b hab' hba

theorem insertionSort_filter {le : α → α → Prop} [DecidableRel le] (htotal : ∀ a b, le a b ∨ le b a)
    (htrans : ∀ a b c, le a b → le b c → le a c) {xs : List α}
    (hantisymm : ∀ a ∈ xs, ∀ b ∈ xs, le a b → le b a → a = b) (keep : α → Bool) :
    (xs.filter keep).insertionSort le = (xs.insertionSort le).filter keep := by
  have : Std.Total le := ⟨htotal⟩
  have : IsTrans α le := ⟨htrans⟩
  have hperm : ((xs.filter keep).insertionSort le).Perm ((xs.insertionSort le).filter keep) :=
    (List.perm_insertionSort le _).trans ((List.perm_insertionSort le xs).filter keep).symm
  refine hperm.eq_of_pairwise (fun a b ha hb => ?_) (List.pairwise_insertionSort le _)
    ((List.pairwise_insertionSort le xs).filter keep)
  have hmem : ∀ c, c ∈ (xs.insertionSort le).filter keep → c ∈ xs := fun c hc =>
    (List.mem_insertionSort le).mp (List.mem_filter.mp hc).1
  exact hantisymm a (hmem a (hperm.mem_iff.mp ha)) b (hmem b hb)

def AgreesOn (le lt : α → α → Prop) (s : Set α) : Prop :=
  ∀ a ∈ s, ∀ b ∈ s, le a b → ¬lt b a

theorem isChain_insertionSort_iff {le lt : α → α → Prop} [DecidableRel le]
    (hle : LinearComparison le) (hlt : StrictComparison lt) {xs : List α} (hnodup : xs.Nodup) :
    (xs.insertionSort le).IsChain lt ↔ AgreesOn le lt { a | a ∈ xs } := by
  have : Std.Total le := ⟨hle.total⟩
  have : IsTrans α le := ⟨hle.trans⟩
  have : IsTrans α lt := ⟨hlt.trans⟩
  have hsorted : (xs.insertionSort le).Pairwise le := List.pairwise_insertionSort le xs
  have hmem : ∀ a, a ∈ xs.insertionSort le ↔ a ∈ xs := fun a => List.mem_insertionSort le
  have hdistinct : (xs.insertionSort le).Nodup :=
    (List.perm_insertionSort le xs).nodup_iff.mpr hnodup
  rw [List.isChain_iff_pairwise]
  constructor
  · intro hincreasing a ha b hb hab hba
    -- both orders relate every two elements in the direction of the list
    have hboth : (xs.insertionSort le).Pairwise fun a b =>
        (le a b ∧ lt a b) ∨ (le b a ∧ lt b a) :=
      (hsorted.and hincreasing).imp fun h => .inl h
    have : Std.Symm fun a b : α => (le a b ∧ lt a b) ∨ (le b a ∧ lt b a) := ⟨fun _ _ h => h.symm⟩
    have hne : a ≠ b := fun heq => hlt.irrefl b (heq ▸ hba)
    rcases hboth.forall ((hmem a).mpr ha) ((hmem b).mpr hb) hne with ⟨-, hforward⟩ | ⟨hle', -⟩
    · exact hlt.irrefl a (hlt.trans a b a hforward hba)
    · exact hne (hle.antisymm a b hab hle')
  · intro hagrees
    have hpairs : (xs.insertionSort le).Pairwise fun a b => le a b ∧ a ≠ b :=
      hsorted.and hdistinct
    refine hpairs.imp_of_mem fun {a b} ha hb h => ?_
    by_contra hnot
    exact h.2 (hlt.connected a b hnot (hagrees a ((hmem a).mp ha) b ((hmem b).mp hb) h.1))

/-- Strictly increasing keys determine the order of the elements. -/
theorem eq_of_perm_of_keys {κ : Type} {lt : κ → κ → Prop} (hlt : StrictComparison lt)
    {key : α → κ} {xs ys : List α} (hxs : (xs.map key).Pairwise lt)
    (hys : (ys.map key).Pairwise lt) (hperm : xs.Perm ys) : xs = ys := by
  rw [List.pairwise_map] at hxs hys
  refine hperm.eq_of_pairwise (fun a b _ _ hab hba => ?_) hxs hys
  exact absurd (hlt.trans _ _ _ hab hba) (hlt.irrefl _)

end AiArtifactStore.Foundation
