import Mathlib.Data.List.Nodup
import Mathlib.Order.Defs.Unbundled

/-!
# Ordered maps

A finite map as the list of its entries in strictly increasing key order.
-/

namespace AiArtifactStore.Foundation

structure OrderedMap (κ α : Type) [LT κ] where
  entries : List (κ × α)
  sorted : (entries.map Prod.fst).Pairwise (· < ·)

namespace OrderedMap

variable {κ α : Type} [LT κ]

instance [DecidableEq κ] [DecidableEq α] : DecidableEq (OrderedMap κ α) := fun a b =>
  decidable_of_iff (a.entries = b.entries)
    ⟨fun h => by cases a; cases b; cases h; rfl, fun h => h ▸ rfl⟩

theorem ext_entries {a b : OrderedMap κ α} (h : a.entries = b.entries) : a = b := by
  cases a
  cases b
  cases h
  rfl

def empty : OrderedMap κ α := ⟨[], .nil⟩

def singleton (k : κ) (v : α) : OrderedMap κ α := ⟨[(k, v)], by simp⟩

def find? [DecidableEq κ] (m : OrderedMap κ α) (k : κ) : Option α :=
  (m.entries.find? (fun entry => entry.1 = k)).map Prod.snd

theorem nodup_keys (hasymm : ∀ {k l : κ}, k < l → ¬l < k) (m : OrderedMap κ α) :
    (m.entries.map Prod.fst).Nodup := by
  refine List.Pairwise.imp (fun {k l} hlt heq => ?_) m.sorted
  subst heq
  exact hasymm hlt hlt

end OrderedMap

/-! ## Ordered insertion -/

/-- Insert `(k, v)` into an ascending list unless the key is present (`std::map::emplace`). -/
def emplaceSorted {κ α : Type} [LT κ] [DecidableEq κ] [DecidableRel (α := κ) (· < ·)]
    (k : κ) (v : α) : List (κ × α) → List (κ × α)
  | [] => [(k, v)]
  | entry :: rest =>
      if k = entry.1 then entry :: rest
      else if k < entry.1 then (k, v) :: entry :: rest
      else entry :: emplaceSorted k v rest

section

variable {κ α : Type} [LT κ] [DecidableEq κ] [DecidableRel (α := κ) (· < ·)]

theorem mem_of_mem_emplaceSorted {k : κ} {v : α} {entry : κ × α} {rest : List (κ × α)}
    (h : entry ∈ emplaceSorted k v rest) : entry = (k, v) ∨ entry ∈ rest := by
  induction rest with
  | nil => simpa [emplaceSorted] using h
  | cons head rest ih =>
      unfold emplaceSorted at h
      split at h
      · exact .inr h
      · split at h
        · simpa using h
        · rcases List.mem_cons.mp h with rfl | h
          · simp
          · rcases ih h with h | h
            · exact .inl h
            · exact .inr (List.mem_cons_of_mem _ h)

end

/-! ## Maps from lists -/

theorem find?_of_nodup_keys {κ α : Type} [DecidableEq κ] {entries : List (κ × α)}
    (h : (entries.map Prod.fst).Nodup) {k : κ} {v : α} :
    (entries.find? fun entry => entry.1 = k).map Prod.snd = some v ↔
      (k, v) ∈ entries := by
  constructor
  · intro hfind
    obtain ⟨entry, hentry, rfl⟩ := Option.map_eq_some_iff.mp hfind
    have hkey : entry.1 = k := by simpa using List.find?_some hentry
    exact hkey ▸ List.mem_of_find?_eq_some hentry
  · intro hmem
    cases hfind : entries.find? fun entry => entry.1 = k with
    | none => simpa using List.find?_eq_none.mp hfind _ hmem
    | some entry =>
        have hkey : entry.1 = k := by simpa using List.find?_some hfind
        have hsame := List.inj_on_of_nodup_map h (List.mem_of_find?_eq_some hfind) hmem hkey
        rw [hsame]
        rfl

theorem OrderedMap.ext_find? {κ α : Type} [LT κ] [DecidableEq κ]
    (hasymm : ∀ {k l : κ}, k < l → ¬l < k) {a b : OrderedMap κ α}
    (h : ∀ k v, a.find? k = some v ↔ b.find? k = some v) : a = b := by
  have hnodup : ∀ m : OrderedMap κ α, m.entries.Nodup := fun m => (m.nodup_keys hasymm).of_map
  have hsorted : ∀ m : OrderedMap κ α, m.entries.Pairwise fun left right => left.1 < right.1 :=
    fun m => List.pairwise_map.mp m.sorted
  have hmem : ∀ entry, entry ∈ a.entries ↔ entry ∈ b.entries := fun entry => by
    rw [← find?_of_nodup_keys (a.nodup_keys hasymm), ← find?_of_nodup_keys (b.nodup_keys hasymm)]
    exact h entry.1 entry.2
  have hperm : a.entries.Perm b.entries :=
    (List.perm_ext_iff_of_nodup (hnodup a) (hnodup b)).mpr hmem
  exact OrderedMap.ext_entries <| hperm.eq_of_pairwise
    (fun _ _ _ _ hlt hgt => absurd hgt (hasymm hlt)) (hsorted a) (hsorted b)

structure StrictTotal (κ : Type) [LT κ] : Prop where
  trans : ∀ {a b c : κ}, a < b → b < c → a < c
  total : ∀ {a b : κ}, a ≠ b → ¬a < b → b < a

theorem strictTotal_string : StrictTotal String where
  trans := String.lt_trans
  total := fun hne hge =>
    String.not_le.mp fun hle => hne (String.le_antisymm hle (String.not_lt.mp hge))

section

variable {κ α : Type} [LT κ] [DecidableEq κ] [DecidableRel (α := κ) (· < ·)]

theorem pairwise_emplaceSorted (order : StrictTotal κ) {k : κ} {v : α} {rest : List (κ × α)}
    (h : (rest.map Prod.fst).Pairwise (· < ·)) :
    ((emplaceSorted k v rest).map Prod.fst).Pairwise (· < ·) := by
  induction rest with
  | nil => simp [emplaceSorted]
  | cons head rest ih =>
      rw [List.map_cons, List.pairwise_cons] at h
      unfold emplaceSorted
      split
      · rwa [List.map_cons, List.pairwise_cons]
      · rename_i hne
        split
        · rename_i hlt
          rw [List.map_cons, List.map_cons, List.pairwise_cons, List.pairwise_cons]
          refine ⟨fun key hkey => ?_, h⟩
          rcases List.mem_cons.mp hkey with rfl | hkey
          · exact hlt
          · exact order.trans hlt (h.1 key hkey)
        · rename_i hge
          rw [List.map_cons, List.pairwise_cons]
          refine ⟨fun key hkey => ?_, ih h.2⟩
          obtain ⟨entry, hentry, rfl⟩ := List.mem_map.mp hkey
          rcases mem_of_mem_emplaceSorted hentry with rfl | hentry
          · exact order.total hne hge
          · exact h.1 _ (List.mem_map_of_mem hentry)

def emplaceAll (entries : List (κ × α)) : List (κ × α) → List (κ × α) :=
  fun start => entries.foldl (fun sorted entry => emplaceSorted entry.1 entry.2 sorted) start

theorem pairwise_emplaceAll (order : StrictTotal κ) {entries start : List (κ × α)}
    (h : (start.map Prod.fst).Pairwise (· < ·)) :
    ((emplaceAll entries start).map Prod.fst).Pairwise (· < ·) := by
  induction entries generalizing start with
  | nil => exact h
  | cons entry entries ih => exact ih (pairwise_emplaceSorted order h)

theorem mem_of_mem_emplaceAll {entries start : List (κ × α)} {entry : κ × α}
    (h : entry ∈ emplaceAll entries start) : entry ∈ entries ∨ entry ∈ start := by
  induction entries generalizing start with
  | nil => exact .inr h
  | cons head entries ih =>
      rcases ih h with h | h
      · exact .inl (List.mem_cons_of_mem _ h)
      · rcases mem_of_mem_emplaceSorted h with rfl | h
        · exact .inl (List.mem_cons_self ..)
        · exact .inr h

def OrderedMap.ofList (order : StrictTotal κ) (entries : List (κ × α)) : OrderedMap κ α :=
  ⟨emplaceAll entries [], pairwise_emplaceAll order .nil⟩

/-! ## Distinct keys -/

theorem emplaceSorted_perm {k : κ} {v : α} {rest : List (κ × α)} (h : k ∉ rest.map Prod.fst) :
    (emplaceSorted k v rest).Perm ((k, v) :: rest) := by
  induction rest with
  | nil => exact .refl _
  | cons head rest ih =>
      rw [List.map_cons, List.mem_cons, not_or] at h
      unfold emplaceSorted
      rw [if_neg h.1]
      split
      · exact .refl _
      · exact ((ih h.2).cons head).trans (.swap _ _ _)

theorem emplaceAll_perm {entries start : List (κ × α)}
    (h : ((entries ++ start).map Prod.fst).Nodup) :
    (emplaceAll entries start).Perm (entries ++ start) := by
  induction entries generalizing start with
  | nil => exact .refl _
  | cons entry entries ih =>
      rw [List.cons_append, List.map_cons, List.nodup_cons] at h
      have hfresh : entry.1 ∉ start.map Prod.fst := fun hmem =>
        h.1 (by rw [List.map_append]; exact List.mem_append_right _ hmem)
      have hinsert := @emplaceSorted_perm _ _ _ _ _ _ entry.2 _ hfresh
      have hmove : (entries ++ emplaceSorted entry.1 entry.2 start).Perm
          (entry :: (entries ++ start)) :=
        (hinsert.append_left entries).trans List.perm_middle
      refine (ih ?_).trans hmove
      exact ((hmove.map Prod.fst).nodup_iff).mpr (List.nodup_cons.mpr h)

theorem OrderedMap.perm_ofList (order : StrictTotal κ) {entries : List (κ × α)}
    (h : (entries.map Prod.fst).Nodup) :
    (OrderedMap.ofList order entries).entries.Perm entries := by
  have hperm := @emplaceAll_perm _ _ _ _ _ entries [] (by rwa [List.append_nil])
  rwa [List.append_nil] at hperm

theorem OrderedMap.find?_ofList (order : StrictTotal κ) {entries : List (κ × α)}
    (h : (entries.map Prod.fst).Nodup) {k : κ} {v : α} :
    (OrderedMap.ofList order entries).find? k = some v ↔ (k, v) ∈ entries := by
  have hperm := OrderedMap.perm_ofList order h
  have hkeys := ((hperm.map Prod.fst).nodup_iff).mpr h
  rw [OrderedMap.find?, find?_of_nodup_keys hkeys, hperm.mem_iff]

end

end AiArtifactStore.Foundation
