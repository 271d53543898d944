import AiArtifactStore.Foundation.SortOrder

/-!
# The first elements of a ranking

The `r` first elements of a collection in a linear order.  Removing an element moves
the later ones up by one place, so the first `r` lose at most the removed element and
gain at most the one that ranked next.
-/

namespace AiArtifactStore.Foundation.Ranking

variable {α : Type} {le : α → α → Prop} [DecidableRel le] {r : Nat} {xs ys : List α} {x : α}

/-- The first elements in the order, the foremost one first. -/
def foremost (le : α → α → Prop) [DecidableRel le] (r : Nat) (xs : List α) : List α :=
  (xs.insertionSort le).take r

def next (le : α → α → Prop) [DecidableRel le] (r : Nat) (xs : List α) : List α :=
  ((xs.insertionSort le).drop r).take 1

theorem length_foremost (h : r ≤ xs.length) : (foremost le r xs).length = r := by
  rw [foremost, List.length_take, List.length_insertionSort]
  exact Nat.min_eq_left h

theorem nodup_foremost (h : xs.Nodup) : (foremost le r xs).Nodup := by
  have hsorted : (xs.insertionSort le).Nodup := (List.perm_insertionSort le xs).nodup_iff.mpr h
  exact hsorted.sublist (List.take_sublist r _)

theorem mem_of_mem_foremost (h : x ∈ foremost le r xs) : x ∈ xs :=
  (List.mem_insertionSort le).mp (List.mem_of_mem_take h)

theorem foremost_prefix (r : Nat) : foremost le r xs <+: foremost le (r + 1) xs :=
  List.take_prefix_take_left (Nat.le_succ r)

theorem exists_next (le : α → α → Prop) [DecidableRel le] (hnodup : xs.Nodup)
    (h : r < xs.length) : ∃ last ∈ xs, last ∉ foremost le r xs ∧ next le r xs = [last] := by
  have hlength : r < (xs.insertionSort le).length := by rwa [List.length_insertionSort]
  have hsorted : (xs.insertionSort le).Nodup :=
    (List.perm_insertionSort le xs).nodup_iff.mpr hnodup
  refine ⟨(xs.insertionSort le)[r], ?_, fun hmem => ?_, ?_⟩
  · exact (List.mem_insertionSort le).mp (List.getElem_mem hlength)
  · obtain ⟨i, hi, heq⟩ := List.mem_take_iff_getElem.mp hmem
    have hsame := (hsorted.getElem_inj_iff).mp heq
    omega
  · rw [next, List.drop_eq_getElem_cons hlength]
    rfl

theorem insertionSort_perm (hle : LinearComparison le) (h : xs.Perm ys) :
    xs.insertionSort le = ys.insertionSort le := by
  have : Std.Total le := ⟨hle.total⟩
  have : IsTrans α le := ⟨hle.trans⟩
  have hperm : (xs.insertionSort le).Perm (ys.insertionSort le) :=
    (List.perm_insertionSort le xs).trans (h.trans (List.perm_insertionSort le ys).symm)
  exact hperm.eq_of_pairwise (fun a b _ _ => hle.antisymm a b) (List.pairwise_insertionSort le xs)
    (List.pairwise_insertionSort le ys)

theorem foremost_perm (hle : LinearComparison le) (h : xs.Perm ys) :
    foremost le r xs = foremost le r ys := by
  rw [foremost, foremost, insertionSort_perm hle h]

variable [DecidableEq α]

theorem insertionSort_erase (hle : LinearComparison le) (xs : List α) (x : α) :
    (xs.erase x).insertionSort le = (xs.insertionSort le).erase x := by
  have : Std.Total le := ⟨hle.total⟩
  have : IsTrans α le := ⟨hle.trans⟩
  have hperm : ((xs.erase x).insertionSort le).Perm ((xs.insertionSort le).erase x) :=
    (List.perm_insertionSort le _).trans ((List.perm_insertionSort le xs).erase x).symm
  exact hperm.eq_of_pairwise (fun a b _ _ => hle.antisymm a b)
    (List.pairwise_insertionSort le _)
    ((List.pairwise_insertionSort le xs).sublist List.erase_sublist)

/-! ## Removing an element -/

theorem foremost_erase_of_notMem (hle : LinearComparison le) (h : x ∉ foremost le r xs) :
    foremost le r (xs.erase x) = foremost le r xs := by
  rw [foremost, insertionSort_erase hle]
  generalize hsorted : xs.insertionSort le = sorted
  rw [foremost, hsorted] at h ⊢
  have hsplit : sorted.erase x = sorted.take r ++ (sorted.drop r).erase x := by
    rw [← List.erase_append_right _ h, List.take_append_drop]
  rw [hsplit]
  rcases Nat.le_total r sorted.length with hle | hge
  · exact List.take_left' (List.length_take_of_le hle)
  · rw [List.drop_eq_nil_of_le hge, List.erase_nil, List.append_nil, List.take_take,
      Nat.min_self]

theorem foremost_erase_of_mem (hle : LinearComparison le) (h : x ∈ foremost le r xs) :
    foremost le r (xs.erase x) = (foremost le r xs).erase x ++ next le r xs := by
  rw [foremost, insertionSort_erase hle, next]
  generalize hsorted : xs.insertionSort le = sorted
  rw [foremost, hsorted] at h ⊢
  have hsplit : sorted.erase x = (sorted.take r).erase x ++ sorted.drop r := by
    rw [← List.erase_append_left _ h, List.take_append_drop]
  have hlength : ((sorted.take r).erase x).length + 1 = (sorted.take r).length := by
    have hpos := List.length_pos_of_mem h
    rw [List.length_erase_of_mem h]
    omega
  rw [hsplit]
  rcases Nat.le_total r sorted.length with hle | hge
  · rw [List.length_take_of_le hle] at hlength
    have hone : r - ((sorted.take r).erase x).length = 1 := by omega
    rw [List.take_append, List.take_of_length_le (by omega), hone]
  · rw [List.drop_eq_nil_of_le hge, List.append_nil, List.take_nil, List.append_nil]
    refine List.take_of_length_le ?_
    rw [List.length_take] at hlength
    omega

end AiArtifactStore.Foundation.Ranking
