import Mathlib.Data.List.Basic

/-!
# Pages that are followed while they are full

A page holds the first items after a cursor in a strict order.  A full page is followed from
its last item, and a page that is not full ends the walk: the pages are consecutive segments
of the items, and together they are all of them.
-/

namespace AiArtifactStore.Foundation.FullPages

variable {α κ : Type} {lt : κ → κ → Bool} {key : α → κ} {limit : Nat}

/-- The first items after the cursor. -/
def pageAfter (lt : κ → κ → Bool) (key : α → κ) (limit : Nat) (items : List α)
    (cursor : Option κ) : List α :=
  (items.filter fun x => cursor.all fun k => lt k (key x)).take limit

/-- Where the next page begins, if there is one. -/
def nextCursor (key : α → κ) (limit : Nat) (page : List α) : Option κ :=
  if page.length = limit then page.getLast?.map key else none

/-- The items of the pages from a cursor on, behind those found before, if no more than a
number of pages are needed. -/
def follow (page : Option κ → List α) (key : α → κ) (limit : Nat) :
    Nat → Option κ → List α → Option (List α)
  | 0, _, _ => none
  | pages + 1, cursor, found =>
      match nextCursor key limit (page cursor) with
      | none => some (found ++ page cursor)
      | some next => follow page key limit pages (some next) (found ++ page cursor)

section

variable {front back : List α}

theorem filter_after_last (hasymm : ∀ a b, lt a b = true → lt b a = false)
    (h : (front ++ back).Pairwise fun a b => lt (key a) (key b) = true) :
    ((front ++ back).filter fun x => (front.getLast?.map key).all fun k => lt k (key x)) =
      back := by
  cases hlast : front.getLast? with
  | none =>
      obtain rfl := List.getLast?_eq_none_iff.mp hlast
      simp
  | some last =>
      obtain ⟨init, rfl⟩ := List.getLast?_eq_some_iff.mp hlast
      obtain ⟨hfront, -, hcross⟩ := List.pairwise_append.mp h
      have hnone : (init ++ [last]).filter (fun x => lt (key last) (key x)) = [] := by
        refine List.filter_eq_nil_iff.mpr fun x hx => ?_
        rw [Bool.not_eq_true]
        rcases List.mem_append.mp hx with hx | hx
        · exact hasymm _ _ ((List.pairwise_append.mp hfront).2.2 x hx last (by simp))
        · obtain rfl := List.mem_singleton.mp hx
          exact eq_false_of_ne_true fun hself =>
            Bool.false_ne_true ((hasymm _ _ hself).symm.trans hself)
      have hall : back.filter (fun x => lt (key last) (key x)) = back :=
        List.filter_eq_self.mpr fun x hx => hcross last (by simp) x hx
      simp only [Option.map_some, Option.all_some]
      rw [List.filter_append, hnone, hall, List.nil_append]

theorem pageAfter_last (hasymm : ∀ a b, lt a b = true → lt b a = false)
    (h : (front ++ back).Pairwise fun a b => lt (key a) (key b) = true) :
    pageAfter lt key limit (front ++ back) (front.getLast?.map key) = back.take limit := by
  rw [pageAfter, filter_after_last hasymm h]

theorem nextCursor_full (hlimit : 1 ≤ limit) (h : limit ≤ back.length) :
    nextCursor key limit (back.take limit) = (front ++ back.take limit).getLast?.map key := by
  have hlength : (back.take limit).length = limit := List.length_take_of_le h
  have hne : back.take limit ≠ [] := fun hnil => by
    rw [hnil] at hlength
    exact absurd hlength.symm (Nat.ne_of_gt hlimit)
  rw [nextCursor, if_pos hlength, List.getLast?_append_of_ne_nil _ hne]

theorem nextCursor_partial (h : back.length < limit) :
    nextCursor key limit (back.take limit) = none := by
  rw [nextCursor, if_neg]
  rw [List.length_take]
  omega

end

/-- Following the pages finds every item, in order; the last page comes after as many full
ones as there are. -/
theorem follow_pageAfter (hasymm : ∀ a b, lt a b = true → lt b a = false) (hlimit : 1 ≤ limit)
    {pages : Nat} {front back : List α}
    (h : (front ++ back).Pairwise fun a b => lt (key a) (key b) = true)
    (hpages : back.length / limit < pages) :
    follow (pageAfter lt key limit (front ++ back)) key limit pages (front.getLast?.map key) front =
      some (front ++ back) := by
  induction pages generalizing front back with
  | zero => exact absurd hpages (Nat.not_lt_zero _)
  | succ pages ih =>
      have hpage := @pageAfter_last _ _ _ key limit _ _ hasymm h
      by_cases hfull : limit ≤ back.length
      · have hnext := @nextCursor_full _ _ key limit front back hlimit hfull
        have hsplit : front ++ back = (front ++ back.take limit) ++ back.drop limit := by
          rw [List.append_assoc, List.take_append_drop]
        obtain ⟨last, hlast⟩ : ∃ last, (front ++ back.take limit).getLast? = some last := by
          cases hnone : (front ++ back.take limit).getLast? with
          | some last => exact ⟨last, rfl⟩
          | none =>
              have hlength := congrArg List.length (List.getLast?_eq_none_iff.mp hnone)
              rw [List.length_append, List.length_take_of_le hfull, List.length_nil] at hlength
              omega
        have hfewer : (back.drop limit).length / limit < pages := by
          rw [Nat.div_eq_sub_div hlimit hfull] at hpages
          rw [List.length_drop]
          omega
        have hrest := ih (by rwa [← hsplit]) hfewer
        rw [hlast, Option.map_some] at hnext hrest
        rw [follow, hpage, hnext]
        simp only
        rw [hsplit, hrest]
      · have hshort := Nat.not_le.mp hfull
        rw [follow, hpage, nextCursor_partial hshort, List.take_of_length_le (Nat.le_of_lt hshort)]

theorem follow_all (hasymm : ∀ a b, lt a b = true → lt b a = false) (hlimit : 1 ≤ limit)
    {pages : Nat} {items : List α}
    (h : items.Pairwise fun a b => lt (key a) (key b) = true)
    (hpages : items.length / limit < pages) :
    follow (pageAfter lt key limit items) key limit pages none [] = some items :=
  @follow_pageAfter _ _ _ _ _ hasymm hlimit pages [] items h hpages

end AiArtifactStore.Foundation.FullPages
