import Mathlib.Algebra.GroupWithZero.Nat

/-!
# Cutting a list into segments

A machine that reads a list, one element at a time, may emit outputs after each.  Where its
input is cut into pieces does not matter.  One such machine collects elements into an open
segment and closes it as soon as the segment passes a test.  What is left open at the end of
the input is its last segment.  The next segment depends on nothing that came before it.
-/

namespace AiArtifactStore.Foundation

/-! ## Feeding a machine -/

section

variable {σ α β : Type} {step : σ → α → σ × List β}

/-- The state after an input, and everything emitted on the way. -/
def feed (step : σ → α → σ × List β) (s : σ) : List α → σ × List β
  | [] => (s, [])
  | x :: xs => ((feed step (step s x).1 xs).1, (step s x).2 ++ (feed step (step s x).1 xs).2)

@[simp] theorem feed_nil (s : σ) : feed step s [] = (s, []) := rfl

theorem feed_append (s : σ) (xs ys : List α) :
    feed step s (xs ++ ys) =
      ((feed step (feed step s xs).1 ys).1,
        (feed step s xs).2 ++ (feed step (feed step s xs).1 ys).2) := by
  induction xs generalizing s with
  | nil => rfl
  | cons x xs ih => simp only [List.cons_append, feed, ih, List.append_assoc]

theorem feed_invariant {P : σ → Prop} {Q : β → Prop}
    (hstep : ∀ s x, P s → P (step s x).1 ∧ ∀ b ∈ (step s x).2, Q b) {s : σ} (h : P s)
    (xs : List α) : P (feed step s xs).1 ∧ ∀ b ∈ (feed step s xs).2, Q b := by
  induction xs generalizing s with
  | nil => exact ⟨h, by simp⟩
  | cons x xs ih =>
      obtain ⟨hs, hout⟩ := hstep s x h
      obtain ⟨hrest, hrestOut⟩ := ih hs
      refine ⟨hrest, fun b hb => ?_⟩
      rcases List.mem_append.mp hb with hb | hb
      · exact hout b hb
      · exact hrestOut b hb

end

/-! ## Segments -/

/-- One element of the input: the open segment, and the segment that closes. -/
def collect {α : Type} (closes : List α → Bool) (opened : List α) (x : α) :
    List α × List (List α) :=
  if closes (opened ++ [x]) then ([], [opened ++ [x]]) else (opened ++ [x], [])

def lastSegment {α : Type} : List α → List (List α)
  | [] => []
  | x :: xs => [x :: xs]

def segmentsFrom {α : Type} (closes : List α → Bool) (opened xs : List α) : List (List α) :=
  (feed (collect closes) opened xs).2 ++ lastSegment (feed (collect closes) opened xs).1

def segments {α : Type} (closes : List α → Bool) (xs : List α) : List (List α) :=
  segmentsFrom closes [] xs

section

variable {α : Type} {closes : List α → Bool} {opened : List α} {x : α}

theorem collect_of_closes (h : closes (opened ++ [x]) = true) :
    collect closes opened x = ([], [opened ++ [x]]) := if_pos h

theorem collect_of_open (h : closes (opened ++ [x]) = false) :
    collect closes opened x = (opened ++ [x], []) := by
  rw [collect, h]
  rfl

@[simp] theorem flatten_lastSegment (xs : List α) : (lastSegment xs).flatten = xs := by
  cases xs with
  | nil => rfl
  | cons x xs => exact List.append_nil (x :: xs)

theorem ne_nil_of_mem_lastSegment {xs segment : List α} (h : segment ∈ lastSegment xs) :
    segment ≠ [] := by
  cases xs with
  | nil => cases h
  | cons x xs => exact List.mem_singleton.mp h ▸ List.cons_ne_nil x xs

theorem segmentsFrom_nil : segmentsFrom closes opened [] = lastSegment opened := rfl

@[simp] theorem segments_nil : segments closes [] = [] := rfl

theorem segmentsFrom_of_closes (h : closes (opened ++ [x]) = true) (xs : List α) :
    segmentsFrom closes opened (x :: xs) = (opened ++ [x]) :: segments closes xs := by
  rw [segmentsFrom, feed, collect_of_closes h]
  rfl

theorem segmentsFrom_of_open (h : closes (opened ++ [x]) = false) (xs : List α) :
    segmentsFrom closes opened (x :: xs) = segmentsFrom closes (opened ++ [x]) xs := by
  rw [segmentsFrom, feed, collect_of_open h]
  rfl

/-! ## Nothing is lost -/

theorem flatten_segmentsFrom (opened xs : List α) :
    (segmentsFrom closes opened xs).flatten = opened ++ xs := by
  induction xs generalizing opened with
  | nil => rw [segmentsFrom_nil, flatten_lastSegment, List.append_nil]
  | cons x xs ih =>
      have hopened : opened ++ [x] ++ xs = opened ++ x :: xs := List.append_assoc opened [x] xs
      cases h : closes (opened ++ [x]) with
      | true =>
          rw [segmentsFrom_of_closes h, List.flatten_cons, segments, ih, List.nil_append, hopened]
      | false => rw [segmentsFrom_of_open h, ih, hopened]

theorem flatten_segments (xs : List α) : (segments closes xs).flatten = xs :=
  flatten_segmentsFrom [] xs

theorem ne_nil_of_mem_segments {xs segment : List α} (h : segment ∈ segments closes xs) :
    segment ≠ [] := by
  rcases List.mem_append.mp h with h | h
  · have hcollect : ∀ (opened : List α) (x : α), True →
        True ∧ ∀ segment ∈ (collect closes opened x).2, segment ≠ [] := by
      rintro opened x -
      cases hx : closes (opened ++ [x]) with
      | true =>
          rw [collect_of_closes hx]
          simp
      | false =>
          rw [collect_of_open hx]
          simp
    exact (feed_invariant hcollect trivial xs).2 segment h
  · exact ne_nil_of_mem_lastSegment h

/-! ## How long a segment is -/

/-- A segment that has been closed passes the test, and is no longer than where every
segment passes it. -/
theorem closed_spec {bound : Nat} (hbound : 0 < bound)
    (hcloses : ∀ segment : List α, bound ≤ segment.length → closes segment = true) (xs : List α) :
    (feed (collect closes) [] xs).1.length < bound ∧
      ∀ segment ∈ (feed (collect closes) [] xs).2,
        closes segment = true ∧ segment.length ≤ bound := by
  have hnil : ([] : List α).length < bound := hbound
  refine feed_invariant (P := fun opened : List α => opened.length < bound) ?_ hnil xs
  intro opened x hopened
  have hlength : (opened ++ [x]).length = opened.length + 1 := by simp
  cases hx : closes (opened ++ [x]) with
  | true =>
      rw [collect_of_closes hx]
      refine ⟨hbound, fun segment hsegment => ?_⟩
      rw [List.mem_singleton.mp hsegment]
      exact ⟨hx, by omega⟩
  | false =>
      rw [collect_of_open hx]
      have hshort : ¬bound ≤ (opened ++ [x]).length := by
        intro hlong
        rw [hcloses _ hlong] at hx
        cases hx
      exact ⟨Nat.lt_of_not_le hshort, by simp⟩

theorem mem_dropLast_append_lastSegment {closed : List (List α)} {rest segment : List α}
    (h : segment ∈ (closed ++ lastSegment rest).dropLast) : segment ∈ closed := by
  cases rest with
  | nil => exact (List.dropLast_sublist closed).subset (by simpa [lastSegment] using h)
  | cons x rest => simpa [lastSegment] using h

theorem dropLast_segments_spec {bound : Nat} (hbound : 0 < bound)
    (hcloses : ∀ segment : List α, bound ≤ segment.length → closes segment = true)
    {xs segment : List α} (h : segment ∈ (segments closes xs).dropLast) :
    closes segment = true ∧ segment.length ≤ bound :=
  (closed_spec hbound hcloses xs).2 segment (mem_dropLast_append_lastSegment h)

theorem length_le_of_mem_segments {bound : Nat} (hbound : 0 < bound)
    (hcloses : ∀ segment : List α, bound ≤ segment.length → closes segment = true)
    {xs segment : List α} (h : segment ∈ segments closes xs) : segment.length ≤ bound := by
  obtain ⟨hopened, hclosed⟩ := closed_spec hbound hcloses xs
  rcases List.mem_append.mp h with h | h
  · exact (hclosed segment h).2
  · have hflatten := flatten_lastSegment (feed (collect closes) [] xs).1
    have hlength := (List.sublist_flatten_of_mem h).length_le
    rw [hflatten] at hlength
    omega

/-! ## One segment at a time -/

theorem segmentsFrom_open {xs : List α}
    (h : ∀ piece, piece <+: xs → piece ≠ [] → closes (opened ++ piece) = false) (ys : List α) :
    segmentsFrom closes opened (xs ++ ys) = segmentsFrom closes (opened ++ xs) ys := by
  induction xs generalizing opened with
  | nil => rw [List.append_nil, List.nil_append]
  | cons x xs ih =>
      have hx : closes (opened ++ [x]) = false := h [x] ⟨xs, rfl⟩ (List.cons_ne_nil x [])
      have hxs : ∀ piece, piece <+: xs → piece ≠ [] → closes (opened ++ [x] ++ piece) = false := by
        intro piece hpiece _
        rw [List.append_assoc]
        exact h (x :: piece) (List.cons_prefix_cons.mpr ⟨rfl, hpiece⟩) (List.cons_ne_nil x piece)
      rw [List.cons_append, segmentsFrom_of_open hx, ih hxs, List.append_assoc, List.singleton_append]

theorem segments_cons {segment : List α} (hne : segment ≠ []) (hcloses : closes segment = true)
    (hopen : ∀ piece, piece <+: segment → piece ≠ [] → piece ≠ segment → closes piece = false)
    (ys : List α) : segments closes (segment ++ ys) = segment :: segments closes ys := by
  obtain ⟨front, x, rfl⟩ := List.eq_nil_or_concat segment |>.resolve_left hne
  rw [List.concat_eq_append] at hcloses hopen ⊢
  have hfront : ∀ piece, piece <+: front → piece ≠ [] → closes ([] ++ piece) = false := by
    intro piece hpiece hnonempty
    refine hopen piece (hpiece.trans (List.prefix_append front [x])) hnonempty ?_
    rintro rfl
    have hlength := hpiece.length_le
    rw [List.length_append, List.length_singleton] at hlength
    omega
  have hlast : closes ([] ++ front ++ [x]) = true := hcloses
  rw [segments, List.append_assoc, segmentsFrom_open hfront, List.singleton_append,
    segmentsFrom_of_closes hlast, List.nil_append]

theorem segments_open {xs : List α}
    (h : ∀ piece, piece <+: xs → piece ≠ [] → closes piece = false) :
    segments closes xs = lastSegment xs := by
  have hopen := @segmentsFrom_open α closes [] xs h []
  rwa [List.append_nil, List.nil_append, segmentsFrom_nil] at hopen

/-! ## Segments of one length -/

end

def cutInto {α : Type} (n : Nat) (xs : List α) : List (List α) :=
  if _h : 0 < n ∧ xs ≠ [] then xs.take n :: cutInto n (xs.drop n) else []
termination_by xs.length
decreasing_by
  have hlength := List.length_pos_iff.mpr _h.2
  rw [List.length_drop]
  omega

section

variable {α : Type} {closes : List α → Bool} {opened : List α} {x : α}

theorem segments_of_length {n : Nat} (h : 0 < n) (xs : List α) :
    segments (fun segment => segment.length = n) xs = cutInto n xs := by
  fun_induction cutInto n xs with
  | case1 xs hxs ih =>
      rcases Nat.lt_or_ge xs.length n with hshort | hlong
      · have hopen : ∀ piece : List α, piece <+: xs → piece ≠ [] →
            decide (piece.length = n) = false := by
          intro piece hpiece _
          have hlength := hpiece.length_le
          exact decide_eq_false (by omega)
        have hdrop : xs.drop n = [] := List.drop_eq_nil_of_le (Nat.le_of_lt hshort)
        rw [segments_open hopen, hdrop, cutInto, dif_neg (by simp),
          List.take_of_length_le (Nat.le_of_lt hshort)]
        obtain ⟨x, xs, rfl⟩ := List.exists_cons_of_ne_nil hxs.2
        rfl
      · have hlength : (xs.take n).length = n := by
          rw [List.length_take]
          omega
        have hne : xs.take n ≠ [] := List.length_pos_iff.mp (by omega)
        have hopen : ∀ piece : List α, piece <+: xs.take n → piece ≠ [] → piece ≠ xs.take n →
            decide (piece.length = n) = false := by
          intro piece hpiece _ hproper
          refine decide_eq_false fun hpieceLength => hproper ?_
          exact hpiece.eq_of_length (hpieceLength.trans hlength.symm)
        have hsegments := segments_cons hne (decide_eq_true hlength) hopen (xs.drop n)
        rw [List.take_append_drop, ih] at hsegments
        exact hsegments
  | case2 xs hxs =>
      cases xs with
      | nil => rw [segments_nil]
      | cons x xs => exact absurd ⟨h, List.cons_ne_nil x xs⟩ hxs

/-! ## Starting again at a boundary -/

theorem segmentsFrom_eq_cons {xs segment : List α} {rest : List (List α)}
    (h : segmentsFrom closes opened xs = segment :: rest) :
    opened.length ≤ segment.length ∧
      rest = segments closes (xs.drop (segment.length - opened.length)) := by
  induction xs generalizing opened with
  | nil =>
      rw [segmentsFrom_nil] at h
      cases opened with
      | nil => cases h
      | cons x opened =>
          obtain ⟨rfl, rfl⟩ := List.cons.inj h
          simp
  | cons x xs ih =>
      have hlength : (opened ++ [x]).length = opened.length + 1 := by simp
      cases hx : closes (opened ++ [x]) with
      | true =>
          rw [segmentsFrom_of_closes hx] at h
          obtain ⟨rfl, rfl⟩ := List.cons.inj h
          simp
      | false =>
          rw [segmentsFrom_of_open hx] at h
          obtain ⟨hle, rfl⟩ := ih h
          refine ⟨by omega, ?_⟩
          have hdrop : segment.length - opened.length =
              (segment.length - (opened ++ [x]).length) + 1 := by omega
          rw [hdrop, List.drop_succ_cons]

/-- What follows a boundary is cut as if the input began there. -/
theorem segments_resume {xs : List α} {before after : List (List α)}
    (h : segments closes xs = before ++ after) :
    after = segments closes (xs.drop before.flatten.length) := by
  induction before generalizing xs with
  | nil => exact h.symm
  | cons segment before ih =>
      obtain ⟨-, hrest⟩ := segmentsFrom_eq_cons h
      rw [ih hrest.symm, List.drop_drop, List.flatten_cons, List.length_append]
      rfl

end

end AiArtifactStore.Foundation
