import Mathlib.Logic.Basic

/-!
# The upload queue

`BoundedQueue`: each operation is one critical section.  An operation that would
wait has no result.
-/

namespace AiArtifactStore.Push

variable {α : Type}

/-- The items never exceed the capacity, and a cancelled queue is closed and empty. -/
structure BoundedQueue (α : Type) where
  capacity : Nat
  items : List α
  closed : Bool
  cancelled : Bool
  capacityPos : 0 < capacity
  bounded : items.length ≤ capacity
  cancelledClosed : cancelled = true → closed = true ∧ items = []
  deriving DecidableEq

namespace BoundedQueue

def make (capacity : Nat) (h : 0 < capacity) : BoundedQueue α :=
  ⟨capacity, [], false, false, h, Nat.zero_le _, fun h => by cases h⟩

/-- `push`: whether the item was accepted. -/
def push (q : BoundedQueue α) (item : α) : Option (Bool × BoundedQueue α) :=
  if hstop : q.cancelled = true ∨ q.closed = true then some (false, q)
  else if h : q.items.length < q.capacity then
    some (true,
      { q with
        items := q.items ++ [item]
        bounded := by
          rw [List.length_append, List.length_singleton]
          exact h
        cancelledClosed := fun hcancelled => absurd (.inl hcancelled) hstop })
  else none

def pop (q : BoundedQueue α) : Option (Option α × BoundedQueue α) :=
  match h : q.items with
  | [] => if q.cancelled = true ∨ q.closed = true then some (none, q) else none
  | item :: rest =>
      some (some item,
        { q with
          items := rest
          bounded := by
            have hbounded := q.bounded
            rw [h] at hbounded
            exact Nat.le_of_succ_le hbounded
          cancelledClosed := fun hcancelled => by
            have hempty := (q.cancelledClosed hcancelled).2
            rw [h] at hempty
            cases hempty })

def close (q : BoundedQueue α) : BoundedQueue α :=
  { q with closed := true, cancelledClosed := fun h => ⟨rfl, (q.cancelledClosed h).2⟩ }

def cancel (q : BoundedQueue α) : BoundedQueue α :=
  { q with
    cancelled := true
    closed := true
    items := []
    bounded := Nat.zero_le _
    cancelledClosed := fun _ => ⟨rfl, rfl⟩ }

variable {q q' : BoundedQueue α} {item : α}

@[simp] theorem cancel_cancelled : q.cancel.cancelled = true := rfl

@[simp] theorem close_items : q.close.items = q.items := rfl

@[simp] theorem close_closed : q.close.closed = true := rfl

@[simp] theorem close_cancelled : q.close.cancelled = q.cancelled := rfl

theorem push_accepted (h : q.push item = some (true, q')) :
    q.closed = false ∧ q'.items = q.items ++ [item] ∧ q'.closed = false ∧
      q'.cancelled = q.cancelled := by
  unfold push at h
  split at h
  · simp at h
  · rename_i hstop
    split at h
    · obtain rfl := (Prod.mk.inj (Option.some.inj h)).2
      have hclosed : q.closed = false := by
        cases hq : q.closed with
        | false => rfl
        | true => exact absurd (.inr hq) hstop
      exact ⟨hclosed, rfl, hclosed, rfl⟩
    · cases h

theorem push_refused (h : q.push item = some (false, q')) : q' = q ∧ q.closed = true := by
  unfold push at h
  split at h
  · rename_i hstop
    refine ⟨(Prod.mk.inj (Option.some.inj h)).2.symm, ?_⟩
    rcases hstop with hcancelled | hclosed
    · exact (q.cancelledClosed hcancelled).1
    · exact hclosed
  · split at h
    · simp at h
    · cases h

theorem push_capacity {accepted : Bool} (h : q.push item = some (accepted, q')) :
    q'.capacity = q.capacity := by
  unfold push at h
  split at h
  · rw [(Prod.mk.inj (Option.some.inj h)).2]
  · split at h
    · rw [← (Prod.mk.inj (Option.some.inj h)).2]
    · cases h

theorem pop_capacity {result : Option α} (h : q.pop = some (result, q')) :
    q'.capacity = q.capacity := by
  unfold pop at h
  split at h
  · split at h
    · rw [(Prod.mk.inj (Option.some.inj h)).2]
    · cases h
  · rw [← (Prod.mk.inj (Option.some.inj h)).2]

theorem pop_some (h : q.pop = some (some item, q')) :
    q.items = item :: q'.items ∧ q'.closed = q.closed ∧ q'.cancelled = q.cancelled := by
  unfold pop at h
  split at h
  · split at h
    · cases h
    · cases h
  · rename_i first rest hitems
    obtain ⟨hfirst, hrest⟩ := Prod.mk.inj (Option.some.inj h)
    obtain rfl := Option.some.inj hfirst
    subst hrest
    exact ⟨hitems, rfl, rfl⟩

theorem pop_none (h : q.pop = some (none, q')) : q' = q ∧ q.items = [] ∧ q.closed = true := by
  unfold pop at h
  split at h
  · rename_i hitems
    split at h
    · rename_i hstop
      obtain rfl := (Prod.mk.inj (Option.some.inj h)).2
      refine ⟨rfl, hitems, ?_⟩
      rcases hstop with hcancelled | hclosed
      · exact (q.cancelledClosed hcancelled).1
      · exact hclosed
    · cases h
  · simp at h

end BoundedQueue

end AiArtifactStore.Push
