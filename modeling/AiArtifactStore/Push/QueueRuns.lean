import AiArtifactStore.Foundation.Transition
import AiArtifactStore.Push.Queue
import Mathlib.Logic.Function.Basic

/-!
# Producers and consumers of the upload queue

Any number of threads call `push` and `pop` of one queue, and it is closed or cancelled at
any time.  A call waits until its guard holds; a step is one critical section.
-/

namespace AiArtifactStore.Push

open AiArtifactStore.Foundation
open Relation

variable {Thread α : Type}

inductive QueueCall (α : Type) where
  | push (item : α)
  | pop
  deriving DecidableEq, Repr

inductive QueueEvent (α : Type) where
  | pushed (item : α) (accepted : Bool)
  | popped (result : Option α)
  | closed
  | cancelled
  deriving DecidableEq, Repr

namespace QueueCall

def guard (q : BoundedQueue α) : QueueCall α → Bool
  | .push _ => q.cancelled || q.closed || decide (q.items.length < q.capacity)
  | .pop => q.cancelled || q.closed || !q.items.isEmpty

theorem guard_push_iff {q : BoundedQueue α} {item : α} :
    guard q (.push item) = true ↔ ∃ result, q.push item = some result := by
  rw [guard, BoundedQueue.push]
  split
  case isTrue hstop => rcases hstop with h | h <;> simp [h]
  case isFalse hstop =>
    rw [not_or, Bool.not_eq_true, Bool.not_eq_true] at hstop
    split
    case isTrue hroom => simp [hroom]
    case isFalse hroom => simp [hstop.1, hstop.2, hroom]

theorem guard_pop_iff {q : BoundedQueue α} :
    guard q .pop = true ↔ ∃ result, q.pop = some result := by
  rw [guard, BoundedQueue.pop]
  split
  case h_1 hitems =>
    split
    case isTrue hstop => rcases hstop with h | h <;> simp [h]
    case isFalse hstop =>
      rw [not_or, Bool.not_eq_true, Bool.not_eq_true] at hstop
      simp [hstop.1, hstop.2, hitems]
  case h_2 first rest hitems => simp [hitems]

theorem guard_of_closed {q : BoundedQueue α} (call : QueueCall α)
    (h : q.closed = true ∨ q.cancelled = true) : guard q call = true := by
  cases call <;> rcases h with h | h <;> simp [guard, h]

end QueueCall

/-! ## Runs -/

structure QueueState (Thread α : Type) where
  queue : BoundedQueue α
  waiting : Thread → Option (QueueCall α)
  events : List (QueueEvent α)

namespace QueueState

def initial (capacity : Nat) (h : 0 < capacity) : QueueState Thread α :=
  ⟨.make capacity h, fun _ => none, []⟩

end QueueState

inductive QueueStep [DecidableEq Thread] :
    QueueState Thread α → QueueState Thread α → Prop
  | call {s thread call} (hidle : s.waiting thread = none) :
      QueueStep s { s with waiting := Function.update s.waiting thread (some call) }
  | push {s thread item accepted queue} (hcall : s.waiting thread = some (.push item))
      (hpush : s.queue.push item = some (accepted, queue)) :
      QueueStep s
        ⟨queue, Function.update s.waiting thread none, s.events ++ [.pushed item accepted]⟩
  | pop {s thread result queue} (hcall : s.waiting thread = some .pop)
      (hpop : s.queue.pop = some (result, queue)) :
      QueueStep s ⟨queue, Function.update s.waiting thread none, s.events ++ [.popped result]⟩
  | close {s} : QueueStep s { s with queue := s.queue.close, events := s.events ++ [.closed] }
  | cancel {s} : QueueStep s { s with queue := s.queue.cancel, events := s.events ++ [.cancelled] }

/-! ## Histories -/

def acceptedItems (events : List (QueueEvent α)) : List α :=
  events.filterMap fun
    | .pushed item true => some item
    | _ => none

def poppedItems (events : List (QueueEvent α)) : List α :=
  events.filterMap fun
    | .popped result => result
    | _ => none

/-- What an event says of the events before it. -/
def QueueRule (before : List (QueueEvent α)) : QueueEvent α → Prop
  | .pushed _ accepted =>
      accepted = true → QueueEvent.closed ∉ before ∧ QueueEvent.cancelled ∉ before
  | .popped (some _) => QueueEvent.cancelled ∉ before
  | .popped none => QueueEvent.cancelled ∉ before →
      QueueEvent.closed ∈ before ∧ poppedItems before = acceptedItems before
  | _ => True

section

variable {events : List (QueueEvent α)}

@[simp] theorem acceptedItems_concat (event : QueueEvent α) :
    acceptedItems (events ++ [event]) = acceptedItems events ++ acceptedItems [event] :=
  List.filterMap_append

@[simp] theorem poppedItems_concat (event : QueueEvent α) :
    poppedItems (events ++ [event]) = poppedItems events ++ poppedItems [event] :=
  List.filterMap_append

end

structure QueueState.Invariant (capacity : Nat) (s : QueueState Thread α) : Prop where
  capacity_eq : s.queue.capacity = capacity
  closed_iff : s.queue.closed = true ↔
    QueueEvent.closed ∈ s.events ∨ QueueEvent.cancelled ∈ s.events
  cancelled_iff : s.queue.cancelled = true ↔ QueueEvent.cancelled ∈ s.events
  conserved : QueueEvent.cancelled ∉ s.events →
    acceptedItems s.events = poppedItems s.events ++ s.queue.items
  inOrder : poppedItems s.events <+: acceptedItems s.events
  follows : Follows QueueRule s.events

namespace QueueState

variable {capacity : Nat} {s s' : QueueState Thread α}

theorem invariant_initial (h : 0 < capacity) :
    (QueueState.initial capacity h : QueueState Thread α).Invariant capacity where
  capacity_eq := rfl
  closed_iff := by simp [initial, BoundedQueue.make]
  cancelled_iff := by simp [initial, BoundedQueue.make]
  conserved _ := rfl
  inOrder := List.prefix_rfl
  follows := follows_nil _

theorem Invariant.open (h : s.Invariant capacity) (hopen : s.queue.closed = false) :
    QueueEvent.closed ∉ s.events ∧ QueueEvent.cancelled ∉ s.events := by
  rw [← not_or, ← h.closed_iff, hopen]
  exact Bool.false_ne_true

theorem Invariant.push {item : α} {accepted : Bool} {queue : BoundedQueue α}
    {waiting : Thread → Option (QueueCall α)} (h : s.Invariant capacity)
    (hpush : s.queue.push item = some (accepted, queue)) :
    Invariant capacity ⟨queue, waiting, s.events ++ [.pushed item accepted]⟩ := by
  have hcapacity := (BoundedQueue.push_capacity hpush).trans h.capacity_eq
  cases accepted with
  | false =>
      obtain ⟨rfl, -⟩ := BoundedQueue.push_refused hpush
      exact
        { capacity_eq := hcapacity
          closed_iff := by simpa using h.closed_iff
          cancelled_iff := by simpa using h.cancelled_iff
          conserved := fun hrun => by
            simpa [acceptedItems, poppedItems] using h.conserved (by simpa using hrun)
          inOrder := by simpa [acceptedItems, poppedItems] using h.inOrder
          follows := h.follows.concat nofun }
  | true =>
      obtain ⟨hopen, hitems, hclosed, hcancelled⟩ := BoundedQueue.push_accepted hpush
      have hrun := h.open hopen
      have hconserved := h.conserved hrun.2
      have haccepted : acceptedItems (s.events ++ [.pushed item true]) =
          poppedItems s.events ++ queue.items := by
        rw [acceptedItems_concat, hconserved, hitems, List.append_assoc]
        rfl
      have hpopped : poppedItems (s.events ++ [.pushed item true]) = poppedItems s.events := by
        rw [poppedItems_concat]
        exact List.append_nil _
      exact
        { capacity_eq := hcapacity
          closed_iff := by rw [hclosed, ← hopen, h.closed_iff]; simp
          cancelled_iff := by rw [hcancelled, h.cancelled_iff]; simp
          conserved := fun _ => by rw [haccepted, hpopped]
          inOrder := by rw [haccepted, hpopped]; exact List.prefix_append _ _
          follows := h.follows.concat fun _ => hrun }

theorem Invariant.not_cancelled (h : s.Invariant capacity) (hitems : s.queue.items ≠ []) :
    QueueEvent.cancelled ∉ s.events := fun hcancelled =>
  hitems (s.queue.cancelledClosed (h.cancelled_iff.mpr hcancelled)).2

theorem Invariant.pop {result : Option α} {queue : BoundedQueue α}
    {waiting : Thread → Option (QueueCall α)} (h : s.Invariant capacity)
    (hpop : s.queue.pop = some (result, queue)) :
    Invariant capacity ⟨queue, waiting, s.events ++ [.popped result]⟩ := by
  have hcapacity := (BoundedQueue.pop_capacity hpop).trans h.capacity_eq
  have haccepted : acceptedItems (s.events ++ [.popped result]) = acceptedItems s.events := by
    rw [acceptedItems_concat]
    exact List.append_nil _
  cases result with
  | none =>
      obtain ⟨rfl, hitems, hclosed⟩ := BoundedQueue.pop_none hpop
      have hpopped : poppedItems (s.events ++ [.popped none]) = poppedItems s.events := by
        rw [poppedItems_concat]
        exact List.append_nil _
      have hrule : QueueRule s.events (.popped none) := fun hrun => by
        refine ⟨(h.closed_iff.mp hclosed).resolve_right hrun, ?_⟩
        rw [h.conserved hrun, hitems, List.append_nil]
      exact
        { capacity_eq := hcapacity
          closed_iff := by simpa using h.closed_iff
          cancelled_iff := by simpa using h.cancelled_iff
          conserved := fun hrun => by
            rw [haccepted, hpopped]
            exact h.conserved (by simpa using hrun)
          inOrder := by
            rw [haccepted, hpopped]
            exact h.inOrder
          follows := h.follows.concat hrule }
  | some item =>
      obtain ⟨hitems, hclosed, hcancelled⟩ := BoundedQueue.pop_some hpop
      have hrun := h.not_cancelled (by rw [hitems]; exact List.cons_ne_nil _ _)
      have hpopped : poppedItems (s.events ++ [.popped (some item)]) =
          poppedItems s.events ++ [item] := poppedItems_concat _
      have hconserved : acceptedItems (s.events ++ [.popped (some item)]) =
          poppedItems (s.events ++ [.popped (some item)]) ++ queue.items := by
        rw [haccepted, hpopped, h.conserved hrun, hitems, List.append_assoc, List.singleton_append]
      exact
        { capacity_eq := hcapacity
          closed_iff := by simpa [hclosed] using h.closed_iff
          cancelled_iff := by simpa [hcancelled] using h.cancelled_iff
          conserved := fun _ => hconserved
          inOrder := by
            rw [hconserved]
            exact List.prefix_append _ _
          follows := h.follows.concat hrun }

theorem invariant_step [DecidableEq Thread] (h : QueueStep s s') (hs : s.Invariant capacity) :
    s'.Invariant capacity := by
  cases h with
  | call =>
      exact ⟨hs.capacity_eq, hs.closed_iff, hs.cancelled_iff, hs.conserved, hs.inOrder, hs.follows⟩
  | push _ hpush => exact hs.push hpush
  | pop _ hpop => exact hs.pop hpop
  | close =>
      exact
        { capacity_eq := hs.capacity_eq
          closed_iff := by simp
          cancelled_iff := by simpa using hs.cancelled_iff
          conserved := fun hrun => by
            simpa [acceptedItems, poppedItems] using hs.conserved (by simpa using hrun)
          inOrder := by simpa [acceptedItems, poppedItems] using hs.inOrder
          follows := hs.follows.concat trivial }
  | cancel =>
      exact
        { capacity_eq := hs.capacity_eq
          closed_iff := iff_of_true rfl (.inr (by simp))
          cancelled_iff := iff_of_true rfl (by simp)
          conserved := fun hrun => absurd (by simp) hrun
          inOrder := by simpa [acceptedItems, poppedItems] using hs.inOrder
          follows := hs.follows.concat trivial }

end QueueState

structure QueueFaithful (capacity : Nat) (s : QueueState Thread α) : Prop where
  inOrder : poppedItems s.events <+: acceptedItems s.events
  complete : QueueEvent.cancelled ∉ s.events →
    acceptedItems s.events = poppedItems s.events ++ s.queue.items
  bounded : s.queue.items.length ≤ capacity
  follows : Follows QueueRule s.events
  awake : QueueEvent.closed ∈ s.events ∨ QueueEvent.cancelled ∈ s.events →
    ∀ thread call, s.waiting thread = some call → call.guard s.queue = true

theorem queue_faithful [DecidableEq Thread] {capacity : Nat} (hcapacity : 0 < capacity)
    {s : QueueState Thread α} (h : ReflTransGen QueueStep (.initial capacity hcapacity) s) :
    QueueFaithful capacity s := by
  have hinvariant := invariant_of_step (P := QueueState.Invariant capacity)
    (fun _ _ => QueueState.invariant_step) h (QueueState.invariant_initial hcapacity)
  exact
    { inOrder := hinvariant.inOrder
      complete := hinvariant.conserved
      bounded := hinvariant.capacity_eq ▸ s.queue.bounded
      follows := hinvariant.follows
      awake := fun hstopped _ call _ =>
        call.guard_of_closed (.inl (hinvariant.closed_iff.mpr hstopped)) }

theorem stopped_calls_return [DecidableEq Thread] {capacity : Nat} {s : QueueState Thread α}
    (hs : s.Invariant capacity) (hstopped : QueueEvent.closed ∈ s.events ∨
      QueueEvent.cancelled ∈ s.events) {thread : Thread} {call : QueueCall α}
    (hcall : s.waiting thread = some call) :
    ∃ s', QueueStep s s' ∧ s'.waiting thread = none := by
  have hguard := call.guard_of_closed (.inl (hs.closed_iff.mpr hstopped))
  cases call with
  | push item =>
      obtain ⟨⟨accepted, queue⟩, hpush⟩ := QueueCall.guard_push_iff.mp hguard
      exact ⟨_, .push hcall hpush, Function.update_self ..⟩
  | pop =>
      obtain ⟨⟨result, queue⟩, hpop⟩ := QueueCall.guard_pop_iff.mp hguard
      exact ⟨_, .pop hcall hpop, Function.update_self ..⟩

/-- Two threads: an item passes through a queue of one place, and the queue is closed. -/
theorem queue_faithful_sample : ∃ s : QueueState Bool Nat, s.events =
      [.pushed 7 true, .popped (some 7), .closed, .popped none] ∧ QueueFaithful 1 s := by
  have hpushed : ReflTransGen QueueStep (QueueState.initial 1 Nat.one_pos : QueueState Bool Nat) _ :=
    (ReflTransGen.single (@QueueStep.call _ _ _ _ true (.push 7) rfl)).tail
      (@QueueStep.push _ _ _ _ true 7 _ _ rfl rfl)
  have hpopped := (hpushed.tail (@QueueStep.call _ _ _ _ false .pop rfl)).tail
    (@QueueStep.pop _ _ _ _ false _ _ rfl rfl)
  have hclosed := (hpopped.tail .close).tail (@QueueStep.call _ _ _ _ false .pop rfl)
  have hempty := hclosed.tail (@QueueStep.pop _ _ _ _ false _ _ rfl rfl)
  exact ⟨_, rfl, queue_faithful Nat.one_pos hempty⟩

end AiArtifactStore.Push
