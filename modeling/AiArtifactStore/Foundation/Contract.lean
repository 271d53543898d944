import AiArtifactStore.Foundation.Stateful
import Mathlib.Data.List.Forall2

/-!
# Contracts of checked computations

A computation keeps a contract when it returns a good value or fails with an
allowed error.  The rules compute the weakest condition under which it does, also
for a computation over a state.
-/

namespace AiArtifactStore.Foundation

variable {ε ε' α β : Type} {allowed : ε → Prop} {good : α → Prop}

def Within (allowed : ε → Prop) (good : α → Prop) : Except ε α → Prop
  | .ok a => good a
  | .error e => allowed e

@[simp] theorem within_ok {a : α} : Within allowed good (.ok a) ↔ good a := Iff.rfl

@[simp] theorem within_error {e : ε} : Within allowed good (.error e) ↔ allowed e := Iff.rfl

theorem within_bind {x : Except ε α} {f : α → Except ε β} {good : β → Prop} :
    Within allowed good (x >>= f) ↔ Within allowed (fun a => Within allowed good (f a)) x := by
  cases x with
  | error e => rfl
  | ok a => rfl

theorem Within.of_ok {x : Except ε α} {a : α} (h : Within allowed good x) (hx : x = .ok a) :
    good a := by
  rwa [hx] at h

theorem within_mono {good' : α → Prop} {x : Except ε α} (hx : Within allowed good x)
    (h : ∀ a, good a → good' a) : Within allowed good' x := by
  cases x with
  | error e => exact hx
  | ok a => exact h a hx

theorem Within.imp {allowed' : ε → Prop} {good' : α → Prop} {x : Except ε α}
    (hx : Within allowed good x) (he : ∀ e, allowed e → allowed' e) (ha : ∀ a, good a → good' a) :
    Within allowed' good' x := by
  cases x with
  | error e => exact he e hx
  | ok a => exact ha a hx

theorem within_iff_of_allowed {x : Except ε α} (h : Within allowed (fun _ => True) x) :
    Within allowed good x ↔ ∀ a, x = .ok a → good a := by
  cases x with
  | error e => simpa using h
  | ok a => simp

theorem within_orFail {found : Option α} {e : ε} (h : allowed e) :
    Within allowed good (orFail found e) ↔ ∀ a, found = some a → good a := by
  cases found with
  | none => simp [h]
  | some a => simp

theorem within_orFail_escape {found : Option α} {e : ε} (h : ¬allowed e) :
    Within allowed good (orFail found e) ↔ ∃ a, found = some a ∧ good a := by
  cases found with
  | none => simp [h]
  | some a => simp

theorem within_failIf {condition : Prop} [Decidable condition] {e : ε} {good : Unit → Prop}
    (h : allowed e) :
    Within allowed good (failIf condition e) ↔ (¬condition → good ()) := by
  by_cases hcondition : condition
  · simp [failIf, hcondition, h]
  · simp [failIf, hcondition]

theorem within_mapError {x : Except ε' α} {translate : ε' → ε} (h : ∀ e, allowed (translate e)) :
    Within allowed good (x.mapError translate) ↔ ∀ a, x = .ok a → good a := by
  cases x with
  | error e => simp [h]
  | ok a => simp

theorem within_mapError_escape {x : Except ε' α} {translate : ε' → ε}
    (h : ∀ e, ¬allowed (translate e)) :
    Within allowed good (x.mapError translate) ↔ ∃ a, x = .ok a ∧ good a := by
  cases x with
  | error e => simp [h]
  | ok a => simp

theorem mapEach_eq_ok_iff {xs : List α} {f : α → Except ε β} {ys : List β} :
    mapEach xs f = .ok ys ↔ List.Forall₂ (fun x y => f x = .ok y) xs ys := by
  induction xs generalizing ys with
  | nil =>
      rw [List.forall₂_nil_left_iff, mapEach, Except.ok.injEq]
      exact eq_comm
  | cons x xs ih =>
      rw [List.forall₂_cons_left_iff]
      cases hx : f x with
      | error e => simp [mapEach, hx]
      | ok y =>
          cases hrest : mapEach xs f with
          | error e =>
              simp only [mapEach, hx, hrest, reduceCtorEq, false_iff, not_exists, not_and]
              intro z zs _ hzs
              rw [← ih, hrest] at hzs
              cases hzs
          | ok zs =>
              simp only [mapEach, hx, hrest, Except.ok.injEq]
              constructor
              · rintro rfl
                exact ⟨y, zs, rfl, ih.mp hrest, rfl⟩
              · rintro ⟨z, ws, rfl, hws, rfl⟩
                rw [← ih, hrest] at hws
                rw [Except.ok.inj hws]

theorem forall₂_mapEach_iff {xs : List α} {f : α → Except ε β} {ys : List β}
    {read : α → β → Prop} {fine : α → Prop} (h : mapEach xs f = .ok ys)
    (hread : ∀ x y, f x = .ok y → (read x y ↔ fine x)) :
    List.Forall₂ read xs ys ↔ ∀ x ∈ xs, fine x := by
  induction mapEach_eq_ok_iff.mp h with
  | nil => simp
  | cons hxy hrest ih =>
      rw [List.forall₂_cons, List.forall_mem_cons, hread _ _ hxy, ih (mapEach_eq_ok_iff.mpr hrest)]

/-- Every element is fine that only fine ones with a result precede. -/
def UpToFailure (ok fine : α → Prop) (xs : List α) : Prop :=
  ∀ front x back, xs = front ++ x :: back → (∀ y ∈ front, ok y) → fine x

theorem upToFailure_nil {ok fine : α → Prop} : UpToFailure ok fine [] := by
  intro front x back h
  cases front <;> cases h

theorem upToFailure_cons {ok fine : α → Prop} {x : α} {xs : List α} :
    UpToFailure ok fine (x :: xs) ↔ fine x ∧ (ok x → UpToFailure ok fine xs) := by
  constructor
  · intro h
    refine ⟨h [] x xs rfl (by simp), fun hx front y back hsplit hfront => ?_⟩
    exact h (x :: front) y back (by rw [hsplit]; rfl) (by simpa [hx] using hfront)
  · rintro ⟨hx, hxs⟩ front y back hsplit hfront
    cases front with
    | nil =>
        obtain ⟨rfl, -⟩ := List.cons.inj hsplit
        exact hx
    | cons z front =>
        obtain ⟨rfl, hrest⟩ := List.cons.inj hsplit
        exact hxs (hfront x (by simp)) front y back hrest fun w hw => hfront w (by simp [hw])

theorem upToFailure_of_forall {ok fine : α → Prop} {xs : List α} (h : ∀ x ∈ xs, fine x) :
    UpToFailure ok fine xs := by
  intro front x back hsplit _
  exact h x (by rw [hsplit]; simp)

theorem within_mapEach {xs : List α} {f : α → Except ε β} {good : List β → Prop} :
    Within allowed good (mapEach xs f) ↔
      UpToFailure (fun x => ∃ y, f x = .ok y) (fun x => Within allowed (fun _ => True) (f x)) xs ∧
        ∀ ys, mapEach xs f = .ok ys → good ys := by
  induction xs generalizing good with
  | nil => simp [mapEach, upToFailure_nil]
  | cons x xs ih =>
      rw [upToFailure_cons]
      cases hx : f x with
      | error e => simp [mapEach, hx]
      | ok y =>
          have hrest := @ih fun ys => good (y :: ys)
          cases hys : mapEach xs f with
          | error e =>
              rw [hys] at hrest
              simp only [mapEach, hx, hys, within_error, within_ok] at hrest ⊢
              simpa using hrest
          | ok ys =>
              rw [hys] at hrest
              simp only [mapEach, hx, hys, within_ok] at hrest ⊢
              simpa using hrest

theorem within_forEach {xs : List α} {check : α → Except ε Unit}
    (h : ∀ x ∈ xs, Within allowed (fun _ => True) (check x)) :
    Within allowed (fun _ => ∀ x ∈ xs, check x = .ok ()) (forEach xs check) := by
  cases hrun : forEach xs check with
  | ok u => exact forEach_eq_ok.mp hrun
  | error e =>
      induction xs with
      | nil => cases hrun
      | cons x xs ih =>
          cases hx : check x with
          | error e' =>
              rw [forEach, hx, Except.error.injEq] at hrun
              have hcheck := h x (by simp)
              rwa [hx, hrun] at hcheck
          | ok u =>
              rw [forEach, hx] at hrun
              exact ih (fun y hy => h y (by simp [hy])) hrun

theorem mapEach_eq_error {xs : List α} {f : α → Except ε β} {e : ε}
    (h : mapEach xs f = .error e) : ∃ x ∈ xs, f x = .error e := by
  induction xs with
  | nil => cases h
  | cons x xs ih =>
      cases hx : f x with
      | error e' =>
          simp only [mapEach, hx, Except.error.injEq] at h
          exact ⟨x, by simp, h ▸ hx⟩
      | ok y =>
          cases hrest : mapEach xs f with
          | error e' =>
              simp only [mapEach, hx, hrest, Except.error.injEq] at h
              obtain ⟨z, hz, hfail⟩ := ih (h ▸ hrest)
              exact ⟨z, by simp [hz], hfail⟩
          | ok ys => simp [mapEach, hx, hrest] at h

theorem within_mapEach_escape {xs : List α} {f : α → Except ε β} {good : List β → Prop}
    (h : ∀ x e, f x = .error e → ¬allowed e) :
    Within allowed good (mapEach xs f) ↔
      ∃ ys, List.Forall₂ (fun x y => f x = .ok y) xs ys ∧ good ys := by
  simp only [← mapEach_eq_ok_iff]
  cases hys : mapEach xs f with
  | error e =>
      obtain ⟨x, -, hfail⟩ := mapEach_eq_error hys
      simp [h x e hfail]
  | ok ys => simp

theorem forall_mapEach_ok {xs : List α} {f : α → Except ε β} {P : Prop} :
    (∀ ys, mapEach xs f = .ok ys → P) ↔ ((∀ x ∈ xs, ∃ y, f x = .ok y) → P) := by
  constructor
  · intro h hall
    obtain ⟨ys, hys⟩ := exists_mapEach_ok hall
    exact h ys hys
  · intro h ys hys
    refine h fun x hx => ?_
    obtain ⟨y, -, hy⟩ := mapEach_mem hys hx
    exact ⟨y, hy⟩

theorem exists_of_forall₂_left {R : α → β → Prop} {xs : List α} {ys : List β} {x : α}
    (h : List.Forall₂ R xs ys) (hx : x ∈ xs) : ∃ y ∈ ys, R x y := by
  induction h with
  | nil => cases hx
  | cons hxy _ ih =>
      rcases List.mem_cons.mp hx with rfl | hx
      · exact ⟨_, List.mem_cons_self .., hxy⟩
      · obtain ⟨y, hy, hxy⟩ := ih hx
        exact ⟨y, List.mem_cons_of_mem _ hy, hxy⟩

theorem exists_of_forall₂_right {R : α → β → Prop} {xs : List α} {ys : List β} {y : β}
    (h : List.Forall₂ R xs ys) (hy : y ∈ ys) : ∃ x ∈ xs, R x y :=
  exists_of_forall₂_left h.flip hy

/-! ## Computations that change a state -/

section

variable {σ : Type}

/-- The computation ends in a good result and state, or with an allowed error. -/
def Ends (allowed : ε → Prop) (good : α → σ → Prop) (m : Stateful σ ε α) (s : σ) : Prop :=
  Within allowed (fun a => good a (m s).2) (m s).1

end

end AiArtifactStore.Foundation
