import AiArtifactStore.Foundation.Checked
import Mathlib.Algebra.GroupWithZero.Nat

/-!
# Computations that change a state

A computation over a state returns or throws, and keeps the state it has reached
in both cases.  The rules invert a run that returned, and carry an invariant
through a run whichever way it ends.
-/

namespace AiArtifactStore.Foundation

def Stateful (σ ε α : Type) : Type := σ → Except ε α × σ

namespace Stateful

variable {σ ε α β : Type}

instance : Monad (Stateful σ ε) where
  pure a := fun s => (.ok a, s)
  bind m f := fun s =>
    match m s with
    | (.ok a, s') => f a s'
    | (.error e, s') => (.error e, s')

def throw (e : ε) : Stateful σ ε α := fun s => (.error e, s)

/-- A computation without a state. -/
def check (result : Except ε α) : Stateful σ ε α := fun s => (result, s)

def read (f : σ → α) : Stateful σ ε α := fun s => (.ok (f s), s)

def update (f : σ → σ) : Stateful σ ε Unit := fun s => (.ok (), f s)

/-- Continue a thrown exception with its handler, if it has one. -/
def catching (m : Stateful σ ε α) (handler : ε → Option (Stateful σ ε α)) : Stateful σ ε α :=
  fun s =>
    match m s with
    | (.ok a, s') => (.ok a, s')
    | (.error e, s') =>
        match handler e with
        | none => (.error e, s')
        | some handle => handle s'

/-- Run one computation for each element, in order. -/
def forEach (body : α → Stateful σ ε Unit) : List α → Stateful σ ε Unit
  | [] => pure ()
  | x :: xs => do
      body x
      forEach body xs

/-! ## Inversion -/

theorem pure_eq (a b : α) (s s' : σ) :
    (pure a : Stateful σ ε α) s = (.ok b, s') ↔ a = b ∧ s = s' := by
  simp [pure]

theorem bind_eq_ok {m : Stateful σ ε α} {f : α → Stateful σ ε β} {s s'' : σ} {b : β} :
    (m >>= f) s = (.ok b, s'') ↔ ∃ a s', m s = (.ok a, s') ∧ f a s' = (.ok b, s'') := by
  simp only [bind]
  cases h : m s with
  | mk result s' =>
      cases result with
      | error e => simp
      | ok a =>
          constructor
          · exact fun hf => ⟨a, s', rfl, hf⟩
          · rintro ⟨a', s₁, heq, hf⟩
            obtain ⟨ha, rfl⟩ := Prod.mk.inj heq
            obtain rfl := Except.ok.inj ha
            exact hf

theorem bind_eq {m : Stateful σ ε α} {f : α → Stateful σ ε β} {s s'' : σ}
    {result : Except ε β} (h : (m >>= f) s = (result, s'')) :
    (∃ e, m s = (.error e, s'') ∧ result = .error e) ∨
      ∃ a s', m s = (.ok a, s') ∧ f a s' = (result, s'') := by
  simp only [bind] at h
  cases hm : m s with
  | mk first s' =>
      rw [hm] at h
      cases first with
      | error e =>
          obtain ⟨rfl, rfl⟩ := Prod.mk.inj h
          exact .inl ⟨e, rfl, rfl⟩
      | ok a => exact .inr ⟨a, s', rfl, h⟩

theorem bind_of_ok {m : Stateful σ ε α} {f : α → Stateful σ ε β} {s s' : σ} {a : α}
    (h : m s = (.ok a, s')) : (m >>= f) s = f a s' := by
  simp only [bind, h]

theorem bind_of_error {m : Stateful σ ε α} {f : α → Stateful σ ε β} {s s' : σ} {e : ε}
    (h : m s = (.error e, s')) : (m >>= f) s = (.error e, s') := by
  simp only [bind, h]

theorem bind_assoc {γ : Type} {m : Stateful σ ε α} {f : α → Stateful σ ε β}
    {g : β → Stateful σ ε γ} : (m >>= f) >>= g = m >>= fun a => f a >>= g := by
  funext s
  simp only [bind]
  cases m s with
  | mk result s' => cases result <;> rfl

theorem bind_congr {m : Stateful σ ε α} {f g : α → Stateful σ ε β} (h : ∀ a, f a = g a) :
    m >>= f = m >>= g := by
  rw [funext h]

theorem update_bind {f : σ → σ} {g : Unit → Stateful σ ε β} {s : σ} :
    (update f >>= g) s = g () (f s) := rfl

theorem read_bind {f : σ → α} {g : α → Stateful σ ε β} {s : σ} :
    (read f >>= g) s = g (f s) s := rfl

theorem check_eq_ok {result : Except ε α} {s s' : σ} {a : α} :
    check result s = (.ok a, s') ↔ result = .ok a ∧ s = s' := by
  simp [check]

theorem read_eq_ok {f : σ → α} {s s' : σ} {a : α} :
    (read f : Stateful σ ε α) s = (.ok a, s') ↔ f s = a ∧ s = s' := by
  simp [read]

theorem update_eq_ok {f : σ → σ} {s s' : σ} {u : Unit} :
    (update f : Stateful σ ε Unit) s = (.ok u, s') ↔ s' = f s := by
  simp [update, eq_comm]

/-- A loop whose iterations each relate two states at a cost, and establish a fact about
their element; the relation keeps these facts and what the iterations need. -/
theorem forEach_spec {R : Nat → σ → σ → Prop} {I : σ → Prop} {P : α → σ → Prop} {cost : α → Nat}
    {body : α → Stateful σ ε Unit} {xs : List α} (hrefl : ∀ s, R 0 s s)
    (htrans : ∀ k l a b c, R k a b → R l b c → R (k + l) a c)
    (hinv : ∀ k s s', R k s s' → I s → I s') (hkeep : ∀ x k s s', R k s s' → P x s → P x s')
    (hbody : ∀ x ∈ xs, ∀ s s', I s → body x s = (.ok (), s') → R (cost x) s s' ∧ P x s')
    {s s' : σ} (hs : I s) (h : forEach body xs s = (.ok (), s')) :
    R (xs.map cost).sum s s' ∧ ∀ x ∈ xs, P x s' := by
  induction xs generalizing s with
  | nil =>
      obtain ⟨-, rfl⟩ := (pure_eq _ _ _ _).mp h
      exact ⟨hrefl s, by simp⟩
  | cons x xs ih =>
      obtain ⟨u, s₁, hx, hrest⟩ := bind_eq_ok.mp h
      obtain ⟨hfirst, hpx⟩ := hbody x (by simp) s s₁ hs hx
      obtain ⟨hlater, hall⟩ :=
        ih (fun y hy => hbody y (by simp [hy])) (hinv _ _ _ hfirst hs) hrest
      rw [List.map_cons, List.sum_cons]
      refine ⟨htrans _ _ _ _ _ hfirst hlater, fun y hy => ?_⟩
      rcases List.mem_cons.mp hy with rfl | hy
      · exact hkeep y _ _ _ hlater hpx
      · exact hall y hy

/-! ## Invariants -/

/-- Whichever way the computation ends, it keeps the property of its state. -/
def Preserves (I : σ → Prop) (m : Stateful σ ε α) : Prop := ∀ s, I s → I (m s).2

variable {I : σ → Prop} {m : Stateful σ ε α}

theorem Preserves.state {s s' : σ} {result : Except ε α} (hm : Preserves I m) (hs : I s)
    (h : m s = (result, s')) : I s' := by
  have hkept := hm s hs
  rwa [h] at hkept

theorem Preserves.pure (a : α) : Preserves I (Pure.pure a : Stateful σ ε α) := fun _ h => h

theorem Preserves.throw (e : ε) : Preserves I (throw e : Stateful σ ε α) := fun _ h => h

theorem Preserves.check (result : Except ε α) : Preserves I (Stateful.check result : Stateful σ ε α) :=
  fun _ h => h

theorem Preserves.read (f : σ → α) : Preserves I (Stateful.read f : Stateful σ ε α) := fun _ h => h

theorem Preserves.update {f : σ → σ} (h : ∀ s, I s → I (f s)) :
    Preserves I (Stateful.update f : Stateful σ ε Unit) := h

theorem Preserves.bind {f : α → Stateful σ ε β} (hm : Preserves I m)
    (hf : ∀ a, Preserves I (f a)) : Preserves I (m >>= f) := by
  intro s hs
  have hfirst := hm s hs
  simp only [Bind.bind]
  cases h : m s with
  | mk result s' =>
      rw [h] at hfirst
      cases result with
      | error e => exact hfirst
      | ok a => exact hf a s' hfirst

theorem Preserves.catching {handler : ε → Option (Stateful σ ε α)} (hm : Preserves I m)
    (hhandler : ∀ e handle, handler e = some handle → Preserves I handle) :
    Preserves I (Stateful.catching m handler) := by
  intro s hs
  have hfirst := hm s hs
  simp only [Stateful.catching]
  cases h : m s with
  | mk result s' =>
      rw [h] at hfirst
      cases result with
      | ok a => exact hfirst
      | error e =>
          cases hhandle : handler e with
          | none => simpa only [hhandle] using hfirst
          | some handle => simpa only [hhandle] using hhandler e handle hhandle s' hfirst

theorem Preserves.forEach {body : α → Stateful σ ε Unit} {xs : List α}
    (h : ∀ x ∈ xs, Preserves I (body x)) : Preserves I (Stateful.forEach body xs) := by
  induction xs with
  | nil => exact .pure ()
  | cons x xs ih => exact (h x (by simp)).bind fun _ => ih fun y hy => h y (by simp [hy])

end Stateful

end AiArtifactStore.Foundation
