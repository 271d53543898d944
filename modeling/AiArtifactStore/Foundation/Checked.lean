import Mathlib.Logic.Basic

/-!
# Checked computations

Sequencing of `Except` computations: a check that fails with a given error, a
loop of checks over a list, and the inversion of a successful sequence into
its successful parts.
-/

namespace AiArtifactStore.Foundation

variable {ε α β : Type}

def failIf (condition : Prop) [Decidable condition] (e : ε) : Except ε Unit :=
  if condition then .error e else .ok ()

/-- Continue with the value, or fail with `e` when there is none. -/
def orFail (found : Option α) (e : ε) : Except ε α :=
  match found with
  | some value => .ok value
  | none => .error e

/-- Run one check for each element, in order. -/
def forEach (xs : List α) (check : α → Except ε Unit) : Except ε Unit :=
  match xs with
  | [] => .ok ()
  | x :: xs =>
      match check x with
      | .error e => .error e
      | .ok () => forEach xs check

/-- Thread a state through one fallible update for each element, in order. -/
def foldEach (xs : List α) (state : β) (update : β → α → Except ε β) : Except ε β :=
  match xs with
  | [] => .ok state
  | x :: xs =>
      match update state x with
      | .error e => .error e
      | .ok next => foldEach xs next update

/-- Collect one fallible result for each element, in order. -/
def mapEach (xs : List α) (f : α → Except ε β) : Except ε (List β) :=
  match xs with
  | [] => .ok []
  | x :: xs =>
      match f x with
      | .error e => .error e
      | .ok y =>
          match mapEach xs f with
          | .error e => .error e
          | .ok ys => .ok (y :: ys)

theorem bind_eq_ok {x : Except ε α} {f : α → Except ε β} {b : β} :
    (x >>= f) = .ok b ↔ ∃ a, x = .ok a ∧ f a = .ok b := by
  cases x with
  | error e => simp [bind, Except.bind]
  | ok a => simp [bind, Except.bind]

theorem bind_congr_ok {x : Except ε α} {f g : α → Except ε β}
    (h : ∀ a, x = .ok a → f a = g a) : (x >>= f) = (x >>= g) := by
  cases x with
  | error e => rfl
  | ok a => exact h a rfl

theorem exists_unit {p : Unit → Prop} : (∃ u, p u) ↔ p () :=
  ⟨fun ⟨(), h⟩ => h, fun h => ⟨(), h⟩⟩

@[simp] theorem ok_bind (a : α) (f : α → Except ε β) :
    ((.ok a : Except ε α) >>= f) = f a := rfl

@[simp] theorem error_bind (e : ε) (f : α → Except ε β) :
    ((.error e : Except ε α) >>= f) = .error e := rfl

@[simp] theorem failIf_eq_ok {condition : Prop} [Decidable condition] {e : ε} {u : Unit} :
    failIf condition e = .ok u ↔ ¬condition := by
  by_cases h : condition <;> simp [failIf, h]

theorem failIf_of_true {condition : Prop} [Decidable condition] {e : ε} (h : condition) :
    failIf condition e = .error e := by
  simp [failIf, h]

theorem failIf_of_false {condition : Prop} [Decidable condition] {e : ε} (h : ¬condition) :
    failIf condition e = .ok () := by
  simp [failIf, h]

@[simp] theorem orFail_eq_ok {found : Option α} {e : ε} {a : α} :
    orFail found e = .ok a ↔ found = some a := by
  cases found <;> simp [orFail]

@[simp] theorem orFail_none {e : ε} : orFail (none : Option α) e = .error e := rfl

@[simp] theorem orFail_some {a : α} {e : ε} : orFail (some a) e = .ok a := rfl

@[simp] theorem mapError_error {ε' : Type} {e : ε'} {translate : ε' → ε} :
    (Except.error e : Except ε' α).mapError translate = .error (translate e) := rfl

@[simp] theorem mapError_ok {ε' : Type} {a : α} {translate : ε' → ε} :
    (Except.ok a : Except ε' α).mapError translate = .ok a := rfl

@[simp] theorem mapError_eq_ok {ε' : Type} {x : Except ε' α} {translate : ε' → ε} {a : α} :
    x.mapError translate = .ok a ↔ x = .ok a := by
  cases x <;> simp

@[simp] theorem map_eq_ok {x : Except ε α} {f : α → β} {b : β} :
    x.map f = .ok b ↔ ∃ a, x = .ok a ∧ f a = b := by
  cases x <;> simp [Except.map]

theorem map_eq_error {x : Except ε α} {f : α → β} {e : ε} : x.map f = .error e ↔ x = .error e := by
  cases x <;> simp [Except.map]

theorem eq_ok_of_toOption {result : Except ε α} {a : α} (h : result.toOption = some a) :
    result = .ok a := by
  cases result with
  | error e => cases h
  | ok b => exact congrArg _ (Option.some.inj h)

theorem forEach_eq_ok {xs : List α} {check : α → Except ε Unit} {u : Unit} :
    forEach xs check = .ok u ↔ ∀ x ∈ xs, check x = .ok () := by
  induction xs with
  | nil => simp [forEach]
  | cons x xs ih =>
      cases h : check x with
      | error e => simp [forEach, h]
      | ok v => simp [forEach, h, ih]

theorem foldEach_invariant {P : β → Prop} {update : β → α → Except ε β} {xs : List α}
    {state final : β} (hrun : foldEach xs state update = .ok final) (hinit : P state)
    (hstep : ∀ s x s', x ∈ xs → update s x = .ok s' → P s → P s') : P final := by
  induction xs generalizing state with
  | nil =>
      cases hrun
      exact hinit
  | cons x xs ih =>
      cases h : update state x with
      | error e => simp [foldEach, h] at hrun
      | ok next =>
          simp only [foldEach, h] at hrun
          exact ih hrun (hstep state x next (by simp) h hinit)
            (fun s y s' hy => hstep s y s' (by simp [hy]))

theorem foldEach_eq_ok_iff {update : β → α → Except ε β} {xs : List α} {state final : β} :
    foldEach xs state update = .ok final ↔
      xs.foldlM (fun state x => (update state x).toOption) state = some final := by
  induction xs generalizing state with
  | nil => simp [foldEach]
  | cons x xs ih =>
      rw [List.foldlM_cons]
      cases h : update state x with
      | error e => simp [foldEach, h, Except.toOption]
      | ok next => simp only [foldEach, h, ih, Except.toOption, Option.bind_eq_bind, Option.bind_some]

theorem mem_of_mapEach {xs : List α} {f : α → Except ε β} {ys : List β} {y : β}
    (h : mapEach xs f = .ok ys) (hy : y ∈ ys) : ∃ x ∈ xs, f x = .ok y := by
  induction xs generalizing ys with
  | nil =>
      cases h
      simp at hy
  | cons x xs ih =>
      cases hx : f x with
      | error e => simp [mapEach, hx] at h
      | ok z =>
          cases hrest : mapEach xs f with
          | error e => simp [mapEach, hx, hrest] at h
          | ok zs =>
              simp only [mapEach, hx, hrest, Except.ok.injEq] at h
              subst h
              rcases List.mem_cons.mp hy with rfl | hy
              · exact ⟨x, by simp, hx⟩
              · obtain ⟨w, hw, hf⟩ := ih hrest hy
                exact ⟨w, by simp [hw], hf⟩

theorem mapEach_mem {xs : List α} {f : α → Except ε β} {ys : List β} {x : α}
    (h : mapEach xs f = .ok ys) (hx : x ∈ xs) : ∃ y ∈ ys, f x = .ok y := by
  induction xs generalizing ys with
  | nil => simp at hx
  | cons z xs ih =>
      cases hz : f z with
      | error e => simp [mapEach, hz] at h
      | ok y =>
          cases hrest : mapEach xs f with
          | error e => simp [mapEach, hz, hrest] at h
          | ok zs =>
              simp only [mapEach, hz, hrest, Except.ok.injEq] at h
              subst h
              rcases List.mem_cons.mp hx with rfl | hx
              · exact ⟨y, by simp, hz⟩
              · obtain ⟨w, hw, hf⟩ := ih hrest hx
                exact ⟨w, by simp [hw], hf⟩

theorem mapEach_eq_ok {xs : List α} {f : α → Except ε β} {g : α → β}
    (h : ∀ x ∈ xs, f x = .ok (g x)) : mapEach xs f = .ok (xs.map g) := by
  induction xs with
  | nil => rfl
  | cons x xs ih =>
      have htail := ih fun y hy => h y (by simp [hy])
      simp [mapEach, h x (by simp), htail]

theorem exists_mapEach_ok {xs : List α} {f : α → Except ε β} (h : ∀ x ∈ xs, ∃ y, f x = .ok y) :
    ∃ ys, mapEach xs f = .ok ys := by
  induction xs with
  | nil => exact ⟨[], rfl⟩
  | cons x xs ih =>
      obtain ⟨y, hy⟩ := h x (by simp)
      obtain ⟨ys, hys⟩ := ih fun x' hx' => h x' (by simp [hx'])
      exact ⟨y :: ys, by simp only [mapEach, hy, hys]⟩

theorem foldEach_distinct {κ : Type} [DecidableEq κ] {xs : List α} {f : α → Except ε β}
    {key : β → κ} {e : ε} {start ys : List β} (hstart : (start.map key).Nodup) :
    foldEach xs start (fun found x => do
        let y ← f x
        failIf (key y ∈ found.map key) e
        .ok (found ++ [y])) = .ok ys ↔
      ∃ zs, mapEach xs f = .ok zs ∧ ys = start ++ zs ∧ (ys.map key).Nodup := by
  induction xs generalizing start with
  | nil =>
      simp only [foldEach, mapEach, Except.ok.injEq]
      constructor
      · rintro rfl
        exact ⟨[], rfl, (List.append_nil _).symm, hstart⟩
      · rintro ⟨_, rfl, rfl, -⟩
        rw [List.append_nil]
  | cons x xs ih =>
      cases hx : f x with
      | error error => simp [foldEach, mapEach, hx]
      | ok y =>
          by_cases hy : key y ∈ start.map key
          · simp only [foldEach, hx, ok_bind, failIf_of_true hy, error_bind]
            refine iff_of_false nofun ?_
            rintro ⟨zs, hzs, rfl, hnodup⟩
            obtain ⟨z, hz, hxz⟩ := mapEach_mem hzs (List.mem_cons_self ..)
            obtain rfl := Except.ok.inj (hx.symm.trans hxz)
            rw [List.map_append, List.nodup_append] at hnodup
            exact hnodup.2.2 _ hy _ (List.mem_map_of_mem hz) rfl
          · have hnext : ((start ++ [y]).map key).Nodup := by
              rw [List.map_append, List.nodup_append]
              refine ⟨hstart, by simp, fun k hk l hl hkl => hy ?_⟩
              obtain rfl := List.mem_singleton.mp hl
              rwa [← hkl]
            simp only [foldEach, hx, ok_bind, failIf_of_false hy, ih hnext, List.append_assoc,
              List.singleton_append]
            constructor
            · rintro ⟨zs, hzs, rfl, hnodup⟩
              exact ⟨y :: zs, by simp only [mapEach, hx, hzs], rfl, hnodup⟩
            · rintro ⟨zs, hzs, rfl, hnodup⟩
              cases hrest : mapEach xs f with
              | error error => simp [mapEach, hx, hrest] at hzs
              | ok rest =>
                  simp only [mapEach, hx, hrest, Except.ok.injEq] at hzs
                  subst hzs
                  exact ⟨rest, rfl, rfl, hnodup⟩

theorem mapEach_error {xs : List α} {f : α → Except ε β} {e : ε}
    (hall : ∀ x ∈ xs, (∃ y, f x = .ok y) ∨ f x = .error e) (h : ∃ x ∈ xs, f x = .error e) :
    mapEach xs f = .error e := by
  induction xs with
  | nil => simp at h
  | cons x xs ih =>
      rcases hall x (by simp) with ⟨y, hy⟩ | he
      · have htail : mapEach xs f = .error e := by
          refine ih (fun x' hx' => hall x' (by simp [hx'])) ?_
          obtain ⟨x', hx', hfail⟩ := h
          rcases List.mem_cons.mp hx' with rfl | hx'
          · rw [hy] at hfail
            cases hfail
          · exact ⟨x', hx', hfail⟩
        simp only [mapEach, hy, htail]
      · simp only [mapEach, he]

theorem map_of_mapEach {γ : Type} {xs : List α} {f : α → Except ε β} {ys : List β}
    {g : β → γ} {k : α → γ} (h : mapEach xs f = .ok ys) (hg : ∀ x y, f x = .ok y → g y = k x) :
    ys.map g = xs.map k := by
  induction xs generalizing ys with
  | nil =>
      cases h
      rfl
  | cons x xs ih =>
      cases hx : f x with
      | error e => simp [mapEach, hx] at h
      | ok y =>
          cases hrest : mapEach xs f with
          | error e => simp [mapEach, hx, hrest] at h
          | ok zs =>
              simp only [mapEach, hx, hrest, Except.ok.injEq] at h
              subst h
              rw [List.map_cons, List.map_cons, hg x y hx, ih hrest]

theorem countP_mapEach {xs : List α} {f : α → Except ε β} {ys : List β} {p : β → Bool}
    {q : α → Bool} (h : mapEach xs f = .ok ys) (hp : ∀ x y, f x = .ok y → p y = q x) :
    ys.countP p = xs.countP q := by
  have hmap := congrArg (List.countP id) (map_of_mapEach h hp)
  rwa [List.countP_map, List.countP_map] at hmap

theorem mapEach_filter {xs : List α} {f : α → Except ε β} {ys : List β} {p : α → Bool}
    {q : β → Bool} (h : mapEach xs f = .ok ys)
    (hp : ∀ x ∈ xs, ∀ y, f x = .ok y → p x = q y) :
    mapEach (xs.filter p) f = .ok (ys.filter q) := by
  induction xs generalizing ys with
  | nil =>
      cases h
      rfl
  | cons x xs ih =>
      cases hx : f x with
      | error e => simp [mapEach, hx] at h
      | ok y =>
          cases hrest : mapEach xs f with
          | error e => simp [mapEach, hx, hrest] at h
          | ok zs =>
              simp only [mapEach, hx, hrest, Except.ok.injEq] at h
              subst h
              have htail := ih hrest fun x' hx' => hp x' (by simp [hx'])
              have hhead := hp x (by simp) y hx
              cases hq : q y with
              | true => simp [hhead, hq, mapEach, hx, htail]
              | false => simp [hhead, hq, htail]

end AiArtifactStore.Foundation
