import Mathlib.Data.Prod.Lex
import Mathlib.Logic.Relation
import Mathlib.Order.WellFounded

/-!
# Termination of a party among others

A party whose own steps lower a measure, and whose measure nobody else touches,
makes finitely many steps in every run.
-/

namespace AiArtifactStore.Foundation

open Relation

variable {σ M : Type} [Preorder M] {own others : σ → σ → Prop} {measure : σ → M}

structure Lowers (measure : σ → M) (own others : σ → σ → Prop) : Prop where
  own : ∀ s s', own s s' → measure s' < measure s
  others : ∀ s s', others s s' → measure s' = measure s

/-- A run without end: every step is an own step or one of others. -/
def EndlessRun (own others : σ → σ → Prop) (run : Nat → σ) : Prop :=
  ∀ n, own (run n) (run (n + 1)) ∨ others (run n) (run (n + 1))

/-- A party that can make a step from some point on makes one. -/
def Fair (own : σ → σ → Prop) (run : Nat → σ) : Prop :=
  ∀ n, (∀ m, n ≤ m → ∃ s', own (run m) s') → ∃ m, n ≤ m ∧ own (run m) (run (m + 1))

theorem Lowers.le (h : Lowers measure own others) {run : Nat → σ}
    (hrun : EndlessRun own others run) (m n : Nat) (hle : m ≤ n) :
    measure (run n) ≤ measure (run m) := by
  induction hle with
  | refl => exact le_refl _
  | @step n _ ih =>
      rcases hrun n with hown | hothers
      · exact (h.own _ _ hown).le.trans ih
      · exact (h.others _ _ hothers).le.trans ih

/-- After some point only others make steps. -/
theorem Lowers.eventually_others [WellFoundedLT M] (h : Lowers measure own others)
    {run : Nat → σ} (hrun : EndlessRun own others run) :
    ∃ last, ∀ n, last ≤ n → ¬own (run n) (run (n + 1)) := by
  obtain ⟨least, ⟨last, hlast⟩, hmin⟩ := (wellFounded_lt (α := M)).has_min
    (Set.range fun n => measure (run n)) ⟨_, 0, rfl⟩
  refine ⟨last, fun n hn hown => hmin (measure (run (n + 1))) ⟨n + 1, rfl⟩ ?_⟩
  calc measure (run (n + 1)) < measure (run n) := h.own _ _ hown
    _ ≤ measure (run last) := h.le hrun last n hn
    _ = least := hlast

theorem EndlessRun.invariant {P : σ → Prop} {run : Nat → σ} (hrun : EndlessRun own others run)
    (hown : ∀ s s', own s s' → P s → P s') (hothers : ∀ s s', others s s' → P s → P s')
    (hstart : P (run 0)) (n : Nat) : P (run n) := by
  induction n with
  | zero => exact hstart
  | succ n ih =>
      rcases hrun n with hstep | hstep
      · exact hown _ _ hstep ih
      · exact hothers _ _ hstep ih

/-- A fair run brings a party to its end that can always make a step before it. -/
theorem Lowers.fair_reaches [WellFoundedLT M] {final : σ → Prop} (h : Lowers measure own others)
    {run : Nat → σ} (hrun : EndlessRun own others run) (hfair : Fair own run)
    (hprogress : ∀ n, ¬final (run n) → ∃ s', own (run n) s') : ∃ n, final (run n) := by
  obtain ⟨last, hlast⟩ := h.eventually_others hrun
  by_contra hnever
  have henabled : ∀ m, last ≤ m → ∃ s', own (run m) s' :=
    fun m _ => hprogress m fun hend => hnever ⟨m, hend⟩
  obtain ⟨m, hm, hstep⟩ := hfair last henabled
  exact hlast m hm hstep

/-- Alone, a party that can always make a step before its end comes to its end. -/
theorem Lowers.reaches [WellFoundedLT M] {final : σ → Prop} {P : σ → Prop}
    (h : Lowers measure own others) (hkeeps : ∀ s s', own s s' → P s → P s')
    (hprogress : ∀ s, P s → ¬final s → ∃ s', own s s') (s : σ) (hs : P s) :
    ∃ s', ReflTransGen own s s' ∧ final s' := by
  generalize hmeasure : measure s = m
  induction m using WellFoundedLT.induction generalizing s with
  | ind m ih =>
      by_cases hfinal : final s
      · exact ⟨s, .refl, hfinal⟩
      · obtain ⟨next, hstep⟩ := hprogress s hs hfinal
        have hlower : measure next < m := hmeasure ▸ h.own _ _ hstep
        obtain ⟨last, hrun, hend⟩ := ih _ hlower next (hkeeps _ _ hstep hs) rfl
        exact ⟨last, .head hstep hrun, hend⟩

end AiArtifactStore.Foundation
