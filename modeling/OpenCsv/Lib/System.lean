import Mathlib.Tactic

/-!
# Labelled systems and their invariants

A system has initial states and labelled steps.  An invariant that holds
initially and is kept by every step holds in every reachable state; a run may
also be restricted to steps that meet a condition on the state before the step
and the label.
-/

namespace OpenCsv

universe u v

/-- Initial states and labelled steps. -/
structure System (σ : Type u) (α : Type v) where
  init : σ → Prop
  step : σ → α → σ → Prop

namespace System

variable {σ : Type u}
variable {α : Type v}

/-- States reached by finitely many steps from an initial state. -/
inductive Reachable (S : System σ α) : σ → Prop
  | init {s : σ} : S.init s → Reachable S s
  | step {s : σ} {a : α} {s' : σ} : Reachable S s → S.step s a s' → Reachable S s'

/-- The same system with steps allowed only where `cond` holds. -/
def restrict (S : System σ α) (cond : σ → α → Prop) : System σ α where
  init := S.init
  step := fun s a s' => S.step s a s' ∧ cond s a

/-- An inductive invariant holds in every reachable state. -/
theorem Reachable.invariant
    {S : System σ α}
    {Inv : σ → Prop}
    (hinit : ∀ s, S.init s → Inv s)
    (hstep : ∀ s a s', Inv s → S.step s a s' → Inv s')
    {s : σ}
    (h : S.Reachable s) :
    Inv s := by
  induction h with
  | init h₀ =>
      exact hinit _ h₀
  | step _ hs ih =>
      exact hstep _ _ _ ih hs

/-- A run of the restricted system is a run of the system. -/
theorem Reachable.of_restrict
    {S : System σ α}
    {cond : σ → α → Prop}
    {s : σ}
    (h : (S.restrict cond).Reachable s) :
    S.Reachable s := by
  induction h with
  | init h₀ => exact .init h₀
  | step _ hs ih => exact ih.step hs.1

/-- States that a run through `s` comes to after any number of further steps. -/
inductive Later (S : System σ α) (s : σ) : σ → Prop
  | refl : Later S s s
  | step {s' : σ} {a : α} {s'' : σ} : Later S s s' → S.step s' a s'' → Later S s s''

theorem Reachable.later
    {S : System σ α}
    {s s' : σ}
    (h : S.Reachable s)
    (hlater : S.Later s s') :
    S.Reachable s' := by
  induction hlater with
  | refl => exact h
  | step _ hs ih => exact ih.step hs

end System

end OpenCsv
