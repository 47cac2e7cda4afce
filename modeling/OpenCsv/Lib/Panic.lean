import OpenCsv.Lib.Call
import OpenCsv.Lib.Result

/-!
# Computations that may panic

A computation stops with an error value or with a panic.  Assertions and the overflow of
an addition panic in a development build; a release build leaves them out and wraps.
`Answers` says that a computation does not panic, and what its result is if it has one.
-/

namespace OpenCsv

/-- How a computation stops short of a result. -/
inductive Stop (ε : Type) where
  | error (e : ε)
  | panic
deriving DecidableEq

/-- The build profile: with debug assertions and overflow checks, or without. -/
inductive Profile where
  | dev
  | release
deriving DecidableEq

namespace Profile

variable {ε : Type}

/-- `debug_assert!`. -/
def debugAssert (profile : Profile) (check : Bool) : Except (Stop ε) Unit :=
  match profile with
  | .dev => require check .panic
  | .release => .ok ()

/-- `a + b` at a fixed width. -/
def add {w : ℕ} (profile : Profile) (a b : BitVec w) : Except (Stop ε) (BitVec w) := do
  profile.debugAssert (a.toNat + b.toNat < 2 ^ w)
  return a + b

@[simp] theorem debugAssert_eq_ok_iff
    {profile : Profile}
    {check : Bool}
    {v : Unit} :
    profile.debugAssert check = (.ok v : Except (Stop ε) Unit) ↔ (profile = .dev → check = true) := by
  cases profile <;> simp [debugAssert]

theorem add_eq_ok_iff
    {w : ℕ}
    {profile : Profile}
    {a b c : BitVec w} :
    profile.add a b = (.ok c : Except (Stop ε) (BitVec w)) ↔
      (profile = .dev → a.toNat + b.toNat < 2 ^ w) ∧ a + b = c := by
  simp [add, except_bind_eq_ok_iff, pure, Except.pure]

end Profile

section Answering

variable {ε σ α β : Type}

/-- The result is one that `P` allows, or an error value. -/
def Answers (r : Except (Stop ε) α) (P : α → Prop) : Prop :=
  match r with
  | .ok a => P a
  | .error e => e ≠ .panic

theorem error_ne_panic
    (e : ε) :
    Stop.error e ≠ .panic := by
  rintro ⟨⟩

theorem answers_error
    {P : α → Prop}
    (e : ε) :
    Answers (.error (.error e)) P :=
  error_ne_panic e

theorem Answers.ne_panic
    {r : Except (Stop ε) α}
    {P : α → Prop}
    (h : Answers r P) :
    r ≠ .error .panic := by
  rintro rfl
  exact h rfl

theorem Answers.mono
    {r : Except (Stop ε) α}
    {P Q : α → Prop}
    (h : Answers r P)
    (hPQ : ∀ a, P a → Q a) :
    Answers r Q := by
  cases r with
  | ok a => exact hPQ a h
  | error e => exact h

theorem Answers.bind
    {x : Except (Stop ε) α}
    {f : α → Except (Stop ε) β}
    {P : α → Prop}
    {Q : β → Prop}
    (h : Answers x P)
    (hf : ∀ a, P a → Answers (f a) Q) :
    Answers (x >>= f) Q := by
  cases x with
  | ok a => exact hf a h
  | error e => exact h

theorem answers_require
    (check : Bool)
    (e : ε) :
    Answers (require check (.error e : Stop ε)) (fun _ => check = true) := by
  cases check with
  | true => exact rfl
  | false => exact answers_error e

theorem answers_okOr
    (o : Option α)
    (e : ε) :
    Answers (okOr o (.error e : Stop ε)) (fun a => o = some a) := by
  cases o with
  | some a => exact rfl
  | none => exact answers_error e

theorem answers_debugAssert
    {profile : Profile}
    {check : Bool}
    (h : check = true) :
    Answers (profile.debugAssert check : Except (Stop ε) Unit) (fun _ => True) := by
  subst h
  cases profile <;> exact trivial

/-- A call that does not panic, followed by one that does not. -/
theorem answers_call_bind
    {c : Call (Stop ε) σ α}
    {f : α → Call (Stop ε) σ β}
    {s : σ}
    {P : α → Prop}
    {Q : β → Prop}
    (h : Call.Ends c s (fun r _ => Answers r P))
    (hf : ∀ a s', P a → Call.Ends (f a) s' (fun r _ => Answers r Q)) :
    Call.Ends (c >>= f) s (fun r _ => Answers r Q) :=
  h.bind (fun _ _ he => he) (fun a s' ha => hf a s' ha)

end Answering

end OpenCsv
