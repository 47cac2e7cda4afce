import Mathlib.Logic.Relation
import Mathlib.Tactic

/-!
# Calls that change a state and may fail

A call reads and changes a state and ends in a value or an error; what it
changed before an error stays, unless the changes were made inside a
transaction.  `Ends c s Q` says that `c`, started in `s`, ends with a result and
a state that `Q` allows; it is computed from the parts of `c` by the rewrite
rules below.  `Leaves` says only what the state is like, `Yields` only what is known
after a success.

**Results.** `ends_bind` splits a call into its halves; `Ends.trans` and
`each_trans` compose calls and loops that keep a reflexive and transitive
relation between the states before and after.
-/

namespace OpenCsv

/-- A call on a state `σ`. -/
abbrev Call (ε σ α : Type) := EStateM ε σ α

namespace Call

variable {ε σ α β : Type}

/-- The call, started in `s`, ends with a result and a state that `Q` allows. -/
def Ends (c : Call ε σ α) (s : σ) (Q : Except ε α → σ → Prop) : Prop :=
  match c s with
  | .ok a s' => Q (.ok a) s'
  | .error e s' => Q (.error e) s'

/-- The state a call leaves. -/
def final (c : Call ε σ α) (s : σ) : σ :=
  match c s with
  | .ok _ s' => s'
  | .error _ s' => s'

/-- What a call answers. -/
def answer (c : Call ε σ α) (s : σ) : Except ε α :=
  match c s with
  | .ok a _ => .ok a
  | .error e _ => .error e

/-- A fallible computation that touches no state. -/
def lift (x : Except ε α) : Call ε σ α :=
  match x with
  | .ok a => pure a
  | .error e => throw e

/-- A fallible question about the state. -/
def reads (f : σ → Except ε α) : Call ε σ α := fun s =>
  match f s with
  | .ok a => .ok a s
  | .error e => .error e s

/-- An early return unless a check holds. -/
def demand (check : Bool) (e : ε) : Call ε σ Unit :=
  if check then pure () else throw e

/-- Run a call and look at its result instead of returning early. -/
def attempt (c : Call ε σ α) : Call ε σ (Except ε α) := fun s =>
  match c s with
  | .ok a s' => .ok (.ok a) s'
  | .error e s' => .ok (.error e) s'

/-- A transaction: a failure takes every change back. -/
def atomic (c : Call ε σ α) : Call ε σ α := fun s =>
  match c s with
  | .ok a s' => .ok a s'
  | .error e _ => .error e s

/-- Run a call for every element, in order, until one fails. -/
def each (xs : List β) (f : β → Call ε σ Unit) : Call ε σ Unit :=
  match xs with
  | [] => pure ()
  | x :: xs => do
      f x
      each xs f

/-- Collect the results of a call for every element. -/
def collect (xs : List β) (f : β → Call ε σ α) : Call ε σ (List α) :=
  match xs with
  | [] => pure []
  | x :: xs => do
      let a ← f x
      let as ← collect xs f
      pure (a :: as)

section Running

/-! What a sequence does in one state, by its first half. -/

variable {f : α → Call ε σ β}

theorem demand_bind_apply
    (check : Bool)
    (e : ε)
    (f : Unit → Call ε σ β)
    (s : σ) :
    (demand check e >>= f) s = if check then f () s else .error e s := by
  cases check <;> rfl

theorem reads_bind_apply
    (g : σ → Except ε α)
    (s : σ) :
    (reads g >>= f) s =
      match g s with
      | .ok a => f a s
      | .error e => .error e s := by
  show EStateM.bind (reads g) f s = _
  unfold EStateM.bind reads
  cases g s <;> rfl

theorem get_bind_apply
    (f : σ → Call ε σ β)
    (s : σ) :
    ((get : Call ε σ σ) >>= f) s = f s s :=
  rfl

theorem modify_bind_apply
    (g : σ → σ)
    (f : PUnit → Call ε σ β)
    (s : σ) :
    ((modify g : Call ε σ PUnit) >>= f) s = f ⟨⟩ (g s) :=
  rfl

theorem lift_bind_apply
    (x : Except ε α)
    (s : σ) :
    (lift x >>= f) s =
      match x with
      | .ok a => f a s
      | .error e => .error e s := by
  cases x <;> rfl

theorem bind_apply
    (c : Call ε σ α)
    (s : σ) :
    (c >>= f) s =
      match c s with
      | .ok a s' => f a s'
      | .error e s' => .error e s' := by
  show EStateM.bind c f s = _
  unfold EStateM.bind
  cases c s <;> rfl

/-- The second half goes on where the first one succeeds. -/
theorem bind_of_ok
    {c : Call ε σ α}
    {s s' : σ}
    {a : α}
    (h : c s = .ok a s') :
    (c >>= f) s = f a s' := by
  rw [bind_apply, h]

end Running

section Rules

variable {c : Call ε σ α}
variable {s : σ}
variable {Q Q' : Except ε α → σ → Prop}

theorem ends_iff :
    Ends c s Q ↔ Q (answer c s) (final c s) := by
  unfold Ends answer final
  cases c s <;> rfl

theorem Ends.mono
    (h : Ends c s Q)
    (hQ : ∀ r s', Q r s' → Q' r s') :
    Ends c s Q' :=
  ends_iff.mpr (hQ _ _ (ends_iff.mp h))

@[simp] theorem ends_pure
    (a : α) :
    Ends (pure a : Call ε σ α) s Q ↔ Q (.ok a) s :=
  Iff.rfl

@[simp] theorem ends_throw
    (e : ε) :
    Ends (throw e : Call ε σ α) s Q ↔ Q (.error e) s :=
  Iff.rfl

@[simp] theorem ends_get
    {Q : Except ε σ → σ → Prop} :
    Ends (get : Call ε σ σ) s Q ↔ Q (.ok s) s :=
  Iff.rfl

@[simp] theorem ends_modify
    {Q : Except ε PUnit → σ → Prop}
    (f : σ → σ) :
    Ends (modify f : Call ε σ PUnit) s Q ↔ Q (.ok ⟨⟩) (f s) :=
  Iff.rfl

/-- A sequence ends where its second half does, or where its first half fails. -/
@[simp] theorem ends_bind
    {f : α → Call ε σ β}
    {Q : Except ε β → σ → Prop} :
    Ends (c >>= f) s Q ↔
      Ends c s (fun r s' =>
        match r with
        | .ok a => Ends (f a) s' Q
        | .error e => Q (.error e) s') := by
  unfold Ends
  show (match EStateM.bind c f s with | .ok a s' => Q (.ok a) s' | .error e s' => Q (.error e) s') ↔ _
  unfold EStateM.bind
  cases c s <;> rfl

@[simp] theorem ends_lift
    (x : Except ε α) :
    Ends (lift x) s Q ↔ Q x s := by
  cases x <;> rfl

@[simp] theorem ends_reads
    (f : σ → Except ε α) :
    Ends (reads f) s Q ↔ Q (f s) s := by
  unfold Ends reads
  cases f s <;> rfl

@[simp] theorem ends_demand
    {Q : Except ε Unit → σ → Prop}
    (check : Bool)
    (e : ε) :
    Ends (demand check e) s Q ↔ if check then Q (.ok ()) s else Q (.error e) s := by
  cases check <;> rfl

@[simp] theorem ends_attempt
    {Q : Except ε (Except ε α) → σ → Prop} :
    Ends (attempt c) s Q ↔ Ends c s (fun r s' => Q (.ok r) s') := by
  unfold Ends attempt
  cases c s <;> rfl

@[simp] theorem ends_atomic :
    Ends (atomic c) s Q ↔
      Ends c s (fun r s' =>
        match r with
        | .ok a => Q (.ok a) s'
        | .error e => Q (.error e) s) := by
  unfold Ends atomic
  cases c s <;> rfl

@[simp] theorem ends_ite
    {p : Prop} [Decidable p]
    {d : Call ε σ α} :
    Ends (if p then c else d) s Q ↔ if p then Ends c s Q else Ends d s Q := by
  split_ifs <;> rfl

end Rules

section Sequences

/-! The rules for sequences in backward form: what is left to show of the rest. -/

variable {c : Call ε σ α}
variable {f : α → Call ε σ β}
variable {s : σ}
variable {Q : Except ε β → σ → Prop}

theorem ends_get_bind
    {f : σ → Call ε σ β}
    (h : Ends (f s) s Q) :
    Ends ((get : Call ε σ σ) >>= f) s Q :=
  ends_bind.mpr h

theorem ends_modify_bind
    {g : σ → σ}
    {f : PUnit → Call ε σ β}
    (h : Ends (f ⟨⟩) (g s) Q) :
    Ends ((modify g : Call ε σ PUnit) >>= f) s Q :=
  ends_bind.mpr h

theorem ends_reads_bind
    {g : σ → Except ε α}
    (herror : ∀ e, Q (.error e) s)
    (hok : ∀ a, g s = .ok a → Ends (f a) s Q) :
    Ends (reads g >>= f) s Q := by
  refine ends_bind.mpr ((ends_reads g).mpr ?_)
  cases hg : g s with
  | error e => exact herror e
  | ok a => exact hok a hg

theorem ends_lift_bind
    {x : Except ε α}
    (herror : ∀ e, Q (.error e) s)
    (hok : ∀ a, x = .ok a → Ends (f a) s Q) :
    Ends (lift x >>= f) s Q := by
  refine ends_bind.mpr ((ends_lift x).mpr ?_)
  cases hx : x with
  | error e => exact herror e
  | ok a => exact hok a hx

theorem ends_demand_bind
    {check : Bool}
    {e : ε}
    {f : Unit → Call ε σ β}
    (herror : ∀ e, Q (.error e) s)
    (hok : check = true → Ends (f ()) s Q) :
    Ends (demand check e >>= f) s Q := by
  refine ends_bind.mpr ((ends_demand check e).mpr ?_)
  cases check with
  | false => exact herror e
  | true => exact hok rfl

theorem ends_ite_of
    {p : Prop} [Decidable p]
    {c d : Call ε σ β}
    (hpos : p → Ends c s Q)
    (hneg : ¬p → Ends d s Q) :
    Ends (if p then c else d) s Q := by
  split_ifs with hp
  · exact hpos hp
  · exact hneg hp

/-- The first half leaves a state and a result from which the second half ends well. -/
theorem Ends.bind
    {P : Except ε α → σ → Prop}
    (h : Ends c s P)
    (herror : ∀ e s', P (.error e) s' → Q (.error e) s')
    (hok : ∀ a s', P (.ok a) s' → Ends (f a) s' Q) :
    Ends (c >>= f) s Q := by
  refine ends_bind.mpr (Ends.mono h ?_)
  intro r s' hr
  cases r with
  | error e => exact herror e s' hr
  | ok a => exact hok a s' hr

end Sequences

section Relations

variable {R : σ → σ → Prop}

/-- A relation kept by both halves of a call, when it is transitive. -/
theorem Ends.trans
    (htrans : ∀ x y z, R x y → R y z → R x z)
    {c : Call ε σ α}
    {f : α → Call ε σ β}
    {s : σ}
    (hc : Ends c s (fun _ s' => R s s'))
    (hf : ∀ a s', R s s' → Ends (f a) s' (fun _ s'' => R s' s'')) :
    Ends (c >>= f) s (fun _ s' => R s s') := by
  rw [ends_bind]
  refine Ends.mono hc ?_
  intro r s' hR
  cases r with
  | error e =>
      exact hR
  | ok a =>
      exact Ends.mono (hf a s' hR) (fun _ s'' h => htrans s s' s'' hR h)

/-- A loop whose body keeps a reflexive and transitive relation keeps it. -/
theorem each_trans
    (hrefl : ∀ x, R x x)
    (htrans : ∀ x y z, R x y → R y z → R x z)
    {xs : List β}
    {f : β → Call ε σ Unit}
    (hf : ∀ x ∈ xs, ∀ s, Ends (f x) s (fun _ s' => R s s'))
    (s : σ) :
    Ends (each xs f) s (fun _ s' => R s s') := by
  induction xs generalizing s with
  | nil =>
      exact hrefl s
  | cons x xs ih =>
      refine Ends.trans htrans (hf x List.mem_cons_self s) ?_
      intro _ s' _
      exact ih (fun y hy => hf y (List.mem_cons_of_mem x hy)) s'

end Relations

section Leaving

/-- The call, started in `s`, leaves a state that `Q` allows, whatever it answers. -/
def Leaves (c : Call ε σ α) (s : σ) (Q : σ → Prop) : Prop :=
  Ends c s (fun _ s' => Q s')

variable {c : Call ε σ α}
variable {f : α → Call ε σ β}
variable {s : σ}
variable {Q : σ → Prop}

theorem leaves_iff :
    Leaves c s Q ↔ Q (final c s) :=
  ends_iff

/-- A sequence leaves what its second half leaves, or what its first half fails in. -/
theorem leaves_bind
    (h : Ends c s (fun r s' =>
      match r with
      | .ok a => Leaves (f a) s' Q
      | .error _ => Q s')) :
    Leaves (c >>= f) s Q := by
  refine ends_bind.mpr (Ends.mono h ?_)
  intro r s' hr
  cases r with
  | error e => exact hr
  | ok a => exact hr

theorem leaves_pure
    {a : α}
    (h : Q s) :
    Leaves (pure a : Call ε σ α) s Q :=
  h

theorem leaves_throw
    {e : ε}
    (h : Q s) :
    Leaves (throw e : Call ε σ α) s Q :=
  h

theorem leaves_get
    {f : σ → Call ε σ β}
    (h : Leaves (f s) s Q) :
    Leaves ((get : Call ε σ σ) >>= f) s Q :=
  ends_get_bind h

theorem leaves_modify
    {g : σ → σ}
    {f : PUnit → Call ε σ β}
    (h : Leaves (f ⟨⟩) (g s) Q) :
    Leaves ((modify g : Call ε σ PUnit) >>= f) s Q :=
  ends_modify_bind h

theorem leaves_reads
    {g : σ → Except ε α}
    (herror : Q s)
    (hok : ∀ a, g s = .ok a → Leaves (f a) s Q) :
    Leaves (reads g >>= f) s Q :=
  ends_reads_bind (fun _ => herror) hok

theorem leaves_lift
    {x : Except ε α}
    (herror : Q s)
    (hok : ∀ a, x = .ok a → Leaves (f a) s Q) :
    Leaves (lift x >>= f) s Q :=
  ends_lift_bind (fun _ => herror) hok

theorem leaves_demand
    {check : Bool}
    {e : ε}
    {f : Unit → Call ε σ β}
    (herror : Q s)
    (hok : check = true → Leaves (f ()) s Q) :
    Leaves (demand check e >>= f) s Q :=
  ends_demand_bind (fun _ => herror) hok

theorem leaves_check
    {check : Bool}
    {e : ε}
    (h : Q s) :
    Leaves (demand check e) s Q := by
  cases check with
  | false => exact h
  | true => exact h

theorem leaves_attempt
    {f : Except ε α → Call ε σ β}
    (h : Ends c s (fun r s' => Leaves (f r) s' Q)) :
    Leaves (attempt c >>= f) s Q :=
  leaves_bind (ends_attempt.mpr h)

theorem leaves_ite
    {p : Prop} [Decidable p]
    {d : Call ε σ α}
    (hpos : p → Leaves c s Q)
    (hneg : ¬p → Leaves d s Q) :
    Leaves (if p then c else d) s Q :=
  ends_ite_of hpos hneg

/-- A transaction leaves what its body leaves on success, or the state it started in. -/
theorem leaves_atomic
    (herror : Q s)
    (hok : Ends c s (fun r s' => ∀ a, r = .ok a → Q s')) :
    Leaves (atomic c) s Q := by
  refine ends_atomic.mpr (Ends.mono hok ?_)
  intro r s' hr
  cases r with
  | error e => exact herror
  | ok a => exact hr a rfl

theorem Leaves.atomic
    (h : Leaves c s Q)
    (herror : Q s) :
    Leaves (Call.atomic c) s Q :=
  leaves_atomic herror (Ends.mono h (fun _ _ h' _ _ => h'))

theorem Leaves.mono
    {Q' : σ → Prop}
    (h : Leaves c s Q)
    (hQ : ∀ s', Q s' → Q' s') :
    Leaves c s Q' :=
  Ends.mono h (fun _ s' h' => hQ s' h')

/-- A call whose second half accepts every state that its first half leaves. -/
theorem Leaves.bind
    {P : σ → Prop}
    (h : Leaves c s P)
    (herror : ∀ s', P s' → Q s')
    (hok : ∀ a s', P s' → Leaves (f a) s' Q) :
    Leaves (c >>= f) s Q := by
  refine leaves_bind (Ends.mono h ?_)
  intro r s' hP
  cases r with
  | error e => exact herror s' hP
  | ok a => exact hok a s' hP

/-- A call whose second half may use what its first half says of its result. -/
theorem leaves_step
    {P : α → σ → Prop}
    (h : Ends c s (fun r s' => Q s' ∧ ∀ a, r = .ok a → P a s'))
    (hok : ∀ a s', Q s' → P a s' → Leaves (f a) s' Q) :
    Leaves (c >>= f) s Q := by
  refine leaves_bind (Ends.mono h ?_)
  intro r s' hr
  cases r with
  | error e => exact hr.1
  | ok a => exact hok a s' hr.1 (hr.2 a rfl)

/-- A loop leaves a state of the invariant that each of its rounds keeps. -/
theorem leaves_each
    {xs : List β}
    {f : β → Call ε σ Unit}
    (hs : Q s)
    (hf : ∀ x ∈ xs, ∀ s', Q s' → Leaves (f x) s' Q) :
    Leaves (each xs f) s Q := by
  induction xs generalizing s with
  | nil =>
      exact hs
  | cons x xs ih =>
      refine Leaves.bind (hf x List.mem_cons_self s hs) (fun _ h => h) ?_
      intro _ s' hs'
      exact ih hs' (fun y hy => hf y (List.mem_cons_of_mem x hy))

/-- The same for a loop that collects results. -/
theorem leaves_collect
    {xs : List β}
    {f : β → Call ε σ α}
    (hs : Q s)
    (hf : ∀ x ∈ xs, ∀ s', Q s' → Leaves (f x) s' Q) :
    Leaves (collect xs f) s Q := by
  induction xs generalizing s with
  | nil =>
      exact hs
  | cons x xs ih =>
      refine Leaves.bind (hf x List.mem_cons_self s hs) (fun _ h => h) ?_
      intro _ s' hs'
      refine Leaves.bind (ih hs' (fun y hy => hf y (List.mem_cons_of_mem x hy))) (fun _ h => h) ?_
      intro _ s'' hs''
      exact hs''

end Leaving

section Yielding

/-- If the call, started in `s`, succeeds, its value and the state it leaves meet `Q`. -/
def Yields (c : Call ε σ α) (s : σ) (Q : α → σ → Prop) : Prop :=
  Ends c s (fun r s' => ∀ a, r = .ok a → Q a s')

variable {c : Call ε σ α}
variable {f : α → Call ε σ β}
variable {s : σ}
variable {Q : β → σ → Prop}

theorem yields_iff
    {P : α → σ → Prop} :
    Yields c s P ↔ ∀ a, answer c s = .ok a → P a (final c s) :=
  ends_iff

theorem yields_pure
    {b : β}
    (h : Q b s) :
    Yields (pure b : Call ε σ β) s Q := by
  rintro b' hb
  obtain rfl := Except.ok.inj hb
  exact h

theorem yields_throw
    {e : ε} :
    Yields (throw e : Call ε σ β) s Q := by
  rintro b hb
  cases hb

theorem Yields.mono
    {P P' : α → σ → Prop}
    (h : Yields c s P)
    (hP : ∀ a s', P a s' → P' a s') :
    Yields c s P' :=
  Ends.mono h (fun _ s' h' a ha => hP a s' (h' a ha))

/-- A sequence succeeds when both halves do. -/
theorem Yields.bind
    {P : α → σ → Prop}
    (h : Yields c s P)
    (hf : ∀ a s', P a s' → Yields (f a) s' Q) :
    Yields (c >>= f) s Q := by
  refine Ends.bind h ?_ ?_
  · intro e s' _ b hb
    cases hb
  · intro a s' h'
    exact hf a s' (h' a rfl)

/-- Nothing need be known of the first half where the second half says enough. -/
theorem yields_bind
    (hf : ∀ a s', Yields (f a) s' Q) :
    Yields (c >>= f) s Q := by
  refine Yields.bind (P := fun _ _ => True) ?_ (fun a s' _ => hf a s')
  rw [yields_iff]
  exact fun _ _ => trivial

theorem yields_get
    {f : σ → Call ε σ β}
    (h : Yields (f s) s Q) :
    Yields ((get : Call ε σ σ) >>= f) s Q :=
  ends_get_bind h

theorem yields_modify
    {g : σ → σ}
    {f : PUnit → Call ε σ β}
    (h : Yields (f ⟨⟩) (g s) Q) :
    Yields ((modify g : Call ε σ PUnit) >>= f) s Q :=
  ends_modify_bind h

theorem yields_lift
    {x : Except ε α}
    (h : ∀ a, x = .ok a → Yields (f a) s Q) :
    Yields (lift x >>= f) s Q := by
  refine ends_lift_bind ?_ h
  intro e b hb
  cases hb

theorem yields_demand
    {check : Bool}
    {e : ε}
    {f : Unit → Call ε σ β}
    (h : check = true → Yields (f ()) s Q) :
    Yields (demand check e >>= f) s Q := by
  refine ends_demand_bind ?_ h
  intro e' b hb
  cases hb

theorem yields_ite
    {p : Prop} [Decidable p]
    {c d : Call ε σ β}
    (hpos : p → Yields c s Q)
    (hneg : ¬p → Yields d s Q) :
    Yields (if p then c else d) s Q :=
  ends_ite_of hpos hneg

/-- A loop that succeeds has gone through its list, one element after the other. -/
theorem yields_each
    {I : List β → σ → Prop}
    {xs : List β}
    {f : β → Call ε σ Unit}
    (hs : I [] s)
    (hround : ∀ done x rest s', xs = done ++ x :: rest → I done s' →
      Yields (f x) s' (fun _ => I (done ++ [x]))) :
    Yields (each xs f) s (fun _ => I xs) := by
  induction xs generalizing s I with
  | nil =>
      exact yields_pure hs
  | cons x xs ih =>
      refine Yields.bind (hround [] x xs s rfl hs) ?_
      intro _ s' hs'
      refine ih (I := fun done => I (x :: done)) hs' ?_
      intro done y rest s'' hxs hdone
      exact hround (x :: done) y rest s'' (by rw [hxs]; rfl) hdone

/-- A loop whose rounds keep a property of the state keeps it, if it succeeds. -/
theorem yields_each_of
    {I : σ → Prop}
    {xs : List β}
    {f : β → Call ε σ Unit}
    (hs : I s)
    (hround : ∀ x ∈ xs, ∀ s', I s' → Yields (f x) s' (fun _ => I)) :
    Yields (each xs f) s (fun _ => I) := by
  refine yields_each (I := fun _ => I) hs ?_
  intro done x rest s' hxs hs'
  exact hround x (by rw [hxs]; exact List.mem_append_right done List.mem_cons_self) s' hs'

/-- What a call leaves in any case, it leaves when it succeeds. -/
theorem Leaves.yields
    {P : σ → Prop}
    (h : Leaves c s P) :
    Yields c s (fun _ => P) :=
  Ends.mono h (fun _ _ h' _ _ => h')

end Yielding

section Framing

/-- A change of the state that the call neither sees nor undoes. -/
def Frames (g : σ → σ) (c : Call ε σ α) : Prop :=
  ∀ s, c (g s) =
    match c s with
    | .ok a s' => .ok a (g s')
    | .error e s' => .error e (g s')

variable {g : σ → σ}
variable {c : Call ε σ α}
variable {f : α → Call ε σ β}

theorem Frames.answer
    (h : Frames g c)
    (s : σ) :
    Call.answer c (g s) = Call.answer c s := by
  unfold Call.answer
  rw [h s]
  cases c s <;> rfl

theorem Frames.final
    (h : Frames g c)
    (s : σ) :
    Call.final c (g s) = g (Call.final c s) := by
  unfold Call.final
  rw [h s]
  cases c s <;> rfl

theorem Frames.bind
    (hc : Frames g c)
    (hf : ∀ a, Frames g (f a)) :
    Frames g (c >>= f) := by
  intro s
  rw [bind_apply, bind_apply, hc s]
  cases c s with
  | error e s' => rfl
  | ok a s' => exact hf a s'

end Framing

end Call

end OpenCsv
