import Mathlib.Tactic

/-!
# Fallible computations

Inversion of successful `Except` computations: a bind succeeds exactly when
both halves do.  `okOr` turns an absent value into an error.  A traversal
succeeds exactly when it succeeds on every element.
-/

namespace OpenCsv

universe u v

variable {ε α β : Type u}

/-- A sequenced computation succeeds exactly when both steps do. -/
theorem except_bind_eq_ok_iff
    {x : Except ε α}
    {f : α → Except ε β}
    {b : β} :
    (x >>= f) = .ok b ↔ ∃ a, x = .ok a ∧ f a = .ok b := by
  cases x <;> simp [bind, Except.bind]

/-- `Option::ok_or`. -/
def okOr (o : Option α) (e : ε) : Except ε α :=
  match o with
  | some a => .ok a
  | none => .error e

@[simp] theorem okOr_eq_ok_iff
    {o : Option α}
    {e : ε}
    {a : α} :
    okOr o e = .ok a ↔ o = some a := by
  cases o <;> simp [okOr]

/-- An early return unless a check holds. -/
def require (check : Bool) (e : ε) : Except ε Unit :=
  if check then .ok () else .error e

@[simp] theorem require_eq_ok_iff
    {check : Bool}
    {e : ε}
    {v : Unit} :
    require check e = .ok v ↔ check = true := by
  cases check <;> simp [require]

@[simp] theorem mapError_eq_ok_iff
    {ε' : Type u}
    {f : ε → ε'}
    {x : Except ε α}
    {a : α} :
    x.mapError f = .ok a ↔ x = .ok a := by
  cases x <;> simp [Except.mapError]

section Traversal

variable {γ δ : Type}

/-- A failure is no success. -/
theorem of_error_eq_ok
    {η : Type}
    {e : η}
    {v : γ}
    {P : Prop}
    (h : (Except.error e : Except η γ) = .ok v) :
    P := by
  cases h

/-- A successful traversal keeps the length. -/
theorem length_of_mapM_eq_some
    {f : γ → Option δ}
    {xs : List γ}
    {ys : List δ}
    (h : xs.mapM f = some ys) :
    ys.length = xs.length := by
  induction xs generalizing ys with
  | nil =>
      simp only [List.mapM_nil, pure, Option.some.injEq] at h
      rw [← h]
      rfl
  | cons x xs ih =>
      simp only [List.mapM_cons, Option.bind_eq_bind, Option.bind_eq_some_iff, pure,
        Option.some.injEq] at h
      obtain ⟨y, -, ys', hys, rfl⟩ := h
      simp [ih hys]

/-- A traversal yields `ys` exactly when each element yields its counterpart. -/
theorem mapM_eq_ok_iff
    {η : Type}
    {f : γ → Except η δ}
    {xs : List γ}
    {ys : List δ} :
    xs.mapM f = .ok ys ↔ List.Forall₂ (fun x y => f x = .ok y) xs ys := by
  induction xs generalizing ys with
  | nil =>
      rw [List.mapM_nil, List.forall₂_nil_left_iff]
      simp [pure, Except.pure, eq_comm]
  | cons x xs ih =>
      rw [List.mapM_cons, except_bind_eq_ok_iff, List.forall₂_cons_left_iff]
      simp only [except_bind_eq_ok_iff, ih, pure, Except.pure, Except.ok.injEq]
      constructor
      · rintro ⟨y, hy, ys', hys, rfl⟩
        exact ⟨y, ys', hy, hys, rfl⟩
      · rintro ⟨y, ys', hy, hys, rfl⟩
        exact ⟨y, hy, ys', hys, rfl⟩

/-- Every result of a traversal comes from an element. -/
theorem exists_of_mem_of_mapM_eq_ok
    {η : Type}
    {f : γ → Except η δ}
    {xs : List γ}
    {ys : List δ}
    (h : xs.mapM f = .ok ys)
    {y : δ}
    (hy : y ∈ ys) :
    ∃ x ∈ xs, f x = .ok y := by
  rw [mapM_eq_ok_iff] at h
  induction h with
  | nil =>
      cases hy
  | @cons x z xs zs hx _ ih =>
      rcases List.mem_cons.mp hy with rfl | hy
      · exact ⟨x, List.mem_cons_self, hx⟩
      · obtain ⟨x', hx', hfx⟩ := ih hy
        exact ⟨x', List.mem_cons_of_mem x hx', hfx⟩

/-- Every element of a successful traversal succeeds. -/
theorem exists_ok_of_mem_of_mapM_eq_ok
    {η : Type}
    {f : γ → Except η δ}
    {xs : List γ}
    {ys : List δ}
    (h : xs.mapM f = .ok ys)
    {x : γ}
    (hx : x ∈ xs) :
    ∃ y, f x = .ok y := by
  rw [mapM_eq_ok_iff] at h
  induction h with
  | nil =>
      cases hx
  | @cons x' y _ _ hfx _ ih =>
      rcases List.mem_cons.mp hx with rfl | hx
      · exact ⟨y, hfx⟩
      · exact ih hx

/-- A traversal succeeds when every element does. -/
theorem exists_mapM_eq_ok
    {η : Type}
    {f : γ → Except η δ}
    {xs : List γ}
    (h : ∀ x ∈ xs, ∃ y, f x = .ok y) :
    ∃ ys, xs.mapM f = .ok ys := by
  induction xs with
  | nil =>
      exact ⟨[], rfl⟩
  | cons x xs ih =>
      obtain ⟨y, hy⟩ := h x List.mem_cons_self
      obtain ⟨ys, hys⟩ := ih (fun x' hx' => h x' (List.mem_cons_of_mem x hx'))
      exact ⟨y :: ys, by rw [List.mapM_cons, hy, hys]; rfl⟩

/-- A traversal puts the result of each element in its place. -/
theorem getElem?_of_mapM_eq_ok
    {η : Type}
    {f : γ → Except η δ}
    {xs : List γ}
    {ys : List δ}
    (h : xs.mapM f = .ok ys)
    {i : ℕ}
    {x : γ}
    (hx : xs[i]? = some x) :
    ∃ y, ys[i]? = some y ∧ f x = .ok y := by
  rw [mapM_eq_ok_iff] at h
  induction h generalizing i with
  | nil =>
      cases hx
  | @cons x' y _ _ hfx _ ih =>
      cases i with
      | zero =>
          obtain rfl := Option.some.inj hx
          exact ⟨y, rfl, hfx⟩
      | succ i =>
          exact ih hx

/-- A traversal whose results carry a key of their elements keeps the keys in order. -/
theorem map_eq_of_mapM_eq_ok
    {η κ : Type}
    {f : γ → Except η δ}
    {key : γ → κ}
    {key' : δ → κ}
    {xs : List γ}
    {ys : List δ}
    (h : xs.mapM f = .ok ys)
    (hkey : ∀ x y, f x = .ok y → key' y = key x) :
    ys.map key' = xs.map key := by
  rw [mapM_eq_ok_iff] at h
  induction h with
  | nil =>
      rfl
  | cons hx _ ih =>
      rw [List.map_cons, List.map_cons, hkey _ _ hx, ih]

/-- Decoding what was encoded element by element gives the list back. -/
theorem mapM_map_eq_ok
    {η : Type}
    {f : γ → Except η δ}
    {g : δ → γ}
    {ys : List δ}
    (h : ∀ y ∈ ys, f (g y) = .ok y) :
    (ys.map g).mapM f = .ok ys := by
  rw [mapM_eq_ok_iff, List.forall₂_map_left_iff]
  exact List.forall₂_same.mpr h

end Traversal

section Errors

variable {γ δ : Type v}

/-- Every error of the computation is of some kind. -/
def FailsOnly (P : ε → Prop) (x : Except ε γ) : Prop :=
  ∀ e, x = .error e → P e

variable {P : ε → Prop}

theorem failsOnly_ok
    (a : γ) :
    FailsOnly P (.ok a) := by
  rintro e ⟨⟩

/-- The second step only has to fail so after what the first one answers. -/
theorem FailsOnly.bind
    {x : Except ε γ}
    {f : γ → Except ε δ}
    (hx : FailsOnly P x)
    (hf : ∀ a, x = .ok a → FailsOnly P (f a)) :
    FailsOnly P (x >>= f) := by
  cases x with
  | error e' =>
      rintro e ⟨⟩
      exact hx e' rfl
  | ok a =>
      exact hf a rfl

theorem failsOnly_require
    {check : Bool}
    {e : ε}
    (h : P e) :
    FailsOnly P (require check e) := by
  cases check
  · rintro e' ⟨⟩
    exact h
  · exact failsOnly_ok ()

theorem failsOnly_okOr
    {o : Option α}
    {e : ε}
    (h : P e) :
    FailsOnly P (okOr o e) := by
  cases o
  · rintro e' ⟨⟩
    exact h
  · exact failsOnly_ok _

theorem failsOnly_mapError
    {ε' : Type u}
    {f : ε' → ε}
    {x : Except ε' α}
    (h : ∀ e, P (f e)) :
    FailsOnly P (x.mapError f) := by
  cases x
  · rintro e' ⟨⟩
    exact h _
  · exact failsOnly_ok _

theorem failsOnly_mapM
    {η γ δ : Type}
    {P : η → Prop}
    {f : γ → Except η δ}
    {xs : List γ}
    (h : ∀ x ∈ xs, FailsOnly P (f x)) :
    FailsOnly P (xs.mapM f) := by
  induction xs with
  | nil =>
      exact failsOnly_ok _
  | cons x xs ih =>
      rw [List.mapM_cons]
      refine (h x List.mem_cons_self).bind (fun y _ => ?_)
      exact (ih (fun x' hx' => h x' (List.mem_cons_of_mem x hx'))).bind
        (fun ys _ => failsOnly_ok _)

end Errors

end OpenCsv
