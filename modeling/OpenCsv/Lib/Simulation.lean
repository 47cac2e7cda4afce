import OpenCsv.Lib.Call

/-!
# Calls that simulate each other

A call on a richer state does the same as a call on a plainer one: from related states
both succeed with the same value and leave related states, or both fail with related
errors.  The rules follow the ways in which calls are put together; a step that only the
richer call makes is skipped when it keeps the relation.
-/

namespace OpenCsv
namespace Call

variable {ε δ σ τ α β : Type}

/-- From related states `c` and `d` end alike. -/
def Simulates
    (R : σ → τ → Prop)
    (E : ε → σ → δ → Prop)
    (c : Call ε σ α)
    (d : Call δ τ α) : Prop :=
  ∀ s t, R s t →
    match c s, d t with
    | .ok a s', .ok b t' => a = b ∧ R s' t'
    | .error e s', .error e' _ => E e s' e'
    | _, _ => False

variable {R : σ → τ → Prop}
variable {E : ε → σ → δ → Prop}

theorem simulates_pure
    (a : α) :
    Simulates R E (pure a) (pure a) :=
  fun _ _ h => ⟨rfl, h⟩

theorem simulates_throw
    {e : ε}
    {e' : δ}
    (h : ∀ s t, R s t → E e s e') :
    Simulates R E (throw e : Call ε σ α) (throw e') :=
  h

/-- Sequences whose halves do alike; the second ones may use what is known of the value. -/
theorem Simulates.bind_of
    {c : Call ε σ α}
    {d : Call δ τ α}
    {f : α → Call ε σ β}
    {g : α → Call δ τ β}
    (P : α → Prop)
    (h : Simulates R E c d)
    (hP : ∀ s t a s', R s t → c s = .ok a s' → P a)
    (hf : ∀ a, P a → Simulates R E (f a) (g a)) :
    Simulates R E (c >>= f) (d >>= g) := by
  intro s t hst
  have hcd := h s t hst
  rw [bind_apply, bind_apply]
  rcases hc : c s with ⟨a, s'⟩ | ⟨e, s'⟩ <;> rcases hd : d t with ⟨b, t'⟩ | ⟨e', t'⟩ <;>
    rw [hc, hd] at hcd
  · obtain ⟨rfl, hst'⟩ := hcd
    exact hf a (hP s t a s' hst hc) s' t' hst'
  · exact hcd.elim
  · exact hcd.elim
  · exact hcd

/-- The same, with nothing known. -/
theorem Simulates.bind
    {c : Call ε σ α}
    {d : Call δ τ α}
    {f : α → Call ε σ β}
    {g : α → Call δ τ β}
    (h : Simulates R E c d)
    (hf : ∀ a, Simulates R E (f a) (g a)) :
    Simulates R E (c >>= f) (d >>= g) :=
  h.bind_of (fun _ => True) (fun _ _ _ _ _ _ => trivial) (fun a _ => hf a)

theorem simulates_demand
    {check check' : Bool}
    {e : ε}
    {e' : δ}
    (hcheck : check = check')
    (h : ∀ s t, R s t → E e s e') :
    Simulates R E (demand check e) (demand check' e') := by
  subst hcheck
  cases check
  · exact simulates_throw h
  · exact simulates_pure ()

theorem simulates_ite
    {p : Prop} [Decidable p]
    {c c' : Call ε σ α}
    {d d' : Call δ τ α}
    (hpos : p → Simulates R E c d)
    (hneg : ¬p → Simulates R E c' d') :
    Simulates R E (if p then c else c') (if p then d else d') := by
  split
  · next hp => exact hpos hp
  · next hp => exact hneg hp

/-- A step of the richer call alone. -/
theorem simulates_skip
    {c : Call ε σ α}
    {f : α → Call ε σ β}
    {d : Call δ τ β}
    (P : α → Prop)
    (hc : ∀ s t, R s t → ∃ a s', c s = .ok a s' ∧ R s' t ∧ P a)
    (hf : ∀ a, P a → Simulates R E (f a) d) :
    Simulates R E (c >>= f) d := by
  intro s t hst
  obtain ⟨a, s', hcs, hst', hP⟩ := hc s t hst
  rw [bind_apply, hcs]
  exact hf a hP s' t hst'

/-- What the plainer call answers, the richer one answers, in a related state. -/
theorem Simulates.ok
    {c : Call ε σ α}
    {d : Call δ τ α}
    {s : σ}
    {t t' : τ}
    {a : α}
    (h : Simulates R E c d)
    (hst : R s t)
    (hd : d t = .ok a t') :
    ∃ s', c s = .ok a s' ∧ R s' t' := by
  have hcd := h s t hst
  rw [hd] at hcd
  rcases hc : c s with ⟨b, s'⟩ | ⟨e, s'⟩ <;> rw [hc] at hcd
  · obtain ⟨rfl, hst'⟩ := hcd
    exact ⟨s', rfl, hst'⟩
  · exact hcd.elim

/-- Where the plainer call fails, the richer one does. -/
theorem Simulates.error
    {c : Call ε σ α}
    {d : Call δ τ α}
    {s : σ}
    {t t' : τ}
    {e' : δ}
    (h : Simulates R E c d)
    (hst : R s t)
    (hd : d t = .error e' t') :
    ∃ e s', c s = .error e s' ∧ E e s' e' := by
  have hcd := h s t hst
  rw [hd] at hcd
  rcases hc : c s with ⟨b, s'⟩ | ⟨e, s'⟩ <;> rw [hc] at hcd
  · exact hcd.elim
  · exact ⟨e, s', rfl, hcd⟩

end Call
end OpenCsv
