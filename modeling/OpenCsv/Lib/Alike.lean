import OpenCsv.Lib.Call

/-!
# Calls that cannot tell two states apart

Two states are alike for a call when the call answers the same from both and leaves states that
are related again.  The rules follow the ways in which calls are put together; a call that first
looks at its whole state continues differently from the two states, so the rules are about two
calls.

**Result.** Sequences keep likeness (`Alike.bind`), whatever the relation on states is.
-/

namespace OpenCsv
namespace Call

variable {ε σ α β : Type}

/-- From `s` and from `t` the two calls answer the same, and leave related states. -/
def Alike
    (R : σ → σ → Prop)
    (c : Call ε σ α)
    (s : σ)
    (d : Call ε σ α)
    (t : σ) : Prop :=
  answer c s = answer d t ∧ R (final c s) (final d t)

section Rules

variable {R : σ → σ → Prop}
variable {s t : σ}

theorem alike_pure
    (h : R s t)
    (a : α) :
    Alike R (pure a : Call ε σ α) s (pure a) t :=
  ⟨rfl, h⟩

/-- Likeness of the whole from likeness of the first half, and of the second after successes. -/
theorem Alike.bind
    {c d : Call ε σ α}
    {f g : α → Call ε σ β}
    (h : Alike R c s d t)
    (hf : ∀ a s' t', c s = .ok a s' → d t = .ok a t' → R s' t' → Alike R (f a) s' (g a) t') :
    Alike R (c >>= f) s (d >>= g) t := by
  obtain ⟨hanswer, hfinal⟩ := h
  unfold Alike answer final at *
  rw [bind_apply, bind_apply]
  rcases hc : c s with ⟨a, s'⟩ | ⟨e, s'⟩ <;> rcases hd : d t with ⟨b, t'⟩ | ⟨e', t'⟩ <;>
    rw [hc, hd] at hanswer hfinal
  · obtain rfl := Except.ok.inj hanswer
    exact hf a s' t' hc hd hfinal
  · cases hanswer
  · cases hanswer
  · exact ⟨congrArg _ (Except.error.inj hanswer), hfinal⟩

theorem alike_get
    {f g : σ → Call ε σ β}
    (h : Alike R (f s) s (g t) t) :
    Alike R ((get : Call ε σ σ) >>= f) s ((get : Call ε σ σ) >>= g) t :=
  h

theorem alike_modify
    {u v : σ → σ}
    {f g : PUnit → Call ε σ β}
    (h : Alike R (f ⟨⟩) (u s) (g ⟨⟩) (v t)) :
    Alike R ((modify u : Call ε σ PUnit) >>= f) s ((modify v : Call ε σ PUnit) >>= g) t :=
  h

/-- A question that both states answer the same. -/
theorem alike_reads
    {p q : σ → Except ε α}
    (h : R s t)
    (hread : p s = q t) :
    Alike R (reads p) s (reads q) t := by
  unfold Alike answer final reads
  rw [hread]
  cases q t <;> exact ⟨rfl, h⟩

theorem alike_reads_bind
    {p q : σ → Except ε α}
    {f g : α → Call ε σ β}
    (h : R s t)
    (hread : p s = q t)
    (hf : ∀ a, p s = .ok a → Alike R (f a) s (g a) t) :
    Alike R (reads p >>= f) s (reads q >>= g) t := by
  refine (alike_reads h hread).bind ?_
  intro a s' t' hc hd _
  unfold reads at hc hd
  rw [hread] at hc hf
  cases hq : q t with
  | error e =>
      rw [hq] at hc
      cases hc
  | ok b =>
      rw [hq] at hc hd
      obtain ⟨rfl, rfl⟩ := EStateM.Result.ok.inj hc
      obtain ⟨-, rfl⟩ := EStateM.Result.ok.inj hd
      exact hf b hq

theorem alike_lift_bind
    {x : Except ε α}
    {f g : α → Call ε σ β}
    (h : R s t)
    (hf : ∀ a, x = .ok a → Alike R (f a) s (g a) t) :
    Alike R (lift x >>= f) s (lift x >>= g) t := by
  cases x with
  | error e => exact ⟨rfl, h⟩
  | ok a => exact hf a rfl

theorem alike_demand_bind
    {check check' : Bool}
    {e : ε}
    {f g : Unit → Call ε σ β}
    (h : R s t)
    (hcheck : check = check')
    (hf : check = true → Alike R (f ()) s (g ()) t) :
    Alike R (demand check e >>= f) s (demand check' e >>= g) t := by
  subst hcheck
  cases check with
  | false => exact ⟨rfl, h⟩
  | true => exact hf rfl

theorem alike_ite
    {p : Prop} [Decidable p]
    {c c' d d' : Call ε σ α}
    (hpos : p → Alike R c s d t)
    (hneg : ¬p → Alike R c' s d' t) :
    Alike R (if p then c else c') s (if p then d else d') t := by
  split_ifs with hp
  · exact hpos hp
  · exact hneg hp

end Rules

end Call
end OpenCsv
