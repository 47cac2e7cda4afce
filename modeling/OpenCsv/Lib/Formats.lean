import OpenCsv.Lib.Cursor

/-!
# Reads that invert an encoding

A read has a format when it succeeds exactly on the strings that start with the encoding
of a valid value, answers this value and leaves the rest.  So it reads back what was
encoded, takes nothing else, and neither more nor fewer bytes.

Reads in sequence are described by rewriting: `bind_eq_ok_iff` and its companions turn a
successful sequence into what each of its reads says about the bytes.
-/

namespace OpenCsv

open Call

variable {ε σ α β : Type}

namespace Call

/-! What a sequence does when it succeeds. -/

theorem bind_eq_ok_iff
    {c : Call ε σ α}
    {f : α → Call ε σ β}
    {s s' : σ}
    {b : β} :
    (c >>= f) s = .ok b s' ↔ ∃ a t, c s = .ok a t ∧ f a t = .ok b s' := by
  rw [bind_apply]
  cases c s <;> simp

theorem pure_eq_ok_iff
    {s s' : σ}
    {a b : α} :
    (pure a : Call ε σ α) s = .ok b s' ↔ a = b ∧ s = s' := by
  show EStateM.Result.ok a s = .ok b s' ↔ _
  rw [EStateM.Result.ok.injEq]

theorem demand_eq_ok_iff
    {check : Bool}
    {e : ε}
    {s s' : σ}
    {u : Unit} :
    (demand check e : Call ε σ Unit) s = .ok u s' ↔ check = true ∧ s = s' := by
  cases check
  · show EStateM.Result.error e s = .ok u s' ↔ _
    simp
  · show EStateM.Result.ok () s = .ok u s' ↔ _
    rw [EStateM.Result.ok.injEq]
    simp

theorem throw_eq_ok_iff
    {e : ε}
    {s s' : σ}
    {a : α} :
    (throw e : Call ε σ α) s = .ok a s' ↔ False := by
  show EStateM.Result.error e s = .ok a s' ↔ _
  simp

theorem get_eq_ok_iff
    {s s' a : σ} :
    (get : Call ε σ σ) s = .ok a s' ↔ s = a ∧ s = s' := by
  show EStateM.Result.ok s s = .ok a s' ↔ _
  rw [EStateM.Result.ok.injEq]

theorem answer_eq_ok_iff
    {c : Call ε σ α}
    {s : σ}
    {a : α} :
    answer c s = .ok a ↔ ∃ s', c s = .ok a s' := by
  unfold answer
  cases c s <;> simp

theorem answer_eq_error_iff
    {c : Call ε σ α}
    {s : σ}
    {e : ε} :
    answer c s = .error e ↔ ∃ s', c s = .error e s' := by
  unfold answer
  cases c s <;> simp

end Call

/-- `read` succeeds exactly on what starts with the encoding of a valid value. -/
def Format (valid : α → Prop) (enc : α → List UInt8) (read : Cursor ε α) : Prop :=
  ∀ s a rest, read s = .ok a rest ↔ valid a ∧ s = enc a ++ rest

namespace Format

variable {valid : α → Prop}
variable {enc : α → List UInt8}
variable {read : Cursor ε α}

/-- A valid value is read back. -/
theorem decodes
    (h : Format valid enc read)
    {a : α}
    (ha : valid a) :
    Decodes read (enc a) a :=
  fun rest => (h _ a rest).mpr ⟨ha, rfl⟩

/-- The same format of a value with another face. -/
theorem map
    {valid' : β → Prop}
    {enc' : β → List UInt8}
    {f : α → β}
    {g : β → α}
    (h : Format valid enc read)
    (hf : ∀ a, valid a → valid' (f a) ∧ g (f a) = a)
    (hg : ∀ b, valid' b → valid (g b) ∧ f (g b) = b)
    (henc : ∀ b, valid' b → enc' b = enc (g b)) :
    Format valid' enc' (read >>= fun a => pure (f a)) := by
  intro s b rest
  simp only [bind_eq_ok_iff, h _ _ _, pure_eq_ok_iff]
  constructor
  · rintro ⟨a, t, ⟨ha, rfl⟩, rfl, rfl⟩
    obtain ⟨hvalid, hga⟩ := hf a ha
    exact ⟨hvalid, by rw [henc _ hvalid, hga]⟩
  · rintro ⟨hb, rfl⟩
    obtain ⟨hvalid, hfg⟩ := hg b hb
    exact ⟨g b, rest, ⟨hvalid, by rw [henc b hb]⟩, hfg, rfl⟩

end Format

end OpenCsv
