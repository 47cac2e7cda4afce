import OpenCsv.Lib.Bytes

/-!
# Self-delimiting encodings

An encoding is self-delimiting on a set of values when a string that starts with the
encoding of one of them starts with no other's.  Concatenations of such encodings can be
taken apart again, so a structure that is written field by field is determined by its
bytes.

**Results.** Encodings of one length (`delimits_of_length`), pairs
(`Delimits.append`), and lists of known length (`Delimits.flatMap`) or of any
(`Delimits.flatMap_injective`).
-/

namespace OpenCsv

universe u v w

variable {α : Type u}
variable {β : Type v}
variable {γ : Type w}

/-- What starts with the encoding of a value starts with that of no other value. -/
def Delimits (P : α → Prop) (enc : α → List γ) : Prop :=
  ∀ a b, P a → P b → ∀ s t, enc a ++ s = enc b ++ t → a = b ∧ s = t

/-- Different values have different encodings. -/
theorem Delimits.eq_of_enc_eq
    {P : α → Prop}
    {enc : α → List γ}
    (h : Delimits P enc)
    {a b : α}
    (ha : P a)
    (hb : P b)
    (heq : enc a = enc b) :
    a = b :=
  (h a b ha hb [] [] (by rw [heq])).1

/-- An injective encoding into strings of one length. -/
theorem delimits_of_length
    {P : α → Prop}
    {enc : α → List γ}
    {n : ℕ}
    (hlength : ∀ a, P a → (enc a).length = n)
    (hinj : ∀ a b, P a → P b → enc a = enc b → a = b) :
    Delimits P enc := by
  intro a b ha hb s t heq
  have hsame : (enc a).length = (enc b).length := by
    rw [hlength a ha, hlength b hb]
  obtain ⟨henc, hrest⟩ := List.append_inj heq hsame
  exact ⟨hinj a b ha hb henc, hrest⟩

/-- One value after another. -/
theorem Delimits.append
    {P : α → Prop}
    {Q : β → Prop}
    {enc : α → List γ}
    {enc' : β → List γ}
    (h : Delimits P enc)
    (h' : Delimits Q enc') :
    Delimits (fun p : α × β => P p.1 ∧ Q p.2) (fun p => enc p.1 ++ enc' p.2) := by
  rintro ⟨a, b⟩ ⟨a', b'⟩ ⟨ha, hb⟩ ⟨ha', hb'⟩ s t heq
  simp only [List.append_assoc] at heq
  obtain ⟨rfl, hrest⟩ := h a a' ha ha' _ _ heq
  obtain ⟨rfl, hst⟩ := h' b b' hb hb' _ _ hrest
  exact ⟨rfl, hst⟩

/-- The same encoding of something that the encoded value determines. -/
theorem Delimits.comap
    {P : α → Prop}
    {Q : β → Prop}
    {enc : α → List γ}
    {f : β → α}
    (h : Delimits P enc)
    (hP : ∀ b, Q b → P (f b))
    (hinj : ∀ b b', Q b → Q b' → f b = f b' → b = b') :
    Delimits Q (fun b => enc (f b)) := by
  intro b b' hb hb' s t heq
  obtain ⟨hf, hst⟩ := h (f b) (f b') (hP b hb) (hP b' hb') s t heq
  exact ⟨hinj b b' hb hb' hf, hst⟩

/-- Lists of the same length. -/
theorem Delimits.flatMap
    {P : α → Prop}
    {enc : α → List γ}
    (h : Delimits P enc)
    (n : ℕ) :
    Delimits (fun l : List α => l.length = n ∧ ∀ a ∈ l, P a) (fun l => l.flatMap enc) := by
  intro l l' hl hl' s t heq
  induction n generalizing l l' with
  | zero =>
      obtain rfl := List.length_eq_zero_iff.mp hl.1
      obtain rfl := List.length_eq_zero_iff.mp hl'.1
      exact ⟨rfl, heq⟩
  | succ n ih =>
      obtain ⟨a, l, rfl⟩ := List.exists_cons_of_length_eq_add_one hl.1
      obtain ⟨a', l', rfl⟩ := List.exists_cons_of_length_eq_add_one hl'.1
      simp only [List.flatMap_cons, List.append_assoc] at heq
      obtain ⟨rfl, hrest⟩ :=
        h a a' (hl.2 a List.mem_cons_self) (hl'.2 a' List.mem_cons_self) _ _ heq
      obtain ⟨rfl, hst⟩ := ih l l'
        ⟨Nat.succ.inj hl.1, fun b hb => hl.2 b (List.mem_cons_of_mem a hb)⟩
        ⟨Nat.succ.inj hl'.1, fun b hb => hl'.2 b (List.mem_cons_of_mem a hb)⟩ hrest
      exact ⟨rfl, hst⟩

/-- Lists of any length, when no encoding is empty. -/
theorem Delimits.flatMap_injective
    {P : α → Prop}
    {enc : α → List γ}
    (h : Delimits P enc)
    (hne : ∀ a, P a → enc a ≠ [])
    {l l' : List α}
    (hl : ∀ a ∈ l, P a)
    (hl' : ∀ a ∈ l', P a)
    (heq : l.flatMap enc = l'.flatMap enc) :
    l = l' := by
  induction l generalizing l' with
  | nil =>
      cases l' with
      | nil => rfl
      | cons a' l' =>
          rw [List.flatMap_nil, List.flatMap_cons] at heq
          exact absurd (List.append_eq_nil_iff.mp heq.symm).1 (hne a' (hl' a' List.mem_cons_self))
  | cons a l ih =>
      cases l' with
      | nil =>
          rw [List.flatMap_nil, List.flatMap_cons] at heq
          exact absurd (List.append_eq_nil_iff.mp heq).1 (hne a (hl a List.mem_cons_self))
      | cons a' l' =>
          rw [List.flatMap_cons, List.flatMap_cons] at heq
          obtain ⟨rfl, hrest⟩ :=
            h a a' (hl a List.mem_cons_self) (hl' a' List.mem_cons_self) _ _ heq
          rw [ih (fun b hb => hl b (List.mem_cons_of_mem a hb))
            (fun b hb => hl' b (List.mem_cons_of_mem a hb)) hrest]

/-- A length, and then so many elements. -/
theorem Delimits.counted
    {P : α → Prop}
    {Q : ℕ → Prop}
    {enc : α → List γ}
    {count : ℕ → List γ}
    (hcount : Delimits Q count)
    (h : Delimits P enc) :
    Delimits (fun l : List α => Q l.length ∧ ∀ a ∈ l, P a)
      (fun l => count l.length ++ l.flatMap enc) := by
  intro l l' hl hl' s t heq
  simp only [List.append_assoc] at heq
  obtain ⟨hlength, hrest⟩ := hcount l.length l'.length hl.1 hl'.1 _ _ heq
  exact h.flatMap l'.length l l' ⟨hlength, hl.2⟩ ⟨rfl, hl'.2⟩ s t hrest

end OpenCsv
