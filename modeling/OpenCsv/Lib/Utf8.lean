import OpenCsv.Lib.Bytes

/-!
# UTF-8 text

A text is a byte sequence that is valid UTF-8, as in the host language: an
invalid text cannot be built.  `fromUtf8Lossy` decodes arbitrary bytes and puts
the replacement character in the place of every maximal ill-formed part.

**Results.** The lossy decoder always returns a text, and it returns the bytes
it was given exactly when they were valid already
(`validUtf8_iff_lossy_eq`).
-/

namespace OpenCsv

section Scalars

/-- A continuation byte. -/
def utf8Tail (b : UInt8) : Bool :=
  0x80 ≤ b && b ≤ 0xBF

/-- Second bytes allowed in a three-byte scalar: no overlong forms, no surrogates. -/
def utf8Second₃ (a b : UInt8) : Bool :=
  (a == 0xE0 && 0xA0 ≤ b && b ≤ 0xBF) ||
    (0xE1 ≤ a && a ≤ 0xEC && utf8Tail b) ||
    (a == 0xED && 0x80 ≤ b && b ≤ 0x9F) ||
    (0xEE ≤ a && a ≤ 0xEF && utf8Tail b)

/-- Second bytes allowed in a four-byte scalar: nothing above `U+10FFFF`. -/
def utf8Second₄ (a b : UInt8) : Bool :=
  (a == 0xF0 && 0x90 ≤ b && b ≤ 0xBF) ||
    (0xF1 ≤ a && a ≤ 0xF3 && utf8Tail b) ||
    (a == 0xF4 && 0x80 ≤ b && b ≤ 0x8F)

/-- The encoding of one scalar value. -/
def isUtf8Scalar : List UInt8 → Bool
  | [a] => a < 0x80
  | [a, b] => 0xC2 ≤ a && a ≤ 0xDF && utf8Tail b
  | [a, b, c] => utf8Second₃ a b && utf8Tail c
  | [a, b, c, d] => utf8Second₄ a b && utf8Tail c && utf8Tail d
  | _ => false

/-- Byte sequences that are concatenated scalars. -/
inductive ValidUtf8 : List UInt8 → Prop
  | nil : ValidUtf8 []
  | append
      {cs rest : List UInt8}
      (hscalar : isUtf8Scalar cs = true)
      (hrest : ValidUtf8 rest) :
      ValidUtf8 (cs ++ rest)

/-- The width of the scalar at the front, if there is one. -/
def utf8Width (bs : List UInt8) : Option ℕ :=
  [1, 2, 3, 4].find? (fun w => isUtf8Scalar (bs.take w))

/-- The width of the maximal ill-formed part at the front. -/
def utf8BrokenWidth : List UInt8 → ℕ
  | a :: b :: c :: _ =>
      if utf8Second₄ a b && utf8Tail c then 3
      else if utf8Second₃ a b || utf8Second₄ a b then 2
      else 1
  | [a, b] => if utf8Second₃ a b || utf8Second₄ a b then 2 else 1
  | _ => 1

/-- `U+FFFD`. -/
def utf8Replacement : List UInt8 := [0xEF, 0xBF, 0xBD]

/-- Decode up to `fuel` scalars or ill-formed parts. -/
def lossyAux : ℕ → List UInt8 → List UInt8
  | 0, _ => []
  | _, [] => []
  | fuel + 1, b :: bs =>
      match utf8Width (b :: bs) with
      | some w => (b :: bs).take w ++ lossyAux fuel ((b :: bs).drop w)
      | none => utf8Replacement ++ lossyAux fuel ((b :: bs).drop (utf8BrokenWidth (b :: bs)))

/-- The bytes of `String::from_utf8_lossy`; every step consumes at least one byte. -/
def lossyBytes (bs : List UInt8) : List UInt8 :=
  lossyAux bs.length bs

end Scalars

section Decoding

/-- The scalar at the front is found, whatever follows it. -/
theorem utf8Width_append
    {cs : List UInt8}
    (rest : List UInt8)
    (h : isUtf8Scalar cs = true) :
    utf8Width (cs ++ rest) = some cs.length := by
  rcases cs with _ | ⟨a, _ | ⟨b, _ | ⟨c, _ | ⟨d, _ | ⟨e, cs⟩⟩⟩⟩⟩
  · cases h
  · simp only [isUtf8Scalar, decide_eq_true_eq] at h
    simp [utf8Width, isUtf8Scalar, h]
  · simp only [isUtf8Scalar] at h
    have ha : ¬ a < 0x80 := by
      grind
    simp [utf8Width, isUtf8Scalar, ha, h]
  · simp only [isUtf8Scalar] at h
    -- A three-byte lead is neither ASCII nor a two-byte lead.
    have hlead : 0xE0 ≤ a := by
      grind [utf8Second₃]
    have hascii : ¬ a < 0x80 := by
      grind
    have htwo : ¬ a ≤ 0xDF := by
      grind
    simp [utf8Width, isUtf8Scalar, hascii, htwo, h]
  · simp only [isUtf8Scalar] at h
    have hlead : 0xF0 ≤ a := by
      grind [utf8Second₄]
    have hascii : ¬ a < 0x80 := by
      grind
    have htwo : ¬ a ≤ 0xDF := by
      grind
    have hthree : utf8Second₃ a b = false := by
      grind [utf8Second₃]
    simp [utf8Width, isUtf8Scalar, hascii, htwo, hthree, h]
  · cases h

/-- Valid bytes are decoded to themselves. -/
theorem lossyAux_of_valid
    {bs : List UInt8}
    (h : ValidUtf8 bs) :
    ∀ fuel, bs.length ≤ fuel → lossyAux fuel bs = bs := by
  induction h with
  | nil =>
      intro fuel _
      cases fuel <;> rfl
  | @append cs rest hscalar _ ih =>
      intro fuel hfuel
      have hwidth := utf8Width_append rest hscalar
      rcases cs with _ | ⟨a, cs⟩
      · cases hscalar
      · rcases fuel with _ | fuel
        · simp at hfuel
        · have hrest : rest.length ≤ fuel := by
            simp only [List.length_append, List.length_cons] at hfuel
            omega
          rw [List.cons_append] at hwidth ⊢
          rw [lossyAux, hwidth]
          simp only
          rw [← List.cons_append, List.take_left, List.drop_left, ih fuel hrest]

/-- What the decoder returns is valid. -/
theorem lossyAux_valid
    (fuel : ℕ)
    (bs : List UInt8) :
    ValidUtf8 (lossyAux fuel bs) := by
  induction fuel generalizing bs with
  | zero =>
      exact ValidUtf8.nil
  | succ fuel ih =>
      rcases bs with _ | ⟨b, bs⟩
      · exact ValidUtf8.nil
      · rw [lossyAux]
        cases hwidth : utf8Width (b :: bs) with
        | some w =>
            have hscalar : isUtf8Scalar ((b :: bs).take w) = true := by
              have hfound := List.find?_some hwidth
              simpa using hfound
            exact ValidUtf8.append hscalar (ih _)
        | none =>
            exact ValidUtf8.append (by decide) (ih _)

/-- The lossy decoder keeps the bytes exactly when they are valid. -/
theorem validUtf8_iff_lossy_eq
    {bs : List UInt8} :
    ValidUtf8 bs ↔ lossyBytes bs = bs := by
  constructor
  · intro h
    exact lossyAux_of_valid h _ le_rfl
  · intro h
    rw [← h]
    exact lossyAux_valid _ _

instance (bs : List UInt8) : Decidable (ValidUtf8 bs) :=
  decidable_of_iff' _ validUtf8_iff_lossy_eq

/-- Valid sequences concatenate. -/
theorem ValidUtf8.concat
    {xs ys : List UInt8}
    (hxs : ValidUtf8 xs)
    (hys : ValidUtf8 ys) :
    ValidUtf8 (xs ++ ys) := by
  induction hxs with
  | nil =>
      exact hys
  | append hscalar _ ih =>
      rw [List.append_assoc]
      exact ValidUtf8.append hscalar ih

/-- ASCII bytes are valid. -/
theorem validUtf8_of_ascii
    {bs : List UInt8}
    (h : ∀ b ∈ bs, b < 0x80) :
    ValidUtf8 bs := by
  induction bs with
  | nil =>
      exact ValidUtf8.nil
  | cons b bs ih =>
      have hb : isUtf8Scalar [b] = true := by
        simpa [isUtf8Scalar] using h b List.mem_cons_self
      exact ValidUtf8.append hb (ih (fun b' hb' => h b' (List.mem_cons_of_mem b hb')))

end Decoding

section Text

/-- A text: valid UTF-8 bytes. -/
@[ext] structure Text where
  bytes : List UInt8
  valid : ValidUtf8 bytes

instance : DecidableEq Text :=
  fun s t => decidable_of_iff (s.bytes = t.bytes) Text.ext_iff.symm

namespace Text

/-- `String::from_utf8_lossy`. -/
def fromUtf8Lossy (bs : List UInt8) : Text where
  bytes := lossyBytes bs
  valid := lossyAux_valid _ _

/-- A text literal of the source. -/
def lit (s : String) : Text :=
  fromUtf8Lossy (s.toUTF8.toList)

instance : Append Text where
  append := fun s t => ⟨s.bytes ++ t.bytes, s.valid.concat t.valid⟩

/-- Decimal digits of a number. -/
def ofNat (n : ℕ) : Text :=
  lit (toString n)

/-- `str::starts_with`. -/
def startsWith (s t : Text) : Bool :=
  t.bytes.isPrefixOf s.bytes

theorem startsWith_self
    (s : Text) :
    s.startsWith s = true := by
  simp [startsWith]

end Text

end Text

end OpenCsv
