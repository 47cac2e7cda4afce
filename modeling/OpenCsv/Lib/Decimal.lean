import Mathlib.Data.Nat.Log
import OpenCsv.Lib.Sorting
import OpenCsv.Lib.Utf8

/-!
# Decimal texts

A number below `10 ^ w` written with `w` digits, zeros in front, and a number written
without leading zeros.

**Results.** The text is read back as the number (`decimalValue_digits`,
`parseNat_natDigits`), and the lexicographic order of two texts of one width is the order
of the numbers (`bytesLe_digits_iff`).  A number that was cut off is still a number
(`parseNat_of_prefix`).
-/

namespace OpenCsv

/-- The `w` low decimal digits of a number, most significant first. -/
def decimalDigits : ℕ → ℕ → List UInt8
  | 0, _ => []
  | w + 1, n => UInt8.ofNat (0x30 + n / 10 ^ w % 10) :: decimalDigits w n

/-- The number a digit string stands for. -/
def decimalValue : List UInt8 → ℕ
  | [] => 0
  | d :: ds => (d.toNat - 0x30) * 10 ^ ds.length + decimalValue ds

/-- An ASCII digit. -/
def isDecimalDigit (b : UInt8) : Bool :=
  0x30 ≤ b && b ≤ 0x39

theorem toNat_decimalDigit
    (d : ℕ) :
    (UInt8.ofNat (0x30 + d % 10)).toNat = 0x30 + d % 10 := by
  rw [UInt8.toNat_ofNat_of_lt']
  have hd := Nat.mod_lt d (show 0 < 10 by omega)
  show 0x30 + d % 10 < 256
  omega

@[simp] theorem length_decimalDigits
    (w n : ℕ) :
    (decimalDigits w n).length = w := by
  induction w with
  | zero =>
      rfl
  | succ w ih =>
      simp [decimalDigits, ih]

theorem isDecimalDigit_decimalDigits
    {w n : ℕ} :
    ∀ b ∈ decimalDigits w n, isDecimalDigit b = true := by
  induction w with
  | zero =>
      simp [decimalDigits]
  | succ w ih =>
      intro b hb
      rcases List.mem_cons.mp hb with rfl | hb
      · have hd := Nat.mod_lt (n / 10 ^ w) (show 0 < 10 by omega)
        simp only [isDecimalDigit, Bool.and_eq_true, decide_eq_true_eq, UInt8.le_iff_toNat_le,
          toNat_decimalDigit]
        constructor
        · show 48 ≤ _
          omega
        · show _ ≤ 57
          omega
      · exact ih b hb

theorem decimalDigits_ascii
    {w n : ℕ} :
    ∀ b ∈ decimalDigits w n, b < 0x80 := by
  intro b hb
  have h := isDecimalDigit_decimalDigits b hb
  simp only [isDecimalDigit, Bool.and_eq_true, decide_eq_true_eq, UInt8.le_iff_toNat_le] at h
  rw [UInt8.lt_iff_toNat_lt]
  have h' : b.toNat ≤ 57 := h.2
  show b.toNat < 128
  omega

/-- The number of a digit string is the part of the number that it shows. -/
theorem decimalValue_digits
    (w n : ℕ) :
    decimalValue (decimalDigits w n) = n % 10 ^ w := by
  induction w with
  | zero =>
      simp [decimalDigits, decimalValue, Nat.mod_one]
  | succ w ih =>
      rw [decimalDigits, decimalValue, toNat_decimalDigit, length_decimalDigits, ih,
        Nat.add_sub_cancel_left, Nat.pow_succ, Nat.mod_mul, Nat.mul_comm, Nat.add_comm]

/-- Texts of one width are ordered as the numbers they show. -/
theorem bytesLe_digits_iff
    (w a b : ℕ) :
    bytesLe (decimalDigits w a) (decimalDigits w b) = true ↔ a % 10 ^ w ≤ b % 10 ^ w := by
  induction w with
  | zero =>
      simp [decimalDigits, bytesLe, Nat.mod_one]
  | succ w ih =>
      have ha := Nat.mod_lt a (Nat.pow_pos (n := w) (show 0 < 10 by omega))
      have hb := Nat.mod_lt b (Nat.pow_pos (n := w) (show 0 < 10 by omega))
      -- The first digits decide unless they agree; then the rest does.
      simp only [decimalDigits, bytesLe, Bool.or_eq_true, decide_eq_true_eq, Bool.and_eq_true,
        beq_iff_eq, UInt8.lt_iff_toNat_lt, ← UInt8.toNat_inj, toNat_decimalDigit, ih,
        Nat.pow_succ, Nat.mod_mul]
      generalize a / 10 ^ w % 10 = x
      generalize b / 10 ^ w % 10 = y
      generalize a % 10 ^ w = r at ha ⊢
      generalize b % 10 ^ w = r' at hb ⊢
      generalize 10 ^ w = m at ha hb ⊢
      rcases lt_trichotomy x y with hlt | heq | hgt
      · have h : m * (x + 1) ≤ m * y := Nat.mul_le_mul_left m hlt
        rw [Nat.mul_add, Nat.mul_one] at h
        constructor
        · intro _
          omega
        · intro _
          exact Or.inl (by omega)
      · subst heq
        omega
      · have h : m * (y + 1) ≤ m * x := Nat.mul_le_mul_left m hgt
        rw [Nat.mul_add, Nat.mul_one] at h
        constructor
        · rintro (hx | ⟨hx, -⟩)
          · omega
          · omega
        · intro hle
          omega

/-- A fixed-width decimal text. -/
def decimalText (w n : ℕ) : Text where
  bytes := decimalDigits w n
  valid := validUtf8_of_ascii decimalDigits_ascii

section Numbers

/-- The digits of a number, without leading zeros. -/
def natDigits (n : ℕ) : List UInt8 :=
  decimalDigits (Nat.log 10 n + 1) n

/-- An unsigned number below the bound; a plus sign may stand before its digits. -/
def parseNat (bound : ℕ) (s : List UInt8) : Option ℕ :=
  let digits := if s.head? = some 0x2B then s.tail else s
  if digits ≠ [] ∧ digits.all isDecimalDigit = true ∧ decimalValue digits < bound then
    some (decimalValue digits)
  else
    none

theorem natDigits_ne_nil
    (n : ℕ) :
    natDigits n ≠ [] := by
  intro h
  have hlength := congrArg List.length h
  rw [natDigits, length_decimalDigits] at hlength
  exact Nat.succ_ne_zero _ hlength

theorem decimalValue_natDigits
    (n : ℕ) :
    decimalValue (natDigits n) = n := by
  rw [natDigits, decimalValue_digits]
  exact Nat.mod_eq_of_lt (Nat.lt_pow_succ_log_self (by decide) n)

theorem decimalValue_append
    (ds ds' : List UInt8) :
    decimalValue (ds ++ ds') = decimalValue ds * 10 ^ ds'.length + decimalValue ds' := by
  induction ds with
  | nil =>
      simp [decimalValue]
  | cons d ds ih =>
      rw [List.cons_append, decimalValue, ih, decimalValue, List.length_append, Nat.pow_add,
        Nat.add_mul, Nat.mul_assoc, Nat.add_assoc]

/-- Digits are read as the number they show. -/
theorem parseNat_of_digits
    {bound : ℕ}
    {ds : List UInt8}
    (hne : ds ≠ [])
    (hdigits : ∀ d ∈ ds, isDecimalDigit d = true)
    (hbound : decimalValue ds < bound) :
    parseNat bound ds = some (decimalValue ds) := by
  have hhead : ds.head? ≠ some 0x2B := by
    intro h
    exact absurd (hdigits 0x2B (List.mem_of_mem_head? h)) (by decide)
  simp only [parseNat, if_neg hhead]
  exact if_pos ⟨hne, List.all_eq_true.mpr hdigits, hbound⟩

theorem parseNat_natDigits
    {bound n : ℕ}
    (h : n < bound) :
    parseNat bound (natDigits n) = some n := by
  have hvalue := decimalValue_natDigits n
  rw [parseNat_of_digits (natDigits_ne_nil n) isDecimalDigit_decimalDigits (by rwa [hvalue]),
    hvalue]

/-- A number that was cut off after some digit is read as a number. -/
theorem parseNat_of_prefix
    {bound n : ℕ}
    (h : n < bound)
    {ds : List UInt8}
    (hds : ds <+: natDigits n)
    (hne : ds ≠ []) :
    ∃ k, parseNat bound ds = some k := by
  obtain ⟨rest, hrest⟩ := hds
  have hdigits : ∀ d ∈ ds, isDecimalDigit d = true := by
    intro d hd
    refine isDecimalDigit_decimalDigits (w := Nat.log 10 n + 1) (n := n) d ?_
    show d ∈ natDigits n
    rw [← hrest]
    exact List.mem_append_left rest hd
  have hle : decimalValue ds ≤ n := by
    have hvalue := decimalValue_natDigits n
    rw [← hrest, decimalValue_append] at hvalue
    have hpos : 0 < 10 ^ rest.length := Nat.pow_pos (by decide)
    have hmul := Nat.le_mul_of_pos_right (decimalValue ds) hpos
    omega
  exact ⟨_, parseNat_of_digits hne hdigits (by omega)⟩

end Numbers

end OpenCsv
