import OpenCsv.Lib.Rice

/-!
# Groups of bits

Numbers as their low bits, the highest first, and bytes as the groups of eight bits of a list.

**Results.** The bits of a number that is shifted in are those of its parts
(`lowBits_shiftIn`), and the octets of the bits of bytes are the bytes, with the bits left over
(`octets_flatMap`).
-/

namespace OpenCsv

section LowBits

@[simp] theorem lowBits_length
    (n x : ℕ) :
    (lowBits n x).length = n := by
  induction n with
  | zero =>
      rfl
  | succ n ih =>
      simp [lowBits, ih]

/-- The low bits of numbers that agree in them. -/
theorem lowBits_congr
    {n x y : ℕ}
    (h : ∀ i < n, x.testBit i = y.testBit i) :
    lowBits n x = lowBits n y := by
  induction n with
  | zero =>
      rfl
  | succ n ih =>
      rw [lowBits, lowBits, h n (Nat.lt_succ_self n), ih (fun i hi => h i (Nat.lt_succ_of_lt hi))]

/-- Higher bits do not count. -/
theorem lowBits_mod
    {n k : ℕ}
    (x : ℕ)
    (h : n ≤ k) :
    lowBits n (x % 2 ^ k) = lowBits n x := by
  apply lowBits_congr
  intro i hi
  rw [Nat.testBit_mod_two_pow, decide_eq_true (hi.trans_le h), Bool.true_and]

theorem lowBits_zero
    (n : ℕ) :
    lowBits n 0 = List.replicate n false := by
  induction n with
  | zero =>
      rfl
  | succ n ih =>
      rw [lowBits, ih, Nat.zero_testBit, List.replicate_succ]

/-- The high part of the low bits, and the low part. -/
theorem lowBits_add
    (m n x : ℕ) :
    lowBits (m + n) x = lowBits m (x / 2 ^ n) ++ lowBits n x := by
  induction m with
  | zero =>
      simp [lowBits]
  | succ m ih =>
      have hsum : m + 1 + n = m + n + 1 := by omega
      rw [hsum, lowBits, ih, lowBits, Nat.testBit_div_two_pow, List.cons_append]

/-- A number shifted in below another. -/
theorem lowBits_shiftIn
    {m n y : ℕ}
    (x : ℕ)
    (hy : y < 2 ^ n) :
    lowBits (m + n) (x * 2 ^ n + y) = lowBits m x ++ lowBits n y := by
  have hdiv : (x * 2 ^ n + y) / 2 ^ n = x := by
    rw [Nat.mul_comm, Nat.mul_add_div (by positivity), Nat.div_eq_of_lt hy, Nat.add_zero]
  have hmod : (x * 2 ^ n + y) % 2 ^ n = y := by
    rw [Nat.mul_comm, Nat.mul_add_mod, Nat.mod_eq_of_lt hy]
  rw [lowBits_add, hdiv, ← lowBits_mod (x * 2 ^ n + y) (Nat.le_refl n), hmod]

/-- The number that bits spell, the highest first. -/
def bitsNat (bits : List Bool) : ℕ :=
  bits.foldl (fun n b => 2 * n + b.toNat) 0

theorem bitsNat_lowBits
    (n x : ℕ) :
    bitsNat (lowBits n x) = x % 2 ^ n := by
  have hfold : ∀ (n start : ℕ), (lowBits n x).foldl (fun n b => 2 * n + b.toNat) start =
      start * 2 ^ n + x % 2 ^ n := by
    intro n
    induction n with
    | zero =>
        intro start
        simp [lowBits, Nat.mod_one]
    | succ n ih =>
        intro start
        rw [lowBits, List.foldl_cons, ih, mod_two_pow_succ_eq, pow_succ]
        ring
  simpa [bitsNat] using hfold n 0

end LowBits

section Octets

/-- The bytes of a list of bits, and the bits that do not fill a byte. -/
def octets : List Bool → List UInt8 × List Bool
  | b₀ :: b₁ :: b₂ :: b₃ :: b₄ :: b₅ :: b₆ :: b₇ :: bits =>
      (UInt8.ofNat (bitsNat [b₀, b₁, b₂, b₃, b₄, b₅, b₆, b₇]) :: (octets bits).1, (octets bits).2)
  | bits => ([], bits)

theorem octets_of_short
    {bits : List Bool}
    (h : bits.length < 8) :
    octets bits = ([], bits) := by
  rw [octets]
  rintro b₀ b₁ b₂ b₃ b₄ b₅ b₆ b₇ bits rfl
  simp only [List.length_cons] at h
  omega

theorem octets_lowBits
    (x : ℕ)
    (rest : List Bool) :
    octets (lowBits 8 x ++ rest) =
      (UInt8.ofNat (bitsNat (lowBits 8 x)) :: (octets rest).1, (octets rest).2) :=
  rfl

/-- The octets of the bits of bytes. -/
theorem octets_flatMap
    (bytes : List UInt8)
    {rest : List Bool}
    (h : rest.length < 8) :
    octets (bytes.flatMap (fun b => lowBits 8 b.toNat) ++ rest) = (bytes, rest) := by
  induction bytes with
  | nil =>
      exact octets_of_short h
  | cons b bytes ih =>
      have hbyte : UInt8.ofNat (bitsNat (lowBits 8 b.toNat)) = b := by
        rw [bitsNat_lowBits, Nat.mod_eq_of_lt b.toNat_lt, UInt8.ofNat_toNat]
      rw [List.flatMap_cons, List.append_assoc, octets_lowBits, ih, hbyte]

end Octets

end OpenCsv
