import OpenCsv.Lib.Compact

/-!
# The order of compact numbers

Compact numbers are floating: a size is an exponent, and several encodings may have one
value.  An encoding is normal when its mantissa cannot move by a byte and holds nothing below
the number.

**Results.** Every encoding that `compactOf` makes is normal (`compactOf_normal`), a normal
encoding is determined by its value (`NormalCompact.unique`), and nothing compact lies between
a number and the value of its encoding (`compactValue_compactOf_le`,
`compactValue_le_of_le`).
-/

namespace OpenCsv

/-- The number of a size and a mantissa. -/
def sizedValue (size mantissa : ℕ) : ℕ :=
  if size ≤ 3 then mantissa / 256 ^ (3 - size) else mantissa * 256 ^ (size - 3)

/-- A mantissa that cannot move by a byte, with no bytes below the number. -/
structure NormalCompact (size mantissa : ℕ) : Prop where
  low : 2 ^ 15 ≤ mantissa
  high : mantissa < 2 ^ 23
  whole : 256 ^ (3 - size) ∣ mantissa

theorem compactValue_eq_sizedValue
    (bits : ℕ) :
    compactValue bits = sizedValue (bits / 2 ^ 24) (bits % 2 ^ 23) :=
  rfl

/-- The parts of an encoding without its sign. -/
theorem compact_parts
    {size mantissa : ℕ}
    (h : mantissa < 2 ^ 23) :
    (size * 2 ^ 24 + mantissa) / 2 ^ 24 = size ∧
      (size * 2 ^ 24 + mantissa) % 2 ^ 23 = mantissa ∧
        (size * 2 ^ 24 + mantissa) / 2 ^ 23 % 2 = 0 := by
  omega

/-- The bytes that a value loses are those below its radix point. -/
theorem sizedValue_le
    (size mantissa : ℕ) :
    sizedValue size mantissa ≤ mantissa * 256 ^ (size - 3) := by
  rw [sizedValue]
  split
  · exact (Nat.div_le_self _ _).trans (Nat.le_mul_of_pos_right _ (by positivity))
  · exact Nat.le_refl _

namespace NormalCompact

variable {size mantissa : ℕ}

/-- The value of a normal encoding, without a division. -/
theorem sizedValue_mul
    (h : NormalCompact size mantissa) :
    sizedValue size mantissa * 256 ^ 3 = mantissa * 256 ^ size := by
  rw [sizedValue]
  split
  · rename_i hsize
    obtain ⟨q, hq⟩ := h.whole
    have hpow : 256 ^ 3 = 256 ^ (3 - size) * 256 ^ size := by
      rw [← pow_add]
      congr 1
      omega
    rw [hq, Nat.mul_div_cancel_left q (by positivity), hpow]
    ring
  · rename_i hsize
    have hpow : 256 ^ size = 256 ^ (size - 3) * 256 ^ 3 := by
      rw [← pow_add]
      congr 1
      omega
    rw [hpow, mul_assoc]

/-- Mantissas within a byte of each other have one exponent. -/
theorem size_le
    {size' mantissa' : ℕ}
    (h : NormalCompact size mantissa)
    (h' : NormalCompact size' mantissa')
    (heq : mantissa * 256 ^ size = mantissa' * 256 ^ size') :
    size' ≤ size := by
  by_contra hlt
  obtain ⟨k, rfl⟩ : ∃ k, size' = size + 1 + k := ⟨size' - (size + 1), by omega⟩
  have hscale : mantissa = mantissa' * 256 ^ (1 + k) := by
    apply Nat.eq_of_mul_eq_mul_right (Nat.pow_pos (by norm_num) : 0 < 256 ^ size)
    rw [heq]
    ring
  have hlow := h'.low
  have hhigh := h.high
  have hpow : 256 ≤ 256 ^ (1 + k) := Nat.le_self_pow (by omega) 256
  have hle : 2 ^ 15 * 256 ≤ mantissa' * 256 ^ (1 + k) := Nat.mul_le_mul hlow hpow
  omega

/-- A value has one normal encoding. -/
theorem unique
    {size' mantissa' : ℕ}
    (h : NormalCompact size mantissa)
    (h' : NormalCompact size' mantissa')
    (heq : sizedValue size mantissa = sizedValue size' mantissa') :
    size = size' ∧ mantissa = mantissa' := by
  have hscaled : mantissa * 256 ^ size = mantissa' * 256 ^ size' := by
    rw [← h.sizedValue_mul, ← h'.sizedValue_mul, heq]
  have hsize : size = size' := Nat.le_antisymm (h'.size_le h hscaled.symm) (h.size_le h' hscaled)
  subst hsize
  exact ⟨rfl, Nat.eq_of_mul_eq_mul_right (Nat.pow_pos (by norm_num)) hscaled⟩

/-- No value lies strictly between a normal one and the next mantissa. -/
theorem le_of_lt_next
    {size' mantissa' : ℕ}
    (h : NormalCompact size mantissa)
    (hhigh : mantissa' < 2 ^ 23)
    (hlt : sizedValue size' mantissa' < sizedValue size mantissa + 256 ^ (size - 3)) :
    sizedValue size' mantissa' ≤ sizedValue size mantissa := by
  by_cases hsize : size ≤ 3
  · have hzero : size - 3 = 0 := by omega
    rw [hzero] at hlt
    omega
  · have hvalue : sizedValue size mantissa = mantissa * 256 ^ (size - 3) := by
      rw [sizedValue, if_neg hsize]
    by_cases hle : size ≤ size'
    · -- a larger exponent: the value is a multiple of the last place
      obtain ⟨k, rfl⟩ : ∃ k, size' = size + k := ⟨size' - size, by omega⟩
      have hvalue' : sizedValue (size + k) mantissa' =
          mantissa' * 256 ^ k * 256 ^ (size - 3) := by
        have hsum : size + k - 3 = k + (size - 3) := by omega
        rw [sizedValue, if_neg (by omega), hsum, pow_add, mul_assoc]
      rw [hvalue, hvalue'] at hlt ⊢
      rw [← Nat.succ_mul] at hlt
      exact Nat.mul_le_mul_right _ (Nat.le_of_lt_succ (Nat.lt_of_mul_lt_mul_right hlt))
    · -- a smaller exponent: the value is below the least normal one
      have hpow : 256 ^ (size - 3) = 256 * 256 ^ (size - 4) := by
        rw [← pow_succ']
        congr 1
        omega
      calc sizedValue size' mantissa'
          ≤ mantissa' * 256 ^ (size' - 3) := sizedValue_le _ _
        _ ≤ 2 ^ 23 * 256 ^ (size - 4) :=
          Nat.mul_le_mul hhigh.le (Nat.pow_le_pow_right (by norm_num) (by omega))
        _ = 2 ^ 15 * 256 ^ (size - 3) := by
          rw [hpow]
          ring
        _ ≤ mantissa * 256 ^ (size - 3) := Nat.mul_le_mul_right _ h.low
        _ = sizedValue size mantissa := hvalue.symm

end NormalCompact

section Encode

/-- The three highest bytes of a number that fills its bytes. -/
theorem topBytes_ge
    {size n : ℕ}
    (hge : 256 ^ size ≤ n) :
    2 ^ 16 ≤ topBytes (size + 1) n := by
  rw [topBytes]
  split
  · rename_i hsize
    calc 2 ^ 16 = 256 ^ size * 256 ^ (3 - (size + 1)) := by
          rw [← pow_add]
          have hsum : size + (3 - (size + 1)) = 2 := by omega
          rw [hsum]
          norm_num
      _ ≤ n * 256 ^ (3 - (size + 1)) := Nat.mul_le_mul_right _ hge
  · rename_i hsize
    rw [Nat.le_div_iff_mul_le (by positivity)]
    calc 2 ^ 16 * 256 ^ (size + 1 - 3) = 256 ^ size := by
          have hbase : (2 : ℕ) ^ 16 = 256 ^ 2 := by norm_num
          rw [hbase, ← pow_add]
          congr 1
          omega
      _ ≤ n := hge

/-- Cutting a number off at a place loses less than that place. -/
theorem div_mul_bounds
    (n : ℕ)
    {place : ℕ}
    (hplace : 0 < place) :
    n / place * place ≤ n ∧ n < n / place * place + place := by
  refine ⟨Nat.div_mul_le_self n place, ?_⟩
  calc n = n / place * place + n % place := (Nat.div_add_mod' n place).symm
    _ < n / place * place + place := Nat.add_lt_add_left (Nat.mod_lt n hplace) _

/-- The encoding of a number is normal, and its value is the number up to its last place. -/
theorem compactOf_normal
    {n : ℕ}
    (hn : 0 < n) :
    ∃ size mantissa, NormalCompact size mantissa ∧
      compactOf n = size * 2 ^ 24 + mantissa ∧ sizedValue size mantissa ≤ n ∧
        n < sizedValue size mantissa + 256 ^ (size - 3) ∧ size ≤ Nat.log 256 n + 2 := by
  have hge : 256 ^ Nat.log 256 n ≤ n := Nat.pow_log_le_self 256 (by omega)
  have hlt : n < 256 ^ (Nat.log 256 n + 1) := Nat.lt_pow_succ_log_self (by norm_num) n
  have hlow := topBytes_ge hge
  have hhigh := topBytes_lt hlt
  rw [compactOf]
  generalize Nat.log 256 n = s at hge hlt hlow hhigh ⊢
  by_cases hsign : topBytes (s + 1) n < 2 ^ 23
  · refine ⟨s + 1, topBytes (s + 1) n, ⟨by omega, hsign, ?_⟩, by rw [if_pos hsign], ?_⟩
    · rw [topBytes]
      split
      · exact Nat.dvd_mul_left _ _
      · rename_i hsize
        have hzero : 3 - (s + 1) = 0 := by omega
        rw [hzero, pow_zero]
        exact Nat.one_dvd _
    · rw [sizedValue, topBytes]
      split
      · rename_i hsize
        have hone : s + 1 - 3 = 0 := by omega
        rw [Nat.mul_div_cancel _ (by positivity), hone]
        omega
      · obtain ⟨hle, hnext⟩ := div_mul_bounds n (by positivity : 0 < 256 ^ (s + 1 - 3))
        exact ⟨hle, hnext, by omega⟩
  · -- the top bit is set: the mantissa loses its last byte
    refine ⟨s + 2, topBytes (s + 1) n / 256, ⟨by omega, by omega, ?_⟩, by rw [if_neg hsign], ?_⟩
    · rw [topBytes]
      split
      · rename_i hsize
        by_cases htwo : s + 2 ≤ 3
        · have hpow : 256 ^ (3 - (s + 1)) = 256 ^ (3 - (s + 2)) * 256 := by
            rw [← pow_succ]
            congr 1
            omega
          rw [hpow, ← mul_assoc, Nat.mul_div_cancel _ (by norm_num)]
          exact Nat.dvd_mul_left _ _
        · have hzero : 3 - (s + 2) = 0 := by omega
          rw [hzero, pow_zero]
          exact Nat.one_dvd _
      · rename_i hsize
        have hzero : 3 - (s + 2) = 0 := by omega
        rw [hzero, pow_zero]
        exact Nat.one_dvd _
    · rw [sizedValue, topBytes]
      by_cases htwo : s + 2 ≤ 3
      · have hpow : 256 ^ (3 - (s + 1)) = 256 ^ (3 - (s + 2)) * 256 := by
          rw [← pow_succ]
          congr 1
          omega
        have hone : s + 2 - 3 = 0 := by omega
        rw [if_pos htwo, if_pos (by omega), hpow, ← mul_assoc,
          Nat.mul_div_cancel _ (by norm_num), Nat.mul_div_cancel _ (by positivity), hone]
        omega
      · have hdiv : (if s + 1 ≤ 3 then n * 256 ^ (3 - (s + 1)) else n / 256 ^ (s + 1 - 3)) / 256 =
            n / 256 ^ (s + 2 - 3) := by
          split
          · have htwo' : s = 2 := by omega
            subst htwo'
            norm_num
          · have hpow : 256 ^ (s + 2 - 3) = 256 ^ (s + 1 - 3) * 256 := by
              rw [← pow_succ]
              congr 1
              omega
            rw [hpow, Nat.div_div_eq_div_mul]
        obtain ⟨hle, hnext⟩ := div_mul_bounds n (by positivity : 0 < 256 ^ (s + 2 - 3))
        rw [if_neg htwo, hdiv]
        exact ⟨hle, hnext, by omega⟩

/-- The encoding rounds down. -/
theorem compactValue_compactOf_le
    {n : ℕ}
    (hn : 0 < n) :
    compactValue (compactOf n) ≤ n := by
  obtain ⟨size, mantissa, hnormal, heq, hle, -⟩ := compactOf_normal hn
  obtain ⟨hsize, hmantissa, -⟩ := @compact_parts size _ hnormal.high
  rwa [compactValue_eq_sizedValue, heq, hsize, hmantissa]

/-- The encoding rounds to the nearest value below. -/
theorem compactValue_le_of_le
    {n bits : ℕ}
    (hn : 0 < n)
    (h : compactValue bits ≤ n) :
    compactValue bits ≤ compactValue (compactOf n) := by
  obtain ⟨size, mantissa, hnormal, heq, -, hnext, -⟩ := compactOf_normal hn
  obtain ⟨hsize, hmantissa, -⟩ := @compact_parts size _ hnormal.high
  rw [compactValue_eq_sizedValue (compactOf n), heq, hsize, hmantissa]
  exact hnormal.le_of_lt_next (Nat.mod_lt _ (by norm_num)) (h.trans_lt hnext)

/-- Encoding gives back exactly the normal encodings. -/
theorem compactOf_compactValue_iff
    {bits : ℕ}
    (hsign : bits / 2 ^ 23 % 2 = 0)
    (hpos : 0 < compactValue bits) :
    compactOf (compactValue bits) = bits ↔ NormalCompact (bits / 2 ^ 24) (bits % 2 ^ 23) := by
  obtain ⟨size, mantissa, hnormal, heq, hle, hnext, -⟩ := compactOf_normal hpos
  obtain ⟨hsize, hmantissa, -⟩ := @compact_parts size _ hnormal.high
  constructor
  · intro h
    rw [← h, heq, hsize, hmantissa]
    exact hnormal
  · intro h
    have hvalue : sizedValue size mantissa = sizedValue (bits / 2 ^ 24) (bits % 2 ^ 23) :=
      Nat.le_antisymm hle (hnormal.le_of_lt_next h.high hnext)
    obtain ⟨rfl, rfl⟩ := hnormal.unique h hvalue
    rw [heq]
    omega

end Encode

end OpenCsv
