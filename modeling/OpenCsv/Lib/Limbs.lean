import Mathlib.Data.ZMod.Basic
import Mathlib.FieldTheory.Finite.Basic
import Mathlib.NumberTheory.LucasPrimality
import Mathlib.Tactic

/-!
# Limb arithmetic over a prime field

Sums of numbers that are split into limbs can be compared inside a prime field,
limb by limb with carries, as long as the limbs are small against the modulus.
A carry is constrained to `{-1, 0, 1}` by one cubic equation, and a field
equation between small integers is an equation over the integers.

`squareMod` evaluates powers with exponent `2 ^ k`, which is how primality of a
modulus `2 ^ k * m + 1` is checked.
-/

namespace OpenCsv

section Carries

variable {p : ℕ} [Fact p.Prime]

/-- The cubic constraint on a carry leaves three values. -/
theorem carry_cases
    {c : ZMod p}
    (h : c * (c - 1) * (c + 1) = 0) :
    ∃ k : ℤ, (k = -1 ∨ k = 0 ∨ k = 1) ∧ c = (k : ZMod p) := by
  rcases mul_eq_zero.mp h with h | h
  · rcases mul_eq_zero.mp h with h | h
    · exact ⟨0, Or.inr (Or.inl rfl), by simpa using h⟩
    · exact ⟨1, Or.inr (Or.inr rfl), by simpa using sub_eq_zero.mp h⟩
  · exact ⟨-1, Or.inl rfl, by simpa using eq_neg_of_add_eq_zero_left h⟩

/-- Integers that differ by less than the modulus are equal if their classes are. -/
theorem int_eq_of_zmod_eq
    {x y : ℤ}
    (h : (x : ZMod p) = (y : ZMod p))
    (hlt : |x - y| < p) :
    x = y := by
  have hdvd : (p : ℤ) ∣ x - y := by
    rw [← ZMod.intCast_zmod_eq_zero_iff_dvd, Int.cast_sub, h, sub_self]
  have hzero := Int.eq_zero_of_abs_lt_dvd hdvd hlt
  omega

/-- One limb of a sum with carry-in `k` and carry-out `k'`, lifted to the integers. -/
theorem limb_sum_eq
    {a b c d : ZMod p}
    {k k' : ℤ}
    {w r : ℕ}
    (hk : k = -1 ∨ k = 0 ∨ k = 1)
    (hk' : k' = -1 ∨ k' = 0 ∨ k' = 1)
    (ha : a.val < w)
    (hb : b.val < w)
    (hc : c.val < w)
    (hd : d.val < w)
    (hp : 2 * w + r + 1 < p)
    (h : a + b + (k : ZMod p) - c - d = (r : ZMod p) * (k' : ZMod p)) :
    (a.val : ℤ) + b.val + k = c.val + d.val + r * k' := by
  apply int_eq_of_zmod_eq (p := p)
  · push_cast [ZMod.natCast_zmod_val]
    rw [← h]
    ring
  · have hr : |(r : ℤ) * k'| ≤ r := by
      rcases hk' with rfl | rfl | rfl <;> simp
    rw [abs_lt]
    rw [abs_le] at hr
    constructor <;> omega

end Carries

section SquareAndMultiply

/-- Square `k` times modulo `m`. -/
def squareMod (m : ℕ) : ℕ → ℕ → ℕ
  | 0, x => x % m
  | k + 1, x => squareMod m k (x * x % m)

theorem squareMod_eq_pow
    (m k x : ℕ) :
    ((squareMod m k x : ℕ) : ZMod m) = (x : ZMod m) ^ 2 ^ k := by
  induction k generalizing x with
  | zero =>
      simp [squareMod]
  | succ k ih =>
      rw [squareMod, ih, ZMod.natCast_mod, Nat.cast_mul, pow_succ', pow_mul, pow_two]

end SquareAndMultiply

end OpenCsv
