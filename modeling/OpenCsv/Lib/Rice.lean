import Mathlib.Tactic

/-!
# Golomb-Rice codes

A number as a quotient in ones, a zero, and a remainder in bits; an ascending list as its
differences.  A search of an ascending list may stop at the first value above its target.
-/

namespace OpenCsv

section Codes

/-- The low `n` bits of a number, the highest first. -/
def lowBits : (n : ℕ) → ℕ → List Bool
  | 0, _ => []
  | n + 1, x => x.testBit n :: lowBits n x

/-- The code of a number with a remainder of `p` bits. -/
def riceCode (p x : ℕ) : List Bool :=
  List.replicate (x / 2 ^ p) true ++ false :: lowBits p x

/-- The highest of the low bits. -/
theorem mod_two_pow_succ_eq
    (x n : ℕ) :
    x % 2 ^ (n + 1) = (x.testBit n).toNat * 2 ^ n + x % 2 ^ n := by
  have hbit : (x.testBit n).toNat = x / 2 ^ n % 2 := by
    rw [Nat.toNat_testBit]
  rw [hbit, pow_succ, Nat.mod_mul, Nat.mul_comm (2 ^ n), Nat.add_comm]

end Codes

section Differences

/-- What the numbers are more than the ones before them. -/
def differences : (last : ℕ) → List ℕ → List ℕ
  | _, [] => []
  | last, value :: values => (value - last) :: differences value values

/-- The differences of numbers below a bound. -/
theorem differences_lt
    {last bound : ℕ}
    {values : List ℕ}
    (h : ∀ value ∈ values, value < bound) :
    ∀ d ∈ differences last values, d < bound := by
  induction values generalizing last with
  | nil =>
      rintro d ⟨⟩
  | cons value values ih =>
      intro d hd
      rcases List.mem_cons.mp hd with rfl | hd
      · exact (Nat.sub_le value last).trans_lt (h value List.mem_cons_self)
      · exact ih (fun v hv => h v (List.mem_cons_of_mem value hv)) d hd

/-- In an ascending list no value after a larger one is the target. -/
theorem not_mem_of_lt
    {target value : ℕ}
    {values : List ℕ}
    (hsorted : (value :: values).Pairwise (· ≤ ·))
    (h : target < value) :
    target ∉ value :: values := by
  intro hmem
  rcases List.mem_cons.mp hmem with rfl | hmem
  · exact Nat.lt_irrefl _ h
  · have hle := List.rel_of_pairwise_cons hsorted hmem
    omega

end Differences

end OpenCsv
