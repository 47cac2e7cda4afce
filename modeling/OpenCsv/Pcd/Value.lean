import OpenCsv.Core.Digest
import OpenCsv.Lib.Limbs

/-!
# The value gadget

Values inside the circuits are three limbs of 24, 24 and 16 bits, and sums are
compared limb by limb with carries in `{-1, 0, 1}`.

**Results.** BabyBear is prime (`babyBearP_prime`), the sum gadget is exact over
the integers (`sumEq_sound`, `sumEq_complete`), and the limbs of a `u64` are in
range and denote it (`ValueLimbs.ofU64_spec`).
-/

namespace OpenCsv

section Modulus

/-- BabyBear is prime: 31 generates its multiplicative group. -/
theorem babyBearP_prime :
    Nat.Prime babyBearP := by
  have hpow : ∀ k x : ℕ, ((31 ^ x : ℕ) : ZMod babyBearP) ^ 2 ^ k =
      ((squareMod babyBearP k (31 ^ x) : ℕ) : ZMod babyBearP) :=
    fun k x => (squareMod_eq_pow babyBearP k (31 ^ x)).symm
  have hexp : ∀ k x : ℕ, (31 : ZMod babyBearP) ^ (x * 2 ^ k) =
      ((squareMod babyBearP k (31 ^ x) : ℕ) : ZMod babyBearP) := by
    intro k x
    rw [← hpow, pow_mul]
    norm_num
  have hfactor : babyBearP - 1 = 15 * 2 ^ 27 := by
    decide
  apply lucas_primality babyBearP (31 : ZMod babyBearP)
  · rw [hfactor, hexp]
    decide +kernel
  · intro q hq hdvd
    have hcases : q = 2 ∨ q = 3 ∨ q = 5 := by
      have h15 : (15 : ℕ) = 3 * 5 := rfl
      rw [hfactor, h15, hq.dvd_mul, hq.dvd_mul] at hdvd
      rcases hdvd with (h | h) | h
      · exact Or.inr (Or.inl ((Nat.prime_dvd_prime_iff_eq hq Nat.prime_three).mp h))
      · exact Or.inr (Or.inr ((Nat.prime_dvd_prime_iff_eq hq Nat.prime_five).mp h))
      · exact Or.inl ((Nat.prime_dvd_prime_iff_eq hq Nat.prime_two).mp
          (hq.dvd_of_dvd_pow h))
    rcases hcases with rfl | rfl | rfl
    · have h : (babyBearP - 1) / 2 = 15 * 2 ^ 26 := by decide
      rw [h, hexp]
      decide +kernel
    · have h : (babyBearP - 1) / 3 = 5 * 2 ^ 27 := by decide
      rw [h, hexp]
      decide +kernel
    · have h : (babyBearP - 1) / 5 = 3 * 2 ^ 27 := by decide
      rw [h, hexp]
      decide +kernel

instance : Fact (Nat.Prime babyBearP) :=
  ⟨babyBearP_prime⟩

end Modulus

section Values

/-- A value as three little-endian limbs. -/
@[ext] structure ValueLimbs where
  lo : Felt
  mid : Felt
  hi : Felt
deriving DecidableEq

namespace ValueLimbs

/-- The limbs in allocation order. -/
def toList (v : ValueLimbs) : List Felt :=
  [v.lo, v.mid, v.hi]

/-- The number three limbs denote. -/
def toNat (v : ValueLimbs) : ℕ :=
  v.lo.val + 2 ^ 24 * v.mid.val + 2 ^ 48 * v.hi.val

def zero : ValueLimbs :=
  ⟨0, 0, 0⟩

/-- The limbs of a `u64`. -/
def ofU64 (v : UInt64) : ValueLimbs where
  lo := felt (v &&& 0xFFFFFF).toUInt32
  mid := felt ((v >>> 24) &&& 0xFFFFFF).toUInt32
  hi := felt (v >>> 48).toUInt32

/-- Each limb fits its bit width (`decompose_to_bits`). -/
def RangeChecked (v : ValueLimbs) : Prop :=
  v.lo.val < 2 ^ 24 ∧ v.mid.val < 2 ^ 24 ∧ v.hi.val < 2 ^ 16

instance (v : ValueLimbs) : Decidable v.RangeChecked :=
  inferInstanceAs (Decidable (_ ∧ _ ∧ _))

theorem toList_ofU64
    (v : UInt64) :
    (ofU64 v).toList = u64ToFelts v :=
  rfl

/-- Three limbs are determined by their list. -/
theorem toList_injective
    {v w : ValueLimbs}
    (h : v.toList = w.toList) :
    v = w := by
  simp only [toList, List.cons.injEq, and_true] at h
  exact ValueLimbs.ext h.1 h.2.1 h.2.2

end ValueLimbs

/-- The carry out of one limb is `-1`, `0` or `1` (`c(c-1)(c+1) = 0`). -/
def CarryBounded (c : Felt) : Prop :=
  c * (c - 1) * (c + 1) = 0

/-- `a + b = c + d` as the gadget enforces it, limb by limb. -/
def SumEq (a b c d : ValueLimbs) : Prop :=
  ∃ c₁ c₂ c₃ : Felt,
    (a.lo + b.lo - c.lo - d.lo = (2 ^ 24 : ℕ) * c₁ ∧ CarryBounded c₁) ∧
    (a.mid + b.mid + c₁ - c.mid - d.mid = (2 ^ 24 : ℕ) * c₂ ∧ CarryBounded c₂) ∧
    (a.hi + b.hi + c₂ - c.hi - d.hi = (2 ^ 24 : ℕ) * c₃ ∧ CarryBounded c₃) ∧
    c₃ = 0

/-- The sum gadget is exact over the integers on range-checked values. -/
theorem sumEq_sound
    {a b c d : ValueLimbs}
    (ha : a.RangeChecked)
    (hb : b.RangeChecked)
    (hc : c.RangeChecked)
    (hd : d.RangeChecked)
    (h : SumEq a b c d) :
    a.toNat + b.toNat = c.toNat + d.toNat := by
  obtain ⟨c₁, c₂, c₃, ⟨hlo, hc₁⟩, ⟨hmid, hc₂⟩, ⟨hhi, hc₃⟩, hzero⟩ := h
  obtain ⟨k₁, hk₁, rfl⟩ := carry_cases hc₁
  obtain ⟨k₂, hk₂, rfl⟩ := carry_cases hc₂
  obtain ⟨halo, hamid, hahi⟩ := ha
  obtain ⟨hblo, hbmid, hbhi⟩ := hb
  obtain ⟨hclo, hcmid, hchi⟩ := hc
  obtain ⟨hdlo, hdmid, hdhi⟩ := hd
  have hlo' : (a.lo.val : ℤ) + b.lo.val + 0 = c.lo.val + d.lo.val + (2 ^ 24 : ℕ) * k₁ := by
    apply limb_sum_eq (Or.inr (Or.inl rfl)) hk₁ halo hblo hclo hdlo (by decide)
    simpa using hlo
  have hmid' : (a.mid.val : ℤ) + b.mid.val + k₁ =
      c.mid.val + d.mid.val + (2 ^ 24 : ℕ) * k₂ := by
    apply limb_sum_eq hk₁ hk₂ hamid hbmid hcmid hdmid (by decide)
    exact hmid
  have hhi' : (a.hi.val : ℤ) + b.hi.val + k₂ = c.hi.val + d.hi.val + (2 ^ 24 : ℕ) * 0 := by
    apply limb_sum_eq hk₂ (Or.inr (Or.inl rfl)) hahi hbhi hchi hdhi (by decide)
    simpa [hzero] using hhi
  simp only [ValueLimbs.toNat]
  push_cast at hlo' hmid' hhi'
  omega

theorem carryBounded_intCast
    {k : ℤ}
    (hk : k = -1 ∨ k = 0 ∨ k = 1) :
    CarryBounded (k : Felt) := by
  rcases hk with rfl | rfl | rfl <;> simp [CarryBounded]

/-- One limb of a balanced sum, as the field equation of the gadget. -/
theorem limb_equation_of_int
    {a b c d : Felt}
    {k k' : ℤ}
    (h : (a.val : ℤ) + b.val + k = c.val + d.val + 2 ^ 24 * k') :
    a + b + (k : Felt) - c - d = (2 ^ 24 : ℕ) * (k' : Felt) := by
  have hcast := congrArg (fun z : ℤ => (z : Felt)) h
  push_cast [ZMod.natCast_zmod_val] at hcast
  rw [hcast, Nat.cast_pow, Nat.cast_ofNat]
  ring

/-- A balanced sum of range-checked values has carries. -/
theorem sumEq_complete
    {a b c d : ValueLimbs}
    (ha : a.RangeChecked)
    (hb : b.RangeChecked)
    (hc : c.RangeChecked)
    (hd : d.RangeChecked)
    (h : a.toNat + b.toNat = c.toNat + d.toNat) :
    SumEq a b c d := by
  obtain ⟨halo, hamid, hahi⟩ := ha
  obtain ⟨hblo, hbmid, hbhi⟩ := hb
  obtain ⟨hclo, hcmid, hchi⟩ := hc
  obtain ⟨hdlo, hdmid, hdhi⟩ := hd
  simp only [ValueLimbs.toNat] at h
  obtain ⟨k₁, hk₁, hlo⟩ : ∃ k : ℤ, (k = -1 ∨ k = 0 ∨ k = 1) ∧
      (a.lo.val : ℤ) + b.lo.val + 0 = c.lo.val + d.lo.val + 2 ^ 24 * k := by
    have hcases : (a.lo.val : ℤ) + b.lo.val = c.lo.val + d.lo.val - 2 ^ 24 ∨
        (a.lo.val : ℤ) + b.lo.val = c.lo.val + d.lo.val ∨
        (a.lo.val : ℤ) + b.lo.val = c.lo.val + d.lo.val + 2 ^ 24 := by
      omega
    rcases hcases with h' | h' | h'
    · exact ⟨-1, Or.inl rfl, by omega⟩
    · exact ⟨0, Or.inr (Or.inl rfl), by omega⟩
    · exact ⟨1, Or.inr (Or.inr rfl), by omega⟩
  obtain ⟨k₂, hk₂, hmid⟩ : ∃ k : ℤ, (k = -1 ∨ k = 0 ∨ k = 1) ∧
      (a.mid.val : ℤ) + b.mid.val + k₁ = c.mid.val + d.mid.val + 2 ^ 24 * k := by
    have hcases : (a.mid.val : ℤ) + b.mid.val + k₁ = c.mid.val + d.mid.val - 2 ^ 24 ∨
        (a.mid.val : ℤ) + b.mid.val + k₁ = c.mid.val + d.mid.val ∨
        (a.mid.val : ℤ) + b.mid.val + k₁ = c.mid.val + d.mid.val + 2 ^ 24 := by
      omega
    rcases hcases with h' | h' | h'
    · exact ⟨-1, Or.inl rfl, by omega⟩
    · exact ⟨0, Or.inr (Or.inl rfl), by omega⟩
    · exact ⟨1, Or.inr (Or.inr rfl), by omega⟩
  have hhi : (a.hi.val : ℤ) + b.hi.val + k₂ = c.hi.val + d.hi.val + 2 ^ 24 * 0 := by
    omega
  refine ⟨k₁, k₂, 0, ⟨?_, carryBounded_intCast hk₁⟩, ⟨?_, carryBounded_intCast hk₂⟩,
    ⟨?_, by simp [CarryBounded]⟩, rfl⟩
  · simpa using limb_equation_of_int hlo
  · exact limb_equation_of_int hmid
  · simpa using limb_equation_of_int hhi

/-- The limbs of a `u64` are in range and denote it. -/
theorem ValueLimbs.ofU64_spec
    (v : UInt64) :
    (ofU64 v).RangeChecked ∧ (ofU64 v).toNat = v.toNat := by
  have hv : v.toNat < 2 ^ 64 := v.toNat_lt
  have hval : ∀ x : UInt32, x.toNat < babyBearP → (felt x).val = x.toNat := by
    intro x hx
    exact ZMod.val_cast_of_lt hx
  have hmask : (0xFFFFFF : UInt64).toNat = 2 ^ 24 - 1 := rfl
  have h24 : (24 : UInt64).toNat % 64 = 24 := rfl
  have h48 : (48 : UInt64).toNat % 64 = 48 := rfl
  have hlo : (v &&& 0xFFFFFF).toUInt32.toNat = v.toNat % 2 ^ 24 := by
    rw [UInt64.toNat_toUInt32, UInt64.toNat_and, hmask, Nat.and_two_pow_sub_one_eq_mod]
    omega
  have hmid : ((v >>> 24) &&& 0xFFFFFF).toUInt32.toNat = v.toNat / 2 ^ 24 % 2 ^ 24 := by
    rw [UInt64.toNat_toUInt32, UInt64.toNat_and, hmask, Nat.and_two_pow_sub_one_eq_mod,
      UInt64.toNat_shiftRight, h24, Nat.shiftRight_eq_div_pow]
    omega
  have hhi : (v >>> 48).toUInt32.toNat = v.toNat / 2 ^ 48 := by
    rw [UInt64.toNat_toUInt32, UInt64.toNat_shiftRight, h48, Nat.shiftRight_eq_div_pow]
    omega
  have hbound : (2 : ℕ) ^ 24 < babyBearP := by decide
  have h₁ := hval (v &&& 0xFFFFFF).toUInt32 (by rw [hlo]; omega)
  have h₂ := hval ((v >>> 24) &&& 0xFFFFFF).toUInt32 (by rw [hmid]; omega)
  have h₃ := hval (v >>> 48).toUInt32 (by rw [hhi]; omega)
  simp only [RangeChecked, toNat, ofU64, h₁, h₂, h₃, hlo, hmid, hhi]
  omega

end Values

end OpenCsv
