import OpenCsv.Pcd.Circuit

/-!
# The constraints of the value gadget

What the range check and the sum gadget put on their wires, constraint by constraint: the
decomposition of a limb into bits, and a carry that is a quotient in the field.

**Results.** A limb has bits if and only if it is small (`decomposesToBits_iff`), the sum
gadget is the one of the circuits (`enforceSumEq_iff`), and both are exact
(`valueGadget_exact`).
-/

namespace OpenCsv

section RangeCheck

/-- The number that bits spell, least significant first. -/
def reconstruct : List Felt → Felt
  | [] => 0
  | b :: bits => b + (2 : ℕ) * reconstruct bits

/-- `builder.decompose_to_bits`: `width` bits that spell the element. -/
def DecomposesToBits (width : ℕ) (x : Felt) : Prop :=
  ∃ bits : List Felt, bits.length = width ∧ (∀ b ∈ bits, AssertBool b) ∧ reconstruct bits = x

/-- The widths of the limbs. -/
def limbBits : List ℕ :=
  [24, 24, 16]

/-- Every limb has the bits of its width. -/
def RangeCheckValue (limbs : ValueLimbs) : Prop :=
  List.Forall₂ DecomposesToBits limbBits limbs.toList

theorem assertBool_cases
    {b : Felt}
    (h : AssertBool b) :
    b = 0 ∨ b = 1 := by
  rcases mul_eq_zero.mp h with h | h
  · exact Or.inl h
  · exact Or.inr (sub_eq_zero.mp h)

/-- Bits spell a number of their width. -/
theorem reconstruct_eq_natCast
    {bits : List Felt}
    (h : ∀ b ∈ bits, AssertBool b) :
    ∃ n : ℕ, n < 2 ^ bits.length ∧ reconstruct bits = (n : Felt) := by
  induction bits with
  | nil =>
      exact ⟨0, by simp [reconstruct]⟩
  | cons b bits ih =>
      obtain ⟨n, hn, hbits⟩ := ih (fun c hc => h c (List.mem_cons_of_mem _ hc))
      have hpow : 2 ^ (b :: bits).length = 2 * 2 ^ bits.length := by
        rw [List.length_cons, pow_succ']
      rcases assertBool_cases (h b List.mem_cons_self) with rfl | rfl
      · exact ⟨2 * n, by omega, by simp [reconstruct, hbits]⟩
      · refine ⟨1 + 2 * n, by omega, ?_⟩
        rw [reconstruct, hbits]
        push_cast
        ring

/-- Every number of a width has bits. -/
theorem decomposesToBits_natCast
    {width n : ℕ}
    (h : n < 2 ^ width) :
    DecomposesToBits width (n : Felt) := by
  induction width generalizing n with
  | zero =>
      obtain rfl : n = 0 := by simpa using h
      exact ⟨[], by simp [reconstruct]⟩
  | succ width ih =>
      rw [pow_succ'] at h
      obtain ⟨bits, hlen, hbool, hbits⟩ := ih (n := n / 2) (by omega)
      have hsplit : n = n % 2 + 2 * (n / 2) := by omega
      have hlow : AssertBool ((n % 2 : ℕ) : Felt) := by
        rcases Nat.mod_two_eq_zero_or_one n with h2 | h2 <;> simp [AssertBool, h2]
      refine ⟨((n % 2 : ℕ) : Felt) :: bits, by simp [hlen], ?_, ?_⟩
      · simpa using ⟨hlow, hbool⟩
      · rw [reconstruct, hbits]
        conv_rhs => rw [hsplit]
        push_cast
        ring

/-- An element has bits of a width below the modulus if and only if it is that small. -/
theorem decomposesToBits_iff
    {width : ℕ}
    {x : Felt}
    (hwidth : 2 ^ width ≤ babyBearP) :
    DecomposesToBits width x ↔ x.val < 2 ^ width := by
  constructor
  · rintro ⟨bits, rfl, hbool, rfl⟩
    obtain ⟨n, hn, hbits⟩ := reconstruct_eq_natCast hbool
    rw [hbits, ZMod.val_cast_of_lt (hn.trans_le hwidth)]
    exact hn
  · intro h
    have hbits := decomposesToBits_natCast h
    rwa [ZMod.natCast_zmod_val] at hbits

theorem rangeCheckValue_iff
    {v : ValueLimbs} :
    RangeCheckValue v ↔ v.RangeChecked := by
  have h24 : 2 ^ 24 ≤ babyBearP := by decide
  have h16 : 2 ^ 16 ≤ babyBearP := by decide
  simp [RangeCheckValue, limbBits, ValueLimbs.toList, ValueLimbs.RangeChecked,
    decomposesToBits_iff h24, decomposesToBits_iff h16]

/-- The limbs in range are those of the `u64` they denote. -/
theorem ofU64_of_rangeChecked
    {v : ValueLimbs}
    (h : v.RangeChecked) :
    ∃ x : UInt64, ValueLimbs.ofU64 x = v ∧ x.toNat = v.toNat := by
  obtain ⟨hlo, hmid, hhi⟩ := h
  have hlt : v.toNat < 2 ^ 64 := by
    rw [ValueLimbs.toNat]
    omega
  obtain ⟨x, hx⟩ : ∃ x : UInt64, x.toNat = v.toNat :=
    ⟨UInt64.ofNat v.toNat, by
      rw [UInt64.toNat_ofNat']
      exact Nat.mod_eq_of_lt hlt⟩
  obtain ⟨⟨hlo', hmid', hhi'⟩, heq⟩ := ValueLimbs.ofU64_spec x
  rw [hx] at heq
  simp only [ValueLimbs.toNat] at heq
  refine ⟨x, ValueLimbs.ext ?_ ?_ ?_, hx⟩ <;>
    apply ZMod.val_injective <;> omega

end RangeCheck

section Sum

/-- The carry out of one limb: the difference of the sides, with the carry in, by the radix. -/
def nextCarry (carry : Option Felt) (lhs rhs : Felt × Felt) : Felt :=
  let t := lhs.1 + lhs.2
  let t := carry.elim t (fun c => t + c)
  (t - rhs.1 - rhs.2) / (2 ^ 24 : ℕ)

/-- The constraints of the limbs from a carry on: carries are bounded, the last one is zero. -/
def SumConstraints : Option Felt → List ((Felt × Felt) × Felt × Felt) → Prop
  | carry, [] => carry.elim False (· = 0)
  | carry, (lhs, rhs) :: limbs =>
      CarryBounded (nextCarry carry lhs rhs) ∧
        SumConstraints (some (nextCarry carry lhs rhs)) limbs

/-- `lhs[0] + lhs[1] = rhs[0] + rhs[1]`, over three limbs. -/
def EnforceSumEq (a b c d : ValueLimbs) : Prop :=
  SumConstraints none ((a.toList.zip b.toList).zip (c.toList.zip d.toList))

theorem radix_ne_zero :
    (2 : Felt) ^ 24 ≠ 0 := by
  decide

/-- Dividing by the radix finds the carry of the limb equation. -/
theorem eq_div_radix_iff
    {t carry : Felt} :
    carry = t / 2 ^ 24 ↔ t = 2 ^ 24 * carry := by
  rw [eq_div_iff radix_ne_zero, eq_comm, mul_comm]

/-- The constraints are those of the circuits. -/
theorem enforceSumEq_iff
    {a b c d : ValueLimbs} :
    EnforceSumEq a b c d ↔ SumEq a b c d := by
  constructor
  · rintro ⟨h₁, h₂, h₃, hzero⟩
    exact ⟨_, _, _, ⟨eq_div_radix_iff.mp rfl, h₁⟩, ⟨eq_div_radix_iff.mp rfl, h₂⟩,
      ⟨eq_div_radix_iff.mp rfl, h₃⟩, hzero⟩
  · rintro ⟨c₁, c₂, c₃, ⟨hlo, h₁⟩, ⟨hmid, h₂⟩, ⟨hhi, h₃⟩, hzero⟩
    obtain rfl := eq_div_radix_iff.mpr hlo
    obtain rfl := eq_div_radix_iff.mpr hmid
    obtain rfl := eq_div_radix_iff.mpr hhi
    exact ⟨h₁, h₂, h₃, hzero⟩

/-- Sums of values in range are balanced in the field if and only if they are in the integers. -/
theorem enforceSumEq_iff_toNat
    {a b c d : ValueLimbs}
    (ha : RangeCheckValue a)
    (hb : RangeCheckValue b)
    (hc : RangeCheckValue c)
    (hd : RangeCheckValue d) :
    EnforceSumEq a b c d ↔ a.toNat + b.toNat = c.toNat + d.toNat := by
  rw [rangeCheckValue_iff] at ha hb hc hd
  rw [enforceSumEq_iff]
  exact ⟨sumEq_sound ha hb hc hd, sumEq_complete ha hb hc hd⟩

theorem toNat_lt_of_rangeCheckValue
    {v : ValueLimbs}
    (h : RangeCheckValue v) :
    v.toNat < 2 ^ 64 := by
  obtain ⟨x, -, hx⟩ := ofU64_of_rangeChecked (rangeCheckValue_iff.mp h)
  rw [← hx]
  exact x.toNat_lt

end Sum

/--
The value gadget.  Values in range are balanced if and only if their sums are equal as
integers; a single value is never balanced with a sum that overflows `u64`; and the values in
range are the encodings of `u64` values.
-/
theorem valueGadget_exact
    (a b c d : ValueLimbs)
    (ha : RangeCheckValue a)
    (hb : RangeCheckValue b)
    (hc : RangeCheckValue c)
    (hd : RangeCheckValue d) :
    (EnforceSumEq a b c d ↔ a.toNat + b.toNat = c.toNat + d.toNat) ∧
      (a = ValueLimbs.zero ∨ b = ValueLimbs.zero → 2 ^ 64 ≤ c.toNat + d.toNat →
        ¬ EnforceSumEq a b c d) ∧
      (c = ValueLimbs.zero ∨ d = ValueLimbs.zero → 2 ^ 64 ≤ a.toNat + b.toNat →
        ¬ EnforceSumEq a b c d) ∧
      ∀ v : ValueLimbs, RangeCheckValue v ↔
        ∃ x : UInt64, v.toList = u64ToFelts x ∧ v.toNat = x.toNat := by
  have hexact := enforceSumEq_iff_toNat ha hb hc hd
  have hzero : ValueLimbs.zero.toNat = 0 := by
    decide
  refine ⟨hexact, ?_, ?_, ?_⟩
  · intro hsingle hover h
    have hsum := hexact.mp h
    have ha64 := toNat_lt_of_rangeCheckValue ha
    have hb64 := toNat_lt_of_rangeCheckValue hb
    rcases hsingle with rfl | rfl <;> omega
  · intro hsingle hover h
    have hsum := hexact.mp h
    have hc64 := toNat_lt_of_rangeCheckValue hc
    have hd64 := toNat_lt_of_rangeCheckValue hd
    rcases hsingle with rfl | rfl <;> omega
  · intro v
    rw [rangeCheckValue_iff]
    constructor
    · intro hv
      obtain ⟨x, rfl, hx⟩ := ofU64_of_rangeChecked hv
      exact ⟨x, ValueLimbs.toList_ofU64 x, hx.symm⟩
    · rintro ⟨x, hx, -⟩
      rw [← ValueLimbs.toList_ofU64] at hx
      obtain rfl := ValueLimbs.toList_injective hx
      exact (ValueLimbs.ofU64_spec x).1

/-- A sum that borrows between its limbs is balanced. -/
theorem valueGadget_exact_borrow :
    EnforceSumEq (ValueLimbs.ofU64 25000000) (ValueLimbs.ofU64 0)
      (ValueLimbs.ofU64 10000000) (ValueLimbs.ofU64 15000000) := by
  have hrange : ∀ x : UInt64, RangeCheckValue (ValueLimbs.ofU64 x) :=
    fun x => rangeCheckValue_iff.mpr (ValueLimbs.ofU64_spec x).1
  have h := valueGadget_exact _ _ _ _ (hrange 25000000) (hrange 0) (hrange 10000000)
    (hrange 15000000)
  rw [h.1, (ValueLimbs.ofU64_spec _).2, (ValueLimbs.ofU64_spec _).2,
    (ValueLimbs.ofU64_spec _).2, (ValueLimbs.ofU64_spec _).2]
  rfl

end OpenCsv
