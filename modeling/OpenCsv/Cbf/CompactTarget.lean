import OpenCsv.Cbf.Difficulty
import OpenCsv.Lib.CompactOrder

/-!
# Compact targets

Which compact values expand to a target, and what the encoding of a target expands to.

**Results.** A compact value expands if and only if it has no sign and its number fits
(`fromCompact_isSome_iff`), and the encoding of a target rounds down to the next target that
has a compact value (`compact_targets`).
-/

namespace OpenCsv

/-- The overflow test of the expansion, in numbers. -/
theorem overflows_iff
    {size mantissa : ℕ}
    (hmantissa : mantissa < 2 ^ 23) :
    mantissa ≠ 0 ∧ (size > 34 ∨ (mantissa > 0xff ∧ size > 33) ∨ (mantissa > 0xffff ∧ size > 32)) ↔
      2 ^ 256 ≤ sizedValue size mantissa := by
  have hbase : (2 : ℕ) ^ 256 = 256 ^ 32 := by norm_num
  rw [hbase]
  rcases Nat.lt_or_ge 32 size with hlarge | hsmall
  · have hvalue : sizedValue size mantissa = mantissa * 256 ^ (size - 33) * 256 ^ 30 := by
      have hsum : size - 3 = size - 33 + 30 := by omega
      rw [sizedValue, if_neg (by omega), hsum, pow_add, mul_assoc]
    have hpow : (256 : ℕ) ^ 32 = 256 ^ 2 * 256 ^ 30 := by norm_num
    rw [hvalue, hpow, Nat.mul_le_mul_right_iff (Nat.pow_pos (by norm_num))]
    rcases Nat.lt_or_ge 34 size with h35 | h34
    · have hbig : 256 ^ 2 ≤ 256 ^ (size - 33) := Nat.pow_le_pow_right (by norm_num) (by omega)
      constructor
      · rintro ⟨hne, -⟩
        exact hbig.trans (Nat.le_mul_of_pos_left _ (Nat.pos_of_ne_zero hne))
      · intro h
        refine ⟨?_, Or.inl h35⟩
        rintro rfl
        norm_num at h
    · have hcases : size = 33 ∨ size = 34 := by omega
      rcases hcases with rfl | rfl <;> norm_num <;> omega
  · have hfits : sizedValue size mantissa < 256 ^ 32 := by
      calc sizedValue size mantissa
          ≤ mantissa * 256 ^ (size - 3) := sizedValue_le _ _
        _ ≤ 2 ^ 23 * 256 ^ 29 :=
          Nat.mul_le_mul hmantissa.le (Nat.pow_le_pow_right (by norm_num) (by omega))
        _ < 256 ^ 32 := by norm_num
    constructor
    · rintro ⟨-, h | ⟨-, h⟩ | ⟨-, h⟩⟩ <;> omega
    · intro h
      omega

/-- The sign bit of a compact value. -/
theorem and_sign_eq_zero_iff
    {bits : UInt32} :
    bits &&& 0x00800000 = 0 ↔ bits.toNat / 2 ^ 23 % 2 = 0 := by
  have hdiv := @Nat.and_div_two_pow bits.toNat (2 ^ 23) 23
  have hmod := @Nat.and_mod_two_pow bits.toNat (2 ^ 23) 23
  rw [Nat.div_self (by norm_num), Nat.and_one_is_mod] at hdiv
  rw [Nat.mod_self, Nat.and_zero] at hmod
  have hand : (bits &&& 0x00800000).toNat = bits.toNat &&& 2 ^ 23 := UInt32.toNat_and _ _
  have hzero : (0 : UInt32).toNat = 0 := rfl
  rw [← UInt32.toNat_inj, hand, hzero]
  omega

/-- A compact value expands if and only if it is not negative and does not overflow. -/
theorem fromCompact_isSome_iff
    {bits : UInt32} :
    (fromCompact bits).isSome ↔
      bits.toNat / 2 ^ 23 % 2 = 0 ∧ compactValue bits.toNat < 2 ^ 256 := by
  have hsize : (bits >>> 24).toNat = bits.toNat / 2 ^ 24 := by
    rw [UInt32.toNat_shiftRight, Nat.shiftRight_eq_div_pow]
    rfl
  have hmantissa := toNat_and_mantissa bits
  have hover := @overflows_iff (bits.toNat / 2 ^ 24) _
    (Nat.mod_lt bits.toNat (by norm_num : 0 < 2 ^ 23))
  have hne : bits &&& 0x007fffff ≠ 0 ↔ bits.toNat % 2 ^ 23 ≠ 0 := by
    rw [ne_eq, ← UInt32.toNat_inj, hmantissa]
    rfl
  have hff : bits &&& 0x007fffff > 0xff ↔ bits.toNat % 2 ^ 23 > 0xff := by
    rw [gt_iff_lt, UInt32.lt_iff_toNat_lt, hmantissa]
    rfl
  have hffff : bits &&& 0x007fffff > 0xffff ↔ bits.toNat % 2 ^ 23 > 0xffff := by
    rw [gt_iff_lt, UInt32.lt_iff_toNat_lt, hmantissa]
    rfl
  have hover' : (bits &&& 0x007fffff ≠ 0 ∧ ((bits >>> 24).toNat > 34 ∨
      (bits &&& 0x007fffff > 0xff ∧ (bits >>> 24).toNat > 33) ∨
        (bits &&& 0x007fffff > 0xffff ∧ (bits >>> 24).toNat > 32))) ↔
      2 ^ 256 ≤ compactValue bits.toNat := by
    rw [hne, hff, hffff, hsize, hover, compactValue_eq_sizedValue]
  have hsign : bits &&& 0x00800000 = 0 ↔ bits.toNat / 2 ^ 23 % 2 = 0 := and_sign_eq_zero_iff
  unfold fromCompact
  dsimp only
  by_cases hfits : 2 ^ 256 ≤ compactValue bits.toNat
  · rw [if_pos (hover'.mpr hfits)]
    exact iff_of_false Bool.false_ne_true (fun h => absurd h.2 (Nat.not_lt.mpr hfits))
  · rw [if_neg (fun h => hfits (hover'.mp h))]
    by_cases hbit : bits &&& 0x00800000 = 0
    · rw [if_neg (not_not.mpr hbit)]
      exact iff_of_true rfl ⟨hsign.mp hbit, Nat.lt_of_not_le hfits⟩
    · rw [if_pos hbit]
      exact iff_of_false Bool.false_ne_true (fun h => hbit (hsign.mpr h.1))

/-- A compact target whose mantissa cannot move by a byte, with no bytes below the number. -/
structure CanonicalCompact (bits : UInt32) : Prop where
  expands : (fromCompact bits).isSome
  normal : NormalCompact (bits.toNat / 2 ^ 24) (bits.toNat % 2 ^ 23)

/-- The encoder sets no sign. -/
theorem toCompact_sign
    (target : U256) :
    toCompact target &&& 0x00800000 = 0 := by
  rw [and_sign_eq_zero_iff, toCompact_eq]
  rcases Nat.eq_zero_or_pos target.toNat with hzero | hpos
  · rw [hzero]
    decide
  · obtain ⟨size, mantissa, hnormal, heq, -⟩ := compactOf_normal hpos
    rw [heq]
    exact (compact_parts hnormal.high).2.2

/-- The encoding of a target expands. -/
theorem fromCompact_toCompact
    {target : U256}
    (hpos : 0 < target.toNat) :
    ∃ rounded, fromCompact (toCompact target) = some rounded ∧
      rounded.toNat = compactValue (compactOf target.toNat) := by
  have hsome : (fromCompact (toCompact target)).isSome := by
    rw [fromCompact_isSome_iff, ← and_sign_eq_zero_iff, toCompact_eq]
    exact ⟨toCompact_sign target, (compactValue_compactOf_le hpos).trans_lt target.toNat_lt⟩
  obtain ⟨rounded, hrounded⟩ := Option.isSome_iff_exists.mp hsome
  refine ⟨rounded, hrounded, ?_⟩
  rw [fromCompact_eq hrounded, toCompact_eq]

/--
Compact encoding.  The encoding of a target that is not zero expands to the largest target
below it that has a compact value; a compact value of such a target is its encoding if and
only if it is canonical; and the encoder sets no sign.
-/
theorem compact_targets :
    (∀ target : U256, 0 < target.toNat → ∃ rounded,
      fromCompact (toCompact target) = some rounded ∧ rounded.toNat ≤ target.toNat ∧
        ∀ (bits : UInt32) (other : U256), fromCompact bits = some other →
          other.toNat ≤ target.toNat → other.toNat ≤ rounded.toNat) ∧
      (∀ bits : UInt32, CanonicalCompact bits → ∃ target, fromCompact bits = some target ∧
        0 < target.toNat ∧ toCompact target = bits) ∧
      (∀ (bits : UInt32) (target : U256), fromCompact bits = some target → 0 < target.toNat →
        toCompact target = bits → CanonicalCompact bits) ∧
      ∀ target : U256, toCompact target &&& 0x00800000 = 0 := by
  refine ⟨?_, ?_, ?_, toCompact_sign⟩
  · intro target hpos
    obtain ⟨rounded, hrounded, hvalue⟩ := fromCompact_toCompact hpos
    refine ⟨rounded, hrounded, ?_, ?_⟩
    · rw [hvalue]
      exact compactValue_compactOf_le hpos
    · intro bits other hother hle
      rw [fromCompact_eq hother] at hle ⊢
      rw [hvalue]
      exact compactValue_le_of_le hpos hle
  · rintro bits ⟨hsome, hnormal⟩
    obtain ⟨hsign, -⟩ := fromCompact_isSome_iff.mp hsome
    obtain ⟨target, htarget⟩ := Option.isSome_iff_exists.mp hsome
    have hvalue := fromCompact_eq htarget
    have hpos : 0 < compactValue bits.toNat := by
      have hmul := hnormal.sizedValue_mul
      rw [← compactValue_eq_sizedValue] at hmul
      apply Nat.pos_of_ne_zero
      intro hzero
      rw [hzero, Nat.zero_mul] at hmul
      have hlow := hnormal.low
      rcases Nat.mul_eq_zero.mp hmul.symm with h | h
      · omega
      · exact absurd h (by positivity)
    refine ⟨target, htarget, by rwa [hvalue], ?_⟩
    rw [← UInt32.toNat_inj, toCompact_eq, hvalue]
    exact (compactOf_compactValue_iff hsign hpos).mpr hnormal
  · intro bits target htarget hpos h
    have hsome : (fromCompact bits).isSome := by
      rw [htarget]
      rfl
    obtain ⟨hsign, -⟩ := fromCompact_isSome_iff.mp hsome
    rw [fromCompact_eq htarget] at hpos
    rw [← UInt32.toNat_inj, toCompact_eq, fromCompact_eq htarget] at h
    exact ⟨hsome, (compactOf_compactValue_iff hsign hpos).mp h⟩

end OpenCsv
