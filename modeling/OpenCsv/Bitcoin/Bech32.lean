import OpenCsv.Lib.BitGroups
import OpenCsv.Lib.LinearStep
import OpenCsv.Lib.Utf8

/-!
# Segwit addresses

The encoder for version 0 witness programs, with its checksum: the remainder of a polynomial
over 32 symbols, thirty bits wide.  A program of another length stops the encoder.

**Results.** One step of the remainder is linear (`polymodMove_xor`), the groups of five bits
spell the bytes (`to5BitGroups_bits`), and an encoded address verifies and decodes
(`encodeV0_verifies`).
-/

namespace OpenCsv

namespace Bech32

section Encoder

/-- The symbols of the 32 values. -/
def charset : List UInt8 :=
  "qpzry9x8gf2tvdw0s3jn54khce6mua7l".toUTF8.toList

def gen : List UInt32 :=
  [0x3b6a57b2, 0x26508e6d, 0x1ea119fa, 0x3d4233dd, 0x2a1462b3]

/-- Add the generators that the top bits select. -/
def addGenerators (top : UInt32) : List (UInt32 × UInt32) → UInt32 → UInt32
  | [], chk => chk
  | (i, g) :: gens, chk =>
      addGenerators top gens (if (top >>> i) &&& 1 = 1 then chk ^^^ g else chk)

/-- Read one value. -/
def polymodStep (chk : UInt32) (value : UInt8) : UInt32 :=
  let top := chk >>> 25
  addGenerators top ([0, 1, 2, 3, 4].zip gen) (((chk &&& 0x1ffffff) <<< 5) ^^^ value.toUInt32)

def polymod (values : List UInt8) : UInt32 :=
  values.foldl polymodStep 1

/-- The human-readable part as values. -/
def hrpExpand (hrp : List UInt8) : List UInt8 :=
  hrp.map (fun b : UInt8 => b >>> 5) ++ [(0 : UInt8)] ++ hrp.map (fun b : UInt8 => b &&& 31)

/-- The groups of five bits that are complete, and the number of bits that are left. -/
def drain (acc : UInt16) : ℕ → List UInt8 × ℕ
  | bits + 5 =>
      (((acc >>> UInt16.ofNat bits) &&& 31).toUInt8 :: (drain acc bits).1, (drain acc bits).2)
  | bits => ([], bits)

/-- Regroup bytes from an accumulator on; the last group is padded with zeros. -/
def groupsFrom (acc : UInt16) (bits : ℕ) : List UInt8 → List UInt8
  | [] => if bits > 0 then [((acc <<< UInt16.ofNat (5 - bits)) &&& 31).toUInt8] else []
  | byte :: bytes =>
      let acc := (acc <<< 8) ||| byte.toUInt16
      (drain acc (bits + 8)).1 ++ groupsFrom acc (drain acc (bits + 8)).2 bytes

/-- Bytes as values of five bits. -/
def to5BitGroups (bytes : List UInt8) : List UInt8 :=
  groupsFrom 0 0 bytes

/-- The six values of a checksum. -/
def checksumValues (checksum : UInt32) : List UInt8 :=
  [0, 1, 2, 3, 4, 5].map (fun i =>
    ((checksum >>> UInt32.ofNat (5 * (5 - i))) &&& 31).toUInt8)

/-- An address for a human-readable part; it stops when the program's length is not allowed. -/
def encodeV0 (hrp : List UInt8) (program : List UInt8) : Option (List UInt8) := do
  guard (2 ≤ program.length ∧ program.length ≤ 40)
  let data := 0 :: to5BitGroups program
  let checksum := polymod (hrpExpand hrp ++ data ++ List.replicate 6 0) ^^^ 1
  let dataText ← data.mapM (fun value => charset[value.toNat]?)
  let checksumText ← (checksumValues checksum).mapM (fun value => charset[value.toNat]?)
  return hrp ++ 0x31 :: (dataText ++ checksumText)

end Encoder

section Decoder

/-- The value of a symbol. -/
def charValue (c : UInt8) : Option UInt8 :=
  (charset.findIdx? (· == c)).map UInt8.ofNat

/-- The parts before and after the last separator. -/
def splitAddress (address : List UInt8) : List UInt8 × List UInt8 :=
  let data := (address.reverse.takeWhile (· ≠ 0x31)).reverse
  (address.take (address.length - data.length - 1), data)

/-- The values of an address whose checksum verifies, without the checksum. -/
def verified (address : List UInt8) : Option (List UInt8 × List UInt8) := do
  let (hrp, text) := splitAddress address
  let values ← text.mapM charValue
  guard (6 ≤ values.length ∧ polymod (hrpExpand hrp ++ values) = 1)
  return (hrp, values.take (values.length - 6))

end Decoder

section Checksum

/-- The step of the remainder without its value. -/
def polymodMove (chk : UInt32) : UInt32 :=
  addGenerators (chk >>> 25) ([0, 1, 2, 3, 4].zip gen) ((chk &&& 0x1ffffff) <<< 5)

theorem and_one_cases
    (x : UInt32) :
    x &&& 1 = 0 ∨ x &&& 1 = 1 := by
  have h : (x &&& 1).toNat = x.toNat % 2 := by
    rw [UInt32.toNat_and]
    exact Nat.and_one_is_mod _
  rcases Nat.mod_two_eq_zero_or_one x.toNat with h0 | h1
  · exact Or.inl (UInt32.toNat_inj.mp (h.trans h0))
  · exact Or.inr (UInt32.toNat_inj.mp (h.trans h1))

theorem and_xor
    (x y m : UInt32) :
    (x ^^^ y) &&& m = (x &&& m) ^^^ (y &&& m) := by
  rw [← UInt32.toNat_inj]
  simp only [UInt32.toNat_and, UInt32.toNat_xor, Nat.and_xor_distrib_right]

/-- The selected generators of a sum are the sums of the selected ones. -/
theorem addGenerators_xor
    (top top' : UInt32)
    (gens : List (UInt32 × UInt32))
    (chk chk' : UInt32) :
    addGenerators (top ^^^ top') gens (chk ^^^ chk') =
      addGenerators top gens chk ^^^ addGenerators top' gens chk' := by
  induction gens generalizing chk chk' with
  | nil =>
      rfl
  | cons entry gens ih =>
      obtain ⟨i, g⟩ := entry
      simp only [addGenerators, UInt32.shiftRight_xor, and_xor]
      rw [← ih]
      congr 1
      rcases and_one_cases (top >>> i) with h | h <;> rcases and_one_cases (top' >>> i) with h' | h'
      · simp [h, h']
      · simp only [h, h', UInt32.zero_xor, if_true]
        rw [if_neg (by decide), UInt32.xor_assoc]
      · simp only [h, h', UInt32.xor_zero, if_true]
        rw [if_neg (by decide), UInt32.xor_assoc, UInt32.xor_assoc, UInt32.xor_comm g]
      · simp only [h, h', UInt32.xor_self, if_true]
        rw [if_neg (by decide), UInt32.xor_assoc, UInt32.xor_comm g, UInt32.xor_assoc,
          UInt32.xor_self, UInt32.xor_zero]

/-- Without top bits nothing is added. -/
theorem addGenerators_zero
    (gens : List (UInt32 × UInt32))
    (chk : UInt32) :
    addGenerators 0 gens chk = chk := by
  induction gens with
  | nil =>
      rfl
  | cons entry gens ih =>
      rw [addGenerators, UInt32.zero_shiftRight, UInt32.zero_and, if_neg (by decide), ih]

/-- The step of the remainder is linear. -/
theorem polymodMove_xor
    (chk chk' : UInt32) :
    polymodMove (chk ^^^ chk') = polymodMove chk ^^^ polymodMove chk' := by
  rw [polymodMove, UInt32.shiftRight_xor, and_xor, UInt32.shiftLeft_xor, addGenerators_xor,
    polymodMove, polymodMove]

theorem polymodStep_eq
    (chk : UInt32)
    (value : UInt8) :
    polymodStep chk value = polymodMove chk ^^^ value.toUInt32 := by
  have h := addGenerators_xor (chk >>> 25) 0 ([0, 1, 2, 3, 4].zip gen)
    ((chk &&& 0x1ffffff) <<< 5) value.toUInt32
  rw [UInt32.xor_zero, addGenerators_zero] at h
  exact h

/-- The remainder is a run of a linear register. -/
theorem foldl_polymodStep
    (chk : UInt32)
    (values : List UInt8) :
    values.foldl polymodStep chk =
      LinearStep.run (· ^^^ ·) polymodMove chk (values.map UInt8.toUInt32) := by
  rw [LinearStep.run, List.foldl_map]
  congr 1
  funext chk value
  exact polymodStep_eq chk value

/-- Values after a remainder, on silence and from zero. -/
theorem foldl_polymodStep_split
    (chk : UInt32)
    (values : List UInt8) :
    values.foldl polymodStep chk =
      (List.replicate values.length 0).foldl polymodStep chk ^^^ values.foldl polymodStep 0 := by
  have h := LinearStep.run_split (fun s => UInt32.xor_zero) polymodMove_xor chk
    (values.map UInt8.toUInt32)
  rw [foldl_polymodStep, h, foldl_polymodStep, foldl_polymodStep, List.length_map,
    List.map_replicate]
  rfl

theorem addGenerators_lt
    {gens : List (UInt32 × UInt32)}
    (hgens : ∀ entry ∈ gens, entry.2.toNat < 2 ^ 30)
    (top : UInt32)
    {chk : UInt32}
    (hchk : chk.toNat < 2 ^ 30) :
    (addGenerators top gens chk).toNat < 2 ^ 30 := by
  induction gens generalizing chk with
  | nil =>
      exact hchk
  | cons entry gens ih =>
      obtain ⟨i, g⟩ := entry
      rw [addGenerators]
      apply ih (fun e he => hgens e (List.mem_cons_of_mem _ he))
      split
      · rw [UInt32.toNat_xor]
        exact Nat.xor_lt_two_pow hchk (hgens (i, g) List.mem_cons_self)
      · exact hchk

theorem toNat_mask_shift
    (chk : UInt32) :
    ((chk &&& 0x1ffffff) <<< 5).toNat = chk.toNat % 2 ^ 25 * 2 ^ 5 := by
  have hmask : (0x1ffffff : UInt32).toNat = 2 ^ 25 - 1 := rfl
  have hfive : (5 : UInt32).toNat % 32 = 5 := rfl
  rw [UInt32.toNat_shiftLeft, hfive, UInt32.toNat_and, hmask, Nat.and_two_pow_sub_one_eq_mod,
    Nat.shiftLeft_eq]
  omega

theorem gen_lt
    {g : UInt32}
    (hg : g ∈ gen) :
    g.toNat < 2 ^ 30 := by
  simp only [gen, List.mem_cons, List.not_mem_nil, or_false] at hg
  rcases hg with rfl | rfl | rfl | rfl | rfl
  · decide
  · decide
  · decide
  · decide
  · decide

theorem polymodMove_lt
    (chk : UInt32) :
    (polymodMove chk).toNat < 2 ^ 30 := by
  apply addGenerators_lt
  · intro entry hentry
    exact gen_lt (List.of_mem_zip hentry).2
  · rw [toNat_mask_shift]
    omega

theorem two_pow_mul_xor
    {i b : ℕ}
    (hb : b < 2 ^ i)
    (a : ℕ) :
    (2 ^ i * a) ^^^ b = 2 ^ i * a + b := by
  apply Nat.eq_of_testBit_eq
  intro j
  rw [Nat.testBit_xor, Nat.testBit_two_pow_mul_add a hb, Nat.testBit_two_pow_mul]
  by_cases hj : j < i
  · simp [hj, Nat.not_le_of_lt hj]
  · have hbit : b.testBit j = false :=
      Nat.testBit_lt_two_pow (hb.trans_le (Nat.pow_le_pow_right (by norm_num) (by omega)))
    simp [hj, hbit, Nat.le_of_not_lt hj]

/-- A step with no top bits shifts the value in. -/
theorem polymodStep_shiftIn
    {chk : UInt32}
    {value : UInt8}
    (hchk : chk.toNat < 2 ^ 25)
    (hvalue : value.toNat < 32) :
    (polymodStep chk value).toNat = chk.toNat * 32 + value.toNat := by
  have htop : chk >>> 25 = 0 := by
    rw [← UInt32.toNat_inj, UInt32.toNat_shiftRight]
    have h25 : (25 : UInt32).toNat % 32 = 25 := rfl
    have hzero : (0 : UInt32).toNat = 0 := rfl
    rw [h25, hzero, Nat.shiftRight_eq_div_pow, Nat.div_eq_of_lt hchk]
  have hshift := toNat_mask_shift chk
  rw [Nat.mod_eq_of_lt hchk] at hshift
  rw [polymodStep_eq, polymodMove, htop, addGenerators_zero, UInt32.toNat_xor, hshift,
    UInt8.toNat_toUInt32, Nat.mul_comm]
  have hxor := @two_pow_mul_xor 5 value.toNat hvalue chk.toNat
  rw [hxor]
  ring

theorem checksumValues_lt
    (checksum : UInt32) :
    ∀ value ∈ checksumValues checksum, value.toNat < 32 := by
  intro value hvalue
  obtain ⟨i, -, rfl⟩ := List.mem_map.mp hvalue
  have h31 : (31 : UInt32).toNat = 2 ^ 5 - 1 := rfl
  rw [UInt32.toNat_toUInt8, UInt32.toNat_and, h31, Nat.and_two_pow_sub_one_eq_mod]
  omega

/-- Values that fit below the top bits are read as digits. -/
theorem foldl_shiftIn
    {k : ℕ}
    {chk : UInt32}
    {values : List UInt8}
    (hchk : chk.toNat < 2 ^ (5 * k))
    (hk : k + values.length ≤ 6)
    (hvalues : ∀ value ∈ values, value.toNat < 32) :
    (values.foldl polymodStep chk).toNat =
      values.foldl (fun n value => n * 32 + value.toNat) chk.toNat := by
  induction values generalizing k chk with
  | nil =>
      rfl
  | cons value values ih =>
      simp only [List.length_cons] at hk
      have hvalue := hvalues value List.mem_cons_self
      have hle : 2 ^ (5 * k) ≤ 2 ^ 25 := Nat.pow_le_pow_right (by norm_num) (by omega)
      have hstep := polymodStep_shiftIn (hchk.trans_le hle) hvalue
      have hnext : (polymodStep chk value).toNat < 2 ^ (5 * (k + 1)) := by
        have hpow : 2 ^ (5 * (k + 1)) = 2 ^ (5 * k) * 32 := by
          rw [Nat.mul_add, pow_add]
          norm_num
        rw [hstep, hpow]
        omega
      rw [List.foldl_cons, List.foldl_cons, ← hstep]
      exact ih hnext (by omega) (fun v hv => hvalues v (List.mem_cons_of_mem _ hv))

/-- The values of a checksum spell it. -/
theorem foldl_checksumValues
    {checksum : UInt32}
    (h : checksum.toNat < 2 ^ 30) :
    (checksumValues checksum).foldl polymodStep 0 = checksum := by
  have hdigit : ∀ k : ℕ, k < 26 →
      ((checksum >>> UInt32.ofNat k) &&& 31).toUInt8.toNat = checksum.toNat / 2 ^ k % 32 := by
    intro k hk
    have h31 : (31 : UInt32).toNat = 2 ^ 5 - 1 := rfl
    rw [UInt32.toNat_toUInt8, UInt32.toNat_and, h31, Nat.and_two_pow_sub_one_eq_mod,
      UInt32.toNat_shiftRight, UInt32.toNat_ofNat', Nat.mod_eq_of_lt (by omega : k < 2 ^ 32),
      Nat.mod_eq_of_lt (by omega : k < 32), Nat.shiftRight_eq_div_pow]
    omega
  have hlen : (checksumValues checksum).length = 6 := rfl
  have hzero : (0 : UInt32).toNat = 0 := rfl
  have hfold := @foldl_shiftIn 0 0 (checksumValues checksum) (by rw [hzero]; norm_num)
    (by rw [hlen]) (checksumValues_lt checksum)
  rw [← UInt32.toNat_inj, hfold, hzero, checksumValues, List.foldl_map]
  simp only [List.foldl_cons, List.foldl_nil]
  rw [hdigit (5 * (5 - 0)) (by norm_num), hdigit (5 * (5 - 1)) (by norm_num),
    hdigit (5 * (5 - 2)) (by norm_num), hdigit (5 * (5 - 3)) (by norm_num),
    hdigit (5 * (5 - 4)) (by norm_num), hdigit (5 * (5 - 5)) (by norm_num)]
  omega

/-- Values with the checksum over them have the remainder one. -/
theorem polymod_checksum
    (values : List UInt8) :
    polymod (values ++
      checksumValues (polymod (values ++ List.replicate 6 0) ^^^ 1)) = 1 := by
  have hlen : ∀ checksum, (checksumValues checksum).length = 6 := fun _ => rfl
  have hlt : (polymod (values ++ List.replicate 6 0)).toNat < 2 ^ 30 := by
    have hlast : List.replicate 6 (0 : UInt8) = List.replicate 5 0 ++ [0] := rfl
    rw [polymod, List.foldl_append, hlast, List.foldl_append, List.foldl_cons, List.foldl_nil,
      polymodStep_eq]
    exact Nat.xor_lt_two_pow (polymodMove_lt _) (by decide)
  have hlt' : (polymod (values ++ List.replicate 6 0) ^^^ 1).toNat < 2 ^ 30 := by
    rw [UInt32.toNat_xor]
    exact Nat.xor_lt_two_pow hlt (by decide)
  have hsplit := foldl_polymodStep_split (values.foldl polymodStep 1)
    (checksumValues (polymod (values ++ List.replicate 6 0) ^^^ 1))
  rw [hlen, foldl_checksumValues hlt', ← List.foldl_append, ← List.foldl_append] at hsplit
  rw [polymod, hsplit, ← polymod, ← UInt32.xor_assoc, UInt32.xor_self, UInt32.zero_xor]

end Checksum

section Groups

theorem drain_bits
    (acc : UInt16)
    {bits : ℕ}
    (h : bits ≤ 16) :
    (drain acc bits).1.flatMap (fun group => lowBits 5 group.toNat) ++
        lowBits (drain acc bits).2 acc.toNat = lowBits bits acc.toNat ∧
      (drain acc bits).2 < 5 ∧ ∀ group ∈ (drain acc bits).1, group.toNat < 32 := by
  induction bits using Nat.strong_induction_on with
  | _ bits ih =>
      by_cases hshort : bits < 5
      · have hdrain : drain acc bits = ([], bits) := by
          rw [drain]
          rintro k rfl
          omega
        rw [hdrain]
        exact ⟨rfl, hshort, fun group hgroup => by cases hgroup⟩
      · obtain ⟨k, rfl⟩ : ∃ k, bits = k + 5 := ⟨bits - 5, by omega⟩
        obtain ⟨hbits, hleft, hlt⟩ := ih k (by omega) (by omega)
        have h31 : (31 : UInt16).toNat = 2 ^ 5 - 1 := rfl
        have hgroup : ((acc >>> UInt16.ofNat k) &&& 31).toUInt8.toNat =
            acc.toNat / 2 ^ k % 2 ^ 5 := by
          rw [UInt16.toNat_toUInt8, UInt16.toNat_and, h31, Nat.and_two_pow_sub_one_eq_mod,
            UInt16.toNat_shiftRight, UInt16.toNat_ofNat', Nat.mod_eq_of_lt (by omega : k < 2 ^ 16),
            Nat.mod_eq_of_lt (by omega : k < 16), Nat.shiftRight_eq_div_pow]
          omega
        rw [drain]
        refine ⟨?_, hleft, ?_⟩
        · rw [List.flatMap_cons, List.append_assoc, hbits, hgroup, lowBits_mod _ (Nat.le_refl 5),
            Nat.add_comm k 5, lowBits_add]
        · intro group hmem
          rcases List.mem_cons.mp hmem with rfl | hmem
          · rw [hgroup]
            exact Nat.mod_lt _ (by norm_num)
          · exact hlt group hmem

/-- The groups spell the bits that are left in the accumulator and those of the bytes. -/
theorem groupsFrom_bits
    {acc : UInt16}
    {bits : ℕ}
    {bytes : List UInt8}
    (h : bits < 5) :
    ∃ pad < 5, (groupsFrom acc bits bytes).flatMap (fun group => lowBits 5 group.toNat) =
        lowBits bits acc.toNat ++ bytes.flatMap (fun b => lowBits 8 b.toNat) ++
          List.replicate pad false ∧
      ∀ group ∈ groupsFrom acc bits bytes, group.toNat < 32 := by
  induction bytes generalizing acc bits with
  | nil =>
      rw [groupsFrom]
      by_cases hpos : bits > 0
      · have h31 : (31 : UInt16).toNat = 2 ^ 5 - 1 := rfl
        have hgroup : ((acc <<< UInt16.ofNat (5 - bits)) &&& 31).toUInt8.toNat =
            acc.toNat * 2 ^ (5 - bits) % 2 ^ 5 := by
          rw [UInt16.toNat_toUInt8, UInt16.toNat_and, h31, Nat.and_two_pow_sub_one_eq_mod,
            UInt16.toNat_shiftLeft, UInt16.toNat_ofNat',
            Nat.mod_eq_of_lt (by omega : 5 - bits < 2 ^ 16),
            Nat.mod_eq_of_lt (by omega : 5 - bits < 16), Nat.shiftLeft_eq]
          omega
        have hsum : bits + (5 - bits) = 5 := by omega
        have hshift := @lowBits_shiftIn bits (5 - bits) 0 acc.toNat (by positivity)
        rw [hsum, Nat.add_zero, lowBits_zero] at hshift
        rw [if_pos hpos]
        refine ⟨5 - bits, by omega, ?_, ?_⟩
        · rw [List.flatMap_cons, List.flatMap_nil, List.append_nil, hgroup,
            lowBits_mod _ (Nat.le_refl 5), hshift, List.flatMap_nil, List.append_nil]
        · intro group hmem
          rw [List.mem_singleton] at hmem
          rw [hmem, hgroup]
          exact Nat.mod_lt _ (by norm_num)
      · obtain rfl : bits = 0 := by omega
        rw [if_neg hpos]
        exact ⟨0, by norm_num, rfl, fun group hmem => by cases hmem⟩
  | cons byte bytes ih =>
      have hbyte : byte.toNat < 2 ^ 8 := byte.toNat_lt
      -- the accumulator keeps the low byte of its old value above the new byte
      have hacc : ((acc <<< 8) ||| byte.toUInt16).toNat =
          acc.toNat % 2 ^ 8 * 2 ^ 8 + byte.toNat := by
        have h8 : (8 : UInt16).toNat % 16 = 8 := rfl
        have hmul : acc.toNat * 2 ^ 8 % 2 ^ 16 = 2 ^ 8 * (acc.toNat % 2 ^ 8) := by omega
        rw [UInt16.toNat_or, UInt16.toNat_shiftLeft, h8, Nat.shiftLeft_eq, UInt8.toNat_toUInt16,
          hmul, ← Nat.two_pow_add_eq_or_of_lt hbyte]
        omega
      have hbits : lowBits (bits + 8) ((acc <<< 8) ||| byte.toUInt16).toNat =
          lowBits bits acc.toNat ++ lowBits 8 byte.toNat := by
        rw [hacc, lowBits_shiftIn _ hbyte, lowBits_mod _ (by omega : bits ≤ 8)]
      obtain ⟨hdrain, hleft, hlt⟩ := drain_bits ((acc <<< 8) ||| byte.toUInt16)
        (by omega : bits + 8 ≤ 16)
      obtain ⟨pad, hpad, hrest, hlt'⟩ := @ih ((acc <<< 8) ||| byte.toUInt16) _ hleft
      rw [groupsFrom]
      refine ⟨pad, hpad, ?_, ?_⟩
      · rw [List.flatMap_append, hrest, List.append_assoc, ← List.append_assoc, hdrain, hbits,
          List.flatMap_cons]
        simp only [List.append_assoc]
      · intro group hmem
        rcases List.mem_append.mp hmem with hmem | hmem
        · exact hlt group hmem
        · exact hlt' group hmem

/-- The groups of five bits spell the bytes, with fewer than five zeros behind them. -/
theorem to5BitGroups_bits
    (bytes : List UInt8) :
    ∃ pad < 5, (to5BitGroups bytes).flatMap (fun group => lowBits 5 group.toNat) =
        bytes.flatMap (fun b => lowBits 8 b.toNat) ++ List.replicate pad false ∧
      ∀ group ∈ to5BitGroups bytes, group.toNat < 32 := by
  obtain ⟨pad, hpad, hbits, hlt⟩ := @groupsFrom_bits 0 0 bytes (by norm_num)
  exact ⟨pad, hpad, hbits, hlt⟩

end Groups

section Address

/-- The symbol of a value. -/
def symbol (value : UInt8) : UInt8 :=
  charset.getD value.toNat 0

theorem symbols_of_lt :
    ∀ n < 32, charset[n]? = some (symbol (UInt8.ofNat n)) ∧
      charValue (symbol (UInt8.ofNat n)) = some (UInt8.ofNat n) ∧
      symbol (UInt8.ofNat n) ≠ 0x31 := by
  decide +kernel

/-- Every value of five bits has a symbol, which is not the separator and has that value. -/
theorem symbol_spec
    {value : UInt8}
    (h : value.toNat < 32) :
    charset[value.toNat]? = some (symbol value) ∧ charValue (symbol value) = some value ∧
      symbol value ≠ 0x31 := by
  have hspec := symbols_of_lt value.toNat h
  rwa [UInt8.ofNat_toNat] at hspec

theorem mapM_charset
    {values : List UInt8}
    (h : ∀ value ∈ values, value.toNat < 32) :
    values.mapM (fun value => charset[value.toNat]?) = some (values.map symbol) := by
  induction values with
  | nil =>
      rfl
  | cons value values ih =>
      have hrest := ih (fun v hv => h v (List.mem_cons_of_mem _ hv))
      simp [hrest, (symbol_spec (h value List.mem_cons_self)).1]

theorem mapM_charValue
    {values : List UInt8}
    (h : ∀ value ∈ values, value.toNat < 32) :
    (values.map symbol).mapM charValue = some values := by
  induction values with
  | nil =>
      rfl
  | cons value values ih =>
      have hrest := ih (fun v hv => h v (List.mem_cons_of_mem _ hv))
      simp [hrest, (symbol_spec (h value List.mem_cons_self)).2.1]

/-- The last separator stands before a text without separators. -/
theorem splitAddress_of_notMem
    (hrp : List UInt8)
    {text : List UInt8}
    (h : (0x31 : UInt8) ∉ text) :
    splitAddress (hrp ++ 0x31 :: text) = (hrp, text) := by
  have hall : ∀ c ∈ text.reverse, decide (c ≠ 0x31) = true := by
    intro c hc
    rw [List.mem_reverse] at hc
    exact decide_eq_true (fun heq => h (heq ▸ hc))
  have htake : ((hrp ++ 0x31 :: text).reverse.takeWhile (· ≠ 0x31)).reverse = text := by
    rw [List.reverse_append, List.reverse_cons, List.append_assoc,
      List.takeWhile_append_of_pos hall]
    simp
  have hcut : (hrp ++ 0x31 :: text).length - text.length - 1 = hrp.length := by
    rw [List.length_append, List.length_cons]
    omega
  rw [splitAddress, htake]
  simp only [hcut, List.take_left]

/-- An address for every program of an allowed length: its checksum verifies, and its values
after the version spell the program, with fewer than five zeros behind it. -/
theorem encodeV0_verifies
    (hrp program : List UInt8) :
    match encodeV0 hrp program with
    | none => ¬ (2 ≤ program.length ∧ program.length ≤ 40)
    | some address =>
        ∃ values, verified address = some (hrp, 0 :: values) ∧
          ∃ pad < 5, octets (values.flatMap (fun value => lowBits 5 value.toNat)) =
            (program, List.replicate pad false) := by
  by_cases hlength : 2 ≤ program.length ∧ program.length ≤ 40
  · obtain ⟨pad, hpad, hbits, hgroups⟩ := to5BitGroups_bits program
    have hdata : ∀ value ∈ (0 : UInt8) :: to5BitGroups program, value.toNat < 32 := by
      intro value hvalue
      rcases List.mem_cons.mp hvalue with rfl | hvalue
      · decide
      · exact hgroups value hvalue
    have hsum := polymod_checksum (hrpExpand hrp ++ (0 :: to5BitGroups program))
    generalize hchecksum : polymod (hrpExpand hrp ++ (0 :: to5BitGroups program) ++
      List.replicate 6 0) ^^^ 1 = checksum at hsum
    have hlt := checksumValues_lt checksum
    have hall : ∀ value ∈ (0 :: to5BitGroups program) ++ checksumValues checksum,
        value.toNat < 32 := by
      intro value hvalue
      rcases List.mem_append.mp hvalue with hvalue | hvalue
      · exact hdata value hvalue
      · exact hlt value hvalue
    have hencode : encodeV0 hrp program = some (hrp ++ 0x31 ::
        ((0 :: to5BitGroups program) ++ checksumValues checksum).map symbol) := by
      simp only [encodeV0, hlength, hchecksum, mapM_charset hdata, mapM_charset hlt,
        List.map_append]
      rfl
    have hnotMem : (0x31 : UInt8) ∉
        ((0 :: to5BitGroups program) ++ checksumValues checksum).map symbol := by
      intro hmem
      obtain ⟨value, hvalue, heq⟩ := List.mem_map.mp hmem
      exact (symbol_spec (hall value hvalue)).2.2 heq
    have hlen : (checksumValues checksum).length = 6 := rfl
    have htake : ((0 :: to5BitGroups program) ++ checksumValues checksum).take
        (((0 :: to5BitGroups program) ++ checksumValues checksum).length - 6) =
          0 :: to5BitGroups program := by
      rw [List.length_append, hlen, Nat.add_sub_cancel, List.take_left]
    have hverified : verified (hrp ++ 0x31 ::
        ((0 :: to5BitGroups program) ++ checksumValues checksum).map symbol) =
          some (hrp, 0 :: to5BitGroups program) := by
      have hsix : 6 ≤ ((0 :: to5BitGroups program) ++ checksumValues checksum).length := by
        rw [List.length_append, hlen]
        exact Nat.le_add_left 6 _
      rw [List.append_assoc] at hsum
      simp only [verified, splitAddress_of_notMem hrp hnotMem, mapM_charValue hall,
        Option.bind_eq_bind, Option.bind_some, hsum, hsix, htake, guard_true, and_self]
      rfl
    rw [hencode]
    refine ⟨to5BitGroups program, hverified, pad, hpad, ?_⟩
    rw [hbits]
    apply octets_flatMap
    rw [List.length_replicate]
    omega
  · have hencode : encodeV0 hrp program = none := by
      simp [encodeV0, hlength, guard]
    rw [hencode]
    exact hlength

end Address

end Bech32

end OpenCsv
