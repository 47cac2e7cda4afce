import OpenCsv.Cbf.Gcs
import OpenCsv.Cbf.RoundTrip
import OpenCsv.Lib.Rice
import Mathlib.Data.List.ModifyLast

/-!
# Filters that are built and queried

A filter is built from the distinct elements of a block: their hashed values, sorted, as
Golomb-Rice coded differences in a stream of bits.  A query decodes the same differences
until it meets or passes its target.

**Results.**
* `matchesItem_encode`: a query of a built filter is answered by the hashed values alone,
  as long as no difference needs more ones than the decoder accepts.
* `narrow_of_length_le`: which is so for up to 2868786956 elements.
-/

namespace OpenCsv

open Call

section Writing

/-- A stream of bits; `used` of the last byte are taken, none of no byte or of a full one. -/
structure BitWriter where
  bytes : List UInt8
  used : ℕ
deriving DecidableEq

namespace BitWriter

def new : BitWriter where
  bytes := []
  used := 0

/-- Write one bit into the last byte, or into a new one. -/
def push (w : BitWriter) (bit : Bool) : BitWriter :=
  let bytes := if w.used = 0 then w.bytes ++ [0] else w.bytes
  let bytes :=
    if bit then bytes.modifyLast (fun last => last ||| (1 <<< UInt8.ofNat (7 - w.used)))
    else bytes
  { bytes, used := (w.used + 1) % 8 }

/-- Write the low `nbits` bits of `data`, the highest first. -/
def write (data : UInt64) : (nbits : ℕ) → BitWriter → BitWriter
  | 0, w => w
  | i + 1, w => write data i (w.push ((data >>> UInt64.ofNat i) &&& 1 = 1))

/-- Golomb-Rice encode `x`. -/
def golombRiceEncode (w : BitWriter) (x : UInt64) : BitWriter :=
  let q := x >>> UInt64.ofNat basicFilterP
  let w := (write 1 1)^[q.toNat] w
  let w := w.write 0 1
  w.write x basicFilterP

end BitWriter

/-- Map an item into the values of a filter of `n` elements. -/
def hashToRange (key : Bytes 16) (item : List UInt8) (n : UInt64) : UInt64 :=
  let k0 := UInt64.ofNat (leNat (key.toList.take 8))
  let k1 := UInt64.ofNat (leNat (key.toList.drop 8))
  mapIntoRange (siphash24 k0 k1 item) (n * basicFilterM)

/-- Encode the differences of values that ascend from `last`. -/
def encodeValues : BitWriter → (last : UInt64) → List UInt64 → BitWriter
  | w, _, [] => w
  | w, last, value :: values => encodeValues (w.golombRiceEncode (value - last)) value values

/-- The hashed values of a set of elements, sorted. -/
def hashedValues (key : Bytes 16) (set : List (List UInt8)) : List UInt64 :=
  (set.map (fun item => hashToRange key item (UInt64.ofNat set.length))).insertionSort (· ≤ ·)

/-- Serialize a filter of the distinct elements, in any order: their values are sorted. -/
def GcsFilter.encode
    (profile : Profile)
    (elements : List (List UInt8))
    (key : Bytes 16) : Except (Stop CbfError) (List UInt8) :=
  let set := elements.dedup
  let n := UInt64.ofNat set.length
  if n = 0 then
    .ok (writeVarint n.toNat)
  else do
    profile.debugAssert (n.toNat * basicFilterM.toNat < 2 ^ 64)
    let writer := encodeValues .new 0 (hashedValues key set)
    return writeVarint n.toNat ++ writer.bytes

end Writing

section Packing

/-- The bits of one byte. -/
def byteBits (b : UInt8) : List Bool :=
  (List.range 8).map (fun i => b.toNat.testBit (7 - i))

theorem bitsOf_append
    (front : List UInt8)
    (b : UInt8) :
    bitsOf (front ++ [b]) = bitsOf front ++ byteBits b := by
  rw [bitsOf, List.flatMap_append, List.flatMap_singleton]
  rfl

theorem bitsOf_length
    (data : List UInt8) :
    (bitsOf data).length = 8 * data.length := by
  induction data with
  | nil =>
      rfl
  | cons b data ih =>
      rw [bitsOf, List.flatMap_cons, List.length_append, List.length_cons]
      rw [bitsOf] at ih
      rw [ih, List.length_map, List.length_range]
      omega

/-- A bit that is set in a byte. -/
theorem byteBits_set
    (b : UInt8)
    {u : ℕ}
    (hu : u < 8) :
    byteBits (b ||| (1 <<< UInt8.ofNat (7 - u))) = (byteBits b).set u true := by
  have hshift : ((1 : UInt8) <<< UInt8.ofNat (7 - u)).toNat = 2 ^ (7 - u) := by
    interval_cases u <;> rfl
  refine List.ext_getElem (by simp [byteBits]) (fun i hi _ => ?_)
  have hi8 : i < 8 := by
    simpa [byteBits] using hi
  rw [List.getElem_set]
  simp only [byteBits, List.getElem_map, List.getElem_range, UInt8.toNat_or, hshift,
    Nat.testBit_or, Nat.testBit_two_pow]
  by_cases heq : u = i
  · rw [if_pos heq, heq]
    simp
  · rw [if_neg heq]
    have hne : ¬ 7 - u = 7 - i := by
      omega
    simp [hne]

/-- The bits that were written, with zeroes up to the end of the last byte. -/
structure BitWriter.Holds (w : BitWriter) (bits : List Bool) : Prop where
  used : w.used = bits.length % 8
  packed : bitsOf w.bytes = bits ++ List.replicate ((8 - w.used) % 8) false

namespace BitWriter

variable {w : BitWriter}
variable {bits : List Bool}

theorem holds_new :
    Holds new [] where
  used := rfl
  packed := rfl

/-- A bit that is set in the last byte, behind what was written. -/
theorem packed_set
    {front : List UInt8}
    {last : UInt8}
    {pad : ℕ}
    (hpacked : bitsOf (front ++ [last]) = bits ++ List.replicate (pad + 1) false)
    (hused : bits.length % 8 + (pad + 1) = 8) :
    bitsOf (front ++ [last ||| (1 <<< UInt8.ofNat (7 - bits.length % 8))]) =
      bits ++ true :: List.replicate pad false := by
  have hlength := congrArg List.length hpacked
  rw [bitsOf_length, List.length_append, List.length_append, List.length_replicate,
    List.length_singleton] at hlength
  have hfront : (bitsOf front).length + bits.length % 8 = bits.length := by
    rw [bitsOf_length]
    omega
  rw [bitsOf_append, byteBits_set last (by omega)]
  rw [bitsOf_append] at hpacked
  have hset : (bitsOf front ++ byteBits last).set bits.length true =
      (bits ++ List.replicate (pad + 1) false).set bits.length true := by
    rw [hpacked]
  rw [← hfront, List.set_append_right _ _ (Nat.le_add_right _ _), Nat.add_sub_cancel_left,
    hfront, List.set_append_right _ _ le_rfl, Nat.sub_self, List.replicate_succ,
    List.set_cons_zero] at hset
  exact hset

/-- One more bit. -/
theorem Holds.push
    (h : w.Holds bits)
    (bit : Bool) :
    (w.push bit).Holds (bits ++ [bit]) := by
  have hlt : w.used < 8 := by
    rw [h.used]
    exact Nat.mod_lt _ (by norm_num)
  have hused : (w.push bit).used = (bits ++ [bit]).length % 8 := by
    show (w.used + 1) % 8 = _
    rw [h.used, List.length_append, List.length_singleton, Nat.mod_add_mod]
  refine ⟨hused, ?_⟩
  -- There is a byte with room for the bit.
  obtain ⟨front, last, hbytes, hpacked⟩ : ∃ front last,
      (if w.used = 0 then w.bytes ++ [0] else w.bytes) = front ++ [last] ∧
        bitsOf (front ++ [last]) = bits ++ List.replicate (8 - w.used) false := by
    by_cases hzero : w.used = 0
    · refine ⟨w.bytes, 0, if_pos hzero, ?_⟩
      have hpacked := h.packed
      rw [hzero] at hpacked ⊢
      rw [bitsOf_append, hpacked]
      simp [byteBits]
    · rw [if_neg hzero]
      have hpacked := h.packed
      rw [Nat.mod_eq_of_lt (by omega)] at hpacked
      rcases List.eq_nil_or_concat w.bytes with hnil | ⟨front, last, hconcat⟩
      · rw [hnil] at hpacked
        have hlength := congrArg List.length hpacked
        simp [bitsOf] at hlength
        omega
      · rw [List.concat_eq_append] at hconcat
        refine ⟨front, last, hconcat, ?_⟩
        rw [← hconcat]
        exact hpacked
  obtain ⟨pad, hpad⟩ : ∃ pad, 8 - w.used = pad + 1 := ⟨7 - w.used, by omega⟩
  have hrest : (8 - (w.push bit).used) % 8 = pad := by
    show (8 - (w.used + 1) % 8) % 8 = pad
    omega
  rw [hrest]
  rw [hpad] at hpacked
  have hpush : (w.push bit).bytes = if bit then
      (front ++ [last]).modifyLast (fun last => last ||| (1 <<< UInt8.ofNat (7 - w.used)))
        else front ++ [last] := by
    rw [BitWriter.push]
    simp only [hbytes]
  rw [hpush, List.append_assoc, List.singleton_append]
  cases bit with
  | false =>
      rw [if_neg Bool.false_ne_true, hpacked, List.replicate_succ]
  | true =>
      rw [if_pos rfl, List.modifyLast_concat, h.used]
      exact packed_set hpacked (by rw [← h.used]; omega)

/-- The low bits of a word. -/
theorem Holds.write
    {nbits : ℕ}
    (h : w.Holds bits)
    (data : UInt64)
    (hn : nbits ≤ 64) :
    (w.write data nbits).Holds (bits ++ lowBits nbits data.toNat) := by
  induction nbits generalizing w bits with
  | zero =>
      rw [lowBits, List.append_nil]
      exact h
  | succ i ih =>
      have hbit : decide ((data >>> UInt64.ofNat i) &&& 1 = 1) = data.toNat.testBit i := by
        have hvalue := toNat_shiftRight_and_one data (by omega : i < 64)
        rw [Bool.eq_iff_iff, decide_eq_true_eq, ← UInt64.toNat_inj, hvalue,
          ← Nat.toNat_testBit]
        cases data.toNat.testBit i <;> decide
      have hnext := ih (h.push (decide ((data >>> UInt64.ofNat i) &&& 1 = 1))) (by omega)
      rw [hbit, List.append_assoc] at hnext
      rw [lowBits]
      rw [← hbit] at hnext ⊢
      exact hnext

theorem Holds.ones
    (h : w.Holds bits)
    (q : ℕ) :
    ((BitWriter.write 1 1)^[q] w).Holds (bits ++ List.replicate q true) := by
  induction q generalizing w bits with
  | zero =>
      rw [List.replicate_zero, List.append_nil]
      exact h
  | succ q ih =>
      have hone : (w.write 1 1).Holds (bits ++ [true]) := h.write 1 (by norm_num)
      have hrest := ih hone
      rw [List.append_assoc, List.singleton_append, ← List.replicate_succ] at hrest
      exact hrest

/-- The code of a number. -/
theorem Holds.golombRiceEncode
    (h : w.Holds bits)
    (x : UInt64) :
    (w.golombRiceEncode x).Holds (bits ++ riceCode basicFilterP x.toNat) := by
  have hquotient : (x >>> UInt64.ofNat basicFilterP).toNat = x.toNat / 2 ^ basicFilterP := by
    have h19 : (UInt64.ofNat basicFilterP).toNat % 64 = basicFilterP := rfl
    rw [UInt64.toNat_shiftRight, h19, Nat.shiftRight_eq_div_pow]
  have hall := ((h.ones (x >>> UInt64.ofNat basicFilterP).toNat).write 0
    (by norm_num : 1 ≤ 64)).write x (by decide : basicFilterP ≤ 64)
  have hzero : lowBits 1 (0 : UInt64).toNat = [false] := rfl
  rw [hzero, hquotient, List.append_assoc, List.append_assoc] at hall
  rw [BitWriter.golombRiceEncode, hquotient, riceCode]
  exact hall

end BitWriter

/-- The stream of the values of a filter. -/
theorem BitWriter.Holds.encodeValues
    {w : BitWriter}
    {bits : List Bool}
    {last : UInt64}
    {values : List UInt64}
    (h : w.Holds bits)
    (hsorted : (last :: values).Pairwise (· ≤ ·)) :
    (OpenCsv.encodeValues w last values).Holds
      (bits ++ (differences last.toNat (values.map UInt64.toNat)).flatMap
        (riceCode basicFilterP)) := by
  induction values generalizing w bits last with
  | nil =>
      rw [List.map_nil, differences, List.flatMap_nil, List.append_nil]
      exact h
  | cons value values ih =>
      have hle : last ≤ value := List.rel_of_pairwise_cons hsorted List.mem_cons_self
      have hdifference : (value - last).toNat = value.toNat - last.toNat :=
        UInt64.toNat_sub_of_le _ _ hle
      have hcode := h.golombRiceEncode (value - last)
      rw [hdifference] at hcode
      have hrest := ih hcode hsorted.of_cons
      rw [List.append_assoc] at hrest
      rw [List.map_cons, differences, List.flatMap_cons]
      exact hrest

end Packing

section Reading

/-- What the decoder says of a quotient above its bound. -/
def quotientTooLarge : Stop CbfError :=
  .error (.filter (Text.lit "GCS quotient unreasonably large"))

theorem readUnary_ones
    {q k : ℕ}
    (rest : List Bool)
    (h : q + k ≤ 2 ^ 32) :
    readUnary q (List.replicate k true ++ false :: rest) = .ok (q + k) rest := by
  induction k generalizing q with
  | zero =>
      rfl
  | succ k ih =>
      rw [List.replicate_succ, List.cons_append, readUnary, if_neg (by omega),
        ih (by omega)]
      congr 1
      omega

theorem readUnary_tooLarge
    {q k : ℕ}
    (rest : List Bool)
    (hq : q ≤ 2 ^ 32)
    (h : 2 ^ 32 < q + k) :
    ∃ rest', readUnary q (List.replicate k true ++ false :: rest) =
      .error quotientTooLarge rest' := by
  induction k generalizing q with
  | zero =>
      omega
  | succ k ih =>
      rw [List.replicate_succ, List.cons_append, readUnary]
      by_cases hnext : q + 1 > 2 ^ 32
      · exact ⟨_, if_pos hnext⟩
      · rw [if_neg hnext]
        exact ih (by omega) (by omega)

theorem readBits_lowBits
    {n : ℕ}
    {value : UInt64}
    (x : ℕ)
    (rest : List Bool)
    (hroom : (value.toNat + 1) * 2 ^ n ≤ 2 ^ 64) :
    ∃ v, readBits n value (lowBits n x ++ rest) = .ok v rest ∧
      v.toNat = value.toNat * 2 ^ n + x % 2 ^ n := by
  induction n generalizing value with
  | zero =>
      refine ⟨value, rfl, ?_⟩
      rw [pow_zero, Nat.mod_one, Nat.mul_one, Nat.add_zero]
  | succ n ih =>
      have hbit : (x.testBit n).toUInt64.toNat = (x.testBit n).toNat := by
        cases x.testBit n <;> rfl
      have hbitLt : (x.testBit n).toNat < 2 := Bool.toNat_lt _
      have hshift := shl_limb_eq value (hbit.trans_lt hbitLt)
      have hpos : 1 ≤ 2 ^ n := Nat.one_le_two_pow
      have hsmall : (value.toNat + 1) * 2 ≤ 2 ^ 64 := by
        calc (value.toNat + 1) * 2 ≤ (value.toNat + 1) * 2 ^ (n + 1) :=
              Nat.mul_le_mul_left _ (by rw [pow_succ]; omega)
          _ ≤ 2 ^ 64 := hroom
      have hnext : ((value <<< 1) ||| (x.testBit n).toUInt64).toNat =
          2 * value.toNat + (x.testBit n).toNat := by
        rw [hbit] at hshift
        omega
      have hroom' : (((value <<< 1) ||| (x.testBit n).toUInt64).toNat + 1) * 2 ^ n ≤ 2 ^ 64 := by
        calc (((value <<< 1) ||| (x.testBit n).toUInt64).toNat + 1) * 2 ^ n
            ≤ ((value.toNat + 1) * 2) * 2 ^ n := Nat.mul_le_mul_right _ (by omega)
          _ = (value.toNat + 1) * 2 ^ (n + 1) := by ring
          _ ≤ 2 ^ 64 := hroom
      obtain ⟨v, hv, hvalue⟩ := ih hroom'
      refine ⟨v, hv, ?_⟩
      rw [hvalue, hnext, mod_two_pow_succ_eq]
      ring

/-- A code whose quotient is within the bound is decoded. -/
theorem golombRiceDecode_code
    (profile : Profile)
    {x : ℕ}
    (rest : List Bool)
    (h : x / 2 ^ basicFilterP ≤ 2 ^ 32) :
    golombRiceDecode profile (riceCode basicFilterP x ++ rest) = .ok (UInt64.ofNat x) rest := by
  obtain ⟨r, hr, hvalue⟩ := @readBits_lowBits basicFilterP 0 x rest (by decide)
  have hlow : r.toNat = x % 2 ^ basicFilterP := by
    rw [hvalue]
    exact Nat.zero_add _ |>.trans (by rfl)
  have hx := Nat.div_add_mod x (2 ^ basicFilterP)
  have hmod := Nat.mod_lt x (show 0 < 2 ^ basicFilterP by decide)
  have hP : 2 ^ basicFilterP = 524288 := rfl
  rw [hP] at h hx hmod hlow
  have hhigh : (UInt64.ofNat (x / 524288) <<< UInt64.ofNat basicFilterP).toNat =
      x / 524288 * 524288 := by
    have h19 : (UInt64.ofNat basicFilterP).toNat % 64 = 19 := rfl
    rw [UInt64.toNat_shiftLeft, h19, UInt64.toNat_ofNat', Nat.shiftLeft_eq]
    omega
  have hsum : (UInt64.ofNat (x / 524288) <<< UInt64.ofNat basicFilterP).toNat + r.toNat = x := by
    rw [hhigh, hlow]
    omega
  have hassert : (profile.debugAssert ((UInt64.ofNat (x / 524288) <<<
      UInt64.ofNat basicFilterP).toNat + r.toNat < 2 ^ 64) : Except (Stop CbfError) Unit) =
        .ok () := by
    rw [Profile.debugAssert_eq_ok_iff, hsum]
    intro _
    rw [decide_eq_true_eq]
    omega
  have hresult : UInt64.ofNat (x / 524288) <<< UInt64.ofNat basicFilterP + r = UInt64.ofNat x := by
    rw [← UInt64.toNat_inj, UInt64.toNat_add, hsum, UInt64.toNat_ofNat']
  rw [riceCode, hP, List.append_assoc, List.cons_append, golombRiceDecode]
  refine (bind_of_ok (readUnary_ones _ (by omega))).trans ?_
  rw [Nat.zero_add]
  refine (bind_of_ok hr).trans ?_
  refine (lift_bind_apply _ _).trans ?_
  rw [hassert]
  exact congrArg (fun a => EStateM.Result.ok a rest) hresult

theorem golombRiceDecode_tooLarge
    (profile : Profile)
    {x : ℕ}
    (rest : List Bool)
    (h : 2 ^ 32 < x / 2 ^ basicFilterP) :
    ∃ rest', golombRiceDecode profile (riceCode basicFilterP x ++ rest) =
      .error quotientTooLarge rest' := by
  obtain ⟨rest', hrest'⟩ := readUnary_tooLarge (q := 0) (lowBits basicFilterP x ++ rest)
    (Nat.zero_le _) (by rwa [Nat.zero_add])
  refine ⟨rest', ?_⟩
  rw [riceCode, List.append_assoc, List.cons_append, golombRiceDecode, bind_apply, hrest']

/-- No difference needs more ones than the decoder accepts. -/
def Narrow (last : UInt64) (values : List UInt64) : Prop :=
  ∀ d ∈ differences last.toNat (values.map UInt64.toNat), d / 2 ^ basicFilterP ≤ 2 ^ 32

/-- One step of the search: a difference is decoded and its value compared. -/
theorem search_code
    (profile : Profile)
    (target : UInt64)
    (count : ℕ)
    {last value : UInt64}
    (rest : List Bool)
    (hle : last ≤ value)
    (h : (value.toNat - last.toNat) / 2 ^ basicFilterP ≤ 2 ^ 32) :
    GcsFilter.search profile target (count + 1) last
        (riceCode basicFilterP (value.toNat - last.toNat) ++ rest) =
      if value = target then .ok true rest
      else if value > target then .ok false rest
      else GcsFilter.search profile target count value rest := by
  have hbound := value.toNat_lt
  rw [UInt64.le_iff_toNat_le] at hle
  have hdifference : (UInt64.ofNat (value.toNat - last.toNat)).toNat =
      value.toNat - last.toNat := by
    rw [UInt64.toNat_ofNat', Nat.mod_eq_of_lt (by omega)]
  have hnext : last + UInt64.ofNat (value.toNat - last.toNat) = value := by
    rw [← UInt64.toNat_inj, UInt64.toNat_add, hdifference]
    omega
  have hfits : last.toNat + (UInt64.ofNat (value.toNat - last.toNat)).toNat < 2 ^ 64 := by
    omega
  rw [GcsFilter.search]
  refine (bind_of_ok (golombRiceDecode_code profile rest h)).trans ?_
  rw [if_pos hfits, hnext]
  refine (lift_bind_apply _ _).trans ?_
  show (if value = target then _ else if value > target then _ else _ :
    Call (Stop CbfError) (List Bool) Bool) rest = _
  split_ifs <;> rfl

/-- The search of an encoded list finds what is in it, or meets a difference that is too
large. -/
theorem search_codes
    (profile : Profile)
    (target : UInt64)
    {last : UInt64}
    {values : List UInt64}
    (rest : List Bool)
    (hsorted : (last :: values).Pairwise (· ≤ ·)) :
    answer (GcsFilter.search profile target values.length last)
        ((differences last.toNat (values.map UInt64.toNat)).flatMap (riceCode basicFilterP) ++
          rest) = .ok (decide (target ∈ values)) ∨
      ¬Narrow last values ∧
        answer (GcsFilter.search profile target values.length last)
          ((differences last.toNat (values.map UInt64.toNat)).flatMap (riceCode basicFilterP) ++
            rest) = .error quotientTooLarge := by
  induction values generalizing last with
  | nil =>
      exact Or.inl rfl
  | cons value values ih =>
      have hle : last ≤ value := List.rel_of_pairwise_cons hsorted List.mem_cons_self
      rw [List.map_cons, differences, List.flatMap_cons, List.append_assoc, List.length_cons]
      by_cases hquotient : (value.toNat - last.toNat) / 2 ^ basicFilterP ≤ 2 ^ 32
      · have hstep := search_code profile target values.length
          ((differences value.toNat (values.map UInt64.toNat)).flatMap (riceCode basicFilterP) ++
            rest) hle hquotient
        unfold answer
        rw [hstep]
        by_cases heq : value = target
        · rw [if_pos heq]
          exact Or.inl (congrArg Except.ok (decide_eq_true (heq ▸ List.mem_cons_self)).symm)
        · rw [if_neg heq]
          by_cases hpassed : value > target
          · have hnot : target ∉ value :: values := by
              intro hmem
              rcases List.mem_cons.mp hmem with rfl | hmem
              · exact heq rfl
              · have hge : value ≤ target := List.rel_of_pairwise_cons hsorted.of_cons hmem
                exact absurd hpassed (UInt64.not_lt.mpr hge)
            rw [if_pos hpassed]
            exact Or.inl (congrArg Except.ok (decide_eq_false hnot).symm)
          · rw [if_neg hpassed]
            have hmem : decide (target ∈ value :: values) = decide (target ∈ values) := by
              rw [decide_eq_decide, List.mem_cons, or_iff_right (fun h => heq h.symm)]
            rw [hmem]
            rcases ih hsorted.of_cons with hfound | ⟨hwide, herror⟩
            · exact Or.inl hfound
            · refine Or.inr ⟨?_, herror⟩
              intro hnarrow
              exact hwide (fun d hd => hnarrow d (List.mem_cons_of_mem _ hd))
      · obtain ⟨rest', hrest'⟩ := golombRiceDecode_tooLarge profile
          ((differences value.toNat (values.map UInt64.toNat)).flatMap (riceCode basicFilterP) ++
            rest) (not_le.mp hquotient)
        refine Or.inr ⟨?_, ?_⟩
        · intro hnarrow
          exact hquotient (hnarrow _ List.mem_cons_self)
        · rw [answer, GcsFilter.search, bind_apply, hrest']

end Reading

section Exactness

variable {key : Bytes 16}
variable {elements : List (List UInt8)}

/-- The hashed values of the elements of a filter. -/
def filterValues (key : Bytes 16) (elements : List (List UInt8)) : List UInt64 :=
  hashedValues key elements.dedup

theorem mem_filterValues_iff
    {v : UInt64} :
    v ∈ filterValues key elements ↔
      ∃ element ∈ elements, hashToRange key element (UInt64.ofNat elements.dedup.length) = v := by
  unfold filterValues hashedValues
  rw [List.mem_insertionSort, List.mem_map]
  simp only [List.mem_dedup]

theorem filterValues_length
    (key : Bytes 16)
    (elements : List (List UInt8)) :
    (filterValues key elements).length = elements.dedup.length := by
  unfold filterValues hashedValues
  rw [List.length_insertionSort, List.length_map]

theorem filterValues_sorted
    (key : Bytes 16)
    (elements : List (List UInt8)) :
    ((0 : UInt64) :: filterValues key elements).Pairwise (· ≤ ·) := by
  refine List.pairwise_cons.mpr ⟨?_, ?_⟩
  · intro v _
    exact UInt64.le_iff_toNat_le.mpr (Nat.zero_le _)
  · exact List.pairwise_insertionSort _ _

theorem toNat_count
    (hcount : elements.dedup.length < 2 ^ 32) :
    (UInt64.ofNat elements.dedup.length).toNat = elements.dedup.length := by
  rw [UInt64.toNat_ofNat', Nat.mod_eq_of_lt (by omega)]

/-- Below the limit of the count the range of the values is a word. -/
theorem count_fits
    (profile : Profile)
    (hcount : elements.dedup.length < 2 ^ 32) :
    (profile.debugAssert ((UInt64.ofNat elements.dedup.length).toNat *
      basicFilterM.toNat < 2 ^ 64) : Except (Stop CbfError) Unit) = .ok () := by
  have hm : basicFilterM.toNat = 784931 := rfl
  rw [Profile.debugAssert_eq_ok_iff, toNat_count hcount, hm]
  intro _
  rw [decide_eq_true_eq]
  omega

/-- What a filter of distinct elements is parsed to. -/
theorem parse_encode
    (profile : Profile)
    (key : Bytes 16)
    (hcount : elements.dedup.length < 2 ^ 32) :
    ∃ (serialized : List UInt8) (w : BitWriter),
      GcsFilter.encode profile elements key = .ok serialized ∧
        GcsFilter.parse serialized = .ok ⟨UInt64.ofNat elements.dedup.length, w.bytes⟩ ∧
          w.Holds ((differences 0 ((filterValues key elements).map UInt64.toNat)).flatMap
            (riceCode basicFilterP)) := by
  have hn := toNat_count hcount
  have hstream := BitWriter.holds_new.encodeValues (filterValues_sorted key elements)
  rw [List.nil_append] at hstream
  have hparse : ∀ bytes, (UInt64.ofNat elements.dedup.length = 0 → bytes = []) →
      GcsFilter.parse (writeVarint (UInt64.ofNat elements.dedup.length).toNat ++ bytes) =
        .ok ⟨UInt64.ofNat elements.dedup.length, bytes⟩ := by
    intro bytes hempty
    have hread := (format_readVarint (writeVarint (UInt64.ofNat elements.dedup.length).toNat
      ++ bytes) (UInt64.ofNat elements.dedup.length) bytes).mpr ⟨trivial, rfl⟩
    have hsmall : decide ((UInt64.ofNat elements.dedup.length).toNat < 2 ^ 32) = true := by
      rw [hn]
      exact decide_eq_true hcount
    have hdata : decide (¬(UInt64.ofNat elements.dedup.length = 0 ∧ bytes ≠ [])) = true := by
      rw [decide_eq_true_eq]
      exact fun hboth => hboth.2 (hempty hboth.1)
    rw [GcsFilter.parse, hread]
    simp only [hsmall, hdata, require]
    rfl
  by_cases hzero : UInt64.ofNat elements.dedup.length = 0
  · refine ⟨writeVarint (UInt64.ofNat elements.dedup.length).toNat, .new, ?_, ?_, ?_⟩
    · unfold GcsFilter.encode
      simp only [if_pos hzero]
    · have hbare := hparse [] (fun _ => rfl)
      rwa [List.append_nil] at hbare
    · have hnone : filterValues key elements = [] := by
        rw [← List.length_eq_zero_iff, filterValues_length, ← hn, hzero]
        rfl
      rw [hnone]
      exact BitWriter.holds_new
  · refine ⟨_, encodeValues .new 0 (filterValues key elements), ?_,
      hparse _ (fun h => absurd h hzero), hstream⟩
    have hassert := count_fits profile hcount
    unfold GcsFilter.encode
    simp only [if_neg hzero]
    rw [hassert]
    rfl

/-- A query of a built filter is answered by the hashed values, or meets a difference that is
too large. -/
theorem matchesItem_parsed
    (profile : Profile)
    (key : Bytes 16)
    (item : List UInt8)
    (hcount : elements.dedup.length < 2 ^ 32)
    {w : BitWriter}
    (hstream : w.Holds ((differences 0 ((filterValues key elements).map UInt64.toNat)).flatMap
      (riceCode basicFilterP))) :
    GcsFilter.matchesItem profile ⟨UInt64.ofNat elements.dedup.length, w.bytes⟩ key item =
        .ok (decide (∃ element ∈ elements,
          hashToRange key element (UInt64.ofNat elements.dedup.length) =
            hashToRange key item (UInt64.ofNat elements.dedup.length))) ∨
      ¬Narrow 0 (filterValues key elements) ∧
        GcsFilter.matchesItem profile ⟨UInt64.ofNat elements.dedup.length, w.bytes⟩ key item =
          .error quotientTooLarge := by
  have hn := toNat_count hcount
  simp only [← mem_filterValues_iff]
  unfold GcsFilter.matchesItem
  by_cases hzero : UInt64.ofNat elements.dedup.length = 0
  · have hnone : filterValues key elements = [] := by
      rw [← List.length_eq_zero_iff, filterValues_length, ← hn, hzero]
      rfl
    rw [if_pos hzero, hnone]
    exact Or.inl (congrArg Except.ok (decide_eq_false List.not_mem_nil).symm)
  · have hassert := count_fits profile hcount
    have hsearch := search_codes profile
      (hashToRange key item (UInt64.ofNat elements.dedup.length))
      (List.replicate ((8 - w.used) % 8) false) (filterValues_sorted key elements)
    rw [filterValues_length] at hsearch
    simp only [if_neg hzero]
    rw [hassert, hn, hstream.packed]
    exact hsearch

theorem mapIntoRange_lt
    (h : UInt64)
    {f : UInt64}
    (hf : 0 < f.toNat) :
    (mapIntoRange h f).toNat < f.toNat := by
  have hh := h.toNat_lt
  have hlt : h.toNat * f.toNat / 2 ^ 64 < f.toNat := by
    rw [Nat.div_lt_iff_lt_mul (by norm_num), Nat.mul_comm f.toNat]
    exact Nat.mul_lt_mul_of_pos_right hh hf
  rw [mapIntoRange, UInt64.toNat_ofNat']
  exact (Nat.mod_le _ _).trans_lt hlt

/-- Up to this number of elements no difference is too large. -/
theorem narrow_of_length_le
    (key : Bytes 16)
    (h : elements.dedup.length ≤ 2868786956) :
    Narrow 0 (filterValues key elements) := by
  have hn := @toNat_count elements (by omega)
  have hm : basicFilterM.toNat = 784931 := rfl
  have hrange : (UInt64.ofNat elements.dedup.length * basicFilterM).toNat =
      elements.dedup.length * 784931 := by
    rw [UInt64.toNat_mul, hn, hm, Nat.mod_eq_of_lt (by omega)]
  have hvalues : ∀ v ∈ (filterValues key elements).map UInt64.toNat,
      v < elements.dedup.length * 784931 := by
    intro v hv
    obtain ⟨value, hvalue, rfl⟩ := List.mem_map.mp hv
    have hpos : 0 < elements.dedup.length := by
      rw [← filterValues_length key]
      exact List.length_pos_of_mem hvalue
    obtain ⟨element, -, rfl⟩ := mem_filterValues_iff.mp hvalue
    rw [← hrange]
    exact mapIntoRange_lt _ (by rw [hrange]; omega)
  intro d hd
  have hlt := differences_lt hvalues d hd
  have hP : 2 ^ basicFilterP = 524288 := rfl
  rw [hP]
  omega

/--
A filter of fewer than `2 ^ 32` distinct elements is parsed, and a query of it is answered by
the hashed values: it is true for what hashes like an element.  The answer is always there
as long as no difference of the sorted values needs more ones than the decoder accepts, as
for up to 2868786956 elements, and it is never another one.
-/
theorem matchesItem_encode
    (profile : Profile)
    (key : Bytes 16)
    (elements : List (List UInt8))
    (hcount : elements.dedup.length < 2 ^ 32) :
    ∃ (serialized : List UInt8) (filter : GcsFilter),
      GcsFilter.encode profile elements key = .ok serialized ∧
        GcsFilter.parse serialized = .ok filter ∧
        (Narrow 0 (filterValues key elements) → ∀ item : List UInt8,
          filter.matchesItem profile key item = .ok (decide (∃ element ∈ elements,
            hashToRange key element (UInt64.ofNat elements.dedup.length) =
              hashToRange key item (UInt64.ofNat elements.dedup.length)))) ∧
        (elements.dedup.length ≤ 2868786956 → Narrow 0 (filterValues key elements)) ∧
        ∀ (item : List UInt8) (found : Bool), filter.matchesItem profile key item = .ok found →
          found = decide (∃ element ∈ elements,
            hashToRange key element (UInt64.ofNat elements.dedup.length) =
              hashToRange key item (UInt64.ofNat elements.dedup.length)) := by
  obtain ⟨serialized, w, hencode, hparse, hstream⟩ := parse_encode profile key hcount
  refine ⟨serialized, _, hencode, hparse, ?_, narrow_of_length_le key, ?_⟩
  · intro hnarrow item
    rcases matchesItem_parsed profile key item hcount hstream with hfound | ⟨hwide, -⟩
    · exact hfound
    · exact absurd hnarrow hwide
  · intro item found hanswer
    rcases matchesItem_parsed profile key item hcount hstream with hfound | ⟨-, herror⟩
    · exact Except.ok.inj (hanswer.symm.trans hfound)
    · rw [herror] at hanswer
      cases hanswer

/-- Two scripts, one of them given twice. -/
theorem matchesItem_two_scripts :
    ∃ (serialized : List UInt8) (filter : GcsFilter),
      GcsFilter.encode .dev [[0x51], [0x52], [0x51]] (Bytes.zero 16) = .ok serialized ∧
        GcsFilter.parse serialized = .ok filter ∧
        filter.matchesItem .dev (Bytes.zero 16) [0x52] = .ok true := by
  obtain ⟨serialized, filter, hencode, hparse, hmatches, hnarrow, -⟩ :=
    matchesItem_encode .dev (Bytes.zero 16) [[0x51], [0x52], [0x51]] (by decide)
  refine ⟨serialized, filter, hencode, hparse, ?_⟩
  rw [hmatches (hnarrow (by decide)) [0x52]]
  exact congrArg Except.ok (decide_eq_true ⟨[0x52], by simp, rfl⟩)

end Exactness

end OpenCsv
