import OpenCsv.Cbf.Difficulty

/-!
# Golomb-coded filters

Membership queries on a serialized filter: a count and a stream of bits with the sorted
hashed values as Golomb-Rice coded differences.  Items are hashed with SipHash-2-4.

**Results.** `GcsFilter.answers_matchesItem`: the arithmetic of a query does not overflow,
whatever the bytes.
-/

namespace OpenCsv

open Call

section SipHash

/-- The four words of the state. -/
structure SipState where
  v0 : UInt64
  v1 : UInt64
  v2 : UInt64
  v3 : UInt64

def rotateLeft (x n : UInt64) : UInt64 :=
  (x <<< n) ||| (x >>> (64 - n))

def SipState.round (v : SipState) : SipState :=
  let v0 := v.v0 + v.v1
  let v1 := rotateLeft v.v1 13 ^^^ v0
  let v0 := rotateLeft v0 32
  let v2 := v.v2 + v.v3
  let v3 := rotateLeft v.v3 16 ^^^ v2
  let v0 := v0 + v3
  let v3 := rotateLeft v3 21 ^^^ v0
  let v2 := v2 + v1
  let v1 := rotateLeft v1 17 ^^^ v2
  let v2 := rotateLeft v2 32
  ⟨v0, v1, v2, v3⟩

/-- Take one word into the state. -/
def SipState.absorb (v : SipState) (m : UInt64) : SipState :=
  let v := ({ v with v3 := v.v3 ^^^ m } : SipState).round.round
  { v with v0 := v.v0 ^^^ m }

/-- The words of the full chunks, and the last word with the length in its top byte. -/
def sipWords (msg : List UInt8) : List UInt64 :=
  let full := msg.length / 8
  limbsOfBytes full msg ++
    [UInt64.ofNat (leNat (msg.drop (8 * full)) + msg.length % 256 * 2 ^ 56)]

/-- SipHash-2-4 under a key of two words. -/
def siphash24 (k0 k1 : UInt64) (msg : List UInt8) : UInt64 :=
  let start : SipState := ⟨0x736f6d6570736575 ^^^ k0, 0x646f72616e646f6d ^^^ k1,
    0x6c7967656e657261 ^^^ k0, 0x7465646279746573 ^^^ k1⟩
  let v := (sipWords msg).foldl SipState.absorb start
  let v := ({ v with v2 := v.v2 ^^^ 0xff } : SipState).round.round.round.round
  v.v0 ^^^ v.v1 ^^^ v.v2 ^^^ v.v3

/-- A reference vector: the key 00..0f and the empty message. -/
example : siphash24 0x0706050403020100 0x0f0e0d0c0b0a0908 [] = 0x726fdb47dd0e0e31 := by
  decide +kernel

end SipHash

def basicFilterP : ℕ := 19

def basicFilterM : UInt64 := 784931

/-- The key of a block's filter: the first half of its hash. -/
def filterKey (blockHash : Bytes 32) : Bytes 16 :=
  blockHash.slice 0 16 (by norm_num)

/-- Map a hash into `[0, f)`: the high half of the product. -/
def mapIntoRange (h f : UInt64) : UInt64 :=
  UInt64.ofNat (h.toNat * f.toNat / 2 ^ 64)

section Bits

/-- The bits of a byte string, the highest of each byte first. -/
def bitsOf (data : List UInt8) : List Bool :=
  data.flatMap (fun b => (List.range 8).map (fun i => b.toNat.testBit (7 - i)))

/-- Read one bit. -/
def readBit : Call (Stop CbfError) (List Bool) Bool := fun bits =>
  match bits with
  | [] => .error (.error (.filter (Text.lit "GCS bitstream truncated"))) []
  | bit :: rest => .ok bit rest

/-- Read `nbits` bits; the first one is the most significant. -/
def readBits : (nbits : ℕ) → (value : UInt64) → Call (Stop CbfError) (List Bool) UInt64
  | 0, value => return value
  | nbits + 1, value => do
      let bit ← readBit
      readBits nbits ((value <<< 1) ||| bit.toUInt64)

/-- Count one-bits up to a zero. -/
def readUnary : (q : ℕ) → Call (Stop CbfError) (List Bool) ℕ := fun q bits =>
  match bits with
  | [] => .error (.error (.filter (Text.lit "GCS bitstream truncated"))) []
  | false :: rest => .ok q rest
  | true :: rest =>
      if q + 1 > 2 ^ 32 then
        .error (.error (.filter (Text.lit "GCS quotient unreasonably large"))) rest
      else
        readUnary (q + 1) rest

/-- One Golomb-Rice coded difference. -/
def golombRiceDecode (profile : Profile) : Call (Stop CbfError) (List Bool) UInt64 := do
  let q ← readUnary 0
  let r ← readBits basicFilterP 0
  let high := UInt64.ofNat q <<< UInt64.ofNat basicFilterP
  lift (profile.debugAssert (high.toNat + r.toNat < 2 ^ 64))
  return high + r

end Bits

/-- A parsed filter: its element count and the compressed bytes. -/
structure GcsFilter where
  n : UInt64
  compressed : List UInt8
deriving DecidableEq

namespace GcsFilter

/-- Parse a serialized filter. -/
def parse (serialized : List UInt8) : Except (Stop CbfError) GcsFilter :=
  match Reader.readVarint serialized with
  | .error e _ => .error (.error (.protocol e))
  | .ok n rest => do
      require (n.toNat < 2 ^ 32)
        (.error (.filter (Text.lit "GCS N=" ++ Text.ofNat n.toNat ++ Text.lit " out of range")))
      require (¬ (n = 0 ∧ rest ≠ []))
        (.error (.filter (Text.lit "GCS filter with N=0 has data")))
      return ⟨n, rest⟩

/-- Look for the target among the decoded values, which ascend. -/
def search (profile : Profile) (target : UInt64) :
    (count : ℕ) → (last : UInt64) → Call (Stop CbfError) (List Bool) Bool
  | 0, _ => return false
  | count + 1, last => do
      let delta ← golombRiceDecode profile
      let value ← lift (okOr (if last.toNat + delta.toNat < 2 ^ 64 then some (last + delta) else none)
        (.error (.filter (Text.lit "GCS value overflow during decode"))))
      if value = target then return true
      else if value > target then return false
      else search profile target count value

/-- Is an item in the filter? -/
def matchesItem (profile : Profile) (filter : GcsFilter) (key : Bytes 16) (item : List UInt8) :
    Except (Stop CbfError) Bool :=
  if filter.n = 0 then .ok false
  else do
    profile.debugAssert (filter.n.toNat * basicFilterM.toNat < 2 ^ 64)
    let k0 := UInt64.ofNat (leNat (key.toList.take 8))
    let k1 := UInt64.ofNat (leNat (key.toList.drop 8))
    let target := mapIntoRange (siphash24 k0 k1 item) (filter.n * basicFilterM)
    answer (search profile target filter.n.toNat 0) (bitsOf filter.compressed)

theorem answers_parse
    (serialized : List UInt8) :
    Answers (parse serialized) (fun filter => filter.n.toNat < 2 ^ 32) := by
  rw [parse]
  split
  · exact answers_error _
  · refine (answers_require _ _).bind (fun _ hn => ?_)
    refine (answers_require _ _).bind (fun _ _ => ?_)
    have hlt := of_decide_eq_true hn
    exact hlt

theorem ends_readBits
    (nbits : ℕ)
    {value : UInt64}
    {k : ℕ}
    (hvalue : value.toNat < 2 ^ k)
    (hroom : k + nbits < 64)
    (bits : List Bool) :
    Ends (readBits nbits value) bits (fun r _ => Answers r (fun a => a.toNat < 2 ^ (k + nbits))) := by
  induction nbits generalizing value k bits with
  | zero =>
      exact hvalue
  | succ nbits ih =>
      cases bits with
      | nil => exact error_ne_panic _
      | cons bit rest =>
          have hbit : bit.toUInt64.toNat < 2 := by
            cases bit <;> decide
          have hpow : (2 : ℕ) ^ (k + 1) ≤ 2 ^ 63 := Nat.pow_le_pow_right (by norm_num) (by omega)
          have hstep := shl_limb_eq value hbit
          have hnext : ((value <<< 1) ||| bit.toUInt64).toNat < 2 ^ (k + 1) := by
            rw [pow_succ] at hpow ⊢
            omega
          have hrest := ih hnext (by omega) rest
          rw [Nat.add_right_comm] at hrest
          exact hrest

theorem ends_readUnary
    {q : ℕ}
    (hq : q ≤ 2 ^ 32)
    (bits : List Bool) :
    Ends (readUnary q) bits (fun r _ => Answers r (fun q' => q' ≤ 2 ^ 32)) := by
  induction bits generalizing q with
  | nil =>
      exact error_ne_panic _
  | cons bit rest ih =>
      cases bit with
      | false => exact hq
      | true =>
          by_cases hlarge : q + 1 > 2 ^ 32
          · rw [Ends, readUnary, if_pos hlarge]
            exact answers_error _
          · have hrest := ih (Nat.le_of_not_lt hlarge)
            rw [Ends, readUnary, if_neg hlarge]
            exact hrest

theorem ends_golombRiceDecode
    (profile : Profile)
    (bits : List Bool) :
    Ends (golombRiceDecode profile) bits (fun r _ => Answers r (fun _ => True)) := by
  refine answers_call_bind (ends_readUnary (Nat.zero_le _) bits) ?_
  intro q bits' hq
  refine answers_call_bind (ends_readBits basicFilterP (by norm_num : (0 : UInt64).toNat < 2 ^ 0)
    (by norm_num [basicFilterP]) bits') ?_
  intro r bits'' hr
  have hhigh : (UInt64.ofNat q <<< UInt64.ofNat basicFilterP).toNat ≤ 2 ^ 51 := by
    have h19 : (UInt64.ofNat basicFilterP).toNat % 64 = 19 := rfl
    rw [UInt64.toNat_shiftLeft, h19, UInt64.toNat_ofNat', Nat.shiftLeft_eq]
    omega
  have hr' : r.toNat < 2 ^ 19 := hr
  have hassert : Answers (profile.debugAssert
      ((UInt64.ofNat q <<< UInt64.ofNat basicFilterP).toNat + r.toNat < 2 ^ 64) :
        Except (Stop CbfError) Unit) (fun _ => True) := by
    refine answers_debugAssert ?_
    rw [decide_eq_true_eq]
    omega
  exact answers_call_bind ((ends_lift _).mpr hassert) (fun _ _ _ => trivial)

theorem ends_search
    (profile : Profile)
    (target : UInt64)
    (count : ℕ)
    (last : UInt64)
    (bits : List Bool) :
    Ends (search profile target count last) bits (fun r _ => Answers r (fun _ => True)) := by
  induction count generalizing last bits with
  | zero =>
      exact trivial
  | succ count ih =>
      refine answers_call_bind (ends_golombRiceDecode profile bits) (fun delta bits' _ => ?_)
      refine answers_call_bind ((ends_lift _).mpr (answers_okOr _ _)) (fun value bits'' _ => ?_)
      refine ends_ite_of (fun _ => trivial) (fun _ => ?_)
      exact ends_ite_of (fun _ => trivial) (fun _ => ih value bits'')

/-- A query does not overflow, whatever the bytes of the filter. -/
theorem answers_matchesItem
    {profile : Profile}
    {filter : GcsFilter}
    (hn : filter.n.toNat < 2 ^ 32)
    (key : Bytes 16)
    (item : List UInt8) :
    Answers (filter.matchesItem profile key item) (fun _ => True) := by
  rw [matchesItem]
  split
  · exact trivial
  · have hm : basicFilterM.toNat = 784931 := rfl
    refine (answers_debugAssert ?_).bind (fun _ _ => ?_)
    · rw [decide_eq_true_eq, hm]
      omega
    · exact ends_iff.mp (ends_search profile _ filter.n.toNat 0 (bitsOf filter.compressed))

end GcsFilter

end OpenCsv
