import OpenCsv.Cbf.GcsCodec
import Mathlib.Dynamics.PeriodicPts.Lemmas

/-!
# Sets that the decoder refuses

A word that is taken into the state of SipHash permutes its states, and there are finitely
many: some number of copies of the word leads back to where it started.  So there are as
many messages as one likes with the hash of a given one, and a set of them whose values are
all high starts with a difference that the decoder does not accept.

**Results.** `not_matches_every_set`: not every set below the limit of the count is matched.
-/

namespace OpenCsv

open Call

section Rounds

theorem rotateLeft_toNat
    (x : UInt64)
    {n : UInt64}
    (hpos : 0 < n.toNat)
    (hlt : n.toNat < 64) :
    (rotateLeft x n).toNat =
      2 ^ n.toNat * (x.toNat % 2 ^ (64 - n.toNat)) + x.toNat / 2 ^ (64 - n.toNat) := by
  have hx := x.toNat_lt
  have hwidth : (64 : UInt64).toNat = 64 := rfl
  have hrest : (64 - n).toNat = 64 - n.toNat := by
    rw [UInt64.toNat_sub_of_le _ _ (UInt64.le_iff_toNat_le.mpr (by rw [hwidth]; omega)), hwidth]
  have hpow : (2 : ℕ) ^ 64 = 2 ^ n.toNat * 2 ^ (64 - n.toNat) := by
    rw [← pow_add]
    congr 1
    omega
  have hlow : (x <<< n).toNat = 2 ^ n.toNat * (x.toNat % 2 ^ (64 - n.toNat)) := by
    rw [UInt64.toNat_shiftLeft, Nat.mod_eq_of_lt hlt, Nat.shiftLeft_eq, hpow, Nat.mul_comm,
      Nat.mul_mod_mul_left]
  have hhigh : (x >>> (64 - n)).toNat = x.toNat / 2 ^ (64 - n.toNat) := by
    rw [UInt64.toNat_shiftRight, hrest, Nat.mod_eq_of_lt (by omega), Nat.shiftRight_eq_div_pow]
  have hsmall : x.toNat / 2 ^ (64 - n.toNat) < 2 ^ n.toNat := by
    rw [Nat.div_lt_iff_lt_mul (by positivity), ← hpow]
    exact hx
  rw [rotateLeft, UInt64.toNat_or, hlow, hhigh, ← Nat.two_pow_add_eq_or_of_lt hsmall]

theorem rotateLeft_injective
    {n : UInt64}
    (hpos : 0 < n.toNat)
    (hlt : n.toNat < 64) :
    Function.Injective (fun x => rotateLeft x n) := by
  intro x y h
  have hvalue := congrArg UInt64.toNat h
  simp only [rotateLeft_toNat _ hpos hlt] at hvalue
  have hpow : (2 : ℕ) ^ 64 = 2 ^ n.toNat * 2 ^ (64 - n.toNat) := by
    rw [← pow_add]
    congr 1
    omega
  have hhigh : ∀ z : UInt64, z.toNat / 2 ^ (64 - n.toNat) < 2 ^ n.toNat := by
    intro z
    have hz := z.toNat_lt
    rw [Nat.div_lt_iff_lt_mul (by positivity), ← hpow]
    exact hz
  -- The high part is the remainder, the low part the quotient.
  have hrem := congrArg (· % 2 ^ n.toNat) hvalue
  simp only [Nat.mul_add_mod, Nat.mod_eq_of_lt (hhigh _)] at hrem
  rw [hrem] at hvalue
  have hquot := Nat.eq_of_mul_eq_mul_left (by positivity) (Nat.add_right_cancel hvalue)
  have hx := Nat.div_add_mod x.toNat (2 ^ (64 - n.toNat))
  have hy := Nat.div_add_mod y.toNat (2 ^ (64 - n.toNat))
  rw [hrem, hquot, hy] at hx
  exact UInt64.toNat_inj.mp hx.symm

theorem xor_right_cancel
    {a b c : UInt64}
    (h : a ^^^ c = b ^^^ c) :
    a = b := by
  have hcancel := congrArg (· ^^^ c) h
  simpa only [UInt64.xor_assoc, UInt64.xor_self, UInt64.xor_zero] using hcancel

theorem round_injective :
    Function.Injective SipState.round := by
  rintro ⟨a0, a1, a2, a3⟩ ⟨b0, b1, b2, b3⟩ h
  simp only [SipState.round, SipState.mk.injEq] at h
  obtain ⟨h0, h1, h2, h3⟩ := h
  have hr32 := rotateLeft_injective (n := 32) (by decide) (by decide)
  have hr17 := rotateLeft_injective (n := 17) (by decide) (by decide)
  have hr21 := rotateLeft_injective (n := 21) (by decide) (by decide)
  have hr13 := rotateLeft_injective (n := 13) (by decide) (by decide)
  have hr16 := rotateLeft_injective (n := 16) (by decide) (by decide)
  -- Each step is undone from what the steps after it left.
  have hv2 := hr32 h2
  rw [hv2] at h1
  have hv1 := hr17 (xor_right_cancel h1)
  rw [hv1] at hv2
  have hw2 := (UInt64.add_left_inj _).mp hv2
  rw [h0] at h3
  have hv3 := hr21 (xor_right_cancel h3)
  rw [hv3] at h0
  have hv0 := hr32 ((UInt64.add_left_inj _).mp h0)
  rw [hv0] at hv1
  have hx1 := hr13 (xor_right_cancel hv1)
  rw [hw2] at hv3
  have hx3 := hr16 (xor_right_cancel hv3)
  rw [hx1] at hv0
  rw [hx3] at hw2
  have hx0 := (UInt64.add_left_inj _).mp hv0
  have hx2 := (UInt64.add_left_inj _).mp hw2
  rw [hx0, hx1, hx2, hx3]

theorem absorb_injective
    (m : UInt64) :
    Function.Injective (fun v : SipState => v.absorb m) := by
  intro v w h
  simp only [SipState.absorb] at h
  obtain ⟨h0, h1, h2, h3⟩ := SipState.mk.inj h
  have hrounds : ({ v with v3 := v.v3 ^^^ m } : SipState).round.round =
      ({ w with v3 := w.v3 ^^^ m } : SipState).round.round := by
    rcases hv : ({ v with v3 := v.v3 ^^^ m } : SipState).round.round with ⟨a0, a1, a2, a3⟩
    rcases hw : ({ w with v3 := w.v3 ^^^ m } : SipState).round.round with ⟨b0, b1, b2, b3⟩
    rw [hv, hw] at h0 h1 h2 h3
    simp only at h0 h1 h2 h3
    rw [xor_right_cancel h0, h1, h2, h3]
  have hstart := round_injective (round_injective hrounds)
  obtain ⟨hv0, hv1, hv2, hv3⟩ := SipState.mk.inj hstart
  obtain ⟨v0, v1, v2, v3⟩ := v
  obtain ⟨w0, w1, w2, w3⟩ := w
  simp only at hv0 hv1 hv2 hv3
  rw [hv0, hv1, hv2, xor_right_cancel hv3]

instance finiteUInt64 : Finite UInt64 :=
  Finite.of_injective UInt64.toFin (fun _ _ => UInt64.toFin_inj.mp)

instance : Finite SipState := by
  refine Finite.of_injective (fun v : SipState => (v.v0, v.v1, v.v2, v.v3)) ?_
  rintro ⟨a0, a1, a2, a3⟩ ⟨b0, b1, b2, b3⟩ h
  simp only [Prod.mk.injEq] at h
  obtain ⟨h0, h1, h2, h3⟩ := h
  rw [h0, h1, h2, h3]

/-- Some number of copies of a word leads back to a state. -/
theorem exists_period
    (m : UInt64)
    (v : SipState) :
    ∃ period, 0 < period ∧ (List.replicate period m).foldl SipState.absorb v = v := by
  obtain ⟨period, hpos, hperiod⟩ :=
    Function.mem_periodicPts.mp ((absorb_injective m).mem_periodicPts v)
  refine ⟨period, hpos, ?_⟩
  have hiterate : ∀ (n : ℕ) (w : SipState),
      (List.replicate n m).foldl SipState.absorb w = (fun v : SipState => v.absorb m)^[n] w := by
    intro n
    induction n with
    | zero =>
        exact fun _ => rfl
    | succ n ih =>
        exact fun w => ih (w.absorb m)
  rw [hiterate]
  exact hperiod

end Rounds

section Messages

/-- A message behind a number of zero words. -/
def padded (words : ℕ) (tail : List UInt8) : List UInt8 :=
  List.replicate (8 * words) 0 ++ tail

theorem limbsOfBytes_padded
    (words count : ℕ)
    (tail : List UInt8) :
    limbsOfBytes (words + count) (padded words tail) =
      List.replicate words 0 ++ limbsOfBytes count tail := by
  induction words with
  | zero =>
      rw [Nat.zero_add]
      rfl
  | succ words ih =>
      have hpadded : padded (words + 1) tail = List.replicate 8 0 ++ padded words tail := by
        rw [padded, padded, Nat.mul_add, Nat.mul_one, Nat.add_comm, List.replicate_add,
          List.append_assoc]
      have hzero : UInt64.ofNat (leNat (List.replicate 8 0)) = 0 := by
        decide
      rw [hpadded, Nat.add_right_comm, limbsOfBytes, List.take_left' (by simp),
        List.drop_left' (by simp), ih, hzero, List.replicate_succ, List.cons_append]

/-- A multiple of 32 zero words leaves the last word, with the length, as it is. -/
theorem sipWords_padded
    (blocks : ℕ)
    (tail : List UInt8) :
    sipWords (padded (32 * blocks) tail) = List.replicate (32 * blocks) 0 ++ sipWords tail := by
  have hlength : (padded (32 * blocks) tail).length = 8 * (32 * blocks) + tail.length := by
    rw [padded, List.length_append, List.length_replicate]
  have hfull : (padded (32 * blocks) tail).length / 8 = 32 * blocks + tail.length / 8 := by
    rw [hlength]
    omega
  have hlast : (padded (32 * blocks) tail).length % 256 = tail.length % 256 := by
    rw [hlength]
    omega
  have hdrop : (padded (32 * blocks) tail).drop (8 * (32 * blocks + tail.length / 8)) =
      tail.drop (8 * (tail.length / 8)) := by
    rw [padded, Nat.mul_add, ← List.drop_drop, List.drop_left' (by simp)]
  rw [sipWords, sipWords, hfull, hlast, hdrop, limbsOfBytes_padded, List.append_assoc]

/-- As many distinct messages as one likes have the hash of a given one. -/
theorem exists_messages
    (k0 k1 : UInt64)
    (tail : List UInt8)
    (count : ℕ) :
    ∃ messages : List (List UInt8), messages.Nodup ∧ messages.length = count ∧
      ∀ message ∈ messages, siphash24 k0 k1 message = siphash24 k0 k1 tail := by
  obtain ⟨period, hpos, hperiod⟩ := exists_period 0
    ⟨0x736f6d6570736575 ^^^ k0, 0x646f72616e646f6d ^^^ k1, 0x6c7967656e657261 ^^^ k0,
      0x7465646279746573 ^^^ k1⟩
  have hcycles : ∀ n : ℕ, (List.replicate (period * n) (0 : UInt64)).foldl SipState.absorb
      ⟨0x736f6d6570736575 ^^^ k0, 0x646f72616e646f6d ^^^ k1, 0x6c7967656e657261 ^^^ k0,
        0x7465646279746573 ^^^ k1⟩ =
      ⟨0x736f6d6570736575 ^^^ k0, 0x646f72616e646f6d ^^^ k1, 0x6c7967656e657261 ^^^ k0,
        0x7465646279746573 ^^^ k1⟩ := by
    intro n
    induction n with
    | zero =>
        rfl
    | succ n ih =>
        rw [Nat.mul_succ, List.replicate_add, List.foldl_append, ih, hperiod]
  refine ⟨(List.range count).map (fun i => padded (32 * (period * i)) tail), ?_, ?_, ?_⟩
  · refine List.Nodup.map ?_ List.nodup_range
    intro i j h
    have hlength := congrArg List.length h
    simp only [padded, List.length_append, List.length_replicate] at hlength
    have hmul : period * i = period * j := by
      omega
    exact Nat.eq_of_mul_eq_mul_left hpos hmul
  · rw [List.length_map, List.length_range]
  · intro message hmessage
    obtain ⟨i, -, rfl⟩ := List.mem_map.mp hmessage
    have hcycle : 32 * (period * i) = period * (32 * i) := by
      ring
    rw [siphash24, siphash24, sipWords_padded, List.foldl_append, hcycle, hcycles]

end Messages

section Refused

/-- Distinct messages with one high value: a query meets a difference that is too large. -/
theorem matchesItem_refused
    (profile : Profile)
    {key : Bytes 16}
    {elements : List (List UInt8)}
    (item : List UInt8)
    (hcount : elements.dedup.length < 2 ^ 32)
    (hne : elements ≠ [])
    {v : UInt64}
    (hvalues : ∀ element ∈ elements,
      hashToRange key element (UInt64.ofNat elements.dedup.length) = v)
    (hhigh : 2 ^ 32 < v.toNat / 2 ^ basicFilterP)
    {w : BitWriter}
    (hstream : w.Holds ((differences 0 ((filterValues key elements).map UInt64.toNat)).flatMap
      (riceCode basicFilterP))) :
    GcsFilter.matchesItem profile ⟨UInt64.ofNat elements.dedup.length, w.bytes⟩ key item =
      .error quotientTooLarge := by
  have hn := toNat_count hcount
  have hpos : 0 < elements.dedup.length := by
    obtain ⟨element, helement⟩ := List.exists_mem_of_ne_nil elements hne
    exact List.length_pos_of_mem (List.mem_dedup.mpr helement)
  obtain ⟨count, hlength⟩ := Nat.exists_eq_succ_of_ne_zero hpos.ne'
  rcases hlist : filterValues key elements with _ | ⟨value, values⟩
  · have hzero := filterValues_length key elements
    rw [hlist, List.length_nil] at hzero
    omega
  · have hvalue : value = v := by
      have hmem : value ∈ filterValues key elements := by
        rw [hlist]
        exact List.mem_cons_self
      obtain ⟨element, helement, heq⟩ := mem_filterValues_iff.mp hmem
      exact heq.symm.trans (hvalues element helement)
    have hzero : UInt64.ofNat elements.dedup.length ≠ 0 := by
      intro h
      rw [h] at hn
      exact hpos.ne hn
    have hassert := count_fits profile hcount
    have hbits : bitsOf w.bytes = riceCode basicFilterP v.toNat ++
        ((differences value.toNat (values.map UInt64.toNat)).flatMap (riceCode basicFilterP) ++
          List.replicate ((8 - w.used) % 8) false) := by
      rw [hstream.packed, hlist, List.map_cons, differences, List.flatMap_cons, List.append_assoc,
        Nat.sub_zero, hvalue]
    obtain ⟨rest', hrest'⟩ := golombRiceDecode_tooLarge profile
      ((differences value.toNat (values.map UInt64.toNat)).flatMap (riceCode basicFilterP) ++
        List.replicate ((8 - w.used) % 8) false) hhigh
    unfold GcsFilter.matchesItem
    simp only [if_neg hzero]
    rw [hassert, hn, hlength, hbits]
    show answer (golombRiceDecode profile >>= _) _ = _
    rw [answer, bind_apply, hrest']

/-- There are sets below the limit of the count of which no query is answered. -/
theorem not_matches_every_set :
    ¬ ∀ (profile : Profile) (key : Bytes 16) (elements : List (List UInt8)) (item : List UInt8)
        (serialized : List UInt8) (filter : GcsFilter), elements.dedup.length < 2 ^ 32 →
          GcsFilter.encode profile elements key = .ok serialized →
            GcsFilter.parse serialized = .ok filter →
              filter.matchesItem profile key item = .ok (decide (∃ element ∈ elements,
                hashToRange key element (UInt64.ofNat elements.dedup.length) =
                  hashToRange key item (UInt64.ofNat elements.dedup.length))) := by
  intro h
  obtain ⟨messages, hnodup, hlength, hhash⟩ := exists_messages 0 0 [0x07] (2 ^ 32 - 1)
  have hdedup : messages.dedup.length = 2 ^ 32 - 1 := by
    rw [hnodup.dedup, hlength]
  have hcount : messages.dedup.length < 2 ^ 32 := by
    rw [hdedup]
    norm_num
  have hne : messages ≠ [] := by
    rintro rfl
    rw [List.length_nil] at hlength
    norm_num at hlength
  have hvalues : ∀ message ∈ messages,
      hashToRange (Bytes.zero 16) message (UInt64.ofNat messages.dedup.length) =
        mapIntoRange (siphash24 0 0 [0x07]) (UInt64.ofNat (2 ^ 32 - 1) * basicFilterM) := by
    intro message hmessage
    rw [← hhash message hmessage, hdedup]
    rfl
  have hhigh : 2 ^ 32 < (mapIntoRange (siphash24 0 0 [0x07])
      (UInt64.ofNat (2 ^ 32 - 1) * basicFilterM)).toNat / 2 ^ basicFilterP := by
    decide +kernel
  obtain ⟨serialized, w, hencode, hparse, hstream⟩ :=
    parse_encode .release (Bytes.zero 16) hcount
  have hrefused := matchesItem_refused .release [0x07] hcount hne hvalues hhigh hstream
  rw [h .release (Bytes.zero 16) messages [0x07] serialized _ hcount hencode hparse] at hrefused
  cases hrefused

end Refused

end OpenCsv
