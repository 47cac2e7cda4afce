import OpenCsv.Cbf.HeaderRules

/-!
# Retargets and work of every target

The retarget and the work of a header in limbs, for every target up to the limit of a
network and all timestamps, with what they do where they do not fit their words.

**Results.**
* `nextWorkRequired_retarget`: at a retarget height the required bits are those of the
  clamped and rounded target over the natural numbers; no step loses a bit.
* `workFromTarget_ends`: the work of a target is exact where it fits 128 bits; a release
  build answers its low bits where it does not, and a development build stops.
-/

namespace OpenCsv

section Retargets

/-- A height at which the network adjusts its difficulty. -/
structure Network.RetargetHeight (network : Network) (height : ℕ) : Prop where
  retargets : network.rules.retargets = true
  positive : 0 < height
  period : height % retargetInterval = 0

/--
The required bits at a retarget height: the last target times the clamped timespan, divided
by the timespan of the network and rounded down, at most the limit, in compact form.  The
product and the quotient are those of the natural numbers.
-/
theorem nextWorkRequired_retarget
    (profile : Profile)
    {network : Network}
    {headers : List BlockHeader}
    {height : ℕ}
    (hheight : network.RetargetHeight height)
    {first last : BlockHeader}
    (hlast : headers[height - 1]? = some last)
    (hfirst : headers[height - retargetInterval]? = some first)
    {target : U256}
    (htarget : fromCompact last.bits = some target)
    (hle : target.toNat ≤ network.rules.limit) :
    (∀ b : UInt64, limbNat (u256MulU64 target b).toList = target.toNat * b.toNat) ∧
      (∃ quotient, u512DivU64 profile
          (u256MulU64 target (UInt64.ofNat (network.rules.elapsed first last)))
          (params network).powTargetTimespan = .ok quotient ∧
        quotient.toNat =
          target.toNat * network.rules.elapsed first last / network.rules.timespan) ∧
      ∃ bits, nextWorkRequired profile (params network) headers height = .ok bits ∧
        bits.toNat = compactOf (min network.rules.limit
          (target.toNat * network.rules.elapsed first last / network.rules.timespan)) := by
  obtain ⟨hactual, hquotient⟩ := elapsed_fits hheight.retargets first last hle
  refine ⟨u256MulU64_eq target, ?_, ?_⟩
  · have hproduct : limbNat (u256MulU64 target
        (UInt64.ofNat (network.rules.elapsed first last))).toList =
          target.toNat * network.rules.elapsed first last := by
      rw [u256MulU64_eq, UInt64.toNat_ofNat', Nat.mod_eq_of_lt hactual]
    have hdiv := u512DivU64_ok profile
      (u256MulU64 target (UInt64.ofNat (network.rules.elapsed first last)))
      (b := (params network).powTargetTimespan)
      (by rw [timespan_toNat]; exact timespan_pos network)
      (by rw [hproduct, timespan_toNat]; exact hquotient)
    rwa [hproduct, timespan_toNat] at hdiv
  · exact nextWorkRequired_ok profile hheight.positive hheight.period hheight.retargets hlast
      hfirst htarget hle

namespace RetargetSample

/-- A header at the limit of the main network. -/
def header (time : UInt32) : BlockHeader :=
  ⟨1, Bytes.zero 32, Bytes.zero 32, time, 0x1d00ffff, 0⟩

/-- The first period, mined at once. -/
def headers : List BlockHeader :=
  List.replicate retargetInterval (header 1231006505)

end RetargetSample

open RetargetSample

/-- After a period that was mined at once the target is a quarter of the limit. -/
theorem nextWorkRequired_first :
    ∃ bits, nextWorkRequired .release (params .mainnet) headers 2016 = .ok bits ∧
      bits.toNat = compactOf (min Network.mainnet.rules.limit
        ((params .mainnet).powLimit.toNat *
          Network.mainnet.rules.elapsed (header 1231006505) (header 1231006505) /
            Network.mainnet.rules.timespan)) := by
  have hlast : headers[2016 - 1]? = some (header 1231006505) :=
    List.getElem?_replicate_of_lt (by decide)
  have hfirst : headers[2016 - retargetInterval]? = some (header 1231006505) :=
    List.getElem?_replicate_of_lt (by decide)
  exact (nextWorkRequired_retarget .release ⟨rfl, by decide, by decide⟩ hlast hfirst rfl
    (powLimit_toNat .mainnet).le).2.2

end Retargets

section Work

/-- The loop ends unless a development build finds that the quotient does not fit. -/
theorem workLoop_ends
    (profile : Profile)
    (numerator : List UInt64)
    {denominator : List UInt64}
    {i : ℕ}
    {quotient : BitVec 128}
    {rem : List UInt64}
    (hlen : rem.length = denominator.length)
    (hrem : limbNat rem < limbNat denominator)
    (hhalf : 2 * limbNat denominator ≤ 2 ^ (64 * denominator.length))
    (hdvd : 2 ^ i ∣ quotient.toNat) :
    (profile = .dev → 2 ^ 128 ≤ quotient.toNat +
        (limbNat rem * 2 ^ i + limbNat numerator % 2 ^ i) / limbNat denominator →
          workLoop profile numerator denominator i quotient rem = .error .panic) ∧
      ((profile = .dev → quotient.toNat +
        (limbNat rem * 2 ^ i + limbNat numerator % 2 ^ i) / limbNat denominator < 2 ^ 128) →
          ∃ quotient', workLoop profile numerator denominator i quotient rem =
            .ok quotient') := by
  induction i generalizing quotient rem with
  | zero =>
      have hlt := quotient.isLt
      rw [pow_zero, Nat.mod_one, Nat.add_zero, Nat.mul_one, Nat.div_eq_of_lt hrem, Nat.add_zero]
      exact ⟨fun _ hge => absurd hlt (Nat.not_lt.mpr hge), fun _ => ⟨quotient, rfl⟩⟩
  | succ i ih =>
      have hbit := limbBit_toNat numerator i
      have hbit' : (limbBit numerator i).toNat < 2 := by
        rw [hbit]
        exact Nat.mod_lt _ (by norm_num)
      obtain ⟨hstep, hlt, hlen'⟩ := divideBit_eq hbit' hlen hrem
      have hborrow := divideBit_borrow (limbBit numerator i) hlen hrem hhalf
      have hsplit := div_of_step (by omega) hbit.symm hstep
      have hdvd' : 2 ^ i ∣ quotient.toNat := (pow_dvd_pow 2 (Nat.le_succ i)).trans hdvd
      rw [workLoop, hsplit]
      rcases hdivide : divideBit denominator rem (limbBit numerator i) with ⟨q, rem', borrow⟩
      rw [hdivide] at hlt hlen' hborrow
      obtain rfl : borrow = false := hborrow
      cases q with
      | false =>
          simp only [Bool.toNat_false, Nat.zero_mul, Nat.zero_add]
          exact ih hlen' hlt hdvd'
      | true =>
          have hassert : (profile.debugAssert (!false) : Except (Stop CbfError) Unit) = .ok () :=
            Profile.debugAssert_eq_ok_iff.mpr (fun _ => rfl)
          simp only [Bool.toNat_true, Nat.one_mul]
          rw [hassert]
          by_cases hi : i < 128
          · obtain ⟨hor, -⟩ := toNat_or_twoPow hi hdvd
            have hdvd'' : 2 ^ i ∣ (quotient ||| BitVec.twoPow 128 i).toNat := by
              rw [hor]
              exact (Nat.dvd_add_right hdvd').mpr (Nat.dvd_refl _)
            have hrest := ih hlen' hlt hdvd''
            rw [hor, Nat.add_assoc] at hrest
            simp only [if_pos hi]
            exact hrest
          · have hlarge : 2 ^ 128 ≤ 2 ^ i := Nat.pow_le_pow_right (by norm_num) (by omega)
            simp only [if_neg hi]
            cases profile with
            | dev =>
                refine ⟨fun _ _ => ?_, fun hfits => ?_⟩
                · show (Profile.dev.debugAssert (decide (i < 128)) >>= _) = _
                  rw [decide_eq_false hi]
                  rfl
                · have hsum := (Nat.le_add_left _ _).trans_lt (hfits rfl)
                  have hlow := (Nat.le_add_right (2 ^ i) _).trans_lt hsum
                  exact absurd hlarge (Nat.not_le.mpr hlow)
            | release =>
                refine ⟨?_, fun _ => (ih hlen' hlt hdvd').2 ?_⟩
                · rintro ⟨⟩
                · rintro ⟨⟩

/-- Below half of the range the work of a target is computed, unless it is checked and does
not fit. -/
theorem workFromTarget_total
    (profile : Profile)
    {target : U256}
    (hhalf : 2 * (target.toNat + 1) ≤ 2 ^ 256) :
    (profile = .dev → 2 ^ 128 ≤ 2 ^ 256 / (target.toNat + 1) →
        workFromTarget profile target = .error .panic) ∧
      ((profile = .dev → 2 ^ 256 / (target.toNat + 1) < 2 ^ 128) →
        ∃ work, workFromTarget profile target = .ok work) := by
  have hroom : target.toNat + 1 < 2 ^ 256 := by
    omega
  obtain ⟨hdenominator, hnumerator⟩ := work_operands hroom
  have hlength : (u256AddOne target).toList.length = 4 := (u256AddOne target).toList_length
  have hzero : limbNat [0, 0, 0, 0] = 0 := by
    simp
  have hstart : (0 : BitVec 128).toNat = 0 := rfl
  have hone : (1 : BitVec 128).toNat = 1 := rfl
  have hwork := work_eq_quotient_add_one hroom
  have hlen : ([0, 0, 0, 0] : List UInt64).length = (u256AddOne target).toList.length := by
    rw [hlength]
    rfl
  have hrem : limbNat [0, 0, 0, 0] < limbNat (u256AddOne target).toList := by
    rw [hzero, hdenominator]
    exact Nat.succ_pos _
  have hdvd : 2 ^ 256 ∣ (0 : BitVec 128).toNat := Nat.dvd_zero _
  have hends := workLoop_ends profile (target.toList.map (fun limb => ~~~limb)) hlen hrem
    (by rw [hdenominator, hlength]; exact hhalf) hdvd
  have hvalue := fun quotient (h : workLoop profile (target.toList.map (fun limb => ~~~limb))
    (u256AddOne target).toList 256 0 [0, 0, 0, 0] = .ok quotient) =>
      workLoop_eq hlen hrem hdvd h
  have hlow : (2 ^ 256 - (target.toNat + 1)) % 2 ^ 256 = 2 ^ 256 - (target.toNat + 1) :=
    Nat.mod_eq_of_lt (by omega)
  simp only [hzero, Nat.zero_mul, Nat.zero_add, hnumerator, hdenominator, hstart, hlow]
    at hends hvalue
  generalize (2 ^ 256 - (target.toNat + 1)) / (target.toNat + 1) = q at hwork hends hvalue
  rw [hwork]
  simp only [workFromTarget]
  refine ⟨?_, ?_⟩
  · intro hdev hge
    by_cases hlarge : 2 ^ 128 ≤ q
    · rw [hends.1 hdev hlarge]
      rfl
    · -- The quotient fits, and adding one to it does not.
      obtain ⟨quotient, hquotient⟩ := hends.2 (fun _ => by omega)
      obtain ⟨hmod, -⟩ := hvalue quotient hquotient
      rw [Nat.mod_eq_of_lt (by omega)] at hmod
      have hfull : ¬ quotient.toNat + (1 : BitVec 128).toNat < 2 ^ 128 := by
        omega
      rw [hquotient, hdev]
      show (Profile.dev.debugAssert (decide (quotient.toNat + (1 : BitVec 128).toNat < 2 ^ 128))
        >>= _) = _
      rw [decide_eq_false hfull]
      rfl
  · intro hfits
    obtain ⟨quotient, hquotient⟩ := hends.2 (fun hdev => by
      have h := hfits hdev
      omega)
    obtain ⟨hmod, -⟩ := hvalue quotient hquotient
    rw [hquotient]
    refine ⟨_, Profile.add_eq_ok_iff.mpr ⟨?_, rfl⟩⟩
    intro hdev
    have h := hfits hdev
    rw [Nat.mod_eq_of_lt (by omega)] at hmod
    omega

/-- The limit of every network is below half of the range. -/
theorem limit_half
    (network : Network) :
    2 * (network.rules.limit + 1) ≤ 2 ^ 256 := by
  cases network <;> decide

theorem pow_div_lt_iff
    (t : ℕ) :
    2 ^ 256 / (t + 1) < 2 ^ 128 ↔ 2 ^ 128 ≤ t := by
  rw [Nat.div_lt_iff_lt_mul (Nat.succ_pos t)]
  omega

/--
The work of every target within the limit of a network.  A release build answers the low 128
bits of `2 ^ 256 / (t + 1)`; a development build answers all of it where it fits and stops
where it does not; from `2 ^ 128` on it fits.  No remainder of the division has a bit that
the shift would lose.
-/
theorem workFromTarget_ends
    (network : Network)
    {target : U256}
    (hle : target.toNat ≤ network.rules.limit) :
    (∃ work, workFromTarget .release target = .ok work ∧
        work.toNat = 2 ^ 256 / (target.toNat + 1) % 2 ^ 128) ∧
      (2 ^ 128 ≤ target.toNat → ∀ profile, ∃ work, workFromTarget profile target = .ok work ∧
        work.toNat = 2 ^ 256 / (target.toNat + 1)) ∧
      (target.toNat < 2 ^ 128 → workFromTarget .dev target = .error .panic) ∧
      ∀ rem : List UInt64, rem.length = 4 → limbNat rem < target.toNat + 1 → topBit rem = 0 := by
  have hlimit := limit_half network
  have hhalf : 2 * (target.toNat + 1) ≤ 2 ^ 256 := by
    omega
  have hroom : target.toNat + 1 < 2 ^ 256 := by
    omega
  have hfits := pow_div_lt_iff target.toNat
  refine ⟨?_, ?_, ?_, ?_⟩
  · obtain ⟨work, hwork⟩ := (workFromTarget_total .release hhalf).2 (by rintro ⟨⟩)
    exact ⟨work, hwork, (workFromTarget_eq hroom hwork).1⟩
  · intro hlarge profile
    obtain ⟨work, hwork⟩ := (workFromTarget_total profile hhalf).2 (fun _ => hfits.mpr hlarge)
    refine ⟨work, hwork, ?_⟩
    rw [(workFromTarget_eq hroom hwork).1, Nat.mod_eq_of_lt (hfits.mpr hlarge)]
  · intro hsmall
    exact (workFromTarget_total .dev hhalf).1 rfl
      (Nat.le_of_not_lt (fun h => absurd (hfits.mp h) (Nat.not_le.mpr hsmall)))
  · intro rem hlength hlt
    obtain ⟨hdenominator, -⟩ := work_operands hroom
    have hdivisor : (u256AddOne target).toList.length = 4 := (u256AddOne target).toList_length
    refine topBit_eq_zero (hlength.trans hdivisor.symm) (by rw [hdenominator]; exact hlt) ?_
    rw [hdenominator, hdivisor]
    exact hhalf

/-- The work of the genesis target of the main network. -/
theorem workFromTarget_limit :
    ∃ work, workFromTarget .dev (params .mainnet).powLimit = .ok work ∧
      work.toNat = 2 ^ 256 / ((params .mainnet).powLimit.toNat + 1) :=
  (workFromTarget_ends .mainnet (powLimit_toNat .mainnet).le).2.1
    (by rw [powLimit_toNat]; decide) .dev

/-- Of the target one a release build says that it is no work at all. -/
theorem not_work_saturates :
    ¬ ∀ (profile : Profile) (network : Network) (bits : UInt32) (target : U256),
        fromCompact bits = some target → 0 < target.toNat →
          target.toNat ≤ network.rules.limit →
            ∃ work, workFromTarget profile target = .ok work ∧
              work.toNat = min (2 ^ 256 / (target.toNat + 1)) (2 ^ 128 - 1) := by
  intro h
  obtain ⟨work, hwork, hvalue⟩ := h .release .mainnet 0x01010000
    (compactConstant 0x01010000) (by decide +kernel) (by decide +kernel) (by decide +kernel)
  have hzero : workFromTarget .release (compactConstant 0x01010000) = .ok 0 := by
    decide +kernel
  have hone : (compactConstant 0x01010000).toNat = 1 := by
    decide +kernel
  rw [hzero] at hwork
  rw [← Except.ok.inj hwork, hone] at hvalue
  exact absurd hvalue (by decide)

end Work

end OpenCsv
