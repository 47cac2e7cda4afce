import OpenCsv.Cbf.Difficulty

/-!
# The rules of a header chain

What a network demands of a chain of headers, in numbers: the genesis block, the link to
the previous hash, the required compact bits, the proof of work against them and the median
of the earlier timestamps.

**Results.**
* `Follows.of_validateHeader`: what header validation accepts over a valid chain follows
  it by these rules, and the answer is its work.
* `ValidHeaders.take`, `ValidHeaders.append`: validity is kept by cutting a chain and by
  adding a header that follows.
-/

namespace OpenCsv

section Rules

/-- The target of a header. -/
def BlockHeader.target (header : BlockHeader) : ℕ :=
  compactValue header.bits.toNat

/-- The expected number of hashes for a header. -/
def BlockHeader.work (header : BlockHeader) : ℕ :=
  2 ^ 256 / (header.target + 1)

/-- The work of a chain. -/
def totalWork (headers : List BlockHeader) : ℕ :=
  (headers.map BlockHeader.work).sum

/-- The proof-of-work rules of a network. -/
structure Rules where
  genesisHash : Bytes 32
  limit : ℕ
  timespan : ℕ
  retargets : Bool

def Network.rules : Network → Rules
  | .mainnet => ⟨(params .mainnet).genesisHash, 0xffff * 256 ^ 26, 1209600, true⟩
  | .signet => ⟨(params .signet).genesisHash, 0x0377ae * 256 ^ 27, 1209600, true⟩
  | .regtest => ⟨(params .regtest).genesisHash, 0x7fffff * 256 ^ 29, 1209600, false⟩

/-- The seconds a retarget counts between two headers. -/
def Rules.elapsed (rules : Rules) (first last : BlockHeader) : ℕ :=
  let timespan : ℤ := rules.timespan
  (max (timespan / 4) (min (timespan * 4) (last.time.toNat - first.time.toNat))).toNat

/-- The bits of the header that comes after `earlier`. -/
def Rules.required (rules : Rules) (earlier : List BlockHeader) : ℕ :=
  match earlier.getLast?, earlier[earlier.length - retargetInterval]? with
  | some last, some first =>
      if rules.retargets = true ∧ earlier.length % retargetInterval = 0 then
        compactOf (min rules.limit (last.target * rules.elapsed first last / rules.timespan))
      else
        last.bits.toNat
  | _, _ => 0

/-- The median of the last eleven timestamps, the upper one for an even number. -/
def medianTime (earlier : List BlockHeader) : ℕ :=
  let times := ((earlier.drop (earlier.length - 11)).map BlockHeader.time).insertionSort (· ≤ ·)
  (times.getD (times.length / 2) 0).toNat

variable (sha256 : Sha256)

/-- A header comes after `earlier` by the rules. -/
structure Follows (rules : Rules) (earlier : List BlockHeader) (header : BlockHeader) : Prop where
  linked : earlier.getLast?.map (fun last => last.hash sha256) = some header.prevBlock
  bits : header.bits.toNat = rules.required earlier
  encoded : (fromCompact header.bits).isSome = true
  target_pos : 0 < header.target
  target_le : header.target ≤ rules.limit
  hash_le : (header.hash sha256).toLe ≤ header.target
  later : medianTime earlier < header.time.toNat

/-- A chain by the rules, from the genesis block on. -/
structure ValidHeaders (rules : Rules) (headers : List BlockHeader) : Prop where
  genesis : ∀ header ∈ headers.head?, header.hash sha256 = rules.genesisHash
  follows : ∀ h header, headers[h + 1]? = some header →
    Follows sha256 rules (headers.take (h + 1)) header

end Rules

section Chains

variable {sha256 : Sha256}
variable {rules : Rules}
variable {headers : List BlockHeader}

theorem ValidHeaders.nil :
    ValidHeaders sha256 rules [] :=
  ⟨by simp, by simp⟩

theorem ValidHeaders.take
    (h : ValidHeaders sha256 rules headers)
    (n : ℕ) :
    ValidHeaders sha256 rules (headers.take n) := by
  constructor
  · intro header hheader
    refine h.genesis header ?_
    rw [List.head?_take] at hheader
    split at hheader
    · cases hheader
    · exact hheader
  · intro i header hheader
    rw [List.getElem?_take] at hheader
    split at hheader
    · rename_i hi
      rw [List.take_take, Nat.min_eq_left (Nat.le_of_lt hi)]
      exact h.follows i header hheader
    · cases hheader

theorem ValidHeaders.singleton
    {header : BlockHeader}
    (h : header.hash sha256 = rules.genesisHash) :
    ValidHeaders sha256 rules [header] := by
  constructor
  · intro header' hheader
    obtain rfl := Option.some.inj hheader
    exact h
  · intro i header' hheader
    cases hheader

theorem ValidHeaders.append
    {header : BlockHeader}
    (h : ValidHeaders sha256 rules headers)
    (hne : headers ≠ [])
    (hfollows : Follows sha256 rules headers header) :
    ValidHeaders sha256 rules (headers ++ [header]) := by
  constructor
  · intro header' hheader
    rw [List.head?_append_of_ne_nil _ hne] at hheader
    exact h.genesis header' hheader
  · intro i header' hheader
    rw [List.getElem?_append] at hheader
    split at hheader
    · rename_i hi
      rw [List.take_append_of_le_length (Nat.le_of_lt hi)]
      exact h.follows i header' hheader
    · rename_i hi
      obtain ⟨hzero, rfl⟩ : i + 1 - headers.length = 0 ∧ header = header' := by
        rw [List.getElem?_singleton] at hheader
        split at hheader
        · exact ⟨by assumption, Option.some.inj hheader⟩
        · cases hheader
      have hlen : i + 1 = headers.length := by omega
      rw [hlen, List.take_left]
      exact hfollows

end Chains

section Validation

variable {profile : Profile}
variable {sha256 : Sha256}
variable {network : Network}
variable {headers : List BlockHeader}
variable {header : BlockHeader}

theorem powLimit_toNat
    (network : Network) :
    (params network).powLimit.toNat = network.rules.limit := by
  cases network <;> decide +kernel

theorem genesisHash_rules
    (network : Network) :
    (params network).genesisHash = network.rules.genesisHash := by
  cases network <;> rfl

theorem timespan_toNat
    (network : Network) :
    (params network).powTargetTimespan.toNat = network.rules.timespan := by
  cases network <;> rfl

theorem retargets_eq
    (network : Network) :
    network.rules.retargets = !(params network).noRetargeting := by
  cases network <;> rfl

/-- Without retargeting there is no minimum rule either, and with it there is room. -/
theorem retargeting_room
    (hretargets : network.rules.retargets = true) :
    (params network).allowMinDifficulty = false ∧ network.rules.limit * 4 < 2 ^ 256 := by
  cases network with
  | mainnet => exact ⟨rfl, by decide +kernel⟩
  | signet => exact ⟨rfl, by decide +kernel⟩
  | regtest => cases hretargets

/-- The product of a target with a word has five limbs. -/
theorem u256MulU64_eq
    (target : U256)
    (b : UInt64) :
    limbNat (u256MulU64 target b).toList = target.toNat * b.toNat := by
  show limbNat (mulLimbs b 0 target.toList ++ [0, 0, 0]) = _
  have hzero : limbNat [0, 0, 0] = 0 := by
    simp
  rw [limbNat_append, limbNat_mulLimbs b (by norm_num), hzero, Nat.mul_zero, Nat.add_zero]
  rfl

/-- A quotient that fits four limbs is there in full, and no check stops it. -/
theorem u512DivU64_ok
    (profile : Profile)
    (a : List.Vector UInt64 8)
    {b : UInt64}
    (hb : 0 < b.toNat)
    (hfits : limbNat a.toList / b.toNat < 2 ^ 256) :
    ∃ quotient, u512DivU64 profile a b = .ok quotient ∧
      quotient.toNat = limbNat a.toList / b.toNat := by
  obtain ⟨hquot, -⟩ := limbNat_divLimbs hb a.toList
  have hlen : (divLimbs b a.toList).1.length = 8 := by
    rw [divLimbs_length]
    exact a.toList_length
  have hsplit := limbNat_append ((divLimbs b a.toList).1.take 4) ((divLimbs b a.toList).1.drop 4)
  have htake : ((divLimbs b a.toList).1.take 4).length = 4 := by
    rw [List.length_take, hlen]
    rfl
  rw [List.take_append_drop, hquot, htake] at hsplit
  have hzero : limbNat ((divLimbs b a.toList).1.drop 4) = 0 := by
    by_contra hne
    have hle : 2 ^ (64 * 4) * 1 ≤ 2 ^ (64 * 4) * limbNat ((divLimbs b a.toList).1.drop 4) :=
      Nat.mul_le_mul_left _ (Nat.pos_of_ne_zero hne)
    omega
  have hassert : (profile.debugAssert (((divLimbs b a.toList).1.drop 4).all (· = 0)) :
      Except (Stop CbfError) Unit) = .ok () :=
    Profile.debugAssert_eq_ok_iff.mpr (fun _ => limbNat_eq_zero_iff.mp hzero)
  refine ⟨⟨(divLimbs b a.toList).1.take 4, htake⟩, ?_, ?_⟩
  · simp only [u512DivU64]
    rw [hassert]
    rfl
  · show limbNat ((divLimbs b a.toList).1.take 4) = _
    omega

/-- The elapsed seconds are clamped around the timespan of two weeks. -/
theorem elapsed_le
    (rules : Rules)
    (first last : BlockHeader) :
    rules.elapsed first last ≤ rules.timespan * 4 := by
  simp only [Rules.elapsed]
  omega

theorem timespan_pos
    (network : Network) :
    0 < network.rules.timespan := by
  cases network <;> decide

/-- What a retarget computes fits its words. -/
theorem elapsed_fits
    (hretargets : network.rules.retargets = true)
    (first last : BlockHeader)
    {n : ℕ}
    (hle : n ≤ network.rules.limit) :
    network.rules.elapsed first last < 2 ^ 64 ∧
      n * network.rules.elapsed first last / network.rules.timespan < 2 ^ 256 := by
  obtain ⟨-, hroom⟩ := retargeting_room hretargets
  have helapsed := elapsed_le network.rules first last
  have hspan : network.rules.timespan * 4 < 2 ^ 64 := by
    cases network <;> decide
  refine ⟨helapsed.trans_lt hspan, ?_⟩
  calc n * network.rules.elapsed first last / network.rules.timespan
      ≤ network.rules.limit * (network.rules.timespan * 4) / network.rules.timespan :=
        Nat.div_le_div_right (Nat.mul_le_mul hle helapsed)
    _ = network.rules.limit * 4 := by
        rw [Nat.mul_left_comm, Nat.mul_div_cancel_left _ (timespan_pos network)]
    _ < 2 ^ 256 := hroom

theorem prevHeader_eq_ok_iff
    {prev : BlockHeader} :
    prevHeader headers headers.length = .ok prev ↔ headers.getLast? = some prev := by
  rw [List.getLast?_eq_getElem?]
  cases hlen : headers.length with
  | zero =>
      obtain rfl := List.length_eq_zero_iff.mp hlen
      simp [prevHeader]
  | succ n =>
      rw [prevHeader, headerAt, okOr_eq_ok_iff]
      rfl

/-- The target of a header after the genesis block is within the limit. -/
theorem ValidHeaders.target_le
    {rules : Rules}
    (h : ValidHeaders sha256 rules headers)
    {last : BlockHeader}
    (hlast : headers.getLast? = some last)
    (hlen : 2 ≤ headers.length) :
    last.target ≤ rules.limit := by
  obtain ⟨i, hi⟩ : ∃ i, headers.length = i + 2 := ⟨headers.length - 2, by omega⟩
  rw [List.getLast?_eq_getElem?, hi] at hlast
  exact (h.follows i last hlast).target_le

/-- At a retarget height the client adjusts any target within the limit. -/
theorem nextWorkRequired_ok
    (profile : Profile)
    {height : ℕ}
    (hheight : 0 < height)
    (hperiod : height % retargetInterval = 0)
    (hretargets : network.rules.retargets = true)
    {first last : BlockHeader}
    (hlast : headers[height - 1]? = some last)
    (hfirst : headers[height - retargetInterval]? = some first)
    {target : U256}
    (hcompact : fromCompact last.bits = some target)
    (hle : target.toNat ≤ network.rules.limit) :
    ∃ bits, nextWorkRequired profile (params network) headers height = .ok bits ∧
      bits.toNat = compactOf (min network.rules.limit
        (target.toNat * network.rules.elapsed first last / network.rules.timespan)) := by
  have hnoRetargeting : (params network).noRetargeting = false := by
    rw [retargets_eq, Bool.not_eq_true'] at hretargets
    exact hretargets
  obtain ⟨helapsed, hfits⟩ := elapsed_fits hretargets first last hle
  have hprev : prevHeader headers height = .ok last := by
    obtain ⟨h, rfl⟩ := Nat.exists_eq_succ_of_ne_zero hheight.ne'
    exact okOr_eq_ok_iff.mpr hlast
  have hhead : headerAt headers (height - retargetInterval) = .ok first :=
    okOr_eq_ok_iff.mpr hfirst
  have hexpand : okOr (fromCompact last.bits) (Stop.panic : Stop CbfError) = .ok target :=
    okOr_eq_ok_iff.mpr hcompact
  -- The clamped timespan is a word.
  have hactual : (UInt64.ofNat
      (max (((params network).powTargetTimespan.toNat : ℤ) / 4)
        (min (((params network).powTargetTimespan.toNat : ℤ) * 4)
          (last.time.toNat - first.time.toNat))).toNat).toNat =
        network.rules.elapsed first last := by
    rw [timespan_toNat, UInt64.toNat_ofNat']
    exact Nat.mod_eq_of_lt helapsed
  obtain ⟨newTarget, hdiv, hnew⟩ := u512DivU64_ok profile
    (u256MulU64 target (UInt64.ofNat
      (max (((params network).powTargetTimespan.toNat : ℤ) / 4)
        (min (((params network).powTargetTimespan.toNat : ℤ) * 4)
          (last.time.toNat - first.time.toNat))).toNat))
    (by rw [timespan_toNat]; exact timespan_pos network)
    (by rw [u256MulU64_eq, hactual, timespan_toNat]; exact hfits)
  rw [u256MulU64_eq, hactual, timespan_toNat] at hnew
  refine ⟨toCompact (if u256Ge newTarget (params network).powLimit then
    (params network).powLimit else newTarget), ?_, ?_⟩
  · simp only [nextWorkRequired]
    rw [hprev]
    show (if _ then _ else _) = _
    rw [if_neg (by rw [hnoRetargeting]; exact Bool.false_ne_true),
      if_neg (by rw [not_not]; exact hperiod), hhead]
    show (okOr (fromCompact last.bits) _ >>= _) = _
    rw [hexpand]
    show (u512DivU64 profile _ _ >>= _) = _
    rw [hdiv]
    rfl
  · rw [toCompact_eq]
    congr 1
    by_cases hge : u256Ge newTarget (params network).powLimit = true
    · rw [if_pos hge, powLimit_toNat]
      rw [u256Ge_iff, powLimit_toNat, hnew] at hge
      exact (Nat.min_eq_left hge).symm
    · rw [if_neg hge, hnew]
      rw [u256Ge_iff, powLimit_toNat, hnew] at hge
      exact (Nat.min_eq_right (Nat.le_of_not_le hge)).symm

/-- The retarget in limbs is the one in numbers. -/
theorem nextWorkRequired_eq
    (hvalid : ValidHeaders sha256 network.rules headers)
    {last first : BlockHeader}
    {bits : UInt32}
    (hlast : headers.getLast? = some last)
    (hfirst : headers[headers.length - retargetInterval]? = some first)
    (hretargets : network.rules.retargets = true)
    (hperiod : headers.length % retargetInterval = 0)
    (h : nextWorkRequired profile (params network) headers headers.length = .ok bits) :
    bits.toNat = compactOf (min network.rules.limit
      (last.target * network.rules.elapsed first last / network.rules.timespan)) := by
  have hne : headers.length ≠ 0 := by
    intro hlen
    rw [List.length_eq_zero_iff.mp hlen] at hlast
    cases hlast
  have hlen : 2 ≤ headers.length := by
    have hinterval : retargetInterval = 2016 := rfl
    rw [hinterval] at hperiod
    omega
  have htarget := hvalid.target_le hlast hlen
  -- That the client answers means that the last target has an expansion.
  obtain ⟨target, hcompact⟩ : ∃ target, fromCompact last.bits = some target := by
    have hnoRetargeting : (params network).noRetargeting = false := by
      rw [retargets_eq, Bool.not_eq_true'] at hretargets
      exact hretargets
    simp only [nextWorkRequired] at h
    obtain ⟨prev, hprev, h⟩ := except_bind_eq_ok_iff.mp h
    obtain rfl : last = prev := Option.some.inj (hlast.symm.trans (prevHeader_eq_ok_iff.mp hprev))
    rw [if_neg (by rw [hnoRetargeting]; exact Bool.false_ne_true),
      if_neg (by rw [not_not]; exact hperiod)] at h
    obtain ⟨_, -, h⟩ := except_bind_eq_ok_iff.mp h
    obtain ⟨target, hcompact, -⟩ := except_bind_eq_ok_iff.mp h
    exact ⟨target, okOr_eq_ok_iff.mp hcompact⟩
  have hvalue : target.toNat = last.target := fromCompact_eq hcompact
  rw [List.getLast?_eq_getElem?] at hlast
  obtain ⟨bits', hok, hbits⟩ := nextWorkRequired_ok profile
    (Nat.pos_of_ne_zero hne) hperiod hretargets hlast hfirst hcompact (hvalue.trans_le htarget)
  rw [Except.ok.inj (h.symm.trans hok), hbits, hvalue]

/-- The required bits of the client are those of the rules. -/
theorem requiredBits_eq
    (hvalid : ValidHeaders sha256 network.rules headers)
    (hne : headers ≠ [])
    {bits : UInt32}
    (h : requiredBits profile (params network) headers headers.length header = .ok bits) :
    bits.toNat = network.rules.required headers := by
  have hpos : 0 < headers.length := List.length_pos_iff.mpr hne
  have hinterval : 0 < retargetInterval := by decide
  simp only [requiredBits] at h
  obtain ⟨last, hprev, h⟩ := except_bind_eq_ok_iff.mp h
  have hlast := prevHeader_eq_ok_iff.mp hprev
  obtain ⟨first, hfirst⟩ : ∃ first, headers[headers.length - retargetInterval]? = some first :=
    ⟨_, List.getElem?_eq_getElem (by omega)⟩
  rw [Rules.required, hlast, hfirst]
  simp only
  by_cases hretargets : network.rules.retargets = true
  · obtain ⟨hordinary, -⟩ := retargeting_room hretargets
    have hnoRetargeting : (params network).noRetargeting = false := by
      rw [retargets_eq, Bool.not_eq_true'] at hretargets
      exact hretargets
    rw [if_neg (by rw [hnoRetargeting]; exact Bool.false_ne_true)] at h
    by_cases hperiod : headers.length % retargetInterval = 0
    · rw [if_neg (not_not.mpr hperiod)] at h
      rw [if_pos ⟨hretargets, hperiod⟩]
      exact nextWorkRequired_eq hvalid hlast hfirst hretargets hperiod h
    · rw [if_pos hperiod, if_neg (by rw [hordinary]; exact Bool.false_ne_true)] at h
      rw [if_neg (fun hboth => hperiod hboth.2), ← Except.ok.inj h]
  · have hnoRetargeting : (params network).noRetargeting = true := by
      rw [retargets_eq, Bool.not_eq_true', Bool.not_eq_false] at hretargets
      exact hretargets
    rw [if_pos hnoRetargeting] at h
    rw [if_neg (fun hboth => hretargets hboth.1), ← Except.ok.inj h]

theorem medianTimePast_eq
    {median : UInt32}
    (h : medianTimePast headers headers.length = .ok median) :
    median.toNat = medianTime headers := by
  simp only [medianTimePast] at h
  obtain ⟨_, -, h⟩ := except_bind_eq_ok_iff.mp h
  rw [okOr_eq_ok_iff, List.take_length] at h
  rw [medianTime, List.getD_eq_getElem?_getD, h]
  rfl

/-- What header validation accepts follows the chain, and the answer is its work. -/
theorem Follows.of_validateHeader
    (hvalid : ValidHeaders sha256 network.rules headers)
    (hne : headers ≠ [])
    {work : BitVec 128}
    (h : validateHeader profile sha256 (params network) headers headers.length header =
      .ok work) :
    Follows sha256 network.rules headers header ∧ work.toNat = header.work % 2 ^ 128 ∧
      (profile = .dev → header.work < 2 ^ 128) := by
  simp only [validateHeader] at h
  obtain ⟨last, hprev, h⟩ := except_bind_eq_ok_iff.mp h
  obtain ⟨_, hlinked, h⟩ := except_bind_eq_ok_iff.mp h
  obtain ⟨required, hrequired, h⟩ := except_bind_eq_ok_iff.mp h
  obtain ⟨_, hbits, h⟩ := except_bind_eq_ok_iff.mp h
  obtain ⟨target, hcompact, h⟩ := except_bind_eq_ok_iff.mp h
  obtain ⟨_, hrange, h⟩ := except_bind_eq_ok_iff.mp h
  obtain ⟨_, hhash, h⟩ := except_bind_eq_ok_iff.mp h
  obtain ⟨median, hmedian, h⟩ := except_bind_eq_ok_iff.mp h
  obtain ⟨_, hlater, h⟩ := except_bind_eq_ok_iff.mp h
  rw [require_eq_ok_iff, decide_eq_true_eq] at hlinked hbits hlater
  rw [okOr_eq_ok_iff] at hcompact
  rw [require_eq_ok_iff, u256Ge_iff, u256FromHash_toNat] at hhash
  rw [require_eq_ok_iff, Bool.not_eq_true', Bool.or_eq_false_iff, Bool.and_eq_false_iff] at hrange
  have htarget : target.toNat = header.target := fromCompact_eq hcompact
  have hwork := workFromTarget_eq (fromCompact_lt hcompact) h
  rw [htarget] at hwork hhash
  refine ⟨?_, hwork⟩
  constructor
  · rw [prevHeader_eq_ok_iff.mp hprev, hlinked]
    rfl
  · rw [hbits]
    exact requiredBits_eq hvalid hne hrequired
  · rw [hcompact]
    rfl
  · obtain ⟨hzero, -⟩ := hrange
    rw [← htarget]
    refine Nat.pos_of_ne_zero (fun h => ?_)
    rw [u256IsZero_iff.mpr h] at hzero
    cases hzero
  · obtain ⟨-, hlimit | hlimit⟩ := hrange
    · rw [← Bool.not_eq_true, u256Ge_iff, powLimit_toNat, htarget] at hlimit
      exact Nat.le_of_not_le hlimit
    · rw [decide_eq_false_iff_not, ne_eq, not_not] at hlimit
      rw [← htarget, hlimit, powLimit_toNat]
  · exact hhash
  · rw [← medianTimePast_eq hmedian]
    exact UInt32.lt_iff_toNat_lt.mp hlater

end Validation

section Times

variable {sha256 : Sha256}
variable {headers : List BlockHeader}

/-- The median is the timestamp of one of the last eleven headers. -/
theorem medianTime_eq_time
    (h : headers ≠ []) :
    ∃ i header, headers[i]? = some header ∧ headers.length ≤ i + 11 ∧
      medianTime headers = header.time.toNat := by
  have hpos := List.length_pos_of_ne_nil h
  rw [medianTime]
  generalize htimes : ((headers.drop (headers.length - 11)).map BlockHeader.time).insertionSort
    (· ≤ ·) = times
  have hlen : times.length = headers.length - (headers.length - 11) := by
    rw [← htimes, List.length_insertionSort, List.length_map, List.length_drop]
  have hmid : times.length / 2 < times.length := by omega
  have hmem : times[times.length / 2] ∈ (headers.drop (headers.length - 11)).map BlockHeader.time := by
    rw [← List.mem_insertionSort (· ≤ ·), htimes]
    exact List.getElem_mem hmid
  obtain ⟨header, hheader, htime⟩ := List.mem_map.mp hmem
  obtain ⟨j, hj⟩ := List.mem_iff_getElem?.mp hheader
  rw [List.getElem?_drop] at hj
  refine ⟨headers.length - 11 + j, header, hj, by omega, ?_⟩
  rw [List.getD_eq_getElem?_getD, List.getElem?_eq_getElem hmid, htime]
  rfl

/-- The timestamps of a chain grow by at least one in eleven blocks. -/
theorem ValidHeaders.height_le
    {rules : Rules}
    (h : ValidHeaders sha256 rules headers)
    (i : ℕ) :
    ∀ header, headers[i]? = some header → i ≤ 11 * header.time.toNat := by
  induction i using Nat.strongRecOn with
  | ind i ih =>
      intro header hheader
      cases i with
      | zero => exact Nat.zero_le _
      | succ i =>
          have hlt : i + 1 < headers.length := (List.getElem?_eq_some_iff.mp hheader).1
          have hlen : (headers.take (i + 1)).length = i + 1 := List.length_take_of_le hlt.le
          have hne : headers.take (i + 1) ≠ [] := by
            rintro hnil
            rw [hnil] at hlen
            cases hlen
          obtain ⟨j, earlier, hearlier, hj, hmedian⟩ := medianTime_eq_time hne
          have hlater := (h.follows i header hheader).later
          rw [hmedian] at hlater
          rw [hlen] at hj
          rw [List.getElem?_take] at hearlier
          split at hearlier
          · rename_i hji
            have hbound := ih j hji earlier hearlier
            omega
          · cases hearlier

/-- A chain has fewer headers than a height can count. -/
theorem ValidHeaders.length_lt
    {rules : Rules}
    (h : ValidHeaders sha256 rules headers) :
    headers.length < 2 ^ 64 := by
  by_cases hnil : headers = []
  · rw [hnil]
    norm_num
  · have hpos := List.length_pos_of_ne_nil hnil
    have hlast := List.getElem?_eq_getElem (l := headers) (i := headers.length - 1) (by omega)
    have hbound := h.height_le (headers.length - 1) _ hlast
    have htime := headers[headers.length - 1].time.toNat_lt
    omega

end Times

end OpenCsv
