import OpenCsv.Lib.Bytes
import OpenCsv.Lib.Firsts

/-!
# The supply audit of the kernel

The supply of an asset at a height is what its mints up to there have made less what its
redemptions have destroyed.  A mint commitment counts once.

The running total is an `i128`.  It is an integer here: a slice holds fewer than `2 ^ 63`
records, and the total of that many values fits (`total_fits`).

**Result.** `supply_spec`: the scan returns the circulating amount, and an error exactly
where that is no `u64`.
-/

namespace OpenCsv

namespace Kernel

/-- On-chain payload. -/
abbrev Payload := Bytes 24

abbrev AssetId24 := Bytes 24

abbrev MintCommit := Bytes 24

/-- Location of an anchor in the canonical chain order. -/
structure Location where
  height : UInt64
  position : UInt32
deriving DecidableEq

/-- An anchor record. -/
inductive Record where
  | mint (assetId : AssetId24) (value : UInt64) (mintCommit : MintCommit)
  | xfer (payload₀ payload₁ : Payload)
  | xferCompressed (payload : Payload)
  | batchHeader (count : UInt8) (batchCommit : Payload)
  | redeem (assetId : AssetId24) (value : UInt64) (payload : Payload)
deriving DecidableEq

/-- Failure modes of `supply`. -/
inductive SupplyError where
  | negativeSupply
deriving DecidableEq

/-- The state of the scan: commitments seen and running total. -/
structure Tally where
  seenMints : List MintCommit
  total : ℤ

section Scan

variable (assetId : AssetId24)
variable (height : UInt64)

/-- Count one record. -/
def Tally.count (tally : Tally) (anchor : Location × Record) : Tally :=
  if anchor.1.height ≤ height then
    match anchor.2 with
    | .mint recordAsset value mintCommit =>
        if recordAsset = assetId ∧ mintCommit ∉ tally.seenMints then
          ⟨tally.seenMints ++ [mintCommit], tally.total + value.toNat⟩
        else tally
    | .redeem recordAsset value _ =>
        if recordAsset = assetId then
          { tally with total := tally.total - value.toNat }
        else tally
    | _ => tally
  else tally

/-- The public per-asset supply at a height, over anchor records in canonical order. -/
def supply (anchors : List (Location × Record)) : Except SupplyError UInt64 :=
  let total := (anchors.foldl (Tally.count assetId height) ⟨[], 0⟩).total
  if total < 0 ∨ total > 2 ^ 64 - 1 then .error .negativeSupply
  else .ok (UInt64.ofNat total.toNat)

/-- The mints of the asset up to the height, by commitment. -/
def mints (anchors : List (Location × Record)) : List (MintCommit × UInt64) :=
  anchors.filterMap (fun anchor =>
    match anchor.2 with
    | .mint recordAsset value mintCommit =>
        if anchor.1.height ≤ height ∧ recordAsset = assetId then some (mintCommit, value) else none
    | _ => none)

/-- The redeemed values of the asset up to the height. -/
def redeems (anchors : List (Location × Record)) : List UInt64 :=
  anchors.filterMap (fun anchor =>
    match anchor.2 with
    | .redeem recordAsset value _ =>
        if anchor.1.height ≤ height ∧ recordAsset = assetId then some value else none
    | _ => none)

/-- The values of the first record of each mint commitment. -/
def minted (anchors : List (Location × Record)) : ℕ :=
  ∑ commit ∈ keys (mints assetId height anchors),
    firstWeight UInt64.toNat (mints assetId height anchors) commit

def redeemed (anchors : List (Location × Record)) : ℕ :=
  ((redeems assetId height anchors).map UInt64.toNat).sum

/-- What is in circulation: minted once per commitment, less redeemed. -/
def circulating (anchors : List (Location × Record)) : ℤ :=
  (minted assetId height anchors : ℤ) - redeemed assetId height anchors

end Scan

section Spec

variable {assetId : AssetId24}
variable {height : UInt64}

theorem mints_cons
    (anchor : Location × Record)
    (anchors : List (Location × Record)) :
    mints assetId height (anchor :: anchors) =
      mints assetId height [anchor] ++ mints assetId height anchors :=
  List.filterMap_append (l := [anchor])

theorem redeems_cons
    (anchor : Location × Record)
    (anchors : List (Location × Record)) :
    redeems assetId height (anchor :: anchors) =
      redeems assetId height [anchor] ++ redeems assetId height anchors :=
  List.filterMap_append (l := [anchor])

/-- The scan from any state on: unseen commitments add, redemptions subtract. -/
theorem foldl_count_total
    (anchors : List (Location × Record))
    (tally : Tally) :
    (anchors.foldl (Tally.count assetId height) tally).total =
      tally.total + sumFirsts UInt64.toNat tally.seenMints (mints assetId height anchors) -
        redeemed assetId height anchors := by
  induction anchors generalizing tally with
  | nil =>
      simp [mints, redeemed, redeems, sumFirsts]
  | cons anchor anchors ih =>
      obtain ⟨location, record⟩ := anchor
      rw [List.foldl_cons, ih, mints_cons, redeemed, redeemed, redeems_cons, List.map_append,
        List.sum_append]
      by_cases hheight : location.height ≤ height
      · cases record with
        | mint recordAsset value mintCommit =>
            by_cases hasset : recordAsset = assetId
            · by_cases hseen : mintCommit ∈ tally.seenMints
              · simp [Tally.count, mints, redeems, hheight, hasset, hseen, sumFirsts]
              · simp [Tally.count, mints, redeems, hheight, hasset, hseen, sumFirsts]
                omega
            · simp [Tally.count, mints, redeems, hasset]
        | redeem recordAsset value payload =>
            by_cases hasset : recordAsset = assetId
            · simp [Tally.count, mints, redeems, hheight, hasset]
              omega
            · simp [Tally.count, mints, redeems, hasset]
        | _ => simp [Tally.count, mints, redeems]
      · cases record <;> simp [Tally.count, mints, redeems, hheight]

theorem foldl_count_nil
    (anchors : List (Location × Record)) :
    (anchors.foldl (Tally.count assetId height) ⟨[], 0⟩).total =
      circulating assetId height anchors := by
  rw [foldl_count_total, sumFirsts_nil_eq, circulating, minted, zero_add]

/-- The scan returns what is in circulation, if that is a `u64`. -/
theorem supply_eq_ok_iff
    {anchors : List (Location × Record)}
    {v : UInt64} :
    supply assetId height anchors = .ok v ↔
      (v.toNat : ℤ) = circulating assetId height anchors := by
  have hv : v.toNat < 2 ^ 64 := v.toNat_lt
  rw [supply, foldl_count_nil]
  by_cases hrange : circulating assetId height anchors < 0 ∨
      circulating assetId height anchors > 2 ^ 64 - 1
  · rw [if_pos hrange]
    constructor
    · exact nofun
    · intro heq
      omega
  · rw [if_neg hrange, Except.ok.injEq, ← UInt64.toNat_inj, UInt64.toNat_ofNat']
    omega

theorem supply_eq_error_iff
    {anchors : List (Location × Record)} :
    supply assetId height anchors = .error .negativeSupply ↔
      ¬ (0 ≤ circulating assetId height anchors ∧
        circulating assetId height anchors ≤ 2 ^ 64 - 1) := by
  rw [supply, foldl_count_nil]
  by_cases hrange : circulating assetId height anchors < 0 ∨
      circulating assetId height anchors > 2 ^ 64 - 1
  · rw [if_pos hrange]
    refine iff_of_true rfl ?_
    omega
  · rw [if_neg hrange]
    refine iff_of_false nofun ?_
    omega

theorem count_total_le
    (tally : Tally)
    (anchor : Location × Record) :
    |(tally.count assetId height anchor).total| ≤ |tally.total| + (2 ^ 64 - 1) := by
  have hvalue : ∀ value : UInt64, |(value.toNat : ℤ)| ≤ 2 ^ 64 - 1 := by
    intro value
    have hlt := value.toNat_lt
    rw [abs_of_nonneg (Int.natCast_nonneg _)]
    omega
  obtain ⟨location, record⟩ := anchor
  rw [Tally.count]
  split
  · cases record with
    | mint recordAsset value mintCommit =>
        simp only
        split
        · exact (abs_add_le _ _).trans (by linarith only [hvalue value])
        · omega
    | redeem recordAsset value payload =>
        simp only
        split
        · exact (abs_sub _ _).trans (by linarith only [hvalue value])
        · omega
    | _ => simp only; omega
  · omega

/-- On a slice, no total of the scan leaves the range of an `i128`. -/
theorem total_fits
    {anchors : List (Location × Record)}
    (hlength : anchors.length < 2 ^ 63) :
    |(anchors.foldl (Tally.count assetId height) ⟨[], 0⟩).total| < 2 ^ 127 := by
  have hbound : ∀ (anchors : List (Location × Record)) (tally : Tally),
      |(anchors.foldl (Tally.count assetId height) tally).total| ≤
        |tally.total| + anchors.length * (2 ^ 64 - 1) := by
    intro anchors
    induction anchors with
    | nil => simp
    | cons anchor anchors ih =>
        intro tally
        have hstep := @count_total_le assetId height tally anchor
        refine (ih _).trans ?_
        rw [List.length_cons]
        push_cast
        linarith
  have h := hbound anchors ⟨[], 0⟩
  simp only [abs_zero, zero_add] at h
  have hlength' : (anchors.length : ℤ) < 2 ^ 63 := by
    exact_mod_cast hlength
  refine h.trans_lt ?_
  nlinarith

end Spec

end Kernel

end OpenCsv
