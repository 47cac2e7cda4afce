import OpenCsv.Cbf.Scan
import OpenCsv.Lib.Json
import OpenCsv.Lib.Sorting

/-!
# The full scan of a block window

Every block between two heights is fetched and checked against its header, and the
anchor candidates of all of them are kept.  A nullifier is searched among the
candidates; what lies outside the window is not seen.

**Results.** `anchorTxsFrom_sorted`: the anchors of consecutive blocks come in chain
order.  `FullScanChain.scan_of_serves`: a scan of served blocks has the candidates of
exactly these anchors.
-/

namespace OpenCsv

/-- The largest window, in blocks. -/
def maxWindowBlocks : UInt64 := 2016

/-- Failures of a full scan. -/
inductive FullScanError where
  | invalidInput (message : Text)
  | scan (error : ScanError)
deriving DecidableEq

/-- A scanned window. -/
structure FullScanChain where
  windowStart : UInt64
  windowEnd : UInt64
  entries : List ScannedAnchor
deriving DecidableEq

namespace FullScanChain

section Window

variable (sha256 : Sha256)
variable (view : ClientView)

/-- Fetch and scan `count` blocks. -/
def scanWindow : ℕ → UInt64 → Except ScanError (List ScannedAnchor)
  | 0, _ => .ok []
  | count + 1, height => do
      let blockHash ← okOr (view.blockHash height) (.noHeader height)
      let found ← ScanIndex.fetchAnchors sha256 view blockHash height
      let rest ← scanWindow count (height + 1)
      return found ++ rest

/-- Scan every block of the window, both ends included. -/
def scan (birth spend : UInt64) : Except FullScanError FullScanChain := do
  require (birth ≠ 0)
    (.invalidInput (Text.lit "window starts at height 0 (the mempool sentinel / genesis)"))
  require (birth ≤ spend)
    (.invalidInput (Text.lit "empty window [" ++ Text.ofNat birth.toNat ++ Text.lit ", " ++
      Text.ofNat spend.toNat ++ Text.lit "]"))
  require (spend ≤ view.tipHeight)
    (.invalidInput (Text.lit "window end " ++ Text.ofNat spend.toNat ++
      Text.lit " is above the verified tip " ++ Text.ofNat view.tipHeight.toNat))
  require (spend - birth + 1 ≤ maxWindowBlocks)
    (.invalidInput (Text.lit "window of " ++ Text.ofNat (spend - birth + 1).toNat ++
      Text.lit " blocks exceeds MAX_WINDOW_BLOCKS (" ++ Text.ofNat maxWindowBlocks.toNat ++
      Text.lit ")"))
  let entries ← (scanWindow sha256 view ((spend - birth).toNat + 1) birth).mapError
    FullScanError.scan
  return { windowStart := birth, windowEnd := spend, entries := entries }

end Window

/-- The earliest occurrence in the window. -/
def firstNullifierOccurrence
    (sponge : Sponge)
    (chain : FullScanChain)
    (rawNf : Digest) : Option AnchorLocation :=
  ScanIndex.minLocation
    ((chain.entries.filter (fun e => e.binds sponge rawNf)).map ScannedAnchor.location)

end FullScanChain

section Blocks

variable {sha256 : Sha256}

/-- The anchor transactions of consecutive blocks, the first one at `height`. -/
def anchorTxsFrom (sha256 : Sha256) (height : UInt64) : List Block → List AnchorTx
  | [] => []
  | block :: blocks => anchorTxs sha256 block height ++ anchorTxsFrom sha256 (height + 1) blocks

theorem add_ofNat_succ
    (height : UInt64)
    (i : ℕ) :
    height + UInt64.ofNat i + 1 = height + UInt64.ofNat (i + 1) := by
  rw [UInt64.add_assoc, UInt64.ofNat_add]
  rfl

theorem succ_add_ofNat
    (height : UInt64)
    (i : ℕ) :
    height + 1 + UInt64.ofNat i = height + UInt64.ofNat (i + 1) := by
  rw [← add_ofNat_succ, UInt64.add_assoc, UInt64.add_assoc, UInt64.add_comm 1]

/-- One more block adds its anchors at the end. -/
theorem anchorTxsFrom_append_singleton
    (height : UInt64)
    (blocks : List Block)
    (block : Block) :
    anchorTxsFrom sha256 height (blocks ++ [block]) =
      anchorTxsFrom sha256 height blocks ++
        anchorTxs sha256 block (height + UInt64.ofNat blocks.length) := by
  induction blocks generalizing height with
  | nil =>
      simp [anchorTxsFrom]
  | cons first blocks ih =>
      rw [List.cons_append, anchorTxsFrom, ih, anchorTxsFrom, List.append_assoc,
        succ_add_ofNat]
      rfl

/-- Anchors of consecutive blocks are decoded and lie between the ends, in chain order. -/
theorem anchorTxsFrom_spec
    (height : UInt64)
    (blocks : List Block)
    (hfits : height.toNat + blocks.length < 2 ^ 64) :
    (anchorTxsFrom sha256 height blocks).Pairwise
        (fun a b => a.location.key < b.location.key) ∧
      ∀ t ∈ anchorTxsFrom sha256 height blocks, t.Decoded ∧
        height.toNat ≤ t.location.height.toNat ∧
          t.location.height.toNat < height.toNat + blocks.length := by
  induction blocks generalizing height with
  | nil =>
      simp [anchorTxsFrom]
  | cons block blocks ih =>
      rw [List.length_cons] at hfits
      have hnext : (height + 1).toNat = height.toNat + 1 := by
        rw [UInt64.toNat_add]
        exact Nat.mod_eq_of_lt (by simp; omega)
      obtain ⟨hsorted, hmem⟩ := @anchorTxs_spec sha256 block height
      obtain ⟨hsorted', hmem'⟩ := ih (height + 1) (by omega)
      constructor
      · rw [anchorTxsFrom, List.pairwise_append]
        refine ⟨hsorted, hsorted', ?_⟩
        intro a ha b hb
        have hheight : a.location.height.toNat = height.toNat := by
          rw [(hmem a ha).1]
        have hlater := (hmem' b hb).2.1
        have hposition := a.location.position.toNat_lt
        simp only [AnchorLocation.key]
        omega
      · intro t ht
        rw [List.length_cons]
        rcases List.mem_append.mp ht with ht | ht
        · obtain ⟨hheight, hdecoded⟩ := hmem t ht
          refine ⟨hdecoded, ?_, ?_⟩
          · rw [hheight]
          · rw [hheight]
            omega
        · obtain ⟨hdecoded, hlower, hupper⟩ := hmem' t ht
          refine ⟨hdecoded, ?_, ?_⟩
          · omega
          · omega

end Blocks

section Serving

variable {sha256 : Sha256}
variable {view : ClientView}

/-- The client has these blocks, the first one at `start`. -/
def ClientView.Serves (view : ClientView) (start : UInt64) (blocks : List Block) : Prop :=
  ∀ i block, blocks[i]? = some block →
    ∃ blockHash, view.blockHash (start + UInt64.ofNat i) = some blockHash ∧
      view.fetchBlock blockHash = some block

/-- What is left after the first block is served from the next height on. -/
theorem ClientView.Serves.tail
    {start : UInt64}
    {block : Block}
    {blocks : List Block}
    (h : view.Serves start (block :: blocks)) :
    view.Serves (start + 1) blocks := by
  intro i block' hblock'
  rw [succ_add_ofNat]
  exact h (i + 1) block' hblock'

/-- The scan of served blocks finds the candidates of their anchors. -/
theorem FullScanChain.scanWindow_of_serves
    {start : UInt64}
    {blocks : List Block}
    (hroots : ∀ block ∈ blocks, block.computeMerkleRoot sha256 = some block.header.merkleRoot)
    (h : view.Serves start blocks) :
    scanWindow sha256 view blocks.length start =
      .ok ((anchorTxsFrom sha256 start blocks).flatMap AnchorTx.candidates) := by
  induction blocks generalizing start with
  | nil =>
      rfl
  | cons block blocks ih =>
      obtain ⟨blockHash, hhash, hfetch⟩ := h 0 block rfl
      have hhash' : view.blockHash start = some blockHash := by
        simpa using hhash
      have hroot := hroots block List.mem_cons_self
      have hfound : ScanIndex.fetchAnchors sha256 view blockHash start =
          .ok (anchorsInBlock sha256 block start) := by
        simp [ScanIndex.fetchAnchors, hfetch, okOr, bind, Except.bind, hroot]
      have hrest := ih (fun b hb => hroots b (List.mem_cons_of_mem block hb)) h.tail
      rw [List.length_cons, scanWindow, hhash', hrest, anchorTxsFrom, List.flatMap_append]
      simp only [okOr, bind, Except.bind, hfound, pure, Except.pure]
      rfl

/-- The last height of a window. -/
def lastHeight (start : UInt64) (blocks : List Block) : UInt64 :=
  start + UInt64.ofNat (blocks.length - 1)

/-- A window the full scan takes. -/
structure Window (sha256 : Sha256) (start : UInt64) (blocks : List Block) : Prop where
  positive : start ≠ 0
  nonempty : blocks ≠ []
  short : blocks.length ≤ maxWindowBlocks.toNat
  fits : start.toNat + blocks.length < 2 ^ 64
  roots : ∀ block ∈ blocks, block.computeMerkleRoot sha256 = some block.header.merkleRoot

theorem Window.lastHeight_toNat
    {start : UInt64}
    {blocks : List Block}
    (h : Window sha256 start blocks) :
    (lastHeight start blocks).toNat + 1 = start.toNat + blocks.length := by
  have hlength := List.length_pos_of_ne_nil h.nonempty
  have hfits := h.fits
  rw [lastHeight, UInt64.toNat_add, UInt64.toNat_ofNat']
  omega

/-- Every window that the client has is scanned. -/
theorem FullScanChain.scan_of_serves
    {start : UInt64}
    {blocks : List Block}
    (hwindow : Window sha256 start blocks)
    (htip : lastHeight start blocks ≤ view.tipHeight)
    (h : view.Serves start blocks) :
    scan sha256 view start (lastHeight start blocks) =
      .ok ⟨start, lastHeight start blocks,
        (anchorTxsFrom sha256 start blocks).flatMap AnchorTx.candidates⟩ := by
  have hlast := hwindow.lastHeight_toNat
  have hlength := List.length_pos_of_ne_nil hwindow.nonempty
  have hle : start ≤ lastHeight start blocks := by
    rw [UInt64.le_iff_toNat_le]
    omega
  have hdiff : (lastHeight start blocks - start).toNat + 1 = blocks.length := by
    rw [UInt64.toNat_sub_of_le _ _ hle]
    omega
  have hshort : lastHeight start blocks - start + 1 ≤ maxWindowBlocks := by
    have hbound := hwindow.short
    have hfits := hwindow.fits
    rw [UInt64.le_iff_toNat_le, UInt64.toNat_add]
    exact le_trans (Nat.mod_le _ _) (hdiff ▸ hbound)
  rw [scan, hdiff, scanWindow_of_serves hwindow.roots h]
  simp [require, hwindow.positive, hle, htip, hshort, bind, Except.bind, pure, Except.pure,
    Except.mapError]

end Serving

end OpenCsv
