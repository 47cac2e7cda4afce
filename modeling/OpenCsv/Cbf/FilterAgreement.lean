import OpenCsv.Bitcoin.Agreement
import OpenCsv.Cbf.Lineage

/-!
# The filter scan against the full scan

The filter scan fetches the blocks whose filter matches a marker script and the full scan
fetches all of them.  Nothing obliges a transaction that carries an anchor to carry a
marker output, so an occurrence in a block without one is seen by the full scan alone.

**Results.** `filterScan_agrees_iff`: after any syncs, one more that is answered, and a
full scan of the same blocks, when the two name the same first occurrence.
-/

namespace OpenCsv

section Filters

/-- The scripts of a transaction's outputs that a basic filter contains. -/
def Transaction.filterOutputs (tx : Transaction) : List (List UInt8) :=
  (tx.outputs.map TxOut.scriptPubkey).filter (fun script =>
    !script.isEmpty && script.head? != some 0x6a)

/-- The elements of the transactions from some place on, with the prevout scripts left. -/
def filterElements : List (Transaction × ℕ) → List (List UInt8) →
    Except Text (List (List UInt8))
  | [], [] => .ok []
  | [], _ :: _ => .error (Text.lit "more prevout scripts than block inputs")
  | (tx, index) :: txs, prevouts =>
      if index = 0 then do
        let rest ← filterElements txs prevouts
        return tx.filterOutputs ++ rest
      else if prevouts.length < tx.inputs.length then
        .error (Text.lit "fewer prevout scripts than block inputs")
      else do
        let rest ← filterElements txs (prevouts.drop tx.inputs.length)
        return tx.filterOutputs ++
          ((prevouts.take tx.inputs.length).filter (fun script => !script.isEmpty) ++ rest)

/-- The elements of a block's basic filter, given the scripts its inputs spend. -/
def Block.basicFilterElements
    (block : Block)
    (prevoutScripts : List (List UInt8)) : Except Text (List (List UInt8)) :=
  filterElements block.txs.zipIdx prevoutScripts

/-- A filter that matches at least the elements of the block. -/
def Block.HonestFilter (block : Block) (filter : List UInt8 → Bool) : Prop :=
  ∃ prevoutScripts elements, block.basicFilterElements prevoutScripts = .ok elements ∧
    ∀ script ∈ elements, filter script = true

/-- Output scripts that are neither empty nor data are elements. -/
theorem mem_filterElements
    {txs : List (Transaction × ℕ)}
    {prevouts elements : List (List UInt8)}
    (h : filterElements txs prevouts = .ok elements)
    {tx : Transaction}
    {index : ℕ}
    (htx : (tx, index) ∈ txs)
    {script : List UInt8}
    (hscript : script ∈ tx.filterOutputs) :
    script ∈ elements := by
  induction txs generalizing prevouts elements with
  | nil =>
      cases htx
  | cons first txs ih =>
      obtain ⟨tx', index'⟩ := first
      unfold filterElements at h
      split_ifs at h with hcoinbase hfew
      · obtain ⟨rest, hrest, hout⟩ := except_bind_eq_ok_iff.mp h
        obtain rfl := Except.ok.inj hout
        rcases List.mem_cons.mp htx with heq | htx
        · obtain ⟨rfl, rfl⟩ := Prod.mk.inj heq
          exact List.mem_append_left _ hscript
        · exact List.mem_append_right _ (ih hrest htx)
      · obtain ⟨rest, hrest, hout⟩ := except_bind_eq_ok_iff.mp h
        obtain rfl := Except.ok.inj hout
        rcases List.mem_cons.mp htx with heq | htx
        · obtain ⟨rfl, rfl⟩ := Prod.mk.inj heq
          exact List.mem_append_left _ hscript
        · exact List.mem_append_right _ (List.mem_append_right _ (ih hrest htx))

/-- A block with a marker output is found by its filter. -/
theorem Block.HonestFilter.finds_marker
    {block : Block}
    {filter : List UInt8 → Bool}
    (h : block.HonestFilter filter)
    {tx : Transaction}
    (htx : tx ∈ block.txs)
    {output : TxOut}
    (houtput : output ∈ tx.outputs)
    (hmarker : output.scriptPubkey = markerSpk ∨ output.scriptPubkey = legacyMarkerSpk) :
    (filter markerSpk || filter legacyMarkerSpk) = true := by
  obtain ⟨prevoutScripts, elements, helements, hall⟩ := h
  obtain ⟨i, hi⟩ := List.getElem?_of_mem htx
  have hmem : output.scriptPubkey ∈ elements := by
    refine mem_filterElements helements (List.mem_zipIdx_iff_getElem?.mpr hi) ?_
    refine List.mem_filter.mpr ⟨List.mem_map.mpr ⟨output, houtput, rfl⟩, ?_⟩
    rcases hmarker with heq | heq
    · rw [heq]
      decide
    · rw [heq]
      decide
  have hmatch := hall _ hmem
  rw [Bool.or_eq_true]
  rcases hmarker with heq | heq
  · rw [heq] at hmatch
    exact Or.inl hmatch
  · rw [heq] at hmatch
    exact Or.inr hmatch

end Filters

namespace ScanIndex

section Completeness

variable {sha256 : Sha256}
variable {tree : BlockTree}
variable {index : ScanIndex}
variable {checkedBlocks : List CheckedBlock}
variable {view : ClientView}
variable {chain : UInt64 → Bytes 32}
variable {start : UInt64}
variable {blocks : List Block}

/-- A client that answers every question about these blocks on its header chain. -/
structure Answers
    (sha256 : Sha256)
    (view : ClientView)
    (start : UInt64)
    (blocks : List Block) : Prop where
  tip : view.tipHeight = lastHeight start blocks
  serves : view.Serves start blocks
  filters : ∀ height spk, height ≤ view.tipHeight → (view.filterMatches height spk).isSome = true

/-- A height whose questions are answered is checked. -/
theorem scanHeight_ok
    (index : ScanIndex)
    (hwindow : Window sha256 start blocks)
    (hanswers : Answers sha256 view start blocks)
    {k : ℕ}
    (hk : k < blocks.length) :
    ∃ index', scanHeight sha256 view index (start + UInt64.ofNat k) = .ok index' := by
  have hlast := hwindow.lastHeight_toNat
  have hle : start + UInt64.ofNat k ≤ view.tipHeight := by
    have hfits := hwindow.fits
    rw [hanswers.tip, UInt64.le_iff_toNat_le, UInt64.toNat_add, UInt64.toNat_ofNat']
    omega
  have hget : blocks[k]? = some blocks[k] := List.getElem?_eq_getElem hk
  obtain ⟨blockHash, hhash, hfetch⟩ := hanswers.serves k _ hget
  obtain ⟨current, hcurrent⟩ := Option.isSome_iff_exists.mp (hanswers.filters _ markerSpk hle)
  obtain ⟨legacy, hlegacy⟩ := Option.isSome_iff_exists.mp (hanswers.filters _ legacyMarkerSpk hle)
  have hroot := hwindow.roots _ (List.mem_of_getElem? hget)
  have hfound : fetchAnchors sha256 view blockHash (start + UInt64.ofNat k) =
      .ok (anchorsInBlock sha256 blocks[k] (start + UInt64.ofNat k)) := by
    simp [fetchAnchors, hfetch, okOr, bind, Except.bind, hroot]
  simp only [scanHeight, hhash, hcurrent, hlegacy, okOr, bind, Except.bind, hfound]
  cases current || legacy with
  | false => exact ⟨_, rfl⟩
  | true => exact ⟨_, rfl⟩

/-- A scan whose questions are all answered reaches the end. -/
theorem scanHeights_ok
    (index : ScanIndex)
    (hview : view.Shows tree chain)
    (hwindow : Window sha256 start blocks)
    (hanswers : Answers sha256 view start blocks)
    (count : ℕ)
    {k : ℕ}
    (hcount : k + count = blocks.length) :
    ∃ index', scanHeights sha256 view count index (start + UInt64.ofNat k) = (index', .ok ()) ∧
      index'.fromHeight = index.fromHeight ∧
      (0 < count → index'.syncedTip = lastHeight start blocks) ∧
      (count = 0 → index' = index) := by
  induction count generalizing index k with
  | zero =>
      exact ⟨index, rfl, rfl, fun h => absurd h (lt_irrefl 0), fun _ => rfl⟩
  | succ count ih =>
      obtain ⟨index₁, hscan⟩ :=
        scanHeight_ok index hwindow hanswers (show k < blocks.length by omega)
      obtain ⟨checked, -, -, hindex₁⟩ := scanHeight_genuine hview hscan
      have hcount' : k + 1 + count = blocks.length := by
        omega
      obtain ⟨index', hrest, hfrom, htip, hsame⟩ := ih index₁ hcount'
      refine ⟨index', ?_, ?_, ?_, fun h => absurd h (Nat.succ_ne_zero count)⟩
      · rw [scanHeights, hscan]
        dsimp only
        rw [add_ofNat_succ]
        exact hrest
      · rw [hfrom, hindex₁]
      · intro _
        cases count with
        | zero =>
            rw [hsame rfl, hindex₁]
            have hk : k = blocks.length - 1 := by
              omega
            rw [lastHeight, hk]
        | succ count =>
            exact htip (Nat.succ_pos count)

/-- A sync whose questions are all answered checks every height of the blocks. -/
theorem scanSync_ok
    (hview : view.Shows tree chain)
    (hwindow : Window sha256 start blocks)
    (hanswers : Answers sha256 view start blocks)
    (h : index.Lineage sha256 tree checkedBlocks)
    (hfrom : index.fromHeight = 0 ∨ index.fromHeight = start) :
    ∃ index' checkedBlocks', index.scanSync sha256 view start = (index', .ok ()) ∧
      index'.fromHeight = start ∧
      index'.Lineage sha256 tree checkedBlocks' ∧
      OnChain chain start checkedBlocks' ∧
      checkedBlocks'.length = blocks.length := by
  have hlast := hwindow.lastHeight_toNat
  have hlength := List.length_pos_of_ne_nil hwindow.nonempty
  have hfromStart : (index.start start).fromHeight = start := by
    unfold ScanIndex.start
    split_ifs with hzero
    · refine UInt64.toNat_inj.mp ?_
      show (max start 1).toNat = start.toNat
      rw [toNat_max]
      refine max_eq_left ?_
      refine Nat.pos_of_ne_zero ?_
      intro hstart
      exact hwindow.positive (UInt64.toNat_inj.mp hstart)
    · exact hfrom.resolve_left hzero
  obtain ⟨hstart, hstarted⟩ := h.start start
  obtain ⟨index₁, blocks₁, hreconcile, h₁, hfrom₁, hchain₁, hbelow⟩ :=
    hstart.reconcile hstarted hview
  have hstart₁ : index₁.fromHeight = start := hfrom₁.trans hfromStart
  have hstarted₁ : index₁.fromHeight ≠ 0 := by
    rw [hstart₁]
    exact hwindow.positive
  rw [hfromStart, hanswers.tip] at hbelow
  have hle : blocks₁.length ≤ blocks.length := by
    rcases hbelow with hnil | hle
    · rw [hnil]
      exact Nat.zero_le _
    · omega
  have hnext : (start + UInt64.ofNat blocks₁.length).toNat = start.toNat + blocks₁.length := by
    have hfits := hwindow.fits
    rw [UInt64.toNat_add, UInt64.toNat_ofNat']
    omega
  obtain ⟨blocks', hlineage, hchain⟩ := h.scanSync hview start
  have hscan : index.scanSync sha256 view start = scanHeights sha256 view
      (if start + UInt64.ofNat blocks₁.length ≤ view.tipHeight then
        (view.tipHeight - (start + UInt64.ofNat blocks₁.length)).toNat + 1 else 0)
      index₁ (start + UInt64.ofNat blocks₁.length) := by
    unfold ScanIndex.scanSync
    simp only [hreconcile]
    rw [h₁.nextHeight_eq hstarted₁, hstart₁]
  have hcount : blocks₁.length + (if start + UInt64.ofNat blocks₁.length ≤ view.tipHeight then
      (view.tipHeight - (start + UInt64.ofNat blocks₁.length)).toNat + 1 else 0) =
        blocks.length := by
    rw [hanswers.tip]
    split_ifs with hreach
    · rw [UInt64.toNat_sub_of_le _ _ hreach, hnext]
      rw [UInt64.le_iff_toNat_le] at hreach
      omega
    · rw [UInt64.le_iff_toNat_le] at hreach
      omega
  obtain ⟨index', hok, hfrom', htip, hsame⟩ := scanHeights_ok index₁ hview hwindow hanswers _ hcount
  rw [hscan, hok] at hlineage hchain
  change index'.Lineage sha256 tree blocks' at hlineage
  change OnChain chain index'.fromHeight blocks' at hchain
  have hstart' : index'.fromHeight = start := hfrom'.trans hstart₁
  rw [hstart'] at hchain
  refine ⟨index', blocks', hscan.trans hok, hstart', hlineage, hchain, ?_⟩
  have htip' := hlineage.tip (by rw [hstart']; exact hwindow.positive)
  rw [hstart'] at htip'
  by_cases hzero : (if start + UInt64.ofNat blocks₁.length ≤ view.tipHeight then
      (view.tipHeight - (start + UInt64.ofNat blocks₁.length)).toNat + 1 else 0) = 0
  · have htip₁ := h₁.tip hstarted₁
    rw [hsame hzero] at htip'
    rw [hstart₁] at htip₁
    omega
  · rw [htip (Nat.pos_of_ne_zero hzero)] at htip'
    omega

end Completeness

section Found

variable {sha256 : Sha256}
variable {tree : BlockTree}
variable {chain : UInt64 → Bytes 32}

/-- Peers send these blocks for the hashes of the header chain, and no others. -/
def ServesOnly
    (tree : BlockTree)
    (chain : UInt64 → Bytes 32)
    (height : UInt64)
    (blocks : List Block) : Prop :=
  ∀ i block, blocks[i]? = some block →
    ∀ served, tree.serves (chain (height + UInt64.ofNat i)) served → served = block

/-- The occurrences are the candidates of the blocks whose filter matches. -/
theorem anchorsFrom_eq_filter
    {height : UInt64}
    {checkedBlocks : List CheckedBlock}
    {blocks : List Block}
    (hlength : checkedBlocks.length = blocks.length)
    (hchain : OnChain chain height checkedBlocks)
    (hgenuine : ∀ checked ∈ checkedBlocks, checked.Genuine sha256 tree)
    (honly : ServesOnly tree chain height blocks) :
    anchorsFrom sha256 height checkedBlocks =
      ((anchorTxsFrom sha256 height blocks).filter
        (fun t => tree.marked (chain t.location.height))).flatMap AnchorTx.candidates := by
  induction blocks generalizing height checkedBlocks with
  | nil =>
      obtain rfl := List.length_eq_zero_iff.mp hlength
      rfl
  | cons block blocks ih =>
      rcases checkedBlocks with _ | ⟨checked, checkedBlocks⟩
      · cases hlength
      · have hhash : checked.blockHash = chain height := by
          simpa using hchain 0 checked rfl
        have hchain' : OnChain chain (height + 1) checkedBlocks := by
          intro i checked' hi
          rw [succ_add_ofNat]
          exact hchain (i + 1) checked' hi
        have honly' : ServesOnly tree chain (height + 1) blocks := by
          intro i block' hi served hserved
          rw [succ_add_ofNat] at hserved
          exact honly (i + 1) block' hi served hserved
        have hrest := ih (Nat.succ.inj hlength) hchain'
          (fun checked' hmem => hgenuine checked' (List.mem_cons_of_mem _ hmem)) honly'
        have hfirst := hgenuine checked List.mem_cons_self
        have hheight : ∀ t ∈ anchorTxs sha256 block height, t.location.height = height :=
          fun t ht => ((anchorTxs_spec block height).2 t ht).1
        rw [anchorsFrom, hrest, anchorTxsFrom, List.filter_append, List.flatMap_append]
        congr 1
        unfold CheckedBlock.Genuine at hfirst
        cases hread : checked.block with
        | none =>
            rw [hread, hhash] at hfirst
            have hnone : (anchorTxs sha256 block height).filter
                (fun t => tree.marked (chain t.location.height)) = [] := by
              rw [List.filter_eq_nil_iff]
              intro t ht
              rw [hheight t ht, hfirst]
              exact Bool.false_ne_true
            rw [hnone]
            rfl
        | some served =>
            rw [hread, hhash] at hfirst
            obtain ⟨hmarked, hserved, -⟩ := hfirst
            have hall : (anchorTxs sha256 block height).filter
                (fun t => tree.marked (chain t.location.height)) =
                  anchorTxs sha256 block height := by
              rw [List.filter_eq_self]
              intro t ht
              rw [hheight t ht, hmarked]
            obtain rfl : served = block := honly 0 block rfl served (by simpa using hserved)
            rw [hall]
            rfl

end Found

end ScanIndex

section Agreement

variable {sha256 : Sha256}
variable {tree : BlockTree}
variable {index : ScanIndex}
variable {view : ClientView}
variable {chain : UInt64 → Bytes 32}
variable {start : UInt64}
variable {blocks : List Block}

/-- Every block has, for the hash of its height, a filter with its elements. -/
def HonestFilters
    (tree : BlockTree)
    (chain : UInt64 → Bytes 32)
    (start : UInt64)
    (blocks : List Block) : Prop :=
  ∀ (i : ℕ) (block : Block), blocks[i]? = some block →
    block.HonestFilter (tree.filter (chain (start + UInt64.ofNat i)))

/-- A block with a transaction that binds the nullifier also has a marker output. -/
def MarksSpends
    (sha256 : Sha256)
    (sponge : Sponge)
    (start : UInt64)
    (blocks : List Block)
    (rawNf : Digest) : Prop :=
  ∀ i block, blocks[i]? = some block →
    (∃ t ∈ anchorTxs sha256 block (start + UInt64.ofNat i),
      SnapshotChain.entryMatchesNullifier sponge t rawNf = true) →
    ∃ tx ∈ block.txs, ∃ output ∈ tx.outputs,
      output.scriptPubkey = markerSpk ∨ output.scriptPubkey = legacyMarkerSpk

/-- An anchor of consecutive blocks is one of the block at its height. -/
theorem mem_anchorTxsFrom
    {height : UInt64}
    {t : AnchorTx}
    (ht : t ∈ anchorTxsFrom sha256 height blocks) :
    ∃ i block, blocks[i]? = some block ∧ t ∈ anchorTxs sha256 block (height + UInt64.ofNat i) ∧
      t.location.height = height + UInt64.ofNat i := by
  induction blocks generalizing height with
  | nil =>
      cases ht
  | cons block blocks ih =>
      rcases List.mem_append.mp ht with ht | ht
      · refine ⟨0, block, rfl, ?_, ?_⟩
        · simpa using ht
        · simpa using ((anchorTxs_spec block height).2 t ht).1
      · obtain ⟨i, block', hi, hmem, hheight⟩ := ih ht
        rw [succ_add_ofNat] at hmem hheight
        exact ⟨i + 1, block', hi, hmem, hheight⟩

/-- Honest filters match the blocks that mark their spends. -/
theorem MarksSpends.marked
    {sponge : Sponge}
    {rawNf : Digest}
    (h : MarksSpends sha256 sponge start blocks rawNf)
    (hfilters : HonestFilters tree chain start blocks)
    {t : AnchorTx}
    (ht : t ∈ anchorTxsFrom sha256 start blocks)
    (hbinds : SnapshotChain.entryMatchesNullifier sponge t rawNf = true) :
    tree.marked (chain t.location.height) = true := by
  obtain ⟨i, block, hi, hmem, hheight⟩ := mem_anchorTxsFrom ht
  obtain ⟨tx, htx, output, houtput, hmarker⟩ := h i block hi ⟨t, hmem, hbinds⟩
  rw [hheight]
  exact (hfilters i block hi).finds_marker htx houtput hmarker

/--
After any syncs, one more that is answered, and a full scan of the same blocks, the two
name the same first occurrence of a nullifier if and only if every transaction that binds
it in a block without a match comes after one in a block with a match.  They do so in
particular where the blocks with such transactions have a marker output.
-/
theorem filterScan_agrees_iff
    {sponge : Sponge}
    (hwindow : Window sha256 start blocks)
    (hreach : (ScanIndex.treeSystem sha256 tree).Reachable index)
    (hfrom : index.fromHeight = 0 ∨ index.fromHeight = start)
    (hview : view.Shows tree chain)
    (hanswers : ScanIndex.Answers sha256 view start blocks)
    (honly : ScanIndex.ServesOnly tree chain start blocks)
    (hfilters : HonestFilters tree chain start blocks)
    (rawNf : Digest) :
    ∃ index' full,
      index.scanSync sha256 view start = (index', .ok ()) ∧
      FullScanChain.scan sha256 view start (lastHeight start blocks) = .ok full ∧
      ((index'.toAnchorChain sponge).firstNullifierOccurrence rawNf =
          full.firstNullifierOccurrence sponge rawNf ↔
        ∀ t ∈ anchorTxsFrom sha256 start blocks,
          SnapshotChain.entryMatchesNullifier sponge t rawNf = true →
          tree.marked (chain t.location.height) = false →
          ∃ t' ∈ anchorTxsFrom sha256 start blocks,
            SnapshotChain.entryMatchesNullifier sponge t' rawNf = true ∧
            tree.marked (chain t'.location.height) = true ∧
            t'.location.key ≤ t.location.key) ∧
      (MarksSpends sha256 sponge start blocks rawNf →
        (index'.toAnchorChain sponge).firstNullifierOccurrence rawNf =
          full.firstNullifierOccurrence sponge rawNf) := by
  obtain ⟨checkedBlocks, hlineage⟩ := ScanIndex.lineage_of_reachable hreach
  obtain ⟨index', checkedBlocks', hsync, hstart, hlineage', hchain, hlength⟩ :=
    ScanIndex.scanSync_ok hview hwindow hanswers hlineage hfrom
  have hscan := FullScanChain.scan_of_serves hwindow (UInt64.le_of_eq hanswers.tip.symm) hanswers.serves
  refine ⟨index', _, hsync, hscan, ?_⟩
  obtain ⟨hsorted, -⟩ := @anchorTxsFrom_spec sha256 start blocks hwindow.fits
  have hoccurrences : index'.occurrences =
      ((anchorTxsFrom sha256 start blocks).filter
        (fun t => tree.marked (chain t.location.height))).flatMap AnchorTx.candidates := by
    rw [hlineage'.occurrences, hstart]
    exact ScanIndex.anchorsFrom_eq_filter hlength hchain hlineage'.genuine honly
  have hfirst : (index'.toAnchorChain sponge).firstNullifierOccurrence rawNf =
      ((anchorTxsFrom sha256 start blocks).find? (fun t =>
        tree.marked (chain t.location.height) &&
          SnapshotChain.entryMatchesNullifier sponge t rawNf)).map AnchorTx.location := by
    show ScanIndex.minLocation _ = _
    rw [hoccurrences, minLocation_candidates (hsorted.filter _), List.find?_filter]
    simp only [Bool.decide_and, Bool.decide_eq_true]
  have hfull : FullScanChain.firstNullifierOccurrence sponge
      ⟨start, lastHeight start blocks,
        (anchorTxsFrom sha256 start blocks).flatMap AnchorTx.candidates⟩ rawNf =
      ((anchorTxsFrom sha256 start blocks).find? (fun t =>
        (tree.marked (chain t.location.height) &&
          SnapshotChain.entryMatchesNullifier sponge t rawNf) ||
        (!tree.marked (chain t.location.height) &&
          SnapshotChain.entryMatchesNullifier sponge t rawNf))).map AnchorTx.location := by
    rw [FullScanChain.firstNullifierOccurrence_eq hwindow]
    congr 2
    funext t
    cases tree.marked (chain t.location.height) <;> simp
  have hagree : ((index'.toAnchorChain sponge).firstNullifierOccurrence rawNf =
      FullScanChain.firstNullifierOccurrence sponge
        ⟨start, lastHeight start blocks,
          (anchorTxsFrom sha256 start blocks).flatMap AnchorTx.candidates⟩ rawNf ↔
      ∀ t ∈ anchorTxsFrom sha256 start blocks,
        SnapshotChain.entryMatchesNullifier sponge t rawNf = true →
        tree.marked (chain t.location.height) = false →
        ∃ t' ∈ anchorTxsFrom sha256 start blocks,
          SnapshotChain.entryMatchesNullifier sponge t' rawNf = true ∧
          tree.marked (chain t'.location.height) = true ∧
          t'.location.key ≤ t.location.key) := by
    rw [hfirst, hfull, map_find?_eq_iff hsorted]
    refine forall₂_congr ?_
    intro t _
    simp only [Bool.and_eq_true, Bool.not_eq_true', and_imp]
    constructor
    · intro h hbinds hunmarked
      obtain ⟨t', ht', ⟨hmarked, hbinds'⟩, hle⟩ := h hunmarked hbinds
      exact ⟨t', ht', hbinds', hmarked, hle⟩
    · intro h hunmarked hbinds
      obtain ⟨t', ht', hbinds', hmarked, hle⟩ := h hbinds hunmarked
      exact ⟨t', ht', ⟨hmarked, hbinds'⟩, hle⟩
  refine ⟨hagree, ?_⟩
  intro hmarks
  refine hagree.mpr ?_
  intro t ht hbinds hunmarked
  rw [hmarks.marked hfilters ht hbinds] at hunmarked
  cases hunmarked

end Agreement

namespace MarkerSample

open BitcoinAnchorChain.Sample (soloFunding soloRecord soloTx blockOf window)

/-- The transaction that starts a block. -/
def coinbaseTx : Transaction where
  version := 2
  inputs := [⟨⟨Bytes.zero 32, 0xffffffff⟩, [0x51], 0xffffffff⟩]
  outputs := [⟨5000000000, [0x51]⟩]
  lockTime := 0
  witnesses := [[]]

/-- A transfer without the marker output. -/
def bareTx : Transaction :=
  { soloTx with outputs := [⟨0, anchorScript soloRecord.toBytes⟩] }

def bareBlock : Block := blockOf [coinbaseTx, bareTx] (by decide)

def markedBlock : Block := blockOf [coinbaseTx, soloTx] (by decide)

/-- The scripts that the inputs of the transfer spend. -/
def prevoutScripts : List (List UInt8) := [[0x52]]

def elements (block : Block) : List (List UInt8) :=
  (block.basicFilterElements prevoutScripts).toOption.getD []

def hashAt (height : UInt64) : Bytes 32 := List.Vector.replicate 32 (5 + height.toUInt8)

/-- One block on top of another, with a filter of exactly its elements. -/
def tree (block : Block) : BlockTree where
  parent := fun _ => hashAt 0
  filter := fun _ script => (elements block).contains script
  serves := fun _ served => served = block

theorem one_lt :
    UInt64.toNat 1 + 1 < 2 ^ 64 := by
  decide

def view (block : Block) : ClientView where
  tipHeight := 1
  tip_lt := one_lt
  blockHash := fun height => if height ≤ 1 then some (hashAt height) else none
  filterMatches := fun height spk => some ((tree block).filter (hashAt height) spk)
  fetchBlock := fun _ => some block

theorem view_shows
    (block : Block) :
    (view block).Shows (tree block) hashAt where
  headers := fun _ => rfl
  linked := by
    intro height hlt
    have hlt' : height.toNat < 1 := UInt64.lt_iff_toNat_lt.mp hlt
    obtain rfl : height = 0 := by
      refine UInt64.toNat_inj.mp ?_
      show height.toNat = 0
      omega
    rfl
  filter := by
    intro height spk answer hanswer
    exact (Option.some.inj hanswer).symm
  block := by
    intro blockHash served hserved
    exact (Option.some.inj hserved).symm

theorem view_answers
    (block : Block) :
    ScanIndex.Answers Sha2.sha256 (view block) 1 [block] where
  tip := rfl
  serves := by
    intro i block' hblock'
    obtain ⟨hlt, hget⟩ := List.getElem?_eq_some_iff.mp hblock'
    obtain rfl : i = 0 := by
      simpa using hlt
    obtain rfl := hget
    exact ⟨hashAt 1, rfl, rfl⟩
  filters := fun _ _ _ => rfl

theorem tree_servesOnly
    (block : Block) :
    ScanIndex.ServesOnly (tree block) hashAt 1 [block] := by
  intro i block' hblock' served hserved
  have hmem := List.mem_of_getElem? hblock'
  rw [List.mem_singleton.mp hmem]
  exact hserved

theorem tree_honest
    {block : Block}
    (h : block.basicFilterElements prevoutScripts = .ok (elements block)) :
    HonestFilters (tree block) hashAt 1 [block] := by
  intro i block' hblock'
  have hmem := List.mem_of_getElem? hblock'
  rw [List.mem_singleton.mp hmem]
  refine ⟨prevoutScripts, elements block, h, ?_⟩
  intro script hscript
  exact List.contains_iff_mem.mpr hscript

theorem marked_elements :
    markedBlock.basicFilterElements prevoutScripts = .ok (elements markedBlock) := by
  decide +kernel

theorem bare_elements :
    bareBlock.basicFilterElements prevoutScripts = .ok (elements bareBlock) := by
  decide +kernel

theorem marked_spends :
    MarksSpends Sha2.sha256 foldSponge 1 [markedBlock] (Digest.fill 1) := by
  intro i block hblock _
  have hmem := List.mem_of_getElem? hblock
  rw [List.mem_singleton.mp hmem]
  exact ⟨soloTx, by simp [markedBlock, blockOf], ⟨330, markerSpk⟩, by simp [soloTx], Or.inl rfl⟩

/-- A transfer with a marker output is seen by both scans. -/
theorem marked_spend_seen :
    ∃ index' full,
      ScanIndex.fresh.scanSync Sha2.sha256 (view markedBlock) 1 = (index', .ok ()) ∧
      FullScanChain.scan Sha2.sha256 (view markedBlock) 1 1 = .ok full ∧
      (index'.toAnchorChain foldSponge).firstNullifierOccurrence (Digest.fill 1) =
        full.firstNullifierOccurrence foldSponge (Digest.fill 1) := by
  obtain ⟨index', full, hsync, hscan, -, hagree⟩ :=
    filterScan_agrees_iff (window (List.cons_ne_nil _ _)) (System.Reachable.init rfl)
      (Or.inl rfl) (view_shows markedBlock) (view_answers markedBlock)
      (tree_servesOnly markedBlock) (tree_honest marked_elements) (Digest.fill 1)
  exact ⟨index', full, hsync, hscan, hagree marked_spends⟩

/-- The filter scan of the block without a marker output reads nothing. -/
def bareIndex : ScanIndex where
  fromHeight := 1
  syncedTip := 1
  chainHashes := [hashAt 1]
  occurrences := []

/-- A transfer without a marker output is seen by the full scan only. -/
theorem bare_spend_unseen :
    (ScanIndex.treeSystem Sha2.sha256 (tree bareBlock)).Reachable ScanIndex.fresh ∧
      (view bareBlock).Shows (tree bareBlock) hashAt ∧
      ScanIndex.Answers Sha2.sha256 (view bareBlock) 1 [bareBlock] ∧
      bareBlock.basicFilterElements prevoutScripts = .ok (elements bareBlock) ∧
      (∀ script, (tree bareBlock).filter (hashAt 1) script = true ↔
        script ∈ elements bareBlock) ∧
      ∃ full,
        ScanIndex.fresh.scanSync Sha2.sha256 (view bareBlock) 1 = (bareIndex, .ok ()) ∧
        FullScanChain.scan Sha2.sha256 (view bareBlock) 1 1 = .ok full ∧
        (bareIndex.toAnchorChain foldSponge).firstNullifierOccurrence (Digest.fill 1) = none ∧
        full.firstNullifierOccurrence foldSponge (Digest.fill 1) = some ⟨1, 1⟩ := by
  have hwindow : Window Sha2.sha256 1 [bareBlock] := window (List.cons_ne_nil _ _)
  have hscan := FullScanChain.scan_of_serves hwindow (by decide) (view_answers bareBlock).serves
  refine ⟨System.Reachable.init rfl, view_shows bareBlock, view_answers bareBlock, bare_elements,
    fun script => List.contains_iff_mem, _, ?_, hscan, ?_, ?_⟩
  · decide +kernel
  · decide +kernel
  · rw [FullScanChain.firstNullifierOccurrence_eq hwindow]
    decide +kernel

end MarkerSample

end OpenCsv
