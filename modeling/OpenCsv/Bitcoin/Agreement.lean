import OpenCsv.Bitcoin.Chain
import OpenCsv.Cbf.FullScan
import OpenCsv.Ffi.ScanExport

/-!
# The node backend against the full scan

Both backends read the same blocks: the one as a node decodes them, over any number of
refreshes that may stop half way, the other as fetched from peers in one pass.  Both
keep the same anchor transactions at the same locations.  The full scan reads the
envelopes of batches and the node backend does not, so they differ about a nullifier
whose first occurrence is a payload of a batch, and about no other.

**Results.**
* `BitcoinAnchorChain.Reachable.follows`: after any refreshes the index has the anchors
  of the blocks below the next height, and no others.
* `firstNullifierOccurrence_eq_iff`: when the backends agree.
-/

namespace OpenCsv

open Call

section Nodes

variable (sha256 : Sha256)
variable (start : UInt64)
variable (blocks : List Block)

/-- A node whose answers, where it gives any, are about these blocks. -/
structure NodeView.Tells (node : NodeView) : Prop where
  tip : ∀ tip, node.blockCount = .ok tip → tip.toNat < start.toNat + blocks.length
  hash : ∀ height text, node.blockHash height = .ok text → ∃ hash, text = hashToRpc hash
  block : ∀ i block text j, blocks[i]? = some block →
    node.blockHash (start + UInt64.ofNat i) = .ok text → node.block text = .ok j →
      RendersBlock sha256 block j

/-- A node that has these blocks as its best chain and answers every question on them. -/
structure NodeView.Serves (node : NodeView) : Prop where
  tip : node.blockCount = .ok (lastHeight start blocks)
  block : ∀ i block, blocks[i]? = some block →
    ∃ hash j, node.blockHash (start + UInt64.ofNat i) = .ok (hashToRpc hash) ∧
      node.block (hashToRpc hash) = .ok j ∧ RendersBlock sha256 block j

end Nodes

namespace BitcoinAnchorChain

section Runs

variable (sha256 : Sha256)
variable (start : UInt64)
variable (blocks : List Block)

/-- An index over some blocks: refreshes against nodes that tell of them. -/
def system : System BitcoinAnchorChain NodeView where
  init := fun chain => ∃ tip, chain = opened start tip
  step := fun chain node chain' =>
    node.Tells sha256 start blocks ∧ chain' = final (refresh sha256 node) chain

/-- Indexes that any refreshes come to, failed ones included. -/
def Reachable (chain : BitcoinAnchorChain) : Prop :=
  (system sha256 start blocks).Reachable chain

/-- The index has the anchors of the first `k` blocks. -/
structure Follows (chain : BitcoinAnchorChain) (k : ℕ) : Prop where
  start_eq : chain.startHeight = start
  le : k ≤ blocks.length
  entries_eq : chain.entries =
    (anchorTxsFrom sha256 start (blocks.take k)).map AnchorTx.toEntry
  scanned : (k = 0 ∧ chain.scanned = none) ∨
    ∃ i hash, k = i + 1 ∧ chain.scanned = some (start + UInt64.ofNat i, hash)

end Runs

section Refreshing

variable {sha256 : Sha256}
variable {start : UInt64}
variable {blocks : List Block}
variable {chain : BitcoinAnchorChain}
variable {node : NodeView}
variable {k : ℕ}

theorem opened_follows
    (tip : UInt64) :
    (opened start tip).Follows sha256 start blocks 0 where
  start_eq := rfl
  le := Nat.zero_le _
  entries_eq := by simp [opened, anchorTxsFrom]
  scanned := Or.inl ⟨rfl, rfl⟩

/-- The next height is that of the first block that was not scanned. -/
theorem Follows.nextHeight_eq
    (h : chain.Follows sha256 start blocks k) :
    chain.nextHeight = start + UInt64.ofNat k := by
  rcases h.scanned with ⟨rfl, hnone⟩ | ⟨i, hash, rfl, hsome⟩
  · rw [nextHeight, hnone, h.start_eq]
    simp
  · rw [nextHeight, hsome]
    exact add_ofNat_succ start i

/-- Scanning the next block. -/
theorem Follows.scan_next
    (h : chain.Follows sha256 start blocks k)
    {block : Block}
    (hblock : blocks[k]? = some block)
    (hash : Bytes 32) :
    Follows sha256 start blocks
      { chain with
        entries := chain.entries ++
          (anchorTxs sha256 block (start + UInt64.ofNat k)).map AnchorTx.toEntry
        scanned := some (start + UInt64.ofNat k, hash) } (k + 1) := by
  obtain ⟨hlt, hget⟩ := List.getElem?_eq_some_iff.mp hblock
  have htake : blocks.take (k + 1) = blocks.take k ++ [block] := by
    rw [List.take_add_one, hblock]
    rfl
  have hlength : (blocks.take k).length = k := by
    rw [List.length_take]
    omega
  refine ⟨h.start_eq, hlt, ?_, Or.inr ⟨k, hash, rfl, rfl⟩⟩
  show chain.entries ++ _ = _
  rw [h.entries_eq, htake, anchorTxsFrom_append_singleton, hlength, List.map_append]

/-- A round of the scan on a faithfully decoded block. -/
theorem scanBlocks_succ_apply
    {height : UInt64}
    {hash : Bytes 32}
    {block : Block}
    {j : Json}
    (hhash : node.blockHash height = .ok (hashToRpc hash))
    (hj : node.block (hashToRpc hash) = .ok j)
    (hrenders : RendersBlock sha256 block j)
    (count : ℕ) :
    scanBlocks sha256 node (count + 1) height chain =
      scanBlocks sha256 node count (height + 1)
        { chain with
          entries := chain.entries ++ (anchorTxs sha256 block height).map AnchorTx.toEntry
          scanned := some (height, hash) } := by
  rw [scanBlocks, lift_bind_apply, hhash]
  dsimp only
  rw [lift_bind_apply, hj]
  dsimp only
  rw [bind_apply, scanBlock_of_renders hrenders]
  dsimp only
  rw [lift_bind_apply, hashFromRpc_hashToRpc]
  rfl

/-- A scan that stops anywhere has scanned whole blocks. -/
theorem scanBlocks_leaves
    (hnode : node.Tells sha256 start blocks)
    (count : ℕ)
    (h : chain.Follows sha256 start blocks k)
    (hcount : k + count ≤ blocks.length) :
    Leaves (scanBlocks sha256 node count (start + UInt64.ofNat k)) chain
      (fun chain' => ∃ k', chain'.Follows sha256 start blocks k') := by
  induction count generalizing k chain with
  | zero =>
      exact leaves_pure ⟨k, h⟩
  | succ count ih =>
      have hlt : k < blocks.length := by
        omega
      have hblock : blocks[k]? = some blocks[k] := List.getElem?_eq_getElem hlt
      cases hhash : node.blockHash (start + UInt64.ofNat k) with
      | error e =>
          rw [scanBlocks, hhash]
          exact leaves_throw ⟨k, h⟩
      | ok text =>
          obtain ⟨hash, rfl⟩ := hnode.hash _ _ hhash
          cases hj : node.block (hashToRpc hash) with
          | error e =>
              rw [Leaves, Ends, scanBlocks, lift_bind_apply, hhash]
              dsimp only
              rw [lift_bind_apply, hj]
              exact ⟨k, h⟩
          | ok j =>
              have hrenders := hnode.block k _ _ _ hblock hhash hj
              have hnext := ih (h.scan_next hblock hash) (by omega)
              rw [Leaves, Ends, scanBlocks_succ_apply hhash hj hrenders, add_ofNat_succ]
              exact hnext

/-- A scan that is answered reaches the end of the blocks it was asked for. -/
theorem scanBlocks_of_serves
    (hnode : node.Serves sha256 start blocks)
    (count : ℕ)
    (h : chain.Follows sha256 start blocks k)
    (hcount : k + count ≤ blocks.length) :
    ∃ chain', scanBlocks sha256 node count (start + UInt64.ofNat k) chain = .ok () chain' ∧
      chain'.Follows sha256 start blocks (k + count) := by
  induction count generalizing k chain with
  | zero =>
      exact ⟨chain, rfl, h⟩
  | succ count ih =>
      have hlt : k < blocks.length := by
        omega
      have hblock : blocks[k]? = some blocks[k] := List.getElem?_eq_getElem hlt
      obtain ⟨hash, j, hhash, hj, hrenders⟩ := hnode.block k _ hblock
      obtain ⟨chain', hscan, hfollows⟩ := ih (h.scan_next hblock hash) (by omega)
      refine ⟨chain', ?_, ?_⟩
      · rw [scanBlocks_succ_apply hhash hj hrenders, add_ofNat_succ]
        exact hscan
      · rwa [Nat.add_right_comm] at hfollows

/-- An index is kept or dropped. -/
theorem dropStale_leaves
    (h : chain.Follows sha256 start blocks k) :
    Leaves (dropStale node) chain
      (fun chain' => ∃ k', chain'.Follows sha256 start blocks k') := by
  unfold dropStale
  refine leaves_get ?_
  split
  · exact leaves_pure ⟨k, h⟩
  · refine leaves_lift ⟨k, h⟩ ?_
    intro text _
    refine leaves_lift ⟨k, h⟩ ?_
    intro actual _
    refine leaves_ite ?_ ?_
    · intro _
      refine ⟨0, h.start_eq, Nat.zero_le _, ?_, Or.inl ⟨rfl, rfl⟩⟩
      simp [anchorTxsFrom]
    · intro _
      exact leaves_pure ⟨k, h⟩

theorem dropStale_of_serves
    (hnode : node.Serves sha256 start blocks)
    (h : chain.Follows sha256 start blocks k) :
    ∃ chain' k', dropStale node chain = .ok () chain' ∧
      chain'.Follows sha256 start blocks k' := by
  unfold dropStale
  rw [get_bind_apply]
  rcases h.scanned with ⟨-, hnone⟩ | ⟨i, stored, rfl, hsome⟩
  · rw [hnone]
    exact ⟨chain, k, rfl, h⟩
  · have hlt : i < blocks.length := h.le
    obtain ⟨hash, j, hhash, -, -⟩ := hnode.block i _ (List.getElem?_eq_getElem hlt)
    rw [hsome]
    dsimp only
    rw [lift_bind_apply, hhash]
    dsimp only
    rw [lift_bind_apply, hashFromRpc_hashToRpc]
    dsimp only
    by_cases hsame : hash ≠ stored
    · rw [if_pos hsame]
      refine ⟨_, 0, rfl, h.start_eq, Nat.zero_le _, ?_, Or.inl ⟨rfl, rfl⟩⟩
      simp [anchorTxsFrom]
    · rw [if_neg hsame]
      exact ⟨chain, i + 1, rfl, h⟩

/-- The heights left to scan are those of the blocks that are left. -/
theorem Follows.remaining
    (hfits : start.toNat + blocks.length < 2 ^ 64)
    (h : chain.Follows sha256 start blocks k)
    {tip : UInt64}
    (htip : tip.toNat < start.toNat + blocks.length) :
    k + (if chain.nextHeight ≤ tip then (tip - chain.nextHeight).toNat + 1 else 0) =
      max k (tip.toNat + 1 - start.toNat) := by
  have hle := h.le
  have hnext : (start + UInt64.ofNat k).toNat = start.toNat + k := by
    rw [UInt64.toNat_add, UInt64.toNat_ofNat']
    omega
  rw [h.nextHeight_eq]
  split_ifs with hheight
  · rw [UInt64.toNat_sub_of_le _ _ hheight]
    rw [UInt64.le_iff_toNat_le] at hheight
    omega
  · rw [UInt64.le_iff_toNat_le] at hheight
    omega

/-- A refresh that stops anywhere leaves an index of whole blocks. -/
theorem refresh_leaves
    (hfits : start.toNat + blocks.length < 2 ^ 64)
    (hnode : node.Tells sha256 start blocks)
    (h : chain.Follows sha256 start blocks k) :
    Leaves (refresh sha256 node) chain
      (fun chain' => ∃ k', chain'.Follows sha256 start blocks k') := by
  unfold refresh
  refine leaves_lift ⟨k, h⟩ ?_
  intro tip htip
  have hbelow := hnode.tip tip htip
  refine leaves_modify ?_
  have htipped : Follows sha256 start blocks { chain with tip := tip } k :=
    ⟨h.start_eq, h.le, h.entries_eq, h.scanned⟩
  refine Leaves.bind (dropStale_leaves htipped) (fun _ h' => h') ?_
  rintro _ chain' ⟨k', h'⟩
  refine leaves_get ?_
  have hremaining := h'.remaining hfits hbelow
  have hle := h'.le
  have hscan := scanBlocks_leaves hnode
    (if chain'.nextHeight ≤ tip then (tip - chain'.nextHeight).toNat + 1 else 0) h' (by omega)
  rw [← h'.nextHeight_eq] at hscan
  refine Leaves.bind hscan (fun _ h'' => h'') ?_
  rintro _ chain'' ⟨k'', h''⟩
  exact ⟨k'', h''.start_eq, h''.le, h''.entries_eq, h''.scanned⟩

/-- A refresh that is answered scans every block. -/
theorem refresh_of_serves
    (hwindow : Window sha256 start blocks)
    (hnode : node.Serves sha256 start blocks)
    (h : chain.Follows sha256 start blocks k) :
    ∃ chain', refresh sha256 node chain = .ok () chain' ∧
      chain'.Follows sha256 start blocks blocks.length := by
  have hlast := hwindow.lastHeight_toNat
  have htipped : Follows sha256 start blocks
      { chain with tip := lastHeight start blocks } k :=
    ⟨h.start_eq, h.le, h.entries_eq, h.scanned⟩
  obtain ⟨chain', k', hdrop, h'⟩ := dropStale_of_serves hnode htipped
  have hremaining := @Follows.remaining _ _ _ _ _ hwindow.fits h' (lastHeight start blocks) (by omega)
  have hle := h'.le
  obtain ⟨chain'', hscan, h''⟩ := scanBlocks_of_serves hnode
    (if chain'.nextHeight ≤ lastHeight start blocks then
      (lastHeight start blocks - chain'.nextHeight).toNat + 1 else 0) h' (by omega)
  have hall : max k' ((lastHeight start blocks).toNat + 1 - start.toNat) = blocks.length := by
    omega
  rw [hremaining, hall] at h''
  rw [← h'.nextHeight_eq] at hscan
  unfold refresh
  rw [lift_bind_apply, hnode.tip]
  dsimp only
  rw [modify_bind_apply, bind_apply, hdrop]
  dsimp only
  rw [get_bind_apply, bind_apply, hscan]
  exact ⟨_, rfl, h''.start_eq, h''.le, h''.entries_eq, h''.scanned⟩

/-- After any refreshes the index has the anchors of the blocks below the next height. -/
theorem Reachable.follows
    (hfits : start.toNat + blocks.length < 2 ^ 64)
    (h : Reachable sha256 start blocks chain) :
    ∃ k, chain.Follows sha256 start blocks k := by
  refine @System.Reachable.invariant _ _ _
    (fun chain => ∃ k, chain.Follows sha256 start blocks k) ?_ ?_ chain h
  · rintro _ ⟨tip, rfl⟩
    exact ⟨0, opened_follows tip⟩
  · rintro s node s' ⟨k, hs⟩ ⟨hnode, rfl⟩
    exact leaves_iff.mp (refresh_leaves hfits hnode hs)

end Refreshing

section Occurrences

variable {sha256 : Sha256}
variable {start : UInt64}
variable {blocks : List Block}

/-- The first occurrence in the index is the first anchor whose record binds. -/
theorem Follows.firstNullifierOccurrence_eq
    (hwindow : Window sha256 start blocks)
    {chain : BitcoinAnchorChain}
    (h : chain.Follows sha256 start blocks blocks.length)
    (sponge : Sponge)
    (rawNf : Digest) :
    chain.firstNullifierOccurrence sponge rawNf =
      ((anchorTxsFrom sha256 start blocks).find?
        (fun t => t.record.wellFormed sponge t.ctx rawNf)).map AnchorTx.location := by
  have hsorted := (@anchorTxsFrom_spec sha256 start blocks hwindow.fits).1
  have hlocations : ((chain.entries.filter (fun e => e.record.wellFormed sponge e.ctx rawNf)).map
      Entry.location).Pairwise (fun a b => a.le b = true) := by
    rw [List.pairwise_map, h.entries_eq, List.take_length]
    refine List.Pairwise.filter _ ?_
    rw [List.pairwise_map]
    refine hsorted.imp ?_
    intro t t' hlt
    exact AnchorLocation.le_iff_key_le.mpr hlt.le
  rw [firstNullifierOccurrence, nullifierOccurrences, hlocations.insertionSort_eq,
    List.head?_map, List.head?_filter, h.entries_eq, List.take_length, List.find?_map,
    Option.map_map]
  rfl

end Occurrences

end BitcoinAnchorChain

section Agreement

variable {sha256 : Sha256}
variable {start : UInt64}
variable {blocks : List Block}

/-- The least location among the candidates is that of the first transaction that binds. -/
theorem minLocation_candidates
    {txs : List AnchorTx}
    (hsorted : txs.Pairwise (fun a b => a.location.key < b.location.key))
    (sponge : Sponge)
    (rawNf : Digest) :
    ScanIndex.minLocation
        (((txs.flatMap AnchorTx.candidates).filter (fun e => e.binds sponge rawNf)).map
          ScannedAnchor.location) =
      (txs.find? (fun t => SnapshotChain.entryMatchesNullifier sponge t rawNf)).map
        AnchorTx.location := by
  have hcandidates : (txs.flatMap AnchorTx.candidates).Pairwise
      (fun a b => a.location.le b.location = true) := by
    rw [List.pairwise_flatMap]
    constructor
    · intro t _
      refine List.pairwise_of_forall_mem_list ?_
      intro e he e' he'
      rw [(AnchorTx.mem_candidates he).1, (AnchorTx.mem_candidates he').1,
        AnchorLocation.le_iff_key_le]
    · refine hsorted.imp ?_
      intro t t' hlt e he e' he'
      rw [(AnchorTx.mem_candidates he).1, (AnchorTx.mem_candidates he').1]
      exact AnchorLocation.le_iff_key_le.mpr hlt.le
  have hlocations : (((txs.flatMap AnchorTx.candidates).filter (fun e => e.binds sponge rawNf)).map
      ScannedAnchor.location).Pairwise (fun a b => a.le b = true) := by
    rw [List.pairwise_map]
    exact hcandidates.filter _
  rw [ScanIndex.minLocation, hlocations.insertionSort_eq, List.head?_map, List.head?_filter]
  refine map_find?_flatMap ?_ ?_
  · intro t _
    exact t.any_binds_candidates rawNf
  · intro t _ e he
    exact (AnchorTx.mem_candidates he).1

/-- The first occurrence in the window is the first anchor that binds. -/
theorem FullScanChain.firstNullifierOccurrence_eq
    (hwindow : Window sha256 start blocks)
    (sponge : Sponge)
    (rawNf : Digest) :
    firstNullifierOccurrence sponge
        ⟨start, lastHeight start blocks,
          (anchorTxsFrom sha256 start blocks).flatMap AnchorTx.candidates⟩ rawNf =
      ((anchorTxsFrom sha256 start blocks).find?
        (fun t => SnapshotChain.entryMatchesNullifier sponge t rawNf)).map
          AnchorTx.location :=
  minLocation_candidates (anchorTxsFrom_spec start blocks hwindow.fits).1 sponge rawNf

/-- A payload of the transaction's envelope binds the nullifier. -/
def AnchorTx.bindsInEnvelope (sponge : Sponge) (t : AnchorTx) (rawNf : Digest) : Bool :=
  match t.batch with
  | some (version, payloads) =>
      (versionedEnvelopeOccurrence sponge version t.record payloads t.ctx rawNf).isSome
  | none => false

/-- A transaction binds a nullifier in its record or in its envelope. -/
theorem AnchorTx.Decoded.entryMatchesNullifier_eq
    {sponge : Sponge}
    {t : AnchorTx}
    (h : t.Decoded)
    (rawNf : Digest) :
    SnapshotChain.entryMatchesNullifier sponge t rawNf =
      (t.record.wellFormed sponge t.ctx rawNf || t.bindsInEnvelope sponge rawNf) := by
  unfold SnapshotChain.entryMatchesNullifier bindsInEnvelope
  cases hbatch : t.batch with
  | none =>
      simp
  | some batch =>
      obtain ⟨version, envelope⟩ := batch
      have hheader : t.record.wellFormed sponge t.ctx rawNf = false := by
        have hclass := (h.envelope hbatch).1
        cases hrecord : t.record with
        | batchHeader count committed =>
            rfl
        | mint assetId value commit =>
            rw [hrecord] at hclass
            cases hclass
        | xfer p₀ p₁ =>
            rw [hrecord] at hclass
            cases hclass
        | xferCompressed p =>
            rw [hrecord] at hclass
            cases hclass
        | redeem assetId value p =>
            rw [hrecord] at hclass
            cases hclass
      rw [hheader, Bool.false_or]

/--
After any refreshes, one more that is answered, and a full scan of the same blocks, the
backends name the same first occurrence of a nullifier if and only if every batch that
binds it comes after an anchor whose record binds it.
-/
theorem firstNullifierOccurrence_eq_iff
    {sponge : Sponge}
    {chain : BitcoinAnchorChain}
    {node : NodeView}
    {view : ClientView}
    (hwindow : Window sha256 start blocks)
    (hreach : BitcoinAnchorChain.Reachable sha256 start blocks chain)
    (hnode : node.Serves sha256 start blocks)
    (htip : lastHeight start blocks ≤ view.tipHeight)
    (hview : view.Serves start blocks)
    (rawNf : Digest) :
    ∃ chain' full,
      BitcoinAnchorChain.refresh sha256 node chain = .ok () chain' ∧
      FullScanChain.scan sha256 view start (lastHeight start blocks) = .ok full ∧
      (chain'.firstNullifierOccurrence sponge rawNf =
          full.firstNullifierOccurrence sponge rawNf ↔
        ∀ t ∈ anchorTxsFrom sha256 start blocks, t.bindsInEnvelope sponge rawNf = true →
          ∃ t' ∈ anchorTxsFrom sha256 start blocks,
            t'.record.wellFormed sponge t'.ctx rawNf = true ∧
              t'.location.key ≤ t.location.key) := by
  obtain ⟨k, hfollows⟩ := hreach.follows hwindow.fits
  obtain ⟨chain', hrefresh, hfollows'⟩ :=
    BitcoinAnchorChain.refresh_of_serves hwindow hnode hfollows
  refine ⟨chain', _, hrefresh, FullScanChain.scan_of_serves hwindow htip hview, ?_⟩
  obtain ⟨hsorted, hmem⟩ := @anchorTxsFrom_spec sha256 start blocks hwindow.fits
  have hsplit : (anchorTxsFrom sha256 start blocks).find?
      (fun t => SnapshotChain.entryMatchesNullifier sponge t rawNf) =
      (anchorTxsFrom sha256 start blocks).find?
        (fun t => t.record.wellFormed sponge t.ctx rawNf || t.bindsInEnvelope sponge rawNf) := by
    refine List.find?_congr ?_
    intro t ht
    exact (hmem t ht).1.entryMatchesNullifier_eq rawNf
  rw [hfollows'.firstNullifierOccurrence_eq hwindow,
    FullScanChain.firstNullifierOccurrence_eq hwindow, hsplit]
  exact map_find?_eq_iff hsorted

end Agreement

namespace BitcoinAnchorChain.Sample

open ScanIndex.Sample (batchTx)

/-- A transfer of the first spend of the batch, from another outpoint. -/
def soloFunding : OutPoint where
  txid := List.Vector.replicate 32 7
  vout := 1

def soloRecord : AnchorRecord :=
  .xferCompressed (bound foldSponge (fundingCtx Sha2.sha256 soloFunding) (Digest.fill 1))

def soloTx : Transaction where
  version := 2
  inputs := [⟨soloFunding, [], 0xfffffffd⟩]
  outputs := [⟨0, anchorScript soloRecord.toBytes⟩, ⟨330, markerSpk⟩]
  lockTime := 0
  witnesses := [[[0x51]]]

/-- A block of these transactions. -/
def blockOf (txs : List Transaction) (h : txs.length ≤ maxBlockTxs) : Block where
  header :=
    { version := 2
      prevBlock := Bytes.zero 32
      merkleRoot := ((merkleRoot Sha2.sha256 (txs.map (Transaction.txid Sha2.sha256)))).getD
        (Bytes.zero 32)
      time := 0
      bits := 0x207fffff
      nonce := 0 }
  txs := txs
  txs_le := h

theorem batch_fits :
    [batchTx].length ≤ maxBlockTxs := by
  decide

def batchBlock : Block := blockOf [batchTx] batch_fits

def mixedBlock : Block := blockOf [soloTx, batchTx] (by decide)

def hash : Bytes 32 := List.Vector.replicate 32 5

/-- A node and a client with one block, at height one. -/
def node (block : Block) : NodeView where
  blockCount := .ok 1
  blockHash := fun _ => .ok (hashToRpc hash)
  block := fun _ => .ok (block.toRpc Sha2.sha256)

theorem one_lt :
    UInt64.toNat 1 + 1 < 2 ^ 64 := by
  decide

def view (block : Block) : ClientView where
  tipHeight := 1
  tip_lt := one_lt
  blockHash := fun _ => some hash
  filterMatches := fun _ _ => some true
  fetchBlock := fun _ => some block

theorem node_serves
    (block : Block) :
    (node block).Serves Sha2.sha256 1 [block] where
  tip := rfl
  block := by
    intro i block' hblock'
    have hmem := List.mem_of_getElem? hblock'
    obtain rfl := List.mem_singleton.mp hmem
    exact ⟨hash, block'.toRpc Sha2.sha256, rfl, rfl, rendersBlock_toRpc Sha2.sha256 block'⟩

theorem view_serves
    (block : Block) :
    (view block).Serves 1 [block] := by
  intro i block' hblock'
  have hmem := List.mem_of_getElem? hblock'
  obtain rfl := List.mem_singleton.mp hmem
  exact ⟨hash, rfl, rfl⟩

theorem window
    {txs : List Transaction}
    {hle : txs.length ≤ maxBlockTxs}
    (h : txs ≠ []) :
    Window Sha2.sha256 1 [blockOf txs hle] where
  positive := by decide
  nonempty := List.cons_ne_nil _ _
  short := by
    show 1 ≤ maxWindowBlocks.toNat
    decide
  fits := by
    show UInt64.toNat 1 + 1 < 2 ^ 64
    decide
  roots := by
    intro block hblock
    obtain rfl := List.mem_singleton.mp hblock
    have hsome : (merkleRoot Sha2.sha256 (txs.map (Transaction.txid Sha2.sha256))).isSome = true :=
      merkleRoot_isSome Sha2.sha256 (by simpa using h)
    obtain ⟨root, hroot⟩ := Option.isSome_iff_exists.mp hsome
    show merkleRoot Sha2.sha256 (txs.map (Transaction.txid Sha2.sha256)) = some (Option.getD
      (merkleRoot Sha2.sha256 (txs.map (Transaction.txid Sha2.sha256))) (Bytes.zero 32))
    rw [hroot]
    rfl

/-- A transfer before the batch is seen by both backends. -/
theorem mixed_agree :
    ∃ chain' full,
      refresh Sha2.sha256 (node mixedBlock) (opened 1 0) = .ok () chain' ∧
      FullScanChain.scan Sha2.sha256 (view mixedBlock) 1 1 = .ok full ∧
      chain'.firstNullifierOccurrence foldSponge (Digest.fill 1) =
        full.firstNullifierOccurrence foldSponge (Digest.fill 1) := by
  obtain ⟨chain', full, hrefresh, hscan, hiff⟩ :=
    @firstNullifierOccurrence_eq_iff _ _ _ foldSponge _ _ _ (window (List.cons_ne_nil _ _))
      (System.Reachable.init ⟨0, rfl⟩) (node_serves mixedBlock) (by decide)
      (view_serves mixedBlock) (Digest.fill 1)
  refine ⟨chain', full, hrefresh, hscan, hiff.mpr ?_⟩
  decide +kernel

/-- A spend inside a batch is seen by the full scan only. -/
theorem batch_spend_unseen :
    Reachable Sha2.sha256 1 [batchBlock] (opened 1 0) ∧
      (node batchBlock).Serves Sha2.sha256 1 [batchBlock] ∧
      (view batchBlock).Serves 1 [batchBlock] ∧
      ∃ chain' full,
        refresh Sha2.sha256 (node batchBlock) (opened 1 0) = .ok () chain' ∧
        FullScanChain.scan Sha2.sha256 (view batchBlock) 1 1 = .ok full ∧
        chain'.firstNullifierOccurrence foldSponge (Digest.fill 1) = none ∧
        full.firstNullifierOccurrence foldSponge (Digest.fill 1) = some ⟨1, 0⟩ := by
  have hwindow : Window Sha2.sha256 1 [batchBlock] := window (List.cons_ne_nil _ _)
  obtain ⟨chain', hrefresh, hfollows⟩ :=
    refresh_of_serves hwindow (node_serves batchBlock) (opened_follows 0)
  have hscan :=
    FullScanChain.scan_of_serves hwindow (by decide)
      (view_serves batchBlock)
  refine ⟨System.Reachable.init ⟨0, rfl⟩, node_serves batchBlock, view_serves batchBlock,
    chain', _, hrefresh, hscan, ?_, ?_⟩
  · rw [hfollows.firstNullifierOccurrence_eq hwindow]
    decide +kernel
  · rw [FullScanChain.firstNullifierOccurrence_eq hwindow]
    decide +kernel

end BitcoinAnchorChain.Sample

end OpenCsv
