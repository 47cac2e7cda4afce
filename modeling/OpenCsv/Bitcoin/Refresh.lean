import OpenCsv.Bitcoin.Agreement

/-!
# The node backend over changing chains

The node's best chain may be another one at every refresh, any question may fail, and a
block may come with a transaction that the scanner refuses.  Entries are added one
transaction at a time and the scanned block is noted after its last transaction, so a
refusal after an anchor of the same block leaves entries of a block that does not count
as scanned.

**Results.**
* `BitcoinAnchorChain.Coherent`: the entries are the anchors of the linked blocks that
  end with the scanned one.
* `refresh_coherent_iff`: which refreshes keep the index coherent.
-/

namespace OpenCsv

open Call

section Refusing

variable (sha256 : Sha256)

/-- The scan of decoded transactions fails, and an anchor was found before it did. -/
def failsLate : Bool → List Json → Bool
  | _, [] => false
  | found, tx :: txs =>
      match scanTx sha256 tx 0 0 with
      | .error _ => found
      | .ok entry => failsLate (found || entry.isSome) txs

/-- The scanner takes every transaction. -/
def takesAll (txs : List Json) : Bool :=
  txs.all (fun tx => (scanTx sha256 tx 0 0).toOption.isSome)

/-- A faithfully decoded transaction, or one that the scanner refuses. -/
def RendersOrRefused (tx : Transaction) (j : Json) : Prop :=
  RendersTx sha256 tx j ∨ ∃ e, scanTx sha256 j 0 0 = .error e

/-- An answer for a block: some of its transactions may be undecodable. -/
def PartlyRenders (block : Block) (j : Json) : Prop :=
  ∀ txs, (j.get "tx").bind Json.asArray = some txs →
    List.Forall₂ (RendersOrRefused sha256) block.txs txs

end Refusing

section Nodes

variable (sha256 : Sha256)

/-- The blocks that a node may have. -/
structure NodeTree where
  parent : Bytes 32 → Bytes 32
  block : Bytes 32 → Block

/-- A node whose best chain is a chain of the tree; any question may fail. -/
structure NodeView.Shows
    (tree : NodeTree)
    (node : NodeView)
    (best : UInt64 → Bytes 32) : Prop where
  tip : ∀ tip, node.blockCount = .ok tip → tip.toNat + 1 < 2 ^ 64
  hash : ∀ height text, node.blockHash height = .ok text → text = hashToRpc (best height)
  linked : ∀ tip, node.blockCount = .ok tip →
    ∀ height < tip, tree.parent (best (height + 1)) = best height
  block : ∀ blockHash j, node.block (hashToRpc blockHash) = .ok j →
    PartlyRenders sha256 (tree.block blockHash) j

/-- The scan of some heights reaches a block that is refused after one of its anchors. -/
def NodeView.failsLateFrom (node : NodeView) : ℕ → UInt64 → Bool
  | 0, _ => false
  | count + 1, height =>
      match node.blockHash height with
      | .error _ => false
      | .ok text =>
          match node.block text with
          | .error _ => false
          | .ok j =>
              match (j.get "tx").bind Json.asArray with
              | none => false
              | some txs =>
                  failsLate sha256 false txs ||
                    (takesAll sha256 txs && node.failsLateFrom count (height + 1))

/-- The height that a refresh goes on from, unless it fails before that. -/
def NodeView.resumeHeight (node : NodeView) (chain : BitcoinAnchorChain) : Option UInt64 :=
  match chain.scanned with
  | none => some chain.startHeight
  | some (height, hash) =>
      match node.blockHash height with
      | .error _ => none
      | .ok text =>
          match hashFromRpc text with
          | .error _ => none
          | .ok actual => some (if actual = hash then height + 1 else chain.startHeight)

/-- The refresh reaches a block that is refused after one of its anchors. -/
def NodeView.refreshFailsLate (node : NodeView) (chain : BitcoinAnchorChain) : Bool :=
  match node.blockCount, node.resumeHeight chain with
  | .ok tip, some height =>
      node.failsLateFrom sha256 (if height ≤ tip then (tip - height).toNat + 1 else 0) height
  | _, _ => false

end Nodes

namespace BitcoinAnchorChain

section Coherence

variable (sha256 : Sha256)
variable (tree : NodeTree)

/-- The index is what scanning these blocks, one after the other, gives. -/
structure ScannedBlocks (chain : BitcoinAnchorChain) (hashes : List (Bytes 32)) : Prop where
  linked : hashes.IsChain (fun a b => tree.parent b = a)
  entries : chain.entries =
    (anchorTxsFrom sha256 chain.startHeight (hashes.map tree.block)).map AnchorTx.toEntry
  scanned : (hashes = [] ∧ chain.scanned = none) ∨
    ∃ i hash, hashes.length = i + 1 ∧ hashes[i]? = some hash ∧
      chain.scanned = some (chain.startHeight + UInt64.ofNat i, hash)
  fits : chain.startHeight.toNat + hashes.length < 2 ^ 64

/-- The entries are those of one chain that ends with the scanned block. -/
def Coherent (chain : BitcoinAnchorChain) : Prop :=
  ∃ hashes, chain.ScannedBlocks sha256 tree hashes

/-- Refreshes against nodes that show chains of one tree. -/
def nodeSystem : System BitcoinAnchorChain NodeView where
  init := fun chain => ∃ start tip, chain = opened start tip
  step := fun chain node chain' =>
    (∃ best, node.Shows sha256 tree best) ∧ chain' = final (refresh sha256 node) chain

end Coherence

section Transactions

variable {sha256 : Sha256}

/-- Add the anchor of one transaction. -/
def scanRound
    (sha256 : Sha256)
    (height : UInt64) : Json × ℕ → Call RpcError BitcoinAnchorChain Unit :=
  fun (tx, position) => do
    let entry ← lift (scanTx sha256 tx height position)
    modify (fun chain => { chain with entries := chain.entries ++ entry.toList })

/-- Where a transaction stands shows in the location of its entry only. -/
theorem scanTx_eq_map
    (j : Json)
    (height : UInt64)
    (position : ℕ) :
    scanTx sha256 j height position =
      (scanTx sha256 j 0 0).map (Option.map (fun entry =>
        { entry with location := ⟨height, UInt32.ofNat position⟩ })) := by
  unfold scanTx
  cases okOr ((j.get "txid").bind Json.asStr)
      (RpcError.malformed (Text.lit "scanned transaction has no txid")) with
  | error e =>
      rfl
  | ok txidHex =>
      dsimp only [bind, Except.bind]
      split
      · rfl
      · split
        · rename_i prevTxid prevVout _ _
          cases require (prevVout.toNat < 2 ^ 32)
              (RpcError.malformed (Text.lit "scanned vin vout overflows u32")) with
          | error e =>
              rfl
          | ok _ =>
              dsimp only
              cases hashFromRpc prevTxid with
              | error e =>
                  rfl
              | ok prev =>
                  dsimp only
                  split
                  · rfl
                  · cases hashFromRpc txidHex with
                    | error e => rfl
                    | ok txid => rfl
        · rfl

/-- Scanning part of a block adds its anchors, or some before a refused transaction. -/
theorem scanTxs_ends
    {txs : List Transaction}
    {js : List Json}
    (h : List.Forall₂ (RendersOrRefused sha256) txs js)
    (height : UInt64)
    (n : ℕ)
    (found : Bool)
    (chain : BitcoinAnchorChain) :
    (takesAll sha256 js = true ∧ failsLate sha256 found js = false ∧
      each (js.zipIdx n) (scanRound sha256 height) chain =
          .ok () { chain with entries := chain.entries ++
            ((txs.zipIdx n).filterMap (fun (tx, position) =>
              anchorOfTx sha256 height position tx)).map AnchorTx.toEntry }) ∨
    (takesAll sha256 js = false ∧ ∃ extra e,
      each (js.zipIdx n) (scanRound sha256 height) chain =
          .error e { chain with entries := chain.entries ++ extra } ∧
      (∀ entry ∈ extra, entry.location.height = height) ∧
      failsLate sha256 found js = (found || !extra.isEmpty)) := by
  induction h generalizing n found chain with
  | nil =>
      refine Or.inl ⟨rfl, rfl, ?_⟩
      simp [each, pure, EStateM.pure]
  | @cons tx j txs js hhead _ ih =>
      cases hscan : scanTx sha256 j 0 0 with
      | error e =>
          refine Or.inr ⟨by simp [takesAll, hscan, Except.toOption], [], e, ?_, by simp, ?_⟩
          · rw [List.zipIdx_cons, each, bind_apply]
            dsimp only [scanRound]
            rw [lift_bind_apply, scanTx_eq_map, hscan]
            simp [Except.map]
          · rw [failsLate, hscan]
            simp
      | ok entry =>
          have hrenders : RendersTx sha256 tx j := by
            refine hhead.resolve_right ?_
            rintro ⟨e, herror⟩
            rw [hscan] at herror
            cases herror
          have hanchor := scanTx_of_renders hrenders height n
          have hround : scanRound sha256 height (j, n) chain =
              .ok () { chain with entries := chain.entries ++
                ((anchorOfTx sha256 height n tx).map AnchorTx.toEntry).toList } := by
            dsimp only [scanRound]
            rw [lift_bind_apply, hanchor]
            rfl
          have hfound : entry.isSome = (anchorOfTx sha256 height n tx).isSome := by
            rw [scanTx_eq_map, hscan] at hanchor
            have hsome := congrArg Option.isSome (Except.ok.inj hanchor)
            simpa using hsome
          have htakes : takesAll sha256 (j :: js) = takesAll sha256 js := by
            simp [takesAll, hscan, Except.toOption]
          have hfails : failsLate sha256 found (j :: js) =
              failsLate sha256 (found || entry.isSome) js := by
            rw [failsLate, hscan]
          rw [htakes, hfails, List.zipIdx_cons, each, bind_apply, hround]
          dsimp only
          rcases ih (n + 1) (found || entry.isSome) { chain with entries := chain.entries ++
              ((anchorOfTx sha256 height n tx).map AnchorTx.toEntry).toList } with
            ⟨hall, hlate, hrest⟩ | ⟨hsome, extra, e, hrest, hheight, hlate⟩
          · refine Or.inl ⟨hall, hlate, ?_⟩
            rw [hrest, List.zipIdx_cons, List.filterMap_cons]
            cases anchorOfTx sha256 height n tx with
            | none => simp
            | some t => simp
          · refine Or.inr ⟨hsome,
              ((anchorOfTx sha256 height n tx).map AnchorTx.toEntry).toList ++ extra, e, ?_, ?_, ?_⟩
            · rw [hrest]
              simp
            · intro entry' hentry'
              rcases List.mem_append.mp hentry' with hentry' | hentry'
              · obtain ⟨t, ht, rfl⟩ := Option.map_eq_some_iff.mp (Option.mem_toList.mp hentry')
                show t.location.height = height
                rw [(anchorOfTx_spec ht).1]
              · exact hheight entry' hentry'
            · rw [hlate, hfound]
              cases anchorOfTx sha256 height n tx with
              | none => simp
              | some t => simp

end Transactions

section Blocks

variable {sha256 : Sha256}
variable {tree : NodeTree}
variable {chain : BitcoinAnchorChain}
variable {hashes : List (Bytes 32)}

/-- Scanning an answer for a block adds its anchors, or some before a refused transaction. -/
theorem scanBlock_ends
    {block : Block}
    {j : Json}
    {txs : List Json}
    (h : PartlyRenders sha256 block j)
    (htxs : (j.get "tx").bind Json.asArray = some txs)
    (height : UInt64)
    (chain : BitcoinAnchorChain) :
    (takesAll sha256 txs = true ∧ failsLate sha256 false txs = false ∧
      scanBlock sha256 j height chain = .ok () { chain with
        entries := chain.entries ++ (anchorTxs sha256 block height).map AnchorTx.toEntry }) ∨
    (takesAll sha256 txs = false ∧ ∃ extra e,
      scanBlock sha256 j height chain =
        .error e { chain with entries := chain.entries ++ extra } ∧
      (∀ entry ∈ extra, entry.location.height = height) ∧
      failsLate sha256 false txs = !extra.isEmpty) := by
  have hscan : scanBlock sha256 j height chain =
      each txs.zipIdx (scanRound sha256 height) chain := by
    rw [scanBlock, htxs]
    rfl
  rw [hscan]
  exact scanTxs_ends (h txs htxs) height 0 false chain

theorem opened_scannedBlocks
    (start tip : UInt64) :
    (opened start tip).ScannedBlocks sha256 tree [] where
  linked := List.isChain_nil
  entries := rfl
  scanned := Or.inl ⟨rfl, rfl⟩
  fits := start.toNat_lt

/-- Tip and mempool say nothing about the scanned blocks. -/
theorem ScannedBlocks.of_eq
    (h : chain.ScannedBlocks sha256 tree hashes)
    {chain' : BitcoinAnchorChain}
    (hstart : chain'.startHeight = chain.startHeight)
    (hentries : chain'.entries = chain.entries)
    (hscanned : chain'.scanned = chain.scanned) :
    chain'.ScannedBlocks sha256 tree hashes := by
  refine ⟨h.linked, ?_, ?_, ?_⟩
  · rw [hentries, hstart]
    exact h.entries
  · rw [hscanned, hstart]
    exact h.scanned
  · rw [hstart]
    exact h.fits

theorem coherent_congr
    {chain' : BitcoinAnchorChain}
    (hstart : chain'.startHeight = chain.startHeight)
    (hentries : chain'.entries = chain.entries)
    (hscanned : chain'.scanned = chain.scanned) :
    chain'.Coherent sha256 tree ↔ chain.Coherent sha256 tree := by
  constructor
  · rintro ⟨hashes, h⟩
    exact ⟨hashes, h.of_eq hstart.symm hentries.symm hscanned.symm⟩
  · rintro ⟨hashes, h⟩
    exact ⟨hashes, h.of_eq hstart hentries hscanned⟩

/-- The height of the first block that was not scanned. -/
theorem ScannedBlocks.nextHeight_eq
    (h : chain.ScannedBlocks sha256 tree hashes) :
    chain.nextHeight = chain.startHeight + UInt64.ofNat hashes.length := by
  rcases h.scanned with ⟨rfl, hnone⟩ | ⟨i, hash, hlength, -, hsome⟩
  · rw [nextHeight, hnone]
    simp
  · rw [nextHeight, hsome, hlength]
    exact add_ofNat_succ _ i

/-- The entries of a coherent index lie below the next height. -/
theorem ScannedBlocks.height_lt
    (h : chain.ScannedBlocks sha256 tree hashes)
    {entry : Entry}
    (hentry : entry ∈ chain.entries) :
    entry.location.height.toNat < chain.nextHeight.toNat := by
  have hfits := h.fits
  have hlength : (hashes.map tree.block).length = hashes.length := List.length_map _
  rw [h.entries] at hentry
  obtain ⟨t, ht, rfl⟩ := List.mem_map.mp hentry
  obtain ⟨-, -, hlt⟩ := (anchorTxsFrom_spec chain.startHeight (hashes.map tree.block)
    (by rw [hlength]; exact hfits)).2 t ht
  rw [hlength] at hlt
  rw [h.nextHeight_eq, UInt64.toNat_add, UInt64.toNat_ofNat']
  show t.location.height.toNat < _
  omega

/-- The entries come in chain order, each once. -/
theorem Coherent.sorted
    (h : chain.Coherent sha256 tree) :
    chain.entries.Pairwise (fun a b => a.location.key < b.location.key) := by
  obtain ⟨hashes, h⟩ := h
  have hfits := h.fits
  rw [h.entries, List.pairwise_map]
  refine (anchorTxsFrom_spec chain.startHeight (hashes.map tree.block) ?_).1
  rw [List.length_map]
  exact hfits

/-- Entries of a block that does not count as scanned make the index incoherent. -/
theorem not_coherent_of_extra
    {extra : List Entry}
    (hne : extra ≠ [])
    (hheight : ∀ entry ∈ extra, entry.location.height = chain.nextHeight) :
    ¬ Coherent sha256 tree { chain with entries := chain.entries ++ extra } := by
  rintro ⟨hashes, h⟩
  obtain ⟨entry, hentry⟩ := List.exists_mem_of_ne_nil extra hne
  have hlt := h.height_lt (List.mem_append_right chain.entries hentry)
  rw [hheight entry hentry] at hlt
  exact lt_irrefl _ hlt

/-- The next block of the node's best chain. -/
theorem ScannedBlocks.extend
    (h : chain.ScannedBlocks sha256 tree hashes)
    {blockHash : Bytes 32}
    (hlinked : ∀ last ∈ hashes.getLast?, tree.parent blockHash = last)
    (hfits : chain.startHeight.toNat + hashes.length + 1 < 2 ^ 64) :
    ScannedBlocks sha256 tree
      { chain with
        entries := chain.entries ++ (anchorTxs sha256 (tree.block blockHash)
          (chain.startHeight + UInt64.ofNat hashes.length)).map AnchorTx.toEntry
        scanned := some (chain.startHeight + UInt64.ofNat hashes.length, blockHash) }
      (hashes ++ [blockHash]) := by
  refine ⟨?_, ?_, Or.inr ⟨hashes.length, blockHash, ?_, ?_, rfl⟩, ?_⟩
  · rw [List.isChain_append]
    refine ⟨h.linked, List.isChain_singleton _, ?_⟩
    intro last hlast first hfirst
    rw [List.head?_cons, Option.mem_some_iff] at hfirst
    subst hfirst
    exact hlinked last hlast
  · show chain.entries ++ _ = _
    rw [h.entries, List.map_append, List.map_singleton, anchorTxsFrom_append_singleton,
      List.map_append, List.length_map]
  · rw [List.length_append, List.length_singleton]
  · rw [List.getElem?_concat_length]
  · rw [List.length_append, List.length_singleton]
    exact hfits

/-- The blocks end with the block of the node's best chain at their height. -/
def MeetsBest (start : UInt64) (hashes : List (Bytes 32)) (best : UInt64 → Bytes 32) : Prop :=
  ∀ i hash, hashes.length = i + 1 → hashes[i]? = some hash →
    hash = best (start + UInt64.ofNat i)

end Blocks

section Refreshing

variable {sha256 : Sha256}
variable {tree : NodeTree}
variable {chain : BitcoinAnchorChain}
variable {hashes : List (Bytes 32)}
variable {node : NodeView}
variable {best : UInt64 → Bytes 32}
variable {tip : UInt64}

/-- A scan leaves a coherent index unless a block is refused after one of its anchors. -/
theorem scanBlocks_coherent_iff
    (hnode : node.Shows sha256 tree best)
    (htip : node.blockCount = .ok tip)
    (count : ℕ)
    (h : chain.ScannedBlocks sha256 tree hashes)
    (hmeets : MeetsBest chain.startHeight hashes best)
    (hcount : chain.startHeight.toNat + hashes.length + count ≤ tip.toNat + 1 ∨ count = 0) :
    (final (scanBlocks sha256 node count chain.nextHeight) chain).Coherent sha256 tree ↔
      node.failsLateFrom sha256 count chain.nextHeight = false := by
  induction count generalizing chain hashes with
  | zero =>
      exact iff_of_true ⟨hashes, h⟩ rfl
  | succ count ih =>
      have hbelow := hnode.tip tip htip
      have hcount' : chain.startHeight.toNat + hashes.length + (count + 1) ≤ tip.toNat + 1 :=
        hcount.resolve_right (Nat.succ_ne_zero count)
      unfold NodeView.failsLateFrom
      cases hhash : node.blockHash chain.nextHeight with
      | error e =>
          rw [scanBlocks, hhash]
          exact iff_of_true ⟨hashes, h⟩ rfl
      | ok text =>
          obtain rfl := hnode.hash _ _ hhash
          dsimp only
          cases hj : node.block (hashToRpc (best chain.nextHeight)) with
          | error e =>
              have hfinal : final (scanBlocks sha256 node (count + 1) chain.nextHeight) chain =
                  chain := by
                unfold final
                rw [scanBlocks, lift_bind_apply, hhash]
                dsimp only
                rw [lift_bind_apply, hj]
              rw [hfinal]
              exact iff_of_true ⟨hashes, h⟩ rfl
          | ok j =>
              dsimp only
              have hrenders := hnode.block _ _ hj
              have hstopped : ∀ e chain', scanBlock sha256 j chain.nextHeight chain =
                  .error e chain' →
                  scanBlocks sha256 node (count + 1) chain.nextHeight chain =
                    .error e chain' := by
                intro e chain' hscan
                rw [scanBlocks, lift_bind_apply, hhash]
                dsimp only
                rw [lift_bind_apply, hj]
                dsimp only
                rw [bind_apply, hscan]
              have hstep : ∀ u chain', scanBlock sha256 j chain.nextHeight chain =
                  .ok u chain' →
                  scanBlocks sha256 node (count + 1) chain.nextHeight chain =
                    scanBlocks sha256 node count (chain.nextHeight + 1)
                      { chain' with
                        scanned := some (chain.nextHeight, best chain.nextHeight) } := by
                intro u chain' hscan
                rw [scanBlocks, lift_bind_apply, hhash]
                dsimp only
                rw [lift_bind_apply, hj]
                dsimp only
                rw [bind_apply, hscan]
                dsimp only
                rw [lift_bind_apply, hashFromRpc_hashToRpc]
                rfl
              cases htxs : (j.get "tx").bind Json.asArray with
              | none =>
                  have hscan : ∃ e, scanBlock sha256 j chain.nextHeight chain = .error e chain := by
                    rw [scanBlock, htxs]
                    exact ⟨_, rfl⟩
                  obtain ⟨e, hscan⟩ := hscan
                  unfold final
                  rw [hstopped _ _ hscan]
                  exact iff_of_true ⟨hashes, h⟩ rfl
              | some txs =>
                  rcases scanBlock_ends hrenders htxs chain.nextHeight chain with
                    ⟨hall, hlate, hscan⟩ | ⟨hsome, extra, e, hscan, hheight, hlate⟩
                  · have hlinked : ∀ last ∈ hashes.getLast?,
                        tree.parent (best chain.nextHeight) = last := by
                      intro last hlast
                      rw [List.getLast?_eq_getElem?] at hlast
                      have hpositive : 0 < hashes.length := by
                        refine List.length_pos_of_ne_nil ?_
                        rintro rfl
                        cases hlast
                      obtain ⟨n, hn⟩ := Nat.exists_eq_succ_of_ne_zero hpositive.ne'
                      rw [hn] at hlast
                      rw [hmeets n last hn hlast, h.nextHeight_eq, hn, Nat.succ_eq_add_one,
                        ← add_ofNat_succ]
                      refine hnode.linked tip htip _ ?_
                      rw [UInt64.lt_iff_toNat_lt, UInt64.toNat_add, UInt64.toNat_ofNat']
                      omega
                    have hextended := @ScannedBlocks.extend _ _ _ _ h (best chain.nextHeight)
                      hlinked (by omega)
                    rw [← h.nextHeight_eq] at hextended
                    have hnext := hextended.nextHeight_eq
                    have hmeets' : MeetsBest chain.startHeight
                        (hashes ++ [best chain.nextHeight]) best := by
                      intro i hash hlength hget
                      rw [List.length_append, List.length_singleton] at hlength
                      obtain rfl : i = hashes.length := by
                        omega
                      rw [List.getElem?_concat_length] at hget
                      rw [← Option.some.inj hget, h.nextHeight_eq]
                    have hrest := ih hextended hmeets' (by
                      rw [List.length_append, List.length_singleton]
                      show chain.startHeight.toNat + _ + count ≤ _ ∨ _
                      omega)
                    unfold final at hrest ⊢
                    rw [hstep _ _ hscan]
                    dsimp only
                    rw [hall, hlate, Bool.false_or, Bool.true_and]
                    exact hrest
                  · unfold final
                    rw [hstopped _ _ hscan]
                    dsimp only
                    rw [hsome, hlate, Bool.false_and, Bool.or_false, Bool.not_eq_false',
                      List.isEmpty_iff]
                    by_cases hnil : extra = []
                    · refine iff_of_true ⟨hashes, h.of_eq rfl ?_ rfl⟩ hnil
                      rw [hnil, List.append_nil]
                    · exact iff_of_false (not_coherent_of_extra hnil hheight) hnil

/-- A stored block is kept if the node has it, and what is kept is on the best chain. -/
theorem dropStale_resumes
    (hnode : node.Shows sha256 tree best)
    (h : chain.ScannedBlocks sha256 tree hashes) :
    (node.resumeHeight chain = none ∧ ∃ e, dropStale node chain = .error e chain) ∨
    ∃ chain' hashes', dropStale node chain = .ok () chain' ∧
      node.resumeHeight chain = some chain'.nextHeight ∧
      chain'.ScannedBlocks sha256 tree hashes' ∧
      MeetsBest chain'.startHeight hashes' best := by
  unfold dropStale NodeView.resumeHeight
  rw [get_bind_apply]
  rcases h.scanned with ⟨hnil, hnone⟩ | ⟨i, stored, hlength, hget, hsome⟩
  · refine Or.inr ⟨chain, hashes, ?_, ?_, h, ?_⟩
    · rw [hnone]
      rfl
    · rw [hnone, nextHeight, hnone]
    · intro i hash hlength
      rw [hnil] at hlength
      cases hlength
  · rw [hsome]
    dsimp only
    rw [lift_bind_apply]
    cases hhash : node.blockHash (chain.startHeight + UInt64.ofNat i) with
    | error e =>
        exact Or.inl ⟨rfl, e, rfl⟩
    | ok text =>
        obtain rfl := hnode.hash _ _ hhash
        dsimp only
        rw [lift_bind_apply, hashFromRpc_hashToRpc]
        dsimp only
        by_cases hsame : best (chain.startHeight + UInt64.ofNat i) = stored
        · refine Or.inr ⟨chain, hashes, ?_, ?_, h, ?_⟩
          · rw [if_neg (not_not.mpr hsame)]
            rfl
          · rw [if_pos hsame, nextHeight, hsome]
          · intro i' hash hlength' hget'
            obtain rfl : i' = i := by
              omega
            rw [hget] at hget'
            rw [← Option.some.inj hget', hsame]
        · refine Or.inr ⟨{ chain with scanned := none, entries := [] }, [], ?_, ?_, ?_, ?_⟩
          · rw [if_pos hsame]
            rfl
          · rw [if_neg hsame, nextHeight]
          · exact (opened_scannedBlocks chain.startHeight chain.tip).of_eq rfl rfl rfl
          · intro i' hash hlength'
            cases hlength'

/-- A refresh of a coherent index keeps it so unless a block is refused late. -/
theorem ScannedBlocks.refresh_iff
    (hnode : node.Shows sha256 tree best)
    (h : chain.ScannedBlocks sha256 tree hashes) :
    (final (refresh sha256 node) chain).Coherent sha256 tree ↔
      node.refreshFailsLate sha256 chain = false := by
  unfold NodeView.refreshFailsLate
  cases htip : node.blockCount with
  | error e =>
      unfold final refresh
      rw [lift_bind_apply, htip]
      exact iff_of_true ⟨hashes, h⟩ rfl
  | ok tip =>
      have hbelow := hnode.tip tip htip
      have htipped : ScannedBlocks sha256 tree { chain with tip := tip } hashes :=
        h.of_eq rfl rfl rfl
      have hresume : node.resumeHeight { chain with tip := tip } = node.resumeHeight chain :=
        rfl
      have hstep : refresh sha256 node chain =
          (dropStale node >>= fun _ => (get : Call RpcError _ _) >>= fun chain =>
            scanBlocks sha256 node (if chain.nextHeight ≤ tip then
              (tip - chain.nextHeight).toNat + 1 else 0) chain.nextHeight >>= fun _ =>
            modify (fun chain : BitcoinAnchorChain => { chain with
              mempool := chain.mempool.filter
                (fun m => !chain.entries.any (fun e => e.txid == m.txid)) }))
            { chain with tip := tip } := by
        unfold refresh
        rw [lift_bind_apply, htip]
        rfl
      rcases dropStale_resumes hnode htipped with
        ⟨hnone, e, hdrop⟩ | ⟨chain', hashes', hdrop, hsome, h', hmeets⟩
      · rw [← hresume, hnone]
        unfold final
        rw [hstep, bind_apply, hdrop]
        exact iff_of_true ⟨hashes, htipped⟩ rfl
      · rw [← hresume, hsome]
        have hfits := h'.fits
        have hnext := congrArg UInt64.toNat h'.nextHeight_eq
        rw [UInt64.toNat_add, UInt64.toNat_ofNat'] at hnext
        have hscan := scanBlocks_coherent_iff hnode htip
          (if chain'.nextHeight ≤ tip then (tip - chain'.nextHeight).toNat + 1 else 0) h' hmeets
          (by
            split_ifs with hle
            · left
              rw [UInt64.toNat_sub_of_le _ _ hle]
              rw [UInt64.le_iff_toNat_le] at hle
              omega
            · exact Or.inr rfl)
        dsimp only
        rw [← hscan]
        unfold final
        rw [hstep, bind_apply, hdrop]
        dsimp only
        rw [get_bind_apply, bind_apply]
        cases scanBlocks sha256 node (if chain'.nextHeight ≤ tip then
            (tip - chain'.nextHeight).toNat + 1 else 0) chain'.nextHeight chain' with
        | error e chain'' => rfl
        | ok u chain'' => exact coherent_congr rfl rfl rfl

/--
In every run whose refreshes refuse no block after one of its anchors the index stays
coherent, and the next refresh keeps it so if and only if it does not either.
-/
theorem refresh_coherent_iff
    (hreach : ((nodeSystem sha256 tree).restrict
      (fun chain node => node.refreshFailsLate sha256 chain = false)).Reachable chain)
    (hnode : node.Shows sha256 tree best) :
    chain.Coherent sha256 tree ∧
      chain.entries.Pairwise (fun a b => a.location.key < b.location.key) ∧
      ((final (refresh sha256 node) chain).Coherent sha256 tree ↔
        node.refreshFailsLate sha256 chain = false) := by
  have hcoherent : chain.Coherent sha256 tree := by
    refine @System.Reachable.invariant _ _ _
      (fun chain => chain.Coherent sha256 tree) ?_ ?_ chain hreach
    · rintro _ ⟨start, tip, rfl⟩
      exact ⟨[], opened_scannedBlocks start tip⟩
    · rintro chain node _ ⟨hashes, h⟩ ⟨⟨⟨best, hnode⟩, rfl⟩, hclean⟩
      exact (h.refresh_iff hnode).mpr hclean
  obtain ⟨hashes, h⟩ := hcoherent
  exact ⟨⟨hashes, h⟩, Coherent.sorted ⟨hashes, h⟩, h.refresh_iff hnode⟩

end Refreshing

namespace RetrySample

open Sample (soloFunding blockOf)

/-- A transaction with this output script. -/
def txOf (script : List UInt8) : Transaction where
  version := 2
  inputs := [⟨soloFunding, [], 0xfffffffd⟩]
  outputs := [⟨330, script⟩]
  lockTime := 0
  witnesses := [[]]

def anchorTx : Transaction := txOf (anchorScript (Bytes.zero 64))

/-- A block with an anchor, and another transaction after it. -/
def block : Block := blockOf [anchorTx, txOf [0x51]] (by decide)

def hashAt (height : UInt64) : Bytes 32 := List.Vector.replicate 32 height.toUInt8

/-- A chain of one block on top of another. -/
def tree : NodeTree where
  parent := fun _ => hashAt 0
  block := fun _ => block

/-- A node that answers this for the block. -/
def node (txs : List Json) : NodeView where
  blockCount := .ok 1
  blockHash := fun height => .ok (hashToRpc (hashAt height))
  block := fun _ => .ok (.obj [("tx", .arr txs)])

/-- The second transaction of the block comes without its id. -/
def brokenTxs : List Json := [anchorTx.toRpc Sha2.sha256, .obj []]

def wholeTxs : List Json := block.txs.map (Transaction.toRpc Sha2.sha256)

theorem node_shows
    {txs : List Json}
    (h : List.Forall₂ (RendersOrRefused Sha2.sha256) block.txs txs) :
    (node txs).Shows Sha2.sha256 tree hashAt where
  tip := by
    intro tip htip
    obtain rfl := Except.ok.inj htip
    decide
  hash := by
    intro height text htext
    exact (Except.ok.inj htext).symm
  linked := by
    intro tip htip height hlt
    obtain rfl := Except.ok.inj htip
    have hlt' : height.toNat < 1 := UInt64.lt_iff_toNat_lt.mp hlt
    obtain rfl : height = 0 := by
      refine UInt64.toNat_inj.mp ?_
      show height.toNat = 0
      omega
    rfl
  block := by
    intro blockHash j hj txs' htxs'
    obtain rfl := Except.ok.inj hj
    obtain rfl := Option.some.inj htxs'
    exact h

theorem whole_renders :
    List.Forall₂ (RendersTx Sha2.sha256) block.txs wholeTxs := by
  obtain ⟨txs, htxs, h⟩ := rendersBlock_toRpc Sha2.sha256 block
  obtain rfl := Option.some.inj htxs
  exact h

theorem broken_renders :
    List.Forall₂ (RendersOrRefused Sha2.sha256) block.txs brokenTxs := by
  have hfirst := (List.forall₂_cons.mp whole_renders).1
  exact List.Forall₂.cons (Or.inl hfirst)
    (List.Forall₂.cons (Or.inr ⟨_, rfl⟩) List.Forall₂.nil)

theorem whole_shows :
    (node wholeTxs).Shows Sha2.sha256 tree hashAt :=
  node_shows (whole_renders.imp (fun _ _ h => Or.inl h))

/-- A refresh against a node that decodes its block. -/
theorem whole_coherent :
    (final (refresh Sha2.sha256 (node wholeTxs)) (opened 1 0)).Coherent Sha2.sha256 tree := by
  refine (refresh_coherent_iff (System.Reachable.init ⟨1, 0, rfl⟩) whole_shows).2.2.mpr ?_
  decide +kernel

/-- The index after the refusal. -/
def broken : BitcoinAnchorChain :=
  final (refresh Sha2.sha256 (node brokenTxs)) (opened 1 0)

/-- The index after the next refresh, which succeeds. -/
def retried : BitcoinAnchorChain :=
  final (refresh Sha2.sha256 (node wholeTxs)) broken

/-- The refused block leaves an entry, and the retry adds it once more. -/
theorem retry_duplicates :
    (node brokenTxs).Shows Sha2.sha256 tree hashAt ∧
      (node wholeTxs).Shows Sha2.sha256 tree hashAt ∧
      ¬ broken.Coherent Sha2.sha256 tree ∧
      answer (refresh Sha2.sha256 (node wholeTxs)) broken = .ok () ∧
      ¬ retried.Coherent Sha2.sha256 tree ∧
      retried.entries.map Entry.location = [⟨1, 0⟩, ⟨1, 0⟩] := by
  have hbroken : broken.entries.map Entry.location = [⟨1, 0⟩] ∧ broken.nextHeight = 1 := by
    decide +kernel
  have hretried : answer (refresh Sha2.sha256 (node wholeTxs)) broken = .ok () ∧
      retried.entries.map Entry.location = [⟨1, 0⟩, ⟨1, 0⟩] := by
    decide +kernel
  refine ⟨node_shows broken_renders, whole_shows, ?_, hretried.1, ?_, hretried.2⟩
  · rintro ⟨hashes, h⟩
    obtain ⟨entry, hentry, hlocation⟩ : ∃ entry ∈ broken.entries, entry.location = ⟨1, 0⟩ := by
      refine List.mem_map.mp ?_
      rw [hbroken.1]
      exact List.mem_singleton_self _
    have hlt := h.height_lt hentry
    rw [hlocation, hbroken.2] at hlt
    exact lt_irrefl _ hlt
  · intro h
    have hsorted := List.pairwise_map.mpr h.sorted
    have hkeys : retried.entries.map (fun e => e.location.key) =
        (retried.entries.map Entry.location).map AnchorLocation.key := by
      rw [List.map_map]
      rfl
    rw [hkeys, hretried.2] at hsorted
    revert hsorted
    decide

end RetrySample

end BitcoinAnchorChain

end OpenCsv
