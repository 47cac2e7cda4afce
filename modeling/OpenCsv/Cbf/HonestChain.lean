import OpenCsv.Cbf.FilterAgreement
import OpenCsv.Cbf.GcsCodec
import OpenCsv.Cbf.Outpoint

/-!
# Honest chains and their filters

In an honest chain each transaction id stands once, a block begins with its coinbase, and
any other input spends an output of a transaction that comes before.  The basic filter of a
block is built from the scripts of its outputs, but for empty ones and data, and from the
scripts that its inputs spend.

**Results.**
* `HonestChain.unique`: a transaction id stands at one height, for one transaction.
* `HonestChain.created_before`: what is spent was created before.
* `mem_filterElements_spent`: the scripts that inputs spend are elements of the filter.
-/

namespace OpenCsv

section Chains

variable (sha256 : Sha256)

/-- The transactions of a chain, in order. -/
def chainTxs (blocks : List Block) : List Transaction :=
  blocks.flatMap Block.txs

/-- The output that an outpoint names among some transactions. -/
def outputOf (txs : List Transaction) (outpoint : OutPoint) : Option TxOut :=
  (txs.find? (fun tx => tx.txid sha256 = outpoint.txid)).bind
    (fun tx => tx.outputs[outpoint.vout.toNat]?)

/-- The script that an input spends. -/
def spentScript (txs : List Transaction) (input : TxIn) : List UInt8 :=
  ((outputOf sha256 txs input.prev).map TxOut.scriptPubkey).getD []

/-- The scripts that the inputs of a block spend, without its coinbase. -/
def prevoutScripts (blocks : List Block) (block : Block) : List (List UInt8) :=
  block.txs.tail.flatMap (fun tx => tx.inputs.map (spentScript sha256 (chainTxs blocks)))

/-- A chain by the rules on transactions that the scan of an outpoint rests on. -/
structure HonestChain (blocks : List Block) : Prop where
  distinct : ((chainTxs blocks).map (Transaction.txid sha256)).Nodup
  coinbase : ∀ block ∈ blocks, ∃ coinbase rest, block.txs = coinbase :: rest ∧
    coinbase.isCoinbase = true
  spends : ∀ (height index : ℕ) (block : Block) (tx : Transaction), blocks[height]? = some block →
    block.txs[index + 1]? = some tx → ∀ input ∈ tx.inputs,
      (outputOf sha256 (chainTxs (blocks.take height) ++ block.txs.take (index + 1))
        input.prev).isSome = true

/-- The exact basic filter of a block; a block of the size allowed has fewer elements. -/
structure ExactFilter (profile : Profile) (blocks : List Block) (block : Block)
    (serialized : List UInt8) : Prop where
  encoded : ∃ elements, block.basicFilterElements (prevoutScripts sha256 blocks block) =
      .ok elements ∧ elements.length < 2 ^ 31 ∧
    GcsFilter.encode profile elements (filterKey (block.header.hash sha256)) = .ok serialized

/-- The output was created at a height from `birth` on and is not spent from there on. -/
def CreatedUnspent (expected : ExpectedOutput) (blocks : List Block) (birth : ℕ) : Prop :=
  ∃ created, birth ≤ created ∧
    (∃ block, blocks[created]? = some block ∧ ∃ tx ∈ block.txs,
      tx.txid sha256 = expected.outpoint.txid ∧ tx.hasOutput expected = true) ∧
    ∀ (height : ℕ) (block : Block), created ≤ height → blocks[height]? = some block →
      ∀ tx ∈ block.txs, tx.spends expected = false

end Chains

/-- A script that basic filters contain: neither empty nor data. -/
def Filterable (script : List UInt8) : Prop :=
  script ≠ [] ∧ script.head? ≠ some 0x6a

instance (script : List UInt8) : Decidable (Filterable script) :=
  inferInstanceAs (Decidable (_ ∧ _))

section Elements

variable {sha256 : Sha256}

theorem mem_filterOutputs
    {tx : Transaction}
    {output : TxOut}
    (houtput : output ∈ tx.outputs)
    (hscript : Filterable output.scriptPubkey) :
    output.scriptPubkey ∈ tx.filterOutputs := by
  refine List.mem_filter.mpr ⟨List.mem_map.mpr ⟨output, houtput, rfl⟩, ?_⟩
  obtain ⟨hne, hdata⟩ := hscript
  simp [hne, hdata]

/-- The scripts that inputs spend are elements, unless they are empty. -/
theorem mem_filterElements_spent
    {script : TxIn → List UInt8}
    {txs : List Transaction}
    {index : ℕ}
    (hindex : index ≠ 0)
    {elements : List (List UInt8)}
    (h : filterElements (txs.zipIdx index) (txs.flatMap (fun tx => tx.inputs.map script)) =
      .ok elements)
    {tx : Transaction}
    (htx : tx ∈ txs)
    {input : TxIn}
    (hinput : input ∈ tx.inputs)
    (hne : script input ≠ []) :
    script input ∈ elements := by
  induction txs generalizing index elements with
  | nil =>
      cases htx
  | cons first txs ih =>
      have hcount : (first.inputs.map script).length = first.inputs.length := List.length_map ..
      have htake : ((first :: txs).flatMap (fun tx => tx.inputs.map script)).take
          first.inputs.length = first.inputs.map script := by
        rw [List.flatMap_cons, ← hcount, List.take_left]
      have hdrop : ((first :: txs).flatMap (fun tx => tx.inputs.map script)).drop
          first.inputs.length = txs.flatMap (fun tx => tx.inputs.map script) := by
        rw [List.flatMap_cons, ← hcount, List.drop_left]
      rw [List.zipIdx_cons, filterElements, if_neg hindex] at h
      split at h
      · cases h
      · rw [htake, hdrop] at h
        obtain ⟨rest, hrest, hout⟩ := except_bind_eq_ok_iff.mp h
        obtain rfl := Except.ok.inj hout
        rcases List.mem_cons.mp htx with rfl | htx
        · refine List.mem_append_right _ (List.mem_append_left _ (List.mem_filter.mpr ⟨?_, ?_⟩))
          · exact List.mem_map_of_mem hinput
          · simpa using hne
        · exact List.mem_append_right _ (List.mem_append_right _
            (ih (Nat.succ_ne_zero index) hrest htx))

end Elements

namespace HonestChain

variable {sha256 : Sha256}
variable {blocks : List Block}
variable {expected : ExpectedOutput}

/-- A transaction id stands at one height, for one transaction. -/
theorem unique
    (h : HonestChain sha256 blocks)
    {height height' : ℕ}
    {block block' : Block}
    {tx tx' : Transaction}
    (hblock : blocks[height]? = some block)
    (hblock' : blocks[height']? = some block')
    (htx : tx ∈ block.txs)
    (htx' : tx' ∈ block'.txs)
    (heq : tx.txid sha256 = tx'.txid sha256) :
    height = height' ∧ tx = tx' := by
  have hdistinct := h.distinct
  have hmem : tx ∈ chainTxs blocks :=
    List.mem_flatMap.mpr ⟨block, List.mem_of_getElem? hblock, htx⟩
  have hmem' : tx' ∈ chainTxs blocks :=
    List.mem_flatMap.mpr ⟨block', List.mem_of_getElem? hblock', htx'⟩
  refine ⟨?_, List.inj_on_of_nodup_map hdistinct hmem hmem' heq⟩
  rw [chainTxs, List.map_flatMap, List.nodup_flatMap, List.pairwise_iff_getElem] at hdistinct
  obtain ⟨hlt, rfl⟩ := List.getElem?_eq_some_iff.mp hblock
  obtain ⟨hlt', rfl⟩ := List.getElem?_eq_some_iff.mp hblock'
  have hid := List.mem_map_of_mem (f := Transaction.txid sha256) htx
  have hid' := List.mem_map_of_mem (f := Transaction.txid sha256) htx'
  rw [← heq] at hid'
  by_contra hne
  rcases Nat.lt_or_gt_of_ne hne with hless | hgreater
  · exact hdistinct.2 height height' hlt hlt' hless hid hid'
  · exact hdistinct.2 height' height hlt' hlt hgreater hid' hid

/-- The output of a transaction is what its outpoint names. -/
theorem outputOf_eq
    (h : HonestChain sha256 blocks)
    {tx : Transaction}
    (htx : tx ∈ chainTxs blocks)
    {outpoint : OutPoint}
    (hid : tx.txid sha256 = outpoint.txid) :
    outputOf sha256 (chainTxs blocks) outpoint = tx.outputs[outpoint.vout.toNat]? := by
  have hsome : ((chainTxs blocks).find? (fun tx => tx.txid sha256 = outpoint.txid)).isSome =
      true :=
    List.find?_isSome.mpr ⟨tx, htx, decide_eq_true hid⟩
  obtain ⟨found, hfound⟩ := Option.isSome_iff_exists.mp hsome
  have hfoundId : found.txid sha256 = outpoint.txid := by
    simpa using List.find?_some hfound
  have hsame : found = tx :=
    List.inj_on_of_nodup_map h.distinct (List.mem_of_find?_eq_some hfound) htx
      (hfoundId.trans hid.symm)
  rw [outputOf, hfound, hsame]
  rfl

/-- A coinbase spends the outpoint that no output has. -/
theorem spends_of_coinbase
    {tx : Transaction}
    (h : tx.isCoinbase = true) :
    tx.spends expected = true ↔ expected.outpoint = ⟨Bytes.zero 32, 0xffffffff⟩ := by
  rw [Transaction.isCoinbase] at h
  split at h
  · rename_i input hinputs
    rw [Bool.and_eq_true, beq_iff_eq, beq_iff_eq] at h
    have hprev : input.prev = ⟨Bytes.zero 32, 0xffffffff⟩ := by
      obtain ⟨htxid, hvout⟩ := h
      rw [← htxid, ← hvout]
    simp only [Transaction.spends, hinputs, List.any_cons, List.any_nil, Bool.or_false,
      decide_eq_true_eq, hprev]
    exact eq_comm
  · cases h

/-- If a coinbase spends the outpoint, the coinbase of every block does. -/
theorem coinbase_spends
    (h : HonestChain sha256 blocks)
    {tx : Transaction}
    (hcoin : tx.isCoinbase = true)
    (hspends : tx.spends expected = true)
    {block : Block}
    (hblock : block ∈ blocks) :
    ∃ tx' ∈ block.txs, tx'.spends expected = true := by
  obtain ⟨coinbase, rest, htxs, hcoinbase⟩ := h.coinbase block hblock
  refine ⟨coinbase, ?_, ?_⟩
  · rw [htxs]
    exact List.mem_cons_self
  · exact (spends_of_coinbase hcoinbase).mpr ((spends_of_coinbase hcoin).mp hspends)

/-- A transaction of a block is its coinbase or comes after it. -/
theorem coinbase_or_mem_tail
    (h : HonestChain sha256 blocks)
    {block : Block}
    (hblock : block ∈ blocks)
    {tx : Transaction}
    (htx : tx ∈ block.txs) :
    tx.isCoinbase = true ∨ tx ∈ block.txs.tail := by
  obtain ⟨coinbase, rest, htxs, hcoinbase⟩ := h.coinbase block hblock
  rw [htxs] at htx ⊢
  rcases List.mem_cons.mp htx with rfl | hmem
  · exact Or.inl hcoinbase
  · exact Or.inr hmem

/-- What is spent was created before. -/
theorem created_before
    (h : HonestChain sha256 blocks)
    {height : ℕ}
    {block : Block}
    (hblock : blocks[height]? = some block)
    {tx : Transaction}
    (htx : tx ∈ block.txs.tail)
    (hspends : tx.spends expected = true) :
    ∃ earlier ≤ height, ∃ block', blocks[earlier]? = some block' ∧
      ∃ tx' ∈ block'.txs, tx'.txid sha256 = expected.outpoint.txid := by
  obtain ⟨index, hindex⟩ := List.mem_iff_getElem?.mp htx
  rw [List.getElem?_tail] at hindex
  obtain ⟨input, hinput, hprev⟩ := List.any_eq_true.mp hspends
  have hsome := h.spends height index block tx hblock hindex input hinput
  rw [of_decide_eq_true hprev, outputOf] at hsome
  obtain ⟨tx', hfind⟩ : ∃ tx', (chainTxs (blocks.take height) ++ block.txs.take (index + 1)).find?
      (fun tx => tx.txid sha256 = expected.outpoint.txid) = some tx' := by
    by_contra hnone
    rw [Option.eq_none_iff_forall_ne_some.mpr (fun tx' hfind => hnone ⟨tx', hfind⟩)] at hsome
    cases hsome
  have hid : tx'.txid sha256 = expected.outpoint.txid := by
    simpa using List.find?_some hfind
  rcases List.mem_append.mp (List.mem_of_find?_eq_some hfind) with hmem | hmem
  · obtain ⟨block', hblock', htx'⟩ := List.mem_flatMap.mp hmem
    obtain ⟨earlier, hearlier⟩ := List.mem_iff_getElem?.mp hblock'
    rw [List.getElem?_take] at hearlier
    split at hearlier
    · rename_i hlt
      exact ⟨earlier, hlt.le, block', hearlier, tx', htx', hid⟩
    · cases hearlier
  · exact ⟨height, le_rfl, block, hblock, tx', List.mem_of_mem_take hmem, hid⟩

/-- Blocks with only a coinbase each make an honest chain. -/
theorem of_coinbases
    (hdistinct : ((chainTxs blocks).map (Transaction.txid sha256)).Nodup)
    (hcoinbases : ∀ block ∈ blocks, ∃ coinbase, block.txs = [coinbase] ∧
      coinbase.isCoinbase = true) :
    HonestChain sha256 blocks := by
  refine ⟨hdistinct, ?_, ?_⟩
  · intro block hblock
    obtain ⟨coinbase, htxs, hcoinbase⟩ := hcoinbases block hblock
    exact ⟨coinbase, [], htxs, hcoinbase⟩
  · intro height index block tx hblock htx
    obtain ⟨coinbase, htxs, -⟩ := hcoinbases block (List.mem_of_getElem? hblock)
    rw [htxs] at htx
    cases htx

end HonestChain

end OpenCsv
