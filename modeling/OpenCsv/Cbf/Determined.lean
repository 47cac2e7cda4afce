import OpenCsv.Cbf.Verified
import OpenCsv.Ffi.ScanExport

/-!
# What a header determines of the anchors in its block

The accepted blocks of one header have the same transactions up to their witnesses and
up to repetitions of the last ones.  The anchor of a transaction that is not a batch lies
outside the witness; the payloads of a batch lie in it.

**Results.** `anchorsInBlock_eq_iff`: two accepted blocks have the same anchors if and
only if their batches decode to the same envelopes and nothing that only one of them has
carries an anchor.
-/

namespace OpenCsv

section Acceptance

variable (sha256 : Sha256)

/-- The 80 bytes of a header. -/
def BlockHeader.serialize (header : BlockHeader) : List UInt8 :=
  leBytes 4 header.version.toUInt32.toNat ++ header.prevBlock.toList ++
    header.merkleRoot.toList ++ leBytes 4 header.time.toNat ++
    leBytes 4 header.bits.toNat ++ leBytes 4 header.nonce.toNat

def BlockHeader.hash (header : BlockHeader) : Bytes 32 :=
  sha256.double header.serialize

/-- The bytes are taken as the block with this hash. -/
structure Block.AcceptedFor (blockHash : Bytes 32) (bytes : List UInt8) (block : Block) :
    Prop where
  parsed : Block.parse bytes = .ok block
  hashed : block.header.hash sha256 = blockHash
  verified : block.MerkleVerified sha256

/-- Every message hashed to accept a block. -/
def Block.hashedMessages (block : Block) : List (List UInt8) :=
  block.header.serialize :: block.txs.map Transaction.serializeLegacy ++
    block.merkleMessages sha256

end Acceptance

section Anchors

variable {sha256 : Sha256}

/-- The record a transaction carries, if it carries one. -/
def Transaction.anchorRecord (tx : Transaction) : Option AnchorRecord :=
  if tx.isCoinbase || tx.inputs.isEmpty then
    none
  else
    (tx.outputs.findSome? (fun output => opReturnPayload output.scriptPubkey)).map
      AnchorRecord.fromBytes

/-- The envelope of a batch transaction. -/
def Transaction.batchEnvelope (tx : Transaction) :
    Option (BatchVersion × List TruncatedDigest) :=
  match tx.anchorRecord with
  | some (.batchHeader ..) => tx.witnesses.head?.bind witnessEnvelopeDecode
  | _ => none

/-- The anchor of a transaction is in its record and its envelope. -/
theorem anchorOfTx_eq
    (height : UInt64)
    (position : ℕ)
    (tx : Transaction) :
    anchorOfTx sha256 height position tx =
      tx.anchorRecord.map (fun record =>
        { location := ⟨height, UInt32.ofNat position⟩
          txid := tx.txid sha256
          record := record
          ctx := fundingCtx sha256 ((tx.inputs.head?.map TxIn.prev).getD ⟨Bytes.zero 32, 0⟩)
          batch := tx.batchEnvelope }) := by
  unfold anchorOfTx Transaction.batchEnvelope Transaction.anchorRecord
  cases hcoinbase : tx.isCoinbase with
  | true =>
      simp
  | false =>
      cases hinputs : tx.inputs with
      | nil =>
          simp
      | cons funding rest =>
          cases tx.outputs.findSome? (fun output => opReturnPayload output.scriptPubkey) with
          | none =>
              simp
          | some payload =>
              simp only [Bool.false_eq_true, if_false, List.isEmpty_cons, Bool.or_false,
                Option.map_some, List.head?_cons, Option.getD_some]
              cases AnchorRecord.fromBytes payload <;> rfl

theorem anchorOfTx_eq_none_iff
    {height : UInt64}
    {position : ℕ}
    {tx : Transaction} :
    anchorOfTx sha256 height position tx = none ↔ tx.anchorRecord = none := by
  rw [anchorOfTx_eq, Option.map_eq_none_iff]

/-- Transactions that differ in the witness only have the same anchor if their envelopes agree. -/
theorem anchorOfTx_eq_iff
    {height : UInt64}
    {position : ℕ}
    {tx tx' : Transaction}
    (h : tx.stripped = tx'.stripped) :
    anchorOfTx sha256 height position tx = anchorOfTx sha256 height position tx' ↔
      tx.batchEnvelope = tx'.batchEnvelope := by
  have hrecord : tx.anchorRecord = tx'.anchorRecord := by
    show tx.stripped.anchorRecord = tx'.stripped.anchorRecord
    rw [h]
  have htxid : tx.txid sha256 = tx'.txid sha256 := by
    show tx.stripped.txid sha256 = tx'.stripped.txid sha256
    rw [h]
  have hinputs : tx.inputs = tx'.inputs := by
    show tx.stripped.inputs = tx'.stripped.inputs
    rw [h]
  rw [anchorOfTx_eq, anchorOfTx_eq, hrecord, htxid, hinputs]
  cases hsome : tx'.anchorRecord with
  | none =>
      refine iff_of_true rfl ?_
      rw [Transaction.batchEnvelope, Transaction.batchEnvelope, hrecord, hsome]
  | some record =>
      simp

/-- A transaction of 64 bytes has no room for an anchor. -/
theorem Transaction.anchorRecord_eq_none_of_length
    {tx : Transaction}
    (h : tx.serializeLegacy.length ≤ 64) :
    tx.anchorRecord = none := by
  by_contra hsome
  obtain ⟨record, hrecord⟩ := Option.ne_none_iff_exists'.mp hsome
  unfold anchorRecord at hrecord
  split_ifs at hrecord
  obtain ⟨payload, hfind, -⟩ := Option.map_eq_some_iff.mp hrecord
  obtain ⟨output, houtput, hpayload⟩ := List.exists_of_findSome?_eq_some hfind
  have hscript : 66 ≤ output.scriptPubkey.length := by
    have hlength := payload.toList_length
    unfold opReturnPayload at hpayload
    split at hpayload
    · obtain rfl := Bytes.tryFrom_eq_some_iff.mp hpayload
      simp [*]
    · obtain rfl := Bytes.tryFrom_eq_some_iff.mp hpayload
      simp [*]
    · obtain rfl := Bytes.tryFrom_eq_some_iff.mp hpayload
      simp [*]
    · cases hpayload
  have hserialized : output.scriptPubkey.length ≤ output.serialize.length := by
    simp [TxOut.serialize, writeVarbytes]
    omega
  have hflat : output.serialize.length ≤ (tx.outputs.flatMap TxOut.serialize).length := by
    obtain ⟨before, after, hsplit⟩ := List.append_of_mem houtput
    rw [hsplit, List.flatMap_append, List.flatMap_cons]
    simp only [List.length_append]
    omega
  have htotal : (tx.outputs.flatMap TxOut.serialize).length ≤ tx.serializeLegacy.length := by
    simp only [serializeLegacy, List.length_append]
    omega
  omega

end Anchors

section Determination

variable {sha256 : Sha256}
variable {blockHash : Bytes 32}
variable {bytes bytes' : List UInt8}
variable {block block' : Block}

/-- No transaction of the block carries an anchor. -/
def Block.Unanchored (block : Block) : Prop :=
  ∀ tx ∈ block.txs, tx.anchorRecord = none

/-- Two readings of a transaction carry the same envelope; a transaction alone has no anchor. -/
def EnvelopesAgree : Option Transaction → Option Transaction → Prop
  | some tx, some tx' => tx.batchEnvelope = tx'.batchEnvelope
  | some tx, none => tx.anchorRecord = none
  | none, some tx => tx.anchorRecord = none
  | none, none => True

/--
Neither block has an anchor, or their trees are of one height, batches at the same place
decode to the same envelope, and transactions that only one of them has carry no anchor.
-/
def SameEnvelopes (sha256 : Sha256) (block block' : Block) : Prop :=
  (block.Unanchored ∧ block'.Unanchored) ∨
    (Merkle.height (block.txids sha256) = Merkle.height (block'.txids sha256) ∧
      ∀ i : ℕ, EnvelopesAgree block.txs[i]? block'.txs[i]?)

/-- The candidates of a block are those of its anchor transactions and no others. -/
theorem anchorsInBlock_eq_iff_anchorTxs
    {height : UInt64} :
    anchorsInBlock sha256 block height = anchorsInBlock sha256 block' height ↔
      anchorTxs sha256 block height = anchorTxs sha256 block' height := by
  constructor
  · intro heq
    have hback : ∀ b : Block, (firstOfEach ScannedAnchor.location []
        (anchorsInBlock sha256 b height)).map ScannedAnchor.anchorTx =
          anchorTxs sha256 b height := by
      intro b
      obtain ⟨hsorted, hmem⟩ := @anchorTxs_spec sha256 b height
      have hnodup : ((anchorTxs sha256 b height).map AnchorTx.location).Nodup := by
        rw [List.nodup_iff_pairwise_ne, List.pairwise_map]
        refine hsorted.imp ?_
        intro t t' hlt hsame
        rw [hsame] at hlt
        exact lt_irrefl _ hlt
      rw [anchorsInBlock, firstOfEach_flatMap (fun t ht => (hmem t ht).2.head?_candidates)
        (fun t _ e he => (AnchorTx.mem_candidates he).1) hnodup (by simp), List.map_map]
      refine (List.map_congr_left ?_).trans (List.map_id _)
      intro t ht
      exact AnchorTx.anchorTx_of_mem_candidates
        (List.mem_of_mem_head? (hmem t ht).2.head?_candidates)
    rw [← hback block, heq, hback block']
  · intro heq
    rw [anchorsInBlock, heq]
    rfl

/-- Blocks have the same anchors when they have the same anchor at each place. -/
theorem anchorTxs_eq_iff
    {height : UInt64} :
    anchorTxs sha256 block height = anchorTxs sha256 block' height ↔
      ∀ i : ℕ, block.txs[i]?.bind (anchorOfTx sha256 height i) =
        block'.txs[i]?.bind (anchorOfTx sha256 height i) := by
  have hposition : ∀ i tx t, block.txs[i]? = some tx ∨ block'.txs[i]? = some tx →
      anchorOfTx sha256 height i tx = some t → t.location.position.toNat = i := by
    intro i tx t hget hsome
    have hlt : i < maxBlockTxs := by
      rcases hget with hget | hget
      · exact lt_of_lt_of_le (List.getElem?_eq_some_iff.mp hget).1 block.txs_le
      · exact lt_of_lt_of_le (List.getElem?_eq_some_iff.mp hget).1 block'.txs_le
    rw [(anchorOfTx_spec hsome).1, UInt32.toNat_ofNat']
    rw [maxBlockTxs] at hlt
    omega
  exact filterMap_zipIdx_eq_iff hposition

theorem Block.Unanchored.anchorTxs_eq
    (h : block.Unanchored)
    (height : UInt64) :
    anchorTxs sha256 block height = [] := by
  rw [anchorTxs, List.filterMap_eq_nil_iff]
  rintro ⟨tx, i⟩ hmem
  exact anchorOfTx_eq_none_iff.mpr (h tx (List.mem_of_getElem? (List.mem_zipIdx_iff_getElem?.mp hmem)))

theorem unanchored_of_anchorTxs_eq_nil
    {height : UInt64}
    (h : anchorTxs sha256 block height = []) :
    block.Unanchored := by
  intro tx htx
  obtain ⟨i, hi⟩ := List.getElem?_of_mem htx
  rw [anchorTxs, List.filterMap_eq_nil_iff] at h
  exact anchorOfTx_eq_none_iff.mp (h (tx, i) (List.mem_zipIdx_iff_getElem?.mpr hi))

/-- Accepted blocks of one hash have one header. -/
theorem Block.AcceptedFor.header_eq
    (h : AcceptedFor sha256 blockHash bytes block)
    (h' : AcceptedFor sha256 blockHash bytes' block')
    (hfree : sha256.CollisionFree (block.hashedMessages sha256 ++ block'.hashedMessages sha256)) :
    block.header = block'.header := by
  have hserialized : block.header.serialize = block'.header.serialize := by
    refine hfree _ ?_ _ ?_ (h.hashed.trans h'.hashed.symm)
    · simp [hashedMessages]
    · simp [hashedMessages]
  generalize block.header = header at hserialized ⊢
  generalize block'.header = header' at hserialized ⊢
  obtain ⟨version, prevBlock, merkleRoot, time, bits, nonce⟩ := header
  obtain ⟨version', prevBlock', merkleRoot', time', bits', nonce'⟩ := header'
  simp only [BlockHeader.serialize, List.append_assoc] at hserialized
  obtain ⟨rfl, hprev⟩ := delimits_i32 _ _ trivial trivial _ _ hserialized
  obtain ⟨rfl, hroot⟩ := delimits_toList 32 _ _ trivial trivial _ _ hprev
  obtain ⟨rfl, htime⟩ := delimits_toList 32 _ _ trivial trivial _ _ hroot
  obtain ⟨rfl, hbits⟩ := delimits_u32 _ _ trivial trivial _ _ htime
  obtain ⟨rfl, hnonce⟩ := delimits_u32 _ _ trivial trivial _ _ hbits
  obtain rfl := delimits_u32.eq_of_enc_eq trivial trivial hnonce
  rfl

/-- Equal ids come from transactions that are equal up to the witness. -/
theorem Block.AcceptedFor.stripped_eq
    (h : AcceptedFor sha256 blockHash bytes block)
    (h' : AcceptedFor sha256 blockHash bytes' block')
    (hfree : sha256.CollisionFree (block.hashedMessages sha256 ++ block'.hashedMessages sha256))
    {tx tx' : Transaction}
    (htx : tx ∈ block.txs)
    (htx' : tx' ∈ block'.txs)
    (heq : tx.txid sha256 = tx'.txid sha256) :
    tx.stripped = tx'.stripped := by
  refine (Block.parse_sized h.parsed tx htx).stripped_eq (Block.parse_sized h'.parsed tx' htx') ?_
  refine hfree _ ?_ _ ?_ heq
  · simp only [hashedMessages, List.mem_append, List.mem_cons, List.mem_map]
    exact Or.inl (Or.inl (Or.inr ⟨tx, htx, rfl⟩))
  · simp only [hashedMessages, List.mem_append, List.mem_cons, List.mem_map]
    exact Or.inr (Or.inl (Or.inr ⟨tx', htx', rfl⟩))

/-- Under a root that another block needs more levels for, no transaction has an anchor. -/
theorem Block.AcceptedFor.unanchored_of_height_lt
    (h : AcceptedFor sha256 blockHash bytes block)
    (h' : AcceptedFor sha256 blockHash bytes' block')
    (hfree : sha256.CollisionFree (block.hashedMessages sha256 ++ block'.hashedMessages sha256))
    (hlt : Merkle.height (block.txids sha256) < Merkle.height (block'.txids sha256)) :
    block.Unanchored := by
  intro tx htx
  obtain ⟨k, hk⟩ := Nat.exists_eq_add_of_lt hlt
  have hheight : Merkle.height (block'.txids sha256) =
      k + 1 + Merkle.height (block.txids sha256) := by
    omega
  have hlevels' := h'.verified.levels_eq
  rw [← h.header_eq h' hfree, ← h.verified.levels_eq, hheight] at hlevels'
  have hnodes : Merkle.CollisionFree (merkleNode sha256)
      (Merkle.messages (merkleNode sha256) (Merkle.height (block.txids sha256))
          (block.txids sha256) ++
        Merkle.messages (merkleNode sha256) (k + 1 + Merkle.height (block.txids sha256))
          (block'.txids sha256)) := by
    refine Sha256.CollisionFree.nodes (hfree.mono ?_)
    intro x hx
    rw [← hheight, List.map_append] at hx
    rcases List.mem_append.mp hx with hx | hx
    · exact List.mem_append_left _ (List.mem_append_right _ hx)
    · exact List.mem_append_right _ (List.mem_append_right _ hx)
  obtain ⟨⟨left, right⟩, hp, heq⟩ := Merkle.mem_messages_of_root _ k hnodes hlevels'.symm
    (List.mem_map.mpr ⟨tx, htx, rfl⟩)
  -- The id is that of an inner node, so the transaction is its 64-byte message.
  have hmessage : left.toList ++ right.toList = tx.serializeLegacy := by
    refine hfree _ ?_ _ ?_ heq
    · refine List.mem_append_right _ (List.mem_append_right _ ?_)
      rw [merkleMessages, hheight]
      exact List.mem_map.mpr ⟨_, hp, rfl⟩
    · refine List.mem_append_left _ (List.mem_append_left _ (List.mem_cons_of_mem _ ?_))
      exact List.mem_map.mpr ⟨tx, htx, rfl⟩
  refine Transaction.anchorRecord_eq_none_of_length ?_
  rw [← hmessage]
  simp

/-- Under trees of one height, transactions at one place differ in the witness only. -/
theorem Block.AcceptedFor.stripped_eq_of_height_eq
    (h : AcceptedFor sha256 blockHash bytes block)
    (h' : AcceptedFor sha256 blockHash bytes' block')
    (hfree : sha256.CollisionFree (block.hashedMessages sha256 ++ block'.hashedMessages sha256))
    (hheight : Merkle.height (block.txids sha256) = Merkle.height (block'.txids sha256))
    {i : ℕ}
    {tx tx' : Transaction}
    (htx : block.txs[i]? = some tx)
    (htx' : block'.txs[i]? = some tx') :
    tx.stripped = tx'.stripped := by
  have hlevels' := h'.verified.levels_eq
  rw [← h.header_eq h' hfree, ← h.verified.levels_eq, ← hheight] at hlevels'
  have hnodes : Merkle.CollisionFree (merkleNode sha256)
      (Merkle.messages (merkleNode sha256) (Merkle.height (block.txids sha256))
          (block.txids sha256) ++
        Merkle.messages (merkleNode sha256) (Merkle.height (block.txids sha256))
          (block'.txids sha256)) := by
    refine Sha256.CollisionFree.nodes (hfree.mono ?_)
    intro x hx
    rw [List.map_append] at hx
    rcases List.mem_append.mp hx with hx | hx
    · exact List.mem_append_left _ (List.mem_append_right _ hx)
    · rw [hheight] at hx
      exact List.mem_append_right _ (List.mem_append_right _ hx)
  obtain ⟨hpre, -⟩ := Merkle.prefix_of_root _ hnodes hlevels'.symm
  have hid : (block.txids sha256)[i]? = some (tx.txid sha256) := by
    rw [txids, List.getElem?_map, htx]
    rfl
  have hid' : (block'.txids sha256)[i]? = some (tx'.txid sha256) := by
    rw [txids, List.getElem?_map, htx']
    rfl
  have hsame : tx.txid sha256 = tx'.txid sha256 := by
    rcases hpre with ⟨rest, hle⟩ | ⟨rest, hge⟩
    · rw [← hle, List.getElem?_append_left (List.getElem?_eq_some_iff.mp hid).1, hid] at hid'
      exact Option.some.inj hid'
    · rw [← hge, List.getElem?_append_left (List.getElem?_eq_some_iff.mp hid').1, hid'] at hid
      exact (Option.some.inj hid).symm
  exact h.stripped_eq h' hfree (List.mem_of_getElem? htx) (List.mem_of_getElem? htx') hsame

/--
Two accepted blocks of one hash have the same anchors at a height if and only if neither
has any, or their batches decode to the same envelopes and transactions that only one of
them has carry no anchor.
-/
theorem anchorsInBlock_eq_iff
    (h : Block.AcceptedFor sha256 blockHash bytes block)
    (h' : Block.AcceptedFor sha256 blockHash bytes' block')
    (hfree : sha256.CollisionFree (block.hashedMessages sha256 ++ block'.hashedMessages sha256))
    (height : UInt64) :
    anchorsInBlock sha256 block height = anchorsInBlock sha256 block' height ↔
      SameEnvelopes sha256 block block' := by
  have hfree' : sha256.CollisionFree
      (block'.hashedMessages sha256 ++ block.hashedMessages sha256) := by
    refine hfree.mono ?_
    intro x hx
    rw [List.mem_append] at hx ⊢
    exact hx.symm
  have hempty : anchorTxs sha256 block height = anchorTxs sha256 block' height →
      block.Unanchored ∨ block'.Unanchored → block.Unanchored ∧ block'.Unanchored := by
    rintro heq (hnone | hnone)
    · have hnil := @Block.Unanchored.anchorTxs_eq sha256 _ hnone height
      exact ⟨hnone, unanchored_of_anchorTxs_eq_nil (heq.symm.trans hnil)⟩
    · have hnil := @Block.Unanchored.anchorTxs_eq sha256 _ hnone height
      exact ⟨unanchored_of_anchorTxs_eq_nil (heq.trans hnil), hnone⟩
  rw [anchorsInBlock_eq_iff_anchorTxs]
  rcases lt_trichotomy (Merkle.height (block.txids sha256))
    (Merkle.height (block'.txids sha256)) with hlt | heq | hgt
  · have hnone := h.unanchored_of_height_lt h' hfree hlt
    constructor
    · intro hsame
      exact Or.inl (hempty hsame (Or.inl hnone))
    · rintro (⟨-, hnone'⟩ | ⟨heq, -⟩)
      · rw [hnone.anchorTxs_eq, hnone'.anchorTxs_eq]
      · omega
  · have hplace : ∀ i : ℕ, block.txs[i]?.bind (anchorOfTx sha256 height i) =
        block'.txs[i]?.bind (anchorOfTx sha256 height i) ↔
          EnvelopesAgree block.txs[i]? block'.txs[i]? := by
      intro i
      cases htx : block.txs[i]? with
      | none =>
          cases htx' : block'.txs[i]? with
          | none =>
              exact iff_of_true rfl trivial
          | some tx' =>
              rw [Option.bind_none, Option.bind_some, eq_comm, anchorOfTx_eq_none_iff]
              rfl
      | some tx =>
          cases htx' : block'.txs[i]? with
          | none =>
              rw [Option.bind_none, Option.bind_some, anchorOfTx_eq_none_iff]
              rfl
          | some tx' =>
              exact anchorOfTx_eq_iff (h.stripped_eq_of_height_eq h' hfree heq htx htx')
    rw [anchorTxs_eq_iff]
    simp only [hplace]
    constructor
    · intro hall
      exact Or.inr ⟨heq, hall⟩
    · rintro (⟨hnone, hnone'⟩ | ⟨-, hall⟩)
      · intro i
        rw [← hplace]
        exact anchorTxs_eq_iff.mp ((hnone.anchorTxs_eq height).trans
          (hnone'.anchorTxs_eq height).symm) i
      · exact hall
  · have hnone := h'.unanchored_of_height_lt h hfree' hgt
    constructor
    · intro hsame
      exact Or.inl (hempty hsame (Or.inr hnone))
    · rintro (⟨hnone', -⟩ | ⟨heq, -⟩)
      · rw [hnone.anchorTxs_eq, hnone'.anchorTxs_eq]
      · omega

end Determination

namespace StrippedSample

open ScanIndex.Sample (batchTx block)

/-- A transaction in the witness format. -/
def witnessBytes (tx : Transaction) : List UInt8 :=
  leBytes 4 tx.version.toUInt32.toNat ++ [0, 1] ++
    (writeVarint tx.inputs.length ++ tx.inputs.flatMap TxIn.serialize) ++
    (writeVarint tx.outputs.length ++ tx.outputs.flatMap TxOut.serialize) ++
    tx.witnesses.flatMap (fun stack =>
      writeVarint stack.length ++ stack.flatMap writeVarbytes) ++
    leBytes 4 tx.lockTime.toNat

/-- The block of one batch, as the miner sent it. -/
def honestBytes : List UInt8 :=
  block.header.serialize ++ [1] ++ witnessBytes batchTx

/-- The same block without the witness. -/
def strippedBytes : List UInt8 :=
  block.header.serialize ++ [1] ++ batchTx.serializeLegacy

def stripped : Block where
  header := block.header
  txs := [batchTx.stripped]
  txs_le := by decide

theorem honest_accepted :
    Block.AcceptedFor Sha2.sha256 (block.header.hash Sha2.sha256) honestBytes block where
  parsed := by decide +kernel
  hashed := rfl
  verified := rfl

theorem stripped_accepted :
    Block.AcceptedFor Sha2.sha256 (block.header.hash Sha2.sha256) strippedBytes stripped where
  parsed := by decide +kernel
  hashed := rfl
  verified := rfl

theorem messages_free :
    Sha256.CollisionFree Sha2.sha256
      (block.hashedMessages Sha2.sha256 ++ stripped.hashedMessages Sha2.sha256) := by
  decide +kernel

theorem stripped_anchors_ne :
    anchorsInBlock Sha2.sha256 block 1 ≠ anchorsInBlock Sha2.sha256 stripped 1 := by
  have hlength : (anchorsInBlock Sha2.sha256 block 1).length = 2 := by
    decide +kernel
  have hlength' : (anchorsInBlock Sha2.sha256 stripped 1).length = 1 := by
    decide +kernel
  intro heq
  rw [heq, hlength'] at hlength
  cases hlength

/-- The stripped batch has lost its envelope. -/
theorem stripped_envelope_lost :
    ¬ SameEnvelopes Sha2.sha256 block stripped := by
  intro hsame
  exact stripped_anchors_ne
    ((anchorsInBlock_eq_iff honest_accepted stripped_accepted messages_free 1).mpr hsame)

/-- Without its witness the block is accepted, and the spends of the batch are gone. -/
theorem stripped_batch_hidden :
    Block.AcceptedFor Sha2.sha256 (block.header.hash Sha2.sha256) honestBytes block ∧
      Block.AcceptedFor Sha2.sha256 (block.header.hash Sha2.sha256) strippedBytes stripped ∧
      Sha256.CollisionFree Sha2.sha256
        (block.hashedMessages Sha2.sha256 ++ stripped.hashedMessages Sha2.sha256) ∧
      anchorsInBlock Sha2.sha256 block 1 ≠ anchorsInBlock Sha2.sha256 stripped 1 :=
  ⟨honest_accepted, stripped_accepted, messages_free, stripped_anchors_ne⟩

end StrippedSample

end OpenCsv
