import OpenCsv.Bitcoin.BatchShares

/-!
# Legacy batch anchors

The transaction of a legacy batch: one funding output anybody can spend, whose witness is
the envelope and the script it hashes to, and three outputs.  The transaction is sized
from fixed lengths of its counts before it is built with its final change, and its id is
taken over the bytes that are left when the witness is cut out.

**Results.**
* `serializeBatchTx_eq`: the bytes are the witness encoding of the transaction.
* `batchTx_sized_iff`: sizes, fee and the bytes of the id are those of the transaction up
  to 250 payloads.  From 251 on the item count and the length of the script take three
  bytes each, and all of them are off.
-/

namespace OpenCsv
namespace BatchV1

section Scripts

/-- `OP_DROP` once more than payloads, and `OP_TRUE`. -/
def dropScript (payloadCount : ℕ) : List UInt8 :=
  List.replicate (payloadCount + 1) 0x75 ++ [0x51]

/-- The script of the funding output: `OP_0` and the hash of the witness script. -/
def batchFundingSpk (sha256 : Sha256) (payloadCount : ℕ) : Bytes 34 :=
  ⟨[0x00, 0x20] ++ (sha256 (dropScript payloadCount)).toList, by simp⟩

/-- The witness of the funding input: the magic, the payloads and the script. -/
def witnessItems (payloads : List TruncatedDigest) : List (List UInt8) :=
  witnessMagic :: payloads.map (fun payload => payload.bytes.toList) ++
    [dropScript payloads.length]

end Scripts

section Building

/-- `serialize_batch_tx`, field by field. -/
def serializeBatchTx
    (outpoint : OutPoint)
    (record : Bytes 64)
    (changeSats : UInt64)
    (changeSpk : Bytes 34)
    (witnessItems : List (List UInt8)) : List UInt8 :=
  leBytes 4 2 ++ [0x00, 0x01] ++
    writeVarint 1 ++ outpoint.txid.toList ++ leBytes 4 outpoint.vout.toNat ++ writeVarint 0 ++
      leBytes 4 0xffffffff ++
    writeVarint 3 ++
      leBytes 8 0 ++ writeVarbytes (0x6a :: 0x40 :: record.toList) ++
      leBytes 8 markerDustSats.toNat ++ writeVarbytes markerSpk ++
      leBytes 8 changeSats.toNat ++ writeVarbytes changeSpk.toList ++
    writeVarint witnessItems.length ++ witnessItems.flatMap writeVarbytes ++
    leBytes 4 0

/-- The witness region as it is counted: one byte for the count and for each length. -/
def witnessRegion (witnessItems : List (List UInt8)) : ℕ :=
  1 + (witnessItems.map (fun item => 1 + item.length)).sum

/-- `batch_tx_parts`: the bytes, and the sizes of the base and of the witness. -/
def batchTxParts
    (outpoint : OutPoint)
    (record : Bytes 64)
    (changeSats : UInt64)
    (changeSpk : Bytes 34)
    (witnessItems : List (List UInt8)) : List UInt8 × ℕ × ℕ :=
  let tx := serializeBatchTx outpoint record changeSats changeSpk witnessItems
  (tx, tx.length - 2 - witnessRegion witnessItems, witnessRegion witnessItems)

/-- The version, the body behind marker and flag, and the lock time. -/
def stripWitness (tx : List UInt8) (base : ℕ) : List UInt8 :=
  tx.take 4 ++ (tx.drop 6).take (base - 4 - 4) ++ tx.drop (tx.length - 4)

/-- The weight of a base and a witness size. -/
def weightOfParts (base witness : ℕ) : ℕ :=
  base * 3 + (base + 2 + witness)

/-- The fee, in release arithmetic. -/
def feeOfWeight (feeRate : UInt64) (weight : ℕ) : UInt64 :=
  feeRate * UInt64.ofNat ((weight + 3) / 4)

inductive BatchError where
  | config (message : Text)

/-- The funding output of a batch. -/
structure MarkerUtxo where
  txid : Bytes 32
  vout : UInt32
  sats : UInt64

/-- A batch transaction as it is handed to the node, with the bytes its id is taken over. -/
structure BatchAnchor where
  tx : List UInt8
  preimage : List UInt8
  fee : UInt64
  change : UInt64

/-- `anchor_batch` between the funding lookup and the node. -/
def anchorBatch
    (sponge : Sponge)
    (sha256 : Sha256)
    (findMarkerUtxo : Option MarkerUtxo)
    (feeRate : UInt64)
    (payloads : List TruncatedDigest) : Except BatchError BatchAnchor := do
  require (payloads ≠ [] ∧ payloads.length ≤ 255)
    (.config (Text.lit "a batch carries 1–255 payloads (got " ++
      Text.ofNat payloads.length ++ Text.lit ")"))
  let utxo ← okOr findMarkerUtxo
    (.config (Text.lit "no funding UTXO for this batch size; call marker_utxo_ctx first"))
  let outpoint : OutPoint := ⟨utxo.txid, utxo.vout⟩
  let ctx := fundingCtx sha256 outpoint
  let record := AnchorRecord.batchHeader (UInt8.ofNat payloads.length)
    (batchCommit sponge payloads ctx).toAnchor
  let items := witnessItems payloads
  let changeSpk := batchFundingSpk sha256 payloads.length
  -- sized with no change, then built with the fee taken out of it
  let (_, base, witness) := batchTxParts outpoint record.toBytes 0 changeSpk items
  let fee := feeOfWeight feeRate (weightOfParts base witness)
  let change ← okOr (checkedSub utxo.sats (markerDustSats + fee))
    (.config (Text.lit "OP_TRUE funding UTXO (" ++ Text.ofNat utxo.sats.toNat ++
      Text.lit " sats) cannot cover marker + fee (" ++ Text.ofNat fee.toNat ++
      Text.lit " sats); top it up"))
  require (markerDustSats ≤ change)
    (.config (Text.lit "OP_TRUE change would be dust (" ++ Text.ofNat change.toNat ++
      Text.lit " sats); top up the funding UTXO"))
  let (tx, _, _) := batchTxParts outpoint record.toBytes change changeSpk items
  return { tx, preimage := stripWitness tx base, fee, change }

end Building

section Layout

variable {outpoint : OutPoint}
variable {record : Bytes 64}
variable {changeSats : UInt64}
variable {changeSpk : Bytes 34}

/-- The transaction that is serialized. -/
def batchTransaction
    (outpoint : OutPoint)
    (record : Bytes 64)
    (changeSats : UInt64)
    (changeSpk : Bytes 34)
    (witnessItems : List (List UInt8)) : Transaction where
  version := 2
  inputs := [⟨outpoint, [], 0xffffffff⟩]
  outputs :=
    [ ⟨0, 0x6a :: 0x40 :: record.toList⟩, ⟨markerDustSats, markerSpk⟩,
      ⟨changeSats, changeSpk.toList⟩]
  lockTime := 0
  witnesses := [witnessItems]

/-- The inputs and outputs of a transaction on the wire. -/
def wireBody (tx : Transaction) : List UInt8 :=
  (writeVarint tx.inputs.length ++ tx.inputs.flatMap TxIn.serialize) ++
    (writeVarint tx.outputs.length ++ tx.outputs.flatMap TxOut.serialize)

theorem serializeLegacy_eq_wireBody
    (tx : Transaction) :
    tx.serializeLegacy =
      leBytes 4 tx.version.toUInt32.toNat ++ wireBody tx ++ leBytes 4 tx.lockTime.toNat := by
  simp [Transaction.serializeLegacy, wireBody]

theorem serialize_eq_wireBody
    {tx : Transaction}
    (h : tx.usesSegwit = true) :
    tx.serialize =
      leBytes 4 tx.version.toUInt32.toNat ++ [0x00, 0x01] ++ wireBody tx ++
        tx.witnesses.flatMap serializeWitness ++ leBytes 4 tx.lockTime.toNat := by
  simp [Transaction.serialize, h, wireBody]

/-- The bytes are the witness encoding of the transaction. -/
theorem serializeBatchTx_eq
    {items : List (List UInt8)}
    (h : items ≠ []) :
    serializeBatchTx outpoint record changeSats changeSpk items =
      (batchTransaction outpoint record changeSats changeSpk items).serialize := by
  have hsegwit :
      (batchTransaction outpoint record changeSats changeSpk items).usesSegwit = true := by
    simp [Transaction.usesSegwit, batchTransaction, h]
  rw [serialize_eq_wireBody hsegwit]
  have hversion : (2 : Int32).toUInt32.toNat = 2 := by
    decide
  have hempty : writeVarbytes [] = writeVarint 0 := by
    simp [writeVarbytes]
  simp [serializeBatchTx, wireBody, batchTransaction, hversion, TxIn.serialize, TxOut.serialize,
    serializeWitness, hempty]

/-- The change does not show in the size. -/
theorem wireBody_length
    (changeSats changeSats' : UInt64)
    (items items' : List (List UInt8)) :
    (wireBody (batchTransaction outpoint record changeSats changeSpk items)).length =
      (wireBody (batchTransaction outpoint record changeSats' changeSpk items')).length := by
  simp [wireBody, batchTransaction, TxOut.serialize]

/-- What is left when the part between marker and lock time is cut behind a length. -/
theorem stripWitness_eq
    {version lockTime : List UInt8}
    (body witness : List UInt8)
    {base : ℕ}
    (hversion : version.length = 4)
    (hlockTime : lockTime.length = 4)
    (hbase : base - 8 ≤ body.length + witness.length) :
    stripWitness (version ++ [0x00, 0x01] ++ body ++ witness ++ lockTime) base =
      version ++ (body ++ witness).take (base - 8) ++ lockTime := by
  have hhead : (version ++ [0x00, 0x01] ++ body ++ witness ++ lockTime).take 4 = version := by
    rw [List.append_assoc, List.append_assoc, List.append_assoc, ← hversion, List.take_left]
  have hmiddle : (version ++ [0x00, 0x01] ++ body ++ witness ++ lockTime).drop 6 =
      body ++ witness ++ lockTime := by
    have hsix : (version ++ [0x00, 0x01]).length = 6 := by
      simp [hversion]
    rw [List.append_assoc _ witness, List.append_assoc _ body, ← hsix, List.drop_left,
      List.append_assoc]
  have htail : (version ++ [0x00, 0x01] ++ body ++ witness ++ lockTime).drop
      ((version ++ [0x00, 0x01] ++ body ++ witness ++ lockTime).length - 4) = lockTime := by
    generalize version ++ [0x00, 0x01] ++ body ++ witness = front
    rw [List.length_append, hlockTime, Nat.add_sub_cancel, List.drop_left]
  rw [stripWitness, hhead, hmiddle, htail, Nat.sub_sub,
    List.take_append_of_le_length (by rw [List.length_append]; omega)]

/-- The bytes by which the counted witness region is too small. -/
def witnessExcess (payloadCount : ℕ) : ℕ :=
  if payloadCount ≤ 250 then 0 else 4

end Layout

section Sizes

variable {payloads : List TruncatedDigest}

theorem dropScript_length
    (n : ℕ) :
    (dropScript n).length = n + 2 := by
  simp [dropScript]

theorem witnessItems_length
    (payloads : List TruncatedDigest) :
    (witnessItems payloads).length = payloads.length + 2 := by
  simp [witnessItems]

theorem witnessRegion_witnessItems
    (payloads : List TruncatedDigest) :
    witnessRegion (witnessItems payloads) = 26 * payloads.length + 9 := by
  have hmagic : witnessMagic.length = 4 := by
    decide
  have hpayloads : payloads.map (fun payload => 1 + payload.bytes.toList.length) =
      List.replicate payloads.length 25 := by
    rw [← List.map_const']
    exact List.map_congr_left (fun payload _ => by simp)
  simp only [witnessRegion, witnessItems, List.map_append, List.map_cons, List.map_map,
    List.map_nil, List.sum_append, List.sum_cons, List.sum_nil, Function.comp_def, hpayloads,
    List.sum_replicate, dropScript_length, hmagic, smul_eq_mul, List.cons_append]
  omega

/-- A count from 253 on takes three bytes. -/
theorem writeVarint_length_of_ge
    {n : ℕ}
    (hge : 0xfd ≤ n)
    (hle : n ≤ 0xffff) :
    (writeVarint n).length = 3 := by
  rw [writeVarint, if_neg (by omega), if_pos hle, List.length_cons, leBytes_length]

/-- The counts and the script cross the bound of one byte together. -/
theorem writeVarint_length_payloads
    {n : ℕ}
    (h : n ≤ 255) :
    2 * (writeVarint (n + 2)).length = 2 + witnessExcess n := by
  unfold witnessExcess
  by_cases hsmall : n ≤ 250
  · rw [if_pos hsmall, writeVarint_length (by omega)]
  · rw [if_neg hsmall, writeVarint_length_of_ge (by omega) (by omega)]

/-- The witness region on the wire. -/
theorem serializeWitness_witnessItems_length
    (h : payloads.length ≤ 255) :
    (serializeWitness (witnessItems payloads)).length =
      witnessRegion (witnessItems payloads) + witnessExcess payloads.length := by
  have hmagic : (writeVarbytes witnessMagic).length = 5 := by
    decide
  have hpayload : ∀ payload : TruncatedDigest,
      (writeVarbytes payload.bytes.toList).length = 25 := by
    intro payload
    rw [writeVarbytes_length (by rw [List.Vector.toList_length]; decide),
      List.Vector.toList_length]
  have hpayloads : payloads.map (fun payload => (writeVarbytes payload.bytes.toList).length) =
      List.replicate payloads.length 25 := by
    rw [← List.map_const']
    exact List.map_congr_left (fun payload _ => hpayload payload)
  have hscript : (writeVarbytes (dropScript payloads.length)).length =
      (writeVarint (payloads.length + 2)).length + (payloads.length + 2) := by
    rw [writeVarbytes, List.length_append, dropScript_length]
  have hcounts := writeVarint_length_payloads h
  rw [serializeWitness, List.length_append, witnessItems_length, witnessRegion_witnessItems,
    List.length_flatMap]
  simp only [witnessItems, List.map_append, List.map_cons, List.map_map, List.map_nil,
    List.sum_append, List.sum_cons, List.sum_nil, Function.comp_def, hpayloads,
    List.sum_replicate, hmagic, hscript, smul_eq_mul, List.cons_append]
  omega

end Sizes

section Sizing

variable (outpoint : OutPoint)
variable (record : Bytes 64)
variable (changeSats : UInt64)
variable (changeSpk : Bytes 34)
variable (payloads : List TruncatedDigest)

/-- The transaction of a batch. -/
def transactionOf : Transaction :=
  batchTransaction outpoint record changeSats changeSpk (witnessItems payloads)

theorem witnessItems_ne_nil :
    witnessItems payloads ≠ [] := by
  simp [witnessItems]

theorem usesSegwit_transactionOf :
    (transactionOf outpoint record changeSats changeSpk payloads).usesSegwit = true := by
  simp [Transaction.usesSegwit, transactionOf, batchTransaction, witnessItems]

theorem serializeLegacy_length :
    (transactionOf outpoint record changeSats changeSpk payloads).serializeLegacy.length =
      (wireBody (transactionOf outpoint record changeSats changeSpk payloads)).length + 8 := by
  rw [serializeLegacy_eq_wireBody, List.length_append, List.length_append, leBytes_length,
    leBytes_length]
  omega

theorem witnesses_length
    (h : payloads.length ≤ 255) :
    ((transactionOf outpoint record changeSats changeSpk payloads).witnesses.flatMap
      serializeWitness).length =
        witnessRegion (witnessItems payloads) + witnessExcess payloads.length := by
  rw [← serializeWitness_witnessItems_length h]
  simp [transactionOf, batchTransaction]

theorem serialize_length
    (h : payloads.length ≤ 255) :
    (transactionOf outpoint record changeSats changeSpk payloads).serialize.length =
      (transactionOf outpoint record changeSats changeSpk payloads).serializeLegacy.length + 2 +
        (witnessRegion (witnessItems payloads) + witnessExcess payloads.length) := by
  rw [serialize_eq_wireBody (usesSegwit_transactionOf ..), serializeLegacy_length,
    ← witnesses_length outpoint record changeSats changeSpk payloads h]
  simp only [List.length_append, leBytes_length, List.length_cons, List.length_nil]
  omega

/-- The parts are those of the transaction, up to the excess. -/
theorem batchTxParts_eq
    (h : payloads.length ≤ 255) :
    batchTxParts outpoint record changeSats changeSpk (witnessItems payloads) =
      ((transactionOf outpoint record changeSats changeSpk payloads).serialize,
        (transactionOf outpoint record changeSats changeSpk payloads).serializeLegacy.length +
          witnessExcess payloads.length,
        witnessRegion (witnessItems payloads)) := by
  have hbytes : serializeBatchTx outpoint record changeSats changeSpk (witnessItems payloads) =
      (transactionOf outpoint record changeSats changeSpk payloads).serialize :=
    serializeBatchTx_eq (witnessItems_ne_nil payloads)
  have hlength := serialize_length outpoint record changeSats changeSpk payloads h
  simp only [batchTxParts, hbytes, hlength, Prod.mk.injEq, true_and, and_true]
  omega

/-- As many bytes of the witness as the base exceeds stay in the bytes of the id. -/
theorem stripWitness_serialize
    {excess : ℕ}
    (h : excess ≤ ((transactionOf outpoint record changeSats changeSpk payloads).witnesses.flatMap
      serializeWitness).length) :
    stripWitness (transactionOf outpoint record changeSats changeSpk payloads).serialize
        ((transactionOf outpoint record changeSats changeSpk payloads).serializeLegacy.length +
          excess) =
      leBytes 4 (transactionOf outpoint record changeSats changeSpk payloads).version.toUInt32.toNat
        ++ (wireBody (transactionOf outpoint record changeSats changeSpk payloads) ++
          ((transactionOf outpoint record changeSats changeSpk payloads).witnesses.flatMap
            serializeWitness).take excess) ++
        leBytes 4 (transactionOf outpoint record changeSats changeSpk payloads).lockTime.toNat := by
  have hlength := serializeLegacy_length outpoint record changeSats changeSpk payloads
  rw [serialize_eq_wireBody (usesSegwit_transactionOf ..),
    stripWitness_eq _ _ (leBytes_length ..) (leBytes_length ..) (by omega), hlength]
  have hbase : (wireBody (transactionOf outpoint record changeSats changeSpk payloads)).length + 8 +
      excess - 8 =
      (wireBody (transactionOf outpoint record changeSats changeSpk payloads)).length + excess := by
    omega
  rw [hbase, List.take_length_add_append]

/-- Bytes, sizes and fees that are those of the transaction. -/
structure Sized
    (tx : Transaction)
    (wire : List UInt8)
    (base witness : ℕ) : Prop where
  encoding : wire = tx.serialize
  stripped : stripWitness wire base = tx.serializeLegacy
  base_eq : base = tx.serializeLegacy.length
  witness_eq : witness = (tx.witnesses.flatMap serializeWitness).length
  total : base + 2 + witness = wire.length
  weight : weightOfParts base witness = tx.weight
  fee : ∀ feeRate, feeOfWeight feeRate (weightOfParts base witness) = feeOfWeight feeRate tx.weight

/-- Every byte of excess counts four times in place of once. -/
theorem weightOfParts_eq
    (h : payloads.length ≤ 255) :
    weightOfParts
        ((transactionOf outpoint record changeSats changeSpk payloads).serializeLegacy.length +
          witnessExcess payloads.length)
        (witnessRegion (witnessItems payloads)) =
      (transactionOf outpoint record changeSats changeSpk payloads).weight +
        3 * witnessExcess payloads.length := by
  have hlength := serialize_length outpoint record changeSats changeSpk payloads h
  rw [weightOfParts, Transaction.weight, hlength]
  omega

/-- The sizes of the transaction without change serve the one with its change. -/
theorem legacy_length_transactionOf :
    (transactionOf outpoint record 0 changeSpk payloads).serializeLegacy.length =
      (transactionOf outpoint record changeSats changeSpk payloads).serializeLegacy.length := by
  rw [serializeLegacy_length, serializeLegacy_length]
  exact congrArg (· + 8) (wireBody_length 0 changeSats _ _)

/-- Up to 250 payloads nothing is in excess. -/
theorem sized_of_le
    (h : payloads.length ≤ 250) :
    Sized (transactionOf outpoint record changeSats changeSpk payloads)
      (batchTxParts outpoint record changeSats changeSpk (witnessItems payloads)).1
      (batchTxParts outpoint record 0 changeSpk (witnessItems payloads)).2.1
      (batchTxParts outpoint record 0 changeSpk (witnessItems payloads)).2.2 := by
  have hle : payloads.length ≤ 255 := by
    omega
  have hexcess : witnessExcess payloads.length = 0 := if_pos h
  have hlength := serialize_length outpoint record changeSats changeSpk payloads hle
  have hwitness := witnesses_length outpoint record changeSats changeSpk payloads hle
  have hweight := weightOfParts_eq outpoint record changeSats changeSpk payloads hle
  have hstripped := stripWitness_serialize outpoint record changeSats changeSpk payloads
    (Nat.zero_le _)
  rw [List.take_zero, List.append_nil, ← serializeLegacy_eq_wireBody] at hstripped
  rw [batchTxParts_eq outpoint record changeSats changeSpk payloads hle,
    batchTxParts_eq outpoint record 0 changeSpk payloads hle,
    legacy_length_transactionOf outpoint record changeSats changeSpk payloads]
  rw [hexcess] at hlength hwitness hweight ⊢
  exact
    { encoding := rfl
      stripped := hstripped
      base_eq := rfl
      witness_eq := hwitness.symm
      total := hlength.symm
      weight := hweight
      fee := fun feeRate => congrArg (feeOfWeight feeRate) hweight }

/--
A batch is sized before its change is known, and its id is taken with the sizes found
then.  Bytes, sizes, weight, fee and id are those of the transaction exactly up to 250
payloads.
-/
theorem batchTx_sized_iff
    (h : payloads.length ≤ 255) :
    Sized (transactionOf outpoint record changeSats changeSpk payloads)
        (batchTxParts outpoint record changeSats changeSpk (witnessItems payloads)).1
        (batchTxParts outpoint record 0 changeSpk (witnessItems payloads)).2.1
        (batchTxParts outpoint record 0 changeSpk (witnessItems payloads)).2.2 ↔
      payloads.length ≤ 250 := by
  refine ⟨?_, sized_of_le outpoint record changeSats changeSpk payloads⟩
  intro hsized
  have hbase := hsized.base_eq
  rw [batchTxParts_eq outpoint record 0 changeSpk payloads h,
    legacy_length_transactionOf outpoint record changeSats changeSpk payloads] at hbase
  by_contra hlarge
  have hexcess : witnessExcess payloads.length = 4 := if_neg hlarge
  rw [hexcess] at hbase
  exact absurd hbase (by simp)

theorem batchTx_sized_one :
    Sized (transactionOf ⟨Bytes.zero 32, 0⟩ (Bytes.zero 64) 1000 (Bytes.zero 34)
        [TruncatedDigest.zero])
      (batchTxParts ⟨Bytes.zero 32, 0⟩ (Bytes.zero 64) 1000 (Bytes.zero 34)
        (witnessItems [TruncatedDigest.zero])).1
      (batchTxParts ⟨Bytes.zero 32, 0⟩ (Bytes.zero 64) 0 (Bytes.zero 34)
        (witnessItems [TruncatedDigest.zero])).2.1
      (batchTxParts ⟨Bytes.zero 32, 0⟩ (Bytes.zero 64) 0 (Bytes.zero 34)
        (witnessItems [TruncatedDigest.zero])).2.2 :=
  (batchTx_sized_iff _ _ _ _ _ (by decide)).mpr (by decide)

end Sizing

section Anchoring

variable {sponge : Sponge}
variable {sha256 : Sha256}
variable {utxo : MarkerUtxo}
variable {feeRate : UInt64}
variable {payloads : List TruncatedDigest}
variable {anchor : BatchAnchor}

/-- The header record of a batch at a funding output. -/
def headerOf (sponge : Sponge) (ctx : Ctx) (payloads : List TruncatedDigest) : AnchorRecord :=
  .batchHeader (UInt8.ofNat payloads.length) (batchCommit sponge payloads ctx).toAnchor

/-- The transaction that is handed to the node. -/
def MarkerUtxo.spentBy
    (utxo : MarkerUtxo)
    (sponge : Sponge)
    (sha256 : Sha256)
    (payloads : List TruncatedDigest)
    (change : UInt64) : Transaction :=
  transactionOf ⟨utxo.txid, utxo.vout⟩
    (headerOf sponge (fundingCtx sha256 ⟨utxo.txid, utxo.vout⟩) payloads).toBytes change
    (batchFundingSpk sha256 payloads.length) payloads

/-- What a run hands over, in terms of its two passes. -/
theorem anchorBatch_parts
    (h : anchorBatch sponge sha256 (some utxo) feeRate payloads = .ok anchor) :
    payloads.length ≤ 255 ∧ ∃ outpoint record changeSpk,
      utxo.spentBy sponge sha256 payloads anchor.change =
        transactionOf outpoint record anchor.change changeSpk payloads ∧
      anchor.tx =
        (batchTxParts outpoint record anchor.change changeSpk (witnessItems payloads)).1 ∧
      anchor.preimage = stripWitness anchor.tx
        (batchTxParts outpoint record 0 changeSpk (witnessItems payloads)).2.1 ∧
      anchor.fee = feeOfWeight feeRate (weightOfParts
        (batchTxParts outpoint record 0 changeSpk (witnessItems payloads)).2.1
        (batchTxParts outpoint record 0 changeSpk (witnessItems payloads)).2.2) := by
  simp only [anchorBatch, except_bind_eq_ok_iff, require_eq_ok_iff, okOr_eq_ok_iff,
    Option.some.injEq, exists_eq_left', pure, Except.pure, Except.ok.injEq,
    decide_eq_true_eq] at h
  obtain ⟨_, ⟨-, hcount⟩, change, -, _, -, rfl⟩ := h
  exact ⟨hcount, _, _, _, rfl, rfl, rfl, rfl⟩

/-- Up to 250 payloads the node gets a transaction of this fee, and its id is expected. -/
theorem anchorBatch_sized
    (h : anchorBatch sponge sha256 (some utxo) feeRate payloads = .ok anchor)
    (hsmall : payloads.length ≤ 250) :
    anchor.tx = (utxo.spentBy sponge sha256 payloads anchor.change).serialize ∧
      anchor.preimage = (utxo.spentBy sponge sha256 payloads anchor.change).serializeLegacy ∧
      anchor.fee =
        feeOfWeight feeRate (utxo.spentBy sponge sha256 payloads anchor.change).weight := by
  obtain ⟨-, outpoint, record, changeSpk, hspent, htx, hpreimage, hfee⟩ := anchorBatch_parts h
  have hsized := sized_of_le outpoint record anchor.change changeSpk payloads hsmall
  rw [hpreimage, hfee, htx, hspent]
  exact ⟨hsized.encoding, hsized.stripped, hsized.fee feeRate⟩

/-- Beyond that the fee is that of 12 weight units more, and another id is expected. -/
theorem anchorBatch_oversized
    (h : anchorBatch sponge sha256 (some utxo) feeRate payloads = .ok anchor)
    (hlarge : 250 < payloads.length) :
    anchor.fee = feeOfWeight feeRate
        ((utxo.spentBy sponge sha256 payloads anchor.change).weight + 12) ∧
      anchor.preimage.length =
        (utxo.spentBy sponge sha256 payloads anchor.change).serializeLegacy.length + 4 := by
  obtain ⟨hcount, outpoint, record, changeSpk, hspent, htx, hpreimage, hfee⟩ :=
    anchorBatch_parts h
  have hexcess : witnessExcess payloads.length = 4 := if_neg (by omega)
  have hweight := weightOfParts_eq outpoint record anchor.change changeSpk payloads hcount
  have hwitness := witnesses_length outpoint record anchor.change changeSpk payloads hcount
  rw [hexcess] at hweight hwitness
  have hstripped := stripWitness_serialize outpoint record anchor.change changeSpk payloads
    (show 4 ≤ _ by omega)
  rw [batchTxParts_eq outpoint record 0 changeSpk payloads hcount,
    legacy_length_transactionOf outpoint record anchor.change changeSpk payloads, hexcess]
    at hfee hpreimage
  rw [batchTxParts_eq outpoint record anchor.change changeSpk payloads hcount] at htx
  refine ⟨?_, ?_⟩
  · rw [hfee, hspent, hweight]
  · rw [hpreimage, htx, hstripped, hspent, serializeLegacy_length]
    simp only [List.length_append, leBytes_length, List.length_take, hwitness]
    omega

end Anchoring

namespace Sample

/-- A batch of 251 payloads, in which the counts take three bytes. -/
def payloads : List TruncatedDigest := List.replicate 251 TruncatedDigest.zero

def outpoint : OutPoint := ⟨Bytes.zero 32, 0⟩

end Sample

/-- With 251 payloads the base comes out four bytes too large. -/
theorem not_sized_every_count :
    ¬ ∀ (outpoint : OutPoint) (record : Bytes 64) (changeSats : UInt64) (changeSpk : Bytes 34)
        (payloads : List TruncatedDigest),
      1 ≤ payloads.length ∧ payloads.length ≤ 255 →
        Sized (transactionOf outpoint record changeSats changeSpk payloads)
          (batchTxParts outpoint record changeSats changeSpk (witnessItems payloads)).1
          (batchTxParts outpoint record 0 changeSpk (witnessItems payloads)).2.1
          (batchTxParts outpoint record 0 changeSpk (witnessItems payloads)).2.2 := by
  intro h
  have hcount : Sample.payloads.length = 251 := List.length_replicate
  have hbase := (h Sample.outpoint (Bytes.zero 64) 0 (Bytes.zero 34) Sample.payloads
    (by omega)).base_eq
  exact absurd hbase (by decide +kernel)

end BatchV1
end OpenCsv
