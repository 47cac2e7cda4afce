import OpenCsv.Cbf.Scan
import OpenCsv.Cbf.Wire
import OpenCsv.Lib.Amounts
import OpenCsv.Lib.Sha256
import OpenCsv.Lib.Sorting
import OpenCsv.Lib.Utf8

/-!
# Signed, co-funded batches

The transcript objects of a batch: a proposal that fixes the stock input, the
commitments of the participants, and the manifest with the exact unsigned transaction that
everybody signs.  A manifest is never trusted as received; it is rebuilt from the proposal
and the commitments and compared.

Keys, signatures, script hashes, signature digests and the decoder of transactions are the
Bitcoin library's.
-/

namespace OpenCsv

/-- Stable machine-readable rejection categories. -/
inductive RejectionReason where
  | invalidVersion
  | wrongChain
  | invalidSerialization
  | invalidStock
  | staleChainState
  | expiredProposal
  | invalidCommitment
  | duplicateCommitment
  | conflictingOperation
  | unavailableFeeInput
  | noncanonicalOrder
  | payloadContextMismatch
  | headerMismatch
  | protocolLayoutViolation
  | feePolicyViolation
  | insufficientChange
  | arithmeticOverflow
  | signaturePolicyViolation
  | invalidSignature
  | replacementViolation
  | storageFailure
deriving DecidableEq

/-- A protocol rejection with stable category and diagnostic detail. -/
structure ProtocolError where
  reason : RejectionReason
  detail : Text
deriving DecidableEq

def ProtocolError.new (reason : RejectionReason) (detail : String) : ProtocolError :=
  ⟨reason, Text.lit detail⟩

/-- What the batching code takes from the Bitcoin library; its errors are texts. -/
structure BitcoinCrate (K S : Type) where
  sha256 : Sha256
  hash160 : List UInt8 → Bytes 20
  /-- `PublicKey::serialize`, the compressed form. -/
  serializeKey : K → Bytes 33
  /-- `PublicKey::from_slice`. -/
  keyFromSlice : Bytes 33 → Except Text K
  /-- `ecdsa::Signature::serialize`: the DER encoding and the sighash byte. -/
  serializeSignature : S → List UInt8
  /-- `ecdsa::Signature::from_slice`. -/
  signatureFromSlice : List UInt8 → Except Text S
  /-- Is the sighash type of the signature `ALL`? -/
  sighashAll : S → Bool
  /-- Is the signature left as it is by `normalize_s`? -/
  lowS : S → Bool
  p2wshSignatureHash : Transaction → ℕ → List UInt8 → UInt64 → Except Text (Bytes 32)
  p2wpkhSignatureHash : Transaction → ℕ → List UInt8 → UInt64 → Except Text (Bytes 32)
  verifyEcdsa : Bytes 32 → S → K → Except Text Unit
  /-- `consensus::encode::deserialize` of a transaction. -/
  deserializeTransaction : List UInt8 → Except Text Transaction

section Constants

/-- The historical transcript version, with the spendable marker. -/
def legacyVersion : UInt16 := 2

/-- The current transcript version, with the unspendable marker. -/
def batchVersion : UInt16 := 3

def messageMagic : List UInt8 := ascii "OCSVB2" ++ [0, 0]

def txVersion : Int32 := 2

/-- Every input opts in to replacement without a relative lock. -/
def inputSequence : UInt32 := 0xfffffffd

/-- The least value of the stock output and of a change output. -/
def minOutputSats : UInt64 := 546

def proposalKind : UInt8 := 0x01
def commitmentKind : UInt8 := 0x02
def manifestKind : UInt8 := 0x03
def signatureKind : UInt8 := 0x04

end Constants

section Scripts

def OutPoint.isNull (outpoint : OutPoint) : Bool :=
  outpoint == ⟨Bytes.zero 32, 0xffffffff⟩

/-- The consensus encoding of an outpoint. -/
def OutPoint.serialize (outpoint : OutPoint) : List UInt8 :=
  outpoint.txid.toList ++ leBytes 4 outpoint.vout.toNat

/-- The size of one witness stack on the wire. -/
def serializeWitness (stack : List (List UInt8)) : List UInt8 :=
  writeVarint stack.length ++ stack.flatMap writeVarbytes

/-- Is the witness format used? -/
def Transaction.usesSegwit (tx : Transaction) : Bool :=
  tx.witnesses.any (fun stack => !stack.isEmpty) || tx.inputs.isEmpty

/-- The consensus encoding, with witness data where there is any. -/
def Transaction.serialize (tx : Transaction) : List UInt8 :=
  if tx.usesSegwit then
    leBytes 4 tx.version.toUInt32.toNat ++ [0x00, 0x01] ++
      (writeVarint tx.inputs.length ++ tx.inputs.flatMap TxIn.serialize) ++
      (writeVarint tx.outputs.length ++ tx.outputs.flatMap TxOut.serialize) ++
      tx.witnesses.flatMap serializeWitness ++
      leBytes 4 tx.lockTime.toNat
  else
    tx.serializeLegacy

/-- The weight: three times the size without witness data plus the whole size. -/
def Transaction.weight (tx : Transaction) : ℕ :=
  3 * tx.serializeLegacy.length + tx.serialize.length

variable {K S : Type}
variable (crate : BitcoinCrate K S)

/-- The P2WPKH script of a key. -/
def p2wpkhScript (key : K) : List UInt8 :=
  [0x00, 0x14] ++ (crate.hash160 (crate.serializeKey key).toList).toList

def p2wshScript (script : List UInt8) : List UInt8 :=
  [0x00, 0x20] ++ (crate.sha256 script).toList

/-- `<key> OP_CHECKSIGVERIFY`, one `OP_DROP` more than participants, and `OP_TRUE`. -/
def stockWitnessScript (key : K) (participantCount : ℕ) : List UInt8 :=
  [0x21] ++ (crate.serializeKey key).toList ++ [0xad] ++
    List.replicate (participantCount + 1) 0x75 ++ [0x51]

/-- The canonical script with a 20-byte program of version 0. -/
def isCanonicalP2wpkh (script : List UInt8) : Bool :=
  script.length == 22 && script[0]? == some 0x00 && script[1]? == some 0x14

/-- `SHA256(domain ∥ 0 ∥ body)`. -/
def domainHash (domain : String) (body : List UInt8) : Bytes 32 :=
  crate.sha256 (ascii domain ++ [0] ++ body)

/-- A script with its 16-bit length. -/
def encodeScript (script : List UInt8) : List UInt8 :=
  leBytes 2 script.length ++ script

/-- The marker output of a transcript version. -/
def markerSpkForVersion (version : UInt16) : Except ProtocolError (List UInt8) :=
  if version = legacyVersion then
    .ok legacyMarkerSpk
  else if version = batchVersion then
    .ok markerSpk
  else
    .error ⟨.invalidVersion, Text.lit "proposal version " ++ Text.ofNat version.toNat⟩

/-- The pessimistic signed weight of a batch. -/
def maxSignedWeight (participantCount : ℕ) : Except ProtocolError UInt64 := do
  require (1 ≤ participantCount ∧ participantCount ≤ maxBatchV2Participants)
    (.new .invalidCommitment "participant count outside 1..=64")
  okOr ((checkedMul 423 (UInt64.ofNat participantCount)).bind (fun value => checkedAdd value 968))
    (.new .arithmeticOverflow "weight overflow")

end Scripts

/-- A proposal: the stock input, the network, the number of participants, the fee bounds. -/
structure Proposal (K : Type) where
  version : UInt16
  chainId : Bytes 32
  stockOutpoint : OutPoint
  stockValue : UInt64
  stockOwnerPubkey : K
  participantCount : UInt8
  proposalNonce : Bytes 32
  observedTipHeight : UInt32
  expiryHeight : UInt32
  targetFeerateSatVb : UInt32
  maxFeerateSatVb : UInt32
deriving DecidableEq

/-- One participant's payload, fee input, change script and largest charge. -/
structure ParticipantCommitment (K : Type) where
  batchId : Bytes 32
  operationId : Bytes 32
  commitNonce : Bytes 32
  payload : TruncatedDigest
  feeOutpoint : OutPoint
  feePrevout : TxOut
  feePubkey : K
  changeSpk : List UInt8
  maxCharge : UInt64
deriving DecidableEq

/-- A manifest: the charges and the exact unsigned transaction. -/
structure Manifest (K : Type) where
  batchId : Bytes 32
  replacementEpoch : UInt32
  feerateSatVb : UInt32
  maxWeight : UInt32
  minerFee : UInt64
  totalCharge : UInt64
  charges : List UInt64
  commitments : List (ParticipantCommitment K)
  unsignedTx : Transaction
deriving DecidableEq

section Transcript

variable {K S : Type}
variable (crate : BitcoinCrate K S)
variable (sponge : Sponge)

namespace Proposal

def body (proposal : Proposal K) : List UInt8 :=
  leBytes 2 proposal.version.toNat ++ proposal.chainId.toList ++
    proposal.stockOutpoint.serialize ++ leBytes 8 proposal.stockValue.toNat ++
    (crate.serializeKey proposal.stockOwnerPubkey).toList ++ [proposal.participantCount] ++
    proposal.proposalNonce.toList ++ leBytes 4 proposal.observedTipHeight.toNat ++
    leBytes 4 proposal.expiryHeight.toNat ++ leBytes 4 proposal.targetFeerateSatVb.toNat ++
    leBytes 4 proposal.maxFeerateSatVb.toNat

/-- Domain-separated identifier of the proposal. -/
def batchId (proposal : Proposal K) : Bytes 32 :=
  domainHash crate "OpenCSV/batch-v2/proposal" (proposal.body crate)

/-- The context of input 0. -/
def context (proposal : Proposal K) : Ctx :=
  fundingCtx crate.sha256 proposal.stockOutpoint

def stockScript (proposal : Proposal K) : List UInt8 :=
  stockWitnessScript crate proposal.stockOwnerPubkey proposal.participantCount.toNat

def stockScriptPubkey (proposal : Proposal K) : List UInt8 :=
  p2wshScript crate (proposal.stockScript crate)

def validate (proposal : Proposal K) : Except ProtocolError Unit := do
  require (proposal.version = legacyVersion ∨ proposal.version = batchVersion)
    ⟨.invalidVersion, Text.lit "proposal version " ++ Text.ofNat proposal.version.toNat⟩
  require (1 ≤ proposal.participantCount.toNat ∧
      proposal.participantCount.toNat ≤ maxBatchV2Participants)
    ⟨.invalidStock, Text.lit "participant count " ++
      Text.ofNat proposal.participantCount.toNat ++ Text.lit " is outside 1..=64"⟩
  require (proposal.chainId ≠ Bytes.zero 32) (.new .wrongChain "zero chain id")
  require (!proposal.stockOutpoint.isNull && minOutputSats ≤ proposal.stockValue)
    (.new .invalidStock "null outpoint or sub-floor stock value")
  require (proposal.observedTipHeight < proposal.expiryHeight)
    (.new .expiredProposal "expiry must be above observed tip")
  require (proposal.targetFeerateSatVb ≠ 0 ∧
      proposal.targetFeerateSatVb ≤ proposal.maxFeerateSatVb)
    (.new .feePolicyViolation "invalid target/max feerate")

/-- Check network replay and expiry against the observed chain. -/
def validateAt
    (proposal : Proposal K)
    (expectedChainId : Bytes 32)
    (currentHeight : UInt32) : Except ProtocolError Unit := do
  proposal.validate
  require (proposal.chainId = expectedChainId)
    (.new .wrongChain "proposal chain id differs from the verified chain")
  require (currentHeight < proposal.expiryHeight)
    (.new .expiredProposal "proposal expired at the verified height")

end Proposal

namespace ParticipantCommitment

def body (commitment : ParticipantCommitment K) : List UInt8 :=
  commitment.batchId.toList ++ commitment.operationId.toList ++
    commitment.commitNonce.toList ++ commitment.payload.bytes.toList ++
    commitment.feeOutpoint.serialize ++ leBytes 8 commitment.feePrevout.value.toNat ++
    (crate.serializeKey commitment.feePubkey).toList ++
    encodeScript commitment.feePrevout.scriptPubkey ++ encodeScript commitment.changeSpk ++
    leBytes 8 commitment.maxCharge.toNat

/-- Domain-separated identifier of the commitment. -/
def commitmentId (commitment : ParticipantCommitment K) : Bytes 32 :=
  domainHash crate "OpenCSV/batch-v2/commitment" (commitment.body crate)

def validate
    (commitment : ParticipantCommitment K)
    (proposal : Proposal K) : Except ProtocolError Unit := do
  require (commitment.batchId == proposal.batchId crate && !commitment.feeOutpoint.isNull &&
      commitment.maxCharge != 0)
    (.new .invalidCommitment "batch id, outpoint, or maximum charge is invalid")
  require (commitment.feeOutpoint ≠ proposal.stockOutpoint)
    (.new .conflictingOperation "participant fee outpoint duplicates input-0 stock")
  require (commitment.feePrevout.scriptPubkey = p2wpkhScript crate commitment.feePubkey)
    (.new .invalidCommitment "fee prevout is not P2WPKH for the committed key")
  require (isCanonicalP2wpkh commitment.changeSpk)
    (.new .invalidCommitment "change is not canonical P2WPKH")

/-- The order of the participants: the encodings of their fee outpoints. -/
def le (a b : ParticipantCommitment K) : Bool :=
  bytesLe a.feeOutpoint.serialize b.feeOutpoint.serialize

/-- The participants in canonical order. -/
def sort (commitments : List (ParticipantCommitment K)) : List (ParticipantCommitment K) :=
  commitments.insertionSort (fun a b => a.le b)

/-- No two participants share an id, an operation, an input, a payload or a change script. -/
def rejectDuplicates
    (commitments : List (ParticipantCommitment K)) : Except ProtocolError Unit :=
  require
    ((commitments.map (commitmentId crate)).Nodup ∧ (commitments.map operationId).Nodup ∧
      (commitments.map feeOutpoint).Nodup ∧ (commitments.map payload).Nodup ∧
      (commitments.map changeSpk).Nodup)
    (.new .duplicateCommitment "duplicate participant material")

end ParticipantCommitment

/-- The header of an envelope; the source asserts the number of payloads. -/
def batchHeaderV2 (payloads : List TruncatedDigest) (ctx : Ctx) : Option AnchorRecord :=
  if payloads.length ≠ 0 ∧ payloads.length ≤ maxBatchV2Participants then
    some (.batchHeader (UInt8.ofNat payloads.length)
      (batchCommitV2 sponge payloads ctx).toAnchor)
  else
    none

/-- `u64::div_ceil`. -/
def divCeil (a b : UInt64) : UInt64 :=
  if 0 < a % b then a / b + 1 else a / b

namespace Manifest

/-- The charge and the change of the participant at one position. -/
def chargeAndChange
    (base remainder : UInt64)
    (participant : ParticipantCommitment K × ℕ) : Except ProtocolError (UInt64 × UInt64) := do
  let (commitment, index) := participant
  let charge := base + (if UInt64.ofNat index < remainder then 1 else 0)
  require (charge ≤ commitment.maxCharge)
    ⟨.feePolicyViolation, Text.lit "participant " ++ Text.ofNat index ++
      Text.lit " charge exceeds committed maximum"⟩
  let change ← okOr (checkedSub commitment.feePrevout.value charge)
    ⟨.insufficientChange, Text.lit "participant " ++ Text.ofNat index ++
      Text.lit " cannot cover charge"⟩
  require (minOutputSats ≤ change)
    ⟨.insufficientChange, Text.lit "participant " ++ Text.ofNat index ++
      Text.lit " change is below v2 floor"⟩
  return (charge, change)

/-- The unsigned transaction: stock and fee inputs; record, marker, stock and change outputs. -/
def transactionOf
    (proposal : Proposal K)
    (commitments : List (ParticipantCommitment K))
    (changes : List UInt64)
    (record : AnchorRecord)
    (markerScript : List UInt8) : Transaction where
  version := txVersion
  inputs :=
    ⟨proposal.stockOutpoint, [], inputSequence⟩ ::
      commitments.map (fun commitment => ⟨commitment.feeOutpoint, [], inputSequence⟩)
  outputs :=
    [ ⟨0, anchorScript record.toBytes⟩, ⟨markerDustSats, markerScript⟩,
      ⟨proposal.stockValue, proposal.stockScriptPubkey crate⟩ ] ++
      (commitments.zip changes).map (fun (commitment, value) => ⟨value, commitment.changeSpk⟩)
  lockTime := 0
  witnesses := List.replicate (commitments.length + 1) []

def checkLayout
    (manifest : Manifest K)
    (proposal : Proposal K) : Except ProtocolError Unit :=
  require
    (manifest.batchId == proposal.batchId crate &&
      manifest.unsignedTx.version == txVersion && manifest.unsignedTx.lockTime == 0 &&
      manifest.unsignedTx.inputs.length == manifest.commitments.length + 1 &&
      manifest.unsignedTx.outputs.length == manifest.commitments.length + 3 &&
      manifest.unsignedTx.inputs.all (fun input =>
        input.sequence == inputSequence && input.scriptSig.isEmpty))
    (.new .protocolLayoutViolation "transaction framing is not canonical v2")

/-- The manifest of participants that are in canonical order. -/
def buildSorted
    (proposal : Proposal K)
    (commitments : List (ParticipantCommitment K))
    (replacementEpoch feerateSatVb : UInt32)
    (markerScript : List UInt8) : Except ProtocolError (Manifest K) := do
  ParticipantCommitment.rejectDuplicates crate commitments
  let count := commitments.length
  let maxWeightU64 ← maxSignedWeight count
  let maxWeight ← okOr
    (if maxWeightU64.toNat < 2 ^ 32 then some maxWeightU64.toUInt32 else none)
    (.new .arithmeticOverflow "weight exceeds u32")
  let minerFee ← okOr (checkedMul feerateSatVb.toUInt64 (divCeil maxWeightU64 4))
    (.new .arithmeticOverflow "miner fee overflow")
  let totalCharge ← okOr (checkedAdd minerFee markerDustSats)
    (.new .arithmeticOverflow "total charge overflow")
  let base := totalCharge / UInt64.ofNat count
  let remainder := totalCharge % UInt64.ofNat count
  let amounts ← commitments.zipIdx.mapM (chargeAndChange base remainder)
  let record ← okOr
    (batchHeaderV2 sponge (commitments.map (·.payload)) (proposal.context crate))
    (.new .invalidCommitment "a batching-v2 envelope carries 1–64 payloads")
  let manifest : Manifest K :=
    { batchId := proposal.batchId crate
      replacementEpoch
      feerateSatVb
      maxWeight
      minerFee
      totalCharge
      charges := amounts.map Prod.fst
      commitments
      unsignedTx :=
        transactionOf crate proposal commitments (amounts.map Prod.snd) record markerScript }
  manifest.checkLayout crate proposal
  return manifest

/-- Build the canonical manifest of an epoch at a feerate. -/
def buildAtWithMarker
    (proposal : Proposal K)
    (commitments : List (ParticipantCommitment K))
    (replacementEpoch feerateSatVb : UInt32)
    (markerScript : List UInt8) : Except ProtocolError (Manifest K) := do
  proposal.validate
  require (commitments.length = proposal.participantCount.toNat)
    (.new .invalidCommitment "commitment count does not match proposal")
  require (proposal.targetFeerateSatVb ≤ feerateSatVb ∧ feerateSatVb ≤ proposal.maxFeerateSatVb)
    (.new .feePolicyViolation "manifest feerate is outside proposal bounds")
  let _ ← commitments.mapM (fun commitment => commitment.validate crate proposal)
  buildSorted crate sponge proposal (ParticipantCommitment.sort commitments) replacementEpoch
    feerateSatVb markerScript

def buildAt
    (proposal : Proposal K)
    (commitments : List (ParticipantCommitment K))
    (replacementEpoch feerateSatVb : UInt32) : Except ProtocolError (Manifest K) := do
  let markerScript ← markerSpkForVersion proposal.version
  buildAtWithMarker crate sponge proposal commitments replacementEpoch feerateSatVb markerScript

/-- The canonical initial manifest. -/
def build
    (proposal : Proposal K)
    (commitments : List (ParticipantCommitment K)) : Except ProtocolError (Manifest K) :=
  buildAt crate sponge proposal commitments 0 proposal.targetFeerateSatVb

def body (manifest : Manifest K) : List UInt8 :=
  let tx := manifest.unsignedTx.serialize
  manifest.batchId.toList ++ leBytes 4 manifest.replacementEpoch.toNat ++
    [UInt8.ofNat manifest.commitments.length] ++
    manifest.commitments.flatMap (fun commitment => (commitment.commitmentId crate).toList) ++
    leBytes 4 manifest.maxWeight.toNat ++ leBytes 4 manifest.feerateSatVb.toNat ++
    leBytes 8 manifest.minerFee.toNat ++ leBytes 8 manifest.totalCharge.toNat ++
    manifest.charges.flatMap (fun charge => leBytes 8 charge.toNat) ++
    leBytes 4 tx.length ++ tx

/-- Domain-separated identifier of the manifest. -/
def manifestId (manifest : Manifest K) : Bytes 32 :=
  domainHash crate "OpenCSV/batch-v2/manifest" (manifest.body crate)

section Validate

variable [DecidableEq K]

/-- Rebuild the canonical manifest and refuse any difference. -/
def validate
    (manifest : Manifest K)
    (proposal : Proposal K) : Except ProtocolError Unit := do
  let expected ← buildAt crate sponge proposal manifest.commitments manifest.replacementEpoch
    manifest.feerateSatVb
  require (manifest = expected)
    (.new .protocolLayoutViolation "manifest differs from canonical reconstruction")

/-- The next epoch: the same commitments at a higher feerate. -/
def replacement
    (manifest : Manifest K)
    (proposal : Proposal K)
    (newFeerateSatVb : UInt32) : Except ProtocolError (Manifest K) := do
  require (manifest.feerateSatVb < newFeerateSatVb)
    (.new .replacementViolation "replacement feerate must increase")
  require (proposal.version = batchVersion)
    (.new .replacementViolation "historical version-2 manifests are read-only")
  let epoch ← okOr
    (if manifest.replacementEpoch.toNat + 1 < 2 ^ 32 then some (manifest.replacementEpoch + 1)
      else none)
    (.new .arithmeticOverflow "replacement epoch overflow")
  let replacement ← buildAt crate sponge proposal manifest.commitments epoch newFeerateSatVb
  require
    (manifest.unsignedTx.inputs = replacement.unsignedTx.inputs ∧
      manifest.unsignedTx.witnesses = replacement.unsignedTx.witnesses ∧
      manifest.unsignedTx.outputs.take 3 = replacement.unsignedTx.outputs.take 3 ∧
      (manifest.unsignedTx.outputs.drop 3).map TxOut.scriptPubkey =
        (replacement.unsignedTx.outputs.drop 3).map TxOut.scriptPubkey)
    (.new .replacementViolation "replacement changed a protected invariant")
  return replacement

end Validate

end Manifest

end Transcript

namespace Manifest.Sample

/-- A compressed key, given as a little-endian number. -/
abbrev Key := Bytes 33

/-- A serialized signature. -/
abbrev Signature := { bytes : List UInt8 // bytes.length ≤ 73 }

def stockKey : Key :=
  Bytes.ofLe 33 0xf936e0bc13f10186b0996f8345c831b529529df8854f344910c35892018a30f902

def firstKey : Key :=
  Bytes.ofLe 33 0x9817f8165b81f259d928ce2ddbfc9b02070b87ce9562a055acbbdcf97e66be7902

def secondKey : Key :=
  Bytes.ofLe 33 0xe59e705cb909acaba73cef8c4b8e775cd87cc0956e4045306d7ded41947f04c602

/-- The script hashes of the participants' keys. -/
def firstHash : Bytes 20 := Bytes.ofLe 20 0xd63b43f123a3b3d1451c9454d4969119e8761e75
def secondHash : Bytes 20 := Bytes.ofLe 20 0xcc7ea34412241fa12a12ac94ef22fdcd6bd4af06

/-- The signature digests of the three inputs of the sample transaction. -/
def digests : List (Bytes 32) :=
  [ Bytes.ofLe 32 0x814dae6d811c74b2614e525d85d8c3b8104f522540341ba4eb58f71b93e9b75a,
    Bytes.ofLe 32 0x3ab64219ce579f44f7c63aeec6e4b1d8b4d5addaeba6eaa8151181cdc7979e60,
    Bytes.ofLe 32 0x91d0254597f43e0a727a4d812248db2966c9148dfaed785cc406e7510cd7e878 ]

def stockSignature : Signature :=
  ⟨leBytes 71 0x18dabcfe84475fc62cc8615d4fb22e7ff654145012ff12859ec04256f44bb11182002610ce9cd9b8eef4fb5a01be24fe44fa275b6a99eae3d6bdb212770fdef03174620024430, by
    rw [leBytes_length]; decide⟩

def firstSignature : Signature :=
  ⟨leBytes 72 0x10df0b77a250f45b6c3c36c47c5fa39fef5f1f410bf4485d74aaa75fef6a856752002fb550557c1c54e5eaddc955f0ddf17fbd2370fb8750ca12fac58eb16c671d5f80021024530, by
    rw [leBytes_length]; decide⟩

def secondSignature : Signature :=
  ⟨leBytes 72 0x13fd9861b845f6bc6f6f66931627287124427c2feaa4a23c2ccc4a071924b5e382002136097a41fce743d99a1a5871d8f412701d9097abc691f3b9d24e1aece2c06b80021024530, by
    rw [leBytes_length]; decide⟩

/-- Decode an unsigned transaction. -/
def deserialize (bytes : List UInt8) : Except Text Transaction :=
  match Transaction.read bytes with
  | .ok tx [] => .ok { tx with witnesses := List.replicate tx.inputs.length [] }
  | .ok _ _ => .error (Text.lit "data not consumed entirely when explicitly deserializing")
  | .error e _ => .error e

/-- The Bitcoin library on the keys, scripts and signatures of the sample. -/
def crate : BitcoinCrate Key Signature where
  sha256 := Sha2.sha256
  hash160 := fun key => if key = firstKey.toList then firstHash else secondHash
  serializeKey := id
  keyFromSlice := .ok
  serializeSignature := Subtype.val
  signatureFromSlice := fun bytes =>
    if h : bytes.length ≤ 73 then .ok ⟨bytes, h⟩ else .error (Text.lit "malformed DER")
  sighashAll := fun signature => signature.val.getLast? == some 1
  lowS := fun _ => true
  p2wshSignatureHash := fun _ index _ _ => .ok (digests.getD index (Bytes.zero 32))
  p2wpkhSignatureHash := fun _ index _ _ => .ok (digests.getD index (Bytes.zero 32))
  verifyEcdsa := fun digest signature key =>
    if (digest, signature, key) ∈
        digests.zip [(stockSignature, stockKey), (firstSignature, firstKey),
          (secondSignature, secondKey)] then
      .ok ()
    else
      .error (Text.lit "signature failed verification")
  deserializeTransaction := deserialize

def proposal : Proposal Key where
  version := batchVersion
  chainId := Bytes.ofLe 32 0x19d6689c085ae165831e934ff763ae46a2a6c172b3f1b60a8ce26f
  stockOutpoint := ⟨List.Vector.replicate 32 1, 0⟩
  stockValue := 10000
  stockOwnerPubkey := stockKey
  participantCount := 2
  proposalNonce := List.Vector.replicate 32 2
  observedTipHeight := 100
  expiryHeight := 200
  targetFeerateSatVb := 5
  maxFeerateSatVb := 20

/-- A participant with its own payload, input and change. -/
def participant
    (seed : UInt8)
    (key : Key)
    (hash : Bytes 20) : ParticipantCommitment Key where
  batchId := proposal.batchId crate
  operationId := List.Vector.replicate 32 seed
  commitNonce := List.Vector.replicate 32 (seed + 1)
  payload := ⟨List.Vector.replicate 24 (seed + 2)⟩
  feeOutpoint := ⟨List.Vector.replicate 32 (seed + 3), 1⟩
  feePrevout := ⟨20000, [0x00, 0x14] ++ hash.toList⟩
  feePubkey := key
  changeSpk := [0x00, 0x14] ++ List.replicate 20 (seed + 4)
  maxCharge := 8000

def first : ParticipantCommitment Key := participant 0x10 firstKey firstHash
def second : ParticipantCommitment Key := participant 0x20 secondKey secondHash

/-- The header of the two payloads. -/
def record : AnchorRecord :=
  .batchHeader 2
    (batchCommitV2 foldSponge [first.payload, second.payload] (proposal.context crate)).toAnchor

/-- The manifest of the two participants. -/
def manifest : Manifest Key where
  batchId := proposal.batchId crate
  replacementEpoch := 0
  feerateSatVb := 5
  maxWeight := 1814
  minerFee := 2270
  totalCharge := 2816
  charges := [1408, 1408]
  commitments := [first, second]
  unsignedTx := transactionOf crate proposal [first, second] [18592, 18592] record markerSpk

theorem build_manifest :
    build crate foldSponge proposal [first, second] = .ok manifest := by
  decide +kernel

theorem deserialize_manifest :
    crate.deserializeTransaction manifest.unsignedTx.serialize = .ok manifest.unsignedTx := by
  decide +kernel

end Manifest.Sample

end OpenCsv
