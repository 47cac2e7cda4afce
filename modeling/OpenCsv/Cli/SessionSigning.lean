import OpenCsv.Cli.SessionIngest

/-!
# Signing in a session

A signer reserves its own input for one operation, releases a signature of a manifest only with
a fresh verification of the inputs and the reservation, and anybody finishes a manifest when
all its shares are stored.  A finished transaction is written before it is returned, and the
phase of the session is recorded with one line of evidence.
-/

namespace OpenCsv

open Call

variable {K S R X : Type}

section Receipts

/-- A maximum age. -/
structure Duration where
  secs : UInt64
  nanos : UInt32
deriving DecidableEq

def Duration.isZero (duration : Duration) : Bool :=
  duration.secs == 0 && duration.nanos == 0

/-- `Error::InvalidInput` of the filter client, as this layer shows it. -/
def invalidInput (message : Text) : GossipError :=
  protocolText (Text.lit "invalid input: " ++ message)

/-- A receipt is neither from the future nor too old. -/
def requireFreshTimestamp
    (now timestamp : UInt64)
    (maxAge : Duration) : Except GossipError Unit := do
  require (!maxAge.isZero) (invalidInput (Text.lit "verified-tip maximum age must be positive"))
  let age ← okOr (checkedSub now timestamp)
    (invalidInput (Text.lit "verified-tip receipt time is in the future"))
  require (age ≤ maxAge.secs)
    (invalidInput (Text.lit "verified-tip receipt age " ++ Text.ofNat age.toNat ++
      Text.lit "s exceeds signing limit " ++ Text.ofNat maxAge.secs.toNat ++ Text.lit "s"))

/-- A tip that all peers agreed on. -/
structure VerifiedChainTip where
  chainId : Bytes 32
  height : UInt64
  hash : Bytes 32
  verifiedAtUnixSeconds : UInt64
deriving DecidableEq

/-- The inputs of one manifest were verified. -/
structure VerifiedBatchInputs where
  batchId : Bytes 32
  manifestId : Bytes 32
  verifiedAtUnixSeconds : UInt64
deriving DecidableEq

/-- The inputs of one commitment were verified. -/
structure VerifiedCommitmentInputs where
  batchId : Bytes 32
  commitmentId : Bytes 32
  verifiedAtUnixSeconds : UInt64
deriving DecidableEq

def VerifiedBatchInputs.requireFreshFor
    (crate : GossipCrate K S R X)
    (verified : VerifiedBatchInputs)
    (proposal : Proposal K)
    (manifest : Manifest K)
    (now : UInt64)
    (maxAge : Duration) : Except GossipError Unit := do
  require (verified.batchId = proposal.batchId crate.toBitcoinCrate ∧
      verified.manifestId = manifest.manifestId crate.toBitcoinCrate)
    (invalidInput
      (Text.lit "verified batch inputs belong to another proposal or manifest"))
  requireFreshTimestamp now verified.verifiedAtUnixSeconds maxAge

def VerifiedCommitmentInputs.requireFreshFor
    (crate : GossipCrate K S R X)
    (verified : VerifiedCommitmentInputs)
    (proposal : Proposal K)
    (commitment : ParticipantCommitment K)
    (now : UInt64)
    (maxAge : Duration) : Except GossipError Unit := do
  require (verified.batchId = proposal.batchId crate.toBitcoinCrate ∧
      verified.commitmentId = commitment.commitmentId crate.toBitcoinCrate)
    (invalidInput (Text.lit "verified commitment inputs belong to another operation"))
  requireFreshTimestamp now verified.verifiedAtUnixSeconds maxAge

end Receipts

section Signing

variable (crate : GossipCrate K S R X)
variable (sponge : Sponge)
variable [DecidableEq K]

/-- The secret key is that of the committed input. -/
def requireKey (secretKey : X) (expected : K) : Except ProtocolError Unit :=
  require (crate.publicKey secretKey = expected)
    (.new .invalidSignature "secret key does not control the committed input")

namespace Manifest

/-- Sign input 0. -/
def signStock
    (manifest : Manifest K)
    (proposal : Proposal K)
    (secretKey : X) : Except ProtocolError S := do
  manifest.validate crate.toBitcoinCrate sponge proposal
  requireKey crate secretKey proposal.stockOwnerPubkey
  let sighash ← (crate.p2wshSignatureHash manifest.unsignedTx 0
    (proposal.stockScript crate.toBitcoinCrate) proposal.stockValue).mapError
      (fun e => ⟨.signaturePolicyViolation, Text.lit "stock sighash: " ++ e⟩)
  return crate.signInput sighash secretKey

/-- Sign the input of a participant. -/
def signParticipant
    (manifest : Manifest K)
    (proposal : Proposal K)
    (participantIndex : ℕ)
    (secretKey : X) : Except ProtocolError S := do
  manifest.validate crate.toBitcoinCrate sponge proposal
  let commitment ← okOr manifest.commitments[participantIndex]?
    (.new .invalidCommitment "participant index out of range")
  requireKey crate secretKey commitment.feePubkey
  let sighash ← (crate.p2wpkhSignatureHash manifest.unsignedTx (participantIndex + 1)
    commitment.feePrevout.scriptPubkey commitment.feePrevout.value).mapError
      (fun e => ⟨.signaturePolicyViolation, Text.lit "participant sighash: " ++ e⟩)
  return crate.signInput sighash secretKey

end Manifest

/-- A share with a signature of the permitted form. -/
def SignatureShare.new
    (manifestId : Bytes 32)
    (inputIndex : UInt16)
    (signerPubkey : K)
    (signature : S) : Except ProtocolError (SignatureShare K S) := do
  SignatureShare.requireAll crate.toBitcoinCrate signature
  return { manifestId, inputIndex, signerPubkey, signature }

/-- The signature of one input, with the operation, the outpoint and the key it belongs to. -/
structure InputSignature (K S : Type) where
  operationId : Bytes 32
  outpoint : OutPoint
  signerPubkey : K
  signature : S

/-- Sign one input of a manifest: the stock, or that of a participant. -/
def signInputOf
    (proposal : Proposal K)
    (manifest : Manifest K)
    (inputIndex : UInt16)
    (signingKey : X) : Except GossipError (InputSignature K S) :=
  match inputIndex.toNat with
  | 0 => do
      let signature ← (manifest.signStock crate sponge proposal signingKey).mapError batchError
      return {
        operationId := proposal.batchId crate.toBitcoinCrate
        outpoint := proposal.stockOutpoint
        signerPubkey := proposal.stockOwnerPubkey
        signature }
  | participantIndex + 1 => do
      let commitment ← okOr manifest.commitments[participantIndex]?
        (protocolError "signature input index is outside the manifest")
      let signature ← (manifest.signParticipant crate sponge proposal participantIndex
        signingKey).mapError batchError
      return {
        operationId := commitment.operationId
        outpoint := commitment.feeOutpoint
        signerPubkey := commitment.feePubkey
        signature }

end Signing

section Reservations

namespace SessionRoot

variable {X : Type}

/-- The file of a reservation. -/
def putReservation
    (root : SessionRoot X)
    (reservation : LocalReservation) : SessionRoot X :=
  { root with reservations := root.reservations.put reservation.operationId reservation }

end SessionRoot

/-- Look through the reservations for the operation and for the input. -/
def findReservation
    (operationId : Bytes 32)
    (outpoint : OutPoint) :
    List (Bytes 32 × LocalReservation) → Except GossipError (Option LocalReservation)
  | [] => .ok none
  | (_, existing) :: files =>
      if existing.operationId = operationId then
        if existing.outpoint = outpoint then .ok (some existing)
        else .error (protocolError "operation already reserves another Bitcoin input")
      else if existing.outpoint = outpoint ∧ !existing.phase.isReleasable then
        .error (protocolError "Bitcoin input is reserved by another local operation")
      else findReservation operationId outpoint files

namespace Session

/-- Reload one reservation. -/
def localReservation
    (s : Session K X)
    (operationId : Bytes 32) : Except GossipError LocalReservation :=
  okOr (s.root.reservations.get operationId) .io

/-- The reservation is the stored one, for this operation and input, and it is still held. -/
def requireReservation
    (s : Session K X)
    (supplied : LocalReservation)
    (expectedOperationId : Bytes 32)
    (expectedOutpoint : OutPoint) : Except GossipError Unit := do
  require (supplied.operationId = expectedOperationId ∧ supplied.outpoint = expectedOutpoint)
    (protocolError "local reservation does not match this operation and input")
  let persisted ← s.localReservation expectedOperationId
  require (persisted = supplied) (protocolError "local reservation capability is stale")
  require (!persisted.phase.isReleasable)
    (protocolError "local reservation is no longer signable")

end Session

/-- Reserve one input for one operation. -/
def reserveLocalInput
    (operationId : Bytes 32)
    (outpoint : OutPoint) : Call GossipError (Session K X) LocalReservation := do
  let existing ← reads (fun s =>
    findReservation operationId outpoint (s.root.reservations.listing idNameLe))
  match existing with
  | some existing => return existing
  | none => do
      let reservation : LocalReservation := ⟨operationId, outpoint, .committedUnsigned⟩
      atomicWrite .done (fun root => root.putReservation reservation)
      return reservation

end Reservations

section Publishing

variable (crate : GossipCrate K S R X)
variable (sponge : Sponge)
variable [DecidableEq K] [DecidableEq R]

/-- Ingest a frame of this session, and return its bytes for the peers. -/
def publishFrame
    (frame : SignedFrame K R) : Call GossipError (Session K X) (List UInt8) := do
  let wire := frame.toWire crate
  let _ ← ingest crate sponge writesDone wire
  return wire

/-- Publish a manifest or a signature share. -/
def publish
    (kind : MessageKind)
    (payload : List UInt8) : Call GossipError (Session K X) (List UInt8) := do
  let frame ← reads (fun s => SignedFrame.sign crate kind payload s.identity)
  publishFrame crate sponge frame

/-- Publish a proposal with the stock key. -/
def publishProposal
    (payload : List UInt8)
    (stockKey : X) : Call GossipError (Session K X) (List UInt8) := do
  let frame ← reads (fun s => SignedFrame.signProposal crate payload s.identity stockKey)
  publishFrame crate sponge frame

/-- Publish a commitment with its fee key. -/
def publishCommitment
    (payload : List UInt8)
    (feeKey : X) : Call GossipError (Session K X) (List UInt8) := do
  let proposal ← reads (fun s => s.requireProposal crate "commitment arrived before proposal")
  let frame ← reads (fun s =>
    SignedFrame.signCommitment crate proposal payload s.identity feeKey)
  publishFrame crate sponge frame

/-- Publish a commitment whose inputs were verified and reserved. -/
def publishVerifiedCommitment
    (payload : List UInt8)
    (feeKey : X)
    (verified : VerifiedCommitmentInputs)
    (reservation : LocalReservation)
    (now : UInt64)
    (maxAge : Duration) : Call GossipError (Session K X) (List UInt8) := do
  let proposal ← reads (fun s => s.proposal crate)
  let commitment ← lift (readCommitment crate proposal payload)
  lift (verified.requireFreshFor crate proposal commitment now maxAge)
  reads (fun s =>
    s.requireReservation reservation commitment.operationId commitment.feeOutpoint)
  publishCommitment crate sponge payload feeKey

/-- Author and publish the initial manifest. -/
def authorManifest : Call GossipError (Session K X) (List UInt8) := do
  let proposal ← reads (fun s => s.proposal crate)
  let manifest ← reads (fun s =>
    (Manifest.build crate.toBitcoinCrate sponge proposal s.commitments).mapError batchError)
  publish crate sponge .manifest (manifest.wireBytes crate.toBitcoinCrate)

/-- Author and publish the next replacement. -/
def authorReplacement
    (feerateSatVb : UInt32) : Call GossipError (Session K X) (List UInt8) := do
  let proposal ← reads (fun s => s.proposal crate)
  let previous ← reads (fun s => s.latestManifest crate sponge)
  let replacement ← lift ((previous.replacement crate.toBitcoinCrate sponge proposal
    feerateSatVb).mapError batchError)
  publish crate sponge .manifest (replacement.wireBytes crate.toBitcoinCrate)

/-- Release one signature: the reservation is advanced before the share is published. -/
def signAndPublish
    (manifestId : Bytes 32)
    (inputIndex : UInt16)
    (signingKey : X)
    (verified : VerifiedBatchInputs)
    (reservation : LocalReservation)
    (now : UInt64)
    (maxAge : Duration) : Call GossipError (Session K X) (List UInt8) := do
  let proposal ← reads (fun s => s.proposal crate)
  let manifest ← reads (fun s => s.requireManifest crate sponge proposal manifestId
    "cannot sign an unavailable manifest")
  lift (verified.requireFreshFor crate proposal manifest now maxAge)
  let signed ← lift (signInputOf crate sponge proposal manifest inputIndex signingKey)
  reads (fun s => s.requireReservation reservation signed.operationId signed.outpoint)
  let phase ← lift (reservation.phase.toSignatureReleased.mapError batchError)
  atomicWrite .done (fun root => root.putReservation ⟨signed.operationId, signed.outpoint, phase⟩)
  let share ← lift ((SignatureShare.new crate manifestId inputIndex signed.signerPubkey
    signed.signature).mapError batchError)
  publish crate sponge .signature (share.wireBytes crate.toBitcoinCrate)

end Publishing

section Finishing

variable (crate : GossipCrate K S R X)
variable (sponge : Sponge)
variable [DecidableEq K] [DecidableEq S]

/-- Decode a stored transaction; its encoding is canonical. -/
def readSigned
    (manifestId : Bytes 32)
    (bytes : List UInt8) : Except GossipError Transaction := do
  let bytes ← readLimited bytes maxPayloadBytes
    (Text.lit "signed/" ++ toHex manifestId.toList ++ Text.lit ".tx")
  let transaction ← (crate.deserializeTransaction bytes).mapError
    (fun e => protocolText (Text.lit "signed transaction: " ++ e))
  require (transaction.serialize = bytes)
    (protocolError "non-canonical signed transaction encoding")
  return transaction

namespace Session

/-- The transaction that the stored shares of a manifest complete. -/
def finishShares
    (s : Session K X)
    (proposal : Proposal K)
    (manifest : Manifest K) : Except GossipError Transaction := do
  let shares ← s.loadSignatures crate sponge manifest proposal
  (manifest.finalizeShares crate.toBitcoinCrate sponge proposal shares).mapError batchError

/-- The stored transaction of one manifest, checked against its shares. -/
def signedTransaction
    (s : Session K X)
    (manifestId : Bytes 32) : Except GossipError Transaction := do
  let proposal ← s.requireProposal crate "session has no proposal"
  let manifest ← s.requireManifest crate sponge proposal manifestId
    "session has no named manifest"
  let bytes ← okOr (s.root.signed.get manifestId) .io
  let transaction ← readSigned crate manifestId bytes
  let expected ← s.finishShares crate sponge proposal manifest
  require (expected = transaction)
    (protocolError "persisted transaction differs from verified shares")
  return transaction

end Session

/-- Record that the signed transaction is stored, unless the session is already further. -/
def markSigned (manifestId : Bytes 32) : Call GossipError (Session K X) Unit := do
  let status ← reads (fun s => s.status crate sponge)
  if status.phase ∈ [.ready, .proposed, .committed, .manifestReady, .signedPersisted] then
    persistPhase .signedPersisted (toHex manifestId.toList)
  else
    appendEvent .done (Text.lit "signed_persisted " ++ toHex manifestId.toList)

/-- Finish one manifest, and store the transaction before returning it. -/
def finalizeManifest
    (manifestId : Bytes 32) : Call GossipError (Session K X) Transaction := do
  let proposal ← reads (fun s =>
    s.requireProposal crate "cannot finalize without a proposal")
  let manifest ← reads (fun s => s.requireManifest crate sponge proposal manifestId
    "cannot finalize an unavailable manifest")
  let s ← get
  if s.root.signed.has manifestId then
    reads (fun s => s.signedTransaction crate sponge manifestId)
  else do
    let status ← reads (fun s => s.status crate sponge)
    demand (!status.phase.rejectsNewProtocolMessages)
      (protocolError "terminal/confirmed session cannot finalize a new manifest")
    let transaction ← reads (fun s => s.finishShares crate sponge proposal manifest)
    atomicWrite .done (fun root =>
      { root with signed := root.signed.insert manifestId transaction.serialize })
    markSigned crate sponge manifestId
    return transaction

/-- Finish the manifest of the last epoch. -/
def finalizeLatest : Call GossipError (Session K X) Transaction := do
  let proposal ← reads (fun s =>
    s.requireProposal crate "cannot finalize without a proposal")
  let manifests ← reads (fun s => s.loadManifests crate sponge (some proposal)
    (s.loadCommitments (some proposal)))
  let manifest ← lift (okOr manifests.getLast?
    (protocolError "cannot finalize without a manifest"))
  finalizeManifest crate sponge (manifest.manifestId crate.toBitcoinCrate)

/-- Is the transition allowed? -/
def allowedTransition
    (s : Session K X)
    (status : SessionStatus) : ProtocolPhase → Except GossipError Bool
  | .broadcast => .ok (status.phase == .signedPersisted)
  | .mempool => .ok (status.phase ∈ [.broadcast, .mempool])
  | .confirmed => .ok (status.phase ∈ [.broadcast, .mempool, .confirmed])
  | .payloadDelivered => .ok (status.phase ∈ [.confirmed, .payloadDelivered])
  | .abortedBeforeSignature | .expiredUnsigned => do
      let anyShare ← s.hasAnySignatureShare crate sponge
      return !anyShare && status.phase ∈ [.proposed, .committed, .manifestReady]
  | .invalidatedOnChain => .ok (0 < status.manifests)
  | .ready | .proposed | .committed | .manifestReady | .signedPersisted => .ok false

/-- Record a transition of the phase with one line of evidence. -/
def markPhase
    (next : ProtocolPhase)
    (evidence : Text) : Call GossipError (Session K X) Unit := do
  demand (!evidence.bytes.any (fun b => b == 0x0A || b == 0x0D))
    (protocolError "phase evidence must be one line")
  let status ← reads (fun s => s.status crate sponge)
  let allowed ← reads (fun s => allowedTransition crate sponge s status next)
  demand allowed
    (protocolText (Text.lit "illegal batch phase transition " ++ Text.lit status.phase.name ++
      Text.lit " -> " ++ Text.lit next.name))
  persistPhase next evidence

end Finishing

/-- Move the height of the session to that of a fresh receipt. -/
def refreshVerifiedTip
    (tip : VerifiedChainTip)
    (now : UInt64)
    (maxAge : Duration) : Call GossipError (Session K X) Unit := do
  lift (requireFreshTimestamp now tip.verifiedAtUnixSeconds maxAge)
  let s ← get
  demand (tip.chainId = s.policy.chainId)
    (protocolError "verified tip belongs to another chain")
  demand (tip.height.toNat < 2 ^ 32) (protocolError "verified tip height exceeds u32")
  let currentHeight := tip.height.toUInt32
  modify (fun s => { s with policy := { s.policy with currentHeight } })
  let s ← get
  atomicWrite .done (fun root => { root with policy := s.policy })
  appendEvent .done (Text.lit "verified_tip " ++ Text.ofNat currentHeight.toNat ++
    Text.lit " " ++ toHex tip.hash.toList)

end OpenCsv
