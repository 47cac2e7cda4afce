import OpenCsv.Cli.SessionLoad

/-!
# Ingesting frames and rebuilding the index

A frame that comes in is authenticated, checked against the policy of the deployment and
against the objects already stored, and then written: first the object it carries, then the
frame, then a line of the event log.  The index in memory follows the writes, and opening the
directory computes the index again from the files alone.
-/

namespace OpenCsv

open Call

variable {K S R X : Type}

/-- Result of durable frame ingestion. -/
inductive IngestOutcome where
  | accepted
  /-- The frame of this body was already stored; it is not relayed again. -/
  | duplicate
deriving DecidableEq

/-- An object that a frame carries, as it was read. -/
inductive SemanticObject (K S : Type) where
  | proposal (proposal : Proposal K)
  | commitment (commitment : ParticipantCommitment K)
  | manifest (manifest : Manifest K)
  | signature (share : SignatureShare K S)
deriving DecidableEq

/-- Where the object is stored. -/
def SemanticObject.path (crate : GossipCrate K S R X) : SemanticObject K S → SemanticPath
  | .proposal _ => .proposal
  | .commitment c => .commitment (c.commitmentId crate.toBitcoinCrate)
  | .manifest m => .manifest m.replacementEpoch (m.manifestId crate.toBitcoinCrate)
  | .signature share => .signature share.manifestId share.inputIndex

section Checks

variable (crate : GossipCrate K S R X)
variable (sponge : Sponge)
variable [DecidableEq K]

/-- Where a manifest may be stored: once in an epoch, as the replacement of the last one. -/
def checkManifestPlace
    (proposal : Proposal K)
    (existing : List (Manifest K))
    (manifest : Manifest K) : Except GossipError Unit :=
  match existing.find? (fun m => m.replacementEpoch == manifest.replacementEpoch) with
  | some sameEpoch =>
      require (sameEpoch = manifest) (protocolError "manifest equivocation at one epoch")
  | none =>
      if manifest.replacementEpoch = 0 then
        require existing.isEmpty (protocolError "late epoch-zero manifest")
      else do
        let previous ← okOr
          (existing.find? (fun m => m.replacementEpoch + 1 == manifest.replacementEpoch))
          (protocolError "replacement manifest skipped an epoch")
        let expected ← (previous.replacement crate.toBitcoinCrate sponge proposal
          manifest.feerateSatVb).mapError batchError
        require (expected = manifest)
          (protocolError "replacement manifest violates C1 invariants")

/-- The commitment in a payload. -/
def readCommitment
    (proposal : Proposal K)
    (payload : List UInt8) : Except GossipError (ParticipantCommitment K) :=
  (ParticipantCommitment.fromWire crate.toBitcoinCrate proposal payload).mapError batchError

namespace Session

/-- Proposals and commitments are authorized by the Bitcoin key that they name. -/
def verifyOriginAuthorization
    (s : Session K X)
    (frame : SignedFrame K R) : Except GossipError Unit :=
  match frame.kind with
  | .proposal => do
      let proposal ←
        (Proposal.fromWire crate.toBitcoinCrate frame.payload).mapError batchError
      requireLiveProposal proposal
      frame.verifyOriginSignature crate proposal.stockOwnerPubkey
  | .commitment => do
      let proposal ← s.requireProposal crate "commitment arrived before proposal"
      let commitment ← readCommitment crate proposal frame.payload
      frame.verifyOriginSignature crate commitment.feePubkey
  | .manifest | .signature =>
      require frame.originSignature.isNone
        (protocolError "manifest/signature frames must not carry origin authorization")

/-- A session in a terminal phase takes no new frame. -/
def requireOpen (s : Session K X) : Except GossipError Unit := do
  let phase ← s.loadPhase
  require (!phase.any ProtocolPhase.rejectsNewProtocolMessages)
    (protocolError "terminal/confirmed session rejects new protocol messages")

/-- There is room for the bytes of the frame. -/
def requireFrameQuota (s : Session K X) (wireLen : ℕ) : Except GossipError Unit := do
  let projected ← okOr (checkedAdd s.storedFrameBytes (UInt64.ofNat wireLen))
    (protocolError "stored frame-byte counter overflow")
  require (projected ≤ s.relayPolicy.maxSessionBytes)
    (protocolError "session frame-byte quota exceeded")

/-- Is the commitment in the index? -/
def indexed (s : Session K X) (commitment : ParticipantCommitment K) : Bool :=
  s.commitments.any (fun existing =>
    existing.commitmentId crate.toBitcoinCrate == commitment.commitmentId crate.toBitcoinCrate)

/-- There is room for the commitment, and it shares nothing with the others. -/
def admitCommitment
    (s : Session K X)
    (proposal : Proposal K)
    (commitment : ParticipantCommitment K)
    (sender : K) : Except GossipError Unit :=
  if s.indexed crate commitment then .ok ()
  else do
    require (s.commitments.length <
        min s.relayPolicy.maxCommitments.toNat proposal.participantCount.toNat)
      (protocolError "authorized commitment quota exceeded")
    require (crate.serializeKey sender ∉ s.commitmentSenders)
      (protocolError "relay identity already authorized another commitment")
    require (!s.commitments.any (fun existing => existing.clashes commitment))
      (protocolError
        "authorized commitment identity/outpoint/operation/payload quota exceeded")

/-- The policy of the deployment. -/
def enforceFramePolicy
    (s : Session K X)
    (frame : SignedFrame K R)
    (wireLen : ℕ) : Except GossipError Unit := do
  s.requireFrameQuota wireLen
  match frame.kind with
  | .proposal => do
      let existing ← s.loadProposal crate
      require (existing.all (fun p => p.wireBytes crate.toBitcoinCrate == frame.payload))
        (protocolError "different proposal body in an initialized session")
  | .commitment => do
      let proposal ← s.requireProposal crate "commitment arrived before proposal"
      let commitment ← readCommitment crate proposal frame.payload
      s.admitCommitment crate proposal commitment frame.sender
  | .manifest => do
      let proposal ← s.requireProposal crate "manifest arrived before proposal"
      let manifest ← (Manifest.fromWirePool crate.toBitcoinCrate sponge proposal s.commitments
        frame.payload).mapError batchError
      require (manifest.replacementEpoch < s.relayPolicy.maxReplacementEpochs)
        (protocolError "local replacement-epoch quota exceeded")
  | .signature => .ok ()

/-- The object of a frame, checked against the objects that are stored. -/
def validateSemantic
    (s : Session K X)
    (frame : SignedFrame K R) : Except GossipError (SemanticObject K S) :=
  match frame.kind with
  | .proposal => do
      let proposal ←
        (Proposal.fromWire crate.toBitcoinCrate frame.payload).mapError batchError
      (proposal.validateAt s.policy.chainId s.policy.currentHeight).mapError batchError
      return .proposal proposal
  | .commitment => do
      let proposal ← s.requireProposal crate "commitment arrived before proposal"
      let commitment ← readCommitment crate proposal frame.payload
      return .commitment commitment
  | .manifest => do
      let proposal ← s.requireProposal crate "manifest arrived before proposal"
      let commitments := s.loadCommitments (some proposal)
      let manifest ← (Manifest.fromWirePool crate.toBitcoinCrate sponge proposal commitments
        frame.payload).mapError batchError
      let existing ← s.loadManifests crate sponge (some proposal) commitments
      checkManifestPlace crate sponge proposal existing manifest
      return .manifest manifest
  | .signature => do
      let proposal ← s.requireProposal crate "signature arrived before proposal"
      let manifests ← s.loadManifests crate sponge (some proposal)
        (s.loadCommitments (some proposal))
      let share ←
        (SignatureShare.fromWire crate.toBitcoinCrate frame.payload).mapError batchError
      let manifest ← okOr
        (manifests.find? (fun m => m.manifestId crate.toBitcoinCrate == share.manifestId))
        (protocolError "signature names an unavailable manifest")
      (manifest.verifySignatureShare crate.toBitcoinCrate sponge proposal share).mapError
        batchError
      return .signature share

/-- A new commitment and its relay identity enter the index. -/
def remember
    (s : Session K X)
    (object : SemanticObject K S)
    (sender : K) : Session K X :=
  match object with
  | .commitment commitment =>
      if s.indexed crate commitment then s
      else
        { s with
          commitments := s.commitments ++ [commitment]
          commitmentSenders := insert (crate.serializeKey sender) s.commitmentSenders }
  | _ => s

end Session

end Checks

section Ingest

variable (crate : GossipCrate K S R X)
variable (sponge : Sponge)
variable [DecidableEq K]

/-- Check the object of a frame, write its file, and index it. -/
def persistSemantic
    (outcome : WriteOutcome)
    (frame : SignedFrame K R) : Call GossipError (Session K X) Unit := do
  let object ← reads (fun s => s.validateSemantic crate sponge frame)
  semanticWrite outcome (object.path crate) frame.payload
  modify (fun s => s.remember crate object frame.sender)

/-- Where the frame of a body is. -/
def framePath (semanticFrameId : Bytes 32) : Text :=
  Text.lit "frames/" ++ toHex semanticFrameId.toList ++ Text.lit ".frame"

/-- A stored frame has the body of the frame that came in. -/
def checkDuplicate
    [DecidableEq R]
    (frame : SignedFrame K R)
    (existing : List UInt8) : Except GossipError Unit := do
  let existing ← readLimited existing maxFrameBytes (framePath (frame.semanticFrameId crate))
  let existing ← SignedFrame.fromWire crate existing
  require (existing.kind = frame.kind ∧ existing.payload = frame.payload)
    (protocolError "semantic frame-id collision")

/-- The line of the event log for an accepted frame. -/
def acceptedEvent (frame : SignedFrame K R) : Text :=
  Text.lit "accepted " ++ Text.lit frame.kind.name ++ Text.lit " " ++
    toHex (frame.id crate).toList ++ Text.lit " " ++
      toHex (crate.serializeKey frame.sender).toList

/-- A frame that is not stored: check it, write its object and the frame, and count its bytes. -/
def ingestNew
    (io : IngestWrite → WriteOutcome)
    (frame : SignedFrame K R)
    (wire : List UInt8) : Call GossipError (Session K X) IngestOutcome := do
  reads (fun s => s.requireOpen)
  reads (fun s => s.enforceFramePolicy crate sponge frame wire.length)
  persistSemantic crate sponge (io .semantic) frame
  atomicWrite (io .frame) (fun root =>
    { root with frames := root.frames.insert (frame.semanticFrameId crate) wire })
  let s ← get
  let storedFrameBytes ← lift (okOr (checkedAdd s.storedFrameBytes (UInt64.ofNat wire.length))
    (protocolError "stored frame-byte counter overflow"))
  modify (fun s => { s with storedFrameBytes })
  appendEvent (io .event) (acceptedEvent crate frame)
  return .accepted

/-- Authenticate, validate and persist one frame before it is relayed. -/
def ingest
    [DecidableEq R]
    (io : IngestWrite → WriteOutcome)
    (wire : List UInt8) : Call GossipError (Session K X) IngestOutcome := do
  let frame ← lift (SignedFrame.fromWire crate wire)
  reads (fun s => s.verifyOriginAuthorization crate frame)
  let s ← get
  match s.root.frames.get (frame.semanticFrameId crate) with
  | some existing => do
      lift (checkDuplicate crate frame existing)
      return .duplicate
  | none => ingestNew crate sponge io frame wire

/-- All writes are done. -/
def writesDone : IngestWrite → WriteOutcome :=
  fun _ => .done

end Ingest

section Rebuild

variable (crate : GossipCrate K S R X)
variable [DecidableEq K]

/-- The stored proposal, whatever the height of the chain. -/
def storedProposal (root : SessionRoot X) : Except GossipError (Option (Proposal K)) :=
  match root.proposal with
  | none => .ok none
  | some wire => do
      let wire ← readLimited wire maxPayloadBytes SemanticPath.proposal.display
      let proposal ← (Proposal.fromWire crate.toBitcoinCrate wire).mapError batchError
      requireLiveProposal proposal
      return some proposal

/-- The stored commitments, one after the other. -/
def rebuildCommitments (proposal : Option (Proposal K)) :
    List (Bytes 32 × List UInt8) → List (ParticipantCommitment K) →
      Except GossipError (List (ParticipantCommitment K))
  | [], commitments => .ok commitments
  | file :: files, commitments => do
      let p ← okOr proposal (protocolError "stored commitment has no proposal")
      let wire ← readLimited file.2 maxPayloadBytes (SemanticPath.commitment file.1).display
      let commitment ← readCommitment crate p wire
      require (!commitments.any (fun existing => existing.clashes commitment))
        (protocolError "stored commitment pool violates authorized identity quotas")
      rebuildCommitments proposal files (commitments ++ [commitment])

/-- What is gathered from the frames. -/
structure FrameIndex where
  storedFrameBytes : UInt64
  commitmentSenders : Finset (Bytes 33)
  authorizedCommitments : Finset (Bytes 32)
deriving DecidableEq

/-- The bytes of one more frame. -/
def FrameIndex.count
    (index : FrameIndex)
    (maxSessionBytes : UInt64)
    (length : ℕ) : Except GossipError FrameIndex := do
  let storedFrameBytes ← okOr (checkedAdd index.storedFrameBytes (UInt64.ofNat length))
    (protocolError "stored frame-byte counter overflow")
  require (storedFrameBytes ≤ maxSessionBytes)
    (protocolError "stored frames exceed local byte quota")
  return { index with storedFrameBytes }

/-- The authorization of one more frame. -/
def FrameIndex.add
    (index : FrameIndex)
    (proposal : Option (Proposal K))
    (frame : SignedFrame K R) : Except GossipError FrameIndex :=
  match frame.kind with
  | .proposal => do
      let stored ← (Proposal.fromWire crate.toBitcoinCrate frame.payload).mapError batchError
      frame.verifyOriginSignature crate stored.stockOwnerPubkey
      return index
  | .commitment => do
      let p ← okOr proposal (protocolError "commitment frame has no proposal")
      let commitment ← readCommitment crate p frame.payload
      frame.verifyOriginSignature crate commitment.feePubkey
      require (crate.serializeKey frame.sender ∉ index.commitmentSenders)
        (protocolError "stored relay identity authorized multiple commitments")
      return { index with
        commitmentSenders := insert (crate.serializeKey frame.sender) index.commitmentSenders
        authorizedCommitments :=
          insert (commitment.commitmentId crate.toBitcoinCrate) index.authorizedCommitments }
  | .manifest | .signature => do
      require frame.originSignature.isNone
        (protocolError "stored manifest/signature has unexpected origin authorization")
      return index

/-- The stored frames, one after the other. -/
def rebuildFrames
    [DecidableEq R]
    (relayPolicy : RelayPolicy)
    (proposal : Option (Proposal K)) :
    List (Bytes 32 × List UInt8) → FrameIndex → Except GossipError FrameIndex
  | [], index => .ok index
  | file :: files, index => do
      let index ← index.count relayPolicy.maxSessionBytes file.2.length
      let wire ← readLimited file.2 maxFrameBytes (framePath file.1)
      let frame ← SignedFrame.fromWire crate wire
      let index ← index.add crate proposal frame
      rebuildFrames relayPolicy proposal files index

/-- The index of a session, computed from its files. -/
def rebuildSessionIndex
    [DecidableEq R]
    (root : SessionRoot X)
    (relayPolicy : RelayPolicy) :
    Except GossipError (List (ParticipantCommitment K) × Finset (Bytes 33) × UInt64) := do
  let proposal ← storedProposal crate root
  let commitments ← rebuildCommitments crate proposal (root.commitments.listing idNameLe) []
  let participantCap := proposal.elim 0 (fun p => p.participantCount.toNat)
  require (commitments.length ≤ min participantCap relayPolicy.maxCommitments.toNat)
    (protocolError "stored commitment pool exceeds local quota")
  let index ← rebuildFrames crate relayPolicy proposal (root.frames.listing idNameLe)
    ⟨0, ∅, ∅⟩
  require (commitments.all (fun c =>
      c.commitmentId crate.toBitcoinCrate ∈ index.authorizedCommitments))
    (protocolError "stored commitment lacks its authorized relay frame")
  return (commitments, index.commitmentSenders, index.storedFrameBytes)

namespace Session

/-- Open the directory of a session. -/
def openRoot
    [DecidableEq R]
    (root : SessionRoot X) : Except GossipError (Session K X) := do
  let relayPolicy ← root.relayPolicy.validate
  let index ← rebuildSessionIndex crate root relayPolicy
  return {
    root
    policy := root.policy
    relayPolicy
    identity := root.identity
    commitments := index.1
    commitmentSenders := index.2.1
    storedFrameBytes := index.2.2 }

/-- Create a session in a new directory. -/
def init
    [DecidableEq R]
    (policy : SessionPolicy)
    (relayPolicy : RelayPolicy)
    (identity : X) : Except GossipError (Session K X) := do
  let relayPolicy ← relayPolicy.validate
  openRoot crate (SessionRoot.create policy relayPolicy identity)

end Session

end Rebuild

end OpenCsv
