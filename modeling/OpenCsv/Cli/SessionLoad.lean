import OpenCsv.Cli.Session

/-!
# Reading a session back

Everything a session accepted is read from its files again when it is needed, and checked
again: the proposal against the chain, every manifest against the one before it, every share
against its manifest.  Opening a session rebuilds the index in memory from the files.
-/

namespace OpenCsv

open Call

variable {K S R X : Type}

/-- Do two commitments share a key, an input, an operation or a payload? -/
def ParticipantCommitment.clashes
    [DecidableEq K]
    (existing commitment : ParticipantCommitment K) : Bool :=
  existing.feePubkey == commitment.feePubkey || existing.feeOutpoint == commitment.feeOutpoint ||
    existing.operationId == commitment.operationId || existing.payload == commitment.payload

/-- The order of the file names of manifests. -/
def manifestNameLe (a b : UInt32 × Bytes 32) : Bool :=
  a.1 < b.1 || (a.1 == b.1 && bytesLe a.2.toList b.2.toList)

/-- The order of the file names of signature shares. -/
def signatureNameLe (a b : Bytes 32 × UInt16) : Bool :=
  (a.1 != b.1 && bytesLe a.1.toList b.1.toList) || (a.1 == b.1 && a.2 ≤ b.2)

/-- The order of file names that are identifiers. -/
def idNameLe (a b : Bytes 32) : Bool :=
  bytesLe a.toList b.toList

section Loading

variable (crate : GossipCrate K S R X)
variable (sponge : Sponge)
variable [DecidableEq K]

namespace Session

/-- The proposal, checked against the chain as it is now. -/
def loadProposal (s : Session K X) : Except GossipError (Option (Proposal K)) :=
  match s.root.proposal with
  | none => .ok none
  | some wire => do
      let wire ← readLimited wire maxPayloadBytes SemanticPath.proposal.display
      let proposal ← (Proposal.fromWire crate.toBitcoinCrate wire).mapError batchError
      requireLiveProposal proposal
      (proposal.validateAt s.policy.chainId s.policy.currentHeight).mapError batchError
      return some proposal

/-- The proposal, or the error of a call that needs one. -/
def requireProposal (s : Session K X) (message : String) : Except GossipError (Proposal K) := do
  let proposal ← s.loadProposal crate
  okOr proposal (protocolError message)

/-- The canonical proposal of the session. -/
def proposal (s : Session K X) : Except GossipError (Proposal K) :=
  s.requireProposal crate "session has no proposal"

/-- Commitments are taken from the index. -/
def loadCommitments (s : Session K X) (proposal : Option (Proposal K)) :
    List (ParticipantCommitment K) :=
  match proposal with
  | none => []
  | some _ => s.commitments

end Session

/-- A stored manifest, rebuilt from the pool. -/
def readManifest
    (proposal : Proposal K)
    (commitments : List (ParticipantCommitment K))
    (file : (UInt32 × Bytes 32) × List UInt8) : Except GossipError (Manifest K) := do
  let wire ← readLimited file.2 maxPayloadBytes
    (SemanticPath.manifest file.1.1 file.1.2).display
  (Manifest.fromWirePool crate.toBitcoinCrate sponge proposal commitments wire).mapError batchError

/-- Every manifest is the replacement of the one before it. -/
def checkEpochs (proposal : Proposal K) : List (Manifest K) → Except GossipError Unit
  | m :: m' :: rest => do
      require (m.replacementEpoch + 1 = m'.replacementEpoch)
        (protocolError "persisted manifests skip/repeat an epoch")
      let expected ← (m.replacement crate.toBitcoinCrate sponge proposal
        m'.feerateSatVb).mapError batchError
      require (expected = m') (protocolError "persisted replacement violates C1 invariants")
      checkEpochs proposal (m' :: rest)
  | _ => .ok ()

def sortByEpoch (manifests : List (Manifest K)) : List (Manifest K) :=
  manifests.insertionSort (fun a b => a.replacementEpoch ≤ b.replacementEpoch)

/-- A stored share, verified against its manifest. -/
def readShare
    (proposal : Proposal K)
    (manifest : Manifest K)
    (file : (Bytes 32 × UInt16) × List UInt8) : Except GossipError (SignatureShare K S) := do
  let wire ← readLimited file.2 maxPayloadBytes
    (SemanticPath.signature file.1.1 file.1.2).display
  let share ← (SignatureShare.fromWire crate.toBitcoinCrate wire).mapError batchError
  (manifest.verifySignatureShare crate.toBitcoinCrate sponge proposal share).mapError batchError
  return share

namespace Session

def loadManifests
    (s : Session K X)
    (proposal : Option (Proposal K))
    (commitments : List (ParticipantCommitment K)) : Except GossipError (List (Manifest K)) :=
  match proposal with
  | none => .ok []
  | some proposal => do
      let manifests ← (s.root.manifests.listing manifestNameLe).mapM
        (readManifest crate sponge proposal commitments)
      let manifests := sortByEpoch manifests
      checkEpochs crate sponge proposal manifests
      return manifests

/-- The verified shares of a manifest, in the order of the inputs. -/
def loadSignatures
    (s : Session K X)
    (manifest : Manifest K)
    (proposal : Proposal K) : Except GossipError (List (SignatureShare K S)) := do
  let files := (s.root.signatures.listing signatureNameLe).filter
    (fun file => file.1.1 == manifest.manifestId crate.toBitcoinCrate)
  let shares ← files.mapM (readShare crate sponge proposal manifest)
  return shares.insertionSort (fun a b => a.inputIndex ≤ b.inputIndex)

/-- The recorded phase; its file may not exceed four kilobytes. -/
def loadPhase (s : Session K X) : Except GossipError (Option ProtocolPhase) :=
  match s.root.phase with
  | none => .ok none
  | some (phase, evidence) => do
      let _ ← readLimited (ascii phase.name ++ [0x0A] ++ evidence.bytes ++ [0x0A]) 4096
        (Text.lit "phase")
      return some phase

/-- The manifest with an identifier, or the error of a call that needs it. -/
def requireManifest
    (s : Session K X)
    (proposal : Proposal K)
    (manifestId : Bytes 32)
    (message : String) : Except GossipError (Manifest K) := do
  let manifests ← s.loadManifests crate sponge (some proposal)
    (s.loadCommitments (some proposal))
  okOr (manifests.find? (fun m => m.manifestId crate.toBitcoinCrate == manifestId))
    (protocolError message)

/-- The manifest of the last epoch. -/
def latestManifest (s : Session K X) : Except GossipError (Manifest K) := do
  let proposal ← s.proposal crate
  let manifests ← s.loadManifests crate sponge (some proposal)
    (s.loadCommitments (some proposal))
  okOr manifests.getLast? (protocolError "session has no manifest")

/-- One manifest by its identifier. -/
def manifest (s : Session K X) (manifestId : Bytes 32) : Except GossipError (Manifest K) := do
  let proposal ← s.proposal crate
  s.requireManifest crate sponge proposal manifestId "session has no named manifest"

end Session

/-- What `status` reports. -/
structure SessionStatus where
  phase : ProtocolPhase
  batchId : Option (Bytes 32)
  commitments : ℕ
  manifests : ℕ
  latestManifestId : Option (Bytes 32)
  signatureShares : ℕ
  requiredSignatures : ℕ
deriving DecidableEq

namespace Session

/-- Does one of the manifests have a share?  The first that does ends the search. -/
def anySignatureShare
    (s : Session K X)
    (proposal : Proposal K) : List (Manifest K) → Except GossipError Bool
  | [] => .ok false
  | m :: manifests => do
      let shares ← s.loadSignatures crate sponge m proposal
      if shares.isEmpty then s.anySignatureShare proposal manifests else .ok true

/-- Is any share of any manifest stored? -/
def hasAnySignatureShare (s : Session K X) : Except GossipError Bool := do
  let proposal ← s.loadProposal crate
  match proposal with
  | none => return false
  | some proposal => do
      let manifests ← s.loadManifests crate sponge (some proposal)
        (s.loadCommitments (some proposal))
      s.anySignatureShare crate sponge proposal manifests

/-- The phase that the files show, where none is recorded. -/
def derivedPhase
    (s : Session K X)
    (proposal : Option (Proposal K))
    (latest : Option (Manifest K))
    (commitments : List (ParticipantCommitment K)) : ProtocolPhase :=
  match proposal, latest with
  | none, _ => .ready
  | some _, some latest =>
      if s.root.signed.has (latest.manifestId crate.toBitcoinCrate) then .signedPersisted
      else .manifestReady
  | some _, none => if commitments.isEmpty then .proposed else .committed

/-- The status of the session, from its files and its recorded phase. -/
def status (s : Session K X) : Except GossipError SessionStatus := do
  let proposal ← s.loadProposal crate
  let commitments := s.loadCommitments proposal
  let manifests ← s.loadManifests crate sponge proposal commitments
  let latest := manifests.getLast?
  let signatureShares ← match latest, proposal with
    | some manifest, some proposal =>
        (s.loadSignatures crate sponge manifest proposal).map List.length
    | _, _ => .ok 0
  let derived := s.derivedPhase crate proposal latest commitments
  let recorded ← s.loadPhase
  return {
    phase := recorded.getD derived
    batchId := proposal.map (Proposal.batchId crate.toBitcoinCrate)
    commitments := commitments.length
    manifests := manifests.length
    latestManifestId := latest.map (Manifest.manifestId crate.toBitcoinCrate)
    signatureShares
    requiredSignatures := (latest.map (fun m => m.commitments.length + 1)).getD 0 }

end Session

end Loading

end OpenCsv
