import OpenCsv.Cli.GossipFrame
import OpenCsv.Lib.Directory

/-!
# Gossip sessions

A session keeps one batch in a directory: the proposal, the commitments, manifests and
signature shares it accepted, the frames they came in, the signed transactions, the phase and
the local reservations.  In memory it keeps an index of the commitments, their relay identities
and the bytes of all frames; the index is rebuilt from the files when the session is opened.

Files are written one at a time, and any write may fail.  The directory holds the session's own
small records (policy, reservations, phase) as values and everything that came from a peer as
the bytes it came in.
-/

namespace OpenCsv

open Call

section Phases

/-- The phase of the reservation of a fee input. -/
inductive ReservationPhase where
  | committedUnsigned
  | signatureReleased
  | confirmed
  | invalidatedOnChain
  | releasedBeforeSignature
deriving DecidableEq

namespace ReservationPhase

/-- `signature_released`: a signature went to another peer. -/
def toSignatureReleased : ReservationPhase → Except ProtocolError ReservationPhase
  | .committedUnsigned | .signatureReleased => .ok .signatureReleased
  | _ => .error (.new .conflictingOperation
      "cannot release a signature from a terminal reservation")

/-- `timeout_abort`: legal only before a signature was released. -/
def timeoutAbort : ReservationPhase → Except ProtocolError ReservationPhase
  | .committedUnsigned => .ok .releasedBeforeSignature
  | .signatureReleased => .error (.new .conflictingOperation
      "timeout cannot unlock an input after signature release")
  | state => .ok state

/-- May wallet policy release the fee input? -/
def isReleasable : ReservationPhase → Bool
  | .confirmed | .invalidatedOnChain | .releasedBeforeSignature => true
  | _ => false

end ReservationPhase

/-- The durable phase of a session. -/
inductive ProtocolPhase where
  | ready
  | proposed
  | committed
  | manifestReady
  | signedPersisted
  | broadcast
  | mempool
  | confirmed
  | payloadDelivered
  | abortedBeforeSignature
  | invalidatedOnChain
  | expiredUnsigned
deriving DecidableEq

namespace ProtocolPhase

def name : ProtocolPhase → String
  | .ready => "ready"
  | .proposed => "proposed"
  | .committed => "committed"
  | .manifestReady => "manifest_ready"
  | .signedPersisted => "signed_persisted"
  | .broadcast => "broadcast"
  | .mempool => "mempool"
  | .confirmed => "confirmed"
  | .payloadDelivered => "payload_delivered"
  | .abortedBeforeSignature => "aborted_before_signature"
  | .invalidatedOnChain => "invalidated_on_chain"
  | .expiredUnsigned => "expired_unsigned"

def rejectsNewProtocolMessages : ProtocolPhase → Bool
  | .confirmed | .payloadDelivered | .abortedBeforeSignature | .invalidatedOnChain
  | .expiredUnsigned => true
  | _ => false

end ProtocolPhase

end Phases

section State

/-- Limits of one deployment. -/
structure RelayPolicy where
  maxCommitments : UInt32
  maxReplacementEpochs : UInt32
  maxSessionBytes : UInt64
  maxEventBytes : UInt64
deriving DecidableEq

/-- The chain that the session follows. -/
structure SessionPolicy where
  chainId : Bytes 32
  currentHeight : UInt32
deriving DecidableEq

/-- The reservation of one input for one operation. -/
structure LocalReservation where
  operationId : Bytes 32
  outpoint : OutPoint
  phase : ReservationPhase
deriving DecidableEq

/-- The directory of a session. -/
structure SessionRoot (X : Type) where
  policy : SessionPolicy
  relayPolicy : RelayPolicy
  identity : X
  proposal : Option (List UInt8)
  commitments : Table (Bytes 32) (List UInt8)
  manifests : Table (UInt32 × Bytes 32) (List UInt8)
  signatures : Table (Bytes 32 × UInt16) (List UInt8)
  signed : Table (Bytes 32) (List UInt8)
  frames : Table (Bytes 32) (List UInt8)
  reservations : Table (Bytes 32) LocalReservation
  phase : Option (ProtocolPhase × Text)

/-- A session: its directory, and what it keeps in memory. -/
structure Session (K X : Type) where
  root : SessionRoot X
  policy : SessionPolicy
  relayPolicy : RelayPolicy
  identity : X
  commitments : List (ParticipantCommitment K)
  commitmentSenders : Finset (Bytes 33)
  storedFrameBytes : UInt64

def RelayPolicy.validate (policy : RelayPolicy) : Except GossipError RelayPolicy := do
  require (1 ≤ policy.maxCommitments && policy.maxCommitments ≤ 64 &&
      policy.maxReplacementEpochs != 0 && 4096 ≤ policy.maxSessionBytes &&
      4096 ≤ policy.maxEventBytes)
    (protocolError "invalid local relay policy")
  return policy

def RelayPolicy.default : RelayPolicy where
  maxCommitments := 64
  maxReplacementEpochs := 16
  maxSessionBytes := 32 * 1024 * 1024
  maxEventBytes := 1024 * 1024

/-- What became of the write of a file. -/
inductive WriteOutcome where
  | done
  /-- Nothing was written. -/
  | failed
  /-- The file is in place, but its directory could not be synchronized. -/
  | unsynced
deriving DecidableEq

/-- The files that `ingest` writes, in this order. -/
inductive IngestWrite where
  | semantic
  | frame
  | event
deriving DecidableEq

/-- Where the files of the accepted objects are. -/
inductive SemanticPath where
  | proposal
  | commitment (commitmentId : Bytes 32)
  | manifest (replacementEpoch : UInt32) (manifestId : Bytes 32)
  | signature (manifestId : Bytes 32) (inputIndex : UInt16)
deriving DecidableEq

namespace SemanticPath

/-- Zeros before the decimal digits of a number. -/
def padded (width n : ℕ) : Text :=
  Text.lit (String.ofList (List.replicate (width - (toString n).length) '0')) ++ Text.ofNat n

/-- The path inside the directory. -/
def display : SemanticPath → Text
  | .proposal => Text.lit "proposal.bin"
  | .commitment id => Text.lit "commitments/" ++ toHex id.toList ++ Text.lit ".bin"
  | .manifest epoch id =>
      Text.lit "manifests/" ++ padded 10 epoch.toNat ++ Text.lit "-" ++ toHex id.toList ++
        Text.lit ".bin"
  | .signature id index =>
      Text.lit "signatures/" ++ toHex id.toList ++ Text.lit "-" ++ padded 5 index.toNat ++
        Text.lit ".bin"

end SemanticPath

namespace SessionRoot

variable {X : Type}

/-- The file at a path. -/
def read (root : SessionRoot X) : SemanticPath → Option (List UInt8)
  | .proposal => root.proposal
  | .commitment id => root.commitments.get id
  | .manifest epoch id => root.manifests.get (epoch, id)
  | .signature id index => root.signatures.get (id, index)

/-- A new file at a path. -/
def write (root : SessionRoot X) (path : SemanticPath) (bytes : List UInt8) : SessionRoot X :=
  match path with
  | .proposal => { root with proposal := some bytes }
  | .commitment id => { root with commitments := root.commitments.insert id bytes }
  | .manifest epoch id => { root with manifests := root.manifests.insert (epoch, id) bytes }
  | .signature id index => { root with signatures := root.signatures.insert (id, index) bytes }

/-- The directory of a new session. -/
def create (policy : SessionPolicy) (relayPolicy : RelayPolicy) (identity : X) :
    SessionRoot X where
  policy
  relayPolicy
  identity
  proposal := none
  commitments := .empty
  manifests := .empty
  signatures := .empty
  signed := .empty
  frames := .empty
  reservations := .empty
  phase := none

end SessionRoot

end State

section Files

variable {K X : Type}

/-- Read a file of bounded size. -/
def readLimited (bytes : List UInt8) (limit : ℕ) (path : Text) :
    Except GossipError (List UInt8) := do
  require (bytes.length ≤ limit) (protocolText (path ++ Text.lit " exceeds size policy"))
  return bytes

/-- Write a file; a failed write may leave it in place. -/
def atomicWrite
    (outcome : WriteOutcome)
    (update : SessionRoot X → SessionRoot X) : Call GossipError (Session K X) Unit :=
  match outcome with
  | .done => modify (fun s => { s with root := update s.root })
  | .failed => throw .io
  | .unsynced => do
      modify (fun s => { s with root := update s.root })
      throw .io

/-- Write the file of an object, unless the same file is there. -/
def semanticWrite
    (outcome : WriteOutcome)
    (path : SemanticPath)
    (bytes : List UInt8) : Call GossipError (Session K X) Unit := do
  let s ← get
  match s.root.read path with
  | some existing => do
      let existing ← lift (readLimited existing maxPayloadBytes path.display)
      demand (existing = bytes)
        (protocolText (Text.lit "semantic equivocation at " ++ path.display))
  | none => atomicWrite outcome (fun root => root.write path bytes)

/-- One line of the event log, which no call reads back. -/
def appendEvent
    (outcome : WriteOutcome)
    (event : Text) : Call GossipError (Session K X) Unit := do
  demand (event.bytes.length ≤ 1024 && !event.bytes.any (fun b => b == 0x0A || b == 0x0D))
    (protocolError "event receipt exceeds one-line bound")
  match outcome with
  | .done => pure ()
  | _ => throw .io

/-- Record the phase with its evidence. -/
def persistPhase
    (phase : ProtocolPhase)
    (evidence : Text) : Call GossipError (Session K X) Unit := do
  atomicWrite .done (fun root => { root with phase := some (phase, evidence) })
  appendEvent .done (Text.lit "phase " ++ Text.lit phase.name ++ Text.lit " " ++ evidence)

end Files

end OpenCsv
