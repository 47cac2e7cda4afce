import OpenCsv.Bitcoin.BatchShares

/-!
# Authenticated gossip frames

Batch messages travel between peers in frames.  A frame is signed by a relay identity; the
frames of proposals and commitments also carry a signature of the Bitcoin key that their body
names.  Frames are canonical, and the frames of one body have one identifier whoever relays
them.

**Result.** A frame is read from the bytes it is written to only (`SignedFrame.eq_of_fromWire`),
so kind and payload are those that were signed (`SignedFrame.payload_of_toWire`).
-/

namespace OpenCsv

open ProtocolError

/-- The name that `{:?}` prints. -/
def RejectionReason.debug : RejectionReason → String
  | .invalidVersion => "InvalidVersion"
  | .wrongChain => "WrongChain"
  | .invalidSerialization => "InvalidSerialization"
  | .invalidStock => "InvalidStock"
  | .staleChainState => "StaleChainState"
  | .expiredProposal => "ExpiredProposal"
  | .invalidCommitment => "InvalidCommitment"
  | .duplicateCommitment => "DuplicateCommitment"
  | .conflictingOperation => "ConflictingOperation"
  | .unavailableFeeInput => "UnavailableFeeInput"
  | .noncanonicalOrder => "NoncanonicalOrder"
  | .payloadContextMismatch => "PayloadContextMismatch"
  | .headerMismatch => "HeaderMismatch"
  | .protocolLayoutViolation => "ProtocolLayoutViolation"
  | .feePolicyViolation => "FeePolicyViolation"
  | .insufficientChange => "InsufficientChange"
  | .arithmeticOverflow => "ArithmeticOverflow"
  | .signaturePolicyViolation => "SignaturePolicyViolation"
  | .invalidSignature => "InvalidSignature"
  | .replacementViolation => "ReplacementViolation"
  | .storageFailure => "StorageFailure"

/-- The text of a protocol error. -/
def ProtocolError.toText (e : ProtocolError) : Text :=
  Text.lit e.reason.debug ++ Text.lit ": " ++ e.detail

/-- An error of the gossip layer: a protocol error, or a file that could not be used. -/
inductive GossipError where
  | transport (message : Text)
  | io
deriving DecidableEq

def protocolText (message : Text) : GossipError :=
  .transport (Text.lit "batch v2: " ++ message)

def protocolError (message : String) : GossipError :=
  protocolText (Text.lit message)

def batchError (error : ProtocolError) : GossipError :=
  protocolText error.toText

/-- The Bitcoin library with the relay signatures and the signing calls of the gossip layer. -/
structure GossipCrate (K S R X : Type) extends BitcoinCrate K S where
  /-- `ecdsa::Signature::serialize_der`. -/
  serializeDer : R → List UInt8
  /-- `ecdsa::Signature::from_der`. -/
  fromDer : List UInt8 → Except Text R
  /-- `ecdsa::Signature::normalize_s`. -/
  normalizeS : R → R
  verifyRelay : Bytes 32 → R → K → Except Text Unit
  signRelay : Bytes 32 → X → R
  /-- `PublicKey::from_secret_key`. -/
  publicKey : X → K
  /-- A `SIGHASH_ALL` signature of a digest. -/
  signInput : Bytes 32 → X → S

section Constants

def frameMagic : List UInt8 := ascii "OCSVG2" ++ [0, 0]

def frameVersion : UInt16 := 3

def maxPayloadBytes : ℕ := 4 * 1024 * 1024

def maxFrameBytes : ℕ := maxPayloadBytes + 256

end Constants

def MessageKind.fromByte (byte : UInt8) : Except GossipError MessageKind :=
  if byte = 1 then .ok .proposal
  else if byte = 2 then .ok .commitment
  else if byte = 3 then .ok .manifest
  else if byte = 4 then .ok .signature
  else .error (protocolText (Text.lit "unknown gossip kind " ++ Text.ofNat byte.toNat))

/-- The name of a kind in journals. -/
def MessageKind.name : MessageKind → String
  | .proposal => "proposal"
  | .commitment => "commitment"
  | .manifest => "manifest"
  | .signature => "signature"

/-- An authenticated frame. -/
structure SignedFrame (K R : Type) where
  kind : MessageKind
  sender : K
  payload : List UInt8
  originSignature : Option R
  signature : R
deriving DecidableEq

variable {K S R X : Type}
variable (crate : GossipCrate K S R X)

/-- What the relay signature covers. -/
def frameDigest
    (kind : MessageKind)
    (sender : K)
    (payload : List UInt8)
    (originSignature : Option R) : Bytes 32 :=
  let origin := originSignature.elim [] crate.serializeDer
  crate.sha256 (ascii "OpenCSV/batch-v2/gossip-v3" ++ [0] ++ frameMagic ++
    leBytes 2 frameVersion.toNat ++ [kind.toByte] ++ (crate.serializeKey sender).toList ++
    leBytes 4 payload.length ++ payload ++ leBytes 2 origin.length ++ origin)

/-- What the signature of the Bitcoin key covers. -/
def originDigest
    (kind : MessageKind)
    (sender : K)
    (payload : List UInt8) : Bytes 32 :=
  crate.sha256 (ascii "OpenCSV/batch-v2/origin-authorization-v1" ++ [0] ++ [kind.toByte] ++
    (crate.serializeKey sender).toList ++ (crate.sha256 payload).toList)

/-- A DER signature in its low-S form. -/
def parseLowSSignature
    [DecidableEq R]
    (bytes : List UInt8)
    (role : String) : Except GossipError R := do
  let signature ← (crate.fromDer bytes).mapError
    (fun error => protocolText (Text.lit role ++ Text.lit " signature: " ++ error))
  require (crate.normalizeS signature = signature)
    (protocolText (Text.lit role ++ Text.lit " signature is not low-S"))
  return signature

/-- The optional signature of the Bitcoin key; none is written with length zero. -/
def parseOriginSignature
    [DecidableEq R]
    (bytes : List UInt8) : Except GossipError (Option R) :=
  if bytes.length = 0 then .ok none
  else (parseLowSSignature crate bytes "origin").map some

/-- Only the current transcript version enters a live session. -/
def requireLiveProposal (proposal : Proposal K) : Except GossipError Unit :=
  require (proposal.version = batchVersion)
    (protocolError
      "historical C1 version-2 proposal is read-only and cannot enter a live C2 session")

def requireOriginKey
    [DecidableEq K]
    (secretKey : X)
    (expected : K)
    (role : String) : Except GossipError Unit :=
  require (crate.publicKey secretKey = expected)
    (protocolText (Text.lit role ++ Text.lit " origin key does not match the C1 body"))

namespace SignedFrame

/-- The bytes of a frame. -/
def toWire (frame : SignedFrame K R) : List UInt8 :=
  let origin := frame.originSignature.elim [] crate.serializeDer
  let signature := crate.serializeDer frame.signature
  frameMagic ++ (leBytes 2 frameVersion.toNat ++ ([frame.kind.toByte] ++
    ((crate.serializeKey frame.sender).toList ++ (leBytes 4 frame.payload.length ++
      (frame.payload ++ (leBytes 2 origin.length ++ (origin ++
        (leBytes 2 signature.length ++ signature))))))))

/-- The identifier of the exact frame. -/
def id (frame : SignedFrame K R) : Bytes 32 :=
  crate.sha256 (frame.toWire crate)

/-- The identifier of the body, whoever relays it. -/
def semanticFrameId (frame : SignedFrame K R) : Bytes 32 :=
  crate.sha256 (ascii "OpenCSV/batch-v2/gossip-body" ++ [0] ++ [frame.kind.toByte] ++
    leBytes 4 frame.payload.length ++ frame.payload)

/-- Sign a body with a relay identity, and with the Bitcoin key where one is given. -/
def signParts
    (kind : MessageKind)
    (payload : List UInt8)
    (identity : X)
    (originKey : Option X) : Except GossipError (SignedFrame K R) := do
  require (payload.length ≤ maxPayloadBytes) (protocolError "gossip payload exceeds 4 MiB")
  let sender := crate.publicKey identity
  let originSignature := originKey.map (crate.signRelay (originDigest crate kind sender payload))
  let digest := frameDigest crate kind sender payload originSignature
  return { kind, sender, payload, originSignature, signature := crate.signRelay digest identity }

/-- Sign a manifest or a signature share. -/
def sign
    (kind : MessageKind)
    (payload : List UInt8)
    (identity : X) : Except GossipError (SignedFrame K R) := do
  require (kind = .manifest ∨ kind = .signature)
    (protocolError "proposal/commitment frames require Bitcoin-key origin authorization")
  signParts crate kind payload identity none

section Origins

variable [DecidableEq K]

/-- Sign a proposal with the relay identity and the stock key. -/
def signProposal
    (payload : List UInt8)
    (identity stockKey : X) : Except GossipError (SignedFrame K R) := do
  let proposal ← (Proposal.fromWire crate.toBitcoinCrate payload).mapError batchError
  requireLiveProposal proposal
  requireOriginKey crate stockKey proposal.stockOwnerPubkey "stock"
  signParts crate .proposal payload identity (some stockKey)

/-- Sign a commitment with the relay identity and the fee key. -/
def signCommitment
    (proposal : Proposal K)
    (payload : List UInt8)
    (identity feeKey : X) : Except GossipError (SignedFrame K R) := do
  let commitment ←
    (ParticipantCommitment.fromWire crate.toBitcoinCrate proposal payload).mapError batchError
  requireOriginKey crate feeKey commitment.feePubkey "fee"
  signParts crate .commitment payload identity (some feeKey)

end Origins

/-- Parse and authenticate a frame. -/
def fromWire
    [DecidableEq R]
    (wire : List UInt8) : Except GossipError (SignedFrame K R) := do
  require (wire.length ≤ maxFrameBytes ∧ 60 ≤ wire.length)
    (protocolError "gossip frame length is outside policy")
  require (wire.take 8 = frameMagic) (protocolError "gossip frame magic mismatch")
  let version := leNat ((wire.drop 8).take 2)
  require (version = frameVersion.toNat)
    (protocolText (Text.lit "unsupported gossip frame version " ++ Text.ofNat version))
  let kind ← MessageKind.fromByte (wire.getD 10 0)
  let senderBytes ← okOr (Bytes.tryFrom 33 ((wire.drop 11).take 33))
    (protocolError "gossip frame length is outside policy")
  let sender ← (crate.keyFromSlice senderBytes).mapError
    (fun error => protocolText (Text.lit "relay public key: " ++ error))
  let payloadLen := leNat ((wire.drop 44).take 4)
  require (payloadLen ≤ maxPayloadBytes) (protocolError "gossip payload exceeds 4 MiB")
  let payloadEnd := 48 + payloadLen
  let originLenEnd := payloadEnd + 2
  require (originLenEnd ≤ wire.length) (protocolError "truncated gossip payload")
  let originLen := leNat ((wire.drop payloadEnd).take 2)
  require (originLen = 0 ∨ (8 ≤ originLen ∧ originLen ≤ 72))
    (protocolError "invalid origin signature length")
  let originEnd := originLenEnd + originLen
  let signatureLenEnd := originEnd + 2
  require (signatureLenEnd ≤ wire.length) (protocolError "truncated origin authorization")
  let originSignature ← parseOriginSignature crate ((wire.drop originLenEnd).take originLen)
  let signatureLen := leNat ((wire.drop originEnd).take 2)
  require (8 ≤ signatureLen ∧ signatureLen ≤ 72 ∧ signatureLenEnd + signatureLen = wire.length)
    (protocolError "invalid gossip signature length/trailing bytes")
  let signature ← parseLowSSignature crate (wire.drop signatureLenEnd) "relay"
  let payload := (wire.drop 48).take payloadLen
  (crate.verifyRelay (frameDigest crate kind sender payload originSignature) signature
    sender).mapError (fun error => protocolText (Text.lit "relay authentication: " ++ error))
  let frame : SignedFrame K R := { kind, sender, payload, originSignature, signature }
  require (frame.toWire crate = wire) (protocolError "non-canonical gossip frame")
  return frame

/-- The Bitcoin key of the body authorized this relay identity. -/
def verifyOriginSignature
    (frame : SignedFrame K R)
    (expectedKey : K) : Except GossipError Unit := do
  let signature ← okOr frame.originSignature
    (protocolError "proposal/commitment frame lacks Bitcoin-key origin authorization")
  (crate.verifyRelay (originDigest crate frame.kind frame.sender frame.payload) signature
    expectedKey).mapError (fun error => protocolText (Text.lit "origin authorization: " ++ error))

section Canonical

variable {crate : GossipCrate K S R X}
variable [DecidableEq R]

/-- A frame is read from its own bytes, and its payload is bounded. -/
theorem of_fromWire
    {wire : List UInt8}
    {frame : SignedFrame K R}
    (h : fromWire crate wire = .ok frame) :
    frame.toWire crate = wire ∧ frame.payload.length ≤ maxPayloadBytes ∧
      wire.length ≤ maxFrameBytes := by
  simp only [fromWire, except_bind_eq_ok_iff, require_eq_ok_iff, decide_eq_true_eq, pure,
    Except.pure, Except.ok.injEq] at h
  obtain ⟨_, hlength, _, -, _, -, kind, -, bytes, -, sender, -, _, hpayload, _, -, _, -, _, -,
    origin, -, _, -, signature, -, _, -, _, hwire, rfl⟩ := h
  refine ⟨hwire, ?_, hlength.1⟩
  exact (List.length_take_le _ _).trans hpayload

theorem eq_of_fromWire
    {wire wire' : List UInt8}
    {frame : SignedFrame K R}
    (h : fromWire crate wire = .ok frame)
    (h' : fromWire crate wire' = .ok frame) :
    wire = wire' :=
  (of_fromWire h).1.symm.trans (of_fromWire h').1

omit [DecidableEq R] in
/-- Frames with the same bytes have one kind and one payload. -/
theorem payload_of_toWire
    {frame frame' : SignedFrame K R}
    (hpayload : frame.payload.length ≤ maxPayloadBytes)
    (hpayload' : frame'.payload.length ≤ maxPayloadBytes)
    (h : frame.toWire crate = frame'.toWire crate) :
    frame.kind = frame'.kind ∧ frame.payload = frame'.payload := by
  have hsmall : ∀ {n : ℕ}, n ≤ maxPayloadBytes → leNat (leBytes 4 n) = n := by
    intro n hn
    rw [leNat_leBytes]
    exact Nat.mod_eq_of_lt (lt_of_le_of_lt hn (by decide))
  simp only [toWire] at h
  obtain ⟨-, h⟩ := List.append_inj h rfl
  obtain ⟨-, h⟩ := List.append_inj h (by simp)
  obtain ⟨hkind, h⟩ := List.append_inj h rfl
  obtain ⟨-, h⟩ := List.append_inj h (by simp)
  obtain ⟨hlength, h⟩ := List.append_inj h (by simp)
  have hlength : frame.payload.length = frame'.payload.length := by
    rw [← hsmall hpayload, hlength, hsmall hpayload']
  obtain ⟨hbody, -⟩ := List.append_inj h hlength
  exact ⟨MessageKind.toByte_injective (List.cons.inj hkind).1, hbody⟩

end Canonical

end SignedFrame

end OpenCsv
