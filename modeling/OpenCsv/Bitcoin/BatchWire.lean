import OpenCsv.Bitcoin.BatchOrder
import OpenCsv.Ffi.Hex
import OpenCsv.Lib.Cursor

/-!
# Batch messages on the wire

Every message starts with a magic, its kind and the length of its body.  A parser reads
the fields, validates the object and compares the message with the encoding of what it
read; a manifest is checked against the proposal and the commitments it was built from.

**Results.** The four formats are canonical, and no message is of two kinds
(`wire_canonical`).
-/

namespace OpenCsv

open Call

variable {K S : Type}

/-- A detached signature of one input. -/
structure SignatureShare (K S : Type) where
  manifestId : Bytes 32
  inputIndex : UInt16
  signerPubkey : K
  signature : S
deriving DecidableEq

section Framing

/-- The magic, the kind, the length of the body, and the body. -/
def wireMessage (kind : UInt8) (body : List UInt8) : List UInt8 :=
  messageMagic ++ ([kind] ++ (leBytes 4 body.length ++ body))

/-- The body of a message of one kind. -/
def wireBody (wire : List UInt8) (expectedKind : UInt8) : Except ProtocolError (List UInt8) := do
  require (13 ≤ wire.length ∧ wire.take 8 = messageMagic)
    (.new .invalidSerialization "missing batching-v2 message magic/header")
  require (wire[8]? = some expectedKind)
    ⟨.invalidSerialization, Text.lit "unexpected message kind 0x" ++ toHex [wire[8]?.getD 0]⟩
  require (leNat ((wire.drop 9).take 4) = wire.length - 13)
    (.new .invalidSerialization "body length mismatch or trailing bytes")
  return wire.drop 13

def requireCanonicalWire (actual canonical : List UInt8) : Except ProtocolError Unit :=
  require (actual = canonical)
    (.new .invalidSerialization "message is not its canonical re-encoding")

/-- A cursor over the body of a message. -/
abbrev WireReader (α : Type) := Cursor ProtocolError α

namespace WireReader

def truncated : ProtocolError :=
  .new .invalidSerialization "truncated canonical message"

def bytes (n : ℕ) : WireReader (List UInt8) :=
  takeBytes n truncated

def array (n : ℕ) : WireReader (Bytes n) := do
  let bs ← bytes n
  lift (okOr (Bytes.tryFrom n bs) truncated)

def u8 : WireReader UInt8 := do
  let bs ← array 1
  return bs.head

def u16 : WireReader UInt16 := do
  let bs ← array 2
  return UInt16.ofNat bs.toLe

def u32 : WireReader UInt32 := do
  let bs ← array 4
  return UInt32.ofNat bs.toLe

def u64 : WireReader UInt64 := do
  let bs ← array 8
  return UInt64.ofNat bs.toLe

def outpoint : WireReader OutPoint := do
  let txid ← array 32
  let vout ← u32
  return ⟨txid, vout⟩

def publicKey (crate : BitcoinCrate K S) : WireReader K := do
  let bs ← array 33
  lift ((crate.keyFromSlice bs).mapError
    (fun e => ⟨.invalidSerialization, Text.lit "compressed public key: " ++ e⟩))

def script : WireReader (List UInt8) := do
  let len ← u16
  bytes len.toNat

def finish : WireReader Unit :=
  atEnd (.new .invalidSerialization "trailing canonical body bytes")

end WireReader

end Framing

open WireReader

variable (crate : BitcoinCrate K S)
variable (sponge : Sponge)

namespace Proposal

def wireBytes (proposal : Proposal K) : List UInt8 :=
  wireMessage proposalKind (proposal.body crate)

def readFields : WireReader (Proposal K) := do
  let version ← u16
  demand (version = legacyVersion ∨ version = batchVersion)
    ⟨.invalidVersion, Text.lit "proposal version " ++ Text.ofNat version.toNat⟩
  let chainId ← array 32
  let stockOutpoint ← outpoint
  let stockValue ← u64
  let stockOwnerPubkey ← publicKey crate
  let participantCount ← u8
  let proposalNonce ← array 32
  let observedTipHeight ← u32
  let expiryHeight ← u32
  let targetFeerateSatVb ← u32
  let maxFeerateSatVb ← u32
  return { version, chainId, stockOutpoint, stockValue, stockOwnerPubkey, participantCount,
           proposalNonce, observedTipHeight, expiryHeight, targetFeerateSatVb, maxFeerateSatVb }

/-- Parse a canonical proposal message. -/
def fromWire (wire : List UInt8) : Except ProtocolError (Proposal K) := do
  let body ← wireBody wire proposalKind
  let proposal ← answer (do
    let proposal ← readFields crate
    finish
    return proposal) body
  proposal.validate
  requireCanonicalWire wire (proposal.wireBytes crate)
  return proposal

end Proposal

namespace ParticipantCommitment

def wireBytes (commitment : ParticipantCommitment K) : List UInt8 :=
  wireMessage commitmentKind (commitment.body crate)

def readFields : WireReader (ParticipantCommitment K) := do
  let batchId ← array 32
  let operationId ← array 32
  let commitNonce ← array 32
  let payload ← array 24
  let feeOutpoint ← outpoint
  let feeValue ← u64
  let feePubkey ← publicKey crate
  let feePrevoutSpk ← script
  let changeSpk ← script
  let maxCharge ← u64
  return { batchId, operationId, commitNonce, payload := ⟨payload⟩, feeOutpoint,
           feePrevout := ⟨feeValue, feePrevoutSpk⟩, feePubkey, changeSpk, maxCharge }

/-- Parse one canonical commitment to a proposal. -/
def fromWire
    (proposal : Proposal K)
    (wire : List UInt8) : Except ProtocolError (ParticipantCommitment K) := do
  let body ← wireBody wire commitmentKind
  let commitment ← answer (do
    let commitment ← readFields crate
    finish
    return commitment) body
  commitment.validate crate proposal
  requireCanonicalWire wire (commitment.wireBytes crate)
  return commitment

end ParticipantCommitment

namespace Manifest

def wireBytes (manifest : Manifest K) : List UInt8 :=
  wireMessage manifestKind (manifest.body crate)

/-- The fields of a manifest, and the commitment ids it names. -/
def readFields
    (proposal : Proposal K)
    (commitments : List (ParticipantCommitment K)) :
    WireReader (Manifest K × List (Bytes 32)) := do
  let batchId ← array 32
  let replacementEpoch ← u32
  let participantCount ← u8
  demand (participantCount = proposal.participantCount ∧
      commitments.length = participantCount.toNat)
    (.new .invalidCommitment "manifest count differs from proposal/source commitments")
  let commitmentIds ← repeated participantCount.toNat (array 32)
  let maxWeight ← u32
  let feerateSatVb ← u32
  let minerFee ← u64
  let totalCharge ← u64
  let charges ← repeated participantCount.toNat u64
  let transactionLength ← u32
  let transactionBytes ← bytes transactionLength.toNat
  let unsignedTx ← lift ((crate.deserializeTransaction transactionBytes).mapError
    (fun e => ⟨.invalidSerialization, Text.lit "unsigned transaction: " ++ e⟩))
  demand (unsignedTx.serialize = transactionBytes)
    (.new .invalidSerialization "non-canonical unsigned transaction encoding")
  let commitments := ParticipantCommitment.sort commitments
  return ({ batchId, replacementEpoch, feerateSatVb, maxWeight, minerFee, totalCharge, charges,
            commitments, unsignedTx }, commitmentIds)

variable [DecidableEq K]

/-- Parse a manifest and rebuild it from the commitments it was built from. -/
def fromWire
    (proposal : Proposal K)
    (commitments : List (ParticipantCommitment K))
    (wire : List UInt8) : Except ProtocolError (Manifest K) := do
  let body ← wireBody wire manifestKind
  let (manifest, commitmentIds) ← answer (do
    let fields ← readFields crate proposal commitments
    finish
    return fields) body
  ParticipantCommitment.rejectDuplicates crate manifest.commitments
  require (manifest.commitments.map (ParticipantCommitment.commitmentId crate) = commitmentIds)
    (.new .noncanonicalOrder "manifest commitment IDs do not match canonical outpoint order")
  manifest.validate crate sponge proposal
  requireCanonicalWire wire (manifest.wireBytes crate)
  return manifest

/-- Look up the next `n` commitment ids, none of them seen before, in a pool. -/
def select
    (pool : List (ParticipantCommitment K)) :
    (n : ℕ) → (seen : List (Bytes 32)) → WireReader (List (ParticipantCommitment K))
  | 0, _ => return []
  | n + 1, seen => do
      let commitmentId ← array 32
      demand (commitmentId ∉ seen)
        (.new .duplicateCommitment "manifest repeats a commitment id")
      let commitment ← lift (okOr
        (pool.find? (fun candidate => candidate.commitmentId crate == commitmentId))
        (.new .invalidCommitment "manifest source commitment is unavailable"))
      let rest ← select pool n (commitmentId :: seen)
      return commitment :: rest

/-- The commitments a manifest names, from a pool. -/
def selected
    (proposal : Proposal K)
    (pool : List (ParticipantCommitment K)) : WireReader (List (ParticipantCommitment K)) := do
  let batchId ← array 32
  let _replacementEpoch ← u32
  let participantCount ← u8
  demand (batchId = proposal.batchId crate ∧ participantCount = proposal.participantCount)
    (.new .invalidCommitment "manifest identity/count differs from proposal")
  select crate pool participantCount.toNat []

/-- Parse a manifest whose commitments are somewhere in an unordered pool. -/
def fromWirePool
    (proposal : Proposal K)
    (pool : List (ParticipantCommitment K))
    (wire : List UInt8) : Except ProtocolError (Manifest K) := do
  let body ← wireBody wire manifestKind
  let commitments ← answer (selected crate proposal pool) body
  fromWire crate sponge proposal commitments wire

end Manifest

namespace SignatureShare

def body (share : SignatureShare K S) : List UInt8 :=
  let signature := crate.serializeSignature share.signature
  share.manifestId.toList ++ leBytes 2 share.inputIndex.toNat ++
    (crate.serializeKey share.signerPubkey).toList ++ leBytes 2 signature.length ++ signature

def wireBytes (share : SignatureShare K S) : List UInt8 :=
  wireMessage signatureKind (share.body crate)

/-- Only `SIGHASH_ALL` and low-S signatures are permitted. -/
def requireAll (signature : S) : Except ProtocolError Unit := do
  require (crate.sighashAll signature)
    (.new .signaturePolicyViolation "only SIGHASH_ALL is permitted")
  require (crate.lowS signature)
    (.new .invalidSignature "only low-S ECDSA signatures are permitted")

def readFields : WireReader (SignatureShare K S) := do
  let manifestId ← array 32
  let inputIndex ← u16
  let signerPubkey ← publicKey crate
  let signatureLen ← u16
  demand (signatureLen ≤ 73)
    (.new .invalidSerialization "signature share exceeds 73 bytes")
  let signatureBytes ← bytes signatureLen.toNat
  let signature ← lift ((crate.signatureFromSlice signatureBytes).mapError
    (fun e => ⟨.invalidSerialization, Text.lit "signature share: " ++ e⟩))
  return { manifestId, inputIndex, signerPubkey, signature }

/-- Parse a canonical signature share. -/
def fromWire (wire : List UInt8) : Except ProtocolError (SignatureShare K S) := do
  let body ← wireBody wire signatureKind
  let share ← answer (do
    let share ← readFields crate
    finish
    return share) body
  requireAll crate share.signature
  requireCanonicalWire wire (share.wireBytes crate)
  return share

end SignatureShare

section Readers

variable {crate : BitcoinCrate K S}

theorem decodes_bytes
    (bs : List UInt8) :
    Decodes (bytes bs.length) bs bs :=
  decodes_takeBytes rfl

theorem decodes_array
    {n : ℕ}
    (bs : Bytes n) :
    Decodes (array n) bs.toList bs := by
  have hread : Decodes (bytes n) bs.toList bs.toList := decodes_takeBytes bs.toList_length
  refine hread.bind_nil ?_
  exact decodes_lift (okOr_eq_ok_iff.mpr (Bytes.tryFrom_eq_some_iff.mpr rfl))

theorem decodes_ofLe
    {n v : ℕ} :
    Decodes (array n) (leBytes n v) (Bytes.ofLe n v) :=
  decodes_array (Bytes.ofLe n v)

theorem decodes_u8
    (v : UInt8) :
    Decodes u8 [v] v :=
  (decodes_array (v ::ᵥ List.Vector.nil)).map (fun bs => bs.head)

theorem decodes_u16
    (v : UInt16) :
    Decodes u16 (leBytes 2 v.toNat) v := by
  have hlt : v.toNat < 256 ^ 2 := v.toNat_lt
  have h := (decodes_ofLe (n := 2) (v := v.toNat)).map (fun bs => UInt16.ofNat bs.toLe)
  rwa [Bytes.toLe_ofLe, Nat.mod_eq_of_lt hlt, UInt16.ofNat_toNat] at h

theorem decodes_u32
    (v : UInt32) :
    Decodes u32 (leBytes 4 v.toNat) v := by
  have hlt : v.toNat < 256 ^ 4 := v.toNat_lt
  have h := (decodes_ofLe (n := 4) (v := v.toNat)).map (fun bs => UInt32.ofNat bs.toLe)
  rwa [Bytes.toLe_ofLe, Nat.mod_eq_of_lt hlt, UInt32.ofNat_toNat] at h

theorem decodes_u64
    (v : UInt64) :
    Decodes u64 (leBytes 8 v.toNat) v := by
  have hlt : v.toNat < 256 ^ 8 := v.toNat_lt
  have h := (decodes_ofLe (n := 8) (v := v.toNat)).map (fun bs => UInt64.ofNat bs.toLe)
  rwa [Bytes.toLe_ofLe, Nat.mod_eq_of_lt hlt, UInt64.ofNat_toNat] at h

theorem decodes_outpoint
    (v : OutPoint) :
    Decodes outpoint v.serialize v :=
  Decodes.bind (decodes_array v.txid) ((decodes_u32 v.vout).map (OutPoint.mk v.txid))

/-- A script whose length fits its prefix. -/
theorem decodes_script
    {bs : List UInt8}
    (h : bs.length < 2 ^ 16) :
    Decodes script (encodeScript bs) bs := by
  have hlen : (UInt16.ofNat bs.length).toNat = bs.length := by
    rw [UInt16.toNat_ofNat', Nat.mod_eq_of_lt h]
  have hread := decodes_u16 (UInt16.ofNat bs.length)
  rw [hlen] at hread
  refine Decodes.bind hread ?_
  rw [hlen]
  exact decodes_bytes bs

/-- What the batching code relies on in the Bitcoin library. -/
structure BitcoinCrate.Lawful (crate : BitcoinCrate K S) : Prop where
  /-- A key is read back from its serialization. -/
  key : ∀ key, crate.keyFromSlice (crate.serializeKey key) = .ok key
  /-- A signature is read back from its serialization. -/
  signature : ∀ s, crate.signatureFromSlice (crate.serializeSignature s) = .ok s
  /-- A DER signature and its sighash byte. -/
  signature_length : ∀ s, (crate.serializeSignature s).length ≤ 73

theorem Manifest.Sample.crate_lawful :
    Manifest.Sample.crate.Lawful where
  key := fun _ => rfl
  signature := fun s => dif_pos s.property
  signature_length := fun s => s.property

theorem decodes_publicKey
    (hlawful : crate.Lawful)
    (key : K) :
    Decodes (publicKey crate) (crate.serializeKey key).toList key := by
  refine (decodes_array (crate.serializeKey key)).bind_nil ?_
  exact decodes_lift (mapError_eq_ok_iff.mpr (hlawful.key key))

end Readers

section Framing

/-- The body of a message that was framed. -/
theorem wireBody_wireMessage
    {kind : UInt8}
    {body : List UInt8}
    (h : body.length < 2 ^ 32) :
    wireBody (wireMessage kind body) kind = .ok body := by
  have hmagic : messageMagic.length = 8 := by
    decide
  have hlength : (wireMessage kind body).length = 13 + body.length := by
    simp only [wireMessage, List.length_append, hmagic, List.length_singleton, leBytes_length]
    omega
  have hkind : (wireMessage kind body)[8]? = some kind := by
    rw [wireMessage, List.getElem?_append_right (by omega), hmagic]
    rfl
  have hassoc : wireMessage kind body =
      (messageMagic ++ [kind]) ++ (leBytes 4 body.length ++ body) := by
    rw [wireMessage, List.append_assoc]
  have hdeclared : ((wireMessage kind body).drop 9).take 4 = leBytes 4 body.length := by
    rw [hassoc]
    exact take_drop_append (by simp [hmagic]) (leBytes_length _ _)
  have hbody : (wireMessage kind body).drop 13 = body := by
    rw [hassoc, ← List.append_assoc]
    exact List.drop_left' (by simp [hmagic])
  have htake : (wireMessage kind body).take 8 = messageMagic :=
    List.take_left' hmagic
  simp only [wireBody, except_bind_eq_ok_iff, require_eq_ok_iff, decide_eq_true_eq, pure,
    Except.pure, Except.ok.injEq]
  refine ⟨(), ⟨by omega, htake⟩, (), hkind, (), ?_, hbody⟩
  rw [hdeclared, leNat_leBytes, Nat.mod_eq_of_lt (by omega), hlength]
  omega

/-- A message shows its kind. -/
theorem kind_of_wireBody
    {wire body : List UInt8}
    {kind : UInt8}
    (h : wireBody wire kind = .ok body) :
    wire[8]? = some kind := by
  simp only [wireBody, except_bind_eq_ok_iff, require_eq_ok_iff, decide_eq_true_eq] at h
  obtain ⟨_, -, _, hkind, -⟩ := h
  exact hkind

end Framing

section Fields

variable {crate : BitcoinCrate K S}

/-- The fields of a proposal of a known version. -/
theorem Proposal.decodes_readFields
    (hlawful : crate.Lawful)
    {proposal : Proposal K}
    (hversion : proposal.version = legacyVersion ∨ proposal.version = batchVersion) :
    Decodes (Proposal.readFields crate) (proposal.body crate) proposal := by
  simp only [Proposal.body, List.append_assoc]
  refine Decodes.bind (decodes_u16 _) ?_
  refine Decodes.demand (decide_eq_true hversion) ?_
  refine Decodes.bind (decodes_array _) ?_
  refine Decodes.bind (decodes_outpoint _) ?_
  refine Decodes.bind (decodes_u64 _) ?_
  refine Decodes.bind (decodes_publicKey hlawful _) ?_
  refine Decodes.bind (decodes_u8 _) ?_
  refine Decodes.bind (decodes_array _) ?_
  refine Decodes.bind (decodes_u32 _) ?_
  refine Decodes.bind (decodes_u32 _) ?_
  refine Decodes.bind (decodes_u32 _) ?_
  exact (decodes_u32 proposal.maxFeerateSatVb).map (fun maxFeerateSatVb =>
    { proposal with maxFeerateSatVb })

/-- The fields of a commitment whose scripts are short enough. -/
theorem ParticipantCommitment.decodes_readFields
    (hlawful : crate.Lawful)
    {commitment : ParticipantCommitment K}
    (hprevout : commitment.feePrevout.scriptPubkey.length < 2 ^ 16)
    (hchange : commitment.changeSpk.length < 2 ^ 16) :
    Decodes (ParticipantCommitment.readFields crate) (commitment.body crate) commitment := by
  simp only [ParticipantCommitment.body, List.append_assoc]
  refine Decodes.bind (decodes_array _) ?_
  refine Decodes.bind (decodes_array _) ?_
  refine Decodes.bind (decodes_array _) ?_
  refine Decodes.bind (decodes_array _) ?_
  refine Decodes.bind (decodes_outpoint _) ?_
  refine Decodes.bind (decodes_u64 _) ?_
  refine Decodes.bind (decodes_publicKey hlawful _) ?_
  refine Decodes.bind (decodes_script hprevout) ?_
  refine Decodes.bind (decodes_script hchange) ?_
  exact (decodes_u64 commitment.maxCharge).map (fun maxCharge => { commitment with maxCharge })

/-- The fields of a share. -/
theorem SignatureShare.decodes_readFields
    (hlawful : crate.Lawful)
    (share : SignatureShare K S) :
    Decodes (SignatureShare.readFields crate) (share.body crate) share := by
  have hlength := hlawful.signature_length share.signature
  have hlen : (UInt16.ofNat (crate.serializeSignature share.signature).length).toNat =
      (crate.serializeSignature share.signature).length := by
    rw [UInt16.toNat_ofNat', Nat.mod_eq_of_lt (by omega)]
  have hshort : UInt16.ofNat (crate.serializeSignature share.signature).length ≤ 73 := by
    rw [UInt16.le_iff_toNat_le, hlen]
    exact hlength
  have hread := decodes_u16 (UInt16.ofNat (crate.serializeSignature share.signature).length)
  rw [hlen] at hread
  simp only [SignatureShare.body, List.append_assoc]
  refine Decodes.bind (decodes_array _) ?_
  refine Decodes.bind (decodes_u16 _) ?_
  refine Decodes.bind (decodes_publicKey hlawful _) ?_
  refine Decodes.bind hread ?_
  refine Decodes.demand (decide_eq_true hshort) ?_
  rw [hlen]
  refine (decodes_bytes _).bind_nil ?_
  exact (decodes_lift (mapError_eq_ok_iff.mpr (hlawful.signature share.signature))).map
    (fun signature => { share with signature })

end Fields

section Sizes

variable {crate : BitcoinCrate K S}
variable {sponge : Sponge}

theorem writeVarint_length
    {n : ℕ}
    (h : n < 0xfd) :
    (writeVarint n).length = 1 := by
  rw [writeVarint, if_pos h]
  rfl

theorem writeVarbytes_length
    {bs : List UInt8}
    (h : bs.length < 0xfd) :
    (writeVarbytes bs).length = bs.length + 1 := by
  rw [writeVarbytes, List.length_append, writeVarint_length h]
  omega

theorem OutPoint.serialize_length
    (outpoint : OutPoint) :
    outpoint.serialize.length = 36 := by
  rw [OutPoint.serialize, List.length_append, leBytes_length, List.Vector.toList_length]

theorem TxOut.serialize_length
    {output : TxOut}
    (h : output.scriptPubkey.length < 0xfd) :
    output.serialize.length = output.scriptPubkey.length + 9 := by
  rw [TxOut.serialize, List.length_append, leBytes_length, writeVarbytes_length h]
  omega

theorem encodeScript_length
    (bs : List UInt8) :
    (encodeScript bs).length = bs.length + 2 := by
  rw [encodeScript, List.length_append, leBytes_length]
  omega

/-- Encodings of one length. -/
theorem length_flatMap_of_forall
    {α β : Type}
    {enc : α → List β}
    {as : List α}
    {n : ℕ}
    (h : ∀ a ∈ as, (enc a).length = n) :
    (as.flatMap enc).length = n * as.length := by
  rw [List.length_flatMap, List.map_congr_left h, List.map_const', List.sum_replicate,
    smul_eq_mul, Nat.mul_comm]

theorem p2wpkhScript_length
    (key : K) :
    (p2wpkhScript crate key).length = 22 := by
  rw [p2wpkhScript, List.length_append, List.Vector.toList_length]
  rfl

theorem p2wshScript_length
    (script : List UInt8) :
    (p2wshScript crate script).length = 34 := by
  rw [p2wshScript, List.length_append, List.Vector.toList_length]
  rfl

/-- The scripts of a valid commitment are P2WPKH scripts. -/
theorem ParticipantCommitment.script_lengths
    {commitment : ParticipantCommitment K}
    {proposal : Proposal K}
    (h : commitment.validate crate proposal = .ok ()) :
    commitment.feePrevout.scriptPubkey.length = 22 ∧ commitment.changeSpk.length = 22 := by
  simp only [ParticipantCommitment.validate, except_bind_eq_ok_iff, require_eq_ok_iff,
    decide_eq_true_eq] at h
  obtain ⟨_, -, _, -, _, hprevout, hchange⟩ := h
  refine ⟨by rw [hprevout, p2wpkhScript_length], ?_⟩
  simp only [isCanonicalP2wpkh, Bool.and_eq_true, beq_iff_eq] at hchange
  exact hchange.1.1

theorem markerScript_length
    {version : UInt16}
    {markerScript : List UInt8}
    (h : markerSpkForVersion version = .ok markerScript) :
    markerScript.length = 34 := by
  unfold markerSpkForVersion at h
  split_ifs at h
  · obtain rfl := Except.ok.inj h
    rfl
  · obtain rfl := Except.ok.inj h
    rfl

namespace Manifest

variable {proposal : Proposal K}
variable {epoch feerate : UInt32}
variable {markerScript : List UInt8}
variable {m : Manifest K}

/-- The unsigned transaction has no witness data. -/
theorem Assembled.serialize_eq
    (h : m.Assembled crate sponge proposal epoch feerate markerScript) :
    m.unsignedTx.serialize = m.unsignedTx.serializeLegacy := by
  obtain ⟨record, -, htx⟩ := h.transaction
  have hsegwit : m.unsignedTx.usesSegwit = false := by
    rw [htx]
    simp [Transaction.usesSegwit, transactionOf, List.any_replicate]
  rw [Transaction.serialize, hsegwit]
  rfl

/-- The exact size of the unsigned transaction. -/
theorem Assembled.size_eq
    (h : m.Assembled crate sponge proposal epoch feerate markerScript)
    (hmarker : markerScript.length = 34)
    (hscripts : ∀ c ∈ m.commitments, c.changeSpk.length = 22) :
    m.unsignedTx.serializeLegacy.length = 72 * m.commitments.length + 212 := by
  have hcount : m.commitments.length ≤ 64 := h.count.2
  have hinputs : m.unsignedTx.inputs.length = m.commitments.length + 1 ∧
      (m.unsignedTx.inputs.flatMap TxIn.serialize).length = 41 * (m.commitments.length + 1) := by
    obtain ⟨record, -, htx⟩ := h.transaction
    have hlength : m.unsignedTx.inputs.length = m.commitments.length + 1 := by
      rw [htx]
      simp only [transactionOf, List.length_cons, List.length_map]
    refine ⟨hlength, ?_⟩
    rw [← hlength]
    refine length_flatMap_of_forall ?_
    intro input hinput
    have hempty : input.scriptSig = [] := by
      rw [htx, transactionOf, List.mem_cons, List.mem_map] at hinput
      rcases hinput with rfl | ⟨c, -, rfl⟩ <;> rfl
    simp only [TxIn.serialize, hempty, List.length_append, leBytes_length,
      List.Vector.toList_length]
    rfl
  have houtputs : m.unsignedTx.outputs.length = m.commitments.length + 3 ∧
      (m.unsignedTx.outputs.flatMap TxOut.serialize).length =
        75 + (43 + (43 + 31 * m.commitments.length)) := by
    obtain ⟨record, -, heq⟩ := h.outputs_eq
    have hzip : (m.commitments.zip m.changes).length = m.commitments.length := by
      rw [List.length_zip, h.changes_length, min_self]
    have hchange : (((m.commitments.zip m.changes).map
        (fun p => (⟨p.2, p.1.changeSpk⟩ : TxOut))).flatMap TxOut.serialize).length =
          31 * m.commitments.length := by
      rw [← hzip, ← List.length_map (fun p : ParticipantCommitment K × UInt64 =>
        (⟨p.2, p.1.changeSpk⟩ : TxOut))]
      refine length_flatMap_of_forall ?_
      intro output houtput
      obtain ⟨⟨c, value⟩, hmem, rfl⟩ := List.mem_map.mp houtput
      have hc : c.changeSpk.length = 22 := hscripts c (List.of_mem_zip hmem).1
      rw [TxOut.serialize_length (by rw [hc]; decide), hc]
    rw [heq]
    simp only [List.flatMap_cons, List.length_append, List.length_cons, List.length_map, hzip,
      hchange]
    refine ⟨trivial, ?_⟩
    rw [TxOut.serialize_length, TxOut.serialize_length, TxOut.serialize_length]
    · simp only [hmarker, p2wshScript_length, Proposal.stockScriptPubkey, anchorScript,
        List.length_cons, List.Vector.toList_length]
    · simp only [Proposal.stockScriptPubkey, p2wshScript_length]
      decide
    · simp only [hmarker]
      decide
    · simp [anchorScript]
  simp only [Transaction.serializeLegacy, List.length_append, leBytes_length, hinputs.2,
    houtputs.2, hinputs.1, houtputs.1]
  rw [writeVarint_length (by omega), writeVarint_length (by omega)]
  omega

/-- The exact size of the transaction of a valid manifest. -/
theorem size_of_buildAt
    {commitments : List (ParticipantCommitment K)}
    (h : buildAt crate sponge proposal commitments epoch feerate = .ok m) :
    m.unsignedTx.serialize = m.unsignedTx.serializeLegacy ∧
      m.unsignedTx.serializeLegacy.length = 72 * m.commitments.length + 212 ∧
      m.commitments.length ≤ 64 := by
  obtain ⟨-, hvalid, -, -, -, marker, hmarker, hassembled⟩ := buildAt_spec h
  refine ⟨hassembled.serialize_eq, ?_, hassembled.count.2⟩
  exact hassembled.size_eq (markerScript_length hmarker)
    (fun c hc => (ParticipantCommitment.script_lengths (hvalid c hc)).2)

end Manifest

end Sizes

section Formats

variable {crate : BitcoinCrate K S}
variable {sponge : Sponge}

/-- A body that is read whole is what the reader of the message answers. -/
theorem answer_finish
    {α : Type}
    {read : WireReader α}
    {body : List UInt8}
    {a : α}
    (h : Decodes read body a) :
    answer (do
      let a ← read
      finish
      return a) body = .ok a :=
  h.answer_atEnd pure

namespace Proposal

theorem body_length
    (proposal : Proposal K) :
    (proposal.body crate).length = 160 := by
  simp only [body, List.length_append, leBytes_length, List.Vector.toList_length,
    OutPoint.serialize_length, List.length_singleton]

/-- Proposals are written canonically. -/
theorem codec
    (hlawful : crate.Lawful) :
    Codec (fun proposal : Proposal K => proposal.validate = .ok ()) (wireBytes crate)
      (fromWire crate) := by
  constructor
  · intro proposal hvalid
    have hversion : proposal.version = legacyVersion ∨ proposal.version = batchVersion := by
      simp only [validate, except_bind_eq_ok_iff, require_eq_ok_iff, decide_eq_true_eq] at hvalid
      obtain ⟨_, hversion, -⟩ := hvalid
      exact hversion
    have hbody : wireBody (proposal.wireBytes crate) proposalKind = .ok (proposal.body crate) :=
      wireBody_wireMessage (by rw [body_length]; decide)
    simp only [fromWire, except_bind_eq_ok_iff, requireCanonicalWire, require_eq_ok_iff,
      decide_eq_true_eq, pure, Except.pure, Except.ok.injEq]
    exact ⟨_, hbody, proposal, answer_finish (decodes_readFields hlawful hversion), (), hvalid, (),
      rfl, rfl⟩
  · intro wire proposal h
    simp only [fromWire, except_bind_eq_ok_iff, requireCanonicalWire, require_eq_ok_iff,
      decide_eq_true_eq, pure, Except.pure, Except.ok.injEq] at h
    obtain ⟨body, -, proposal', -, ⟨⟩, hvalid, _, hwire, rfl⟩ := h
    exact ⟨hwire.symm, hvalid⟩

end Proposal

namespace ParticipantCommitment

/-- Commitments to one proposal are written canonically. -/
theorem codec
    (hlawful : crate.Lawful)
    (proposal : Proposal K) :
    Codec (fun commitment : ParticipantCommitment K =>
      commitment.validate crate proposal = .ok ()) (wireBytes crate) (fromWire crate proposal) := by
  constructor
  · intro commitment hvalid
    obtain ⟨hprevout, hchange⟩ := script_lengths hvalid
    have hlength : (commitment.body crate).length < 2 ^ 32 := by
      simp only [body, List.length_append, leBytes_length, List.Vector.toList_length,
        OutPoint.serialize_length, encodeScript_length, hprevout, hchange]
      decide
    have hread : Decodes (readFields crate) (commitment.body crate) commitment :=
      decodes_readFields hlawful (by rw [hprevout]; decide) (by rw [hchange]; decide)
    simp only [fromWire, except_bind_eq_ok_iff, requireCanonicalWire, require_eq_ok_iff,
      decide_eq_true_eq, pure, Except.pure, Except.ok.injEq]
    exact ⟨_, wireBody_wireMessage hlength, commitment, answer_finish hread, (), hvalid, (), rfl,
      rfl⟩
  · intro wire commitment h
    simp only [fromWire, except_bind_eq_ok_iff, requireCanonicalWire, require_eq_ok_iff,
      decide_eq_true_eq, pure, Except.pure, Except.ok.injEq] at h
    obtain ⟨body, -, commitment', -, ⟨⟩, hvalid, _, hwire, rfl⟩ := h
    exact ⟨hwire.symm, hvalid⟩

end ParticipantCommitment

namespace SignatureShare

/-- Signature shares are written canonically. -/
theorem codec
    (hlawful : crate.Lawful) :
    Codec (fun share : SignatureShare K S => requireAll crate share.signature = .ok ())
      (wireBytes crate) (fromWire crate) := by
  constructor
  · intro share hvalid
    have hlength : (share.body crate).length < 2 ^ 32 := by
      have hsignature := hlawful.signature_length share.signature
      simp only [body, List.length_append, leBytes_length, List.Vector.toList_length]
      omega
    simp only [fromWire, except_bind_eq_ok_iff, requireCanonicalWire, require_eq_ok_iff,
      decide_eq_true_eq, pure, Except.pure, Except.ok.injEq]
    exact ⟨_, wireBody_wireMessage hlength, share, answer_finish (decodes_readFields hlawful share),
      (), hvalid, (), rfl, rfl⟩
  · intro wire share h
    simp only [fromWire, except_bind_eq_ok_iff, requireCanonicalWire, require_eq_ok_iff,
      decide_eq_true_eq, pure, Except.pure, Except.ok.injEq] at h
    obtain ⟨body, -, share', -, ⟨⟩, hvalid, _, hwire, rfl⟩ := h
    exact ⟨hwire.symm, hvalid⟩

end SignatureShare

namespace Manifest

variable {proposal : Proposal K}
variable {commitments : List (ParticipantCommitment K)}
variable {m : Manifest K}

/-- The fields of a manifest, given its commitments in any order. -/
theorem decodes_readFields
    (hbuild : buildAt crate sponge proposal m.commitments m.replacementEpoch m.feerateSatVb =
      .ok m)
    (hdecode : crate.deserializeTransaction m.unsignedTx.serialize = .ok m.unsignedTx)
    (hperm : commitments.Perm m.commitments) :
    Decodes (readFields crate proposal commitments) (m.body crate)
      (m, m.commitments.map (ParticipantCommitment.commitmentId crate)) := by
  obtain ⟨-, -, -, hparticipants, -, _, -, hassembled⟩ := buildAt_spec hbuild
  obtain ⟨hserialize, hsize, hcount⟩ := size_of_buildAt hbuild
  have hsort : ParticipantCommitment.sort commitments = m.commitments := by
    rw [commitments_of_buildAt hbuild]
    exact ParticipantCommitment.sort_eq_of_perm hperm
      ((hperm.map _).nodup_iff.mpr (nodup_of_buildAt hbuild).2)
  have hn : (UInt8.ofNat m.commitments.length).toNat = m.commitments.length := by
    rw [UInt8.toNat_ofNat', Nat.mod_eq_of_lt (by omega)]
  have hn' : UInt8.ofNat m.commitments.length = proposal.participantCount := by
    rw [← UInt8.toNat_inj, hn, hparticipants]
  have htx : (UInt32.ofNat m.unsignedTx.serialize.length).toNat =
      m.unsignedTx.serialize.length := by
    rw [UInt32.toNat_ofNat', hserialize, hsize, Nat.mod_eq_of_lt (by omega)]
  have hreadLength := decodes_u32 (UInt32.ofNat m.unsignedTx.serialize.length)
  rw [htx] at hreadLength
  have hids : Decodes (repeated m.commitments.length (array 32))
      (m.commitments.flatMap (fun c => (c.commitmentId crate).toList))
      (m.commitments.map (ParticipantCommitment.commitmentId crate)) := by
    rw [← List.length_map (ParticipantCommitment.commitmentId crate), ← List.flatMap_map]
    exact decodes_repeated (fun id _ => decodes_array id)
  have hcharges : Decodes (repeated m.commitments.length u64)
      (m.charges.flatMap (fun charge => leBytes 8 charge.toNat)) m.charges := by
    rw [← hassembled.charges_length]
    exact decodes_repeated (fun charge _ => decodes_u64 charge)
  simp only [body, List.append_assoc]
  refine Decodes.bind (decodes_array _) ?_
  refine Decodes.bind (decodes_u32 _) ?_
  refine Decodes.bind (decodes_u8 _) ?_
  refine Decodes.demand (decide_eq_true ⟨hn', by rw [hn, hperm.length_eq]⟩) ?_
  rw [hn]
  refine Decodes.bind hids ?_
  refine Decodes.bind (decodes_u32 _) ?_
  refine Decodes.bind (decodes_u32 _) ?_
  refine Decodes.bind (decodes_u64 _) ?_
  refine Decodes.bind (decodes_u64 _) ?_
  refine Decodes.bind hcharges ?_
  refine Decodes.bind hreadLength ?_
  rw [htx]
  refine (decodes_bytes _).bind_nil ?_
  refine (decodes_lift (mapError_eq_ok_iff.mpr hdecode)).bind_nil ?_
  refine Decodes.demand (decide_eq_true rfl) ?_
  rw [hsort]
  exact decodes_pure _

theorem body_length_lt
    (hbuild : buildAt crate sponge proposal m.commitments m.replacementEpoch m.feerateSatVb =
      .ok m) :
    (m.body crate).length < 2 ^ 32 := by
  obtain ⟨-, -, -, -, -, _, -, hassembled⟩ := buildAt_spec hbuild
  obtain ⟨hserialize, hsize, hcount⟩ := size_of_buildAt hbuild
  have hids : (m.commitments.flatMap (fun c => (c.commitmentId crate).toList)).length =
      32 * m.commitments.length :=
    length_flatMap_of_forall (fun c _ => (c.commitmentId crate).toList_length)
  have hcharges : (m.charges.flatMap (fun charge => leBytes 8 charge.toNat)).length =
      8 * m.charges.length :=
    length_flatMap_of_forall (fun charge _ => leBytes_length 8 charge.toNat)
  simp only [body, List.length_append, leBytes_length, List.Vector.toList_length, hids, hcharges,
    hserialize, hsize, hassembled.charges_length, List.length_singleton]
  omega

/-- What is known of the fields of a manifest that was read. -/
def Readable
    (crate : BitcoinCrate K S)
    (commitments : List (ParticipantCommitment K))
    (m : Manifest K) : Prop :=
  m.commitments = ParticipantCommitment.sort commitments ∧
    crate.deserializeTransaction m.unsignedTx.serialize = .ok m.unsignedTx

theorem yields_readable
    (commitments : List (ParticipantCommitment K))
    (s : List UInt8) :
    Yields (do
      let fields ← readFields crate proposal commitments
      finish
      return fields) s (fun fields _ => fields.1.Readable crate commitments) := by
  have hread : Yields (readFields crate proposal commitments) s
      (fun fields _ => fields.1.Readable crate commitments) := by
    unfold readFields
    refine yields_bind (fun batchId _ => ?_)
    refine yields_bind (fun epoch _ => ?_)
    refine yields_bind (fun count _ => ?_)
    refine yields_demand (fun _ => ?_)
    refine yields_bind (fun ids _ => ?_)
    refine yields_bind (fun maxWeight _ => ?_)
    refine yields_bind (fun feerate _ => ?_)
    refine yields_bind (fun minerFee _ => ?_)
    refine yields_bind (fun totalCharge _ => ?_)
    refine yields_bind (fun charges _ => ?_)
    refine yields_bind (fun length _ => ?_)
    refine yields_bind (fun txBytes _ => ?_)
    refine yields_lift (fun tx htx => ?_)
    refine yields_demand (fun hcanonical => ?_)
    rw [mapError_eq_ok_iff, ← of_decide_eq_true hcanonical] at htx
    exact yields_pure ⟨rfl, htx⟩
  refine Yields.bind hread (fun fields _ hfields => ?_)
  refine yields_bind (fun _ _ => ?_)
  exact yields_pure hfields

variable [DecidableEq K]

/-- Manifests of the same commitments, in any order, are written canonically. -/
theorem codec
    (proposal : Proposal K)
    (commitments : List (ParticipantCommitment K)) :
    Codec (fun m : Manifest K => m.validate crate sponge proposal = .ok () ∧
        m.commitments.Perm commitments ∧
        crate.deserializeTransaction m.unsignedTx.serialize = .ok m.unsignedTx)
      (wireBytes crate) (fromWire crate sponge proposal commitments) := by
  constructor
  · rintro m ⟨hvalid, hperm, hdecode⟩
    have hbuild := validate_eq_ok_iff.mp hvalid
    obtain ⟨-, -, -, -, -, _, -, hassembled⟩ := buildAt_spec hbuild
    have hread := answer_finish (decodes_readFields hbuild hdecode hperm.symm)
    simp only [fromWire, except_bind_eq_ok_iff, requireCanonicalWire, require_eq_ok_iff,
      decide_eq_true_eq, pure, Except.pure, Except.ok.injEq]
    exact ⟨_, wireBody_wireMessage (body_length_lt hbuild), _, hread, (), hassembled.distinct, (),
      rfl, (), hvalid, (), rfl, rfl⟩
  · intro wire m h
    simp only [fromWire, except_bind_eq_ok_iff, requireCanonicalWire, require_eq_ok_iff,
      decide_eq_true_eq, pure, Except.pure, Except.ok.injEq] at h
    obtain ⟨body, -, ⟨m', ids⟩, hread, ⟨⟩, -, ⟨⟩, -, ⟨⟩, hvalid, ⟨⟩, hwire, rfl⟩ := h
    obtain ⟨hsort, hdecode⟩ := yields_iff.mp (yields_readable commitments body) _ hread
    refine ⟨hwire.symm, hvalid, ?_, hdecode⟩
    rw [hsort]
    exact ParticipantCommitment.sort_perm commitments

/-- A valid manifest is what is built from its commitments in any order. -/
theorem buildAt_of_validate
    (hvalid : m.validate crate sponge proposal = .ok ())
    (hperm : m.commitments.Perm commitments) :
    buildAt crate sponge proposal commitments m.replacementEpoch m.feerateSatVb = .ok m :=
  buildAt_of_perm hperm (validate_eq_ok_iff.mp hvalid)

end Manifest

/-- The kinds of messages. -/
inductive MessageKind where
  | proposal
  | commitment
  | manifest
  | signature
deriving DecidableEq

def MessageKind.toByte : MessageKind → UInt8
  | .proposal => proposalKind
  | .commitment => commitmentKind
  | .manifest => manifestKind
  | .signature => signatureKind

theorem MessageKind.toByte_injective :
    Function.Injective MessageKind.toByte := by
  intro kind kind' h
  cases kind <;> cases kind' <;> first | rfl | exact absurd h (by decide)

section Kinds

variable [DecidableEq K]

/-- The parser of a kind accepts the message. -/
inductive ParsesAs
    (crate : BitcoinCrate K S)
    (sponge : Sponge)
    (wire : List UInt8) : MessageKind → Prop
  | proposal {p : Proposal K} :
      Proposal.fromWire crate wire = .ok p → ParsesAs crate sponge wire .proposal
  | commitment {p : Proposal K} {c : ParticipantCommitment K} :
      ParticipantCommitment.fromWire crate p wire = .ok c →
        ParsesAs crate sponge wire .commitment
  | manifest {p : Proposal K} {cs : List (ParticipantCommitment K)} {m : Manifest K} :
      Manifest.fromWire crate sponge p cs wire = .ok m → ParsesAs crate sponge wire .manifest
  | signature {share : SignatureShare K S} :
      SignatureShare.fromWire crate wire = .ok share → ParsesAs crate sponge wire .signature

/-- An accepted message shows its kind. -/
theorem ParsesAs.kind_eq
    {wire : List UInt8}
    {kind : MessageKind}
    (h : ParsesAs crate sponge wire kind) :
    wire[8]? = some kind.toByte := by
  cases h with
  | proposal h =>
      obtain ⟨body, hbody, -⟩ := except_bind_eq_ok_iff.mp h
      exact kind_of_wireBody hbody
  | commitment h =>
      obtain ⟨body, hbody, -⟩ := except_bind_eq_ok_iff.mp h
      exact kind_of_wireBody hbody
  | manifest h =>
      obtain ⟨body, hbody, -⟩ := except_bind_eq_ok_iff.mp h
      exact kind_of_wireBody hbody
  | signature h =>
      obtain ⟨body, hbody, -⟩ := except_bind_eq_ok_iff.mp h
      exact kind_of_wireBody hbody

/-- The four formats are canonical, and no message is of two kinds. -/
theorem wire_canonical
    (hlawful : crate.Lawful) :
    Codec (fun p : Proposal K => p.validate = .ok ()) (Proposal.wireBytes crate)
        (Proposal.fromWire crate) ∧
      (∀ p : Proposal K, Codec (fun c : ParticipantCommitment K => c.validate crate p = .ok ())
        (ParticipantCommitment.wireBytes crate) (ParticipantCommitment.fromWire crate p)) ∧
      (∀ (p : Proposal K) (cs : List (ParticipantCommitment K)),
        Codec (fun m : Manifest K => m.validate crate sponge p = .ok () ∧
            m.commitments.Perm cs ∧
            crate.deserializeTransaction m.unsignedTx.serialize = .ok m.unsignedTx)
          (Manifest.wireBytes crate) (Manifest.fromWire crate sponge p cs) ∧
        ∀ wire m, Manifest.fromWire crate sponge p cs wire = .ok m →
          Manifest.buildAt crate sponge p cs m.replacementEpoch m.feerateSatVb = .ok m) ∧
      Codec (fun share : SignatureShare K S =>
          SignatureShare.requireAll crate share.signature = .ok ())
        (SignatureShare.wireBytes crate) (SignatureShare.fromWire crate) ∧
      ∀ wire kind kind', ParsesAs crate sponge wire kind → ParsesAs crate sponge wire kind' →
        kind = kind' := by
  refine ⟨Proposal.codec hlawful, ParticipantCommitment.codec hlawful, ?_,
    SignatureShare.codec hlawful, ?_⟩
  · intro p cs
    refine ⟨Manifest.codec p cs, ?_⟩
    intro wire m h
    obtain ⟨-, hvalid, hperm, -⟩ := (Manifest.codec p cs).encode_decode wire m h
    exact Manifest.buildAt_of_validate hvalid hperm
  · intro wire kind kind' h h'
    have hbytes := h.kind_eq.symm.trans h'.kind_eq
    exact MessageKind.toByte_injective (Option.some.inj hbytes)

/-- The sample proposal and manifest are read back from their messages. -/
theorem sample_messages_read_back :
    Proposal.fromWire Manifest.Sample.crate
        (Manifest.Sample.proposal.wireBytes Manifest.Sample.crate) =
          .ok Manifest.Sample.proposal ∧
      Manifest.fromWire Manifest.Sample.crate foldSponge Manifest.Sample.proposal
        [Manifest.Sample.second, Manifest.Sample.first]
          (Manifest.Sample.manifest.wireBytes Manifest.Sample.crate) =
            .ok Manifest.Sample.manifest := by
  have hcanonical := @wire_canonical _ _ _ foldSponge _ Manifest.Sample.crate_lawful
  refine ⟨hcanonical.1.decode_encode _ (by decide +kernel), ?_⟩
  refine (hcanonical.2.2.1 _ _).1.decode_encode _ ⟨Manifest.Sample.validate_manifest, ?_, ?_⟩
  · exact List.Perm.swap _ _ _
  · exact Manifest.Sample.deserialize_manifest

end Kinds

end Formats

end OpenCsv
