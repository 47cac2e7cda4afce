import OpenCsv.Bitcoin.BatchWire
import OpenCsv.Core.BatchEnvelope
import OpenCsv.Lib.Slots

/-!
# Signatures of a batch

The stock owner and every participant sign their own input; anybody may collect the shares
and finish the transaction.  Shares come in any order, for any input, and repeatedly.

**Results.** Finishing succeeds exactly when the shares are complete, and its outcome is
that of the direct path with the signatures in the order of the inputs, so it does not
depend on how the shares came in (`Manifest.finalizeShares_confluent`).
-/

namespace OpenCsv

open SignatureShare

variable {K S : Type}

namespace Manifest

variable (crate : BitcoinCrate K S)
variable (sponge : Sponge)

section Verification

def verifyDigest
    (signature : S)
    (key : K)
    (digest : Bytes 32) : Except ProtocolError Unit :=
  (crate.verifyEcdsa digest signature key).mapError
    (fun e => ⟨.invalidSignature, Text.lit "signature verification: " ++ e⟩)

def verifyStockSignature
    (manifest : Manifest K)
    (proposal : Proposal K)
    (signature : S) : Except ProtocolError Unit := do
  requireAll crate signature
  let sighash ← (crate.p2wshSignatureHash manifest.unsignedTx 0 (proposal.stockScript crate)
    proposal.stockValue).mapError
      (fun e => ⟨.invalidSignature, Text.lit "stock sighash: " ++ e⟩)
  verifyDigest crate signature proposal.stockOwnerPubkey sighash

/-- The signature of a participant; an index out of range would be a panic of the source. -/
def verifyParticipantSignature
    (manifest : Manifest K)
    (index : ℕ)
    (signature : S) : Except ProtocolError Unit := do
  requireAll crate signature
  let commitment ← okOr manifest.commitments[index]?
    (.new .invalidSignature "participant index out of range")
  let sighash ← (crate.p2wpkhSignatureHash manifest.unsignedTx (index + 1)
    commitment.feePrevout.scriptPubkey commitment.feePrevout.value).mapError
      (fun e => ⟨.invalidSignature, Text.lit "participant sighash: " ++ e⟩)
  verifyDigest crate signature commitment.feePubkey sighash

end Verification

variable [DecidableEq K]

section Finalize

/-- The transaction with the witnesses of all inputs. -/
def signedTx
    (manifest : Manifest K)
    (proposal : Proposal K)
    (envelope : List (List UInt8))
    (stockSignature : S)
    (participantSignatures : List S) : Transaction :=
  { manifest.unsignedTx with
    witnesses :=
      (envelope ++ [crate.serializeSignature stockSignature, proposal.stockScript crate]) ::
        (participantSignatures.zip manifest.commitments).map (fun (signature, commitment) =>
          [ crate.serializeSignature signature,
            (crate.serializeKey commitment.feePubkey).toList ]) }

/-- Verify all signatures and build the complete transaction. -/
def finalize
    (manifest : Manifest K)
    (proposal : Proposal K)
    (stockSignature : S)
    (participantSignatures : List S) : Except ProtocolError Transaction := do
  manifest.validate crate sponge proposal
  require (participantSignatures.length = manifest.commitments.length)
    (.new .invalidSignature "participant signature count mismatch")
  manifest.verifyStockSignature crate proposal stockSignature
  let _ ← participantSignatures.zipIdx.mapM (fun (signature, index) =>
    manifest.verifyParticipantSignature crate index signature)
  let envelope ← okOr (envelopeV2Encode (manifest.commitments.map (·.payload)))
    (.new .invalidCommitment "validated 1..=64 payloads")
  let tx := manifest.signedTx crate proposal envelope stockSignature participantSignatures
  require (tx.weight ≤ manifest.maxWeight.toNat)
    (.new .protocolLayoutViolation "signed transaction exceeds pessimistic weight")
  return tx

end Finalize

section Shares

/-- A share names the manifest and one of its inputs, and its key signed that input. -/
def verifySignatureShare
    (manifest : Manifest K)
    (proposal : Proposal K)
    (share : SignatureShare K S) : Except ProtocolError Unit := do
  manifest.validate crate sponge proposal
  require (share.manifestId = manifest.manifestId crate)
    (.new .invalidSignature "signature share names another manifest")
  match share.inputIndex.toNat with
  | 0 => do
      require (share.signerPubkey = proposal.stockOwnerPubkey)
        (.new .invalidSignature "input 0 share is not from the stock owner")
      manifest.verifyStockSignature crate proposal share.signature
  | participantIndex + 1 => do
      let commitment ← okOr manifest.commitments[participantIndex]?
        (.new .invalidSignature "signature share input index is outside the manifest")
      require (share.signerPubkey = commitment.feePubkey)
        (.new .invalidSignature "participant share key does not match the ordered input")
      manifest.verifyParticipantSignature crate participantIndex share.signature

variable [DecidableEq S]

/-- Verify the shares and order them by input; a slot that is not there would be a panic. -/
def orderShares
    (manifest : Manifest K)
    (proposal : Proposal K) :
    List (SignatureShare K S) → List (Option S) → Except ProtocolError (List (Option S))
  | [], ordered => .ok ordered
  | share :: shares, ordered => do
      manifest.verifySignatureShare crate sponge proposal share
      let ordered ← okOr (putSlot ordered (share.inputIndex.toNat, share.signature))
        (.new .conflictingOperation "conflicting signature shares for one input")
      orderShares manifest proposal shares ordered

/-- Verify, deduplicate, order and finalize a complete set of shares. -/
def finalizeShares
    (manifest : Manifest K)
    (proposal : Proposal K)
    (shares : List (SignatureShare K S)) : Except ProtocolError Transaction := do
  let ordered ← manifest.orderShares crate sponge proposal shares
    (List.replicate (manifest.commitments.length + 1) none)
  let stock ← okOr (ordered.head?.bind id)
    (.new .invalidSignature "stock signature share is missing")
  let participants ← ordered.tail.mapM (fun signature =>
    okOr signature (.new .invalidSignature "participant signature share is missing"))
  manifest.finalize crate sponge proposal stock participants

end Shares

section Weight

variable {crate : BitcoinCrate K S}
variable {sponge : Sponge}
variable {proposal : Proposal K}
variable {m : Manifest K}

omit [DecidableEq K] in
theorem txid_signedTx
    (sha256 : Sha256)
    (envelope : List (List UInt8))
    (stock : S)
    (signatures : List S) :
    (m.signedTx crate proposal envelope stock signatures).txid sha256 =
      m.unsignedTx.txid sha256 :=
  rfl

omit [DecidableEq K] in
theorem stockScript_length
    (proposal : Proposal K) :
    (proposal.stockScript crate).length = proposal.participantCount.toNat + 37 := by
  simp only [Proposal.stockScript, stockWitnessScript, List.length_append, List.length_singleton,
    List.length_replicate, List.Vector.toList_length]
  omega

/-- The size of a stack of short items. -/
theorem serializeWitness_length
    {stack : List (List UInt8)}
    (hcount : stack.length < 0xfd)
    (hitems : ∀ item ∈ stack, item.length < 0xfd) :
    (serializeWitness stack).length = 1 + (stack.map (fun item => item.length + 1)).sum := by
  rw [serializeWitness, List.length_append, writeVarint_length hcount, List.length_flatMap,
    List.map_congr_left (fun item hitem => writeVarbytes_length (hitems item hitem))]

omit [DecidableEq K] in
/-- The witness data is all that a signed transaction adds. -/
theorem weight_signedTx
    {envelope : List (List UInt8)}
    {stock : S}
    {signatures : List S} :
    (m.signedTx crate proposal envelope stock signatures).weight =
      4 * m.unsignedTx.serializeLegacy.length + 2 +
        ((m.signedTx crate proposal envelope stock signatures).witnesses.flatMap
          serializeWitness).length := by
  have hsegwit : (m.signedTx crate proposal envelope stock signatures).usesSegwit = true := by
    simp [Transaction.usesSegwit, signedTx]
  have hlegacy : (m.signedTx crate proposal envelope stock signatures).serializeLegacy =
      m.unsignedTx.serializeLegacy := rfl
  rw [Transaction.weight, hlegacy, Transaction.serialize, if_pos hsegwit]
  simp only [Transaction.serializeLegacy, signedTx, List.length_append, leBytes_length,
    List.length_cons, List.length_nil]
  omega

omit [DecidableEq K] in
/-- The witness of the stock input: the envelope, a signature and the script. -/
theorem stockWitness_length
    {payloads : List TruncatedDigest}
    {envelope : List (List UInt8)}
    {signature script : List UInt8}
    {n : ℕ}
    (henvelope : envelopeV2Encode payloads = some envelope)
    (hn : payloads.length = n)
    (hsmall : n ≤ 64)
    (hsignature : signature.length ≤ 73)
    (hscript : script.length = n + 37) :
    (serializeWitness (envelope ++ [signature, script])).length =
      26 * n + 45 + signature.length := by
  unfold envelopeV2Encode at henvelope
  split_ifs at henvelope
  obtain rfl := Option.some.inj henvelope
  have hmagic : witnessMagicV2.length = 4 := by
    decide
  rw [serializeWitness_length]
  · have hitems : payloads.map (fun payload => payload.bytes.toList.length + 1) =
        List.replicate n 25 := by
      rw [← hn, ← List.map_const']
      exact List.map_congr_left (fun payload _ => by simp)
    simp only [List.cons_append, List.map_cons, List.map_append, List.map_map, List.sum_cons,
      List.sum_append, List.map_nil, List.sum_nil, Function.comp_def] at hitems ⊢
    rw [hitems, List.sum_replicate, hscript, hmagic, smul_eq_mul]
    omega
  · simp only [List.length_append, List.length_cons, List.length_map, List.length_nil]
    omega
  · intro item hitem
    simp only [List.cons_append, List.mem_cons, List.mem_append, List.mem_map,
      List.not_mem_nil, or_false] at hitem
    rcases hitem with rfl | ⟨payload, -, rfl⟩ | rfl | rfl
    · decide
    · rw [List.Vector.toList_length]
      decide
    · omega
    · omega

omit [DecidableEq K] in
/-- The witness of a participant: a signature and a key. -/
theorem participantWitness_length
    {signature : List UInt8}
    (key : Bytes 33)
    (hsignature : signature.length ≤ 73) :
    (serializeWitness [signature, key.toList]).length = 36 + signature.length := by
  rw [serializeWitness_length]
  · simp only [List.map_cons, List.map_nil, List.sum_cons, List.sum_nil,
      List.Vector.toList_length]
    omega
  · simp
  · intro item hitem
    simp only [List.mem_cons, List.not_mem_nil, or_false] at hitem
    rcases hitem with rfl | rfl
    · omega
    · rw [List.Vector.toList_length]
      decide

/-- The bytes by which signatures are shorter than the longest. -/
def slack (crate : BitcoinCrate K S) (signatures : List S) : ℕ :=
  (signatures.map (fun signature => 73 - (crate.serializeSignature signature).length)).sum

omit [DecidableEq K] in
theorem slack_eq_zero_iff
    {signatures : List S}
    (h : ∀ signature ∈ signatures, (crate.serializeSignature signature).length ≤ 73) :
    slack crate signatures = 0 ↔
      ∀ signature ∈ signatures, (crate.serializeSignature signature).length = 73 := by
  rw [slack, List.sum_eq_zero_iff_forall_eq_nat]
  simp only [List.mem_map, forall_exists_index, and_imp, forall_apply_eq_imp_iff₂]
  constructor
  · intro hzero signature hsignature
    have hle := h signature hsignature
    have hdiff := hzero signature hsignature
    omega
  · intro hall signature hsignature
    rw [hall signature hsignature]

omit [DecidableEq K] in
/-- The witnesses of the participants, and what they lack. -/
theorem participantWitnesses_length
    {signatures : List S}
    {commitments : List (ParticipantCommitment K)}
    (h : ∀ signature ∈ signatures, (crate.serializeSignature signature).length ≤ 73)
    (hcount : signatures.length = commitments.length) :
    (((signatures.zip commitments).map (fun (signature, commitment) =>
      [ crate.serializeSignature signature,
        (crate.serializeKey commitment.feePubkey).toList ])).flatMap serializeWitness).length +
      slack crate signatures = 109 * commitments.length := by
  induction signatures generalizing commitments with
  | nil =>
      rw [← hcount]
      rfl
  | cons signature signatures ih =>
      rcases commitments with _ | ⟨commitment, commitments⟩
      · cases hcount
      · have hfirst := h signature List.mem_cons_self
        have hrest := ih (fun s hs => h s (List.mem_cons_of_mem _ hs)) (Nat.succ.inj hcount)
        have hlength := participantWitness_length (crate.serializeKey commitment.feePubkey) hfirst
        simp only [List.zip_cons_cons, List.map_cons, List.flatMap_cons, List.length_append,
          List.length_cons, slack, List.sum_cons, hlength] at hrest ⊢
        omega

/-- A signed transaction lacks what its signatures lack. -/
theorem weight_add_slack
    (hvalid : m.validate crate sponge proposal = .ok ())
    {envelope : List (List UInt8)}
    (henvelope : envelopeV2Encode (m.commitments.map (·.payload)) = some envelope)
    (stock : S)
    {signatures : List S}
    (hlengths : ∀ signature ∈ stock :: signatures,
      (crate.serializeSignature signature).length ≤ 73)
    (hcount : signatures.length = m.commitments.length) :
    (m.signedTx crate proposal envelope stock signatures).weight +
      slack crate (stock :: signatures) = m.maxWeight.toNat := by
  have hbuild := validate_eq_ok_iff.mp hvalid
  obtain ⟨-, -, -, hparticipants, -, _, -, hassembled⟩ := buildAt_spec hbuild
  obtain ⟨-, hsize, hsmall⟩ := size_of_buildAt hbuild
  have hscript : (proposal.stockScript crate).length = m.commitments.length + 37 := by
    rw [stockScript_length, hparticipants]
  have hstockLength := hlengths stock List.mem_cons_self
  have hstock := stockWitness_length henvelope (List.length_map _) hsmall hstockLength hscript
  have hrest : ((m.signedTx crate proposal envelope stock signatures).witnesses.tail.flatMap
      serializeWitness).length + slack crate signatures = 109 * m.commitments.length :=
    participantWitnesses_length (fun s hs => hlengths s (List.mem_cons_of_mem _ hs)) hcount
  have hwitnesses : (m.signedTx crate proposal envelope stock signatures).witnesses.flatMap
      serializeWitness =
        serializeWitness (envelope ++ [crate.serializeSignature stock, proposal.stockScript crate])
          ++ (m.signedTx crate proposal envelope stock signatures).witnesses.tail.flatMap
            serializeWitness := rfl
  have hslack : slack crate (stock :: signatures) =
      73 - (crate.serializeSignature stock).length + slack crate signatures := by
    rw [slack, List.map_cons, List.sum_cons, slack]
  rw [weight_signedTx, hassembled.weight, hsize, hwitnesses, List.length_append, hstock, hslack]
  unfold weightOf
  omega

/-- The signed transaction never exceeds the pessimistic weight. -/
theorem weight_signedTx_le
    (hlawful : crate.Lawful)
    (hvalid : m.validate crate sponge proposal = .ok ())
    {envelope : List (List UInt8)}
    (henvelope : envelopeV2Encode (m.commitments.map (·.payload)) = some envelope)
    (stock : S)
    {signatures : List S}
    (hcount : signatures.length = m.commitments.length) :
    (m.signedTx crate proposal envelope stock signatures).weight ≤ m.maxWeight.toNat := by
  have hslack := weight_add_slack hvalid henvelope stock
    (fun signature _ => hlawful.signature_length signature) hcount
  omega

end Weight

section Finalize

variable {crate : BitcoinCrate K S}
variable {sponge : Sponge}
variable {proposal : Proposal K}
variable {m : Manifest K}

/-- A valid manifest has an envelope. -/
theorem exists_envelope
    (hvalid : m.validate crate sponge proposal = .ok ()) :
    ∃ envelope, envelopeV2Encode (m.commitments.map (·.payload)) = some envelope := by
  obtain ⟨-, -, -, -, -, _, -, hassembled⟩ := buildAt_spec (validate_eq_ok_iff.mp hvalid)
  have hcount := hassembled.count
  refine ⟨_, if_neg ?_⟩
  rw [not_or, not_lt]
  refine ⟨?_, by rw [List.length_map]; exact hcount.2⟩
  intro hempty
  have hlength := congrArg List.length hempty
  rw [List.length_map, List.length_nil] at hlength
  omega

/-- The direct path succeeds when every input is signed. -/
theorem finalize_eq_ok_iff
    (hlawful : crate.Lawful)
    (hvalid : m.validate crate sponge proposal = .ok ())
    {stock : S}
    {signatures : List S}
    {tx : Transaction} :
    m.finalize crate sponge proposal stock signatures = .ok tx ↔
      signatures.length = m.commitments.length ∧
        m.verifyStockSignature crate proposal stock = .ok () ∧
        (∀ (i : ℕ) signature, signatures[i]? = some signature →
          m.verifyParticipantSignature crate i signature = .ok ()) ∧
        ∃ envelope, envelopeV2Encode (m.commitments.map (·.payload)) = some envelope ∧
          m.signedTx crate proposal envelope stock signatures = tx := by
  have hall : (∃ units, signatures.zipIdx.mapM (fun (signature, index) =>
      m.verifyParticipantSignature crate index signature) = .ok units) ↔
        ∀ (i : ℕ) signature, signatures[i]? = some signature →
          m.verifyParticipantSignature crate i signature = .ok () := by
    constructor
    · rintro ⟨units, hunits⟩ i signature hi
      obtain ⟨⟨⟩, -, hunit⟩ := getElem?_of_mapM_eq_ok hunits (x := (signature, i)) (by
        rw [List.getElem?_zipIdx, hi, Nat.zero_add]
        rfl)
      exact hunit
    · intro hverified
      refine exists_mapM_eq_ok ?_
      rintro ⟨signature, i⟩ hmem
      exact ⟨(), hverified i signature (List.mem_zipIdx_iff_getElem?.mp hmem)⟩
  simp only [finalize, except_bind_eq_ok_iff, require_eq_ok_iff, decide_eq_true_eq,
    okOr_eq_ok_iff, pure, Except.pure, Except.ok.injEq, ← hall]
  constructor
  · rintro ⟨⟨⟩, -, ⟨⟩, hcount, ⟨⟩, hstock, units, hunits, envelope, henvelope, ⟨⟩, -, rfl⟩
    exact ⟨hcount, hstock, ⟨units, hunits⟩, envelope, henvelope, rfl⟩
  · rintro ⟨hcount, hstock, ⟨units, hunits⟩, envelope, henvelope, rfl⟩
    exact ⟨(), hvalid, (), hcount, (), hstock, units, hunits, envelope, henvelope, (),
      weight_signedTx_le hlawful hvalid henvelope stock hcount, rfl⟩

end Finalize

section Confluence

variable {crate : BitcoinCrate K S}
variable {sponge : Sponge}
variable {proposal : Proposal K}
variable {m : Manifest K}
variable {shares shares' : List (SignatureShare K S)}

/-- What a verified share is: of this manifest, by the key of its input, over that input. -/
theorem verifySignatureShare_eq_ok_iff
    (hvalid : m.validate crate sponge proposal = .ok ())
    {share : SignatureShare K S} :
    m.verifySignatureShare crate sponge proposal share = .ok () ↔
      share.manifestId = m.manifestId crate ∧
        ((share.inputIndex.toNat = 0 ∧ share.signerPubkey = proposal.stockOwnerPubkey ∧
            m.verifyStockSignature crate proposal share.signature = .ok ()) ∨
          ∃ i c, share.inputIndex.toNat = i + 1 ∧ m.commitments[i]? = some c ∧
            share.signerPubkey = c.feePubkey ∧
            m.verifyParticipantSignature crate i share.signature = .ok ()) := by
  simp only [verifySignatureShare, except_bind_eq_ok_iff, require_eq_ok_iff, decide_eq_true_eq]
  rcases hindex : share.inputIndex.toNat with _ | i
  · simp only [except_bind_eq_ok_iff, require_eq_ok_iff, decide_eq_true_eq]
    constructor
    · rintro ⟨⟨⟩, -, ⟨⟩, hid, ⟨⟩, hkey, hverified⟩
      exact ⟨hid, Or.inl ⟨trivial, hkey, hverified⟩⟩
    · rintro ⟨hid, ⟨-, hkey, hverified⟩ | ⟨i, _, hi, -⟩⟩
      · exact ⟨(), hvalid, (), hid, (), hkey, hverified⟩
      · cases hi
  · simp only [except_bind_eq_ok_iff, require_eq_ok_iff, decide_eq_true_eq, okOr_eq_ok_iff]
    constructor
    · rintro ⟨⟨⟩, -, ⟨⟩, hid, c, hc, ⟨⟩, hkey, hverified⟩
      exact ⟨hid, Or.inr ⟨i, c, rfl, hc, hkey, hverified⟩⟩
    · rintro ⟨hid, ⟨h0, -⟩ | ⟨j, c, hj, hc, hkey, hverified⟩⟩
      · cases h0
      · obtain rfl := Nat.succ.inj hj
        exact ⟨(), hvalid, (), hid, c, hc, (), hkey, hverified⟩

/-- A verified share is of an input of the manifest. -/
theorem index_of_verified
    (hvalid : m.validate crate sponge proposal = .ok ())
    {share : SignatureShare K S}
    (h : m.verifySignatureShare crate sponge proposal share = .ok ()) :
    share.inputIndex.toNat ≤ m.commitments.length := by
  rcases (verifySignatureShare_eq_ok_iff hvalid).mp h with ⟨-, ⟨h0, -⟩ | ⟨i, c, hi, hc, -⟩⟩
  · omega
  · have hlt := (List.getElem?_eq_some_iff.mp hc).1
    omega

/-- Verified shares of one input with one signature are the same share. -/
theorem eq_of_verified
    (hvalid : m.validate crate sponge proposal = .ok ())
    {share share' : SignatureShare K S}
    (h : m.verifySignatureShare crate sponge proposal share = .ok ())
    (h' : m.verifySignatureShare crate sponge proposal share' = .ok ())
    (hindex : share.inputIndex = share'.inputIndex)
    (hsignature : share.signature = share'.signature) :
    share = share' := by
  obtain ⟨hid, hinput⟩ := (verifySignatureShare_eq_ok_iff hvalid).mp h
  obtain ⟨hid', hinput'⟩ := (verifySignatureShare_eq_ok_iff hvalid).mp h'
  have hkey : share.signerPubkey = share'.signerPubkey := by
    rcases hinput with ⟨h0, hkey, -⟩ | ⟨i, c, hi, hc, hkey, -⟩
    · rcases hinput' with ⟨-, hkey', -⟩ | ⟨i, c, hi, -⟩
      · rw [hkey, hkey']
      · rw [hindex] at h0
        omega
    · rcases hinput' with ⟨h0, -⟩ | ⟨j, c', hj, hc', hkey', -⟩
      · rw [hindex] at hi
        omega
      · have hij : i = j := by
          rw [hindex] at hi
          omega
        subst hij
        obtain rfl := Option.some.inj (hc.symm.trans hc')
        rw [hkey, hkey']
  cases share
  cases share'
  simp only at hid hid' hindex hsignature hkey
  rw [hid, hid', hindex, hsignature, hkey]

/--
The shares are complete: every input has a verified share, no two different shares are of
the same input, and none is of an input that the manifest does not have.
-/
structure Complete
    (crate : BitcoinCrate K S)
    (sponge : Sponge)
    (proposal : Proposal K)
    (m : Manifest K)
    (shares : List (SignatureShare K S)) : Prop where
  covers : ∀ i ≤ m.commitments.length, ∃ share ∈ shares, share.inputIndex.toNat = i ∧
    m.verifySignatureShare crate sponge proposal share = .ok ()
  agree : ∀ share ∈ shares, ∀ share' ∈ shares, share.inputIndex = share'.inputIndex →
    share = share'
  inside : ∀ share ∈ shares, share.inputIndex.toNat ≤ m.commitments.length

/-- All shares of a complete set are verified. -/
theorem Complete.verified
    (h : m.Complete crate sponge proposal shares)
    {share : SignatureShare K S}
    (hmem : share ∈ shares) :
    m.verifySignatureShare crate sponge proposal share = .ok () := by
  obtain ⟨share', hmem', hindex, hverified⟩ := h.covers _ (h.inside share hmem)
  rw [h.agree share hmem share' hmem' (UInt16.toNat_inj.mp hindex.symm)]
  exact hverified

/-- The slot of a share and what goes into it. -/
def entry (share : SignatureShare K S) : ℕ × S :=
  (share.inputIndex.toNat, share.signature)

variable [DecidableEq S]

/-- Ordering the shares is verifying all of them and filling the slots. -/
theorem orderShares_eq_ok_iff
    {slots slots' : List (Option S)} :
    m.orderShares crate sponge proposal shares slots = .ok slots' ↔
      (∀ share ∈ shares, m.verifySignatureShare crate sponge proposal share = .ok ()) ∧
        fill (shares.map entry) slots = some slots' := by
  induction shares generalizing slots with
  | nil =>
      simp [orderShares, fill]
  | cons share shares ih =>
      simp only [orderShares, except_bind_eq_ok_iff, okOr_eq_ok_iff, ih, List.map_cons, fill,
        Option.bind_eq_some_iff, List.forall_mem_cons, entry]
      constructor
      · rintro ⟨⟨⟩, hverified, next, hput, hrest, hfill⟩
        exact ⟨⟨hverified, hrest⟩, next, hput, hfill⟩
      · rintro ⟨⟨hverified, hrest⟩, next, hput, hfill⟩
        exact ⟨(), hverified, next, hput, hrest, hfill⟩

omit [DecidableEq S] in
/-- All slots are taken. -/
theorem mapM_okOr_eq_ok_iff
    {slots : List (Option S)}
    {signatures : List S}
    {e : ProtocolError} :
    slots.mapM (fun slot => okOr slot e) = .ok signatures ↔ slots = signatures.map some := by
  rw [mapM_eq_ok_iff]
  constructor
  · intro h
    induction h with
    | nil => rfl
    | cons hslot _ ih => rw [okOr_eq_ok_iff.mp hslot, ih, List.map_cons]
  · rintro rfl
    rw [List.forall₂_map_left_iff]
    exact List.forall₂_same.mpr (fun _ _ => rfl)

/-- The shares are those of some signatures, one for each input, that are put together. -/
theorem finalizeShares_eq_ok_iff
    {tx : Transaction} :
    m.finalizeShares crate sponge proposal shares = .ok tx ↔
      (∀ share ∈ shares, m.verifySignatureShare crate sponge proposal share = .ok ()) ∧
        ∃ stock signatures,
          fill (shares.map entry) (List.replicate (m.commitments.length + 1) none) =
              some ((stock :: signatures).map some) ∧
            m.finalize crate sponge proposal stock signatures = .ok tx := by
  simp only [finalizeShares, except_bind_eq_ok_iff, orderShares_eq_ok_iff, okOr_eq_ok_iff,
    mapM_okOr_eq_ok_iff]
  constructor
  · rintro ⟨slots, ⟨hverified, hfill⟩, stock, hstock, signatures, hsignatures, hfinal⟩
    refine ⟨hverified, stock, signatures, ?_, hfinal⟩
    rcases slots with _ | ⟨slot, slots⟩
    · cases hstock
    · have hslot : slot = some stock := hstock
      rw [hfill, hslot, List.map_cons, ← hsignatures]
      rfl
  · rintro ⟨hverified, stock, signatures, hfill, hfinal⟩
    exact ⟨_, ⟨hverified, hfill⟩, stock, rfl, signatures, rfl, hfinal⟩

/-- The signatures of a set of shares, by input. -/
def SignaturesOf
    (m : Manifest K)
    (shares : List (SignatureShare K S))
    (stock : S)
    (signatures : List S) : Prop :=
  signatures.length = m.commitments.length ∧
    ∀ (i : ℕ) signature, (stock :: signatures)[i]? = some signature ↔
      ∃ share ∈ shares, share.inputIndex.toNat = i ∧ share.signature = signature

omit [DecidableEq K] in
/-- Filling an empty row with the signatures of the shares. -/
theorem fill_shares_iff
    {stock : S}
    {signatures : List S} :
    fill (shares.map entry) (List.replicate (m.commitments.length + 1) none) =
        some ((stock :: signatures).map some) ↔
      m.SignaturesOf shares stock signatures := by
  have hentry : ∀ i signature, (i, signature) ∈ shares.map entry ↔
      ∃ share ∈ shares, share.inputIndex.toNat = i ∧ share.signature = signature := by
    intro i signature
    simp only [List.mem_map, entry, Prod.mk.injEq]
  constructor
  · intro hfill
    have hfilled := filled_of_fill hfill
    refine ⟨?_, ?_⟩
    · have hlength := hfilled.length_eq
      simpa using hlength
    · intro i signature
      rw [hfilled.getElem?_eq_some_iff, hentry]
  · rintro ⟨hlength, hsignatures⟩
    have hbound : ∀ i signature, (i, signature) ∈ shares.map entry →
        (stock :: signatures)[i]? = some signature := by
      intro i signature hmem
      exact (hsignatures i signature).mpr ((hentry i signature).mp hmem)
    obtain ⟨slots, hfill⟩ : ∃ slots, fill (shares.map entry)
        (List.replicate (m.commitments.length + 1) none) = some slots := by
      refine exists_fill ?_ ?_
      · rintro ⟨i, signature⟩ hmem
        have hlt := (List.getElem?_eq_some_iff.mp (hbound i signature hmem)).1
        rw [List.length_cons, hlength] at hlt
        exact Or.inl (List.getElem?_replicate_of_lt hlt)
      · intro i a b ha hb
        exact Option.some.inj ((hbound i a ha).symm.trans (hbound i b hb))
    have hfilled := filled_of_fill hfill
    obtain ⟨values, rfl⟩ := hfilled.exists_values (by
      intro i hi
      have hlt : i < (stock :: signatures).length := by
        rw [List.length_cons, hlength]
        exact hi
      exact ⟨_, (hentry i _).mpr ((hsignatures i _).mp (List.getElem?_eq_getElem hlt))⟩)
    have hvalues : values = stock :: signatures := by
      refine List.ext_getElem? ?_
      intro i
      refine Option.ext ?_
      intro signature
      rw [hfilled.getElem?_eq_some_iff, hentry, hsignatures]
    rw [hfill, hvalues]

/-- Finishing from shares is finishing from their signatures. -/
theorem finalizeShares_iff_finalize
    {tx : Transaction} :
    m.finalizeShares crate sponge proposal shares = .ok tx ↔
      (∀ share ∈ shares, m.verifySignatureShare crate sponge proposal share = .ok ()) ∧
        ∃ stock signatures, m.SignaturesOf shares stock signatures ∧
          m.finalize crate sponge proposal stock signatures = .ok tx := by
  rw [finalizeShares_eq_ok_iff]
  simp only [fill_shares_iff]

/-- A complete set of shares has a signature for every input. -/
theorem Complete.exists_signatures
    (h : m.Complete crate sponge proposal shares) :
    ∃ stock signatures, m.SignaturesOf shares stock signatures := by
  obtain ⟨slots, hfill⟩ : ∃ slots, fill (shares.map entry)
      (List.replicate (m.commitments.length + 1) none) = some slots := by
    refine exists_fill ?_ ?_
    · intro e he
      obtain ⟨share, hshare, rfl⟩ := List.mem_map.mp he
      have hinside := h.inside share hshare
      exact Or.inl (List.getElem?_replicate_of_lt (Nat.lt_succ_of_le hinside))
    · intro i a b ha hb
      obtain ⟨share, hshare, heq⟩ := List.mem_map.mp ha
      obtain ⟨share', hshare', heq'⟩ := List.mem_map.mp hb
      obtain ⟨rfl, rfl⟩ := Prod.mk.inj heq
      obtain ⟨hindex, rfl⟩ := Prod.mk.inj heq'
      rw [h.agree share hshare share' hshare' (UInt16.toNat_inj.mp hindex.symm)]
  have hfilled := filled_of_fill hfill
  obtain ⟨values, rfl⟩ := hfilled.exists_values (by
    intro i hi
    obtain ⟨share, hshare, hindex, -⟩ := h.covers i (Nat.le_of_lt_succ hi)
    refine ⟨share.signature, ?_⟩
    rw [← hindex]
    exact List.mem_map_of_mem hshare)
  have hlength := hfilled.length_eq
  rw [List.length_map, List.length_replicate] at hlength
  obtain ⟨stock, signatures, rfl⟩ := List.exists_cons_of_length_eq_add_one hlength
  exact ⟨stock, signatures, fill_shares_iff.mp hfill⟩

/-- Finishing succeeds when the shares are complete. -/
theorem exists_finalizeShares_iff
    (hlawful : crate.Lawful)
    (hvalid : m.validate crate sponge proposal = .ok ()) :
    (∃ tx, m.finalizeShares crate sponge proposal shares = .ok tx) ↔
      m.Complete crate sponge proposal shares := by
  simp only [finalizeShares_iff_finalize]
  constructor
  · rintro ⟨tx, hverified, stock, signatures, ⟨hlength, hsignatures⟩, -⟩
    refine ⟨?_, ?_, ?_⟩
    · intro i hi
      have hlt : i < (stock :: signatures).length := by
        rw [List.length_cons, hlength]
        omega
      obtain ⟨share, hshare, hindex, -⟩ := (hsignatures i _).mp (List.getElem?_eq_getElem hlt)
      exact ⟨share, hshare, hindex, hverified share hshare⟩
    · intro share hshare share' hshare' hindex
      have hvalue := (hsignatures _ _).mpr ⟨share, hshare, rfl, rfl⟩
      have hvalue' := (hsignatures _ _).mpr ⟨share', hshare', rfl, rfl⟩
      rw [hindex] at hvalue
      exact eq_of_verified hvalid (hverified share hshare) (hverified share' hshare') hindex
        (Option.some.inj (hvalue.symm.trans hvalue'))
    · intro share hshare
      exact index_of_verified hvalid (hverified share hshare)
  · intro hcomplete
    obtain ⟨stock, signatures, hsignatures⟩ := hcomplete.exists_signatures
    obtain ⟨envelope, henvelope⟩ := exists_envelope hvalid
    -- every signature was verified with its share
    have hverified : ∀ (i : ℕ) signature, (stock :: signatures)[i]? = some signature →
        ∃ share : SignatureShare K S, share.inputIndex.toNat = i ∧ share.signature = signature ∧
          m.verifySignatureShare crate sponge proposal share = .ok () := by
      intro i signature hi
      obtain ⟨share, hshare, hindex, hsignature⟩ := (hsignatures.2 i signature).mp hi
      exact ⟨share, hindex, hsignature, hcomplete.verified hshare⟩
    refine ⟨_, fun share hshare => hcomplete.verified hshare, stock, signatures, hsignatures,
      (finalize_eq_ok_iff hlawful hvalid).mpr ⟨hsignatures.1, ?_, ?_, envelope, henvelope, rfl⟩⟩
    · obtain ⟨share, hindex, rfl, hshare⟩ := hverified 0 stock rfl
      obtain ⟨-, ⟨-, -, hstock⟩ | ⟨i, _, hi, -⟩⟩ :=
        (verifySignatureShare_eq_ok_iff hvalid).mp hshare
      · exact hstock
      · omega
    · intro i signature hi
      obtain ⟨share, hindex, rfl, hshare⟩ := hverified (i + 1) signature hi
      obtain ⟨-, ⟨h0, -⟩ | ⟨j, _, hj, -, -, hparticipant⟩⟩ :=
        (verifySignatureShare_eq_ok_iff hvalid).mp hshare
      · omega
      · have hij : j = i := by
          omega
        rwa [hij] at hparticipant

section Sample

/-- The shares of the sample manifest. -/
def Sample.shareOf
    (index : UInt16)
    (key : Sample.Key)
    (signature : Sample.Signature) : SignatureShare Sample.Key Sample.Signature :=
  ⟨Sample.manifest.manifestId Sample.crate, index, key, signature⟩

def Sample.stockShare := Sample.shareOf 0 Sample.stockKey Sample.stockSignature
def Sample.firstShare := Sample.shareOf 1 Sample.firstKey Sample.firstSignature
def Sample.secondShare := Sample.shareOf 2 Sample.secondKey Sample.secondSignature

/-- A share of an input that the transaction does not have. -/
def Sample.outsideShare := Sample.shareOf 3 Sample.secondKey Sample.secondSignature

def Sample.complete : List (SignatureShare Sample.Key Sample.Signature) :=
  [Sample.secondShare, Sample.stockShare, Sample.firstShare, Sample.stockShare]

theorem Sample.verified_complete :
    ∀ share ∈ Sample.complete,
      Sample.manifest.verifySignatureShare Sample.crate foldSponge Sample.proposal share =
        .ok () := by
  decide +kernel

theorem Sample.covers_complete :
    ∀ i ≤ Sample.manifest.commitments.length, ∃ share ∈ Sample.complete,
      share.inputIndex.toNat = i ∧
        Sample.manifest.verifySignatureShare Sample.crate foldSponge Sample.proposal share =
          .ok () := by
  intro i hi
  have hindex : ∀ i ≤ 2, ∃ share ∈ Sample.complete, share.inputIndex.toNat = i := by
    decide
  obtain ⟨share, hshare, heq⟩ := hindex i hi
  exact ⟨share, hshare, heq, Sample.verified_complete share hshare⟩

theorem Sample.agree_complete :
    ∀ share ∈ Sample.outsideShare :: Sample.complete,
      ∀ share' ∈ Sample.outsideShare :: Sample.complete,
        share.inputIndex = share'.inputIndex → share = share' := by
  have hshares : ∀ share ∈ Sample.outsideShare :: Sample.complete,
      share = Sample.outsideShare ∨ share = Sample.secondShare ∨ share = Sample.stockShare ∨
        share = Sample.firstShare := by
    intro share hshare
    simp only [Sample.complete, List.mem_cons, List.not_mem_nil, or_false] at hshare
    tauto
  intro share hshare share' hshare' hindex
  rcases hshares share hshare with rfl | rfl | rfl | rfl <;>
    rcases hshares share' hshare' with rfl | rfl | rfl | rfl <;>
      first
        | rfl
        | exact absurd hindex (by decide)

end Sample

/--
Finishing a valid manifest from shares succeeds exactly when they are complete; its outcome
is that of the direct path with their signatures, does not depend on their order or
repetition, and has the id of the unsigned transaction.
-/
theorem finalizeShares_confluent
    (hlawful : crate.Lawful)
    (hvalid : m.validate crate sponge proposal = .ok ())
    (shares : List (SignatureShare K S)) :
    ((∃ tx, m.finalizeShares crate sponge proposal shares = .ok tx) ↔
        m.Complete crate sponge proposal shares) ∧
      (∀ shares', (∀ share, share ∈ shares ↔ share ∈ shares') → ∀ tx,
        m.finalizeShares crate sponge proposal shares = .ok tx ↔
          m.finalizeShares crate sponge proposal shares' = .ok tx) ∧
      ∀ tx, m.finalizeShares crate sponge proposal shares = .ok tx →
        (∃ stock signatures, m.SignaturesOf shares stock signatures ∧
          m.finalize crate sponge proposal stock signatures = .ok tx) ∧
        tx.txid crate.sha256 = m.unsignedTx.txid crate.sha256 := by
  refine ⟨exists_finalizeShares_iff hlawful hvalid, ?_, ?_⟩
  · intro shares' hsame tx
    simp only [finalizeShares_iff_finalize, SignaturesOf, hsame]
  · intro tx htx
    obtain ⟨-, stock, signatures, hsignatures, hfinal⟩ := finalizeShares_iff_finalize.mp htx
    refine ⟨⟨stock, signatures, hsignatures, hfinal⟩, ?_⟩
    obtain ⟨-, -, -, envelope, -, rfl⟩ := (finalize_eq_ok_iff hlawful hvalid).mp hfinal
    exact txid_signedTx crate.sha256 envelope stock signatures

/-- The sample shares, one of them twice, finish the sample manifest. -/
theorem sample_shares_finish :
    ∃ tx, Sample.manifest.finalizeShares Sample.crate foldSponge Sample.proposal
      Sample.complete = .ok tx := by
  refine (finalizeShares_confluent Sample.crate_lawful Sample.validate_manifest
    Sample.complete).1.mpr ⟨Sample.covers_complete, ?_, ?_⟩
  · intro share hshare share' hshare'
    exact Sample.agree_complete share (List.mem_cons_of_mem _ hshare) share'
      (List.mem_cons_of_mem _ hshare')
  · decide

/--
A share of an input that is not there stops the others: every input has a verified share and
no two shares are of the same input.
-/
theorem outside_share_stops :
    ¬∀ shares : List (SignatureShare Sample.Key Sample.Signature),
      (∃ tx, Sample.manifest.finalizeShares Sample.crate foldSponge Sample.proposal shares =
          .ok tx) ↔
        (∀ i ≤ Sample.manifest.commitments.length, ∃ share ∈ shares,
          share.inputIndex.toNat = i ∧
            Sample.manifest.verifySignatureShare Sample.crate foldSponge Sample.proposal share =
              .ok ()) ∧
        ∀ share ∈ shares, ∀ share' ∈ shares, share.inputIndex = share'.inputIndex →
          share = share' := by
  intro hiff
  have hcovers : ∀ i ≤ Sample.manifest.commitments.length,
      ∃ share ∈ Sample.outsideShare :: Sample.complete, share.inputIndex.toNat = i ∧
        Sample.manifest.verifySignatureShare Sample.crate foldSponge Sample.proposal share =
          .ok () := by
    intro i hi
    obtain ⟨share, hshare, hverified⟩ := Sample.covers_complete i hi
    exact ⟨share, List.mem_cons_of_mem _ hshare, hverified⟩
  obtain ⟨tx, htx⟩ := (hiff _).mpr ⟨hcovers, Sample.agree_complete⟩
  have houtside := (finalizeShares_eq_ok_iff.mp htx).1 Sample.outsideShare List.mem_cons_self
  exact absurd (index_of_verified Sample.validate_manifest houtside) (by decide)

end Confluence

end Manifest

end OpenCsv
