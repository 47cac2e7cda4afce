import OpenCsv.Core.Accept

/-!
# Coin-proof statements and the verifier adapter

A coin proof carries its full statement inside the proof bytes.  The adapter
decodes it, checks the lineage version, checks that the statement projects onto
the public input reconstructed by the accept driver, and runs the recursive
verifier.

Deserialization of the envelope and the recursive verifier live outside the
repository; `PcdEngine` is what the adapter uses of them.

**Results.** Openings are read back from a public input
(`parseOpenings_publicInput`), so the projection check is a check on the
record, the context and the openings themselves
(`statementMatchesPublicInput_publicInput`).  `coinProofVerifier_verify_iff` is the
inversion of the adapter.
-/

namespace OpenCsv

/-- The mode of a coin proof. -/
inductive NodeMode where
  | mint | transfer | redeem
deriving DecidableEq

/-- The public statement of a coin proof: two nullifiers and two outputs. -/
structure NodeStatement where
  assetId : Digest
  value : UInt64
  mintCommit : Digest
  nullifier₀ : Digest
  nullifier₁ : Digest
  output₀ : Digest
  output₁ : Digest
deriving DecidableEq

namespace NodeStatement

/-- The two nullifier fields. -/
def nullifiers (st : NodeStatement) : List Digest :=
  [st.nullifier₀, st.nullifier₁]

/-- The two output commitments. -/
def outputCommitments (st : NodeStatement) : List Digest :=
  [st.output₀, st.output₁]

/-- The nullifiers of the coins the proof consumes: the fields that are not padding. -/
def spent (st : NodeStatement) : List Digest :=
  st.nullifiers.filter (fun nf => nf != Digest.zero)

/-- Deserialization of a digest rejects non-canonical limbs. -/
def isCanonical (st : NodeStatement) : Bool :=
  st.assetId.isCanonical && st.mintCommit.isCanonical &&
    st.nullifiers.all Digest.isCanonical && st.outputCommitments.all Digest.isCanonical

end NodeStatement

/-- A coin proof: lineage version, mode, statement and recursive proof. -/
structure CoinProof (π : Type) where
  version : UInt8
  mode : NodeMode
  statement : NodeStatement
  proof : π

def coinProofVersion : UInt8 := 4
def legacyCoinProofVersion : UInt8 := 3

/-- The frozen production tag that `vk` must equal. -/
def coinVkTag : List UInt8 := ascii "opencsv-pcd-coin-v4-with-v3-fri94"

/-- The prefix of versioned envelopes. -/
def proofEnvelopeMagic : List UInt8 := ascii "OCSVPCD"

/-- What the adapter uses from outside: envelope and proof decoding, and the verifier. -/
structure PcdEngine (π : Type) where
  envelope : List UInt8 → Option (NodeMode × NodeStatement × List UInt8)
  proof : List UInt8 → Option π
  verifyCoinProof : NodeStatement → CoinProof π → Bool

section Decoding

variable {π : Type}

/-- Decode an envelope and its proof under a given version. -/
def PcdEngine.decodeVersion
    (engine : PcdEngine π)
    (version : UInt8)
    (payload : List UInt8) : Option (CoinProof π) :=
  match engine.envelope payload with
  | none => none
  | some (mode, statement, inner) =>
      if statement.isCanonical then
        (engine.proof inner).map (fun proof => ⟨version, mode, statement, proof⟩)
      else
        none

/-- Decode a coin proof from the opaque bytes of a consignment. -/
def PcdEngine.decodeCoinProof
    (engine : PcdEngine π)
    (bytes : List UInt8) : Option (CoinProof π) :=
  if proofEnvelopeMagic.isPrefixOf bytes then
    match bytes.drop proofEnvelopeMagic.length with
    | [] => none
    | version :: payload => engine.decodeVersion version payload
  else
    -- The pre-versioning envelope is assigned version 1 and never verifies.
    engine.decodeVersion 1 bytes

end Decoding

section Projection

variable (sponge : Sponge)

/-- Thirty-two bytes at offset `i`, as a digest. -/
def digestAt (bytes : List UInt8) (i : ℕ) : Digest :=
  ⟨⟨((bytes.drop i).take 32 ++ List.replicate 32 0).take 32, by
    simp⟩⟩

/-- One opening from its 104 public-input bytes. -/
def openingOfBytes (o : List UInt8) : CoinOpening where
  assetId := digestAt o 0
  value := UInt64.ofNat (leNat ((o.drop 32).take 8))
  owner := digestAt o 40
  randomness := digestAt o 72

/-- `count` consecutive openings. -/
def openingsOfBytes : ℕ → List UInt8 → List CoinOpening
  | 0, _ => []
  | count + 1, bytes => openingOfBytes (bytes.take 104) :: openingsOfBytes count (bytes.drop 104)

/-- Parse the openings out of a public input. -/
def parseOpenings (x : List UInt8) : Option (List CoinOpening) :=
  if x.length < 96 ∨ (x.length - 96) % 104 ≠ 0 then
    none
  else
    some (openingsOfBytes ((x.length - 96) / 104) (x.drop 96))

/-- Exactly two openings in the stated asset, committing to the stated outputs. -/
def outputsMatch (st : NodeStatement) (openings : List CoinOpening) : Bool :=
  openings.length == 2 &&
    (openings.zip st.outputCommitments).all
      (fun (o, c) => o.assetId == st.assetId && o.commitment sponge == c)

/-- Each slot binds one statement nullifier; padding binds a zero slot. -/
def directMatch (ctx : Ctx) (st : NodeStatement) (slot₀ slot₁ : TruncatedDigest) : Bool :=
  (st.nullifiers.zip [slot₀, slot₁]).all (fun (nf, s) =>
    if nf = Digest.zero then s == TruncatedDigest.zero else bound sponge ctx nf == s)

/-- Slot 0 binds the nullifier commitment and slot 1 is zero. -/
def compressedMatch (ctx : Ctx) (st : NodeStatement) (slot₀ slot₁ : TruncatedDigest) : Bool :=
  slot₁ == TruncatedDigest.zero &&
    bound sponge ctx (nullifierCommit sponge st.nullifiers) == slot₀

theorem slot₀_le :
    0 + 24 ≤ 64 := by
  decide

theorem slot₁_le :
    24 + 24 ≤ 64 := by
  decide

/-- The projection check on the parts of the public input. -/
def statementMatches
    (mode : NodeMode)
    (st : NodeStatement)
    (ctx : Ctx)
    (anchorBytes : Bytes 64)
    (openings : List CoinOpening) : Bool :=
  match AnchorRecord.fromBytes anchorBytes, mode with
  | .mint assetId value mintCommit, .mint =>
      st.assetId.toAnchor == assetId && st.value == value &&
        st.mintCommit.toAnchor == mintCommit &&
        st.nullifiers == [Digest.zero, Digest.zero] && outputsMatch sponge st openings
  | .redeem assetId value payload, .redeem =>
      st.assetId.toAnchor == assetId && st.value == value &&
        st.mintCommit == Digest.zero && bound sponge ctx st.nullifier₀ == payload &&
        st.nullifier₁ == Digest.zero &&
        st.outputCommitments == [Digest.zero, Digest.zero] && openings.isEmpty
  | _, .transfer =>
      -- The slots are read from the raw bytes, whatever the record parses as.
      let slot₀ := AnchorRecord.td anchorBytes 0 slot₀_le
      let slot₁ := AnchorRecord.td anchorBytes 24 slot₁_le
      let distinctNullifiers :=
        st.nullifier₀ == Digest.zero || st.nullifier₁ == Digest.zero ||
          st.nullifier₀ != st.nullifier₁
      st.value == 0 && st.mintCommit == Digest.zero && outputsMatch sponge st openings &&
        distinctNullifiers &&
        (directMatch sponge ctx st slot₀ slot₁ || compressedMatch sponge ctx st slot₀ slot₁)
  | _, _ => false

/-- Does the statement project onto the accept driver's public input? -/
def statementMatchesPublicInput
    (mode : NodeMode)
    (st : NodeStatement)
    (x : List UInt8) : Bool :=
  match parseOpenings x with
  | none => false
  | some openings =>
      let ctx : Ctx := (digestAt x 0).bytes
      let anchorBytes : Bytes 64 :=
        ⟨((x.drop 32).take 64 ++ List.replicate 64 0).take 64, by simp⟩
      statementMatches sponge mode st ctx anchorBytes openings

/-- The production verifier behind the accept driver's seam. -/
def coinProofVerifier {π : Type} (engine : PcdEngine π) : ProofVerifier where
  verify := fun vk x proof =>
    if vk ≠ coinVkTag then
      false
    else
      match engine.decodeCoinProof proof with
      | none => false
      | some coin =>
          if coin.version ≠ coinProofVersion then
            false
          else if !statementMatchesPublicInput sponge coin.mode coin.statement x then
            false
          else
            engine.verifyCoinProof coin.statement coin

end Projection

section PublicInput

variable {sponge : Sponge}

/-- A 32-byte field is read back as the digest that was written. -/
theorem digestAt_append
    {pre post : List UInt8}
    {i : ℕ}
    (d : Digest)
    (hpre : pre.length = i) :
    digestAt (pre ++ (d.bytes.toList ++ post)) i = d := by
  apply Digest.ext
  apply Bytes.ext_toList
  show (((pre ++ (d.bytes.toList ++ post)).drop i).take 32 ++ List.replicate 32 0).take 32 =
    d.bytes.toList
  have hlen : d.bytes.toList.length = 32 := d.bytes.2
  rw [take_drop_append hpre hlen]
  exact List.take_left' hlen

/-- An opening is read back from its public-input bytes. -/
theorem openingOfBytes_toPublicInputBytes
    (o : CoinOpening) :
    openingOfBytes o.toPublicInputBytes = o := by
  have hasset : digestAt o.toPublicInputBytes 0 = o.assetId :=
    digestAt_append o.assetId List.length_nil
  have hvalue : (o.toPublicInputBytes.drop 32).take 8 = leBytes 8 o.value.toNat :=
    take_drop_append o.assetId.bytes.2 (leBytes_length 8 _)
  have howner : digestAt o.toPublicInputBytes 40 = o.owner := by
    rw [Coin.toPublicInputBytes, ← List.append_assoc]
    exact digestAt_append o.owner (by simp)
  have hrandomness : digestAt o.toPublicInputBytes 72 = o.randomness := by
    rw [Coin.toPublicInputBytes, ← List.append_assoc, ← List.append_assoc,
      ← List.append_nil o.randomness.bytes.toList]
    exact digestAt_append o.randomness (by simp)
  rw [openingOfBytes, hasset, hvalue, howner, hrandomness, leNat_leBytes_u64,
    UInt64.ofNat_toNat]

theorem openingsOfBytes_flatMap
    (openings : List CoinOpening) :
    openingsOfBytes openings.length (openings.flatMap Coin.toPublicInputBytes) = openings := by
  induction openings with
  | nil =>
      rfl
  | cons o rest ih =>
      rw [List.flatMap_cons, List.length_cons, openingsOfBytes,
        List.take_left' (Coin.toPublicInputBytes_length o),
        List.drop_left' (Coin.toPublicInputBytes_length o),
        openingOfBytes_toPublicInputBytes, ih]

/-- Openings are read back from the public input they were written into. -/
theorem parseOpenings_publicInput
    (record : AnchorRecord)
    (ctx : Ctx)
    (openings : List CoinOpening) :
    parseOpenings (publicInput record ctx openings) = some openings := by
  have hlen : (openings.flatMap Coin.toPublicInputBytes).length = 104 * openings.length := by
    simp [List.length_flatMap, Nat.mul_comm]
  have htotal : (publicInput record ctx openings).length = 96 + 104 * openings.length := by
    simp only [publicInput, List.length_append, List.Vector.toList_length, hlen]
    omega
  have hdrop : (publicInput record ctx openings).drop 96 =
      openings.flatMap Coin.toPublicInputBytes := by
    rw [publicInput, ← List.append_assoc]
    exact List.drop_left' (by simp)
  have hvalid : ¬((publicInput record ctx openings).length < 96 ∨
      ((publicInput record ctx openings).length - 96) % 104 ≠ 0) := by
    omega
  have hcount : ((publicInput record ctx openings).length - 96) / 104 = openings.length := by
    omega
  rw [parseOpenings, if_neg hvalid, hcount, hdrop, openingsOfBytes_flatMap]

/-- On the driver's public input the projection check sees its parts. -/
theorem statementMatchesPublicInput_publicInput
    (mode : NodeMode)
    (st : NodeStatement)
    (record : AnchorRecord)
    (ctx : Ctx)
    (openings : List CoinOpening) :
    statementMatchesPublicInput sponge mode st (publicInput record ctx openings) =
      statementMatches sponge mode st ctx record.toBytes openings := by
  have hctx : (digestAt (publicInput record ctx openings) 0).bytes = ctx := by
    have h : digestAt ([] ++ (ctx.toList ++ (record.toBytes.toList ++
        openings.flatMap Coin.toPublicInputBytes))) 0 = ⟨ctx⟩ :=
      digestAt_append ⟨ctx⟩ List.length_nil
    exact congrArg Digest.bytes h
  have hanchor : (((publicInput record ctx openings).drop 32).take 64 ++
      List.replicate 64 0).take 64 = record.toBytes.toList := by
    have hslice : ((publicInput record ctx openings).drop 32).take 64 =
        record.toBytes.toList :=
      take_drop_append ctx.2 record.toBytes.2
    rw [hslice]
    exact List.take_left' record.toBytes.2
  rw [statementMatchesPublicInput, parseOpenings_publicInput]
  simp only [hctx, hanchor]
  rfl

/-- A mint statement matches a payload that parses as a mint with its fields. -/
theorem statementMatches_mint
    {st : NodeStatement}
    {ctx : Ctx}
    {b : Bytes 64}
    {openings : List CoinOpening}
    (h : statementMatches sponge .mint st ctx b openings = true) :
    AnchorRecord.fromBytes b =
        .mint st.assetId.toAnchor st.value st.mintCommit.toAnchor ∧
      st.nullifiers = [Digest.zero, Digest.zero] ∧ outputsMatch sponge st openings = true := by
  unfold statementMatches at h
  split at h
  · rename_i assetId value mintCommit hrecord _
    simp only [Bool.and_eq_true, beq_iff_eq] at h
    obtain ⟨⟨⟨⟨hasset, hvalue⟩, hcommit⟩, hnfs⟩, houtputs⟩ := h
    rw [hrecord, hasset, hvalue, hcommit]
    exact ⟨rfl, hnfs, houtputs⟩
  · contradiction
  · contradiction
  · cases h

/-- A transfer statement is matched against the two raw slots. -/
theorem statementMatches_transfer
    {st : NodeStatement}
    {ctx : Ctx}
    {b : Bytes 64}
    {openings : List CoinOpening}
    (h : statementMatches sponge .transfer st ctx b openings = true) :
    outputsMatch sponge st openings = true ∧
      (directMatch sponge ctx st (AnchorRecord.td b 0 (by decide))
          (AnchorRecord.td b 24 (by decide)) = true ∨
        compressedMatch sponge ctx st (AnchorRecord.td b 0 (by decide))
          (AnchorRecord.td b 24 (by decide)) = true) := by
  unfold statementMatches at h
  split at h
  · contradiction
  · contradiction
  · simp only [Bool.and_eq_true, Bool.or_eq_true] at h
    exact ⟨h.1.1.2, h.2⟩
  · cases h

/-- A redemption statement has no openings. -/
theorem statementMatches_redeem
    {st : NodeStatement}
    {ctx : Ctx}
    {b : Bytes 64}
    {openings : List CoinOpening}
    (h : statementMatches sponge .redeem st ctx b openings = true) :
    openings = [] := by
  unfold statementMatches at h
  split at h
  · contradiction
  · simp only [Bool.and_eq_true, List.isEmpty_iff] at h
    exact h.2
  · contradiction
  · cases h

/-- Matching outputs are two openings of the stated asset and commitments. -/
theorem outputsMatch_iff
    {st : NodeStatement}
    {openings : List CoinOpening} :
    outputsMatch sponge st openings = true
      ↔
    ∃ o₀ o₁, openings = [o₀, o₁] ∧ o₀.assetId = st.assetId ∧ o₁.assetId = st.assetId ∧
      o₀.commitment sponge = st.output₀ ∧ o₁.commitment sponge = st.output₁ := by
  unfold outputsMatch NodeStatement.outputCommitments
  constructor
  · intro h
    simp only [Bool.and_eq_true, beq_iff_eq] at h
    obtain ⟨hlen, hall⟩ := h
    obtain ⟨o₀, o₁, rfl⟩ := List.length_eq_two.mp hlen
    simp only [List.zip_cons_cons, List.zip_nil_left, List.all_cons, List.all_nil,
      Bool.and_true, Bool.and_eq_true, beq_iff_eq] at hall
    obtain ⟨⟨hasset₀, hcommit₀⟩, hasset₁, hcommit₁⟩ := hall
    exact ⟨o₀, o₁, rfl, hasset₀, hasset₁, hcommit₀, hcommit₁⟩
  · rintro ⟨o₀, o₁, rfl, hasset₀, hasset₁, hcommit₀, hcommit₁⟩
    simp [hasset₀, hasset₁, hcommit₀, hcommit₁]

/-- The adapter accepts exactly when tag, decoding, lineage, projection and proof do. -/
theorem coinProofVerifier_verify_iff
    {π : Type}
    {engine : PcdEngine π}
    {vk proof : List UInt8}
    {record : AnchorRecord}
    {ctx : Ctx}
    {openings : List CoinOpening} :
    (coinProofVerifier sponge engine).verify vk (publicInput record ctx openings) proof = true
      ↔
    vk = coinVkTag ∧ ∃ coin, engine.decodeCoinProof proof = some coin ∧
      coin.version = coinProofVersion ∧
      statementMatches sponge coin.mode coin.statement ctx record.toBytes openings = true ∧
      engine.verifyCoinProof coin.statement coin = true := by
  simp only [coinProofVerifier, statementMatchesPublicInput_publicInput]
  by_cases hvk : vk = coinVkTag
  · cases hdecode : engine.decodeCoinProof proof with
    | none =>
        simp [hvk]
    | some coin =>
        by_cases hversion : coin.version = coinProofVersion
        · by_cases hmatch : statementMatches sponge coin.mode coin.statement ctx
              record.toBytes openings = true
          · simp [hvk, hversion, hmatch]
          · simp [hvk, hversion, hmatch]
        · simp [hvk, hversion]
  · simp [hvk]

end PublicInput

end OpenCsv
