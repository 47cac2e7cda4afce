import OpenCsv.Lib.Amounts
import OpenCsv.Pcd.Circuit

/-!
# The host-side provers

Each prover checks its inputs natively, assembles the statement and hands the
circuit and witness to the recursive prover, which lives outside the
repository.

**Results.** The statement an honest mint or one-input transfer assembles is in
the relation the circuits attest (`mintStatement_mem`,
`oneInputStatement_mem`): the native encodings are exactly the witnesses the
circuits ask for.
-/

namespace OpenCsv

/-- Errors of proving; `engine` stands for every failure inside the recursive prover. -/
inductive NodeError where
  | issuerKeyMismatch
  | assetMismatch
  | duplicateInput
  | valueOverflow
  | predecessorAssetMismatch
  | predecessorOutputMismatch
  | engine
deriving DecidableEq

/-- What is handed to the recursive prover. -/
inductive ProveRequest (π : Type) where
  | mint (genesis : AssetGenesis) (issuerSecret : Bytes 32) (mintNonce : Digest)
      (out₀ out₁ : Coin)
  | oneInput (input : Coin) (osk : OwnerSecret) (out₀ out₁ : Coin) (pred : CoinProof π)
      (selector : ℕ)
  | twoInput (in₀ in₁ : Coin) (osk₀ osk₁ : OwnerSecret) (out₀ out₁ : Coin)
      (pred₀ pred₁ : CoinProof π) (selector₀ selector₁ : ℕ)
  | redeem (input : Coin) (osk : OwnerSecret) (pred : CoinProof π) (selector : ℕ)

/-- The recursive prover. -/
abbrev Prover (π : Type) := ProveRequest π → Except NodeError π

section Statements

variable (sponge : Sponge)

/-- The statement of a mint of `value` under `mintNonce`. -/
def mintStatement
    (assetId : Digest)
    (value : UInt64)
    (mintNonce : Digest)
    (out₀ out₁ : Coin) : NodeStatement where
  assetId := assetId
  value := value
  mintCommit := mintCommit sponge assetId value mintNonce
  nullifier₀ := Digest.zero
  nullifier₁ := Digest.zero
  output₀ := out₀.commitment sponge
  output₁ := out₁.commitment sponge

/-- The statement of a transfer with the given nullifier fields. -/
def transferStatement
    (assetId nullifier₀ nullifier₁ : Digest)
    (out₀ out₁ : Coin) : NodeStatement where
  assetId := assetId
  value := 0
  mintCommit := Digest.zero
  nullifier₀ := nullifier₀
  nullifier₁ := nullifier₁
  output₀ := out₀.commitment sponge
  output₁ := out₁.commitment sponge

/-- The statement of a redemption. -/
def redeemStatement
    (assetId : Digest)
    (value : UInt64)
    (nullifier₀ : Digest) : NodeStatement where
  assetId := assetId
  value := value
  mintCommit := Digest.zero
  nullifier₀ := nullifier₀
  nullifier₁ := Digest.zero
  output₀ := Digest.zero
  output₁ := Digest.zero

end Statements

section Provers

variable (sponge : Sponge)
variable {π : Type}
variable (prover : Prover π)

/-- The selected output of a predecessor is the coin. -/
def predecessorOutputMatches
    (pred : NodeStatement)
    (selector : ℕ)
    (coin : Coin) : Bool :=
  match pred.outputCommitments[selector]? with
  | some c => c == coin.commitment sponge
  | none => false

/-- Prove an issuer-authorized genesis mint. -/
def proveGenesisMint
    (genesis : AssetGenesis)
    (issuerSecret : Bytes 32)
    (mintNonce : Digest)
    (out₀ out₁ : Coin) : Except NodeError (CoinProof π) :=
  let assetId := genesis.assetId sponge
  if issuerPublicKey sponge issuerSecret ≠ genesis.issuerPk then
    .error .issuerKeyMismatch
  else if out₀.assetId ≠ assetId ∨ out₁.assetId ≠ assetId then
    .error .assetMismatch
  else do
    let value ← okOr (checkedAdd out₀.value out₁.value) .valueOverflow
    let proof ← prover (.mint genesis issuerSecret mintNonce out₀ out₁)
    return ⟨coinProofVersion, .mint, mintStatement sponge assetId value mintNonce out₀ out₁, proof⟩

/-- Prove a transfer spending two coins. -/
def proveTwoInputTransfer
    (assetId : Digest)
    (in₀ in₁ : Coin)
    (osk₀ osk₁ : OwnerSecret)
    (out₀ out₁ : Coin)
    (pred₀ pred₁ : CoinProof π)
    (selector₀ selector₁ : ℕ) : Except NodeError (CoinProof π) :=
  let nf₀ := in₀.nullifier sponge osk₀
  let nf₁ := in₁.nullifier sponge osk₁
  if in₀.assetId ≠ assetId ∨ in₁.assetId ≠ assetId ∨ out₀.assetId ≠ assetId ∨
      out₁.assetId ≠ assetId then
    .error .assetMismatch
  else if in₀.commitment sponge = in₁.commitment sponge then
    .error .duplicateInput
  else if pred₀.statement.assetId ≠ assetId then
    .error .predecessorAssetMismatch
  else if !predecessorOutputMatches sponge pred₀.statement selector₀ in₀ then
    .error .predecessorOutputMismatch
  else if pred₁.statement.assetId ≠ assetId then
    .error .predecessorAssetMismatch
  else if !predecessorOutputMatches sponge pred₁.statement selector₁ in₁ then
    .error .predecessorOutputMismatch
  else if nf₀ = nf₁ then
    .error .duplicateInput
  else do
    let proof ← prover
      (.twoInput in₀ in₁ osk₀ osk₁ out₀ out₁ pred₀ pred₁ selector₀ selector₁)
    return ⟨coinProofVersion, .transfer, transferStatement sponge assetId nf₀ nf₁ out₀ out₁, proof⟩

/-- Prove a transfer spending one coin; the second nullifier is padding. -/
def proveOneInputTransfer
    (assetId : Digest)
    (input : Coin)
    (osk : OwnerSecret)
    (out₀ out₁ : Coin)
    (pred : CoinProof π)
    (selector : ℕ) : Except NodeError (CoinProof π) :=
  if input.assetId ≠ assetId ∨ out₀.assetId ≠ assetId ∨ out₁.assetId ≠ assetId then
    .error .assetMismatch
  else if pred.statement.assetId ≠ assetId then
    .error .predecessorAssetMismatch
  else if !predecessorOutputMatches sponge pred.statement selector input then
    .error .predecessorOutputMismatch
  else do
    let proof ← prover (.oneInput input osk out₀ out₁ pred selector)
    return ⟨coinProofVersion, .transfer,
      transferStatement sponge assetId (input.nullifier sponge osk) Digest.zero out₀ out₁, proof⟩

/-- Prove a redemption of one coin. -/
def proveRedeem
    (assetId : Digest)
    (input : Coin)
    (osk : OwnerSecret)
    (pred : CoinProof π)
    (selector : ℕ) : Except NodeError (CoinProof π) :=
  if input.assetId ≠ assetId then
    .error .assetMismatch
  else if pred.statement.assetId ≠ assetId then
    .error .predecessorAssetMismatch
  else if !predecessorOutputMatches sponge pred.statement selector input then
    .error .predecessorOutputMismatch
  else do
    let proof ← prover (.redeem input osk pred selector)
    return ⟨coinProofVersion, .redeem,
      redeemStatement assetId input.value (input.nullifier sponge osk), proof⟩

end Provers

section NativeWitnesses

variable {sponge : Sponge}

/-- Dropping elements drops three bytes each. -/
theorem bytesToFelts_drop
    (k : ℕ)
    (bs : List UInt8) :
    (bytesToFelts bs).drop k = bytesToFelts (bs.drop (3 * k)) := by
  induction k generalizing bs with
  | zero =>
      simp
  | succ k ih =>
      rcases bs with _ | ⟨a, _ | ⟨b, _ | ⟨c, rest⟩⟩⟩
      · simp [bytesToFelts]
      · simp [bytesToFelts, Nat.mul_succ]
      · simp [bytesToFelts, Nat.mul_succ]
      · rw [bytesToFelts, List.drop_succ_cons, ih, Nat.mul_succ, Nat.add_comm,
          ← List.drop_drop]
        rfl

/-- Packed bytes are 24-bit limbs. -/
theorem bytesToFelts_lt :
    ∀ (bs : List UInt8), ∀ x ∈ bytesToFelts bs, x.val < 2 ^ 24
  | [], _, hx => by
      simp [bytesToFelts] at hx
  | [a], x, hx => by
      rw [List.mem_singleton.mp hx, felt_leNat_val (by simp)]
      exact (leNat_lt [a]).trans (by norm_num)
  | [a, b], x, hx => by
      rw [List.mem_singleton.mp hx, felt_leNat_val (by simp)]
      exact (leNat_lt [a, b]).trans (by norm_num)
  | a :: b :: c :: rest, x, hx => by
      rcases List.mem_cons.mp hx with rfl | hx
      · rw [felt_leNat_val (by simp)]
        exact (leNat_lt [a, b, c]).trans_le (by norm_num)
      · exact bytesToFelts_lt rest x hx

/-- The owner secret as the circuits take it. -/
def oskFelts (osk : OwnerSecret) : List.Vector Felt 11 :=
  ⟨bytesToFelts osk.digest.bytes.toList, by simp [bytesToFelts_length]⟩

/-- The circuit opening of a coin. -/
def Coin.witness (c : Coin) : CoinWitness where
  value := ValueLimbs.ofU64 c.value
  owner := c.owner.toElems
  randomness := c.randomness.toElems

/-- The circuit opening of an input coin with its secret. -/
def Coin.inputWitness (c : Coin) (osk : OwnerSecret) : InputWitness where
  toCoinWitness := c.witness
  osk := oskFelts osk

theorem Coin.witness_commitment
    (c : Coin) :
    c.witness.commitment sponge c.assetId.toElems = (c.commitment sponge).toElems := by
  rw [Coin.commitment, toElems_hashFelts]
  rfl

theorem Coin.inputWitness_nullifier
    (c : Coin)
    (osk : OwnerSecret) :
    (c.inputWitness osk).nullifier sponge c.assetId.toElems =
      (c.nullifier sponge osk).toElems := by
  rw [InputWitness.nullifier]
  have h : (c.inputWitness osk).toCoinWitness.commitment sponge c.assetId.toElems =
      (c.commitment sponge).toElems := c.witness_commitment
  rw [h, Coin.nullifier, OpenCsv.nullifier, toElems_hashFelts]
  rfl

theorem Coin.inputWitness_owned
    {c : Coin}
    {osk : OwnerSecret}
    (h : c.owner = osk.owner sponge) :
    (c.inputWitness osk).Owned sponge := by
  show hashElems sponge "" [bytesToFelts osk.digest.bytes.toList] = c.owner.toElems
  rw [h, OwnerSecret.owner, toElems_hashFelts]

/-- The issuer witness of a genesis under its seed. -/
def AssetGenesis.issuerWitness (g : AssetGenesis) (seed : Bytes 32) : IssuerWitness where
  secret := ⟨bytesToFelts seed.toList, by simp [bytesToFelts_length]⟩
  currency := (bytesToFelts g.currencyCode.toList).headD 0
  termsHash := g.termsHash.toElems
  nonce := ValueLimbs.ofU64 g.nonce

/-- The genesis of an issuer's own key passes the in-circuit authorization. -/
theorem AssetGenesis.authorized
    {g : AssetGenesis}
    {seed : Bytes 32}
    (h : issuerPublicKey sponge seed = g.issuerPk) :
    EnforceAuthorization sponge (g.assetId sponge).toElems (g.issuerWitness seed) := by
  have hcode : bytesToFelts g.currencyCode.toList = [(g.issuerWitness seed).currency] := by
    have hlen : (bytesToFelts g.currencyCode.toList).length = 1 := by
      simp [bytesToFelts_length]
    obtain ⟨x, hx⟩ := List.length_eq_one_iff.mp hlen
    rw [issuerWitness, hx]
    rfl
  refine
    { secret_low := ?_
      secret_high := ?_
      currency := ?_
      terms := ?_
      nonce := (ValueLimbs.ofU64_spec g.nonce).1
      asset := ?_ }
  · intro x hx
    exact bytesToFelts_lt seed.toList x (List.mem_of_mem_take hx)
  · intro x hx
    replace hx : x ∈ (bytesToFelts seed.toList).drop 10 := hx
    rw [bytesToFelts_drop] at hx
    obtain ⟨a, b, hab⟩ := List.length_eq_two.mp
      (show (seed.toList.drop (3 * 10)).length = 2 by simp)
    rw [hab, bytesToFelts, List.mem_singleton] at hx
    rw [hx, felt_leNat_val (by simp)]
    exact (leNat_lt [a, b]).trans_le (by norm_num)
  · apply bytesToFelts_lt g.currencyCode.toList
    rw [hcode]
    exact List.mem_singleton.mpr rfl
  · intro x _
    exact (ZMod.val_lt x).trans (by decide)
  · rw [AssetGenesis.assetId, toElems_hashFelts, hcode, ← h]
    rfl

end NativeWitnesses

section Completeness

variable {sponge : Sponge}

theorem toElems_zero :
    Digest.zero.toElems = Elems.zero := by
  decide +kernel

/-- An honest mint's statement is in the relation. -/
theorem mintStatement_mem
    {g : AssetGenesis}
    {seed : Bytes 32}
    {mintNonce : Digest}
    {out₀ out₁ : Coin}
    {value : UInt64}
    (hkey : issuerPublicKey sponge seed = g.issuerPk)
    (hasset₀ : out₀.assetId = g.assetId sponge)
    (hasset₁ : out₁.assetId = g.assetId sponge)
    (hsum : out₀.value.toNat + out₁.value.toNat = value.toNat) :
    CoinRelation sponge coinProofVersion .mint
      (mintStatement sponge (g.assetId sponge) value mintNonce out₀ out₁) := by
  let w : MintWitness :=
    { assetId := (g.assetId sponge).toElems
      total := ValueLimbs.ofU64 value
      mintNonce := mintNonce.toElems
      issuer := g.issuerWitness seed
      out₀ := out₀.witness
      out₁ := out₁.witness }
  have hw : MintCircuit sponge w :=
    { authorized := AssetGenesis.authorized hkey
      total_range := (ValueLimbs.ofU64_spec value).1
      out₀_range := (ValueLimbs.ofU64_spec out₀.value).1
      out₁_range := (ValueLimbs.ofU64_spec out₁.value).1
      sum := by
        apply sumEq_complete (ValueLimbs.ofU64_spec _).1 (ValueLimbs.ofU64_spec _).1
          (ValueLimbs.ofU64_spec _).1 ValueLimbs.zero_rangeChecked
        show (ValueLimbs.ofU64 out₀.value).toNat + (ValueLimbs.ofU64 out₁.value).toNat =
          (ValueLimbs.ofU64 value).toNat + ValueLimbs.zero.toNat
        rw [(ValueLimbs.ofU64_spec _).2, (ValueLimbs.ofU64_spec _).2,
          (ValueLimbs.ofU64_spec _).2, ValueLimbs.toNat_zero, hsum, Nat.add_zero] }
  refine CoinRelation.mint w (Or.inr rfl) hw ?_
  have hcommit₀ : w.out₀.commitment sponge w.assetId = (out₀.commitment sponge).toElems := by
    rw [← Coin.witness_commitment, hasset₀]
  have hcommit₁ : w.out₁.commitment sponge w.assetId = (out₁.commitment sponge).toElems := by
    rw [← Coin.witness_commitment, hasset₁]
  rw [MintWitness.statement, hcommit₀, hcommit₁]
  simp only [NodeStatement.toPublicValues, mintStatement, toElems_zero, mintCommit,
    toElems_hashFelts]
  rfl

/-- An honest one-input transfer's statement is in the relation. -/
theorem oneInputStatement_mem
    {pred : NodeStatement}
    {version : UInt8}
    {mode : NodeMode}
    {assetId : Digest}
    {input out₀ out₁ : Coin}
    {osk : OwnerSecret}
    (hpred : CoinRelation sponge version mode pred)
    (hsafe : predecessorLineageIsSafe version mode = true)
    (hpredAsset : pred.assetId = assetId)
    (houtput : pred.output₀ = input.commitment sponge)
    (hasset : input.assetId = assetId)
    (hasset₀ : out₀.assetId = assetId)
    (hasset₁ : out₁.assetId = assetId)
    (howner : input.owner = osk.owner sponge)
    (hsum : input.value.toNat = out₀.value.toNat + out₁.value.toNat) :
    CoinRelation sponge coinProofVersion .transfer
      (transferStatement sponge assetId (input.nullifier sponge osk) Digest.zero
        out₀ out₁) := by
  let w : OneInputWitness :=
    { assetId := assetId.toElems
      input := input.inputWitness osk
      out₀ := out₀.witness
      out₁ := out₁.witness
      selector := 0 }
  have hcommit : w.input.commitment sponge w.assetId = (input.commitment sponge).toElems := by
    rw [← Coin.witness_commitment, hasset]
    rfl
  have hw : OneInputCircuit sponge w pred :=
    { input_range := (ValueLimbs.ofU64_spec input.value).1
      owned := Coin.inputWitness_owned howner
      out₀_range := (ValueLimbs.ofU64_spec out₀.value).1
      out₁_range := (ValueLimbs.ofU64_spec out₁.value).1
      sum := by
        apply sumEq_complete (ValueLimbs.ofU64_spec _).1 ValueLimbs.zero_rangeChecked
          (ValueLimbs.ofU64_spec _).1 (ValueLimbs.ofU64_spec _).1
        show (ValueLimbs.ofU64 input.value).toNat + ValueLimbs.zero.toNat =
          (ValueLimbs.ofU64 out₀.value).toNat + (ValueLimbs.ofU64 out₁.value).toNat
        rw [(ValueLimbs.ofU64_spec _).2, (ValueLimbs.ofU64_spec _).2,
          (ValueLimbs.ofU64_spec _).2, ValueLimbs.toNat_zero, hsum, Nat.add_zero]
      chained :=
        { asset := by rw [hpredAsset]
          selector_bool := by simp [AssertBool, w]
          output := by
            intro i
            rw [hcommit, houtput]
            simp [select, w] } }
  refine CoinRelation.oneInput w hpred hsafe hw ?_
  have hnf : w.input.nullifier sponge w.assetId = (input.nullifier sponge osk).toElems := by
    rw [← Coin.inputWitness_nullifier, hasset]
  have hcommit₀ : w.out₀.commitment sponge w.assetId = (out₀.commitment sponge).toElems := by
    rw [← Coin.witness_commitment, hasset₀]
  have hcommit₁ : w.out₁.commitment sponge w.assetId = (out₁.commitment sponge).toElems := by
    rw [← Coin.witness_commitment, hasset₁]
  have hzero : ValueLimbs.ofU64 0 = ValueLimbs.zero := by
    decide +kernel
  rw [OneInputWitness.statement, hnf, hcommit₀, hcommit₁]
  simp only [NodeStatement.toPublicValues, transferStatement, toElems_zero, hzero]
  rfl

end Completeness

namespace Sample

/-- An issuer, its asset, and an owner. -/
def seed : Bytes 32 := List.Vector.replicate 32 0x42

def genesis : AssetGenesis where
  issuerPk := issuerPublicKey foldSponge seed
  currencyCode := ⟨ascii "USD", by decide⟩
  termsHash := Digest.fill 0x24
  nonce := 7

def assetId : Digest := genesis.assetId foldSponge

def osk : OwnerSecret := ⟨Digest.fill 0x11⟩

/-- A coin of the sample owner. -/
def coin (value : UInt64) (r : UInt8) : Coin where
  assetId := assetId
  value := value
  owner := osk.owner foldSponge
  randomness := Digest.fill r

/-- A mint of 100 into two coins, under a fixed mint nonce. -/
def mintOf (out₀ out₁ : Coin) : NodeStatement :=
  mintStatement foldSponge assetId 100 (Digest.fill 9) out₀ out₁

theorem mintOf_mem
    {out₀ out₁ : Coin}
    (hasset₀ : out₀.assetId = assetId)
    (hasset₁ : out₁.assetId = assetId)
    (hsum : out₀.value.toNat + out₁.value.toNat = 100) :
    CoinRelation foldSponge coinProofVersion .mint (mintOf out₀ out₁) :=
  mintStatement_mem (rfl : issuerPublicKey foldSponge seed = genesis.issuerPk)
    hasset₀ hasset₁ hsum

/-- The nullifier of the first minted coin, and a transfer that spends it. -/
def nf : Digest := (coin 60 1).nullifier foldSponge osk

def transferOf (out₀ out₁ : Coin) : NodeStatement :=
  transferStatement foldSponge assetId nf Digest.zero out₀ out₁

theorem transferOf_mem
    {out₀ out₁ : Coin}
    (hasset₀ : out₀.assetId = assetId)
    (hasset₁ : out₁.assetId = assetId)
    (hsum : 60 = out₀.value.toNat + out₁.value.toNat) :
    CoinRelation foldSponge coinProofVersion .transfer (transferOf out₀ out₁) :=
  oneInputStatement_mem
    (mintOf_mem (rfl : (coin 60 1).assetId = assetId) (rfl : (coin 40 2).assetId = assetId) rfl)
    rfl rfl rfl rfl hasset₀ hasset₁ rfl hsum

/-- Proof bytes whose payload is `tag`, in the current lineage. -/
def proofBytes (tag : UInt8) : List UInt8 :=
  proofEnvelopeMagic ++ [coinProofVersion, tag]

/-- An ideal engine decodes such bytes to what the envelope decoder says. -/
theorem decode_proofBytes
    {envelope : List UInt8 → Option (NodeMode × NodeStatement × List UInt8)}
    {tag : UInt8}
    {mode : NodeMode}
    {st : NodeStatement}
    {inner : List UInt8}
    (henvelope : envelope [tag] = some (mode, st, inner))
    (hcanonical : st.isCanonical = true) :
    (idealEngine foldSponge envelope).decodeCoinProof (proofBytes tag) =
      some ⟨coinProofVersion, mode, st, ()⟩ := by
  have hmagic : proofEnvelopeMagic.isPrefixOf (proofBytes tag) = true := by
    simp [proofBytes]
  have hdrop : (proofBytes tag).drop proofEnvelopeMagic.length = [coinProofVersion, tag] := by
    simp [proofBytes]
  have henvelope' : (idealEngine foldSponge envelope).envelope [tag] =
      some (mode, st, inner) := henvelope
  rw [PcdEngine.decodeCoinProof, if_pos hmagic, hdrop]
  simp only [PcdEngine.decodeVersion, henvelope', hcanonical, if_true]
  rfl

/-- The receiver's policy: one confirmation, the given owners, the asset pinned. -/
def params (owners : List Digest) : PublicOwnerAcceptParams where
  vk := coinVkTag
  requiredConfirmations := 1
  recipientOwners := owners
  knownAssets := [assetId]

end Sample

end OpenCsv
