import OpenCsv.Pcd.Statement
import OpenCsv.Pcd.Value

/-!
# The coin circuits as relations

The mint, one-input, two-input and redeem circuits, as the constraints they put
on their private witness, and the statement each of them exposes.  Hash gadgets
compute the native hash on field elements.

`CoinRelation` is what an idealised proof attests: a statement of some lineage
and mode for which a circuit has a witness, with every predecessor attested in
turn.

**Results.** A mint's outputs add up to its public total
(`CoinRelation.mint_conserves`), and a transfer's outputs add up to the coins it
consumes (`CoinRelation.transfer_conserves`).
-/

namespace OpenCsv

section Witnesses

/-- The opening of an output inside a circuit. -/
structure CoinWitness where
  value : ValueLimbs
  owner : Elems
  randomness : Elems

/-- The opening of an input, with the owner secret in three-byte limbs. -/
structure InputWitness extends CoinWitness where
  osk : List.Vector Felt 11

/-- Issuer seed and genesis data, in field elements. -/
structure IssuerWitness where
  secret : List.Vector Felt 11
  currency : Felt
  termsHash : Elems
  nonce : ValueLimbs

/-- The elements of the statement table. -/
@[ext] structure StatementElems where
  version : Felt
  mode : Felt
  assetId : Elems
  value : ValueLimbs
  mintCommit : Elems
  nullifier₀ : Elems
  nullifier₁ : Elems
  output₀ : Elems
  output₁ : Elems
deriving DecidableEq

/-- The eight zero elements. -/
def Elems.zero : Elems :=
  List.Vector.replicate 8 0

/-- The mode element: transfer 0, mint 1, redeem 2. -/
def NodeMode.elem : NodeMode → Felt
  | .mint => 1
  | .transfer => 0
  | .redeem => (2 : ℕ)

/-- The statement table of a statement, for one lineage and mode. -/
def NodeStatement.toPublicValues
    (st : NodeStatement)
    (version : UInt8)
    (mode : NodeMode) : StatementElems where
  version := felt version.toUInt32
  mode := mode.elem
  assetId := st.assetId.toElems
  value := ValueLimbs.ofU64 st.value
  mintCommit := st.mintCommit.toElems
  nullifier₀ := st.nullifier₀.toElems
  nullifier₁ := st.nullifier₁.toElems
  output₀ := st.output₀.toElems
  output₁ := st.output₁.toElems

end Witnesses

section Gadgets

variable (sponge : Sponge)

/-- The in-circuit coin commitment. -/
def CoinWitness.commitment (assetId : Elems) (w : CoinWitness) : Elems :=
  hashElems sponge "coin"
    [assetId.toList, w.value.toList, w.owner.toList, w.randomness.toList]

/-- The in-circuit nullifier of an input. -/
def InputWitness.nullifier (assetId : Elems) (w : InputWitness) : Elems :=
  hashElems sponge "null"
    [w.osk.toList, (w.toCoinWitness.commitment sponge assetId).toList]

/-- `builder.assert_bool`. -/
def AssertBool (b : Felt) : Prop :=
  b * (b - 1) = 0

/-- `builder.select(b, t, f)`. -/
def select (b t f : Felt) : Felt :=
  b * (t - f) + f

/-- The owner of an input is the hash of its secret. -/
def InputWitness.Owned (w : InputWitness) : Prop :=
  hashElems sponge "" [w.osk.toList] = w.owner

/-- Issuer seed, issuer key, genesis and asset identifier fit together. -/
structure EnforceAuthorization (assetId : Elems) (w : IssuerWitness) : Prop where
  secret_low : ∀ x ∈ w.secret.toList.take 10, x.val < 2 ^ 24
  secret_high : ∀ x ∈ w.secret.toList.drop 10, x.val < 2 ^ 16
  currency : w.currency.val < 2 ^ 24
  terms : ∀ x ∈ w.termsHash.toList, x.val < 2 ^ 31
  nonce : w.nonce.RangeChecked
  asset : hashElems sponge "OpenCSV-asset"
    [ bytesToFelts (hashFelts sponge "issuer-key-v1" [w.secret.toList]).bytes.toList,
      [w.currency], w.termsHash.toList, w.nonce.toList ] = assetId

/-- Three selector bits pick a limb in which the digests differ. -/
def EnforceDistinctDigest (left right : Elems) (b₀ b₁ b₂ : Felt) : Prop :=
  let difference := fun i : Fin 8 => left.get i - right.get i
  let pair := fun i j : Fin 8 => select b₀ (difference j) (difference i)
  let low := select b₁ (pair 2 3) (pair 0 1)
  let high := select b₁ (pair 6 7) (pair 4 5)
  let selected := select b₂ high low
  AssertBool b₀ ∧ AssertBool b₁ ∧ AssertBool b₂ ∧ ∃ inverse, selected * inverse = 1

/-- The predecessor's asset is this one and its selected output is the input. -/
structure ChainPredecessor
    (pred : NodeStatement)
    (assetId : Elems)
    (selector : Felt)
    (commitment : Elems) : Prop where
  asset : pred.assetId.toElems = assetId
  selector_bool : AssertBool selector
  output : ∀ i : Fin 8,
    select selector (pred.output₁.toElems.get i) (pred.output₀.toElems.get i) =
      commitment.get i

/-- Lineages a recursive predecessor may have. -/
def predecessorLineageIsSafe (version : UInt8) (mode : NodeMode) : Bool :=
  version == coinProofVersion ||
    (version == legacyCoinProofVersion && mode == NodeMode.mint)

end Gadgets

section Circuits

variable (sponge : Sponge)

/-- Private inputs of the mint circuit. -/
structure MintWitness where
  assetId : Elems
  total : ValueLimbs
  mintNonce : Elems
  issuer : IssuerWitness
  out₀ : CoinWitness
  out₁ : CoinWitness

/-- Constraints of the mint circuit. -/
structure MintCircuit (w : MintWitness) : Prop where
  authorized : EnforceAuthorization sponge w.assetId w.issuer
  total_range : w.total.RangeChecked
  out₀_range : w.out₀.value.RangeChecked
  out₁_range : w.out₁.value.RangeChecked
  sum : SumEq w.out₀.value w.out₁.value w.total ValueLimbs.zero

/-- The statement the mint circuit exposes. -/
def MintWitness.statement (version : UInt8) (w : MintWitness) : StatementElems where
  version := felt version.toUInt32
  mode := 1
  assetId := w.assetId
  value := w.total
  mintCommit := hashElems sponge "mint"
    [w.assetId.toList, w.total.toList, w.mintNonce.toList]
  nullifier₀ := Elems.zero
  nullifier₁ := Elems.zero
  output₀ := w.out₀.commitment sponge w.assetId
  output₁ := w.out₁.commitment sponge w.assetId

/-- Private inputs of the one-input transfer circuit. -/
structure OneInputWitness where
  assetId : Elems
  input : InputWitness
  out₀ : CoinWitness
  out₁ : CoinWitness
  selector : Felt

/-- Constraints of the one-input transfer circuit. -/
structure OneInputCircuit (w : OneInputWitness) (pred : NodeStatement) : Prop where
  input_range : w.input.value.RangeChecked
  owned : w.input.Owned sponge
  out₀_range : w.out₀.value.RangeChecked
  out₁_range : w.out₁.value.RangeChecked
  sum : SumEq w.input.value ValueLimbs.zero w.out₀.value w.out₁.value
  chained : ChainPredecessor pred w.assetId w.selector
    (w.input.commitment sponge w.assetId)

/-- The statement the one-input circuit exposes; slot 1 is padding. -/
def OneInputWitness.statement (w : OneInputWitness) : StatementElems where
  version := felt coinProofVersion.toUInt32
  mode := 0
  assetId := w.assetId
  value := ValueLimbs.zero
  mintCommit := Elems.zero
  nullifier₀ := w.input.nullifier sponge w.assetId
  nullifier₁ := Elems.zero
  output₀ := w.out₀.commitment sponge w.assetId
  output₁ := w.out₁.commitment sponge w.assetId

/-- Private inputs of the two-input transfer circuit. -/
structure NodeWitness where
  assetId : Elems
  in₀ : InputWitness
  in₁ : InputWitness
  out₀ : CoinWitness
  out₁ : CoinWitness
  selector₀ : Felt
  selector₁ : Felt
  distinct₀ : Felt
  distinct₁ : Felt
  distinct₂ : Felt

/-- Constraints of the two-input transfer circuit. -/
structure NodeCircuit (w : NodeWitness) (pred₀ pred₁ : NodeStatement) : Prop where
  in₀_range : w.in₀.value.RangeChecked
  in₁_range : w.in₁.value.RangeChecked
  owned₀ : w.in₀.Owned sponge
  owned₁ : w.in₁.Owned sponge
  distinct : EnforceDistinctDigest (w.in₀.commitment sponge w.assetId)
    (w.in₁.commitment sponge w.assetId) w.distinct₀ w.distinct₁ w.distinct₂
  out₀_range : w.out₀.value.RangeChecked
  out₁_range : w.out₁.value.RangeChecked
  sum : SumEq w.in₀.value w.in₁.value w.out₀.value w.out₁.value
  chained₀ : ChainPredecessor pred₀ w.assetId w.selector₀
    (w.in₀.commitment sponge w.assetId)
  chained₁ : ChainPredecessor pred₁ w.assetId w.selector₁
    (w.in₁.commitment sponge w.assetId)

/-- The statement the two-input circuit exposes. -/
def NodeWitness.statement (w : NodeWitness) : StatementElems where
  version := felt coinProofVersion.toUInt32
  mode := 0
  assetId := w.assetId
  value := ValueLimbs.zero
  mintCommit := Elems.zero
  nullifier₀ := w.in₀.nullifier sponge w.assetId
  nullifier₁ := w.in₁.nullifier sponge w.assetId
  output₀ := w.out₀.commitment sponge w.assetId
  output₁ := w.out₁.commitment sponge w.assetId

/-- Private inputs of the redeem circuit. -/
structure RedeemWitness where
  assetId : Elems
  input : InputWitness
  selector : Felt

/-- Constraints of the redeem circuit. -/
structure RedeemCircuit (w : RedeemWitness) (pred : NodeStatement) : Prop where
  input_range : w.input.value.RangeChecked
  owned : w.input.Owned sponge
  chained : ChainPredecessor pred w.assetId w.selector
    (w.input.commitment sponge w.assetId)

/-- The statement the redeem circuit exposes: the coin's value is the burn amount. -/
def RedeemWitness.statement (w : RedeemWitness) : StatementElems where
  version := felt coinProofVersion.toUInt32
  mode := (2 : ℕ)
  assetId := w.assetId
  value := w.input.value
  mintCommit := Elems.zero
  nullifier₀ := w.input.nullifier sponge w.assetId
  nullifier₁ := Elems.zero
  output₀ := Elems.zero
  output₁ := Elems.zero

/-- Statements with a satisfying witness and attested predecessors. -/
inductive CoinRelation : UInt8 → NodeMode → NodeStatement → Prop
  | mint
      {version : UInt8}
      {st : NodeStatement}
      (w : MintWitness)
      (hversion : version = legacyCoinProofVersion ∨ version = coinProofVersion)
      (hw : MintCircuit sponge w)
      (hst : st.toPublicValues version .mint = w.statement sponge version) :
      CoinRelation version .mint st
  | oneInput
      {st pred : NodeStatement}
      {version : UInt8}
      {mode : NodeMode}
      (w : OneInputWitness)
      (hpred : CoinRelation version mode pred)
      (hsafe : predecessorLineageIsSafe version mode = true)
      (hw : OneInputCircuit sponge w pred)
      (hst : st.toPublicValues coinProofVersion .transfer = w.statement sponge) :
      CoinRelation coinProofVersion .transfer st
  | twoInput
      {st pred₀ pred₁ : NodeStatement}
      {version₀ version₁ : UInt8}
      {mode₀ mode₁ : NodeMode}
      (w : NodeWitness)
      (hpred₀ : CoinRelation version₀ mode₀ pred₀)
      (hpred₁ : CoinRelation version₁ mode₁ pred₁)
      (hsafe₀ : predecessorLineageIsSafe version₀ mode₀ = true)
      (hsafe₁ : predecessorLineageIsSafe version₁ mode₁ = true)
      (hw : NodeCircuit sponge w pred₀ pred₁)
      (hst : st.toPublicValues coinProofVersion .transfer = w.statement sponge) :
      CoinRelation coinProofVersion .transfer st
  | redeem
      {st pred : NodeStatement}
      {version : UInt8}
      {mode : NodeMode}
      (w : RedeemWitness)
      (hpred : CoinRelation version mode pred)
      (hsafe : predecessorLineageIsSafe version mode = true)
      (hw : RedeemCircuit sponge w pred)
      (hst : st.toPublicValues coinProofVersion .redeem = w.statement sponge) :
      CoinRelation coinProofVersion .redeem st

/-- An engine whose verifier is ideal: it succeeds exactly on the relation. -/
def PcdEngine.Ideal {π : Type} (engine : PcdEngine π) : Prop :=
  ∀ (st : NodeStatement) (coin : CoinProof π),
    engine.verifyCoinProof st coin = true ↔ CoinRelation sponge coin.version coin.mode st

/-- The ideal engine over a given envelope decoder. -/
noncomputable def idealEngine
    (envelope : List UInt8 → Option (NodeMode × NodeStatement × List UInt8)) :
    PcdEngine Unit where
  envelope := envelope
  proof := fun _ => some ()
  verifyCoinProof := fun st coin =>
    @decide (CoinRelation sponge coin.version coin.mode st) (Classical.propDecidable _)

theorem idealEngine_ideal
    (envelope : List UInt8 → Option (NodeMode × NodeStatement × List UInt8)) :
    (idealEngine sponge envelope).Ideal sponge := by
  intro st coin
  simp [idealEngine]

end Circuits

section Conservation

variable {sponge : Sponge}

/-- Two circuit openings that commit to the outputs of a statement. -/
structure OutputOpenings
    (sponge : Sponge)
    (st : NodeStatement)
    (out₀ out₁ : CoinWitness) : Prop where
  range₀ : out₀.value.RangeChecked
  range₁ : out₁.value.RangeChecked
  commit₀ : out₀.commitment sponge st.assetId.toElems = st.output₀.toElems
  commit₁ : out₁.commitment sponge st.assetId.toElems = st.output₁.toElems

/-- An owned input whose nullifier is `nf` and whose coin an attested proof created. -/
structure Spends
    (sponge : Sponge)
    (assetId : Elems)
    (nf : Elems)
    (w : InputWitness) : Prop where
  range : w.value.RangeChecked
  owned : w.Owned sponge
  nullifier : w.nullifier sponge assetId = nf
  created : ∃ version mode pred, CoinRelation sponge version mode pred ∧
    pred.assetId.toElems = assetId ∧
    (w.commitment sponge assetId = pred.output₀.toElems ∨
      w.commitment sponge assetId = pred.output₁.toElems)

/-- The coins a transfer statement consumes are worth `n`. -/
def Consumes (sponge : Sponge) (st : NodeStatement) (n : ℕ) : Prop :=
  (∃ w, Spends sponge st.assetId.toElems st.nullifier₀.toElems w ∧
    st.nullifier₁.toElems = Elems.zero ∧ n = w.value.toNat) ∨
  (∃ w₀ w₁, Spends sponge st.assetId.toElems st.nullifier₀.toElems w₀ ∧
    Spends sponge st.assetId.toElems st.nullifier₁.toElems w₁ ∧
    w₀.commitment sponge st.assetId.toElems ≠ w₁.commitment sponge st.assetId.toElems ∧
    n = w₀.value.toNat + w₁.value.toNat)

theorem ValueLimbs.zero_rangeChecked :
    ValueLimbs.zero.RangeChecked := by
  decide +kernel

theorem ValueLimbs.toNat_zero :
    ValueLimbs.zero.toNat = 0 := by
  decide +kernel

/-- A selected predecessor output is one of the two. -/
theorem ChainPredecessor.output_cases
    {pred : NodeStatement}
    {assetId commitment : Elems}
    {selector : Felt}
    (h : ChainPredecessor pred assetId selector commitment) :
    commitment = pred.output₀.toElems ∨ commitment = pred.output₁.toElems := by
  rcases mul_eq_zero.mp h.selector_bool with hzero | hone
  · left
    apply List.Vector.ext
    intro i
    rw [← h.output i, select, hzero]
    ring
  · right
    apply List.Vector.ext
    intro i
    rw [← h.output i, select, sub_eq_zero.mp hone]
    ring

/-- Equal commitments leave no limb to select. -/
theorem EnforceDistinctDigest.ne
    {left right : Elems}
    {b₀ b₁ b₂ : Felt}
    (h : EnforceDistinctDigest left right b₀ b₁ b₂) :
    left ≠ right := by
  rintro rfl
  obtain ⟨-, -, -, inverse, hinv⟩ := h
  simp [select] at hinv

/-- The outputs of an attested mint add up to its public total. -/
theorem CoinRelation.mint_conserves
    {version : UInt8}
    {st : NodeStatement}
    (h : CoinRelation sponge version .mint st) :
    ∃ out₀ out₁, OutputOpenings sponge st out₀ out₁ ∧
      out₀.value.toNat + out₁.value.toNat = st.value.toNat := by
  cases h with
  | mint w _ hw hst =>
      have hasset : st.assetId.toElems = w.assetId := congrArg StatementElems.assetId hst
      have hvalue : ValueLimbs.ofU64 st.value = w.total := congrArg StatementElems.value hst
      have hout₀ := congrArg StatementElems.output₀ hst
      have hout₁ := congrArg StatementElems.output₁ hst
      have hsum := sumEq_sound hw.out₀_range hw.out₁_range hw.total_range
        ValueLimbs.zero_rangeChecked hw.sum
      refine ⟨w.out₀, w.out₁, ⟨hw.out₀_range, hw.out₁_range, ?_, ?_⟩, ?_⟩
      · rw [hasset]
        exact hout₀.symm
      · rw [hasset]
        exact hout₁.symm
      · rw [hsum, ValueLimbs.toNat_zero, ← hvalue, (ValueLimbs.ofU64_spec st.value).2,
          Nat.add_zero]

/-- The outputs of an attested transfer add up to the coins it consumes. -/
theorem CoinRelation.transfer_conserves
    {version : UInt8}
    {st : NodeStatement}
    (h : CoinRelation sponge version .transfer st) :
    ∃ out₀ out₁, OutputOpenings sponge st out₀ out₁ ∧
      Consumes sponge st (out₀.value.toNat + out₁.value.toNat) := by
  cases h with
  | @oneInput _ pred version mode w hpred _ hw hst =>
      have hasset : st.assetId.toElems = w.assetId := congrArg StatementElems.assetId hst
      have hnf₀ := congrArg StatementElems.nullifier₀ hst
      have hnf₁ := congrArg StatementElems.nullifier₁ hst
      have hout₀ := congrArg StatementElems.output₀ hst
      have hout₁ := congrArg StatementElems.output₁ hst
      have hsum := sumEq_sound hw.input_range ValueLimbs.zero_rangeChecked hw.out₀_range
        hw.out₁_range hw.sum
      rw [ValueLimbs.toNat_zero, Nat.add_zero] at hsum
      refine ⟨w.out₀, w.out₁, ⟨hw.out₀_range, hw.out₁_range, ?_, ?_⟩, Or.inl ⟨w.input, ?_, ?_, ?_⟩⟩
      · rw [hasset]
        exact hout₀.symm
      · rw [hasset]
        exact hout₁.symm
      · rw [hasset]
        exact
          { range := hw.input_range
            owned := hw.owned
            nullifier := hnf₀.symm
            created := ⟨version, mode, pred, hpred, hw.chained.asset,
              hw.chained.output_cases⟩ }
      · exact hnf₁
      · exact hsum.symm
  | @twoInput _ pred₀ pred₁ version₀ version₁ mode₀ mode₁ w hpred₀ hpred₁ _ _ hw hst =>
      have hasset : st.assetId.toElems = w.assetId := congrArg StatementElems.assetId hst
      have hnf₀ := congrArg StatementElems.nullifier₀ hst
      have hnf₁ := congrArg StatementElems.nullifier₁ hst
      have hout₀ := congrArg StatementElems.output₀ hst
      have hout₁ := congrArg StatementElems.output₁ hst
      have hsum := sumEq_sound hw.in₀_range hw.in₁_range hw.out₀_range hw.out₁_range hw.sum
      refine ⟨w.out₀, w.out₁, ⟨hw.out₀_range, hw.out₁_range, ?_, ?_⟩,
        Or.inr ⟨w.in₀, w.in₁, ?_, ?_, ?_, ?_⟩⟩
      · rw [hasset]
        exact hout₀.symm
      · rw [hasset]
        exact hout₁.symm
      · rw [hasset]
        exact
          { range := hw.in₀_range
            owned := hw.owned₀
            nullifier := hnf₀.symm
            created := ⟨version₀, mode₀, pred₀, hpred₀, hw.chained₀.asset,
              hw.chained₀.output_cases⟩ }
      · rw [hasset]
        exact
          { range := hw.in₁_range
            owned := hw.owned₁
            nullifier := hnf₁.symm
            created := ⟨version₁, mode₁, pred₁, hpred₁, hw.chained₁.asset,
              hw.chained₁.output_cases⟩ }
      · rw [hasset]
        exact hw.distinct.ne
      · exact hsum.symm

end Conservation

end OpenCsv
