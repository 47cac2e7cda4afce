import OpenCsv.Pcd.Binding

/-!
# Two consignments at one anchor

An anchor commits to what is minted or consumed, never to the outputs: two valid
proofs with different outputs can share one anchor
(`mint_outputs_equivocate`).  What the anchor fixes is the source of the value.

**Results.** `sameAnchor_outputs`: at one solo anchor, each consignment carries
the outputs of its own proof and credits at most the value that proof mints or
consumes; two mints share the asset, the total and the mint commitment as far as
the anchor shows them, and two transfers in direct form share their nullifiers.
-/

namespace OpenCsv

section Value

variable {sponge : Sponge}

/--
The circuit's two outputs of a statement, worth `n` together, and the source of
that value: the public total of a mint, or the coins a transfer consumes.
-/
structure SplitsInto
    (sponge : Sponge)
    (mode : NodeMode)
    (st : NodeStatement)
    (out₀ out₁ : CoinWitness)
    (n : ℕ) : Prop where
  openings : OutputOpenings sponge st out₀ out₁
  total : out₀.value.toNat + out₁.value.toNat = n
  source : (mode = .mint ∧ n = st.value.toNat) ∨ (mode = .transfer ∧ Consumes sponge st n)

/-- The coin hash separates an opening from the circuit's witness for the same output. -/
def CoinHashSeparates (sponge : Sponge) (o : Coin) (w : CoinWitness) : Prop :=
  w.commitment sponge o.assetId.toElems = (o.commitment sponge).toElems → w = o.witness

/-- The value of a list of coins. -/
def totalValue (coins : List Coin) : ℕ :=
  (coins.map (fun o => o.value.toNat)).sum

/-- The value of some of the coins is at most the value of all. -/
theorem totalValue_filter_le
    (p : Coin → Bool)
    (coins : List Coin) :
    totalValue (coins.filter p) ≤ totalValue coins := by
  unfold totalValue
  exact (List.filter_sublist.map _).sum_le_sum (fun _ _ => Nat.zero_le _)

/-- A value survives its split into limbs. -/
theorem value_eq_of_witness_eq
    {o : Coin}
    {w : CoinWitness}
    (h : w = o.witness) :
    w.value.toNat = o.value.toNat := by
  rw [h]
  exact (ValueLimbs.ofU64_spec o.value).2

end Value

section SameAnchor

variable {sponge : Sponge}

/-- Two consignments name one anchor that is not a batch. -/
structure SameSoloAnchor
    (chain : AnchorChain)
    (c₁ c₂ : Consignment)
    (record : AnchorRecord)
    (ctx : Ctx) : Prop where
  anchor₁ : chain.anchorAt c₁.anchorRef = some record
  anchor₂ : chain.anchorAt c₂.anchorRef = some record
  solo : record.recordClass ≠ .batch
  location : chain.locate c₁.anchorRef = chain.locate c₂.anchorRef
  ctx₁ : chain.ctxAt c₁.anchorRef = some ctx
  ctx₂ : chain.ctxAt c₂.anchorRef = some ctx
  proofRecord₁ : chain.proofRecordAt c₁.anchorRef c₁.nullifiers = some record
  proofRecord₂ : chain.proofRecordAt c₂.anchorRef c₂.nullifiers = some record

/-- On the in-memory chain, acceptance at one location is acceptance at one anchor. -/
theorem MockAnchorChain.sameSoloAnchor
    {chain : MockAnchorChain}
    {c₁ c₂ : Consignment}
    {verifier : ProofVerifier}
    {params₁ params₂ : PublicOwnerAcceptParams}
    {accepted₁ accepted₂ : AcceptedCoins}
    (hchain : MockAnchorChain.Reachable sponge chain)
    (hlen : chain.entries.length ≤ 2 ^ 32)
    (h₁ : acceptForPublicOwners sponge c₁ (chain.toAnchorChain sponge) verifier params₁ =
      .ok accepted₁)
    (h₂ : acceptForPublicOwners sponge c₂ (chain.toAnchorChain sponge) verifier params₂ =
      .ok accepted₂)
    (hanchor : accepted₁.anchor = accepted₂.anchor) :
    ∃ record ctx, SameSoloAnchor (chain.toAnchorChain sponge) c₁ c₂ record ctx := by
  obtain ⟨r₁, q₁, ctx₁, f₁⟩ := acceptForPublicOwners_ok_iff.mp h₁
  obtain ⟨r₂, q₂, ctx₂, f₂⟩ := acceptForPublicOwners_ok_iff.mp h₂
  obtain ⟨i, e, hi, rfl, rfl, hloc₁, rfl⟩ := MockAnchorChain.entry_of_accept f₁
  obtain ⟨j, e', hj, rfl, rfl, hloc₂, rfl⟩ := MockAnchorChain.entry_of_accept f₂
  have hloc : e.location = e'.location := by
    rw [hloc₁, hloc₂, hanchor]
  obtain rfl : i = j := hchain.location_injective hlen hi hj hloc
  obtain rfl : e = e' := Option.some.inj (hi.symm.trans hj)
  refine ⟨e.record, e.ctx, f₁.anchorAt, f₂.anchorAt, ?_, ?_, f₁.ctxAt, f₂.ctxAt, f₁.proofRecordAt, f₂.proofRecordAt⟩
  · -- A batch header binds no nullifier list, so it is never accepted as a proof record.
    have hbinds := f₁.binds
    intro hbatch
    cases hrecord : e.record <;> rw [hrecord] at hbatch hbinds <;>
      simp [AnchorRecord.recordClass, recordBindsNullifiers] at hbatch hbinds
  · rw [f₁.locate, f₂.locate, hanchor]

/-- The outputs of a consignment are those of its proof and are paid for by it. -/
structure OwnOutputs
    {π : Type}
    (sponge : Sponge)
    (c : Consignment)
    (accepted : AcceptedCoins)
    (coin : CoinProof π) : Prop where
  outputs : c.coinOpenings.map (Coin.commitment sponge) = coin.statement.outputCommitments
  paid : ∃ out₀ out₁ n, SplitsInto sponge coin.mode coin.statement out₀ out₁ n
  credit : ∀ out₀ out₁ n, SplitsInto sponge coin.mode coin.statement out₀ out₁ n →
    (∀ p ∈ c.coinOpenings.zip [out₀, out₁], CoinHashSeparates sponge p.1 p.2) →
    totalValue c.coinOpenings = n ∧ totalValue accepted.coins ≤ n

/-- What two proofs at one anchor have in common, as far as the anchor shows it. -/
structure SharedSource
    {π : Type}
    (sponge : Sponge)
    (record : AnchorRecord)
    (ctx : Ctx)
    (coin₁ coin₂ : CoinProof π) : Prop where
  mint : coin₁.mode = .mint → coin₂.mode = .mint →
    coin₁.statement.assetId.toAnchor = coin₂.statement.assetId.toAnchor ∧
    coin₁.statement.value = coin₂.statement.value ∧
    coin₁.statement.mintCommit.toAnchor = coin₂.statement.mintCommit.toAnchor
  transfer :
    DirectForm sponge ctx coin₁.statement (AnchorRecord.td record.toBytes 0 (by decide))
      (AnchorRecord.td record.toBytes 24 (by decide)) →
    DirectForm sponge ctx coin₂.statement (AnchorRecord.td record.toBytes 0 (by decide))
      (AnchorRecord.td record.toBytes 24 (by decide)) →
    BindInjectiveOn sponge ctx (coin₁.statement.spent ++ coin₂.statement.spent) →
    (coin₁.statement.spent.map Digest.toElems).Perm
      (coin₂.statement.spent.map Digest.toElems)

/-- The value of an attested mint or transfer has a source. -/
theorem CoinRelation.splitsInto
    {version : UInt8}
    {mode : NodeMode}
    {st : NodeStatement}
    (h : CoinRelation sponge version mode st)
    (hmode : mode ≠ .redeem) :
    ∃ out₀ out₁ n, SplitsInto sponge mode st out₀ out₁ n := by
  cases mode with
  | mint =>
      obtain ⟨out₀, out₁, hopenings, hsum⟩ := h.mint_conserves
      exact ⟨out₀, out₁, _, hopenings, rfl, Or.inl ⟨rfl, hsum⟩⟩
  | transfer =>
      obtain ⟨out₀, out₁, hopenings, hconsumes⟩ := h.transfer_conserves
      exact ⟨out₀, out₁, _, hopenings, rfl, Or.inr ⟨rfl, hconsumes⟩⟩
  | redeem =>
      exact absurd rfl hmode

/-- An accepted consignment carries the outputs of its own proof. -/
theorem ownOutputs_of_accept
    {π : Type}
    {engine : PcdEngine π}
    {chain : AnchorChain}
    {c : Consignment}
    {params : PublicOwnerAcceptParams}
    {accepted : AcceptedCoins}
    {record : AnchorRecord}
    {ctx : Ctx}
    (hideal : engine.Ideal sponge)
    (haccept : acceptForPublicOwners sponge c chain (coinProofVerifier sponge engine) params =
      .ok accepted)
    (hctx : chain.ctxAt c.anchorRef = some ctx)
    (hproof : chain.proofRecordAt c.anchorRef c.nullifiers = some record) :
    ∃ coin, engine.decodeCoinProof c.proof = some coin ∧
      statementMatches sponge coin.mode coin.statement ctx record.toBytes c.coinOpenings =
        true ∧
      OwnOutputs sponge c accepted coin := by
  obtain ⟨r, q, ctx', f⟩ := acceptForPublicOwners_ok_iff.mp haccept
  obtain rfl : ctx = ctx' := Option.some.inj (hctx.symm.trans f.ctxAt)
  obtain rfl : record = q := Option.some.inj (hproof.symm.trans f.proofRecordAt)
  obtain ⟨-, coin, hcoin, -, hmatch, hverify⟩ := coinProofVerifier_verify_iff.mp f.verify
  have hrel := (hideal _ coin).mp hverify
  have hmode : coin.mode ≠ .redeem := by
    intro hredeem
    rw [hredeem] at hmatch
    exact f.openings_ne_nil (statementMatches_redeem hmatch)
  have houtputs : outputsMatch sponge coin.statement c.coinOpenings = true := by
    cases hm : coin.mode with
    | mint =>
        rw [hm] at hmatch
        exact (statementMatches_mint hmatch).2.2
    | transfer =>
        rw [hm] at hmatch
        exact (statementMatches_transfer hmatch).1
    | redeem =>
        exact absurd hm hmode
  obtain ⟨o₀, o₁, hopenings, hasset₀, hasset₁, hcommit₀, hcommit₁⟩ :=
    outputsMatch_iff.mp houtputs
  refine ⟨coin, hcoin, hmatch, ?_, hrel.splitsInto hmode, ?_⟩
  · rw [hopenings, NodeStatement.outputCommitments, ← hcommit₀, ← hcommit₁]
    rfl
  · intro out₀ out₁ n hsplit hseparates
    rw [hopenings] at hseparates
    have hw₀ : out₀ = o₀.witness := by
      apply hseparates (o₀, out₀) (by simp)
      rw [hasset₀, hcommit₀]
      exact hsplit.openings.commit₀
    have hw₁ : out₁ = o₁.witness := by
      apply hseparates (o₁, out₁) (by simp)
      rw [hasset₁, hcommit₁]
      exact hsplit.openings.commit₁
    have htotal : totalValue c.coinOpenings = n := by
      rw [hopenings, ← hsplit.total, value_eq_of_witness_eq hw₀, value_eq_of_witness_eq hw₁]
      simp [totalValue]
    refine ⟨htotal, ?_⟩
    rw [← htotal, f.coins_eq]
    exact totalValue_filter_le _ _

/--
Two consignments accepted at one solo anchor.  Each carries the outputs of its
own proof and credits no more than that proof mints or consumes; what the
anchor shows of the two sources is the same.
-/
theorem sameAnchor_outputs
    {π : Type}
    {engine : PcdEngine π}
    {chain : AnchorChain}
    {c₁ c₂ : Consignment}
    {params₁ params₂ : PublicOwnerAcceptParams}
    {accepted₁ accepted₂ : AcceptedCoins}
    {record : AnchorRecord}
    {ctx : Ctx}
    (hideal : engine.Ideal sponge)
    (h₁ : acceptForPublicOwners sponge c₁ chain (coinProofVerifier sponge engine) params₁ =
      .ok accepted₁)
    (h₂ : acceptForPublicOwners sponge c₂ chain (coinProofVerifier sponge engine) params₂ =
      .ok accepted₂)
    (hsame : SameSoloAnchor chain c₁ c₂ record ctx) :
    ∃ coin₁ coin₂, engine.decodeCoinProof c₁.proof = some coin₁ ∧
      engine.decodeCoinProof c₂.proof = some coin₂ ∧
      OwnOutputs sponge c₁ accepted₁ coin₁ ∧ OwnOutputs sponge c₂ accepted₂ coin₂ ∧
      SharedSource sponge record ctx coin₁ coin₂ := by
  obtain ⟨coin₁, hcoin₁, hmatch₁, hown₁⟩ :=
    ownOutputs_of_accept hideal h₁ hsame.ctx₁ hsame.proofRecord₁
  obtain ⟨coin₂, hcoin₂, hmatch₂, hown₂⟩ :=
    ownOutputs_of_accept hideal h₂ hsame.ctx₂ hsame.proofRecord₂
  refine ⟨coin₁, coin₂, hcoin₁, hcoin₂, hown₁, hown₂, ?_, ?_⟩
  · intro hmint₁ hmint₂
    rw [hmint₁] at hmatch₁
    rw [hmint₂] at hmatch₂
    have hrecord₁ := (statementMatches_mint hmatch₁).1
    have hrecord₂ := (statementMatches_mint hmatch₂).1
    rw [hrecord₁] at hrecord₂
    simpa using hrecord₂
  · intro hdirect₁ hdirect₂ hinj
    have hslots₁ := slotsBindSpent_of_direct hdirect₁.direct hdirect₁.nonzero
    have hslots₂ := slotsBindSpent_of_direct hdirect₂.direct hdirect₂.nonzero
    exact perm_map_of_perm_map hinj (hslots₁.symm.trans hslots₂)

end SameAnchor

namespace Sample

/-- The anchor of the mint of 100, and a chain that holds it. -/
def mintRecord : AnchorRecord :=
  .mint assetId.toAnchor 100 (mintCommit foldSponge assetId 100 (Digest.fill 9)).toAnchor

def mintChain : MockAnchorChain × AnchorRef :=
  MockAnchorChain.new.appendWithCtx foldSponge mintRecord cleanCtx

/-- Two ways to split the minted total. -/
def split₁ : List Coin := [coin 60 1, coin 40 2]
def split₂ : List Coin := [coin 55 5, coin 45 6]

def mintEnvelope (payload : List UInt8) : Option (NodeMode × NodeStatement × List UInt8) :=
  if payload = [1] then
    some (.mint, mintOf (coin 60 1) (coin 40 2), [])
  else if payload = [2] then
    some (.mint, mintOf (coin 55 5) (coin 45 6), [])
  else
    none

noncomputable def mintEngine : PcdEngine Unit :=
  idealEngine foldSponge mintEnvelope

/-- A consignment of one of the splits. -/
def mintConsignment (openings : List Coin) (tag : UInt8) : Consignment where
  coinOpenings := openings
  nullifiers := []
  proof := proofBytes tag
  anchorRef := mintChain.2
  aux := none

theorem mintChain_proofRecordAt :
    (mintChain.1.toAnchorChain foldSponge).proofRecordAt mintChain.2 [] =
      some mintRecord := by
  decide +kernel

theorem mintChain_ctxAt :
    (mintChain.1.toAnchorChain foldSponge).ctxAt mintChain.2 = some cleanCtx := by
  decide +kernel

theorem accept_split₁ :
    acceptForPublicOwners foldSponge (mintConsignment split₁ 1)
      (mintChain.1.toAnchorChain foldSponge) (coinProofVerifier foldSponge mintEngine)
      (params [osk.owner foldSponge]) = .ok ⟨split₁, ⟨0, 0⟩⟩ := by
  have hcanonical : (mintOf (coin 60 1) (coin 40 2)).isCanonical = true := by
    decide +kernel
  refine acceptForPublicOwners_of_relation (idealEngine_ideal foldSponge mintEnvelope) ?_
    mintChain_proofRecordAt mintChain_ctxAt rfl (decode_proofBytes rfl hcanonical) rfl ?_
    (mintOf_mem rfl rfl rfl)
  · decide +kernel
  · decide +kernel

theorem accept_split₂ :
    acceptForPublicOwners foldSponge (mintConsignment split₂ 2)
      (mintChain.1.toAnchorChain foldSponge) (coinProofVerifier foldSponge mintEngine)
      (params [osk.owner foldSponge]) = .ok ⟨split₂, ⟨0, 0⟩⟩ := by
  have hcanonical : (mintOf (coin 55 5) (coin 45 6)).isCanonical = true := by
    decide +kernel
  refine acceptForPublicOwners_of_relation (idealEngine_ideal foldSponge mintEnvelope) ?_
    mintChain_proofRecordAt mintChain_ctxAt rfl (decode_proofBytes rfl hcanonical) rfl ?_
    (mintOf_mem rfl rfl rfl)
  · decide +kernel
  · decide +kernel

theorem mintChain_sameSoloAnchor :
    SameSoloAnchor (mintChain.1.toAnchorChain foldSponge) (mintConsignment split₁ 1)
      (mintConsignment split₂ 2) mintRecord cleanCtx where
  anchor₁ := by decide +kernel
  anchor₂ := by decide +kernel
  solo := by decide
  location := rfl
  ctx₁ := mintChain_ctxAt
  ctx₂ := mintChain_ctxAt
  proofRecord₁ := mintChain_proofRecordAt
  proofRecord₂ := mintChain_proofRecordAt

/-- Two splits of one mint are both accepted at its anchor, for twice the total. -/
theorem mint_outputs_equivocate :
    mintEngine.Ideal foldSponge ∧
    SameSoloAnchor (mintChain.1.toAnchorChain foldSponge) (mintConsignment split₁ 1)
      (mintConsignment split₂ 2) mintRecord cleanCtx ∧
    acceptForPublicOwners foldSponge (mintConsignment split₁ 1)
      (mintChain.1.toAnchorChain foldSponge) (coinProofVerifier foldSponge mintEngine)
      (params [osk.owner foldSponge]) = .ok ⟨split₁, ⟨0, 0⟩⟩ ∧
    acceptForPublicOwners foldSponge (mintConsignment split₂ 2)
      (mintChain.1.toAnchorChain foldSponge) (coinProofVerifier foldSponge mintEngine)
      (params [osk.owner foldSponge]) = .ok ⟨split₂, ⟨0, 0⟩⟩ ∧
    split₁.map (Coin.commitment foldSponge) ≠ split₂.map (Coin.commitment foldSponge) ∧
    totalValue split₁ + totalValue split₂ > 100 := by
  refine ⟨idealEngine_ideal foldSponge mintEnvelope, mintChain_sameSoloAnchor, accept_split₁,
    accept_split₂, ?_, ?_⟩
  · decide +kernel
  · decide

/-- Each of the two consignments credits the minted total and no more. -/
theorem splits_credit_their_total :
    ∃ coin₁ coin₂,
      mintEngine.decodeCoinProof (mintConsignment split₁ 1).proof = some coin₁ ∧
      mintEngine.decodeCoinProof (mintConsignment split₂ 2).proof = some coin₂ ∧
      OwnOutputs foldSponge (mintConsignment split₁ 1) ⟨split₁, ⟨0, 0⟩⟩ coin₁ ∧
      OwnOutputs foldSponge (mintConsignment split₂ 2) ⟨split₂, ⟨0, 0⟩⟩ coin₂ ∧
      SharedSource foldSponge mintRecord cleanCtx coin₁ coin₂ :=
  sameAnchor_outputs (idealEngine_ideal foldSponge mintEnvelope) accept_split₁ accept_split₂
    mintChain_sameSoloAnchor

end Sample

end OpenCsv
