import OpenCsv.Core.NoDoubleSpend

/-!
# The driver and the kernel

The driver stops at the first check that fails; the kernel decides on all observations
at once.  `observe` computes every observation of an input, also those that the driver
skips, and `acceptForPublicOwners_eq_decide` compares the two.

They agree but for one early exit: an anchor for which the chain has no proof record,
such as a batch header without its envelope, is ill-formed before the proof and the
depth are looked at (`headerAnchor_reason_differs`).
-/

namespace OpenCsv

open AcceptKernel

section Observations

variable (sponge : Sponge)
variable (consignment : Consignment)
variable (chain : AnchorChain)
variable (verifier : ProofVerifier)
variable (params : PublicOwnerAcceptParams)

/-- The record that the proof speaks about; without a projection, the anchor as it stands. -/
def observedRecord (record : AnchorRecord) : AnchorRecord :=
  (chain.proofRecordAt consignment.anchorRef consignment.nullifiers).getD record

def observeProof : Bool :=
  match chain.anchorAt consignment.anchorRef, chain.ctxAt consignment.anchorRef with
  | some record, some ctx =>
      verifier.verify params.vk
        (publicInput (observedRecord consignment chain record) ctx consignment.coinOpenings)
        consignment.proof
  | _, _ => false

/-- The first occurrences of all keys. -/
def observedOccurrences (keys : List Digest) : List OccurrenceObservation :=
  keys.map (fun key => ⟨key.toAnchor, chain.firstNullifierOccurrence key⟩)

def observeAnchor : AnchorObservation :=
  match chain.anchorAt consignment.anchorRef, chain.ctxAt consignment.anchorRef,
    chain.locate consignment.anchorRef with
  | some record, some ctx, some location =>
      .present location (chain.confirmationsAt location.height)
        (recordBindsNullifiers sponge (observedRecord consignment chain record) ctx
          consignment.nullifiers)
        (observedOccurrences chain (occurrenceKeys sponge record consignment.nullifiers))
  | _, _, _ => .missing

/-- The outputs of the given owners, in the order of the consignment. -/
def ownedCoins : List Coin :=
  consignment.coinOpenings.filter (fun o => params.recipientOwners.contains o.owner)

/-- Every observation of an input. -/
def observe : AcceptInput where
  hasOpenings := !consignment.coinOpenings.isEmpty
  asset := assetObservation sponge consignment.coinOpenings consignment.aux params.knownAssets
  anchor := observeAnchor sponge consignment chain
  hasDistinctNullifiers := nullifiersAreDistinct consignment.nullifiers
  proofValid := observeProof consignment chain verifier params
  requiredConfirmations := params.requiredConfirmations
  hasOwnedOutput := !(ownedCoins consignment params).isEmpty

/-- The answer of a decision, crediting `coins` when it accepts. -/
def AcceptKernel.AcceptDecision.toResult (coins : List Coin) :
    AcceptDecision → Except RejectReason AcceptedCoins
  | .accept anchor => .ok ⟨coins, anchor⟩
  | .reject reason => .error reason

/-- The anchor exists, but the chain has no record that a proof of it could speak about. -/
def Unprojected : Prop :=
  (chain.anchorAt consignment.anchorRef).isSome ∧ (chain.ctxAt consignment.anchorRef).isSome ∧
    (chain.locate consignment.anchorRef).isSome ∧
      chain.proofRecordAt consignment.anchorRef consignment.nullifiers = none

instance : Decidable (Unprojected consignment chain) :=
  inferInstanceAs (Decidable (_ ∧ _ ∧ _ ∧ _))

end Observations

section Agreement

variable {sponge : Sponge}
variable {consignment : Consignment}
variable {chain : AnchorChain}
variable {verifier : ProofVerifier}
variable {params : PublicOwnerAcceptParams}

theorem rejectIf_bind
    {α : Type}
    (reason : Option RejectReason)
    (f : Unit → Except RejectReason α) :
    (rejectIf reason >>= f) = reason.elim (f ()) .error := by
  cases reason <;> rfl

theorem okOr_bind
    {α β ε : Type}
    (x : Option α)
    (e : ε)
    (f : α → Except ε β) :
    (okOr x e >>= f) = x.elim (.error e) f := by
  cases x <;> rfl

/-- The loop with its early exit finds the first rejection of the complete list. -/
theorem observeOccurrences_eq
    (location : AnchorLocation)
    (keys : List Digest) :
    observeOccurrences chain location keys =
      (occurrenceRejection location (observedOccurrences chain keys)).elim
        (.ok (observedOccurrences chain keys)) .error := by
  induction keys with
  | nil =>
      rfl
  | cons key keys ih =>
      rw [observeOccurrences, rejectIf_bind, ih]
      simp only [observedOccurrences, List.map_cons, occurrenceRejection]
      cases chain.firstNullifierOccurrence key with
      | none =>
          rfl
      | some first =>
          by_cases hfirst : first = location
          · simp only [hfirst, ne_eq, not_true_eq_false, if_false, Option.elim_none]
            cases occurrenceRejection location
                (keys.map (fun key => ⟨key.toAnchor, chain.firstNullifierOccurrence key⟩)) with
            | none => rfl
            | some reason => rfl
          · simp only [hfirst, ne_eq, not_false_eq_true, if_true, Option.elim_some]

/-- The driver's first rejection of a chain prefix is the kernel's. -/
theorem chainPrefix_elim
    {α : Type}
    (confirmations required : UInt64)
    (binds : Bool)
    (x : Except RejectReason α) :
    (chainPrefixRejection confirmations required true).elim
        ((chainPrefixRejection confirmations required binds).elim x .error) .error =
      (chainPrefixRejection confirmations required binds).elim x .error := by
  unfold chainPrefixRejection
  by_cases hdepth : confirmations < required
  · simp only [hdepth, if_true, Option.elim_some]
  · simp only [hdepth, if_false, if_true, Option.elim_none]

/-- The kernel's decision as a sequence of rejections. -/
theorem decide_present
    {input : AcceptInput}
    {location : AnchorLocation}
    {confirmations : UInt64}
    {binds : Bool}
    {occurrences : List OccurrenceObservation}
    (coins : List Coin)
    (hanchor : input.anchor = .present location confirmations binds occurrences) :
    (AcceptKernel.decide input).toResult coins =
      (preflightRejection input.hasOpenings input.asset).elim
        ((structureRejection input.hasDistinctNullifiers).elim
          ((proofRejection input.proofValid).elim
            ((chainPrefixRejection confirmations input.requiredConfirmations binds).elim
              ((occurrenceRejection location occurrences).elim
                (if input.hasOwnedOutput then .ok ⟨coins, location⟩ else .error .noOwnedOutput)
                .error) .error) .error) .error) .error := by
  unfold AcceptKernel.decide
  rw [hanchor]
  cases preflightRejection input.hasOpenings input.asset with
  | some reason => rfl
  | none =>
      cases structureRejection input.hasDistinctNullifiers with
      | some reason => rfl
      | none =>
          cases proofRejection input.proofValid with
          | some reason => rfl
          | none =>
              simp only [Option.elim_none]
              cases chainPrefixRejection confirmations input.requiredConfirmations binds with
              | some reason => rfl
              | none =>
                  simp only [Option.elim_none]
                  cases occurrenceRejection location occurrences with
                  | some reason => rfl
                  | none =>
                      cases input.hasOwnedOutput with
                      | false => rfl
                      | true => rfl

theorem decide_missing
    {input : AcceptInput}
    (coins : List Coin)
    (hanchor : input.anchor = .missing) :
    (AcceptKernel.decide input).toResult coins =
      (preflightRejection input.hasOpenings input.asset).elim (.error .anchorNotFound)
        .error := by
  unfold AcceptKernel.decide
  rw [hanchor]
  cases preflightRejection input.hasOpenings input.asset with
  | some reason => rfl
  | none => rfl

theorem preflight_elim
    {α : Type}
    (hasOpenings : Bool)
    (asset : AssetObservation)
    (x : Except RejectReason α) :
    (preflightRejection hasOpenings .valid).elim
        ((preflightRejection true asset).elim x .error) .error =
      (preflightRejection hasOpenings asset).elim x .error := by
  cases hasOpenings with
  | false => rfl
  | true => rfl

/-- The driver's own rejections leave the kernel the question of ownership. -/
theorem decide_of_passed
    {asset : AssetObservation}
    {location : AnchorLocation}
    {confirmations required : UInt64}
    {binds distinct valid owned : Bool}
    {occurrences : List OccurrenceObservation}
    (hpreflight : preflightRejection true asset = none)
    (hstructure : structureRejection distinct = none)
    (hproof : proofRejection valid = none)
    (hpre : chainPrefixRejection confirmations required binds = none)
    (hoccurrences : occurrenceRejection location occurrences = none) :
    AcceptKernel.decide ⟨true, asset, .present location confirmations binds occurrences, distinct,
      valid, required, owned⟩ = if owned then .accept location else .reject .noOwnedOutput := by
  unfold AcceptKernel.decide
  simp only [hpreflight, hstructure, hproof, hpre, hoccurrences]
  cases owned with
  | false => rfl
  | true => rfl

theorem decide_preflight
    {input : AcceptInput}
    {reason : RejectReason}
    (coins : List Coin)
    (h : preflightRejection input.hasOpenings input.asset = some reason) :
    (AcceptKernel.decide input).toResult coins = .error reason := by
  unfold AcceptKernel.decide
  rw [h]
  rfl

/-- Once the early checks are equal, the last part of the driver is the kernel's. -/
theorem settle_elim
    {hasOpenings distinct valid : Bool}
    {asset : AssetObservation}
    {location : AnchorLocation}
    {confirmations required : UInt64}
    {binds : Bool}
    {occurrences : List OccurrenceObservation}
    {coins : List Coin}
    (hpreflight : preflightRejection hasOpenings asset = none) :
    (structureRejection distinct).elim
        ((proofRejection valid).elim
          ((chainPrefixRejection confirmations required binds).elim
            (do
              let occurrences ← (occurrenceRejection location occurrences).elim
                (Except.ok occurrences) Except.error
              match AcceptKernel.decide ⟨true, asset,
                  .present location confirmations binds occurrences, distinct, valid, required,
                    !coins.isEmpty⟩ with
              | .accept _ => pure (AcceptedCoins.mk coins location)
              | .reject reason => throw reason)
            .error) .error) .error =
      (structureRejection distinct).elim
        ((proofRejection valid).elim
          ((chainPrefixRejection confirmations required binds).elim
            ((occurrenceRejection location occurrences).elim
              (if !coins.isEmpty then .ok ⟨coins, location⟩ else .error .noOwnedOutput)
              .error) .error) .error) .error := by
  have hasset : preflightRejection true asset = none := by
    cases hasOpenings with
    | false => cases hpreflight
    | true => exact hpreflight
  cases hstructure : structureRejection distinct with
  | some reason => rfl
  | none =>
      cases hproof : proofRejection valid with
      | some reason => rfl
      | none =>
          simp only [Option.elim_none]
          cases hpre : chainPrefixRejection confirmations required binds with
          | some reason => rfl
          | none =>
              simp only [Option.elim_none]
              cases hoccurrences : occurrenceRejection location occurrences with
              | some reason => rfl
              | none =>
                  show (match AcceptKernel.decide _ with
                    | .accept _ => pure (AcceptedCoins.mk coins location)
                    | .reject reason => throw reason : Except RejectReason AcceptedCoins) = _
                  rw [decide_of_passed hasset hstructure hproof hpre hoccurrences]
                  cases coins.isEmpty with
                  | false => rfl
                  | true => rfl

/--
The driver answers what the kernel decides on the complete observations, and credits the
owned openings in their order.  One early exit is its own: an anchor without a proof
record is ill-formed as soon as the openings, the asset and the nullifiers passed.
-/
theorem acceptForPublicOwners_eq_decide :
    acceptForPublicOwners sponge consignment chain verifier params =
      if Unprojected consignment chain ∧
          preflightRejection (!consignment.coinOpenings.isEmpty)
            (assetObservation sponge consignment.coinOpenings consignment.aux
              params.knownAssets) = none ∧
          nullifiersAreDistinct consignment.nullifiers = true then
        .error .illFormedAnchor
      else
        (AcceptKernel.decide (observe sponge consignment chain verifier params)).toResult
          (ownedCoins consignment params) := by
  unfold acceptForPublicOwners
  simp only [rejectIf_bind, okOr_bind]
  rw [preflight_elim]
  cases hpreflight : preflightRejection (!consignment.coinOpenings.isEmpty)
      (assetObservation sponge consignment.coinOpenings consignment.aux params.knownAssets) with
  | some reason =>
      rw [if_neg (by simp), decide_preflight _ hpreflight]
      rfl
  | none =>
      simp only [Option.elim_none, true_and]
      cases hanchor : chain.anchorAt consignment.anchorRef with
      | none =>
          rw [if_neg (by simp [Unprojected, hanchor]),
            decide_missing _ (by simp [observe, observeAnchor, hanchor]), observe, hpreflight]
          rfl
      | some record =>
          cases hctx : chain.ctxAt consignment.anchorRef with
          | none =>
              rw [if_neg (by simp [Unprojected, hctx]),
                decide_missing _ (by simp [observe, observeAnchor, hanchor, hctx]), observe,
                hpreflight]
              rfl
          | some ctx =>
              cases hlocation : chain.locate consignment.anchorRef with
              | none =>
                  rw [if_neg (by simp [Unprojected, hlocation]),
                    decide_missing _ (by simp [observe, observeAnchor, hanchor, hctx, hlocation]),
                    observe, hpreflight]
                  rfl
              | some location =>
                  simp only [Option.elim_some]
                  have hobserved : (observe sponge consignment chain verifier params).anchor =
                      .present location (chain.confirmationsAt location.height)
                        (recordBindsNullifiers sponge (observedRecord consignment chain record) ctx
                          consignment.nullifiers)
                        (observedOccurrences chain
                          (occurrenceKeys sponge record consignment.nullifiers)) := by
                    simp only [observe, observeAnchor, hanchor, hctx, hlocation]
                  rw [decide_present _ hobserved]
                  simp only [observe, observeProof, hanchor, hctx, hpreflight, Option.elim_none]
                  cases hdistinct : nullifiersAreDistinct consignment.nullifiers with
                  | false =>
                      rw [if_neg (by simp)]
                      rfl
                  | true =>
                      cases hproofRecord :
                          chain.proofRecordAt consignment.anchorRef consignment.nullifiers with
                      | none =>
                          rw [if_pos ⟨⟨by simp [hanchor], by simp [hctx], by simp [hlocation],
                            hproofRecord⟩, rfl⟩]
                          rfl
                      | some proofRecord =>
                          rw [if_neg (by simp [Unprojected, hproofRecord])]
                          simp only [observedRecord, hproofRecord, Option.getD_some,
                            Option.elim_some]
                          rw [chainPrefix_elim, observeOccurrences_eq]
                          exact settle_elim hpreflight

/-- An anchor with a proof record: the checks in their order. -/
theorem accept_of_projected
    {record proofRecord : AnchorRecord}
    {ctx : Ctx}
    {location : AnchorLocation}
    (hanchor : chain.anchorAt consignment.anchorRef = some record)
    (hctx : chain.ctxAt consignment.anchorRef = some ctx)
    (hlocation : chain.locate consignment.anchorRef = some location)
    (hproofRecord : chain.proofRecordAt consignment.anchorRef consignment.nullifiers =
      some proofRecord) :
    acceptForPublicOwners sponge consignment chain verifier params =
      (preflightRejection (!consignment.coinOpenings.isEmpty)
        (assetObservation sponge consignment.coinOpenings consignment.aux
          params.knownAssets)).elim
        ((structureRejection (nullifiersAreDistinct consignment.nullifiers)).elim
          ((proofRejection (verifier.verify params.vk
            (publicInput proofRecord ctx consignment.coinOpenings) consignment.proof)).elim
            ((chainPrefixRejection (chain.confirmationsAt location.height)
              params.requiredConfirmations
              (recordBindsNullifiers sponge proofRecord ctx consignment.nullifiers)).elim
              ((occurrenceRejection location (observedOccurrences chain
                (occurrenceKeys sponge record consignment.nullifiers))).elim
                (if !(ownedCoins consignment params).isEmpty then
                  .ok ⟨ownedCoins consignment params, location⟩
                else .error .noOwnedOutput)
                .error) .error) .error) .error) .error := by
  have hobserved : (observe sponge consignment chain verifier params).anchor =
      .present location (chain.confirmationsAt location.height)
        (recordBindsNullifiers sponge proofRecord ctx consignment.nullifiers)
        (observedOccurrences chain (occurrenceKeys sponge record consignment.nullifiers)) := by
    simp only [observe, observeAnchor, observedRecord, hanchor, hctx, hlocation, hproofRecord,
      Option.getD_some]
  rw [acceptForPublicOwners_eq_decide, if_neg (by simp [Unprojected, hproofRecord]),
    decide_present _ hobserved]
  simp only [observe, observeProof, observedRecord, hanchor, hctx, hproofRecord, Option.getD_some]

/-- The driver sees a chain through its answers about one anchor and the keys of its record. -/
theorem accept_congr
    {chain' : AnchorChain}
    (hanchor : chain'.anchorAt consignment.anchorRef = chain.anchorAt consignment.anchorRef)
    (hctx : chain'.ctxAt consignment.anchorRef = chain.ctxAt consignment.anchorRef)
    (hlocation : chain'.locate consignment.anchorRef = chain.locate consignment.anchorRef)
    (hproofRecord : chain'.proofRecordAt consignment.anchorRef consignment.nullifiers =
      chain.proofRecordAt consignment.anchorRef consignment.nullifiers)
    (hdepth : ∀ location, chain.locate consignment.anchorRef = some location →
      chain'.confirmationsAt location.height = chain.confirmationsAt location.height)
    (hfirst : ∀ record, chain.anchorAt consignment.anchorRef = some record →
      ∀ key ∈ occurrenceKeys sponge record consignment.nullifiers,
        chain'.firstNullifierOccurrence key = chain.firstNullifierOccurrence key) :
    acceptForPublicOwners sponge consignment chain' verifier params =
      acceptForPublicOwners sponge consignment chain verifier params := by
  have hrecord : ∀ record, observedRecord consignment chain' record =
      observedRecord consignment chain record := by
    intro record
    rw [observedRecord, observedRecord, hproofRecord]
  have hproof : observeProof consignment chain' verifier params =
      observeProof consignment chain verifier params := by
    simp only [observeProof, hanchor, hctx, hrecord]
  have hobserve : observeAnchor sponge consignment chain' =
      observeAnchor sponge consignment chain := by
    unfold observeAnchor
    rw [hanchor, hctx, hlocation]
    cases hrecord' : chain.anchorAt consignment.anchorRef with
    | none => rfl
    | some record =>
        cases chain.ctxAt consignment.anchorRef with
        | none => rfl
        | some ctx =>
            cases hlocation' : chain.locate consignment.anchorRef with
            | none => rfl
            | some location =>
                have hoccurrences : observedOccurrences chain'
                    (occurrenceKeys sponge record consignment.nullifiers) =
                      observedOccurrences chain
                        (occurrenceKeys sponge record consignment.nullifiers) := by
                  refine List.map_congr_left ?_
                  intro key hkey
                  rw [hfirst record hrecord' key hkey]
                simp only [hdepth location hlocation', hrecord, hoccurrences]
  have hunprojected : Unprojected consignment chain' ↔ Unprojected consignment chain := by
    unfold Unprojected
    rw [hanchor, hctx, hlocation, hproofRecord]
  rw [acceptForPublicOwners_eq_decide, acceptForPublicOwners_eq_decide]
  simp only [observe, hunprojected, hproof, hobserve]

end Agreement

namespace MockSpend

/-- A batch header on a chain that does not keep the envelope, without confirmations. -/
def headerAppended : MockAnchorChain × AnchorRef :=
  MockAnchorChain.new.appendWithCtx foldSponge (.batchHeader 2 TruncatedDigest.zero) ctx

def headerSpend : Consignment := consign record ctx headerAppended.2 [nf] 21

/-- The driver calls the anchor ill-formed; the kernel, whatever the proof, does not. -/
theorem headerAnchor_reason_differs :
    acceptForPublicOwners foldSponge headerSpend (headerAppended.1.toAnchorChain foldSponge)
        MockVerifier.mockVerifier (params 21) = .error .illFormedAnchor ∧
      ∀ valid, AcceptKernel.decide
        { observe foldSponge headerSpend (headerAppended.1.toAnchorChain foldSponge)
            MockVerifier.mockVerifier (params 21) with proofValid := valid } ≠
          .reject .illFormedAnchor := by
  constructor
  · decide +kernel
  · intro valid
    cases valid with
    | false => decide +kernel
    | true => decide +kernel

end MockSpend

end OpenCsv
