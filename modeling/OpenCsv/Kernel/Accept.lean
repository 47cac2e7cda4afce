import OpenCsv.Core.Anchor

/-!
# The pure accept decision

The kernel sees explicit observations only: whether there are openings, the
asset verdict, what was observed at the anchor, the proof verdict, and whether
an output is owned.  `decide` evaluates the checks in a fixed order, so that
several simultaneous failures always select the same reason.

**Result.** `decide_eq_accept_iff`: the kernel accepts exactly when every check
passes, and then it reports the observed location.
-/

namespace OpenCsv
namespace AcceptKernel

/-- Verdict on the consignment's asset and genesis. -/
inductive AssetObservation where
  | valid | genesisMismatch | unknownAsset
deriving DecidableEq

/-- First occurrence of one occurrence key. -/
structure OccurrenceObservation where
  nullifier : TruncatedDigest
  first : Option AnchorLocation
deriving DecidableEq

/-- What was observed at the referenced anchor. -/
inductive AnchorObservation where
  | missing
  | present
      (location : AnchorLocation)
      (confirmations : UInt64)
      (bindsNullifiers : Bool)
      (occurrences : List OccurrenceObservation)
deriving DecidableEq

/-- The complete input of the decision. -/
structure AcceptInput where
  hasOpenings : Bool
  asset : AssetObservation
  anchor : AnchorObservation
  hasDistinctNullifiers : Bool
  proofValid : Bool
  requiredConfirmations : UInt64
  hasOwnedOutput : Bool

/-- Why a consignment is rejected. -/
inductive RejectReason where
  | emptyConsignment
  | genesisMismatch
  | unknownAsset
  | anchorNotFound
  | duplicateNullifier
  | insufficientConfirmations (have_ required : UInt64)
  | nullifierConflict (nullifier : TruncatedDigest) (first : AnchorLocation)
  | illFormedAnchor
  | invalidProof
  | noOwnedOutput
deriving DecidableEq

/-- The stable machine-readable code of a reason. -/
def RejectReason.code : RejectReason → String
  | .emptyConsignment => "empty_consignment"
  | .genesisMismatch => "genesis_mismatch"
  | .unknownAsset => "unknown_asset"
  | .anchorNotFound => "anchor_not_found"
  | .duplicateNullifier => "duplicate_nullifier"
  | .insufficientConfirmations .. => "insufficient_confirmations"
  | .nullifierConflict .. => "nullifier_conflict"
  | .illFormedAnchor => "ill_formed_anchor"
  | .invalidProof => "invalid_proof"
  | .noOwnedOutput => "no_owned_output"

/-- The decision. -/
inductive AcceptDecision where
  | accept (anchor : AnchorLocation)
  | reject (reason : RejectReason)
deriving DecidableEq

/-- Checks that precede all chain and proof work. -/
def preflightRejection
    (hasOpenings : Bool)
    (asset : AssetObservation) : Option RejectReason :=
  if !hasOpenings then
    some .emptyConsignment
  else
    match asset with
    | .valid => none
    | .genesisMismatch => some .genesisMismatch
    | .unknownAsset => some .unknownAsset

/-- Repeated nullifiers are rejected before the proof check. -/
def structureRejection (hasDistinctNullifiers : Bool) : Option RejectReason :=
  if hasDistinctNullifiers then none else some .duplicateNullifier

/-- The proof verdict. -/
def proofRejection (proofValid : Bool) : Option RejectReason :=
  if proofValid then none else some .invalidProof

/-- Confirmation depth, then exact binding of the record. -/
def chainPrefixRejection
    (confirmations requiredConfirmations : UInt64)
    (bindsNullifiers : Bool) : Option RejectReason :=
  if confirmations < requiredConfirmations then
    some (.insufficientConfirmations confirmations requiredConfirmations)
  else if bindsNullifiers then
    none
  else
    some .illFormedAnchor

/-- First-occurrence observations in their input order. -/
def occurrenceRejection
    (anchor : AnchorLocation) :
    List OccurrenceObservation → Option RejectReason
  | [] => none
  | occurrence :: rest =>
      match occurrence.first with
      | none => some .anchorNotFound
      | some first =>
          if first ≠ anchor then
            some (.nullifierConflict occurrence.nullifier first)
          else
            occurrenceRejection anchor rest

/-- The accept/reject boundary. -/
def decide (input : AcceptInput) : AcceptDecision :=
  match preflightRejection input.hasOpenings input.asset with
  | some reason => .reject reason
  | none =>
    match input.anchor with
    | .missing => .reject .anchorNotFound
    | .present location confirmations bindsNullifiers occurrences =>
      match structureRejection input.hasDistinctNullifiers with
      | some reason => .reject reason
      | none =>
        match proofRejection input.proofValid with
        | some reason => .reject reason
        | none =>
          match chainPrefixRejection confirmations input.requiredConfirmations
              bindsNullifiers with
          | some reason => .reject reason
          | none =>
            match occurrenceRejection location occurrences with
            | some reason => .reject reason
            | none =>
              if !input.hasOwnedOutput then
                .reject .noOwnedOutput
              else
                .accept location

@[simp] theorem preflightRejection_eq_none_iff
    {hasOpenings : Bool}
    {asset : AssetObservation} :
    preflightRejection hasOpenings asset = none
      ↔
    hasOpenings = true ∧ asset = .valid := by
  cases hasOpenings <;> cases asset <;> simp [preflightRejection]

@[simp] theorem structureRejection_eq_none_iff
    {distinct : Bool} :
    structureRejection distinct = none ↔ distinct = true := by
  cases distinct <;> simp [structureRejection]

@[simp] theorem proofRejection_eq_none_iff
    {valid : Bool} :
    proofRejection valid = none ↔ valid = true := by
  cases valid <;> simp [proofRejection]

@[simp] theorem chainPrefixRejection_eq_none_iff
    {confirmations required : UInt64}
    {binds : Bool} :
    chainPrefixRejection confirmations required binds = none
      ↔
    required ≤ confirmations ∧ binds = true := by
  unfold chainPrefixRejection
  split_ifs with hlt hbinds
  · simp [UInt64.not_le.mpr hlt]
  · simp [UInt64.not_lt.mp hlt, hbinds]
  · simp [hbinds]

@[simp] theorem occurrenceRejection_eq_none_iff
    {anchor : AnchorLocation}
    {occurrences : List OccurrenceObservation} :
    occurrenceRejection anchor occurrences = none
      ↔
    ∀ o ∈ occurrences, o.first = some anchor := by
  induction occurrences with
  | nil =>
      simp [occurrenceRejection]
  | cons o rest ih =>
      cases hfirst : o.first with
      | none =>
          simp [occurrenceRejection, hfirst]
      | some first =>
          by_cases heq : first = anchor
          · simp [occurrenceRejection, hfirst, heq, ih]
          · simp [occurrenceRejection, hfirst, heq]

/-- The kernel accepts exactly when every check passes. -/
theorem decide_eq_accept_iff
    {input : AcceptInput}
    {anchor : AnchorLocation} :
    decide input = .accept anchor
      ↔
    ∃ confirmations binds occurrences,
      input.anchor = .present anchor confirmations binds occurrences ∧
      preflightRejection input.hasOpenings input.asset = none ∧
      structureRejection input.hasDistinctNullifiers = none ∧
      proofRejection input.proofValid = none ∧
      chainPrefixRejection confirmations input.requiredConfirmations binds = none ∧
      occurrenceRejection anchor occurrences = none ∧
      input.hasOwnedOutput = true := by
  constructor
  · intro h
    unfold decide at h
    split at h
    · cases h
    · rename_i hpre
      split at h
      · cases h
      · rename_i location confirmations binds occurrences hanchor
        split at h
        · cases h
        · rename_i hstruct
          split at h
          · cases h
          · rename_i hproof
            split at h
            · cases h
            · rename_i hchain
              split at h
              · cases h
              · rename_i hocc
                split_ifs at h with howned
                obtain rfl : location = anchor := by
                  simpa using h
                exact ⟨confirmations, binds, occurrences, hanchor, hpre, hstruct,
                  hproof, hchain, hocc, by simpa using howned⟩
  · rintro ⟨confirmations, binds, occurrences, hanchor, hpre, hstruct, hproof, hchain,
      hocc, howned⟩
    simp [decide, hanchor, hpre, hstruct, hproof, hchain, hocc, howned]

end AcceptKernel
end OpenCsv
