import Mathlib.Data.List.Perm.Basic
import OpenCsv.Core.Chain
import OpenCsv.Kernel.Accept
import OpenCsv.Lib.Result
import OpenCsv.Lib.Sorting

/-!
# The receiver's accept driver

`acceptForPublicOwners` does the chain reads and the proof check in the order
of the source, returning the first rejection, and hands the observations to
the kernel at the end.

**Results.**
* `acceptForPublicOwners_ok_iff`: the driver accepts exactly when the facts of
  `AcceptFacts` hold, for the record, context and proof record read from the
  chain.  Every later argument about acceptance starts from these facts.
* `recordBindsNullifiers_xfer_iff`: a transfer record binds a list exactly when
  its non-zero slots are, as a multiset, the bindings of the list.
* `MockVerifier.verify_prove`: the mock verifier accepts what it proves.
-/

namespace OpenCsv

open AcceptKernel

/-- The proof verifier seam: `verify vk public_input proof`. -/
structure ProofVerifier where
  verify : List UInt8 → List UInt8 → List UInt8 → Bool

namespace MockVerifier

/-- 32-bit FNV-1a of `vk ∥ public_input`. -/
def checksum (vk publicInput : List UInt8) : UInt32 :=
  (vk ++ publicInput).foldl (fun h b => (h ^^^ b.toUInt32) * 0x01000193) 0x811c9dc5

/-- A mock proof: the public input followed by the checksum. -/
def prove (vk publicInput : List UInt8) : List UInt8 :=
  publicInput ++ leBytes 4 (checksum vk publicInput).toNat

/-- The mock verifier of the tests. -/
def mockVerifier : ProofVerifier where
  verify := fun vk publicInput proof =>
    if publicInput.length ≤ proof.length then
      proof.take publicInput.length == publicInput &&
        proof.drop publicInput.length == leBytes 4 (checksum vk publicInput).toNat
    else
      false

theorem verify_prove
    (vk publicInput : List UInt8) :
    mockVerifier.verify vk publicInput (prove vk publicInput) = true := by
  simp [mockVerifier, prove]

end MockVerifier

/-- A verifier that accepts everything; what it lets through is decided by the chain. -/
def anyProof : ProofVerifier where
  verify := fun _ _ _ => true

/-- Policy and identity of the recipient. -/
structure PublicOwnerAcceptParams where
  vk : List UInt8
  requiredConfirmations : UInt64
  recipientOwners : List Digest
  knownAssets : List Digest

/-- The coins credited by a successful accept. -/
structure AcceptedCoins where
  coins : List Coin
  anchor : AnchorLocation
deriving DecidableEq

section Driver

variable (sponge : Sponge)

/-- Field-level distinctness: as many element tuples as nullifiers. -/
def nullifiersAreDistinct (rawNullifiers : List Digest) : Bool :=
  (rawNullifiers.map Digest.toElems).dedup.length == rawNullifiers.length

/-- The derived order of truncated digests. -/
def TruncatedDigest.le (a b : TruncatedDigest) : Prop :=
  bytesLe a.bytes.toList b.bytes.toList = true

instance : DecidableRel TruncatedDigest.le :=
  fun a b => inferInstanceAs (Decidable (bytesLe a.bytes.toList b.bytes.toList = true))

/-- Does the record bind exactly these nullifiers under `ctx`? -/
def recordBindsNullifiers
    (record : AnchorRecord)
    (ctx : Ctx)
    (rawNullifiers : List Digest) : Bool :=
  if !nullifiersAreDistinct rawNullifiers then
    false
  else
    match record with
    | .mint .. => rawNullifiers.isEmpty
    | .batchHeader .. => false
    | .redeem _ _ payload =>
        match rawNullifiers with
        | [nf] => bound sponge ctx nf == payload
        | _ => false
    | .xferCompressed slot =>
        !rawNullifiers.isEmpty &&
          bound sponge ctx (nullifierCommit sponge rawNullifiers) == slot
    | .xfer p₀ p₁ =>
        let slots := [p₀, p₁].filter (fun p => p != TruncatedDigest.zero)
        let nfs := rawNullifiers.map (bound sponge ctx)
        !nfs.isEmpty &&
          slots.insertionSort TruncatedDigest.le == nfs.insertionSort TruncatedDigest.le

/-- The asset verdict: against the supplied genesis, else against the pinned assets. -/
def assetObservation
    (openings : List CoinOpening)
    (aux : Option AssetGenesis)
    (knownAssets : List Digest) : AssetObservation :=
  match aux with
  | some genesis =>
      if openings.any (fun o => o.assetId != genesis.assetId sponge) then
        .genesisMismatch
      else
        .valid
  | none =>
      if openings.any (fun o => !knownAssets.contains o.assetId) then
        .unknownAsset
      else
        .valid

/-- The keys whose first occurrence must be the named anchor. -/
def occurrenceKeys (record : AnchorRecord) (nullifiers : List Digest) : List Digest :=
  match record with
  | .mint .. => []
  | .batchHeader .. => nullifiers
  | .xfer .. | .redeem .. => nullifiers
  | .xferCompressed .. => [nullifierCommit sponge nullifiers]

/-- Turn a kernel rejection into an early return. -/
def rejectIf : Option RejectReason → Except RejectReason Unit
  | some reason => .error reason
  | none => .ok ()

/-- Query and check the occurrence keys one after the other. -/
def observeOccurrences
    (chain : AnchorChain)
    (location : AnchorLocation) :
    List Digest → Except RejectReason (List OccurrenceObservation)
  | [] => .ok []
  | key :: keys => do
      let observation : OccurrenceObservation :=
        { nullifier := key.toAnchor
          first := chain.firstNullifierOccurrence key }
      rejectIf (occurrenceRejection location [observation])
      let rest ← observeOccurrences chain location keys
      return observation :: rest

/-- Validate a consignment and select the outputs of the given public owners. -/
def acceptForPublicOwners
    (consignment : Consignment)
    (chain : AnchorChain)
    (verifier : ProofVerifier)
    (params : PublicOwnerAcceptParams) : Except RejectReason AcceptedCoins := do
  let openings := consignment.coinOpenings
  rejectIf (preflightRejection (!openings.isEmpty) .valid)
  let asset := assetObservation sponge openings consignment.aux params.knownAssets
  rejectIf (preflightRejection true asset)
  let record ← okOr (chain.anchorAt consignment.anchorRef) .anchorNotFound
  let ctx ← okOr (chain.ctxAt consignment.anchorRef) .anchorNotFound
  let location ← okOr (chain.locate consignment.anchorRef) .anchorNotFound
  let hasDistinctNullifiers := nullifiersAreDistinct consignment.nullifiers
  rejectIf (structureRejection hasDistinctNullifiers)
  let proofRecord ←
    okOr (chain.proofRecordAt consignment.anchorRef consignment.nullifiers) .illFormedAnchor
  let x := publicInput proofRecord ctx openings
  let proofValid := verifier.verify params.vk x consignment.proof
  rejectIf (proofRejection proofValid)
  let confirmations := chain.confirmationsAt location.height
  rejectIf (chainPrefixRejection confirmations params.requiredConfirmations true)
  let bindsNullifiers :=
    recordBindsNullifiers sponge proofRecord ctx consignment.nullifiers
  rejectIf (chainPrefixRejection confirmations params.requiredConfirmations bindsNullifiers)
  let occurrences ←
    observeOccurrences chain location (occurrenceKeys sponge record consignment.nullifiers)
  let coins := openings.filter (fun o => params.recipientOwners.contains o.owner)
  -- The kernel is the authoritative decision boundary.
  match AcceptKernel.decide
      { hasOpenings := true
        asset := asset
        anchor := .present location confirmations bindsNullifiers occurrences
        hasDistinctNullifiers := hasDistinctNullifiers
        proofValid := proofValid
        requiredConfirmations := params.requiredConfirmations
        hasOwnedOutput := !coins.isEmpty } with
  | .accept _ => return { coins := coins, anchor := location }
  | .reject reason => throw reason

/-- `accept`: the same algorithm with owners derived from local secrets. -/
def accept
    (consignment : Consignment)
    (chain : AnchorChain)
    (verifier : ProofVerifier)
    (vk : List UInt8)
    (requiredConfirmations : UInt64)
    (recipientSecrets : List OwnerSecret)
    (knownAssets : List Digest) : Except RejectReason AcceptedCoins :=
  acceptForPublicOwners sponge consignment chain verifier
    { vk := vk
      requiredConfirmations := requiredConfirmations
      recipientOwners := recipientSecrets.map (OwnerSecret.owner sponge)
      knownAssets := knownAssets }

/-- Everything the driver has checked when it accepts at `record` and `ctx`. -/
structure AcceptFacts
    (consignment : Consignment)
    (chain : AnchorChain)
    (verifier : ProofVerifier)
    (params : PublicOwnerAcceptParams)
    (accepted : AcceptedCoins)
    (record proofRecord : AnchorRecord)
    (ctx : Ctx) : Prop where
  openings_ne_nil : consignment.coinOpenings ≠ []
  asset_valid : assetObservation sponge consignment.coinOpenings consignment.aux
    params.knownAssets = .valid
  anchorAt : chain.anchorAt consignment.anchorRef = some record
  ctxAt : chain.ctxAt consignment.anchorRef = some ctx
  locate : chain.locate consignment.anchorRef = some accepted.anchor
  distinct : nullifiersAreDistinct consignment.nullifiers = true
  proofRecordAt : chain.proofRecordAt consignment.anchorRef consignment.nullifiers =
    some proofRecord
  verify : verifier.verify params.vk
    (publicInput proofRecord ctx consignment.coinOpenings) consignment.proof = true
  confirmed : params.requiredConfirmations ≤
    chain.confirmationsAt accepted.anchor.height
  binds : recordBindsNullifiers sponge proofRecord ctx consignment.nullifiers = true
  first : ∀ key ∈ occurrenceKeys sponge record consignment.nullifiers,
    chain.firstNullifierOccurrence key = some accepted.anchor
  coins_eq : accepted.coins =
    consignment.coinOpenings.filter (fun o => params.recipientOwners.contains o.owner)
  coins_ne_nil : accepted.coins ≠ []

end Driver

section Inversion

variable {sponge : Sponge}

@[simp] theorem rejectIf_eq_ok_iff
    {reason : Option RejectReason}
    {u : Unit} :
    rejectIf reason = .ok u ↔ reason = none := by
  cases reason <;> simp [rejectIf]

/-- The occurrence loop succeeds exactly when every key first occurs at `location`. -/
theorem observeOccurrences_eq_ok_iff
    {chain : AnchorChain}
    {location : AnchorLocation}
    {keys : List Digest}
    {observations : List OccurrenceObservation} :
    observeOccurrences chain location keys = .ok observations
      ↔
    (∀ key ∈ keys, chain.firstNullifierOccurrence key = some location) ∧
      observations = keys.map (fun key => ⟨key.toAnchor, some location⟩) := by
  induction keys generalizing observations with
  | nil =>
      simp [observeOccurrences, eq_comm]
  | cons key keys ih =>
      simp only [observeOccurrences, except_bind_eq_ok_iff, rejectIf_eq_ok_iff,
        occurrenceRejection_eq_none_iff, List.mem_singleton, forall_eq, exists_const,
        List.forall_mem_cons, List.map_cons, pure, Except.pure, Except.ok.injEq]
      constructor
      · rintro ⟨hkey, rest, hrest, rfl⟩
        obtain ⟨hkeys, rfl⟩ := ih.mp hrest
        exact ⟨⟨hkey, hkeys⟩, by rw [hkey]⟩
      · rintro ⟨⟨hkey, hkeys⟩, rfl⟩
        exact ⟨hkey, _, ih.mpr ⟨hkeys, rfl⟩, by rw [hkey]⟩

/-- The driver accepts exactly when all its checks hold. -/
theorem acceptForPublicOwners_ok_iff
    {consignment : Consignment}
    {chain : AnchorChain}
    {verifier : ProofVerifier}
    {params : PublicOwnerAcceptParams}
    {accepted : AcceptedCoins} :
    acceptForPublicOwners sponge consignment chain verifier params = .ok accepted
      ↔
    ∃ record proofRecord ctx,
      AcceptFacts sponge consignment chain verifier params accepted
        record proofRecord ctx := by
  simp only [acceptForPublicOwners, except_bind_eq_ok_iff, rejectIf_eq_ok_iff, okOr_eq_ok_iff,
    exists_const, observeOccurrences_eq_ok_iff]
  constructor
  · rintro ⟨hopen, hasset, record, hrecord, ctx, hctx, location, hloc, hdistinct,
      proofRecord, hproofRecord, hproof, -, hpre, observations, ⟨hfirst, rfl⟩, hdecide⟩
    split at hdecide
    · rename_i anchor hacc
      obtain ⟨-, -, -, -, -, -, -, -, -, howned⟩ := decide_eq_accept_iff.mp hacc
      simp only [pure, Except.pure, Except.ok.injEq] at hdecide
      subst hdecide
      simp only [preflightRejection_eq_none_iff] at hopen hasset
      simp only [structureRejection_eq_none_iff] at hdistinct
      simp only [proofRejection_eq_none_iff] at hproof
      simp only [chainPrefixRejection_eq_none_iff] at hpre
      exact ⟨record, proofRecord, ctx,
        { openings_ne_nil := by simpa using hopen.1
          asset_valid := hasset.2
          anchorAt := hrecord
          ctxAt := hctx
          locate := hloc
          distinct := hdistinct
          proofRecordAt := hproofRecord
          verify := hproof
          confirmed := hpre.1
          binds := hpre.2
          first := hfirst
          coins_eq := rfl
          coins_ne_nil := by simpa using howned }⟩
    · cases hdecide
  · rintro ⟨record, proofRecord, ctx, h⟩
    have hcoins := h.coins_ne_nil
    rw [h.coins_eq] at hcoins
    refine ⟨by simpa using h.openings_ne_nil, by simpa using h.asset_valid,
      record, h.anchorAt, ctx, h.ctxAt, accepted.anchor, h.locate, by simpa using h.distinct,
      proofRecord, h.proofRecordAt, by simpa using h.verify, by simpa using h.confirmed,
      by simpa using ⟨h.confirmed, h.binds⟩, _, ⟨h.first, rfl⟩, ?_⟩
    rw [decide_eq_accept_iff.mpr ⟨_, _, _, rfl, by simpa using h.asset_valid,
      by simpa using h.distinct, by simpa using h.verify,
      by simpa using ⟨h.confirmed, h.binds⟩, by simp, by simpa using hcoins⟩]
    rw [← h.coins_eq]
    rfl

/-- The driver uses one answer of the verifier only. -/
theorem acceptForPublicOwners_of_verify
    {consignment : Consignment}
    {chain : AnchorChain}
    {verifier verifier' : ProofVerifier}
    {params : PublicOwnerAcceptParams}
    {accepted : AcceptedCoins}
    {proofRecord : AnchorRecord}
    {ctx : Ctx}
    (haccept : acceptForPublicOwners sponge consignment chain verifier' params = .ok accepted)
    (hproof : chain.proofRecordAt consignment.anchorRef consignment.nullifiers =
      some proofRecord)
    (hctx : chain.ctxAt consignment.anchorRef = some ctx)
    (hverify : verifier.verify params.vk
      (publicInput proofRecord ctx consignment.coinOpenings) consignment.proof = true) :
    acceptForPublicOwners sponge consignment chain verifier params = .ok accepted := by
  obtain ⟨record, q, ctx', f⟩ := acceptForPublicOwners_ok_iff.mp haccept
  obtain rfl : proofRecord = q := Option.some.inj (hproof.symm.trans f.proofRecordAt)
  obtain rfl : ctx = ctx' := Option.some.inj (hctx.symm.trans f.ctxAt)
  exact acceptForPublicOwners_ok_iff.mpr
    ⟨record, proofRecord, ctx, { f with verify := hverify }⟩

/-- Distinctness compares field elements, not bytes. -/
theorem nullifiersAreDistinct_iff
    {nfs : List Digest} :
    nullifiersAreDistinct nfs = true ↔ (nfs.map Digest.toElems).Nodup := by
  have hlen : nfs.length = (nfs.map Digest.toElems).length := by
    simp
  rw [nullifiersAreDistinct, beq_iff_eq, hlen]
  constructor
  · intro h
    exact List.dedup_eq_self.mp ((List.dedup_sublist _).eq_of_length h)
  · intro h
    rw [List.dedup_eq_self.mpr h]

end Inversion

section Binding

variable {sponge : Sponge}

instance : Std.Total TruncatedDigest.le :=
  ⟨fun a b => bytesLe_total a.bytes.toList b.bytes.toList⟩

instance : IsTrans TruncatedDigest TruncatedDigest.le :=
  ⟨fun _ _ _ h h' => bytesLe_trans h h'⟩

instance : Std.Antisymm TruncatedDigest.le :=
  ⟨fun _ _ h h' => TruncatedDigest.ext (Bytes.ext_toList (bytesLe_antisymm h h'))⟩

/-- The payload slots that the binding check compares with nullifiers. -/
def AnchorRecord.usedSlots : AnchorRecord → List TruncatedDigest
  | .mint .. | .batchHeader .. => []
  | .xfer p₀ p₁ => [p₀, p₁].filter (fun p => p != TruncatedDigest.zero)
  | .xferCompressed p => [p]
  | .redeem _ _ p => [p]

/-- A transfer binds a list when its used slots are the bindings, as multisets. -/
theorem recordBindsNullifiers_xfer_iff
    {p₀ p₁ : TruncatedDigest}
    {ctx : Ctx}
    {nfs : List Digest} :
    recordBindsNullifiers sponge (.xfer p₀ p₁) ctx nfs = true
      ↔
    nullifiersAreDistinct nfs = true ∧ nfs ≠ [] ∧
      ((AnchorRecord.xfer p₀ p₁).usedSlots).Perm (nfs.map (bound sponge ctx)) := by
  unfold recordBindsNullifiers AnchorRecord.usedSlots
  cases hdistinct : nullifiersAreDistinct nfs with
  | false =>
      simp
  | true =>
      simp [insertionSort_eq_iff_perm]

/-- Outside compressed transfers, the used slots are the bindings of the list. -/
theorem usedSlots_perm_of_binds
    {record : AnchorRecord}
    {ctx : Ctx}
    {nfs : List Digest}
    (hkind : record.isXferCompressed = false)
    (h : recordBindsNullifiers sponge record ctx nfs = true) :
    record.usedSlots.Perm (nfs.map (bound sponge ctx)) := by
  cases record with
  | xfer p₀ p₁ =>
      exact (recordBindsNullifiers_xfer_iff.mp h).2.2
  | xferCompressed slot =>
      cases hkind
  | mint a v c =>
      unfold recordBindsNullifiers at h
      split_ifs at h
      have hnil : nfs = [] := by
        simpa using h
      simp [hnil, AnchorRecord.usedSlots]
  | batchHeader count c =>
      unfold recordBindsNullifiers at h
      split_ifs at h
  | redeem a v payload =>
      simp only [recordBindsNullifiers] at h
      split_ifs at h
      rcases nfs with _ | ⟨nf, _ | ⟨nf', rest⟩⟩
      · cases h
      · have hbound : bound sponge ctx nf = payload := by
          simpa using h
        simp [AnchorRecord.usedSlots, hbound]
      · cases h

end Binding

end OpenCsv
