import OpenCsv.Core.Accept

/-!
# Double spends on the in-memory chain

Acceptance makes the named anchor the first occurrence of every occurrence key
of the consignment.  For transfers and redemptions the keys are the nullifiers
themselves, so a nullifier has at most one anchor at which it can be accepted
(`mockChain_noDoubleSpend`).

A compressed transfer is keyed by the commitment to its whole list.  Its
members are not occurrences of anything, so a member can be accepted again
elsewhere (`mockChain_compressed_member_spent_twice`); two acceptances that
share a nullifier meet at one anchor only when both are compressed transfers
over the same list (`mockChain_compressed_sameAnchor_iff`).
-/

namespace OpenCsv

section MockFacts

variable {sponge : Sponge}
variable {chain : MockAnchorChain}

/-- Is the record a transfer with one slot per nullifier, or a redemption? -/
def AnchorRecord.isXferOrRedeem : AnchorRecord → Bool
  | .xfer .. | .redeem .. => true
  | _ => false

/-- Transfers and redemptions are keyed by their nullifiers. -/
theorem occurrenceKeys_of_isXferOrRedeem
    {record : AnchorRecord}
    (h : record.isXferOrRedeem = true)
    (nfs : List Digest) :
    occurrenceKeys sponge record nfs = nfs := by
  cases record <;> simp_all [AnchorRecord.isXferOrRedeem, occurrenceKeys]

/-- Acceptance on the in-memory chain happens at one of its entries. -/
theorem MockAnchorChain.entry_of_accept
    {c : Consignment}
    {verifier : ProofVerifier}
    {params : PublicOwnerAcceptParams}
    {accepted : AcceptedCoins}
    {record proofRecord : AnchorRecord}
    {ctx : Ctx}
    (h : AcceptFacts sponge c (chain.toAnchorChain sponge) verifier params accepted
      record proofRecord ctx) :
    ∃ (i : ℕ) (e : MockEntry), chain.entries[i]? = some e ∧ e.record = record ∧ e.ctx = ctx ∧
      e.location = accepted.anchor ∧ proofRecord = record := by
  have hrecord := h.anchorAt
  have hctx := h.ctxAt
  have hloc := h.locate
  have hproof := h.proofRecordAt
  simp only [toAnchorChain, Option.map_eq_some_iff] at hrecord hctx hloc
  obtain ⟨e, he, rfl⟩ := hrecord
  obtain ⟨e', he', rfl⟩ := hctx
  obtain ⟨e'', he'', hanchor⟩ := hloc
  obtain rfl : e = e' := Option.some.inj (he.symm.trans he')
  have hmem : e ∈ chain.entries := List.mem_of_find?_eq_some he
  have hfound := List.find?_some he
  simp only [Bool.and_eq_true, beq_iff_eq] at hfound
  obtain ⟨i, hi⟩ := List.mem_iff_getElem?.mp hmem
  refine ⟨i, e, hi, rfl, rfl, hfound.1.trans hanchor, ?_⟩
  simp only [toAnchorChain, he, Option.map_some] at hproof
  cases hrec : e.record <;>
    simp_all [AnchorChain.soloProofRecord, eq_comm]

end MockFacts

section FirstOccurrence

variable {sponge : Sponge}
variable {chain : MockAnchorChain}
variable {c₁ c₂ : Consignment}
variable {verifier₁ verifier₂ : ProofVerifier}
variable {params₁ params₂ : PublicOwnerAcceptParams}
variable {accepted₁ accepted₂ : AcceptedCoins}

/-- Acceptances with a common occurrence key are at one location. -/
theorem anchor_eq_of_common_key
    {record₁ proofRecord₁ record₂ proofRecord₂ : AnchorRecord}
    {ctx₁ ctx₂ : Ctx}
    (h₁ : AcceptFacts sponge c₁ (chain.toAnchorChain sponge) verifier₁ params₁ accepted₁
      record₁ proofRecord₁ ctx₁)
    (h₂ : AcceptFacts sponge c₂ (chain.toAnchorChain sponge) verifier₂ params₂ accepted₂
      record₂ proofRecord₂ ctx₂)
    {k₁ k₂ : Digest}
    (hk₁ : k₁ ∈ occurrenceKeys sponge record₁ c₁.nullifiers)
    (hk₂ : k₂ ∈ occurrenceKeys sponge record₂ c₂.nullifiers)
    (hk : k₁.toElems = k₂.toElems) :
    accepted₁.anchor = accepted₂.anchor := by
  have hfirst₁ : chain.firstNullifierOccurrence sponge k₁ = some accepted₁.anchor :=
    h₁.first k₁ hk₁
  have hfirst₂ : chain.firstNullifierOccurrence sponge k₂ = some accepted₂.anchor :=
    h₂.first k₂ hk₂
  rw [chain.firstNullifierOccurrence_congr sponge hk, hfirst₂] at hfirst₁
  exact (Option.some.inj hfirst₁).symm

/--
A nullifier is accepted at one anchor only, as long as the anchors involved are
transfers or redemptions.  The chain holds any entries whatever, and the
nullifiers are compared as field elements.
-/
theorem mockChain_noDoubleSpend
    (h₁ : acceptForPublicOwners sponge c₁ (chain.toAnchorChain sponge) verifier₁ params₁ =
      .ok accepted₁)
    (h₂ : acceptForPublicOwners sponge c₂ (chain.toAnchorChain sponge) verifier₂ params₂ =
      .ok accepted₂)
    {record₁ record₂ : AnchorRecord}
    (hrecord₁ : (chain.toAnchorChain sponge).anchorAt c₁.anchorRef = some record₁)
    (hrecord₂ : (chain.toAnchorChain sponge).anchorAt c₂.anchorRef = some record₂)
    (hkind₁ : record₁.isXferOrRedeem = true)
    (hkind₂ : record₂.isXferOrRedeem = true)
    {nf₁ nf₂ : Digest}
    (hnf₁ : nf₁ ∈ c₁.nullifiers)
    (hnf₂ : nf₂ ∈ c₂.nullifiers)
    (hnf : nf₁.toElems = nf₂.toElems) :
    ∃ location,
      (chain.toAnchorChain sponge).locate c₁.anchorRef = some location ∧
      (chain.toAnchorChain sponge).locate c₂.anchorRef = some location := by
  obtain ⟨r₁, q₁, ctx₁, f₁⟩ := acceptForPublicOwners_ok_iff.mp h₁
  obtain ⟨r₂, q₂, ctx₂, f₂⟩ := acceptForPublicOwners_ok_iff.mp h₂
  obtain rfl : record₁ = r₁ := Option.some.inj (hrecord₁.symm.trans f₁.anchorAt)
  obtain rfl : record₂ = r₂ := Option.some.inj (hrecord₂.symm.trans f₂.anchorAt)
  have hanchor : accepted₁.anchor = accepted₂.anchor := by
    apply anchor_eq_of_common_key f₁ f₂ _ _ hnf
    · rwa [occurrenceKeys_of_isXferOrRedeem hkind₁]
    · rwa [occurrenceKeys_of_isXferOrRedeem hkind₂]
  exact ⟨accepted₁.anchor, f₁.locate, hanchor ▸ f₂.locate⟩

end FirstOccurrence

namespace MockSpend

/-- The context of the anchoring transaction. -/
def ctx : Ctx := List.Vector.replicate 32 7

/-- A nullifier, and the same field elements under another byte encoding. -/
def nf : Digest := Digest.fill 3
def nfTwin : Digest := ⟨⟨[0x04, 0x03, 0x03, 0x7b] ++ List.replicate 28 3, rfl⟩⟩

def coinTo (owner : UInt8) : Coin where
  assetId := Digest.fill 5
  value := 10
  owner := Digest.fill owner
  randomness := Digest.fill 12

def record : AnchorRecord := .xfer (bound foldSponge ctx nf) TruncatedDigest.zero

def appended : MockAnchorChain × AnchorRef :=
  MockAnchorChain.new.appendWithCtx foldSponge record ctx

def chain : MockAnchorChain := appended.1.advanceBlocks 5

/-- Recipient policy: six confirmations, one owner, the asset pinned. -/
def params (owner : UInt8) : PublicOwnerAcceptParams where
  vk := [1, 2, 3]
  requiredConfirmations := 6
  recipientOwners := [Digest.fill owner]
  knownAssets := [Digest.fill 5]

/-- A consignment of one coin with a mock proof for `record` under `ctx`. -/
def consign
    (record : AnchorRecord)
    (ctx : Ctx)
    (ref : AnchorRef)
    (nfs : List Digest)
    (owner : UInt8) : Consignment where
  coinOpenings := [coinTo owner]
  nullifiers := nfs
  proof := MockVerifier.prove [1, 2, 3] (publicInput record ctx [coinTo owner])
  anchorRef := ref
  aux := none

def first : Consignment := consign record ctx appended.2 [nf] 21
def second : Consignment := consign record ctx appended.2 [nfTwin] 22

/-- Two recipients of one transfer, one of them given the other encoding. -/
theorem twin_encodings_share_anchor :
    first.nullifiers ≠ second.nullifiers ∧
    ∃ location,
      (chain.toAnchorChain foldSponge).locate first.anchorRef = some location ∧
      (chain.toAnchorChain foldSponge).locate second.anchorRef = some location := by
  have h₁ : acceptForPublicOwners foldSponge first (chain.toAnchorChain foldSponge)
      MockVerifier.mockVerifier (params 21) = .ok ⟨[coinTo 21], ⟨0, 0⟩⟩ := by
    decide +kernel
  have h₂ : acceptForPublicOwners foldSponge second (chain.toAnchorChain foldSponge)
      MockVerifier.mockVerifier (params 22) = .ok ⟨[coinTo 22], ⟨0, 0⟩⟩ := by
    decide +kernel
  have hrecord : (chain.toAnchorChain foldSponge).anchorAt appended.2 = some record := by
    decide +kernel
  have htwin : nf.toElems = nfTwin.toElems := by
    decide +kernel
  refine ⟨by decide +kernel, ?_⟩
  exact mockChain_noDoubleSpend h₁ h₂ hrecord hrecord rfl rfl
    (List.mem_singleton.mpr rfl) (List.mem_singleton.mpr rfl) htwin

end MockSpend

section Compressed

variable {sponge : Sponge}
variable {chain : MockAnchorChain}
variable {c₁ c₂ : Consignment}
variable {verifier₁ verifier₂ : ProofVerifier}
variable {params₁ params₂ : PublicOwnerAcceptParams}
variable {accepted₁ accepted₂ : AcceptedCoins}

/-- The bound list commitments of two lists collide under `ctx` only if the lists agree. -/
def ListCommitInjective
    (sponge : Sponge)
    (ctx : Ctx)
    (nfs nfs' : List Digest) : Prop :=
  bound sponge ctx (nullifierCommit sponge nfs) =
      bound sponge ctx (nullifierCommit sponge nfs') →
    nfs.map Digest.toElems = nfs'.map Digest.toElems

/-- The consignments consume a common nullifier, compared as field elements. -/
def ShareNullifier (c₁ c₂ : Consignment) : Prop :=
  ∃ nf₁ ∈ c₁.nullifiers, ∃ nf₂ ∈ c₂.nullifiers, nf₁.toElems = nf₂.toElems

/-- Both records are compressed transfers and the lists agree element by element. -/
def SameCompressedList
    (record₁ record₂ : AnchorRecord)
    (nfs₁ nfs₂ : List Digest) : Prop :=
  record₁.isXferCompressed = true ∧ record₂.isXferCompressed = true ∧
    nfs₁.map Digest.toElems = nfs₂.map Digest.toElems

/-- Binding by a compressed transfer is binding of the list commitment. -/
theorem recordBindsNullifiers_xferCompressed
    {slot : TruncatedDigest}
    {ctx : Ctx}
    {nfs : List Digest}
    (h : recordBindsNullifiers sponge (.xferCompressed slot) ctx nfs = true) :
    bound sponge ctx (nullifierCommit sponge nfs) = slot := by
  unfold recordBindsNullifiers at h
  split_ifs at h
  simp only [Bool.and_eq_true, beq_iff_eq] at h
  exact h.2

/-- Compressed transfers over one list are accepted at one location. -/
theorem anchor_eq_of_sameCompressedList
    {record₁ proofRecord₁ record₂ proofRecord₂ : AnchorRecord}
    {ctx₁ ctx₂ : Ctx}
    (h₁ : AcceptFacts sponge c₁ (chain.toAnchorChain sponge) verifier₁ params₁ accepted₁
      record₁ proofRecord₁ ctx₁)
    (h₂ : AcceptFacts sponge c₂ (chain.toAnchorChain sponge) verifier₂ params₂ accepted₂
      record₂ proofRecord₂ ctx₂)
    (hsame : SameCompressedList record₁ record₂ c₁.nullifiers c₂.nullifiers) :
    accepted₁.anchor = accepted₂.anchor := by
  obtain ⟨hkind₁, hkind₂, hlist⟩ := hsame
  have hkeys : ∀ {record : AnchorRecord} (nfs : List Digest),
      record.isXferCompressed = true →
      nullifierCommit sponge nfs ∈ occurrenceKeys sponge record nfs := by
    intro record nfs hkind
    cases record <;> simp_all [AnchorRecord.isXferCompressed, occurrenceKeys]
  apply anchor_eq_of_common_key h₁ h₂ (hkeys _ hkind₁) (hkeys _ hkind₂)
  rw [nullifierCommit_congr sponge hlist]

/-- One location holds one record, so both lists are bound into the same slot. -/
theorem sameCompressedList_of_anchor_eq
    {record₁ proofRecord₁ record₂ proofRecord₂ : AnchorRecord}
    {ctx₁ ctx₂ : Ctx}
    (hchain : MockAnchorChain.Reachable sponge chain)
    (hlen : chain.entries.length ≤ 2 ^ 32)
    (h₁ : AcceptFacts sponge c₁ (chain.toAnchorChain sponge) verifier₁ params₁ accepted₁
      record₁ proofRecord₁ ctx₁)
    (h₂ : AcceptFacts sponge c₂ (chain.toAnchorChain sponge) verifier₂ params₂ accepted₂
      record₂ proofRecord₂ ctx₂)
    (hkind : record₁.isXferCompressed = true ∨ record₂.isXferCompressed = true)
    (hinj : ∀ ctx, ListCommitInjective sponge ctx c₁.nullifiers c₂.nullifiers)
    (hanchor : accepted₁.anchor = accepted₂.anchor) :
    SameCompressedList record₁ record₂ c₁.nullifiers c₂.nullifiers := by
  obtain ⟨i, e, hi, rfl, rfl, hloc₁, rfl⟩ := MockAnchorChain.entry_of_accept h₁
  obtain ⟨j, e', hj, rfl, rfl, hloc₂, rfl⟩ := MockAnchorChain.entry_of_accept h₂
  have hloc : e.location = e'.location := by
    rw [hloc₁, hloc₂, hanchor]
  obtain rfl : i = j := hchain.location_injective hlen hi hj hloc
  obtain rfl : e = e' := Option.some.inj (hi.symm.trans hj)
  have hkind' : e.record.isXferCompressed = true := by
    simpa using hkind
  refine ⟨hkind', hkind', ?_⟩
  have hb₁ := h₁.binds
  have hb₂ := h₂.binds
  cases hrecord : e.record with
  | xferCompressed slot =>
      rw [hrecord] at hb₁ hb₂
      apply hinj e.ctx
      rw [recordBindsNullifiers_xferCompressed hb₁, recordBindsNullifiers_xferCompressed hb₂]
  | _ =>
      simp [hrecord, AnchorRecord.isXferCompressed] at hkind'

/--
Two acceptances, at least one of them through a compressed transfer, keep a
shared nullifier at one location exactly when sharing one means that both are
compressed transfers over the same list.  That the list suffices needs no
assumption; the converse needs a log whose locations are distinct and a
collision-free list commitment.
-/
theorem mockChain_compressed_sameAnchor_iff
    (hchain : MockAnchorChain.Reachable sponge chain)
    (h₁ : acceptForPublicOwners sponge c₁ (chain.toAnchorChain sponge) verifier₁ params₁ =
      .ok accepted₁)
    (h₂ : acceptForPublicOwners sponge c₂ (chain.toAnchorChain sponge) verifier₂ params₂ =
      .ok accepted₂)
    {record₁ record₂ : AnchorRecord}
    (hrecord₁ : (chain.toAnchorChain sponge).anchorAt c₁.anchorRef = some record₁)
    (hrecord₂ : (chain.toAnchorChain sponge).anchorAt c₂.anchorRef = some record₂)
    (hkind : record₁.isXferCompressed = true ∨ record₂.isXferCompressed = true) :
    ((ShareNullifier c₁ c₂ →
        SameCompressedList record₁ record₂ c₁.nullifiers c₂.nullifiers) →
      (ShareNullifier c₁ c₂ →
        (chain.toAnchorChain sponge).locate c₁.anchorRef =
          (chain.toAnchorChain sponge).locate c₂.anchorRef)) ∧
    (chain.entries.length ≤ 2 ^ 32 →
      (∀ ctx, ListCommitInjective sponge ctx c₁.nullifiers c₂.nullifiers) →
      (ShareNullifier c₁ c₂ →
        (chain.toAnchorChain sponge).locate c₁.anchorRef =
          (chain.toAnchorChain sponge).locate c₂.anchorRef) →
      (ShareNullifier c₁ c₂ →
        SameCompressedList record₁ record₂ c₁.nullifiers c₂.nullifiers)) := by
  obtain ⟨r₁, q₁, ctx₁, f₁⟩ := acceptForPublicOwners_ok_iff.mp h₁
  obtain ⟨r₂, q₂, ctx₂, f₂⟩ := acceptForPublicOwners_ok_iff.mp h₂
  obtain rfl : record₁ = r₁ := Option.some.inj (hrecord₁.symm.trans f₁.anchorAt)
  obtain rfl : record₂ = r₂ := Option.some.inj (hrecord₂.symm.trans f₂.anchorAt)
  rw [f₁.locate, f₂.locate, Option.some.injEq]
  constructor
  · intro hcond hshare
    exact anchor_eq_of_sameCompressedList f₁ f₂ (hcond hshare)
  · intro hlen hinj hanchor hshare
    exact sameCompressedList_of_anchor_eq hchain hlen f₁ f₂ hkind hinj (hanchor hshare)

end Compressed

namespace MockSpend

/-- A list of three nullifiers and the anchor that consumes it. -/
def list : List Digest := [nf, Digest.fill 31, Digest.fill 32]

def listRecord : AnchorRecord :=
  .xferCompressed (bound foldSponge ctx (nullifierCommit foldSponge list))

def listAppended : MockAnchorChain × AnchorRef :=
  MockAnchorChain.new.appendWithCtx foldSponge listRecord ctx

/-- A second anchor, in a later transaction, for the first member of the list. -/
def ctx' : Ctx := List.Vector.replicate 32 9

def memberRecord : AnchorRecord := .xfer (bound foldSponge ctx' nf) TruncatedDigest.zero

def memberAppended : MockAnchorChain × AnchorRef :=
  listAppended.1.appendWithCtx foldSponge memberRecord ctx'

def spentTwice : MockAnchorChain := memberAppended.1.advanceBlocks 5

theorem reachable_spentTwice :
    MockAnchorChain.Reachable foldSponge spentTwice :=
  (((MockAnchorChain.Reachable.ofNew foldSponge).ofApply
    (.appendWithCtx listRecord ctx)).ofApply
    (.appendWithCtx memberRecord ctx')).ofApply
    (.advanceBlocks 5)

def listSpend : Consignment := consign listRecord ctx listAppended.2 list 21
def memberSpend : Consignment := consign memberRecord ctx' memberAppended.2 [nf] 22

/-- A member of a compressed list is accepted again through a plain transfer. -/
theorem mockChain_compressed_member_spent_twice :
    MockAnchorChain.Reachable foldSponge spentTwice ∧
    acceptForPublicOwners foldSponge listSpend (spentTwice.toAnchorChain foldSponge)
      MockVerifier.mockVerifier (params 21) = .ok ⟨[coinTo 21], ⟨0, 0⟩⟩ ∧
    acceptForPublicOwners foldSponge memberSpend (spentTwice.toAnchorChain foldSponge)
      MockVerifier.mockVerifier (params 22) = .ok ⟨[coinTo 22], ⟨0, 1⟩⟩ ∧
    (spentTwice.toAnchorChain foldSponge).anchorAt listSpend.anchorRef = some listRecord ∧
    listRecord.isXferCompressed = true ∧
    nf ∈ listSpend.nullifiers ∧ nf ∈ memberSpend.nullifiers ∧
    (spentTwice.toAnchorChain foldSponge).locate listSpend.anchorRef ≠
      (spentTwice.toAnchorChain foldSponge).locate memberSpend.anchorRef := by
  refine ⟨reachable_spentTwice, ?_, ?_, ?_, ?_, ?_, ?_, ?_⟩ <;> decide +kernel

/-- Two recipients of one compressed transfer meet at its anchor. -/
theorem compressed_recipients_share_anchor :
    (spentTwice.toAnchorChain foldSponge).locate listSpend.anchorRef =
      (spentTwice.toAnchorChain foldSponge).locate
        (consign listRecord ctx listAppended.2 list 23).anchorRef := by
  have h₁ : acceptForPublicOwners foldSponge listSpend (spentTwice.toAnchorChain foldSponge)
      MockVerifier.mockVerifier (params 21) = .ok ⟨[coinTo 21], ⟨0, 0⟩⟩ := by
    decide +kernel
  have h₂ : acceptForPublicOwners foldSponge (consign listRecord ctx listAppended.2 list 23)
      (spentTwice.toAnchorChain foldSponge) MockVerifier.mockVerifier (params 23) =
        .ok ⟨[coinTo 23], ⟨0, 0⟩⟩ := by
    decide +kernel
  have hrecord : (spentTwice.toAnchorChain foldSponge).anchorAt listAppended.2 =
      some listRecord := by
    decide +kernel
  exact (mockChain_compressed_sameAnchor_iff reachable_spentTwice h₁ h₂ hrecord hrecord
    (Or.inl rfl)).1 (fun _ => ⟨rfl, rfl, rfl⟩)
    ⟨nf, List.mem_cons_self, nf, List.mem_cons_self, rfl⟩

end MockSpend

end OpenCsv
