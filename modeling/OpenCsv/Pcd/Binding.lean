import OpenCsv.Core.NoDoubleSpend
import OpenCsv.Pcd.Prove

/-!
# What the driver queries and what the proof spends

The driver binds the consignment's nullifiers into the anchor record, while the
adapter binds the statement's nullifiers into the same two slots, either one by
one or as a list commitment.  The driver branches on the parsed record; the
adapter reads the raw bytes.

**Results.**
* `spent_perm_nullifiers_iff`: the nullifiers a transfer proof spends are the
  consignment's exactly when the slots bind them one by one.  In compressed form
  the consignment may name the list commitment instead
  (`compressed_form_hides_spent`).
* `acceptedKind_agrees_iff`: record kind and proof mode agree, and every spent
  nullifier is queried, exactly on payloads that fit the mode and bind the spent
  nullifiers one by one.  A transfer proof is accepted at a payload that parses
  as a mint, with no query at all (`mintPayload_hides_transfer`).
-/

namespace OpenCsv

section Slots

variable {sponge : Sponge}

/-- The truncated binding separates the given values, as field elements. -/
def BindInjectiveOn (sponge : Sponge) (ctx : Ctx) (xs : List Digest) : Prop :=
  ∀ x ∈ xs, ∀ y ∈ xs, bound sponge ctx x = bound sponge ctx y → x.toElems = y.toElems

instance (sponge : Sponge) (ctx : Ctx) (xs : List Digest) :
    Decidable (BindInjectiveOn sponge ctx xs) :=
  inferInstanceAs (Decidable (∀ x ∈ xs, ∀ y ∈ xs, _ → _))

/-- The used slots of the record are the spent nullifiers, bound one by one. -/
def SlotsBindSpent
    (sponge : Sponge)
    (ctx : Ctx)
    (record : AnchorRecord)
    (st : NodeStatement) : Prop :=
  record.usedSlots.Perm (st.spent.map (bound sponge ctx))

/-- Binding the same field elements gives the same multiset of payloads. -/
theorem perm_map_bound
    {ctx : Ctx}
    {xs ys : List Digest}
    (h : (xs.map Digest.toElems).Perm (ys.map Digest.toElems)) :
    (xs.map (bound sponge ctx)).Perm (ys.map (bound sponge ctx)) :=
  perm_map_of_perm_map (fun _ _ _ _ hxy => bound_congr sponge hxy) h

/-- The direct form puts the binding of each spent nullifier into its slot. -/
theorem slotsBindSpent_of_direct
    {ctx : Ctx}
    {st : NodeStatement}
    {p₀ p₁ : TruncatedDigest}
    (hdirect : directMatch sponge ctx st p₀ p₁ = true)
    (hzero : ∀ nf ∈ st.spent, bound sponge ctx nf ≠ TruncatedDigest.zero) :
    SlotsBindSpent sponge ctx (.xfer p₀ p₁) st := by
  simp only [directMatch, NodeStatement.nullifiers, List.zip_cons_cons, List.zip_nil_left,
    List.all_cons, List.all_nil, Bool.and_true, Bool.and_eq_true] at hdirect
  obtain ⟨h₀, h₁⟩ := hdirect
  unfold SlotsBindSpent
  simp only [NodeStatement.spent, NodeStatement.nullifiers] at hzero ⊢
  by_cases hn₀ : st.nullifier₀ = Digest.zero
  · have hp₀ : p₀ = TruncatedDigest.zero := by
      simpa [hn₀] using h₀
    by_cases hn₁ : st.nullifier₁ = Digest.zero
    · have hp₁ : p₁ = TruncatedDigest.zero := by
        simpa [hn₁] using h₁
      simp [AnchorRecord.usedSlots, hn₀, hn₁, hp₀, hp₁]
    · have hp₁ : bound sponge ctx st.nullifier₁ = p₁ := by
        simpa [hn₁] using h₁
      have hne₁ : p₁ ≠ TruncatedDigest.zero :=
        hp₁ ▸ hzero _ (by simp [hn₁])
      simp [AnchorRecord.usedSlots, hn₀, hn₁, hp₀, hp₁, hne₁]
  · have hp₀ : bound sponge ctx st.nullifier₀ = p₀ := by
      simpa [hn₀] using h₀
    have hne₀ : p₀ ≠ TruncatedDigest.zero :=
      hp₀ ▸ hzero _ (by simp [hn₀])
    by_cases hn₁ : st.nullifier₁ = Digest.zero
    · have hp₁ : p₁ = TruncatedDigest.zero := by
        simpa [hn₁] using h₁
      simp [AnchorRecord.usedSlots, hn₀, hn₁, hp₀, hp₁, hne₀]
    · have hp₁ : bound sponge ctx st.nullifier₁ = p₁ := by
        simpa [hn₁] using h₁
      have hne₁ : p₁ ≠ TruncatedDigest.zero :=
        hp₁ ▸ hzero _ (by simp [hn₁])
      simp [AnchorRecord.usedSlots, hn₀, hn₁, hp₀, hp₁, hne₀, hne₁]

/-- The adapter's direct form, with no nullifier bound to the zero payload. -/
structure DirectForm
    (sponge : Sponge)
    (ctx : Ctx)
    (st : NodeStatement)
    (p₀ p₁ : TruncatedDigest) : Prop where
  direct : directMatch sponge ctx st p₀ p₁ = true
  nonzero : ∀ nf ∈ st.spent, bound sponge ctx nf ≠ TruncatedDigest.zero

/-- Under `ctx` the list commitment is bound to the payload of a list member. -/
def CommitsToItself (sponge : Sponge) (ctx : Ctx) (st : NodeStatement) : Prop :=
  ∃ nf ∈ st.spent,
    bound sponge ctx nf = bound sponge ctx (nullifierCommit sponge st.nullifiers)

/-- A slot per spent nullifier rules out the compressed form, up to a collision. -/
theorem directForm_of_slotsBindSpent
    {ctx : Ctx}
    {st : NodeStatement}
    {p₀ p₁ : TruncatedDigest}
    (hused : (AnchorRecord.xfer p₀ p₁).usedSlots ≠ [])
    (hform : directMatch sponge ctx st p₀ p₁ = true ∨
      compressedMatch sponge ctx st p₀ p₁ = true)
    (hslots : SlotsBindSpent sponge ctx (.xfer p₀ p₁) st) :
    DirectForm sponge ctx st p₀ p₁ ∨ CommitsToItself sponge ctx st := by
  rcases hform with hdirect | hcompressed
  · left
    refine ⟨hdirect, ?_⟩
    intro nf hnf hzero
    have hmem : bound sponge ctx nf ∈ (AnchorRecord.xfer p₀ p₁).usedSlots :=
      hslots.mem_iff.mpr (List.mem_map_of_mem hnf)
    simp [AnchorRecord.usedSlots, hzero] at hmem
  · right
    simp only [compressedMatch, Bool.and_eq_true, beq_iff_eq] at hcompressed
    obtain ⟨hp₁, hp₀⟩ := hcompressed
    by_cases hne : p₀ = TruncatedDigest.zero
    · exact absurd (by simp [AnchorRecord.usedSlots, hp₁, hne]) hused
    · have hmem : p₀ ∈ (AnchorRecord.xfer p₀ p₁).usedSlots := by
        simp [AnchorRecord.usedSlots, hne]
      obtain ⟨nf, hnf, hbound⟩ := List.mem_map.mp (hslots.mem_iff.mp hmem)
      exact ⟨nf, hnf, hbound.trans hp₀.symm⟩

/--
At a payload that parses as a transfer, the nullifiers a matching transfer proof
spends are the consignment's nullifiers, up to order, exactly when the slots
bind them one by one.  This is the adapter's direct form; its compressed form
only qualifies when a list commitment collides with a member of its own list.
-/
theorem spent_perm_nullifiers_iff
    {b : Bytes 64}
    {p₀ p₁ : TruncatedDigest}
    {ctx : Ctx}
    {nfs : List Digest}
    {openings : List CoinOpening}
    {st : NodeStatement}
    (hxfer : AnchorRecord.fromBytes b = .xfer p₀ p₁)
    (hbinds : recordBindsNullifiers sponge (AnchorRecord.fromBytes b) ctx nfs = true)
    (hmatch : statementMatchesPublicInput sponge .transfer st
      (publicInput (AnchorRecord.fromBytes b) ctx openings) = true)
    (hinj : BindInjectiveOn sponge ctx (st.spent ++ nfs)) :
    ((st.spent.map Digest.toElems).Perm (nfs.map Digest.toElems) ↔
      SlotsBindSpent sponge ctx (AnchorRecord.fromBytes b) st) ∧
    (DirectForm sponge ctx st p₀ p₁ →
      SlotsBindSpent sponge ctx (AnchorRecord.fromBytes b) st) ∧
    (SlotsBindSpent sponge ctx (AnchorRecord.fromBytes b) st →
      DirectForm sponge ctx st p₀ p₁ ∨ CommitsToItself sponge ctx st) := by
  rw [hxfer] at hbinds hmatch ⊢
  obtain ⟨-, hne, hslots⟩ := recordBindsNullifiers_xfer_iff.mp hbinds
  refine ⟨⟨?_, ?_⟩, ?_, ?_⟩
  · intro hperm
    exact hslots.trans (perm_map_bound hperm.symm)
  · intro hspent
    exact perm_map_of_perm_map hinj (hspent.symm.trans hslots)
  · intro hdirect
    exact slotsBindSpent_of_direct hdirect.direct hdirect.nonzero
  · intro hspent
    rw [statementMatchesPublicInput_publicInput] at hmatch
    obtain ⟨hp₀, hp₁⟩ := AnchorRecord.td_toBytes_xfer p₀ p₁
    have hform := (statementMatches_transfer hmatch).2
    rw [hp₀, hp₁] at hform
    refine directForm_of_slotsBindSpent ?_ hform hspent
    intro hnil
    rw [hnil] at hslots
    exact hne (List.map_eq_nil_iff.mp hslots.nil_eq.symm)

end Slots

namespace Sample

/-- A context under which the transfer's payload parses as a transfer. -/
def cleanCtx : Ctx := List.Vector.replicate 32 7

/-- The payload of a one-input transfer of the sample coin. -/
def transferPayload (ctx : Ctx) : Bytes 64 :=
  (AnchorRecord.xfer (bound foldSponge ctx nf) TruncatedDigest.zero).toBytes

def outputs : List Coin := [coin 50 3, coin 10 4]

/-- In direct form the consignment names what the proof spends. -/
theorem direct_form_names_spent :
    ((transferOf (coin 50 3) (coin 10 4)).spent.map Digest.toElems).Perm
      ([nf].map Digest.toElems) := by
  have hxfer : AnchorRecord.fromBytes (transferPayload cleanCtx) =
      .xfer (bound foldSponge cleanCtx nf) TruncatedDigest.zero := by
    decide +kernel
  have hbinds : recordBindsNullifiers foldSponge
      (AnchorRecord.fromBytes (transferPayload cleanCtx)) cleanCtx [nf] = true := by
    decide +kernel
  have hmatch : statementMatchesPublicInput foldSponge .transfer
      (transferOf (coin 50 3) (coin 10 4))
      (publicInput (AnchorRecord.fromBytes (transferPayload cleanCtx)) cleanCtx outputs) =
        true := by
    decide +kernel
  have hinj : BindInjectiveOn foldSponge cleanCtx
      ((transferOf (coin 50 3) (coin 10 4)).spent ++ [nf]) := by
    decide +kernel
  have hdirect : DirectForm foldSponge cleanCtx (transferOf (coin 50 3) (coin 10 4))
      (bound foldSponge cleanCtx nf) TruncatedDigest.zero := by
    constructor
    · decide +kernel
    · decide +kernel
  obtain ⟨hiff, hslots, -⟩ := spent_perm_nullifiers_iff hxfer hbinds hmatch hinj
  exact hiff.mpr (hslots hdirect)

/-- A two-input transfer, its payload in compressed form, and the list commitment. -/
def nf' : Digest := (coin 40 2).nullifier foldSponge osk

def twoInput : NodeStatement :=
  transferStatement foldSponge assetId nf nf' (coin 70 3) (coin 30 4)

def listCommit : Digest := nullifierCommit foldSponge [nf, nf']

def compressedPayload : Bytes 64 :=
  (AnchorRecord.xfer (bound foldSponge cleanCtx listCommit) TruncatedDigest.zero).toBytes

/--
A consignment that names the list commitment as its only nullifier binds the
record, and the adapter matches the two-input statement against the same record.
-/
theorem compressed_form_hides_spent :
    (AnchorRecord.fromBytes compressedPayload).recordClass = .xfer ∧
    recordBindsNullifiers foldSponge (AnchorRecord.fromBytes compressedPayload) cleanCtx
      [listCommit] = true ∧
    statementMatchesPublicInput foldSponge .transfer twoInput
      (publicInput (AnchorRecord.fromBytes compressedPayload) cleanCtx
        [coin 70 3, coin 30 4]) = true ∧
    BindInjectiveOn foldSponge cleanCtx (twoInput.spent ++ [listCommit]) ∧
    ListCommitInjective foldSponge cleanCtx twoInput.nullifiers [listCommit] ∧
    ¬ (twoInput.spent.map Digest.toElems).Perm ([listCommit].map Digest.toElems) := by
  refine ⟨?_, ?_, ?_, ?_, ?_, ?_⟩
  · decide +kernel
  · decide +kernel
  · decide +kernel
  · decide +kernel
  · unfold ListCommitInjective
    decide +kernel
  · decide +kernel

end Sample

section Kind

variable {sponge : Sponge}

/-- The chain checks and an attested statement are enough for acceptance. -/
theorem acceptForPublicOwners_of_relation
    {π : Type}
    {engine : PcdEngine π}
    {chain : AnchorChain}
    {c : Consignment}
    {params : PublicOwnerAcceptParams}
    {accepted : AcceptedCoins}
    {record : AnchorRecord}
    {ctx : Ctx}
    {coin : CoinProof π}
    (hideal : engine.Ideal sponge)
    (hchain : acceptForPublicOwners sponge c chain anyProof params = .ok accepted)
    (hproof : chain.proofRecordAt c.anchorRef c.nullifiers = some record)
    (hctx : chain.ctxAt c.anchorRef = some ctx)
    (hvk : params.vk = coinVkTag)
    (hcoin : engine.decodeCoinProof c.proof = some coin)
    (hversion : coin.version = coinProofVersion)
    (hmatch : statementMatches sponge coin.mode coin.statement ctx record.toBytes
      c.coinOpenings = true)
    (hrel : CoinRelation sponge coin.version coin.mode coin.statement) :
    acceptForPublicOwners sponge c chain (coinProofVerifier sponge engine) params =
      .ok accepted := by
  refine acceptForPublicOwners_of_verify hchain hproof hctx ?_
  exact coinProofVerifier_verify_iff.mpr
    ⟨hvk, coin, hcoin, hversion, hmatch, (hideal _ coin).mpr hrel⟩

/--
A chain view over 64-byte payloads.  Solo anchors hand out the parsed record as
the proof record; a batch member is handed out as the one-slot transfer of the
single nullifier it was asked for.
-/
structure ParsedChain (sponge : Sponge) (chain : AnchorChain) : Prop where
  parsed : ∀ {ref : AnchorRef} {record : AnchorRecord},
    chain.anchorAt ref = some record → ∃ b, record = AnchorRecord.fromBytes b
  solo : ∀ {ref : AnchorRef} {record proofRecord : AnchorRecord} {nfs : List Digest},
    chain.anchorAt ref = some record → record.recordClass ≠ .batch →
    chain.proofRecordAt ref nfs = some proofRecord → proofRecord = record
  member : ∀ {ref : AnchorRef} {record proofRecord : AnchorRecord} {ctx : Ctx}
      {nfs : List Digest},
    chain.anchorAt ref = some record → record.recordClass = .batch →
    chain.ctxAt ref = some ctx → chain.proofRecordAt ref nfs = some proofRecord →
    ∃ nf, nfs = [nf] ∧ proofRecord = .xfer (bound sponge ctx nf) TruncatedDigest.zero

/-- Appending a parsed record keeps a log of parsed records. -/
theorem MockAnchorChain.parsed_append
    {chain : MockAnchorChain}
    {b : Bytes 64}
    {ctx : Ctx}
    (h : ∀ e ∈ chain.entries, ∃ b, e.record = AnchorRecord.fromBytes b) :
    ∀ e ∈ (chain.appendWithCtx sponge (AnchorRecord.fromBytes b) ctx).1.entries,
      ∃ b, e.record = AnchorRecord.fromBytes b := by
  intro e he
  rcases List.mem_append.mp he with hold | hnew
  · exact h e hold
  · rw [List.mem_singleton.mp hnew]
    exact ⟨b, rfl⟩

/-- The in-memory chain is such a view when its records were parsed. -/
theorem MockAnchorChain.parsedChain
    {chain : MockAnchorChain}
    (h : ∀ e ∈ chain.entries, ∃ b, e.record = AnchorRecord.fromBytes b) :
    ParsedChain sponge (chain.toAnchorChain sponge) where
  parsed := by
    intro ref record hrecord
    simp only [toAnchorChain, Option.map_eq_some_iff] at hrecord
    obtain ⟨e, he, rfl⟩ := hrecord
    exact h e (List.mem_of_find?_eq_some he)
  solo := by
    intro ref record proofRecord nfs hrecord hclass hproof
    simp only [toAnchorChain] at hrecord hproof
    rw [hrecord] at hproof
    cases record <;>
      simp_all [AnchorChain.soloProofRecord, AnchorRecord.recordClass]
  member := by
    intro ref record proofRecord ctx nfs hrecord hclass _ hproof
    simp only [toAnchorChain] at hrecord hproof
    rw [hrecord] at hproof
    cases record <;>
      simp_all [AnchorChain.soloProofRecord, AnchorRecord.recordClass]

/-- A mint anchor carries a mint proof, and so on; batch members are transfers. -/
def KindAgrees (record : AnchorRecord) (mode : NodeMode) : Prop :=
  match record.recordClass with
  | .mint => mode = .mint
  | .redeem => mode = .redeem
  | .xfer | .batch => mode = .transfer

/-- The bytes have the shape of a record with the given tag and a value field. -/
def HasTag (tag : UInt8) (b : Bytes 64) : Prop :=
  b.head = tag ∧ b.padded 57 = true

/--
Tagged proofs sit on payloads with their tag, and transfer proofs on payloads
without a mint or redemption tag.
-/
def PayloadFitsMode (b : Bytes 64) : NodeMode → Prop
  | .mint => HasTag AnchorRecord.tagMint b
  | .redeem => HasTag AnchorRecord.tagRedeem b
  | .transfer => ¬ HasTag AnchorRecord.tagMint b ∧ ¬ HasTag AnchorRecord.tagRedeem b

/-- Parsing decides the kind from the tag bytes. -/
theorem kindAgrees_fromBytes_iff
    {b : Bytes 64}
    {mode : NodeMode} :
    KindAgrees (AnchorRecord.fromBytes b) mode ↔ PayloadFitsMode b mode := by
  have htags : AnchorRecord.tagMint ≠ AnchorRecord.tagRedeem := by
    decide
  unfold AnchorRecord.fromBytes
  split_ifs with hmint hredeem hbatch
  · cases mode <;>
      simp_all [KindAgrees, AnchorRecord.recordClass, PayloadFitsMode, HasTag]
  · have hmint' : ¬ HasTag AnchorRecord.tagMint b := hmint
    cases mode <;>
      simp_all [KindAgrees, AnchorRecord.recordClass, PayloadFitsMode, HasTag]
  · have hmint' : ¬ HasTag AnchorRecord.tagMint b := hmint
    have hredeem' : ¬ HasTag AnchorRecord.tagRedeem b := hredeem
    cases mode <;>
      simp [KindAgrees, AnchorRecord.recordClass, PayloadFitsMode, hmint', hredeem']
  · have hmint' : ¬ HasTag AnchorRecord.tagMint b := hmint
    have hredeem' : ¬ HasTag AnchorRecord.tagRedeem b := hredeem
    cases mode <;>
      simp [KindAgrees, AnchorRecord.recordClass, PayloadFitsMode, hmint', hredeem']

/-- Every nullifier a transfer proof spends was queried, and first occurs here. -/
def SpentQueried
    (sponge : Sponge)
    (chain : AnchorChain)
    (record : AnchorRecord)
    (nfs : List Digest)
    (anchor : AnchorLocation)
    (mode : NodeMode)
    (st : NodeStatement) : Prop :=
  mode = .transfer → ∀ nf ∈ st.spent, ∃ key ∈ occurrenceKeys sponge record nfs,
    key.toElems = nf.toElems ∧ chain.firstNullifierOccurrence key = some anchor

/-- Every nullifier a transfer proof spends has a slot of its own in the proof record. -/
def SpentHasSlot
    (sponge : Sponge)
    (ctx : Ctx)
    (proofRecord : AnchorRecord)
    (mode : NodeMode)
    (st : NodeStatement) : Prop :=
  mode = .transfer → ∀ nf ∈ st.spent, bound sponge ctx nf ∈ proofRecord.usedSlots

/-- On a parsed chain an untagged anchor is keyed by the nullifiers themselves. -/
theorem occurrenceKeys_of_transfer
    {b : Bytes 64}
    (hkind : KindAgrees (AnchorRecord.fromBytes b) .transfer)
    (nfs : List Digest) :
    occurrenceKeys sponge (AnchorRecord.fromBytes b) nfs = nfs := by
  have hcompressed := AnchorRecord.fromBytes_isXferCompressed b
  cases hrecord : AnchorRecord.fromBytes b <;>
    simp_all [occurrenceKeys, KindAgrees, AnchorRecord.recordClass,
      AnchorRecord.isXferCompressed]

/-- The proof record of a parsed chain is never a compressed transfer. -/
theorem ParsedChain.proofRecord_isXferCompressed
    {chain : AnchorChain}
    {ref : AnchorRef}
    {record proofRecord : AnchorRecord}
    {ctx : Ctx}
    {nfs : List Digest}
    (h : ParsedChain sponge chain)
    (hrecord : chain.anchorAt ref = some record)
    (hctx : chain.ctxAt ref = some ctx)
    (hproof : chain.proofRecordAt ref nfs = some proofRecord) :
    proofRecord.isXferCompressed = false := by
  by_cases hclass : record.recordClass = .batch
  · obtain ⟨nf, -, rfl⟩ := h.member hrecord hclass hctx hproof
    rfl
  · obtain rfl := h.solo hrecord hclass hproof
    obtain ⟨b, rfl⟩ := h.parsed hrecord
    exact AnchorRecord.fromBytes_isXferCompressed b

/--
On a chain of parsed payloads, the kind of an accepted record agrees with the
mode of its proof, and every nullifier a transfer proof spends was queried,
exactly when the payload bytes fit the mode and every spent nullifier has a slot.
-/
theorem acceptedKind_agrees_iff
    {π : Type}
    {engine : PcdEngine π}
    {chain : AnchorChain}
    {c : Consignment}
    {params : PublicOwnerAcceptParams}
    {accepted : AcceptedCoins}
    {b : Bytes 64}
    {ctx : Ctx}
    {proofRecord : AnchorRecord}
    (hchain : ParsedChain sponge chain)
    (haccept : acceptForPublicOwners sponge c chain (coinProofVerifier sponge engine) params =
      .ok accepted)
    (hrecord : chain.anchorAt c.anchorRef = some (AnchorRecord.fromBytes b))
    (hctx : chain.ctxAt c.anchorRef = some ctx)
    (hproof : chain.proofRecordAt c.anchorRef c.nullifiers = some proofRecord) :
    ∃ coin, engine.decodeCoinProof c.proof = some coin ∧
      engine.verifyCoinProof coin.statement coin = true ∧
      (BindInjectiveOn sponge ctx (coin.statement.spent ++ c.nullifiers) →
        ((KindAgrees (AnchorRecord.fromBytes b) coin.mode ∧
          SpentQueried sponge chain (AnchorRecord.fromBytes b) c.nullifiers accepted.anchor
            coin.mode coin.statement)
          ↔
        (PayloadFitsMode b coin.mode ∧
          SpentHasSlot sponge ctx proofRecord coin.mode coin.statement))) := by
  obtain ⟨r, q, ctx', f⟩ := acceptForPublicOwners_ok_iff.mp haccept
  obtain rfl : AnchorRecord.fromBytes b = r := Option.some.inj (hrecord.symm.trans f.anchorAt)
  obtain rfl : ctx = ctx' := Option.some.inj (hctx.symm.trans f.ctxAt)
  obtain rfl : proofRecord = q := Option.some.inj (hproof.symm.trans f.proofRecordAt)
  have hslots : proofRecord.usedSlots.Perm (c.nullifiers.map (bound sponge ctx)) :=
    usedSlots_perm_of_binds
      (hchain.proofRecord_isXferCompressed hrecord hctx hproof) f.binds
  obtain ⟨-, coin, hcoin, -, -, hverify⟩ := coinProofVerifier_verify_iff.mp f.verify
  refine ⟨coin, hcoin, hverify, ?_⟩
  intro hinj
  rw [← kindAgrees_fromBytes_iff]
  refine and_congr_right ?_
  intro hkind
  unfold SpentQueried SpentHasSlot
  refine forall_congr' ?_
  intro hmode
  rw [hmode] at hkind
  have hkeys : occurrenceKeys sponge (AnchorRecord.fromBytes b) c.nullifiers = c.nullifiers :=
    occurrenceKeys_of_transfer hkind c.nullifiers
  have hfirst := f.first
  rw [hkeys] at hfirst ⊢
  constructor
  · intro hqueried nf hnf
    obtain ⟨key, hkey, helems, -⟩ := hqueried nf hnf
    rw [hslots.mem_iff, ← bound_congr sponge helems]
    exact List.mem_map_of_mem hkey
  · intro hslot nf hnf
    obtain ⟨key, hkey, hbound⟩ := List.mem_map.mp (hslots.mem_iff.mp (hslot nf hnf))
    refine ⟨key, hkey, ?_, hfirst key hkey⟩
    exact hinj key (List.mem_append_right _ hkey) nf (List.mem_append_left _ hnf) hbound

end Kind

namespace Sample

/-- A context ground until the bound nullifier starts with the mint tag. -/
def groundCtx : Ctx := ⟨List.replicate 30 7 ++ [86, 0], rfl⟩

/-- One anchor under the given context, parsed from the transfer's payload. -/
def transferChain (ctx : Ctx) : MockAnchorChain × AnchorRef :=
  MockAnchorChain.new.appendWithCtx foldSponge
    (AnchorRecord.fromBytes (transferPayload ctx)) ctx

/-- The envelope of the transfer proof. -/
def transferEnvelope (payload : List UInt8) : Option (NodeMode × NodeStatement × List UInt8) :=
  if payload = [0] then
    some (.transfer, transferOf (coin 50 3) (coin 10 4), [])
  else
    none

noncomputable def transferEngine : PcdEngine Unit :=
  idealEngine foldSponge transferEnvelope

/-- A consignment of the transfer that names the given nullifiers. -/
def transferConsignment (ctx : Ctx) (nfs : List Digest) : Consignment where
  coinOpenings := outputs
  nullifiers := nfs
  proof := proofBytes 0
  anchorRef := (transferChain ctx).2
  aux := none

def transferCoin : CoinProof Unit :=
  ⟨coinProofVersion, .transfer, transferOf (coin 50 3) (coin 10 4), ()⟩

theorem decode_transferCoin :
    transferEngine.decodeCoinProof (proofBytes 0) = some transferCoin := by
  refine decode_proofBytes (rfl : transferEnvelope [0] = _) ?_
  decide +kernel

/-- The chain checks, and a match with the record, are enough for the transfer. -/
theorem accept_transferConsignment
    {chain : AnchorChain}
    {ctx : Ctx}
    {nfs : List Digest}
    {record : AnchorRecord}
    (hchain : acceptForPublicOwners foldSponge (transferConsignment ctx nfs) chain anyProof
      (params [osk.owner foldSponge]) = .ok ⟨outputs, ⟨0, 0⟩⟩)
    (hproof : chain.proofRecordAt (transferConsignment ctx nfs).anchorRef nfs = some record)
    (hctx : chain.ctxAt (transferConsignment ctx nfs).anchorRef = some ctx)
    (hmatch : statementMatches foldSponge .transfer (transferOf (coin 50 3) (coin 10 4)) ctx
      record.toBytes outputs = true) :
    acceptForPublicOwners foldSponge (transferConsignment ctx nfs) chain
      (coinProofVerifier foldSponge transferEngine) (params [osk.owner foldSponge]) =
        .ok ⟨outputs, ⟨0, 0⟩⟩ :=
  acceptForPublicOwners_of_relation (idealEngine_ideal foldSponge transferEnvelope) hchain
    hproof hctx rfl decode_transferCoin rfl hmatch (transferOf_mem rfl rfl rfl)

/--
Under the ground context the transfer's payload parses as a mint.  The driver
accepts the transfer proof there for a consignment without nullifiers, and so
queries nothing, although the proof spends a coin.
-/
theorem mintPayload_hides_transfer :
    acceptForPublicOwners foldSponge (transferConsignment groundCtx [])
      ((transferChain groundCtx).1.toAnchorChain foldSponge)
      (coinProofVerifier foldSponge transferEngine) (params [osk.owner foldSponge]) =
        .ok ⟨outputs, ⟨0, 0⟩⟩ ∧
    ((transferChain groundCtx).1.toAnchorChain foldSponge).anchorAt
        (transferChain groundCtx).2 =
      some (AnchorRecord.fromBytes (transferPayload groundCtx)) ∧
    (AnchorRecord.fromBytes (transferPayload groundCtx)).recordClass = .mint ∧
    transferEngine.decodeCoinProof (transferConsignment groundCtx []).proof =
      some transferCoin ∧
    transferCoin.mode = .transfer ∧
    transferCoin.statement.spent = [nf] ∧
    occurrenceKeys foldSponge (AnchorRecord.fromBytes (transferPayload groundCtx)) [] = [] := by
  refine ⟨?_, ?_, ?_, decode_transferCoin, rfl, ?_, ?_⟩
  · have hchain : acceptForPublicOwners foldSponge (transferConsignment groundCtx [])
        ((transferChain groundCtx).1.toAnchorChain foldSponge) anyProof
        (params [osk.owner foldSponge]) = .ok ⟨outputs, ⟨0, 0⟩⟩ := by
      decide +kernel
    have hproof : ((transferChain groundCtx).1.toAnchorChain foldSponge).proofRecordAt
        (transferChain groundCtx).2 [] =
          some (AnchorRecord.fromBytes (transferPayload groundCtx)) := by
      decide +kernel
    have hctx : ((transferChain groundCtx).1.toAnchorChain foldSponge).ctxAt
        (transferChain groundCtx).2 = some groundCtx := by
      decide +kernel
    exact accept_transferConsignment hchain hproof hctx (by decide +kernel)
  · decide +kernel
  · decide +kernel
  · decide +kernel
  · decide +kernel

/-- The same transfer at a payload that parses as a transfer is queried. -/
theorem cleanPayload_queries_transfer :
    KindAgrees (AnchorRecord.fromBytes (transferPayload cleanCtx)) transferCoin.mode ∧
    SpentQueried foldSponge ((transferChain cleanCtx).1.toAnchorChain foldSponge)
      (AnchorRecord.fromBytes (transferPayload cleanCtx)) [nf] ⟨0, 0⟩
      transferCoin.mode transferCoin.statement := by
  have hparsed : ∀ e ∈ (transferChain cleanCtx).1.entries,
      ∃ b, e.record = AnchorRecord.fromBytes b := by
    apply MockAnchorChain.parsed_append
    intro e he
    cases he
  have hrecord : ((transferChain cleanCtx).1.toAnchorChain foldSponge).anchorAt
      (transferChain cleanCtx).2 =
        some (AnchorRecord.fromBytes (transferPayload cleanCtx)) := by
    decide +kernel
  have hproof : ((transferChain cleanCtx).1.toAnchorChain foldSponge).proofRecordAt
      (transferChain cleanCtx).2 [nf] =
        some (AnchorRecord.fromBytes (transferPayload cleanCtx)) := by
    decide +kernel
  have hctx : ((transferChain cleanCtx).1.toAnchorChain foldSponge).ctxAt
      (transferChain cleanCtx).2 = some cleanCtx := by
    decide +kernel
  have hchain : acceptForPublicOwners foldSponge (transferConsignment cleanCtx [nf])
      ((transferChain cleanCtx).1.toAnchorChain foldSponge) anyProof
      (params [osk.owner foldSponge]) = .ok ⟨outputs, ⟨0, 0⟩⟩ := by
    decide +kernel
  have haccept := accept_transferConsignment hchain hproof hctx (by decide +kernel)
  obtain ⟨coin, hcoin, -, hiff⟩ := acceptedKind_agrees_iff
    (MockAnchorChain.parsedChain hparsed) haccept hrecord hctx hproof
  obtain rfl : transferCoin = coin := Option.some.inj (decode_transferCoin.symm.trans hcoin)
  refine (hiff ?_).mpr ⟨?_, ?_⟩
  · decide +kernel
  · show ¬ (_ ∧ _) ∧ ¬ (_ ∧ _)
    decide +kernel
  · intro _
    decide +kernel

end Sample

end OpenCsv
