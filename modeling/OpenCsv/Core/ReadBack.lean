import OpenCsv.Core.KernelAgreement

/-!
# Records that are read back from their bytes

A backend that stores the 64 bytes of an anchor parses them again.  Compressed and
plain transfers share one layout, and the parse of both is the plain transfer, while
acceptance looks at the kind of the record: it compares the slot of a compressed
transfer with the commitment to the nullifiers, and the slots of a plain one with the
nullifiers themselves.

**Result.** `accept_readBack_iff`: reading one record of a chain back changes no answer
exactly when the consignments that reach the binding check at a compressed transfer are
bound in neither of the two readings.
-/

namespace OpenCsv

open AcceptKernel

section Entries

/-- The same anchor with its record parsed from its bytes. -/
def MockEntry.readBack (e : MockEntry) : MockEntry :=
  { e with record := AnchorRecord.fromBytes e.record.toBytes }

/-- The same chain with one entry read back. -/
def MockAnchorChain.readBack (c : MockAnchorChain) (i : ℕ) : MockAnchorChain :=
  { c with entries := c.entries.modify i MockEntry.readBack }

/-- A reference resolves to the entry with an index. -/
def MockAnchorChain.Names (c : MockAnchorChain) (ref : AnchorRef) (i : ℕ) : Prop :=
  c.entries.findIdx? (fun e => e.location == ref.location && e.txid == ref.txid) = some i

/-- A search that does not see what an update changes finds the same place. -/
theorem find?_modify_map
    {α β : Type}
    {p : α → Bool}
    {f : α → α}
    {g : α → β}
    {xs : List α}
    {i : ℕ}
    (h : ∀ x, xs[i]? = some x → p (f x) = p x ∧ g (f x) = g x) :
    ((xs.modify i f).find? p).map g = (xs.find? p).map g := by
  induction xs generalizing i with
  | nil =>
      simp
  | cons x xs ih =>
      cases i with
      | zero =>
          obtain ⟨hp, hg⟩ := h x rfl
          rw [List.modify_zero_cons, List.find?_cons, List.find?_cons, hp]
          cases p x with
          | true => simp [hg]
          | false => rfl
      | succ i =>
          rw [List.modify_succ_cons, List.find?_cons, List.find?_cons]
          cases p x with
          | true => rfl
          | false => exact ih h

/-- A search finds the updated entry, or an entry that was not updated. -/
theorem find?_modify
    {α : Type}
    {p : α → Bool}
    {f : α → α}
    {xs : List α}
    {i : ℕ}
    (h : ∀ x, xs[i]? = some x → p (f x) = p x) :
    (xs.modify i f).find? p =
      if xs.findIdx? p = some i then (xs.find? p).map f else xs.find? p := by
  induction xs generalizing i with
  | nil =>
      simp
  | cons x xs ih =>
      rw [List.findIdx?_cons, List.find?_cons]
      cases i with
      | zero =>
          rw [List.modify_zero_cons, List.find?_cons, h x rfl]
          cases p x with
          | true => simp
          | false => simp
      | succ i =>
          rw [List.modify_succ_cons, List.find?_cons, ih h]
          cases p x with
          | true => simp
          | false => simp

/-- A compressed transfer has the bytes of a plain one with an empty second slot. -/
theorem AnchorRecord.toBytes_xferCompressed
    (p : TruncatedDigest) :
    toBytes (.xferCompressed p) = toBytes (.xfer p TruncatedDigest.zero) := by
  apply Bytes.ext_toList
  show p.bytes.toList ++ List.replicate 40 0 =
    p.bytes.toList ++ (List.replicate 24 0 ++ List.replicate 16 0)
  rw [List.replicate_append_replicate]

/-- A compressed transfer that parses cleanly is read back as a plain one. -/
theorem AnchorRecord.fromBytes_toBytes_xferCompressed
    {p : TruncatedDigest}
    (hclean : parsesCleanly (.xferCompressed p) = true) :
    fromBytes (toBytes (.xferCompressed p)) = .xfer p TruncatedDigest.zero := by
  rw [toBytes_xferCompressed]
  refine fromBytes_toBytes_of_parsesCleanly ?_ (by simp)
  unfold parsesCleanly at hclean ⊢
  rw [toBytes_xferCompressed] at hclean
  exact hclean

/-- Parsing does not change the bytes of a record that parses cleanly. -/
theorem AnchorRecord.toBytes_fromBytes_toBytes
    {r : AnchorRecord}
    (hclean : r.parsesCleanly = true) :
    toBytes (fromBytes r.toBytes) = r.toBytes := by
  cases hkind : r.isXferCompressed with
  | false =>
      rw [fromBytes_toBytes_of_parsesCleanly hclean]
      rintro p rfl
      cases hkind
  | true =>
      cases r with
      | xferCompressed p =>
          rw [fromBytes_toBytes_xferCompressed hclean, toBytes_xferCompressed]
      | _ => cases hkind

end Entries

section Acceptance

variable {sponge : Sponge}
variable {c : Consignment}
variable {chain : MockAnchorChain}
variable {verifier : ProofVerifier}
variable {params : PublicOwnerAcceptParams}
variable {i : ℕ}
variable {e : MockEntry}

/-- The driver gets to the binding check of a consignment at an entry. -/
structure ReachesBinding
    (sponge : Sponge)
    (c : Consignment)
    (chain : MockAnchorChain)
    (verifier : ProofVerifier)
    (params : PublicOwnerAcceptParams)
    (e : MockEntry) : Prop where
  preflight : preflightRejection (!c.coinOpenings.isEmpty)
    (assetObservation sponge c.coinOpenings c.aux params.knownAssets) = none
  distinct : nullifiersAreDistinct c.nullifiers = true
  proof : verifier.verify params.vk (publicInput e.record e.ctx c.coinOpenings) c.proof = true
  depth : params.requiredConfirmations ≤
    AnchorChain.depthBelow chain.tipHeight c.anchorRef.location.height

theorem MockAnchorChain.find_of_names
    (hnames : chain.Names c.anchorRef i)
    (he : chain.entries[i]? = some e) :
    chain.find c.anchorRef = some e := by
  unfold find
  rw [List.find?_eq_bind_findIdx?_getElem?]
  unfold Names at hnames
  rw [hnames]
  exact he

/-- The updated entry is found under the references that named it before. -/
theorem MockAnchorChain.find_readBack
    (chain : MockAnchorChain)
    (i : ℕ)
    (ref : AnchorRef) :
    (chain.Names ref i ∧ (chain.readBack i).find ref = (chain.find ref).map MockEntry.readBack) ∨
      (¬ chain.Names ref i ∧ (chain.readBack i).find ref = chain.find ref) := by
  have hfind := @find?_modify _ (fun e : MockEntry =>
    e.location == ref.location && e.txid == ref.txid) MockEntry.readBack chain.entries i
      (fun _ _ => rfl)
  by_cases hnames : chain.Names ref i
  · refine Or.inl ⟨hnames, ?_⟩
    exact hfind.trans (if_pos hnames)
  · refine Or.inr ⟨hnames, ?_⟩
    exact hfind.trans (if_neg hnames)

/-- Reading back keeps what a record binds, unless a value is bound to the empty slot. -/
theorem AnchorRecord.wellFormed_readBack
    {r : AnchorRecord}
    {ctx : Ctx}
    {raw : Digest}
    (hclean : r.parsesCleanly = true)
    (hzero : bound sponge ctx raw ≠ TruncatedDigest.zero) :
    (fromBytes r.toBytes).wellFormed sponge ctx raw = r.wellFormed sponge ctx raw := by
  cases hkind : r.isXferCompressed with
  | false =>
      rw [fromBytes_toBytes_of_parsesCleanly hclean]
      rintro p rfl
      cases hkind
  | true =>
      cases r with
      | xferCompressed p =>
          have hslot : (TruncatedDigest.zero == bound sponge ctx raw) = false := by
            simpa using hzero.symm
          rw [fromBytes_toBytes_xferCompressed hclean]
          simp only [wellFormed, hslot, Bool.or_false]
      | _ => cases hkind

theorem MockAnchorChain.firstNullifierOccurrence_readBack
    {raw : Digest}
    (he : chain.entries[i]? = some e)
    (hclean : e.record.parsesCleanly = true)
    (hzero : bound sponge e.ctx raw ≠ TruncatedDigest.zero) :
    (chain.readBack i).firstNullifierOccurrence sponge raw =
      chain.firstNullifierOccurrence sponge raw := by
  rw [firstNullifierOccurrence_eq, firstNullifierOccurrence_eq]
  refine find?_modify_map ?_
  intro x hx
  obtain rfl : e = x := Option.some.inj (he.symm.trans hx)
  exact ⟨AnchorRecord.wellFormed_readBack hclean hzero, rfl⟩

/-- The checks of a consignment at an entry that is not a batch header. -/
theorem MockAnchorChain.accept_of_find
    (hfind : chain.find c.anchorRef = some e)
    (hsolo : AnchorChain.soloProofRecord (some e.record) = some e.record) :
    acceptForPublicOwners sponge c (chain.toAnchorChain sponge) verifier params =
      (preflightRejection (!c.coinOpenings.isEmpty)
        (assetObservation sponge c.coinOpenings c.aux params.knownAssets)).elim
        ((structureRejection (nullifiersAreDistinct c.nullifiers)).elim
          ((proofRejection (verifier.verify params.vk
            (publicInput e.record e.ctx c.coinOpenings) c.proof)).elim
            ((chainPrefixRejection
              (AnchorChain.depthBelow chain.tipHeight c.anchorRef.location.height)
              params.requiredConfirmations
              (recordBindsNullifiers sponge e.record e.ctx c.nullifiers)).elim
              ((occurrenceRejection c.anchorRef.location
                (observedOccurrences (chain.toAnchorChain sponge)
                  (occurrenceKeys sponge e.record c.nullifiers))).elim
                (if !(ownedCoins c params).isEmpty then
                  .ok ⟨ownedCoins c params, c.anchorRef.location⟩
                else .error .noOwnedOutput)
                .error) .error) .error) .error) .error := by
  refine accept_of_projected ?_ ?_ ?_ ?_
  · show (chain.find c.anchorRef).map MockEntry.record = _
    rw [hfind, Option.map_some]
  · show (chain.find c.anchorRef).map MockEntry.ctx = _
    rw [hfind, Option.map_some]
  · show (chain.find c.anchorRef).map (fun _ => c.anchorRef.location) = _
    rw [hfind, Option.map_some]
  · show AnchorChain.soloProofRecord ((chain.find c.anchorRef).map MockEntry.record) = _
    rw [hfind, Option.map_some, hsolo]

/-- An occurrence check never calls an anchor ill-formed. -/
theorem occurrenceRejection_ne_illFormed
    (location : AnchorLocation)
    (occurrences : List OccurrenceObservation) :
    occurrenceRejection location occurrences ≠ some .illFormedAnchor := by
  induction occurrences with
  | nil =>
      simp [occurrenceRejection]
  | cons o rest ih =>
      unfold occurrenceRejection
      cases o.first with
      | none => simp
      | some first =>
          split
          · rename_i heq
            cases heq
          · rename_i first' heq
            split_ifs
            · simp
            · exact ih

/-- What follows a passed binding check is never that the anchor is ill-formed. -/
theorem settled_ne_illFormed
    {location : AnchorLocation}
    {occurrences : List OccurrenceObservation}
    {coins : List Coin} :
    (occurrenceRejection location occurrences).elim
        (if !coins.isEmpty then Except.ok (AcceptedCoins.mk coins location)
        else .error .noOwnedOutput) .error ≠ .error .illFormedAnchor := by
  have hne := occurrenceRejection_ne_illFormed location occurrences
  cases hoccurrences : occurrenceRejection location occurrences with
  | none =>
      simp only [Option.elim_none]
      split_ifs
      · simp
      · simp
  | some reason =>
      rw [hoccurrences] at hne
      simpa using hne

theorem mem_commit_cons_of_mem_occurrenceKeys
    {record : AnchorRecord}
    {nfs : List Digest}
    {key : Digest}
    (h : key ∈ occurrenceKeys sponge record nfs) :
    key ∈ nullifierCommit sponge nfs :: nfs := by
  cases record with
  | mint a v m => cases h
  | xferCompressed p => exact List.mem_cons.mpr (Or.inl (List.mem_singleton.mp h))
  | xfer p₀ p₁ => exact List.mem_cons_of_mem _ h
  | batchHeader n b => exact List.mem_cons_of_mem _ h
  | redeem a v p => exact List.mem_cons_of_mem _ h

/-- A slot that binds the commitment of a list and the list itself is a collision. -/
theorem not_binds_both
    {ctx : Ctx}
    {p : TruncatedDigest}
    {nfs : List Digest}
    (hcommit : ∀ nf, nfs = [nf] →
      bound sponge ctx (nullifierCommit sponge [nf]) ≠ bound sponge ctx nf)
    (h : recordBindsNullifiers sponge (.xferCompressed p) ctx nfs = true) :
    recordBindsNullifiers sponge (.xfer p TruncatedDigest.zero) ctx nfs = false := by
  have hslot := recordBindsNullifiers_xferCompressed h
  by_contra hplain
  rw [Bool.not_eq_false, recordBindsNullifiers_xfer_iff] at hplain
  obtain ⟨-, hne, hperm⟩ := hplain
  have hlen : nfs.length ≤ 1 := by
    have hfilter : ((AnchorRecord.xfer p TruncatedDigest.zero).usedSlots).length ≤ 1 := by
      unfold AnchorRecord.usedSlots
      by_cases hp : p = TruncatedDigest.zero
      · simp [hp]
      · simp [hp]
    rw [hperm.length_eq, List.length_map] at hfilter
    exact hfilter
  obtain ⟨nf, rfl⟩ : ∃ nf, nfs = [nf] := by
    refine List.length_eq_one_iff.mp ?_
    have hpos := List.length_pos_iff.mpr hne
    omega
  have hmem : bound sponge ctx nf ∈ (AnchorRecord.xfer p TruncatedDigest.zero).usedSlots :=
    hperm.mem_iff.mpr (List.mem_singleton_self _)
  unfold AnchorRecord.usedSlots at hmem
  obtain ⟨hslots, hused⟩ := List.mem_filter.mp hmem
  rcases List.mem_cons.mp hslots with heq | hzero
  · exact hcommit nf rfl (hslot.trans heq.symm)
  · rw [List.mem_singleton.mp hzero] at hused
    simp at hused

/-- The answers at a compressed transfer and at its parse differ in the binding check. -/
theorem accept_readBack_compressed
    {p : TruncatedDigest}
    (hrecord : e.record = .xferCompressed p)
    (hclean : e.record.parsesCleanly = true)
    (hnames : chain.Names c.anchorRef i)
    (he : chain.entries[i]? = some e)
    (hcommit : ∀ nf, c.nullifiers = [nf] →
      bound sponge e.ctx (nullifierCommit sponge [nf]) ≠ bound sponge e.ctx nf) :
    acceptForPublicOwners sponge c ((chain.readBack i).toAnchorChain sponge) verifier params =
        acceptForPublicOwners sponge c (chain.toAnchorChain sponge) verifier params
      ↔
    (ReachesBinding sponge c chain verifier params e →
      recordBindsNullifiers sponge e.record e.ctx c.nullifiers = false ∧
        recordBindsNullifiers sponge e.readBack.record e.ctx c.nullifiers = false) := by
  have hfind := MockAnchorChain.find_of_names hnames he
  have hfind' : (chain.readBack i).find c.anchorRef = some e.readBack := by
    rcases chain.find_readBack i c.anchorRef with ⟨-, h⟩ | ⟨hnot, -⟩
    · rw [h, hfind, Option.map_some]
    · exact absurd hnames hnot
  have hparsed : e.readBack.record = .xfer p TruncatedDigest.zero := by
    show AnchorRecord.fromBytes e.record.toBytes = _
    rw [hrecord] at hclean ⊢
    exact AnchorRecord.fromBytes_toBytes_xferCompressed hclean
  have hinput : publicInput e.readBack.record e.readBack.ctx c.coinOpenings =
      publicInput e.record e.ctx c.coinOpenings := by
    have hbytes : e.readBack.record.toBytes = e.record.toBytes :=
      AnchorRecord.toBytes_fromBytes_toBytes hclean
    unfold publicInput
    rw [hbytes]
    rfl
  have hexclusive := @not_binds_both sponge e.ctx p _ hcommit
  rw [MockAnchorChain.accept_of_find hfind (by rw [hrecord]; rfl),
    MockAnchorChain.accept_of_find hfind' (by rw [hparsed]; rfl), hinput]
  show Option.elim _ (Option.elim _ (Option.elim _ (Option.elim (chainPrefixRejection
    (AnchorChain.depthBelow chain.tipHeight _) _ (recordBindsNullifiers sponge _ e.ctx _)) _ _)
      _) _) _ = _ ↔ _
  cases hpreflight : preflightRejection (!c.coinOpenings.isEmpty)
      (assetObservation sponge c.coinOpenings c.aux params.knownAssets) with
  | some reason =>
      refine iff_of_true rfl ?_
      intro hreaches
      have hnone := hreaches.preflight
      rw [hpreflight] at hnone
      cases hnone
  | none =>
      cases hdistinct : nullifiersAreDistinct c.nullifiers with
      | false =>
          refine iff_of_true rfl ?_
          intro hreaches
          have htrue := hreaches.distinct
          rw [hdistinct] at htrue
          cases htrue
      | true =>
          cases hproof : verifier.verify params.vk (publicInput e.record e.ctx c.coinOpenings)
              c.proof with
          | false =>
              refine iff_of_true rfl ?_
              intro hreaches
              have htrue := hreaches.proof
              rw [hproof] at htrue
              cases htrue
          | true =>
              by_cases hdepth : AnchorChain.depthBelow chain.tipHeight
                  c.anchorRef.location.height < params.requiredConfirmations
              · refine iff_of_true ?_ ?_
                · simp only [chainPrefixRejection, hdepth, if_true, Option.elim_some]
                · intro hreaches
                  exact absurd hdepth (UInt64.not_lt.mpr hreaches.depth)
              · have hreaches : ReachesBinding sponge c chain verifier params e :=
                  ⟨hpreflight, hdistinct, hproof, UInt64.not_lt.mp hdepth⟩
                rw [hrecord, hparsed]
                -- Past the depth check the answer is ill-formed exactly when the check fails.
                simp only [structureRejection, proofRejection, chainPrefixRejection, hdepth,
                  if_true, if_false, Option.elim_none, hreaches, true_imp_iff]
                cases hcompressed : recordBindsNullifiers sponge (.xferCompressed p) e.ctx
                    c.nullifiers with
                | true =>
                    rw [hexclusive hcompressed]
                    simp only [if_true, Bool.false_eq_true, if_false, Option.elim_none,
                      Option.elim_some, Bool.true_eq_false, false_and, iff_false]
                    exact fun heq => settled_ne_illFormed heq.symm
                | false =>
                    cases hplain : recordBindsNullifiers sponge (.xfer p TruncatedDigest.zero)
                        e.ctx c.nullifiers with
                    | true =>
                        simp only [if_true, Bool.false_eq_true, if_false, Option.elim_none,
                          Option.elim_some, Bool.true_eq_false, and_false, iff_false]
                        exact fun heq => settled_ne_illFormed heq
                    | false =>
                        simp

/--
Reading the record of one entry back keeps the answer about a consignment exactly when,
at a compressed transfer it names and where it reaches the binding check, the record
binds its nullifiers in neither of the two readings.
-/
theorem accept_readBack_iff
    (he : chain.entries[i]? = some e)
    (hclean : e.record.parsesCleanly = true)
    (hzero : ∀ raw ∈ nullifierCommit sponge c.nullifiers :: c.nullifiers,
      bound sponge e.ctx raw ≠ TruncatedDigest.zero)
    (hcommit : ∀ nf, c.nullifiers = [nf] →
      bound sponge e.ctx (nullifierCommit sponge [nf]) ≠ bound sponge e.ctx nf) :
    acceptForPublicOwners sponge c ((chain.readBack i).toAnchorChain sponge) verifier params =
        acceptForPublicOwners sponge c (chain.toAnchorChain sponge) verifier params
      ↔
    (e.record.isXferCompressed = true → chain.Names c.anchorRef i →
      ReachesBinding sponge c chain verifier params e →
        recordBindsNullifiers sponge e.record e.ctx c.nullifiers = false ∧
          recordBindsNullifiers sponge e.readBack.record e.ctx c.nullifiers = false) := by
  have hfirst : ∀ record, ∀ key ∈ occurrenceKeys sponge record c.nullifiers,
      (chain.readBack i).firstNullifierOccurrence sponge key =
        chain.firstNullifierOccurrence sponge key := by
    intro record key hkey
    exact MockAnchorChain.firstNullifierOccurrence_readBack he hclean
      (hzero key (mem_commit_cons_of_mem_occurrenceKeys hkey))
  -- When the named entry stays as it is, so does the answer.
  have hsame : (chain.readBack i).find c.anchorRef = chain.find c.anchorRef →
      acceptForPublicOwners sponge c ((chain.readBack i).toAnchorChain sponge) verifier params =
        acceptForPublicOwners sponge c (chain.toAnchorChain sponge) verifier params := by
    intro hfind
    refine accept_congr ?_ ?_ ?_ ?_ (fun _ _ => rfl) (fun record _ => hfirst record)
    · show ((chain.readBack i).find c.anchorRef).map MockEntry.record = _
      rw [hfind]
      rfl
    · show ((chain.readBack i).find c.anchorRef).map MockEntry.ctx = _
      rw [hfind]
      rfl
    · show ((chain.readBack i).find c.anchorRef).map (fun _ => c.anchorRef.location) = _
      rw [hfind]
      rfl
    · show AnchorChain.soloProofRecord
        (((chain.readBack i).find c.anchorRef).map MockEntry.record) = _
      rw [hfind]
      rfl
  rcases chain.find_readBack i c.anchorRef with ⟨hnames, hfind⟩ | ⟨hnames, hfind⟩
  · cases hkind : e.record.isXferCompressed with
    | false =>
        refine iff_of_true (hsame ?_) (by simp)
        have hparsed : e.readBack = e := by
          unfold MockEntry.readBack
          rw [AnchorRecord.fromBytes_toBytes_of_parsesCleanly hclean]
          rintro p hp
          rw [hp] at hkind
          cases hkind
        rw [hfind, MockAnchorChain.find_of_names hnames he, Option.map_some, hparsed]
    | true =>
        obtain ⟨p, hrecord⟩ : ∃ p, e.record = .xferCompressed p := by
          cases hrecord : e.record with
          | xferCompressed p => exact ⟨p, rfl⟩
          | _ => simp [hrecord, AnchorRecord.isXferCompressed] at hkind
        rw [accept_readBack_compressed hrecord hclean hnames he hcommit]
        simp [hnames]
  · exact iff_of_true (hsame hfind) (fun _ h => absurd h hnames)

end Acceptance

namespace MockSpend

/-- The compressed transfer of three nullifiers, with its depth. -/
def listChain : MockAnchorChain := listAppended.1.advanceBlocks 5

/-- An accepted transfer of three nullifiers is refused once its record is read back. -/
theorem listSpend_refused_when_read_back :
    listRecord.parsesCleanly = true ∧
      acceptForPublicOwners foldSponge listSpend (listChain.toAnchorChain foldSponge)
        MockVerifier.mockVerifier (params 21) = .ok ⟨[coinTo 21], ⟨0, 0⟩⟩ ∧
      acceptForPublicOwners foldSponge listSpend
        ((listChain.readBack 0).toAnchorChain foldSponge) MockVerifier.mockVerifier (params 21) =
          .error .illFormedAnchor := by
  refine ⟨?_, ?_, ?_⟩
  · decide +kernel
  · decide +kernel
  · decide +kernel

/-- A plain transfer is read back as it was. -/
theorem first_accepted_when_read_back :
    acceptForPublicOwners foldSponge first ((chain.readBack 0).toAnchorChain foldSponge)
        MockVerifier.mockVerifier (params 21) =
      acceptForPublicOwners foldSponge first (chain.toAnchorChain foldSponge)
        MockVerifier.mockVerifier (params 21) := by
  have he : chain.entries[0]? = some (chain.entries.head (by decide +kernel)) := by
    decide +kernel
  refine (accept_readBack_iff he (by decide +kernel) (by decide +kernel) ?_).mpr ?_
  · intro nf' hnf
    obtain rfl : nf = nf' := by simpa [first, consign] using hnf
    decide +kernel
  · intro hkind
    exact absurd hkind (by decide +kernel)

end MockSpend

end OpenCsv
