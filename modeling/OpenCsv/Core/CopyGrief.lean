import OpenCsv.Core.CrossCheck
import OpenCsv.Core.ReadBack

/-!
# Copies of broadcast records

The payload of an anchor is bound to the context of the transaction that carries it.
Someone who copies the 64 bytes of a broadcast record into a transaction of their own
gives it another context, under which it binds nothing that the original bound.

`Griefed` relates a log to the same log with copies between its entries.

**Result.** `accept_after_copies`: copies of records that are bound to their own
contexts never take an accepted consignment away from its owner.  A record that was
bound to another context in the first place is not covered
(`unbound_record_copied_in_front`).
-/

namespace OpenCsv

open AcceptKernel

section Model

variable (sponge : Sponge)

/-- A record as it was broadcast: its payloads are bound to the context of its transaction. -/
structure Broadcast where
  record : AnchorRecord
  ctx : Ctx
  keys : List Digest
  clean : record.parsesCleanly = true
  bound_keys : ∀ slot ∈ record.payloadSlots, slot ≠ TruncatedDigest.zero →
    ∃ key ∈ keys, slot = bound sponge ctx key

/-- The bytes of a record under another context, as produced or as parsed. -/
def IsCopy (original : AnchorRecord × Ctx) (record : AnchorRecord) (ctx : Ctx) : Prop :=
  (record = original.1 ∨ record = AnchorRecord.fromBytes original.1.toBytes) ∧ ctx ≠ original.2

/--
A log, the same log with insertions, and the places of the entries of the first in the
second.
-/
inductive Griefed (inserted : List (AnchorRecord × Ctx)) :
    MockAnchorChain → MockAnchorChain → List ℕ → Prop where
  | new : Griefed inserted .new .new []
  | append {c c' : MockAnchorChain} {places : List ℕ} (record : AnchorRecord) (ctx : Ctx) :
      Griefed inserted c c' places →
        Griefed inserted (c.appendWithCtx sponge record ctx).1
          (c'.appendWithCtx sponge record ctx).1 (places ++ [c'.entries.length])
  | advance {c c' : MockAnchorChain} {places : List ℕ} (n : UInt64) :
      Griefed inserted c c' places →
        Griefed inserted (c.advanceBlocks n) (c'.advanceBlocks n) places
  | insert {c c' : MockAnchorChain} {places : List ℕ} {record : AnchorRecord} {ctx : Ctx} :
      (record, ctx) ∈ inserted →
        Griefed inserted c c' places →
          Griefed inserted c (c'.appendWithCtx sponge record ctx).1 places

/-- The reference to the same record at its new place. -/
def follow (c c' : MockAnchorChain) (places : List ℕ) (ref : AnchorRef) : Option AnchorRef := do
  let i ← c.entries.findIdx? (fun e => e.location == ref.location && e.txid == ref.txid)
  let place ← places[i]?
  let entry ← c'.entries[place]?
  return ⟨entry.txid, entry.location⟩

/-- The bindings that a scan for `keys` compares do not collide. -/
structure CollisionFree
    (originals : List (Broadcast sponge))
    (inserted : List (AnchorRecord × Ctx))
    (keys : List Digest) : Prop where
  injective : ∀ copy ∈ inserted, ∀ original ∈ originals, ∀ key ∈ keys, ∀ key' ∈ original.keys,
    bound sponge copy.2 key = bound sponge original.ctx key' → copy.2 = original.ctx
  ne_zero : ∀ copy ∈ inserted, ∀ key ∈ keys, bound sponge copy.2 key ≠ TruncatedDigest.zero

end Model

section Logs

variable {sponge : Sponge}
variable {inserted : List (AnchorRecord × Ctx)}
variable {c c' : MockAnchorChain}
variable {places : List ℕ}

theorem Griefed.reachable_left
    (h : Griefed sponge inserted c c' places) :
    MockAnchorChain.Reachable sponge c := by
  induction h with
  | new => exact MockAnchorChain.Reachable.ofNew sponge
  | append record ctx _ ih => exact ih.ofApply (.appendWithCtx record ctx)
  | advance n _ ih => exact ih.ofApply (.advanceBlocks n)
  | insert _ _ ih => exact ih

theorem Griefed.reachable_right
    (h : Griefed sponge inserted c c' places) :
    MockAnchorChain.Reachable sponge c' := by
  induction h with
  | new => exact MockAnchorChain.Reachable.ofNew sponge
  | append record ctx _ ih => exact ih.ofApply (.appendWithCtx record ctx)
  | advance n _ ih => exact ih.ofApply (.advanceBlocks n)
  | @insert _ _ _ record ctx _ _ ih => exact ih.ofApply (.appendWithCtx record ctx)

theorem Griefed.tipHeight_eq
    (h : Griefed sponge inserted c c' places) :
    c'.tipHeight = c.tipHeight := by
  induction h with
  | new => rfl
  | append record ctx _ ih => exact ih
  | advance n _ ih =>
      show saturatingAdd _ n = saturatingAdd _ n
      rw [ih]
  | insert _ _ ih => exact ih

/-- What stays of an entry: everything but its transaction id and its position. -/
def MockEntry.SameAnchor (e e' : MockEntry) : Prop :=
  e'.record = e.record ∧ e'.ctx = e.ctx ∧ e'.location.height = e.location.height

theorem Griefed.length_eq
    (h : Griefed sponge inserted c c' places) :
    places.length = c.entries.length := by
  induction h with
  | new => rfl
  | append record ctx _ ih =>
      simp only [MockAnchorChain.appendWithCtx, List.length_append, List.length_singleton, ih]
  | advance n _ ih => exact ih
  | insert _ _ ih => exact ih

theorem Griefed.length_le
    (h : Griefed sponge inserted c c' places) :
    c.entries.length ≤ c'.entries.length := by
  induction h with
  | new => exact le_refl _
  | append record ctx _ ih =>
      simp only [MockAnchorChain.appendWithCtx, List.length_append, List.length_singleton]
      omega
  | advance n _ ih => exact ih
  | insert _ _ ih =>
      simp only [MockAnchorChain.appendWithCtx, List.length_append, List.length_singleton]
      omega

/-- The places are in range and in the order of the log. -/
theorem Griefed.places_sorted
    (h : Griefed sponge inserted c c' places) :
    places.Pairwise (· < ·) ∧ ∀ place ∈ places, place < c'.entries.length := by
  induction h with
  | new =>
      exact ⟨List.Pairwise.nil, nofun⟩
  | append record ctx _ ih =>
      simp only [MockAnchorChain.appendWithCtx, List.length_append, List.length_singleton]
      refine ⟨List.pairwise_append.mpr ⟨ih.1, List.pairwise_singleton _ _, ?_⟩, ?_⟩
      · intro place hplace last hlast
        obtain rfl := List.mem_singleton.mp hlast
        exact ih.2 place hplace
      · intro place hplace
        rcases List.mem_append.mp hplace with hplace | hplace
        · have hlt := ih.2 place hplace
          omega
        · obtain rfl := List.mem_singleton.mp hplace
          omega
  | advance n _ ih =>
      exact ih
  | insert _ _ ih =>
      refine ⟨ih.1, ?_⟩
      intro place hplace
      have hlt := ih.2 place hplace
      simp only [MockAnchorChain.appendWithCtx, List.length_append, List.length_singleton]
      omega

/-- Every entry of the log is found at its place. -/
theorem Griefed.entry_at
    (h : Griefed sponge inserted c c' places)
    {i : ℕ}
    {e : MockEntry}
    (he : c.entries[i]? = some e) :
    ∃ place e', places[i]? = some place ∧ c'.entries[place]? = some e' ∧ e.SameAnchor e' := by
  induction h with
  | new =>
      simp [MockAnchorChain.new] at he
  | @append c c' places record ctx hbefore ih =>
      have hlength := hbefore.length_eq
      simp only [MockAnchorChain.appendWithCtx] at he ⊢
      rcases Nat.lt_or_ge i c.entries.length with hlt | hge
      · rw [List.getElem?_append_left hlt] at he
        obtain ⟨place, e', hplace, he', hsame⟩ := ih he
        refine ⟨place, e', ?_, ?_, hsame⟩
        · rw [List.getElem?_append_left (by omega)]
          exact hplace
        · rw [List.getElem?_append_left (List.getElem?_eq_some_iff.mp he').1]
          exact he'
      · obtain rfl : i = c.entries.length := by
          have hlt := (List.getElem?_eq_some_iff.mp he).1
          simp only [List.length_append, List.length_singleton] at hlt
          omega
        rw [List.getElem?_concat_length, Option.some.injEq] at he
        subst he
        refine ⟨c'.entries.length, _, ?_, List.getElem?_concat_length, rfl, rfl, ?_⟩
        · rw [← hlength, List.getElem?_concat_length]
        · exact hbefore.tipHeight_eq
  | advance n _ ih =>
      exact ih he
  | insert _ _ ih =>
      obtain ⟨place, e', hplace, he', hsame⟩ := ih he
      refine ⟨place, e', hplace, ?_, hsame⟩
      simp only [MockAnchorChain.appendWithCtx]
      rw [List.getElem?_append_left (List.getElem?_eq_some_iff.mp he').1]
      exact he'

/-- Every other entry was inserted. -/
theorem Griefed.inserted_of_not_place
    (h : Griefed sponge inserted c c' places)
    {j : ℕ}
    {e : MockEntry}
    (he : c'.entries[j]? = some e)
    (hj : j ∉ places) :
    (e.record, e.ctx) ∈ inserted := by
  induction h with
  | new =>
      simp [MockAnchorChain.new] at he
  | @append c c' places record ctx _ ih =>
      rw [List.mem_append, List.mem_singleton, not_or] at hj
      simp only [MockAnchorChain.appendWithCtx] at he
      have hlt : j < c'.entries.length := by
        have hlt := (List.getElem?_eq_some_iff.mp he).1
        simp only [List.length_append, List.length_singleton] at hlt
        omega
      rw [List.getElem?_append_left hlt] at he
      exact ih he hj.1
  | advance n _ ih =>
      exact ih he hj
  | @insert c c' places record ctx hmem _ ih =>
      simp only [MockAnchorChain.appendWithCtx] at he
      rcases Nat.lt_or_ge j c'.entries.length with hlt | hge
      · rw [List.getElem?_append_left hlt] at he
        exact ih he hj
      · obtain rfl : j = c'.entries.length := by
          have hlt := (List.getElem?_eq_some_iff.mp he).1
          simp only [List.length_append, List.length_singleton] at hlt
          omega
        rw [List.getElem?_concat_length, Option.some.injEq] at he
        rw [← he]
        exact hmem

end Logs

section Copies

variable {sponge : Sponge}
variable {inserted : List (AnchorRecord × Ctx)}
variable {originals : List (Broadcast sponge)}
variable {keys : List Digest}

/-- A copy binds none of the keys. -/
theorem CollisionFree.not_wellFormed
    (h : CollisionFree sponge originals inserted keys)
    {original : Broadcast sponge}
    (horiginal : original ∈ originals)
    {record : AnchorRecord}
    {ctx : Ctx}
    (hinserted : (record, ctx) ∈ inserted)
    (hcopy : IsCopy (original.record, original.ctx) record ctx)
    {key : Digest}
    (hkey : key ∈ keys) :
    record.wellFormed sponge ctx key = false := by
  have hzero := h.ne_zero _ hinserted key hkey
  have hsame : record.wellFormed sponge ctx key = original.record.wellFormed sponge ctx key := by
    rcases hcopy.1 with rfl | rfl
    · rfl
    · exact AnchorRecord.wellFormed_readBack original.clean hzero
  rw [hsame, Bool.eq_false_iff, Ne, AnchorRecord.wellFormed_iff]
  intro hslot
  obtain ⟨key', hkey', heq⟩ := original.bound_keys _ hslot hzero
  exact hcopy.2 (h.injective _ hinserted original horiginal key hkey key' hkey' heq)

end Copies

section Acceptance

variable {sponge : Sponge}
variable {inserted : List (AnchorRecord × Ctx)}
variable {originals : List (Broadcast sponge)}
variable {c c' : MockAnchorChain}
variable {places : List ℕ}
variable {consignment : Consignment}
variable {verifier : ProofVerifier}
variable {params : PublicOwnerAcceptParams}
variable {accepted : AcceptedCoins}
variable {record : AnchorRecord}

/-- Acceptance happens at the entry that the reference names. -/
theorem MockAnchorChain.named_of_accept
    {proofRecord : AnchorRecord}
    {ctx : Ctx}
    (h : AcceptFacts sponge consignment (c.toAnchorChain sponge) verifier params accepted
      record proofRecord ctx) :
    ∃ (i : ℕ) (e : MockEntry),
      c.entries.findIdx? (fun e => e.location == consignment.anchorRef.location &&
        e.txid == consignment.anchorRef.txid) = some i ∧
      c.entries[i]? = some e ∧ e.record = record ∧ e.ctx = ctx ∧
        e.location = accepted.anchor ∧ proofRecord = record := by
  obtain ⟨_, _, _, _, _, _, hproof⟩ := entry_of_accept h
  have hrecord := h.anchorAt
  have hctx := h.ctxAt
  have hloc := h.locate
  simp only [toAnchorChain, Option.map_eq_some_iff] at hrecord hctx hloc
  obtain ⟨e, he, rfl⟩ := hrecord
  obtain ⟨e', he', rfl⟩ := hctx
  obtain ⟨_, _, hanchor⟩ := hloc
  obtain rfl := Option.some.inj (he.symm.trans he')
  have hfound := List.find?_some he
  simp only [Bool.and_eq_true, beq_iff_eq] at hfound
  unfold find at he
  rw [List.find?_eq_bind_findIdx?_getElem?, Option.bind_eq_some_iff] at he
  obtain ⟨i, hindex, hentry⟩ := he
  exact ⟨i, e, hindex, hentry, rfl, rfl, hfound.1.trans hanchor, hproof⟩

/-- The reference to an entry finds it. -/
theorem MockAnchorChain.Reachable.find_entry
    (h : MockAnchorChain.Reachable sponge c)
    (hlen : c.entries.length ≤ 2 ^ 32)
    {i : ℕ}
    {e : MockEntry}
    (he : c.entries[i]? = some e) :
    c.find ⟨e.txid, e.location⟩ = some e := by
  unfold find
  rw [List.find?_eq_some_iff_getElem]
  obtain ⟨hi, hget⟩ := List.getElem?_eq_some_iff.mp he
  refine ⟨by simp, i, hi, hget, ?_⟩
  intro j hj
  rw [Bool.not_eq_true', Bool.and_eq_false_iff, beq_eq_false_iff_ne]
  refine Or.inl ?_
  intro hloc
  have heq := h.location_injective hlen
    (List.getElem?_eq_getElem (hj.trans hi)) he hloc
  omega

/-- The first entry that binds a key keeps its rank among the insertions. -/
theorem Griefed.first_occurrence
    (h : Griefed sponge inserted c c' places)
    (hlen : c'.entries.length ≤ 2 ^ 32)
    {key : Digest}
    (hcopies : ∀ copy ∈ inserted, copy.1.wellFormed sponge copy.2 key = false)
    {i place : ℕ}
    {e e' : MockEntry}
    (he : c.entries[i]? = some e)
    (hfirst : c.firstNullifierOccurrence sponge key = some e.location)
    (hplace : places[i]? = some place)
    (he' : c'.entries[place]? = some e')
    (hsame : e.SameAnchor e') :
    c'.firstNullifierOccurrence sponge key = some e'.location := by
  have hlen' : c.entries.length ≤ 2 ^ 32 := h.length_le.trans hlen
  rw [MockAnchorChain.firstNullifierOccurrence_eq, Option.map_eq_some_iff] at hfirst
  obtain ⟨f, hf, hloc⟩ := hfirst
  obtain ⟨hwf, k, hk, hkf, hbefore⟩ := List.find?_eq_some_iff_getElem.mp hf
  obtain rfl : k = i := by
    refine h.reachable_left.location_injective hlen' (List.getElem?_eq_some_iff.mpr ⟨hk, hkf⟩)
      he hloc
  obtain rfl : e = f := by
    rw [List.getElem?_eq_getElem hk, hkf] at he
    exact (Option.some.inj he).symm
  rw [MockAnchorChain.firstNullifierOccurrence_eq, Option.map_eq_some_iff]
  refine ⟨e', ?_, rfl⟩
  obtain ⟨hlt, hget⟩ := List.getElem?_eq_some_iff.mp he'
  refine List.find?_eq_some_iff_getElem.mpr ⟨?_, place, hlt, hget, ?_⟩
  · rw [hsame.1, hsame.2.1]
    exact hwf
  · intro j hj
    rw [Bool.not_eq_true']
    have hj' := List.getElem?_eq_getElem (hj.trans hlt)
    by_cases hmem : j ∈ places
    · -- An entry of the log itself, which stands before the first one there too.
      obtain ⟨k', hk'⟩ := List.mem_iff_getElem?.mp hmem
      obtain ⟨hk'lt, hk'get⟩ := List.getElem?_eq_some_iff.mp hk'
      obtain ⟨hilt, higet⟩ := List.getElem?_eq_some_iff.mp hplace
      have horder : k' < k := by
        by_contra hge
        rcases Nat.eq_or_lt_of_le (Nat.le_of_not_lt hge) with rfl | hlt'
        · omega
        · have hsorted := List.pairwise_iff_getElem.mp h.places_sorted.1 k k' hilt hk'lt hlt'
          omega
      have hnot := hbefore k' horder
      obtain ⟨place', e'', hplace', he'', hsame'⟩ :=
        h.entry_at (List.getElem?_eq_getElem (horder.trans hk))
      obtain rfl := Option.some.inj (hk'.symm.trans hplace')
      obtain rfl := Option.some.inj (hj'.symm.trans he'')
      rw [hsame'.1, hsame'.2.1]
      simpa using hnot
    · exact hcopies _ (h.inserted_of_not_place hj' hmem)

/--
Insert copies of records that were bound to their own contexts, anywhere and any number
of times.  A consignment that was accepted stays accepted, with the same coins, at the
new place of its record.
-/
theorem accept_after_copies
    (hgriefed : Griefed sponge inserted c c' places)
    (hlen : c'.entries.length ≤ 2 ^ 32)
    (haccept : acceptForPublicOwners sponge consignment (c.toAnchorChain sponge) verifier params =
      .ok accepted)
    (hrecord : (c.toAnchorChain sponge).anchorAt consignment.anchorRef = some record)
    (hcopies : ∀ copy ∈ inserted, ∃ original ∈ originals,
      IsCopy (original.record, original.ctx) copy.1 copy.2)
    (hfree : CollisionFree sponge originals inserted
      (occurrenceKeys sponge record consignment.nullifiers)) :
    ∃ ref, follow c c' places consignment.anchorRef = some ref ∧
      acceptForPublicOwners sponge { consignment with anchorRef := ref }
        (c'.toAnchorChain sponge) verifier params = .ok ⟨accepted.coins, ref.location⟩ := by
  obtain ⟨record', proofRecord, ctx, hfacts⟩ := acceptForPublicOwners_ok_iff.mp haccept
  obtain rfl := Option.some.inj (hrecord.symm.trans hfacts.anchorAt)
  obtain ⟨i, e, hindex, he, rfl, rfl, hloc, rfl⟩ := MockAnchorChain.named_of_accept hfacts
  obtain ⟨place, e', hplace, he', hsame⟩ := hgriefed.entry_at he
  have hfind : c'.find ⟨e'.txid, e'.location⟩ = some e' :=
    hgriefed.reachable_right.find_entry hlen he'
  have hsolo : AnchorChain.soloProofRecord (some e.record) = some e.record := by
    have hproofRecord := hfacts.proofRecordAt
    have hanchor := hfacts.anchorAt
    simp only [MockAnchorChain.toAnchorChain] at hproofRecord hanchor
    rwa [hanchor] at hproofRecord
  have hcopies' : ∀ key ∈ occurrenceKeys sponge e.record consignment.nullifiers,
      ∀ copy ∈ inserted, copy.1.wellFormed sponge copy.2 key = false := by
    intro key hkey copy hcopy
    obtain ⟨original, horiginal, hcopy'⟩ := hcopies copy hcopy
    exact hfree.not_wellFormed horiginal hcopy hcopy' hkey
  refine ⟨⟨e'.txid, e'.location⟩, ?_, ?_⟩
  · unfold follow
    rw [hindex, Option.bind_eq_bind, Option.bind_some, hplace, Option.bind_eq_bind,
      Option.bind_some, he']
    rfl
  · refine acceptForPublicOwners_ok_iff.mpr ⟨e'.record, e'.record, e'.ctx, ?_⟩
    refine ⟨hfacts.openings_ne_nil, hfacts.asset_valid, ?_, ?_, ?_, hfacts.distinct, ?_, ?_, ?_, ?_,
      ?_, hfacts.coins_eq, hfacts.coins_ne_nil⟩
    · show (c'.find _).map MockEntry.record = _
      rw [hfind, Option.map_some]
    · show (c'.find _).map MockEntry.ctx = _
      rw [hfind, Option.map_some]
    · show (c'.find _).map _ = _
      rw [hfind, Option.map_some]
    · show AnchorChain.soloProofRecord ((c'.find _).map MockEntry.record) = _
      rw [hfind, Option.map_some, hsame.1]
      exact hsolo
    · rw [hsame.1, hsame.2.1]
      exact hfacts.verify
    · have hconfirmed := hfacts.confirmed
      rw [← hloc] at hconfirmed
      show _ ≤ AnchorChain.depthBelow c'.tipHeight e'.location.height
      rw [hgriefed.tipHeight_eq, hsame.2.2]
      exact hconfirmed
    · rw [hsame.1, hsame.2.1]
      exact hfacts.binds
    · intro key hkey
      rw [hsame.1] at hkey
      have hfirst := hfacts.first key hkey
      rw [← hloc] at hfirst
      exact hgriefed.first_occurrence hlen (hcopies' key hkey) he hfirst hplace he' hsame

end Acceptance

namespace MockSpend

/-- A context nobody's record was made for. -/
def copyCtx : Ctx := List.Vector.replicate 32 11

/-- The first transfer, as it was broadcast. -/
def broadcast : Broadcast foldSponge where
  record := record
  ctx := ctx
  keys := [nf]
  clean := by decide +kernel
  bound_keys := by
    intro slot hslot hne
    rcases List.mem_cons.mp hslot with rfl | hslot
    · exact ⟨nf, List.mem_singleton_self nf, rfl⟩
    · exact absurd (List.mem_singleton.mp hslot) hne

/-- The record once, and once behind its copy. -/
def copiedChain : MockAnchorChain :=
  (((MockAnchorChain.new.appendWithCtx foldSponge record copyCtx).1.appendWithCtx foldSponge
    record ctx).1).advanceBlocks 5

theorem copiedChain_griefed :
    Griefed foldSponge [(record, copyCtx)] chain copiedChain [1] :=
  .advance 5 (.append record ctx (.insert (List.mem_singleton_self _) .new))

/-- The transfer is accepted at its new place behind the copy. -/
theorem first_accepted_behind_copy :
    ∃ ref, follow chain copiedChain [1] first.anchorRef = some ref ∧
      acceptForPublicOwners foldSponge { first with anchorRef := ref }
        (copiedChain.toAnchorChain foldSponge) MockVerifier.mockVerifier (params 21) =
          .ok ⟨[coinTo 21], ref.location⟩ := by
  have haccept : acceptForPublicOwners foldSponge first (chain.toAnchorChain foldSponge)
      MockVerifier.mockVerifier (params 21) = .ok ⟨[coinTo 21], ⟨0, 0⟩⟩ := by
    decide +kernel
  have hrecord : (chain.toAnchorChain foldSponge).anchorAt first.anchorRef = some record := by
    decide +kernel
  have hcopies : ∀ copy ∈ [(record, copyCtx)], ∃ original ∈ [broadcast],
      IsCopy (original.record, original.ctx) copy.1 copy.2 := by
    intro copy hcopy
    obtain rfl := List.mem_singleton.mp hcopy
    exact ⟨broadcast, List.mem_singleton_self _, Or.inl rfl, by decide +kernel⟩
  refine accept_after_copies copiedChain_griefed (by decide +kernel) haccept hrecord hcopies
    ⟨?_, ?_⟩
  · intro copy hcopy original horiginal key hkey key' hkey' heq
    obtain rfl := List.mem_singleton.mp hcopy
    obtain rfl := List.mem_singleton.mp horiginal
    obtain rfl := List.mem_singleton.mp hkey
    obtain rfl := List.mem_singleton.mp hkey'
    exact absurd heq (by decide +kernel)
  · intro copy hcopy key hkey
    obtain rfl := List.mem_singleton.mp hcopy
    obtain rfl := List.mem_singleton.mp hkey
    decide +kernel

/-- A record on the chain whose slot was made for the context of a later copy. -/
def plantedRecord : AnchorRecord := .xfer (bound foldSponge copyCtx nf) TruncatedDigest.zero

def plantedCtx : Ctx := List.Vector.replicate 32 13

def planted : MockAnchorChain × AnchorRef :=
  (MockAnchorChain.new.appendWithCtx foldSponge plantedRecord plantedCtx).1.appendWithCtx
    foldSponge record ctx

def plantedChain : MockAnchorChain := planted.1.advanceBlocks 5

/-- The planted record, its copy under the context that its slot was made for, the transfer. -/
def plantedCopied : MockAnchorChain :=
  (((MockAnchorChain.new.appendWithCtx foldSponge plantedRecord plantedCtx).1.appendWithCtx
    foldSponge plantedRecord copyCtx).1.appendWithCtx foldSponge record ctx).1.advanceBlocks 5

/-- A copy of a record that was not bound to its own context takes the transfer away. -/
theorem unbound_record_copied_in_front :
    Griefed foldSponge [(plantedRecord, copyCtx)] plantedChain plantedCopied [0, 2] ∧
      (∃ e ∈ plantedChain.entries, IsCopy (e.record, e.ctx) plantedRecord copyCtx) ∧
      [bound foldSponge ctx nf, bound foldSponge copyCtx nf, bound foldSponge plantedCtx nf,
        TruncatedDigest.zero].Nodup ∧
      acceptForPublicOwners foldSponge { first with anchorRef := planted.2 }
        (plantedChain.toAnchorChain foldSponge) MockVerifier.mockVerifier (params 21) =
          .ok ⟨[coinTo 21], ⟨0, 1⟩⟩ ∧
      ∃ ref, follow plantedChain plantedCopied [0, 2] planted.2 = some ref ∧
        acceptForPublicOwners foldSponge { first with anchorRef := ref }
          (plantedCopied.toAnchorChain foldSponge) MockVerifier.mockVerifier (params 21) =
            .error (.nullifierConflict nf.toAnchor ⟨0, 1⟩) := by
  refine ⟨?_, ?_, ?_, ?_, ?_⟩
  · exact .advance 5 (.append record ctx (.insert (List.mem_singleton_self _)
      (.append plantedRecord plantedCtx .new)))
  · refine ⟨_, List.mem_cons_self, Or.inl rfl, ?_⟩
    decide +kernel
  · decide +kernel
  · decide +kernel
  · refine ⟨(follow plantedChain plantedCopied [0, 2] planted.2).get (by decide +kernel), ?_, ?_⟩
    · exact (Option.some_get _).symm
    · decide +kernel

end MockSpend

end OpenCsv
