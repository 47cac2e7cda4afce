import OpenCsv.Ffi.Snapshot
import OpenCsv.Lib.Sha256

/-!
# The exported snapshot against the scan index

The export writes one entry per anchor transaction; the index keeps one candidate
per batch payload.  Both sides resolve references and batch members by code of
their own.  For an index whose candidates are those of anchor transactions in
chain order, the two views differ in how often they list a batch transaction and
in nothing that acceptance can see.

**Results.**
* `Scanned.snapshotEntries_eq`, `Scanned.fromSnapshot_eq`: the export has the anchor
  transactions as its entries, and the import gives them back.
* `Scanned.refines`: the imported chain answers as the index does.
* `exportSnapshot_refines`: so does the snapshot of every reachable index of
  exportable candidates.
-/

namespace OpenCsv

open ScanIndex (mempool refMatches minLocation)

section Candidates

variable {sponge : Sponge}

/-- The transaction a candidate came from. -/
def ScannedAnchor.anchorTx (e : ScannedAnchor) : AnchorTx where
  location := e.location
  txid := e.txid
  record := e.record
  ctx := e.ctx
  batch := e.batch.map (fun batch => (batch.version, batch.envelope))

theorem AnchorTx.anchorTx_of_mem_candidates
    {t : AnchorTx}
    {e : ScannedAnchor}
    (h : e ∈ t.candidates) :
    e.anchorTx = t := by
  obtain ⟨location, txid, record, ctx, batch⟩ := t
  unfold candidates at h
  cases batch with
  | none =>
      rw [List.mem_singleton.mp h]
      rfl
  | some batch =>
      obtain ⟨index, -, rfl⟩ := List.mem_map.mp h
      rfl

/-- The candidate that the export keeps of a transaction. -/
def AnchorTx.firstCandidate (t : AnchorTx) : ScannedAnchor where
  location := t.location
  txid := t.txid
  record := t.record
  ctx := t.ctx
  batch := t.batch.map (fun batch => ⟨batch.1, 0, batch.2⟩)

theorem AnchorTx.Decoded.head?_candidates
    {t : AnchorTx}
    (h : t.Decoded) :
    t.candidates.head? = some t.firstCandidate := by
  cases hbatch : t.batch with
  | none =>
      simp [candidates, firstCandidate, hbatch]
  | some batch =>
      obtain ⟨version, envelope⟩ := batch
      obtain ⟨p, ps, rfl⟩ := List.exists_cons_of_ne_nil (h.envelope hbatch).2
      simp [candidates, firstCandidate, hbatch, List.range_succ_eq_map]

theorem AnchorTx.ofScanned_firstCandidate
    (t : AnchorTx) :
    SnapshotEntry.ofScanned t.firstCandidate = SnapshotEntry.ofAnchorTx t := by
  cases hbatch : t.batch with
  | none =>
      simp [SnapshotEntry.ofScanned, SnapshotEntry.ofAnchorTx, firstCandidate, hbatch]
  | some batch =>
      simp [SnapshotEntry.ofScanned, SnapshotEntry.ofAnchorTx, firstCandidate, hbatch]

/-- Some candidate of a transaction binds a nullifier exactly when its entry does. -/
theorem AnchorTx.any_binds_candidates
    (t : AnchorTx)
    (rawNf : Digest) :
    SnapshotChain.entryMatchesNullifier sponge t rawNf =
      t.candidates.any (fun e => e.binds sponge rawNf) := by
  unfold SnapshotChain.entryMatchesNullifier candidates
  cases t.batch with
  | none =>
      simp [ScannedAnchor.binds]
  | some batch =>
      obtain ⟨version, envelope⟩ := batch
      rw [Bool.eq_iff_iff, List.any_map, List.any_eq_true]
      simp only [Function.comp_apply, ScannedAnchor.binds, beq_iff_eq, List.mem_range]
      constructor
      · intro hsome
        obtain ⟨i, hi⟩ := Option.isSome_iff_exists.mp hsome
        refine ⟨i.toNat, occurrence_lt_length hi, ?_⟩
        rw [hi, UInt32.ofNat_toNat]
      · rintro ⟨i, -, hi⟩
        rw [hi]
        rfl

/-- A test on what the candidates of a transaction share is a test on the transaction. -/
theorem AnchorTx.Decoded.any_candidates
    {t : AnchorTx}
    (h : t.Decoded)
    {p : ScannedAnchor → Bool}
    {b : Bool}
    (hp : ∀ e ∈ t.candidates, p e = b) :
    t.candidates.any p = b := by
  obtain ⟨e, es, hcandidates⟩ := List.exists_cons_of_ne_nil h.candidates_ne_nil
  cases b with
  | true =>
      refine List.any_eq_true.mpr ⟨e, ?_, hp e ?_⟩
      · simp [hcandidates]
      · simp [hcandidates]
  | false =>
      rw [List.any_eq_false]
      intro e' he'
      rw [hp e' he']
      exact Bool.false_ne_true

/-- Some candidate matches a reference exactly when the transaction does. -/
theorem AnchorTx.Decoded.any_refMatches_candidates
    {t : AnchorTx}
    (h : t.Decoded)
    (ref : AnchorRef) :
    t.candidates.any (fun e => refMatches ref e.txid e.location) =
      refMatches ref t.txid t.location := by
  apply h.any_candidates
  intro e he
  obtain ⟨hlocation, htxid, -, -⟩ := mem_candidates he
  rw [hlocation, htxid]

/-- Some candidate matches a reference and binds a nullifier exactly when the entry does. -/
theorem AnchorTx.Decoded.any_refMatches_binds_candidates
    {t : AnchorTx}
    (h : t.Decoded)
    (ref : AnchorRef)
    (rawNf : Digest) :
    t.candidates.any (fun e => refMatches ref e.txid e.location && e.binds sponge rawNf) =
      (refMatches ref t.txid t.location &&
        SnapshotChain.entryMatchesNullifier sponge t rawNf) := by
  have hshared : ∀ e ∈ t.candidates, refMatches ref e.txid e.location =
      refMatches ref t.txid t.location := by
    intro e he
    obtain ⟨hlocation, htxid, -, -⟩ := mem_candidates he
    rw [hlocation, htxid]
  rw [t.any_binds_candidates]
  cases hmatches : refMatches ref t.txid t.location with
  | true =>
      rw [Bool.true_and, Bool.eq_iff_iff, List.any_eq_true, List.any_eq_true]
      constructor
      · rintro ⟨e, he, hbinds⟩
        exact ⟨e, he, (Bool.and_eq_true_iff.mp hbinds).2⟩
      · rintro ⟨e, he, hbinds⟩
        refine ⟨e, he, ?_⟩
        rw [hshared e he, hmatches, hbinds, Bool.true_and]
  | false =>
      rw [Bool.false_and]
      apply h.any_candidates
      intro e he
      rw [hshared e he, hmatches, Bool.false_and]

/-- A header without an envelope binds nothing. -/
theorem AnchorTx.batch_isSome_of_binds
    {t : AnchorTx}
    {count : UInt8}
    {committed : TruncatedDigest}
    {rawNf : Digest}
    (hrecord : t.record = .batchHeader count committed)
    (h : SnapshotChain.entryMatchesNullifier sponge t rawNf = true) :
    ∃ batch, t.batch = some batch := by
  cases hbatch : t.batch with
  | none =>
      rw [SnapshotChain.entryMatchesNullifier, hbatch, hrecord] at h
      cases h
  | some batch =>
      exact ⟨batch, rfl⟩

end Candidates

namespace ScanIndex

namespace Scanned

variable {sponge : Sponge}
variable {index : ScanIndex}
variable {txs : List AnchorTx}

/-- Locations are pairwise different. -/
theorem nodup_locations
    (h : index.Scanned txs) :
    (txs.map AnchorTx.location).Nodup := by
  rw [List.nodup_iff_pairwise_ne, List.pairwise_map]
  apply h.sorted.imp
  intro t t' hlt heq
  rw [heq] at hlt
  exact lt_irrefl _ hlt

/-- A location names one transaction. -/
theorem eq_of_location_eq
    (h : index.Scanned txs)
    {t t' : AnchorTx}
    (ht : t ∈ txs)
    (ht' : t' ∈ txs)
    (hlocation : t.location = t'.location) :
    t = t' :=
  List.inj_on_of_nodup_map h.nodup_locations ht ht' hlocation

/-- No transaction sits at the placeholder location. -/
theorem location_ne_mempool
    (h : index.Scanned txs)
    {t : AnchorTx}
    (ht : t ∈ txs) :
    t.location ≠ mempool := by
  intro heq
  have hpositive := h.positive t ht
  rw [heq] at hpositive
  exact lt_irrefl _ hpositive

theorem sorted_le
    (h : index.Scanned txs) :
    txs.Pairwise (fun a b => a.location.le b.location = true) := by
  apply h.sorted.imp
  intro t t' hlt
  exact AnchorLocation.le_iff_key_le.mpr hlt.le

/-- The export has one entry per transaction, in chain order. -/
theorem snapshotEntries_eq
    (h : index.Scanned txs) :
    snapshotEntries index.occurrences = txs.map SnapshotEntry.ofAnchorTx := by
  have hfirst : firstOfEach (fun e : ScannedAnchor => (e.location, e.txid)) []
      (txs.flatMap AnchorTx.candidates) = txs.map AnchorTx.firstCandidate := by
    have hkey : ∀ t ∈ txs, ∀ e ∈ t.candidates,
        (fun e : ScannedAnchor => (e.location, e.txid)) e =
          (fun t : AnchorTx => (t.location, t.txid)) t := by
      intro t _ e he
      obtain ⟨hlocation, htxid, -, -⟩ := AnchorTx.mem_candidates he
      simp only [hlocation, htxid]
    have hnodup : (txs.map (fun t : AnchorTx => (t.location, t.txid))).Nodup := by
      have hlocations := h.nodup_locations
      apply List.Nodup.of_map Prod.fst
      rwa [List.map_map]
    exact firstOfEach_flatMap (fun t ht => (h.decoded t ht).head?_candidates) hkey hnodup
      (by simp)
  rw [snapshotEntries, h.occurrences_eq, hfirst, List.map_map]
  have hmap : txs.map (SnapshotEntry.ofScanned ∘ AnchorTx.firstCandidate) =
      txs.map SnapshotEntry.ofAnchorTx := by
    apply List.map_congr_left
    intro t _
    exact t.ofScanned_firstCandidate
  rw [hmap]
  apply List.Pairwise.insertionSort_eq
  rw [List.pairwise_map]
  exact h.sorted_le

/-- The import gives the transactions back. -/
theorem fromSnapshot_eq
    (h : index.Scanned txs)
    (hexport : ∀ t ∈ txs, t.exportable sponge = true) :
    SnapshotChain.fromSnapshot sponge ⟨index.syncedTip, snapshotEntries index.occurrences⟩ =
      .ok ⟨index.syncedTip, txs⟩ := by
  have hdecode : (txs.map SnapshotEntry.ofAnchorTx).mapM (SnapshotEntry.decode sponge) =
      .ok txs := by
    apply mapM_map_eq_ok
    intro t ht
    exact SnapshotEntry.decode_ofAnchorTx (h.decoded t ht).parsed (hexport t ht)
  rw [SnapshotChain.fromSnapshot, h.snapshotEntries_eq, hdecode]
  simp only [bind, Except.bind, pure, Except.pure]
  rw [h.sorted_le.insertionSort_eq]

section Answers

/-- Lookups by reference agree on everything a transaction's candidates share. -/
theorem map_find
    (h : index.Scanned txs)
    (ref : AnchorRef)
    {β : Type*}
    {f : ScannedAnchor → β}
    {f' : AnchorTx → β}
    (hf : ∀ t ∈ txs, ∀ e ∈ t.candidates, f e = f' t) :
    (index.find ref).map f =
      ((⟨index.syncedTip, txs⟩ : SnapshotChain).find ref).map f' := by
  have hany : ∀ t ∈ txs, refMatches ref t.txid t.location =
      t.candidates.any (fun e => refMatches ref e.txid e.location) := by
    intro t ht
    rw [(h.decoded t ht).any_refMatches_candidates ref]
  rw [find, h.occurrences_eq]
  exact map_find?_flatMap hany hf

/-- Candidates come in chain order. -/
theorem sorted_occurrences
    (h : index.Scanned txs) :
    index.occurrences.Pairwise (fun a b => a.location.le b.location = true) := by
  rw [h.occurrences_eq, List.pairwise_flatMap]
  constructor
  · intro t _
    apply List.pairwise_of_forall_mem_list
    intro e he e' he'
    rw [(AnchorTx.mem_candidates he).1, (AnchorTx.mem_candidates he').1,
      AnchorLocation.le_iff_key_le]
  · apply h.sorted_le.imp
    intro t t' hle e he e' he'
    rw [(AnchorTx.mem_candidates he).1, (AnchorTx.mem_candidates he').1]
    exact hle

/-- The first occurrence in the index is the first transaction that binds. -/
theorem firstNullifierOccurrence_index
    (h : index.Scanned txs)
    (rawNf : Digest) :
    (index.toAnchorChain sponge).firstNullifierOccurrence rawNf =
      (txs.find? (fun t => SnapshotChain.entryMatchesNullifier sponge t rawNf)).map
        AnchorTx.location := by
  have hsorted : ((index.occurrences.filter (fun e => e.binds sponge rawNf)).map
      ScannedAnchor.location).Pairwise (fun a b => a.le b = true) := by
    rw [List.pairwise_map]
    exact h.sorted_occurrences.filter _
  show minLocation _ = _
  rw [minLocation, hsorted.insertionSort_eq, List.head?_map, List.head?_filter,
    h.occurrences_eq]
  apply map_find?_flatMap
  · intro t _
    exact t.any_binds_candidates rawNf
  · intro t _ e he
    exact (AnchorTx.mem_candidates he).1

/-- The first occurrence in the snapshot is the first transaction that binds. -/
theorem firstNullifierOccurrence_snapshot
    (h : index.Scanned txs)
    (rawNf : Digest) :
    (⟨index.syncedTip, txs⟩ : SnapshotChain).firstNullifierOccurrence sponge rawNf =
      (txs.find? (fun t => SnapshotChain.entryMatchesNullifier sponge t rawNf)).map
        AnchorTx.location := by
  have hconfirmed : txs.filter (fun t => t.location != mempool) = txs := by
    rw [List.filter_eq_self]
    intro t ht
    exact bne_iff_ne.mpr (h.location_ne_mempool ht)
  have hnone : txs.find? (fun t => t.location == mempool &&
      SnapshotChain.entryMatchesNullifier sponge t rawNf) = none := by
    rw [List.find?_eq_none]
    intro t ht
    simp [h.location_ne_mempool ht]
  simp only [SnapshotChain.firstNullifierOccurrence, SnapshotChain.nullifierOccurrences]
  rw [hconfirmed, hnone, Option.map_none, Option.or_none, List.head?_map, List.head?_filter]

/-- The candidates up to a height, with one listing per transaction kept. -/
theorem anchorsUpTo_eq
    (h : index.Scanned txs)
    (height : UInt64) :
    ((⟨index.syncedTip, txs⟩ : SnapshotChain).toAnchorChain sponge).anchorsUpTo height =
      firstOfEach Prod.fst [] ((index.toAnchorChain sponge).anchorsUpTo height) := by
  have hconfirmed : txs.filter (fun t => t.location != mempool && t.location.height ≤ height) =
      txs.filter (fun t => t.location.height ≤ height) := by
    apply List.filter_congr
    intro t ht
    rw [bne_iff_ne.mpr (h.location_ne_mempool ht), Bool.true_and]
  set kept := txs.filter (fun t => t.location.height ≤ height) with hkept
  have hmem : ∀ t ∈ kept, t ∈ txs := fun t ht => List.mem_of_mem_filter ht
  have hindex : (index.toAnchorChain sponge).anchorsUpTo height =
      kept.flatMap (fun t => t.candidates.map (fun e => (e.location, e.record))) := by
    show (index.occurrences.filter _).map _ = _
    rw [h.occurrences_eq,
      filter_flatMap_candidates (fun location => location.height ≤ height), List.map_flatMap]
  have hhead : ∀ t ∈ kept, (t.candidates.map (fun e => (e.location, e.record))).head? =
      some (t.location, t.record) := by
    intro t ht
    rw [List.head?_map, (h.decoded t (hmem t ht)).head?_candidates]
    rfl
  have hkey : ∀ t ∈ kept, ∀ x ∈ t.candidates.map (fun e => (e.location, e.record)),
      x.1 = t.location := by
    intro t _ x hx
    obtain ⟨e, he, rfl⟩ := List.mem_map.mp hx
    exact (AnchorTx.mem_candidates he).1
  have hnodup : (kept.map AnchorTx.location).Nodup :=
    h.nodup_locations.sublist (List.filter_sublist.map _)
  rw [hindex, firstOfEach_flatMap hhead hkey hnodup (by simp)]
  show (txs.filter _).map _ = _
  rw [hconfirmed]

/-- Both views count the same confirmations at a confirmed height. -/
theorem confirmationsAt_eq
    (index : ScanIndex)
    (txs : List AnchorTx)
    {height : UInt64}
    (hheight : height ≠ 0) :
    ((⟨index.syncedTip, txs⟩ : SnapshotChain).toAnchorChain sponge).confirmationsAt height =
      (index.toAnchorChain sponge).confirmationsAt height := by
  show (if height = 0 ∨ height > index.syncedTip then 0 else index.syncedTip - height + 1) = _
  simp only [hheight, false_or]
  rfl

end Answers

section Acceptance

/-- Equal transaction ids come with equal records. -/
def TxidsNameRecords (txs : List AnchorTx) : Prop :=
  ∀ t ∈ txs, ∀ t' ∈ txs, t.txid = t'.txid → t.record = t'.record

/-- A transaction that is the first occurrence of a nullifier binds it. -/
theorem binds_of_first
    (h : index.Scanned txs)
    {t : AnchorTx}
    (ht : t ∈ txs)
    {rawNf : Digest}
    (hfirst : (txs.find? (fun t => SnapshotChain.entryMatchesNullifier sponge t rawNf)).map
      AnchorTx.location = some t.location) :
    SnapshotChain.entryMatchesNullifier sponge t rawNf = true := by
  obtain ⟨t', ht', hlocation⟩ := Option.map_eq_some_iff.mp hfirst
  obtain rfl := h.eq_of_location_eq (List.mem_of_find?_eq_some ht') ht hlocation
  have hbinds := List.find?_some ht'
  exact hbinds

/-- The index finds the candidate of a transaction that binds a nullifier. -/
theorem find?_binds
    (h : index.Scanned txs)
    {ref : AnchorRef}
    {t : AnchorTx}
    {rawNf : Digest}
    (hfind : (⟨index.syncedTip, txs⟩ : SnapshotChain).find ref = some t)
    (hbinds : SnapshotChain.entryMatchesNullifier sponge t rawNf = true) :
    ∃ e, index.occurrences.find? (fun e =>
        refMatches ref e.txid e.location && e.binds sponge rawNf) = some e ∧
      e.record = t.record ∧ e.ctx = t.ctx := by
  have htxs : txs.find? (fun t => refMatches ref t.txid t.location &&
      SnapshotChain.entryMatchesNullifier sponge t rawNf) = some t := by
    obtain ⟨hmatches, before, after, rfl, hbefore⟩ := List.find?_eq_some_iff_append.mp hfind
    refine List.find?_eq_some_iff_append.mpr ⟨?_, before, after, rfl, ?_⟩
    · rw [hmatches, hbinds, Bool.true_and]
    · intro t' ht'
      have hfalse := hbefore t' ht'
      simp only [Bool.not_eq_true'] at hfalse
      rw [hfalse, Bool.false_and, Bool.not_false]
  have hmap : (index.occurrences.find? (fun e =>
      refMatches ref e.txid e.location && e.binds sponge rawNf)).map
        (fun e => (e.record, e.ctx)) = some (t.record, t.ctx) := by
    have hany : ∀ t ∈ txs, (refMatches ref t.txid t.location &&
        SnapshotChain.entryMatchesNullifier sponge t rawNf) = t.candidates.any (fun e =>
          refMatches ref e.txid e.location && e.binds sponge rawNf) := by
      intro t ht
      exact ((h.decoded t ht).any_refMatches_binds_candidates ref rawNf).symm
    have hshared : ∀ t ∈ txs, ∀ e ∈ t.candidates, (e.record, e.ctx) = (t.record, t.ctx) := by
      intro t _ e he
      obtain ⟨-, -, hrecord, hctx⟩ := AnchorTx.mem_candidates he
      rw [hrecord, hctx]
    rw [h.occurrences_eq, map_find?_flatMap hany hshared, htxs]
    rfl
  obtain ⟨e, he, heq⟩ := Option.map_eq_some_iff.mp hmap
  exact ⟨e, he, congrArg Prod.fst heq, congrArg Prod.snd heq⟩

/-- A mint is the proof record of no nullifier in the index. -/
theorem find?_binds_mint
    (h : index.Scanned txs)
    (htxids : TxidsNameRecords txs)
    {ref : AnchorRef}
    {t : AnchorTx}
    {assetId mintCommit : TruncatedDigest}
    {value : UInt64}
    (hfind : (⟨index.syncedTip, txs⟩ : SnapshotChain).find ref = some t)
    (hmint : t.record = .mint assetId value mintCommit)
    (rawNf : Digest) :
    index.occurrences.find? (fun e =>
      refMatches ref e.txid e.location && e.binds sponge rawNf) = none := by
  rw [List.find?_eq_none, h.occurrences_eq]
  intro e he hcontra
  obtain ⟨t', ht', he'⟩ := List.mem_flatMap.mp he
  obtain ⟨-, htxid, hrecord, -⟩ := AnchorTx.mem_candidates he'
  obtain ⟨hmatches, hbinds⟩ := Bool.and_eq_true_iff.mp hcontra
  have ht := List.find?_some hfind
  simp only [refMatches, Bool.and_eq_true, beq_iff_eq] at hmatches ht
  have hsame : e.record = .mint assetId value mintCommit := by
    rw [hrecord, ← hmint]
    apply htxids t' ht' t (List.mem_of_find?_eq_some hfind)
    rw [← htxid, hmatches.1, ht.1]
  rw [ScannedAnchor.binds, hsame] at hbinds
  split at hbinds
  · cases hbinds
  · simp [versionedEnvelopeOccurrence] at hbinds

/-- The proof record of a mint binds no nullifier, in either view. -/
theorem proofRecordAt_mint_iff
    (h : index.Scanned txs)
    (htxids : TxidsNameRecords txs)
    {ref : AnchorRef}
    {t : AnchorTx}
    {rawNf : Digest}
    {proofRecord : AnchorRecord}
    {assetId mintCommit : TruncatedDigest}
    {value : UInt64}
    (hfind : (⟨index.syncedTip, txs⟩ : SnapshotChain).find ref = some t)
    (hmint : t.record = .mint assetId value mintCommit)
    (hbinds : recordBindsNullifiers sponge proofRecord t.ctx [rawNf] = true) :
    index.proofRecordAt sponge ref [rawNf] = some proofRecord
      ↔
    (⟨index.syncedTip, txs⟩ : SnapshotChain).proofRecordAt sponge ref [rawNf] =
      some proofRecord := by
  have hnone : index.occurrences.find? (fun e =>
      refMatches ref e.txid e.location && e.binds sponge rawNf) = none :=
    h.find?_binds_mint htxids hfind hmint rawNf
  simp only [ScanIndex.proofRecordAt, SnapshotChain.proofRecordAt, hfind, hmint, hnone]
  constructor
  · intro hcontra
    cases hcontra
  · intro heq
    rw [← Option.some.inj heq] at hbinds
    simp [recordBindsNullifiers] at hbinds

/-- A transaction that binds the nullifier gives the same proof record in both views. -/
theorem proofRecordAt_of_binds
    (h : index.Scanned txs)
    {ref : AnchorRef}
    {t : AnchorTx}
    {rawNf : Digest}
    (hfind : (⟨index.syncedTip, txs⟩ : SnapshotChain).find ref = some t)
    (hentry : SnapshotChain.entryMatchesNullifier sponge t rawNf = true) :
    index.proofRecordAt sponge ref [rawNf] =
      (⟨index.syncedTip, txs⟩ : SnapshotChain).proofRecordAt sponge ref [rawNf] := by
  obtain ⟨e, he, hrecord, hctx⟩ := h.find?_binds hfind hentry
  simp only [ScanIndex.proofRecordAt, SnapshotChain.proofRecordAt, hfind, he, hrecord, hctx]
  cases hr : t.record with
  | batchHeader count committed =>
      obtain ⟨⟨version, payloads⟩, hbatch⟩ := AnchorTx.batch_isSome_of_binds hr hentry
      rw [SnapshotChain.entryMatchesNullifier, hbatch, hr] at hentry
      simp only [hbatch]
      rw [if_pos hentry]
  | _ =>
      rfl

/-- A spend record other than XFERC has its nullifiers as occurrence keys. -/
theorem mem_occurrenceKeys
    {record : AnchorRecord}
    (hmint : record.recordClass ≠ .mint)
    (hcompressed : record.isXferCompressed = false)
    (rawNf : Digest) :
    rawNf ∈ occurrenceKeys sponge record [rawNf] := by
  cases record with
  | mint => exact absurd rfl hmint
  | xferCompressed => cases hcompressed
  | _ => exact List.mem_singleton_self rawNf

/-- Where acceptance reads a proof record, both views give the same one. -/
theorem proofRecordAt_iff
    (h : index.Scanned txs)
    (htxids : TxidsNameRecords txs)
    {ref : AnchorRef}
    {t : AnchorTx}
    {rawNullifiers : List Digest}
    {proofRecord : AnchorRecord}
    (hfind : (⟨index.syncedTip, txs⟩ : SnapshotChain).find ref = some t)
    (hfirst : ∀ key ∈ occurrenceKeys sponge t.record rawNullifiers,
      (txs.find? (fun t => SnapshotChain.entryMatchesNullifier sponge t key)).map
        AnchorTx.location = some t.location)
    (hbinds : recordBindsNullifiers sponge proofRecord t.ctx rawNullifiers = true) :
    index.proofRecordAt sponge ref rawNullifiers = some proofRecord
      ↔
    (⟨index.syncedTip, txs⟩ : SnapshotChain).proofRecordAt sponge ref rawNullifiers =
      some proofRecord := by
  have ht : t ∈ txs := List.mem_of_find?_eq_some hfind
  have hrecord : (index.find ref).map ScannedAnchor.record = some t.record := by
    rw [h.map_find ref (fun t _ e he => (AnchorTx.mem_candidates he).2.2.1), hfind]
    rfl
  rcases rawNullifiers with _ | ⟨rawNf, _ | ⟨rawNf', rawNullifiers⟩⟩
  · simp only [ScanIndex.proofRecordAt, SnapshotChain.proofRecordAt, hfind, hrecord]
    cases t.record <;> rfl
  · by_cases hmint : t.record.recordClass = .mint
    · cases hr : t.record with
      | mint assetId value mintCommit =>
          exact h.proofRecordAt_mint_iff htxids hfind hr hbinds
      | _ =>
          rw [hr] at hmint
          cases hmint
    · -- A key that first occurs here is bound by this transaction.
      obtain ⟨b, hb⟩ := (h.decoded t ht).parsed
      have hcompressed := AnchorRecord.fromBytes_isXferCompressed b
      rw [← hb] at hcompressed
      have hentry := h.binds_of_first ht
        (hfirst rawNf (mem_occurrenceKeys hmint hcompressed rawNf))
      rw [h.proofRecordAt_of_binds hfind hentry]
  · simp only [ScanIndex.proofRecordAt, SnapshotChain.proofRecordAt, hfind, hrecord]
    cases t.record <;> rfl

end Acceptance

end Scanned

/-- What the imported snapshot owes the index it was exported from. -/
structure Refines (chain index : AnchorChain) : Prop where
  anchorAt : ∀ ref, chain.anchorAt ref = index.anchorAt ref
  ctxAt : ∀ ref, chain.ctxAt ref = index.ctxAt ref
  locate : ∀ ref, chain.locate ref = index.locate ref
  firstNullifierOccurrence : ∀ rawNf,
    chain.firstNullifierOccurrence rawNf = index.firstNullifierOccurrence rawNf
  /-- Each anchor transaction is listed once, however many payloads it has. -/
  anchorsUpTo : ∀ height,
    chain.anchorsUpTo height = firstOfEach Prod.fst [] (index.anchorsUpTo height)
  confirmationsAt : ∀ height, height ≠ 0 →
    chain.confirmationsAt height = index.confirmationsAt height

namespace Scanned

variable {sponge : Sponge}
variable {index : ScanIndex}
variable {txs : List AnchorTx}

/-- The imported chain answers as the index does. -/
theorem refines
    (h : index.Scanned txs) :
    Refines ((⟨index.syncedTip, txs⟩ : SnapshotChain).toAnchorChain sponge)
      (index.toAnchorChain sponge) where
  anchorAt := fun ref =>
    (h.map_find ref (fun _ _ _ he => (AnchorTx.mem_candidates he).2.2.1)).symm
  ctxAt := fun ref =>
    (h.map_find ref (fun _ _ _ he => (AnchorTx.mem_candidates he).2.2.2)).symm
  locate := fun ref =>
    (h.map_find ref (fun _ _ _ he => (AnchorTx.mem_candidates he).1)).symm
  firstNullifierOccurrence := by
    intro rawNf
    rw [h.firstNullifierOccurrence_index]
    exact h.firstNullifierOccurrence_snapshot rawNf
  anchorsUpTo := h.anchorsUpTo_eq
  confirmationsAt := fun _ hheight => confirmationsAt_eq index txs hheight

/-- Facts about the snapshot chain are facts about one of its transactions. -/
theorem find_of_answers
    {ref : AnchorRef}
    {record : AnchorRecord}
    {ctx : Ctx}
    {location : AnchorLocation}
    {chain : SnapshotChain}
    (hanchorAt : (chain.toAnchorChain sponge).anchorAt ref = some record)
    (hctxAt : (chain.toAnchorChain sponge).ctxAt ref = some ctx)
    (hlocate : (chain.toAnchorChain sponge).locate ref = some location) :
    ∃ t, chain.find ref = some t ∧ t.record = record ∧ t.ctx = ctx ∧
      t.location = location := by
  obtain ⟨t, hfind, hrecord⟩ := Option.map_eq_some_iff.mp hanchorAt
  simp only [SnapshotChain.toAnchorChain, hfind, Option.map_some, Option.some.injEq]
    at hctxAt hlocate
  exact ⟨t, hfind, hrecord, hctxAt, hlocate⟩

/-- The facts of an acceptance carry over between the two views. -/
theorem acceptFacts_iff
    (h : index.Scanned txs)
    (htxids : TxidsNameRecords txs)
    {consignment : Consignment}
    {verifier : ProofVerifier}
    {params : PublicOwnerAcceptParams}
    {accepted : AcceptedCoins}
    {record proofRecord : AnchorRecord}
    {ctx : Ctx} :
    AcceptFacts sponge consignment
        ((⟨index.syncedTip, txs⟩ : SnapshotChain).toAnchorChain sponge) verifier params accepted
        record proofRecord ctx
      ↔
    AcceptFacts sponge consignment (index.toAnchorChain sponge) verifier params accepted
      record proofRecord ctx := by
  have hrefines : Refines ((⟨index.syncedTip, txs⟩ : SnapshotChain).toAnchorChain sponge)
      (index.toAnchorChain sponge) := h.refines
  -- Both views read the same transaction, and the same proof record for it.
  have hshared : ∀ {location : AnchorLocation},
      ((⟨index.syncedTip, txs⟩ : SnapshotChain).toAnchorChain sponge).anchorAt
        consignment.anchorRef = some record →
      ((⟨index.syncedTip, txs⟩ : SnapshotChain).toAnchorChain sponge).ctxAt
        consignment.anchorRef = some ctx →
      ((⟨index.syncedTip, txs⟩ : SnapshotChain).toAnchorChain sponge).locate
        consignment.anchorRef = some location →
      (∀ key ∈ occurrenceKeys sponge record consignment.nullifiers,
        (index.toAnchorChain sponge).firstNullifierOccurrence key = some location) →
      recordBindsNullifiers sponge proofRecord ctx consignment.nullifiers = true →
      location.height ≠ 0 ∧
        (index.proofRecordAt sponge consignment.anchorRef consignment.nullifiers =
            some proofRecord
          ↔
        (⟨index.syncedTip, txs⟩ : SnapshotChain).proofRecordAt sponge consignment.anchorRef
          consignment.nullifiers = some proofRecord) := by
    intro location hanchorAt hctxAt hlocate hfirst hbinds
    obtain ⟨t, hfind, rfl, rfl, rfl⟩ := find_of_answers hanchorAt hctxAt hlocate
    constructor
    · intro hzero
      have hpositive := h.positive t (List.mem_of_find?_eq_some hfind)
      rw [hzero] at hpositive
      exact lt_irrefl _ hpositive
    · apply h.proofRecordAt_iff htxids hfind _ hbinds
      intro key hkey
      rw [← h.firstNullifierOccurrence_index, hfirst key hkey]
  constructor
  · intro hfacts
    have hfirst : ∀ key ∈ occurrenceKeys sponge record consignment.nullifiers,
        (index.toAnchorChain sponge).firstNullifierOccurrence key = some accepted.anchor := by
      intro key hkey
      rw [← hrefines.firstNullifierOccurrence]
      exact hfacts.first key hkey
    obtain ⟨hheight, hproof⟩ := hshared hfacts.anchorAt hfacts.ctxAt hfacts.locate hfirst
      hfacts.binds
    exact { hfacts with
      anchorAt := (hrefines.anchorAt _).symm.trans hfacts.anchorAt
      ctxAt := (hrefines.ctxAt _).symm.trans hfacts.ctxAt
      locate := (hrefines.locate _).symm.trans hfacts.locate
      proofRecordAt := hproof.mpr hfacts.proofRecordAt
      confirmed := hrefines.confirmationsAt _ hheight ▸ hfacts.confirmed
      first := hfirst }
  · intro hfacts
    have hanchorAt := (hrefines.anchorAt _).trans hfacts.anchorAt
    have hctxAt := (hrefines.ctxAt _).trans hfacts.ctxAt
    have hlocate := (hrefines.locate _).trans hfacts.locate
    obtain ⟨hheight, hproof⟩ := hshared hanchorAt hctxAt hlocate hfacts.first hfacts.binds
    exact { hfacts with
      anchorAt := hanchorAt
      ctxAt := hctxAt
      locate := hlocate
      proofRecordAt := hproof.mp hfacts.proofRecordAt
      confirmed := (hrefines.confirmationsAt _ hheight).symm ▸ hfacts.confirmed
      first := by
        intro key hkey
        rw [hrefines.firstNullifierOccurrence]
        exact hfacts.first key hkey }

end Scanned

section Export

variable {sha256 : Sha256}
variable {sponge : Sponge}

/--
The exported snapshot of a reachable index is imported, and the imported chain
answers and accepts as the index does.  Each anchor transaction is listed once.
-/
theorem exportSnapshot_refines
    {index : ScanIndex}
    (hreach : Reachable sha256 index)
    (hexport : ∀ e ∈ index.occurrences, e.anchorTx.exportable sponge = true)
    (htxids : ∀ e ∈ index.occurrences, ∀ e' ∈ index.occurrences,
      e.txid = e'.txid → e.record = e'.record) :
    ∃ snapshot chain,
      Snapshot.fromJson (exportSnapshotJson index) = .ok snapshot ∧
      SnapshotChain.fromSnapshot sponge snapshot = .ok chain ∧
      Refines (chain.toAnchorChain sponge) (index.toAnchorChain sponge) ∧
      ∀ consignment verifier params accepted,
        acceptForPublicOwners sponge consignment (chain.toAnchorChain sponge) verifier params =
            .ok accepted
          ↔
        acceptForPublicOwners sponge consignment (index.toAnchorChain sponge) verifier params =
          .ok accepted := by
  obtain ⟨txs, h⟩ := hreach.scanned
  have hcandidate : ∀ t ∈ txs, t.firstCandidate ∈ index.occurrences ∧
      t.firstCandidate.anchorTx = t := by
    intro t ht
    have hmem := List.mem_of_mem_head? (h.decoded t ht).head?_candidates
    rw [h.occurrences_eq]
    exact ⟨List.mem_flatMap.mpr ⟨t, ht, hmem⟩, AnchorTx.anchorTx_of_mem_candidates hmem⟩
  have hexport' : ∀ t ∈ txs, t.exportable sponge = true := by
    intro t ht
    obtain ⟨hmem, heq⟩ := hcandidate t ht
    exact heq ▸ hexport t.firstCandidate hmem
  have htxids' : Scanned.TxidsNameRecords txs := by
    intro t ht t' ht' htxid
    exact htxids _ (hcandidate t ht).1 _ (hcandidate t' ht').1 htxid
  refine ⟨_, _, Snapshot.fromJson_toJson _, h.fromSnapshot_eq hexport', h.refines, ?_⟩
  intro consignment verifier params accepted
  rw [acceptForPublicOwners_ok_iff, acceptForPublicOwners_ok_iff]
  simp only [h.acceptFacts_iff htxids']

end Export

namespace Sample

/-- The funding outpoint of a batch transaction, and the context it gives. -/
def funding : OutPoint where
  txid := List.Vector.replicate 32 7
  vout := 0

def ctx : Ctx := fundingCtx Sha2.sha256 funding

/-- Two spends in one legacy batch. -/
def payloads : List TruncatedDigest :=
  [bound foldSponge ctx (Digest.fill 1), bound foldSponge ctx (Digest.fill 2)]

def header : AnchorRecord :=
  .batchHeader 2 (versionedBatchCommit foldSponge .v1 payloads ctx).toAnchor

def batchTx : Transaction where
  version := 2
  inputs := [⟨funding, [], 0xfffffffd⟩]
  outputs := [⟨0, anchorScript header.toBytes⟩, ⟨330, markerSpk⟩]
  lockTime := 0
  witnesses := [witnessMagic :: payloads.map (fun p => p.bytes.toList) ++ [[0x51]]]

def block : Block where
  header :=
    { version := 2
      prevBlock := Bytes.zero 32
      merkleRoot := batchTx.txid Sha2.sha256
      time := 0
      bits := 0x207fffff
      nonce := 0 }
  txs := [batchTx]
  txs_le := by decide

/-- A client one block above genesis. -/
def view : ClientView where
  tipHeight := 1
  tip_lt := by decide
  blockHash := fun _ => some (List.Vector.replicate 32 5)
  filterMatches := fun _ spk => some (spk == markerSpk)
  fetchBlock := fun _ => some block

def index : ScanIndex :=
  (fresh.scanSync Sha2.sha256 view 1).1

theorem index_reachable :
    Reachable Sha2.sha256 index :=
  (Reachable.ofFresh Sha2.sha256).ofScanSync view 1

theorem index_exportable :
    ∀ e ∈ index.occurrences, e.anchorTx.exportable foldSponge = true := by
  decide +kernel

theorem index_txids :
    ∀ e ∈ index.occurrences, ∀ e' ∈ index.occurrences,
      e.txid = e'.txid → e.record = e'.record := by
  decide +kernel

theorem batch_export_refines :
    ∃ snapshot chain,
      Snapshot.fromJson (exportSnapshotJson index) = .ok snapshot ∧
      SnapshotChain.fromSnapshot foldSponge snapshot = .ok chain ∧
      Refines (chain.toAnchorChain foldSponge) (index.toAnchorChain foldSponge) := by
  obtain ⟨snapshot, chain, hjson, himport, hrefines, -⟩ :=
    exportSnapshot_refines index_reachable index_exportable index_txids
  exact ⟨snapshot, chain, hjson, himport, hrefines⟩

/-- The index lists a batch once per payload, the snapshot once. -/
theorem batch_listed_per_payload :
    Reachable Sha2.sha256 index ∧
      ¬ ∃ snapshot chain,
        Snapshot.fromJson (exportSnapshotJson index) = .ok snapshot ∧
        SnapshotChain.fromSnapshot foldSponge snapshot = .ok chain ∧
        ∀ height, (chain.toAnchorChain foldSponge).anchorsUpTo height =
          (index.toAnchorChain foldSponge).anchorsUpTo height := by
  refine ⟨index_reachable, ?_⟩
  rintro ⟨snapshot, chain, hjson, himport, hall⟩
  rw [exportSnapshotJson, Snapshot.fromJson_toJson] at hjson
  obtain rfl := Except.ok.inj hjson
  have hchain : (SnapshotChain.fromSnapshot foldSponge
      ⟨index.syncedTip, snapshotEntries index.occurrences⟩).map
        (fun chain => ((chain.toAnchorChain foldSponge).anchorsUpTo 1).length) = .ok 1 := by
    decide +kernel
  have hindex : ((index.toAnchorChain foldSponge).anchorsUpTo 1).length = 2 := by
    decide +kernel
  rw [himport, Except.map, hall 1, hindex] at hchain
  cases hchain

end Sample

end ScanIndex

end OpenCsv
