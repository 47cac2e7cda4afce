import OpenCsv.Cbf.Block
import OpenCsv.Core.Accept

/-!
# The filter scan and its index

The scan walks the verified filters up to the client's tip, fetches every
matching block, and stores each anchor candidate with its recomputed context.
A batch contributes one candidate per payload of its envelope.  On a chain view
that no longer contains the scanned headers, the index drops everything above
the common ancestor before it goes on.

Header chain, filters and block fetches are answers of the client; any of them
may fail at any call, and the blocks are whatever miners put on the chain.

**Results.** The candidates of one transaction are the candidates of one
`AnchorTx`, and in every reachable index the candidates are those of anchor
transactions in strictly increasing chain order, inside the scanned range
(`ScanIndex.Reachable.scanned`).
-/

namespace OpenCsv

/-- A payload of a batch, with the whole envelope it came from. -/
structure BatchCandidate where
  version : BatchVersion
  index : UInt32
  envelope : List TruncatedDigest
deriving DecidableEq

/-- One 64-byte OP_RETURN candidate of a scanned block. -/
structure ScannedAnchor where
  location : AnchorLocation
  txid : Bytes 32
  record : AnchorRecord
  ctx : Ctx
  batch : Option BatchCandidate
deriving DecidableEq

/-- Occurrence test of one candidate. -/
def ScannedAnchor.binds (sponge : Sponge) (e : ScannedAnchor) (rawNf : Digest) : Bool :=
  match e.batch with
  | none => e.record.wellFormed sponge e.ctx rawNf
  | some batch =>
      versionedEnvelopeOccurrence sponge batch.version e.record batch.envelope e.ctx rawNf ==
        some batch.index

/-- An anchor transaction, with its decoded envelope if it is a batch. -/
structure AnchorTx where
  location : AnchorLocation
  txid : Bytes 32
  record : AnchorRecord
  ctx : Ctx
  batch : Option (BatchVersion × List TruncatedDigest)
deriving DecidableEq

/-- The candidates of an anchor transaction: one, or one per payload. -/
def AnchorTx.candidates (t : AnchorTx) : List ScannedAnchor :=
  match t.batch with
  | none => [⟨t.location, t.txid, t.record, t.ctx, none⟩]
  | some (version, envelope) =>
      (List.range envelope.length).map (fun index =>
        ⟨t.location, t.txid, t.record, t.ctx, some ⟨version, UInt32.ofNat index, envelope⟩⟩)

section Blocks

variable (sha256 : Sha256)

/-- The anchor a transaction carries: its first 64-byte OP_RETURN output. -/
def anchorOfTx (height : UInt64) (position : ℕ) (tx : Transaction) : Option AnchorTx :=
  if tx.isCoinbase then
    none
  else
    match tx.inputs with
    | [] => none
    | funding :: _ =>
        (tx.outputs.findSome? (fun output => opReturnPayload output.scriptPubkey)).map
          (fun payload =>
            let record := AnchorRecord.fromBytes payload
            { location := ⟨height, UInt32.ofNat position⟩
              txid := tx.txid sha256
              record := record
              ctx := fundingCtx sha256 funding.prev
              batch :=
                match record with
                -- Without a decodable envelope nothing in the header can bind.
                | .batchHeader .. => tx.witnesses.head?.bind witnessEnvelopeDecode
                | _ => none })

/-- The anchor transactions of a block, in block order. -/
def anchorTxs (block : Block) (height : UInt64) : List AnchorTx :=
  block.txs.zipIdx.filterMap (fun (tx, position) => anchorOfTx sha256 height position tx)

/-- Every anchor candidate of a block. -/
def anchorsInBlock (block : Block) (height : UInt64) : List ScannedAnchor :=
  (anchorTxs sha256 block height).flatMap AnchorTx.candidates

end Blocks

/-- The marker output of anchor transactions, which basic filters contain. -/
def markerSpk : List UInt8 :=
  [
    0x00, 0x20, 0x18, 0x9f, 0x40, 0x03, 0x4b, 0xe7, 0xa1, 0x99, 0xf1, 0xfa,
    0x98, 0x91, 0x66, 0x8e, 0xe3, 0xab, 0x60, 0x49, 0xf8, 0x2d, 0x38, 0xc6,
    0x8b, 0xe7, 0x0f, 0x59, 0x6e, 0xab, 0x2e, 0x18, 0x57, 0xb7 ]

/-- The value of the marker output. -/
def markerDustSats : UInt64 := 546

/-- The historical marker output. -/
def legacyMarkerSpk : List UInt8 :=
  [
    0x00, 0x20, 0x4a, 0xe8, 0x15, 0x72, 0xf0, 0x6e, 0x1b, 0x88, 0xfd, 0x5c,
    0xed, 0x7a, 0x1a, 0x00, 0x09, 0x45, 0x43, 0x2e, 0x83, 0xe1, 0x55, 0x1e,
    0x6f, 0x72, 0x1e, 0xe9, 0xc0, 0x0b, 0x8c, 0xc3, 0x32, 0x60 ]

/-- The client's answers during one call; `none` is a failed query. -/
structure ClientView where
  tipHeight : UInt64
  /-- The header chain is held in memory, so it never reaches the last height. -/
  tip_lt : tipHeight.toNat + 1 < 2 ^ 64
  blockHash : UInt64 → Option (Bytes 32)
  filterMatches : UInt64 → List UInt8 → Option Bool
  fetchBlock : Bytes 32 → Option Block

/-- Failures of a sync. -/
inductive ScanError where
  | noHeader (height : UInt64)
  | lineageTooShort
  | merkleMismatch (blockHash : Bytes 32)
  | client
deriving DecidableEq

/-- The occurrence index. -/
structure ScanIndex where
  fromHeight : UInt64
  syncedTip : UInt64
  chainHashes : List (Bytes 32)
  occurrences : List ScannedAnchor
deriving DecidableEq

namespace ScanIndex

/-- An index without a stored file. -/
def fresh : ScanIndex where
  fromHeight := 0
  syncedTip := 0
  chainHashes := []
  occurrences := []

/-- `u64::saturating_sub` of one. -/
def pred (n : UInt64) : UInt64 :=
  if n = 0 then 0 else n - 1

/--
Walk back from height `fromHeight + offset` to the highest stored header that is
still canonical; `none` when no stored header is.
-/
def commonAncestor
    (index : ScanIndex)
    (canonicalHash : UInt64 → Option (Bytes 32)) :
    ℕ → Except ScanError (Option UInt64)
  | 0 => .ok none
  | offset + 1 => do
      let height := index.fromHeight + UInt64.ofNat offset
      let stored ← okOr index.chainHashes[offset]? .lineageTooShort
      let canonical ← okOr (canonicalHash height) (.noHeader height)
      if stored = canonical then
        return some height
      else
        commonAncestor index canonicalHash offset

/-- Drop everything above `ancestor`. -/
def truncate (index : ScanIndex) (ancestor : UInt64) : ScanIndex :=
  if ancestor < index.syncedTip then
    { index with
      occurrences := index.occurrences.filter (fun e => e.location.height ≤ ancestor)
      chainHashes := index.chainHashes.take
        (if ancestor < index.fromHeight then 0
          else (ancestor - index.fromHeight).toNat + 1)
      syncedTip := ancestor }
  else
    index

/-- Reconcile the index with the client's header chain. -/
def reconcileChainView (index : ScanIndex) (view : ClientView) : Except ScanError ScanIndex :=
  if index.chainHashes = [] then
    .ok index
  else do
    let commonTip := min index.syncedTip view.tipHeight
    let scanned :=
      if index.fromHeight ≤ commonTip then (commonTip - index.fromHeight).toNat + 1 else 0
    let ancestor ← commonAncestor index view.blockHash scanned
    return index.truncate (ancestor.getD (pred index.fromHeight))

section Sync

variable (sha256 : Sha256)

/-- The anchors of a fetched block, once its Merkle root matches its header. -/
def fetchAnchors
    (view : ClientView)
    (blockHash : Bytes 32)
    (height : UInt64) : Except ScanError (List ScannedAnchor) := do
  let block ← okOr (view.fetchBlock blockHash) .client
  if block.computeMerkleRoot sha256 ≠ some block.header.merkleRoot then
    .error (.merkleMismatch blockHash)
  else
    .ok (anchorsInBlock sha256 block height)

/-- Check one height: the filter decides whether the block is fetched. -/
def scanHeight
    (view : ClientView)
    (index : ScanIndex)
    (height : UInt64) : Except ScanError ScanIndex := do
  let blockHash ← okOr (view.blockHash height) (.noHeader height)
  let currentMarker ← okOr (view.filterMatches height markerSpk) .client
  let legacyMarker ← okOr (view.filterMatches height legacyMarkerSpk) .client
  let found ← bif currentMarker || legacyMarker then
      fetchAnchors sha256 view blockHash height
    else
      .ok []
  return { index with
    occurrences := index.occurrences ++ found
    chainHashes := index.chainHashes ++ [blockHash]
    syncedTip := height }

/-- Check the next `count` heights; a failure keeps what was scanned before it. -/
def scanHeights
    (view : ClientView) :
    ℕ → ScanIndex → UInt64 → ScanIndex × Except ScanError Unit
  | 0, index, _ => (index, .ok ())
  | count + 1, index, height =>
      match scanHeight sha256 view index height with
      | .error e => (index, .error e)
      | .ok index' => scanHeights view count index' (height + 1)

/-- The start height of a fresh index is set by its first sync. -/
def start (index : ScanIndex) (fromHeight : UInt64) : ScanIndex :=
  if index.fromHeight = 0 then
    { index with fromHeight := max fromHeight 1, syncedTip := pred (max fromHeight 1) }
  else
    index

/-- Sync the index up to the client's tip. -/
def scanSync
    (index : ScanIndex)
    (view : ClientView)
    (fromHeight : UInt64) : ScanIndex × Except ScanError Unit :=
  let index := index.start fromHeight
  match index.reconcileChainView view with
  | .error e => (index, .error e)
  | .ok index =>
      let nextHeight := max (saturatingAdd index.syncedTip 1) index.fromHeight
      let count :=
        if nextHeight ≤ view.tipHeight then (view.tipHeight - nextHeight).toNat + 1 else 0
      scanHeights sha256 view count index nextHeight

/-- The index as a system: one sync per step, against any client answers. -/
def system : System ScanIndex (ClientView × UInt64) where
  init := fun index => index = fresh
  step := fun index call index' => index' = (index.scanSync sha256 call.1 call.2).1

/-- Indexes built by any sequence of syncs, failed ones included. -/
def Reachable (index : ScanIndex) : Prop :=
  (system sha256).Reachable index

theorem Reachable.ofFresh :
    Reachable sha256 fresh :=
  System.Reachable.init rfl

theorem Reachable.ofScanSync
    {sha256 : Sha256}
    {index : ScanIndex}
    (h : Reachable sha256 index)
    (view : ClientView)
    (fromHeight : UInt64) :
    Reachable sha256 (index.scanSync sha256 view fromHeight).1 :=
  System.Reachable.step (a := (view, fromHeight)) h rfl

end Sync

section Chain

variable (sponge : Sponge)

/-- The placeholder location of a broadcast-style reference. -/
def mempool : AnchorLocation := ⟨0, 0⟩

/-- Does a reference name this transaction at this location? -/
def refMatches (ref : AnchorRef) (txid : Bytes 32) (location : AnchorLocation) : Bool :=
  txid == ref.txid && (location == ref.location || ref.location == mempool)

/-- Entry lookup by reference, or by transaction id for a placeholder location. -/
def find (index : ScanIndex) (ref : AnchorRef) : Option ScannedAnchor :=
  index.occurrences.find? (fun e => refMatches ref e.txid e.location)

/-- The proof record of one consignment; see `AnchorChain.proofRecordAt`. -/
def proofRecordAt
    (index : ScanIndex)
    (ref : AnchorRef)
    (rawNullifiers : List Digest) : Option AnchorRecord :=
  match rawNullifiers with
  | [rawNf] =>
      match index.occurrences.find? (fun e =>
          refMatches ref e.txid e.location && e.binds sponge rawNf) with
      | none => none
      | some e =>
          match e.record with
          | .batchHeader .. => AnchorRecord.xferOf sponge [rawNf] e.ctx
          | record => some record
  | _ => AnchorChain.soloProofRecord ((index.find ref).map ScannedAnchor.record)

/-- The least location, in chain order. -/
def minLocation (locations : List AnchorLocation) : Option AnchorLocation :=
  (locations.insertionSort (fun a b => a.le b = true)).head?

/-- The index as an anchor chain. -/
def toAnchorChain (index : ScanIndex) : AnchorChain where
  tipHeight := index.syncedTip
  anchorAt := fun ref => (index.find ref).map ScannedAnchor.record
  proofRecordAt := index.proofRecordAt sponge
  ctxAt := fun ref => (index.find ref).map ScannedAnchor.ctx
  locate := fun ref => (index.find ref).map ScannedAnchor.location
  firstNullifierOccurrence := fun rawNf =>
    minLocation ((index.occurrences.filter (fun e => e.binds sponge rawNf)).map
      ScannedAnchor.location)
  nullifierOccurrences := fun rawNf =>
    ((index.occurrences.filter (fun e => e.binds sponge rawNf)).map
      ScannedAnchor.location).insertionSort (fun a b => a.le b = true)
  anchorsUpTo := fun height =>
    (index.occurrences.filter (fun e => e.location.height ≤ height)).map
      (fun e => (e.location, e.record))
  confirmationsAt := AnchorChain.depthBelow index.syncedTip

end Chain

end ScanIndex

section Candidates

variable {sha256 : Sha256}

/-- All candidates of a transaction share its location, id, record and context. -/
theorem AnchorTx.mem_candidates
    {t : AnchorTx}
    {e : ScannedAnchor}
    (h : e ∈ t.candidates) :
    e.location = t.location ∧ e.txid = t.txid ∧ e.record = t.record ∧ e.ctx = t.ctx := by
  unfold candidates at h
  split at h
  · rw [List.mem_singleton.mp h]
    exact ⟨rfl, rfl, rfl, rfl⟩
  · obtain ⟨index, -, rfl⟩ := List.mem_map.mp h
    exact ⟨rfl, rfl, rfl, rfl⟩

/-- What the scanner decodes: a parsed record, and envelopes on batch headers only. -/
structure AnchorTx.Decoded (t : AnchorTx) : Prop where
  parsed : ∃ b, t.record = AnchorRecord.fromBytes b
  envelope : ∀ {version : BatchVersion} {envelope : List TruncatedDigest},
    t.batch = some (version, envelope) → t.record.recordClass = .batch ∧ envelope ≠ []

/-- A decoded transaction has a candidate. -/
theorem AnchorTx.Decoded.candidates_ne_nil
    {t : AnchorTx}
    (h : t.Decoded) :
    t.candidates ≠ [] := by
  unfold candidates
  split
  · simp
  · rename_i version envelope hbatch
    simpa using (h.envelope hbatch).2

/-- The anchor of a transaction is decoded, at the given place. -/
theorem anchorOfTx_spec
    {height : UInt64}
    {position : ℕ}
    {tx : Transaction}
    {t : AnchorTx}
    (h : anchorOfTx sha256 height position tx = some t) :
    t.location = ⟨height, UInt32.ofNat position⟩ ∧ t.Decoded := by
  unfold anchorOfTx at h
  split_ifs at h
  split at h
  · cases h
  · obtain ⟨payload, -, rfl⟩ := Option.map_eq_some_iff.mp h
    refine ⟨rfl, ⟨payload, rfl⟩, ?_⟩
    intro version envelope hbatch
    simp only at hbatch ⊢
    split at hbatch
    · rename_i count committed hrecord
      obtain ⟨witness, -, hdecode⟩ := Option.bind_eq_some_iff.mp hbatch
      rw [hrecord]
      exact ⟨rfl, witnessEnvelopeDecode_ne_nil hdecode⟩
    · cases hbatch

/-- Anchors of a block sit at its height, in strictly increasing order. -/
theorem anchorTxs_spec
    (block : Block)
    (height : UInt64) :
    (anchorTxs sha256 block height).Pairwise (fun a b => a.location.key < b.location.key) ∧
      ∀ t ∈ anchorTxs sha256 block height, t.location.height = height ∧ t.Decoded := by
  constructor
  · rw [anchorTxs, List.pairwise_filterMap, List.pairwise_iff_getElem]
    intro i j hi hj hij t ht t' ht'
    simp only [List.getElem_zipIdx, Nat.zero_add] at ht ht'
    rw [(anchorOfTx_spec ht).1, (anchorOfTx_spec ht').1]
    have hlen := block.txs_le
    simp only [maxBlockTxs] at hlen
    simp only [List.length_zipIdx] at hi hj
    simp only [AnchorLocation.key, UInt32.toNat_ofNat']
    omega
  · intro t ht
    obtain ⟨⟨tx, position⟩, -, hsome⟩ := List.mem_filterMap.mp ht
    obtain ⟨hlocation, hdecoded⟩ := anchorOfTx_spec hsome
    exact ⟨by rw [hlocation], hdecoded⟩

end Candidates

namespace ScanIndex

section Invariant

variable {sha256 : Sha256}

/-- The candidates of an index are those of anchor transactions in chain order. -/
structure Scanned (index : ScanIndex) (txs : List AnchorTx) : Prop where
  occurrences_eq : index.occurrences = txs.flatMap AnchorTx.candidates
  sorted : txs.Pairwise (fun a b => a.location.key < b.location.key)
  positive : ∀ t ∈ txs, 0 < t.location.height.toNat
  covered : ∀ t ∈ txs, t.location.height.toNat ≤ index.syncedTip.toNat
  decoded : ∀ t ∈ txs, t.Decoded
  bounded : index.syncedTip.toNat + 1 < 2 ^ 64
  unstarted : index.fromHeight = 0 → txs = []

theorem fresh_scanned :
    fresh.Scanned [] where
  occurrences_eq := rfl
  sorted := List.Pairwise.nil
  positive := by simp
  covered := by simp
  decoded := by simp
  bounded := by decide
  unstarted := fun _ => rfl

/-- A filter on locations keeps or drops the candidates of a transaction together. -/
theorem filter_flatMap_candidates
    (p : AnchorLocation → Bool)
    (txs : List AnchorTx) :
    (txs.flatMap AnchorTx.candidates).filter (fun e => p e.location) =
      (txs.filter (fun t => p t.location)).flatMap AnchorTx.candidates := by
  induction txs with
  | nil =>
      rfl
  | cons t txs ih =>
      have hgroup : t.candidates.filter (fun e => p e.location) =
          if p t.location then t.candidates else [] := by
        split_ifs with hp
        · rw [List.filter_eq_self]
          intro e he
          rw [(AnchorTx.mem_candidates he).1, hp]
        · rw [List.filter_eq_nil_iff]
          intro e he
          rw [(AnchorTx.mem_candidates he).1]
          exact hp
      rw [List.flatMap_cons, List.filter_append, ih, hgroup, List.filter_cons]
      split_ifs
      · rfl
      · rfl

theorem truncate_scanned
    {index : ScanIndex}
    {txs : List AnchorTx}
    (h : index.Scanned txs)
    (ancestor : UInt64) :
    ∃ txs', (index.truncate ancestor).Scanned txs' := by
  by_cases hlt : ancestor < index.syncedTip
  · rw [truncate, if_pos hlt]
    refine ⟨txs.filter (fun t => t.location.height ≤ ancestor), ?_, ?_, ?_, ?_, ?_, ?_, ?_⟩
    · show index.occurrences.filter _ = _
      rw [h.occurrences_eq]
      exact filter_flatMap_candidates (fun location => location.height ≤ ancestor) txs
    · exact h.sorted.filter _
    · intro t ht
      exact h.positive t (List.mem_of_mem_filter ht)
    · intro t ht
      have hle := (List.mem_filter.mp ht).2
      simpa [UInt64.le_iff_toNat_le] using hle
    · intro t ht
      exact h.decoded t (List.mem_of_mem_filter ht)
    · have hbounded := h.bounded
      have hlt' := UInt64.lt_iff_toNat_lt.mp hlt
      show ancestor.toNat + 1 < 2 ^ 64
      omega
    · intro hzero
      rw [h.unstarted hzero]
      rfl
  · rw [truncate, if_neg hlt]
    exact ⟨txs, h⟩

theorem reconcileChainView_scanned
    {index index' : ScanIndex}
    {txs : List AnchorTx}
    {view : ClientView}
    (h : index.Scanned txs)
    (hok : index.reconcileChainView view = .ok index') :
    ∃ txs', index'.Scanned txs' := by
  unfold reconcileChainView at hok
  split_ifs at hok
  · obtain rfl := Except.ok.inj hok
    exact ⟨txs, h⟩
  · simp only [except_bind_eq_ok_iff, pure, Except.pure, Except.ok.injEq] at hok
    obtain ⟨ancestor, -, rfl⟩ := hok
    exact truncate_scanned h _

/-- A checked height appends the anchors of its block, if the block was fetched. -/
theorem scanHeight_eq_ok
    {view : ClientView}
    {index index' : ScanIndex}
    {height : UInt64}
    (hok : scanHeight sha256 view index height = .ok index') :
    ∃ (txs : List AnchorTx) (blockHash : Bytes 32),
      (txs = [] ∨ ∃ block, txs = anchorTxs sha256 block height) ∧
      index' = { index with
        occurrences := index.occurrences ++ txs.flatMap AnchorTx.candidates
        chainHashes := index.chainHashes ++ [blockHash]
        syncedTip := height } := by
  simp only [scanHeight, except_bind_eq_ok_iff, okOr_eq_ok_iff, pure, Except.pure,
    Except.ok.injEq] at hok
  obtain ⟨blockHash, -, currentMarker, -, legacyMarker, -, found, hfound, rfl⟩ := hok
  cases hmarker : currentMarker || legacyMarker with
  | true =>
      rw [hmarker, cond_true] at hfound
      simp only [fetchAnchors, except_bind_eq_ok_iff, okOr_eq_ok_iff] at hfound
      obtain ⟨block, -, hfound⟩ := hfound
      split_ifs at hfound
      obtain rfl := Except.ok.inj hfound
      exact ⟨anchorTxs sha256 block height, blockHash, Or.inr ⟨block, rfl⟩, rfl⟩
  | false =>
      rw [hmarker, cond_false] at hfound
      obtain rfl := Except.ok.inj hfound
      exact ⟨[], blockHash, Or.inl rfl, rfl⟩

theorem scanHeight_scanned
    {view : ClientView}
    {index index' : ScanIndex}
    {txs : List AnchorTx}
    {height : UInt64}
    (h : index.Scanned txs)
    (hstarted : index.fromHeight ≠ 0)
    (hnext : index.syncedTip.toNat < height.toNat)
    (hbound : height.toNat + 1 < 2 ^ 64)
    (hok : scanHeight sha256 view index height = .ok index') :
    (∃ txs', index'.Scanned txs') ∧ index'.fromHeight = index.fromHeight ∧
      index'.syncedTip = height := by
  obtain ⟨new, blockHash, hnew, rfl⟩ := scanHeight_eq_ok hok
  refine ⟨⟨txs ++ new, ?_⟩, rfl, rfl⟩
  have hspec : new.Pairwise (fun a b => a.location.key < b.location.key) ∧
      ∀ t ∈ new, t.location.height = height ∧ t.Decoded := by
    rcases hnew with rfl | ⟨block, rfl⟩
    · simp
    · exact anchorTxs_spec block height
  -- Everything stored so far lies below the new height.
  have hold : ∀ t ∈ txs, t.location.height.toNat < height.toNat := by
    intro t ht
    exact (h.covered t ht).trans_lt hnext
  constructor
  · rw [List.flatMap_append, ← h.occurrences_eq]
  · refine List.pairwise_append.mpr ⟨h.sorted, hspec.1, ?_⟩
    intro t ht t' ht'
    have hlt := hold t ht
    have hheight := (hspec.2 t' ht').1
    have hposition : t.location.position.toNat < 2 ^ 32 := t.location.position.toNat_lt
    simp only [AnchorLocation.key, hheight]
    omega
  · intro t ht
    rcases List.mem_append.mp ht with ht | ht
    · exact h.positive t ht
    · rw [(hspec.2 t ht).1]
      omega
  · intro t ht
    rcases List.mem_append.mp ht with ht | ht
    · exact (hold t ht).le
    · rw [(hspec.2 t ht).1]
  · intro t ht
    rcases List.mem_append.mp ht with ht | ht
    · exact h.decoded t ht
    · exact (hspec.2 t ht).2
  · exact hbound
  · intro hzero
    exact absurd hzero hstarted

theorem scanHeights_scanned
    {view : ClientView}
    (count : ℕ)
    {index : ScanIndex}
    {txs : List AnchorTx}
    {height : UInt64}
    (h : index.Scanned txs)
    (hstarted : index.fromHeight ≠ 0)
    (hnext : index.syncedTip.toNat < height.toNat)
    (hbound : height.toNat + count < 2 ^ 64) :
    ∃ txs', (scanHeights sha256 view count index height).1.Scanned txs' := by
  induction count generalizing index txs height with
  | zero =>
      exact ⟨txs, h⟩
  | succ count ih =>
      rw [scanHeights]
      cases hscan : scanHeight sha256 view index height with
      | error e =>
          exact ⟨txs, h⟩
      | ok index' =>
          have hbound' : height.toNat + 1 < 2 ^ 64 := by
            omega
          obtain ⟨⟨txs', h'⟩, hfrom, htip⟩ :=
            scanHeight_scanned h hstarted hnext hbound' hscan
          have hsucc : (height + 1).toNat = height.toNat + 1 := by
            rw [UInt64.toNat_add]
            exact Nat.mod_eq_of_lt hbound'
          apply ih h'
          · rwa [hfrom]
          · rw [htip, hsucc]
            omega
          · rw [hsucc]
            omega

theorem toNat_max
    (a b : UInt64) :
    (max a b).toNat = max a.toNat b.toNat := by
  show (if a ≤ b then b else a).toNat = _
  simp only [UInt64.le_iff_toNat_le]
  split_ifs
  · omega
  · omega

theorem saturatingAdd_one
    {n : UInt64}
    (h : n.toNat + 1 < 2 ^ 64) :
    (saturatingAdd n 1).toNat = n.toNat + 1 := by
  have hone : (1 : UInt64).toNat = 1 := rfl
  rw [saturatingAdd, hone, if_pos h, UInt64.toNat_add, hone, Nat.mod_eq_of_lt h]

theorem start_scanned
    {index : ScanIndex}
    {txs : List AnchorTx}
    (h : index.Scanned txs)
    (fromHeight : UInt64) :
    (index.start fromHeight).Scanned txs ∧ (index.start fromHeight).fromHeight ≠ 0 := by
  unfold start
  split_ifs with hzero
  · have hmax : 1 ≤ (max fromHeight 1).toNat := by
      rw [toNat_max]
      exact le_max_right _ _
    have hne : max fromHeight 1 ≠ 0 := by
      intro hcontra
      rw [hcontra] at hmax
      simp at hmax
    have hle : (1 : UInt64) ≤ max fromHeight 1 := UInt64.le_iff_toNat_le.mpr hmax
    have hpred : (pred (max fromHeight 1)).toNat + 1 = (max fromHeight 1).toNat := by
      rw [pred, if_neg hne, UInt64.toNat_sub_of_le _ _ hle]
      exact Nat.sub_add_cancel hmax
    have hnil := h.unstarted hzero
    refine ⟨⟨h.occurrences_eq, h.sorted, h.positive, ?_, h.decoded, ?_, fun _ => hnil⟩, hne⟩
    · rw [hnil]
      simp
    · show (pred (max fromHeight 1)).toNat + 1 < 2 ^ 64
      rw [hpred]
      exact UInt64.toNat_lt _
  · exact ⟨h, hzero⟩

theorem truncate_fromHeight
    (index : ScanIndex)
    (ancestor : UInt64) :
    (index.truncate ancestor).fromHeight = index.fromHeight := by
  rw [truncate]
  split_ifs <;> rfl

theorem reconcileChainView_fromHeight
    {index index' : ScanIndex}
    {view : ClientView}
    (hok : index.reconcileChainView view = .ok index') :
    index'.fromHeight = index.fromHeight := by
  unfold reconcileChainView at hok
  split_ifs at hok
  · rw [Except.ok.inj hok]
  · simp only [except_bind_eq_ok_iff, pure, Except.pure, Except.ok.injEq] at hok
    obtain ⟨ancestor, -, rfl⟩ := hok
    exact truncate_fromHeight index _

/-- A sync keeps the index an expansion of anchor transactions in chain order. -/
theorem scanSync_scanned
    {index : ScanIndex}
    {txs : List AnchorTx}
    (h : index.Scanned txs)
    (view : ClientView)
    (fromHeight : UInt64) :
    ∃ txs', (index.scanSync sha256 view fromHeight).1.Scanned txs' := by
  obtain ⟨hstart, hstarted⟩ := start_scanned h fromHeight
  rw [scanSync]
  cases hreconcile : (index.start fromHeight).reconcileChainView view with
  | error e =>
      exact ⟨txs, hstart⟩
  | ok index' =>
      obtain ⟨txs', h'⟩ := reconcileChainView_scanned hstart hreconcile
      have hnext : index'.syncedTip.toNat <
          (max (saturatingAdd index'.syncedTip 1) index'.fromHeight).toNat := by
        rw [toNat_max, saturatingAdd_one h'.bounded]
        omega
      apply scanHeights_scanned _ h'
      · rw [reconcileChainView_fromHeight hreconcile]
        exact hstarted
      · exact hnext
      · split_ifs with hle
        · have htip := view.tip_lt
          have hle' := UInt64.le_iff_toNat_le.mp hle
          rw [UInt64.toNat_sub_of_le _ _ hle]
          omega
        · exact UInt64.toNat_lt _

/-- Every reachable index is the expansion of anchor transactions in chain order. -/
theorem Reachable.scanned
    {index : ScanIndex}
    (h : Reachable sha256 index) :
    ∃ txs, index.Scanned txs := by
  apply System.Reachable.invariant _ _ h
  · rintro _ rfl
    exact ⟨[], fresh_scanned⟩
  · rintro index ⟨view, fromHeight⟩ _ ⟨txs, hscanned⟩ rfl
    exact scanSync_scanned hscanned view fromHeight

end Invariant

end ScanIndex

end OpenCsv
