import OpenCsv.Bitcoin.Index
import OpenCsv.Bitcoin.Refresh
import OpenCsv.Cbf.Scan
import OpenCsv.Lib.Sha256

/-!
# The index files and what a restart reads back

The scan index of the light client is written as lines of words that end with a checksum
line; it is read back by checking the checksum, the words and the shape of the index.
Both index files store a record as its 64 canonical bytes.

**Results.**
* `ScanIndex.load_persist`: a reachable index is read back, each record as its bytes are
  read.
* `reload_eq_iff`: this is the index itself unless one of the scanned payloads only
  counts as a transfer because of its padding.
-/

namespace OpenCsv

section Chunks

/-- The first `count` pieces of 24 bytes. -/
def payloadChunks : ℕ → List UInt8 → List TruncatedDigest
  | 0, _ => []
  | count + 1, bytes =>
      match Bytes.tryFrom 24 (bytes.take 24) with
      | some chunk => ⟨chunk⟩ :: payloadChunks count (bytes.drop 24)
      | none => []

/-- The payloads of an envelope, one after the other. -/
def envelopeBytes (envelope : List TruncatedDigest) : List UInt8 :=
  envelope.flatMap (fun payload => payload.bytes.toList)

theorem length_envelopeBytes
    (envelope : List TruncatedDigest) :
    (envelopeBytes envelope).length = 24 * envelope.length := by
  simp [envelopeBytes, List.length_flatMap, Nat.mul_comm]

theorem payloadChunks_envelopeBytes
    (envelope : List TruncatedDigest) :
    payloadChunks envelope.length (envelopeBytes envelope) = envelope := by
  induction envelope with
  | nil =>
      rfl
  | cons payload envelope ih =>
      have hlength : payload.bytes.toList.length = 24 := payload.bytes.2
      have htake : (envelopeBytes (payload :: envelope)).take 24 = payload.bytes.toList :=
        List.take_left' hlength
      have hdrop : (envelopeBytes (payload :: envelope)).drop 24 = envelopeBytes envelope :=
        List.drop_left' hlength
      have htry : Bytes.tryFrom 24 payload.bytes.toList = some payload.bytes :=
        Bytes.tryFrom_eq_some_iff.mpr rfl
      rw [List.length_cons, payloadChunks, htake, hdrop, htry, ih]

end Chunks

namespace ScanIndex

section Model

/-- A line before the checksum, after the version line. -/
inductive Line where
  | network (network : Network)
  | start (height : UInt64)
  | tip (height : UInt64)
  | block (height : UInt64) (hash : Bytes 32)
  | occurrence (e : ScannedAnchor)

/-- The words of a batch member. -/
def batchWords (batch : BatchCandidate) : List (List UInt8) :=
  [match batch.version with
    | .v1 => word "batch1"
    | .v2 => word "batch2",
    natDigits batch.index.toNat, (toHex (envelopeBytes batch.envelope)).bytes]

def Line.words : Line → List (List UInt8)
  | .network n => [word "network", n.name.bytes]
  | .start height => [word "from", natDigits height.toNat]
  | .tip height => [word "tip", natDigits height.toNat]
  | .block height hash => [word "block", natDigits height.toNat, (hashToRpc hash).bytes]
  | .occurrence e =>
      [word "occurrence", natDigits e.location.height.toNat, natDigits e.location.position.toNat,
        (hashToRpc e.txid).bytes, (toHex e.ctx.toList).bytes,
        (toHex e.record.toBytes.toList).bytes] ++ e.batch.elim [] batchWords

def Line.text (line : Line) : List UInt8 :=
  joinWords blank line.words

def magic : List UInt8 :=
  word "opencsv-cbf-scan-index-v3"

variable (sha256 : Sha256)
variable (network : Network)

def lines (index : ScanIndex) : List Line :=
  [.network network, .start index.fromHeight, .tip index.syncedTip] ++
    (index.chainHashes.zipIdx.map (fun (hash, offset) =>
        .block (index.fromHeight + UInt64.ofNat offset) hash) ++
      index.occurrences.map .occurrence)

/-- The file without its checksum. -/
def body (index : ScanIndex) : List UInt8 :=
  unlines newline (magic :: (index.lines network).map Line.text)

/-- The bytes of the index file. -/
def persist (index : ScanIndex) : List UInt8 :=
  index.body network ++
    (word "checksum " ++ (toHex (sha256 (index.body network)).toList).bytes ++ [newline])

/-- The file up to its checksum line, if the checksum is the body's. -/
def verifiedBody (file : List UInt8) : Option (List UInt8) :=
  if file.getLast? = some newline then
    let text := file.dropLast
    let last := (text.reverse.takeWhile (fun b => b ≠ newline)).reverse
    if last.length = text.length then
      none
    else
      let body := text.take (text.length - last.length)
      if (word "checksum ").isPrefixOf last then
        match (rpcFromHex (wordText (last.drop (word "checksum ").length))).toOption with
        | some expected => if expected = (sha256 body).toList then some body else none
        | none => none
      else
        none
  else
    none

/-- What was read so far. -/
structure Contents where
  sawNetwork : Bool
  fromHeight : Option UInt64
  syncedTip : Option UInt64
  chainHashes : List (UInt64 × Bytes 32)
  occurrences : List ScannedAnchor

def Contents.empty : Contents where
  sawNetwork := false
  fromHeight := none
  syncedTip := none
  chainHashes := []
  occurrences := []

/-- The words after a record. -/
def readBatch : List (List UInt8) → Option (Option BatchCandidate)
  | [] => some none
  | [kind, index, envelope] => do
      if kind = word "batch" ∨ kind = word "batch1" ∨ kind = word "batch2" then
        let bytes ← (rpcFromHex (wordText envelope)).toOption
        if bytes.length % 24 ≠ 0 then
          none
        else do
          let index ← readU32 index
          return some
            { version := if kind = word "batch2" then .v2 else .v1
              index := index
              envelope := payloadChunks (bytes.length / 24) bytes }
      else
        none
  | _ => none

/-- Read the words of a line. -/
def readWords (contents : Contents) : List (List UInt8) → Option Contents
  | [kind, a] =>
      if kind = word "network" then
        if contents.sawNetwork = true ∨ Network.parse (wordText a) ≠ some network then
          none
        else
          some { contents with sawNetwork := true }
      else if kind = word "from" ∧ contents.fromHeight = none then
        some { contents with fromHeight := readU64 a }
      else if kind = word "tip" ∧ contents.syncedTip = none then
        some { contents with syncedTip := readU64 a }
      else
        none
  | [kind, a, b] =>
      if kind = word "block" then do
        let height ← readU64 a
        let hash ← readHash b
        return { contents with chainHashes := contents.chainHashes ++ [(height, hash)] }
      else
        none
  | kind :: height :: position :: txid :: ctx :: record :: rest =>
      if kind = word "occurrence" then do
        let txid ← readHash txid
        let batch ← readBatch rest
        let height ← readU64 height
        let position ← readU32 position
        let record ← readArray 64 record
        let ctx ← readArray 32 ctx
        return { contents with
          occurrences := contents.occurrences ++
            [{ location := ⟨height, position⟩
               txid := txid
               record := AnchorRecord.fromBytes record
               ctx := ctx
               batch := batch }] }
      else
        none
  | _ => none

/-- Read the lines, one after the other. -/
def readLines : Contents → List (List UInt8) → Option Contents
  | contents, [] => some contents
  | contents, line :: rest => do
      let contents ← readWords network contents (OpenCsv.words isSpace line)
      readLines contents rest

/-- The shape of an index: heights that are covered, occurrences in order, linked heights. -/
def WellShaped (fromHeight syncedTip : UInt64) (contents : Contents) : Prop :=
  contents.sawNetwork = true ∧
    ¬ (syncedTip > 0 ∧ fromHeight = 0) ∧
    ¬ syncedTip < pred fromHeight ∧
    (∀ e ∈ contents.occurrences,
      ¬ (e.location.height < fromHeight ∨ syncedTip < e.location.height)) ∧
    contents.occurrences.IsChain (fun a b => a.location.le b.location = true) ∧
    contents.chainHashes.length = (syncedTip - pred fromHeight).toNat ∧
    ∀ q ∈ contents.chainHashes.zipIdx,
      fromHeight.toNat + q.2 < 2 ^ 64 ∧ fromHeight + UInt64.ofNat q.2 = q.1.1

instance (fromHeight syncedTip : UInt64) (contents : Contents) :
    Decidable (WellShaped fromHeight syncedTip contents) :=
  inferInstanceAs (Decidable (_ ∧ _ ∧ _ ∧ _ ∧ _ ∧ _ ∧ _))

/-- Read a body. -/
def decodeBody (body : List UInt8) : Option ScanIndex :=
  match linesOf newline body with
  | [] => none
  | first :: rest =>
      if trim first = magic then do
        let contents ← readLines network .empty rest
        let fromHeight ← contents.fromHeight
        let syncedTip ← contents.syncedTip
        if WellShaped fromHeight syncedTip contents then
          some
            { fromHeight := fromHeight
              syncedTip := syncedTip
              chainHashes := contents.chainHashes.map Prod.snd
              occurrences := contents.occurrences }
        else
          none
      else
        none

/-- Open the index of a file; a file that cannot be used is rebuilt from nothing. -/
def load (file : List UInt8) : Except IndexError ScanIndex :=
  if ValidUtf8 file then
    match (verifiedBody sha256 file).bind (decodeBody network) with
    | some index => .ok index
    | none => .ok fresh
  else
    .error .notText

end Model

section Shape

variable {sha256 : Sha256}
variable {index index' : ScanIndex}
variable {view : ClientView}

/-- The shape of every index: candidates in chain order, one hash for each checked height. -/
structure Shaped (index : ScanIndex) : Prop where
  scanned : ∃ txs, index.Scanned txs
  above : ∀ e ∈ index.occurrences, index.fromHeight.toNat ≤ e.location.height.toNat
  unstarted : index.fromHeight = 0 → index.syncedTip = 0 ∧ index.chainHashes = []
  aligned : index.fromHeight ≠ 0 →
    index.syncedTip.toNat + 1 = index.fromHeight.toNat + index.chainHashes.length

theorem fresh_shaped :
    fresh.Shaped where
  scanned := ⟨[], fresh_scanned⟩
  above := by simp [fresh]
  unstarted := fun _ => ⟨rfl, rfl⟩
  aligned := fun h => absurd rfl h

theorem toNat_pred
    {n : UInt64}
    (h : n ≠ 0) :
    (pred n).toNat + 1 = n.toNat := by
  have hpos : 1 ≤ n.toNat := by
    rw [Nat.one_le_iff_ne_zero]
    intro hzero
    exact h (UInt64.toNat_inj.mp hzero)
  have hle : (1 : UInt64) ≤ n := UInt64.le_iff_toNat_le.mpr hpos
  rw [pred, if_neg h, UInt64.toNat_sub_of_le _ _ hle]
  exact Nat.sub_add_cancel hpos

theorem Shaped.start
    (h : index.Shaped)
    (fromHeight : UInt64) :
    (index.start fromHeight).Shaped ∧ (index.start fromHeight).fromHeight ≠ 0 := by
  obtain ⟨txs, hscanned⟩ := h.scanned
  obtain ⟨hstart, hne⟩ := start_scanned hscanned fromHeight
  refine ⟨⟨⟨txs, hstart⟩, ?_, fun hzero => absurd hzero hne, ?_⟩, hne⟩
  · unfold ScanIndex.start
    split_ifs with hzero
    · intro e he
      have hnil : index.occurrences = [] := by
        rw [hscanned.occurrences_eq, hscanned.unstarted hzero]
        rfl
      rw [show ({ index with
        fromHeight := max fromHeight 1
        syncedTip := pred (max fromHeight 1) } : ScanIndex).occurrences = index.occurrences
          from rfl, hnil] at he
      cases he
    · exact h.above
  · intro _
    unfold ScanIndex.start at hne ⊢
    split_ifs at hne ⊢ with hzero
    · have hpred := toNat_pred hne
      show (pred (max fromHeight 1)).toNat + 1 = (max fromHeight 1).toNat + index.chainHashes.length
      rw [hpred, (h.unstarted hzero).2]
      rfl
    · exact h.aligned hne

/-- The walk back ends at a stored height, or below all of them. -/
theorem commonAncestor_spec
    {canonicalHash : UInt64 → Option (Bytes 32)}
    {offset : ℕ}
    {ancestor : Option UInt64}
    (h : index.commonAncestor canonicalHash offset = .ok ancestor) :
    ancestor = none ∨ ∃ k < index.chainHashes.length,
      ancestor = some (index.fromHeight + UInt64.ofNat k) := by
  induction offset with
  | zero =>
      exact Or.inl (Except.ok.inj h).symm
  | succ offset ih =>
      simp only [commonAncestor, except_bind_eq_ok_iff, okOr_eq_ok_iff] at h
      obtain ⟨stored, hstored, canonical, -, h⟩ := h
      split_ifs at h
      · exact Or.inr ⟨offset, (List.getElem?_eq_some_iff.mp hstored).1, (Except.ok.inj h).symm⟩
      · exact ih h

theorem Shaped.reconcile
    (h : index.Shaped)
    (hne : index.fromHeight ≠ 0)
    (hok : index.reconcileChainView view = .ok index') :
    index'.Shaped ∧ index'.fromHeight = index.fromHeight := by
  have hfrom := reconcileChainView_fromHeight hok
  obtain ⟨txs, hscanned⟩ := h.scanned
  have hscanned' := reconcileChainView_scanned hscanned hok
  have haligned := h.aligned hne
  unfold reconcileChainView at hok
  split_ifs at hok
  · obtain rfl := Except.ok.inj hok
    exact ⟨h, rfl⟩
  · simp only [except_bind_eq_ok_iff, pure, Except.pure, Except.ok.injEq] at hok
    obtain ⟨ancestor, hancestor, rfl⟩ := hok
    -- The new tip is a stored height, or the one below the first.
    have hlow : index.fromHeight.toNat ≤
        (ancestor.getD (pred index.fromHeight)).toNat + 1 := by
      have hpred := toNat_pred hne
      rcases commonAncestor_spec hancestor with rfl | ⟨k, hk, rfl⟩
      · show index.fromHeight.toNat ≤ (pred index.fromHeight).toNat + 1
        omega
      · have htip := index.syncedTip.toNat_lt
        have hsum : (index.fromHeight + UInt64.ofNat k).toNat = index.fromHeight.toNat + k := by
          rw [UInt64.toNat_add, UInt64.toNat_ofNat']
          omega
        show index.fromHeight.toNat ≤ (index.fromHeight + UInt64.ofNat k).toNat + 1
        omega
    generalize ancestor.getD (pred index.fromHeight) = a at hlow hscanned' hfrom ⊢
    refine ⟨⟨hscanned', ?_, ?_, ?_⟩, hfrom⟩
    · rw [hfrom]
      intro e he
      by_cases hlt : a < index.syncedTip
      · rw [truncate, if_pos hlt] at he
        exact h.above e (List.mem_of_mem_filter he)
      · rw [truncate, if_neg hlt] at he
        exact h.above e he
    · rw [hfrom]
      exact fun hzero => absurd hzero hne
    · intro _
      rw [hfrom, truncate]
      split_ifs with hlt hbelow
      · show a.toNat + 1 = index.fromHeight.toNat + (index.chainHashes.take 0).length
        rw [UInt64.lt_iff_toNat_lt] at hbelow
        simp only [List.take_zero, List.length_nil]
        omega
      · show a.toNat + 1 = index.fromHeight.toNat +
          (index.chainHashes.take ((a - index.fromHeight).toNat + 1)).length
        rw [UInt64.lt_iff_toNat_lt] at hlt hbelow
        have hle : index.fromHeight ≤ a := UInt64.le_iff_toNat_le.mpr (by omega)
        rw [List.length_take, UInt64.toNat_sub_of_le _ _ hle]
        omega
      · exact haligned

theorem Shaped.scanHeight
    (h : index.Shaped)
    (hne : index.fromHeight ≠ 0)
    {height : UInt64}
    (hnext : height.toNat = index.syncedTip.toNat + 1)
    (hbound : height.toNat + 1 < 2 ^ 64)
    (hok : ScanIndex.scanHeight sha256 view index height = .ok index') :
    index'.Shaped ∧ index'.fromHeight = index.fromHeight ∧ index'.syncedTip = height := by
  obtain ⟨txs, hscanned⟩ := h.scanned
  obtain ⟨hscanned', hfrom, htip⟩ := scanHeight_scanned hscanned hne (by omega) hbound hok
  have haligned := h.aligned hne
  obtain ⟨new, blockHash, hnew, rfl⟩ := scanHeight_eq_ok hok
  refine ⟨⟨hscanned', ?_, fun hzero => absurd hzero hne, ?_⟩, rfl, rfl⟩
  · intro e he
    rcases List.mem_append.mp he with he | he
    · exact h.above e he
    · show index.fromHeight.toNat ≤ e.location.height.toNat
      have hheight : e.location.height = height := by
        obtain ⟨t, ht, hcandidate⟩ := List.mem_flatMap.mp he
        rw [(AnchorTx.mem_candidates hcandidate).1]
        rcases hnew with rfl | ⟨block, rfl⟩
        · cases ht
        · exact ((anchorTxs_spec block height).2 t ht).1
      rw [hheight]
      omega
  · intro _
    show height.toNat + 1 = index.fromHeight.toNat + (index.chainHashes ++ [blockHash]).length
    rw [List.length_append, List.length_singleton]
    omega

theorem Shaped.scanHeights
    (count : ℕ)
    (h : index.Shaped)
    (hne : index.fromHeight ≠ 0)
    {height : UInt64}
    (hnext : height.toNat = index.syncedTip.toNat + 1)
    (hbound : height.toNat + count < 2 ^ 64) :
    (ScanIndex.scanHeights sha256 view count index height).1.Shaped := by
  induction count generalizing index height with
  | zero =>
      exact h
  | succ count ih =>
      rw [ScanIndex.scanHeights]
      cases hscan : ScanIndex.scanHeight sha256 view index height with
      | error e =>
          exact h
      | ok index' =>
          obtain ⟨h', hfrom, htip⟩ := h.scanHeight hne hnext (by omega) hscan
          have hsucc : (height + 1).toNat = height.toNat + 1 := by
            rw [UInt64.toNat_add]
            exact Nat.mod_eq_of_lt (by simp; omega)
          refine ih h' (by rwa [hfrom]) ?_ ?_
          · rw [htip, hsucc]
          · rw [hsucc]
            omega

/-- A sync keeps the shape. -/
theorem Shaped.scanSync
    (h : index.Shaped)
    (view : ClientView)
    (fromHeight : UInt64) :
    (index.scanSync sha256 view fromHeight).1.Shaped := by
  obtain ⟨hstart, hstarted⟩ := h.start fromHeight
  rw [ScanIndex.scanSync]
  cases hreconcile : (index.start fromHeight).reconcileChainView view with
  | error e =>
      exact hstart
  | ok index' =>
      obtain ⟨h', hfrom⟩ := hstart.reconcile hstarted hreconcile
      have hne : index'.fromHeight ≠ 0 := by
        rw [hfrom]
        exact hstarted
      have haligned := h'.aligned hne
      obtain ⟨txs, hscanned⟩ := h'.scanned
      have hsat := saturatingAdd_one hscanned.bounded
      have hnext : (max (saturatingAdd index'.syncedTip 1) index'.fromHeight).toNat =
          index'.syncedTip.toNat + 1 := by
        rw [toNat_max, hsat]
        omega
      refine h'.scanHeights _ hne hnext ?_
      split_ifs with hle
      · have htip := view.tip_lt
        have hle' := UInt64.le_iff_toNat_le.mp hle
        rw [UInt64.toNat_sub_of_le _ _ hle]
        omega
      · exact UInt64.toNat_lt _

end Shape

end ScanIndex

/-- A candidate as it is read back from its bytes. -/
def ScannedAnchor.reread (e : ScannedAnchor) : ScannedAnchor :=
  { e with record := AnchorRecord.fromBytes e.record.toBytes }

namespace ScanIndex

section Reloading

variable {sha256 : Sha256}
variable {network : Network}
variable {index : ScanIndex}

/-- An index as it is read back from its file. -/
def reread (index : ScanIndex) : ScanIndex :=
  { index with occurrences := index.occurrences.map ScannedAnchor.reread }

/-- The words of the format stand for themselves. -/
theorem format_words :
    (word "from" ≠ word "network" ∧ word "tip" ≠ word "network" ∧ word "tip" ≠ word "from" ∧
      word "batch2" ≠ word "batch" ∧ word "batch1" ≠ word "batch" ∧
      word "batch1" ≠ word "batch2") ∧
    (IsPlain (word "from") ∧ IsPlain (word "tip") ∧ IsPlain (word "block") ∧
      IsPlain (word "occurrence") ∧ IsPlain (word "batch1") ∧ IsPlain (word "batch2")) ∧
    (IsPlain magic ∧ newline ∉ magic ∧ trim magic = magic) := by
  decide +kernel

/-- The kinds of lines are told apart. -/
theorem lineKinds_ne :
    word "from" ≠ word "network" ∧ word "tip" ≠ word "network" ∧ word "tip" ≠ word "from" ∧
      word "batch2" ≠ word "batch" ∧ word "batch1" ≠ word "batch" ∧
      word "batch1" ≠ word "batch2" :=
  format_words.1

/-- The words of a line stand for themselves, if no envelope is empty. -/
theorem Line.isPlain
    {line : Line}
    (h : ∀ e batch, line = .occurrence e → e.batch = some batch → batch.envelope ≠ []) :
    ∀ w ∈ line.words, IsPlain w := by
  obtain ⟨hfrom, htip, hblock, hoccurrence, hbatch1, hbatch2⟩ := format_words.2.1
  cases line with
  | network n =>
      simp only [Line.words, List.forall_mem_cons]
      exact ⟨OpenCsv.format_words.2.1.1, isPlain_name n, by simp⟩
  | start height =>
      simp only [Line.words, List.forall_mem_cons]
      exact ⟨hfrom, isPlain_natDigits _, by simp⟩
  | tip height =>
      simp only [Line.words, List.forall_mem_cons]
      exact ⟨htip, isPlain_natDigits _, by simp⟩
  | block height hash =>
      simp only [Line.words, List.forall_mem_cons]
      exact ⟨hblock, isPlain_natDigits _, isPlain_hash hash, by simp⟩
  | occurrence e =>
      have hbatch : ∀ w ∈ e.batch.elim [] batchWords, IsPlain w := by
        cases hbatch : e.batch with
        | none => simp
        | some batch =>
            have henvelope : envelopeBytes batch.envelope ≠ [] := by
              intro hnil
              have hlength := length_envelopeBytes batch.envelope
              rw [hnil, List.length_nil] at hlength
              exact h e batch rfl hbatch (List.length_eq_zero_iff.mp (by omega))
            simp only [Option.elim_some, batchWords, List.forall_mem_cons]
            refine ⟨?_, isPlain_natDigits _, isPlain_toHex henvelope, by simp⟩
            cases batch.version with
            | v1 => exact hbatch1
            | v2 => exact hbatch2
      simp only [Line.words, List.cons_append, List.nil_append, List.forall_mem_cons]
      exact ⟨hoccurrence, isPlain_natDigits _, isPlain_natDigits _, isPlain_hash e.txid,
        isPlain_array (by decide) e.ctx, isPlain_array (by decide) e.record.toBytes, hbatch⟩

theorem Line.words_text
    {line : Line}
    (h : ∀ w ∈ line.words, IsPlain w) :
    OpenCsv.words isSpace line.text = line.words :=
  words_joinWords (by decide) (fun w hw => (h w hw).isWord)

theorem Line.newline_not_mem_text
    {line : Line}
    (h : ∀ w ∈ line.words, IsPlain w) :
    newline ∉ line.text := by
  intro hmem
  rcases mem_joinWords hmem with hblank | ⟨w, hw, hin⟩
  · exact absurd hblank (by decide)
  · have hspace := ((h w hw).2 newline hin).1
    exact absurd hspace (by decide)

theorem Line.text_ascii
    {line : Line}
    (h : ∀ w ∈ line.words, IsPlain w) :
    ∀ b ∈ line.text, b < 0x80 := by
  intro b hb
  rcases mem_joinWords hb with rfl | ⟨w, hw, hin⟩
  · decide
  · exact ((h w hw).2 b hin).2

/-- The batch member of a candidate is read back. -/
theorem readBatch_batchWords
    (batch : Option BatchCandidate)
    (h : ∀ b, batch = some b → b.envelope ≠ []) :
    readBatch (batch.elim [] batchWords) = some batch := by
  cases batch with
  | none =>
      rfl
  | some batch =>
      have hne : envelopeBytes batch.envelope ≠ [] := by
        intro hnil
        have hlength := length_envelopeBytes batch.envelope
        rw [hnil, List.length_nil] at hlength
        exact h batch rfl (List.length_eq_zero_iff.mp (by omega))
      have hhex : (rpcFromHex (wordText (toHex (envelopeBytes batch.envelope)).bytes)).toOption =
          some (envelopeBytes batch.envelope) := by
        rw [wordText_toHex hne, rpcFromHex_toHex]
        rfl
      have hlength := length_envelopeBytes batch.envelope
      have hmod : (envelopeBytes batch.envelope).length % 24 = 0 := by
        omega
      have hcount : (envelopeBytes batch.envelope).length / 24 = batch.envelope.length := by
        omega
      obtain ⟨version, i, envelope⟩ := batch
      cases version with
      | v1 =>
          simp [batchWords, readBatch, lineKinds_ne, hhex, hmod, hcount, readU32_natDigits,
            payloadChunks_envelopeBytes]
      | v2 =>
          simp [batchWords, readBatch, hhex, hmod, hcount, readU32_natDigits,
            payloadChunks_envelopeBytes]

/-- Lines of checked blocks are read one after the other. -/
theorem readLines_blocks
    (blocks : List (UInt64 × Bytes 32))
    (contents : Contents)
    (rest : List (List UInt8)) :
    readLines network contents
        (blocks.map (fun b => (Line.block b.1 b.2).text) ++ rest) =
      readLines network { contents with chainHashes := contents.chainHashes ++ blocks } rest := by
  induction blocks generalizing contents with
  | nil =>
      simp
  | cons block blocks ih =>
      have hwords := @Line.words_text (.block block.1 block.2) (Line.isPlain (by simp))
      have hread : readWords network contents (Line.block block.1 block.2).words =
          some { contents with chainHashes := contents.chainHashes ++ [block] } := by
        simp [Line.words, readWords, readU64_natDigits, readHash_hashToRpc]
      rw [List.map_cons, List.cons_append, readLines, hwords, hread]
      show readLines network _ _ = _
      rw [ih]
      simp

/-- Lines of candidates are read one after the other. -/
theorem readLines_occurrences
    (occurrences : List ScannedAnchor)
    (h : ∀ e ∈ occurrences, ∀ batch, e.batch = some batch → batch.envelope ≠ [])
    (contents : Contents) :
    readLines network contents (occurrences.map (fun e => (Line.occurrence e).text)) =
      some { contents with
        occurrences := contents.occurrences ++ occurrences.map ScannedAnchor.reread } := by
  induction occurrences generalizing contents with
  | nil =>
      simp [readLines]
  | cons e occurrences ih =>
      have henvelope := h e List.mem_cons_self
      have hwords := @Line.words_text (.occurrence e) (Line.isPlain (by
        rintro e' batch heq hbatch
        obtain rfl := Line.occurrence.inj heq
        exact henvelope batch hbatch))
      have hread : readWords network contents (Line.occurrence e).words =
          some { contents with occurrences := contents.occurrences ++ [e.reread] } := by
        simp [Line.words, readWords, readU64_natDigits, readU32_natDigits, readHash_hashToRpc,
          readArray_toHex, readBatch_batchWords e.batch henvelope, ScannedAnchor.reread]
      rw [List.map_cons, readLines, hwords, hread]
      show readLines network _ _ = _
      rw [ih (fun e' he' => h e' (List.mem_cons_of_mem e he'))]
      simp

/-- Candidates of decoded transactions have members. -/
theorem Shaped.envelope_ne_nil
    (h : index.Shaped) :
    ∀ e ∈ index.occurrences, ∀ batch, e.batch = some batch → batch.envelope ≠ [] := by
  obtain ⟨txs, hscanned⟩ := h.scanned
  intro e he batch hbatch
  rw [hscanned.occurrences_eq] at he
  obtain ⟨t, ht, hcandidate⟩ := List.mem_flatMap.mp he
  unfold AnchorTx.candidates at hcandidate
  split at hcandidate
  · rw [List.mem_singleton.mp hcandidate] at hbatch
    cases hbatch
  · rename_i version envelope htx
    obtain ⟨i, -, rfl⟩ := List.mem_map.mp hcandidate
    obtain rfl := Option.some.inj hbatch
    exact ((hscanned.decoded t ht).envelope htx).2

/-- Candidates stand in chain order. -/
theorem Shaped.sorted
    (h : index.Shaped) :
    index.occurrences.IsChain (fun a b => a.location.le b.location = true) := by
  obtain ⟨txs, hscanned⟩ := h.scanned
  rw [hscanned.occurrences_eq]
  refine List.Pairwise.isChain ?_
  rw [List.pairwise_flatMap]
  constructor
  · intro t _
    refine List.pairwise_of_forall_mem_list ?_
    intro a ha b hb
    rw [(AnchorTx.mem_candidates ha).1, (AnchorTx.mem_candidates hb).1,
      AnchorLocation.le_iff_key_le]
  · refine hscanned.sorted.imp ?_
    intro t t' hlt a ha b hb
    rw [(AnchorTx.mem_candidates ha).1, (AnchorTx.mem_candidates hb).1,
      AnchorLocation.le_iff_key_le]
    omega

theorem Shaped.covered
    (h : index.Shaped) :
    ∀ e ∈ index.occurrences, e.location.height.toNat ≤ index.syncedTip.toNat := by
  obtain ⟨txs, hscanned⟩ := h.scanned
  intro e he
  rw [hscanned.occurrences_eq] at he
  obtain ⟨t, ht, hcandidate⟩ := List.mem_flatMap.mp he
  rw [(AnchorTx.mem_candidates hcandidate).1]
  exact hscanned.covered t ht

/-- What the lines of an index say has the shape that is asked for. -/
theorem Shaped.wellShaped
    (h : index.Shaped) :
    WellShaped index.fromHeight index.syncedTip
      { sawNetwork := true
        fromHeight := some index.fromHeight
        syncedTip := some index.syncedTip
        chainHashes := index.chainHashes.zipIdx.map
          (fun (hash, offset) => (index.fromHeight + UInt64.ofNat offset, hash))
        occurrences := index.occurrences.map ScannedAnchor.reread } := by
  have hcovered := h.covered
  have hchain := h.sorted
  have hheights : ∀ e ∈ index.occurrences.map ScannedAnchor.reread,
      ¬ (e.location.height < index.fromHeight ∨ index.syncedTip < e.location.height) := by
    intro e he
    obtain ⟨e', he', rfl⟩ := List.mem_map.mp he
    have habove := h.above e' he'
    have hbelow := hcovered e' he'
    rw [UInt64.lt_iff_toNat_lt, UInt64.lt_iff_toNat_lt]
    show ¬ (e'.location.height.toNat < _ ∨ _ < e'.location.height.toNat)
    omega
  have hsorted : (index.occurrences.map ScannedAnchor.reread).IsChain
      (fun a b => a.location.le b.location = true) := by
    rw [List.isChain_map]
    exact hchain
  have htip := index.syncedTip.toNat_lt
  by_cases hzero : index.fromHeight = 0
  · obtain ⟨htip₀, hhashes⟩ := h.unstarted hzero
    refine ⟨rfl, ?_, ?_, hheights, hsorted, ?_, ?_⟩
    · rw [htip₀]
      rintro ⟨hlt, -⟩
      exact absurd hlt (by decide)
    · rw [htip₀, hzero]
      decide
    · rw [hhashes, htip₀, hzero]
      rfl
    · rw [hhashes]
      simp
  · have haligned := h.aligned hzero
    have hpred := toNat_pred hzero
    have hle : pred index.fromHeight ≤ index.syncedTip := by
      rw [UInt64.le_iff_toNat_le]
      omega
    refine ⟨rfl, fun hcontra => hzero hcontra.2, ?_, hheights, hsorted, ?_, ?_⟩
    · rw [UInt64.lt_iff_toNat_lt]
      rw [UInt64.le_iff_toNat_le] at hle
      omega
    · rw [List.length_map, List.length_zipIdx, UInt64.toNat_sub_of_le _ _ hle]
      omega
    · rintro ⟨⟨height, hash⟩, offset⟩ hq
      have hget := List.mem_zipIdx_iff_getElem?.mp hq
      rw [List.getElem?_map, List.getElem?_zipIdx] at hget
      obtain ⟨q, hq', heq⟩ := Option.map_eq_some_iff.mp hget
      obtain ⟨hash', hhash', rfl⟩ := Option.map_eq_some_iff.mp hq'
      have hlt := (List.getElem?_eq_some_iff.mp hhash').1
      obtain ⟨hheight, -⟩ := Prod.mk.inj heq
      refine ⟨?_, ?_⟩
      · show index.fromHeight.toNat + offset < 2 ^ 64
        dsimp only at hlt
        omega
      · rw [← hheight, Nat.zero_add]

theorem magic_plain :
    IsPlain magic ∧ newline ∉ magic ∧ trim magic = magic :=
  format_words.2.2

/-- Every line of a shaped index is plain. -/
theorem Shaped.plain
    (h : index.Shaped) :
    ∀ line ∈ index.lines network, ∀ w ∈ line.words, IsPlain w := by
  intro line hline
  refine Line.isPlain ?_
  rintro e batch rfl hbatch
  refine h.envelope_ne_nil e ?_ batch hbatch
  simpa [lines] using hline

/-- The body of a shaped index is read back. -/
theorem Shaped.decodeBody_body
    (h : index.Shaped) :
    decodeBody network (index.body network) = some index.reread := by
  have hnewline : ∀ l ∈ magic :: (index.lines network).map Line.text, newline ∉ l := by
    intro l hl
    rcases List.mem_cons.mp hl with rfl | hl
    · exact magic_plain.2.1
    · obtain ⟨line, hline, rfl⟩ := List.mem_map.mp hl
      exact Line.newline_not_mem_text (h.plain line hline)
  have hlines : linesOf newline (index.body network) =
      magic :: (index.lines network).map Line.text := by
    have hread := linesOf_unlines hnewline []
    rwa [List.append_nil, linesOf_nil, List.append_nil] at hread
  have hkinds := lineKinds_ne
  have htext : wordText network.name.bytes = network.name :=
    Text.ext (wordText_of_plain (isPlain_name network))
  have hblocks : (index.chainHashes.zipIdx.map (fun (hash, offset) =>
      Line.block (index.fromHeight + UInt64.ofNat offset) hash)).map Line.text =
        (index.chainHashes.zipIdx.map (fun (hash, offset) =>
          (index.fromHeight + UInt64.ofNat offset, hash))).map
            (fun b => (Line.block b.1 b.2).text) := by
    rw [List.map_map, List.map_map]
    rfl
  have hread : readLines network .empty ((index.lines network).map Line.text) =
      some
        { sawNetwork := true
          fromHeight := some index.fromHeight
          syncedTip := some index.syncedTip
          chainHashes := index.chainHashes.zipIdx.map
            (fun (hash, offset) => (index.fromHeight + UInt64.ofNat offset, hash))
          occurrences := index.occurrences.map ScannedAnchor.reread } := by
    have hplain : ∀ line ∈ index.lines network,
        OpenCsv.words isSpace line.text = line.words :=
      fun line hline => Line.words_text (h.plain line hline)
    have hnetwork := hplain (.network network) (by simp [lines])
    have hstart := hplain (.start index.fromHeight) (by simp [lines])
    have htip := hplain (.tip index.syncedTip) (by simp [lines])
    simp only [lines, List.map_append, List.map_cons, List.cons_append, List.nil_append, readLines,
      hnetwork, hstart, htip]
    simp only [Line.words, readWords, htext, parse_name, Contents.empty, readU64_natDigits, hkinds,
      ne_eq, not_true_eq_false, or_self, Bool.false_eq_true, if_true, if_false, and_self, and_true,
      false_and, Option.bind_eq_bind, Option.bind_some]
    rw [hblocks, readLines_blocks, List.map_map]
    exact readLines_occurrences index.occurrences h.envelope_ne_nil _
  rw [decodeBody, hlines]
  dsimp only
  rw [magic_plain.2.2, if_pos rfl, hread]
  have hhashes : (index.chainHashes.zipIdx.map (fun (hash, offset) =>
      (index.fromHeight + UInt64.ofNat offset, hash))).map Prod.snd = index.chainHashes := by
    rw [List.map_map]
    exact List.zipIdx_map_fst 0 index.chainHashes
  simp only [Option.bind_eq_bind, Option.bind_some]
  rw [if_pos h.wellShaped, hhashes]
  rfl

/-- The checksum line is cut off and checked. -/
theorem verifiedBody_persist
    (h : ∃ b, index.body network = b ++ [newline]) :
    verifiedBody sha256 (index.persist sha256 network) = some (index.body network) := by
  obtain ⟨b, hb⟩ := h
  have hword : IsPlain (word "checksum") ∧ word "checksum " = word "checksum" ++ [blank] ∧
      newline ≠ blank := by
    decide +kernel
  have hhex := isPlain_array (n := 32) (by decide) (sha256 (index.body network))
  have hlast : ∀ c ∈ (word "checksum " ++
      (toHex (sha256 (index.body network)).toList).bytes).reverse, decide (c ≠ newline) = true := by
    intro c hc
    rw [decide_eq_true_eq]
    rintro rfl
    rcases List.mem_append.mp (List.mem_reverse.mp hc) with hc | hc
    · rw [hword.2.1] at hc
      rcases List.mem_append.mp hc with hc | hc
      · exact absurd (hword.1.2 _ hc).1 (by decide)
      · exact hword.2.2 (List.mem_singleton.mp hc)
    · exact absurd (hhex.2 _ hc).1 (by decide)
  have htext : (rpcFromHex (wordText
      (toHex (sha256 (index.body network)).toList).bytes)).toOption =
        some (sha256 (index.body network)).toList := by
    rw [wordText, show Text.fromUtf8Lossy (toHex (sha256 (index.body network)).toList).bytes =
      toHex (sha256 (index.body network)).toList from Text.ext (wordText_of_plain hhex),
      rpcFromHex_toHex]
    rfl
  generalize hline : word "checksum " ++ (toHex (sha256 (index.body network)).toList).bytes = line
    at hlast
  have hfile : index.persist sha256 network = (index.body network ++ line) ++ [newline] := by
    rw [persist, ← hline]
    simp
  have hpart : ((index.body network ++ line).reverse.takeWhile (fun c => c ≠ newline)).reverse =
      line := by
    rw [hb, List.reverse_append, List.reverse_append, List.takeWhile_append_of_pos hlast]
    simp
  have hlength : line.length ≠ (index.body network ++ line).length := by
    rw [hb]
    simp only [List.length_append, List.length_singleton]
    omega
  have hbody : (index.body network ++ line).take
      ((index.body network ++ line).length - line.length) = index.body network := by
    rw [List.length_append, Nat.add_sub_cancel]
    exact List.take_left
  have hpre : (word "checksum ").isPrefixOf line = true := by
    rw [List.isPrefixOf_iff_prefix, ← hline]
    exact List.prefix_append _ _
  have hdrop : line.drop (word "checksum ").length =
      (toHex (sha256 (index.body network)).toList).bytes := by
    rw [← hline]
    exact List.drop_left
  rw [verifiedBody, hfile, List.getLast?_concat, if_pos rfl, List.dropLast_concat]
  dsimp only
  rw [hpart, if_neg hlength, hbody, if_pos hpre, hdrop, htext]
  dsimp only
  rw [if_pos rfl]

/-- A shaped index is read back from its file, each record as its bytes are read. -/
theorem load_persist
    (h : index.Shaped) :
    load sha256 network (index.persist sha256 network) = .ok index.reread := by
  have hends : ∃ b, index.body network = b ++ [newline] := by
    rw [body, unlines, ← List.dropLast_append_getLast (l := magic ::
      (index.lines network).map Line.text) (by simp), List.flatMap_append, List.flatMap_singleton,
      ← List.append_assoc]
    exact ⟨_, rfl⟩
  have hascii : ∀ b ∈ index.persist sha256 network, b < 0x80 := by
    intro b hb
    rcases List.mem_append.mp hb with hb | hb
    · obtain ⟨text, htext, hin⟩ := List.mem_flatMap.mp hb
      rcases List.mem_append.mp hin with hin | hin
      · rcases List.mem_cons.mp htext with rfl | htext
        · exact (magic_plain.1.2 b hin).2
        · obtain ⟨line, hline, rfl⟩ := List.mem_map.mp htext
          exact Line.text_ascii (h.plain line hline) b hin
      · rw [List.mem_singleton.mp hin]
        decide
    · have hword : ∀ c ∈ word "checksum ", c < 0x80 := by
        decide +kernel
      have hhex := isPlain_array (n := 32) (by decide) (sha256 (index.body network))
      rcases List.mem_append.mp hb with hb | hb
      · rcases List.mem_append.mp hb with hb | hb
        · exact hword b hb
        · exact (hhex.2 b hb).2
      · rw [List.mem_singleton.mp hb]
        decide
  rw [load, if_pos (validUtf8_of_ascii hascii), verifiedBody_persist hends, Option.bind_some,
    h.decodeBody_body]

/-- What is read back has the shape again. -/
theorem Shaped.reread
    (h : index.Shaped) :
    index.reread.Shaped := by
  obtain ⟨txs, hscanned⟩ := h.scanned
  refine ⟨⟨txs.map (fun t => { t with record := AnchorRecord.fromBytes t.record.toBytes }), ?_⟩,
    ?_, h.unstarted, h.aligned⟩
  · refine ⟨?_, ?_, ?_, ?_, ?_, hscanned.bounded, ?_⟩
    · show index.occurrences.map ScannedAnchor.reread = _
      rw [hscanned.occurrences_eq, List.map_flatMap, List.flatMap_map]
      congr 1
      funext t
      unfold AnchorTx.candidates
      cases t.batch with
      | none => rfl
      | some batch => simp [ScannedAnchor.reread]
    · rw [List.pairwise_map]
      exact hscanned.sorted
    · intro t ht
      obtain ⟨t', ht', rfl⟩ := List.mem_map.mp ht
      exact hscanned.positive t' ht'
    · intro t ht
      obtain ⟨t', ht', rfl⟩ := List.mem_map.mp ht
      exact hscanned.covered t' ht'
    · intro t ht
      obtain ⟨t', ht', rfl⟩ := List.mem_map.mp ht
      refine ⟨⟨_, rfl⟩, ?_⟩
      intro version envelope hbatch
      obtain ⟨hclass, hne⟩ := (hscanned.decoded t' ht').envelope hbatch
      obtain ⟨b, hb⟩ := (hscanned.decoded t' ht').parsed
      refine ⟨?_, hne⟩
      show (AnchorRecord.fromBytes t'.record.toBytes).recordClass = .batch
      rw [hb] at hclass ⊢
      rw [AnchorRecord.toBytes_fromBytes_of_tagged (by rw [hclass]; decide), hclass]
    · intro hzero
      rw [hscanned.unstarted hzero]
      rfl
  · intro e he
    obtain ⟨e', he', rfl⟩ := List.mem_map.mp he
    exact h.above e' he'

/-- Syncs against any clients, and restarts that read the index file. -/
def fileSystem (sha256 : Sha256) (network : Network) :
    System ScanIndex (Option (ClientView × UInt64)) where
  init := fun index => index = fresh
  step := fun index call index' =>
    match call with
    | some call => index' = (index.scanSync sha256 call.1 call.2).1
    | none => load sha256 network (index.persist sha256 network) = .ok index'

theorem shaped_of_reachable
    (h : (fileSystem sha256 network).Reachable index) :
    index.Shaped := by
  refine @System.Reachable.invariant _ _ _ Shaped ?_ ?_ index h
  · rintro _ rfl
    exact fresh_shaped
  · rintro s call s' hs hstep
    cases call with
    | some call =>
        obtain rfl : s' = (s.scanSync sha256 call.1 call.2).1 := hstep
        exact hs.scanSync call.1 call.2
    | none =>
        have hload : load sha256 network (s.persist sha256 network) = .ok s' := hstep
        rw [load_persist hs] at hload
        obtain rfl := Except.ok.inj hload
        exact hs.reread

end Reloading

end ScanIndex

namespace AnchorRecord

/--
A payload that counts as a transfer because of bytes that its record does not keep: a
mint or redemption tag with padding that is not zero, or a batch tag of which only the
last 16 bytes are not zero.
-/
def slippery (b : Bytes 64) : Bool :=
  ((b.head == tagMint || b.head == tagRedeem) && !b.padded 57) ||
    (b.head == tagBatch && (b.toList.drop 26).take 22 == List.replicate 22 0 && !b.padded 26)

/-- A payload's record is read back from its own bytes unless the payload is slippery. -/
theorem fromBytes_toBytes_fromBytes_iff
    (b : Bytes 64) :
    fromBytes (fromBytes b).toBytes = fromBytes b ↔ slippery b = false := by
  by_cases hclass : (fromBytes b).recordClass = .xfer
  · -- An untagged payload keeps its first 48 bytes.
    have hmint : ¬ (b.head = tagMint ∧ b.padded 57 = true) := by
      intro h
      rw [fromBytes, if_pos h] at hclass
      cases hclass
    have hredeem : ¬ (b.head = tagRedeem ∧ b.padded 57 = true) := by
      intro h
      rw [fromBytes, if_neg hmint, if_pos h] at hclass
      cases hclass
    have hbatch : ¬ (b.head = tagBatch ∧ b.padded 26 = true) := by
      intro h
      rw [fromBytes, if_neg hmint, if_neg hredeem, if_pos h] at hclass
      cases hclass
    have hread : fromBytes b = .xfer (td b 0 (by decide)) (td b 24 (by decide)) := by
      rw [fromBytes, if_neg hmint, if_neg hredeem, if_neg hbatch]
    rw [hread]
    generalize hc : toBytes (.xfer (td b 0 (by decide)) (td b 24 (by decide))) = c
    have hlist : c.toList = b.toList.take 48 ++ List.replicate 16 0 := by
      rw [← hc]
      show (b.toList.drop 0).take 24 ++ ((b.toList.drop 24).take 24 ++ List.replicate 16 0) = _
      rw [List.drop_zero, ← List.append_assoc, ← List.take_add]
    have hhead : c.head = b.head := by
      have hb := toList_eq_head_cons b
      have hc' := toList_eq_head_cons c
      rw [hlist, hb] at hc'
      exact (List.cons.inj hc').1.symm
    have hlength : (b.toList.take 48).length = 48 := by
      simp
    have hpad : c.padded 57 = true := by
      rw [Bytes.padded_iff, hlist, List.drop_append, List.drop_of_length_le (by omega), hlength]
      rfl
    have hpad26 : c.padded 26 = true ↔ (b.toList.drop 26).take 22 = List.replicate 22 0 := by
      have hzeros : List.replicate (64 - 26) (0 : UInt8) =
          List.replicate 22 0 ++ List.replicate 16 0 := rfl
      rw [Bytes.padded_iff, hlist, List.drop_append_of_le_length (by omega), List.drop_take, hzeros]
      exact List.append_left_inj _
    obtain ⟨htd₀, htd₁⟩ := td_toBytes_xfer (td b 0 (by decide)) (td b 24 (by decide))
    rw [hc] at htd₀ htd₁
    by_cases hhead₁ : b.head = tagMint
    · have hread' : fromBytes c ≠ .xfer (td b 0 (by decide)) (td b 24 (by decide)) := by
        rw [fromBytes, if_pos ⟨hhead.trans hhead₁, hpad⟩]
        exact fun h => by cases h
      have hpad' : b.padded 57 = false := by
        rw [← Bool.not_eq_true]
        exact fun h => hmint ⟨hhead₁, h⟩
      refine iff_of_false hread' ?_
      simp [slippery, hhead₁, hpad']
    · by_cases hhead₂ : b.head = tagRedeem
      · have hread' : fromBytes c ≠ .xfer (td b 0 (by decide)) (td b 24 (by decide)) := by
          rw [fromBytes, if_neg (fun h => hhead₁ (hhead.symm.trans h.1)),
            if_pos ⟨hhead.trans hhead₂, hpad⟩]
          exact fun h => by cases h
        have hpad' : b.padded 57 = false := by
          rw [← Bool.not_eq_true]
          exact fun h => hredeem ⟨hhead₂, h⟩
        refine iff_of_false hread' ?_
        simp [slippery, hhead₂, hpad']
      · by_cases hhead₃ : b.head = tagBatch
        · have hpad' : b.padded 26 = false := by
            rw [← Bool.not_eq_true]
            exact fun h => hbatch ⟨hhead₃, h⟩
          by_cases hzero : (b.toList.drop 26).take 22 = List.replicate 22 0
          · have hread' : fromBytes c ≠ .xfer (td b 0 (by decide)) (td b 24 (by decide)) := by
              rw [fromBytes, if_neg (fun h => hhead₁ (hhead.symm.trans h.1)),
                if_neg (fun h => hhead₂ (hhead.symm.trans h.1)),
                if_pos ⟨hhead.trans hhead₃, hpad26.mpr hzero⟩]
              exact fun h => by cases h
            refine iff_of_false hread' ?_
            simp [slippery, hhead₃, hpad', hzero]
          · refine iff_of_true ?_ ?_
            · rw [fromBytes, if_neg (fun h => hhead₁ (hhead.symm.trans h.1)),
                if_neg (fun h => hhead₂ (hhead.symm.trans h.1)),
                if_neg (fun h => hzero (hpad26.mp h.2)), htd₀, htd₁]
            · have hne : ((b.toList.drop 26).take 22 == List.replicate 22 0) = false :=
                beq_eq_false_iff_ne.mpr hzero
              rw [slippery, hne]
              simp [hhead₁, hhead₂]
        · refine iff_of_true ?_ ?_
          · rw [fromBytes, if_neg (fun h => hhead₁ (hhead.symm.trans h.1)),
              if_neg (fun h => hhead₂ (hhead.symm.trans h.1)),
              if_neg (fun h => hhead₃ (hhead.symm.trans h.1)), htd₀, htd₁]
          · simp [slippery, hhead₁, hhead₂, hhead₃]
  · have hbytes := toBytes_fromBytes_of_tagged hclass
    rw [hbytes]
    refine iff_of_true rfl ?_
    unfold fromBytes at hclass
    split_ifs at hclass with hmint hredeem hbatch
    · simp [slippery, hmint, tagMint, tagBatch]
    · simp [slippery, hredeem, tagRedeem, tagBatch]
    · simp [slippery, hbatch, tagMint, tagRedeem, tagBatch]
    · exact absurd rfl hclass

end AnchorRecord

/-- What the node backend's file holds besides heights and anchors. -/
structure IndexMaps where
  markers : List (UInt64 × Bool)
  markers_sorted : markers.Pairwise (fun a b => a.1.toNat < b.1.toNat)
  fundingUtxos : List (UInt8 × (Bytes 32 × UInt32))
  fundingUtxos_sorted : fundingUtxos.Pairwise (fun a b => a.1.toNat < b.1.toNat)

/-- A refresh, or a restart that reads the index file. -/
inductive IndexCall where
  | refresh (node : NodeView)
  | reopen (maps : IndexMaps) (tip : UInt64)

namespace BitcoinAnchorChain

open Call

/-- What is written of a backend's index. -/
def stored (chain : BitcoinAnchorChain) (network : Network) (maps : IndexMaps) : StoredIndex where
  network := network
  startHeight := chain.startHeight
  scanned := chain.scanned
  markers := maps.markers
  markers_sorted := maps.markers_sorted
  fundingUtxos := maps.fundingUtxos
  fundingUtxos_sorted := maps.fundingUtxos_sorted
  entries := chain.entries

/-- The backend after a restart. -/
def reopened (loaded : PersistedIndex) (tip : UInt64) : BitcoinAnchorChain where
  startHeight := loaded.start
  tip := tip
  scanned := loaded.scanned
  entries := loaded.entries
  mempool := []

/-- Refreshes against any nodes, and restarts that read the index file. -/
def fileSystem (sha256 : Sha256) (network : Network) : System BitcoinAnchorChain IndexCall where
  init := fun chain => ∃ start tip, chain = opened start tip
  step := fun chain call chain' =>
    match call with
    | .refresh node => chain' = final (refresh sha256 node) chain
    | .reopen maps tip => ∃ loaded,
        loadIndex network (chain.stored network maps).persist = .ok (some loaded) ∧
          chain' = reopened loaded tip

/-- Every record of the index was read from a payload. -/
def Parsed (chain : BitcoinAnchorChain) : Prop :=
  ∀ e ∈ chain.entries, ∃ b, e.record = AnchorRecord.fromBytes b

section Parsed

variable {sha256 : Sha256}
variable {network : Network}
variable {node : NodeView}
variable {chain : BitcoinAnchorChain}

theorem parsed_of_scanTx
    {tx : Json}
    {height : UInt64}
    {position : ℕ}
    {entry : Option Entry}
    (h : scanTx sha256 tx height position = .ok entry) :
    ∀ e ∈ entry.toList, ∃ b, e.record = AnchorRecord.fromBytes b := by
  intro e he
  rw [Option.mem_toList] at he
  subst he
  unfold scanTx at h
  rw [except_bind_eq_ok_iff] at h
  obtain ⟨txidHex, -, h⟩ := h
  split at h
  · cases h
  · split at h
    · simp only [except_bind_eq_ok_iff] at h
      obtain ⟨-, -, prev, -, h⟩ := h
      split at h
      · cases h
      · rename_i payload _
        simp only [except_bind_eq_ok_iff] at h
        obtain ⟨txid, -, h⟩ := h
        obtain rfl := Option.some.inj (Except.ok.inj h)
        exact ⟨payload, rfl⟩
    · cases h

theorem scanBlock_parsed
    (block : Json)
    (height : UInt64)
    (h : chain.Parsed) :
    Leaves (scanBlock sha256 block height) chain Parsed := by
  unfold scanBlock
  refine leaves_lift h ?_
  intro txs _
  refine leaves_each h ?_
  rintro ⟨tx, position⟩ _ chain' h'
  refine leaves_lift h' ?_
  intro entry hentry
  refine leaves_iff.mpr ?_
  show Parsed { chain' with entries := chain'.entries ++ entry.toList }
  intro e he
  rcases List.mem_append.mp he with he | he
  · exact h' e he
  · exact parsed_of_scanTx hentry e he

theorem scanBlocks_parsed
    (count : ℕ)
    (height : UInt64)
    (h : chain.Parsed) :
    Leaves (scanBlocks sha256 node count height) chain Parsed := by
  induction count generalizing chain height with
  | zero =>
      exact leaves_pure h
  | succ count ih =>
      refine leaves_lift h ?_
      intro hash _
      refine leaves_lift h ?_
      intro block _
      refine Leaves.bind (scanBlock_parsed block height h) (fun _ h' => h') ?_
      intro _ chain' h'
      refine leaves_lift h' ?_
      intro hash' _
      refine leaves_modify ?_
      exact ih (height + 1) h'

/-- A refresh stores records of payloads only, whatever the node answers. -/
theorem refresh_parsed
    (h : chain.Parsed) :
    Leaves (refresh sha256 node) chain Parsed := by
  unfold refresh
  refine leaves_lift h ?_
  intro tip _
  refine leaves_modify ?_
  have hdrop : Leaves (dropStale node) { chain with tip := tip } Parsed := by
    unfold dropStale
    refine leaves_get ?_
    dsimp only
    cases chain.scanned with
    | none => exact leaves_pure h
    | some s =>
        refine leaves_lift h ?_
        intro actual _
        refine leaves_lift h ?_
        intro actual' _
        split_ifs
        · refine leaves_iff.mpr ?_
          intro e he
          cases he
        · exact leaves_pure h
  refine Leaves.bind hdrop (fun _ h' => h') ?_
  intro _ chain' h'
  refine leaves_get ?_
  refine Leaves.bind (scanBlocks_parsed _ _ h') (fun _ h'' => h'') ?_
  intro _ chain'' h''
  exact leaves_iff.mpr h''

theorem parsed_of_reachable
    (h : (fileSystem sha256 network).Reachable chain) :
    chain.Parsed := by
  refine @System.Reachable.invariant _ _ _ Parsed ?_ ?_ chain h
  · rintro _ ⟨start, tip, rfl⟩ e he
    cases he
  · rintro s call s' hs hstep
    cases call with
    | refresh node =>
        obtain rfl : s' = final (refresh sha256 node) s := hstep
        exact leaves_iff.mp (refresh_parsed hs)
    | reopen maps tip =>
        obtain ⟨loaded, hloaded, rfl⟩ := hstep
        have hload := loadIndex_persist (s.stored network maps)
        obtain rfl := Option.some.inj (Except.ok.inj (hload.symm.trans hloaded))
        intro e he
        obtain ⟨e', -, rfl⟩ := List.mem_map.mp he
        exact ⟨e'.record.toBytes, rfl⟩

end Parsed

end BitcoinAnchorChain

/-- A list is unchanged by a map exactly when each member is. -/
theorem map_eq_self_iff
    {α : Type}
    {f : α → α}
    {l : List α} :
    l.map f = l ↔ ∀ a ∈ l, f a = a := by
  rw [← List.map_id l, List.map_map, List.map_inj_left]
  simp

/-- A record that was read from a payload is read back unless the payload is slippery. -/
theorem AnchorRecord.reread_eq_iff
    {record : AnchorRecord}
    (h : ∃ b, record = fromBytes b) :
    fromBytes record.toBytes = record ↔ ∀ b, record = fromBytes b → slippery b = false := by
  constructor
  · rintro hread b rfl
    exact (fromBytes_toBytes_fromBytes_iff b).mp hread
  · intro hall
    obtain ⟨b, rfl⟩ := h
    exact (fromBytes_toBytes_fromBytes_iff b).mpr (hall b rfl)

/--
What a reload gives: the record of a payload is read back unless the payload is slippery;
the light client's index and the node backend's index, after any calls and restarts, are
read back with the same heights, and with the same anchors exactly when none of these was
read from a slippery payload.
-/
theorem reload_eq_iff
    (sha256 : Sha256)
    (network : Network) :
    (∀ b, AnchorRecord.fromBytes (AnchorRecord.fromBytes b).toBytes = AnchorRecord.fromBytes b ↔
      AnchorRecord.slippery b = false) ∧
    (∀ index, (ScanIndex.fileSystem sha256 network).Reachable index →
      ∃ loaded, ScanIndex.load sha256 network (index.persist sha256 network) = .ok loaded ∧
        loaded.fromHeight = index.fromHeight ∧ loaded.syncedTip = index.syncedTip ∧
        loaded.chainHashes = index.chainHashes ∧
        (loaded.occurrences = index.occurrences ↔
          ∀ e ∈ index.occurrences, ∀ b, e.record = AnchorRecord.fromBytes b →
            AnchorRecord.slippery b = false)) ∧
    (∀ chain, (BitcoinAnchorChain.fileSystem sha256 network).Reachable chain → ∀ maps,
      ∃ loaded, loadIndex network (chain.stored network maps).persist = .ok (some loaded) ∧
        loaded.start = chain.startHeight ∧ loaded.scanned = chain.scanned ∧
        (loaded.entries = chain.entries ↔
          ∀ e ∈ chain.entries, ∀ b, e.record = AnchorRecord.fromBytes b →
            AnchorRecord.slippery b = false)) := by
  refine ⟨AnchorRecord.fromBytes_toBytes_fromBytes_iff, ?_, ?_⟩
  · intro index hreach
    have hshaped := ScanIndex.shaped_of_reachable hreach
    refine ⟨index.reread, ScanIndex.load_persist hshaped, rfl, rfl, rfl, ?_⟩
    refine map_eq_self_iff.trans (forall₂_congr ?_)
    intro e he
    have hparsed : ∃ b, e.record = AnchorRecord.fromBytes b := by
      obtain ⟨txs, hscanned⟩ := hshaped.scanned
      rw [hscanned.occurrences_eq] at he
      obtain ⟨t, ht, hcandidate⟩ := List.mem_flatMap.mp he
      rw [(AnchorTx.mem_candidates hcandidate).2.2.1]
      exact (hscanned.decoded t ht).parsed
    rw [← AnchorRecord.reread_eq_iff hparsed]
    constructor
    · intro heq
      exact congrArg ScannedAnchor.record heq
    · intro heq
      rw [ScannedAnchor.reread, heq]
  · intro chain hreach maps
    refine ⟨_, loadIndex_persist (chain.stored network maps), rfl, rfl, ?_⟩
    refine map_eq_self_iff.trans (forall₂_congr ?_)
    intro e he
    rw [← AnchorRecord.reread_eq_iff (BitcoinAnchorChain.parsed_of_reachable hreach e he)]
    constructor
    · intro heq
      exact congrArg Entry.record heq
    · intro heq
      rw [Entry.reread, heq]

namespace ReloadSample

open BitcoinAnchorChain Call RetrySample

/-- A mint tag, and a last byte that is not zero. -/
def payload : Bytes 64 :=
  ⟨AnchorRecord.tagMint :: (List.replicate 62 0 ++ [1]), by simp⟩

theorem no_utxos_sorted :
    List.Pairwise (fun a b : UInt8 × (Bytes 32 × UInt32) => a.1.toNat < b.1.toNat) [] :=
  List.Pairwise.nil

def maps : IndexMaps where
  markers := [(1, true)]
  markers_sorted := by simp
  fundingUtxos := []
  fundingUtxos_sorted := no_utxos_sorted

/-- The index after a block with this payload was scanned. -/
def chain : BitcoinAnchorChain :=
  final (refresh Sha2.sha256 (node [(txOf (anchorScript payload)).toRpc Sha2.sha256])) (opened 1 0)

/-- The index after a block with an ordinary payload was scanned. -/
def cleanChain : BitcoinAnchorChain :=
  final (refresh Sha2.sha256 (node wholeTxs)) (opened 1 0)

theorem clean_reloads :
    ∃ loaded, loadIndex .regtest (cleanChain.stored .regtest maps).persist = .ok (some loaded) ∧
      loaded.entries = cleanChain.entries := by
  have hstep : (BitcoinAnchorChain.fileSystem Sha2.sha256 .regtest).step (opened 1 0)
      (.refresh (node wholeTxs)) cleanChain := rfl
  have hreach : (BitcoinAnchorChain.fileSystem Sha2.sha256 .regtest).Reachable cleanChain :=
    System.Reachable.step (System.Reachable.init ⟨1, 0, rfl⟩) hstep
  obtain ⟨loaded, hload, -, -, hiff⟩ :=
    (reload_eq_iff Sha2.sha256 .regtest).2.2 cleanChain hreach maps
  refine ⟨loaded, hload, hiff.mpr ?_⟩
  have hrecords : ∀ e ∈ cleanChain.entries, e.record = AnchorRecord.fromBytes (Bytes.zero 64) := by
    decide +kernel
  intro e he
  refine (AnchorRecord.reread_eq_iff ⟨_, hrecords e he⟩).mp ?_
  rw [hrecords e he]
  decide +kernel

/-- The anchor of a slippery payload is another one after a restart. -/
theorem slippery_anchor_changes :
    (BitcoinAnchorChain.fileSystem Sha2.sha256 .regtest).Reachable chain ∧
      AnchorRecord.fromBytes (AnchorRecord.fromBytes payload).toBytes ≠
        AnchorRecord.fromBytes payload ∧
      ∃ loaded, loadIndex .regtest (chain.stored .regtest maps).persist = .ok (some loaded) ∧
        loaded.entries ≠ chain.entries := by
  have hstep : (BitcoinAnchorChain.fileSystem Sha2.sha256 .regtest).step (opened 1 0)
      (.refresh (node [(txOf (anchorScript payload)).toRpc Sha2.sha256])) chain := rfl
  refine ⟨System.Reachable.step (System.Reachable.init ⟨1, 0, rfl⟩) hstep, by decide +kernel, _,
    loadIndex_persist (chain.stored .regtest maps), ?_⟩
  show chain.entries.map Entry.reread ≠ chain.entries
  decide +kernel

end ReloadSample

end OpenCsv
