import OpenCsv.Bitcoin.Index
import OpenCsv.Core.AnchorCodec

/-!
# The chain file of the demo anchor

The demo anchor keeps its log in memory and appends one line to a text file for each anchor and
each advance of the tip.  Opening the file again replays the lines.  A line holds the bytes of
a record, so a record comes back as its bytes are read.

**Result.** `file_chain_answers`: whatever is appended and however often the file is reopened,
the run never fails, and every append is answered as by the log in memory.  If the records
read back, the views are equal too.
-/

namespace OpenCsv

/-- Why an operation on a chain fails. -/
inductive CliError where
  /-- A line is not UTF-8. -/
  | io
  | decode (message : Text)
  | hex (message : Text)
  | parse (message : Text)
deriving DecidableEq

/-- The message of an error, without the path of the file. -/
def CliError.message : CliError → Text
  | .io => Text.lit "stream did not contain valid UTF-8"
  | .decode message => Text.lit "corrupt data: " ++ message
  | .hex message => Text.lit "invalid hex: " ++ message
  | .parse message => message

namespace HexUtil

/-- Decode the pairs from offset `i` on. -/
def fromHexPairs (i : ℕ) : List UInt8 → Except CliError (List UInt8)
  | c :: d :: rest => do
      let b ← okOr (hexPairValue c d) (.hex (Text.lit "non-hex byte at offset " ++ Text.ofNat i))
      let bs ← fromHexPairs (i + 2) rest
      return b :: bs
  | _ => .ok []

/-- Decode hex of either case, odd lengths rejected. -/
def fromHex (s : List UInt8) : Except CliError (List UInt8) :=
  let bytes := trim s
  if bytes.length % 2 ≠ 0 then
    .error (.hex (Text.lit "odd length " ++ Text.ofNat bytes.length))
  else
    fromHexPairs 0 bytes

/-- Pairs are read back as the bytes that wrote them. -/
theorem fromHexPairs_flatMap
    (bytes : List UInt8)
    (i : ℕ) :
    fromHexPairs i (bytes.flatMap hexPair) = .ok bytes := by
  induction bytes generalizing i with
  | nil =>
      rfl
  | cons b bytes ih =>
      show fromHexPairs i (hexDigit (b >>> 4) :: hexDigit (b &&& 0x0F) ::
        bytes.flatMap hexPair) = _
      rw [fromHexPairs, hexPairValue_hexPair, ih]
      rfl

/-- Bytes are read back from their hex. -/
theorem fromHex_toHex
    (bytes : List UInt8) :
    fromHex (toHex bytes).bytes = .ok bytes := by
  have htrim : trim (toHex bytes).bytes = (toHex bytes).bytes := by
    refine trim_of_not_space ?_
    intro c hc
    obtain ⟨b, -, hb⟩ := List.mem_flatMap.mp hc
    exact hexPair_not_space b c hb
  have heven : (toHex bytes).bytes.length % 2 = 0 := by
    rw [toHex_length]
    omega
  have hpairs : fromHexPairs 0 (toHex bytes).bytes = .ok bytes :=
    fromHexPairs_flatMap bytes 0
  simp [fromHex, htrim, heven, hpairs]

end HexUtil

/-- The demo anchor: its file and the log it holds in memory. -/
structure FileAnchorChain where
  file : List UInt8
  tipHeight : UInt64
  entries : List MockEntry
deriving DecidableEq

namespace FileAnchorChain

section Lines

/-- First line of every chain file. -/
def magic : List UInt8 :=
  word "opencsv-chain-v3"

/-- How the first line of any version starts. -/
def magicStem : List UInt8 :=
  word "opencsv-chain-v"

/-- A line after the first one. -/
inductive Line where
  | tip (height : UInt64)
  | entry (entry : MockEntry)

def Line.words : Line → List (List UInt8)
  | .tip height => [word "tip", natDigits height.toNat]
  | .entry e =>
      [word "entry", natDigits e.location.height.toNat, natDigits e.location.position.toNat,
        (toHex e.txid.toList).bytes, (toHex e.ctx.toList).bytes,
        (toHex e.record.toBytes.toList).bytes]

def Line.text (line : Line) : List UInt8 :=
  joinWords blank line.words

end Lines

section Loading

/-- The error of line `n`, counted from zero. -/
def malformed (n : ℕ) (line : List UInt8) : CliError :=
  .decode (Text.lit "line " ++ Text.ofNat (n + 1) ++ Text.lit ": malformed `" ++
    wordText (trim line) ++ Text.lit "`")

/-- Replay the fields of one line; `bad` reports a malformed one. -/
def loadFields
    (bad : CliError)
    (chain : FileAnchorChain) :
    List (List UInt8) → Except CliError FileAnchorChain
  | [] => .ok chain
  | [kind, h] =>
      if kind = word "tip" then do
        let tip ← okOr (readU64 h) bad
        return { chain with tipHeight := tip }
      else
        .error bad
  | [kind, h, p, txidHex, ctxHex, recordHex] =>
      if kind = word "entry" then do
        let height ← okOr (readU64 h) bad
        let position ← okOr (readU32 p) bad
        let txid ← HexUtil.fromHex txidHex
        let txid ← okOr (Bytes.tryFrom 32 txid) bad
        let ctx ← HexUtil.fromHex ctxHex
        let ctx ← okOr (Bytes.tryFrom 32 ctx) bad
        let recordBytes ← HexUtil.fromHex recordHex
        let recordBytes ← okOr (Bytes.tryFrom 64 recordBytes) bad
        return { chain with
          entries := chain.entries ++
            [{ txid := txid
               location := ⟨height, position⟩
               record := AnchorRecord.fromBytes recordBytes
               ctx := ctx }] }
      else
        .error bad
  | _ => .error bad

/-- Replay the lines from number `n` on. -/
def loadLines
    (n : ℕ)
    (chain : FileAnchorChain) :
    List (List UInt8) → Except CliError FileAnchorChain
  | [] => .ok chain
  | line :: rest =>
      if ValidUtf8 line then do
        let chain ← loadFields (malformed n line) chain (OpenCsv.words isSpace line)
        loadLines (n + 1) chain rest
      else
        .error .io

/-- Replay a chain file. -/
def load (file : List UInt8) : Except CliError FileAnchorChain :=
  match linesOf newline file with
  | [] => .error (.decode (Text.lit "empty chain file"))
  | first :: rest =>
      if ¬ ValidUtf8 first then
        .error .io
      else if trim first = magic then
        loadLines 1 ⟨file, 0, []⟩ rest
      else if magicStem.isPrefixOf (trim first) then
        .error (.decode (Text.lit "chain log is format `" ++ wordText (trim first) ++
          Text.lit "`, which predates bound nullifier payloads and cannot be migrated" ++
          Text.lit " — start a fresh v3 chain file"))
      else
        .error (.decode (Text.lit "bad magic line `" ++ wordText first ++ Text.lit "`"))

/-- Open the chain file; a missing one is started with its first line. -/
def openFile : Option (List UInt8) → Except CliError FileAnchorChain
  | none => .ok ⟨unlines newline [magic], 0, []⟩
  | some file => load file

end Loading

section Operations

/-- Append one line to the file. -/
def writeLine (line : Line) (file : List UInt8) : List UInt8 :=
  file ++ unlines newline [line.text]

/-- Advance the tip by `n` blocks and write it down; nothing happens for `n = 0`. -/
def advanceBlocks (c : FileAnchorChain) (n : UInt64) : FileAnchorChain :=
  if n = 0 then
    c
  else
    let tip := saturatingAdd c.tipHeight n
    { c with
      tipHeight := tip
      file := writeLine (.tip tip) c.file }

/-- Append a record to the tip block and write it down. -/
def append
    (sponge : Sponge)
    (c : FileAnchorChain)
    (record : AnchorRecord)
    (ctx : Ctx) : FileAnchorChain × AnchorRef :=
  let position := UInt32.ofNat
    (c.entries.filter (fun e => e.location.height == c.tipHeight)).length
  let location : AnchorLocation := ⟨c.tipHeight, position⟩
  let txid := (hashFelts sponge "mock-txid" [[felt (UInt32.ofNat c.entries.length)]]).bytes
  let entry : MockEntry := ⟨txid, location, record, ctx⟩
  ({ c with
      file := writeLine (.entry entry) c.file
      entries := c.entries ++ [entry] },
    ⟨txid, location⟩)

def find (c : FileAnchorChain) (ref : AnchorRef) : Option MockEntry :=
  c.entries.find? (fun e => e.location == ref.location && e.txid == ref.txid)

def nullifierOccurrences
    (sponge : Sponge)
    (c : FileAnchorChain)
    (rawNf : Digest) : List AnchorLocation :=
  ((c.entries.filter (fun e => e.record.wellFormed sponge e.ctx rawNf)).map
    MockEntry.location).insertionSort (fun a b => a.le b = true)

/-- The chain view of the file. -/
def toAnchorChain (sponge : Sponge) (c : FileAnchorChain) : AnchorChain where
  tipHeight := c.tipHeight
  anchorAt := fun ref => (c.find ref).map MockEntry.record
  proofRecordAt := fun ref _ =>
    AnchorChain.soloProofRecord ((c.find ref).map MockEntry.record)
  ctxAt := fun ref => (c.find ref).map MockEntry.ctx
  locate := fun ref => ((c.find ref).map MockEntry.record).map (fun _ => ref.location)
  firstNullifierOccurrence := fun rawNf => (c.nullifierOccurrences sponge rawNf).head?
  nullifierOccurrences := c.nullifierOccurrences sponge
  anchorsUpTo := fun height =>
    ((c.entries.filter (fun e => e.location.height ≤ height)).map
      (fun e => (e.location, e.record))).insertionSort (fun a b => a.1.le b.1 = true)
  confirmationsAt := AnchorChain.depthBelow c.tipHeight

end Operations

end FileAnchorChain

/-- What happens to a chain file. -/
inductive FileChainOp where
  | append (record : AnchorRecord) (ctx : Ctx)
  | advanceBlocks (n : UInt64)
  /-- The process ends, and the next one opens the file. -/
  | reopen

/-- One operation on the file, and the reference an append answers. -/
def FileAnchorChain.perform
    (sponge : Sponge)
    (c : FileAnchorChain) :
    FileChainOp → Except CliError (FileAnchorChain × Option AnchorRef)
  | .append record ctx =>
      let (c, ref) := c.append sponge record ctx
      .ok (c, some ref)
  | .advanceBlocks n => .ok (c.advanceBlocks n, none)
  | .reopen => do
      let c ← FileAnchorChain.openFile (some c.file)
      return (c, none)

/-- A run of operations, with the references of its appends. -/
def FileAnchorChain.run
    (sponge : Sponge)
    (c : FileAnchorChain) :
    List FileChainOp → Except CliError (FileAnchorChain × List AnchorRef)
  | [] => .ok (c, [])
  | op :: ops => do
      let (c, ref) ← c.perform sponge op
      let (c, refs) ← FileAnchorChain.run sponge c ops
      return (c, ref.toList ++ refs)

/-- The same operation on the log in memory, which is never reopened. -/
def MockAnchorChain.perform
    (sponge : Sponge)
    (m : MockAnchorChain) :
    FileChainOp → MockAnchorChain × Option AnchorRef
  | .append record ctx =>
      let (m, ref) := m.appendWithCtx sponge record ctx
      (m, some ref)
  | .advanceBlocks n => (m.advanceBlocks n, none)
  | .reopen => (m, none)

def MockAnchorChain.run
    (sponge : Sponge)
    (m : MockAnchorChain) :
    List FileChainOp → MockAnchorChain × List AnchorRef
  | [] => (m, [])
  | op :: ops =>
      let (m, ref) := m.perform sponge op
      let (m, refs) := MockAnchorChain.run sponge m ops
      (m, ref.toList ++ refs)

section Reread

/-- The bytes of a record are those of the record they decode to. -/
theorem AnchorRecord.toBytes_reread
    (r : AnchorRecord) :
    (AnchorRecord.fromBytes r.toBytes).toBytes = r.toBytes := by
  by_cases hclean : r.parsesCleanly = true
  · exact AnchorRecord.toBytes_fromBytes_toBytes hclean
  · -- Only a transfer that reads as a tagged record is left.
    rw [AnchorRecord.parsesCleanly_eq] at hclean
    simp only [Bool.or_eq_true, Bool.not_eq_true', not_or, Bool.not_eq_false] at hclean
    refine AnchorRecord.toBytes_fromBytes_of_tagged ?_
    intro hclass
    rw [AnchorRecord.fromBytes_of_untagged hclass] at hclean
    simp [AnchorRecord.isTagged] at hclean

/-- An entry as it is replayed from its line. -/
def MockEntry.reread (e : MockEntry) : MockEntry :=
  { e with record := AnchorRecord.fromBytes e.record.toBytes }

@[simp] theorem MockEntry.reread_location
    (e : MockEntry) :
    e.reread.location = e.location :=
  rfl

@[simp] theorem MockEntry.reread_reread
    (e : MockEntry) :
    e.reread.reread = e.reread := by
  simp only [MockEntry.reread, AnchorRecord.toBytes_reread]

theorem saturatingAdd_zero
    (a : UInt64) :
    saturatingAdd a 0 = a := by
  have ha := a.toNat_lt
  simp [saturatingAdd, ha]

/-- A log as it is replayed from its lines. -/
def MockAnchorChain.reread (m : MockAnchorChain) : MockAnchorChain :=
  { m with entries := m.entries.map MockEntry.reread }

end Reread

namespace FileAnchorChain

/-- The log in memory. -/
def log (c : FileAnchorChain) : MockAnchorChain :=
  ⟨c.tipHeight, c.entries⟩

/-- A file and a log in memory. -/
def ofLog (file : List UInt8) (m : MockAnchorChain) : FileAnchorChain :=
  ⟨file, m.tipHeight, m.entries⟩

section Replay

variable {bad : CliError}

/-- The words of the format stand for themselves. -/
theorem format_words :
    word "entry" ≠ word "tip" ∧ IsPlain (word "tip") ∧ IsPlain (word "entry") ∧
      IsPlain magic ∧ newline ∉ magic ∧ trim magic = magic := by
  decide +kernel

/-- The words of a line stand for themselves. -/
theorem Line.isPlain
    (line : Line) :
    ∀ w ∈ line.words, IsPlain w := by
  cases line with
  | tip height =>
      simp only [Line.words, List.forall_mem_cons]
      exact ⟨format_words.2.1, isPlain_natDigits _, by simp⟩
  | entry e =>
      simp only [Line.words, List.forall_mem_cons]
      exact ⟨format_words.2.2.1, isPlain_natDigits _, isPlain_natDigits _,
        isPlain_array (by simp) e.txid, isPlain_array (by simp) e.ctx,
        isPlain_array (by simp) e.record.toBytes, by simp⟩

/-- The log after one more line. -/
def Line.replay (m : MockAnchorChain) : Line → MockAnchorChain
  | .tip height => { m with tipHeight := height }
  | .entry e => { m with entries := m.entries ++ [e.reread] }

/-- A written line is replayed as it was meant. -/
theorem loadFields_words
    (file : List UInt8)
    (m : MockAnchorChain)
    (line : Line) :
    loadFields bad (ofLog file m) line.words = .ok (ofLog file (Line.replay m line)) := by
  cases line with
  | tip height =>
      simp [ofLog, Line.words, loadFields, Line.replay, readU64_natDigits, okOr, bind, Except.bind,
        pure, Except.pure]
  | entry e =>
      have htxid : Bytes.tryFrom 32 e.txid.toList = some e.txid := Bytes.tryFrom_eq_some_iff.mpr rfl
      have hctx : Bytes.tryFrom 32 e.ctx.toList = some e.ctx := Bytes.tryFrom_eq_some_iff.mpr rfl
      have hrecord : Bytes.tryFrom 64 e.record.toBytes.toList = some e.record.toBytes :=
        Bytes.tryFrom_eq_some_iff.mpr rfl
      simp [ofLog, Line.words, loadFields, Line.replay, MockEntry.reread, readU64_natDigits,
        readU32_natDigits, HexUtil.fromHex_toHex, htxid, hctx, hrecord, okOr, bind, Except.bind,
        pure, Except.pure]

/-- The text of a line is one line of ASCII that has its words. -/
theorem Line.text_spec
    (line : Line) :
    OpenCsv.words isSpace line.text = line.words ∧ newline ∉ line.text ∧
      ValidUtf8 line.text := by
  refine ⟨words_joinWords (by decide) (fun w hw => (line.isPlain w hw).isWord), ?_, ?_⟩
  · intro hmem
    rcases mem_joinWords hmem with hblank | ⟨w, hw, hin⟩
    · exact absurd hblank (by decide)
    · have hspace := ((line.isPlain w hw).2 newline hin).1
      exact absurd hspace (by decide)
  · refine validUtf8_of_ascii ?_
    intro b hb
    rcases mem_joinWords hb with rfl | ⟨w, hw, hin⟩
    · decide
    · exact ((line.isPlain w hw).2 b hin).2

/-- Written lines are replayed one after the other. -/
theorem loadLines_texts
    (file : List UInt8)
    (lines : List Line)
    (n : ℕ)
    (m : MockAnchorChain) :
    loadLines n (ofLog file m) (lines.map Line.text) =
      .ok (ofLog file (lines.foldl Line.replay m)) := by
  induction lines generalizing n m with
  | nil =>
      rfl
  | cons line lines ih =>
      obtain ⟨hwords, -, hvalid⟩ := line.text_spec
      rw [List.map_cons, loadLines, if_pos hvalid, hwords, loadFields_words]
      exact ih (n + 1) (Line.replay m line)

/-- The bytes of a chain file with these lines. -/
def fileOf (lines : List Line) : List UInt8 :=
  unlines newline (magic :: lines.map Line.text)

theorem fileOf_concat
    (lines : List Line)
    (line : Line) :
    fileOf (lines ++ [line]) = writeLine line (fileOf lines) := by
  simp [fileOf, writeLine, unlines]

/-- A chain file of written lines is replayed. -/
theorem load_fileOf
    (lines : List Line) :
    load (fileOf lines) = .ok (ofLog (fileOf lines) (lines.foldl Line.replay .new)) := by
  obtain ⟨-, -, -, hplain, hnewline, htrim⟩ := format_words
  have hlines : linesOf newline (fileOf lines) = magic :: lines.map Line.text := by
    have hmark : ∀ l ∈ magic :: lines.map Line.text, newline ∉ l := by
      intro l hl
      rcases List.mem_cons.mp hl with rfl | hl
      · exact hnewline
      · obtain ⟨line, -, rfl⟩ := List.mem_map.mp hl
        exact line.text_spec.2.1
    simpa [fileOf] using linesOf_unlines hmark []
  have hvalid : ValidUtf8 magic := validUtf8_of_ascii (fun b hb => (hplain.2 b hb).2)
  rw [load, hlines]
  simp only [hvalid, not_true_eq_false, if_false, htrim, if_true]
  exact loadLines_texts (fileOf lines) lines 1 .new

end Replay

section Runs

variable {sponge : Sponge}
variable {c : FileAnchorChain}
variable {m : MockAnchorChain}

/--
The file is a sequence of lines whose replay shows the log in memory, each record as its bytes
are read.
-/
def Persisted (c : FileAnchorChain) : Prop :=
  ∃ lines : List Line, c.file = fileOf lines ∧ lines.foldl Line.replay .new = c.log.reread

/-- The log in memory is the other one, up to the bytes of the records. -/
def Follows (c : FileAnchorChain) (m : MockAnchorChain) : Prop :=
  c.log.reread = m.reread

/-- A persisted chain is shown by the next process. -/
theorem Persisted.load_eq
    (h : c.Persisted) :
    load c.file = .ok (ofLog c.file c.log.reread) := by
  obtain ⟨lines, hfile, hlog⟩ := h
  rw [hfile, load_fileOf, hlog]

theorem persisted_fresh :
    (ofLog (unlines newline [magic]) .new).Persisted :=
  ⟨[], rfl, rfl⟩

/-- One more line is replayed after the others. -/
theorem Persisted.concat
    {d : FileAnchorChain}
    (h : c.Persisted)
    (line : Line)
    (hfile : d.file = writeLine line c.file)
    (hlog : Line.replay c.log.reread line = d.log.reread) :
    d.Persisted := by
  obtain ⟨lines, hc, hreplay⟩ := h
  refine ⟨lines ++ [line], ?_, ?_⟩
  · rw [hfile, hc, fileOf_concat]
  · rw [List.foldl_append, hreplay]
    exact hlog

theorem Follows.tipHeight_eq
    (h : c.Follows m) :
    c.tipHeight = m.tipHeight :=
  congrArg MockAnchorChain.tipHeight h

theorem Follows.entries_eq
    (h : c.Follows m) :
    c.entries.map MockEntry.reread = m.entries.map MockEntry.reread :=
  congrArg MockAnchorChain.entries h

theorem Follows.length_eq
    (h : c.Follows m) :
    c.entries.length = m.entries.length := by
  simpa using congrArg List.length h.entries_eq

/-- The entry of an append does not depend on the records before it. -/
theorem append_eq
    (h : c.Follows m)
    (record : AnchorRecord)
    (ctx : Ctx) :
    c.append sponge record ctx =
      (⟨writeLine (.entry (m.nextEntry sponge record ctx)) c.file, c.tipHeight,
        c.entries ++ [m.nextEntry sponge record ctx]⟩, (m.appendWithCtx sponge record ctx).2) := by
  have hcount : (c.entries.filter (fun e => e.location.height == m.tipHeight)).length =
      (m.entries.filter (fun e => e.location.height == m.tipHeight)).length := by
    have hfilter := congrArg
      (fun es => (es.filter (fun e : MockEntry => e.location.height == m.tipHeight)).length)
      h.entries_eq
    simpa [List.filter_map, Function.comp_def] using hfilter
  simp only [append, MockAnchorChain.appendWithCtx, MockAnchorChain.nextEntry, h.tipHeight_eq,
    h.length_eq, hcount]

variable (sponge) in
/-- One operation succeeds, and is answered as by the log in memory. -/
theorem perform_spec
    (hpersisted : c.Persisted)
    (hfollows : c.Follows m)
    (op : FileChainOp) :
    ∃ c', c.perform sponge op = .ok (c', (m.perform sponge op).2) ∧ c'.Persisted ∧
      c'.Follows (m.perform sponge op).1 ∧
      (c.log = m → (m.perform sponge op).1.reread = (m.perform sponge op).1 →
        c'.log = (m.perform sponge op).1) := by
  have htip := hfollows.tipHeight_eq
  have hentries := hfollows.entries_eq
  cases op with
  | append record ctx =>
      refine ⟨(c.append sponge record ctx).1, ?_, ?_, ?_, ?_⟩
      · simp [perform, MockAnchorChain.perform, append_eq hfollows]
      · rw [append_eq hfollows]
        refine hpersisted.concat (.entry (m.nextEntry sponge record ctx)) rfl ?_
        simp [Line.replay, log, MockAnchorChain.reread]
      · rw [append_eq hfollows]
        simp [Follows, log, MockAnchorChain.reread, MockAnchorChain.perform,
          MockAnchorChain.appendWithCtx, htip, hentries]
      · rintro rfl -
        rw [append_eq hfollows]
        rfl
  | advanceBlocks n =>
      refine ⟨c.advanceBlocks n, rfl, ?_, ?_, ?_⟩
      · by_cases hzero : n = 0
        · simpa [advanceBlocks, hzero] using hpersisted
        · rw [advanceBlocks, if_neg hzero]
          exact hpersisted.concat (.tip (saturatingAdd c.tipHeight n)) rfl rfl
      · have hsame : (c.advanceBlocks n).log.reread = (c.log.reread).advanceBlocks n := by
          by_cases hzero : n = 0
          · simp [advanceBlocks, hzero, MockAnchorChain.advanceBlocks, saturatingAdd_zero]
          · simp [advanceBlocks, hzero, MockAnchorChain.advanceBlocks, log, MockAnchorChain.reread]
        rw [Follows, hsame, hfollows]
        rfl
      · rintro rfl -
        by_cases hzero : n = 0
        · simp [advanceBlocks, hzero, MockAnchorChain.perform, MockAnchorChain.advanceBlocks,
            saturatingAdd_zero]
        · simp [advanceBlocks, hzero, MockAnchorChain.perform, MockAnchorChain.advanceBlocks, log]
  | reopen =>
      refine ⟨ofLog c.file c.log.reread, ?_, ?_, ?_, ?_⟩
      · simp [perform, openFile, hpersisted.load_eq, MockAnchorChain.perform, bind, Except.bind,
          pure, Except.pure]
      · obtain ⟨lines, hfile, hlog⟩ := hpersisted
        refine ⟨lines, hfile, ?_⟩
        rw [hlog]
        simp [ofLog, log, MockAnchorChain.reread, Function.comp_def]
      · rw [Follows, MockAnchorChain.perform, ← hfollows]
        simp [ofLog, log, MockAnchorChain.reread, Function.comp_def]
      · rintro rfl hclean
        exact hclean

variable (sponge) in
/-- A whole run succeeds, and is answered as by the log in memory. -/
theorem run_spec
    (hpersisted : c.Persisted)
    (hfollows : c.Follows m)
    (ops : List FileChainOp) :
    ∃ c', c.run sponge ops = .ok (c', (m.run sponge ops).2) ∧ c'.Persisted ∧
      c'.Follows (m.run sponge ops).1 := by
  induction ops generalizing c m with
  | nil =>
      exact ⟨c, rfl, hpersisted, hfollows⟩
  | cons op ops ih =>
      obtain ⟨c₁, hstep, hpersisted₁, hfollows₁, -⟩ :=
        perform_spec sponge hpersisted hfollows op
      obtain ⟨c₂, hrun, hpersisted₂, hfollows₂⟩ := ih hpersisted₁ hfollows₁
      refine ⟨c₂, ?_, hpersisted₂, hfollows₂⟩
      simp [run, MockAnchorChain.run, hstep, hrun, bind, Except.bind, pure, Except.pure]

end Runs

end FileAnchorChain

namespace MockAnchorChain

variable {sponge : Sponge}
variable {m : MockAnchorChain}

theorem Reachable.run
    (h : m.Reachable sponge)
    (ops : List FileChainOp) :
    (m.run sponge ops).1.Reachable sponge := by
  induction ops generalizing m with
  | nil =>
      exact h
  | cons op ops ih =>
      refine ih ?_
      cases op with
      | append record ctx => exact h.ofApply (.appendWithCtx record ctx)
      | advanceBlocks n => exact h.ofApply (.advanceBlocks n)
      | reopen => exact h

/-- Does the operation append a record that its bytes give back? -/
def readsBack : FileChainOp → Prop
  | .append record _ => AnchorRecord.fromBytes record.toBytes = record
  | _ => True

variable (sponge) in
theorem reread_perform
    (h : m.reread = m)
    {op : FileChainOp}
    (hop : readsBack op) :
    (m.perform sponge op).1.reread = (m.perform sponge op).1 := by
  have hentries : m.entries.map MockEntry.reread = m.entries := congrArg entries h
  cases op with
  | append record ctx =>
      have hrecord : AnchorRecord.fromBytes record.toBytes = record := hop
      simp [perform, appendWithCtx, reread, nextEntry, MockEntry.reread, hrecord] at hentries ⊢
      exact hentries
  | advanceBlocks n => simp [perform, advanceBlocks, reread, hentries]
  | reopen => exact h

theorem reread_run
    (h : m.reread = m)
    {ops : List FileChainOp}
    (hops : ∀ op ∈ ops, readsBack op) :
    (m.run sponge ops).1.reread = (m.run sponge ops).1 := by
  induction ops generalizing m with
  | nil =>
      exact h
  | cons op ops ih =>
      exact ih (reread_perform sponge h (hops op List.mem_cons_self))
        (fun o ho => hops o (List.mem_cons_of_mem op ho))

theorem run_append
    (ops ops' : List FileChainOp) :
    (m.run sponge (ops ++ ops')).1 = ((m.run sponge ops).1.run sponge ops').1 := by
  induction ops generalizing m with
  | nil =>
      rfl
  | cons op ops ih =>
      exact ih

/-- Entries in canonical order. -/
def Sorted (entries : List MockEntry) : Prop :=
  entries.Pairwise (fun a b => a.location.le b.location = true)

/-- A log of at most `2 ^ 32` entries is in canonical order. -/
theorem Reachable.sorted
    (h : m.Reachable sponge)
    (hlength : m.entries.length ≤ 2 ^ 32) :
    Sorted m.entries := by
  rw [Sorted, List.pairwise_iff_getElem]
  intro i j hi hj hij
  exact h.location_le hlength (List.getElem?_eq_getElem hi) (List.getElem?_eq_getElem hj) hij.le

theorem Sorted.reread
    {entries : List MockEntry}
    (h : Sorted entries) :
    Sorted (entries.map MockEntry.reread) := by
  rw [Sorted, List.pairwise_map]
  exact h

variable (sponge) in
/-- In canonical order the first entry found is the least one. -/
theorem Sorted.head?_locations
    {entries : List MockEntry}
    (h : Sorted entries)
    (rawNf : Digest) :
    (((entries.filter (fun e => e.record.wellFormed sponge e.ctx rawNf)).map
      MockEntry.location).insertionSort (fun a b => a.le b = true)).head? =
        (MockAnchorChain.mk 0 entries).firstNullifierOccurrence sponge rawNf := by
  have hlocations : ((entries.filter (fun e => e.record.wellFormed sponge e.ctx rawNf)).map
      MockEntry.location).Pairwise (fun a b => a.le b = true) := by
    rw [List.pairwise_map]
    exact h.filter _
  rw [firstNullifierOccurrence_eq, hlocations.insertionSort_eq, List.head?_map, List.head?_filter]

/-- The view of a file with the same log. -/
theorem toAnchorChain_file
    {c : FileAnchorChain}
    (hsorted : Sorted m.entries)
    (hlog : c.log = m) :
    c.toAnchorChain sponge = m.toAnchorChain sponge := by
  subst hlog
  have hfirst : ∀ rawNf, (c.nullifierOccurrences sponge rawNf).head? =
      c.log.firstNullifierOccurrence sponge rawNf := fun rawNf => hsorted.head?_locations sponge rawNf
  simp only [FileAnchorChain.toAnchorChain, toAnchorChain, hfirst, Option.map_map]
  rfl

end MockAnchorChain

namespace FileAnchorChain

/-- A run of records that read back keeps the same log as the one in memory. -/
theorem run_log
    {sponge : Sponge}
    {c c' : FileAnchorChain}
    {refs : List AnchorRef}
    {ops : List FileChainOp}
    (hops : ∀ op ∈ ops, MockAnchorChain.readsBack op)
    (hpersisted : c.Persisted)
    (hclean : c.log.reread = c.log)
    (hrun : c.run sponge ops = .ok (c', refs)) :
    c'.log = (c.log.run sponge ops).1 := by
  induction ops generalizing c refs with
  | nil =>
      obtain ⟨rfl, -⟩ := Prod.mk.inj (Except.ok.inj hrun)
      rfl
  | cons op ops ih =>
      obtain ⟨c₁, hstep, hpersisted₁, -, hlog⟩ :=
        perform_spec sponge hpersisted (m := c.log) rfl op
      have hclean₁ := MockAnchorChain.reread_perform sponge hclean
        (hops op List.mem_cons_self)
      have hlog₁ := hlog rfl hclean₁
      simp only [run, hstep, bind, Except.bind] at hrun
      cases hrest : c₁.run sponge ops with
      | error e =>
          rw [hrest] at hrun
          cases hrun
      | ok result =>
          rw [hrest] at hrun
          obtain ⟨rfl, -⟩ := Prod.mk.inj (Except.ok.inj hrun)
          have hrestLog := ih (fun o ho => hops o (List.mem_cons_of_mem op ho)) hpersisted₁
            (by rw [hlog₁]; exact hclean₁) hrest
          rw [hrestLog, hlog₁]
          rfl

end FileAnchorChain

/--
A run on a fresh chain file never fails, and its appends are answered as by the log in memory,
whatever is appended and however often the file is reopened; the next process sees each record
as its bytes are read.  If all records read back, the file shows the very log, and, up to
`2 ^ 32` entries, all queries are answered as by the log in memory.
-/
theorem file_chain_answers
    (sponge : Sponge)
    (ops : List FileChainOp) :
    ∃ fresh c,
      FileAnchorChain.openFile none = .ok fresh ∧
      fresh.run sponge ops = .ok (c, (MockAnchorChain.new.run sponge ops).2) ∧
      FileAnchorChain.load c.file = .ok (FileAnchorChain.ofLog c.file c.log.reread) ∧
      c.log.reread = (MockAnchorChain.new.run sponge ops).1.reread ∧
      ((∀ op ∈ ops, MockAnchorChain.readsBack op) →
        c.log = (MockAnchorChain.new.run sponge ops).1 ∧
          FileAnchorChain.load c.file = .ok c ∧
          (c.entries.length ≤ 2 ^ 32 →
            c.toAnchorChain sponge =
              (MockAnchorChain.new.run sponge ops).1.toAnchorChain sponge)) := by
  obtain ⟨c, hrun, hpersisted, hfollows⟩ :=
    FileAnchorChain.run_spec sponge FileAnchorChain.persisted_fresh
      (m := MockAnchorChain.new) rfl ops
  refine ⟨_, c, rfl, hrun, hpersisted.load_eq, hfollows, ?_⟩
  intro hops
  have hlog := FileAnchorChain.run_log hops FileAnchorChain.persisted_fresh rfl hrun
  have hreachable := (MockAnchorChain.Reachable.ofNew sponge).run ops
  have hclean : c.log.reread = c.log := by
    rw [hlog]
    exact MockAnchorChain.reread_run rfl hops
  refine ⟨hlog, ?_, ?_⟩
  · rw [hpersisted.load_eq, hclean]
    rfl
  · intro hlength
    refine MockAnchorChain.toAnchorChain_file (hreachable.sorted ?_) hlog
    have hentries : c.entries = (MockAnchorChain.new.run sponge ops).1.entries :=
      congrArg MockAnchorChain.entries hlog
    rw [← hentries]
    exact hlength

end OpenCsv
