import OpenCsv.Bitcoin.Chain
import OpenCsv.Core.ReadBack
import OpenCsv.Lib.Decimal
import OpenCsv.Lib.Words

/-!
# The index file of the node backend

The index is written as lines of words: a version line, the network, the start height,
the last scanned block if there is one, and then one line for each marker flag, funding
outpoint and anchor.  The file is written in place, and nothing in it says how long it is.

**Results.**
* `loadIndex_persist`: a whole file gives back what was written, each record as its bytes
  are read.
* `torn_index_trusted_iff`: a cut file is refused, or claims nothing, or still lists every
  anchor, unless the cut keeps the scanned block, loses an anchor and falls between two
  lines or inside the last number of a funding line.
-/

namespace OpenCsv

section Words

/-! The words of a text file; other white space than ASCII's is not told apart. -/

def newline : UInt8 := 0x0A

def blank : UInt8 := 0x20

/-- A word of the source. -/
def word (s : String) : List UInt8 :=
  (Text.lit s).bytes

/-- A word of a file as text. -/
def wordText (w : List UInt8) : Text :=
  Text.fromUtf8Lossy w

def readU64 (w : List UInt8) : Option UInt64 :=
  (parseNat (2 ^ 64) w).map UInt64.ofNat

def readU32 (w : List UInt8) : Option UInt32 :=
  (parseNat (2 ^ 32) w).map UInt32.ofNat

def readU8 (w : List UInt8) : Option UInt8 :=
  (parseNat (2 ^ 8) w).map UInt8.ofNat

/-- A hash in display order. -/
def readHash (w : List UInt8) : Option (Bytes 32) :=
  (hashFromRpc (wordText w)).toOption

/-- A byte array in hex. -/
def readArray (n : ℕ) (w : List UInt8) : Option (Bytes n) :=
  (rpcFromHex (wordText w)).toOption.bind (Bytes.tryFrom n)

/-- A word that stands for itself in a line: no white space, and ASCII. -/
def IsPlain (w : List UInt8) : Prop :=
  w ≠ [] ∧ ∀ b ∈ w, isSpace b = false ∧ b < 0x80

instance (w : List UInt8) : Decidable (IsPlain w) :=
  inferInstanceAs (Decidable (w ≠ [] ∧ ∀ b ∈ w, isSpace b = false ∧ b < 0x80))

theorem IsPlain.isWord
    {w : List UInt8}
    (h : IsPlain w) :
    IsWord isSpace w :=
  ⟨h.1, fun b hb => (h.2 b hb).1⟩

theorem IsPlain.of_front
    {w part : List UInt8}
    (h : IsPlain w)
    (hpart : part <+: w)
    (hne : part ≠ []) :
    IsPlain part :=
  ⟨hne, fun b hb => h.2 b (hpart.subset hb)⟩

/-- A plain word is its own text. -/
theorem wordText_of_plain
    {w : List UInt8}
    (h : IsPlain w) :
    (wordText w).bytes = w :=
  validUtf8_iff_lossy_eq.mp (validUtf8_of_ascii (fun b hb => (h.2 b hb).2))

theorem isPlain_natDigits
    (n : ℕ) :
    IsPlain (natDigits n) := by
  refine ⟨natDigits_ne_nil n, ?_⟩
  intro b hb
  refine ⟨?_, decimalDigits_ascii (w := Nat.log 10 n + 1) (n := n) b hb⟩
  have hdigit := isDecimalDigit_decimalDigits (w := Nat.log 10 n + 1) (n := n) b hb
  simp only [isDecimalDigit, Bool.and_eq_true, decide_eq_true_eq, UInt8.le_iff_toNat_le] at hdigit
  have hlow : 48 ≤ b.toNat := hdigit.1
  have hhigh : b.toNat ≤ 57 := hdigit.2
  rw [isSpace, Bool.or_eq_false_iff]
  constructor
  · rw [beq_eq_false_iff_ne]
    rintro rfl
    exact absurd hlow (by decide)
  · rw [Bool.and_eq_false_iff]
    right
    rw [decide_eq_false_iff_not, UInt8.le_iff_toNat_le]
    show ¬ b.toNat ≤ 13
    omega

theorem isPlain_toHex
    {bytes : List UInt8}
    (h : bytes ≠ []) :
    IsPlain (toHex bytes).bytes := by
  constructor
  · intro hnil
    have hlength := toHex_length bytes
    rw [hnil, List.length_nil] at hlength
    have hpos := List.length_pos_of_ne_nil h
    omega
  · intro c hc
    obtain ⟨b, -, hb⟩ := List.mem_flatMap.mp hc
    exact ⟨hexPair_not_space b c hb, hexPair_ascii b c hb⟩

theorem isPlain_array
    {n : ℕ}
    (hn : n ≠ 0)
    (bytes : Bytes n) :
    IsPlain (toHex bytes.toList).bytes := by
  refine isPlain_toHex ?_
  intro hnil
  have hlength := bytes.2
  rw [show bytes.1 = bytes.toList from rfl, hnil] at hlength
  exact hn hlength.symm

theorem readU64_natDigits
    (n : UInt64) :
    readU64 (natDigits n.toNat) = some n := by
  rw [readU64, parseNat_natDigits n.toNat_lt]
  exact congrArg some (UInt64.ofNat_toNat)

theorem readU32_natDigits
    (n : UInt32) :
    readU32 (natDigits n.toNat) = some n := by
  rw [readU32, parseNat_natDigits n.toNat_lt]
  exact congrArg some (UInt32.ofNat_toNat)

theorem readU8_natDigits
    (n : UInt8) :
    readU8 (natDigits n.toNat) = some n := by
  rw [readU8, parseNat_natDigits n.toNat_lt]
  exact congrArg some (UInt8.ofNat_toNat)

theorem wordText_toHex
    {bytes : List UInt8}
    (h : bytes ≠ []) :
    wordText (toHex bytes).bytes = toHex bytes :=
  Text.ext (wordText_of_plain (isPlain_toHex h))

theorem readHash_hashToRpc
    (hash : Bytes 32) :
    readHash (hashToRpc hash).bytes = some hash := by
  have htext : wordText (hashToRpc hash).bytes = hashToRpc hash :=
    Text.ext (wordText_of_plain (isPlain_array (by decide) hash.reverse))
  rw [readHash, htext, hashFromRpc_hashToRpc]
  rfl

theorem readArray_toHex
    {n : ℕ}
    (hn : n ≠ 0)
    (bytes : Bytes n) :
    readArray n (toHex bytes.toList).bytes = some bytes := by
  have htext : wordText (toHex bytes.toList).bytes = toHex bytes.toList :=
    Text.ext (wordText_of_plain (isPlain_array hn bytes))
  rw [readArray, htext, rpcFromHex_toHex]
  exact Bytes.tryFrom_eq_some_iff.mpr rfl

/-- Decoded pairs are half as many. -/
theorem length_of_fromHexPairs
    {i : ℕ}
    {hex bytes : List UInt8}
    (h : fromHexPairs i hex = .ok bytes) :
    2 * bytes.length ≤ hex.length := by
  induction i, hex using fromHexPairs.induct generalizing bytes with
  | case1 i c d rest ih =>
      simp only [fromHexPairs, except_bind_eq_ok_iff, pure, Except.pure, Except.ok.injEq] at h
      obtain ⟨b, -, bs, hbs, rfl⟩ := h
      have hlength := ih hbs
      simp only [List.length_cons]
      omega
  | case2 i l hshort =>
      rw [fromHexPairs] at h
      · obtain rfl := Except.ok.inj h
        exact Nat.zero_le _
      · exact hshort

theorem length_trim_le
    (bytes : List UInt8) :
    (trim bytes).length ≤ bytes.length := by
  rw [trim, List.length_reverse]
  refine (List.dropWhile_sublist _).length_le.trans ?_
  rw [List.length_reverse]
  exact (List.dropWhile_sublist _).length_le

/-- Hex that is too short is no array. -/
theorem readArray_of_short
    {n : ℕ}
    {w : List UInt8}
    (hplain : IsPlain w)
    (hshort : w.length < 2 * n) :
    readArray n w = none := by
  unfold readArray
  cases hread : rpcFromHex (wordText w) with
  | error e =>
      rfl
  | ok bytes =>
      unfold rpcFromHex at hread
      rw [wordText_of_plain hplain] at hread
      dsimp only at hread
      split_ifs at hread
      cases hpairs : fromHexPairs 0 (trim w) with
      | error e =>
          rw [hpairs] at hread
          cases hread
      | ok bytes' =>
          rw [hpairs] at hread
          obtain rfl := Except.ok.inj hread
          have hlength := length_of_fromHexPairs hpairs
          have htrim := length_trim_le w
          show Bytes.tryFrom n bytes' = none
          rw [Bytes.tryFrom, dif_neg]
          omega

/-- Hex that is too short is no hash. -/
theorem readHash_of_short
    {w : List UInt8}
    (hplain : IsPlain w)
    (hshort : w.length < 64) :
    readHash w = none := by
  have hnone := readArray_of_short (n := 32) hplain hshort
  unfold readArray at hnone
  unfold readHash hashFromRpc
  cases hread : rpcFromHex (wordText w) with
  | error e =>
      rfl
  | ok bytes =>
      rw [hread] at hnone
      have htry : Bytes.tryFrom 32 bytes = none := hnone
      simp only [bind, Except.bind, okOr, htry, Except.toOption]

end Words

section Model

/-- What `persist` writes of an index. -/
structure StoredIndex where
  network : Network
  startHeight : UInt64
  scanned : Option (UInt64 × Bytes 32)
  markers : List (UInt64 × Bool)
  markers_sorted : markers.Pairwise (fun a b => a.1.toNat < b.1.toNat)
  fundingUtxos : List (UInt8 × (Bytes 32 × UInt32))
  fundingUtxos_sorted : fundingUtxos.Pairwise (fun a b => a.1.toNat < b.1.toNat)
  entries : List Entry

/-- A line after the version line. -/
inductive IndexLine where
  | network (network : Network)
  | start (height : UInt64)
  | scanned (height : UInt64) (hash : Bytes 32)
  | marker (height : UInt64) (hasMarker : Bool)
  | fundingutxo (count : UInt8) (txid : Bytes 32) (vout : UInt32)
  | entry (entry : Entry)
deriving DecidableEq

namespace IndexLine

def words : IndexLine → List (List UInt8)
  | .network n => [word "network", n.name.bytes]
  | .start height => [word "start", natDigits height.toNat]
  | .scanned height hash => [word "scanned", natDigits height.toNat, (hashToRpc hash).bytes]
  | .marker height hasMarker =>
      [word "marker", natDigits height.toNat, if hasMarker then word "1" else word "0"]
  | .fundingutxo count txid vout =>
      [word "fundingutxo", natDigits count.toNat, (hashToRpc txid).bytes, natDigits vout.toNat]
  | .entry e =>
      [word "entry", natDigits e.location.height.toNat, natDigits e.location.position.toNat,
        (hashToRpc e.txid).bytes, (toHex e.ctx.toList).bytes, (toHex e.record.toBytes.toList).bytes]

def text (line : IndexLine) : List UInt8 :=
  joinWords blank line.words

/-- The anchor of an anchor line. -/
def entry? : IndexLine → Option Entry
  | .entry e => some e
  | _ => none

/-- Is it the line of the last scanned block? -/
def isScanned : IndexLine → Bool
  | .scanned .. => true
  | _ => false

end IndexLine

def magic : List UInt8 :=
  word "opencsv-bitcoin-index-v2"

/-- The format without marker lines. -/
def magicV1 : List UInt8 :=
  word "opencsv-bitcoin-index-v1"

namespace StoredIndex

def lines (index : StoredIndex) : List IndexLine :=
  [.network index.network, .start index.startHeight] ++
    (index.scanned.toList.map (fun s => .scanned s.1 s.2) ++
      (index.markers.map (fun m => .marker m.1 m.2) ++
        (index.fundingUtxos.map (fun u => .fundingutxo u.1 u.2.1 u.2.2) ++
          index.entries.map .entry)))

/-- The bytes of the index file. -/
def persist (index : StoredIndex) : List UInt8 :=
  unlines newline (magic :: index.lines.map IndexLine.text)

end StoredIndex

/-- Why an index file is refused. -/
inductive IndexError where
  /-- The file is not UTF-8. -/
  | notText
  | badMagic
  | wrongNetwork (name : Text) (expected : Network)
  | malformed (line : ℕ) (text : Text)
  | missingStart
deriving DecidableEq

/-- The message of a refusal. -/
def IndexError.message : IndexError → Text
  | .notText => Text.lit "stream did not contain valid UTF-8"
  | .badMagic => Text.lit "bad magic line"
  | .wrongNetwork name expected =>
      Text.lit "index is for network `" ++ name ++ Text.lit "`, not " ++ expected.name
  | .malformed line text =>
      Text.lit "line " ++ Text.ofNat line ++ Text.lit ": malformed `" ++ text ++ Text.lit "`"
  | .missingStart => Text.lit "missing `start` line"

/-- What was read so far. -/
structure IndexContents where
  start : Option UInt64
  scanned : Option (UInt64 × Bytes 32)
  entries : List Entry
  markers : List (UInt64 × Bool)
  fundingUtxos : List (UInt8 × (Bytes 32 × UInt32))

/-- A loaded index. -/
structure PersistedIndex where
  start : UInt64
  scanned : Option (UInt64 × Bytes 32)
  entries : List Entry
  markers : List (UInt64 × Bool)
  fundingUtxos : List (UInt8 × (Bytes 32 × UInt32))

def IndexContents.empty : IndexContents where
  start := none
  scanned := none
  entries := []
  markers := []
  fundingUtxos := []

/-- Read the words of a line; `bad` reports a malformed one. -/
def readWords
    (network : Network)
    (bad : IndexError)
    (contents : IndexContents) :
    List (List UInt8) → Except IndexError IndexContents
  | [] => .ok contents
  | [kind, a] =>
      if kind = word "network" then
        if Network.parse (wordText a) = some network then
          .ok contents
        else
          .error (.wrongNetwork (wordText a) network)
      else if kind = word "start" then do
        let height ← okOr (readU64 a) bad
        return { contents with start := some height }
      else
        .error bad
  | [kind, a, b] =>
      if kind = word "marker" then do
        let height ← okOr (readU64 a) bad
        let hasMarker ← if b = word "0" then .ok false else
          if b = word "1" then .ok true else .error bad
        return { contents with
          markers := insertRow UInt64.toNat height hasMarker contents.markers }
      else if kind = word "scanned" then do
        let height ← okOr (readU64 a) bad
        let hash ← okOr (readHash b) bad
        return { contents with scanned := some (height, hash) }
      else
        .error bad
  | [kind, count, txid, vout] =>
      if kind = word "fundingutxo" then do
        let count ← okOr (readU8 count) bad
        let txid ← okOr (readHash txid) bad
        let vout ← okOr (readU32 vout) bad
        return { contents with
          fundingUtxos := insertRow UInt8.toNat count (txid, vout) contents.fundingUtxos }
      else
        .error bad
  | [kind, height, position, txid, ctx, record] =>
      if kind = word "entry" then do
        let record ← okOr (readArray 64 record) bad
        let txid ← okOr (readHash txid) bad
        let height ← okOr (readU64 height) bad
        let position ← okOr (readU32 position) bad
        let ctx ← okOr (readArray 32 ctx) bad
        return { contents with
          entries := contents.entries ++
            [{ txid := txid
               location := ⟨height, position⟩
               record := AnchorRecord.fromBytes record
               ctx := ctx }] }
      else
        .error bad
  | _ => .error bad

/-- Read the lines from number `n` on, counted from zero. -/
def readLines
    (network : Network) :
    ℕ → IndexContents → List (List UInt8) → Except IndexError IndexContents
  | _, contents, [] => .ok contents
  | n, contents, line :: rest => do
      let contents ← readWords network (.malformed (n + 1) (wordText (trim line))) contents
        (OpenCsv.words isSpace line)
      readLines network (n + 1) contents rest

/-- The start height must have been read. -/
def IndexContents.finish
    (contents : IndexContents) : Except IndexError (Option PersistedIndex) := do
  let start ← okOr contents.start .missingStart
  return some ⟨start, contents.scanned, contents.entries, contents.markers, contents.fundingUtxos⟩

/-- Load an index file that exists; a file of the first format is rebuilt. -/
def loadIndex
    (network : Network)
    (file : List UInt8) : Except IndexError (Option PersistedIndex) :=
  if ValidUtf8 file then
    match linesOf newline file with
    | [] => .error .badMagic
    | first :: rest =>
        if trim first = magicV1 then
          .ok none
        else if trim first = magic then do
          let contents ← readLines network 1 .empty rest
          contents.finish
        else
          .error .badMagic
  else
    .error .notText

end Model

/-- A record as it is read back from its bytes. -/
def Entry.reread (e : Entry) : Entry :=
  { e with record := AnchorRecord.fromBytes e.record.toBytes }

/-- The contents after one more written line. -/
def IndexContents.add (contents : IndexContents) : IndexLine → IndexContents
  | .network _ => contents
  | .start height => { contents with start := some height }
  | .scanned height hash => { contents with scanned := some (height, hash) }
  | .marker height hasMarker =>
      { contents with markers := insertRow UInt64.toNat height hasMarker contents.markers }
  | .fundingutxo count txid vout =>
      { contents with
        fundingUtxos := insertRow UInt8.toNat count (txid, vout) contents.fundingUtxos }
  | .entry e => { contents with entries := contents.entries ++ [e.reread] }

/-- The line does not name another network. -/
def IndexLine.Fits (network : Network) : IndexLine → Prop
  | .network n => n = network
  | _ => True

section Lines

variable {network : Network}
variable {bad : IndexError}
variable {contents : IndexContents}

/-- The words of the format stand for themselves, and the networks are read from their names. -/
theorem format_words :
    (word "start" ≠ word "network" ∧ word "scanned" ≠ word "network" ∧
      word "scanned" ≠ word "start" ∧ word "scanned" ≠ word "marker" ∧
      word "marker" ≠ word "network" ∧ word "marker" ≠ word "start" ∧
      word "fundingutxo" ≠ word "network" ∧ word "fundingutxo" ≠ word "start" ∧
      word "fundingutxo" ≠ word "marker" ∧ word "fundingutxo" ≠ word "scanned" ∧
      word "entry" ≠ word "network" ∧ word "entry" ≠ word "start" ∧
      word "entry" ≠ word "marker" ∧ word "entry" ≠ word "scanned" ∧
      word "entry" ≠ word "fundingutxo" ∧ word "1" ≠ word "0") ∧
    (IsPlain (word "network") ∧ IsPlain (word "start") ∧ IsPlain (word "scanned") ∧
      IsPlain (word "marker") ∧ IsPlain (word "fundingutxo") ∧ IsPlain (word "entry") ∧
      IsPlain (word "0") ∧ IsPlain (word "1")) ∧
    (IsPlain Network.mainnet.name.bytes ∧ IsPlain Network.signet.name.bytes ∧
      IsPlain Network.regtest.name.bytes) ∧
    (Network.parse Network.mainnet.name = some .mainnet ∧
      Network.parse Network.signet.name = some .signet ∧
      Network.parse Network.regtest.name = some .regtest) := by
  decide +kernel

/-- The kinds of lines are told apart. -/
theorem kinds_ne :
    word "start" ≠ word "network" ∧ word "scanned" ≠ word "network" ∧
      word "scanned" ≠ word "start" ∧ word "scanned" ≠ word "marker" ∧
      word "marker" ≠ word "network" ∧ word "marker" ≠ word "start" ∧
      word "fundingutxo" ≠ word "network" ∧ word "fundingutxo" ≠ word "start" ∧
      word "fundingutxo" ≠ word "marker" ∧ word "fundingutxo" ≠ word "scanned" ∧
      word "entry" ≠ word "network" ∧ word "entry" ≠ word "start" ∧
      word "entry" ≠ word "marker" ∧ word "entry" ≠ word "scanned" ∧
      word "entry" ≠ word "fundingutxo" ∧ word "1" ≠ word "0" :=
  format_words.1

theorem isPlain_name
    (n : Network) :
    IsPlain n.name.bytes := by
  obtain ⟨hmainnet, hsignet, hregtest⟩ := format_words.2.2.1
  cases n with
  | mainnet => exact hmainnet
  | signet => exact hsignet
  | regtest => exact hregtest

theorem parse_name
    (n : Network) :
    Network.parse n.name = some n := by
  obtain ⟨hmainnet, hsignet, hregtest⟩ := format_words.2.2.2
  cases n with
  | mainnet => exact hmainnet
  | signet => exact hsignet
  | regtest => exact hregtest

theorem isPlain_hash
    (hash : Bytes 32) :
    IsPlain (hashToRpc hash).bytes :=
  isPlain_array (by decide) hash.reverse

/-- The words of a line stand for themselves. -/
theorem IndexLine.isPlain
    (line : IndexLine) :
    ∀ w ∈ line.words, IsPlain w := by
  obtain ⟨hnetwork, hstart, hscanned, hmarker, hfunding, hentry, hzero, hone⟩ := format_words.2.1
  cases line with
  | network n =>
      simp only [IndexLine.words, List.forall_mem_cons]
      exact ⟨hnetwork, isPlain_name n, by simp⟩
  | start height =>
      simp only [IndexLine.words, List.forall_mem_cons]
      exact ⟨hstart, isPlain_natDigits _, by simp⟩
  | scanned height hash =>
      simp only [IndexLine.words, List.forall_mem_cons]
      exact ⟨hscanned, isPlain_natDigits _, isPlain_hash hash, by simp⟩
  | marker height hasMarker =>
      simp only [IndexLine.words, List.forall_mem_cons]
      refine ⟨hmarker, isPlain_natDigits _, ?_, by simp⟩
      cases hasMarker with
      | false => exact hzero
      | true => exact hone
  | fundingutxo count txid vout =>
      simp only [IndexLine.words, List.forall_mem_cons]
      exact ⟨hfunding, isPlain_natDigits _, isPlain_hash txid, isPlain_natDigits _,
        by simp⟩
  | entry e =>
      simp only [IndexLine.words, List.forall_mem_cons]
      exact ⟨hentry, isPlain_natDigits _, isPlain_natDigits _, isPlain_hash e.txid,
        isPlain_array (by decide) e.ctx, isPlain_array (by decide) e.record.toBytes, by simp⟩

/-- A written line is read as it was meant. -/
theorem readWords_words
    {line : IndexLine}
    (h : line.Fits network) :
    readWords network bad contents line.words = .ok (contents.add line) := by
  cases line with
  | network n =>
      obtain rfl : n = network := h
      have htext : wordText n.name.bytes = n.name := Text.ext (wordText_of_plain (isPlain_name n))
      simp [IndexLine.words, readWords, IndexContents.add, htext, parse_name]
  | start height =>
      simp [IndexLine.words, readWords, IndexContents.add, kinds_ne, readU64_natDigits, okOr, bind,
        Except.bind, pure, Except.pure]
  | scanned height hash =>
      simp [IndexLine.words, readWords, IndexContents.add, kinds_ne, readU64_natDigits,
        readHash_hashToRpc, okOr, bind, Except.bind, pure, Except.pure]
  | marker height hasMarker =>
      cases hasMarker with
      | false =>
          simp [IndexLine.words, readWords, IndexContents.add, readU64_natDigits, okOr, bind,
            Except.bind, pure, Except.pure]
      | true =>
          simp [IndexLine.words, readWords, IndexContents.add, kinds_ne, readU64_natDigits, okOr,
            bind, Except.bind, pure, Except.pure]
  | fundingutxo count txid vout =>
      simp [IndexLine.words, readWords, IndexContents.add, readU8_natDigits, readHash_hashToRpc,
        readU32_natDigits, okOr, bind, Except.bind, pure, Except.pure]
  | entry e =>
      simp [IndexLine.words, readWords, IndexContents.add, Entry.reread, readU64_natDigits,
        readHash_hashToRpc, readU32_natDigits, readArray_toHex, okOr, bind, Except.bind, pure,
        Except.pure]

/-- The line of another network is refused. -/
theorem readWords_of_not_fits
    {line : IndexLine}
    (h : ¬ line.Fits network) :
    ∃ e, readWords network bad contents line.words = .error e := by
  cases line with
  | network n =>
      have hne : n ≠ network := h
      have htext : wordText n.name.bytes = n.name := Text.ext (wordText_of_plain (isPlain_name n))
      refine ⟨.wrongNetwork n.name network, ?_⟩
      simp [IndexLine.words, readWords, htext, parse_name, hne]
  | start height => exact absurd trivial h
  | scanned height hash => exact absurd trivial h
  | marker height hasMarker => exact absurd trivial h
  | fundingutxo count txid vout => exact absurd trivial h
  | entry e => exact absurd trivial h

/-- The text of a line has its words. -/
theorem words_text
    (line : IndexLine) :
    words isSpace line.text = line.words :=
  words_joinWords (by decide) (fun w hw => (line.isPlain w hw).isWord)

theorem newline_not_mem_text
    (line : IndexLine) :
    newline ∉ line.text := by
  intro hmem
  rcases mem_joinWords hmem with hblank | ⟨w, hw, hin⟩
  · exact absurd hblank (by decide)
  · have hspace := ((line.isPlain w hw).2 newline hin).1
    exact absurd hspace (by decide)

theorem text_ascii
    (line : IndexLine) :
    ∀ b ∈ line.text, b < 0x80 := by
  intro b hb
  rcases mem_joinWords hb with rfl | ⟨w, hw, hin⟩
  · decide
  · exact ((line.isPlain w hw).2 b hin).2

/-- Written lines are read one after the other. -/
theorem readLines_texts
    {lines : List IndexLine}
    (h : ∀ line ∈ lines, line.Fits network)
    (n : ℕ)
    (contents : IndexContents)
    (rest : List (List UInt8)) :
    readLines network n contents (lines.map IndexLine.text ++ rest) =
      readLines network (n + lines.length) (lines.foldl IndexContents.add contents) rest := by
  induction lines generalizing n contents with
  | nil =>
      rfl
  | cons line lines ih =>
      have hline := h line List.mem_cons_self
      rw [List.map_cons, List.cons_append, readLines, words_text, readWords_words hline,
        List.foldl_cons, List.length_cons]
      show readLines network (n + 1) _ _ = _
      rw [ih (fun l hl => h l (List.mem_cons_of_mem line hl))]
      congr 1
      omega

end Lines

section Reloading

variable {index : StoredIndex}

@[simp] theorem entries_foldl_add
    (lines : List IndexLine)
    (contents : IndexContents) :
    (lines.foldl IndexContents.add contents).entries =
      contents.entries ++ (lines.filterMap IndexLine.entry?).map Entry.reread := by
  induction lines generalizing contents with
  | nil =>
      simp
  | cons line lines ih =>
      rw [List.foldl_cons, ih]
      cases line <;> simp [IndexContents.add, IndexLine.entry?, List.filterMap_cons]

/-- Lines of other kinds leave the start and the scanned block. -/
theorem foldl_add_markers
    (rows : List (UInt64 × Bool))
    (contents : IndexContents) :
    (rows.map (fun m => IndexLine.marker m.1 m.2)).foldl IndexContents.add contents =
      { contents with
        markers := rows.foldl (fun acc row => insertRow UInt64.toNat row.1 row.2 acc)
          contents.markers } := by
  induction rows generalizing contents with
  | nil =>
      rfl
  | cons row rows ih =>
      rw [List.map_cons, List.foldl_cons, ih]
      rfl

theorem foldl_add_fundingUtxos
    (rows : List (UInt8 × (Bytes 32 × UInt32)))
    (contents : IndexContents) :
    (rows.map (fun u => IndexLine.fundingutxo u.1 u.2.1 u.2.2)).foldl IndexContents.add contents =
      { contents with
        fundingUtxos := rows.foldl (fun acc row => insertRow UInt8.toNat row.1 row.2 acc)
          contents.fundingUtxos } := by
  induction rows generalizing contents with
  | nil =>
      rfl
  | cons row rows ih =>
      rw [List.map_cons, List.foldl_cons, ih]
      rfl

theorem foldl_add_entries
    (entries : List Entry)
    (contents : IndexContents) :
    (entries.map IndexLine.entry).foldl IndexContents.add contents =
      { contents with entries := contents.entries ++ entries.map Entry.reread } := by
  induction entries generalizing contents with
  | nil =>
      simp
  | cons e entries ih =>
      rw [List.map_cons, List.foldl_cons, ih]
      simp [IndexContents.add]

/-- What all lines of an index say. -/
theorem foldl_add_lines
    (index : StoredIndex) :
    index.lines.foldl IndexContents.add .empty =
      ⟨some index.startHeight, index.scanned, index.entries.map Entry.reread, index.markers,
        index.fundingUtxos⟩ := by
  have hmarkers : index.markers.foldl
      (fun acc row => insertRow UInt64.toNat row.1 row.2 acc) [] = index.markers := by
    have hsorted : List.Pairwise (fun a b => a.1.toNat < b.1.toNat) ([] ++ index.markers) := by
      simpa using index.markers_sorted
    simpa using foldl_insertRow hsorted
  have hfunding : index.fundingUtxos.foldl
      (fun acc row => insertRow UInt8.toNat row.1 row.2 acc) [] = index.fundingUtxos := by
    have hsorted :
        List.Pairwise (fun a b => a.1.toNat < b.1.toNat) ([] ++ index.fundingUtxos) := by
      simpa using index.fundingUtxos_sorted
    simpa using foldl_insertRow hsorted
  simp only [StoredIndex.lines, List.foldl_append, foldl_add_markers, foldl_add_fundingUtxos,
    foldl_add_entries]
  cases hscanned : index.scanned with
  | none => simp [IndexContents.add, IndexContents.empty, hmarkers, hfunding]
  | some s => simp [IndexContents.add, IndexContents.empty, hmarkers, hfunding]

theorem fits_lines
    (index : StoredIndex) :
    ∀ line ∈ index.lines, line.Fits index.network := by
  intro line hline
  simp only [StoredIndex.lines, List.mem_append, List.mem_cons, List.not_mem_nil, or_false,
    List.mem_map] at hline
  rcases hline with (rfl | rfl) | ⟨s, -, rfl⟩ | ⟨m, -, rfl⟩ | ⟨u, -, rfl⟩ | ⟨e, -, rfl⟩
  · rfl
  · trivial
  · trivial
  · trivial
  · trivial
  · trivial

theorem magic_plain :
    IsPlain magic ∧ newline ∉ magic ∧ trim magic = magic ∧ magic ≠ magicV1 := by
  decide +kernel

theorem persist_ascii
    (index : StoredIndex) :
    ∀ b ∈ index.persist, b < 0x80 := by
  intro b hb
  obtain ⟨line, hline, hin⟩ := List.mem_flatMap.mp hb
  rcases List.mem_append.mp hin with hin | hin
  · rcases List.mem_cons.mp hline with rfl | hline
    · exact (magic_plain.1.2 b hin).2
    · obtain ⟨l, -, rfl⟩ := List.mem_map.mp hline
      exact text_ascii l b hin
  · rw [List.mem_singleton.mp hin]
    decide

theorem newline_not_mem_lines
    (lines : List IndexLine) :
    ∀ l ∈ magic :: lines.map IndexLine.text, newline ∉ l := by
  intro l hl
  rcases List.mem_cons.mp hl with rfl | hl
  · exact magic_plain.2.1
  · obtain ⟨line, -, rfl⟩ := List.mem_map.mp hl
    exact newline_not_mem_text line

/-- A file that starts with the version line is read line by line. -/
theorem loadIndex_of_lines
    {network : Network}
    {file : List UInt8}
    {rest : List (List UInt8)}
    (hvalid : ∀ b ∈ file, b < 0x80)
    (hlines : linesOf newline file = magic :: rest) :
    loadIndex network file = readLines network 1 .empty rest >>= IndexContents.finish := by
  have hmagic := magic_plain
  rw [loadIndex, if_pos (validUtf8_of_ascii hvalid), hlines]
  dsimp only
  rw [hmagic.2.2.1, if_neg hmagic.2.2.2, if_pos rfl]

/-- A whole file is read back, each record as its bytes are read. -/
theorem loadIndex_persist
    (index : StoredIndex) :
    loadIndex index.network index.persist =
      .ok (some ⟨index.startHeight, index.scanned, index.entries.map Entry.reread, index.markers,
        index.fundingUtxos⟩) := by
  have hlines : linesOf newline index.persist = magic :: index.lines.map IndexLine.text := by
    have h := linesOf_unlines (newline_not_mem_lines index.lines) []
    rwa [List.append_nil, linesOf_nil, List.append_nil] at h
  have hread := readLines_texts (fits_lines index) 1 .empty []
  rw [List.append_nil, foldl_add_lines] at hread
  rw [loadIndex_of_lines (persist_ascii index) hlines, hread]
  rfl

end Reloading

section Torn

/-- The lines that a cut file holds in full, the last newline aside. -/
def StoredIndex.keptLines (index : StoredIndex) (file : List UInt8) : List IndexLine :=
  ((index.lines.zip (linesOf newline file).tail).filter (fun q => q.1.text = q.2)).map Prod.fst

/-- The line that a cut file holds in part. -/
def StoredIndex.tornLine (index : StoredIndex) (file : List UInt8) : Option (List UInt8) :=
  ((index.lines.zip (linesOf newline file).tail).find? (fun q => q.1.text ≠ q.2)).map Prod.snd

/-- A part of a line that is read as a funding outpoint. -/
def ReadsAsFunding (part : List UInt8) : Prop :=
  (words isSpace part).length = 4 ∧ (words isSpace part).head? = some (word "fundingutxo")

/--
The cut file names another network than the reader's, lacks the scanned block, ends inside
a line at a place where it is malformed, or lacks no anchor.
-/
def StoredIndex.TornSafely
    (index : StoredIndex)
    (network : Network)
    (file : List UInt8) : Prop :=
  network ≠ index.network ∨
    (∀ line ∈ index.keptLines file, line.isScanned = false) ∨
    (∃ part, index.tornLine file = some part ∧ ¬ ReadsAsFunding part) ∨
    ∀ e ∈ index.entries, ∃ e', .entry e' ∈ index.keptLines file ∧ e'.reread = e.reread

/-- The file is refused, or is of the old format, or claims nothing, or lists every anchor. -/
def StoredIndex.Trusted
    (index : StoredIndex)
    (loaded : Except IndexError (Option PersistedIndex)) : Prop :=
  ∀ contents, loaded = .ok (some contents) →
    contents.scanned ≠ none → ∀ e ∈ index.entries, e.reread ∈ contents.entries

variable {network : Network}
variable {bad : IndexError}
variable {contents : IndexContents}
variable {index : StoredIndex}

/-- A kind of line that is written after the scanned block. -/
def IndexLine.isLater : IndexLine → Bool
  | .marker .. | .fundingutxo .. | .entry .. => true
  | _ => false

/-- What is left of the words of a line that was cut. -/
theorem words_of_torn
    {line : IndexLine}
    {part : List UInt8}
    (hpart : part <+: line.text)
    (hne : part ≠ [])
    (hcut : part ≠ line.text) :
    (∃ i, 0 < i ∧ i < line.words.length ∧ words isSpace part = line.words.take i) ∨
      ∃ i w w', line.words[i]? = some w ∧ w' <+: w ∧ w' ≠ w ∧ IsPlain w' ∧
        words isSpace part = line.words.take i ++ [w'] := by
  have hwords : ∀ w ∈ line.words, IsWord isSpace w := fun w hw => (line.isPlain w hw).isWord
  rcases words_of_prefix (by decide) hwords hpart hcut with
    ⟨i, hi, htake⟩ | ⟨i, w, w', hget, hpre, hnil, hother, htake⟩
  · refine Or.inl ⟨i, ?_, hi, htake⟩
    rw [Nat.pos_iff_ne_zero]
    rintro rfl
    -- A part of a line starts with a letter, so it has a word.
    cases part with
    | nil => exact hne rfl
    | cons b part =>
        refine words_cons_ne_nil ?_ htake
        obtain ⟨w, ws, hline⟩ : ∃ w ws, line.words = w :: ws := by
          cases line <;> exact ⟨_, _, rfl⟩
        have hplain := line.isPlain w (by rw [hline]; exact List.mem_cons_self)
        obtain ⟨c, w₀, rfl⟩ := List.exists_cons_of_ne_nil hplain.1
        have hhead : ∃ rest, line.text = c :: rest := by
          rw [IndexLine.text, hline]
          cases ws with
          | nil => exact ⟨w₀, rfl⟩
          | cons w' ws => exact ⟨_, rfl⟩
        obtain ⟨rest, hrest⟩ := hhead
        rw [hrest] at hpart
        rw [(List.cons_prefix_cons.mp hpart).1]
        exact (hplain.2 c List.mem_cons_self).1
  · exact Or.inr ⟨i, w, w', hget, hpre, hother,
      (line.isPlain w (List.mem_of_getElem? hget)).of_front hpre hnil, htake⟩

theorem length_of_torn_word
    {w w' : List UInt8}
    (hpre : w' <+: w)
    (hother : w' ≠ w) :
    w'.length < w.length := by
  rcases hpre.length_le.lt_or_eq with hlt | heq
  · exact hlt
  · exact absurd (hpre.eq_of_length heq) hother

theorem length_hashToRpc
    (hash : Bytes 32) :
    (hashToRpc hash).bytes.length = 64 := by
  rw [hashToRpc, toHex_length, List.Vector.toList_length]

/-- A line that was cut is refused, except for three kinds. -/
theorem readWords_of_torn
    {line : IndexLine}
    {part : List UInt8}
    (hpart : part <+: line.text)
    (hne : part ≠ [])
    (hcut : part ≠ line.text) :
    (∃ e, readWords network bad contents (words isSpace part) = .error e) ∧
        ¬ ReadsAsFunding part ∨
      line.isLater = false ∧ line.isScanned = false ∧ ¬ ReadsAsFunding part ∧
        (∃ start, readWords network bad contents (words isSpace part) =
          .ok { contents with start := start }) ∨
      ReadsAsFunding part ∧ line.isLater = true ∧
        ∃ rows, readWords network bad contents (words isSpace part) =
          .ok { contents with fundingUtxos := rows } := by
  have hkinds := kinds_ne
  unfold ReadsAsFunding
  rcases words_of_torn hpart hne hcut with
    ⟨i, hpos, hi, htake⟩ | ⟨i, w, w', hget, hpre, hother, hplain, htake⟩
  · -- Whole words are missing: no kind of line has so few.
    left
    rw [htake]
    cases line with
    | network n =>
        obtain rfl : i = 1 := by
          simp only [IndexLine.words, List.length_cons, List.length_nil] at hi
          omega
        exact ⟨⟨bad, rfl⟩, by simp [IndexLine.words]⟩
    | start height =>
        obtain rfl : i = 1 := by
          simp only [IndexLine.words, List.length_cons, List.length_nil] at hi
          omega
        exact ⟨⟨bad, rfl⟩, by simp [IndexLine.words]⟩
    | scanned height hash =>
        simp only [IndexLine.words, List.length_cons, List.length_nil] at hi
        interval_cases i
        · exact ⟨⟨bad, rfl⟩, by simp [IndexLine.words]⟩
        · exact ⟨⟨bad, by simp [IndexLine.words, readWords, hkinds]⟩, by simp [IndexLine.words]⟩
    | marker height hasMarker =>
        simp only [IndexLine.words, List.length_cons, List.length_nil] at hi
        interval_cases i
        · exact ⟨⟨bad, rfl⟩, by simp [IndexLine.words]⟩
        · exact ⟨⟨bad, by simp [IndexLine.words, readWords, hkinds]⟩, by simp [IndexLine.words]⟩
    | fundingutxo count txid vout =>
        simp only [IndexLine.words, List.length_cons, List.length_nil] at hi
        interval_cases i
        · exact ⟨⟨bad, rfl⟩, by simp [IndexLine.words]⟩
        · exact ⟨⟨bad, by simp [IndexLine.words, readWords, hkinds]⟩, by simp [IndexLine.words]⟩
        · exact ⟨⟨bad, by simp [IndexLine.words, readWords, hkinds]⟩, by simp [IndexLine.words]⟩
    | entry e =>
        simp only [IndexLine.words, List.length_cons, List.length_nil] at hi
        interval_cases i
        · exact ⟨⟨bad, rfl⟩, by simp [IndexLine.words]⟩
        · exact ⟨⟨bad, by simp [IndexLine.words, readWords, hkinds]⟩, by simp [IndexLine.words]⟩
        · exact ⟨⟨bad, by simp [IndexLine.words, readWords, hkinds]⟩, by simp [IndexLine.words]⟩
        · exact ⟨⟨bad, by simp [IndexLine.words, readWords, hkinds]⟩,
            by simp [IndexLine.words, hkinds]⟩
        · exact ⟨⟨bad, rfl⟩, by simp [IndexLine.words]⟩
  · -- Part of a word is there.
    rw [htake]
    have hlength := length_of_torn_word hpre hother
    have hi := (List.getElem?_eq_some_iff.mp hget).1
    cases line with
    | network n =>
        simp only [IndexLine.words, List.length_cons, List.length_nil] at hi
        interval_cases i
        · exact Or.inl ⟨⟨bad, rfl⟩, by simp⟩
        · by_cases hname : Network.parse (wordText w') = some network
          · refine Or.inr (Or.inl ⟨rfl, rfl, by simp [IndexLine.words], contents.start, ?_⟩)
            simp [IndexLine.words, readWords, hname]
          · refine Or.inl ⟨⟨.wrongNetwork (wordText w') network, ?_⟩, by simp [IndexLine.words]⟩
            simp [IndexLine.words, readWords, hname]
    | start height =>
        simp only [IndexLine.words, List.length_cons, List.length_nil] at hi
        interval_cases i
        · exact Or.inl ⟨⟨bad, rfl⟩, by simp⟩
        · cases hread : readU64 w' with
          | none =>
              refine Or.inl ⟨⟨bad, ?_⟩, by simp [IndexLine.words]⟩
              simp [IndexLine.words, readWords, hkinds, hread, okOr, bind, Except.bind]
          | some h =>
              refine Or.inr (Or.inl ⟨rfl, rfl, by simp [IndexLine.words], some h, ?_⟩)
              simp [IndexLine.words, readWords, hkinds, hread, okOr, bind, Except.bind, pure,
                Except.pure]
    | scanned height hash =>
        simp only [IndexLine.words, List.length_cons, List.length_nil] at hi
        interval_cases i
        · exact Or.inl ⟨⟨bad, rfl⟩, by simp⟩
        · exact Or.inl ⟨⟨bad, by simp [IndexLine.words, readWords, hkinds]⟩,
            by simp [IndexLine.words]⟩
        · obtain rfl : (hashToRpc hash).bytes = w := Option.some.inj hget
          rw [length_hashToRpc] at hlength
          have hshort := readHash_of_short hplain hlength
          refine Or.inl ⟨⟨bad, ?_⟩, by simp [IndexLine.words]⟩
          simp [IndexLine.words, readWords, hkinds, readU64_natDigits, hshort, okOr, bind,
            Except.bind]
    | marker height hasMarker =>
        simp only [IndexLine.words, List.length_cons, List.length_nil] at hi
        interval_cases i
        · exact Or.inl ⟨⟨bad, rfl⟩, by simp⟩
        · exact Or.inl ⟨⟨bad, by simp [IndexLine.words, readWords, hkinds]⟩,
            by simp [IndexLine.words]⟩
        · -- A flag has one digit only.
          exfalso
          have hone : w.length = 1 := by
            obtain rfl : (if hasMarker then word "1" else word "0") = w := Option.some.inj hget
            cases hasMarker with
            | false => decide +kernel
            | true => decide +kernel
          have hpos := List.length_pos_of_ne_nil hplain.1
          omega
    | fundingutxo count txid vout =>
        simp only [IndexLine.words, List.length_cons, List.length_nil] at hi
        interval_cases i
        · exact Or.inl ⟨⟨bad, rfl⟩, by simp⟩
        · exact Or.inl ⟨⟨bad, by simp [IndexLine.words, readWords, hkinds]⟩,
            by simp [IndexLine.words]⟩
        · exact Or.inl ⟨⟨bad, by simp [IndexLine.words, readWords, hkinds]⟩,
            by simp [IndexLine.words]⟩
        · -- Part of the output number is a number.
          obtain rfl : natDigits vout.toNat = w := Option.some.inj hget
          obtain ⟨k, hk⟩ := parseNat_of_prefix vout.toNat_lt hpre hplain.1
          have hread : readU32 w' = some (UInt32.ofNat k) := by
            rw [readU32, hk]
            rfl
          refine Or.inr (Or.inr ⟨by simp [IndexLine.words], rfl,
            insertRow UInt8.toNat count (txid, UInt32.ofNat k) contents.fundingUtxos, ?_⟩)
          simp [IndexLine.words, readWords, readU8_natDigits, readHash_hashToRpc, hread, okOr, bind,
            Except.bind, pure, Except.pure]
    | entry e =>
        simp only [IndexLine.words, List.length_cons, List.length_nil] at hi
        interval_cases i
        · exact Or.inl ⟨⟨bad, rfl⟩, by simp⟩
        · exact Or.inl ⟨⟨bad, by simp [IndexLine.words, readWords, hkinds]⟩,
            by simp [IndexLine.words]⟩
        · exact Or.inl ⟨⟨bad, by simp [IndexLine.words, readWords, hkinds]⟩,
            by simp [IndexLine.words]⟩
        · exact Or.inl ⟨⟨bad, by simp [IndexLine.words, readWords, hkinds]⟩,
            by simp [IndexLine.words, hkinds]⟩
        · exact Or.inl ⟨⟨bad, rfl⟩, by simp [IndexLine.words]⟩
        · obtain rfl : (toHex e.record.toBytes.toList).bytes = w := Option.some.inj hget
          rw [toHex_length, List.Vector.toList_length] at hlength
          have hshort := readArray_of_short hplain hlength
          refine Or.inl ⟨⟨bad, ?_⟩, by simp [IndexLine.words]⟩
          simp [IndexLine.words, readWords, hshort, okOr, bind, Except.bind]

theorem length_magic :
    magic.length = magicV1.length := by
  decide +kernel

/-- A file that was cut inside the version line is refused. -/
theorem loadIndex_of_magic_part
    {file : List UInt8}
    (hpart : file <+: magic)
    (hcut : file ≠ magic) :
    loadIndex network file = .error .badMagic ∧ index.keptLines file = [] := by
  have hmagic := magic_plain
  have hascii : ∀ b ∈ file, b < 0x80 := fun b hb => (hmagic.1.2 b (hpart.subset hb)).2
  have hnewline : newline ∉ file := fun hb => hmagic.2.1 (hpart.subset hb)
  by_cases hnil : file = []
  · subst hnil
    constructor
    · rw [loadIndex, if_pos (validUtf8_of_ascii hascii), linesOf_nil]
    · rw [StoredIndex.keptLines, linesOf_nil, List.tail_nil, List.zip_nil_right]
      rfl
  · have hlines : linesOf newline file = [file] := linesOf_of_not_mem hnewline hnil
    have htrim : trim file = file :=
      trim_of_not_space (fun b hb => (hmagic.1.2 b (hpart.subset hb)).1)
    have hshort := length_of_torn_word hpart hcut
    have hv1 : file ≠ magicV1 := by
      intro h
      rw [h, length_magic] at hshort
      exact lt_irrefl _ hshort
    constructor
    · rw [loadIndex, if_pos (validUtf8_of_ascii hascii), hlines]
      dsimp only
      rw [htrim, if_neg hv1, if_neg hcut]
    · rw [StoredIndex.keptLines, hlines, List.tail_cons, List.zip_nil_right]
      rfl

/-- A cut file is refused, or it is whole lines and perhaps part of one more. -/
theorem cut_cases
    {file : List UInt8}
    (hcut : file <+: index.persist)
    (hne : file ≠ index.persist) :
    file <+: magic ∧ file ≠ magic ∨
      ∃ pre post torn, index.lines = pre ++ post ∧
        linesOf newline file = magic :: (pre.map IndexLine.text ++ torn) ∧
        (torn = [] ∨ ∃ line post' part, post = line :: post' ∧ torn = [part] ∧
          part <+: line.text ∧ part ≠ [] ∧ part ≠ line.text) := by
  have hmagic := magic_plain
  obtain ⟨m, text, part, hget, hpart, rfl⟩ := exists_of_prefix_unlines hcut hne
  cases m with
  | zero =>
      obtain rfl : magic = text := Option.some.inj hget
      rw [List.take_zero]
      show part <+: magic ∧ part ≠ magic ∨ _
      by_cases hwhole : part = magic
      · refine Or.inr ⟨[], index.lines, [], rfl, ?_, Or.inl rfl⟩
        show linesOf newline part = [magic]
        rw [hwhole]
        exact linesOf_of_not_mem hmagic.2.1 hmagic.1.1
      · exact Or.inl ⟨hpart, hwhole⟩
  | succ m =>
      right
      rw [List.getElem?_cons_succ, List.getElem?_map, Option.map_eq_some_iff] at hget
      obtain ⟨line, hline, rfl⟩ := hget
      obtain ⟨hlt, rfl⟩ := List.getElem?_eq_some_iff.mp hline
      have hsplit : index.lines = index.lines.take m ++ index.lines[m] :: index.lines.drop (m + 1) := by
        rw [List.getElem_cons_drop, List.take_append_drop]
      have hnewline : newline ∉ part := fun hb => newline_not_mem_text _ (hpart.subset hb)
      have hlines : linesOf newline
          (unlines newline ((magic :: index.lines.map IndexLine.text).take (m + 1)) ++ part) =
            magic :: ((index.lines.take m).map IndexLine.text ++ linesOf newline part) := by
        rw [linesOf_unlines, List.take_succ_cons, List.cons_append, List.map_take]
        intro l hl
        exact newline_not_mem_lines index.lines l (List.mem_of_mem_take hl)
      by_cases hnil : part = []
      · refine ⟨index.lines.take m, _, [], hsplit, ?_, Or.inl rfl⟩
        rw [hlines, hnil, linesOf_nil]
      · rw [linesOf_of_not_mem hnewline hnil] at hlines
        by_cases hwhole : part = (index.lines[m]).text
        · refine ⟨index.lines.take m ++ [index.lines[m]], index.lines.drop (m + 1), [], ?_, ?_,
            Or.inl rfl⟩
          · rw [List.append_assoc, List.singleton_append]
            exact hsplit
          · rw [hlines, hwhole, List.map_append, List.append_nil]
            rfl
        · exact ⟨index.lines.take m, _, [part], hsplit, hlines,
            Or.inr ⟨_, _, part, rfl, rfl, hpart, hnil, hwhole⟩⟩

/-- Lines next to their own texts. -/
theorem zip_texts
    (lines post : List IndexLine)
    (torn : List (List UInt8)) :
    (lines ++ post).zip (lines.map IndexLine.text ++ torn) =
      lines.map (fun line => (line, line.text)) ++ post.zip torn := by
  induction lines with
  | nil =>
      rfl
  | cons line lines ih =>
      rw [List.cons_append, List.map_cons, List.cons_append, List.zip_cons_cons, ih]
      rfl

theorem keptLines_eq
    {file : List UInt8}
    {pre post : List IndexLine}
    {torn : List (List UInt8)}
    (hsplit : index.lines = pre ++ post)
    (hlines : linesOf newline file = magic :: (pre.map IndexLine.text ++ torn))
    (htorn : torn = [] ∨ ∃ line post' part, post = line :: post' ∧ torn = [part] ∧
      part <+: line.text ∧ part ≠ [] ∧ part ≠ line.text) :
    index.keptLines file = pre ∧ index.tornLine file = torn.head? := by
  have hkept : (pre.map (fun line => (line, line.text))).filter (fun q => q.1.text = q.2) =
      pre.map (fun line => (line, line.text)) := by
    rw [List.filter_eq_self]
    intro q hq
    obtain ⟨line, -, rfl⟩ := List.mem_map.mp hq
    exact decide_eq_true rfl
  have hwhole : (pre.map (fun line => (line, line.text))).find? (fun q => q.1.text ≠ q.2) = none := by
    rw [List.find?_eq_none]
    intro q hq
    obtain ⟨line, -, rfl⟩ := List.mem_map.mp hq
    simp
  rw [StoredIndex.keptLines, StoredIndex.tornLine, hlines, List.tail_cons, hsplit, zip_texts,
    List.filter_append, hkept, List.find?_append, hwhole, Option.none_or]
  rcases htorn with rfl | ⟨line, post', part, rfl, rfl, -, -, hne⟩
  · rw [List.zip_nil_right]
    simp [Function.comp_def]
  · have hne' : line.text ≠ part := fun h => hne h.symm
    simp [Function.comp_def, hne']

theorem scanned_foldl_add
    {lines : List IndexLine}
    (h : ∀ line ∈ lines, line.isScanned = false)
    (contents : IndexContents) :
    (lines.foldl IndexContents.add contents).scanned = contents.scanned := by
  induction lines generalizing contents with
  | nil =>
      rfl
  | cons line lines ih =>
      rw [List.foldl_cons, ih (fun l hl => h l (List.mem_cons_of_mem line hl))]
      cases line with
      | scanned height hash => exact absurd (h _ List.mem_cons_self) (by simp [IndexLine.isScanned])
      | network n => rfl
      | start height => rfl
      | marker height hasMarker => rfl
      | fundingutxo count txid vout => rfl
      | entry e => rfl

/-- What a line said stays said. -/
theorem isSome_foldl_add
    (lines : List IndexLine)
    (contents : IndexContents) :
    (contents.start.isSome → (lines.foldl IndexContents.add contents).start.isSome) ∧
      (contents.scanned.isSome ∨ (∃ line ∈ lines, line.isScanned = true) →
        (lines.foldl IndexContents.add contents).scanned.isSome) := by
  induction lines generalizing contents with
  | nil =>
      simp
  | cons line lines ih =>
      rw [List.foldl_cons]
      obtain ⟨hstart, hscanned⟩ := ih (contents.add line)
      constructor
      · intro h
        refine hstart ?_
        cases line <;> first | exact h | rfl
      · rintro (h | ⟨l, hl, hl'⟩)
        · refine hscanned (Or.inl ?_)
          cases line <;> first | exact h | rfl
        · rcases List.mem_cons.mp hl with rfl | hl
          · refine hscanned (Or.inl ?_)
            cases l with
            | scanned height hash => rfl
            | _ => cases hl'
          · exact hscanned (Or.inr ⟨l, hl, hl'⟩)

/-- Only marker, funding and anchor lines come after the line of the scanned block. -/
theorem isLater_of_scanned
    {pre post : List IndexLine}
    {line : IndexLine}
    (hsplit : index.lines = pre ++ line :: post)
    (hscanned : ∃ l ∈ pre, l.isScanned = true) :
    line.isLater = true := by
  have horder : index.lines.Pairwise (fun a b => a.isScanned = true → b.isLater = true) := by
    unfold StoredIndex.lines
    have hlater : ∀ l ∈ index.markers.map (fun m => IndexLine.marker m.1 m.2) ++
        (index.fundingUtxos.map (fun u => IndexLine.fundingutxo u.1 u.2.1 u.2.2) ++
          index.entries.map IndexLine.entry), l.isLater = true ∧ l.isScanned = false := by
      intro l hl
      simp only [List.mem_append, List.mem_map] at hl
      rcases hl with ⟨m, -, rfl⟩ | ⟨u, -, rfl⟩ | ⟨e, -, rfl⟩
      · exact ⟨rfl, rfl⟩
      · exact ⟨rfl, rfl⟩
      · exact ⟨rfl, rfl⟩
    refine List.pairwise_append.mpr ⟨by simp [IndexLine.isScanned], ?_, ?_⟩
    · refine List.pairwise_append.mpr ⟨?_, ?_, ?_⟩
      · cases index.scanned <;> simp
      · refine List.pairwise_of_forall_mem_list ?_
        intro a ha b _ h
        rw [(hlater a ha).2] at h
        cases h
      · intro a _ b hb _
        exact (hlater b hb).1
    · intro a ha b _ h
      simp only [List.mem_cons, List.not_mem_nil, or_false] at ha
      rcases ha with rfl | rfl
      · cases h
      · cases h
  rw [hsplit] at horder
  obtain ⟨l, hl, hl'⟩ := hscanned
  exact (List.pairwise_append.mp horder).2.2 l hl line List.mem_cons_self hl'

/-- The first two lines of an index. -/
theorem head_lines
    {pre post : List IndexLine}
    (hsplit : index.lines = pre ++ post) :
    pre = [] ∨ pre = [.network index.network] ∨
      ∃ pre', pre = .network index.network :: .start index.startHeight :: pre' := by
  unfold StoredIndex.lines at hsplit
  cases pre with
  | nil => exact Or.inl rfl
  | cons a pre =>
      obtain ⟨rfl, hrest⟩ := List.cons.inj hsplit
      cases pre with
      | nil => exact Or.inr (Or.inl rfl)
      | cons b pre =>
          obtain ⟨rfl, -⟩ := List.cons.inj hrest
          exact Or.inr (Or.inr ⟨pre, rfl⟩)

/-- Contents without a scanned block claim nothing. -/
theorem trusted_finish_of_none
    {c : IndexContents}
    (h : c.scanned = none) :
    index.Trusted c.finish := by
  intro loaded hloaded hscanned
  cases hstart : c.start with
  | none =>
      rw [IndexContents.finish, hstart] at hloaded
      cases hloaded
  | some start =>
      rw [IndexContents.finish, hstart] at hloaded
      obtain rfl := Option.some.inj (Except.ok.inj hloaded)
      exact absurd h hscanned

theorem trusted_finish_iff
    {c : IndexContents}
    (hstart : c.start.isSome = true)
    (hscanned : c.scanned.isSome = true) :
    index.Trusted c.finish ↔ ∀ e ∈ index.entries, e.reread ∈ c.entries := by
  obtain ⟨start, hstart⟩ := Option.isSome_iff_exists.mp hstart
  have hne : c.scanned ≠ none := Option.isSome_iff_ne_none.mp hscanned
  rw [IndexContents.finish, hstart]
  constructor
  · intro h
    exact h _ rfl hne
  · intro h loaded hloaded _
    obtain rfl := Option.some.inj (Except.ok.inj hloaded)
    exact h

theorem trusted_error
    (e : IndexError) :
    index.Trusted (.error e) := by
  intro loaded hloaded
  cases hloaded

/-- The anchors that whole lines list. -/
theorem reread_mem_entries_iff
    {lines : List IndexLine}
    {e : Entry} :
    e.reread ∈ (lines.foldl IndexContents.add .empty).entries ↔
      ∃ e', .entry e' ∈ lines ∧ e'.reread = e.reread := by
  rw [entries_foldl_add]
  simp only [IndexContents.empty, List.nil_append, List.mem_map, List.mem_filterMap]
  constructor
  · rintro ⟨e', ⟨line, hline, hentry⟩, heq⟩
    cases line with
    | entry e'' =>
        obtain rfl : e'' = e' := Option.some.inj hentry
        exact ⟨e'', hline, heq⟩
    | _ => cases hentry
  · rintro ⟨e', hline, heq⟩
    exact ⟨e', ⟨_, hline, rfl⟩, heq⟩

/-- A cut file is trusted exactly when it was cut safely. -/
theorem torn_index_trusted_iff
    {file : List UInt8}
    (hcut : file <+: index.persist)
    (hne : file ≠ index.persist) :
    index.Trusted (loadIndex network file) ↔ index.TornSafely network file := by
  have hascii : ∀ b ∈ file, b < 0x80 := fun b hb => persist_ascii index b (hcut.subset hb)
  rcases cut_cases hcut hne with ⟨hpart, hcut'⟩ | ⟨pre, post, torn, hsplit, hlines, htorn⟩
  · obtain ⟨hload, hkept⟩ : loadIndex network file = .error .badMagic ∧
        index.keptLines file = [] :=
      loadIndex_of_magic_part hpart hcut'
    refine iff_of_true ?_ (Or.inr (Or.inl ?_))
    · intro contents h
      rw [hload] at h
      cases h
    · rw [hkept]
      simp
  · obtain ⟨hkept, htornLine⟩ := keptLines_eq hsplit hlines htorn
    unfold StoredIndex.TornSafely
    rw [hkept, htornLine, loadIndex_of_lines hascii hlines]
    -- Whatever part of a line comes last, it does not bring a scanned block.
    have hclaimless : ∀ n c, c.scanned = none → index.Trusted
        (readLines network n c torn >>= IndexContents.finish) := by
      intro n c hc
      rcases htorn with rfl | ⟨line, post', part, -, rfl, hpart, hnil, hwhole⟩
      · exact trusted_finish_of_none hc
      · rw [readLines]
        rcases @readWords_of_torn network (.malformed (n + 1) (wordText (trim part))) c
          line part hpart hnil hwhole with
          ⟨⟨e, he⟩, -⟩ | ⟨-, -, -, start, hok⟩ | ⟨-, -, rows, hok⟩
        · rw [he]
          exact trusted_error e
        · rw [hok]
          exact trusted_finish_of_none hc
        · rw [hok]
          exact trusted_finish_of_none hc
    by_cases hnet : network = index.network
    · subst hnet
      have hfits : ∀ line ∈ pre, line.Fits index.network := by
        intro line hline
        exact fits_lines index line (by rw [hsplit]; exact List.mem_append_left _ hline)
      rw [readLines_texts hfits]
      by_cases hscan : ∃ l ∈ pre, l.isScanned = true
      · have hscanned := (isSome_foldl_add pre .empty).2 (Or.inr hscan)
        have hlost : ¬ ∀ line ∈ pre, line.isScanned = false := by
          intro h
          obtain ⟨l, hl, hl'⟩ := hscan
          rw [h l hl] at hl'
          cases hl'
        have hstart : (pre.foldl IndexContents.add .empty).start.isSome = true := by
          rcases head_lines hsplit with rfl | rfl | ⟨pre', rfl⟩
          · obtain ⟨l, hl, -⟩ := hscan
            cases hl
          · obtain ⟨l, hl, hl'⟩ := hscan
            rw [List.mem_singleton] at hl
            subst hl
            cases hl'
          · exact (isSome_foldl_add pre' _).1 rfl
        have hentries : (∀ e ∈ index.entries,
            e.reread ∈ (pre.foldl IndexContents.add .empty).entries) ↔
              ∀ e ∈ index.entries, ∃ e', .entry e' ∈ pre ∧ e'.reread = e.reread :=
          forall₂_congr (fun e _ => reread_mem_entries_iff)
        rcases htorn with rfl | ⟨line, post', part, rfl, rfl, hpart, hnil, hwhole⟩
        · refine (trusted_finish_iff hstart hscanned).trans (hentries.trans ?_)
          simp [hlost]
        · have hlater := isLater_of_scanned hsplit hscan
          rw [readLines]
          rcases @readWords_of_torn index.network
            (.malformed (1 + pre.length + 1) (wordText (trim part)))
            (pre.foldl IndexContents.add .empty) line part hpart hnil hwhole with
            ⟨⟨e, he⟩, hfunding⟩ | ⟨hearly, -⟩ | ⟨hfunding, -, rows, hok⟩
          · rw [he]
            exact iff_of_true (trusted_error e) (Or.inr (Or.inr (Or.inl ⟨part, rfl, hfunding⟩)))
          · rw [hearly] at hlater
            cases hlater
          · rw [hok]
            have hiff := @trusted_finish_iff index
              { pre.foldl IndexContents.add .empty with fundingUtxos := rows } hstart hscanned
            refine hiff.trans (hentries.trans ?_)
            simp [hlost, hfunding]
      · have hall : ∀ line ∈ pre, line.isScanned = false := by
          intro line hline
          rw [← Bool.not_eq_true]
          exact fun h => hscan ⟨line, hline, h⟩
        refine iff_of_true (hclaimless _ _ ?_) (Or.inr (Or.inl hall))
        rw [scanned_foldl_add hall]
        rfl
    · refine iff_of_true ?_ (Or.inl hnet)
      cases pre with
      | nil => exact hclaimless 1 .empty rfl
      | cons line pre =>
          have hline : ¬ line.Fits network := by
            rcases head_lines hsplit with h | h | ⟨pre', h⟩
            · cases h
            · obtain ⟨rfl, -⟩ := List.cons.inj h
              exact fun h => hnet h.symm
            · obtain ⟨rfl, -⟩ := List.cons.inj h
              exact fun h => hnet h.symm
          obtain ⟨e, he⟩ := @readWords_of_not_fits network
            (.malformed 2 (wordText (trim line.text))) .empty line hline
          rw [List.map_cons, List.cons_append, readLines, words_text, he]
          exact trusted_error e

end Torn

namespace TornSample

def entry : Entry where
  txid := List.Vector.replicate 32 0xAA
  location := ⟨5, 1⟩
  record := AnchorRecord.fromBytes (Bytes.zero 64)
  ctx := Bytes.zero 32

def index : StoredIndex where
  network := .signet
  startHeight := 5
  scanned := some (5, Bytes.zero 32)
  markers := []
  markers_sorted := List.Pairwise.nil
  fundingUtxos := []
  fundingUtxos_sorted := List.Pairwise.nil
  entries := [entry]

/-- Only the last newline is missing. -/
theorem newline_lost_trusted :
    index.Trusted (loadIndex .signet index.persist.dropLast) := by
  have hne : index.persist.dropLast ≠ index.persist := by
    decide +kernel
  refine (torn_index_trusted_iff (List.dropLast_prefix _) hne).mpr ?_
  refine Or.inr (Or.inr (Or.inr ?_))
  intro e he
  obtain rfl := List.mem_singleton.mp he
  exact ⟨entry, by decide +kernel, rfl⟩

/-- The anchor's line is missing, and the scanned block still claims its height. -/
theorem anchor_lost_untrusted :
    ∃ file, file <+: index.persist ∧ file ≠ index.persist ∧
      ¬ index.Trusted (loadIndex .signet file) := by
  refine ⟨{ index with entries := [] }.persist, by decide +kernel, by decide +kernel, ?_⟩
  have hload := loadIndex_persist { index with entries := [] }
  intro h
  have hmem := h _ hload (Option.some_ne_none _) entry List.mem_cons_self
  cases hmem

end TornSample

end OpenCsv
