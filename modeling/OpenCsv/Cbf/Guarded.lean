import OpenCsv.Cbf.FilterAgreement
import OpenCsv.Cbf.RoundTrip
import OpenCsv.Lib.Panic
import OpenCsv.Lib.Simulation

/-!
# Reading a block with every way to stop

The path of a block message from its bytes to its anchors and filter elements, with every
index, slice, conversion and assertion of the source as a step that may panic, and with
the largest capacity that was asked for by a number out of the message.

**Results.**
* `simulates_block`: the parser stops for no other reason than an error value, and does
  what the plain parser does.
* `inspect_safe_iff`: the whole path panics exactly on the header that was asked for,
  followed by a count of zero transactions.
-/

namespace OpenCsv

open Call

/-- A cursor over a message, and the largest capacity that was asked for so far. -/
structure Machine where
  data : List UInt8
  pos : ℕ
  reserved : ℕ

abbrev Guarded (α : Type) := Call (Stop Text) Machine α

namespace Guarded

section Cursor

/-- `Vec::with_capacity`, and every other allocation of `n` items. -/
def reserve (n : ℕ) : Guarded Unit :=
  modify (fun m => { m with reserved := max m.reserved n })

/-- An index of a list. -/
def index {α : Type} (as : List α) (i : ℕ) : Guarded α :=
  lift (okOr as[i]? .panic)

/-- A slice as an array: `try_into().expect(..)`. -/
def toArray (n : ℕ) (bytes : List UInt8) : Guarded (Bytes n) :=
  lift (okOr (Bytes.tryFrom n bytes) .panic)

/-- Read exactly `n` bytes; the length left is a subtraction, the bytes are a slice. -/
def readBytes (n : ℕ) : Guarded (List UInt8) := do
  let m ← get
  demand (m.pos ≤ m.data.length) .panic
  demand (n ≤ m.data.length - m.pos) (.error (Text.lit "truncated bytes"))
  demand (m.pos + n ≤ m.data.length) .panic
  set { m with pos := m.pos + n }
  return (m.data.drop m.pos).take n

def readArray (n : ℕ) : Guarded (Bytes n) := do
  let bytes ← readBytes n
  toArray n bytes

def readU8 : Guarded UInt8 := do
  let bytes ← readBytes 1
  index bytes 0

/-- A little-endian number of `n` bytes. -/
def readLe (n : ℕ) : Guarded ℕ := do
  let bytes ← readArray n
  return bytes.toLe

def readU32 : Guarded UInt32 := do
  let n ← readLe 4
  return UInt32.ofNat n

def readI32 : Guarded Int32 := do
  let n ← readU32
  return n.toInt32

def readU64 : Guarded UInt64 := do
  let n ← readLe 8
  return UInt64.ofNat n

def readWide (n least : ℕ) : Guarded UInt64 := do
  let value ← readLe n
  demand (least ≤ value) (.error (Text.lit "non-canonical varint"))
  return UInt64.ofNat value

def readVarint : Guarded UInt64 := do
  let first ← readU8
  if first = 0xff then
    readWide 8 0x100000000
  else if first = 0xfe then
    readWide 4 0x10000
  else if first = 0xfd then
    readWide 2 0xfd
  else
    return first.toUInt64

/-- A byte string, copied out of the message. -/
def readVarbytes : Guarded (List UInt8) := do
  let n ← readVarint
  let bytes ← readBytes n.toNat
  reserve bytes.length
  return bytes

/-- `n` values pushed to a list. -/
def readMany {α : Type} (read : Guarded α) : (n : ℕ) → Guarded (List.Vector α n)
  | 0 => return List.Vector.nil
  | n + 1 => do
      let a ← read
      let as ← readMany read n
      return a ::ᵥ as

end Cursor

section Parsing

/-- The six fields of a header. -/
def readHeaderFields : Guarded BlockHeader := do
  let version ← readI32
  let prevBlock ← readArray 32
  let merkleRoot ← readArray 32
  let time ← readU32
  let bits ← readU32
  let nonce ← readU32
  return { version, prevBlock, merkleRoot, time, bits, nonce }

/-- A header, from a cursor of its own over 80 bytes. -/
def readHeader : Guarded BlockHeader := do
  let bytes ← readBytes 80
  let m ← get
  set { m with data := bytes, pos := 0 }
  let header ← readHeaderFields
  let inner ← get
  demand (inner.pos ≤ inner.data.length) .panic
  demand (inner.data.length - inner.pos = 0)
    (.error (Text.lit "block header longer than 80 bytes"))
  set { m with reserved := inner.reserved }
  return header

def readTxIn : Guarded TxIn := do
  let txid ← readArray 32
  let vout ← readU32
  let scriptSig ← readVarbytes
  let sequence ← readU32
  return { prev := ⟨txid, vout⟩, scriptSig, sequence }

def readTxOut : Guarded TxOut := do
  let value ← readU64
  let scriptPubkey ← readVarbytes
  return { value, scriptPubkey }

def readWitness : Guarded (List (List UInt8)) := do
  let itemCount ← readVarint
  demand (itemCount.toNat ≤ maxWitnessItems) (.error (Text.lit "absurd witness item count"))
  reserve itemCount.toNat
  let stack ← readMany readVarbytes itemCount.toNat
  return stack.toList

def readWitnesses (segwit : Bool) (inputCount : ℕ) : Guarded (List (List (List UInt8))) :=
  if segwit then do
    let witnesses ← readMany readWitness inputCount
    return witnesses.toList
  else
    return []

def readInputCount : Guarded (Bool × UInt64) := do
  let first ← readU8
  if first = 0 then do
    let flag ← readU8
    demand (flag = 1)
      (.error (Text.lit "unsupported segwit flag byte " ++ Text.ofNat flag.toNat))
    let count ← readVarint
    return (true, count)
  else
    return (false, first.toUInt64)

def readTransaction : Guarded Transaction := do
  let version ← readI32
  let (segwit, inputCount) ← readInputCount
  demand (inputCount.toNat ≤ maxTxItems) (.error (Text.lit "absurd input count"))
  reserve inputCount.toNat
  let inputs ← readMany readTxIn inputCount.toNat
  let outputCount ← readVarint
  demand (outputCount.toNat ≤ maxTxItems) (.error (Text.lit "absurd output count"))
  reserve outputCount.toNat
  let outputs ← readMany readTxOut outputCount.toNat
  let witnesses ← readWitnesses segwit inputCount.toNat
  let lockTime ← readU32
  return { version, inputs := inputs.toList, outputs := outputs.toList, lockTime, witnesses }

theorem txs_le_of_count
    {txCount : UInt64}
    (h : txCount.toNat ≤ maxBlockTxs)
    (txs : List.Vector Transaction txCount.toNat) :
    txs.toList.length ≤ maxBlockTxs := by
  rwa [List.Vector.toList_length]

def readBlock : Guarded Block := do
  let header ← readHeader
  let txCount ← readVarint
  if h : txCount.toNat ≤ maxBlockTxs then do
    reserve txCount.toNat
    let txs ← readMany readTransaction txCount.toNat
    let m ← get
    demand (m.pos ≤ m.data.length) .panic
    demand (m.data.length - m.pos = 0) (.error (Text.lit "trailing bytes after block"))
    return { header, txs := txs.toList, txs_le := txs_le_of_count h txs }
  else
    throw (.error (Text.lit "absurd transaction count"))

end Parsing

section Hashing

variable (sha256 : Sha256)

/-- The hash of a header, whose bytes are converted to an array. -/
def hashHeader (header : BlockHeader) : Guarded (Bytes 32) := do
  let bytes ← toArray 80 header.serialize
  return sha256.double bytes.toList

/-- `chunks(2)`. -/
def pairs {α : Type} : List α → List (List α)
  | first :: second :: rest => [first, second] :: pairs rest
  | [last] => [[last]]
  | [] => []

def hashPair (pair : List (Bytes 32)) : Guarded (Bytes 32) := do
  let left ← index pair 0
  let right ← lift (okOr pair.getLast? .panic)
  return sha256.double (left.toList ++ right.toList)

def merkleLevel (level : List (Bytes 32)) : Guarded (List (Bytes 32)) := do
  reserve ((level.length + 1) / 2)
  collect (pairs level) (hashPair sha256)

/-- The loop; as a level is at least as long as the climb from it, it is enough fuel. -/
def merkleClimb : ℕ → List (Bytes 32) → Guarded (List (Bytes 32))
  | 0, level => return level
  | fuel + 1, level =>
      if 1 < level.length then do
        let next ← merkleLevel sha256 level
        merkleClimb fuel next
      else
        return level

/-- The root; that there are leaves is an assertion. -/
def merkleRoot (leaves : List (Bytes 32)) : Guarded (Bytes 32) := do
  demand (!leaves.isEmpty) .panic
  let level ← merkleClimb sha256 leaves.length leaves
  index level 0

end Hashing

section Anchors

variable (sha256 : Sha256)

/-- A payload of 24 bytes; the conversion is behind the check of the length. -/
def payloadItem (item : List UInt8) : Guarded (Option TruncatedDigest) :=
  if item.length ≠ 24 ∨ item.length > maxWitnessItem then
    return none
  else do
    let bytes ← toArray 24 item
    return some ⟨bytes⟩

/-- The payloads of a legacy envelope, up to the first item that is none. -/
def payloadItems : List (List UInt8) → Guarded (Option (List TruncatedDigest))
  | [] => return some []
  | item :: items => do
      let payload ← payloadItem item
      match payload with
      | none => return none
      | some payload => do
          let payloads ← payloadItems items
          return payloads.map (payload :: ·)

def envelopeDecode : List (List UInt8) → Guarded (Option (List TruncatedDigest))
  | [] => return none
  | magic :: payloads =>
      if magic ≠ witnessMagic ∨ payloads.isEmpty then
        return none
      else
        payloadItems payloads

/-- The envelope of a signed batch: two indices from the end, and a slice. -/
def envelopeV2Decode
    (witness : List (List UInt8)) : Guarded (Option (BatchVersion × List TruncatedDigest)) :=
  if witness.length < 4 ∨ witness.length > maxBatchV2Participants + 3 then
    return none
  else do
    demand (2 ≤ witness.length) .panic
    let signature ← index witness (witness.length - 2)
    match witness.getLast? with
    | none => return none
    | some script => do
        demand (1 ≤ witness.length - 2 ∧ witness.length - 2 ≤ witness.length) .panic
        let items := (witness.drop 1).take (witness.length - 2 - 1)
        if signature.isEmpty ∨ signature.length > maxWitnessItem ∨ script.isEmpty ∨
            items.any (fun item => item.length ≠ 24) then
          return none
        else do
          let payloads ← collect items (fun item => do
            let bytes ← toArray 24 item
            return (⟨bytes⟩ : TruncatedDigest))
          return some (.v2, payloads)

def witnessEnvelopeDecode :
    List (List UInt8) → Guarded (Option (BatchVersion × List TruncatedDigest))
  | [] => return none
  | magic :: items =>
      if magic = witnessMagic then do
        let payloads ← envelopeDecode (magic :: items).dropLast
        return payloads.map (fun payloads => (.v1, payloads))
      else if magic = witnessMagicV2 then
        envelopeV2Decode (magic :: items)
      else
        return none

/-- A coinbase, whose only input is taken by its index. -/
def isCoinbase (tx : Transaction) : Guarded Bool :=
  if tx.inputs.length = 1 then do
    let input ← index tx.inputs 0
    return input.prev.txid == Bytes.zero 32 && input.prev.vout == 0xffffffff
  else
    return false

/-- The envelope of a batch header. -/
def envelopeOf
    (record : AnchorRecord)
    (tx : Transaction) : Guarded (Option (BatchVersion × List TruncatedDigest)) :=
  match record, tx.witnesses with
  | .batchHeader .., witness :: _ => witnessEnvelopeDecode witness
  | _, _ => return none

/-- The anchor of a transaction: its first 64-byte OP_RETURN output. -/
def anchorOfTx (height : UInt64) (position : ℕ) (tx : Transaction) : Guarded (Option AnchorTx) := do
  let coinbase ← isCoinbase tx
  if coinbase then
    return none
  else
    match tx.inputs, tx.outputs.findSome? (fun output => opReturnPayload output.scriptPubkey) with
    | funding :: _, some payload => do
        let record := AnchorRecord.fromBytes payload
        let batch ← envelopeOf record tx
        return some
          { location := ⟨height, UInt32.ofNat position⟩
            txid := tx.txid sha256
            record
            ctx := fundingCtx sha256 funding.prev
            batch }
    | _, _ => return none

def anchorsInBlock (block : Block) (height : UInt64) : Guarded (List ScannedAnchor) := do
  let anchors ← collect block.txs.zipIdx (fun (tx, position) => anchorOfTx sha256 height position tx)
  return (anchors.filterMap id).flatMap AnchorTx.candidates

end Anchors

section Elements

/-- A script that is no data output; its first byte is behind the test for an empty one. -/
def isFilterScript (script : List UInt8) : Guarded Bool :=
  if script.isEmpty then
    return false
  else do
    let first ← index script 0
    return first != 0x6a

def outputElements : List TxOut → Guarded (List (List UInt8))
  | [] => return []
  | output :: outputs => do
      let isElement ← isFilterScript output.scriptPubkey
      let elements ← outputElements outputs
      return if isElement then output.scriptPubkey :: elements else elements

/-- Take a script for each of `n` inputs. -/
def prevoutElements :
    ℕ → List (List UInt8) → Guarded (List (List UInt8) × List (List UInt8))
  | 0, prevouts => return ([], prevouts)
  | _ + 1, [] => throw (.error (Text.lit "fewer prevout scripts than block inputs"))
  | n + 1, script :: prevouts => do
      let (elements, rest) ← prevoutElements n prevouts
      return (if script.isEmpty then elements else script :: elements, rest)

/-- The elements of the transactions from some place on. -/
def blockElements : List (Transaction × ℕ) → List (List UInt8) → Guarded (List (List UInt8))
  | [], prevouts => do
      demand prevouts.isEmpty (.error (Text.lit "more prevout scripts than block inputs"))
      return []
  | (tx, index) :: txs, prevouts => do
      let outputs ← outputElements tx.outputs
      let (spent, rest) ← prevoutElements (if 0 < index then tx.inputs.length else 0) prevouts
      let elements ← blockElements txs rest
      return outputs ++ (spent ++ elements)

def basicFilterElements
    (block : Block)
    (prevoutScripts : List (List UInt8)) : Guarded (List (List UInt8)) :=
  blockElements block.txs.zipIdx prevoutScripts

end Elements

section Path

variable (sha256 : Sha256)

/-- From the bytes of a block message to its anchors and filter elements. -/
def inspect
    (blockHash : Bytes 32)
    (height : UInt64)
    (prevoutScripts : List (List UInt8)) :
    Guarded (List ScannedAnchor × List (List UInt8)) := do
  let block ← readBlock
  let hash ← hashHeader sha256 block.header
  demand (hash = blockHash) (.error (Text.lit "a block that hashes differently"))
  let root ← merkleRoot sha256 (block.txs.map (Transaction.txid sha256))
  demand (root = block.header.merkleRoot)
    (.error (Text.lit "merkle root does not match its header"))
  let anchors ← anchorsInBlock sha256 block height
  let elements ← basicFilterElements block prevoutScripts
  return (anchors, elements)

/-- A cursor at the start of a message. -/
def start (payload : List UInt8) : Machine where
  data := payload
  pos := 0
  reserved := 0

end Path

section Parser

variable {limit : ℕ}

/-- The bytes that are left; the message and all capacities are within a limit. -/
structure Follows (limit : ℕ) (m : Machine) (rest : List UInt8) : Prop where
  pos : m.pos ≤ m.data.length
  rest : m.data.drop m.pos = rest
  data : m.data.length ≤ limit
  reserved : m.reserved ≤ limit

/-- An error value, the same as that of the plain parser. -/
def FailsAlike (limit : ℕ) (e : Stop Text) (m : Machine) (e' : Text) : Prop :=
  e = .error e' ∧ m.reserved ≤ limit

/-- The guarded read does what the plain one does, and stops for nothing else. -/
def Guards {α : Type} (limit : ℕ) (c : Guarded α) (d : Reader α) : Prop :=
  Simulates (Follows limit) (FailsAlike limit) c d

theorem Follows.length
    {m : Machine}
    {rest : List UInt8}
    (h : Follows limit m rest) :
    rest.length = m.data.length - m.pos := by
  rw [← h.rest, List.length_drop]

/-- Within the message neither the subtraction nor the slice goes wrong. -/
theorem readBytes_apply
    {m : Machine}
    (n : ℕ)
    (hpos : m.pos ≤ m.data.length) :
    readBytes n m =
      if n ≤ m.data.length - m.pos then
        .ok ((m.data.drop m.pos).take n) { m with pos := m.pos + n }
      else
        .error (.error (Text.lit "truncated bytes")) m := by
  unfold readBytes
  rw [get_bind_apply, demand_bind_apply, if_pos (decide_eq_true hpos), demand_bind_apply]
  by_cases hn : n ≤ m.data.length - m.pos
  · have hslice : m.pos + n ≤ m.data.length := by
      omega
    rw [if_pos (decide_eq_true hn), if_pos hn, demand_bind_apply, if_pos (decide_eq_true hslice)]
    rfl
  · rw [if_neg (by simpa using hn), if_neg hn]

theorem toArray_apply
    {n : ℕ}
    {bytes : List UInt8}
    (m : Machine)
    (h : bytes.length = n) :
    toArray n bytes m = .ok ⟨bytes, h⟩ m := by
  unfold toArray Bytes.tryFrom
  rw [dif_pos h]
  rfl

theorem readArray_ok
    {m : Machine}
    {n : ℕ}
    (hpos : m.pos ≤ m.data.length)
    (hn : n ≤ m.data.length - m.pos) :
    readArray n m = .ok ⟨(m.data.drop m.pos).take n, by
      rw [List.length_take, List.length_drop, min_eq_left hn]⟩ { m with pos := m.pos + n } := by
  unfold readArray
  rw [bind_apply, readBytes_apply n hpos, if_pos hn]
  exact toArray_apply _ _

theorem readArray_error
    {m : Machine}
    {n : ℕ}
    (hpos : m.pos ≤ m.data.length)
    (hn : ¬ n ≤ m.data.length - m.pos) :
    readArray n m = .error (.error (Text.lit "truncated bytes")) m := by
  unfold readArray
  rw [bind_apply, readBytes_apply n hpos, if_neg hn]

theorem guards_readArray
    (n : ℕ) :
    Guards limit (readArray n) (Reader.readArray n) := by
  intro m rest h
  have hlength := h.length
  rw [OpenCsv.readArray_apply]
  by_cases hn : n ≤ rest.length
  · rw [dif_pos hn, readArray_ok h.pos (by omega)]
    refine ⟨Subtype.ext (congrArg (List.take n) h.rest), ?_⟩
    have hpos : m.pos + n ≤ m.data.length := by
      have hle := h.pos
      omega
    have hrest : m.data.drop (m.pos + n) = rest.drop n := by
      rw [← h.rest, List.drop_drop]
    exact { h with pos := hpos, rest := hrest }
  · rw [dif_neg hn, readArray_error h.pos (by omega)]
    exact ⟨rfl, h.reserved⟩

/-- The bytes of an array, without the array. -/
theorem guards_readBytes
    (n : ℕ) :
    Guards limit (readBytes n) (Reader.readBytes n) := by
  intro m rest h
  have harray := guards_readArray  n m rest h
  unfold Reader.readBytes
  rw [bind_apply, readBytes_apply n h.pos]
  by_cases hn : n ≤ m.data.length - m.pos
  · rw [readArray_ok h.pos hn] at harray
    rw [if_pos hn]
    rcases hread : Reader.readArray n rest with ⟨bytes, rest'⟩ | ⟨e, rest'⟩ <;>
      rw [hread] at harray
    · exact ⟨congrArg List.Vector.toList harray.1, harray.2⟩
    · exact harray.elim
  · rw [readArray_error h.pos hn] at harray
    rw [if_neg hn]
    rcases hread : Reader.readArray n rest with ⟨bytes, rest'⟩ | ⟨e, rest'⟩ <;>
      rw [hread] at harray
    · exact harray.elim
    · exact harray

/-- What is read is part of the message. -/
theorem readBytes_length
    {n : ℕ}
    {m m' : Machine}
    {rest bytes : List UInt8}
    (h : Follows limit m rest)
    (hread : readBytes n m = .ok bytes m') :
    bytes.length = n ∧ n ≤ limit := by
  rw [readBytes_apply n h.pos] at hread
  split_ifs at hread with hn
  obtain ⟨rfl, -⟩ := EStateM.Result.ok.inj hread
  have hdata := h.data
  rw [List.length_take, List.length_drop, min_eq_left hn]
  exact ⟨rfl, by omega⟩

theorem guards_pure
    {α : Type}
    (a : α) :
    Guards limit (pure a) (pure a) :=
  simulates_pure a

theorem guards_demand
    {check check' : Bool}
    {e : Text}
    (h : check = check') :
    Guards limit (demand check (.error e)) (demand check' e) :=
  simulates_demand h (fun _ _ hfollows => ⟨rfl, hfollows.reserved⟩)

/-- Behind a check, what it checked is known. -/
theorem guards_demand_bind
    {α : Type}
    {check : Bool}
    {e : Text}
    {f : Unit → Guarded α}
    {g : Unit → Reader α}
    (h : check = true → Guards limit (f ()) (g ())) :
    Guards limit (demand check (.error e) >>= f) (demand check e >>= g) := by
  cases check
  · exact fun _ _ hfollows => ⟨rfl, hfollows.reserved⟩
  · exact h rfl

/-- A capacity within the limit. -/
theorem guards_reserve
    {α : Type}
    {n : ℕ}
    {c : Guarded α}
    {d : Reader α}
    (hn : n ≤ limit)
    (h : Guards limit c d) :
    Guards limit (reserve n >>= fun _ => c) d := by
  refine simulates_skip (fun _ => True) ?_ (fun _ _ => h)
  intro m rest hfollows
  exact ⟨(), _, rfl, { hfollows with reserved := max_le hfollows.reserved hn }, trivial⟩

theorem guards_readU8 :
    Guards limit readU8 Reader.readU8 := by
  intro m rest h
  have hbytes := guards_readBytes  1 m rest h
  unfold readU8 Reader.readU8
  unfold Reader.readBytes at hbytes
  rw [bind_apply] at hbytes ⊢
  rw [bind_apply]
  rcases hc : readBytes 1 m with ⟨bytes, m'⟩ | ⟨e, m'⟩ <;>
    rcases hd : Reader.readArray 1 rest with ⟨array, rest'⟩ | ⟨e', rest'⟩ <;>
      rw [hc, hd] at hbytes
  · obtain ⟨rfl, hfollows⟩ := hbytes
    obtain ⟨b, rfl⟩ : ∃ b, array = b ::ᵥ List.Vector.nil :=
      ⟨array.head, (List.Vector.cons_head_tail array).symm.trans
        (congrArg (array.head ::ᵥ ·) (Subsingleton.elim (α := Bytes 0) _ _))⟩
    exact ⟨rfl, hfollows⟩
  · exact hbytes.elim
  · exact hbytes.elim
  · exact hbytes

theorem guards_readLe
    (n : ℕ) :
    Guards limit (readLe n) (Reader.readLe n) :=
  (guards_readArray n).bind (fun _ => guards_pure _)

theorem guards_readU32 :
    Guards limit readU32 Reader.readU32 :=
  (guards_readLe 4).bind (fun _ => guards_pure _)

theorem guards_readI32 :
    Guards limit readI32 Reader.readI32 :=
  guards_readU32.bind (fun _ => guards_pure _)

theorem guards_readU64 :
    Guards limit readU64 Reader.readU64 :=
  (guards_readLe 8).bind (fun _ => guards_pure _)

theorem guards_readWide
    (n least : ℕ) :
    Guards limit (readWide n least) (Reader.readWide n least) :=
  (guards_readLe n).bind (fun _ => (guards_demand rfl).bind (fun _ => guards_pure _))

theorem guards_readVarint :
    Guards limit readVarint Reader.readVarint := by
  refine guards_readU8.bind (fun first => ?_)
  refine simulates_ite (fun _ => guards_readWide _ _) (fun _ => ?_)
  refine simulates_ite (fun _ => guards_readWide _ _) (fun _ => ?_)
  exact simulates_ite (fun _ => guards_readWide _ _) (fun _ => guards_pure _)

/-- A copy is as long as what was read. -/
theorem guards_readVarbytes :
    Guards limit readVarbytes Reader.readVarbytes := by
  refine guards_readVarint.bind (fun n => ?_)
  have hcopy : Guards limit
      (readBytes n.toNat >>= fun bytes => reserve bytes.length >>= fun _ => pure bytes)
      (Reader.readBytes n.toNat >>= pure) := by
    refine (guards_readBytes n.toNat).bind_of (fun bytes => bytes.length ≤ limit) ?_ ?_
    · intro m rest bytes m' h hread
      obtain ⟨hlength, hle⟩ := readBytes_length h hread
      exact hlength.trans_le hle
    · intro bytes hle
      exact guards_reserve hle (guards_pure bytes)
  rwa [bind_pure] at hcopy

theorem guards_readMany
    {α : Type}
    {c : Guarded α}
    {d : Reader α}
    (h : Guards limit c d)
    (n : ℕ) :
    Guards limit (readMany c n) (Reader.readMany d n) := by
  induction n with
  | zero =>
      exact guards_pure _
  | succ n ih =>
      exact h.bind (fun _ => ih.bind (fun _ => guards_pure _))

theorem guards_readTxIn :
    Guards limit readTxIn TxIn.read :=
  (guards_readArray 32).bind (fun _ => guards_readU32.bind (fun _ =>
    guards_readVarbytes.bind (fun _ => guards_readU32.bind (fun _ => guards_pure _))))

theorem guards_readTxOut :
    Guards limit readTxOut TxOut.read :=
  guards_readU64.bind (fun _ => guards_readVarbytes.bind (fun _ => guards_pure _))

section Fixed

/-- A read of `n` bytes, for which fewer bytes are the only failure. -/
def ReadsFixed {α : Type} (n : ℕ) (read : Reader α) : Prop :=
  ∀ s : List UInt8,
    (n ≤ s.length → ∃ a, read s = .ok a (s.drop n)) ∧
      (s.length < n → ∃ s', read s = .error (Text.lit "truncated bytes") s')

theorem ReadsFixed.bind
    {α β : Type}
    {n k : ℕ}
    {c : Reader α}
    {f : α → Reader β}
    (h : ReadsFixed n c)
    (hf : ∀ a, ReadsFixed k (f a)) :
    ReadsFixed (n + k) (c >>= f) := by
  intro s
  rw [bind_apply]
  by_cases hn : n ≤ s.length
  · obtain ⟨a, ha⟩ := (h s).1 hn
    rw [ha]
    have hlength : (s.drop n).length = s.length - n := List.length_drop
    refine ⟨?_, ?_⟩
    · intro hle
      rw [← List.drop_drop]
      exact (hf a (s.drop n)).1 (by omega)
    · intro hlt
      exact (hf a (s.drop n)).2 (by omega)
  · obtain ⟨s', hs'⟩ := (h s).2 (by omega)
    rw [hs']
    refine ⟨?_, ?_⟩
    · intro hle
      omega
    · intro _
      exact ⟨s', rfl⟩

theorem readsFixed_pure
    {α : Type}
    (a : α) :
    ReadsFixed 0 (pure a) :=
  fun _ => ⟨fun _ => ⟨a, rfl⟩, fun h => absurd h (Nat.not_lt_zero _)⟩

theorem readsFixed_readArray
    (n : ℕ) :
    ReadsFixed n (Reader.readArray n) := by
  intro s
  rw [OpenCsv.readArray_apply]
  refine ⟨?_, ?_⟩
  · intro hle
    exact ⟨_, dif_pos hle⟩
  · intro hlt
    exact ⟨s, dif_neg (by omega)⟩

theorem readsFixed_readU32 :
    ReadsFixed 4 Reader.readU32 :=
  ((readsFixed_readArray 4).bind (fun _ => readsFixed_pure _)).bind (fun _ => readsFixed_pure _)

theorem readsFixed_header :
    ReadsFixed 80 BlockHeader.read :=
  (readsFixed_readU32.bind (fun _ => readsFixed_pure _)).bind (fun _ =>
    (readsFixed_readArray 32).bind (fun _ => (readsFixed_readArray 32).bind (fun _ =>
      readsFixed_readU32.bind (fun _ => readsFixed_readU32.bind (fun _ =>
        readsFixed_readU32.bind (fun _ => readsFixed_pure _))))))

end Fixed

theorem guards_readHeaderFields :
    Guards limit readHeaderFields BlockHeader.read :=
  guards_readI32.bind (fun _ => (guards_readArray 32).bind (fun _ => (guards_readArray 32).bind
    (fun _ => guards_readU32.bind (fun _ => guards_readU32.bind (fun _ => guards_readU32.bind
      (fun _ => guards_pure _))))))

/-- The inner cursor ends where its 80 bytes do. -/
theorem readHeader_ok
    {m : Machine}
    {rest : List UInt8}
    {header : BlockHeader}
    (h : Follows limit m rest)
    (hn : 80 ≤ rest.length)
    (hread : BlockHeader.read rest = .ok header (rest.drop 80)) :
    ∃ reserved, readHeader m = .ok header { m with pos := m.pos + 80, reserved := reserved } ∧
      reserved ≤ limit := by
  have hlength := h.length
  have hrest : rest = header.serialize ++ rest.drop 80 := ((format_header _ _ _).mp hread).2
  have htake : (m.data.drop m.pos).take 80 = header.serialize := by
    rw [h.rest]
    exact List.append_cancel_right ((List.take_append_drop 80 rest).trans hrest)
  have hinner : Follows limit
      { data := (m.data.drop m.pos).take 80, pos := 0, reserved := m.reserved }
      header.serialize :=
    { pos := Nat.zero_le _
      rest := htake
      data := (List.length_take_le' _ _).trans ((List.length_drop ▸ Nat.sub_le _ _).trans h.data)
      reserved := h.reserved }
  have hfields : BlockHeader.read header.serialize = .ok header [] :=
    (format_header _ _ _).mpr ⟨trivial, (List.append_nil _).symm⟩
  obtain ⟨inner, hinnerRead, hend⟩ := guards_readHeaderFields.ok hinner hfields
  have hdone : inner.data.length - inner.pos = 0 := hend.length.symm
  refine ⟨inner.reserved, ?_, hend.reserved⟩
  unfold readHeader
  rw [bind_apply, readBytes_apply 80 h.pos, if_pos (by omega)]
  show (readHeaderFields >>= _)
    { data := (m.data.drop m.pos).take 80, pos := 0, reserved := m.reserved } =
      EStateM.Result.ok header _
  rw [bind_apply, hinnerRead]
  show (demand (inner.pos ≤ inner.data.length) (Stop.panic : Stop Text) >>= _) inner =
    EStateM.Result.ok header _
  rw [demand_bind_apply, if_pos (decide_eq_true hend.pos), demand_bind_apply,
    if_pos (decide_eq_true hdone)]
  rfl

theorem guards_readHeader :
    Guards limit readHeader BlockHeader.read := by
  intro m rest h
  have hlength := h.length
  by_cases hn : 80 ≤ rest.length
  · obtain ⟨header, hread⟩ := (readsFixed_header rest).1 hn
    obtain ⟨reserved, hguarded, hreserved⟩ := readHeader_ok h hn hread
    rw [hguarded, hread]
    have hpos : m.pos + 80 ≤ m.data.length := by
      have hle := h.pos
      omega
    have hrest : m.data.drop (m.pos + 80) = rest.drop 80 := by
      rw [← h.rest, List.drop_drop]
    exact ⟨rfl, { pos := hpos, rest := hrest, data := h.data, reserved := hreserved }⟩
  · obtain ⟨s', hread⟩ := (readsFixed_header rest).2 (by omega)
    unfold readHeader
    rw [bind_apply, readBytes_apply 80 h.pos, if_neg (by omega), hread]
    exact ⟨rfl, h.reserved⟩

section Counts

variable (hlimit : 1000000 ≤ limit)

include hlimit

theorem guards_readWitness :
    Guards limit readWitness OpenCsv.readWitness := by
  refine guards_readVarint.bind (fun itemCount => guards_demand_bind (fun hcount => ?_))
  have hle : itemCount.toNat ≤ limit := by
    rw [decide_eq_true_eq, maxWitnessItems] at hcount
    omega
  exact guards_reserve hle ((guards_readMany guards_readVarbytes _).bind (fun _ => guards_pure _))

theorem guards_readWitnesses
    (segwit : Bool)
    (inputCount : ℕ) :
    Guards limit (readWitnesses segwit inputCount) (OpenCsv.readWitnesses segwit inputCount) :=
  simulates_ite
    (fun _ => (guards_readMany (guards_readWitness hlimit) _).bind (fun _ => guards_pure _))
    (fun _ => guards_pure _)

omit hlimit in
theorem guards_readInputCount :
    Guards limit readInputCount OpenCsv.readInputCount := by
  refine guards_readU8.bind (fun first => simulates_ite (fun _ => ?_) (fun _ => guards_pure _))
  exact guards_readU8.bind (fun flag => (guards_demand rfl).bind (fun _ =>
    guards_readVarint.bind (fun _ => guards_pure _)))

theorem guards_readTransaction :
    Guards limit readTransaction Transaction.read := by
  refine guards_readI32.bind (fun version => guards_readInputCount.bind ?_)
  rintro ⟨segwit, inputCount⟩
  refine guards_demand_bind (fun hinputs => ?_)
  have hinputCount : inputCount.toNat ≤ limit := by
    rw [decide_eq_true_eq, maxTxItems] at hinputs
    omega
  refine guards_reserve hinputCount ((guards_readMany guards_readTxIn _).bind (fun inputs => ?_))
  refine guards_readVarint.bind (fun outputCount => guards_demand_bind (fun houtputs => ?_))
  have houtputCount : outputCount.toNat ≤ limit := by
    rw [decide_eq_true_eq, maxTxItems] at houtputs
    omega
  refine guards_reserve houtputCount ((guards_readMany guards_readTxOut _).bind (fun outputs => ?_))
  refine (guards_readWitnesses hlimit segwit _).bind (fun witnesses => ?_)
  exact guards_readU32.bind (fun _ => guards_pure _)

/-- The parser does what the plain one does, and stops for nothing but an error value. -/
theorem simulates_block :
    Guards limit readBlock Block.read := by
  refine guards_readHeader.bind (fun header => guards_readVarint.bind (fun txCount => ?_))
  by_cases hcount : txCount.toNat ≤ maxBlockTxs
  · rw [dif_pos hcount, dif_pos hcount]
    have hle : txCount.toNat ≤ limit := by
      rw [maxBlockTxs] at hcount
      omega
    refine guards_reserve hle
      ((guards_readMany (guards_readTransaction hlimit) _).bind (fun txs => ?_))
    intro m rest h
    have hlength := h.length
    rw [get_bind_apply, get_bind_apply, demand_bind_apply, if_pos (decide_eq_true h.pos)]
    have hend : decide (m.data.length - m.pos = 0) = rest.isEmpty := by
      rw [Bool.eq_iff_iff, decide_eq_true_eq, List.isEmpty_iff, ← List.length_eq_zero_iff, hlength]
    exact (guards_demand hend).bind (fun _ => guards_pure _) m rest h
  · rw [dif_neg hcount, dif_neg hcount]
    exact fun _ _ h => ⟨rfl, h.reserved⟩

end Counts

end Parser

section Extraction

/-- The call returns a value and leaves the machine as it is. -/
def Returns {α : Type} (c : Guarded α) (a : α) : Prop :=
  ∀ m, c m = .ok a m

theorem returns_pure
    {α : Type}
    (a : α) :
    Returns (pure a) a :=
  fun _ => rfl

theorem Returns.bind
    {α β : Type}
    {c : Guarded α}
    {f : α → Guarded β}
    {a : α}
    {b : β}
    (h : Returns c a)
    (hf : Returns (f a) b) :
    Returns (c >>= f) b := by
  intro m
  rw [bind_apply, h m]
  exact hf m

theorem returns_index
    {α : Type}
    {as : List α}
    {i : ℕ}
    {a : α}
    (h : as[i]? = some a) :
    Returns (index as i) a := by
  unfold index
  rw [h]
  exact fun _ => rfl

theorem returns_toArray
    {n : ℕ}
    {bytes : List UInt8}
    (h : bytes.length = n) :
    Returns (toArray n bytes) ⟨bytes, h⟩ :=
  fun m => toArray_apply m h

theorem Returns.demand
    {α : Type}
    {check : Bool}
    {e : Stop Text}
    {f : Unit → Guarded α}
    {a : α}
    (hcheck : check = true)
    (h : Returns (f ()) a) :
    Returns (Call.demand check e >>= f) a := by
  intro m
  rw [demand_bind_apply, if_pos hcheck]
  exact h m

theorem returns_collect
    {α β : Type}
    {f : α → Guarded β}
    {g : α → β}
    {as : List α}
    (h : ∀ a ∈ as, Returns (f a) (g a)) :
    Returns (collect as f) (as.map g) := by
  induction as with
  | nil =>
      exact returns_pure _
  | cons a as ih =>
      refine (h a List.mem_cons_self).bind ?_
      refine (ih (fun b hb => h b (List.mem_cons_of_mem a hb))).bind ?_
      exact returns_pure _

theorem returns_payloadItem
    (item : List UInt8) :
    Returns (payloadItem item) (OpenCsv.payloadItem item) := by
  unfold payloadItem OpenCsv.payloadItem Bytes.tryFrom
  by_cases hlength : item.length = 24
  · have hsmall : ¬ item.length > maxWitnessItem := by
      rw [hlength]
      decide
    rw [if_neg (not_or.mpr ⟨not_not.mpr hlength, hsmall⟩), if_neg hsmall, dif_pos hlength]
    exact (returns_toArray hlength).bind (returns_pure _)
  · rw [if_pos (Or.inl hlength), dif_neg hlength]
    split_ifs <;> exact returns_pure _

theorem returns_payloadItems
    (items : List (List UInt8)) :
    Returns (payloadItems items) (items.mapM OpenCsv.payloadItem) := by
  induction items with
  | nil =>
      exact returns_pure _
  | cons item items ih =>
      rw [List.mapM_cons]
      refine (returns_payloadItem item).bind ?_
      cases OpenCsv.payloadItem item with
      | none => exact returns_pure _
      | some payload =>
          refine ih.bind ?_
          cases items.mapM OpenCsv.payloadItem <;> exact returns_pure _

theorem returns_envelopeDecode
    (items : List (List UInt8)) :
    Returns (envelopeDecode items) (OpenCsv.envelopeDecode items) := by
  rcases items with _ | ⟨magic, payloads⟩
  · exact returns_pure _
  · rw [envelopeDecode, OpenCsv.envelopeDecode]
    simp only [List.isEmpty_iff]
    split_ifs
    · exact returns_pure _
    · exact returns_payloadItems payloads

/-- A 24-byte item as a payload. -/
def payloadOf (item : List UInt8) : TruncatedDigest :=
  ⟨(Bytes.tryFrom 24 item).getD (Bytes.zero 24)⟩

theorem mapM_payloads
    (items : List (List UInt8)) :
    items.mapM (fun item => (Bytes.tryFrom 24 item).map TruncatedDigest.mk) =
      if items.any (fun item => item.length ≠ 24) then none else some (items.map payloadOf) := by
  induction items with
  | nil =>
      rfl
  | cons item items ih =>
      rw [List.mapM_cons, ih, List.any_cons]
      by_cases hlength : item.length = 24
      · have hitem : Bytes.tryFrom 24 item = some ⟨item, hlength⟩ := dif_pos hlength
        simp only [hitem, hlength, payloadOf, List.map_cons, ne_eq, not_true_eq_false,
          decide_false, Bool.false_or]
        split_ifs <;> rfl
      · have hitem : Bytes.tryFrom 24 item = none := dif_neg hlength
        simp [hitem, hlength]

/-- A list of two and more entries ends in two. -/
theorem exists_append_pair
    {α : Type}
    {as : List α}
    (h : 2 ≤ as.length) :
    ∃ front a b, as = front ++ [a, b] := by
  rcases List.eq_nil_or_concat as with rfl | ⟨front, b, rfl⟩
  · simp at h
  · rcases List.eq_nil_or_concat front with rfl | ⟨front, a, rfl⟩
    · simp at h
    · exact ⟨front, a, b, by simp⟩

theorem returns_envelopeV2Decode
    {magic : List UInt8}
    {items : List (List UInt8)}
    (hmagic : magic ≠ witnessMagic)
    (hmagicV2 : magic = witnessMagicV2) :
    Returns (envelopeV2Decode (magic :: items))
      (OpenCsv.witnessEnvelopeDecode (magic :: items)) := by
  unfold envelopeV2Decode OpenCsv.witnessEnvelopeDecode
  simp only [if_neg hmagic, if_pos hmagicV2]
  by_cases hcount : (magic :: items).length < 4 ∨
      (magic :: items).length > maxBatchV2Participants + 3
  · rw [if_pos hcount, if_pos hcount]
    exact returns_pure _
  · rw [if_neg hcount, if_neg hcount]
    rw [not_or, not_lt, List.length_cons] at hcount
    obtain ⟨payloads, signature, script, rfl⟩ := exists_append_pair (show 2 ≤ items.length by omega)
    have hlength : (magic :: (payloads ++ [signature, script])).length = payloads.length + 3 := by
      simp
    have hsignature : (magic :: (payloads ++ [signature, script]))[payloads.length + 1]? =
        some signature := by
      simp
    have hscript : (magic :: (payloads ++ [signature, script])).getLast? = some script := by
      simp [List.getLast?_cons]
    have hslice : ((magic :: (payloads ++ [signature, script])).drop 1).take payloads.length =
        payloads := by
      rw [List.drop_succ_cons, List.drop_zero, List.take_left]
    have hlast : (payloads ++ [signature, script]).getLast? = some script := by
      simp
    have hfront : (payloads ++ [signature, script]).dropLast = payloads ++ [signature] := by
      rw [show payloads ++ [signature, script] = (payloads ++ [signature]) ++ [script] by simp,
        List.dropLast_concat]
    have hcounts : payloads.length + 3 - 2 = payloads.length + 1 := by
      omega
    rw [hlength, hcounts, Nat.add_sub_cancel, hscript, hslice]
    simp only [hfront, List.dropLast_concat, List.getLast?_concat, hlast, Option.getD_some,
      mapM_payloads]
    refine Returns.demand (by simp) ?_
    refine (returns_index hsignature).bind ?_
    refine Returns.demand (by simp) ?_
    simp only [List.isEmpty_iff]
    by_cases hsig : signature = [] ∨ signature.length > maxWitnessItem ∨ script = []
    · rw [if_pos hsig, if_pos (by tauto)]
      exact returns_pure _
    · rw [if_neg hsig]
      by_cases hsizes : (payloads.any fun item => decide (item.length ≠ 24)) = true
      · rw [if_pos (by tauto), if_pos hsizes]
        exact returns_pure _
      · rw [if_neg (by tauto), if_neg hsizes]
        refine (returns_collect (g := payloadOf) ?_).bind (returns_pure _)
        intro item hitem
        have hlength : item.length = 24 := by
          by_contra hne
          exact hsizes (List.any_eq_true.mpr ⟨item, hitem, decide_eq_true hne⟩)
        have hpayload : payloadOf item = ⟨⟨item, hlength⟩⟩ := by
          unfold payloadOf Bytes.tryFrom
          rw [dif_pos hlength]
          rfl
        rw [hpayload]
        exact (returns_toArray hlength).bind (returns_pure _)

theorem returns_witnessEnvelopeDecode
    (witness : List (List UInt8)) :
    Returns (witnessEnvelopeDecode witness) (OpenCsv.witnessEnvelopeDecode witness) := by
  rcases witness with _ | ⟨magic, items⟩
  · exact returns_pure _
  · rw [witnessEnvelopeDecode]
    by_cases hmagic : magic = witnessMagic
    · rw [if_pos hmagic, OpenCsv.witnessEnvelopeDecode, if_pos hmagic]
      exact (returns_envelopeDecode _).bind (returns_pure _)
    · rw [if_neg hmagic]
      by_cases hmagicV2 : magic = witnessMagicV2
      · rw [if_pos hmagicV2]
        exact returns_envelopeV2Decode hmagic hmagicV2
      · rw [if_neg hmagicV2, OpenCsv.witnessEnvelopeDecode, if_neg hmagic, if_neg hmagicV2]
        exact returns_pure _

theorem returns_isCoinbase
    (tx : Transaction) :
    Returns (isCoinbase tx) tx.isCoinbase := by
  unfold isCoinbase Transaction.isCoinbase
  rcases tx.inputs with _ | ⟨input, _ | ⟨second, rest⟩⟩
  · exact returns_pure _
  · exact (returns_index rfl).bind (returns_pure _)
  · exact returns_pure _

theorem returns_envelopeOf
    (record : AnchorRecord)
    (tx : Transaction) :
    Returns (envelopeOf record tx)
      (match record with
        | .batchHeader .. => tx.witnesses.head?.bind OpenCsv.witnessEnvelopeDecode
        | _ => none) := by
  unfold envelopeOf
  cases record with
  | batchHeader =>
      rcases tx.witnesses with _ | ⟨witness, rest⟩
      · exact returns_pure _
      · exact returns_witnessEnvelopeDecode witness
  | _ => exact returns_pure _

theorem returns_anchorOfTx
    (sha256 : Sha256)
    (height : UInt64)
    (position : ℕ)
    (tx : Transaction) :
    Returns (anchorOfTx sha256 height position tx)
      (OpenCsv.anchorOfTx sha256 height position tx) := by
  unfold anchorOfTx OpenCsv.anchorOfTx
  refine (returns_isCoinbase tx).bind ?_
  split
  · exact returns_pure _
  · rcases tx.inputs with _ | ⟨funding, rest⟩
    · exact returns_pure _
    · cases tx.outputs.findSome? (fun output => opReturnPayload output.scriptPubkey) with
      | none => exact returns_pure _
      | some payload => exact (returns_envelopeOf _ tx).bind (returns_pure _)

theorem returns_anchorsInBlock
    (sha256 : Sha256)
    (block : Block)
    (height : UInt64) :
    Returns (anchorsInBlock sha256 block height) (OpenCsv.anchorsInBlock sha256 block height) := by
  refine Returns.bind (returns_collect (fun _ _ => returns_anchorOfTx sha256 height _ _)) ?_
  rw [OpenCsv.anchorsInBlock, anchorTxs, List.filterMap_map]
  exact returns_pure _

end Extraction

section Filtering

/-- The call ends as the plain result says, and leaves the machine as it is. -/
def Tells {α : Type} (c : Guarded α) : Except Text α → Prop
  | .ok a => Returns c a
  | .error e => ∀ m, c m = .error (.error e) m

theorem Tells.bind_returns
    {α β : Type}
    {c : Guarded α}
    {f : α → Guarded β}
    {a : α}
    {r : Except Text β}
    (h : Returns c a)
    (hf : Tells (f a) r) :
    Tells (c >>= f) r := by
  cases r with
  | ok b =>
      exact Returns.bind h hf
  | error e =>
      intro m
      rw [bind_apply, h m]
      exact hf m

theorem Tells.bind
    {α β : Type}
    {c : Guarded α}
    {f : α → Guarded β}
    {r : Except Text α}
    {g : α → Except Text β}
    (h : Tells c r)
    (hf : ∀ a, Tells (f a) (g a)) :
    Tells (c >>= f) (r >>= g) := by
  cases r with
  | ok a =>
      exact Tells.bind_returns h (hf a)
  | error e =>
      intro m
      rw [bind_apply, h m]

theorem returns_isFilterScript
    (script : List UInt8) :
    Returns (isFilterScript script) (!script.isEmpty && script.head? != some 0x6a) := by
  rcases script with _ | ⟨first, rest⟩
  · exact returns_pure _
  · exact (returns_index rfl).bind (returns_pure _)

theorem returns_outputElements
    (tx : Transaction) :
    Returns (outputElements tx.outputs) tx.filterOutputs := by
  unfold Transaction.filterOutputs
  induction tx.outputs with
  | nil =>
      exact returns_pure _
  | cons output outputs ih =>
      rw [List.map_cons, List.filter_cons]
      exact (returns_isFilterScript _).bind (ih.bind (returns_pure _))

theorem returns_prevoutElements
    {n : ℕ}
    {prevouts : List (List UInt8)}
    (h : n ≤ prevouts.length) :
    Returns (prevoutElements n prevouts)
      ((prevouts.take n).filter (fun script => !script.isEmpty), prevouts.drop n) := by
  induction n generalizing prevouts with
  | zero =>
      exact returns_pure _
  | succ n ih =>
      rcases prevouts with _ | ⟨script, prevouts⟩
      · simp at h
      · rw [List.take_succ_cons, List.drop_succ_cons, List.filter_cons]
        refine (ih (Nat.le_of_succ_le_succ h)).bind ?_
        cases script <;> exact returns_pure _

theorem prevoutElements_error
    {n : ℕ}
    {prevouts : List (List UInt8)}
    (h : prevouts.length < n) :
    Tells (prevoutElements n prevouts)
      (.error (Text.lit "fewer prevout scripts than block inputs")) := by
  induction n generalizing prevouts with
  | zero =>
      omega
  | succ n ih =>
      rcases prevouts with _ | ⟨script, prevouts⟩
      · exact fun _ => rfl
      · intro m
        rw [prevoutElements, bind_apply, ih (Nat.lt_of_succ_lt_succ h) m]

theorem tells_blockElements
    (txs : List (Transaction × ℕ))
    (prevouts : List (List UInt8)) :
    Tells (blockElements txs prevouts) (filterElements txs prevouts) := by
  induction txs generalizing prevouts with
  | nil =>
      cases prevouts with
      | nil => exact returns_pure _
      | cons script prevouts => exact fun _ => rfl
  | cons first txs ih =>
      obtain ⟨tx, index⟩ := first
      unfold blockElements filterElements
      refine Tells.bind_returns (returns_outputElements tx) ?_
      by_cases hindex : index = 0
      · rw [if_pos hindex, if_neg (by omega)]
        refine Tells.bind_returns (returns_prevoutElements (Nat.zero_le _)) ?_
        exact (ih _).bind (fun _ => returns_pure _)
      · rw [if_neg hindex, if_pos (by omega)]
        by_cases hfew : prevouts.length < tx.inputs.length
        · rw [if_pos hfew]
          intro m
          rw [bind_apply, prevoutElements_error hfew m]
        · rw [if_neg hfew]
          refine Tells.bind_returns (returns_prevoutElements (not_lt.mp hfew)) ?_
          exact (ih _).bind (fun _ => returns_pure _)

end Filtering

section Climbing

variable (sha256 : Sha256)

/-- Every chunk has a first and a last hash. -/
theorem returns_nodes
    (level : List (Bytes 32)) :
    Returns (collect (pairs level) (hashPair sha256)) (OpenCsv.merkleLevel sha256 level) := by
  induction level using OpenCsv.merkleLevel.induct with
  | case1 left right rest ih =>
      refine Returns.bind ?_ (ih.bind (returns_pure _))
      exact (returns_index rfl).bind (returns_pure _)
  | case2 last =>
      refine Returns.bind ?_ ((returns_pure _).bind (returns_pure _))
      exact (returns_index rfl).bind (returns_pure _)
  | case3 =>
      exact returns_pure _

/-- The climb from a level within the limit has its root, and asks for no more. -/
theorem merkleClimb_ok
    {limit fuel : ℕ}
    {level : List (Bytes 32)}
    {m : Machine}
    (hne : level ≠ [])
    (hfuel : level.length ≤ fuel)
    (hlimit : level.length ≤ limit)
    (hreserved : m.reserved ≤ limit) :
    ∃ root m', OpenCsv.merkleClimb sha256 fuel level = some root ∧
      merkleClimb sha256 fuel level m = .ok [root] m' ∧ m'.reserved ≤ limit := by
  induction fuel generalizing level m with
  | zero =>
      exact absurd (List.length_eq_zero_iff.mp (Nat.le_zero.mp hfuel)) hne
  | succ fuel ih =>
      rcases level with _ | ⟨a, _ | ⟨b, rest⟩⟩
      · exact absurd rfl hne
      · exact ⟨a, m, rfl, rfl, hreserved⟩
      · have hlength := OpenCsv.merkleLevel_length sha256 (a :: b :: rest)
        simp only [List.length_cons] at hfuel hlimit hlength
        have hnext : OpenCsv.merkleLevel sha256 (a :: b :: rest) ≠ [] := by
          simp [OpenCsv.merkleLevel]
        have hshorter : (OpenCsv.merkleLevel sha256 (a :: b :: rest)).length ≤ fuel := by
          omega
        have hwithin : (OpenCsv.merkleLevel sha256 (a :: b :: rest)).length ≤ limit := by
          omega
        have hasked : max m.reserved (((a :: b :: rest).length + 1) / 2) ≤ limit := by
          refine max_le hreserved ?_
          simp only [List.length_cons]
          omega
        obtain ⟨root, m', hroot, hclimb, hdone⟩ :=
          ih (m := { m with reserved := max m.reserved (((a :: b :: rest).length + 1) / 2) })
            hnext hshorter hwithin hasked
        refine ⟨root, m', ?_, ?_, hdone⟩
        · rw [OpenCsv.merkleClimb]
          · exact hroot
          · simp
          · simp
        · have hmore : 1 < (a :: b :: rest).length := by
            simp
          rw [merkleClimb, if_pos hmore, bind_apply, merkleLevel, reserve, modify_bind_apply,
            returns_nodes sha256 _ _]
          exact hclimb

/-- The assertion on the leaves is the only way to stop. -/
theorem merkleRoot_ok
    {limit : ℕ}
    {leaves : List (Bytes 32)}
    {m : Machine}
    (hne : leaves ≠ [])
    (hlimit : leaves.length ≤ limit)
    (hreserved : m.reserved ≤ limit) :
    ∃ root m', OpenCsv.merkleRoot sha256 leaves = some root ∧
      merkleRoot sha256 leaves m = .ok root m' ∧ m'.reserved ≤ limit := by
  obtain ⟨root, m', hroot, hclimb, hdone⟩ := merkleClimb_ok sha256 hne le_rfl hlimit hreserved
  refine ⟨root, m', hroot, ?_, hdone⟩
  have hsome : (!leaves.isEmpty) = true := by
    simpa using hne
  rw [merkleRoot, demand_bind_apply, if_pos hsome, bind_apply, hclimb]
  rfl

end Climbing

section Outcome

variable {sha256 : Sha256}
variable {limit : ℕ}

/-- No panic, and no capacity asked for beyond a limit. -/
def Safe {α : Type} (limit : ℕ) : EStateM.Result (Stop Text) Machine α → Prop
  | .ok _ m => m.reserved ≤ limit
  | .error e m => e ≠ .panic ∧ m.reserved ≤ limit

theorem start_follows
    {payload : List UInt8}
    (h : payload.length ≤ limit) :
    Follows limit (start payload) payload where
  pos := Nat.zero_le _
  rest := rfl
  data := h
  reserved := Nat.zero_le _

theorem returns_hashHeader
    (header : BlockHeader) :
    Returns (hashHeader sha256 header) (header.hash sha256) := by
  have hlength : header.serialize.length = 80 := by
    simp [BlockHeader.serialize]
  exact (returns_toArray hlength).bind (returns_pure _)

/-- What comes after the Merkle root answers or fails with an error value. -/
theorem safe_extraction
    (block : Block)
    (height : UInt64)
    (prevoutScripts : List (List UInt8))
    {m : Machine}
    (h : m.reserved ≤ limit) :
    Safe limit ((anchorsInBlock sha256 block height >>= fun anchors =>
      basicFilterElements block prevoutScripts >>= fun elements =>
        (pure (anchors, elements) : Guarded _)) m) := by
  have helements := tells_blockElements block.txs.zipIdx prevoutScripts
  rw [bind_apply, returns_anchorsInBlock sha256 block height m]
  show Safe limit ((basicFilterElements block prevoutScripts >>= _) m)
  rw [bind_apply, basicFilterElements]
  cases hplain : filterElements block.txs.zipIdx prevoutScripts with
  | ok elements =>
      rw [hplain] at helements
      rw [helements m]
      exact h
  | error e =>
      rw [hplain] at helements
      rw [helements m]
      exact ⟨error_ne_panic e, h⟩

/-- Behind the parser, a block with transactions is safe; one without is when it is another
block's. -/
theorem safe_checks_iff
    (blockHash : Bytes 32)
    (height : UInt64)
    (prevoutScripts : List (List UInt8))
    {payload : List UInt8}
    {block : Block}
    {m : Machine}
    (hlimit : 1000000 ≤ limit)
    (hread : readBlock (start payload) = .ok block m)
    (hreserved : m.reserved ≤ limit) :
    Safe limit (inspect sha256 blockHash height prevoutScripts (start payload)) ↔
      ¬(block.header.hash sha256 = blockHash ∧ block.txs = []) := by
  unfold inspect
  rw [bind_apply, hread]
  show Safe limit ((hashHeader sha256 block.header >>= _) m) ↔ _
  rw [bind_apply, returns_hashHeader block.header m]
  show Safe limit ((demand _ _ >>= _) m) ↔ _
  rw [demand_bind_apply]
  by_cases hhash : block.header.hash sha256 = blockHash
  · rw [if_pos (decide_eq_true hhash), bind_apply]
    by_cases htxs : block.txs = []
    · have hpanic : merkleRoot sha256 (block.txs.map (Transaction.txid sha256)) m =
          .error .panic m := by
        rw [htxs]
        rfl
      rw [hpanic]
      exact iff_of_false (fun hsafe => hsafe.1 rfl) (fun hnot => hnot ⟨hhash, htxs⟩)
    · refine iff_of_true ?_ (fun hboth => htxs hboth.2)
      have hleaves : block.txs.map (Transaction.txid sha256) ≠ [] := by
        simpa using htxs
      have hcount : (block.txs.map (Transaction.txid sha256)).length ≤ limit := by
        rw [List.length_map]
        exact block.txs_le.trans hlimit
      obtain ⟨root, m', -, hroot, hreserved'⟩ := merkleRoot_ok sha256 hleaves hcount hreserved
      rw [hroot]
      show Safe limit ((demand _ _ >>= _) m')
      rw [demand_bind_apply]
      by_cases hmatch : root = block.header.merkleRoot
      · rw [if_pos (decide_eq_true hmatch)]
        exact safe_extraction block height prevoutScripts hreserved'
      · rw [if_neg (by simpa using hmatch)]
        exact ⟨error_ne_panic _, hreserved'⟩
  · rw [if_neg (by simpa using hhash)]
    exact iff_of_true ⟨error_ne_panic _, hreserved⟩ (fun hboth => hhash hboth.1)

/-- A header and a count of zero are the bytes of a block without transactions. -/
theorem parse_hollow
    (header : BlockHeader) :
    Block.parse (header.serialize ++ [0x00]) = .ok ⟨header, [], Nat.zero_le _⟩ := by
  refine parse_eq_ok_iff.mpr ⟨?_, ?_⟩
  · intro tx htx
    cases htx
  · rfl

/-- The requested header without transactions meets the assertion on the leaves. -/
theorem not_safe_hollow
    (sha256 : Sha256)
    (header : BlockHeader)
    (height : UInt64)
    (prevoutScripts : List (List UInt8)) :
    ¬Safe limit (inspect sha256 (header.hash sha256) height prevoutScripts
      (start (header.serialize ++ [0x00]))) := by
  have hlength : (header.serialize ++ [0x00]).length ≤ 1000000 := by
    simp [BlockHeader.serialize]
  obtain ⟨rest, hread⟩ := answer_eq_ok_iff.mp (parse_hollow header)
  obtain ⟨m, hguarded, -⟩ := (simulates_block le_rfl).ok (start_follows hlength) hread
  have hpanic : inspect sha256 (header.hash sha256) height prevoutScripts
      (start (header.serialize ++ [0x00])) = .error .panic m := by
    unfold inspect
    rw [bind_apply, hguarded]
    show (hashHeader sha256 header >>= _) m = _
    rw [bind_apply, returns_hashHeader header m]
    show (demand _ _ >>= _) m = _
    rw [demand_bind_apply, if_pos (decide_eq_true rfl)]
    rfl
  rw [hpanic]
  exact fun hsafe => hsafe.1 rfl

/-- Whatever is asked for can be answered so that the path panics. -/
theorem not_forall_safe
    (sha256 : Sha256)
    (header : BlockHeader) :
    ¬ ∀ (blockHash : Bytes 32) (height : UInt64) (prevoutScripts : List (List UInt8))
        (payload : List UInt8),
        Safe (max 1000000 payload.length)
          (inspect sha256 blockHash height prevoutScripts (start payload)) :=
  fun h => not_safe_hollow sha256 header 1 [] (h _ _ _ _)

/-- The path stops with a panic on one answer alone: the header that was asked for, with no
transactions. -/
theorem inspect_safe_iff
    (sha256 : Sha256)
    (blockHash : Bytes 32)
    (height : UInt64)
    (prevoutScripts : List (List UInt8))
    (payload : List UInt8) :
    Safe (max 1000000 payload.length)
        (inspect sha256 blockHash height prevoutScripts (start payload)) ↔
      ¬∃ header : BlockHeader, header.hash sha256 = blockHash ∧
        payload = header.serialize ++ [0x00] := by
  have hfollows := start_follows (le_max_right 1000000 payload.length)
  have hblock := simulates_block (le_max_left 1000000 payload.length)
  cases hparse : Block.parse payload with
  | error e =>
      obtain ⟨rest, hread⟩ := answer_eq_error_iff.mp hparse
      obtain ⟨e', m, hguarded, he', hreserved⟩ := hblock.error hfollows hread
      refine iff_of_true ?_ ?_
      · unfold inspect
        rw [bind_apply, hguarded]
        refine ⟨?_, hreserved⟩
        rw [he']
        exact error_ne_panic e
      · rintro ⟨header, -, rfl⟩
        rw [parse_hollow] at hparse
        cases hparse
  | ok block =>
      obtain ⟨rest, hread⟩ := answer_eq_ok_iff.mp hparse
      obtain ⟨m, hguarded, hend⟩ := hblock.ok hfollows hread
      rw [safe_checks_iff blockHash height prevoutScripts (le_max_left _ _) hguarded hend.reserved]
      refine not_congr ⟨?_, ?_⟩
      · rintro ⟨hhash, htxs⟩
        refine ⟨block.header, hhash, ?_⟩
        rw [(parse_eq_ok_iff.mp hparse).2, htxs]
        rfl
      · rintro ⟨header, hhash, rfl⟩
        rw [parse_hollow] at hparse
        obtain rfl := Except.ok.inj hparse
        exact ⟨hhash, rfl⟩

/-- A peer answers the request for a block with the header and a count of zero. -/
theorem not_every_answer_safe :
    ¬ ∀ (sha256 : Sha256) (blockHash : Bytes 32) (height : UInt64)
        (prevoutScripts : List (List UInt8)) (payload : List UInt8),
        Safe (max 1000000 payload.length)
          (inspect sha256 blockHash height prevoutScripts (start payload)) :=
  fun h => not_forall_safe Sha2.sha256 RoundTripSample.header (h Sha2.sha256)

end Outcome

end Guarded
end OpenCsv
