import OpenCsv.Cbf.Block
import OpenCsv.Lib.Call
import OpenCsv.Lib.Codes
import OpenCsv.Lib.Utf8

/-!
# Blocks on the wire

The cursor over a message, and the parsers of transactions and blocks.  Counts are
bounded, lengths are whatever their 64-bit prefix says, and the witness of a transaction
is read but not part of what its id is computed from.

**Results.**
* `Block.parse_sized`: a parsed block is within the bounds of its encoding.
* `Transaction.Sized.stripped_eq`: within these bounds the id's preimage determines
  everything of a transaction but its witness.
-/

namespace OpenCsv

open Call

/-- A cursor: the bytes that were not read yet. -/
abbrev Reader (α : Type) := Call Text (List UInt8) α

namespace Reader

/-- Read exactly `n` bytes. -/
def readArray (n : ℕ) : Reader (Bytes n) := do
  let rest ← get
  if h : n ≤ rest.length then do
    set (rest.drop n)
    return ⟨rest.take n, List.length_take_of_le h⟩
  else
    throw (Text.lit "truncated bytes")

def readBytes (n : ℕ) : Reader (List UInt8) := do
  let bytes ← readArray n
  return bytes.toList

def readU8 : Reader UInt8 := do
  let bytes ← readArray 1
  return bytes.head

/-- A little-endian number of `n` bytes. -/
def readLe (n : ℕ) : Reader ℕ := do
  let bytes ← readArray n
  return bytes.toLe

def readU32 : Reader UInt32 := do
  let n ← readLe 4
  return UInt32.ofNat n

def readI32 : Reader Int32 := do
  let n ← readU32
  return n.toInt32

def readU64 : Reader UInt64 := do
  let n ← readLe 8
  return UInt64.ofNat n

/-- The wide forms of a CompactSize integer must not hold what a shorter one can. -/
def readWide (n least : ℕ) : Reader UInt64 := do
  let value ← readLe n
  demand (least ≤ value) (Text.lit "non-canonical varint")
  return UInt64.ofNat value

/-- A CompactSize integer, with canonical-encoding checks. -/
def readVarint : Reader UInt64 := do
  let first ← readU8
  if first = 0xff then
    readWide 8 0x100000000
  else if first = 0xfe then
    readWide 4 0x10000
  else if first = 0xfd then
    readWide 2 0xfd
  else
    return first.toUInt64

/-- A CompactSize-prefixed byte string. -/
def readVarbytes : Reader (List UInt8) := do
  let n ← readVarint
  readBytes n.toNat

/-- `n` values, one after the other. -/
def readMany {α : Type} (read : Reader α) : (n : ℕ) → Reader (List.Vector α n)
  | 0 => return List.Vector.nil
  | n + 1 => do
      let a ← read
      let as ← readMany read n
      return a ::ᵥ as

end Reader

open Reader

section Parsing

def BlockHeader.read : Reader BlockHeader := do
  let version ← readI32
  let prevBlock ← readArray 32
  let merkleRoot ← readArray 32
  let time ← readU32
  let bits ← readU32
  let nonce ← readU32
  return { version, prevBlock, merkleRoot, time, bits, nonce }

def TxIn.read : Reader TxIn := do
  let txid ← readArray 32
  let vout ← readU32
  let scriptSig ← readVarbytes
  let sequence ← readU32
  return { prev := ⟨txid, vout⟩, scriptSig, sequence }

def TxOut.read : Reader TxOut := do
  let value ← readU64
  let scriptPubkey ← readVarbytes
  return { value, scriptPubkey }

/-- The largest input or output count a transaction may announce. -/
def maxTxItems : ℕ := 1000000

/-- The largest number of items of one witness stack. -/
def maxWitnessItems : ℕ := 1000

/-- The witness stack of one input. -/
def readWitness : Reader (List (List UInt8)) := do
  let itemCount ← readVarint
  demand (itemCount.toNat ≤ maxWitnessItems) (Text.lit "absurd witness item count")
  let stack ← readMany readVarbytes itemCount.toNat
  return stack.toList

/-- The stacks of all inputs, in the witness format. -/
def readWitnesses (segwit : Bool) (inputCount : ℕ) : Reader (List (List (List UInt8))) :=
  if segwit then do
    let witnesses ← readMany readWitness inputCount
    return witnesses.toList
  else
    return []

/--
The input count.  A zero byte is the marker of the witness format; any other byte is
taken as the count itself.
-/
def readInputCount : Reader (Bool × UInt64) := do
  let first ← readU8
  if first = 0 then do
    let flag ← readU8
    demand (flag = 1) (Text.lit "unsupported segwit flag byte " ++ Text.ofNat flag.toNat)
    let count ← readVarint
    return (true, count)
  else
    return (false, first.toUInt64)

/-- One transaction; the witness stacks follow the outputs in the witness format. -/
def Transaction.read : Reader Transaction := do
  let version ← readI32
  let (segwit, inputCount) ← readInputCount
  demand (inputCount.toNat ≤ maxTxItems) (Text.lit "absurd input count")
  let inputs ← readMany TxIn.read inputCount.toNat
  let outputCount ← readVarint
  demand (outputCount.toNat ≤ maxTxItems) (Text.lit "absurd output count")
  let outputs ← readMany TxOut.read outputCount.toNat
  let witnesses ← readWitnesses segwit inputCount.toNat
  let lockTime ← readU32
  return { version, inputs := inputs.toList, outputs := outputs.toList, lockTime, witnesses }

/-- A whole block. -/
def Block.read : Reader Block := do
  let header ← BlockHeader.read
  let txCount ← readVarint
  if h : txCount.toNat ≤ maxBlockTxs then do
    let txs ← readMany Transaction.read txCount.toNat
    let rest ← get
    demand rest.isEmpty (Text.lit "trailing bytes after block")
    return { header, txs := txs.toList, txs_le := by rwa [List.Vector.toList_length] }
  else
    throw (Text.lit "absurd transaction count")

/-- Parse a full block from its wire encoding. -/
def Block.parse (bytes : List UInt8) : Except Text Block :=
  answer Block.read bytes

instance : DecidableEq Block := fun block block' =>
  decidable_of_iff (block.header = block'.header ∧ block.txs = block'.txs) (by
    cases block
    cases block'
    simp)

end Parsing

section Bounds

/-- The lengths of an encoded transaction fit their prefixes. -/
structure Transaction.Sized (tx : Transaction) : Prop where
  inputs : tx.inputs.length < 2 ^ 64
  outputs : tx.outputs.length < 2 ^ 64
  scriptSig : ∀ input ∈ tx.inputs, input.scriptSig.length < 2 ^ 64
  scriptPubkey : ∀ output ∈ tx.outputs, output.scriptPubkey.length < 2 ^ 64

variable {s : List UInt8}

/-- What is read one by one is what each read yields. -/
theorem yields_readMany
    {α : Type}
    {read : Reader α}
    {P : α → Prop}
    (hread : ∀ s, Yields read s (fun a _ => P a))
    (n : ℕ)
    (s : List UInt8) :
    Yields (readMany read n) s (fun as _ => ∀ a ∈ as.toList, P a) := by
  induction n generalizing s with
  | zero =>
      exact yields_pure (by simp)
  | succ n ih =>
      refine Yields.bind (hread s) ?_
      intro a s' ha
      refine Yields.bind (ih s') ?_
      intro as s'' has
      refine yields_pure ?_
      intro a' ha'
      rw [List.Vector.toList_cons, List.mem_cons] at ha'
      rcases ha' with rfl | ha'
      · exact ha
      · exact has a' ha'

/-- The length of a byte string fits the 64 bits it was announced with. -/
theorem yields_readVarbytes
    (s : List UInt8) :
    Yields readVarbytes s (fun bytes _ => bytes.length < 2 ^ 64) := by
  unfold readVarbytes
  refine yields_bind ?_
  intro n s'
  unfold readBytes
  refine yields_bind ?_
  intro bytes s''
  refine yields_pure ?_
  rw [List.Vector.toList_length]
  exact n.toNat_lt

theorem yields_readTxIn
    (s : List UInt8) :
    Yields TxIn.read s (fun input _ => input.scriptSig.length < 2 ^ 64) := by
  unfold TxIn.read
  refine yields_bind ?_
  intro txid s'
  refine yields_bind ?_
  intro vout s'
  refine Yields.bind (yields_readVarbytes s') ?_
  intro scriptSig s' hscript
  refine yields_bind ?_
  intro sequence s'
  exact yields_pure hscript

theorem yields_readTxOut
    (s : List UInt8) :
    Yields TxOut.read s (fun output _ => output.scriptPubkey.length < 2 ^ 64) := by
  unfold TxOut.read
  refine yields_bind ?_
  intro value s'
  refine Yields.bind (yields_readVarbytes s') ?_
  intro scriptPubkey s' hscript
  exact yields_pure hscript

theorem yields_readTransaction
    (s : List UInt8) :
    Yields Transaction.read s (fun tx _ => tx.Sized) := by
  unfold Transaction.read
  refine yields_bind ?_
  intro version s'
  refine yields_bind ?_
  rintro ⟨segwit, inputCount⟩ s'
  refine yields_demand ?_
  intro hinputs
  refine Yields.bind (yields_readMany yields_readTxIn inputCount.toNat s') ?_
  intro inputs s' hscripts
  refine yields_bind ?_
  intro outputCount s'
  refine yields_demand ?_
  intro houtputs
  refine Yields.bind (yields_readMany yields_readTxOut outputCount.toNat s') ?_
  intro outputs s' hscripts'
  refine yields_bind ?_
  intro witnesses s'
  refine yields_bind ?_
  intro lockTime s'
  refine yields_pure ⟨?_, ?_, hscripts, hscripts'⟩
  · rw [List.Vector.toList_length]
    exact inputCount.toNat_lt
  · rw [List.Vector.toList_length]
    exact outputCount.toNat_lt

/-- A parsed block is within the bounds of its encoding. -/
theorem Block.parse_sized
    {bytes : List UInt8}
    {block : Block}
    (h : Block.parse bytes = .ok block) :
    ∀ tx ∈ block.txs, tx.Sized := by
  have hread : Yields Block.read bytes (fun block _ => ∀ tx ∈ block.txs, tx.Sized) := by
    unfold Block.read
    refine yields_bind ?_
    intro header s'
    refine yields_bind ?_
    intro txCount s'
    by_cases hcount : txCount.toNat ≤ maxBlockTxs
    · rw [dif_pos hcount]
      refine Yields.bind (yields_readMany yields_readTransaction txCount.toNat s') ?_
      intro txs s' hsized
      refine yields_get ?_
      refine yields_demand ?_
      intro _
      exact yields_pure hsized
    · rw [dif_neg hcount]
      exact yields_throw
  exact yields_iff.mp hread block h

end Bounds

section Preimages

/-- Integers of one width. -/
theorem delimits_leBytes
    (k : ℕ) :
    Delimits (fun n => n < 256 ^ k) (leBytes k) := by
  refine delimits_of_length (fun n _ => leBytes_length k n) ?_
  intro a b ha hb heq
  have hvalue := congrArg leNat heq
  rwa [leNat_leBytes, leNat_leBytes, Nat.mod_eq_of_lt ha, Nat.mod_eq_of_lt hb] at hvalue

/-- The first byte tells the form of an integer. -/
theorem writeVarint_cases
    {n : ℕ}
    (h : n < 2 ^ 64) :
    (∃ b : UInt8, writeVarint n = [b] ∧ b.toNat = n ∧ n < 0xfd) ∨
      ∃ (marker : UInt8) (k : ℕ), writeVarint n = marker :: leBytes k n ∧ n < 256 ^ k ∧
        ((marker = 0xfd ∧ k = 2) ∨ (marker = 0xfe ∧ k = 4) ∨ (marker = 0xff ∧ k = 8)) := by
  unfold writeVarint
  split_ifs with hone htwo hfour
  · refine Or.inl ⟨UInt8.ofNat n, rfl, ?_, hone⟩
    rw [UInt8.toNat_ofNat']
    omega
  · exact Or.inr ⟨0xfd, 2, rfl, by omega, Or.inl ⟨rfl, rfl⟩⟩
  · exact Or.inr ⟨0xfe, 4, rfl, by omega, Or.inr (Or.inl ⟨rfl, rfl⟩)⟩
  · exact Or.inr ⟨0xff, 8, rfl, by omega, Or.inr (Or.inr ⟨rfl, rfl⟩)⟩

theorem delimits_writeVarint :
    Delimits (fun n => n < 2 ^ 64) writeVarint := by
  intro a b ha hb s t heq
  rcases writeVarint_cases ha with ⟨x, hx, rfl, hsmall⟩ | ⟨marker, k, hx, hlt, hform⟩
  · rcases writeVarint_cases hb with ⟨y, hy, rfl, -⟩ | ⟨marker, k, hy, -, hform⟩
    · rw [hx, hy] at heq
      obtain ⟨rfl, hst⟩ := List.cons.inj heq
      exact ⟨rfl, hst⟩
    · rw [hx, hy] at heq
      obtain ⟨rfl, -⟩ := List.cons.inj heq
      rcases hform with ⟨rfl, -⟩ | ⟨rfl, -⟩ | ⟨rfl, -⟩ <;> exact absurd hsmall (by decide)
  · rcases writeVarint_cases hb with ⟨y, hy, rfl, hsmall⟩ | ⟨marker', k', hy, hlt', hform'⟩
    · rw [hx, hy] at heq
      obtain ⟨rfl, -⟩ := List.cons.inj heq
      rcases hform with ⟨rfl, -⟩ | ⟨rfl, -⟩ | ⟨rfl, -⟩ <;> exact absurd hsmall (by decide)
    · rw [hx, hy] at heq
      obtain ⟨hmarker, hrest⟩ := List.cons.inj heq
      have hk : k = k' := by
        rw [hmarker] at hform
        rcases hform with ⟨hm, rfl⟩ | ⟨hm, rfl⟩ | ⟨hm, rfl⟩ <;>
          rcases hform' with ⟨hm', rfl⟩ | ⟨hm', rfl⟩ | ⟨hm', rfl⟩ <;>
            first
              | rfl
              | exact absurd (hm.symm.trans hm') (by decide)
      subst hk
      exact delimits_leBytes k a b hlt hlt' s t hrest

theorem delimits_writeVarbytes :
    Delimits (fun bytes : List UInt8 => bytes.length < 2 ^ 64) writeVarbytes := by
  intro bytes bytes' h h' s t heq
  simp only [writeVarbytes, List.append_assoc] at heq
  obtain ⟨hlength, hrest⟩ := delimits_writeVarint _ _ h h' _ _ heq
  exact List.append_inj hrest hlength

/-- Arrays of one length. -/
theorem delimits_toList
    (n : ℕ) :
    Delimits (fun _ => True) (fun bytes : Bytes n => bytes.toList) :=
  delimits_of_length (fun bytes _ => bytes.toList_length) (fun _ _ _ _ h => Bytes.ext_toList h)

theorem delimits_u32 :
    Delimits (fun _ => True) (fun n : UInt32 => leBytes 4 n.toNat) :=
  (delimits_leBytes 4).comap (fun n _ => n.toNat_lt) (fun _ _ _ _ h => UInt32.toNat_inj.mp h)

theorem delimits_u64 :
    Delimits (fun _ => True) (fun n : UInt64 => leBytes 8 n.toNat) :=
  (delimits_leBytes 8).comap (fun n _ => n.toNat_lt) (fun _ _ _ _ h => UInt64.toNat_inj.mp h)

theorem Int32.toUInt32_injective :
    Function.Injective Int32.toUInt32 := by
  intro a b h
  rw [← Int32.toInt32_toUInt32 a, h, Int32.toInt32_toUInt32]

theorem delimits_i32 :
    Delimits (fun _ => True) (fun n : Int32 => leBytes 4 n.toUInt32.toNat) :=
  delimits_u32.comap (fun _ _ => trivial) (fun _ _ _ _ h => Int32.toUInt32_injective h)

theorem delimits_txIn :
    Delimits (fun input : TxIn => input.scriptSig.length < 2 ^ 64) TxIn.serialize := by
  rintro ⟨⟨txid, vout⟩, scriptSig, sequence⟩ ⟨⟨txid', vout'⟩, scriptSig', sequence'⟩ h h' s t heq
  simp only [TxIn.serialize, List.append_assoc] at heq
  obtain ⟨rfl, hvout⟩ := delimits_toList 32 _ _ trivial trivial _ _ heq
  obtain ⟨rfl, hscript⟩ := delimits_u32 _ _ trivial trivial _ _ hvout
  obtain ⟨rfl, hsequence⟩ := delimits_writeVarbytes _ _ h h' _ _ hscript
  obtain ⟨rfl, hst⟩ := delimits_u32 _ _ trivial trivial _ _ hsequence
  exact ⟨rfl, hst⟩

theorem delimits_txOut :
    Delimits (fun output : TxOut => output.scriptPubkey.length < 2 ^ 64) TxOut.serialize := by
  rintro ⟨value, scriptPubkey⟩ ⟨value', scriptPubkey'⟩ h h' s t heq
  simp only [TxOut.serialize, List.append_assoc] at heq
  obtain ⟨rfl, hscript⟩ := delimits_u64 _ _ trivial trivial _ _ heq
  obtain ⟨rfl, hst⟩ := delimits_writeVarbytes _ _ h h' _ _ hscript
  exact ⟨rfl, hst⟩

/-- A transaction without its witness. -/
def Transaction.stripped (tx : Transaction) : Transaction :=
  { tx with witnesses := [] }

/-- The id's preimage determines everything of a transaction but its witness. -/
theorem Transaction.Sized.stripped_eq
    {tx tx' : Transaction}
    (h : tx.Sized)
    (h' : tx'.Sized)
    (heq : tx.serializeLegacy = tx'.serializeLegacy) :
    tx.stripped = tx'.stripped := by
  obtain ⟨version, inputs, outputs, lockTime, witnesses⟩ := tx
  obtain ⟨version', inputs', outputs', lockTime', witnesses'⟩ := tx'
  simp only [serializeLegacy, List.append_assoc] at heq
  obtain ⟨rfl, hinputs⟩ := delimits_i32 _ _ trivial trivial _ _ heq
  have hinputs' : ∀ s t : List UInt8,
      (writeVarint inputs.length ++ inputs.flatMap TxIn.serialize) ++ s =
        (writeVarint inputs'.length ++ inputs'.flatMap TxIn.serialize) ++ t →
          inputs = inputs' ∧ s = t :=
    delimits_writeVarint.counted delimits_txIn inputs inputs'
      ⟨h.inputs, h.scriptSig⟩ ⟨h'.inputs, h'.scriptSig⟩
  have houtputs' : ∀ s t : List UInt8,
      (writeVarint outputs.length ++ outputs.flatMap TxOut.serialize) ++ s =
        (writeVarint outputs'.length ++ outputs'.flatMap TxOut.serialize) ++ t →
          outputs = outputs' ∧ s = t :=
    delimits_writeVarint.counted delimits_txOut outputs outputs'
      ⟨h.outputs, h.scriptPubkey⟩ ⟨h'.outputs, h'.scriptPubkey⟩
  simp only [List.append_assoc] at hinputs' houtputs'
  obtain ⟨rfl, houtputs⟩ := hinputs' _ _ hinputs
  obtain ⟨rfl, hlock⟩ := houtputs' _ _ houtputs
  obtain ⟨rfl, -⟩ := delimits_u32 lockTime lockTime' trivial trivial [] [] (by simpa using hlock)
  rfl

end Preimages

end OpenCsv
