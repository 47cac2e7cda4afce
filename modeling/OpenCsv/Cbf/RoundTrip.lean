import OpenCsv.Bitcoin.BatchV2
import OpenCsv.Cbf.Determined
import OpenCsv.Lib.Formats

/-!
# Transactions and blocks read back

What the block parser reads is described exactly: it takes the encoding of a transaction
off the front of its bytes, except that the legacy format holds the number of inputs in a
single byte.  A legacy transaction of 253 inputs and more is therefore not read back.

**Results.**
* `format_transaction`: the bytes a transaction is read from.
* `parse_roundTrips_iff`: which transactions and which blocks are read back.
-/

namespace OpenCsv

open Call Reader

section Numbers

variable {n : ℕ}

theorem readArray_apply
    (n : ℕ)
    (s : List UInt8) :
    readArray n s =
      if h : n ≤ s.length then
        .ok ⟨s.take n, List.length_take_of_le h⟩ (s.drop n)
      else
        .error (Text.lit "truncated bytes") s := by
  show (if h : n ≤ s.length then (do set (s.drop n); pure ⟨s.take n, _⟩ : Reader (Bytes n))
    else throw (Text.lit "truncated bytes")) s = _
  by_cases hlen : n ≤ s.length
  · rw [dif_pos hlen, dif_pos hlen]
    rfl
  · rw [dif_neg hlen, dif_neg hlen]
    rfl

theorem format_readArray
    (n : ℕ) :
    Format (fun _ => True) (fun bytes : Bytes n => bytes.toList) (readArray n) := by
  intro s bytes rest
  rw [readArray_apply, true_and]
  constructor
  · intro h
    split_ifs at h with hlen
    obtain ⟨rfl, rfl⟩ := EStateM.Result.ok.inj h
    exact (List.take_append_drop n s).symm
  · intro h
    have hbytes : bytes.toList.length = n := bytes.toList_length
    have hlen : n ≤ s.length := by
      rw [h, List.length_append, hbytes]
      omega
    rw [dif_pos hlen]
    subst h
    congr 1
    · exact Bytes.ext_toList (List.take_left' hbytes)
    · exact List.drop_left' hbytes

theorem format_readLe
    (n : ℕ) :
    Format (fun v => v < 256 ^ n) (leBytes n) (readLe n) := by
  refine (format_readArray n).map (g := Bytes.ofLe n) ?_ ?_ ?_
  · intro bytes _
    exact ⟨bytes.toLe_lt, Bytes.ofLe_toLe bytes⟩
  · intro v hv
    exact ⟨trivial, by rw [Bytes.toLe_ofLe, Nat.mod_eq_of_lt hv]⟩
  · intro v _
    rfl

theorem format_readU8 :
    Format (fun _ => True) (fun b : UInt8 => [b]) readU8 := by
  refine (format_readArray 1).map (g := fun b => b ::ᵥ List.Vector.nil) ?_ ?_ ?_
  · intro bytes _
    refine ⟨trivial, ?_⟩
    rw [← List.Vector.cons_head_tail bytes, List.Vector.head_cons]
    congr 1
    exact Subsingleton.elim _ _
  · intro b _
    exact ⟨trivial, rfl⟩
  · intro b _
    rfl

theorem format_readU32 :
    Format (fun _ => True) (fun n : UInt32 => leBytes 4 n.toNat) readU32 := by
  refine (format_readLe 4).map (g := UInt32.toNat) ?_ ?_ ?_
  · intro v hv
    exact ⟨trivial, by rw [UInt32.toNat_ofNat']; exact Nat.mod_eq_of_lt hv⟩
  · intro n _
    exact ⟨n.toNat_lt, UInt32.ofNat_toNat⟩
  · intro n _
    rfl

theorem format_readI32 :
    Format (fun _ => True) (fun n : Int32 => leBytes 4 n.toUInt32.toNat) readI32 := by
  refine format_readU32.map (g := Int32.toUInt32) ?_ ?_ ?_
  · intro n _
    exact ⟨trivial, UInt32.toUInt32_toInt32 n⟩
  · intro n _
    exact ⟨trivial, Int32.toInt32_toUInt32 n⟩
  · intro n _
    rfl

theorem format_readU64 :
    Format (fun _ => True) (fun n : UInt64 => leBytes 8 n.toNat) readU64 := by
  refine (format_readLe 8).map (g := UInt64.toNat) ?_ ?_ ?_
  · intro v hv
    exact ⟨trivial, by rw [UInt64.toNat_ofNat']; exact Nat.mod_eq_of_lt hv⟩
  · intro n _
    exact ⟨n.toNat_lt, UInt64.ofNat_toNat⟩
  · intro n _
    rfl

theorem readWide_eq_ok_iff
    {n least : ℕ}
    (hn : 256 ^ n ≤ 2 ^ 64)
    {s rest : List UInt8}
    {v : UInt64} :
    readWide n least s = .ok v rest ↔
      (least ≤ v.toNat ∧ v.toNat < 256 ^ n) ∧ s = leBytes n v.toNat ++ rest := by
  simp only [readWide, bind_eq_ok_iff, demand_eq_ok_iff, format_readLe n _ _ _,
    pure_eq_ok_iff, decide_eq_true_eq]
  constructor
  · rintro ⟨value, t, ⟨hlt, rfl⟩, _, _, ⟨hleast, rfl⟩, rfl, rfl⟩
    have hvalue : (UInt64.ofNat value).toNat = value := by
      rw [UInt64.toNat_ofNat', Nat.mod_eq_of_lt (by omega)]
    rw [hvalue]
    exact ⟨⟨hleast, hlt⟩, rfl⟩
  · rintro ⟨⟨hleast, hlt⟩, rfl⟩
    exact ⟨v.toNat, rest, ⟨hlt, rfl⟩, (), rest, ⟨hleast, rfl⟩, UInt64.ofNat_toNat, rfl⟩

/-- A CompactSize integer; only its shortest form is read. -/
theorem format_readVarint :
    Format (fun _ => True) (fun n : UInt64 => writeVarint n.toNat) readVarint := by
  intro s v rest
  simp only [readVarint, bind_eq_ok_iff, format_readU8 _ _ _, true_and]
  have hlt : v.toNat < 2 ^ 64 := v.toNat_lt
  constructor
  · rintro ⟨first, t, rfl, h⟩
    split_ifs at h with h8 h4 h2
    · obtain ⟨⟨hleast, -⟩, rfl⟩ := (readWide_eq_ok_iff (by decide)).mp h
      rw [h8, writeVarint, if_neg (by omega), if_neg (by omega), if_neg (by omega)]
      rfl
    · obtain ⟨⟨hleast, hsmall⟩, rfl⟩ := (readWide_eq_ok_iff (by decide)).mp h
      rw [h4, writeVarint, if_neg (by omega), if_neg (by omega), if_pos (by omega)]
      rfl
    · obtain ⟨⟨hleast, hsmall⟩, rfl⟩ := (readWide_eq_ok_iff (by decide)).mp h
      rw [h2, writeVarint, if_neg (by omega), if_pos (by omega)]
      rfl
    · obtain ⟨rfl, rfl⟩ := pure_eq_ok_iff.mp h
      have hfirst : first.toNat < 0xfd := by
        rw [← UInt8.toNat_inj] at h8 h4 h2
        have hbyte := first.toNat_lt
        simp only [UInt8.reduceToNat] at h8 h4 h2
        omega
      rw [UInt8.toNat_toUInt64, writeVarint, if_pos hfirst, UInt8.ofNat_toNat]
  · rintro rfl
    unfold writeVarint
    split_ifs with hone htwo hfour
    · have hfirst : (UInt8.ofNat v.toNat).toNat = v.toNat := by
        rw [UInt8.toNat_ofNat']
        omega
      have hne : ∀ marker : UInt8, 0xfd ≤ marker.toNat → UInt8.ofNat v.toNat ≠ marker := by
        rintro marker hmarker rfl
        omega
      refine ⟨UInt8.ofNat v.toNat, rest, rfl, ?_⟩
      rw [if_neg (hne _ (by decide)), if_neg (hne _ (by decide)), if_neg (hne _ (by decide)),
        pure_eq_ok_iff]
      refine ⟨?_, rfl⟩
      rw [← UInt64.toNat_inj, UInt8.toNat_toUInt64, hfirst]
    · refine ⟨0xfd, leBytes 2 v.toNat ++ rest, rfl, ?_⟩
      rw [if_neg (by decide), if_neg (by decide), if_pos rfl]
      exact (readWide_eq_ok_iff (by decide)).mpr ⟨⟨by omega, by omega⟩, rfl⟩
    · refine ⟨0xfe, leBytes 4 v.toNat ++ rest, rfl, ?_⟩
      rw [if_neg (by decide), if_pos rfl]
      exact (readWide_eq_ok_iff (by decide)).mpr ⟨⟨by omega, by omega⟩, rfl⟩
    · refine ⟨0xff, leBytes 8 v.toNat ++ rest, rfl, ?_⟩
      rw [if_pos rfl]
      exact (readWide_eq_ok_iff (by decide)).mpr ⟨⟨by omega, by omega⟩, rfl⟩

end Numbers

section Fields

theorem format_readBytes
    (n : ℕ) :
    Format (fun bytes : List UInt8 => bytes.length = n) id (readBytes n) := by
  intro s bytes rest
  simp only [readBytes, bind_eq_ok_iff, format_readArray n _ _ _, pure_eq_ok_iff, true_and, id_eq]
  constructor
  · rintro ⟨array, _, rfl, rfl, rfl⟩
    exact ⟨array.toList_length, rfl⟩
  · rintro ⟨hlength, rfl⟩
    exact ⟨⟨bytes, hlength⟩, rest, rfl, rfl, rfl⟩

theorem format_readVarbytes :
    Format (fun bytes : List UInt8 => bytes.length < 2 ^ 64) writeVarbytes readVarbytes := by
  intro s bytes rest
  simp only [readVarbytes, bind_eq_ok_iff, format_readVarint _ _ _, format_readBytes _ _ _ _,
    true_and, id_eq]
  constructor
  · rintro ⟨n, t, rfl, hlength, rfl⟩
    rw [hlength, writeVarbytes, hlength, List.append_assoc]
    exact ⟨n.toNat_lt, rfl⟩
  · rintro ⟨hlength, rfl⟩
    have hvalue : (UInt64.ofNat bytes.length).toNat = bytes.length := by
      rw [UInt64.toNat_ofNat', Nat.mod_eq_of_lt hlength]
    refine ⟨UInt64.ofNat bytes.length, bytes ++ rest, ?_, hvalue.symm, rfl⟩
    rw [hvalue, writeVarbytes, List.append_assoc]

/-- Values one after the other. -/
theorem format_readMany
    {α : Type}
    {valid : α → Prop}
    {enc : α → List UInt8}
    {read : Reader α}
    (h : Format valid enc read)
    (n : ℕ) :
    Format (fun as : List.Vector α n => ∀ a ∈ as.toList, valid a)
      (fun as => as.toList.flatMap enc) (readMany read n) := by
  induction n with
  | zero =>
      intro s as rest
      rw [readMany, pure_eq_ok_iff]
      obtain rfl : as = List.Vector.nil := Subsingleton.elim _ _
      simp
  | succ n ih =>
      intro s as rest
      simp only [readMany, bind_eq_ok_iff, h _ _ _, ih _ _ _, pure_eq_ok_iff]
      constructor
      · rintro ⟨a, t, ⟨ha, rfl⟩, as', t', ⟨has', rfl⟩, rfl, rfl⟩
        rw [List.Vector.toList_cons, List.forall_mem_cons, List.flatMap_cons, List.append_assoc]
        exact ⟨⟨ha, has'⟩, rfl⟩
      · rintro ⟨has, rfl⟩
        rw [← List.Vector.cons_head_tail as, List.Vector.toList_cons, List.forall_mem_cons] at has
        refine ⟨as.head, as.tail.toList.flatMap enc ++ rest, ⟨has.1, ?_⟩, as.tail, rest,
          ⟨has.2, rfl⟩, List.Vector.cons_head_tail as, rfl⟩
        conv_lhs => rw [← List.Vector.cons_head_tail as]
        rw [List.Vector.toList_cons, List.flatMap_cons, List.append_assoc]

theorem format_txIn :
    Format (fun input : TxIn => input.scriptSig.length < 2 ^ 64) TxIn.serialize TxIn.read := by
  intro s input rest
  simp only [TxIn.read, bind_eq_ok_iff, format_readArray _ _ _ _, format_readU32 _ _ _,
    format_readVarbytes _ _ _, pure_eq_ok_iff, true_and]
  constructor
  · rintro ⟨txid, _, rfl, vout, _, rfl, scriptSig, _, ⟨hscript, rfl⟩, sequence, _, rfl, rfl, rfl⟩
    exact ⟨hscript, by simp only [TxIn.serialize, List.append_assoc]⟩
  · rintro ⟨hscript, rfl⟩
    simp only [TxIn.serialize, List.append_assoc]
    exact ⟨_, _, rfl, _, _, rfl, _, _, ⟨hscript, rfl⟩, _, _, rfl, rfl, rfl⟩

theorem format_txOut :
    Format (fun output : TxOut => output.scriptPubkey.length < 2 ^ 64) TxOut.serialize
      TxOut.read := by
  intro s output rest
  simp only [TxOut.read, bind_eq_ok_iff, format_readU64 _ _ _, format_readVarbytes _ _ _,
    pure_eq_ok_iff, true_and]
  constructor
  · rintro ⟨value, _, rfl, scriptPubkey, _, ⟨hscript, rfl⟩, rfl, rfl⟩
    exact ⟨hscript, by simp only [TxOut.serialize, List.append_assoc]⟩
  · rintro ⟨hscript, rfl⟩
    simp only [TxOut.serialize, List.append_assoc]
    exact ⟨_, _, rfl, _, _, ⟨hscript, rfl⟩, rfl, rfl⟩

theorem format_header :
    Format (fun _ => True) BlockHeader.serialize BlockHeader.read := by
  intro s header rest
  simp only [BlockHeader.read, bind_eq_ok_iff, format_readI32 _ _ _, format_readArray _ _ _ _,
    format_readU32 _ _ _, pure_eq_ok_iff, true_and]
  constructor
  · rintro ⟨version, _, rfl, prevBlock, _, rfl, merkleRoot, _, rfl, time, _, rfl, bits, _, rfl,
      nonce, _, rfl, rfl, rfl⟩
    simp only [BlockHeader.serialize, List.append_assoc]
  · rintro rfl
    simp only [BlockHeader.serialize, List.append_assoc]
    exact ⟨_, _, rfl, _, _, rfl, _, _, rfl, _, _, rfl, _, _, rfl, _, _, rfl, rfl, rfl⟩

end Fields

section Transactions

/-- The witness format: marker and flag, and the stacks behind the outputs. -/
def Transaction.serializeSegwit (tx : Transaction) : List UInt8 :=
  leBytes 4 tx.version.toUInt32.toNat ++ [0x00, 0x01] ++
    (writeVarint tx.inputs.length ++ tx.inputs.flatMap TxIn.serialize) ++
    (writeVarint tx.outputs.length ++ tx.outputs.flatMap TxOut.serialize) ++
    tx.witnesses.flatMap serializeWitness ++
    leBytes 4 tx.lockTime.toNat

/-- A transaction without stacks and with inputs has the legacy format. -/
def Transaction.isLegacy (tx : Transaction) : Bool :=
  tx.witnesses.isEmpty && !tx.inputs.isEmpty

/-- A transaction on the wire, in its format. -/
def Transaction.wire (tx : Transaction) : List UInt8 :=
  if tx.isLegacy then tx.serializeLegacy else tx.serializeSegwit

/-- What any transaction on the wire is like: lengths that fit, and a stack for each input. -/
structure Transaction.Encodable (tx : Transaction) : Prop extends tx.Sized where
  shape : tx.isLegacy = true ∨ tx.witnesses.length = tx.inputs.length
  items : ∀ stack ∈ tx.witnesses, stack.length < 2 ^ 64 ∧ ∀ item ∈ stack, item.length < 2 ^ 64

/-- Counts within the limits of the parser, where a legacy input count has its own. -/
structure Transaction.Bounded (limit : ℕ) (tx : Transaction) : Prop where
  legacy : tx.isLegacy = true → tx.inputs.length ≤ limit
  inputs : tx.inputs.length ≤ maxTxItems
  outputs : tx.outputs.length ≤ maxTxItems
  witnesses : ∀ stack ∈ tx.witnesses, stack.length ≤ maxWitnessItems

/-- Behind the version, something that tells format and number of the inputs. -/
def Transaction.encodeWith (head : List UInt8) (tx : Transaction) : List UInt8 :=
  leBytes 4 tx.version.toUInt32.toNat ++ head ++ tx.inputs.flatMap TxIn.serialize ++
    writeVarint tx.outputs.length ++ tx.outputs.flatMap TxOut.serialize ++
    tx.witnesses.flatMap serializeWitness ++ leBytes 4 tx.lockTime.toNat

/-- The input count as it is read: a single byte in the legacy format. -/
def Transaction.headAsRead (tx : Transaction) : List UInt8 :=
  if tx.isLegacy then
    [UInt8.ofNat tx.inputs.length]
  else
    [0x00, 0x01] ++ writeVarint tx.inputs.length

def Transaction.head (tx : Transaction) : List UInt8 :=
  if tx.isLegacy then
    writeVarint tx.inputs.length
  else
    [0x00, 0x01] ++ writeVarint tx.inputs.length

variable {tx : Transaction}

theorem Transaction.witnesses_of_isLegacy
    (h : tx.isLegacy = true) :
    tx.witnesses = [] := by
  rw [isLegacy, Bool.and_eq_true, List.isEmpty_iff] at h
  exact h.1

theorem Transaction.wire_eq
    (tx : Transaction) :
    tx.wire = tx.encodeWith tx.head := by
  unfold wire head encodeWith
  split_ifs with hlegacy
  · simp [serializeLegacy, witnesses_of_isLegacy hlegacy]
  · simp [serializeSegwit]

theorem format_readWitness :
    Format
      (fun stack => stack.length ≤ maxWitnessItems ∧ ∀ item ∈ stack, item.length < 2 ^ 64)
      serializeWitness readWitness := by
  intro s stack rest
  simp only [readWitness, bind_eq_ok_iff, format_readVarint _ _ _, demand_eq_ok_iff,
    format_readMany format_readVarbytes _ _ _ _, pure_eq_ok_iff, decide_eq_true_eq, true_and]
  constructor
  · rintro ⟨count, _, rfl, _, _, ⟨hcount, rfl⟩, items, _, ⟨hitems, rfl⟩, rfl, rfl⟩
    refine ⟨⟨by rwa [List.Vector.toList_length], hitems⟩, ?_⟩
    rw [serializeWitness, List.Vector.toList_length, List.append_assoc]
  · rintro ⟨⟨hcount, hitems⟩, rfl⟩
    have hvalue : (UInt64.ofNat stack.length).toNat = stack.length := by
      rw [UInt64.toNat_ofNat', Nat.mod_eq_of_lt (lt_of_le_of_lt hcount (by decide))]
    refine ⟨UInt64.ofNat stack.length, stack.flatMap writeVarbytes ++ rest, ?_, (), _,
      ⟨by rwa [hvalue], rfl⟩, ⟨stack, hvalue.symm⟩, rest, ⟨hitems, rfl⟩, rfl, rfl⟩
    rw [serializeWitness, hvalue, List.append_assoc]

theorem readInputCount_eq_ok_iff
    {s rest : List UInt8}
    {segwit : Bool}
    {count : UInt64} :
    readInputCount s = .ok (segwit, count) rest ↔
      (segwit = true ∧ s = [0x00, 0x01] ++ writeVarint count.toNat ++ rest) ∨
        (segwit = false ∧ ∃ first : UInt8, first ≠ 0 ∧ count = first.toUInt64 ∧
          s = first :: rest) := by
  simp only [readInputCount, bind_eq_ok_iff, format_readU8 _ _ _, true_and]
  constructor
  · rintro ⟨first, t, rfl, h⟩
    split_ifs at h with hzero
    · simp only [bind_eq_ok_iff, format_readU8 _ _ _, demand_eq_ok_iff, format_readVarint _ _ _,
        pure_eq_ok_iff, decide_eq_true_eq, true_and, Prod.mk.injEq] at h
      obtain ⟨flag, _, rfl, _, _, ⟨rfl, rfl⟩, _, _, rfl, ⟨rfl, rfl⟩, rfl⟩ := h
      exact Or.inl ⟨rfl, by simp [hzero]⟩
    · simp only [pure_eq_ok_iff, Prod.mk.injEq] at h
      obtain ⟨⟨rfl, rfl⟩, rfl⟩ := h
      exact Or.inr ⟨rfl, first, hzero, rfl, rfl⟩
  · rintro (⟨rfl, rfl⟩ | ⟨rfl, first, hne, rfl, rfl⟩)
    · refine ⟨0x00, [0x01] ++ writeVarint count.toNat ++ rest, rfl, ?_⟩
      rw [if_pos rfl]
      simp only [bind_eq_ok_iff, format_readU8 _ _ _, demand_eq_ok_iff, format_readVarint _ _ _,
        pure_eq_ok_iff, decide_eq_true_eq, true_and]
      exact ⟨0x01, writeVarint count.toNat ++ rest, rfl, (), _, ⟨rfl, rfl⟩, count, rest, rfl,
        rfl, rfl⟩
    · refine ⟨first, rest, rfl, ?_⟩
      rw [if_neg hne, pure_eq_ok_iff]
      exact ⟨rfl, rfl⟩

theorem readWitnesses_eq_ok_iff
    {s rest : List UInt8}
    {segwit : Bool}
    {inputCount : ℕ}
    {witnesses : List (List (List UInt8))} :
    readWitnesses segwit inputCount s = .ok witnesses rest ↔
      witnesses.length = (if segwit then inputCount else 0) ∧
        (∀ stack ∈ witnesses, stack.length ≤ maxWitnessItems ∧
          ∀ item ∈ stack, item.length < 2 ^ 64) ∧
        s = witnesses.flatMap serializeWitness ++ rest := by
  cases segwit with
  | false =>
      rw [readWitnesses, if_neg (by decide), pure_eq_ok_iff, if_neg (by decide),
        List.length_eq_zero_iff]
      constructor
      · rintro ⟨rfl, rfl⟩
        simp
      · rintro ⟨rfl, -, rfl⟩
        simp
  | true =>
      simp only [readWitnesses, if_true, bind_eq_ok_iff, pure_eq_ok_iff,
        format_readMany format_readWitness _ _ _ _]
      constructor
      · rintro ⟨stacks', _, ⟨hstacks, rfl⟩, rfl, rfl⟩
        exact ⟨stacks'.toList_length, hstacks, rfl⟩
      · rintro ⟨hlength, hstacks, rfl⟩
        exact ⟨⟨witnesses, hlength⟩, rest, ⟨hstacks, rfl⟩, rfl, rfl⟩

theorem Transaction.isLegacy_eq_false_of_length
    (h : tx.witnesses.length = tx.inputs.length) :
    tx.isLegacy = false := by
  unfold isLegacy
  rcases hinputs : tx.inputs with _ | ⟨input, inputs⟩
  · simp
  · rw [hinputs] at h
    rcases hwitnesses : tx.witnesses with _ | ⟨stack, witnesses⟩
    · rw [hwitnesses] at h
      cases h
    · rfl

/-- The bytes a transaction is read from. -/
theorem format_transaction :
    Format (fun tx => tx.Encodable ∧ tx.Bounded 255) (fun tx => tx.encodeWith tx.headAsRead)
      Transaction.read := by
  intro s tx rest
  simp only [Transaction.read, bind_eq_ok_iff, format_readI32 _ _ _, Prod.exists,
    readInputCount_eq_ok_iff, demand_eq_ok_iff, format_readMany format_txIn _ _ _ _,
    format_readVarint _ _ _, format_readMany format_txOut _ _ _ _, readWitnesses_eq_ok_iff,
    format_readU32 _ _ _, pure_eq_ok_iff, decide_eq_true_eq, true_and]
  constructor
  · rintro ⟨version, _, rfl, segwit, inputCount, t, hhead, _, _, ⟨hinputCount, rfl⟩, inputs, _,
      ⟨hinputs, rfl⟩, outputCount, _, rfl, _, _, ⟨houtputCount, rfl⟩, outputs, _,
      ⟨houtputs, rfl⟩, witnesses, _, ⟨hlength, hwitnesses, rfl⟩, lockTime, _, rfl, rfl, rfl⟩
    have hinputLength : inputs.toList.length = inputCount.toNat := inputs.toList_length
    have houtputLength : outputs.toList.length = outputCount.toNat := outputs.toList_length
    have hsized : (⟨version, inputs.toList, outputs.toList, lockTime, witnesses⟩ :
        Transaction).Sized :=
      ⟨lt_of_eq_of_lt hinputLength inputCount.toNat_lt,
        lt_of_eq_of_lt houtputLength outputCount.toNat_lt, hinputs, houtputs⟩
    have hitems : ∀ stack ∈ witnesses, stack.length < 2 ^ 64 ∧ ∀ item ∈ stack,
        item.length < 2 ^ 64 :=
      fun stack hstack =>
        ⟨lt_of_le_of_lt (hwitnesses stack hstack).1 (by decide), (hwitnesses stack hstack).2⟩
    rcases hhead with ⟨rfl, rfl⟩ | ⟨rfl, first, hne, rfl, rfl⟩
    · rw [if_pos rfl, ← hinputLength] at hlength
      have hlegacy := @Transaction.isLegacy_eq_false_of_length
        ⟨version, inputs.toList, outputs.toList, lockTime, witnesses⟩ hlength
      refine ⟨⟨⟨hsized, Or.inr hlength, hitems⟩,
        { legacy := fun h => by rw [hlegacy] at h; cases h
          inputs := by rwa [hinputLength]
          outputs := by rwa [houtputLength]
          witnesses := fun stack hstack => (hwitnesses stack hstack).1 }⟩, ?_⟩
      rw [Transaction.headAsRead, hlegacy, if_neg (by decide), hinputLength]
      simp only [Transaction.encodeWith, houtputLength, List.append_assoc]
    · rw [if_neg (by decide), List.length_eq_zero_iff] at hlength
      have hcount : inputs.toList.length = first.toNat := by
        rw [hinputLength, UInt8.toNat_toUInt64]
      have hlegacy : (⟨version, inputs.toList, outputs.toList, lockTime, witnesses⟩ :
          Transaction).isLegacy = true := by
        rw [Transaction.isLegacy, hlength, Bool.and_eq_true, Bool.not_eq_true',
          List.isEmpty_eq_false_iff]
        refine ⟨rfl, fun (hempty : inputs.toList = []) => hne ?_⟩
        rw [hempty] at hcount
        exact UInt8.toNat_inj.mp hcount.symm
      have hbyte := first.toNat_lt
      refine ⟨⟨⟨hsized, Or.inl hlegacy, hitems⟩,
        { legacy := fun _ => by rw [hcount]; omega
          inputs := by rwa [hinputLength]
          outputs := by rwa [houtputLength]
          witnesses := fun stack hstack => (hwitnesses stack hstack).1 }⟩, ?_⟩
      rw [Transaction.headAsRead, hlegacy, if_pos rfl, hcount, UInt8.ofNat_toNat]
      simp only [Transaction.encodeWith, houtputLength, List.append_assoc, List.cons_append,
        List.nil_append]
  · rintro ⟨⟨hencodable, hbounded⟩, rfl⟩
    have hinputCount : (UInt64.ofNat tx.inputs.length).toNat = tx.inputs.length := by
      rw [UInt64.toNat_ofNat', Nat.mod_eq_of_lt hencodable.inputs]
    have houtputCount : (UInt64.ofNat tx.outputs.length).toNat = tx.outputs.length := by
      rw [UInt64.toNat_ofNat', Nat.mod_eq_of_lt hencodable.outputs]
    have hlength : tx.witnesses.length = if !tx.isLegacy then tx.inputs.length else 0 := by
      rcases hencodable.shape with hlegacy | hlength
      · rw [hlegacy, Transaction.witnesses_of_isLegacy hlegacy]
        rfl
      · rw [Transaction.isLegacy_eq_false_of_length hlength, hlength]
        rfl
    set outputBytes := writeVarint (UInt64.ofNat tx.outputs.length).toNat ++
      (tx.outputs.flatMap TxOut.serialize ++ (tx.witnesses.flatMap serializeWitness ++
        (leBytes 4 tx.lockTime.toNat ++ rest))) with houtputBytes
    have hbytes : tx.encodeWith tx.headAsRead ++ rest = leBytes 4 tx.version.toUInt32.toNat ++
        (tx.headAsRead ++ (tx.inputs.flatMap TxIn.serialize ++ outputBytes)) := by
      simp only [Transaction.encodeWith, houtputBytes, houtputCount, List.append_assoc]
    refine ⟨tx.version, _, hbytes, !tx.isLegacy, UInt64.ofNat tx.inputs.length,
      tx.inputs.flatMap TxIn.serialize ++ outputBytes, ?_, (), _,
      ⟨by rw [hinputCount]; exact hbounded.inputs, rfl⟩, ⟨tx.inputs, hinputCount.symm⟩,
      outputBytes, ⟨hencodable.scriptSig, rfl⟩, UInt64.ofNat tx.outputs.length, _, rfl, (), _,
      ⟨by rw [houtputCount]; exact hbounded.outputs, rfl⟩, ⟨tx.outputs, houtputCount.symm⟩, _,
      ⟨hencodable.scriptPubkey, rfl⟩, tx.witnesses, _, ⟨?_, ?_, rfl⟩, tx.lockTime, rest, rfl, rfl,
      rfl⟩
    · unfold Transaction.headAsRead
      by_cases hlegacy : tx.isLegacy = true
      · have hcount := hbounded.legacy hlegacy
        have hbyte : (UInt8.ofNat tx.inputs.length).toNat = tx.inputs.length := by
          rw [UInt8.toNat_ofNat']
          omega
        refine Or.inr ⟨by rw [hlegacy]; rfl, UInt8.ofNat tx.inputs.length, ?_, ?_, ?_⟩
        · intro hzero
          rw [hzero] at hbyte
          rw [Transaction.isLegacy, Bool.and_eq_true, Bool.not_eq_true', List.isEmpty_eq_false_iff]
            at hlegacy
          exact hlegacy.2 (List.length_eq_zero_iff.mp hbyte.symm)
        · rw [← UInt64.toNat_inj, UInt8.toNat_toUInt64, hinputCount, hbyte]
        · rw [if_pos hlegacy, List.singleton_append]
      · rw [Bool.not_eq_true] at hlegacy
        refine Or.inl ⟨by rw [hlegacy]; rfl, ?_⟩
        rw [hlegacy, if_neg (by decide), hinputCount]
    · rw [hinputCount, hlength]
    · intro stack hstack
      exact ⟨hbounded.witnesses stack hstack, (hencodable.items stack hstack).2⟩

end Transactions

section Counts

variable {tx : Transaction}

theorem writeVarint_length_pos
    (n : ℕ) :
    0 < (writeVarint n).length := by
  unfold writeVarint
  split_ifs <;> simp

/-- Only a count below 253 takes a single byte. -/
theorem writeVarint_length_eq_one_iff
    {n : ℕ} :
    (writeVarint n).length = 1 ↔ n ≤ 252 := by
  unfold writeVarint
  split_ifs <;> simp <;> omega

theorem Transaction.encodeWith_length
    (head : List UInt8)
    (tx : Transaction) :
    (tx.encodeWith head).length = head.length + (tx.encodeWith []).length := by
  simp only [encodeWith, List.length_append, List.length_nil]
  omega

/-- What is read of the input count is never longer than what is written. -/
theorem Transaction.headAsRead_length_le
    (tx : Transaction) :
    tx.headAsRead.length ≤ tx.head.length := by
  unfold headAsRead head
  split_ifs
  · exact writeVarint_length_pos tx.inputs.length
  · rfl

/-- Both have the same length, and are the same, up to 252 inputs. -/
theorem Transaction.headAsRead_length_eq_iff
    (tx : Transaction) :
    tx.headAsRead.length = tx.head.length ↔ (tx.isLegacy = true → tx.inputs.length ≤ 252) := by
  unfold headAsRead head
  split_ifs with hlegacy
  · rw [List.length_singleton, eq_comm, writeVarint_length_eq_one_iff]
    simp [hlegacy]
  · simp [hlegacy]

theorem Transaction.headAsRead_eq_head
    (h : tx.isLegacy = true → tx.inputs.length ≤ 252) :
    tx.headAsRead = tx.head := by
  unfold headAsRead head
  split_ifs with hlegacy
  · have hcount := h hlegacy
    rw [writeVarint, if_pos (by omega)]
  · rfl

/-- A larger limit admits more. -/
theorem Transaction.Bounded.mono
    {limit limit' : ℕ}
    (h : tx.Bounded limit)
    (hle : limit ≤ limit') :
    tx.Bounded limit' :=
  { h with legacy := fun hlegacy => (h.legacy hlegacy).trans hle }

/-- Up to 252 legacy inputs a transaction is read from what it is written as. -/
theorem Transaction.Encodable.decodes
    (h : tx.Encodable)
    (hbounded : tx.Bounded 252) :
    Decodes Transaction.read tx.wire tx := by
  have hdecodes := format_transaction.decodes (a := tx) ⟨h, hbounded.mono (by decide)⟩
  rwa [Transaction.headAsRead_eq_head hbounded.legacy, ← Transaction.wire_eq] at hdecodes

theorem delimits_serializeWitness :
    Delimits
      (fun stack : List (List UInt8) =>
        stack.length < 2 ^ 64 ∧ ∀ item ∈ stack, item.length < 2 ^ 64)
      serializeWitness :=
  delimits_writeVarint.counted delimits_writeVarbytes

/-- Where the legacy parts agree, the witness format tells the stacks. -/
theorem Transaction.Encodable.eq_of_serializeSegwit
    {tx' : Transaction}
    (h : tx.Encodable)
    (h' : tx'.Encodable)
    (hshape : tx.witnesses.length = tx.inputs.length)
    (hshape' : tx'.witnesses.length = tx'.inputs.length)
    (hstripped : tx'.stripped = tx.stripped)
    (heq : tx.serializeSegwit = tx'.serializeSegwit) :
    tx' = tx := by
  obtain ⟨version, inputs, outputs, lockTime, witnesses⟩ := tx
  obtain ⟨version', inputs', outputs', lockTime', witnesses'⟩ := tx'
  obtain ⟨rfl, rfl, rfl, rfl, -⟩ := Transaction.mk.inj hstripped
  simp only [serializeSegwit, List.append_assoc] at heq
  have hwitnesses := List.append_cancel_left (List.append_cancel_left (List.append_cancel_left
    (List.append_cancel_left (List.append_cancel_left (List.append_cancel_left heq)))))
  obtain ⟨hsame, -⟩ := delimits_serializeWitness.flatMap _ _ _ ⟨hshape, h.items⟩
    ⟨hshape', h'.items⟩ _ _ hwitnesses
  exact congrArg (Transaction.mk version' inputs' outputs' lockTime') hsame.symm

end Counts

section RoundTrip

variable {tx : Transaction}

/--
A transaction is read back from its bytes, whatever follows them: the legacy part and the
preimage of the id are those it was written with, and in the legacy format the whole
transaction and its bytes are.
-/
def Transaction.RoundTrips (tx : Transaction) : Prop :=
  ∀ rest, ∃ parsed, Transaction.read (tx.wire ++ rest) = .ok parsed rest ∧
    parsed.stripped = tx.stripped ∧
    parsed.serializeLegacy = tx.stripped.serializeLegacy ∧
    (tx.isLegacy = true → parsed = tx ∧ parsed.serializeLegacy = tx.wire)

theorem Transaction.roundTrips_of_bounded
    (h : tx.Encodable)
    (hbounded : tx.Bounded 252) :
    tx.RoundTrips := by
  intro rest
  refine ⟨tx, h.decodes hbounded rest, rfl, rfl, ?_⟩
  intro hlegacy
  refine ⟨rfl, ?_⟩
  rw [Transaction.wire, if_pos hlegacy]

/-- A transaction that is read back is what the parser makes of its bytes. -/
theorem Transaction.RoundTrips.parsed
    (h : tx.RoundTrips) :
    ∃ parsed, (parsed.Encodable ∧ parsed.Bounded 255) ∧
      tx.wire = parsed.encodeWith parsed.headAsRead ∧ parsed.stripped = tx.stripped ∧
      (tx.isLegacy = true → parsed = tx) := by
  obtain ⟨parsed, hread, hstripped, -, hlegacy⟩ := h []
  obtain ⟨hadmitted, hwire⟩ := (format_transaction _ _ _).mp hread
  rw [List.append_nil, List.append_nil] at hwire
  exact ⟨parsed, hadmitted, hwire, hstripped, fun h => (hlegacy h).1⟩

/-- The marker of the witness format is no input count that was read. -/
theorem Transaction.isLegacy_eq_false_of_wire
    {parsed : Transaction}
    (hlegacy : tx.isLegacy = false)
    (hbounded : parsed.Bounded 255)
    (heq : tx.wire = parsed.encodeWith parsed.headAsRead) :
    parsed.isLegacy = false := by
  by_contra hparsed
  rw [Bool.not_eq_false] at hparsed
  have hcount := hbounded.legacy hparsed
  simp only [wire_eq, encodeWith, head, headAsRead, hlegacy, hparsed, List.append_assoc,
    Bool.false_eq_true, if_false, if_true, List.cons_append, List.nil_append] at heq
  obtain ⟨-, hhead⟩ := delimits_i32 _ _ trivial trivial _ _ heq
  obtain ⟨hzero, -⟩ := List.cons.inj hhead
  have hvalue : parsed.inputs.length = 0 := by
    have hbyte := congrArg UInt8.toNat hzero
    rw [UInt8.toNat_ofNat'] at hbyte
    simp only [UInt8.toNat_zero] at hbyte
    omega
  rw [isLegacy, List.length_eq_zero_iff.mp hvalue] at hparsed
  simp at hparsed

/-- Which transactions are read back. -/
theorem Transaction.roundTrips_iff
    (h : tx.Encodable) :
    tx.RoundTrips ↔ tx.Bounded 252 := by
  refine ⟨?_, roundTrips_of_bounded h⟩
  intro hround
  obtain ⟨parsed, ⟨hencodable, hbounded⟩, hwire, hstripped, hsame⟩ := hround.parsed
  by_cases hlegacy : tx.isLegacy = true
  · obtain rfl := hsame hlegacy
    refine { hbounded with legacy := (headAsRead_length_eq_iff parsed).mp ?_ }
    have hlength := congrArg List.length hwire
    rw [wire_eq, encodeWith_length, encodeWith_length parsed.headAsRead] at hlength
    omega
  · rw [Bool.not_eq_true] at hlegacy
    have hparsed := isLegacy_eq_false_of_wire hlegacy hbounded hwire
    have hshape : tx.witnesses.length = tx.inputs.length :=
      h.shape.resolve_left (by rw [hlegacy]; decide)
    have hshape' : parsed.witnesses.length = parsed.inputs.length :=
      hencodable.shape.resolve_left (by rw [hparsed]; decide)
    have hcounts : ∀ limit, parsed.Bounded limit → parsed.Bounded 252 := fun _ hlimit =>
      { hlimit with legacy := fun h => by rw [hparsed] at h; cases h }
    rw [headAsRead_eq_head (fun h => by rw [hparsed] at h; cases h), ← wire_eq, wire, wire,
      hlegacy, hparsed] at hwire
    rw [← h.eq_of_serializeSegwit hencodable hshape hshape' hstripped hwire]
    exact hcounts 255 hbounded

/-- A block on the wire: the header, the number of transactions, and these. -/
def blockWire (header : BlockHeader) (txs : List Transaction) : List UInt8 :=
  header.serialize ++ (writeVarint txs.length ++ txs.flatMap Transaction.wire)

/-- The bytes a block is read from. -/
theorem parse_eq_ok_iff
    {bytes : List UInt8}
    {block : Block} :
    Block.parse bytes = .ok block ↔
      (∀ tx ∈ block.txs, tx.Encodable ∧ tx.Bounded 255) ∧
        bytes = block.header.serialize ++ (writeVarint block.txs.length ++
          block.txs.flatMap (fun tx => tx.encodeWith tx.headAsRead)) := by
  unfold Block.parse Block.read
  simp only [answer_eq_ok_iff, bind_eq_ok_iff, format_header _ _ _, format_readVarint _ _ _,
    true_and]
  constructor
  · rintro ⟨_, header, _, rfl, txCount, _, rfl, h⟩
    split_ifs at h with hcount
    · simp only [bind_eq_ok_iff, format_readMany format_transaction _ _ _ _, get_eq_ok_iff,
        demand_eq_ok_iff, pure_eq_ok_iff, List.isEmpty_iff] at h
      obtain ⟨txs, _, ⟨htxs, rfl⟩, _, _, ⟨rfl, rfl⟩, _, _, ⟨rfl, -⟩, rfl, -⟩ := h
      refine ⟨htxs, ?_⟩
      rw [List.append_nil, List.Vector.toList_length]
    · exact (throw_eq_ok_iff.mp h).elim
  · rintro ⟨htxs, rfl⟩
    have hcount : (UInt64.ofNat block.txs.length).toNat = block.txs.length := by
      rw [UInt64.toNat_ofNat', Nat.mod_eq_of_lt (lt_of_le_of_lt block.txs_le (by decide))]
    refine ⟨[], block.header, _, rfl, UInt64.ofNat block.txs.length,
      block.txs.flatMap (fun tx => tx.encodeWith tx.headAsRead), by rw [hcount], ?_⟩
    split_ifs with hle
    · simp only [bind_eq_ok_iff, format_readMany format_transaction _ _ _ _, get_eq_ok_iff,
        demand_eq_ok_iff, pure_eq_ok_iff, List.isEmpty_iff]
      exact ⟨⟨block.txs, hcount.symm⟩, [], ⟨htxs, (List.append_nil _).symm⟩, [], [], ⟨rfl, rfl⟩,
        (), [], ⟨rfl, rfl⟩, rfl, rfl⟩
    · exact (hle (le_of_eq_of_le hcount block.txs_le)).elim

/-- A block of transactions that are read back is read back. -/
theorem parse_blockWire
    (header : BlockHeader)
    {txs : List Transaction}
    (h : ∀ tx ∈ txs, tx.Encodable ∧ tx.Bounded 252)
    (hle : txs.length ≤ maxBlockTxs) :
    Block.parse (blockWire header txs) = .ok ⟨header, txs, hle⟩ := by
  refine parse_eq_ok_iff.mpr ⟨fun tx htx => ⟨(h tx htx).1, (h tx htx).2.mono (by decide)⟩, ?_⟩
  rw [blockWire]
  congr 2
  refine List.flatMap_congr ?_
  intro tx htx
  rw [Transaction.wire_eq, Transaction.headAsRead_eq_head (h tx htx).2.legacy]

/-- Strings that are together as long as others, each at most as long, are as long each. -/
theorem length_eq_of_flatMap
    {α : Type}
    {f g : α → List UInt8}
    {as : List α}
    (hle : ∀ a ∈ as, (f a).length ≤ (g a).length)
    (h : (as.flatMap f).length = (as.flatMap g).length) :
    ∀ a ∈ as, (f a).length = (g a).length := by
  rw [List.length_flatMap, List.length_flatMap] at h
  induction as with
  | nil =>
      simp
  | cons a as ih =>
      rw [List.map_cons, List.map_cons, List.sum_cons, List.sum_cons] at h
      have hfirst := hle a List.mem_cons_self
      have hrest : (as.map (fun a => (f a).length)).sum ≤ (as.map (fun a => (g a).length)).sum :=
        List.sum_le_sum (fun b hb => hle b (List.mem_cons_of_mem a hb))
      intro b hb
      rcases List.mem_cons.mp hb with rfl | hb
      · omega
      · exact ih (fun c hc => hle c (List.mem_cons_of_mem a hc)) (by omega) b hb

/--
Transactions are read back from their bytes, and blocks from theirs, exactly as long as
the legacy ones have at most 252 inputs and the counts are within the parser's limits.
-/
theorem parse_roundTrips_iff
    (tx : Transaction)
    (header : BlockHeader)
    (txs : List Transaction) :
    (tx.Encodable → (tx.RoundTrips ↔ tx.Bounded 252)) ∧
      ((∀ tx ∈ txs, tx.Encodable) →
        ((∃ block, Block.parse (blockWire header txs) = .ok block ∧ block.header = header ∧
            block.txs = txs) ↔
          (∀ tx ∈ txs, tx.Bounded 252) ∧ txs.length ≤ maxBlockTxs)) := by
  refine ⟨fun h => Transaction.roundTrips_iff h, ?_⟩
  intro hencodable
  constructor
  · rintro ⟨⟨header', txs', hle⟩, hparse, rfl, rfl⟩
    obtain ⟨hadmitted, hbytes⟩ := parse_eq_ok_iff.mp hparse
    refine ⟨?_, hle⟩
    have hflat := List.append_cancel_left (List.append_cancel_left hbytes)
    have hlengths := @length_eq_of_flatMap _ (fun tx => tx.encodeWith tx.headAsRead)
      Transaction.wire txs' ?_ (congrArg List.length hflat.symm)
    · intro tx htx
      have hlength := hlengths tx htx
      rw [Transaction.wire_eq, Transaction.encodeWith_length,
        Transaction.encodeWith_length tx.head] at hlength
      exact { (hadmitted tx htx).2 with
        legacy := (Transaction.headAsRead_length_eq_iff tx).mp (by omega) }
    · intro tx _
      have hle := tx.headAsRead_length_le
      rw [Transaction.wire_eq, Transaction.encodeWith_length, Transaction.encodeWith_length tx.head]
      omega
  · rintro ⟨hbounded, hle⟩
    exact ⟨⟨header, txs, hle⟩,
      parse_blockWire header (fun tx htx => ⟨hencodable tx htx, hbounded tx htx⟩) hle, rfl, rfl⟩

end RoundTrip

namespace RoundTripSample

def input : TxIn := ⟨⟨Bytes.zero 32, 0⟩, [], 0xffffffff⟩

/-- A transaction with some number of inputs. -/
def txOf (n : ℕ) : Transaction where
  version := 2
  inputs := List.replicate n input
  outputs := [⟨1000, [0x51]⟩]
  lockTime := 0
  witnesses := []

def header : BlockHeader := ⟨1, Bytes.zero 32, Bytes.zero 32, 0, 0, 0⟩

theorem txOf_isLegacy
    {n : ℕ}
    (h : 0 < n) :
    (txOf n).isLegacy = true := by
  simp [Transaction.isLegacy, txOf]
  omega

theorem txOf_encodable
    {n : ℕ}
    (h : 0 < n)
    (hn : n < 2 ^ 64) :
    (txOf n).Encodable where
  inputs := by simpa [txOf] using hn
  outputs := by simp [txOf]
  scriptSig := by
    intro i hi
    rw [List.eq_of_mem_replicate hi]
    decide
  scriptPubkey := by simp [txOf]
  shape := Or.inl (txOf_isLegacy h)
  items := by simp [txOf]

theorem txOf_bounded
    {n : ℕ}
    (hn : n ≤ 252) :
    (txOf n).Bounded 252 where
  legacy := fun _ => by simpa [txOf] using hn
  inputs := by
    rw [txOf, List.length_replicate]
    exact hn.trans (by decide)
  outputs := by
    simp only [txOf, List.length_singleton]
    decide
  witnesses := by simp [txOf]

end RoundTripSample

open RoundTripSample

/-- 253 inputs: the first byte of their number is taken for the number. -/
theorem not_every_legacy_roundTrips :
    ¬ ∀ tx : Transaction, tx.Encodable → tx.isLegacy = true → tx.RoundTrips := by
  intro h
  have hencodable := txOf_encodable (n := 253) (by decide) (by decide)
  have hlegacy := txOf_isLegacy (n := 253) (by decide)
  have hcount := ((Transaction.roundTrips_iff hencodable).mp
    (h (txOf 253) hencodable hlegacy)).legacy hlegacy
  rw [txOf, List.length_replicate] at hcount
  exact absurd hcount (by decide)

theorem parse_roundTrips_two :
    (txOf 1).RoundTrips ∧
      ∃ block, Block.parse (blockWire header [txOf 1, txOf 2]) = .ok block ∧
        block.header = header ∧ block.txs = [txOf 1, txOf 2] := by
  obtain ⟨hone, hblock⟩ := parse_roundTrips_iff (txOf 1) header [txOf 1, txOf 2]
  refine ⟨(hone (txOf_encodable (by decide) (by decide))).mpr (txOf_bounded (by decide)),
    (hblock ?_).mpr ⟨?_, ?_⟩⟩
  · intro tx htx
    simp only [List.mem_cons, List.not_mem_nil, or_false] at htx
    rcases htx with rfl | rfl
    · exact txOf_encodable (by decide) (by decide)
    · exact txOf_encodable (by decide) (by decide)
  · intro tx htx
    simp only [List.mem_cons, List.not_mem_nil, or_false] at htx
    rcases htx with rfl | rfl
    · exact txOf_bounded (by decide)
    · exact txOf_bounded (by decide)
  · decide

end OpenCsv
