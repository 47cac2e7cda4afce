import OpenCsv.Core.Batch

/-!
# Blocks and transactions

Transactions, their identifiers and Merkle roots, as far as the scanner reads
them.  SHA-256 is a parameter: everything the scanner computes from it is a
double hash or, for the transaction context, a single one.

A parsed block holds at most a million transactions, so the position of a
transaction fits the 32-bit field it is stored in.
-/

namespace OpenCsv

/-- `SHA-256`. -/
abbrev Sha256 := List UInt8 → Bytes 32

/-- `SHA256(SHA256(x))`. -/
def Sha256.double (sha256 : Sha256) (data : List UInt8) : Bytes 32 :=
  sha256 (sha256 data).toList

structure OutPoint where
  txid : Bytes 32
  vout : UInt32
deriving DecidableEq

structure TxIn where
  prev : OutPoint
  scriptSig : List UInt8
  sequence : UInt32
deriving DecidableEq

structure TxOut where
  value : UInt64
  scriptPubkey : List UInt8
deriving DecidableEq

/-- A transaction; the witness stacks are outside the transaction id. -/
structure Transaction where
  version : Int32
  inputs : List TxIn
  outputs : List TxOut
  lockTime : UInt32
  witnesses : List (List (List UInt8))
deriving DecidableEq

/-- A block header. -/
structure BlockHeader where
  version : Int32
  prevBlock : Bytes 32
  merkleRoot : Bytes 32
  time : UInt32
  bits : UInt32
  nonce : UInt32
deriving DecidableEq

/-- The largest transaction count the block parser takes. -/
def maxBlockTxs : ℕ := 1000000

/-- A parsed block. -/
structure Block where
  header : BlockHeader
  txs : List Transaction
  txs_le : txs.length ≤ maxBlockTxs

section Encoding

/-- A CompactSize integer. -/
def writeVarint (n : ℕ) : List UInt8 :=
  if n < 0xfd then
    [UInt8.ofNat n]
  else if n ≤ 0xffff then
    0xfd :: leBytes 2 n
  else if n ≤ 0xffffffff then
    0xfe :: leBytes 4 n
  else
    0xff :: leBytes 8 n

/-- A CompactSize-prefixed byte string. -/
def writeVarbytes (bytes : List UInt8) : List UInt8 :=
  writeVarint bytes.length ++ bytes

def TxIn.serialize (input : TxIn) : List UInt8 :=
  input.prev.txid.toList ++ leBytes 4 input.prev.vout.toNat ++
    writeVarbytes input.scriptSig ++ leBytes 4 input.sequence.toNat

def TxOut.serialize (output : TxOut) : List UInt8 :=
  leBytes 8 output.value.toNat ++ writeVarbytes output.scriptPubkey

/-- The encoding without witness data, which transaction ids commit to. -/
def Transaction.serializeLegacy (tx : Transaction) : List UInt8 :=
  leBytes 4 tx.version.toUInt32.toNat ++
    (writeVarint tx.inputs.length ++ tx.inputs.flatMap TxIn.serialize) ++
    (writeVarint tx.outputs.length ++ tx.outputs.flatMap TxOut.serialize) ++
    leBytes 4 tx.lockTime.toNat

/-- The transaction id, in internal byte order. -/
def Transaction.txid (sha256 : Sha256) (tx : Transaction) : Bytes 32 :=
  sha256.double tx.serializeLegacy

/-- A single null-prevout input. -/
def Transaction.isCoinbase (tx : Transaction) : Bool :=
  match tx.inputs with
  | [input] => input.prev.txid == Bytes.zero 32 && input.prev.vout == 0xffffffff
  | _ => false

/-- The context of an anchor transaction: the hash of its funding outpoint. -/
def fundingCtx (sha256 : Sha256) (outpoint : OutPoint) : Ctx :=
  sha256 (outpoint.txid.toList ++ leBytes 4 outpoint.vout.toNat)

/-- The 64 bytes of an OP_RETURN push, in one of its three push forms. -/
def opReturnPayload (script : List UInt8) : Option (Bytes 64) :=
  match script with
  | 0x6a :: 0x40 :: data => Bytes.tryFrom 64 data
  | 0x6a :: 0x4c :: 0x40 :: data => Bytes.tryFrom 64 data
  | 0x6a :: 0x4d :: 0x40 :: 0x00 :: data => Bytes.tryFrom 64 data
  | _ => none

/-- The canonical script of a record: a minimal direct push. -/
def anchorScript (record : Bytes 64) : List UInt8 :=
  0x6a :: 0x40 :: record.toList

theorem opReturnPayload_anchorScript
    (record : Bytes 64) :
    opReturnPayload (anchorScript record) = some record := by
  simp [opReturnPayload, anchorScript]

end Encoding

section Merkle

variable (sha256 : Sha256)

/-- One level up; an odd last hash is paired with itself. -/
def merkleLevel : List (Bytes 32) → List (Bytes 32)
  | left :: right :: rest =>
      sha256.double (left.toList ++ right.toList) :: merkleLevel rest
  | [last] => [sha256.double (last.toList ++ last.toList)]
  | [] => []

/-- Climb until one hash is left; the level shrinks, so its length is enough fuel. -/
def merkleClimb : ℕ → List (Bytes 32) → Option (Bytes 32)
  | _, [] => none
  | _, [root] => some root
  | 0, _ => none
  | fuel + 1, level => merkleClimb fuel (merkleLevel sha256 level)

/-- The Merkle root; the source asserts that there is at least one leaf. -/
def merkleRoot (leaves : List (Bytes 32)) : Option (Bytes 32) :=
  merkleClimb sha256 leaves.length leaves

def Block.computeMerkleRoot (block : Block) : Option (Bytes 32) :=
  merkleRoot sha256 (block.txs.map (Transaction.txid sha256))

theorem merkleLevel_length
    (level : List (Bytes 32)) :
    (merkleLevel sha256 level).length = (level.length + 1) / 2 := by
  induction level using merkleLevel.induct with
  | case1 left right rest ih =>
      rw [merkleLevel, List.length_cons, ih]
      simp only [List.length_cons]
      omega
  | case2 last =>
      simp [merkleLevel]
  | case3 =>
      simp [merkleLevel]

/-- The climb ends within its fuel: every non-empty list has a root. -/
theorem merkleRoot_isSome
    {leaves : List (Bytes 32)}
    (h : leaves ≠ []) :
    (merkleRoot sha256 leaves).isSome = true := by
  have key : ∀ (fuel : ℕ) (level : List (Bytes 32)), level ≠ [] → level.length ≤ fuel →
      (merkleClimb sha256 fuel level).isSome = true := by
    intro fuel
    induction fuel with
    | zero =>
        intro level hne hlen
        exact absurd (List.length_eq_zero_iff.mp (Nat.le_zero.mp hlen)) hne
    | succ fuel ih =>
        intro level hne hlen
        rcases level with _ | ⟨a, _ | ⟨b, rest⟩⟩
        · exact absurd rfl hne
        · rfl
        · rw [merkleClimb]
          · apply ih
            · simp [merkleLevel]
            · rw [merkleLevel_length]
              simp only [List.length_cons] at hlen ⊢
              omega
          · simp
          · simp
  exact key leaves.length leaves h le_rfl

end Merkle

end OpenCsv
