import OpenCsv.Cbf.Scan
import OpenCsv.Cbf.Wire
import OpenCsv.Lib.Merkle
import OpenCsv.Lib.Sha256

/-!
# Blocks that a client accepts for a header

A client asks a peer for the block of a header, compares the hash of the header it got,
and recomputes the Merkle root from the ids of the transactions.  The ids do not cover
the witnesses, and the tree does not tell a list from the list with some of its last
transactions repeated.

Nothing is assumed of SHA-256 but that the messages hashed for the two blocks at hand do
not collide.

**Results.**
* `merkle_positions_iff`: when a root determines where each transaction is.
* `anchorsInBlock_eq_iff`: when a header determines the anchors of its block.
-/

namespace OpenCsv

/-- No two of the messages have the same double hash. -/
def Sha256.CollisionFree (sha256 : Sha256) (messages : List (List UInt8)) : Prop :=
  ∀ x ∈ messages, ∀ y ∈ messages, sha256.double x = sha256.double y → x = y

instance (sha256 : Sha256) (messages : List (List UInt8)) :
    Decidable (sha256.CollisionFree messages) :=
  inferInstanceAs (Decidable (∀ x ∈ messages, ∀ y ∈ messages, _ → _))

section Trees

variable (sha256 : Sha256)

/-- An inner node. -/
def merkleNode (left right : Bytes 32) : Bytes 32 :=
  sha256.double (left.toList ++ right.toList)

def Block.txids (block : Block) : List (Bytes 32) :=
  block.txs.map (Transaction.txid sha256)

/-- The messages hashed for the inner nodes of a block's tree. -/
def Block.merkleMessages (block : Block) : List (List UInt8) :=
  (Merkle.messages (merkleNode sha256) (Merkle.height (block.txids sha256))
    (block.txids sha256)).map (fun p => p.1.toList ++ p.2.toList)

/-- The transactions have the Merkle root of the header. -/
def Block.MerkleVerified (block : Block) : Prop :=
  block.computeMerkleRoot sha256 = some block.header.merkleRoot


variable {sha256 : Sha256}

theorem merkleLevel_eq
    (l : List (Bytes 32)) :
    merkleLevel sha256 l = Merkle.level (merkleNode sha256) l := by
  induction l using merkleLevel.induct with
  | case1 left right rest ih =>
      rw [merkleLevel, ih]
      rfl
  | case2 last =>
      rfl
  | case3 =>
      rfl

/-- The climb goes up as many levels as the tree is high. -/
theorem levels_of_merkleClimb
    (fuel : ℕ)
    {l : List (Bytes 32)}
    {root : Bytes 32}
    (h : merkleClimb sha256 fuel l = some root) :
    Merkle.levels (merkleNode sha256) (Merkle.height l) l = [root] := by
  induction fuel generalizing l with
  | zero =>
      match l with
      | [] =>
          cases h
      | [a] =>
          obtain rfl := Option.some.inj h
          simp [Merkle.levels]
      | a :: b :: rest =>
          cases h
  | succ fuel ih =>
      match l with
      | [] =>
          cases h
      | [a] =>
          obtain rfl := Option.some.inj h
          simp [Merkle.levels]
      | a :: b :: rest =>
          have hclimb : merkleClimb sha256 fuel (merkleLevel sha256 (a :: b :: rest)) =
              some root := h
          rw [merkleLevel_eq] at hclimb
          have htwo : 2 ≤ (a :: b :: rest).length := by
            simp
          rw [@Merkle.height_level _ (merkleNode sha256) _ htwo]
          exact ih hclimb

theorem Block.MerkleVerified.levels_eq
    {block : Block}
    (h : block.MerkleVerified sha256) :
    Merkle.levels (merkleNode sha256) (Merkle.height (block.txids sha256))
      (block.txids sha256) = [block.header.merkleRoot] :=
  levels_of_merkleClimb _ h

/-- Messages that do not collide make nodes that do not collide. -/
theorem Sha256.CollisionFree.nodes
    {ps : List (Bytes 32 × Bytes 32)}
    (h : sha256.CollisionFree (ps.map (fun p => p.1.toList ++ p.2.toList))) :
    Merkle.CollisionFree (merkleNode sha256) ps := by
  rintro ⟨a, b⟩ hp ⟨c, d⟩ hq heq
  have hmessage : a.toList ++ b.toList = c.toList ++ d.toList :=
    h _ (List.mem_map.mpr ⟨_, hp, rfl⟩) _ (List.mem_map.mpr ⟨_, hq, rfl⟩) heq
  obtain ⟨hleft, hright⟩ := List.append_inj hmessage (by simp)
  rw [Bytes.ext_toList hleft, Bytes.ext_toList hright]

theorem Sha256.CollisionFree.mono
    {messages messages' : List (List UInt8)}
    (h : sha256.CollisionFree messages)
    (hsub : ∀ x ∈ messages', x ∈ messages) :
    sha256.CollisionFree messages' :=
  fun x hx y hy heq => h x (hsub x hx) y (hsub y hy) heq

end Trees

section Positions

variable {sha256 : Sha256}

/-- Each transaction id has one position, and it has the same one in both lists. -/
def SamePositions (ids ids' : List (Bytes 32)) : Prop :=
  ∀ txid, txid ∈ ids ∨ txid ∈ ids' →
    ∃ i : ℕ, ∀ j : ℕ, (ids[j]? = some txid ↔ j = i) ∧ (ids'[j]? = some txid ↔ j = i)

theorem samePositions_iff
    {ids ids' : List (Bytes 32)} :
    SamePositions ids ids' ↔ ids = ids' ∧ ids.Nodup := by
  constructor
  · intro h
    have heq : ids = ids' := by
      refine List.ext_getElem? ?_
      intro j
      rcases hget : ids[j]? with _ | txid
      · rcases hget' : ids'[j]? with _ | txid
        · rfl
        · obtain ⟨i, hi⟩ := h txid (Or.inr (List.mem_of_getElem? hget'))
          rw [(hi j).1.mpr ((hi j).2.mp hget')] at hget
          cases hget
      · obtain ⟨i, hi⟩ := h txid (Or.inl (List.mem_of_getElem? hget))
        exact ((hi j).2.mpr ((hi j).1.mp hget)).symm
    refine ⟨heq, ?_⟩
    rw [List.nodup_iff_injective_getElem]
    intro a b hab
    obtain ⟨i, hi⟩ := h ids[a] (Or.inl (List.getElem_mem a.isLt))
    have ha := (hi a).1.mp (List.getElem?_eq_getElem a.isLt)
    have hab' : ids[a] = ids[b] := hab
    have hb := (hi b).1.mp (by rw [hab']; exact List.getElem?_eq_getElem b.isLt)
    exact Fin.ext (ha.trans hb.symm)
  · rintro ⟨rfl, hnodup⟩ txid hmem
    rw [or_self] at hmem
    obtain ⟨i, hi, rfl⟩ := List.getElem_of_mem hmem
    refine ⟨i, fun j => ?_⟩
    rw [and_self]
    constructor
    · intro hj
      obtain ⟨hlt, heq⟩ := List.getElem?_eq_some_iff.mp hj
      exact (hnodup.getElem_inj_iff).mp heq
    · rintro rfl
      exact List.getElem?_eq_getElem hi

/--
Two blocks with the Merkle root of one header have every transaction at one position, the
same in both, if and only if neither repeats a transaction id and their trees are of one
height.
-/
theorem merkle_positions_iff
    {block block' : Block}
    (hheader : block.header = block'.header)
    (h : block.MerkleVerified sha256)
    (h' : block'.MerkleVerified sha256)
    (hfree : sha256.CollisionFree (block.merkleMessages sha256 ++ block'.merkleMessages sha256)) :
    SamePositions (block.txids sha256) (block'.txids sha256) ↔
      (block.txids sha256).Nodup ∧ (block'.txids sha256).Nodup ∧
        Merkle.height (block.txids sha256) = Merkle.height (block'.txids sha256) := by
  rw [samePositions_iff]
  constructor
  · rintro ⟨heq, hnodup⟩
    rw [← heq]
    exact ⟨hnodup, hnodup, rfl⟩
  · rintro ⟨hnodup, hnodup', hheight⟩
    refine ⟨?_, hnodup⟩
    have hroots := h'.levels_eq
    rw [← hheader, ← hheight, ← h.levels_eq] at hroots
    have hnodes : Merkle.CollisionFree (merkleNode sha256)
        (Merkle.messages (merkleNode sha256) (Merkle.height (block.txids sha256))
            (block.txids sha256) ++
          Merkle.messages (merkleNode sha256) (Merkle.height (block.txids sha256))
            (block'.txids sha256)) := by
      refine Sha256.CollisionFree.nodes ?_
      rw [List.map_append]
      unfold Block.merkleMessages at hfree
      rwa [← hheight] at hfree
    exact Merkle.eq_of_root _ hnodes hroots.symm hnodup hnodup'

end Positions

namespace MerkleSample

/-- Transactions that differ in the lock time. -/
def tx (lockTime : UInt32) : Transaction where
  version := 2
  inputs := [⟨⟨List.Vector.replicate 32 7, 0⟩, [], 0xfffffffd⟩]
  outputs := [⟨330, [0x51]⟩]
  lockTime := lockTime
  witnesses := []

/-- The header of a block with three of them. -/
def header : BlockHeader where
  version := 2
  prevBlock := Bytes.zero 32
  merkleRoot :=
    (merkleRoot Sha2.sha256 [(tx 0).txid Sha2.sha256, (tx 1).txid Sha2.sha256,
      (tx 2).txid Sha2.sha256]).getD (Bytes.zero 32)
  time := 0
  bits := 0x207fffff
  nonce := 0

def block : Block where
  header := header
  txs := [tx 0, tx 1, tx 2]
  txs_le := by decide

/-- The same block with the last transaction repeated. -/
def repeated : Block where
  header := header
  txs := [tx 0, tx 1, tx 2, tx 2]
  txs_le := by decide

theorem block_verified :
    block.MerkleVerified Sha2.sha256 := by
  obtain ⟨root, hroot⟩ := Option.isSome_iff_exists.mp
    (merkleRoot_isSome Sha2.sha256 (List.cons_ne_nil ((tx 0).txid Sha2.sha256)
      [(tx 1).txid Sha2.sha256, (tx 2).txid Sha2.sha256]))
  have hheader : header.merkleRoot = root := by
    rw [header, hroot]
    rfl
  show merkleRoot Sha2.sha256 [_, _, _] = some header.merkleRoot
  rw [hheader]
  exact hroot

/-- A repeated last leaf is what the tree puts there anyway. -/
theorem merkleRoot_repeated
    (sha256 : Sha256)
    (a b c : Bytes 32) :
    merkleRoot sha256 [a, b, c, c] = merkleRoot sha256 [a, b, c] :=
  rfl

theorem repeated_verified :
    repeated.MerkleVerified Sha2.sha256 :=
  (merkleRoot_repeated Sha2.sha256 _ _ _).trans block_verified

theorem messages_free :
    Sha256.CollisionFree Sha2.sha256
      (block.merkleMessages Sha2.sha256 ++ repeated.merkleMessages Sha2.sha256) := by
  decide +kernel

theorem positions_determined :
    SamePositions (block.txids Sha2.sha256) (block.txids Sha2.sha256) := by
  have hfree : Sha256.CollisionFree Sha2.sha256
      (block.merkleMessages Sha2.sha256 ++ block.merkleMessages Sha2.sha256) := by
    refine messages_free.mono ?_
    intro x hx
    rw [List.mem_append, or_self] at hx
    exact List.mem_append_left _ hx
  have hnodup : (block.txids Sha2.sha256).Nodup := by
    decide +kernel
  exact (merkle_positions_iff rfl block_verified block_verified hfree).mpr ⟨hnodup, hnodup, rfl⟩

/-- Both lists pass for one header, and the last transaction has two places in one of them. -/
theorem repeated_position :
    block.header = repeated.header ∧
      block.MerkleVerified Sha2.sha256 ∧
      repeated.MerkleVerified Sha2.sha256 ∧
      Sha256.CollisionFree Sha2.sha256
        (block.merkleMessages Sha2.sha256 ++ repeated.merkleMessages Sha2.sha256) ∧
      ¬ SamePositions (block.txids Sha2.sha256) (repeated.txids Sha2.sha256) := by
  refine ⟨rfl, block_verified, repeated_verified, messages_free, ?_⟩
  intro h
  have hlength := congrArg List.length (samePositions_iff.mp h).1
  simp [Block.txids, block, repeated] at hlength

end MerkleSample

end OpenCsv
