import OpenCsv.Core.Digest

/-!
# Anchor records

Every anchor is exactly 64 bytes on chain.  Mints, redemptions and batch
headers are tagged; transfers are untagged, so that any 64-byte string parses
at worst as a transfer candidate.

A nullifier-bearing record never carries a raw nullifier.  It carries the
24-byte prefix of `H("bind" ∥ raw ∥ ctx)`, where `ctx` is the context of the
anchoring transaction; only a holder of the raw value can recognise it.

**Results.** A tagged payload is recovered exactly from its parse
(`toBytes_fromBytes_of_tagged`), a record that parses cleanly is recovered from
its serialization (`fromBytes_toBytes_of_parsesCleanly`), and the binding of a
raw value depends on its field elements only (`bound_congr`).
-/

namespace OpenCsv

/-- A transaction context (in production the funding outpoint). -/
abbrev Ctx := Bytes 32

/-- Location of an anchor in the canonical chain order. -/
structure AnchorLocation where
  height : UInt64
  position : UInt32
deriving DecidableEq

/-- A reference to an on-chain anchor, as a consignment carries it. -/
structure AnchorRef where
  txid : Bytes 32
  location : AnchorLocation
deriving DecidableEq

namespace AnchorLocation

/-- The derived lexicographic order: height first, then position. -/
def le (a b : AnchorLocation) : Bool :=
  a.height < b.height || (a.height == b.height && a.position ≤ b.position)

/-- The place of a location in chain order, as one number. -/
def key (a : AnchorLocation) : ℕ :=
  a.height.toNat * 2 ^ 32 + a.position.toNat

theorem le_iff_key_le
    {a b : AnchorLocation} :
    a.le b = true ↔ a.key ≤ b.key := by
  have ha : a.position.toNat < 2 ^ 32 := a.position.toNat_lt
  have hb : b.position.toNat < 2 ^ 32 := b.position.toNat_lt
  simp only [le, key, Bool.or_eq_true, Bool.and_eq_true, decide_eq_true_eq, beq_iff_eq,
    UInt64.lt_iff_toNat_lt, UInt32.le_iff_toNat_le, ← UInt64.toNat_inj]
  omega

end AnchorLocation

section Commitments

variable (sponge : Sponge)

/-- `mint_commit = H("mint" ∥ asset_id ∥ V ∥ mint_nonce)`. -/
def mintCommit
    (assetId : Digest)
    (value : UInt64)
    (mintNonce : Digest) : Digest :=
  hashFelts sponge "mint"
    [assetId.toElems.toList, u64ToFelts value, mintNonce.toElems.toList]

/-- `nf_commit = H("xfer" ∥ nf_1 ∥ … ∥ nf_m)`. -/
def nullifierCommit (nullifiers : List Digest) : Digest :=
  hashFelts sponge "xfer"
    [nullifiers.flatMap (fun nf => nf.toElems.toList)]

/-- `P = H("bind" ∥ raw ∥ ctx)`. -/
def binding (raw : Digest) (ctx : Ctx) : Digest :=
  hashFelts sponge "bind"
    [raw.toElems.toList, bytesToFelts ctx.toList]

/-- The on-chain payload of a raw value: the 24-byte prefix of its binding. -/
def bound (ctx : Ctx) (raw : Digest) : TruncatedDigest :=
  (binding sponge raw ctx).toAnchor

/-- The binding sees only the field elements of the raw value. -/
theorem bound_congr
    {ctx : Ctx}
    {raw raw' : Digest}
    (h : raw.toElems = raw'.toElems) :
    bound sponge ctx raw = bound sponge ctx raw' := by
  simp only [bound, binding, h]

/-- The list commitment sees only the field elements of its members. -/
theorem nullifierCommit_congr
    {nfs nfs' : List Digest}
    (h : nfs.map Digest.toElems = nfs'.map Digest.toElems) :
    nullifierCommit sponge nfs = nullifierCommit sponge nfs' := by
  have hflat :
      nfs.flatMap (fun nf => nf.toElems.toList) =
        nfs'.flatMap (fun nf => nf.toElems.toList) := by
    have h' := congrArg (List.flatMap List.Vector.toList) h
    simpa [List.flatMap_map] using h'
  rw [nullifierCommit, nullifierCommit, hflat]

end Commitments

/-- The zero payload that fills an unused transfer slot. -/
def TruncatedDigest.zero : TruncatedDigest :=
  ⟨Bytes.zero 24⟩

/-- An anchor record. -/
inductive AnchorRecord where
  | mint (assetId : TruncatedDigest) (value : UInt64) (mintCommit : TruncatedDigest)
  | xfer (payload₀ payload₁ : TruncatedDigest)
  | xferCompressed (nullifierCommit : TruncatedDigest)
  | batchHeader (count : UInt8) (batchCommit : TruncatedDigest)
  | redeem (assetId : TruncatedDigest) (value : UInt64) (payload : TruncatedDigest)
deriving DecidableEq

namespace AnchorRecord

def tagMint : UInt8 := 0x01
def tagRedeem : UInt8 := 0x04
def tagBatch : UInt8 := 0x05

/-- Is the record a compressed transfer? -/
def isXferCompressed : AnchorRecord → Bool
  | .xferCompressed _ => true
  | _ => false

section Constructors

variable (sponge : Sponge)

/-- A transfer record binding one or two nullifiers; the source asserts the count. -/
def xferOf (rawNullifiers : List Digest) (ctx : Ctx) : Option AnchorRecord :=
  match rawNullifiers with
  | [nf] => some (.xfer (bound sponge ctx nf) TruncatedDigest.zero)
  | [nf₀, nf₁] => some (.xfer (bound sponge ctx nf₀) (bound sponge ctx nf₁))
  | _ => none

/-- A compressed transfer record over a raw list commitment. -/
def xferCompressedOf (rawNfCommit : Digest) (ctx : Ctx) : AnchorRecord :=
  .xferCompressed (bound sponge ctx rawNfCommit)

/-- A redemption record of one nullifier. -/
def redeemOf
    (assetId : TruncatedDigest)
    (value : UInt64)
    (rawNf : Digest)
    (ctx : Ctx) : AnchorRecord :=
  .redeem assetId value (bound sponge ctx rawNf)

/-- The bound payload slots a record carries. -/
def payloadSlots : AnchorRecord → List TruncatedDigest
  | .mint .. | .batchHeader .. => []
  | .xfer p₀ p₁ => [p₀, p₁]
  | .xferCompressed p => [p]
  | .redeem _ _ p => [p]

/-- Does some payload slot of the record equal the binding of `rawNf`? -/
def wellFormed
    (record : AnchorRecord)
    (ctx : Ctx)
    (rawNf : Digest) : Bool :=
  match record with
  | .mint .. | .batchHeader .. => false
  | .xfer p₀ p₁ => p₀ == bound sponge ctx rawNf || p₁ == bound sponge ctx rawNf
  | .xferCompressed p => p == bound sponge ctx rawNf
  | .redeem _ _ p => p == bound sponge ctx rawNf

/-- A record binds a raw value exactly when one of its slots carries the binding. -/
theorem wellFormed_iff
    {record : AnchorRecord}
    {ctx : Ctx}
    {raw : Digest} :
    record.wellFormed sponge ctx raw = true
      ↔
    bound sponge ctx raw ∈ record.payloadSlots := by
  cases record <;>
    simp [wellFormed, payloadSlots, eq_comm (a := bound sponge ctx raw)]

/-- Occurrence of a raw value is decided by its field elements. -/
theorem wellFormed_congr
    (record : AnchorRecord)
    {ctx : Ctx}
    {raw raw' : Digest}
    (h : raw.toElems = raw'.toElems) :
    record.wellFormed sponge ctx raw = record.wellFormed sponge ctx raw' := by
  simp only [wellFormed, bound_congr sponge h]

end Constructors

section Serialization

/-- Serialize to exactly 64 bytes. -/
def toBytes : AnchorRecord → Bytes 64
  | .mint assetId value commit =>
      ⟨[tagMint] ++ (assetId.bytes.toList ++
        (leBytes 8 value.toNat ++ (commit.bytes.toList ++ List.replicate 7 0))), by
          simp⟩
  | .batchHeader count commit =>
      ⟨[tagBatch] ++ ([count] ++ (commit.bytes.toList ++ List.replicate 38 0)), by
          simp⟩
  | .redeem assetId value payload =>
      ⟨[tagRedeem] ++ (assetId.bytes.toList ++
        (leBytes 8 value.toNat ++ (payload.bytes.toList ++ List.replicate 7 0))), by
          simp⟩
  | .xfer p₀ p₁ =>
      ⟨p₀.bytes.toList ++ (p₁.bytes.toList ++ List.replicate 16 0), by
          simp⟩
  | .xferCompressed p =>
      ⟨p.bytes.toList ++ List.replicate 40 0, by
          simp⟩

/-- The 24 bytes of a payload that start at offset `i`. -/
def td (b : Bytes 64) (i : ℕ) (h : i + 24 ≤ 64) : TruncatedDigest :=
  ⟨b.slice i 24 h⟩

/-- The little-endian `u64` at offset 25. -/
def valueField (b : Bytes 64) : UInt64 :=
  UInt64.ofNat (b.slice 25 8 (by decide)).toLe

/-- Parse a 64-byte payload; parsing never fails. -/
def fromBytes (b : Bytes 64) : AnchorRecord :=
  if b.head = tagMint ∧ b.padded 57 = true then
    .mint (td b 1 (by decide)) (valueField b) (td b 33 (by decide))
  else if b.head = tagRedeem ∧ b.padded 57 = true then
    .redeem (td b 1 (by decide)) (valueField b) (td b 33 (by decide))
  else if b.head = tagBatch ∧ b.padded 26 = true then
    .batchHeader (b.slice 1 1 (by decide)).head (td b 2 (by decide))
  else
    -- Trailing bytes of a transfer candidate are opaque and left unchecked.
    .xfer (td b 0 (by decide)) (td b 24 (by decide))

/-- The record class, with XFER and XFERC as one class. -/
inductive RecordClass where
  | mint | xfer | batch | redeem
deriving DecidableEq

def recordClass : AnchorRecord → RecordClass
  | .mint .. => .mint
  | .xfer .. | .xferCompressed .. => .xfer
  | .batchHeader .. => .batch
  | .redeem .. => .redeem

/-- Does the serialization parse back as the same record class? -/
def parsesCleanly (r : AnchorRecord) : Bool :=
  r.recordClass == (fromBytes r.toBytes).recordClass

/-- The eight value bytes survive the round trip through `u64`. -/
theorem leBytes_valueField
    (b : Bytes 64) :
    leBytes 8 (valueField b).toNat = (b.toList.drop 25).take 8 := by
  have hlt : (b.slice 25 8 (by decide)).toLe < 2 ^ 64 :=
    Bytes.toLe_lt _
  have hle := Bytes.ofLe_toLe (b.slice 25 8 (by decide))
  rw [valueField, UInt64.toNat_ofNat', Nat.mod_eq_of_lt hlt]
  exact congrArg List.Vector.toList hle

theorem toList_eq_head_cons
    (b : Bytes 64) :
    b.toList = [b.head] ++ b.toList.drop 1 := by
  rw [← List.Vector.cons_head_tail b]
  rfl

/-- The byte layout of a tagged record with a value field. -/
theorem toList_of_valueLayout
    {b : Bytes 64}
    (hpad : b.padded 57 = true) :
    b.toList = [b.head] ++ ((td b 1 (by decide)).bytes.toList ++
      (leBytes 8 (valueField b).toNat ++
        ((td b 33 (by decide)).bytes.toList ++ List.replicate 7 0))) := by
  have htail := Bytes.padded_iff.mp hpad
  have h1 := drop_eq_take_append_drop b.toList 1 24
  have h2 := drop_eq_take_append_drop b.toList 25 8
  have h3 := drop_eq_take_append_drop b.toList 33 24
  calc
    b.toList = [b.head] ++ b.toList.drop 1 := toList_eq_head_cons b
    _ = _ := by
      rw [h1, h2, h3, htail, leBytes_valueField]
      rfl

/-- A payload that parses as a tagged record is recovered from its parse. -/
theorem toBytes_fromBytes_of_tagged
    {b : Bytes 64}
    (h : (fromBytes b).recordClass ≠ .xfer) :
    (fromBytes b).toBytes = b := by
  apply Bytes.ext_toList
  unfold fromBytes at h ⊢
  split_ifs with hmint hredeem hbatch
  · rw [toList_of_valueLayout hmint.2, hmint.1]
    rfl
  · rw [toList_of_valueLayout hredeem.2, hredeem.1]
    rfl
  · have htail := Bytes.padded_iff.mp hbatch.2
    have h1 := drop_eq_take_append_drop b.toList 1 1
    have h2 := drop_eq_take_append_drop b.toList 2 24
    have hcount : (b.toList.drop 1).take 1 = [(b.slice 1 1 (by decide)).head] := by
      have hlen : ((b.toList.drop 1).take 1).length = 1 := by simp
      obtain ⟨x, hx⟩ := List.length_eq_one_iff.mp hlen
      have hslice : b.slice 1 1 (by decide) = x ::ᵥ List.Vector.nil :=
        Bytes.ext_toList hx
      rw [hx, hslice, List.Vector.head_cons]
    calc
      _ = [b.head] ++ b.toList.drop 1 := by
        rw [h1, h2, htail, hcount, hbatch.1]
        rfl
      _ = b.toList := (toList_eq_head_cons b).symm
  · simp [hmint, hredeem, hbatch, recordClass] at h

/-- Slots of a serialized transfer are its two payloads. -/
theorem td_toBytes_xfer
    (p₀ p₁ : TruncatedDigest) :
    td (toBytes (.xfer p₀ p₁)) 0 (by decide) = p₀
      ∧
    td (toBytes (.xfer p₀ p₁)) 24 (by decide) = p₁ := by
  constructor
  · apply TruncatedDigest.ext
    apply Bytes.ext_toList
    exact List.take_left' p₀.bytes.2
  · apply TruncatedDigest.ext
    apply Bytes.ext_toList
    exact take_drop_append p₀.bytes.2 p₁.bytes.2

/-- The fields of any payload with the value layout are read back. -/
theorem fields_of_valueLayout
    {b : Bytes 64}
    {tag : UInt8}
    {a c : TruncatedDigest}
    {v : UInt64}
    (hb : b.toList = [tag] ++ (a.bytes.toList ++
      (leBytes 8 v.toNat ++ (c.bytes.toList ++ List.replicate 7 0)))) :
    b.head = tag ∧ b.padded 57 = true ∧ td b 1 (by decide) = a ∧
      valueField b = v ∧ td b 33 (by decide) = c := by
  have ha : a.bytes.toList.length = 24 := a.bytes.2
  have hc : c.bytes.toList.length = 24 := c.bytes.2
  refine ⟨?_, ?_, ?_, ?_, ?_⟩
  · have hhead := toList_eq_head_cons b
    rw [hb] at hhead
    simpa using hhead.symm
  · rw [Bytes.padded_iff, hb]
    have hassoc : [tag] ++ (a.bytes.toList ++ (leBytes 8 v.toNat ++
        (c.bytes.toList ++ List.replicate 7 0))) =
        ([tag] ++ a.bytes.toList ++ leBytes 8 v.toNat ++ c.bytes.toList) ++
          List.replicate 7 0 := by
      simp
    rw [hassoc, List.drop_left' (by simp)]
  · apply TruncatedDigest.ext
    apply Bytes.ext_toList
    show (b.toList.drop 1).take 24 = _
    rw [hb]
    exact take_drop_append rfl ha
  · have hslice : (b.toList.drop 25).take 8 = leBytes 8 v.toNat := by
      rw [hb, ← List.append_assoc]
      exact take_drop_append (by simp) (by simp)
    have hval : leBytes 8 (valueField b).toNat = leBytes 8 v.toNat := by
      rw [leBytes_valueField, hslice]
    have hnat := congrArg leNat hval
    rw [leNat_leBytes_u64, leNat_leBytes_u64] at hnat
    exact UInt64.toNat_inj.mp hnat
  · apply TruncatedDigest.ext
    apply Bytes.ext_toList
    show (b.toList.drop 33).take 24 = _
    rw [hb, ← List.append_assoc, ← List.append_assoc]
    exact take_drop_append (by simp) hc

/-- A mint record parses back from its serialization. -/
@[simp] theorem fromBytes_toBytes_mint
    (a : TruncatedDigest)
    (v : UInt64)
    (c : TruncatedDigest) :
    fromBytes (toBytes (.mint a v c)) = .mint a v c := by
  obtain ⟨hhead, hpad, ha, hv, hc⟩ :=
    fields_of_valueLayout (b := toBytes (.mint a v c)) rfl
  rw [fromBytes, if_pos ⟨hhead, hpad⟩, ha, hv, hc]

/-- A redemption record parses back from its serialization. -/
@[simp] theorem fromBytes_toBytes_redeem
    (a : TruncatedDigest)
    (v : UInt64)
    (c : TruncatedDigest) :
    fromBytes (toBytes (.redeem a v c)) = .redeem a v c := by
  obtain ⟨hhead, hpad, ha, hv, hc⟩ :=
    fields_of_valueLayout (b := toBytes (.redeem a v c)) rfl
  have hmint : ¬((toBytes (.redeem a v c)).head = tagMint ∧
      (toBytes (.redeem a v c)).padded 57 = true) := by
    rw [hhead]
    exact fun h => absurd h.1 (by decide)
  rw [fromBytes, if_neg hmint, if_pos ⟨hhead, hpad⟩, ha, hv, hc]

/-- A batch header parses back from its serialization. -/
@[simp] theorem fromBytes_toBytes_batchHeader
    (count : UInt8)
    (c : TruncatedDigest) :
    fromBytes (toBytes (.batchHeader count c)) = .batchHeader count c := by
  have hlist : (toBytes (.batchHeader count c)).toList =
      [tagBatch] ++ ([count] ++ (c.bytes.toList ++ List.replicate 38 0)) := rfl
  have hhead : (toBytes (.batchHeader count c)).head = tagBatch := rfl
  have hpad : (toBytes (.batchHeader count c)).padded 26 = true := by
    rw [Bytes.padded_iff, hlist, ← List.append_assoc, ← List.append_assoc,
      List.drop_left' (by simp)]
  have hc : td (toBytes (.batchHeader count c)) 2 (by decide) = c := by
    apply TruncatedDigest.ext
    apply Bytes.ext_toList
    show ((toBytes (.batchHeader count c)).toList.drop 2).take 24 = _
    rw [hlist, ← List.append_assoc]
    exact take_drop_append (by simp) c.bytes.2
  have htags : (toBytes (.batchHeader count c)).head ≠ tagMint ∧
      (toBytes (.batchHeader count c)).head ≠ tagRedeem := by
    rw [hhead]
    decide
  rw [fromBytes, if_neg (fun h => htags.1 h.1), if_neg (fun h => htags.2 h.1),
    if_pos ⟨hhead, hpad⟩, hc]
  rfl

/-- Parsing never yields a compressed transfer. -/
theorem fromBytes_isXferCompressed
    (b : Bytes 64) :
    (fromBytes b).isXferCompressed = false := by
  unfold fromBytes
  split_ifs <;> rfl

/-- A record that parses cleanly, other than XFERC, is recovered by parsing. -/
theorem fromBytes_toBytes_of_parsesCleanly
    {r : AnchorRecord}
    (hclean : r.parsesCleanly = true)
    (hcompressed : ∀ p, r ≠ .xferCompressed p) :
    fromBytes r.toBytes = r := by
  cases r with
  | mint a v c =>
      exact fromBytes_toBytes_mint a v c
  | redeem a v c =>
      exact fromBytes_toBytes_redeem a v c
  | batchHeader count c =>
      exact fromBytes_toBytes_batchHeader count c
  | xferCompressed p =>
      exact absurd rfl (hcompressed p)
  | xfer p₀ p₁ =>
      simp only [parsesCleanly, beq_iff_eq] at hclean
      obtain ⟨h₀, h₁⟩ := td_toBytes_xfer p₀ p₁
      unfold fromBytes at hclean ⊢
      split_ifs at hclean ⊢
      · simp [recordClass] at hclean
      · simp [recordClass] at hclean
      · simp [recordClass] at hclean
      · rw [h₀, h₁]

end Serialization

end AnchorRecord

end OpenCsv
