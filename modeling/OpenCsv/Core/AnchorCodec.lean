import OpenCsv.Core.ReadBack

/-!
# The codec of anchor records

A tag byte selects a kind only together with the zero padding of that kind; everything else is
a transfer.  Records survive their bytes unless a transfer looks like a tagged record, and
bytes survive their record exactly if the padding of the kind they decode to is zero.

**Result.** `AnchorRecord.anchor_codec`.
-/

namespace OpenCsv

namespace AnchorRecord

/-- Does the record start with a tag byte? -/
def isTagged : AnchorRecord → Bool
  | .mint .. | .batchHeader .. | .redeem .. => true
  | .xfer .. | .xferCompressed .. => false

/-- Where the zero padding of a kind begins. -/
def paddingStart : AnchorRecord → ℕ
  | .mint .. | .redeem .. => 57
  | .batchHeader .. => 26
  | .xfer .. => 48
  | .xferCompressed .. => 24

/-- A record parses cleanly unless it is a transfer that decodes as a tagged kind. -/
theorem parsesCleanly_eq
    (r : AnchorRecord) :
    r.parsesCleanly = (r.isTagged || !(fromBytes r.toBytes).isTagged) := by
  cases r with
  | mint a v c => simp [parsesCleanly, isTagged, recordClass]
  | redeem a v c => simp [parsesCleanly, isTagged, recordClass]
  | batchHeader count c => simp [parsesCleanly, isTagged, recordClass]
  | xfer p₀ p₁ =>
      cases hdecode : fromBytes (toBytes (.xfer p₀ p₁)) <;>
        simp [parsesCleanly, hdecode, isTagged, recordClass]
  | xferCompressed p =>
      cases hdecode : fromBytes (toBytes (.xferCompressed p)) <;>
        simp [parsesCleanly, hdecode, isTagged, recordClass]

theorem fromBytes_toBytes_xfer_iff
    {p₀ p₁ : TruncatedDigest} :
    fromBytes (toBytes (.xfer p₀ p₁)) = .xfer p₀ p₁ ↔ parsesCleanly (.xfer p₀ p₁) = true := by
  constructor
  · intro h
    simp [parsesCleanly, h]
  · intro h
    exact fromBytes_toBytes_of_parsesCleanly h (by simp)

theorem fromBytes_toBytes_xferCompressed_iff
    {p : TruncatedDigest} :
    fromBytes (toBytes (.xferCompressed p)) = .xfer p TruncatedDigest.zero ↔
      parsesCleanly (.xferCompressed p) = true := by
  constructor
  · intro h
    simp [parsesCleanly, h, recordClass]
  · exact fromBytes_toBytes_xferCompressed

/-- A transfer has the bytes it was decoded from if its last 16 bytes are zero. -/
theorem toBytes_xfer_iff
    (b : Bytes 64) :
    toBytes (.xfer (td b 0 (by decide)) (td b 24 (by decide))) = b ↔ b.padded 48 = true := by
  have hslots : b.toList = (b.toList.drop 0).take 24 ++
      ((b.toList.drop 24).take 24 ++ b.toList.drop 48) := by
    rw [← drop_eq_take_append_drop b.toList 24 24, ← drop_eq_take_append_drop b.toList 0 24]
    rfl
  rw [Bytes.padded_iff]
  constructor
  · intro h
    have hlist := congrArg List.Vector.toList h
    rw [hslots] at hlist
    exact (List.append_cancel_left (List.append_cancel_left hlist)).symm
  · intro h
    apply Bytes.ext_toList
    rw [hslots, h]
    rfl

/-- A tagged kind is selected together with its padding. -/
theorem padded_of_tagged
    {b : Bytes 64}
    (h : (fromBytes b).recordClass ≠ .xfer) :
    b.padded (fromBytes b).paddingStart = true := by
  unfold fromBytes at h ⊢
  split_ifs at h ⊢ with hmint hredeem hbatch
  · exact hmint.2
  · exact hredeem.2
  · exact hbatch.2
  · exact absurd rfl h

theorem fromBytes_of_untagged
    {b : Bytes 64}
    (h : (fromBytes b).recordClass = .xfer) :
    fromBytes b = .xfer (td b 0 (by decide)) (td b 24 (by decide)) := by
  unfold fromBytes at h ⊢
  split_ifs at h ⊢ with hmint hredeem hbatch
  · cases h
  · cases h
  · cases h
  · rfl

theorem toBytes_fromBytes_iff
    (b : Bytes 64) :
    toBytes (fromBytes b) = b ↔ b.padded (fromBytes b).paddingStart = true := by
  by_cases hclass : (fromBytes b).recordClass = .xfer
  · rw [fromBytes_of_untagged hclass]
    exact toBytes_xfer_iff b
  · exact iff_of_true (toBytes_fromBytes_of_tagged hclass) (padded_of_tagged hclass)

/--
Tagged records come back from their bytes, transfers do if they parse cleanly, and bytes come
back from their record if the padding of its kind is zero.
-/
theorem anchor_codec :
    (∀ a v c, fromBytes (toBytes (.mint a v c)) = .mint a v c) ∧
      (∀ a v p, fromBytes (toBytes (.redeem a v p)) = .redeem a v p) ∧
        (∀ count c, fromBytes (toBytes (.batchHeader count c)) = .batchHeader count c) ∧
    (∀ p₀ p₁, fromBytes (toBytes (.xfer p₀ p₁)) = .xfer p₀ p₁ ↔
        parsesCleanly (.xfer p₀ p₁) = true) ∧
      (∀ p, fromBytes (toBytes (.xferCompressed p)) = .xfer p TruncatedDigest.zero ↔
        parsesCleanly (.xferCompressed p) = true) ∧
    (∀ r : AnchorRecord, r.parsesCleanly = (r.isTagged || !(fromBytes r.toBytes).isTagged)) ∧
      ∀ b, toBytes (fromBytes b) = b ↔ b.padded (fromBytes b).paddingStart = true := by
  refine ⟨fromBytes_toBytes_mint, fromBytes_toBytes_redeem, fromBytes_toBytes_batchHeader, ?_, ?_,
    parsesCleanly_eq, toBytes_fromBytes_iff⟩
  · intro p₀ p₁
    exact fromBytes_toBytes_xfer_iff
  · intro p
    exact fromBytes_toBytes_xferCompressed_iff

namespace Sample

/-- The batch tag, and a byte in the padding of a batch header. -/
def tagOverPadding : Bytes 64 :=
  ⟨[tagBatch] ++ List.replicate 29 0 ++ [1] ++ List.replicate 33 0, rfl⟩

theorem padded_wrong_and_back :
    tagOverPadding.head = tagBatch ∧ tagOverPadding.padded 26 = false ∧
      toBytes (fromBytes tagOverPadding) = tagOverPadding := by
  decide +kernel

end Sample

end AnchorRecord

end OpenCsv
