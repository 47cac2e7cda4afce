import OpenCsv.Core.Anchor
import OpenCsv.Lib.Result

/-!
# Batch anchors

One anchor transaction can carry many transfer payloads: a tagged header on
chain, and the payloads in the witness of its first input.  The header commits
to the whole envelope under its context, so a payload counts as an occurrence
only when the envelope it came from validates against the header.
-/

namespace OpenCsv

/-- The protocol version of a decoded envelope. -/
inductive BatchVersion where
  | v1 | v2
deriving DecidableEq

/-- The first witness item of an envelope, for each version. -/
def witnessMagic : List UInt8 := ascii "OCSV"
def witnessMagicV2 : List UInt8 := ascii "OCS2"

def maxBatchV2Participants : ℕ := 64

/-- The largest standard witness item. -/
def maxWitnessItem : ℕ := 80

section Commitment

variable (sponge : Sponge)

/-- `H(domain ∥ P_1 ∥ … ∥ P_n ∥ ctx)`. -/
def batchCommitIn
    (domain : String)
    (payloads : List TruncatedDigest)
    (ctx : Ctx) : Digest :=
  hashFelts sponge domain
    [ bytesToFelts (payloads.flatMap (fun p => p.bytes.toList)),
      bytesToFelts ctx.toList ]

def batchCommit (payloads : List TruncatedDigest) (ctx : Ctx) : Digest :=
  batchCommitIn sponge "batch" payloads ctx

def batchCommitV2 (payloads : List TruncatedDigest) (ctx : Ctx) : Digest :=
  batchCommitIn sponge "batch-v2" payloads ctx

/-- The header commitment of an envelope version. -/
def versionedBatchCommit
    (version : BatchVersion)
    (payloads : List TruncatedDigest)
    (ctx : Ctx) : Digest :=
  match version with
  | .v1 => batchCommit sponge payloads ctx
  | .v2 => batchCommitV2 sponge payloads ctx

/-- Does the envelope belong to this header under `ctx`? -/
def envelopeMatches
    (version : BatchVersion)
    (count : UInt8)
    (committed : TruncatedDigest)
    (envelope : List TruncatedDigest)
    (ctx : Ctx) : Bool :=
  envelope.length == count.toNat &&
    (versionedBatchCommit sponge version envelope ctx).toAnchor == committed

/-- The index of the payload of `rawNf` in an envelope that belongs to the record. -/
def versionedEnvelopeOccurrence
    (version : BatchVersion)
    (record : AnchorRecord)
    (envelope : List TruncatedDigest)
    (ctx : Ctx)
    (rawNf : Digest) : Option UInt32 :=
  match record with
  | .batchHeader count committed =>
      if envelopeMatches sponge version count committed envelope ctx then
        (envelope.findIdx? (fun p => p == bound sponge ctx rawNf)).map UInt32.ofNat
      else
        none
  | _ => none

end Commitment

section Envelope

/-- One payload item: exactly 24 bytes. -/
def payloadItem (item : List UInt8) : Option TruncatedDigest :=
  if item.length > maxWitnessItem then
    none
  else
    (Bytes.tryFrom 24 item).map TruncatedDigest.mk

/-- Decode a legacy envelope; the witness script is not part of it. -/
def envelopeDecode : List (List UInt8) → Option (List TruncatedDigest)
  | [] => none
  | magic :: payloads =>
      if magic ≠ witnessMagic ∨ payloads = [] then
        none
      else
        payloads.mapM payloadItem

/-- Decode the witness of a batch input without version fallback. -/
def witnessEnvelopeDecode
    (witness : List (List UInt8)) : Option (BatchVersion × List TruncatedDigest) :=
  match witness with
  | [] => none
  | magic :: items =>
      if magic = witnessMagic then
        (envelopeDecode witness.dropLast).map (fun payloads => (.v1, payloads))
      else if magic = witnessMagicV2 then
        if witness.length < 4 ∨ witness.length > maxBatchV2Participants + 3 then
          none
        else
          -- `OCS2, payloads..., stock signature, script`
          let payloadItems := items.dropLast.dropLast
          let signature := items.dropLast.getLast?.getD []
          let script := items.getLast?.getD []
          if signature = [] ∨ signature.length > maxWitnessItem ∨ script = [] then
            none
          else
            (payloadItems.mapM (fun item => (Bytes.tryFrom 24 item).map TruncatedDigest.mk)).map
              (fun payloads => (.v2, payloads))
      else
        none

/-- A decoded envelope holds at least one payload. -/
theorem witnessEnvelopeDecode_ne_nil
    {witness : List (List UInt8)}
    {version : BatchVersion}
    {payloads : List TruncatedDigest}
    (h : witnessEnvelopeDecode witness = some (version, payloads)) :
    payloads ≠ [] := by
  unfold witnessEnvelopeDecode at h
  split at h
  · cases h
  · rename_i magic items
    split_ifs at h with h₁ h₂ hlen
    · -- the legacy decoder refuses an empty payload list
      obtain ⟨ps, hps, heq⟩ := Option.map_eq_some_iff.mp h
      obtain ⟨-, rfl⟩ := Prod.mk.inj heq
      unfold envelopeDecode at hps
      split at hps
      · cases hps
      · rename_i hempty
        split_ifs at hps with hbad
        have hlength := length_of_mapM_eq_some hps
        rintro rfl
        exact hbad (Or.inr (List.length_eq_zero_iff.mp hlength.symm))
    · simp only at h
      split_ifs at h
      obtain ⟨ps, hps, heq⟩ := Option.map_eq_some_iff.mp h
      obtain ⟨-, rfl⟩ := Prod.mk.inj heq
      have hlength := length_of_mapM_eq_some hps
      rintro rfl
      simp only [List.length_nil, List.length_dropLast] at hlength
      simp only [List.length_cons] at hlen
      omega

end Envelope

section Occurrence

variable {sponge : Sponge}

/-- A batch payload occurs when the envelope belongs to the header and contains it. -/
theorem versionedEnvelopeOccurrence_eq_some_iff
    {version : BatchVersion}
    {count : UInt8}
    {committed : TruncatedDigest}
    {envelope : List TruncatedDigest}
    {ctx : Ctx}
    {rawNf : Digest}
    {i : UInt32} :
    versionedEnvelopeOccurrence sponge version (.batchHeader count committed) envelope ctx
        rawNf = some i
      ↔
    envelopeMatches sponge version count committed envelope ctx = true ∧
      (envelope.findIdx? (fun p => p == bound sponge ctx rawNf)).map UInt32.ofNat = some i := by
  unfold versionedEnvelopeOccurrence
  by_cases hmatches : envelopeMatches sponge version count committed envelope ctx = true
  · simp [hmatches]
  · simp [hmatches]

/-- Only batch headers have envelope occurrences. -/
theorem recordClass_of_envelopeOccurrence
    {version : BatchVersion}
    {record : AnchorRecord}
    {envelope : List TruncatedDigest}
    {ctx : Ctx}
    {rawNf : Digest}
    {i : UInt32}
    (h : versionedEnvelopeOccurrence sponge version record envelope ctx rawNf = some i) :
    record.recordClass = .batch := by
  cases record <;> simp [versionedEnvelopeOccurrence, AnchorRecord.recordClass] at h ⊢

/-- The occurrence index is an index of the envelope. -/
theorem occurrence_lt_length
    {version : BatchVersion}
    {record : AnchorRecord}
    {envelope : List TruncatedDigest}
    {ctx : Ctx}
    {rawNf : Digest}
    {i : UInt32}
    (h : versionedEnvelopeOccurrence sponge version record envelope ctx rawNf = some i) :
    i.toNat < envelope.length := by
  cases record with
  | batchHeader count committed =>
      obtain ⟨hmatches, hindex⟩ := versionedEnvelopeOccurrence_eq_some_iff.mp h
      obtain ⟨j, hj, rfl⟩ := Option.map_eq_some_iff.mp hindex
      have hlt : j < envelope.length := (List.findIdx?_eq_some_iff_getElem.mp hj).1
      have hlen : envelope.length = count.toNat := by
        simp only [envelopeMatches, Bool.and_eq_true, beq_iff_eq] at hmatches
        exact hmatches.1
      have hcount : count.toNat < 2 ^ 8 := count.toNat_lt
      rw [UInt32.toNat_ofNat', Nat.mod_eq_of_lt (by omega)]
      exact hlt
  | _ =>
      cases h

end Occurrence

end OpenCsv
