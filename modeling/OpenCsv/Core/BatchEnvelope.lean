import OpenCsv.Kernel.Hash

/-!
# Batch envelopes

The payloads of a batch travel as witness items behind a magic tag.  Encoding and decoding
belong together for each version, no envelope is read as one of the other version, and an
occurrence is the first payload that equals the binding, in an envelope that belongs to the
header.

**Result.** `batch_envelopes`.
-/

namespace OpenCsv

section Encoding

/-- Encode a payload envelope: the magic tag and one item per payload. -/
def envelopeEncode (payloads : List TruncatedDigest) : List (List UInt8) :=
  witnessMagic :: payloads.map (fun payload => payload.bytes.toList)

/-- The non-signature part of a v2 witness envelope. -/
def envelopeV2Encode (payloads : List TruncatedDigest) : Option (List (List UInt8)) :=
  if payloads = [] ∨ payloads.length > maxBatchV2Participants then
    none
  else
    some (witnessMagicV2 :: payloads.map (fun payload => payload.bytes.toList))

/-- The items the Bitcoin layer appends to a v2 envelope: stock signature and script. -/
def stockItems (signature script : List UInt8) : List (List UInt8) :=
  [signature, script]

/-- The stock items that a v2 witness may carry. -/
def stockItemsValid (signature script : List UInt8) : Bool :=
  decide (signature ≠ [] ∧ signature.length ≤ maxWitnessItem ∧ script ≠ [])

end Encoding

section Occurrence

variable (sponge : Sponge)

/-- Batch occurrence test of the legacy version, by the kernel. -/
def envelopeOccurrence
    (record : AnchorRecord)
    (envelope : List TruncatedDigest)
    (ctx : Ctx)
    (rawNf : Digest) : Option UInt32 :=
  match record with
  | .batchHeader count committed =>
      Kernel.batchOccurrence sponge count committed.bytes (envelope.map TruncatedDigest.bytes) ctx
        rawNf.bytes
  | _ => none

end Occurrence

section RoundTrips

theorem tryFrom_payload
    (payload : TruncatedDigest) :
    (Bytes.tryFrom 24 payload.bytes.toList).map TruncatedDigest.mk = some payload := by
  have hitem : Bytes.tryFrom 24 payload.bytes.toList = some payload.bytes := by
    rw [Bytes.tryFrom_eq_some_iff]
  rw [hitem]
  rfl

theorem payloadItem_payload
    (payload : TruncatedDigest) :
    payloadItem payload.bytes.toList = some payload := by
  have hlen : ¬ payload.bytes.toList.length > maxWitnessItem := by
    rw [List.Vector.toList_length]
    decide
  rw [payloadItem, if_neg hlen, tryFrom_payload]

/-- A decoder that reads each payload back reads a list of them back. -/
theorem mapM_payloads
    {f : List UInt8 → Option TruncatedDigest}
    (hf : ∀ payload : TruncatedDigest, f payload.bytes.toList = some payload)
    (payloads : List TruncatedDigest) :
    (payloads.map (fun payload => payload.bytes.toList)).mapM f = some payloads := by
  induction payloads with
  | nil => rfl
  | cons payload payloads ih =>
      rw [List.map_cons, List.mapM_cons, ih, hf payload]
      rfl

/-- A legacy envelope is read back, unless it is empty. -/
theorem envelopeDecode_envelopeEncode
    (payloads : List TruncatedDigest) :
    envelopeDecode (envelopeEncode payloads) = if payloads = [] then none else some payloads := by
  rw [envelopeEncode, envelopeDecode]
  by_cases hnil : payloads = []
  · rw [if_pos hnil, if_pos (Or.inr (by rw [hnil, List.map_nil]))]
  · rw [if_neg hnil, if_neg (by simp [hnil]), mapM_payloads payloadItem_payload]

theorem witnessMagic_ne :
    witnessMagicV2 ≠ witnessMagic := by
  decide

theorem witnessDecode_envelopeEncode
    (payloads : List TruncatedDigest)
    (script : List UInt8) :
    witnessEnvelopeDecode (envelopeEncode payloads ++ [script]) =
      if payloads = [] then none else some (.v1, payloads) := by
  have hdecode : witnessEnvelopeDecode (envelopeEncode payloads ++ [script]) =
      (envelopeDecode (envelopeEncode payloads)).map (fun payloads => (.v1, payloads)) := by
    show witnessEnvelopeDecode (witnessMagic :: _) = _
    rw [witnessEnvelopeDecode, if_pos rfl]
    congr 2
    show (envelopeEncode payloads ++ [script]).dropLast = envelopeEncode payloads
    exact List.dropLast_concat
  rw [hdecode, envelopeDecode_envelopeEncode]
  split
  · rfl
  · rfl

/-- A v2 envelope is read back from a witness with a signature and a script. -/
theorem witnessDecode_envelopeV2Encode
    {payloads : List TruncatedDigest}
    {items : List (List UInt8)}
    (h : envelopeV2Encode payloads = some items)
    (signature script : List UInt8) :
    witnessEnvelopeDecode (items ++ stockItems signature script) =
      if stockItemsValid signature script then some (.v2, payloads) else none := by
  rw [envelopeV2Encode] at h
  split at h
  · cases h
  rename_i hcount
  rw [not_or] at hcount
  cases h
  set encoded := payloads.map (fun payload => payload.bytes.toList) with hencoded
  have hpos : 0 < payloads.length := List.length_pos_of_ne_nil hcount.1
  have hlen : (witnessMagicV2 :: (encoded ++ [signature, script])).length = payloads.length + 3 := by
    simp [hencoded]
  have hsplit : encoded ++ [signature, script] = (encoded ++ [signature]) ++ [script] := by
    rw [List.append_assoc]
    rfl
  have hbody : (encoded ++ [signature, script]).dropLast = encoded ++ [signature] := by
    rw [hsplit, List.dropLast_concat]
  have hscript : (encoded ++ [signature, script]).getLast? = some script := by
    rw [hsplit, List.getLast?_concat]
  show witnessEnvelopeDecode (witnessMagicV2 :: (encoded ++ [signature, script])) = _
  rw [witnessEnvelopeDecode, if_neg witnessMagic_ne, if_pos rfl, hlen,
    if_neg (by have := hcount.2; omega)]
  simp only [hbody, hscript, List.dropLast_concat, List.getLast?_concat, Option.getD_some]
  rw [mapM_payloads tryFrom_payload]
  by_cases hvalid : signature ≠ [] ∧ signature.length ≤ maxWitnessItem ∧ script ≠ []
  · have hstock : stockItemsValid signature script = true := decide_eq_true hvalid
    rw [if_neg (by simp only [not_or]; exact ⟨hvalid.1, by omega, hvalid.2.2⟩), if_pos hstock]
    rfl
  · have hbad : signature = [] ∨ signature.length > maxWitnessItem ∨ script = [] := by
      by_contra hgood
      simp only [not_or] at hgood
      exact hvalid ⟨hgood.1, by omega, hgood.2.2⟩
    have hstock : ¬ stockItemsValid signature script = true :=
      fun h => hvalid (of_decide_eq_true h)
    rw [if_pos hbad, if_neg hstock]

/-- The magic tag alone selects the version. -/
theorem version_of_decode
    {witness : List (List UInt8)}
    {version : BatchVersion}
    {payloads : List TruncatedDigest}
    (h : witnessEnvelopeDecode witness = some (version, payloads)) :
    witness.head? = some (match version with
      | .v1 => witnessMagic
      | .v2 => witnessMagicV2) := by
  cases witness with
  | nil => cases h
  | cons magic items =>
      rw [witnessEnvelopeDecode] at h
      by_cases hv1 : magic = witnessMagic
      · rw [if_pos hv1] at h
        obtain ⟨_, -, heq⟩ := Option.map_eq_some_iff.mp h
        cases heq
        exact congrArg some hv1
      · rw [if_neg hv1] at h
        by_cases hv2 : magic = witnessMagicV2
        · rw [if_pos hv2] at h
          split at h
          · cases h
          · simp only at h
            split at h
            · cases h
            · obtain ⟨_, -, heq⟩ := Option.map_eq_some_iff.mp h
              cases heq
              exact congrArg some hv2
        · rw [if_neg hv2] at h
          cases h

end RoundTrips

section Occurrences

variable {sponge : Sponge}

theorem envelopeMatches_iff
    {version : BatchVersion}
    {count : UInt8}
    {committed : TruncatedDigest}
    {envelope : List TruncatedDigest}
    {ctx : Ctx} :
    envelopeMatches sponge version count committed envelope ctx = true ↔
      envelope.length = count.toNat ∧
        (versionedBatchCommit sponge version envelope ctx).toAnchor = committed := by
  simp [envelopeMatches]

/-- The first index with a payload, as a `u32`. -/
theorem findIdx_eq_some_iff
    {envelope : List TruncatedDigest}
    (hlen : envelope.length < 2 ^ 32)
    {payload : TruncatedDigest}
    {i : UInt32} :
    (envelope.findIdx? (fun p => p == payload)).map UInt32.ofNat = some i ↔
      envelope[i.toNat]? = some payload ∧ ∀ j < i.toNat, envelope[j]? ≠ some payload := by
  rw [Option.map_eq_some_iff]
  constructor
  · rintro ⟨j, hj, rfl⟩
    obtain ⟨hlt, hfound, hearlier⟩ := List.findIdx?_eq_some_iff_getElem.mp hj
    have hvalue : (UInt32.ofNat j).toNat = j := by
      rw [UInt32.toNat_ofNat', Nat.mod_eq_of_lt (by omega)]
    rw [hvalue]
    refine ⟨?_, ?_⟩
    · rw [List.getElem?_eq_getElem hlt, beq_iff_eq.mp hfound]
    · intro k hk hget
      obtain ⟨hlt', hget⟩ := List.getElem?_eq_some_iff.mp hget
      exact hearlier k hk (beq_iff_eq.mpr hget)
  · rintro ⟨hfound, hearlier⟩
    obtain ⟨hlt, hget⟩ := List.getElem?_eq_some_iff.mp hfound
    refine ⟨i.toNat, List.findIdx?_eq_some_iff_getElem.mpr ⟨hlt, beq_iff_eq.mpr hget, ?_⟩, ?_⟩
    · intro k hk hbeq
      refine hearlier k hk ?_
      rw [List.getElem?_eq_getElem (by omega), beq_iff_eq.mp hbeq]
    · exact UInt32.ofNat_toNat

/-- An occurrence is the first payload that equals the binding, in an envelope of the header. -/
theorem occurrence_iff
    {version : BatchVersion}
    {record : AnchorRecord}
    {envelope : List TruncatedDigest}
    {ctx : Ctx}
    {rawNf : Digest}
    {i : UInt32} :
    versionedEnvelopeOccurrence sponge version record envelope ctx rawNf = some i ↔
      ∃ count committed, record = .batchHeader count committed ∧
        envelope.length = count.toNat ∧
          (versionedBatchCommit sponge version envelope ctx).toAnchor = committed ∧
            envelope[i.toNat]? = some (bound sponge ctx rawNf) ∧
              ∀ j < i.toNat, envelope[j]? ≠ some (bound sponge ctx rawNf) := by
  cases record with
  | batchHeader count committed =>
      have hcount := count.toNat_lt
      rw [versionedEnvelopeOccurrence_eq_some_iff, envelopeMatches_iff]
      constructor
      · rintro ⟨⟨hlen, hcommit⟩, hindex⟩
        exact ⟨count, committed, rfl, hlen, hcommit, (findIdx_eq_some_iff (by omega)).mp hindex⟩
      · rintro ⟨count', committed', heq, hlen, hcommit, hindex⟩
        cases heq
        exact ⟨⟨hlen, hcommit⟩, (findIdx_eq_some_iff (by omega)).mpr hindex⟩
  | _ =>
      refine iff_of_false nofun ?_
      rintro ⟨count, committed, heq, -⟩
      cases heq

/-- For the legacy version the kernel decides. -/
theorem envelopeOccurrence_eq
    (record : AnchorRecord)
    (envelope : List TruncatedDigest)
    (ctx : Ctx)
    (rawNf : Digest) :
    versionedEnvelopeOccurrence sponge .v1 record envelope ctx rawNf =
      envelopeOccurrence sponge record envelope ctx rawNf := by
  cases record with
  | batchHeader count committed =>
      have hcommit : Kernel.truncate24
          (Kernel.hashBatch sponge (envelope.map TruncatedDigest.bytes) ctx) =
            (versionedBatchCommit sponge .v1 envelope ctx).toAnchor.bytes := by
        rw [Kernel.hashBatch_eq]
        rfl
      have hpayload : (fun p : TruncatedDigest =>
          p.bytes == (bound sponge ctx rawNf).bytes) = (fun p => p == bound sponge ctx rawNf) := by
        funext p
        rw [Bool.eq_iff_iff, beq_iff_eq, beq_iff_eq, TruncatedDigest.ext_iff]
      rw [versionedEnvelopeOccurrence, envelopeOccurrence, Kernel.batchOccurrence, List.length_map,
        hcommit, Kernel.binding_eq, List.findIdx?_map]
      simp only [Function.comp_def, hpayload]
      by_cases hlen : envelope.length = count.toNat
      · by_cases hcommitted : (versionedBatchCommit sponge .v1 envelope ctx).toAnchor = committed
        · rw [if_pos (envelopeMatches_iff.mpr ⟨hlen, hcommitted⟩), if_neg (not_not.mpr hlen),
            if_neg (not_not.mpr (congrArg TruncatedDigest.bytes hcommitted))]
        · rw [if_neg (fun h => hcommitted (envelopeMatches_iff.mp h).2), if_neg (not_not.mpr hlen),
            if_pos (fun h => hcommitted (TruncatedDigest.ext h))]
      · rw [if_neg (fun h => hlen (envelopeMatches_iff.mp h).1), if_pos hlen]
  | _ => rfl

/--
Envelopes are read back, each version by its own decoder only, and an occurrence is the first
payload that equals the binding, for the legacy version as the kernel says.
-/
theorem batch_envelopes
    (sponge : Sponge) :
    (∀ payloads, envelopeDecode (envelopeEncode payloads) =
        if payloads = [] then none else some payloads) ∧
      (∀ payloads script, witnessEnvelopeDecode (envelopeEncode payloads ++ [script]) =
        if payloads = [] then none else some (.v1, payloads)) ∧
      (∀ payloads, envelopeV2Encode payloads = none ↔
        payloads = [] ∨ maxBatchV2Participants < payloads.length) ∧
      (∀ payloads items signature script, envelopeV2Encode payloads = some items →
        witnessEnvelopeDecode (items ++ stockItems signature script) =
          if stockItemsValid signature script then some (.v2, payloads) else none) ∧
    (∀ payloads rest version decoded,
        witnessEnvelopeDecode (envelopeEncode payloads ++ rest) = some (version, decoded) →
          version = .v1) ∧
      (∀ payloads items rest version decoded, envelopeV2Encode payloads = some items →
        (witnessEnvelopeDecode (items ++ rest) = some (version, decoded) → version = .v2) ∧
          envelopeDecode (items ++ rest) = none) ∧
    (∀ version record envelope ctx rawNf i,
        versionedEnvelopeOccurrence sponge version record envelope ctx rawNf = some i ↔
          ∃ count committed, record = .batchHeader count committed ∧
            envelope.length = count.toNat ∧
              (versionedBatchCommit sponge version envelope ctx).toAnchor = committed ∧
                envelope[i.toNat]? = some (bound sponge ctx rawNf) ∧
                  ∀ j < i.toNat, envelope[j]? ≠ some (bound sponge ctx rawNf)) ∧
      (∀ count committed envelope ctx rawNf,
        versionedEnvelopeOccurrence sponge .v1 (.batchHeader count committed) envelope ctx rawNf =
          Kernel.batchOccurrence sponge count committed.bytes (envelope.map TruncatedDigest.bytes)
            ctx rawNf.bytes) := by
  refine ⟨envelopeDecode_envelopeEncode, witnessDecode_envelopeEncode, ?_, ?_, ?_, ?_, ?_, ?_⟩
  · intro payloads
    rw [envelopeV2Encode]
    split
    · exact iff_of_true rfl ‹_›
    · exact iff_of_false (by simp) ‹_›
  · intro payloads items signature script h
    exact witnessDecode_envelopeV2Encode h signature script
  · intro payloads rest version decoded h
    have hhead := version_of_decode h
    cases version with
    | v1 => rfl
    | v2 => exact absurd (Option.some.inj hhead).symm witnessMagic_ne
  · intro payloads items rest version decoded h
    obtain ⟨tail, rfl⟩ : ∃ tail, items = witnessMagicV2 :: tail := by
      rw [envelopeV2Encode] at h
      split at h
      · cases h
      · exact ⟨_, (Option.some.inj h).symm⟩
    refine ⟨fun hdecode => ?_, ?_⟩
    · have hhead := version_of_decode hdecode
      cases version with
      | v1 => exact absurd (Option.some.inj hhead) witnessMagic_ne
      | v2 => rfl
    · rw [List.cons_append, envelopeDecode, if_pos (Or.inl witnessMagic_ne)]
  · intro version record envelope ctx rawNf i
    exact occurrence_iff
  · intro count committed envelope ctx rawNf
    exact envelopeOccurrence_eq _ envelope ctx rawNf

/-- An envelope of one payload, with its stock signature and script. -/
theorem batch_envelopes_single :
    let payload : TruncatedDigest := ⟨List.Vector.replicate 24 5⟩
    witnessEnvelopeDecode ([witnessMagicV2, payload.bytes.toList] ++ stockItems [1] [2]) =
        some (.v2, [payload]) ∧
      envelopeDecode ([witnessMagicV2, payload.bytes.toList] ++ stockItems [1] [2]) = none := by
  intro payload
  have hencode : envelopeV2Encode [payload] = some [witnessMagicV2, payload.bytes.toList] := rfl
  have hall := batch_envelopes foldSponge
  refine ⟨?_, ?_⟩
  · exact hall.2.2.2.1 [payload] _ [1] [2] hencode
  · exact (hall.2.2.2.2.2.1 [payload] _ (stockItems [1] [2]) .v2 [payload] hencode).2

end Occurrences

end OpenCsv
