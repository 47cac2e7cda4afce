import OpenCsv.Cbf.Scan
import OpenCsv.Ffi.Hex
import OpenCsv.Lib.Groups
import OpenCsv.Lib.Json

/-!
# The anchor-log snapshot

A snapshot is the JSON view of the anchor log that the host passes to the
offline verifier.  Import parses every hex field, re-validates every attached
envelope against its header, and fails as a whole when one entry does.

`SnapshotChain` answers the accept driver's queries from the imported entries.
The location `(0, 0)` stands for the mempool: it resolves by transaction id, and
entries that sit there come after every confirmed occurrence.

**Results.** A snapshot survives its JSON form (`Snapshot.fromJson_toJson`), and an
entry survives import when its record parses back and its envelope, if any,
belongs to its header (`SnapshotEntry.decode_ofAnchorTx`).
-/

namespace OpenCsv

open ScanIndex (mempool refMatches)

/-- Batch witness data of an entry, hex encoded. -/
structure SnapshotBatchEnvelope where
  version : UInt8
  payloads : List Text
deriving DecidableEq

/-- Serde form of one anchor entry. -/
structure SnapshotEntry where
  height : UInt64
  position : UInt32
  txid : Text
  ctx : Text
  record : Text
  batch : Option SnapshotBatchEnvelope
deriving DecidableEq

/-- Serde form of a whole snapshot. -/
structure Snapshot where
  tipHeight : UInt64
  entries : List SnapshotEntry
deriving DecidableEq

/-- A read-only chain view decoded from a snapshot. -/
structure SnapshotChain where
  tipHeight : UInt64
  entries : List AnchorTx
deriving DecidableEq

section Serde

def SnapshotBatchEnvelope.toJson (batch : SnapshotBatchEnvelope) : Json :=
  .obj [ ("version", .num batch.version.toNat), ("payloads", .arr (batch.payloads.map .str)) ]

def SnapshotBatchEnvelope.fromJson (j : Json) : Except Text SnapshotBatchEnvelope := do
  let version ← j.field "version" Json.asU8
  let payloads ← j.field "payloads" (Json.asList Json.asText)
  return ⟨version, payloads⟩

/-- An absent envelope is skipped, not written as null. -/
def SnapshotEntry.toJson (e : SnapshotEntry) : Json :=
  .obj ([ ("height", .num e.height.toNat), ("position", .num e.position.toNat),
      ("txid", .str e.txid), ("ctx", .str e.ctx), ("record", .str e.record) ] ++
    match e.batch with
    | none => []
    | some batch => [("batch", batch.toJson)])

def SnapshotEntry.fromJson (j : Json) : Except Text SnapshotEntry := do
  let height ← j.field "height" Json.asU64
  let position ← j.field "position" Json.asU32
  let txid ← j.field "txid" Json.asText
  let ctx ← j.field "ctx" Json.asText
  let record ← j.field "record" Json.asText
  let batch ← j.optional "batch" SnapshotBatchEnvelope.fromJson
  return ⟨height, position, txid, ctx, record, batch⟩

def Snapshot.toJson (s : Snapshot) : Json :=
  .obj [ ("tip_height", .num s.tipHeight.toNat),
    ("entries", .arr (s.entries.map SnapshotEntry.toJson)) ]

def Snapshot.fromJson (j : Json) : Except Text Snapshot := do
  let tipHeight ← j.field "tip_height" Json.asU64
  let entries ← j.field "entries" (Json.asList SnapshotEntry.fromJson)
  return ⟨tipHeight, entries⟩

theorem SnapshotBatchEnvelope.fromJson_toJson
    (batch : SnapshotBatchEnvelope) :
    SnapshotBatchEnvelope.fromJson batch.toJson = .ok batch := by
  simp [fromJson, toJson, Json.field, Json.member, okOr, bind, Except.bind, pure, Except.pure]

theorem SnapshotEntry.fromJson_toJson
    (e : SnapshotEntry) :
    SnapshotEntry.fromJson e.toJson = .ok e := by
  obtain ⟨height, position, txid, ctx, record, batch⟩ := e
  cases batch with
  | none =>
      simp [fromJson, toJson, Json.field, Json.optional, Json.member, okOr, bind, Except.bind,
        pure, Except.pure]
  | some batch =>
      have hbatch := SnapshotBatchEnvelope.fromJson_toJson batch
      simp only [SnapshotBatchEnvelope.toJson] at hbatch
      simp [fromJson, toJson, Json.field, Json.optional, Json.member, Json.orNull,
        SnapshotBatchEnvelope.toJson, hbatch, okOr, bind, Except.bind, pure, Except.pure,
        Except.map]

/-- A snapshot is read back from its JSON form. -/
theorem Snapshot.fromJson_toJson
    (s : Snapshot) :
    Snapshot.fromJson s.toJson = .ok s := by
  have hentries : Json.asList SnapshotEntry.fromJson
      (.arr (s.entries.map SnapshotEntry.toJson)) = .ok s.entries :=
    Json.asList_map (fun e _ => SnapshotEntry.fromJson_toJson e)
  simp [fromJson, toJson, Json.field, Json.member, hentries, okOr, bind, Except.bind, pure,
    Except.pure]

end Serde

section Import

variable (sponge : Sponge)

/-- Decode an attached envelope and check it against the record. -/
def SnapshotBatchEnvelope.decode
    (record : AnchorRecord)
    (ctx : Ctx)
    (batch : SnapshotBatchEnvelope) :
    Except OpError (BatchVersion × List TruncatedDigest) := do
  let version ←
    match batch.version with
    | 1 => .ok BatchVersion.v1
    | 2 => .ok BatchVersion.v2
    | version => .error (Text.lit "snapshot batch version " ++ Text.ofNat version.toNat)
  let payloads ← batch.payloads.mapM (fun payload =>
    (fromHexArray 24 payload "snapshot batch payload").map TruncatedDigest.mk)
  match record with
  | .batchHeader count committed =>
      if envelopeMatches sponge version count committed payloads ctx then
        return (version, payloads)
      else
        .error (Text.lit "snapshot batch envelope does not match its record")
  | _ => .error (Text.lit "snapshot envelope accompanies a non-batch record")

/-- Decode the envelope of an entry, if it has one. -/
def SnapshotEntry.decodeBatch
    (e : SnapshotEntry)
    (record : AnchorRecord)
    (ctx : Ctx) : Except OpError (Option (BatchVersion × List TruncatedDigest)) :=
  match e.batch with
  | none => .ok none
  | some batch => (batch.decode sponge record ctx).map some

/-- Decode one entry. -/
def SnapshotEntry.decode (e : SnapshotEntry) : Except OpError AnchorTx := do
  let txid ← fromHexArray 32 e.txid "snapshot txid"
  let ctx ← fromHexArray 32 e.ctx "snapshot ctx"
  let recordBytes ← fromHexArray 64 e.record "snapshot record"
  let record := AnchorRecord.fromBytes recordBytes
  let batch ← e.decodeBatch sponge record ctx
  return ⟨⟨e.height, e.position⟩, txid, record, ctx, batch⟩

/-- Build a chain view from a snapshot; one bad entry refuses the whole. -/
def SnapshotChain.fromSnapshot (snapshot : Snapshot) : Except OpError SnapshotChain := do
  let entries ← snapshot.entries.mapM (SnapshotEntry.decode sponge)
  return ⟨snapshot.tipHeight,
    entries.insertionSort (fun a b => a.location.le b.location = true)⟩

/-- Build a chain view from a snapshot text. -/
def SnapshotChain.fromJson (codec : JsonText) (text : Text) : Except OpError SnapshotChain :=
  match codec.parse text >>= Snapshot.fromJson with
  | .error e => .error (Text.lit "snapshot JSON: " ++ e)
  | .ok snapshot => SnapshotChain.fromSnapshot sponge snapshot

end Import

namespace SnapshotChain

section Chain

variable (sponge : Sponge)

/-- Occurrence test of one entry. -/
def entryMatchesNullifier (entry : AnchorTx) (rawNf : Digest) : Bool :=
  match entry.batch with
  | some (version, payloads) =>
      (versionedEnvelopeOccurrence sponge version entry.record payloads entry.ctx
        rawNf).isSome
  | none => entry.record.wellFormed sponge entry.ctx rawNf

/-- Entry lookup, by transaction id alone for a mempool reference. -/
def find (chain : SnapshotChain) (ref : AnchorRef) : Option AnchorTx :=
  chain.entries.find? (fun e => refMatches ref e.txid e.location)

/-- The proof record of one consignment; see `AnchorChain.proofRecordAt`. -/
def proofRecordAt
    (chain : SnapshotChain)
    (ref : AnchorRef)
    (rawNullifiers : List Digest) : Option AnchorRecord :=
  match chain.find ref with
  | none => none
  | some entry =>
      match entry.record with
      | .batchHeader .. =>
          match rawNullifiers, entry.batch with
          | [rawNf], some (version, payloads) =>
              if (versionedEnvelopeOccurrence sponge version entry.record payloads entry.ctx
                  rawNf).isSome then
                AnchorRecord.xferOf sponge [rawNf] entry.ctx
              else
                none
          | _, _ => none
      | record => some record

/-- Confirmed occurrences only; mempool entries have no canonical order. -/
def nullifierOccurrences (chain : SnapshotChain) (rawNf : Digest) : List AnchorLocation :=
  ((chain.entries.filter (fun e => e.location != mempool)).filter
    (fun e => entryMatchesNullifier sponge e rawNf)).map AnchorTx.location

/-- A confirmed occurrence wins over a provisional one. -/
def firstNullifierOccurrence (chain : SnapshotChain) (rawNf : Digest) :
    Option AnchorLocation :=
  (chain.nullifierOccurrences sponge rawNf).head?.or
    ((chain.entries.find? (fun e =>
      e.location == mempool && entryMatchesNullifier sponge e rawNf)).map AnchorTx.location)

/-- The snapshot as an anchor chain. -/
def toAnchorChain (chain : SnapshotChain) : AnchorChain where
  tipHeight := chain.tipHeight
  anchorAt := fun ref => (chain.find ref).map AnchorTx.record
  proofRecordAt := chain.proofRecordAt sponge
  ctxAt := fun ref => (chain.find ref).map AnchorTx.ctx
  locate := fun ref => (chain.find ref).map AnchorTx.location
  firstNullifierOccurrence := chain.firstNullifierOccurrence sponge
  nullifierOccurrences := chain.nullifierOccurrences sponge
  anchorsUpTo := fun height =>
    (chain.entries.filter (fun e =>
      e.location != mempool && e.location.height ≤ height)).map
      (fun e => (e.location, e.record))
  confirmationsAt := fun height =>
    if height = mempool.height ∨ height > chain.tipHeight then 0
    else chain.tipHeight - height + 1

end Chain

end SnapshotChain

section Export

/-- The version number of an exported envelope. -/
def BatchVersion.number : BatchVersion → UInt8
  | .v1 => 1
  | .v2 => 2

/-- Re-encode an anchor transaction for snapshot JSON. -/
def SnapshotEntry.ofParts
    (location : AnchorLocation)
    (txid : Bytes 32)
    (record : AnchorRecord)
    (ctx : Ctx)
    (batch : Option (BatchVersion × List TruncatedDigest)) : SnapshotEntry where
  height := location.height
  position := location.position
  txid := toHex txid.toList
  ctx := toHex ctx.toList
  record := toHex record.toBytes.toList
  batch := batch.map (fun (version, payloads) =>
    { version := version.number
      payloads := payloads.map (fun p => toHex p.bytes.toList) })

def SnapshotEntry.ofAnchorTx (t : AnchorTx) : SnapshotEntry :=
  SnapshotEntry.ofParts t.location t.txid t.record t.ctx t.batch

/-- The entry a candidate contributes: its whole envelope, without its index. -/
def SnapshotEntry.ofScanned (e : ScannedAnchor) : SnapshotEntry :=
  SnapshotEntry.ofParts e.location e.txid e.record e.ctx
    (e.batch.map (fun batch => (batch.version, batch.envelope)))

/-- One entry per transaction, in chain order. -/
def snapshotEntries (occurrences : List ScannedAnchor) : List SnapshotEntry :=
  ((firstOfEach (fun e => (e.location, e.txid)) [] occurrences).map
    SnapshotEntry.ofScanned).insertionSort
      (fun a b => AnchorLocation.le ⟨a.height, a.position⟩ ⟨b.height, b.position⟩ = true)

/-- Export the scan index as snapshot JSON. -/
def exportSnapshotJson (index : ScanIndex) : Json :=
  Snapshot.toJson ⟨index.syncedTip, snapshotEntries index.occurrences⟩

end Export

section RoundTrip

variable {sponge : Sponge}

/-- Does an entry survive export and import? -/
def AnchorTx.exportable (sponge : Sponge) (t : AnchorTx) : Bool :=
  t.record.parsesCleanly &&
    match t.batch, t.record with
    | none, _ => true
    | some (version, envelope), .batchHeader count committed =>
        envelopeMatches sponge version count committed envelope t.ctx
    | some _, _ => false

/-- An exportable envelope belongs to the header it came with. -/
theorem AnchorTx.envelopeMatches_of_exportable
    {t : AnchorTx}
    {version : BatchVersion}
    {envelope : List TruncatedDigest}
    (h : t.exportable sponge = true)
    (hbatch : t.batch = some (version, envelope)) :
    ∃ count committed, t.record = .batchHeader count committed ∧
      envelopeMatches sponge version count committed envelope t.ctx = true := by
  unfold exportable at h
  rw [hbatch, Bool.and_eq_true] at h
  cases hr : t.record with
  | batchHeader count committed =>
      rw [hr] at h
      exact ⟨count, committed, rfl, h.2⟩
  | _ =>
      rw [hr] at h
      cases h.2

/-- An envelope that belongs to its header is decoded from its export. -/
theorem SnapshotBatchEnvelope.decode_ofAnchorTx
    {t : AnchorTx}
    {version : BatchVersion}
    {envelope : List TruncatedDigest}
    (h : t.exportable sponge = true)
    (hbatch : t.batch = some (version, envelope)) :
    SnapshotBatchEnvelope.decode sponge t.record t.ctx
      { version := version.number
        payloads := envelope.map (fun p => toHex p.bytes.toList) } =
      .ok (version, envelope) := by
  obtain ⟨count, committed, hrecord, hmatches⟩ := AnchorTx.envelopeMatches_of_exportable h hbatch
  have hpayloads : (envelope.map (fun p => toHex p.bytes.toList)).mapM (fun payload =>
      (fromHexArray 24 payload "snapshot batch payload").map TruncatedDigest.mk) =
      .ok envelope := by
    apply mapM_map_eq_ok
    intro p _
    rw [fromHexArray_toHex]
    rfl
  rw [hrecord]
  cases version with
  | v1 =>
      simp [decode, BatchVersion.number, hpayloads, hmatches, bind, Except.bind, pure, Except.pure]
  | v2 =>
      simp [decode, BatchVersion.number, hpayloads, hmatches, bind, Except.bind, pure, Except.pure]

/-- An exportable entry with a parsed record is decoded from its export. -/
theorem SnapshotEntry.decode_ofAnchorTx
    {t : AnchorTx}
    (hparsed : ∃ b, t.record = AnchorRecord.fromBytes b)
    (h : t.exportable sponge = true) :
    SnapshotEntry.decode sponge (SnapshotEntry.ofAnchorTx t) = .ok t := by
  have hrecord : AnchorRecord.fromBytes t.record.toBytes = t.record := by
    apply AnchorRecord.fromBytes_toBytes_of_parsesCleanly (Bool.and_eq_true_iff.mp h).1
    intro p hp
    obtain ⟨b, hb⟩ := hparsed
    have hcompressed := AnchorRecord.fromBytes_isXferCompressed b
    rw [← hb, hp] at hcompressed
    cases hcompressed
  rw [decode, except_bind_eq_ok_iff]
  refine ⟨t.txid, fromHexArray_toHex _ _, ?_⟩
  rw [except_bind_eq_ok_iff]
  refine ⟨t.ctx, fromHexArray_toHex _ _, ?_⟩
  rw [except_bind_eq_ok_iff]
  refine ⟨t.record.toBytes, fromHexArray_toHex _ _, ?_⟩
  rw [except_bind_eq_ok_iff]
  refine ⟨t.batch, ?_, ?_⟩
  · rw [decodeBatch]
    cases hbatch : t.batch with
    | none =>
        simp [ofAnchorTx, ofParts, hbatch]
    | some batch =>
        obtain ⟨version, envelope⟩ := batch
        simp only [ofAnchorTx, ofParts, hbatch, Option.map_some, hrecord]
        rw [SnapshotBatchEnvelope.decode_ofAnchorTx h hbatch]
        rfl
  · rw [hrecord]
    rfl

end RoundTrip

end OpenCsv
