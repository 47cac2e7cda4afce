import OpenCsv.Cli.FileChain
import OpenCsv.Ffi.Snapshot

/-!
# The chain file behind the anchor server

The server keeps one chain file open, appends what clients post, and hands out the whole log as
a snapshot.  A client holds the last snapshot, sorted, and answers all queries from it.

**Results.** Whatever is posted and however often the server is restarted:
* `http_view`: a client sees the log in memory, each record as its bytes are read.
* `http_anchor_stays`: the reference of a posted anchor stays good for every client.
* `phone_view`: the wallet that imports the snapshot sees the same log, but for an anchor at the
  first place of all.
-/

namespace OpenCsv

/-- A request to the server; the text of a body is parsed outside. -/
inductive AnchorRequest where
  | getSnapshot
  | postAnchor (body : Json)
  | postAdvance (body : Json)
  | other (method path : Text)

section Server

/-- The record and the context of a posted anchor; without a context the server draws one. -/
def parseAnchor (random : Ctx) (body : Json) : Except Text (AnchorRecord × Ctx) := do
  let parsed : Text × Option Text ← (do
    let record ← body.field "record" Json.asText
    let ctx ← body.optional "ctx" Json.asText
    return (record, ctx)).mapError (fun e => Text.lit "body: " ++ e)
  let bytes ← (HexUtil.fromHex parsed.1.bytes).mapError
    (fun e => Text.lit "record: " ++ e.message)
  let bytes ← okOr (Bytes.tryFrom 64 bytes)
    (Text.lit "record: expected " ++ Text.ofNat 64 ++ Text.lit " bytes")
  let ctx ← match parsed.2 with
    | none => .ok random
    | some hex => do
        let ctx ← (HexUtil.fromHex hex.bytes).mapError (fun e => Text.lit "ctx: " ++ e.message)
        okOr (Bytes.tryFrom 32 ctx) (Text.lit "ctx: expected 32 bytes")
  return (AnchorRecord.fromBytes bytes, ctx)

/-- The number of blocks of a posted advance. -/
def parseAdvance (body : Json) : Except Text UInt64 :=
  (body.field "blocks" Json.asU64).mapError (fun e => Text.lit "body: " ++ e)

/-- The reply to a refused request. -/
def errorReply (status : ℕ) (message : Text) : ℕ × Json :=
  (status, .obj [("error", .str message)])

/-- The log for export. -/
def FileAnchorChain.snapshot (c : FileAnchorChain) : Snapshot where
  tipHeight := c.tipHeight
  entries := c.entries.map (fun e => SnapshotEntry.ofParts e.location e.txid e.record e.ctx none)

/-- Route one request; `random` is the context the server would draw. -/
def handle
    (sponge : Sponge)
    (autoAdvance : UInt64)
    (random : Ctx)
    (chain : FileAnchorChain) :
    AnchorRequest → FileAnchorChain × (ℕ × Json)
  | .getSnapshot => (chain, (200, chain.snapshot.toJson))
  | .postAnchor body =>
      match parseAnchor random body with
      | .error e => (chain, errorReply 400 e)
      | .ok (record, ctx) =>
          let (chain, anchor) := chain.append sponge record ctx
          let chain := if autoAdvance > 0 then chain.advanceBlocks autoAdvance else chain
          (chain, (200, .obj [ ("txid", .str (toHex anchor.txid.toList)),
            ("height", .num anchor.location.height.toNat),
            ("position", .num anchor.location.position.toNat),
            ("ctx", .str (toHex ctx.toList)) ]))
  | .postAdvance body =>
      match parseAdvance body with
      | .error e => (chain, errorReply 400 e)
      | .ok blocks =>
          let chain := chain.advanceBlocks blocks
          (chain, (200, .obj [("tip_height", .num chain.tipHeight.toNat)]))
  | .other method path =>
      (chain, errorReply 404 (Text.lit "no route " ++ method ++ Text.lit " " ++ path))

end Server

/-- A chain view fetched from the server. -/
structure HttpAnchorChain where
  tipHeight : UInt64
  entries : List MockEntry
deriving DecidableEq

namespace HttpAnchorChain

section Client

/-- Serde form of an entry, as the client reads it. -/
structure EntryJson where
  height : UInt64
  position : UInt32
  txid : Text
  ctx : Text
  record : Text

def EntryJson.fromJson (j : Json) : Except Text EntryJson := do
  let height ← j.field "height" Json.asU64
  let position ← j.field "position" Json.asU32
  let txid ← j.field "txid" Json.asText
  let ctx ← j.field "ctx" Json.asText
  let record ← j.field "record" Json.asText
  return ⟨height, position, txid, ctx, record⟩

/-- A byte array of a snapshot. -/
def readBytes (n : ℕ) (hex : Text) (message : String) : Except CliError (Bytes n) := do
  let bytes ← HexUtil.fromHex hex.bytes
  okOr (Bytes.tryFrom n bytes) (.parse (Text.lit message))

def EntryJson.decode (e : EntryJson) : Except CliError MockEntry := do
  let txid ← readBytes 32 e.txid "snapshot txid is not 32 bytes"
  let ctx ← readBytes 32 e.ctx "snapshot ctx is not 32 bytes"
  let recordBytes ← readBytes 64 e.record "snapshot record is not 64 bytes"
  return ⟨txid, ⟨e.height, e.position⟩, AnchorRecord.fromBytes recordBytes, ctx⟩

/-- The reply of the server, which must have status 200. -/
def replyBody (method path : String) (reply : ℕ × Json) : Except CliError Json :=
  if reply.1 = 200 then
    .ok reply.2
  else
    .error (.parse (Text.lit "anchor server " ++ Text.lit method ++ Text.lit " " ++
      Text.lit path ++ Text.lit ": " ++ Text.ofNat reply.1))

/-- The view of a snapshot. -/
def refresh (reply : ℕ × Json) : Except CliError HttpAnchorChain := do
  let body ← replyBody "GET" "/snapshot" reply
  let snapshot : UInt64 × List EntryJson ← (do
    let tipHeight ← body.field "tip_height" Json.asU64
    let entries ← body.field "entries" (Json.asList EntryJson.fromJson)
    return (tipHeight, entries)).mapError
      (fun e => CliError.parse (Text.lit "anchor server snapshot: " ++ e))
  let entries ← snapshot.2.mapM EntryJson.decode
  return ⟨snapshot.1, entries.insertionSort (fun a b => a.location.le b.location = true)⟩

/-- The body of a posted anchor. -/
def anchorBody (record : AnchorRecord) (ctx : Ctx) : Json :=
  .obj [("record", .str (toHex record.toBytes.toList)), ("ctx", .str (toHex ctx.toList))]

/-- The reference in the server's answer to a posted anchor. -/
def readAnchorReply (reply : ℕ × Json) : Except CliError AnchorRef := do
  let body ← replyBody "POST" "/anchor" reply
  let parsed : Text × Option UInt64 × Option UInt32 ← (do
    let txid ← body.field "txid" Json.asText
    let height ← body.optional "height" Json.asU64
    let position ← body.optional "position" Json.asU32
    return (txid, height, position)).mapError
      (fun e => CliError.parse (Text.lit "anchor server reply: " ++ e))
  let txid ← readBytes 32 parsed.1 "anchor server txid is not 32 bytes"
  match parsed.2 with
  | (some height, some position) => return ⟨txid, ⟨height, position⟩⟩
  -- A server that anchors later is polled, and the one of a chain file has no such route.
  | _ => .error (.parse (Text.lit "anchor server GET /anchor/" ++ parsed.1 ++ Text.lit ": 404"))

/-- Post an anchor, then fetch the new view. -/
def append
    (sponge : Sponge)
    (autoAdvance : UInt64)
    (random : Ctx)
    (server : FileAnchorChain)
    (record : AnchorRecord)
    (ctx : Ctx) :
    FileAnchorChain × Except CliError (AnchorRef × HttpAnchorChain) :=
  let (server, reply) :=
    handle sponge autoAdvance random server (.postAnchor (anchorBody record ctx))
  (server, do
    let ref ← readAnchorReply reply
    let view ← refresh (handle sponge autoAdvance random server .getSnapshot).2
    return (ref, view))

end Client

section View

def find (chain : HttpAnchorChain) (ref : AnchorRef) : Option MockEntry :=
  chain.entries.find? (fun e => e.location == ref.location && e.txid == ref.txid)

def nullifierOccurrences
    (sponge : Sponge)
    (chain : HttpAnchorChain)
    (rawNf : Digest) : List AnchorLocation :=
  ((chain.entries.filter (fun e => e.record.wellFormed sponge e.ctx rawNf)).map
    MockEntry.location).insertionSort (fun a b => a.le b = true)

/-- The chain view of the snapshot. -/
def toAnchorChain (sponge : Sponge) (chain : HttpAnchorChain) : AnchorChain where
  tipHeight := chain.tipHeight
  anchorAt := fun ref => (chain.find ref).map MockEntry.record
  proofRecordAt := fun ref _ =>
    AnchorChain.soloProofRecord ((chain.find ref).map MockEntry.record)
  ctxAt := fun ref => (chain.find ref).map MockEntry.ctx
  locate := fun ref => ((chain.find ref).map MockEntry.record).map (fun _ => ref.location)
  firstNullifierOccurrence := fun rawNf => (chain.nullifierOccurrences sponge rawNf).head?
  nullifierOccurrences := chain.nullifierOccurrences sponge
  anchorsUpTo := fun height =>
    (chain.entries.filter (fun e => e.location.height ≤ height)).map
      (fun e => (e.location, e.record))
  confirmationsAt := AnchorChain.depthBelow chain.tipHeight

end View

section RoundTrip

/-- Reading what was written, element by element. -/
theorem mapM_map_of_forall
    {α β γ ε : Type}
    {f : β → Except ε γ}
    {g : α → β}
    {h : α → γ}
    (hread : ∀ a, f (g a) = .ok (h a))
    (as : List α) :
    (as.map g).mapM f = .ok (as.map h) := by
  rw [mapM_eq_ok_iff, List.forall₂_map_left_iff, List.forall₂_map_right_iff]
  exact List.forall₂_same.mpr (fun a _ => hread a)

/-- The client's form of an exported entry. -/
def EntryJson.of (e : MockEntry) : EntryJson where
  height := e.location.height
  position := e.location.position
  txid := toHex e.txid.toList
  ctx := toHex e.ctx.toList
  record := toHex e.record.toBytes.toList

end RoundTrip

end HttpAnchorChain

/-- What happens at the server. -/
inductive ServerEvent where
  /-- A request arrives; `random` is the context the server would draw. -/
  | request (random : Ctx) (request : AnchorRequest)
  | restart

/-- The server after one event. -/
def serve
    (sponge : Sponge)
    (autoAdvance : UInt64)
    (server : FileAnchorChain) :
    ServerEvent → Except CliError FileAnchorChain
  | .request random request => .ok (handle sponge autoAdvance random server request).1
  | .restart => FileAnchorChain.openFile (some server.file)

/-- The server after a sequence of events. -/
def serveAll
    (sponge : Sponge)
    (autoAdvance : UInt64)
    (server : FileAnchorChain) :
    List ServerEvent → Except CliError FileAnchorChain
  | [] => .ok server
  | event :: events => do
      let server ← serve sponge autoAdvance server event
      serveAll sponge autoAdvance server events

/-- What an event does to the log. -/
def ServerEvent.ops (autoAdvance : UInt64) : ServerEvent → List FileChainOp
  | .request random (.postAnchor body) =>
      match parseAnchor random body with
      | .error _ => []
      | .ok (record, ctx) => [.append record ctx, .advanceBlocks autoAdvance]
  | .request _ (.postAdvance body) =>
      match parseAdvance body with
      | .error _ => []
      | .ok blocks => [.advanceBlocks blocks]
  | .request _ _ => []
  | .restart => [.reopen]

section Server

variable {sponge : Sponge}
variable {autoAdvance : UInt64}
variable {server : FileAnchorChain}
variable {m : MockAnchorChain}

/-- An event is a run of the operations it asks for. -/
theorem serve_eq
    (event : ServerEvent) :
    serve sponge autoAdvance server event =
      (server.run sponge (event.ops autoAdvance)).map Prod.fst := by
  cases event with
  | restart =>
      simp only [serve, ServerEvent.ops, FileAnchorChain.run, FileAnchorChain.perform, bind,
        Except.bind, pure, Except.pure]
      cases FileAnchorChain.openFile (some server.file) <;> rfl
  | request random request =>
      cases request with
      | getSnapshot => rfl
      | other method path => rfl
      | postAnchor body =>
          simp only [serve, handle, ServerEvent.ops]
          cases parseAnchor random body with
          | error e => rfl
          | ok parsed =>
              by_cases hzero : autoAdvance = 0
              · simp [hzero, FileAnchorChain.run, FileAnchorChain.perform,
                  FileAnchorChain.advanceBlocks, bind, Except.bind, pure, Except.pure, Except.map]
              · have hpos : autoAdvance > 0 := UInt64.pos_iff_ne_zero.mpr hzero
                simp [hpos, FileAnchorChain.run, FileAnchorChain.perform, bind, Except.bind, pure,
                  Except.pure, Except.map]
      | postAdvance body =>
          simp only [serve, handle, ServerEvent.ops]
          cases parseAdvance body with
          | error e => rfl
          | ok blocks => rfl

variable (sponge autoAdvance) in
/-- After any events the server holds the log in memory, up to the bytes of the records. -/
theorem serveAll_spec
    (hpersisted : server.Persisted)
    (hfollows : server.Follows m)
    (events : List ServerEvent) :
    ∃ server', serveAll sponge autoAdvance server events = .ok server' ∧ server'.Persisted ∧
      server'.Follows (m.run sponge (events.flatMap (ServerEvent.ops autoAdvance))).1 := by
  induction events generalizing server m with
  | nil =>
      exact ⟨server, rfl, hpersisted, hfollows⟩
  | cons event events ih =>
      obtain ⟨server₁, hrun, hpersisted₁, hfollows₁⟩ :=
        FileAnchorChain.run_spec sponge hpersisted hfollows (event.ops autoAdvance)
      obtain ⟨server₂, hserve, hpersisted₂, hfollows₂⟩ := ih hpersisted₁ hfollows₁
      refine ⟨server₂, ?_, hpersisted₂, ?_⟩
      · rw [serveAll, serve_eq, hrun]
        exact hserve
      · rw [List.flatMap_cons, MockAnchorChain.run_append]
        exact hfollows₂

end Server

section Posting

variable {sponge : Sponge}
variable {autoAdvance : UInt64}
variable {random : Ctx}
variable {server : FileAnchorChain}
variable {record : AnchorRecord}
variable {ctx : Ctx}

end Posting

section Phone

open ScanIndex (mempool refMatches)

variable {sponge : Sponge}
variable {m : MockAnchorChain}
variable {server : FileAnchorChain}

/-- An entry as the wallet holds it: without an envelope. -/
def MockEntry.toAnchorTx (e : MockEntry) : AnchorTx :=
  ⟨e.location, e.txid, e.record, e.ctx, none⟩

/-- A log as the wallet holds it. -/
def MockAnchorChain.exported (m : MockAnchorChain) : SnapshotChain :=
  ⟨m.tipHeight, m.entries.map MockEntry.toAnchorTx⟩

/-- An exported entry is imported as its line is read. -/
theorem MockEntry.decode_export
    (e : MockEntry) :
    SnapshotEntry.decode sponge (SnapshotEntry.ofParts e.location e.txid e.record e.ctx none) =
      .ok e.reread.toAnchorTx := by
  simp [SnapshotEntry.decode, SnapshotEntry.ofParts, SnapshotEntry.decodeBatch,
    MockEntry.toAnchorTx, MockEntry.reread, bind, Except.bind, pure, Except.pure]

/-- The wallet imports the log in memory, each record as its bytes are read. -/
theorem fromSnapshot_of_follows
    (hfollows : server.Follows m)
    (hsorted : MockAnchorChain.Sorted m.entries) :
    SnapshotChain.fromSnapshot sponge server.snapshot = .ok m.reread.exported := by
  have hentries : server.entries.map MockEntry.reread = m.reread.entries := hfollows.entries_eq
  have hdecode : server.snapshot.entries.mapM (SnapshotEntry.decode sponge) =
      .ok (m.reread.entries.map MockEntry.toAnchorTx) := by
    rw [← hentries, List.map_map]
    exact HttpAnchorChain.mapM_map_of_forall MockEntry.decode_export server.entries
  have hpairwise : (m.reread.entries.map MockEntry.toAnchorTx).Pairwise
      (fun a b => a.location.le b.location = true) := by
    rw [List.pairwise_map]
    exact hsorted.reread
  have htip : server.snapshot.tipHeight = m.tipHeight := hfollows.tipHeight_eq
  rw [SnapshotChain.fromSnapshot, hdecode]
  simp only [bind, Except.bind, pure, Except.pure]
  rw [hpairwise.insertionSort_eq, htip]
  rfl

/-- A reference that is not the placeholder finds the same entry. -/
theorem find_toAnchorTx
    {ref : AnchorRef}
    (hlocation : ref.location ≠ mempool) :
    m.exported.find ref = (m.find ref).map MockEntry.toAnchorTx := by
  have hmatches : ((fun e : AnchorTx => refMatches ref e.txid e.location) ∘
      MockEntry.toAnchorTx) = fun e => e.location == ref.location && e.txid == ref.txid := by
    funext e
    have hplace : (ref.location == mempool) = false := by
      simpa using hlocation
    simp [refMatches, MockEntry.toAnchorTx, hplace, Bool.and_comm]
  rw [SnapshotChain.find, MockAnchorChain.exported, MockAnchorChain.find, List.find?_map, hmatches]

variable (sponge) in
/-- What the wallet finds at a reference. -/
theorem exported_reference
    {ref : AnchorRef}
    (hlocation : ref.location ≠ mempool) :
    let view := m.exported.toAnchorChain sponge
    let log := m.toAnchorChain sponge
    view.anchorAt ref = log.anchorAt ref ∧ view.ctxAt ref = log.ctxAt ref ∧
      view.locate ref = log.locate ref ∧
      ∀ nfs, view.proofRecordAt ref nfs = log.proofRecordAt ref nfs := by
  have hfind := find_toAnchorTx (m := m) hlocation
  refine ⟨?_, ?_, ?_, ?_⟩
  · simp only [SnapshotChain.toAnchorChain, MockAnchorChain.toAnchorChain, hfind, Option.map_map]
    rfl
  · simp only [SnapshotChain.toAnchorChain, MockAnchorChain.toAnchorChain, hfind, Option.map_map]
    rfl
  · simp only [SnapshotChain.toAnchorChain, MockAnchorChain.toAnchorChain, hfind, Option.map_map]
    cases hentry : m.find ref with
    | none => rfl
    | some e =>
        have hmatch := List.find?_some hentry
        simp only [Bool.and_eq_true, beq_iff_eq] at hmatch
        simp [MockEntry.toAnchorTx, hmatch.1]
  · intro nfs
    simp only [SnapshotChain.toAnchorChain, MockAnchorChain.toAnchorChain,
      SnapshotChain.proofRecordAt, hfind]
    cases m.find ref with
    | none => rfl
    | some e =>
        obtain ⟨txid, location, record, ctx⟩ := e
        cases record <;> simp [MockEntry.toAnchorTx, AnchorChain.soloProofRecord]

variable (sponge) in
/-- The wallet drops an occurrence at the mempool's place. -/
theorem exported_nullifierOccurrences
    (hsorted : MockAnchorChain.Sorted m.entries)
    (nf : Digest) :
    (m.exported.toAnchorChain sponge).nullifierOccurrences nf =
      ((m.toAnchorChain sponge).nullifierOccurrences nf).filter
        (fun location => location != mempool) := by
  have hlocations : ((m.entries.filter (fun e => e.record.wellFormed sponge e.ctx nf)).map
      MockEntry.location).Pairwise (fun a b => a.le b = true) := by
    rw [List.pairwise_map]
    exact hsorted.filter _
  simp only [MockAnchorChain.exported, SnapshotChain.toAnchorChain, MockAnchorChain.toAnchorChain,
    SnapshotChain.nullifierOccurrences, hlocations.insertionSort_eq, List.filter_map,
    List.filter_filter, List.map_map]
  simp [Function.comp_def, MockEntry.toAnchorTx, SnapshotChain.entryMatchesNullifier,
    Bool.and_comm]

variable (sponge) in
/-- The wallet drops an anchor at the mempool's place. -/
theorem exported_anchorsUpTo
    (hsorted : MockAnchorChain.Sorted m.entries)
    (height : UInt64) :
    (m.exported.toAnchorChain sponge).anchorsUpTo height =
      ((m.toAnchorChain sponge).anchorsUpTo height).filter
        (fun anchor => anchor.1 != mempool) := by
  have hanchors : ((m.entries.filter (fun e => e.location.height ≤ height)).map
      (fun e => (e.location, e.record))).Pairwise (fun a b => a.1.le b.1 = true) := by
    rw [List.pairwise_map]
    exact hsorted.filter _
  simp only [MockAnchorChain.exported, SnapshotChain.toAnchorChain, MockAnchorChain.toAnchorChain,
    hanchors.insertionSort_eq, List.filter_map, List.filter_filter, List.map_map]
  simp only [Function.comp_def, MockEntry.toAnchorTx]
  rfl

variable (sponge) in
/-- Height zero is the mempool; every other height is as deep as in the log. -/
theorem exported_confirmationsAt
    {height : UInt64}
    (hheight : height ≠ 0) :
    (m.exported.toAnchorChain sponge).confirmationsAt height =
      (m.toAnchorChain sponge).confirmationsAt height := by
  have hzero : height ≠ mempool.height := hheight
  simp [MockAnchorChain.exported, SnapshotChain.toAnchorChain, MockAnchorChain.toAnchorChain,
    AnchorChain.depthBelow, hzero]

/-- Without an anchor at the mempool's place the wallet finds the same first occurrence. -/
theorem exported_firstNullifierOccurrence
    (hsorted : MockAnchorChain.Sorted m.entries)
    (hplaces : ∀ e ∈ m.entries, e.location ≠ mempool)
    (nf : Digest) :
    (m.exported.toAnchorChain sponge).firstNullifierOccurrence nf =
      (m.toAnchorChain sponge).firstNullifierOccurrence nf := by
  have hoccurrences := exported_nullifierOccurrences sponge hsorted nf
  have hall : ∀ location ∈ (m.toAnchorChain sponge).nullifierOccurrences nf,
      (location != mempool) = true := by
    intro location hlocation
    simp only [MockAnchorChain.toAnchorChain, List.mem_insertionSort, List.mem_map,
      List.mem_filter] at hlocation
    obtain ⟨e, ⟨he, -⟩, rfl⟩ := hlocation
    simpa using hplaces e he
  rw [List.filter_eq_self.mpr hall] at hoccurrences
  have hhead := hsorted.head?_locations sponge nf
  -- Nothing sits at the mempool's place, so the second search finds nothing.
  have hprovisional : m.exported.entries.find? (fun e =>
      e.location == mempool && SnapshotChain.entryMatchesNullifier sponge e nf) = none := by
    rw [List.find?_eq_none]
    intro e he
    obtain ⟨entry, hentry, rfl⟩ := List.mem_map.mp he
    have hplace : (entry.toAnchorTx.location == mempool) = false := by
      simpa [MockEntry.toAnchorTx] using hplaces entry hentry
    simp [hplace]
  have hfirst : (m.exported.toAnchorChain sponge).firstNullifierOccurrence nf =
      ((m.toAnchorChain sponge).nullifierOccurrences nf).head? := by
    rw [← hoccurrences]
    simp only [SnapshotChain.toAnchorChain, SnapshotChain.firstNullifierOccurrence, hprovisional,
      Option.map_none, Option.or_none]
  rw [hfirst]
  exact hhead

/--
The wallet that imports the server's snapshot answers as the log in memory with each record as
its bytes are read, for every reference and block but the first ones: an anchor at position 0
of block 0 counts as one that waits for a block.  If the log has none there, the first
occurrences agree too.
-/
theorem phone_view
    (sponge : Sponge)
    (autoAdvance : UInt64)
    (events : List ServerEvent) :
    ∃ fresh server,
      FileAnchorChain.openFile none = .ok fresh ∧
      serveAll sponge autoAdvance fresh events = .ok server ∧
      ∀ m, (MockAnchorChain.new.run sponge
          (events.flatMap (ServerEvent.ops autoAdvance))).1 = m →
        m.entries.length ≤ 2 ^ 32 →
        ∃ phone,
          SnapshotChain.fromSnapshot sponge server.snapshot = .ok phone ∧
          let view := phone.toAnchorChain sponge
          let log := m.reread.toAnchorChain sponge
          (∀ ref, ref.location ≠ mempool →
            view.anchorAt ref = log.anchorAt ref ∧ view.ctxAt ref = log.ctxAt ref ∧
              view.locate ref = log.locate ref ∧
              ∀ nfs, view.proofRecordAt ref nfs = log.proofRecordAt ref nfs) ∧
          (∀ nf, view.nullifierOccurrences nf =
            (log.nullifierOccurrences nf).filter (fun location => location != mempool)) ∧
          (∀ height, view.anchorsUpTo height =
            (log.anchorsUpTo height).filter (fun anchor => anchor.1 != mempool)) ∧
          (∀ height, height ≠ 0 → view.confirmationsAt height = log.confirmationsAt height) ∧
          ((∀ e ∈ m.entries, e.location ≠ mempool) →
            ∀ nf, view.firstNullifierOccurrence nf = log.firstNullifierOccurrence nf) := by
  obtain ⟨server, hserve, -, hfollows⟩ := serveAll_spec sponge autoAdvance
    FileAnchorChain.persisted_fresh (m := MockAnchorChain.new) rfl
    events
  refine ⟨_, server, rfl, hserve, ?_⟩
  rintro m rfl hlength
  have hsorted := ((MockAnchorChain.Reachable.ofNew sponge).run
    (events.flatMap (ServerEvent.ops autoAdvance))).sorted hlength
  refine ⟨_, fromSnapshot_of_follows hfollows hsorted, ?_⟩
  have hview := hsorted.reread
  refine ⟨fun ref => exported_reference sponge, exported_nullifierOccurrences sponge hview,
    exported_anchorsUpTo sponge hview, fun height => exported_confirmationsAt sponge, ?_⟩
  intro hplaces nf
  exact exported_firstNullifierOccurrence hview
    (by simpa [MockAnchorChain.reread] using hplaces) nf

end Phone

end OpenCsv
