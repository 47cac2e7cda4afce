import OpenCsv.Ffi.WalletOps

/-!
# Export and import of pending transactions

A host exports a pending transaction before it broadcasts, and imports it after a
crash.  The import is the transaction again exactly when the transaction is no
redemption and the genesis it carries has a currency code that is valid UTF-8
(`proved_import_eq_iff`): the 24-byte asset id of a redemption is read back as
32 bytes, and the currency code crosses the boundary as a string.
-/

namespace OpenCsv

namespace MemWallet

section RoundTrip

variable {π : Type}
variable {env : WalletEnv π}

/-- Two ids, in two wallets, hold the same transaction with the same consequences. -/
structure SamePending
    (env : WalletEnv π)
    (w : MemWallet)
    (id : UInt64)
    (w' : MemWallet)
    (id' : UInt64)
    (p : Pending) : Prop where
  original : w.pending.lookup id = some p
  imported : w'.pending.lookup id' = some p
  rebind : ∀ ctx, w'.rebindPending env id' ctx = w.rebindPending env id ctx
  finalize : ∀ anchorRef, (w'.finalize env id' anchorRef).map Prod.fst =
    (w.finalize env id anchorRef).map Prod.fst

/-- What a transaction does when it is rebound or finalized depends on its entry only. -/
theorem samePending_of_lookup
    {w w' : MemWallet}
    {id id' : UInt64}
    {p : Pending}
    (h : w.pending.lookup id = some p)
    (h' : w'.pending.lookup id' = some p) :
    SamePending env w id w' id' p := by
  refine ⟨h, h', ?_, ?_⟩
  · intro ctx
    simp only [rebindPending, findPending, h, h', okOr]
  · intro anchorRef
    simp only [finalize, findPending, h, h', okOr]
    rfl

theorem exportPending_of_lookup
    {w : MemWallet}
    {id : UInt64}
    {p : Pending}
    (h : w.pending.lookup id = some p) :
    w.exportPending env id = .ok (env.json.print (p.toExport env.base64).toJson) := by
  simp only [exportPending, findPending, h, okOr]
  rfl

/-- An export text is read as what the export form is read as. -/
theorem readPending_export
    {p : Pending}
    (hjson : env.json.RoundTrips (p.toExport env.base64).toJson) :
    readPending env (env.json.print (p.toExport env.base64).toJson) =
      Pending.ofExport env.base64 (p.toExport env.base64) := by
  have hparse : (env.json.parse (env.json.print (p.toExport env.base64).toJson) >>=
      PendingExport.fromJson) = .ok (p.toExport env.base64) := by
    rw [except_bind_eq_ok_iff]
    exact ⟨_, hjson, PendingExport.fromJson_toJson _⟩
  rw [readPending, hparse]
  rfl

/--
A pending transaction that a `prove` call created comes back from its export, with
the same record under every context and the same consignment at every anchor,
exactly when it is no redemption and its genesis has a valid currency code.
-/
theorem proved_import_eq_iff
    {w w₁ : MemWallet}
    (w₂ : MemWallet)
    {op : Op}
    {proved : Proved}
    {p : Pending}
    (hprove : w.proveCall env op = some (.ok (proved, w₁)))
    (hlookup : w₁.pending.lookup proved.pendingId = some p)
    (hjson : env.json.RoundTrips (p.toExport env.base64).toJson)
    (hbase64 : env.base64.RoundTrips p.proof) :
    (∃ text id w₃, w₁.exportPending env proved.pendingId = .ok text ∧
      w₂.importPending env text = .ok (id, w₃) ∧
      SamePending env w₁ proved.pendingId w₃ id p)
      ↔
    p.shape.isRedeem = false ∧
      ∀ g, p.aux = some g → ValidUtf8 g.currencyCode.toList := by
  obtain ⟨p', record, ctx, hpush, hmade⟩ := proveCall_spec hprove
  -- The entry under the returned id is the one the call made.
  obtain rfl : p' = p := by
    simp only [pushPending, Prod.mk.injEq] at hpush
    rw [← hpush.1, ← hpush.2, AList.lookup_insert] at hlookup
    exact Option.some.inj hlookup
  have hexport : w₁.exportPending env proved.pendingId =
      .ok (env.json.print (p'.toExport env.base64).toJson) := exportPending_of_lookup hlookup
  rw [← Pending.ofExport_toExport_iff hmade.shape hmade.nullifiers hbase64]
  constructor
  · rintro ⟨text, id, w₃, htext, himport, hsame⟩
    obtain rfl := Except.ok.inj (hexport.symm.trans htext)
    simp only [importPending, except_bind_eq_ok_iff, readPending_export hjson, pure,
      Except.pure, Except.ok.injEq, Prod.mk.injEq] at himport
    obtain ⟨q, hq, rfl, rfl⟩ := himport
    have himported := hsame.imported
    rw [AList.lookup_insert] at himported
    rw [hq, Option.some.inj himported]
  · intro hread
    have himport : w₂.importPending env (env.json.print (p'.toExport env.base64).toJson) =
        .ok (w₂.nextPending,
          { w₂ with
            pending := w₂.pending.insert w₂.nextPending p'
            nextPending := w₂.nextPending + 1 }) := by
      rw [importPending, readPending_export hjson, hread]
      rfl
    exact ⟨_, _, _, hexport, himport,
      samePending_of_lookup hlookup (AList.lookup_insert w₂.pending)⟩

end RoundTrip

namespace Sample

open OpenCsv.Sample (coin)

/-- The transaction that `op` creates in the sample wallet. -/
def created (json : JsonText) (op : Op) : Option Pending :=
  match (held json).proveCall (mintEnv json) op with
  | some (.ok (proved, w)) => w.pending.lookup proved.pendingId
  | _ => none

/-- The codec of the value under which that transaction is exported. -/
def exportCodec (op : Op) : JsonText :=
  JsonText.ofValue (((created (JsonText.ofValue .null) op).map
    (fun p => (p.toExport Base64.standard).toJson)).getD .null)

/-- The call behind a created transaction, and its export value. -/
theorem call_of_created
    {op : Op}
    {p : Pending}
    (h : created (exportCodec op) op = some p)
    (hsame : created (exportCodec op) op = created (JsonText.ofValue .null) op) :
    (∃ proved w, (held (exportCodec op)).proveCall (mintEnv (exportCodec op)) op =
        some (.ok (proved, w)) ∧ w.pending.lookup proved.pendingId = some p) ∧
      (exportCodec op).RoundTrips (p.toExport Base64.standard).toJson := by
  constructor
  · unfold created at h
    split at h
    · rename_i proved w hcall
      exact ⟨proved, w, hcall, h⟩
    · cases h
  · rw [exportCodec, ← hsame, h]
    exact JsonText.ofValue_roundTrips _

theorem payment_export_reads_back :
    ∃ proved w₁ p text id w₃,
      (held (exportCodec payOp)).proveCall (mintEnv (exportCodec payOp)) payOp =
        some (.ok (proved, w₁)) ∧
      w₁.exportPending (mintEnv (exportCodec payOp)) proved.pendingId = .ok text ∧
      w₁.importPending (mintEnv (exportCodec payOp)) text = .ok (id, w₃) ∧
      SamePending (mintEnv (exportCodec payOp)) w₁ proved.pendingId w₃ id p := by
  have hsome : (created (exportCodec payOp) payOp).isSome = true := by
    decide +kernel
  obtain ⟨p, hp⟩ := Option.isSome_iff_exists.mp hsome
  obtain ⟨⟨proved, w₁, hprove, hlookup⟩, hjson⟩ := call_of_created hp (by decide +kernel)
  have hgood : (created (exportCodec payOp) payOp).all (fun p =>
      !p.shape.isRedeem && decide (Base64.standard.decode (Base64.standard.encode p.proof) =
        .ok p.proof) && p.aux.all (fun g => decide (ValidUtf8 g.currencyCode.toList))) = true := by
    decide +kernel
  rw [hp] at hgood
  simp only [Option.all_some, Bool.and_eq_true, Bool.not_eq_true', decide_eq_true_eq] at hgood
  obtain ⟨⟨hshape, hbase64⟩, haux⟩ := hgood
  have haux' : ∀ g, p.aux = some g → ValidUtf8 g.currencyCode.toList := by
    intro g hg
    rw [hg] at haux
    simpa using haux
  obtain ⟨text, id, w₃, hexport, himport, hpending⟩ :=
    (proved_import_eq_iff w₁ hprove hlookup hjson hbase64).mpr ⟨hshape, haux'⟩
  exact ⟨proved, w₁, p, text, id, w₃, hprove, hexport, himport, hpending⟩

/-- The export of a redemption is refused by every wallet. -/
theorem redemption_export_unreadable :
    (system (mintEnv (exportCodec redeemOp))).Reachable (held (exportCodec redeemOp)) ∧
      ∃ proved w₁ p text,
        (held (exportCodec redeemOp)).proveCall (mintEnv (exportCodec redeemOp)) redeemOp =
          some (.ok (proved, w₁)) ∧
        w₁.pending.lookup proved.pendingId = some p ∧
        (exportCodec redeemOp).RoundTrips (p.toExport Base64.standard).toJson ∧
        w₁.exportPending (mintEnv (exportCodec redeemOp)) proved.pendingId = .ok text ∧
        ∀ (w₂ w₃ : MemWallet) (id : UInt64),
          w₂.importPending (mintEnv (exportCodec redeemOp)) text ≠ .ok (id, w₃) := by
  have hsome : (created (exportCodec redeemOp) redeemOp).isSome = true := by
    decide +kernel
  obtain ⟨p, hp⟩ := Option.isSome_iff_exists.mp hsome
  obtain ⟨⟨proved, w₁, hprove, hlookup⟩, hjson⟩ := call_of_created hp (by decide +kernel)
  have hfails : (created (exportCodec redeemOp) redeemOp).all (fun p =>
      (Pending.ofExport Base64.standard (p.toExport Base64.standard)).toOption.isNone) =
        true := by
    decide +kernel
  rw [hp, Option.all_some] at hfails
  have hjson' : (mintEnv (exportCodec redeemOp)).json.RoundTrips
      (p.toExport (mintEnv (exportCodec redeemOp)).base64).toJson := hjson
  refine ⟨held_reachable _, proved, w₁, p, _, hprove, hlookup, hjson,
    exportPending_of_lookup hlookup, ?_⟩
  intro w₂ w₃ id himport
  simp only [importPending, except_bind_eq_ok_iff] at himport
  obtain ⟨q, hq, -⟩ := himport
  rw [readPending_export hjson'] at hq
  have hok : Pending.ofExport Base64.standard (p.toExport Base64.standard) = .ok q := hq
  rw [hok] at hfails
  cases hfails

end Sample

end MemWallet

end OpenCsv
