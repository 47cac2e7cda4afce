import OpenCsv.Ffi.Wallet
import OpenCsv.Lib.System

/-!
# Anchoring, receiving and whole runs of the wallet

`finalize` turns a pending transaction into a consignment and marks its inputs
spent; `verify` runs the accept driver over a received consignment, pins its
asset and stores the credited coins.

Every operation that changes the wallet is a step of `MemWallet.system`; failed
calls leave what they had changed so far.
-/

namespace OpenCsv

open AcceptKernel (RejectReason)

namespace MemWallet

variable {π : Type}
variable (env : WalletEnv π)

section Anchoring

/-- Rebuild the record of a pending transaction under `ctx`. -/
def rebindPending
    (w : MemWallet)
    (pendingId : UInt64)
    (ctx : Ctx) : Except OpError (Bytes 64) := do
  let pending ← w.findPending pendingId "unknown"
  let record ← pending.shape.build env.sponge ctx
  ensure (recordParsesCleanly record)
    (Text.lit "this context would make the record misparse; reserve another and retry")
  return record.toBytes

/-- The single witness-envelope payload of a pending transfer. -/
def rebindPendingBatchPayload
    (w : MemWallet)
    (pendingId : UInt64)
    (ctx : Ctx) : Except OpError TruncatedDigest := do
  let pending ← w.findPending pendingId "unknown"
  match pending.shape with
  | .xfer nullifiers =>
      ensure (nullifiers.length == 1)
        (Text.lit "batching-v2 requires exactly one OpenCSV input payload per participant")
      let record ← pending.shape.build env.sponge ctx
      ensure (recordParsesCleanly record)
        (Text.lit "this batch context would make the payload misparse; reserve another stock")
      match record with
      | .xfer payload₀ payload₁ =>
          if payload₁ = TruncatedDigest.zero then
            return payload₀
          else
            .error (Text.lit "batching-v2 transfer did not produce one canonical payload")
      | _ => .error (Text.lit "batching-v2 transfer did not produce one canonical payload")
  | _ => .error (Text.lit "batching-v2 currently accepts transfer operations only")

/-- The consignment of a pending transaction at an anchor. -/
def consignmentOf (pending : Pending) (anchorRef : AnchorRef) : Consignment where
  coinOpenings := pending.openings
  nullifiers := pending.nullifiers
  proof := pending.proof
  anchorRef := anchorRef
  aux := pending.aux

/-- Mark the first coin with the given id spent. -/
def spendId (id : Text) : List StoredCoin → List StoredCoin
  | [] => []
  | c :: coins =>
      if c.id env.sponge = id then { c with status := .spent } :: coins
      else c :: spendId id coins

/-- Store an output of our own; a replay keeps the status and a settled anchor. -/
def creditLocalOutput (coins : List StoredCoin) (stored : StoredCoin) : List StoredCoin :=
  match coins.find? (fun c => c.id env.sponge == stored.id env.sponge) with
  | some existing =>
      upsertCoin env
        { stored with
          status := existing.status
          unconfirmedAnchor :=
            if existing.unconfirmedAnchor.isNone then none else stored.unconfirmedAnchor }
        coins
  | none => coins ++ [stored]

/-- Credit the outputs of a locally proved consignment that come back to us. -/
def creditLocalOutputs (w : MemWallet) (consignment : Consignment) : MemWallet :=
  let unconfirmedAnchor :=
    if consignment.anchorRef.location = ScanIndex.mempool then
      some (toHex consignment.anchorRef.txid.toList)
    else
      none
  let outputs := consignment.coinOpenings.zipIdx.filter (fun (coin, _) =>
    (w.secretFor env coin.owner).isSome)
  { w with
    coins := (outputs.map (fun (coin, selector) =>
      (⟨coin, .unspent, consignment.proof, selector, unconfirmedAnchor⟩ : StoredCoin))).foldl
        (creditLocalOutput env) w.coins }

/-- Build the consignment of a pending transaction and mark its inputs spent. -/
def finalize
    (w : MemWallet)
    (pendingId : UInt64)
    (anchorRef : AnchorRef) : Except OpError ((List UInt8 × List Text) × MemWallet) := do
  let pending ← w.findPending pendingId "unknown"
  let consignment := consignmentOf pending anchorRef
  let settled :=
    { w with
      pending := w.pending.erase pendingId
      coins := pending.spentIds.foldl (fun coins id => spendId env id coins) w.coins }
  return ((env.encodeConsignment consignment, pending.spentIds),
    settled.creditLocalOutputs env consignment)

/-- Export a pending transaction; the entry is kept. -/
def exportPending (w : MemWallet) (pendingId : UInt64) : Except OpError Text := do
  let pending ← w.findPending pendingId "unknown"
  return env.json.print (pending.toExport env.base64).toJson

/-- The pending transaction in an export text. -/
def readPending (text : Text) : Except OpError Pending :=
  match env.json.parse text >>= PendingExport.fromJson with
  | .error e => .error (Text.lit "pending export JSON: " ++ e)
  | .ok e => do
      ensure (e.version == 1)
        (Text.lit "unsupported pending export version " ++ Text.ofNat e.version.toNat)
      Pending.ofExport env.base64 e

/-- Import an exported pending transaction under the next id. -/
def importPending (w : MemWallet) (text : Text) : Except OpError (UInt64 × MemWallet) := do
  let pending ← readPending env text
  return (w.nextPending,
    { w with
      pending := w.pending.insert w.nextPending pending
      nextPending := w.nextPending + 1 })

/-- Forget a pending transaction; its inputs stay as they are. -/
def cancelPending (w : MemWallet) (pendingId : UInt64) : Bool × MemWallet :=
  ((w.pending.lookup pendingId).isSome, { w with pending := w.pending.erase pendingId })

/-- Does another pending transaction consume a coin of this one? -/
def pendingSpendConflicts (w : MemWallet) (pendingId : UInt64) : Except OpError Bool := do
  let pending ← w.findPending pendingId "no"
  return w.pending.entries.any (fun other =>
    other.1 != pendingId && other.2.spentIds.any (fun id => pending.spentIds.contains id))

/-- Is every coin of a pending transaction present and unspent? -/
def pendingSpendsAvailable (w : MemWallet) (pendingId : UInt64) : Except OpError Bool := do
  let pending ← w.findPending pendingId "no"
  return pending.spentIds.all (fun id =>
    ((w.coins.find? (fun c => c.id env.sponge == id)).map
      (fun c => c.status == .unspent)).getD false)

end Anchoring

section Receive

/-- One `verify` call; without an anchor text it is settled acceptance. -/
structure VerifyCall where
  blob : List UInt8
  chain : SnapshotChain
  requiredConfirmations : UInt64
  unconfirmedAnchor : Option Text

/-- `accept` under the wallet's keys and pinned assets. -/
def acceptConsignment
    (w : MemWallet)
    (call : VerifyCall)
    (consignment : Consignment) : Except RejectReason AcceptedCoins :=
  accept env.sponge consignment (call.chain.toAnchorChain env.sponge)
    (coinProofVerifier env.sponge env.engine) coinVkTag call.requiredConfirmations w.keys
    (w.assets.map (AssetGenesis.assetId env.sponge))

/-- What a credit loop has built so far. -/
structure CreditState where
  wallet : MemWallet
  credits : List CreditJson
  views : List CoinJson

/-- The coin a redelivery stores: it keeps what the wallet knows of the coin. -/
def redeliver
    (call : VerifyCall)
    (existing : Option StoredCoin)
    (stored : StoredCoin) : StoredCoin :=
  match existing with
  | none => stored
  | some existing =>
      { stored with
        status :=
          -- Only a settled replay thaws a frozen coin.
          if call.unconfirmedAnchor.isNone && existing.status == .frozen then .unspent
          else existing.status
        unconfirmedAnchor :=
          if existing.unconfirmedAnchor.isNone then none else stored.unconfirmedAnchor }

/-- Credit one accepted coin. -/
def creditCoin
    (call : VerifyCall)
    (proof : List UInt8)
    (selector : ℕ)
    (state : CreditState)
    (coin : Coin) : CreditState :=
  let w := state.wallet
  let existing := w.coins.find? (fun c => c.id env.sponge == coin.id env.sponge)
  let stored := redeliver call existing
    ⟨coin, .unspent, proof, selector, call.unconfirmedAnchor⟩
  { wallet := { w with coins := upsertCoin env stored w.coins }
    credits := addCredit (w.currencyOf env coin.assetId) coin state.credits
    views := state.views ++ [w.coinJson env stored] }

/-- Credit the accepted coins one after the other. -/
def creditCoins
    (call : VerifyCall)
    (consignment : Consignment) :
    List Coin → CreditState → CreditState × Except OpError Unit
  | [], state => (state, .ok ())
  | coin :: coins, state =>
      match consignment.coinOpenings.findIdx? (fun o => o == coin) with
      | none => (state, .error (Text.lit "accepted coin not among the openings"))
      | some selector =>
          creditCoins call consignment coins
            (creditCoin env call consignment.proof selector state coin)

/-- Pin the genesis of a consignment, if it has one. -/
def pinAux (w : MemWallet) (aux : Option AssetGenesis) : MemWallet :=
  match aux with
  | some genesis => w.pinAsset env genesis
  | none => w

/-- Accept a received consignment, pin its asset and store the credited coins. -/
def verifyWithProvenance
    (w : MemWallet)
    (call : VerifyCall) : MemWallet × Except OpError (Except RejectReason Verified) :=
  match env.decodeConsignment call.blob with
  | .error e => (w, .error e)
  | .ok consignment =>
      match w.acceptConsignment env call consignment with
      | .error reason => (w, .ok (.error reason))
      | .ok accepted =>
          match creditCoins env call consignment accepted.coins
              ⟨w.pinAux env consignment.aux, [], []⟩ with
          | (state, .error e) => (state.wallet, .error e)
          | (state, .ok _) =>
              (state.wallet, .ok (.ok
                { credits := state.credits
                  coins := state.views
                  height := accepted.anchor.height
                  position := accepted.anchor.position }))

/-- Settled acceptance. -/
def verify
    (w : MemWallet)
    (blob : List UInt8)
    (chain : SnapshotChain)
    (requiredConfirmations : UInt64) :
    MemWallet × Except OpError (Except RejectReason Verified) :=
  w.verifyWithProvenance env ⟨blob, chain, requiredConfirmations, none⟩

/-- Acceptance of a consignment whose anchor is only seen in a mempool. -/
def verifyUnconfirmed
    (w : MemWallet)
    (blob : List UInt8)
    (chain : SnapshotChain)
    (anchorTxid : Text) : MemWallet × Except OpError (Except RejectReason Verified) :=
  w.verifyWithProvenance env ⟨blob, chain, 0, some anchorTxid⟩

/-- Take the coins of a vanished unconfirmed anchor out of selection. -/
def freezeUnconfirmedAnchor (w : MemWallet) (anchorTxid : Text) : MemWallet :=
  { w with
    coins := w.coins.map (fun s =>
      if s.status = .unspent ∧ s.unconfirmedAnchor = some anchorTxid then
        { s with status := .frozen }
      else
        s) }

/-- Mark coins spent by id or prefix; a failure keeps the coins marked before it. -/
def markSpent (w : MemWallet) : List Text → MemWallet × Except OpError Unit
  | [] => (w, .ok ())
  | id :: ids =>
      match w.findCoin env id with
      | .error e => (w, .error e)
      | .ok _ =>
          markSpent
            { w with
              coins := w.coins.map (fun c =>
                if (c.id env.sponge).startsWith id then { c with status := .spent } else c) }
            ids

/-- Mark the unspent coins whose nullifiers are already on the chain. -/
def markConfirmedSpentNullifiers
    (w : MemWallet)
    (nullifiers : List Digest) : MemWallet × Except OpError (List Text) :=
  let spentIds := ((w.coins.filter (fun s => s.status == .unspent)).filter (fun s =>
    match w.secretFor env s.coin.owner with
    | none => false
    | some osk => nullifiers.contains (s.coin.nullifier env.sponge osk))).map
      (StoredCoin.id env.sponge)
  match w.markSpent env spentIds with
  | (w', .error e) => (w', .error e)
  | (w', .ok _) => (w', .ok spentIds)

end Receive

section Runs

/-- The operations that change a wallet. -/
inductive Op where
  | keygen (secret : Bytes 32)
  | initIssuer (currency : Text) (seed : Bytes 32)
  | initIssuerFromSeed (currency : Text) (seed : Bytes 32) (nonce : UInt64)
      (termsHash : Bytes 32)
  | proveMint (assetIdHex toOwnerHex : Text) (amounts : List UInt64) (draws : Draws)
  | proveTransfer (coinIds : List Text) (toOwnerHex : Text) (amounts : List UInt64)
      (draws : Draws)
  | proveTransferAmount (assetIdHex toOwnerHex : Text) (amount : UInt64) (draws : Draws)
  | proveRedeem (coinId : Text) (draws : Draws)
  | importPending (text : Text)
  | cancelPending (pendingId : UInt64)
  | finalize (pendingId : UInt64) (anchorRef : AnchorRef)
  | verify (call : VerifyCall)
  | freezeUnconfirmedAnchor (anchorTxid : Text)
  | markSpent (coinIds : List Text)
  | markConfirmedSpentNullifiers (nullifiers : List Digest)

/-- The wallet after a call that changes nothing when it fails. -/
def afterCall {α : Type} (w : MemWallet) : Except OpError (α × MemWallet) → MemWallet
  | .ok (_, w') => w'
  | .error _ => w

/-- The `prove` call an operation makes, if it makes one. -/
def proveCall (w : MemWallet) : Op → Option (Except OpError (Proved × MemWallet))
  | .proveMint assetIdHex toOwnerHex amounts draws =>
      some (w.proveMint env assetIdHex toOwnerHex amounts draws)
  | .proveTransfer coinIds toOwnerHex amounts draws =>
      some (w.proveTransfer env coinIds toOwnerHex amounts draws)
  | .proveTransferAmount assetIdHex toOwnerHex amount draws =>
      some (w.proveTransferAmount env assetIdHex toOwnerHex amount draws)
  | .proveRedeem coinId draws => some (w.proveRedeem env coinId draws)
  | _ => none

/-- One operation. -/
def apply (w : MemWallet) (op : Op) : MemWallet :=
  match op with
  | .keygen secret => (w.keygen env secret).2
  | .initIssuer currency seed => w.afterCall (w.initIssuer env currency seed)
  | .initIssuerFromSeed currency seed nonce termsHash =>
      w.afterCall (w.initIssuerFromSeed env currency seed nonce termsHash)
  | .proveMint .. | .proveTransfer .. | .proveTransferAmount .. | .proveRedeem .. =>
      (w.proveCall env op).elim w w.afterCall
  | .importPending text => w.afterCall (w.importPending env text)
  | .cancelPending pendingId => (w.cancelPending pendingId).2
  | .finalize pendingId anchorRef => w.afterCall (w.finalize env pendingId anchorRef)
  | .verify call => (w.verifyWithProvenance env call).1
  | .freezeUnconfirmedAnchor anchorTxid => w.freezeUnconfirmedAnchor anchorTxid
  | .markSpent coinIds => (w.markSpent env coinIds).1
  | .markConfirmedSpentNullifiers nullifiers =>
      (w.markConfirmedSpentNullifiers env nullifiers).1

/-- The wallet as a system: it is created or opened, and takes one operation per step. -/
def system : System MemWallet Op where
  init := fun w => (∃ secret, w = create secret) ∨ ∃ text, openText env text = .ok w
  step := fun w op w' => w' = w.apply env op

variable {env} in
theorem reachable_create
    (secret : Bytes 32) :
    (system env).Reachable (create secret) :=
  System.Reachable.init (Or.inl ⟨secret, rfl⟩)

variable {env} in
theorem reachable_apply
    {w : MemWallet}
    (h : (system env).Reachable w)
    (op : Op) :
    (system env).Reachable (w.apply env op) :=
  System.Reachable.step h rfl

/-- The coin ids or prefixes a `prove` call names. -/
def named (w : MemWallet) : Op → List Text
  | .proveTransfer coinIds _ _ _ => coinIds
  | .proveTransferAmount assetIdHex _ amount _ =>
      match w.selectTransferInputs env assetIdHex amount with
      | .ok (coinIds, _) => coinIds
      | .error _ => []
  | .proveRedeem coinId _ => [coinId]
  | _ => []

/-- What a prover puts into a pending transaction. -/
structure Made (w : MemWallet) (op : Op) (p : Pending) : Prop where
  shape : p.shape.WellMade
  nullifiers : ∀ nf ∈ p.nullifiers, nf.isCanonical = true
  spentIds : ∀ id ∈ p.spentIds, ∃ idPrefix ∈ w.named env op, ∃ s,
    w.findCoin env idPrefix = .ok s ∧ s.status ≠ .spent ∧ s.id env.sponge = id

/-- Marking by nullifier marks by id. -/
theorem markConfirmedSpentNullifiers_eq
    (w : MemWallet)
    (nullifiers : List Digest) :
    ∃ ids, (w.markConfirmedSpentNullifiers env nullifiers).1 = (w.markSpent env ids).1 := by
  unfold markConfirmedSpentNullifiers
  dsimp only
  split
  · rename_i w' e heq
    exact ⟨_, by rw [heq]⟩
  · rename_i w' u heq
    exact ⟨_, by rw [heq]⟩

section Specs

variable {env}
variable {w w' : MemWallet}

/-- Pinning changes the assets at most. -/
theorem pinAsset_eq
    (w : MemWallet)
    (genesis : AssetGenesis) :
    ∃ assets, w.pinAsset env genesis = { w with assets := assets } := by
  unfold pinAsset
  split
  · exact ⟨w.assets, rfl⟩
  · exact ⟨_, rfl⟩

theorem foldl_pinAsset_eq
    (gs : List AssetGenesis)
    (w : MemWallet) :
    ∃ assets, gs.foldl (pinAsset env) w = { w with assets := assets } := by
  induction gs generalizing w with
  | nil =>
      exact ⟨w.assets, rfl⟩
  | cons g gs ih =>
      obtain ⟨assets, hpin⟩ := pinAsset_eq w g
      obtain ⟨assets', hfold⟩ := ih (w.pinAsset env g)
      exact ⟨assets', by rw [List.foldl_cons, hfold, hpin]⟩

@[simp] theorem coins_pinAsset
    (w : MemWallet)
    (genesis : AssetGenesis) :
    (w.pinAsset env genesis).coins = w.coins := by
  obtain ⟨assets, hpin⟩ := pinAsset_eq w genesis
  rw [hpin]

@[simp] theorem pending_pinAsset
    (w : MemWallet)
    (genesis : AssetGenesis) :
    (w.pinAsset env genesis).pending = w.pending := by
  obtain ⟨assets, hpin⟩ := pinAsset_eq w genesis
  rw [hpin]

@[simp] theorem coins_pinAux
    (w : MemWallet)
    (aux : Option AssetGenesis) :
    (w.pinAux env aux).coins = w.coins := by
  cases aux with
  | none =>
      rfl
  | some genesis =>
      exact coins_pinAsset w genesis

@[simp] theorem pending_pinAux
    (w : MemWallet)
    (aux : Option AssetGenesis) :
    (w.pinAux env aux).pending = w.pending := by
  cases aux with
  | none =>
      rfl
  | some genesis =>
      exact pending_pinAsset w genesis

/-- A wallet starts without coins and pending transactions. -/
theorem init_spec
    (h : (system env).init w) :
    w.coins = [] ∧ w.pending = ∅ := by
  rcases h with ⟨secret, rfl⟩ | ⟨text, htext⟩
  · exact ⟨rfl, rfl⟩
  · unfold openText at htext
    split at htext
    · cases htext
    · simp only [openSecrets, except_bind_eq_ok_iff, pure, Except.pure, Except.ok.injEq]
        at htext
      obtain ⟨-, -, keys, -, issuers, -, assets, -, rfl⟩ := htext
      obtain ⟨pinned, hpinned⟩ :
          ∃ pinned, assets.foldl (pinAsset env)
            { empty with keys := keys, issuers := issuers } =
              { empty with keys := keys, issuers := issuers, assets := pinned } :=
        foldl_pinAsset_eq assets _
      obtain ⟨pinned', hpinned'⟩ :
          ∃ pinned', (issuers.map IssuerRecord.genesis).foldl (pinAsset env)
            { empty with keys := keys, issuers := issuers, assets := pinned } =
              { empty with keys := keys, issuers := issuers, assets := pinned' } :=
        foldl_pinAsset_eq _ _
      rw [List.foldl_map] at hpinned'
      rw [hpinned, hpinned']
      exact ⟨rfl, rfl⟩

/-- A proved transfer is made from the coins it names. -/
theorem made_of_transferPending
    {op : Op}
    {coinIds : List Text}
    {toOwnerHex : Text}
    {amounts : List UInt64}
    {draws : Draws}
    {p : Pending}
    {record : AnchorRecord}
    {ctx : Ctx}
    (hnamed : w.named env op = coinIds)
    (h : w.transferPending env coinIds toOwnerHex amounts draws = .ok (p, record, ctx)) :
    Made env w op p := by
  obtain ⟨hshape, hcanonical, stored, hstored, hstatus, hspent⟩ := transferPending_spec h
  refine ⟨?_, hcanonical, ?_⟩
  · rw [hshape]
    exact hcanonical
  · intro id hid
    rw [hspent] at hid
    obtain ⟨s, hs, rfl⟩ := List.mem_map.mp hid
    obtain ⟨idPrefix, hpre, hfind⟩ := exists_of_mem_of_mapM_eq_ok hstored hs
    exact ⟨idPrefix, hnamed ▸ hpre, s, hfind, hstatus s hs, rfl⟩

/-- A successful `prove` call puts one transaction, made from the coins it names, under
the next id. -/
theorem proveCall_spec
    {op : Op}
    {proved : Proved}
    (h : w.proveCall env op = some (.ok (proved, w'))) :
    ∃ p record ctx, w.pushPending p record ctx = (proved, w') ∧ Made env w op p := by
  cases op with
  | proveMint assetIdHex toOwnerHex amounts draws =>
      simp only [proveCall, Option.some.injEq, proveMint, except_bind_eq_ok_iff, pure,
        Except.pure, Except.ok.injEq] at h
      obtain ⟨⟨p, record, ctx⟩, hp, hpush⟩ := h
      obtain ⟨⟨assetId, value, commit, hshape⟩, hnullifiers, hspent⟩ := mintPending_spec hp
      refine ⟨p, record, ctx, hpush, ?_, ?_, ?_⟩
      · rw [hshape]
        exact AnchorRecord.fromBytes_toBytes_mint _ _ _
      · rw [hnullifiers]
        simp
      · rw [hspent]
        simp
  | proveTransfer coinIds toOwnerHex amounts draws =>
      simp only [proveCall, Option.some.injEq, proveTransfer, except_bind_eq_ok_iff, pure,
        Except.pure, Except.ok.injEq] at h
      obtain ⟨⟨p, record, ctx⟩, hp, hpush⟩ := h
      exact ⟨p, record, ctx, hpush, made_of_transferPending rfl hp⟩
  | proveTransferAmount assetIdHex toOwnerHex amount draws =>
      simp only [proveCall, Option.some.injEq, proveTransferAmount, proveTransfer,
        except_bind_eq_ok_iff, pure, Except.pure, Except.ok.injEq] at h
      obtain ⟨⟨coinIds, total⟩, hselect, ⟨p, record, ctx⟩, hp, hpush⟩ := h
      refine ⟨p, record, ctx, hpush, made_of_transferPending ?_ hp⟩
      rw [named, hselect]
  | proveRedeem coinId draws =>
      simp only [proveCall, Option.some.injEq, proveRedeem, except_bind_eq_ok_iff, pure,
        Except.pure, Except.ok.injEq] at h
      obtain ⟨⟨p, record, ctx⟩, hp, hpush⟩ := h
      obtain ⟨⟨assetId, value, rawNf, hshape, hnullifiers, hcanonical⟩, s, hs, hstatus,
        hspent⟩ := redeemPending_spec hp
      refine ⟨p, record, ctx, hpush, ?_, ?_, ?_⟩
      · rw [hshape]
        exact hcanonical
      · rw [hnullifiers]
        simpa using hcanonical
      · rw [hspent]
        intro id hid
        exact ⟨coinId, List.mem_singleton_self coinId, s, hs, hstatus,
          (List.mem_singleton.mp hid).symm⟩
  | _ =>
      cases h

end Specs

end Runs

namespace Sample

open OpenCsv.Sample (assetId genesis osk coin mintOf)

/-- Every statement of `table` verifies, under its place in the table as proof bytes. -/
def tableEngine (table : List (NodeMode × NodeStatement)) : PcdEngine Unit where
  envelope := fun payload =>
    payload.head?.bind (fun tag => table[tag.toNat]?.map (fun (mode, st) => (mode, st, [])))
  proof := fun _ => some ()
  verifyCoinProof := fun st coin => table.contains (coin.mode, st)

/-- A wallet environment that knows some proved statements and some messages. -/
def walletEnv
    (table : List (NodeMode × NodeStatement))
    (messages : List Consignment)
    (json : JsonText) : WalletEnv Unit where
  sponge := foldSponge
  engine := tableEngine table
  prover := fun _ => .ok ()
  proverError := fun _ => Text.lit "prover error"
  encodeProof := fun _ => []
  encodeEnvelope := fun mode st _ => [UInt8.ofNat (table.idxOf (mode, st))]
  encodeConsignment := fun c => [UInt8.ofNat (messages.idxOf c)]
  decodeConsignment := fun blob =>
    okOr (blob.head?.bind (fun tag => messages[tag.toNat]?))
      (Text.lit "invalid consignment encoding")
  json := json
  base64 := Base64.standard

/-- The proof bytes of the statement at a place of the table. -/
def tableProof (tag : UInt8) : List UInt8 :=
  proofEnvelopeMagic ++ [coinProofVersion, tag]

/-- A confirmed mint of 100 of an asset. -/
def mintAnchor (asset : Digest) : AnchorTx where
  location := ⟨1, 0⟩
  txid := List.Vector.replicate 32 0x31
  record := .mint asset.toAnchor 100
    (mintCommit foldSponge asset 100 (Digest.fill 9)).toAnchor
  ctx := List.Vector.replicate 32 0x32
  batch := none

/-- A snapshot with that mint at the tip. -/
def mintSnapshot (asset : Digest) : SnapshotChain where
  tipHeight := 1
  entries := [mintAnchor asset]

/-- A consignment of a mint of 100 into two coins. -/
def mintConsignment (out₀ out₁ : Coin) (aux : Option AssetGenesis) : Consignment where
  coinOpenings := [out₀, out₁]
  nullifiers := []
  proof := tableProof 0
  anchorRef := ⟨List.Vector.replicate 32 0x31, ⟨1, 0⟩⟩
  aux := aux

/-- An environment that knows a mint of 60 and 40 to the sample owner. -/
def mintEnv (json : JsonText) : WalletEnv Unit :=
  walletEnv [(.mint, mintOf (coin 60 1) (coin 40 2))]
    [mintConsignment (coin 60 1) (coin 40 2) (some genesis)] json

/-- The same for runs that read no text. -/
def plainEnv : WalletEnv Unit :=
  mintEnv (JsonText.ofValue .null)

def mintCall : VerifyCall where
  blob := [0]
  chain := mintSnapshot assetId
  requiredConfirmations := 1
  unconfirmedAnchor := none

/-- The owner's wallet after it has verified that mint. -/
def held (json : JsonText) : MemWallet :=
  (create osk.digest.bytes).apply (mintEnv json) (.verify mintCall)

theorem held_reachable
    (json : JsonText) :
    (system (mintEnv json)).Reachable (held json) :=
  reachable_apply (reachable_create osk.digest.bytes) (.verify mintCall)

/-- The random values of a `prove` call. -/
def draws : Draws where
  randomness₀ := Digest.fill 5
  randomness₁ := Digest.fill 6
  mintNonce := Digest.fill 9
  ctxs := [List.Vector.replicate 32 3]

/-- A payment of 50 with change of 10. -/
def payOp : Op :=
  .proveTransfer [(coin 60 1).id foldSponge] (toHex (Digest.fill 4).bytes.toList) [50, 10] draws

/-- A redemption of the coin of 60. -/
def redeemOp : Op :=
  .proveRedeem ((coin 60 1).id foldSponge) draws

end Sample

end MemWallet

end OpenCsv
