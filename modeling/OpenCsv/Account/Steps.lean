import OpenCsv.Account.Run
import OpenCsv.Ffi.CoinStatus
import OpenCsv.Ffi.Reservation

/-!
# What a call can do to an account

Every call is a sequence of small steps, each with the checks that the code made
before it: a step changes rows of operations in place (`RowStep`), reserves or gives
back a fee output, moves a proof between the wallet and the map of pending proofs, or
writes tables that no other step reads.  An invariant of the account has to be checked
against these steps only.
-/

namespace OpenCsv

open Call

variable {π : Type}

section Rows

namespace Operation

/-- Two rows with the same funding, proof and transaction. -/
structure Agrees (operation operation' : Operation) : Prop where
  funding : operation'.funding = operation.funding
  pendingJson : operation'.pendingJson = operation.pendingJson
  signedTx : operation'.signedTx = operation.signedTx
  txid : operation'.txid = operation.txid

theorem Agrees.refl
    (operation : Operation) :
    operation.Agrees operation :=
  ⟨rfl, rfl, rfl, rfl⟩

/-- A row that shows a signature: by its state, its transaction or its consignment. -/
def Tracked (operation : Operation) : Prop :=
  operation.state.isReleased = true ∨ operation.txid.isSome = true ∨
    operation.receiptOrEmpty.consignment.isSome = true

end Operation

/--
One change of an operation's row.  `link` is the transaction of the batch, when the
change is made to the members of a batch as a whole.
-/
inductive RowStep (env : AccountEnv π) (link : Option Txid) : Operation → Operation → Prop
  /-- Reasons, acknowledgements and nonces. -/
  | note {operation operation' : Operation}
      (hstate : operation'.state = operation.state)
      (hagrees : operation.Agrees operation')
      (hreceipt : operation'.receiptOrEmpty = operation.receiptOrEmpty) :
      RowStep env link operation operation'
  /-- The receipt of a prepared operation is written again. -/
  | prepared {operation operation' : Operation}
      (hready : operation.state = .proofReady)
      (hstate : operation'.state = .proofReady)
      (hagrees : operation.Agrees operation')
      (hreceipt : operation'.receiptOrEmpty = Receipt.empty) :
      RowStep env link operation operation'
  /-- A signed operation moves on: relayed, observed, settled, demoted, delivered. -/
  | moved {operation operation' : Operation}
      (htracked : operation.Tracked)
      (hstate : operation'.state.isReleased = true)
      (hagrees : operation.Agrees operation')
      (hreceipt : ∃ delivered, operation'.receiptOrEmpty =
        { operation.receiptOrEmpty with consignmentDelivered := delivered }) :
      RowStep env link operation operation'
  | signed {operation operation' : Operation} {tx : Transaction}
      (hready : operation.state = .proofReady)
      (hstate : operation'.state = .signedPersisted)
      (hfunding : operation'.funding = operation.funding)
      (hpending : operation'.pendingJson = operation.pendingJson)
      (htx : operation'.signedTx = some tx)
      (htxid : operation'.txid = some (tx.txid env.sha256))
      (hreceipt : (∃ snapshot, operation'.receiptOrEmpty = signedReceipt snapshot) ∨
        operation'.receiptOrEmpty = operation.receiptOrEmpty) :
      RowStep env link operation operation'
  | replaced {operation : Operation} {a : Account} {prior : Option PriorDelivery}
      {replaced : Txid} {tx : Transaction} {nonce : Text}
      (hstate : operation.state.isBumpable = true)
      (hreplaced : operation.signedTx.map (Transaction.txid env.sha256) = some replaced ∨
        link = some replaced)
      (hprior : replacementDeliverySnapshot env operation operation.receiptOrEmpty a =
        .ok prior) :
      RowStep env link operation
        (operation.replaced env (operation.receiptOrEmpty.supersede prior replaced) tx nonce)
  | reinstated {operation : Operation} {receipt : Receipt} {restored : Option PriorDelivery}
      {original : Transaction}
      (htracked : operation.Tracked)
      (hreplaces : operation.receiptOrEmpty.replaces = some (original.txid env.sha256))
      (hrestore : operation.receiptOrEmpty.restorePreReplacementDelivery env =
        .ok (receipt, restored)) :
      RowStep env link operation (operation.reinstated env receipt restored original)

theorem RowStep.refl
    {env : AccountEnv π}
    {link : Option Txid}
    (operation : Operation) :
    RowStep env link operation operation :=
  .note rfl (.refl operation) rfl

/-- One change of a batch's row that keeps its transaction. -/
inductive BatchStep : SendBatch → SendBatch → Prop
  | note {batch batch' : SendBatch}
      (hstate : batch'.state = batch.state)
      (htx : batch'.signedTx = batch.signedTx)
      (htxid : batch'.txid = batch.txid) :
      BatchStep batch batch'
  /-- The collection window closes, or the proofs of a frozen batch are installed. -/
  | advanced {batch batch' : SendBatch}
      (hstate : batch.state = .collecting ∧ (batch'.state = .solo ∨ batch'.state = .frozen) ∨
        batch.state = .frozen ∧ batch'.state = .proofReady)
      (htx : batch'.signedTx = batch.signedTx)
      (htxid : batch'.txid = batch.txid) :
      BatchStep batch batch'
  | moved {batch batch' : SendBatch}
      (hreleased : batch.state.isReleased = true)
      (hstate : batch'.state.isReleased = true)
      (htx : batch'.signedTx = batch.signedTx)
      (htxid : batch'.txid = batch.txid) :
      BatchStep batch batch'

end Rows

section Accounts

/-- Two accounts that differ at most in tables that the other steps do not write. -/
structure Account.SameCore (a a' : Account) : Prop where
  operations : a'.operations = a.operations
  reservations : a'.reservations = a.reservations
  batches : a'.batches = a.batches
  members : a'.members = a.members
  issuance : a'.issuance = a.issuance
  locked : a'.bitcoin.locked = a.bitcoin.locked
  protocol : a'.protocol = a.protocol
  pendingByOperation : a'.pendingByOperation = a.pendingByOperation
  registryFloor : a'.registryFloor = a.registryFloor
  registryState : a'.registryState = a.registryState

/-- A change of coins, keys or assets that leaves the pending transactions alone. -/
structure WalletStep (env : WalletEnv π) (w w' : MemWallet) : Prop where
  pending : w'.pending = w.pending
  nextPending : w'.nextPending = w.nextPending
  coins : MemWallet.Follows env (fun _ => True) w.coins w'.coins

/-- Close an operation that belongs to no batch. -/
def closeOperation (operationId reason : Text) : AccountCall Unit := do
  modify (fun a => a.dropPending operationId)
  releaseFeeReservation operationId
  updateOperation operationId (fun operation =>
    { operation with state := .cancelled, rejectionReason := some reason })

/-- The states in which an operation may be given up. -/
def OperationState.isPrebroadcast : OperationState → Bool
  | .planned | .feeReserved | .proofReady => true
  | _ => false

/-- The transaction of a released batch that an operation is a member of. -/
def Account.batchTxid (a : Account) (operationId : Text) : Option Txid := do
  let member ← a.members.get operationId
  let batch ← a.batches.get member.batchLocalId
  if batch.state.isReleased then batch.txid else none

/--
One small step.  Under `strict`, an operation outside a batch is only closed before
its broadcast.
-/
inductive Step (env : AccountEnv π) (strict : Prop) : Account → Account → Prop
  | aside {a a' : Account}
      (hsame : a.SameCore a') :
      Step env strict a a'
  | rows {a : Account} (f : Text → Operation → Operation)
      (hrows : ∀ id operation, a.operations.get id = some operation →
        RowStep env none operation (f id operation)) :
      Step env strict a { a with operations := a.operations.modifyAll f }
  | batchRows {a : Account} (g : Text → SendBatch → SendBatch)
      (hbatches : ∀ id batch, a.batches.get id = some batch → BatchStep batch (g id batch)) :
      Step env strict a { a with batches := a.batches.modifyAll g }
  /-- A batch and its members take one transaction together. -/
  | rowsBatch {a : Account} {batch : SendBatch} (batchLocalId : Text)
      (f : Text → Operation → Operation) (g : SendBatch → SendBatch) (tx : Transaction)
      (hbatch : a.batches.get batchLocalId = some batch)
      (hready : batch.state = .proofReady ∨ batch.state.isReleased = true)
      (hreleased : (g batch).state.isReleased = true)
      (htx : (g batch).signedTx = some tx)
      (htxid : (g batch).txid = some (tx.txid env.sha256))
      (hrows : ∀ id operation, a.operations.get id = some operation →
        RowStep env (if batch.state.isReleased then batch.txid else none) operation
          (f id operation))
      (hmembers : ∀ id operation member, a.operations.get id = some operation →
        a.members.get id = some member → member.batchLocalId = batchLocalId →
        (f id operation).state.isReleased = true ∧
          (f id operation).txid = some (tx.txid env.sha256))
      (hothers : ∀ id operation, a.operations.get id = some operation →
        (∀ member, a.members.get id = some member → member.batchLocalId ≠ batchLocalId) →
        f id operation = operation) :
      Step env strict a
        { a with
          operations := a.operations.modifyAll f
          batches := a.batches.modify batchLocalId g }
  /-- Every member of a released batch is broadcast again. -/
  | forceMembers {a : Account} {batch : SendBatch} (batchLocalId : Text)
      (hbatch : a.batches.get batchLocalId = some batch)
      (hreleased : batch.state.isReleased = true) :
      Step env strict a
        ((updateMembers batchLocalId (fun operation =>
          { operation with state := .broadcastUnobserved })).final a)
  | plan {a : Account} {request : Request} {nonce : Text} {time : ℤ} (id : Text)
      (hfresh : a.operations.get id = none) :
      Step env strict a
        { a with operations := a.operations.insert id (plannedOperation request nonce time) }
  /-- A mint authorization is admitted with its operation. -/
  | authorize {a : Account} {request : IssuanceRequest} {nonce : Text} {time : ℤ}
      {policy : ProductionIssuancePolicy} {authorization : ProductionMintAuthorization}
      (hfresh : a.operations.get authorization.authorizationIdSha256 = none)
      (hnew : a.issuance.get authorization.authorizationIdSha256 = none)
      (hcontinues : continuesLedger authorization a = .ok ())
      (hpolicy : env.config.productionIssuancePolicies.find? (fun policy =>
        policy.assetId == authorization.assetId) = some policy)
      (hauthorized : AuthorizedMint env.issuance policy authorization) :
      Step env strict a
        { a with
          operations := a.operations.insert authorization.authorizationIdSha256
            (plannedOperation (.mint request) nonce time)
          issuance := a.issuance.insert authorization.authorizationIdSha256
            (admittedRow policy authorization authorization.authorizationIdSha256 time) }
  /-- A planned transfer joins a collecting batch. -/
  | join {a : Account} {batch : SendBatch} {member : Member} {request : Request} {nonce : Text}
      {time : ℤ} (id : Text)
      (hfresh : a.operations.get id = none)
      (hmember : a.members.get id = none)
      (hbatch : a.batches.get member.batchLocalId = some batch)
      (hstate : batch.state = .collecting) :
      Step env strict a
        { a with
          operations := a.operations.insert id (plannedOperation request nonce time)
          members := a.members.insert id member }
  | openWindow {a : Account} {batch : SendBatch} (batchLocalId : Text)
      (hfresh : a.batches.get batchLocalId = none)
      (hstate : batch.state = .collecting)
      (htxid : batch.txid = none) :
      Step env strict a { a with batches := a.batches.insert batchLocalId batch }
  | memberNote {a : Account} {member : Member} (id : Text) (member' : Member)
      (hmember : a.members.get id = some member)
      (hbatch : member'.batchLocalId = member.batchLocalId) :
      Step env strict a { a with members := a.members.modify id (fun _ => member') }
  | reserve {a : Account} {operation : Operation} (id : Text) (funding : ReservedFunding)
      (hoperation : a.operations.get id = some operation)
      (hstate : operation.state = .planned)
      (hfree : reservationConflicts a id funding.outpoint = false) :
      Step env strict a (a.reserve id funding)
  | releaseSignature {a : Account} (id : Text) :
      Step env strict a
        { a with
          reservations := a.reservations.modify id (fun row =>
            { row with state := .signatureReleased }) }
  | cancelOperation (a : Account) (id : Text) :
      Step env strict a ((OpenCsv.cancelOperation id).final a)
  | cancelSendBatch (a : Account) (batchLocalId : Text) :
      Step env strict a ((OpenCsv.cancelSendBatch batchLocalId).final a)
  | close {a : Account} (id reason : Text)
      (hmember : a.members.get id = none)
      (hstate : strict → ∀ operation, a.operations.get id = some operation →
        operation.state.isPrebroadcast = true) :
      Step env strict a ((closeOperation id reason).final a)
  | wallet {a : Account} {w : MemWallet}
      (hwallet : WalletStep env.wallet a.protocol w) :
      Step env strict a { a with protocol := w }
  /-- A proof is imported and bound to no operation. -/
  | importOnly {a : Account} {w : MemWallet} {pendingId : UInt64} {text : Text}
      (himport : a.protocol.importPending env.wallet text = .ok (pendingId, w)) :
      Step env strict a { a with protocol := w }
  | importDiscard {a : Account} {w w' : MemWallet} {pendingId : UInt64} {text : Text}
      (himport : a.protocol.importPending env.wallet text = .ok (pendingId, w))
      (hwallet : WalletStep env.wallet w w') :
      Step env strict a { a with protocol := (w'.cancelPending pendingId).2 }
  /-- A proof over free coins is imported and bound to a funded operation. -/
  | install {a : Account} {w w' : MemWallet} {pendingId : UInt64} {operation : Operation}
      (id text : Text)
      (himport : a.protocol.importPending env.wallet text = .ok (pendingId, w))
      (hconflicts : w.pendingSpendConflicts pendingId = .ok false)
      (havailable : w.pendingSpendsAvailable env.wallet pendingId = .ok true)
      (hwallet : WalletStep env.wallet w w')
      (hoperation : a.operations.get id = some operation)
      (hstate : operation.state = .feeReserved) :
      Step env strict a
        { a with
          protocol := w'
          pendingByOperation := a.pendingByOperation.put id pendingId }
  | installMint {a : Account} {w : MemWallet} {proved : Proved} {operation : Operation}
      {assetId toOwner : Text} {amounts : List UInt64} {draws : MemWallet.Draws} (id : Text)
      (hprove : a.protocol.proveMint env.wallet assetId toOwner amounts draws = .ok (proved, w))
      (hoperation : a.operations.get id = some operation)
      (hstate : operation.state = .feeReserved) :
      Step env strict a
        { a with
          protocol := w
          pendingByOperation := a.pendingByOperation.put id proved.pendingId }
  /-- A funded operation with a bound proof is prepared. -/
  | ready {a : Account} {operation : Operation} {pendingId : UInt64} {p : Pending}
      (id text : Text) (f : Operation → Operation)
      (hoperation : a.operations.get id = some operation)
      (hstate : operation.state = .feeReserved)
      (hbound : a.pendingByOperation.get id = some pendingId)
      (hpending : a.protocol.pending.lookup pendingId = some p)
      (htext : MemWallet.readPending env.wallet text = .ok p ∨
        (a.protocol.exportPending env.wallet pendingId = .ok text ∧ p.spentIds = []))
      (hready : (f operation).state = .proofReady)
      (hfunding : (f operation).funding = operation.funding)
      (hjson : (f operation).pendingJson = some text)
      (htx : (f operation).signedTx = operation.signedTx)
      (htxid : (f operation).txid = operation.txid)
      (hreceipt : (f operation).receiptOrEmpty = Receipt.empty) :
      Step env strict a { a with operations := a.operations.modify id f }
  /-- The proof of a signed operation is imported again. -/
  | restorePending {a : Account} {w : MemWallet} {pendingId : UInt64} {operation : Operation}
      (id text : Text)
      (hoperation : a.operations.get id = some operation)
      (hstate : operation.state.isBumpable = true)
      (hjson : operation.pendingJson = some text)
      (hbound : a.pendingByOperation.get id = none)
      (himport : a.protocol.importPending env.wallet text = .ok (pendingId, w)) :
      Step env strict a
        { a with
          protocol := w
          pendingByOperation := a.pendingByOperation.put id pendingId }
  | finalize {a : Account} {w : MemWallet} {pendingId : UInt64} {operation : Operation}
      {consignment : List UInt8} {spends : List Text} (world : World) (id : Text) (txid : Txid)
      (state : OperationState)
      (hbound : a.pendingByOperation.get id = some pendingId)
      (hfinalize : a.protocol.finalize env.wallet pendingId ⟨txid, ScanIndex.mempool⟩ =
        .ok ((consignment, spends), w))
      (hoperation : a.operations.get id = some operation)
      (howner : operation.Tracked ∧ operation.txid = some txid ∨ a.batchTxid id = some txid)
      (hstate : state = .mempool ∨ state = .confirmed) :
      Step env strict a
        { a.storeDelivery env world id consignment spends state with
          protocol := w
          pendingByOperation := a.pendingByOperation.delete id }
  /-- The proof of an operation that does not exist is finalized. -/
  | finalizeLost {a : Account} {w : MemWallet} {pendingId : UInt64} {anchorRef : AnchorRef}
      {consignment : List UInt8} {spends : List Text} (id : Text)
      (hbound : a.pendingByOperation.get id = some pendingId)
      (hfinalize : a.protocol.finalize env.wallet pendingId anchorRef =
        .ok ((consignment, spends), w))
      (hoperation : a.operations.get id = none) :
      Step env strict a
        { a with
          protocol := w
          pendingByOperation := a.pendingByOperation.delete id }

/-- A sequence of steps. -/
def Steps (env : AccountEnv π) (strict : Prop) : Account → Account → Prop :=
  Relation.ReflTransGen (Step env strict)

variable {env : AccountEnv π}
variable {strict : Prop}
variable {a₀ a a' : Account}

/-- The row of one operation. -/
theorem Step.row
    (id : Text)
    (f : Operation → Operation)
    (h : ∀ operation, a.operations.get id = some operation →
      RowStep env none operation (f operation)) :
    Step env strict a { a with operations := a.operations.modify id f } := by
  refine Step.rows _ ?_
  intro id' operation hoperation
  split_ifs with hid
  · subst hid
    exact h operation hoperation
  · exact RowStep.refl operation

/-- The row of one batch. -/
theorem Step.batchRow
    (batchLocalId : Text)
    (g : SendBatch → SendBatch)
    (h : ∀ batch, a.batches.get batchLocalId = some batch → BatchStep batch (g batch)) :
    Step env strict a { a with batches := a.batches.modify batchLocalId g } := by
  refine Step.batchRows _ ?_
  intro id batch hbatch
  split_ifs with hid
  · subst hid
    exact h batch hbatch
  · exact BatchStep.note rfl rfl rfl

theorem Steps.refl
    (a : Account) :
    Steps env strict a a :=
  Relation.ReflTransGen.refl

theorem Steps.then
    (h : Steps env strict a₀ a)
    (hstep : Step env strict a a') :
    Steps env strict a₀ a' :=
  Relation.ReflTransGen.tail h hstep

theorem Steps.aside
    (h : Steps env strict a₀ a)
    (hsame : a.SameCore a') :
    Steps env strict a₀ a' :=
  h.then (Step.aside hsame)

theorem Steps.trans
    (h : Steps env strict a₀ a)
    (h' : Steps env strict a a') :
    Steps env strict a₀ a' :=
  Relation.ReflTransGen.trans h h'

end Accounts

end OpenCsv
