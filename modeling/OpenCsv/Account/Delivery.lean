import OpenCsv.Account.Signing

/-!
# Observation, settlement and delivery

A signed transaction that independent observers return is finalized into a
consignment for its recipient.  Settlement comes from the verified scan; a
transaction that leaves it again is demoted.  The members of a batch are finalized
one after the other, each in a transaction of its own.
-/

namespace OpenCsv

open Call

variable {π : Type}
variable (env : AccountEnv π)
variable (world : World)

/-- The id of a consignment: the hash of its bytes. -/
def consignmentHash (consignment : List UInt8) : Text :=
  toHex (env.sha256 consignment).toList

section Finalizing

/-- Put a consignment into a receipt. -/
def Receipt.deliver (receipt : Receipt) (consignment : List UInt8) : Receipt :=
  { receipt with
    consignmentId := some (consignmentHash env consignment)
    consignment := some consignment
    deliveryReady := true }

/-- The rows of a finalized operation: its consignment and its receipt. -/
def Account.storeDelivery
    (a : Account)
    (operationId : Text)
    (consignment : List UInt8)
    (spends : List Text)
    (state : OperationState) : Account :=
  { a with
    consignments := a.consignments.insert (consignmentHash env consignment)
      ⟨consignment, some spends, world.now⟩
    operations := a.operations.modify operationId (fun operation =>
      { operation with
        state := state
        receipt := some (operation.receiptOrEmpty.deliver env consignment)
        rejectionReason := none }) }

/-- Turn the pending proof of an observed transaction into a consignment. -/
def finalizeObservedOperation (operationId : Text) (txid : Txid) : AccountCall Unit := do
  let pendingId ← reads (fun a => okOr (a.pendingByOperation.get operationId)
    (.new "operation_not_resumable" "missing pending proof"))
  let ((consignment, spends), w) ← reads (fun a =>
    (a.protocol.finalize env.wallet pendingId ⟨txid, ScanIndex.mempool⟩).mapError
      (AccountError.newText "operation_not_resumable"))
  modify (fun a => { a with
    protocol := w
    pendingByOperation := a.pendingByOperation.delete operationId })
  let _ ← reads (fun a => a.operation operationId)
  modify (fun a => a.storeDelivery env world operationId consignment spends .mempool)

end Finalizing

section Observing

def OperationState.isObservable : OperationState → Bool
  | .signedPersisted | .broadcastUnobserved | .mempool => true
  | _ => false

def BatchState.isObservable : BatchState → Bool
  | .signedPersisted | .broadcastUnobserved | .mempool => true
  | _ => false

/-- The observed bytes are exactly the persisted transaction. -/
def matchTransaction
    (signedTx : Option Transaction)
    (txid : Option Txid)
    (rawTransaction : Transaction) : Except AccountError Unit := do
  let signed ← okOr signedTx
    (.new "database_corrupt" "signed operation has no transaction bytes")
  require (signed == rawTransaction)
    (.new "raw_transaction_mismatch"
      "observer bytes do not equal the exact persisted signed transaction")
  require (txid == some (rawTransaction.txid env.sha256))
    (.new "raw_transaction_mismatch"
      "observer transaction id differs from the signed operation")

/-- Observers return the exact signed transaction of an operation. -/
def observeOperationUnconfirmed
    (operationId : Text)
    (rawTransaction : Transaction) : AccountCall Unit := do
  let operation ← reads (fun a => a.operation operationId)
  demand operation.state.isObservable
    (.newText "invalid_operation_state"
      (Text.lit "operation is " ++ Text.lit operation.state.asStr))
  lift (matchTransaction env operation.signedTx operation.txid rawTransaction)
  lift world.observation
  if operation.state = .mempool then
    pure ()
  else
    finalizeObservedOperation env world operationId (rawTransaction.txid env.sha256)

/-- The checks of a batch observation. -/
def observableBatch
    (batchLocalId : Text)
    (rawTransaction : Transaction)
    (a : Account) : Except AccountError SendBatch := do
  let batch ← a.sendBatch batchLocalId
  require batch.state.isObservable
    (.newText "invalid_batch_state" (Text.lit "batch is " ++ Text.lit batch.state.asStr))
  matchTransaction env batch.signedTx batch.txid rawTransaction
  world.observation
  return batch

/-- Observers return the exact shared transaction: finalize every member. -/
def observeSendBatchUnconfirmed
    (batchLocalId : Text)
    (rawTransaction : Transaction) : AccountCall Unit := do
  let batch ← reads (observableBatch env world batchLocalId rawTransaction)
  if batch.state = .mempool then
    pure ()
  else do
    let a ← get
    each (a.memberIds batchLocalId) (fun operationId =>
      finalizeObservedOperation env world operationId (rawTransaction.txid env.sha256))
    updateBatch batchLocalId (fun batch => { batch with state := .mempool })
  updateBatch batchLocalId (fun batch => { batch with receipt := some batch.receiptOrEmpty })

/-- Mark the consignment of an observed operation as delivered. -/
def markConsignmentDelivered (operationId deliveryNonce : Text) : AccountCall Unit := do
  let operation ← reads (fun a => a.operation operationId)
  demand (operation.deliveryNonce == deliveryNonce)
    (.new "delivery_nonce_mismatch" "delivery acknowledgement belongs to another operation")
  if operation.state = .consignmentDelivered ∨
      operation.receiptOrEmpty.consignmentDelivered = true then
    pure ()
  else do
    demand (operation.state == .mempool || operation.state == .confirmed)
      (.new "delivery_too_early"
        "consignment delivery starts only after transaction observation")
    updateOperation operationId (fun operation =>
      { operation with
        state := if operation.state = .confirmed then .consignmentDelivered else .mempool
        receipt := some { operation.receiptOrEmpty with consignmentDelivered := true } })

end Observing

section Refreshing

/-- Is a check of this kind required? -/
def AccountConfig.requires (config : AccountConfig) (kind : ObservationKind) : Bool :=
  config.observationChecks.any (fun check => check.kind == kind && check.mode == .require)

/-- The state of a settled operation. -/
def settledState (delivered : Bool) : OperationState :=
  if delivered then .consignmentDelivered else .confirmed

/-- Ask the accelerator about a signed operation. -/
def refreshOperation (operationId : Text) : AccountCall Unit := do
  let operation ← reads (fun a => a.operation operationId)
  if env.config.requires .rawTransactionApi ∧
      operation.state ≠ .confirmed ∧ operation.state ≠ .consignmentDelivered then
    pure ()
  else do
    let txid ← lift (okOr operation.txid
      (.new "invalid_operation_state" "operation is unsigned"))
    let observed ← lift ((world.getTx txid).mapError (AccountError.newText "sync_failed"))
    if observed.isNone then
      updateOperation operationId (fun operation =>
        { operation with state := .broadcastUnobserved })
    else do
      let confirmed ← lift ((world.txConfirmed txid).mapError (AccountError.newText "sync_failed"))
      if operation.state = .mempool ∨ operation.state = .confirmed ∨
          operation.state = .consignmentDelivered then
        pure ()
      else if operation.receiptOrEmpty.deliveryReady then
        updateOperation operationId (fun operation => { operation with state := .mempool })
      else
        finalizeObservedOperation env world operationId txid
      if confirmed ∧ ¬env.config.observes .confirmedSpv ∧
          operation.state ≠ .consignmentDelivered then
        updateOperation operationId (fun row =>
          { row with state := settledState operation.receiptOrEmpty.consignmentDelivered })
      else
        pure ()

/-- Return one operation, refreshed when it has a live transaction. -/
def operationStatus (operationId : Text) : AccountCall Unit := do
  let operation ← reads (fun a => a.operation operationId)
  if operation.txid.isSome ∧ operation.state ≠ .cancelled ∧
      operation.state ≠ .consignmentDelivered ∧ operation.state ≠ .protocolRejected then
    refreshOperation env world operationId
  else
    pure ()

/-- The consignment to settle: the delivered one, or one finalized on a copy of the wallet. -/
def spvConsignmentCandidate
    (operationId : Text)
    (operation : Operation)
    (txid : Txid)
    (a : Account) : Except AccountError (List UInt8 × Option (MemWallet × List Text)) :=
  match operation.receiptOrEmpty.consignment with
  | some consignment => .ok (consignment, none)
  | none => do
      require (operation.state == .signedPersisted || operation.state == .broadcastUnobserved)
        (.new "operation_not_observed"
          "SPV settlement requires a consignment or resumable signed proof")
      let pendingId ← okOr (a.pendingByOperation.get operationId)
        (.new "operation_not_resumable" "confirmed operation has no durable pending proof")
      let ((consignment, spends), w) ←
        (a.protocol.finalize env.wallet pendingId ⟨txid, ScanIndex.mempool⟩).mapError
          (AccountError.newText "operation_not_resumable")
      return (consignment, some (w, spends))

/-- A settled transaction has left the verified scan. -/
def demoteOperation (operationId : Text) (txid : Txid) (delivered : Bool) : AccountCall Unit := do
  freezeUnconfirmedDependency (unconfirmedDependencyKey txid)
  updateOperation operationId (fun operation =>
    { operation with
      state := if delivered then .mempool else .broadcastUnobserved
      rejectionReason := some (Text.lit "spv_reorg_unsettled") })
  modify (fun a => { a with backupVerified := false })

/-- Settle an operation through the verified scan. -/
def refreshOperationSpv (operationId : Text) : AccountCall Unit := do
  let operation ← reads (fun a => a.operation operationId)
  match env.config.observationChecks.find? (fun check => check.kind == .confirmedSpv) with
  | none => pure ()
  | some check =>
      if check.mode = .off then
        pure ()
      else do
        let txid ← lift (okOr operation.txid
          (.new "invalid_operation_state" "SPV operation has no transaction id"))
        let (consignment, candidate) ←
          reads (spvConsignmentCandidate env operationId operation txid)
        let verified ← lift (world.scanVerify consignment)
        updateOperation operationId (fun row =>
          { row with receipt := some row.receiptOrEmpty })
        match verified, candidate with
        | true, some (w, spends) =>
            modify (fun a =>
              { a.storeDelivery env world operationId consignment spends .confirmed with
                protocol := w
                pendingByOperation := a.pendingByOperation.delete operationId })
        | true, none =>
            updateOperation operationId (fun row =>
              { row with
                state := settledState operation.receiptOrEmpty.consignmentDelivered
                rejectionReason := none })
        | false, _ =>
            if operation.state = .confirmed ∨ operation.state = .consignmentDelivered then
              demoteOperation operationId txid operation.receiptOrEmpty.consignmentDelivered
            else
              pure ()

end Refreshing

end OpenCsv
