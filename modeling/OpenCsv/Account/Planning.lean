import OpenCsv.Account.BatchProof

/-!
# Planning, freezing and acknowledging

A transfer is journaled before any expensive work.  Transfers planned within two
seconds share a send batch; freezing closes the collection window.  A proof-ready
operation or batch may be signed once the backup has acknowledged its checkpoint.
-/

namespace OpenCsv

open Call

variable {π : Type}
variable (env : AccountEnv π)
variable (world : World)

section Planning

/-- A journaled request without any other state. -/
def plannedOperation (request : Request) (deliveryNonce : Text) (createdAt : ℤ) : Operation where
  request := request
  state := .planned
  funding := none
  pendingJson := none
  signedTx := none
  txid := none
  receipt := none
  rejectionReason := none
  deliveryNonce := deliveryNonce
  checkpointHash := none
  backupAcked := false
  createdAt := createdAt

/-- `INSERT` of a planned operation. -/
def insertPlannedOperation
    (operationId : Text)
    (request : Request)
    (deliveryNonce : Text) : AccountCall Unit := do
  let a ← get
  demand (!a.operations.has operationId)
    (.new "database_error" "UNIQUE constraint failed: opencsv_operations.operation_id")
  modify (fun a => { a with
    operations := a.operations.insert operationId
      (plannedOperation request deliveryNonce world.now) })

/-- What every new transfer has to pass. -/
def admitTransfer (request : TransferRequest) (a : Account) : Except AccountError Unit := do
  requireProductWriteEnabled env a
  normalizeTransferRequest request
  requireReviewedUsdAsset env a request.assetId
  requireProductionNewTransferPolicy env world a request

/-- Journal a transfer without doing expensive proof work. -/
def transferPlan (request : TransferRequest) : AccountCall Text := do
  reads (admitTransfer env world request)
  insertPlannedOperation world (world.randomId 0) (.transfer request) (world.randomId 1)
  return world.randomId 0

/-- `INSERT` of a member. -/
def insertMember (batchLocalId operationId : Text) (ordinal : UInt8) : AccountCall Unit := do
  let a ← get
  demand (!a.members.rows.any (fun row =>
      row.1 == operationId || (row.2.batchLocalId == batchLocalId && row.2.ordinal == ordinal)))
    (.new "database_error" "UNIQUE constraint failed: opencsv_send_batch_members")
  modify (fun a => { a with
    members := a.members.insert operationId
      { batchLocalId := batchLocalId
        ordinal := ordinal
        addedAtMs := world.nowMs
        changeSpk := none
        commitNonce := none } })

/-- The open collection window that a new transfer joins by itself. -/
def openBatch (a : Account) : Option (Text × SendBatch) :=
  a.activeSendBatch.bind (fun batchLocalId =>
    ((a.batches.get batchLocalId).filter (fun batch =>
      batch.state == .collecting && world.nowMs ≤ batch.deadlineMs &&
        (a.sendBatchMembers batchLocalId).length < maxLocalBatchRecipients)).map
          (fun batch => (batchLocalId, batch)))

/-- Add a transfer to a collecting batch. -/
def joinBatch
    (request : TransferRequest)
    (batchLocalId : Text)
    (batch : SendBatch) : AccountCall Unit := do
  demand (batch.state == .collecting)
    (.newText "batch_window_closed" (Text.lit "batch is " ++ Text.lit batch.state.asStr))
  demand (world.nowMs ≤ batch.deadlineMs)
    (.new "batch_window_closed" "the two-second Add Recipient guarantee has expired")
  let a ← get
  let members := a.memberIds batchLocalId
  demand (members.length < maxLocalBatchRecipients)
    (.new "batch_full" "the local batch reached the reviewed C1 participant limit")
  let requests ← lift (a.transferRequestsForBatchMembers members)
  lift (requireProductionBatchPolicy env (requests ++ [request]))
  atomic (do
    insertPlannedOperation world (world.randomId 0) (.transfer request) (world.randomId 1)
    insertMember world batchLocalId (world.randomId 0) (UInt8.ofNat members.length))

/-- Open a collection window with one transfer. -/
def startBatch (request : TransferRequest) : AccountCall Unit := do
  lift (requireProductionBatchPolicy env [request])
  let batchLocalId := world.randomId 0
  atomic (do
    let a ← get
    demand (!a.batches.has batchLocalId)
      (.new "database_error" "UNIQUE constraint failed: opencsv_send_batches.batch_local_id")
    modify (fun a => { a with
      batches := a.batches.insert batchLocalId
        { state := .collecting
          deadlineMs := world.nowMs + sendBatchWindowMillis
          participantCount := none
          proposalWire := none
          manifestWire := none
          signedTx := none
          txid := none
          receipt := none
          checkpointHash := none
          backupAcked := false
          createdAt := world.nowMs } })
    insertPlannedOperation world (world.randomId 1) (.transfer request) (world.randomId 2)
    insertMember world batchLocalId (world.randomId 1) 0
    modify (fun a => { a with activeSendBatch := some batchLocalId }))

/-- Plan a transfer into a named batch, the open one, or a new one. -/
def planBatchedTransfer
    (request : TransferRequest)
    (requestedBatch : Option Text) : AccountCall Unit := do
  reads (admitTransfer env world request)
  match requestedBatch with
  | some batchLocalId => do
      let batch ← reads (fun a => a.sendBatch batchLocalId)
      joinBatch env world request batchLocalId batch
  | none => do
      let a ← get
      match openBatch world a with
      | some (batchLocalId, batch) => joinBatch env world request batchLocalId batch
      | none => startBatch env world request

/-- Close the collection window. -/
def freezeSendBatch (batchLocalId : Text) : AccountCall Unit := do
  reads (requireProductWriteEnabled env)
  let batch ← reads (fun a => a.sendBatch batchLocalId)
  let a ← get
  let members := a.memberIds batchLocalId
  demand (!members.isEmpty) (.new "database_corrupt" "send batch contains no operations")
  let requests ← lift (a.transferRequestsForBatchMembers members)
  let _ ← lift (requests.mapM (requireReviewedTransfer env world a))
  lift (requireProductionBatchPolicy env requests)
  if batch.state = .collecting then do
    demand (members.length < 256) (.new "batch_full" "batch participant count exceeds u8")
    modify (fun a => { a with
      batches := a.batches.modify batchLocalId (fun batch =>
        { batch with
          state := if members.length = 1 then .solo else .frozen
          participantCount := some (UInt8.ofNat members.length) })
      activeSendBatch :=
        if a.activeSendBatch = some batchLocalId then none else a.activeSendBatch })
  else
    demand (batch.state != .cancelled)
      (.newText "invalid_batch_state" (Text.lit "batch is " ++ Text.lit batch.state.asStr))

end Planning

section Acknowledging

/-- The backup has stored the checkpoint that a prepared operation is bound to. -/
def acknowledgeOperationBackup (operationId checkpointHash : Text) : AccountCall Unit :=
  atomic (do
    let operation ← reads (fun a => a.operation operationId)
    demand (operation.state == .proofReady)
      (.newText "invalid_operation_state"
        (Text.lit "operation is " ++ Text.lit operation.state.asStr))
    let current ← reads (fun a => a.currentHash env)
    demand (operation.checkpointHash == some checkpointHash || current == checkpointHash)
      (.new "backup_checkpoint_mismatch"
        "Secure Backup did not acknowledge this proof-ready operation's staged or current wallet checkpoint")
    updateOperation operationId (fun operation =>
      { operation with
        checkpointHash := some checkpointHash
        backupAcked := true
        receipt := some operation.receiptOrEmpty }))

/-- The backup has stored the checkpoint that a prepared batch is bound to. -/
def acknowledgeSendBatchBackup (batchLocalId checkpointHash : Text) : AccountCall Unit :=
  atomic (do
    let batch ← reads (fun a => a.sendBatch batchLocalId)
    demand (batch.state == .proofReady)
      (.newText "invalid_batch_state" (Text.lit "batch is " ++ Text.lit batch.state.asStr))
    let current ← reads (fun a => a.currentHash env)
    demand (batch.checkpointHash == some checkpointHash || current == checkpointHash)
      (.new "backup_checkpoint_mismatch"
        "Secure Backup did not acknowledge this proof-ready batch's staged or current wallet checkpoint")
    updateBatch batchLocalId (fun batch =>
      { batch with checkpointHash := some checkpointHash, backupAcked := true })
    updateMembers batchLocalId (fun operation =>
      { operation with
        checkpointHash := some checkpointHash
        backupAcked := true
        receipt := some operation.receiptOrEmpty }))

/-- Set the backup policy state. -/
def setBackupState (verified : Bool) (version : UInt32) : AccountCall Unit := do
  demand (!verified || version == checkpointVersion)
    (.new "backup_version_mismatch" "expected checkpoint version 4")
  modify (fun a => { a with backupVerified := verified })

/-- The external backup has stored the current checkpoint. -/
def acknowledgeCheckpointBackup (checkpointHash : Text) : AccountCall Unit := do
  let current ← reads (fun a => a.currentHash env)
  demand (checkpointHash == current)
    (.new "backup_checkpoint_mismatch"
      "external backup acknowledged a stale or different issuer checkpoint")
  setBackupState true checkpointVersion

end Acknowledging

end OpenCsv
