import OpenCsv.Account.Mint
import OpenCsv.Cbf.Scan

/-!
# Signing and broadcasting

A prepared and acknowledged operation is verified again, signed, persisted and only
then submitted to the network.  A batch is signed as one transaction of all its
members; its stock and its fee reservations are marked as released with the
signatures.
-/

namespace OpenCsv

open Call

variable {π : Type}
variable (env : AccountEnv π)
variable (world : World)

structure FeePolicy where
  targetSatPerVb : UInt64
  maxFeeSats : Option UInt64
deriving DecidableEq

/-- The sequence number that opts in to replacement without a lock time. -/
def enableRbfNoLocktime : UInt32 := 0xfffffffd

section Layout

/-- The funding input comes first, and the outputs are the record, the marker and change. -/
def validateInitialAnchor
    (transaction : Transaction)
    (funding : OutPoint)
    (record : Bytes 64) : Except AccountError Unit := do
  require
    (transaction.inputs.head?.map TxIn.prev == some funding &&
      transaction.inputs.all (fun input => input.sequence == enableRbfNoLocktime))
    (.new "protocol_layout_violation"
      "funding input must be vin[0] and every input must use the canonical RBF sequence")
  match transaction.outputs with
  | [recordOut, marker, change] =>
      require
        (recordOut.value == 0 && recordOut.scriptPubkey == anchorScript record &&
          marker.value == markerDustSats && marker.scriptPubkey == markerSpk &&
            change.scriptPubkey.head? != some 0x6a &&
              env.minimalNonDust change.scriptPubkey ≤ change.value)
        (.new "protocol_layout_violation"
          "signed transaction does not preserve record/marker/change layout")
  | _ =>
      .error (.new "protocol_layout_violation"
        "anchor must have record, marker, and change outputs")

end Layout

section Single

/-- The gates of signing, by the kind of the operation. -/
def signingGate
    (operationId : Text)
    (operation : Operation)
    (a : Account) : Except AccountError (Option ProductionIssuanceAuthorizationSnapshot) :=
  match operation.request.kind with
  | .mint => do
      requireIssuanceWriteEnabled env a
      if env.config.network = .mainnet then
        (validateCurrentProductionMintOperation env world a operationId operation).map some
      else
        pure none
  | .transfer => do
      requireProductWriteEnabled env a
      return none

/-- The reserved output, still unspent and locked. -/
def signingFunding (operation : Operation) (a : Account) : Except AccountError ReservedFunding := do
  let outpoint ← operation.outpoint
  let output ← okOr (a.bitcoin.unspent.find? (fun output => output.outpoint == outpoint))
    (.new "stale_chain_state" "reserved funding outpoint is no longer unspent")
  require (a.bitcoin.isOutpointLocked outpoint)
    (.new "conflicting_operation" "funding outpoint lost its durable reservation")
  ReservedFunding.fromLocal output

/-- A transfer is reviewed again before it is signed; a failure rejects it. -/
def reviewBeforeSigning (operationId : Text) (operation : Operation) : AccountCall Unit :=
  match operation.request.kind with
  | .mint => pure ()
  | .transfer => do
      let request ← lift operation.request.asTransfer
      let a ← get
      match requireReviewedTransfer env world a request with
      | .ok _ => pure ()
      | .error error => failPrebroadcast operationId error

/-- The inputs of a transfer are unspent on the verified chain; a failure rejects it. -/
def preflightBeforeSigning
    (operationId : Text)
    (operation : Operation)
    (pendingId checkedThrough : UInt64) : AccountCall Unit :=
  match operation.request.kind with
  | .mint => pure ()
  | .transfer => do
      let nullifiers ← reads (fun a =>
        (pendingNullifiers a pendingId).mapError (AccountError.newText "operation_not_resumable"))
      match verifyProtocolInputsUnspent world nullifiers checkedThrough
          (protocolSpendPreflightRequired env) with
      | .ok _ => pure ()
      | .error error => failPrebroadcast operationId error

/-- Note the reason of a failure that leaves the operation prepared. -/
def orNoteReason {α : Type} (operationId : Text) (c : AccountCall α) : AccountCall α := do
  match ← attempt c with
  | .ok value => return value
  | .error error => do
      rejectOperation operationId error.code
      throw error

/-- The transaction of an operation, signed within the fee limit and in the exact layout. -/
def signAnchor
    (policy : FeePolicy)
    (outpoint : OutPoint)
    (record : Bytes 64) : Except AccountError Transaction := do
  let (tx, fee) ← world.sign
  require ((effectiveFeeLimit env policy.maxFeeSats).all (fun limit => fee ≤ limit))
    (.newText "fee_limit_exceeded"
      (Text.ofNat fee.toNat ++ Text.lit " sats exceeds configured maximum"))
  validateInitialAnchor env tx outpoint record
  world.stamp
  return tx

/-- A signed receipt: every field of the prepared one is replaced. -/
def signedReceipt (snapshot : Option ProductionIssuanceAuthorizationSnapshot) : Receipt :=
  { Receipt.empty with productionIssuanceAuthorization := snapshot }

/-- Sign, persist and broadcast one prepared operation. -/
def signAndBroadcast (operationId : Text) (policy : FeePolicy) : AccountCall Unit := do
  reads (requireWriteEnabled env)
  demand (policy.targetSatPerVb != 0)
    (.new "invalid_fee_policy" "target_sat_per_vb must be positive")
  let operation ← reads (fun a => a.operation operationId)
  let snapshot ← reads (signingGate env world operationId operation)
  demand (operation.state == .proofReady)
    (.newText "invalid_operation_state"
      (Text.lit "operation is " ++ Text.lit operation.state.asStr))
  demand operation.backupAcked
    (.new "backup_required" "the prepared checkpoint has not been acknowledged by Secure Backup")
  reviewBeforeSigning env world operationId operation
  let funding ← reads (signingFunding operation)
  let checkedThrough ← orNoteReason operationId (lift (world.verifyFunding funding.outpoint))
  let pendingId ← reads (fun a => okOr (a.pendingByOperation.get operationId)
    (.new "operation_not_resumable" "missing pending proof"))
  preflightBeforeSigning env world operationId operation pendingId checkedThrough
  let dependencies ← reads (fun a =>
    (pendingUnconfirmedDependencies a pendingId).mapError
      (AccountError.newText "operation_not_resumable"))
  orNoteReason operationId (reobserveUnconfirmedDependencies env world dependencies)
  let record ← reads (fun a => (a.protocol.rebindPending env.wallet pendingId
    (fundingCtx env.sha256 funding.outpoint)).mapError
      (AccountError.newText "protocol_layout_violation"))
  let tx ← lift (signAnchor env world policy funding.outpoint record)
  updateOperation operationId (fun operation =>
    { operation with
      state := .signedPersisted
      signedTx := some tx
      txid := some (tx.txid env.sha256)
      receipt := some (signedReceipt snapshot) })
  modify (fun a => { a with bitcoin := a.bitcoin.applyUnconfirmedTx tx })
  lift world.relay
  updateOperation operationId (fun operation =>
    { operation with
      state := .broadcastUnobserved
      rejectionReason := some (Text.lit "broadcast_unobserved") })

end Single

section Batch

/-- Verify one member of a batch before signing. -/
def verifyMember (context : Ctx) (operationId : Text) (member : Member) : AccountCall Unit := do
  let operation ← reads (fun a => a.operation operationId)
  demand (operation.state == .proofReady && operation.backupAcked)
    (.newText "backup_required"
      (Text.lit "batch member " ++ operationId ++ Text.lit " is not backup-acknowledged"))
  let funding ← reads (fun a => reservedFundingForOperation a operation)
  let checkedThrough ← lift (world.verifyFunding funding.outpoint)
  let pendingId ← reads (fun a => okOr (a.pendingByOperation.get operationId)
    (.newText "operation_not_resumable"
      (Text.lit "batch member " ++ operationId ++ Text.lit " has no pending proof")))
  let nullifiers ← reads (fun a =>
    (pendingNullifiers a pendingId).mapError (AccountError.newText "operation_not_resumable"))
  lift (verifyProtocolInputsUnspent world nullifiers checkedThrough
    (protocolSpendPreflightRequired env))
  let dependencies ← reads (fun a =>
    (pendingUnconfirmedDependencies a pendingId).mapError
      (AccountError.newText "operation_not_resumable"))
  reobserveUnconfirmedDependencies env world dependencies
  let _ ← reads (fun a => (a.protocol.rebindPendingBatchPayload env.wallet pendingId
    context).mapError (AccountError.newText "batch_payload_incompatible"))
  demand member.changeSpk.isSome (.new "database_corrupt" "batch member has no change script")
  demand member.commitNonce.isSome (.new "database_corrupt" "batch member has no commit nonce")
  lift (world.batchFeeKey funding.outpoint)

/-- The stock that a released batch leaves in its own transaction. -/
def pendingStock (count : UInt8) (valueSats : UInt64) : Stock where
  participantCount := count
  valueSats := valueSats
  birthHeight := 0
  state := .pending
  reservedByBatch := none
  createdAt := world.now

/-- The outpoint of the stock that a batch transaction leaves. -/
def stockVout (txid : Txid) : OutPoint := ⟨txid, 2⟩

/-- Persist a signed batch: batch, stock, members and reservations, in one transaction. -/
def persistSignedBatch
    (batchLocalId : Text)
    (operationIds : List Text)
    (stock : Stock)
    (tx : Transaction) : AccountCall Unit :=
  atomic (do
    lift world.stamp
    updateBatch batchLocalId (fun batch =>
      { batch with
        state := .signedPersisted
        signedTx := some tx
        txid := some (tx.txid env.sha256)
        receipt := some batch.receiptOrEmpty })
    modify (fun a => { a with
      stocks := a.stocks.modifyAll (fun _ stock =>
        if stock.reservedByBatch = some batchLocalId then
          { stock with state := .signatureReleased }
        else
          stock) })
    each operationIds (fun operationId => do
      let _ ← reads (fun a => a.operation operationId)
      updateOperation operationId (fun operation =>
        { operation with
          state := .signedPersisted
          signedTx := some tx
          txid := some (tx.txid env.sha256)
          receipt := some operation.receiptOrEmpty })
      modify (fun a => { a with
        reservations := a.reservations.modify operationId (fun row =>
          { row with state := .signatureReleased }) }))
    demand (stock.valueSats.toNat < 2 ^ 63)
      (.new "database_error" "stock value exceeds SQLite i64")
    modify (fun a => { a with
      stocks := a.stocks.insert (stockVout (tx.txid env.sha256))
        (pendingStock world (UInt8.ofNat operationIds.length) stock.valueSats) }))

/-- Sign, persist and broadcast one prepared batch. -/
def signAndBroadcastSendBatch (batchLocalId : Text) : AccountCall Unit := do
  reads (requireProductWriteEnabled env)
  let batch ← reads (fun a => a.sendBatch batchLocalId)
  demand (batch.state == .proofReady)
    (.newText "invalid_batch_state" (Text.lit "batch is " ++ Text.lit batch.state.asStr))
  demand batch.backupAcked
    (.new "backup_required" "the complete prepared batch checkpoint is not acknowledged")
  let proposalWire ← lift (okOr batch.proposalWire
    (.new "database_corrupt" "proof-ready batch has no proposal"))
  let _ ← lift (okOr batch.manifestWire
    (.new "database_corrupt" "proof-ready batch has no manifest"))
  let proposal ← lift (env.proposalFromWire proposalWire)
  let a ← get
  let members := a.sendBatchMembers batchLocalId
  let operationIds := members.map Prod.fst
  let requests ← lift (a.transferRequestsForBatchMembers operationIds)
  orCancelBatch batchLocalId (requireProductionBatchPolicy env requests)
  reviewMembers env world batchLocalId operationIds
  let (outpoint, stock) ← reads (fun a => okOr (a.batchStockReservedBy batchLocalId)
    (.new "conflicting_operation" "batch stock is unlocked"))
  demand (outpoint == proposal.1 && stock.participantCount == UInt8.ofNat members.length)
    (.new "conflicting_operation" "proposal and reserved stock differ")
  let _ ← lift (world.verifyFunding outpoint)
  each members (fun (operationId, member) => verifyMember env world proposal.2 operationId member)
  let (tx, fee) ← lift world.sign
  demand (env.config.maxFeeSats.all (fun limit => fee ≤ limit))
    (.newText "fee_limit_exceeded"
      (Text.ofNat fee.toNat ++ Text.lit " sats exceeds configured maximum"))
  persistSignedBatch env world batchLocalId operationIds stock tx
  modify (fun a => { a with bitcoin := a.bitcoin.applyUnconfirmedTx tx })
  lift world.relay
  updateBatch batchLocalId (fun batch => { batch with state := .broadcastUnobserved })
  updateMembers batchLocalId (fun operation => { operation with state := .broadcastUnobserved })

end Batch

end OpenCsv
