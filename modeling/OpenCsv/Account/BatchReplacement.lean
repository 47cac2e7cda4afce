import OpenCsv.Account.Replacement

/-!
# Fee replacements of send batches

A batch is replaced as a whole: every member forgets its consignment, the receipt of
the batch keeps the manifest of the replaced transaction, and the stock that the
replaced transaction would have left is invalidated.  A resume or a refresh goes back
to the replaced transaction when that one confirmed.
-/

namespace OpenCsv

open Call

variable {π : Type}
variable (env : AccountEnv π)
variable (world : World)

section Stocks

/-- Move the stock that a batch transaction leaves from one state to another. -/
def moveStock (txid : Txid) (source target : StockState) : AccountCall Unit :=
  modify (fun a => { a with
    stocks := a.stocks.modify (stockVout txid) (fun stock =>
      if stock.state = source then { stock with state := target } else stock) })

end Stocks

section Reconciling

/-- What going back to the replaced transaction makes of one member. -/
def reinstatedReceipt
    (replacement replaced : Txid)
    (operationId : Text)
    (a : Account) : Except AccountError (Text × Receipt × Option PriorDelivery) := do
  let operation ← a.operation operationId
  require (operation.txid == some replacement)
    (.newText "database_corrupt"
      (Text.lit "batch member " ++ operationId ++
        Text.lit " does not name the replacement transaction"))
  require (operation.receiptOrEmpty.replaces == some replaced)
    (.newText "database_corrupt"
      (Text.lit "batch member " ++ operationId ++
        Text.lit " replacement lineage differs from its batch"))
  let (receipt, restored) ← operation.receiptOrEmpty.restorePreReplacementDelivery env
  return (operationId, receipt, restored)

/-- Go back to the replaced transaction: members, batch and stocks, in one transaction. -/
def reinstateBatch
    (batchLocalId : Text)
    (manifestWire : List UInt8)
    (original : Transaction)
    (replacement : Txid)
    (updates : List (Text × Receipt × Option PriorDelivery)) : AccountCall Unit := do
  each updates (fun (operationId, receipt, restored) => do
    modify (fun a => a.restoreDelivery world restored)
    updateOperation operationId (fun operation =>
      operation.reinstated env receipt restored original))
  updateBatch batchLocalId (fun batch =>
    { batch with
      state := .broadcastUnobserved
      manifestWire := some manifestWire
      signedTx := some original
      txid := some (original.txid env.sha256)
      receipt := some BatchReceipt.empty })
  moveStock replacement .pending .invalidated
  moveStock (original.txid env.sha256) .invalidated .pending

/-- Track the replaced batch transaction again when it is the one that confirmed. -/
def reconcileConfirmedSendBatchReplacement
    (batchLocalId : Text)
    (replacement : Txid) : AccountCall Bool := do
  let batch ← reads (fun a => a.sendBatch batchLocalId)
  match batch.receiptOrEmpty.replaces with
  | none => return false
  | some replaced => do
      if ← lift (replacedIsConfirmed env world replaced) then
        match batch.receiptOrEmpty.preReplacementManifest with
        | none => return false
        | some manifestWire => do
            let original ← lift (replacedTransaction env world replaced "batch")
            let a ← get
            let updates ← lift ((a.memberIds batchLocalId).mapM (fun operationId =>
              reinstatedReceipt env replacement replaced operationId a))
            reinstateBatch env world batchLocalId manifestWire original replacement updates
            return true
      else
        return false

/-- Resume one crash-interrupted shared transaction. -/
def resumeSendBatch (batchLocalId : Text) : AccountCall Unit := do
  let batch ← reads (fun a => a.sendBatch batchLocalId)
  if batch.state ≠ .signedPersisted ∧ batch.state ≠ .broadcastUnobserved then
    pure ()
  else do
    let _ ← lift (world.signedFeeLimit batchLocalId)
    let transaction ← lift (okOr batch.signedTx
      (.new "database_corrupt" "signed batch has no transaction"))
    demand (batch.txid == some (transaction.txid env.sha256))
      (.new "database_corrupt" "signed batch txid differs from its persisted bytes")
    if ← reconcileConfirmedSendBatchReplacement env world batchLocalId
        (transaction.txid env.sha256) then
      pure ()
    else do
      modify (fun a => { a with bitcoin := a.bitcoin.applyUnconfirmedTx transaction })
      lift world.relay
      updateBatch batchLocalId (fun batch =>
        { batch with
          state := .broadcastUnobserved
          receipt := some batch.receiptOrEmpty })
      updateMembers batchLocalId (fun operation =>
        { operation with state := .broadcastUnobserved })

end Reconciling

section Bumping

/-- The fee output of a signed member, still marked as released. -/
def historicalFundingForOperation
    (a : Account)
    (operationId : Text)
    (operation : Operation) : Except AccountError OutPoint := do
  let outpoint ← operation.outpoint
  require (a.reservations.get operationId == some ⟨outpoint, .signatureReleased⟩)
    (.new "conflicting_operation"
      "signed batch fee input lost its durable released-signature lock")
  let _ ← world.historicalValue outpoint
  return outpoint

/-- Verify one member of a replacement; its proof is imported into the candidate wallet. -/
def bumpMember
    (original : Transaction)
    (context : Ctx)
    (operationId : Text)
    (member : Member)
    (candidate : MemWallet × Table Text UInt64) :
    AccountCall (Operation × (MemWallet × Table Text UInt64)) := do
  let operation ← reads (fun a => a.operation operationId)
  demand (operation.state == .broadcastUnobserved || operation.state == .mempool)
    (.newText "invalid_operation_state"
      (Text.lit "batch member " ++ operationId ++ Text.lit " is " ++
        Text.lit operation.state.asStr))
  let outpoint ← reads (fun a => historicalFundingForOperation world a operationId operation)
  demand ((original.inputs.drop 1).any (fun input => input.prev == outpoint))
    (.new "protocol_layout_violation" "persisted batch omits a member fee input")
  let _ ← lift (world.verifyFunding outpoint)
  let (pendingId, candidate) ←
    match candidate.2.get operationId with
    | some pendingId => pure (pendingId, candidate)
    | none => do
        let pendingJson ← lift (okOr operation.pendingJson
          (.new "operation_not_resumable" "batch replacement has no durable pending proof"))
        let (pendingId, w) ← lift ((candidate.1.importPending env.wallet pendingJson).mapError
          (AccountError.newText "operation_not_resumable"))
        pure (pendingId, (w, candidate.2.put operationId pendingId))
  let dependencies ← lift (((candidate.1.findPending pendingId "no").map
    Pending.unconfirmedDependencies).mapError (AccountError.newText "operation_not_resumable"))
  reobserveUnconfirmedDependencies env world dependencies
  let _ ← lift ((candidate.1.rebindPendingBatchPayload env.wallet pendingId context).mapError
    (AccountError.newText "batch_payload_incompatible"))
  demand member.changeSpk.isSome (.new "database_corrupt" "batch member has no change script")
  demand member.commitNonce.isSome (.new "database_corrupt" "batch member has no commit nonce")
  lift (world.batchFeeKey outpoint)
  return (operation, candidate)

/-- Verify the members of a replacement one by one. -/
def bumpMembers
    (original : Transaction)
    (context : Ctx) :
    List (Text × Member) → MemWallet × Table Text UInt64 →
      AccountCall (List (Text × Operation) × (MemWallet × Table Text UInt64))
  | [], candidate => return ([], candidate)
  | (operationId, member) :: rest, candidate => do
      let (operation, candidate) ←
        bumpMember env world original context operationId member candidate
      let (operations, candidate) ← bumpMembers original context rest candidate
      return ((operationId, operation) :: operations, candidate)

/-- A member of a replaced batch: its stale consignment and its new receipt and nonce. -/
structure MemberReplacement where
  operationId : Text
  staleId : Option Text
  receipt : Receipt
  deliveryNonce : Text

def memberReplacement
    (replaced : Txid)
    (index : ℕ)
    (operationId : Text)
    (operation : Operation)
    (a : Account) : Except AccountError MemberReplacement := do
  let receipt := operation.receiptOrEmpty
  let prior ← replacementDeliverySnapshot env operation receipt a
  return ⟨operationId, receipt.consignmentId, receipt.supersede prior replaced,
    world.randomId index⟩

/-- Persist a replaced batch: members, batch and stocks, in one transaction. -/
def persistBatchReplacement
    (batchLocalId : Text)
    (replaced : Txid)
    (manifestWire replacementWire : List UInt8)
    (replacement : Transaction)
    (count : UInt8)
    (stock : Stock)
    (updates : List MemberReplacement) : AccountCall Unit :=
  atomic (do
    each updates (fun update => do
      match update.staleId with
      | none => pure ()
      | some staleId => deleteConsignment staleId
      updateOperation update.operationId (fun operation =>
        operation.replaced env update.receipt replacement update.deliveryNonce))
    updateBatch batchLocalId (fun batch =>
      { batch with
        state := .signedPersisted
        manifestWire := some replacementWire
        signedTx := some replacement
        txid := some (replacement.txid env.sha256)
        receipt := some ⟨some replaced, some manifestWire⟩ })
    moveStock replaced .pending .invalidated
    demand (stock.valueSats.toNat < 2 ^ 63)
      (.new "database_error" "stock value exceeds SQLite i64")
    modify (fun a => { a with
      stocks := a.stocks.insert (stockVout (replacement.txid env.sha256))
        (pendingStock world count stock.valueSats) }))

/-- Build, sign, persist and broadcast the next replacement of a batch. -/
def feeBumpSendBatch (batchLocalId : Text) (targetSatPerVb : UInt64) : AccountCall Unit := do
  reads (requireWriteEnabled env)
  demand (targetSatPerVb.toNat < 2 ^ 32)
    (.new "invalid_fee_policy" "target feerate exceeds u32")
  demand (targetSatPerVb != 0)
    (.new "invalid_fee_policy" "target_sat_per_vb must be positive")
  let batch ← reads (fun a => a.sendBatch batchLocalId)
  demand (batch.state == .broadcastUnobserved || batch.state == .mempool)
    (.newText "invalid_batch_state"
      (Text.lit "cannot fee-bump batch in " ++ Text.lit batch.state.asStr))
  let limit ← lift (world.signedFeeLimit batchLocalId)
  let proposalWire ← lift (okOr batch.proposalWire
    (.new "database_corrupt" "signed batch has no proposal"))
  let proposal ← lift (env.proposalFromWire proposalWire)
  let manifestWire ← lift (okOr batch.manifestWire
    (.new "database_corrupt" "signed batch has no manifest"))
  let original ← lift (okOr batch.signedTx
    (.new "database_corrupt" "signed batch has no transaction"))
  demand (batch.txid == some (original.txid env.sha256))
    (.new "database_corrupt" "signed batch txid differs from its exact bytes")
  let a ← get
  let members := a.sendBatchMembers batchLocalId
  let count := if members.length < 256 then UInt8.ofNat members.length else 255
  let (outpoint, stock) ← lift (okOr (a.batchStockReservedBy batchLocalId)
    (.new "conflicting_operation" "batch stock is unlocked"))
  demand (outpoint == proposal.1 && stock.participantCount == count)
    (.new "conflicting_operation" "replacement proposal and durable stock differ")
  let _ ← lift (world.verifyFunding outpoint)
  let (operations, candidate) ← bumpMembers env world original proposal.2 members
    (a.protocol, a.pendingByOperation)
  let (replacementWire, replacement, fee) ← lift world.batchReplacement
  demand (limit.all (fun limit => fee ≤ limit))
    (.newText "fee_limit_exceeded"
      (Text.ofNat fee.toNat ++ Text.lit " sats exceeds configured maximum"))
  let updates ← reads (fun a => operations.zipIdx.mapM (fun ((operationId, operation), index) =>
    memberReplacement env world (original.txid env.sha256) index operationId operation a))
  persistBatchReplacement env world batchLocalId (original.txid env.sha256) manifestWire
    replacementWire replacement count stock updates
  modify (fun a => { a with
    protocol := candidate.1
    pendingByOperation := candidate.2
    bitcoin := a.bitcoin.applyUnconfirmedTx replacement })
  lift world.relay
  updateBatch batchLocalId (fun batch => { batch with state := .broadcastUnobserved })
  updateMembers batchLocalId (fun operation =>
    { operation with state := .broadcastUnobserved })

end Bumping

section Refreshing

/-- Refresh the members one after the other; are all of them settled? -/
def refreshMembers : List Text → AccountCall Bool
  | [] => return true
  | operationId :: rest => do
      refreshOperationSpv env world operationId
      let operation ← reads (fun a => a.operation operationId)
      let others ← refreshMembers rest
      return (operation.state == .confirmed || operation.state == .consignmentDelivered) && others

/-- The last part of a refresh: the members, and the batch when all of them are settled. -/
def settleSendBatch (batchLocalId : Text) : AccountCall Unit := do
  let a ← get
  if ← refreshMembers env world (a.memberIds batchLocalId) then do
    updateBatch batchLocalId (fun batch => { batch with state := .confirmed })
    let a ← get
    match (a.batches.get batchLocalId).bind SendBatch.txid with
    | none => pure ()
    | some txid => moveStock txid .pending .confirmed
  else
    pure ()

/-- Settle a batch through the verified scan. -/
def refreshSendBatchSpv (batchLocalId : Text) : AccountCall Unit := do
  let batch ← reads (fun a => a.sendBatch batchLocalId)
  if batch.receiptOrEmpty.replaces.isSome ∧
      (batch.state = .signedPersisted ∨ batch.state = .broadcastUnobserved) then do
    let replacement ← lift (okOr batch.txid
      (.new "database_corrupt" "signed batch has no transaction id"))
    if ← reconcileConfirmedSendBatchReplacement env world batchLocalId replacement then
      settleSendBatch env world batchLocalId
    else
      pure ()
  else do
    demand (batch.state == .mempool || batch.state == .confirmed)
      (.newText "invalid_batch_state" (Text.lit "batch is " ++ Text.lit batch.state.asStr))
    settleSendBatch env world batchLocalId

end Refreshing

end OpenCsv
