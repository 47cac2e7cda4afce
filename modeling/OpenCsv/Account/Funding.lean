import OpenCsv.Account.Env

/-!
# Fee reservations and cancellation

An operation reserves one confirmed output of the fee wallet; the reservation is a
row of the database, and the output is locked in the fee wallet.  Before anything
is signed an operation or a whole batch can be cancelled, which gives the
reservations, the pending proofs and the batch stock back.
-/

namespace OpenCsv

/-- A call on an account. -/
abbrev AccountCall (α : Type) := Call AccountError Account α

open Call

section Readers

namespace Account

variable (a : Account)

def operation (operationId : Text) : Except AccountError Operation :=
  okOr (a.operations.get operationId)
    (.newText "unknown_operation" (Text.lit "unknown operation " ++ operationId))

def sendBatch (batchLocalId : Text) : Except AccountError SendBatch :=
  okOr (a.batches.get batchLocalId)
    (.newText "unknown_batch" (Text.lit "unknown batch " ++ batchLocalId))

/-- The members of a batch with their operation ids, by ordinal. -/
def sendBatchMembers (batchLocalId : Text) : List (Text × Member) :=
  (a.members.rows.filter (fun row => row.2.batchLocalId == batchLocalId)).insertionSort
    (fun r r' => r.2.ordinal ≤ r'.2.ordinal)

/-- The operations of a batch, by ordinal. -/
def memberIds (batchLocalId : Text) : List Text :=
  (a.sendBatchMembers batchLocalId).map Prod.fst

/-- Is the operation a member of some batch? -/
def isMember (operationId : Text) : Bool :=
  a.members.has operationId

def transferRequestsForBatchMembers
    (members : List Text) : Except AccountError (List TransferRequest) :=
  members.mapM (fun operationId => do
    let operation ← a.operation operationId
    operation.request.asTransfer)

def batchStockReservedBy (batchLocalId : Text) : Option (OutPoint × Stock) :=
  a.stocks.rows.find? (fun row => row.2.reservedByBatch == some batchLocalId)

end Account

def Operation.outpoint (operation : Operation) : Except AccountError OutPoint :=
  (okOr operation.funding (.new "database_corrupt" "operation has no funding txid")).map
    Funding.outpoint

end Readers

section Writers

/-- `UPDATE` of one operation. -/
def updateOperation (operationId : Text) (f : Operation → Operation) : AccountCall Unit :=
  modify (fun a => { a with operations := a.operations.modify operationId f })

/-- `UPDATE` of one batch. -/
def updateBatch (batchLocalId : Text) (f : SendBatch → SendBatch) : AccountCall Unit :=
  modify (fun a => { a with batches := a.batches.modify batchLocalId f })

/-- `UPDATE` of the operations of a batch. -/
def updateMembers (batchLocalId : Text) (f : Operation → Operation) : AccountCall Unit :=
  modify (fun a => { a with
    operations := a.operations.modifyAll (fun id operation =>
      if (a.members.get id).any (fun member => member.batchLocalId == batchLocalId) then
        f operation
      else
        operation) })

def clearActiveProof : AccountCall Unit :=
  modify (fun a => { a with activeProof := none })

def clearActiveBatchProof : AccountCall Unit :=
  modify (fun a => { a with activeBatchProof := none })

end Writers

section Funding

/-- A confirmed output of the fee wallet. -/
structure ReservedFunding where
  outpoint : OutPoint
  valueSats : UInt64
  birthHeight : UInt64
deriving DecidableEq

def ReservedFunding.fromLocal (output : LocalOutput) : Except AccountError ReservedFunding :=
  match output.position with
  | .confirmed height => .ok ⟨output.outpoint, output.valueSats, height⟩
  | .transitive =>
      .error (.new "stale_chain_state" "fee outpoint has only a transitive confirmation height")
  | .unconfirmed =>
      .error (.new "stale_chain_state" "fee outpoint must be confirmed before reservation")

/-- The outputs that may be reserved, by falling value. -/
def feeCandidates (a : Account) (expectedOutpoint : Option OutPoint) : List ReservedFunding :=
  ((a.bitcoin.unspent.filter (fun output =>
    expectedOutpoint.all (fun expected => output.outpoint == expected) &&
      !a.bitcoin.isOutpointLocked output.outpoint &&
        minFeeReserveSats ≤ output.valueSats)).filterMap (fun output =>
          (ReservedFunding.fromLocal output).toOption)).insertionSort
            (fun f f' => f'.valueSats ≤ f.valueSats)

/-- A reservation row exists for the outpoint or for the operation. -/
def reservationConflicts (a : Account) (operationId : Text) (outpoint : OutPoint) : Bool :=
  a.reservations.rows.any (fun row => row.1 == operationId || row.2.outpoint == outpoint)

/-- Reserve an outpoint for an operation: the row, the operation and the lock. -/
def Account.reserve (a : Account) (operationId : Text) (funding : ReservedFunding) : Account :=
  { a with
    reservations := a.reservations.insert operationId ⟨funding.outpoint, .reserved⟩
    operations := a.operations.modify operationId (fun operation =>
      { operation with
        state := .feeReserved
        funding := some ⟨funding.outpoint, funding.valueSats⟩ })
    bitcoin := a.bitcoin.lockOutpoint funding.outpoint }

/-- Try the candidates in order. -/
def reserveFirst (operationId : Text) : List ReservedFunding → Bool → AccountCall ReservedFunding
  | [], sawConflict =>
      throw (.new (if sawConflict then "conflicting_operation" else "insufficient_fees")
        "every eligible fee UTXO is already reserved by another operation")
  | funding :: rest, _ => do
      let a ← get
      if reservationConflicts a operationId funding.outpoint then
        reserveFirst operationId rest true
      else do
        demand (funding.valueSats.toNat < 2 ^ 63)
          (.new "database_error" "funding value exceeds SQLite range")
        modify (fun a => a.reserve operationId funding)
        return funding

variable {π : Type}
variable (env : AccountEnv π)

def reserveFeeUtxoMatching
    (operationId : Text)
    (expectedOutpoint : Option OutPoint) : AccountCall ReservedFunding := do
  let a ← get
  let candidates := feeCandidates a expectedOutpoint
  demand (!candidates.isEmpty)
    (.newText "insufficient_fees"
      (match expectedOutpoint with
      | none => Text.lit "no confirmed, unreserved fee UTXO of at least 2500 sats"
      | some outpoint =>
          Text.lit "authorized production funding outpoint " ++
            env.issuance.outpointToString outpoint ++
              Text.lit " is unavailable or below 2500 sats"))
  reserveFirst operationId candidates false

def reserveFeeUtxo (operationId : Text) : AccountCall ReservedFunding :=
  reserveFeeUtxoMatching env operationId none

/-- The outpoint an operation has reserved, while the fee wallet still holds it. -/
def reservedFundingForOperation
    (a : Account)
    (operation : Operation) : Except AccountError ReservedFunding := do
  let outpoint ← operation.outpoint
  require (a.bitcoin.isOutpointLocked outpoint)
    (.new "conflicting_operation" "funding outpoint lost its durable reservation")
  let output ← okOr (a.bitcoin.unspent.find? (fun output => output.outpoint == outpoint))
    (.new "stale_chain_state" "reserved funding outpoint is no longer unspent")
  ReservedFunding.fromLocal output

/-- Unlock the funding of an operation and delete its row. -/
def Account.release (a : Account) (operationId : Text) (funding : Option Funding) : Account :=
  { a with
    bitcoin := funding.elim a.bitcoin (fun f => a.bitcoin.unlockOutpoint f.outpoint)
    reservations := a.reservations.delete operationId }

def releaseFeeReservation (operationId : Text) : AccountCall Unit := do
  let a ← get
  demand (!(a.reservations.get operationId).any (fun row => row.state == .signatureReleased))
    (.new "cancellation_forbidden"
      "a fee input cannot be unlocked after its signature was released")
  let operation ← reads (fun a => a.operation operationId)
  modify (fun a => a.release operationId operation.funding)

/-- Stocks in the order a batch takes them. -/
def stockLe (row row' : OutPoint × Stock) : Bool :=
  row.2.birthHeight < row'.2.birthHeight ||
    (row.2.birthHeight == row'.2.birthHeight &&
      (row.2.createdAt < row'.2.createdAt ||
        (row.2.createdAt == row'.2.createdAt &&
          if row.1.txid = row'.1.txid then row.1.vout ≤ row'.1.vout
          else bytesLe row.1.txid.toList.reverse row'.1.txid.toList.reverse)))

def reserveBatchStock
    (batchLocalId : Text)
    (participantCount : UInt8) : AccountCall (OutPoint × Stock) := do
  let a ← get
  match a.batchStockReservedBy batchLocalId with
  | some (outpoint, stock) => do
      demand (stock.participantCount == participantCount)
        (.new "conflicting_operation"
          "batch already reserves stock for another participant count")
      return (outpoint, stock)
  | none =>
      match (a.stocks.rows.filter (fun row =>
          row.2.participantCount == participantCount && row.2.state == .available)).insertionSort
            (fun r r' => stockLe r r' = true) with
      | [] =>
          throw (.newText "batch_reserve_required"
            (Text.lit "no confirmed count-" ++ Text.ofNat participantCount.toNat ++
              Text.lit " batching stock is available; wallet reserve maintenance must prepare one"))
      | (outpoint, stock) :: _ => do
          modify (fun a => { a with
            stocks := a.stocks.modify outpoint (fun stock =>
              { stock with state := .reserved, reservedByBatch := some batchLocalId }) })
          return (outpoint, stock)

end Funding

section Cancellation

/-- States after a broadcast attempt. -/
def OperationState.isReleased : OperationState → Bool
  | .signedPersisted | .broadcastUnobserved | .broadcast | .mempool | .confirmed
  | .consignmentDelivered | .protocolRejected => true
  | .planned | .feeReserved | .proofReady | .cancelled => false

/-- States after a batch signature was released. -/
def BatchState.isReleased : BatchState → Bool
  | .signedPersisted | .broadcastUnobserved | .mempool | .confirmed => true
  | .collecting | .solo | .frozen | .proofReady | .cancelled => false

/-- Take the pending proof of an operation out of memory and of the wallet. -/
def Account.dropPending (a : Account) (operationId : Text) : Account :=
  match a.pendingByOperation.get operationId with
  | none => a
  | some pendingId =>
      { a with
        pendingByOperation := a.pendingByOperation.delete operationId
        protocol := (a.protocol.cancelPending pendingId).2 }

/-- Cancel an operation before broadcast and release its fee output. -/
def cancelOperation (operationId : Text) : AccountCall Unit := do
  let operation ← reads (fun a => a.operation operationId)
  demand (!operation.state.isReleased)
    (.new "cancellation_forbidden" "an operation cannot be cancelled after a broadcast attempt")
  if operation.state = .cancelled then
    pure ()
  else do
    -- A running proof job loses its lease, so that its commit fails as stale.
    modify (fun a => { a with
      activeProof := if a.activeProof = some operationId then none else a.activeProof })
    modify (fun a => a.dropPending operationId)
    releaseFeeReservation operationId
    updateOperation operationId (fun operation => { operation with state := .cancelled })

/-- Cancel every member of a batch before any signature is released. -/
def cancelSendBatch (batchLocalId : Text) : AccountCall Unit := do
  let batch ← reads (fun a => a.sendBatch batchLocalId)
  if batch.state = .cancelled then
    pure ()
  else do
    demand (!batch.state.isReleased)
      (.new "cancellation_forbidden"
        "a send batch cannot be cancelled after a signature was released")
    modify (fun a => { a with
      activeBatchProof :=
        if a.activeBatchProof = some batchLocalId then none else a.activeBatchProof })
    let a ← get
    each (a.memberIds batchLocalId) cancelOperation
    modify (fun a => { a with
      stocks := a.stocks.modifyAll (fun _ stock =>
        if stock.reservedByBatch = some batchLocalId ∧ stock.state = .reserved then
          { stock with state := .available, reservedByBatch := none }
        else
          stock)
      activeSendBatch :=
        if a.activeSendBatch = some batchLocalId then none else a.activeSendBatch })
    updateBatch batchLocalId (fun batch => { batch with state := .cancelled })

/-- Close an operation that failed before broadcast; a batch member takes its batch along. -/
def rejectPrebroadcastOperation (operationId reason : Text) : AccountCall Unit := do
  let a ← get
  match a.members.get operationId with
  | some member => do
      cancelSendBatch member.batchLocalId
      updateMembers member.batchLocalId (fun operation =>
        { operation with rejectionReason := some reason })
      updateBatch member.batchLocalId (fun batch =>
        { batch with receipt := some BatchReceipt.empty })
  | none => do
      modify (fun a => a.dropPending operationId)
      releaseFeeReservation operationId
      updateOperation operationId (fun operation =>
        { operation with state := .cancelled, rejectionReason := some reason })

/-- Reject an operation and return the error that made it fail. -/
def failPrebroadcast {α : Type} (operationId : Text) (error : AccountError) : AccountCall α := do
  match ← attempt (rejectPrebroadcastOperation operationId error.code) with
  | .ok _ => throw error
  | .error cleanup =>
      throw (.newText "database_error"
        (error.code ++ Text.lit ": " ++ error.message ++
          Text.lit "; additionally failed to release the pre-broadcast operation: " ++
            cleanup.code ++ Text.lit ": " ++ cleanup.message))

/-- Note a reason without changing the state. -/
def rejectOperation (operationId reason : Text) : AccountCall Unit :=
  updateOperation operationId (fun operation => { operation with rejectionReason := some reason })

end Cancellation

end OpenCsv
