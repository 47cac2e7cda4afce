import OpenCsv.Account.Funding

/-!
# Proof jobs of single operations

A proof job is begun and finished under the wallet lock; the proof itself runs
outside it, on a snapshot of the protocol wallet.  The `active_proof_operation` row
is the lease of the running job.  A job that fails is rejected with its operation,
unless the failure is retryable.
-/

namespace OpenCsv

open Call

variable {π : Type}
variable (env : AccountEnv π)
variable (world : World)

section Jobs

/-- The inputs of one proof job. -/
structure AccountProofJob where
  operationId : Text
  request : TransferRequest
  funding : ReservedFunding
  protocolSnapshot : MemWallet

structure CompletedProofJob where
  operationId : Text
  request : TransferRequest
  funding : ReservedFunding
  checkedThrough : UInt64
  pendingJson : Text
  record : Bytes 64
  unconfirmedDependencies : List Text
  dependencyObservedAt : Option ℤ
  reconciledSpentCoinIds : List Text

/--
Take confirmed spends out of the snapshot until the selected inputs are unspent.
Every round but the last marks a coin, so that one more round than coins is enough.
-/
def reconcileSnapshot
    (request : TransferRequest)
    (checkedThrough : UInt64) :
    ℕ → MemWallet → List Text → Except AccountError (MemWallet × List Text)
  | 0, w, reconciled => .ok (w, reconciled)
  | rounds + 1, w, reconciled => do
      let nullifiers ← (w.selectedTransferNullifiers env.wallet request.assetId
        request.amount).mapError (fun error =>
          if reconciled.isEmpty then .newText "unavailable_assets" error
          else .newText "stale_chain_state"
            (Text.lit "confirmed OpenCSV spends were removed but no alternate input covers the payment: "
              ++ error))
      let spends ← confirmedProtocolInputSpends world nullifiers checkedThrough
        (protocolSpendPreflightRequired env)
      if spends.isEmpty then
        return (w, reconciled)
      else
        match w.markConfirmedSpentNullifiers env.wallet (spends.map Prod.fst) with
        | (_, .error error) => .error (.newText "database_error" error)
        | (w', .ok removed) => do
            require (!removed.isEmpty)
              (.new "stale_chain_state"
                "confirmed OpenCSV input could not be reconciled with the wallet snapshot")
            reconcileSnapshot request checkedThrough rounds w' (reconciled ++ removed)

/-- Look every unconfirmed parent up again. -/
def observeDependency (dependency : Text) : Except AccountError Unit := do
  let txid ← unconfirmedDependencyTxid dependency
  let observed ← (world.getTx txid).mapError (fun error =>
    .newRetryable "unconfirmed_dependency_unavailable"
      (Text.lit "could not re-observe parent " ++ dependency ++ Text.lit ": " ++ error))
  match observed with
  | some transaction =>
      require (transaction.txid env.sha256 == txid)
        (.newText "unconfirmed_dependency_changed"
          (Text.lit "zero-confirmation parent " ++ dependency ++ Text.lit " changed to " ++
            toHex (transaction.txid env.sha256).toList))
  | none =>
      .error (.newText "unconfirmed_dependency_changed"
        (Text.lit "zero-confirmation parent " ++ dependency ++ Text.lit " disappeared"))

/-- Verify, select and prove, outside the wallet lock. -/
def AccountProofJob.run (job : AccountProofJob) : Except AccountError CompletedProofJob := do
  let checkedThrough ← world.verifyFunding job.funding.outpoint
  let (w, reconciled) ← reconcileSnapshot env world job.request checkedThrough
    (job.protocolSnapshot.coins.length + 1) job.protocolSnapshot []
  let (proved, w) ← (w.proveTransferAmount env.wallet job.request.assetId job.request.toOwner
    job.request.amount world.draws).mapError (AccountError.newText "unavailable_assets")
  let _ ← proved.unconfirmedDependencies.mapM (observeDependency env world)
  let record ← (w.rebindPending env.wallet proved.pendingId
    (fundingCtx env.sha256 job.funding.outpoint)).mapError
      (AccountError.newText "protocol_layout_violation")
  let pendingJson ← (w.exportPending env.wallet proved.pendingId).mapError
    (AccountError.newText "database_error")
  return {
    operationId := job.operationId
    request := job.request
    funding := job.funding
    checkedThrough := checkedThrough
    pendingJson := pendingJson
    record := record
    unconfirmedDependencies := proved.unconfirmedDependencies
    dependencyObservedAt := if proved.unconfirmedDependencies.isEmpty then none else some world.now
    reconciledSpentCoinIds := reconciled }

end Jobs

section Dependencies

/-- Freeze what hangs on a vanished unconfirmed parent. -/
def freezeUnconfirmedDependency (dependency : Text) : AccountCall Unit := do
  let txid ← lift (unconfirmedDependencyTxid dependency)
  modify (fun a => { a with
    finality := a.finality.modifyAll (fun _ row =>
      if row.anchorTxid = txid ∧ row.finality ≠ .settled then { row with finality := .frozen }
      else row)
    protocol := a.protocol.freezeUnconfirmedAnchor dependency })

def persistDependencyReobservation (observedAt : ℤ) (dependency : Text) : AccountCall Unit := do
  let txid ← lift (unconfirmedDependencyTxid dependency)
  modify (fun a => { a with reobservations := a.reobservations.put txid observedAt })

def persistDependencyReobservationsAt
    (dependencies : List Text)
    (observedAt : Option ℤ) : AccountCall Unit :=
  if dependencies.isEmpty then
    pure ()
  else do
    let observedAt ← lift (okOr observedAt
      (.new "stale_proof_job" "proof completed without dependency-observation time"))
    each dependencies (persistDependencyReobservation observedAt)

def dependencyReobservationMaxAgeSeconds : UInt64 :=
  ((env.config.observationChecks.filter (fun check =>
    check.kind == .rawTransactionApi && check.mode != .off)).map
      ObservationCheck.maxAgeSeconds).min?.getD defaultObservationMaxAgeSeconds

def dependencyReobservationIsFresh
    (a : Account)
    (dependency : Text) : Except AccountError Bool := do
  let txid ← unconfirmedDependencyTxid dependency
  return (a.reobservations.get txid).any (fun observedAt =>
    observedAt ≤ world.now &&
      world.now - observedAt ≤ (dependencyReobservationMaxAgeSeconds env).toNat)

/-- Look one unconfirmed parent up again, and freeze what hangs on it when it is gone. -/
def reobserveUnconfirmedDependency (dependency : Text) : AccountCall Unit := do
  if ← reads (fun a => dependencyReobservationIsFresh env world a dependency) then
    pure ()
  else do
    let txid ← lift (unconfirmedDependencyTxid dependency)
    let observed ← lift ((world.getTx txid).mapError (fun error =>
      .newRetryable "unconfirmed_dependency_unavailable"
        (Text.lit "could not re-observe parent " ++ dependency ++ Text.lit ": " ++ error)))
    match observed with
    | some transaction =>
        if transaction.txid env.sha256 = txid then
          persistDependencyReobservation world.now dependency
        else do
          freezeUnconfirmedDependency dependency
          throw (.newText "unconfirmed_dependency_changed"
            (Text.lit "zero-confirmation parent " ++ dependency ++
              Text.lit " changed; dependent signing is frozen"))
    | none => do
        freezeUnconfirmedDependency dependency
        throw (.newText "unconfirmed_dependency_changed"
          (Text.lit "zero-confirmation parent " ++ dependency ++
            Text.lit " disappeared or was replaced; dependent signing is frozen"))

def reobserveUnconfirmedDependencies (dependencies : List Text) : AccountCall Unit :=
  each dependencies (reobserveUnconfirmedDependency env world)

end Dependencies

section Failing

/-- Split at ASCII whitespace. -/
def asciiWords : List UInt8 → List (List UInt8)
  | [] => []
  | b :: bs =>
      if b == 0x20 || (0x09 ≤ b && b ≤ 0x0D) then
        asciiWords bs
      else
        match bs with
        | [] => [[b]]
        | c :: _ =>
            if c == 0x20 || (0x09 ≤ c && c ≤ 0x0D) then
              [b] :: asciiWords bs
            else
              match asciiWords bs with
              | [] => [[b]]
              | word :: words => (b :: word) :: words

def isHexDigit (b : UInt8) : Bool :=
  isDecimalDigit b || (0x61 ≤ b && b ≤ 0x66) || (0x41 ≤ b && b ≤ 0x46)

/-- The parent that an error about a changed dependency names. -/
def dependencyNamed (message : Text) : Option Text :=
  ((asciiWords message.bytes)[2]?).bind (fun word =>
    let trimmed := ((word.dropWhile (fun b => !isHexDigit b)).reverse.dropWhile
      (fun b => !isHexDigit b)).reverse
    if trimmed.length = 64 then
      some (Text.fromUtf8Lossy trimmed)
    else
      none)

/-- Keep the operation and its fee lock when evidence is temporarily unavailable. -/
def recordRetryableProofError (operationId : Text) : AccountCall Unit :=
  modify (fun a => { a with
    operations := a.operations.modify operationId (fun operation =>
      if operation.state = .planned ∨ operation.state = .feeReserved then
        { operation with
          receipt := some operation.receiptOrEmpty
          rejectionReason := none }
      else
        operation)
    batches := a.batches.modifyAll (fun batchLocalId batch =>
      if (a.members.get operationId).any (fun member => member.batchLocalId == batchLocalId) ∧
          (batch.state = .collecting ∨ batch.state = .solo ∨ batch.state = .frozen) then
        { batch with receipt := some batch.receiptOrEmpty }
      else
        batch) })

/-- Report the failure of a proof job. -/
def failProofJob {α : Type} (operationId : Text) (error : AccountError) : AccountCall α := do
  clearActiveProof
  if error.retryable then do
    recordRetryableProofError operationId
    throw error
  else do
    if error.code = Text.lit "unconfirmed_dependency_changed" then
      match dependencyNamed error.message with
      | some dependency => freezeUnconfirmedDependency dependency
      | none => pure ()
    else
      pure ()
    failPrebroadcast operationId error

end Failing

section Beginning

/-- The answer to a caller that wants an operation proved. -/
inductive ProofJobStart where
  | ready (receipt : Receipt)
  | run (job : AccountProofJob)

def preparedOperationReceipt (operation : Operation) : Except AccountError Receipt :=
  okOr operation.receipt
    (.new "database_corrupt" "proof-ready operation has no prepared receipt")

/-- The funding a proof job starts from; a failure rejects the operation. -/
def beginFunding (operationId : Text) (operation : Operation) : AccountCall ReservedFunding :=
  match operation.state with
  | .planned => do
      match ← attempt (reserveFeeUtxo env operationId) with
      | .ok funding => return funding
      | .error error => do
          rejectPrebroadcastOperation operationId error.code
          throw error
  | .feeReserved => do
      match ← attempt (reads (fun a => reservedFundingForOperation a operation)) with
      | .ok funding => return funding
      | .error error => failPrebroadcast operationId error
  | state =>
      throw (.newText "invalid_operation_state"
        (Text.lit "operation is " ++ Text.lit state.asStr))

/-- Reserve the inputs of a proof job and take the lease. -/
def beginProofJob (operationId : Text) : AccountCall ProofJobStart := do
  reads (requireProductWriteEnabled env)
  let operation ← reads (fun a => a.operation operationId)
  demand (operation.request.kind == .transfer)
    (.newText "invalid_operation_kind"
      (Text.lit "operation is " ++ Text.lit operation.request.kind.asStr))
  if operation.state = .proofReady then do
    let receipt ← lift (preparedOperationReceipt operation)
    return .ready receipt
  else do
    let a ← get
    demand (a.activeProof.all (fun active => active == operationId))
      (.newText "proof_job_busy"
        (Text.lit "another proof job is active for operation " ++ a.activeProof.getD operationId))
    match operation.request.asTransfer with
    | .error error => failPrebroadcast operationId error
    | .ok request =>
        match requireReviewedTransfer env world a request with
        | .error error => failPrebroadcast operationId error
        | .ok _ => do
            let funding ← beginFunding env operationId operation
            let a ← get
            modify (fun a => { a with activeProof := some operationId })
            return .run ⟨operationId, request, funding, a.protocol⟩

end Beginning

section Finishing

def pendingNullifiers (a : Account) (pendingId : UInt64) : Except OpError (List Digest) :=
  (a.protocol.findPending pendingId "no").map Pending.nullifiers

def pendingUnconfirmedDependencies
    (a : Account)
    (pendingId : UInt64) : Except OpError (List Text) :=
  (a.protocol.findPending pendingId "no").map Pending.unconfirmedDependencies

/-- Are the inputs of an imported proof free, and is it still the proof of the proposal? -/
def validateImported
    (completed : CompletedProofJob)
    (pendingId : UInt64)
    (a : Account) : Except AccountError Unit := do
  let conflicts ← (a.protocol.pendingSpendConflicts pendingId).mapError
    (AccountError.newText "database_error")
  let available ← (a.protocol.pendingSpendsAvailable env.wallet pendingId).mapError
    (AccountError.newText "database_error")
  require (!conflicts && available)
    (.new "conflicting_operation"
      "selected OpenCSV inputs changed or were reserved while proving")
  let dependencies ← (pendingUnconfirmedDependencies a pendingId).mapError
    (AccountError.newText "database_error")
  require (dependencies == completed.unconfirmedDependencies)
    (.new "stale_proof_job" "unconfirmed dependency set changed while proving")
  let record ← (a.protocol.rebindPending env.wallet pendingId
    (fundingCtx env.sha256 completed.funding.outpoint)).mapError
      (AccountError.newText "protocol_layout_violation")
  require (record == completed.record)
    (.new "stale_proof_job" "proposal-bound record changed while proving")

/-- Forget an imported proof that was never bound to its operation. -/
def cancelImported (pendingId : UInt64) : AccountCall Unit :=
  modify (fun a => { a with protocol := (a.protocol.cancelPending pendingId).2 })

/-- Mark the coins spent that the job found spent on the chain. -/
def markReconciled (coinIds : List Text) : AccountCall (Except AccountError Unit) := do
  let a ← get
  if coinIds.isEmpty then
    return .ok ()
  else do
    let (w, result) := a.protocol.markSpent env.wallet coinIds
    modify (fun a => { a with protocol := w })
    return result.mapError (AccountError.newText "database_error")

def markProofReady (operationId : Text) (request : Request) (pendingJson : Text) :
    AccountCall Unit :=
  updateOperation operationId (fun operation =>
    { operation with
      state := .proofReady
      request := request
      pendingJson := some pendingJson
      receipt := some Receipt.empty })

/-- Bind the prepared operation to the checkpoint that contains it. -/
def preparedReceipt (operationId : Text) : AccountCall Unit := do
  let _ ← reads (fun a => a.operation operationId)
  updateOperation operationId (fun operation =>
    { operation with
      checkpointHash := none
      backupAcked := false
      receipt := some Receipt.empty })
  let hash ← reads (fun a => a.currentHash env)
  updateOperation operationId (fun operation =>
    { operation with checkpointHash := some hash, receipt := some Receipt.empty })

/-- Import the proof and check it against the live wallet. -/
def importProof (completed : CompletedProofJob) : AccountCall (UInt64 × Except AccountError Unit) := do
  let (pendingId, w) ← reads (fun a =>
    (a.protocol.importPending env.wallet completed.pendingJson).mapError
      (AccountError.newText "database_error"))
  modify (fun a => { a with protocol := w })
  let nullifiers ← reads (fun a =>
    (pendingNullifiers a pendingId).mapError (AccountError.newText "database_error"))
  match verifyProtocolInputsUnspent world nullifiers completed.checkedThrough
      (protocolSpendPreflightRequired env) with
  | .error error => return (pendingId, .error error)
  | .ok _ => do
      let a ← get
      match validateImported env completed pendingId a with
      | .error error => return (pendingId, .error error)
      | .ok _ => do
          let result ← markReconciled env completed.reconciledSpentCoinIds
          return (pendingId, result)

/-- Install a proof whose operation, reservation and proposal are unchanged. -/
def installProof (completed : CompletedProofJob) : AccountCall Unit := do
  let (pendingId, result) ← importProof env world completed
  match result with
  | .error error => do
      cancelImported pendingId
      failProofJob completed.operationId error
  | .ok _ => do
      modify (fun a => { a with
        pendingByOperation := a.pendingByOperation.put completed.operationId pendingId })
      persistDependencyReobservationsAt completed.unconfirmedDependencies
        completed.dependencyObservedAt
      markProofReady completed.operationId (.transfer completed.request) completed.pendingJson
      clearActiveProof
      match ← attempt (preparedReceipt env completed.operationId) with
      | .ok _ => pure ()
      | .error error => failPrebroadcast completed.operationId error

/-- Install the result of a proof job, if nothing it was started from has changed. -/
def finishProofJob (completed : CompletedProofJob) : AccountCall Unit := do
  let operation ← reads (fun a => a.operation completed.operationId)
  if operation.state = .proofReady then do
    clearActiveProof
    let _ ← lift (preparedOperationReceipt operation)
  else do
    let a ← get
    demand (a.activeProof == some completed.operationId)
      (.new "stale_proof_job" "proof job no longer owns the active reservation")
    let unchanged ←
      if operation.state = .feeReserved then do
        let outpoint ← lift operation.outpoint
        pure (outpoint == completed.funding.outpoint)
      else
        pure false
    if !unchanged then
      failProofJob completed.operationId
        (.new "stale_proof_job" "operation or fee reservation changed while proving")
    else do
      let request ← lift operation.request.asTransfer
      match requireReviewedTransfer env world a request with
      | .error error => failProofJob completed.operationId error
      | .ok _ =>
          if request ≠ completed.request then
            failProofJob completed.operationId
              (.new "stale_proof_job" "transfer proposal changed while proving")
          else
            installProof env world completed

/-- Prove an operation in one call. -/
def proveOperation (operationId : Text) : AccountCall Unit := do
  match ← beginProofJob env world operationId with
  | .ready _ => pure ()
  | .run job =>
      match job.run env world with
      | .ok completed => finishProofJob env world completed
      | .error error => failProofJob operationId error

end Finishing

end OpenCsv
