import OpenCsv.Account.ProofJob

/-!
# Proof jobs of send batches

A frozen batch of two or more members is proved as one job, under the
`active_batch_proof` lease, and installed as a whole: every member becomes
proof-ready in one transaction.

The wire format of proposals and manifests lives in another crate; a completed job
carries the parts that the account compares.
-/

namespace OpenCsv

open Call

variable {π : Type}
variable (env : AccountEnv π)
variable (world : World)

section Jobs

structure BatchProofMemberJob where
  operationId : Text
  request : TransferRequest
  funding : ReservedFunding

/-- The inputs of one batch proof job. -/
structure AccountBatchProofJob where
  batchLocalId : Text
  stockOutpoint : OutPoint
  members : List BatchProofMemberJob
  protocolSnapshot : MemWallet

structure CompletedBatchProofMember where
  operationId : Text
  request : TransferRequest
  funding : ReservedFunding
  pendingJson : Text
  payload : TruncatedDigest
  unconfirmedDependencies : List Text
  dependencyObservedAt : Option ℤ

structure CompletedBatchProofJob where
  batchLocalId : Text
  stockOutpoint : OutPoint
  stockParticipantCount : UInt8
  /-- The context of the proposal, and the wire bytes. -/
  context : Ctx
  proposalWire : List UInt8
  manifestWire : List UInt8
  /-- The fee outpoints of the manifest, in its order. -/
  manifestOutpoints : List OutPoint
  members : List CompletedBatchProofMember
  reconciledSpentCoinIds : List Text

/-- The answer to a caller that wants a batch proved. -/
inductive BatchProofJobStart where
  | solo (operationId : Text)
  | ready
  | run (job : AccountBatchProofJob)

end Jobs

section Beginning

/-- Cancel the batch unless a check of its members passes. -/
def orCancelBatch (batchLocalId : Text) (check : Except AccountError Unit) : AccountCall Unit :=
  match check with
  | .ok _ => pure ()
  | .error error => do
      cancelSendBatch batchLocalId
      throw error

/-- Review every exact instrument of a batch. -/
def reviewMembers (batchLocalId : Text) (operationIds : List Text) : AccountCall Unit :=
  each operationIds (fun operationId => do
    let operation ← reads (fun a => a.operation operationId)
    let request ← lift operation.request.asTransfer
    let a ← get
    orCancelBatch batchLocalId (requireReviewedTransfer env world a request))

/-- Reserve the fee output of one member and fix its change script and nonce. -/
def beginMember
    (index : ℕ)
    (operationId : Text)
    (member : Member) : AccountCall BatchProofMemberJob := do
  let operation ← reads (fun a => a.operation operationId)
  let funding ←
    match operation.state with
    | .planned => reserveFeeUtxo env operationId
    | .feeReserved => reads (fun a => reservedFundingForOperation a operation)
    | state =>
        throw (.newText "invalid_operation_state"
          (Text.lit "batch member " ++ operationId ++ Text.lit " is " ++ Text.lit state.asStr))
  let request ← lift operation.request.asTransfer
  modify (fun a => { a with
    members := a.members.modify operationId (fun _ =>
      { member with
        changeSpk := some (member.changeSpk.getD (world.changeScript index))
        commitNonce := some (member.commitNonce.getD (world.commitNonce index)) }) })
  lift (world.batchFeeKey funding.outpoint)
  return ⟨operationId, request, funding⟩

/-- Reserve the inputs of a batch proof job and take the lease. -/
def beginSendBatchProof (batchLocalId : Text) : AccountCall BatchProofJobStart := do
  reads (requireProductWriteEnabled env)
  let batch ← reads (fun a => a.sendBatch batchLocalId)
  let a ← get
  let members := a.sendBatchMembers batchLocalId
  match batch.state with
  | .solo =>
      match members with
      | [] => throw (.new "database_corrupt" "solo batch is empty")
      | (operationId, _) :: _ => return .solo operationId
  | .proofReady => return .ready
  | .frozen => do
      demand (members.length < 256)
        (.new "batch_full" "batch participant count exceeds u8")
      demand (2 ≤ members.length)
        (.new "database_corrupt" "frozen batching-v2 path has fewer than two participants")
      demand (batch.participantCount == some (UInt8.ofNat members.length))
        (.new "database_corrupt" "frozen batch participant count changed")
      demand (a.activeBatchProof.all (fun active => active == batchLocalId))
        (.newText "proof_job_busy"
          (Text.lit "another batch proof job is active for " ++
            a.activeBatchProof.getD batchLocalId))
      let requests ← lift (a.transferRequestsForBatchMembers (members.map Prod.fst))
      orCancelBatch batchLocalId (requireProductionBatchPolicy env requests)
      reviewMembers env world batchLocalId (members.map Prod.fst)
      let (stockOutpoint, _) ← reserveBatchStock batchLocalId (UInt8.ofNat members.length)
      let jobs ← collect members.zipIdx (fun ((operationId, member), index) =>
        beginMember env world index operationId member)
      let a ← get
      modify (fun a => { a with activeBatchProof := some batchLocalId })
      return .run ⟨batchLocalId, stockOutpoint, jobs, a.protocol⟩
  | state =>
      throw (.newText "invalid_batch_state" (Text.lit "batch is " ++ Text.lit state.asStr))

end Beginning

section Finishing

/-- Import the proof of one member into the candidate wallet. -/
def importMember
    (completed : CompletedBatchProofJob)
    (member : CompletedBatchProofMember)
    (candidate : MemWallet) : Except AccountError (MemWallet × UInt64) := do
  let (pendingId, candidate) ← (candidate.importPending env.wallet member.pendingJson).mapError
    (AccountError.newText "database_error")
  let conflicts ← (candidate.pendingSpendConflicts pendingId).mapError
    (AccountError.newText "database_error")
  let available ← (candidate.pendingSpendsAvailable env.wallet pendingId).mapError
    (AccountError.newText "database_error")
  require (!conflicts && available)
    (.new "conflicting_operation" "a batch member's OpenCSV inputs changed while proving")
  let payload ← (candidate.rebindPendingBatchPayload env.wallet pendingId
    completed.context).mapError (AccountError.newText "batch_payload_incompatible")
  require (payload == member.payload)
    (.new "stale_proof_job" "proposal-bound batch payload changed while proving")
  let dependencies ← ((candidate.findPending pendingId "no").map
    Pending.unconfirmedDependencies).mapError (AccountError.newText "database_error")
  require (dependencies == member.unconfirmedDependencies)
    (.new "stale_proof_job" "a batch member's zero-confirmation dependency set changed")
  return (candidate, pendingId)

/-- Check the members one by one and import their proofs into the candidate wallet. -/
def importMembers
    (completed : CompletedBatchProofJob) :
    List CompletedBatchProofMember → MemWallet → AccountCall (MemWallet × List (Text × UInt64))
  | [], candidate => return (candidate, [])
  | member :: rest, candidate => do
      let a ← get
      orCancelBatch completed.batchLocalId (requireReviewedTransfer env world a member.request)
      let operation ← reads (fun a => a.operation member.operationId)
      let unchanged ←
        if operation.state = .feeReserved then do
          let outpoint ← lift operation.outpoint
          pure (outpoint == member.funding.outpoint)
        else
          pure false
      demand unchanged
        (.newText "stale_proof_job"
          (Text.lit "fee reservation changed for " ++ member.operationId))
      let (candidate, pendingId) ← lift (importMember env completed member candidate)
      let (candidate, pendings) ← importMembers completed rest candidate
      return (candidate, (member.operationId, pendingId) :: pendings)

/-- Install one proved member. -/
def installMember
    (completed : CompletedBatchProofJob)
    (member : CompletedBatchProofMember) : AccountCall Unit := do
  persistDependencyReobservationsAt member.unconfirmedDependencies member.dependencyObservedAt
  demand (completed.manifestOutpoints.contains member.funding.outpoint)
    (.new "database_corrupt" "manifest omitted a proved batch member")
  updateOperation member.operationId (fun operation =>
    { operation with
      state := .proofReady
      request := .transfer member.request
      pendingJson := some member.pendingJson
      receipt := some Receipt.empty
      checkpointHash := none
      backupAcked := false })

/-- Install every member and the batch in one transaction. -/
def installBatch (completed : CompletedBatchProofJob) : AccountCall Unit :=
  atomic (do
    each completed.members (installMember completed)
    updateBatch completed.batchLocalId (fun batch =>
      { batch with
        state := .proofReady
        proposalWire := some completed.proposalWire
        manifestWire := some completed.manifestWire
        receipt := some BatchReceipt.empty
        checkpointHash := none
        backupAcked := false })
    clearActiveBatchProof
    let hash ← reads (fun a => a.currentHash env)
    updateBatch completed.batchLocalId (fun batch =>
      { batch with checkpointHash := some hash })
    each completed.members (fun member =>
      updateOperation member.operationId (fun operation =>
        { operation with checkpointHash := some hash })))

/-- Install the result of a batch proof job, if nothing it was started from has changed. -/
def finishSendBatchProof (completed : CompletedBatchProofJob) : AccountCall Unit := do
  let batch ← reads (fun a => a.sendBatch completed.batchLocalId)
  if batch.state = .proofReady then
    clearActiveBatchProof
  else do
    let a ← get
    demand (batch.state == .frozen && a.activeBatchProof == some completed.batchLocalId)
      (.new "stale_proof_job" "batch no longer owns the frozen proof reservation")
    let (outpoint, stock) ← lift (okOr (a.batchStockReservedBy completed.batchLocalId)
      (.new "stale_proof_job" "batch stock reservation disappeared"))
    demand (outpoint == completed.stockOutpoint &&
        stock.participantCount == completed.stockParticipantCount)
      (.new "stale_proof_job" "batch stock reservation changed while proving")
    demand (a.memberIds completed.batchLocalId ==
        completed.members.map CompletedBatchProofMember.operationId)
      (.new "stale_proof_job" "batch membership changed while proving")
    orCancelBatch completed.batchLocalId (requireProductionBatchPolicy env
      (completed.members.map CompletedBatchProofMember.request))
    let candidate ←
      match a.protocol.markSpent env.wallet completed.reconciledSpentCoinIds with
      | (_, .error error) => throw (.newText "database_error" error)
      | (candidate, .ok _) => pure candidate
    let (candidate, pendings) ← importMembers env world completed completed.members candidate
    installBatch env completed
    modify (fun a => { a with
      protocol := candidate
      pendingByOperation := pendings.foldl (fun map entry => map.put entry.1 entry.2)
        a.pendingByOperation })

/-- Report the failure of a batch proof job. -/
def failSendBatchProof {α : Type} (batchLocalId : Text) (error : AccountError) :
    AccountCall α := do
  clearActiveBatchProof
  if error.retryable then
    pure ()
  else do
    let a ← get
    match a.memberIds batchLocalId with
    | operationId :: _ => rejectPrebroadcastOperation operationId error.code
    | [] => cancelSendBatch batchLocalId
  updateBatch batchLocalId (fun batch => { batch with receipt := some BatchReceipt.empty })
  throw error

end Finishing

end OpenCsv
