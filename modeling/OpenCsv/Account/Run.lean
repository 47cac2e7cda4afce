import OpenCsv.Account.Receive
import OpenCsv.Lib.System

/-!
# Runs of account calls

The calls of an open account wallet.  The results of proof jobs come from outside
the wallet lock: a run may finish or fail any job at any time, also one whose
operation has moved on.  The maintenance calls of batch reserves (prepare, bump,
observe, resume, refresh) write stocks, reserve rows and unspent fee outputs only;
they are one step that may leave any of these.
-/

namespace OpenCsv

open Call

variable {π : Type}
variable (env : AccountEnv π)

/-- The calls that change an account. -/
inductive Act where
  | transferPlan (request : TransferRequest)
  | planBatchedTransfer (request : TransferRequest) (requestedBatch : Option Text)
  | freezeSendBatch (batchLocalId : Text)
  | beginProofJob (operationId : Text)
  | finishProofJob (completed : CompletedProofJob)
  | failProofJob (operationId : Text) (error : AccountError)
  | proveOperation (operationId : Text)
  | beginSendBatchProof (batchLocalId : Text)
  | finishSendBatchProof (completed : CompletedBatchProofJob)
  | failSendBatchProof (batchLocalId : Text) (error : AccountError)
  | acknowledgeOperationBackup (operationId checkpointHash : Text)
  | acknowledgeSendBatchBackup (batchLocalId checkpointHash : Text)
  | setBackupState (verified : Bool) (version : UInt32)
  | acknowledgeCheckpointBackup (checkpointHash : Text)
  | cancelOperation (operationId : Text)
  | cancelSendBatch (batchLocalId : Text)
  | mintPrepare (request : IssuanceRequest)
  | instrumentCreate (terms : InstrumentTerms)
  | signAndBroadcast (operationId : Text) (policy : FeePolicy)
  | signAndBroadcastSendBatch (batchLocalId : Text)
  | observeOperationUnconfirmed (operationId : Text) (rawTransaction : Transaction)
  | observeSendBatchUnconfirmed (batchLocalId : Text) (rawTransaction : Transaction)
  | markConsignmentDelivered (operationId deliveryNonce : Text)
  | operationStatus (operationId : Text)
  | refreshOperationSpv (operationId : Text)
  | refreshSendBatchSpv (batchLocalId : Text)
  | feeBump (operationId : Text) (targetSatPerVb : UInt64)
  | feeBumpSendBatch (batchLocalId : Text) (targetSatPerVb : UInt64)
  | resumeOperation (operationId : Text)
  | resumeSendBatch (batchLocalId : Text)
  | verifyConsignment (blob : List UInt8) (chain : SnapshotChain)
  | verifyConsignmentUnconfirmed (blob : List UInt8)
  | verifyConsignmentUnconfirmedObserved (blob : List UInt8) (rawTransaction : Transaction)
  | sync
  | maintainReserves (stocks : Table OutPoint Stock) (reserves : Table Text ReserveOperation)
      (unspent : List LocalOutput)

/-- Forget the answer of a call. -/
def Call.ignore {ε σ α : Type} (c : Call ε σ α) : Call ε σ Unit := do
  let _ ← c

/-- Perform one act. -/
def perform (world : World) : Act → AccountCall Unit
  | .transferPlan request => (transferPlan env world request).ignore
  | .planBatchedTransfer request requestedBatch =>
      planBatchedTransfer env world request requestedBatch
  | .freezeSendBatch batchLocalId => freezeSendBatch env world batchLocalId
  | .beginProofJob operationId => (beginProofJob env world operationId).ignore
  | .finishProofJob completed => finishProofJob env world completed
  | .failProofJob operationId error => failProofJob operationId error
  | .proveOperation operationId => proveOperation env world operationId
  | .beginSendBatchProof batchLocalId => (beginSendBatchProof env world batchLocalId).ignore
  | .finishSendBatchProof completed => finishSendBatchProof env world completed
  | .failSendBatchProof batchLocalId error => failSendBatchProof batchLocalId error
  | .acknowledgeOperationBackup operationId checkpointHash =>
      acknowledgeOperationBackup env operationId checkpointHash
  | .acknowledgeSendBatchBackup batchLocalId checkpointHash =>
      acknowledgeSendBatchBackup env batchLocalId checkpointHash
  | .setBackupState verified version => setBackupState verified version
  | .acknowledgeCheckpointBackup checkpointHash => acknowledgeCheckpointBackup env checkpointHash
  | .cancelOperation operationId => cancelOperation operationId
  | .cancelSendBatch batchLocalId => cancelSendBatch batchLocalId
  | .mintPrepare request => mintPrepare env world request
  | .instrumentCreate terms => instrumentCreate env terms
  | .signAndBroadcast operationId policy => signAndBroadcast env world operationId policy
  | .signAndBroadcastSendBatch batchLocalId => signAndBroadcastSendBatch env world batchLocalId
  | .observeOperationUnconfirmed operationId rawTransaction =>
      observeOperationUnconfirmed env world operationId rawTransaction
  | .observeSendBatchUnconfirmed batchLocalId rawTransaction =>
      observeSendBatchUnconfirmed env world batchLocalId rawTransaction
  | .markConsignmentDelivered operationId deliveryNonce =>
      markConsignmentDelivered operationId deliveryNonce
  | .operationStatus operationId => operationStatus env world operationId
  | .refreshOperationSpv operationId => refreshOperationSpv env world operationId
  | .refreshSendBatchSpv batchLocalId => refreshSendBatchSpv env world batchLocalId
  | .feeBump operationId targetSatPerVb => feeBump env world operationId targetSatPerVb
  | .feeBumpSendBatch batchLocalId targetSatPerVb =>
      feeBumpSendBatch env world batchLocalId targetSatPerVb
  | .resumeOperation operationId => resumeOperation env world operationId
  | .resumeSendBatch batchLocalId => resumeSendBatch env world batchLocalId
  | .verifyConsignment blob chain => verifyConsignment env world blob chain
  | .verifyConsignmentUnconfirmed blob => verifyConsignmentUnconfirmed env world blob
  | .verifyConsignmentUnconfirmedObserved blob rawTransaction =>
      verifyConsignmentUnconfirmedObserved env world blob rawTransaction
  | .sync => sync world
  | .maintainReserves stocks reserves unspent =>
      modify (fun a => { a with
        stocks := stocks
        reserves := reserves
        bitcoin := { a.bitcoin with unspent := unspent } })

/-- A newly created account: a protocol wallet and nothing journaled. -/
structure Account.Fresh (a : Account) : Prop where
  operations : a.operations = Table.empty
  reservations : a.reservations = Table.empty
  batches : a.batches = Table.empty
  members : a.members = Table.empty
  issuance : a.issuance = Table.empty
  pendingByOperation : a.pendingByOperation = Table.empty
  coins : a.protocol.coins = []
  pending : a.protocol.pending = ∅

/-- The account as a system: it is created, and takes one call per step. -/
def accountSystem : System Account (World × Act) where
  init := Account.Fresh
  step := fun a label a' => a' = (perform env label.1 label.2).final a

end OpenCsv
