import OpenCsv.Account.TraceReplace

/-!
# Runs, step by step

Every call is a sequence of steps, so an invariant of the account is checked against
the steps only.  Four calls may give up an operation without looking at its state; what
they are allowed to find is `Act.MayClose`.
-/

namespace OpenCsv

open Call

variable {π : Type}
variable {env : AccountEnv π}

/-- A call gives up an operation outside a batch only before its broadcast. -/
def Act.MayClose (a : Account) : Act → Prop
  | .beginProofJob id => a.MayClose id
  | .proveOperation id => a.MayClose id
  | .finishProofJob completed =>
      a.activeProof = some completed.operationId → a.MayClose completed.operationId
  | .failProofJob id error => error.retryable = false → a.MayClose id
  | _ => True

section Runs

variable {world : World}
variable {strict : Prop}
variable {a₀ a a' : Account}

theorem leaves_ignore
    {α : Type}
    {c : AccountCall α}
    {Q : Account → Prop}
    (h : Leaves c a Q) :
    Leaves c.ignore a Q :=
  Leaves.bind h (fun _ h' => h') (fun _ _ h' => h')

/-- Every call is a sequence of steps. -/
theorem steps_perform
    {act : Act}
    (h : Steps env strict a₀ a)
    (hsafe : strict → act.MayClose a) :
    Leaves (perform env world act) a (Steps env strict a₀) := by
  cases act with
  | transferPlan request => exact leaves_ignore (steps_transferPlan h)
  | planBatchedTransfer request requestedBatch => exact steps_planBatchedTransfer h
  | freezeSendBatch id => exact steps_freezeSendBatch h
  | beginProofJob id => exact leaves_ignore (steps_beginProofJob h hsafe)
  | finishProofJob completed => exact steps_finishProofJob h hsafe
  | failProofJob id error => exact steps_failProofJob h hsafe
  | proveOperation id => exact steps_proveOperation h hsafe
  | beginSendBatchProof id => exact leaves_ignore (steps_beginSendBatchProof h)
  | finishSendBatchProof completed => exact steps_finishSendBatchProof h
  | failSendBatchProof id error => exact steps_failSendBatchProof h
  | acknowledgeOperationBackup id hash => exact steps_acknowledgeOperationBackup h
  | acknowledgeSendBatchBackup id hash => exact steps_acknowledgeSendBatchBackup h
  | setBackupState verified version => exact steps_setBackupState h
  | acknowledgeCheckpointBackup hash => exact steps_acknowledgeCheckpointBackup h
  | cancelOperation id => exact steps_cancelOperation h
  | cancelSendBatch id => exact steps_cancelSendBatch h
  | mintPrepare request => exact steps_mintPrepare h
  | instrumentCreate terms => exact steps_instrumentCreate h
  | signAndBroadcast id policy => exact steps_signAndBroadcast h
  | signAndBroadcastSendBatch id => exact steps_signAndBroadcastSendBatch h
  | observeOperationUnconfirmed id raw => exact steps_observeOperationUnconfirmed h
  | observeSendBatchUnconfirmed id raw => exact steps_observeSendBatchUnconfirmed h
  | markConsignmentDelivered id nonce => exact steps_markConsignmentDelivered h
  | operationStatus id => exact steps_operationStatus h
  | refreshOperationSpv id => exact (leaves_refreshOperationSpv h).mono (fun _ h' => h'.1)
  | refreshSendBatchSpv id => exact steps_refreshSendBatchSpv h
  | feeBump id target => exact steps_feeBump h
  | feeBumpSendBatch id target => exact steps_feeBumpSendBatch h
  | resumeOperation id => exact steps_resumeOperation h
  | resumeSendBatch id => exact steps_resumeSendBatch h
  | verifyConsignment blob chain => exact steps_verifyConsignment h
  | verifyConsignmentUnconfirmed blob => exact steps_verifyConsignmentUnconfirmed h
  | verifyConsignmentUnconfirmedObserved blob raw =>
      exact steps_verifyConsignmentUnconfirmedObserved h
  | sync => exact steps_sync h
  | maintainReserves stocks reserves unspent =>
      exact h.aside ⟨rfl, rfl, rfl, rfl, rfl, rfl, rfl, rfl, rfl, rfl⟩

/-- What every step keeps, a sequence of steps keeps. -/
theorem Steps.keeps
    {I : Account → Prop}
    (hstep : ∀ a a', Step env strict a a' → I a → I a')
    (h : Steps env strict a a')
    (ha : I a) :
    I a' := by
  induction h with
  | refl => exact ha
  | tail _ hlast ih => exact hstep _ _ hlast ih

/-- What every step keeps, a call keeps. -/
theorem keeps_perform
    {I : Account → Prop}
    {act : Act}
    (hstep : ∀ a a', Step env strict a a' → I a → I a')
    (hsafe : strict → act.MayClose a)
    (ha : I a) :
    I ((perform env world act).final a) :=
  Steps.keeps hstep (leaves_iff.mp (steps_perform (Steps.refl a) hsafe)) ha

end Runs

end OpenCsv
