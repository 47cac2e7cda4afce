import OpenCsv.Account.Steps

/-!
# Planning, proving and cancelling, step by step

Every call of this part of the account is a sequence of steps.  `h` is always the
sequence up to the state in which the call starts, so that the results compose.
-/

namespace OpenCsv

open Call

variable {π : Type}
variable {env : AccountEnv π}
variable {world : World}
variable {strict : Prop}
variable {a₀ a a' : Account}

section Readers

@[simp] theorem operation_eq_ok_iff
    {id : Text}
    {operation : Operation} :
    a.operation id = .ok operation ↔ a.operations.get id = some operation :=
  okOr_eq_ok_iff

@[simp] theorem sendBatch_eq_ok_iff
    {id : Text}
    {batch : SendBatch} :
    a.sendBatch id = .ok batch ↔ a.batches.get id = some batch :=
  okOr_eq_ok_iff

theorem Account.SameCore.refl
    (a : Account) :
    a.SameCore a :=
  ⟨rfl, rfl, rfl, rfl, rfl, rfl, rfl, rfl, rfl, rfl⟩

theorem Account.SameCore.trans
    {b c : Account}
    (h : a.SameCore b)
    (h' : b.SameCore c) :
    a.SameCore c where
  operations := h'.operations.trans h.operations
  reservations := h'.reservations.trans h.reservations
  batches := h'.batches.trans h.batches
  members := h'.members.trans h.members
  issuance := h'.issuance.trans h.issuance
  locked := h'.locked.trans h.locked
  protocol := h'.protocol.trans h.protocol
  pendingByOperation := h'.pendingByOperation.trans h.pendingByOperation
  registryFloor := h'.registryFloor.trans h.registryFloor
  registryState := h'.registryState.trans h.registryState

end Readers

section Writers

theorem steps_updateOperation
    {id : Text}
    {f : Operation → Operation}
    (h : Steps env strict a₀ a)
    (hf : ∀ operation, a.operations.get id = some operation →
      RowStep env none operation (f operation)) :
    Leaves (updateOperation id f) a (Steps env strict a₀) :=
  h.then (Step.row id f hf)

theorem steps_updateBatch
    {id : Text}
    {g : SendBatch → SendBatch}
    (h : Steps env strict a₀ a)
    (hg : ∀ batch, a.batches.get id = some batch → BatchStep batch (g batch)) :
    Leaves (updateBatch id g) a (Steps env strict a₀) :=
  h.then (Step.batchRow id g hg)

theorem steps_updateMembers
    {id : Text}
    {f : Operation → Operation}
    (h : Steps env strict a₀ a)
    (hf : ∀ operation, RowStep env none operation (f operation)) :
    Leaves (updateMembers id f) a (Steps env strict a₀) := by
  refine h.then (Step.rows _ ?_)
  intro id' operation _
  split_ifs
  · exact hf operation
  · exact RowStep.refl operation

end Writers

section Cancelling

theorem steps_cancelOperation
    {id : Text}
    (h : Steps env strict a₀ a) :
    Leaves (cancelOperation id) a (Steps env strict a₀) :=
  leaves_iff.mpr (h.then (Step.cancelOperation a id))

theorem steps_cancelSendBatch
    {id : Text}
    (h : Steps env strict a₀ a) :
    Leaves (cancelSendBatch id) a (Steps env strict a₀) :=
  leaves_iff.mpr (h.then (Step.cancelSendBatch a id))

/-- A note on an operation keeps its state and everything it is bound to. -/
theorem RowStep.ofReason
    {link : Option Txid}
    (operation : Operation)
    (reason : Option Text) :
    RowStep env link operation { operation with rejectionReason := reason } :=
  .note rfl ⟨rfl, rfl, rfl, rfl⟩ rfl

theorem steps_rejectPrebroadcastOperation
    {id reason : Text}
    (h : Steps env strict a₀ a)
    (hsafe : strict → a.members.get id = none → ∀ operation,
      a.operations.get id = some operation → operation.state.isPrebroadcast = true) :
    Leaves (rejectPrebroadcastOperation id reason) a (Steps env strict a₀) := by
  unfold rejectPrebroadcastOperation
  refine leaves_get ?_
  cases hmember : a.members.get id with
  | some member =>
      refine Leaves.bind (steps_cancelSendBatch h) (fun _ h => h) ?_
      intro _ a' h'
      refine Leaves.bind (steps_updateMembers h' ?_) (fun _ h => h) ?_
      · exact fun operation => RowStep.ofReason operation _
      · intro _ a'' h''
        exact steps_updateBatch h'' (fun _ _ => .note rfl rfl rfl)
  | none =>
      exact leaves_iff.mpr (h.then (Step.close id reason hmember (fun hs => hsafe hs hmember)))

/-- Giving an operation up always ends in the error. -/
theorem ends_failPrebroadcast
    {α : Type}
    {id : Text}
    {error : AccountError}
    (h : Steps env strict a₀ a)
    (hsafe : strict → a.members.get id = none → ∀ operation,
      a.operations.get id = some operation → operation.state.isPrebroadcast = true) :
    Ends (failPrebroadcast id error : AccountCall α) a (fun r a' =>
      Steps env strict a₀ a' ∧ ∃ e, r = .error e) := by
  unfold failPrebroadcast
  rw [ends_bind, ends_attempt]
  refine Ends.mono (steps_rejectPrebroadcastOperation h hsafe) ?_
  intro r a' h'
  cases r with
  | ok _ => exact ⟨h', _, rfl⟩
  | error _ => exact ⟨h', _, rfl⟩

theorem steps_failPrebroadcast
    {α : Type}
    {id : Text}
    {error : AccountError}
    (h : Steps env strict a₀ a)
    (hsafe : strict → a.members.get id = none → ∀ operation,
      a.operations.get id = some operation → operation.state.isPrebroadcast = true) :
    Leaves (failPrebroadcast id error : AccountCall α) a (Steps env strict a₀) :=
  Ends.mono (ends_failPrebroadcast h hsafe) (fun _ _ hr => hr.1)

theorem steps_rejectOperation
    {id reason : Text}
    (h : Steps env strict a₀ a) :
    Leaves (rejectOperation id reason) a (Steps env strict a₀) :=
  steps_updateOperation h (fun operation _ => RowStep.ofReason operation _)

/-- A failure of the inner call is noted on the operation. -/
theorem ends_orNoteReason
    {α : Type}
    {id : Text}
    {c : AccountCall α}
    {P : α → Account → Prop}
    (h : Ends c a (fun r a' => Steps env strict a₀ a' ∧ ∀ v, r = .ok v → P v a')) :
    Ends (orNoteReason id c) a (fun r a' => Steps env strict a₀ a' ∧ ∀ v, r = .ok v → P v a') := by
  unfold orNoteReason
  rw [ends_bind, ends_attempt]
  refine Ends.mono h ?_
  intro r a' hr
  cases r with
  | ok v =>
      exact hr
  | error e =>
      refine ⟨hr.1.then (Step.row id _ (fun operation _ => RowStep.ofReason operation _)), ?_⟩
      intro v hv
      cases hv

end Cancelling

section Reserving

/-- A reservation is made for one free candidate, or nothing changes. -/
theorem ends_reserveFirst
    {id : Text}
    {candidates : List ReservedFunding}
    {sawConflict : Bool} :
    Ends (reserveFirst id candidates sawConflict) a (fun r a' =>
      match r with
      | .ok funding => a' = a.reserve id funding ∧
          reservationConflicts a id funding.outpoint = false
      | .error _ => a' = a) := by
  induction candidates generalizing sawConflict with
  | nil =>
      exact rfl
  | cons funding rest ih =>
      rw [reserveFirst, ends_bind, ends_get]
      dsimp only
      rw [ends_ite]
      split_ifs with hconflict
      · exact ih
      · rw [ends_bind, ends_demand]
        split_ifs
        · exact ⟨rfl, by simpa using hconflict⟩
        · exact rfl

theorem ends_reserveFeeUtxoMatching
    {id : Text}
    {expected : Option OutPoint} :
    Ends (reserveFeeUtxoMatching env id expected) a (fun r a' =>
      match r with
      | .ok funding => a' = a.reserve id funding ∧
          reservationConflicts a id funding.outpoint = false
      | .error _ => a' = a) := by
  unfold reserveFeeUtxoMatching
  rw [ends_bind, ends_get]
  dsimp only
  rw [ends_bind, ends_demand]
  split_ifs
  · exact ends_reserveFirst
  · exact rfl

/-- Reserving for a planned operation leaves it funded. -/
theorem ends_reserve_planned
    {id : Text}
    {expected : Option OutPoint}
    {operation : Operation}
    (h : Steps env strict a₀ a)
    (hoperation : a.operations.get id = some operation)
    (hstate : operation.state = .planned) :
    Ends (reserveFeeUtxoMatching env id expected) a (fun r a' =>
      Steps env strict a₀ a' ∧
        match r with
        | .ok funding => a' = a.reserve id funding
        | .error _ => a' = a) := by
  refine Ends.mono ends_reserveFeeUtxoMatching ?_
  intro r a' hr
  cases r with
  | ok funding =>
      obtain ⟨rfl, hfree⟩ := hr
      exact ⟨h.then (Step.reserve id funding hoperation hstate hfree), rfl⟩
  | error e =>
      obtain rfl := hr
      exact ⟨h, rfl⟩

@[simp] theorem get_operations_reserve
    {id : Text}
    {funding : ReservedFunding}
    {operation : Operation}
    (h : a.operations.get id = some operation) :
    (a.reserve id funding).operations.get id = some
      { operation with
        state := .feeReserved
        funding := some ⟨funding.outpoint, funding.valueSats⟩ } := by
  simp [Account.reserve, h]

end Reserving

section Planning

theorem steps_insertPlannedOperation
    {id : Text}
    {request : Request}
    {nonce : Text}
    (h : Steps env strict a₀ a) :
    Ends (insertPlannedOperation world id request nonce) a (fun r a' =>
      Steps env strict a₀ a' ∧ ∀ v, r = .ok v → a.operations.get id = none ∧
        a' = { a with
          operations := a.operations.insert id (plannedOperation request nonce world.now) }) := by
  unfold insertPlannedOperation
  rw [ends_bind, ends_get]
  dsimp only
  rw [ends_bind, ends_demand]
  split_ifs with hfresh
  · have hnone : a.operations.get id = none := by
      simpa [Table.has_eq_false_iff] using hfresh
    exact ⟨h.then (Step.plan id hnone), fun _ _ => ⟨hnone, rfl⟩⟩
  · exact ⟨h, fun _ hv => hv.elim⟩

theorem steps_transferPlan
    {request : TransferRequest}
    (h : Steps env strict a₀ a) :
    Leaves (transferPlan env world request) a (Steps env strict a₀) := by
  unfold transferPlan
  refine leaves_reads h ?_
  intro _ _
  refine leaves_step (steps_insertPlannedOperation h) ?_
  intro _ a' h' _
  exact h'

/-- A member is added for an operation without one. -/
theorem ends_insertMember
    {batchLocalId id : Text}
    {ordinal : UInt8} :
    Ends (insertMember world batchLocalId id ordinal) a (fun r a' => ∀ v, r = .ok v →
      a.members.get id = none ∧ ∃ member, member.batchLocalId = batchLocalId ∧
        a' = { a with members := a.members.insert id member }) := by
  unfold insertMember
  rw [ends_bind, ends_get]
  dsimp only
  rw [ends_bind, ends_demand]
  split_ifs with hfresh
  · intro _ _
    refine ⟨?_, _, rfl, rfl⟩
    cases hget : a.members.get id with
    | none =>
        rfl
    | some member =>
        have hmem := Table.mem_rows_iff.mpr hget
        simp only [Bool.not_eq_true', List.any_eq_false, Bool.or_eq_true, not_or] at hfresh
        exact absurd (beq_self_eq_true id) (hfresh _ hmem).1
  · exact fun _ hv => hv.elim

/-- A planned transfer becomes a member of a collecting batch. -/
theorem ends_planMember
    {batchLocalId id nonce : Text}
    {request : Request}
    {ordinal : UInt8}
    {batch : SendBatch}
    (h : Steps env strict a₀ a)
    (hbatch : a.batches.get batchLocalId = some batch)
    (hstate : batch.state = .collecting) :
    Ends (do
        insertPlannedOperation world id request nonce
        insertMember world batchLocalId id ordinal) a (fun r a' =>
      ∀ v, r = .ok v → Steps env strict a₀ a') := by
  rw [ends_bind]
  refine Ends.mono (steps_insertPlannedOperation h) ?_
  intro r a' hr
  cases r with
  | error e =>
      exact fun _ hv => of_error_eq_ok hv
  | ok u =>
      obtain ⟨hfresh, rfl⟩ := hr.2 u rfl
      refine Ends.mono ends_insertMember ?_
      intro r' a'' hr' v hv
      obtain ⟨hmember, member, rfl, rfl⟩ := hr' v hv
      exact h.then (Step.join id hfresh hmember hbatch hstate)

theorem steps_joinBatch
    {request : TransferRequest}
    {batchLocalId : Text}
    {batch : SendBatch}
    (h : Steps env strict a₀ a)
    (hbatch : a.batches.get batchLocalId = some batch) :
    Leaves (joinBatch env world request batchLocalId batch) a (Steps env strict a₀) := by
  unfold joinBatch
  refine leaves_demand h ?_
  intro hstate
  refine leaves_demand h ?_
  intro _
  refine leaves_get (leaves_demand h ?_)
  intro _
  refine leaves_lift h ?_
  intro requests _
  refine leaves_lift h ?_
  intro _ _
  exact leaves_atomic h (ends_planMember h hbatch (beq_iff_eq.mp hstate))

theorem steps_startBatch
    {request : TransferRequest}
    (h : Steps env strict a₀ a) :
    Leaves (startBatch env world request) a (Steps env strict a₀) := by
  unfold startBatch
  refine leaves_lift h ?_
  intro _ _
  refine leaves_atomic h ?_
  rw [ends_bind, ends_get]
  dsimp only
  rw [ends_bind, ends_demand]
  split_ifs with hfresh
  · have hnone : a.batches.get (world.randomId 0) = none := by
      simpa [Table.has_eq_false_iff] using hfresh
    dsimp only
    rw [ends_bind, ends_modify]
    dsimp only
    rw [← bind_assoc, ends_bind]
    refine Ends.mono (ends_planMember (h.then (Step.openWindow _ hnone rfl rfl))
      (Table.get_insert_self_of_none hnone) rfl) ?_
    intro r a' hr
    cases r with
    | error e =>
        exact fun _ hv => of_error_eq_ok hv
    | ok u =>
        intro _ _
        exact (hr u rfl).then (Step.aside ⟨rfl, rfl, rfl, rfl, rfl, rfl, rfl, rfl, rfl, rfl⟩)
  · exact fun _ hv => hv.elim

theorem steps_planBatchedTransfer
    {request : TransferRequest}
    {requestedBatch : Option Text}
    (h : Steps env strict a₀ a) :
    Leaves (planBatchedTransfer env world request requestedBatch) a (Steps env strict a₀) := by
  unfold planBatchedTransfer
  refine leaves_reads h ?_
  intro _ _
  cases requestedBatch with
  | some batchLocalId =>
      refine leaves_reads h ?_
      intro batch hbatch
      exact steps_joinBatch h (sendBatch_eq_ok_iff.mp hbatch)
  | none =>
      refine leaves_get ?_
      cases hopen : openBatch world a with
      | none =>
          exact steps_startBatch h
      | some found =>
          obtain ⟨batchLocalId, batch⟩ := found
          refine steps_joinBatch h ?_
          unfold openBatch at hopen
          simp only [Option.bind_eq_some_iff, Option.map_eq_some_iff, Option.filter_eq_some_iff,
            Prod.mk.injEq] at hopen
          obtain ⟨id, -, batch', ⟨hbatch', -⟩, rfl, rfl⟩ := hopen
          exact hbatch'

theorem steps_freezeSendBatch
    {batchLocalId : Text}
    (h : Steps env strict a₀ a) :
    Leaves (freezeSendBatch env world batchLocalId) a (Steps env strict a₀) := by
  unfold freezeSendBatch
  refine leaves_reads h ?_
  intro _ _
  refine leaves_reads h ?_
  intro batch hbatch
  refine leaves_get (leaves_demand h ?_)
  intro _
  refine leaves_lift h ?_
  intro requests _
  refine leaves_lift h ?_
  intro _ _
  refine leaves_lift h ?_
  intro _ _
  refine leaves_ite ?_ ?_
  · intro hstate
    refine leaves_demand h ?_
    intro _
    refine (h.then (Step.batchRow batchLocalId _ ?_)).then
      (Step.aside ⟨rfl, rfl, rfl, rfl, rfl, rfl, rfl, rfl, rfl, rfl⟩)
    intro batch' hbatch'
    obtain rfl := Option.some.inj ((sendBatch_eq_ok_iff.mp hbatch).symm.trans hbatch')
    refine .advanced (Or.inl ⟨hstate, ?_⟩) rfl rfl
    dsimp only
    split_ifs
    · exact Or.inl rfl
    · exact Or.inr rfl
  · intro _
    refine ends_demand _ _ |>.mpr ?_
    split_ifs
    · exact h
    · exact h

end Planning

section Acknowledging

theorem steps_acknowledgeOperationBackup
    {id checkpointHash : Text}
    (h : Steps env strict a₀ a) :
    Leaves (acknowledgeOperationBackup env id checkpointHash) a (Steps env strict a₀) := by
  unfold acknowledgeOperationBackup
  refine Leaves.atomic ?_ h
  refine leaves_reads h ?_
  intro operation _
  refine leaves_demand h ?_
  intro _
  refine leaves_reads h ?_
  intro current _
  refine leaves_demand h ?_
  intro _
  exact steps_updateOperation h (fun _ _ => .note rfl ⟨rfl, rfl, rfl, rfl⟩ rfl)

theorem steps_acknowledgeSendBatchBackup
    {id checkpointHash : Text}
    (h : Steps env strict a₀ a) :
    Leaves (acknowledgeSendBatchBackup env id checkpointHash) a (Steps env strict a₀) := by
  unfold acknowledgeSendBatchBackup
  refine Leaves.atomic ?_ h
  refine leaves_reads h ?_
  intro batch _
  refine leaves_demand h ?_
  intro _
  refine leaves_reads h ?_
  intro current _
  refine leaves_demand h ?_
  intro _
  refine Leaves.bind (steps_updateBatch h (fun _ _ => .note rfl rfl rfl)) (fun _ h => h) ?_
  intro _ a' h'
  exact steps_updateMembers h' (fun _ => .note rfl ⟨rfl, rfl, rfl, rfl⟩ rfl)

theorem steps_setBackupState
    {verified : Bool}
    {version : UInt32}
    (h : Steps env strict a₀ a) :
    Leaves (setBackupState verified version) a (Steps env strict a₀) := by
  unfold setBackupState
  refine leaves_demand h ?_
  intro _
  exact h.then (Step.aside ⟨rfl, rfl, rfl, rfl, rfl, rfl, rfl, rfl, rfl, rfl⟩)

theorem steps_acknowledgeCheckpointBackup
    {checkpointHash : Text}
    (h : Steps env strict a₀ a) :
    Leaves (acknowledgeCheckpointBackup env checkpointHash) a (Steps env strict a₀) := by
  unfold acknowledgeCheckpointBackup
  refine leaves_reads h ?_
  intro current _
  refine leaves_demand h ?_
  intro _
  exact steps_setBackupState h

end Acknowledging

section Dependencies

theorem WalletStep.refl
    {env : WalletEnv π}
    (w : MemWallet) :
    WalletStep env w w :=
  ⟨rfl, rfl, MemWallet.Follows.refl w.coins⟩

theorem WalletStep.trans
    {env : WalletEnv π}
    {w w' w'' : MemWallet}
    (h : WalletStep env w w')
    (h' : WalletStep env w' w'') :
    WalletStep env w w'' :=
  ⟨h'.pending.trans h.pending, h'.nextPending.trans h.nextPending, h.coins.trans h'.coins⟩

theorem WalletStep.freeze
    {env : WalletEnv π}
    (w : MemWallet)
    (anchorTxid : Text) :
    WalletStep env w (w.freezeUnconfirmedAnchor anchorTxid) :=
  ⟨rfl, rfl, MemWallet.freezeUnconfirmedAnchor_follows w anchorTxid⟩

/-- Freezing touches coins and finality rows only. -/
theorem ends_freezeUnconfirmedDependency
    {dependency : Text}
    (h : Steps env strict a₀ a) :
    Ends (freezeUnconfirmedDependency dependency) a (fun _ a' =>
      Steps env strict a₀ a' ∧ a'.operations = a.operations ∧ a'.members = a.members ∧
        a'.batches = a.batches) := by
  unfold freezeUnconfirmedDependency
  rw [ends_bind, ends_lift]
  cases unconfirmedDependencyTxid dependency with
  | error e =>
      exact ⟨h, rfl, rfl, rfl⟩
  | ok txid =>
      refine ⟨?_, rfl, rfl, rfl⟩
      exact (h.then (Step.wallet (WalletStep.freeze a.protocol dependency))).then
        (Step.aside ⟨rfl, rfl, rfl, rfl, rfl, rfl, rfl, rfl, rfl, rfl⟩)

theorem ends_persistDependencyReobservation
    {observedAt : ℤ}
    {dependency : Text}
    (h : Steps env strict a₀ a) :
    Ends (persistDependencyReobservation observedAt dependency) a (fun _ a' =>
      Steps env strict a₀ a' ∧ a.SameCore a') := by
  unfold persistDependencyReobservation
  rw [ends_bind, ends_lift]
  cases unconfirmedDependencyTxid dependency with
  | error e =>
      exact ⟨h, Account.SameCore.refl a⟩
  | ok txid =>
      have hsame : a.SameCore { a with reobservations := a.reobservations.put txid observedAt } :=
        ⟨rfl, rfl, rfl, rfl, rfl, rfl, rfl, rfl, rfl, rfl⟩
      exact ⟨h.then (Step.aside hsame), hsame⟩

/-- A loop whose rounds keep the core of the account keeps it. -/
theorem ends_each_sameCore
    {β : Type}
    {xs : List β}
    {f : β → AccountCall Unit}
    (h : Steps env strict a₀ a)
    (hf : ∀ x a', Steps env strict a₀ a' → Ends (f x) a' (fun r a'' =>
      Steps env strict a₀ a'' ∧ ∀ v, r = .ok v → a'.SameCore a'')) :
    Ends (each xs f) a (fun r a' =>
      Steps env strict a₀ a' ∧ ∀ v, r = .ok v → a.SameCore a') := by
  induction xs generalizing a with
  | nil =>
      exact ⟨h, fun _ _ => Account.SameCore.refl a⟩
  | cons x xs ih =>
      rw [each, ends_bind]
      refine Ends.mono (hf x a h) ?_
      intro r a' hr
      cases r with
      | error e =>
          exact ⟨hr.1, fun _ hv => of_error_eq_ok hv⟩
      | ok u =>
          refine Ends.mono (ih hr.1) ?_
          intro r' a'' hr'
          exact ⟨hr'.1, fun v hv => (hr.2 u rfl).trans (hr'.2 v hv)⟩

theorem ends_persistDependencyReobservationsAt
    {dependencies : List Text}
    {observedAt : Option ℤ}
    (h : Steps env strict a₀ a) :
    Ends (persistDependencyReobservationsAt dependencies observedAt) a (fun r a' =>
      Steps env strict a₀ a' ∧ ∀ v, r = .ok v → a.SameCore a') := by
  unfold persistDependencyReobservationsAt
  rw [ends_ite]
  split_ifs
  · exact ⟨h, fun _ _ => Account.SameCore.refl a⟩
  · rw [ends_bind, ends_lift]
    cases okOr observedAt _ with
    | error e =>
        exact ⟨h, fun _ hv => of_error_eq_ok hv⟩
    | ok observedAt =>
        refine ends_each_sameCore h ?_
        intro x a' h'
        exact Ends.mono (ends_persistDependencyReobservation h')
          (fun _ _ hr => ⟨hr.1, fun _ _ => hr.2⟩)

/-- A parent that is still there is noted; one that is gone freezes what hangs on it. -/
theorem ends_reobserveUnconfirmedDependency
    {dependency : Text}
    (h : Steps env strict a₀ a) :
    Ends (reobserveUnconfirmedDependency env world dependency) a (fun r a' =>
      Steps env strict a₀ a' ∧ ∀ v, r = .ok v → a.SameCore a') := by
  have hsame : Steps env strict a₀ a ∧ a.SameCore a := ⟨h, Account.SameCore.refl a⟩
  have hfreeze : ∀ e : AccountError, Ends (do
      freezeUnconfirmedDependency dependency
      throw e : AccountCall Unit) a (fun r a' =>
        Steps env strict a₀ a' ∧ ∀ v, r = .ok v → a.SameCore a') := by
    intro e
    rw [ends_bind]
    refine Ends.mono (ends_freezeUnconfirmedDependency h) ?_
    intro r a' hr
    cases r with
    | error e => exact ⟨hr.1, fun _ hv => of_error_eq_ok hv⟩
    | ok u => exact ⟨hr.1, fun _ hv => of_error_eq_ok hv⟩
  unfold reobserveUnconfirmedDependency
  rw [ends_bind, ends_reads]
  cases dependencyReobservationIsFresh env world a dependency with
  | error e =>
      exact ⟨h, fun _ hv => of_error_eq_ok hv⟩
  | ok fresh =>
      dsimp only
      rw [ends_ite]
      split_ifs
      · exact ⟨h, fun _ _ => Account.SameCore.refl a⟩
      · rw [ends_bind, ends_lift]
        cases unconfirmedDependencyTxid dependency with
        | error e =>
            exact ⟨h, fun _ hv => of_error_eq_ok hv⟩
        | ok txid =>
            dsimp only
            rw [ends_bind, ends_lift]
            cases (world.getTx txid).mapError _ with
            | error e =>
                exact ⟨h, fun _ hv => of_error_eq_ok hv⟩
            | ok observed =>
                cases observed with
                | none =>
                    exact hfreeze _
                | some transaction =>
                    dsimp only
                    rw [ends_ite]
                    split_ifs
                    · exact Ends.mono (ends_persistDependencyReobservation h)
                        (fun _ _ hr => ⟨hr.1, fun _ _ => hr.2⟩)
                    · exact hfreeze _

theorem ends_reobserveUnconfirmedDependencies
    {dependencies : List Text}
    (h : Steps env strict a₀ a) :
    Ends (reobserveUnconfirmedDependencies env world dependencies) a (fun r a' =>
      Steps env strict a₀ a' ∧ ∀ v, r = .ok v → a.SameCore a') :=
  ends_each_sameCore h (fun _ _ h' => ends_reobserveUnconfirmedDependency h')

end Dependencies

end OpenCsv
