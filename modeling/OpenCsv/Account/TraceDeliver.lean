import OpenCsv.Account.TraceSign

/-!
# Observation, settlement and receiving, step by step

Finalizing takes the proof of a signed operation, or of a member of a signed batch, and
leaves its consignment in the receipt.  Everything else moves signed rows on, or
touches coins and tables aside.
-/

namespace OpenCsv

open Call

variable {π : Type}
variable {env : AccountEnv π}
variable {world : World}
variable {strict : Prop}
variable {a₀ a a' : Account}

section Finalizing

/-- The transaction belongs to the operation: by its own row or by its batch. -/
def Account.Owns (a : Account) (id : Text) (txid : Txid) : Prop :=
  ∀ operation, a.operations.get id = some operation →
    operation.Tracked ∧ operation.txid = some txid ∨ a.batchTxid id = some txid

theorem ends_finalizeObservedOperation
    {id : Text}
    {txid : Txid}
    (h : Steps env strict a₀ a)
    (howns : a.Owns id txid) :
    Ends (finalizeObservedOperation env world id txid) a (fun r a' =>
      Steps env strict a₀ a' ∧ a'.members = a.members ∧ a'.batches = a.batches ∧
        ∀ v, r = .ok v → ∀ operation, a'.operations.get id = some operation →
          operation.Tracked) := by
  have herror : ∀ e : AccountError, Steps env strict a₀ a ∧ a.members = a.members ∧
      a.batches = a.batches ∧ ∀ v : Unit, Except.error e = .ok v → ∀ operation,
        a.operations.get id = some operation → operation.Tracked :=
    fun _ => ⟨h, rfl, rfl, fun _ hv => of_error_eq_ok hv⟩
  unfold finalizeObservedOperation
  refine ends_reads_bind herror ?_
  intro pendingId hbound
  rw [okOr_eq_ok_iff] at hbound
  refine ends_reads_bind herror ?_
  rintro ⟨⟨consignment, spends⟩, w⟩ hfinalize
  rw [mapError_eq_ok_iff] at hfinalize
  refine ends_modify_bind ?_
  cases hoperation : a.operations.get id with
  | none =>
      refine ends_reads_bind ?_ ?_
      · exact fun _ => ⟨h.then (Step.finalizeLost id hbound hfinalize hoperation), rfl, rfl,
          fun _ hv => of_error_eq_ok hv⟩
      · intro operation hok
        rw [operation_eq_ok_iff] at hok
        exact nomatch hoperation.symm.trans hok
  | some operation =>
      have hfinal := h.then (Step.finalize world id txid .mempool hbound hfinalize hoperation
        (howns operation hoperation) (Or.inl rfl))
      have hread : Account.operation { a with
          protocol := w
          pendingByOperation := a.pendingByOperation.delete id } id = .ok operation :=
        operation_eq_ok_iff.mpr hoperation
      refine ends_bind.mpr ((ends_reads _).mpr ?_)
      rw [hread]
      refine ⟨hfinal, rfl, rfl, ?_⟩
      intro _ _ operation' hoperation'
      unfold Account.storeDelivery at hoperation'
      rw [Table.get_modify_self, Option.map_eq_some_iff] at hoperation'
      obtain ⟨_, -, rfl⟩ := hoperation'
      exact Or.inl rfl

theorem isReleased_of_isObservable
    {state : OperationState}
    (h : state.isObservable = true) :
    state.isReleased = true := by
  cases state <;> first | rfl | cases h

theorem BatchState.isReleased_of_isObservable
    {state : BatchState}
    (h : state.isObservable = true) :
    state.isReleased = true := by
  cases state <;> first | rfl | cases h

theorem matchTransaction_spec
    {signedTx : Option Transaction}
    {txid : Option Txid}
    {raw : Transaction}
    {u : Unit}
    (h : matchTransaction env signedTx txid raw = .ok u) :
    signedTx = some raw ∧ txid = some (raw.txid env.sha256) := by
  simp only [matchTransaction, except_bind_eq_ok_iff, okOr_eq_ok_iff, require_eq_ok_iff,
    beq_iff_eq] at h
  obtain ⟨signed, hsigned, -, rfl, htxid⟩ := h
  exact ⟨hsigned, htxid⟩

theorem steps_observeOperationUnconfirmed
    {id : Text}
    {raw : Transaction}
    (h : Steps env strict a₀ a) :
    Leaves (observeOperationUnconfirmed env world id raw) a (Steps env strict a₀) := by
  unfold observeOperationUnconfirmed
  refine leaves_reads h ?_
  intro operation hoperation
  rw [operation_eq_ok_iff] at hoperation
  refine leaves_demand h ?_
  intro hstate
  refine leaves_lift h ?_
  intro _ hmatch
  refine leaves_lift h ?_
  intro _ _
  refine leaves_ite (fun _ => h) ?_
  intro _
  refine Ends.mono (ends_finalizeObservedOperation h ?_) (fun _ _ hr => hr.1)
  intro operation' hoperation'
  obtain rfl := Option.some.inj (hoperation.symm.trans hoperation')
  exact Or.inl ⟨Or.inl (isReleased_of_isObservable hstate), (matchTransaction_spec hmatch).2⟩

theorem observableBatch_spec
    {batchLocalId : Text}
    {raw : Transaction}
    {batch : SendBatch}
    (h : observableBatch env world batchLocalId raw a = .ok batch) :
    a.batches.get batchLocalId = some batch ∧ batch.state.isReleased = true ∧
      batch.txid = some (raw.txid env.sha256) := by
  simp only [observableBatch, except_bind_eq_ok_iff, require_eq_ok_iff, sendBatch_eq_ok_iff, pure,
    Except.pure, Except.ok.injEq] at h
  obtain ⟨batch', hbatch, -, hstate, _, hmatch, -, -, rfl⟩ := h
  exact ⟨hbatch, BatchState.isReleased_of_isObservable hstate, (matchTransaction_spec hmatch).2⟩

theorem batchTxid_of_mem
    {batchLocalId id : Text}
    {batch : SendBatch}
    {txid : Txid}
    (hid : id ∈ a.memberIds batchLocalId)
    (hbatch : a.batches.get batchLocalId = some batch)
    (hreleased : batch.state.isReleased = true)
    (htxid : batch.txid = some txid) :
    a.batchTxid id = some txid := by
  obtain ⟨member, hmember, rfl⟩ := mem_memberIds_iff.mp hid
  simp [Account.batchTxid, hmember, hbatch, hreleased, htxid]

theorem batchTxid_congr
    (hmembers : a'.members = a.members)
    (hbatches : a'.batches = a.batches)
    (id : Text) :
    a'.batchTxid id = a.batchTxid id := by
  unfold Account.batchTxid
  rw [hmembers, hbatches]

/-- Finalizing members of a signed batch leaves the batch as it is. -/
theorem leaves_finalizeMembers
    {ids : List Text}
    {txid : Txid}
    (h : Steps env strict a₀ a)
    (htxid : ∀ id ∈ ids, a.batchTxid id = some txid) :
    Leaves (each ids (fun id => finalizeObservedOperation env world id txid)) a (fun a' =>
      Steps env strict a₀ a' ∧ a'.members = a.members ∧ a'.batches = a.batches) := by
  refine leaves_each ⟨h, rfl, rfl⟩ ?_
  rintro id hid a' ⟨h', hmembers, hbatches⟩
  refine Ends.mono (ends_finalizeObservedOperation h' ?_) ?_
  · intro _ _
    rw [batchTxid_congr hmembers hbatches]
    exact Or.inr (htxid id hid)
  · rintro r a'' ⟨h'', hmembers', hbatches', -⟩
    exact ⟨h'', hmembers'.trans hmembers, hbatches'.trans hbatches⟩

theorem steps_observeSendBatchUnconfirmed
    {batchLocalId : Text}
    {raw : Transaction}
    (h : Steps env strict a₀ a) :
    Leaves (observeSendBatchUnconfirmed env world batchLocalId raw) a (Steps env strict a₀) := by
  unfold observeSendBatchUnconfirmed
  refine leaves_reads h ?_
  intro batch hobservable
  obtain ⟨hbatch, hreleased, htxid⟩ := observableBatch_spec hobservable
  extract_lets jp
  have hjp : ∀ u a', Steps env strict a₀ a' → Leaves (jp u) a' (Steps env strict a₀) :=
    fun _ _ h' => steps_updateBatch h' (fun _ _ => .note rfl rfl rfl)
  refine leaves_ite ?_ ?_
  · intro _
    exact hjp () a h
  · intro _
    refine leaves_get (Leaves.bind (leaves_finalizeMembers h ?_) (fun _ h' => h'.1) ?_)
    · intro id hid
      exact batchTxid_of_mem hid hbatch hreleased htxid
    · rintro _ a' ⟨h', -, hbatches⟩
      refine Leaves.bind (steps_updateBatch h' ?_) (fun _ h'' => h'') (fun u a'' h'' => hjp u a'' h'')
      intro batch' hbatch'
      rw [hbatches, hbatch] at hbatch'
      obtain rfl := Option.some.inj hbatch'
      exact .moved hreleased rfl rfl rfl

theorem steps_markConsignmentDelivered
    {id nonce : Text}
    (h : Steps env strict a₀ a) :
    Leaves (markConsignmentDelivered id nonce) a (Steps env strict a₀) := by
  unfold markConsignmentDelivered
  refine leaves_reads h ?_
  intro operation hoperation
  rw [operation_eq_ok_iff] at hoperation
  refine leaves_demand h ?_
  intro _
  refine leaves_ite (fun _ => h) ?_
  intro _
  refine leaves_demand h ?_
  intro hstate
  simp only [Bool.or_eq_true, beq_iff_eq] at hstate
  refine steps_updateOperation h ?_
  intro operation' hoperation'
  obtain rfl := Option.some.inj (hoperation.symm.trans hoperation')
  refine .moved (Or.inl ?_) ?_ ⟨rfl, rfl, rfl, rfl⟩ ⟨true, rfl⟩
  · rcases hstate with hstate | hstate <;> rw [hstate] <;> rfl
  · dsimp only
    split_ifs <;> rfl

end Finalizing

section Refreshing

/-- A signed row moves on. -/
theorem Steps.moveRow
    {id : Text}
    {f : Operation → Operation}
    (h : Steps env strict a₀ a)
    (htracked : ∀ operation, a.operations.get id = some operation → operation.Tracked)
    (hf : ∀ operation, (f operation).state.isReleased = true ∧ operation.Agrees (f operation) ∧
      (f operation).receiptOrEmpty = operation.receiptOrEmpty) :
    Steps env strict a₀ { a with operations := a.operations.modify id f } := by
  refine h.then (Step.row id f ?_)
  intro operation hoperation
  obtain ⟨hstate, hagrees, hreceipt⟩ := hf operation
  exact .moved (htracked operation hoperation) hstate hagrees
    ⟨operation.receiptOrEmpty.consignmentDelivered, hreceipt⟩

theorem isReleased_settledState
    (delivered : Bool) :
    (settledState delivered).isReleased = true := by
  cases delivered <;> rfl

theorem steps_refreshOperation
    {id : Text}
    (h : Steps env strict a₀ a) :
    Leaves (refreshOperation env world id) a (Steps env strict a₀) := by
  unfold refreshOperation
  refine leaves_reads h ?_
  intro operation hoperation
  rw [operation_eq_ok_iff] at hoperation
  refine leaves_ite (fun _ => h) ?_
  intro _
  refine leaves_lift h ?_
  intro txid htxid
  rw [okOr_eq_ok_iff] at htxid
  have htracked : ∀ operation', a.operations.get id = some operation' → operation'.Tracked := by
    intro operation' hoperation'
    obtain rfl := Option.some.inj (hoperation.symm.trans hoperation')
    exact Or.inr (Or.inl (by rw [htxid]; rfl))
  refine leaves_lift h ?_
  intro observed _
  refine leaves_ite ?_ ?_
  · intro _
    exact h.moveRow htracked (fun _ => ⟨rfl, ⟨rfl, rfl, rfl, rfl⟩, rfl⟩)
  · intro _
    refine leaves_lift h ?_
    intro confirmed _
    extract_lets jp
    have hjp : ∀ u a', Steps env strict a₀ a' →
        (∀ operation, a'.operations.get id = some operation → operation.Tracked) →
        Leaves (jp u) a' (Steps env strict a₀) := by
      intro u a' h' htracked'
      refine leaves_ite ?_ (fun _ => h')
      intro _
      exact h'.moveRow htracked' (fun _ =>
        ⟨isReleased_settledState _, ⟨rfl, rfl, rfl, rfl⟩, rfl⟩)
    refine leaves_ite (fun _ => hjp () a h htracked) ?_
    intro _
    refine leaves_ite ?_ ?_
    · intro _
      refine leaves_modify (hjp () _ ?_ ?_)
      · exact h.moveRow htracked (fun _ => ⟨rfl, ⟨rfl, rfl, rfl, rfl⟩, rfl⟩)
      · intro operation' hoperation'
        rw [Table.get_modify_self, Option.map_eq_some_iff] at hoperation'
        obtain ⟨_, -, rfl⟩ := hoperation'
        exact Or.inl rfl
    · intro _
      refine leaves_bind (Ends.mono (ends_finalizeObservedOperation h ?_) ?_)
      · intro operation' hoperation'
        refine Or.inl ⟨htracked operation' hoperation', ?_⟩
        obtain rfl := Option.some.inj (hoperation.symm.trans hoperation')
        exact htxid
      · rintro r a' ⟨h', -, -, htracked'⟩
        cases r with
        | error e => exact h'
        | ok u => exact hjp u a' h' (htracked' u rfl)

theorem steps_operationStatus
    {id : Text}
    (h : Steps env strict a₀ a) :
    Leaves (operationStatus env world id) a (Steps env strict a₀) := by
  unfold operationStatus
  refine leaves_reads h ?_
  intro operation _
  exact leaves_ite (fun _ => steps_refreshOperation h) (fun _ => h)

/-- A settled transaction that left the scan takes its row back and freezes what hangs on it. -/
theorem leaves_demoteOperation
    {id : Text}
    {txid : Txid}
    {delivered : Bool}
    (h : Steps env strict a₀ a)
    (htracked : ∀ operation, a.operations.get id = some operation → operation.Tracked) :
    Leaves (demoteOperation id txid delivered) a (fun a' =>
      Steps env strict a₀ a' ∧ a'.members = a.members ∧ a'.batches = a.batches) := by
  unfold demoteOperation
  refine leaves_bind (Ends.mono (ends_freezeUnconfirmedDependency h) ?_)
  rintro r a' ⟨h', hoperations, hmembers, hbatches⟩
  cases r with
  | error e =>
      exact ⟨h', hmembers, hbatches⟩
  | ok u =>
      set f : Operation → Operation := fun operation =>
        { operation with
          state := if delivered then .mempool else .broadcastUnobserved
          rejectionReason := some (Text.lit "spv_reorg_unsettled") }
      have hrow : Steps env strict a₀ { a' with operations := a'.operations.modify id f } := by
        refine h'.moveRow ?_ ?_
        · rw [hoperations]
          exact htracked
        · intro operation
          refine ⟨?_, ⟨rfl, rfl, rfl, rfl⟩, rfl⟩
          cases delivered <;> rfl
      refine leaves_modify ⟨?_, hmembers, hbatches⟩
      exact hrow.aside ⟨rfl, rfl, rfl, rfl, rfl, rfl, rfl, rfl, rfl, rfl⟩

/-- What a refresh found to settle: the delivered consignment, or one finalized on a copy. -/
theorem spvConsignmentCandidate_spec
    {id : Text}
    {operation : Operation}
    {txid : Txid}
    {consignment spends}
    {w : MemWallet}
    (h : spvConsignmentCandidate env id operation txid a = .ok (consignment, some (w, spends))) :
    ∃ pendingId, a.pendingByOperation.get id = some pendingId ∧
      a.protocol.finalize env.wallet pendingId ⟨txid, ScanIndex.mempool⟩ =
        .ok ((consignment, spends), w) := by
  unfold spvConsignmentCandidate at h
  cases hdelivered : operation.receiptOrEmpty.consignment with
  | some _ =>
      rw [hdelivered] at h
      simp at h
  | none =>
      rw [hdelivered] at h
      simp only [except_bind_eq_ok_iff, require_eq_ok_iff, okOr_eq_ok_iff, mapError_eq_ok_iff,
        pure, Except.pure, Except.ok.injEq, Prod.mk.injEq, Option.some.injEq] at h
      obtain ⟨-, -, pendingId, hbound, ⟨⟨_, _⟩, _⟩, hfinalize, rfl, rfl, rfl⟩ := h
      exact ⟨pendingId, hbound, hfinalize⟩

theorem leaves_refreshOperationSpv
    {id : Text}
    (h : Steps env strict a₀ a) :
    Leaves (refreshOperationSpv env world id) a (fun a' =>
      Steps env strict a₀ a' ∧ a'.members = a.members ∧ a'.batches = a.batches) := by
  have hsame : Steps env strict a₀ a ∧ a.members = a.members ∧ a.batches = a.batches :=
    ⟨h, rfl, rfl⟩
  unfold refreshOperationSpv
  refine leaves_reads hsame ?_
  intro operation hoperation
  rw [operation_eq_ok_iff] at hoperation
  cases env.config.observationChecks.find? (fun check => check.kind == .confirmedSpv) with
  | none =>
      exact hsame
  | some check =>
      refine leaves_ite (fun _ => hsame) ?_
      intro _
      refine leaves_lift hsame ?_
      intro txid htxid
      rw [okOr_eq_ok_iff] at htxid
      refine leaves_reads hsame ?_
      rintro ⟨consignment, candidate⟩ hcandidate
      refine leaves_lift hsame ?_
      intro verified _
      set note : Operation → Operation := fun row => { row with receipt := some row.receiptOrEmpty }
      have hnoted : Steps env strict a₀ { a with operations := a.operations.modify id note } :=
        h.then (Step.row id note (fun _ _ => .note rfl ⟨rfl, rfl, rfl, rfl⟩ rfl))
      have hoperation' : (a.operations.modify id note).get id = some (note operation) := by
        rw [Table.get_modify_self, hoperation]
        rfl
      have htracked' : ∀ row, (a.operations.modify id note).get id = some row →
          row.Tracked ∧ row.txid = some txid := by
        intro row hrow
        obtain rfl := Option.some.inj (hoperation'.symm.trans hrow)
        exact ⟨Or.inr (Or.inl (by show operation.txid.isSome = true; rw [htxid]; rfl)), htxid⟩
      refine leaves_modify ?_
      cases verified with
      | false =>
          refine leaves_ite ?_ (fun _ => ⟨hnoted, rfl, rfl⟩)
          intro _
          exact leaves_demoteOperation hnoted (fun row hrow => (htracked' row hrow).1)
      | true =>
          cases candidate with
          | none =>
              refine ⟨hnoted.moveRow (fun row hrow => (htracked' row hrow).1) ?_, rfl, rfl⟩
              exact fun _ => ⟨isReleased_settledState _, ⟨rfl, rfl, rfl, rfl⟩, rfl⟩
          | some found =>
              obtain ⟨w, spends⟩ := found
              obtain ⟨pendingId, hbound, hfinalize⟩ := spvConsignmentCandidate_spec hcandidate
              refine ⟨?_, rfl, rfl⟩
              exact hnoted.then (Step.finalize world id txid .confirmed hbound hfinalize
                hoperation' (Or.inl (htracked' _ hoperation')) (Or.inr rfl))

end Refreshing

section Receiving

theorem nextPending_creditCoins
    (env : WalletEnv π)
    (call : MemWallet.VerifyCall)
    (consignment : Consignment)
    (coins : List Coin)
    (state : MemWallet.CreditState) :
    (MemWallet.creditCoins env call consignment coins state).1.wallet.nextPending =
      state.wallet.nextPending := by
  induction coins generalizing state with
  | nil =>
      rfl
  | cons coin coins ih =>
      rw [MemWallet.creditCoins]
      split
      · rfl
      · rw [ih]
        rfl

theorem nextPending_pinAux
    {env : WalletEnv π}
    (w : MemWallet)
    (aux : Option AssetGenesis) :
    (w.pinAux env aux).nextPending = w.nextPending := by
  cases aux with
  | none =>
      rfl
  | some genesis =>
      obtain ⟨assets, hassets⟩ := MemWallet.pinAsset_eq w genesis
      show (w.pinAsset env genesis).nextPending = _
      rw [hassets]

theorem nextPending_verifyWithProvenance
    {env : WalletEnv π}
    (w : MemWallet)
    (call : MemWallet.VerifyCall) :
    (w.verifyWithProvenance env call).1.nextPending = w.nextPending := by
  unfold MemWallet.verifyWithProvenance
  split
  · rfl
  · rename_i consignment hdecode
    split
    · rfl
    · rename_i accepted haccept
      have hcredit := nextPending_creditCoins env call consignment accepted.coins
        ⟨w.pinAux env consignment.aux, [], []⟩
      rw [nextPending_pinAux] at hcredit
      split
      · rename_i state e hstate
        rw [hstate] at hcredit
        exact hcredit
      · rename_i state u hstate
        rw [hstate] at hcredit
        exact hcredit

theorem WalletStep.verify
    {env : WalletEnv π}
    (w : MemWallet)
    (call : MemWallet.VerifyCall) :
    WalletStep env w (w.verifyWithProvenance env call).1 :=
  ⟨MemWallet.pending_verifyWithProvenance w call, nextPending_verifyWithProvenance w call,
    (MemWallet.verify_follows w call).weaken (fun _ _ => trivial)⟩

theorem steps_verifyAndStore
    {canonical : List UInt8}
    {consignmentId : Text}
    {anchorTxid : Txid}
    {chain : SnapshotChain}
    {unconfirmed : Bool}
    (h : Steps env strict a₀ a) :
    Leaves (verifyAndStore env world canonical consignmentId anchorTxid chain unconfirmed) a
      (Steps env strict a₀) := by
  unfold verifyAndStore
  refine leaves_get ?_
  have hverify : WalletStep env.wallet a.protocol
      (if unconfirmed then
        a.protocol.verifyUnconfirmed env.wallet canonical chain
          (unconfirmedDependencyKey anchorTxid)
      else
        a.protocol.verify env.wallet canonical chain
          env.config.requiredConfirmations.toUInt64).1 := by
    split_ifs
    · exact WalletStep.verify _ _
    · exact WalletStep.verify _ _
  generalize (if unconfirmed then
      a.protocol.verifyUnconfirmed env.wallet canonical chain (unconfirmedDependencyKey anchorTxid)
    else
      a.protocol.verify env.wallet canonical chain
        env.config.requiredConfirmations.toUInt64) = result at hverify
  obtain ⟨w, verdict⟩ := result
  have hwallet : Steps env strict a₀ { a with protocol := w } := h.then (Step.wallet hverify)
  refine leaves_modify ?_
  split
  · exact hwallet
  · exact hwallet
  · exact hwallet.aside ⟨rfl, rfl, rfl, rfl, rfl, rfl, rfl, rfl, rfl, rfl⟩

theorem steps_verifyConsignment
    {blob : List UInt8}
    {chain : SnapshotChain}
    (h : Steps env strict a₀ a) :
    Leaves (verifyConsignment env world blob chain) a (Steps env strict a₀) := by
  unfold verifyConsignment
  refine leaves_lift h ?_
  rintro ⟨consignment, canonical, consignmentId⟩ _
  refine leaves_reads h ?_
  intro _ _
  exact steps_verifyAndStore h

/-- A vanished parent freezes what hangs on it, and the call fails. -/
theorem steps_freezeAndThrow
    {dependency : Text}
    {error : AccountError}
    (h : Steps env strict a₀ a) :
    Leaves (do
        freezeUnconfirmedDependency dependency
        throw error : AccountCall Unit) a (Steps env strict a₀) := by
  refine leaves_bind (Ends.mono (ends_freezeUnconfirmedDependency h) ?_)
  intro r a' hr
  cases r with
  | error e => exact hr.1
  | ok u => exact hr.1

theorem steps_verifyConsignmentUnconfirmed
    {blob : List UInt8}
    (h : Steps env strict a₀ a) :
    Leaves (verifyConsignmentUnconfirmed env world blob) a (Steps env strict a₀) := by
  unfold verifyConsignmentUnconfirmed
  refine leaves_demand h ?_
  intro _
  refine leaves_lift h ?_
  rintro ⟨consignment, canonical, consignmentId⟩ _
  refine leaves_reads h ?_
  intro _ _
  refine leaves_lift h ?_
  intro observed _
  cases observed with
  | none =>
      exact steps_freezeAndThrow h
  | some transaction =>
      refine leaves_lift h ?_
      intro chain _
      exact steps_verifyAndStore h

theorem steps_verifyConsignmentUnconfirmedObserved
    {blob : List UInt8}
    {raw : Transaction}
    (h : Steps env strict a₀ a) :
    Leaves (verifyConsignmentUnconfirmedObserved env world blob raw) a (Steps env strict a₀) := by
  unfold verifyConsignmentUnconfirmedObserved
  refine leaves_lift h ?_
  rintro ⟨consignment, canonical, consignmentId⟩ _
  refine leaves_reads h ?_
  intro _ _
  refine leaves_demand h ?_
  intro _
  refine leaves_lift h ?_
  intro _ _
  cases world.observation with
  | error e =>
      exact steps_freezeAndThrow h
  | ok _ =>
      refine leaves_lift h ?_
      intro _ _
      refine leaves_lift h ?_
      intro chain _
      exact steps_verifyAndStore h

theorem steps_sync
    (h : Steps env strict a₀ a) :
    Leaves (sync world) a (Steps env strict a₀) := by
  unfold sync
  refine leaves_lift h ?_
  intro unspent _
  exact h.aside ⟨rfl, rfl, rfl, rfl, rfl, rfl, rfl, rfl, rfl, rfl⟩

end Receiving

end OpenCsv
