import OpenCsv.Account.TraceDeliver

/-!
# Replacements, step by step

A replacement brings the proof of a signed operation back into memory and moves its row
to the new transaction; a reconciliation moves it back to the replaced one.  The
members of a batch do both together with their batch.
-/

namespace OpenCsv

open Call

variable {π : Type}
variable {env : AccountEnv π}
variable {world : World}
variable {strict : Prop}
variable {a₀ a a' : Account}

section Single

theorem isReleased_of_isBumpable
    {state : OperationState}
    (h : state.isBumpable = true) :
    state.isReleased = true := by
  cases state <;> first | rfl | cases h

/-- The proof of a signed operation is in memory again; no row changes. -/
theorem ends_restorePendingProof
    {id : Text}
    {operation : Operation}
    (h : Steps env strict a₀ a)
    (hoperation : a.operations.get id = some operation)
    (hstate : operation.state.isBumpable = true) :
    Ends (restorePendingProof env id) a (fun _ a' =>
      Steps env strict a₀ a' ∧ a'.operations = a.operations) := by
  unfold restorePendingProof
  refine ends_get_bind (ends_ite_of (fun _ => ⟨h, rfl⟩) ?_)
  intro hbound
  have hnone : a.pendingByOperation.get id = none :=
    Table.has_eq_false_iff.mp (by simpa using hbound)
  refine ends_lift_bind (fun _ => ⟨h, rfl⟩) ?_
  intro text htext
  rw [okOr_eq_ok_iff, hoperation] at htext
  refine ends_reads_bind (fun _ => ⟨h, rfl⟩) ?_
  rintro ⟨pendingId, w⟩ himport
  rw [mapError_eq_ok_iff] at himport
  exact ⟨h.then (Step.restorePending id text hoperation hstate htext hnone himport), rfl⟩

/-- Deleting a superseded consignment touches tables aside, or fails. -/
theorem ends_deleteConsignment
    {consignmentId : Text} :
    Ends (deleteConsignment consignmentId) a (fun r a' => ∀ v, r = .ok v →
      ∃ consignments snapshots,
        a' = { a with consignments := consignments, snapshots := snapshots }) := by
  unfold deleteConsignment
  refine ends_get_bind (ends_demand_bind (fun _ _ hv => of_error_eq_ok hv) ?_)
  intro _ _ _
  exact ⟨_, _, rfl⟩

theorem ends_persistSignedReplacement
    {id : Text}
    {operation : Operation}
    {original replacement : Transaction}
    (h : Steps env strict a₀ a)
    (hoperation : a.operations.get id = some operation)
    (hstate : operation.state.isBumpable = true)
    (horiginal : operation.signedTx = some original) :
    Ends (persistSignedReplacement env world id operation.receiptOrEmpty
        (original.txid env.sha256) replacement) a (fun r a' =>
      Steps env strict a₀ a' ∧ ∀ v, r = .ok v → ∀ operation',
        a'.operations.get id = some operation' → operation'.Tracked) := by
  unfold persistSignedReplacement
  refine Ends.bind (ends_restorePendingProof h hoperation hstate) ?_ ?_
  · intro e a' hr
    exact ⟨hr.1, fun _ hv => of_error_eq_ok hv⟩
  rintro _ a₁ ⟨h₁, hoperations⟩
  have hoperation₁ : a₁.operations.get id = some operation := by
    rw [hoperations]
    exact hoperation
  have herror : ∀ e : AccountError, Steps env strict a₀ a₁ ∧ ∀ v : Unit,
      Except.error e = .ok v → ∀ operation', a₁.operations.get id = some operation' →
        operation'.Tracked :=
    fun _ => ⟨h₁, fun _ hv => of_error_eq_ok hv⟩
  refine ends_reads_bind herror ?_
  intro operation' hread
  rw [operation_eq_ok_iff] at hread
  obtain rfl := Option.some.inj (hoperation₁.symm.trans hread)
  refine ends_reads_bind herror ?_
  intro prior hprior
  refine ends_atomic.mpr ?_
  extract_lets jp
  have hjp : ∀ u consignments snapshots,
      Ends (jp u) { a₁ with consignments := consignments, snapshots := snapshots } (fun r a' =>
        (∃ v, r = .ok v) ∧ Steps env strict a₀ a' ∧ ∀ operation',
          a'.operations.get id = some operation' → operation'.Tracked) := by
    intro u consignments snapshots
    have haside : Steps env strict a₀
        { a₁ with consignments := consignments, snapshots := snapshots } :=
      h₁.aside ⟨rfl, rfl, rfl, rfl, rfl, rfl, rfl, rfl, rfl, rfl⟩
    refine ⟨⟨_, rfl⟩, haside.then (Step.row id _ ?_), ?_⟩
    · intro row hrow
      obtain rfl := Option.some.inj (hoperation₁.symm.trans hrow)
      refine RowStep.replaced hstate (Or.inl ?_) hprior
      rw [horiginal]
      rfl
    · intro row hrow
      rw [Table.get_modify_self, Option.map_eq_some_iff] at hrow
      obtain ⟨_, -, rfl⟩ := hrow
      exact Or.inl rfl
  split
  · refine Ends.mono (hjp () a₁.consignments a₁.snapshots) ?_
    rintro r a' ⟨⟨v, rfl⟩, h', htracked⟩
    exact ⟨h', fun _ _ => htracked⟩
  · refine Ends.bind ends_deleteConsignment (fun e _ _ => herror e) ?_
    intro u a₂ hr
    obtain ⟨consignments, snapshots, rfl⟩ := hr u rfl
    refine Ends.mono (hjp u consignments snapshots) ?_
    rintro r a' ⟨⟨v, rfl⟩, h', htracked⟩
    exact ⟨h', fun _ _ => htracked⟩

theorem steps_feeBump
    {id : Text}
    {target : UInt64}
    (h : Steps env strict a₀ a) :
    Leaves (feeBump env world id target) a (Steps env strict a₀) := by
  unfold feeBump
  refine leaves_reads h ?_
  intro _ _
  refine leaves_demand h ?_
  intro _
  refine leaves_reads h ?_
  intro operation hoperation
  rw [operation_eq_ok_iff] at hoperation
  extract_lets jp
  have hjp : ∀ u, Leaves (jp u) a (Steps env strict a₀) := by
    intro u
    refine leaves_demand h ?_
    intro hstate
    refine leaves_demand h ?_
    intro _
    refine leaves_lift h ?_
    intro limit _
    refine leaves_reads h ?_
    intro _ _
    refine leaves_lift h ?_
    intro original horiginal
    rw [okOr_eq_ok_iff] at horiginal
    refine leaves_lift h ?_
    intro outpoint _
    refine leaves_lift h ?_
    intro fundingValue _
    refine leaves_step (ends_orNoteReason (P := fun _ a' => a = a')
      ((ends_lift _).mpr ⟨h, fun _ _ => rfl⟩)) ?_
    rintro _ _ h₁ rfl
    refine leaves_lift h₁ ?_
    intro replacement _
    refine leaves_step (ends_persistSignedReplacement h₁ hoperation hstate horiginal) ?_
    intro _ a₂ h₂ htracked
    have happlied : Steps env strict a₀
        { a₂ with bitcoin := a₂.bitcoin.applyUnconfirmedTx replacement } :=
      h₂.aside ⟨rfl, rfl, rfl, rfl, rfl, rfl, rfl, rfl, rfl, rfl⟩
    refine leaves_modify (leaves_lift happlied ?_)
    intro _ _
    exact happlied.moveRow htracked (fun _ => ⟨rfl, ⟨rfl, rfl, rfl, rfl⟩, rfl⟩)
  refine leaves_ite ?_ ?_
  · intro _
    exact leaves_reads h (fun u _ => hjp u)
  · intro _
    exact hjp ()

theorem replacedTransaction_spec
    {replaced : Txid}
    {what : String}
    {original : Transaction}
    (h : replacedTransaction env world replaced what = .ok original) :
    original.txid env.sha256 = replaced := by
  unfold replacedTransaction at h
  split at h
  · simp only [except_bind_eq_ok_iff, require_eq_ok_iff, pure, Except.pure, Except.ok.injEq,
      beq_iff_eq] at h
    obtain ⟨found, -, -, htxid, rfl⟩ := h
    exact htxid
  · simp only [except_bind_eq_ok_iff, require_eq_ok_iff, pure, Except.pure, Except.ok.injEq,
      beq_iff_eq] at h
    obtain ⟨_, -, found, -, -, htxid, rfl⟩ := h
    exact htxid

/-- Putting a delivery back writes consignments only. -/
theorem restoreDelivery_eq
    (a : Account)
    (world : World)
    (restored : Option PriorDelivery) :
    ∃ consignments, a.restoreDelivery world restored = { a with consignments := consignments } := by
  cases restored with
  | none => exact ⟨_, rfl⟩
  | some prior => exact ⟨_, rfl⟩

theorem ends_reconcileConfirmedReplacement
    {id : Text}
    {operation : Operation}
    (h : Steps env strict a₀ a)
    (hoperation : a.operations.get id = some operation)
    (htracked : operation.Tracked) :
    Ends (reconcileConfirmedReplacement env world id operation.receiptOrEmpty) a (fun r a' =>
      Steps env strict a₀ a' ∧ (r = .ok false → a = a')) := by
  have herror : ∀ e : AccountError, Steps env strict a₀ a ∧
      ((Except.error e : Except AccountError Bool) = .ok false → a = a) :=
    fun _ => ⟨h, fun _ => rfl⟩
  unfold reconcileConfirmedReplacement
  split
  · exact ⟨h, fun _ => rfl⟩
  · rename_i replaced hreplaces
    refine ends_lift_bind herror ?_
    intro confirmed _
    refine ends_ite_of ?_ (fun _ => ⟨h, fun _ => rfl⟩)
    intro _
    refine ends_lift_bind herror ?_
    intro original horiginal
    refine ends_lift_bind herror ?_
    rintro ⟨receipt, restored⟩ hrestore
    obtain ⟨consignments, hdelivery⟩ := restoreDelivery_eq a world restored
    refine ends_modify_bind ?_
    rw [hdelivery]
    refine ends_modify_bind ⟨?_, fun hr => by cases hr⟩
    have haside : Steps env strict a₀ { a with consignments := consignments } :=
      h.aside ⟨rfl, rfl, rfl, rfl, rfl, rfl, rfl, rfl, rfl, rfl⟩
    refine haside.then (Step.row id _ ?_)
    intro row hrow
    obtain rfl := Option.some.inj (hoperation.symm.trans hrow)
    refine RowStep.reinstated htracked ?_ hrestore
    rw [hreplaces, replacedTransaction_spec horiginal]

theorem steps_resumeMint
    {id : Text}
    {operation : Operation}
    (h : Steps env strict a₀ a)
    (hoperation : a.operations.get id = some operation)
    (hstate : operation.state = .planned ∨ operation.state = .feeReserved) :
    Leaves (resumeMint env world id operation) a (Steps env strict a₀) := by
  unfold resumeMint
  refine leaves_lift h ?_
  intro request _
  extract_lets jp
  have hjp : ∀ snapshot, Leaves (jp snapshot) a (Steps env strict a₀) := by
    intro snapshot
    have hrest : ∀ funding a' row, Steps env strict a₀ a' →
        a'.operations.get id = some row → row.state = .feeReserved →
        Leaves (do
          if snapshot.isSome then do
            let operation ← reads (fun a => a.operation id)
            let _ ← reads (fun a =>
              validateCurrentProductionMintOperation env world a id operation)
          else
            pure ()
          proveMintOperation env world id request funding) a' (Steps env strict a₀) := by
      intro funding a' row h' hrow hfunded
      refine leaves_ite ?_ (fun _ => steps_proveMintOperation h' hrow hfunded)
      intro _
      refine leaves_reads h' ?_
      intro _ _
      refine leaves_reads h' ?_
      exact fun _ _ => steps_proveMintOperation h' hrow hfunded
    refine leaves_ite ?_ ?_
    · intro hplanned
      refine leaves_lift h ?_
      intro expected _
      refine leaves_bind (Ends.mono (ends_reserve_planned h hoperation hplanned) ?_)
      intro r a' hr
      cases r with
      | error e =>
          exact hr.1
      | ok funding =>
          obtain ⟨h', rfl⟩ := hr
          exact hrest funding _ _ h' (get_operations_reserve hoperation) rfl
    · intro hplanned
      refine leaves_reads h ?_
      intro funding _
      exact hrest funding a operation h hoperation (hstate.resolve_left hplanned)
  refine leaves_ite ?_ ?_
  · intro _
    refine leaves_reads h ?_
    exact fun snapshot _ => hjp (some snapshot)
  · intro _
    exact hjp none

theorem steps_resumeSigned
    {id : Text}
    {operation : Operation}
    (h : Steps env strict a₀ a)
    (hoperation : a.operations.get id = some operation)
    (hreleased : operation.state.isReleased = true) :
    Leaves (resumeSigned env world id operation) a (Steps env strict a₀) := by
  unfold resumeSigned
  refine leaves_demand h ?_
  intro _
  refine leaves_lift h ?_
  intro _ _
  refine leaves_reads h ?_
  intro _ _
  refine leaves_lift h ?_
  intro _ _
  refine leaves_bind (Ends.mono (ends_reconcileConfirmedReplacement h hoperation
    (Or.inl hreleased)) ?_)
  intro r a' hr
  cases r with
  | error e =>
      exact hr.1
  | ok reconciled =>
      cases reconciled with
      | true =>
          exact hr.1
      | false =>
          obtain rfl := hr.2 rfl
          refine leaves_lift h ?_
          intro _ _
          refine steps_updateOperation h ?_
          intro row hrow
          obtain rfl := Option.some.inj (hoperation.symm.trans hrow)
          exact .moved (Or.inl hreleased) rfl ⟨rfl, rfl, rfl, rfl⟩ ⟨_, rfl⟩

theorem steps_resumeOperation
    {id : Text}
    (h : Steps env strict a₀ a) :
    Leaves (resumeOperation env world id) a (Steps env strict a₀) := by
  unfold resumeOperation
  refine leaves_reads h ?_
  intro operation hoperation
  rw [operation_eq_ok_iff] at hoperation
  extract_lets signed jp
  have hjp : ∀ u, Leaves (jp u) a (Steps env strict a₀) := by
    intro u
    refine leaves_ite ?_ ?_
    · intro hmint
      exact steps_resumeMint h hoperation hmint.2
    · intro _
      refine leaves_ite ?_ (fun _ => steps_operationStatus h)
      intro hsigned
      refine steps_resumeSigned h hoperation ?_
      simp only [signed, Bool.or_eq_true, beq_iff_eq] at hsigned
      rcases hsigned with hstate | hstate
      · rw [hstate]
        rfl
      · rw [hstate]
        rfl
  refine leaves_ite ?_ (fun _ => hjp ())
  intro _
  exact leaves_reads h (fun u _ => hjp u)

end Single

section Reconciling

/-- One member of a batch that goes back to the replaced transaction. -/
def reinstateMember
    (env : AccountEnv π)
    (original : Transaction)
    (update : Text × Receipt × Option PriorDelivery) : Text × (Operation → Operation) :=
  (update.1, fun operation => operation.reinstated env update.2.1 update.2.2 original)

theorem ends_reinstateMembers
    (env : AccountEnv π)
    (world : World)
    (original : Transaction)
    {updates : List (Text × Receipt × Option PriorDelivery)}
    (hnodup : (updates.map Prod.fst).Nodup) :
    Ends (each updates (fun (id, receipt, restored) => do
        modify (fun a => a.restoreDelivery world restored)
        updateOperation id (fun operation =>
          operation.reinstated env receipt restored original))) a
      (fun r a' => (∃ v, r = .ok v) ∧ ∃ consignments,
        a' = { a with
          operations := a.operations.modifyMany (updates.map (reinstateMember env original))
          consignments := consignments }) := by
  induction updates generalizing a with
  | nil =>
      exact ⟨⟨_, rfl⟩, a.consignments, by simp⟩
  | cons update rest ih =>
      obtain ⟨id, receipt, restored⟩ := update
      rw [List.map_cons, List.nodup_cons] at hnodup
      obtain ⟨consignments, hdelivery⟩ := restoreDelivery_eq a world restored
      rw [each, bind_assoc]
      refine ends_modify_bind ?_
      rw [hdelivery]
      refine ends_modify_bind (Ends.mono (ih hnodup.2) ?_)
      rintro r a' ⟨hr, consignments', rfl⟩
      refine ⟨hr, consignments', ?_⟩
      have hkeys : id ∉ (rest.map (reinstateMember env original)).map Prod.fst := by
        rw [List.map_map]
        exact hnodup.1
      rw [List.map_cons]
      show _ = { a with
        operations := a.operations.modifyMany ((id, _) :: _)
        consignments := consignments' }
      rw [← Table.modifyMany_modify hkeys]

theorem reinstatedReceipt_spec
    {replacement replaced : Txid}
    {id : Text}
    {update : Text × Receipt × Option PriorDelivery}
    (h : reinstatedReceipt env replacement replaced id a = .ok update) :
    update.1 = id ∧ ∃ operation, a.operations.get id = some operation ∧
      operation.txid = some replacement ∧ operation.receiptOrEmpty.replaces = some replaced ∧
        operation.receiptOrEmpty.restorePreReplacementDelivery env = .ok update.2 := by
  simp only [reinstatedReceipt, except_bind_eq_ok_iff, require_eq_ok_iff, operation_eq_ok_iff,
    beq_iff_eq, pure, Except.pure, Except.ok.injEq] at h
  obtain ⟨operation, hoperation, -, htxid, -, hreplaces, ⟨receipt, restored⟩, hrestore, rfl⟩ := h
  exact ⟨rfl, operation, hoperation, htxid, hreplaces, hrestore⟩

theorem ends_reconcileConfirmedSendBatchReplacement
    {batchLocalId : Text}
    {batch : SendBatch}
    {replacement : Txid}
    (h : Steps env strict a₀ a)
    (hbatch : a.batches.get batchLocalId = some batch)
    (hreleased : batch.state.isReleased = true) :
    Ends (reconcileConfirmedSendBatchReplacement env world batchLocalId replacement) a
      (fun r a' => Steps env strict a₀ a' ∧ (r = .ok false → a = a') ∧
        ∃ batch', a'.batches.get batchLocalId = some batch' ∧ batch'.state.isReleased = true) := by
  have hsame : ∀ r : Except AccountError Bool, Steps env strict a₀ a ∧ (r = .ok false → a = a) ∧
      ∃ batch', a.batches.get batchLocalId = some batch' ∧ batch'.state.isReleased = true :=
    fun _ => ⟨h, fun _ => rfl, batch, hbatch, hreleased⟩
  unfold reconcileConfirmedSendBatchReplacement
  refine ends_reads_bind (fun _ => hsame _) ?_
  intro row hrow
  rw [sendBatch_eq_ok_iff] at hrow
  obtain rfl := Option.some.inj (hbatch.symm.trans hrow)
  split
  · exact hsame _
  · rename_i replaced hreplaces
    refine ends_lift_bind (fun _ => hsame _) ?_
    intro confirmed _
    refine ends_ite_of ?_ (fun _ => hsame _)
    intro _
    split
    · exact hsame _
    · rename_i manifestWire _
      refine ends_lift_bind (fun _ => hsame _) ?_
      intro original horiginal
      refine ends_get_bind (ends_lift_bind (fun _ => hsame _) ?_)
      intro updates hupdates
      have hkeys : updates.map Prod.fst = a.memberIds batchLocalId := by
        have hmap := map_eq_of_mapM_eq_ok hupdates (fun _ _ h => (reinstatedReceipt_spec h).1)
        rwa [List.map_id'] at hmap
      have hspec : ∀ update ∈ updates, ∃ operation, a.operations.get update.1 = some operation ∧
          operation.txid = some replacement ∧
            operation.receiptOrEmpty.replaces = some replaced ∧
              operation.receiptOrEmpty.restorePreReplacementDelivery env = .ok update.2 := by
        intro update hupdate
        obtain ⟨id, -, hok⟩ := exists_of_mem_of_mapM_eq_ok hupdates hupdate
        obtain ⟨rfl, hspec⟩ := reinstatedReceipt_spec hok
        exact hspec
      have hnodup : (updates.map Prod.fst).Nodup := by
        rw [hkeys]
        exact nodup_memberIds a batchLocalId
      set g : SendBatch → SendBatch := fun batch =>
        { batch with
          state := .broadcastUnobserved
          manifestWire := some manifestWire
          signedTx := some original
          txid := some (original.txid env.sha256)
          receipt := some BatchReceipt.empty }
      rw [reinstateBatch, bind_assoc]
      refine Ends.bind (ends_reinstateMembers env world original hnodup) ?_ ?_
      · rintro e a' ⟨⟨v, hv⟩, -⟩
        exact of_error_eq_ok hv
      · rintro _ a₁ ⟨-, consignments, rfl⟩
        refine And.intro ?_ (And.intro (fun hr => by cases hr) ⟨g batch, ?_, rfl⟩)
        · have hrows := h.rowsBatch (updates.map (reinstateMember env original)) g original hbatch
            (Or.inr hreleased) rfl rfl rfl ?_ ?_
          · exact hrows.aside ⟨rfl, rfl, rfl, rfl, rfl, rfl, rfl, rfl, rfl, rfl⟩
          · rw [List.map_map]
            exact hkeys
          · intro id f operation hf hoperation
            obtain ⟨update, hupdate, heq⟩ := List.mem_map.mp hf
            obtain ⟨rfl, rfl⟩ := Prod.mk.inj heq
            obtain ⟨row, hrow', htxid, hrow_replaces, hrestore⟩ := hspec update hupdate
            obtain rfl := Option.some.inj (hrow'.symm.trans hoperation)
            refine ⟨RowStep.reinstated (Or.inr (Or.inl (by rw [htxid]; rfl))) ?_ hrestore, rfl, rfl⟩
            rw [hrow_replaces, replacedTransaction_spec horiginal]
        · show (a.batches.modify batchLocalId g).get batchLocalId = _
          rw [Table.get_modify_self, hbatch]
          rfl

theorem steps_resumeSendBatch
    {batchLocalId : Text}
    (h : Steps env strict a₀ a) :
    Leaves (resumeSendBatch env world batchLocalId) a (Steps env strict a₀) := by
  unfold resumeSendBatch
  refine leaves_reads h ?_
  intro batch hbatch
  rw [sendBatch_eq_ok_iff] at hbatch
  refine leaves_ite (fun _ => h) ?_
  intro hstate
  have hreleased : batch.state.isReleased = true := by
    by_cases hsigned : batch.state = .signedPersisted
    · rw [hsigned]
      rfl
    · have hrelayed : batch.state = .broadcastUnobserved := by
        by_contra hne
        exact hstate ⟨hsigned, hne⟩
      rw [hrelayed]
      rfl
  refine leaves_lift h ?_
  intro _ _
  refine leaves_lift h ?_
  intro transaction _
  refine leaves_demand h ?_
  intro _
  refine leaves_bind (Ends.mono (ends_reconcileConfirmedSendBatchReplacement h hbatch
    hreleased) ?_)
  rintro r a' ⟨h', hfalse, -⟩
  cases r with
  | error e =>
      exact h'
  | ok reconciled =>
      cases reconciled with
      | true =>
          exact h'
      | false =>
          obtain rfl := hfalse rfl
          have happlied : Steps env strict a₀
              { a with bitcoin := a.bitcoin.applyUnconfirmedTx transaction } :=
            h.aside ⟨rfl, rfl, rfl, rfl, rfl, rfl, rfl, rfl, rfl, rfl⟩
          refine leaves_modify (leaves_lift happlied ?_)
          intro _ _
          exact steps_relayBatch happlied hbatch hreleased (fun _ => ⟨rfl, rfl, rfl⟩)

end Reconciling

section Bumping

/-- A verified member of a replacement: its row is bumpable and its proof is in the candidate. -/
theorem ends_bumpMember
    {original : Transaction}
    {context : Ctx}
    {id : Text}
    {member : Member}
    {candidate : MemWallet × Table Text UInt64}
    (h : Steps env strict a₀ a)
    (hcandidate : Steps env strict a₀ (a.withWallet candidate.1 candidate.2)) :
    Ends (bumpMember env world original context id member candidate) a (fun r a' =>
      Steps env strict a₀ a' ∧ ∀ v, r = .ok v → a.SameCore a' ∧
        a.operations.get id = some v.1 ∧ v.1.state.isBumpable = true ∧
          Steps env strict a₀ (a'.withWallet v.2.1 v.2.2)) := by
  have herror : ∀ e : AccountError, Steps env strict a₀ a ∧
      ∀ v : Operation × (MemWallet × Table Text UInt64), Except.error e = .ok v →
        a.SameCore a ∧ a.operations.get id = some v.1 ∧ v.1.state.isBumpable = true ∧
          Steps env strict a₀ (a.withWallet v.2.1 v.2.2) :=
    fun _ => ⟨h, fun _ hv => of_error_eq_ok hv⟩
  unfold bumpMember
  refine ends_reads_bind herror ?_
  intro operation hoperation
  rw [operation_eq_ok_iff] at hoperation
  refine ends_demand_bind herror ?_
  intro hstate
  have hbumpable : operation.state.isBumpable = true := by
    simp only [Bool.or_eq_true, beq_iff_eq] at hstate
    rcases hstate with hstate | hstate
    · rw [hstate]
      rfl
    · rw [hstate]
      rfl
  refine ends_reads_bind herror ?_
  intro outpoint _
  refine ends_demand_bind herror ?_
  intro _
  refine ends_lift_bind herror ?_
  intro _ _
  extract_lets jp
  have hjp : ∀ v : UInt64 × (MemWallet × Table Text UInt64),
      Steps env strict a₀ (a.withWallet v.2.1 v.2.2) →
      Ends (jp v) a (fun r a' => Steps env strict a₀ a' ∧ ∀ v, r = .ok v → a.SameCore a' ∧
        a.operations.get id = some v.1 ∧ v.1.state.isBumpable = true ∧
          Steps env strict a₀ (a'.withWallet v.2.1 v.2.2)) := by
    rintro ⟨pendingId, w, pendings⟩ hsteps
    refine ends_lift_bind herror ?_
    intro dependencies _
    refine Ends.bind (ends_reobserveUnconfirmedDependencies h) ?_ ?_
    · intro e a' hr
      exact ⟨hr.1, fun _ hv => of_error_eq_ok hv⟩
    · intro u a' hr
      have hsame : a.SameCore a' := hr.2 u rfl
      have herror' : ∀ e : AccountError, Steps env strict a₀ a' ∧
          ∀ v : Operation × (MemWallet × Table Text UInt64), Except.error e = .ok v →
            a.SameCore a' ∧ a.operations.get id = some v.1 ∧ v.1.state.isBumpable = true ∧
              Steps env strict a₀ (a'.withWallet v.2.1 v.2.2) :=
        fun _ => ⟨hr.1, fun _ hv => of_error_eq_ok hv⟩
      refine ends_lift_bind herror' ?_
      intro _ _
      refine ends_demand_bind herror' ?_
      intro _
      refine ends_demand_bind herror' ?_
      intro _
      refine ends_lift_bind herror' ?_
      intro _ _
      refine ⟨hr.1, ?_⟩
      intro v hv
      obtain rfl := Except.ok.inj hv
      exact ⟨hsame, hoperation, hbumpable, hsteps.withAside hsame⟩
  split
  · rename_i pendingId _
    exact hjp (pendingId, candidate) hcandidate
  · rename_i hbound
    refine ends_lift_bind herror ?_
    intro text htext
    rw [okOr_eq_ok_iff] at htext
    refine ends_lift_bind herror ?_
    rintro ⟨pendingId, w⟩ himport
    rw [mapError_eq_ok_iff] at himport
    exact hjp (pendingId, w, candidate.2.put id pendingId)
      (hcandidate.then (Step.restorePending (a := a.withWallet candidate.1 candidate.2) id text
        hoperation hbumpable htext hbound himport))

theorem ends_bumpMembers
    {original : Transaction}
    {context : Ctx}
    {members : List (Text × Member)}
    {candidate : MemWallet × Table Text UInt64}
    (h : Steps env strict a₀ a)
    (hcandidate : Steps env strict a₀ (a.withWallet candidate.1 candidate.2)) :
    Ends (bumpMembers env world original context members candidate) a (fun r a' =>
      Steps env strict a₀ a' ∧ ∀ v, r = .ok v → a.SameCore a' ∧
        v.1.map Prod.fst = members.map Prod.fst ∧
          (∀ row ∈ v.1, a.operations.get row.1 = some row.2 ∧ row.2.state.isBumpable = true) ∧
            Steps env strict a₀ (a'.withWallet v.2.1 v.2.2)) := by
  induction members generalizing a candidate with
  | nil =>
      refine ⟨h, ?_⟩
      intro v hv
      obtain rfl := Except.ok.inj hv
      exact ⟨Account.SameCore.refl a, rfl, by simp, hcandidate⟩
  | cons row rest ih =>
      obtain ⟨id, member⟩ := row
      rw [bumpMembers]
      refine Ends.bind (ends_bumpMember h hcandidate) ?_ ?_
      · intro e a' hr
        exact ⟨hr.1, fun _ hv => of_error_eq_ok hv⟩
      rintro ⟨operation, candidate'⟩ a₁ hr
      obtain ⟨hsame, hoperation, hbumpable, hcandidate'⟩ := hr.2 _ rfl
      refine Ends.bind (ih hr.1 hcandidate') ?_ ?_
      · intro e a' hr
        exact ⟨hr.1, fun _ hv => of_error_eq_ok hv⟩
      rintro ⟨operations, candidate''⟩ a₂ hr'
      obtain ⟨hsame', hkeys, hrows, hcandidate''⟩ := hr'.2 _ rfl
      refine ⟨hr'.1, ?_⟩
      intro v hv
      obtain rfl := Except.ok.inj hv
      refine ⟨hsame.trans hsame', ?_, ?_, hcandidate''⟩
      · rw [List.map_cons, List.map_cons, hkeys]
      · rw [List.forall_mem_cons]
        rw [hsame.operations] at hrows
        exact ⟨⟨hoperation, hbumpable⟩, hrows⟩

/-- One member of a replaced batch. -/
def MemberReplacement.entry
    (env : AccountEnv π)
    (replacement : Transaction)
    (update : MemberReplacement) : Text × (Operation → Operation) :=
  (update.operationId, fun operation =>
    operation.replaced env update.receipt replacement update.deliveryNonce)

theorem ends_replaceMembers
    (env : AccountEnv π)
    (replacement : Transaction)
    {updates : List MemberReplacement}
    (hnodup : (updates.map MemberReplacement.operationId).Nodup) :
    Ends (each updates (fun update => do
        match update.staleId with
        | none => pure ()
        | some staleId => deleteConsignment staleId
        updateOperation update.operationId (fun operation =>
          operation.replaced env update.receipt replacement update.deliveryNonce))) a
      (fun r a' => ∀ v, r = .ok v → ∃ consignments snapshots,
        a' = { a with
          operations := a.operations.modifyMany (updates.map (MemberReplacement.entry env replacement))
          consignments := consignments
          snapshots := snapshots }) := by
  induction updates generalizing a with
  | nil =>
      exact fun _ _ => ⟨a.consignments, a.snapshots, by simp⟩
  | cons update rest ih =>
      rw [List.map_cons, List.nodup_cons] at hnodup
      have hkeys : update.operationId ∉
          (rest.map (MemberReplacement.entry env replacement)).map Prod.fst := by
        rw [List.map_map]
        exact hnodup.1
      have hrest : ∀ consignments snapshots, Ends (do
          updateOperation update.operationId (fun operation =>
            operation.replaced env update.receipt replacement update.deliveryNonce)
          each rest (fun update => do
            match update.staleId with
            | none => pure ()
            | some staleId => deleteConsignment staleId
            updateOperation update.operationId (fun operation =>
              operation.replaced env update.receipt replacement update.deliveryNonce)))
          { a with consignments := consignments, snapshots := snapshots }
          (fun r a' => ∀ v, r = .ok v → ∃ consignments snapshots,
            a' = { a with
              operations := a.operations.modifyMany
                ((update :: rest).map (MemberReplacement.entry env replacement))
              consignments := consignments
              snapshots := snapshots }) := by
        intro consignments snapshots
        refine ends_modify_bind (Ends.mono (ih hnodup.2) ?_)
        intro r a' hr v hv
        obtain ⟨consignments', snapshots', rfl⟩ := hr v hv
        refine ⟨consignments', snapshots', ?_⟩
        rw [List.map_cons]
        show _ = { a with
          operations := a.operations.modifyMany ((update.operationId, _) :: _)
          consignments := consignments'
          snapshots := snapshots' }
        rw [← Table.modifyMany_modify hkeys]
      rw [each]
      cases update.staleId with
      | none =>
          exact hrest a.consignments a.snapshots
      | some staleId =>
          dsimp only
          rw [bind_assoc]
          refine Ends.bind ends_deleteConsignment (fun _ _ _ _ hv => of_error_eq_ok hv) ?_
          intro u a₁ hr
          obtain ⟨consignments, snapshots, rfl⟩ := hr u rfl
          exact hrest consignments snapshots

/-- What the new receipt of a member is made from. -/
structure Supersedes
    (env : AccountEnv π)
    (a : Account)
    (replaced : Txid)
    (update : MemberReplacement) : Prop where
  row : ∃ operation prior, a.operations.get update.operationId = some operation ∧
    operation.state.isBumpable = true ∧
      replacementDeliverySnapshot env operation operation.receiptOrEmpty a = .ok prior ∧
        update.receipt = operation.receiptOrEmpty.supersede prior replaced

theorem ends_persistBatchReplacement
    {batchLocalId : Text}
    {batch : SendBatch}
    {replaced : Txid}
    {manifestWire replacementWire : List UInt8}
    {replacement : Transaction}
    {count : UInt8}
    {stock : Stock}
    {updates : List MemberReplacement}
    {w : MemWallet}
    {pendings : Table Text UInt64}
    (h : Steps env strict a₀ (a.withWallet w pendings))
    (hbatch : a.batches.get batchLocalId = some batch)
    (hreleased : batch.state.isReleased = true)
    (htxid : batch.txid = some replaced)
    (hkeys : updates.map MemberReplacement.operationId = a.memberIds batchLocalId)
    (hupdates : ∀ update ∈ updates, Supersedes env a replaced update) :
    Ends (persistBatchReplacement env world batchLocalId replaced manifestWire replacementWire
        replacement count stock updates) a (fun r a' =>
      match r with
      | .error _ => a = a'
      | .ok _ => Steps env strict a₀ (a'.withWallet w pendings) ∧ ∃ batch',
          a'.batches.get batchLocalId = some batch' ∧ batch'.state.isReleased = true) := by
  have hnodup : (updates.map MemberReplacement.operationId).Nodup := by
    rw [hkeys]
    exact nodup_memberIds a batchLocalId
  set g : SendBatch → SendBatch := fun batch =>
    { batch with
      state := .signedPersisted
      manifestWire := some replacementWire
      signedTx := some replacement
      txid := some (replacement.txid env.sha256)
      receipt := some ⟨some replaced, some manifestWire⟩ }
  unfold persistBatchReplacement
  refine ends_atomic.mpr (Ends.bind (ends_replaceMembers env replacement hnodup)
    (fun _ _ _ => rfl) ?_)
  intro u a₁ hr
  obtain ⟨consignments, snapshots, rfl⟩ := hr u rfl
  refine ends_modify_bind (ends_modify_bind (ends_demand_bind (fun _ => rfl) ?_))
  intro _
  refine And.intro ?_ ⟨g batch, ?_, rfl⟩
  · have hrows := h.rowsBatch (updates.map (MemberReplacement.entry env replacement)) g replacement
      hbatch (Or.inr hreleased) rfl rfl rfl ?_ ?_
    · exact hrows.aside ⟨rfl, rfl, rfl, rfl, rfl, rfl, rfl, rfl, rfl, rfl⟩
    · rw [List.map_map]
      exact hkeys
    · intro id f operation hf hoperation
      obtain ⟨update, hupdate, heq⟩ := List.mem_map.mp hf
      obtain ⟨rfl, rfl⟩ := Prod.mk.inj heq
      obtain ⟨row, prior, hrow, hbumpable, hprior, hreceipt⟩ := (hupdates update hupdate).row
      obtain rfl := Option.some.inj (hrow.symm.trans hoperation)
      refine ⟨?_, rfl, rfl⟩
      show RowStep env _ row (row.replaced env update.receipt replacement update.deliveryNonce)
      rw [hreceipt, if_pos hreleased, htxid]
      exact RowStep.replaced hbumpable (Or.inr rfl) hprior
  · show (a.batches.modify batchLocalId g).get batchLocalId = _
    rw [Table.get_modify_self, hbatch]
    rfl

theorem memberReplacement_spec
    {replaced : Txid}
    {index : ℕ}
    {id : Text}
    {operation : Operation}
    {update : MemberReplacement}
    (h : memberReplacement env world replaced index id operation a = .ok update) :
    update.operationId = id ∧ ∃ prior,
      replacementDeliverySnapshot env operation operation.receiptOrEmpty a = .ok prior ∧
        update.receipt = operation.receiptOrEmpty.supersede prior replaced := by
  simp only [memberReplacement, except_bind_eq_ok_iff, pure, Except.pure, Except.ok.injEq] at h
  obtain ⟨prior, hprior, rfl⟩ := h
  exact ⟨rfl, prior, hprior, rfl⟩

theorem steps_feeBumpSendBatch
    {batchLocalId : Text}
    {target : UInt64}
    (h : Steps env strict a₀ a) :
    Leaves (feeBumpSendBatch env world batchLocalId target) a (Steps env strict a₀) := by
  unfold feeBumpSendBatch
  refine leaves_reads h ?_
  intro _ _
  refine leaves_demand h ?_
  intro _
  refine leaves_demand h ?_
  intro _
  refine leaves_reads h ?_
  intro batch hbatch
  rw [sendBatch_eq_ok_iff] at hbatch
  refine leaves_demand h ?_
  intro hstate
  have hreleased : batch.state.isReleased = true := by
    simp only [Bool.or_eq_true, beq_iff_eq] at hstate
    rcases hstate with hstate | hstate
    · rw [hstate]
      rfl
    · rw [hstate]
      rfl
  refine leaves_lift h ?_
  intro limit _
  refine leaves_lift h ?_
  intro proposalWire _
  refine leaves_lift h ?_
  intro proposal _
  refine leaves_lift h ?_
  intro manifestWire _
  refine leaves_lift h ?_
  intro original _
  refine leaves_demand h ?_
  intro htxid
  rw [beq_iff_eq] at htxid
  refine leaves_get (leaves_lift h ?_)
  rintro ⟨outpoint, stock⟩ _
  refine leaves_demand h ?_
  intro _
  refine leaves_lift h ?_
  intro _ _
  refine leaves_step (ends_bumpMembers h h) ?_
  rintro ⟨operations, w, pendings⟩ a₁ h₁ ⟨hsame, hkeys, hrows, hcandidate⟩
  refine leaves_lift h₁ ?_
  rintro ⟨replacementWire, replacement, fee⟩ _
  refine leaves_demand h₁ ?_
  intro _
  refine leaves_reads h₁ ?_
  intro updates hupdates
  have hbatch₁ : a₁.batches.get batchLocalId = some batch := by
    rw [hsame.batches]
    exact hbatch
  have hids : updates.map MemberReplacement.operationId = a₁.memberIds batchLocalId := by
    have hmap : updates.map MemberReplacement.operationId =
        operations.zipIdx.map (fun row => row.1.1) :=
      map_eq_of_mapM_eq_ok hupdates (fun _ _ h => (memberReplacement_spec h).1)
    rw [hmap]
    unfold Account.memberIds Account.sendBatchMembers
    rw [hsame.members]
    show operations.zipIdx.map (Prod.fst ∘ Prod.fst) = _
    rw [← List.map_map, List.zipIdx_map_fst]
    exact hkeys
  have hsupersedes : ∀ update ∈ updates,
      Supersedes env a₁ (original.txid env.sha256) update := by
    intro update hupdate
    obtain ⟨⟨⟨id, operation⟩, index⟩, hmem, hok⟩ := exists_of_mem_of_mapM_eq_ok hupdates hupdate
    obtain ⟨rfl, prior, hprior, hreceipt⟩ := memberReplacement_spec hok
    obtain ⟨hoperation, hbumpable⟩ := hrows _ (List.fst_mem_of_mem_zipIdx hmem)
    refine ⟨operation, prior, ?_, hbumpable, hprior, hreceipt⟩
    rw [hsame.operations]
    exact hoperation
  refine leaves_bind (Ends.mono (ends_persistBatchReplacement hcandidate hbatch₁ hreleased htxid
    hids hsupersedes) ?_)
  intro r a₂ hr
  cases r with
  | error e =>
      exact hr ▸ h₁
  | ok u =>
      obtain ⟨h₂, batch', hbatch', hreleased'⟩ := hr
      have happlied : Steps env strict a₀ { a₂ with
          protocol := w
          pendingByOperation := pendings
          bitcoin := a₂.bitcoin.applyUnconfirmedTx replacement } :=
        h₂.aside ⟨rfl, rfl, rfl, rfl, rfl, rfl, rfl, rfl, rfl, rfl⟩
      refine leaves_modify (leaves_lift happlied ?_)
      intro _ _
      exact steps_relayBatch happlied hbatch' hreleased' (fun _ => ⟨rfl, rfl, rfl⟩)

end Bumping

section Refreshing

theorem leaves_refreshMembers
    {ids : List Text}
    (h : Steps env strict a₀ a) :
    Leaves (refreshMembers env world ids) a (fun a' =>
      Steps env strict a₀ a' ∧ a'.members = a.members ∧ a'.batches = a.batches) := by
  induction ids generalizing a with
  | nil =>
      exact ⟨h, rfl, rfl⟩
  | cons id ids ih =>
      refine Leaves.bind (leaves_refreshOperationSpv h) (fun _ h' => h') ?_
      rintro _ a' ⟨h', hmembers, hbatches⟩
      refine leaves_reads ⟨h', hmembers, hbatches⟩ ?_
      intro operation _
      refine Leaves.bind (ih h') ?_ ?_
      · rintro a'' ⟨h'', hmembers', hbatches'⟩
        exact ⟨h'', hmembers'.trans hmembers, hbatches'.trans hbatches⟩
      · rintro others a'' ⟨h'', hmembers', hbatches'⟩
        exact ⟨h'', hmembers'.trans hmembers, hbatches'.trans hbatches⟩

theorem steps_settleSendBatch
    {batchLocalId : Text}
    {batch : SendBatch}
    (h : Steps env strict a₀ a)
    (hbatch : a.batches.get batchLocalId = some batch)
    (hreleased : batch.state.isReleased = true) :
    Leaves (settleSendBatch env world batchLocalId) a (Steps env strict a₀) := by
  unfold settleSendBatch
  refine leaves_get (Leaves.bind (leaves_refreshMembers h) (fun _ h' => h'.1) ?_)
  rintro settled a' ⟨h', -, hbatches⟩
  refine leaves_ite ?_ (fun _ => h')
  intro _
  have hconfirmed : Leaves (updateBatch batchLocalId (fun batch =>
      { batch with state := .confirmed })) a' (Steps env strict a₀) := by
    refine steps_updateBatch h' ?_
    intro batch' hbatch'
    rw [hbatches, hbatch] at hbatch'
    obtain rfl := Option.some.inj hbatch'
    exact .moved hreleased rfl rfl rfl
  refine Leaves.bind hconfirmed (fun _ h'' => h'') ?_
  intro _ a'' h''
  refine leaves_get ?_
  split
  · exact h''
  · exact h''.aside ⟨rfl, rfl, rfl, rfl, rfl, rfl, rfl, rfl, rfl, rfl⟩

theorem steps_refreshSendBatchSpv
    {batchLocalId : Text}
    (h : Steps env strict a₀ a) :
    Leaves (refreshSendBatchSpv env world batchLocalId) a (Steps env strict a₀) := by
  unfold refreshSendBatchSpv
  refine leaves_reads h ?_
  intro batch hbatch
  rw [sendBatch_eq_ok_iff] at hbatch
  refine leaves_ite ?_ ?_
  · rintro ⟨-, hstate⟩
    have hreleased : batch.state.isReleased = true := by
      rcases hstate with hstate | hstate
      · rw [hstate]
        rfl
      · rw [hstate]
        rfl
    refine leaves_lift h ?_
    intro replacement _
    refine leaves_bind (Ends.mono (ends_reconcileConfirmedSendBatchReplacement h hbatch
      hreleased) ?_)
    rintro r a' ⟨h', -, batch', hbatch', hreleased'⟩
    cases r with
    | error e =>
        exact h'
    | ok reconciled =>
        exact leaves_ite (fun _ => steps_settleSendBatch h' hbatch' hreleased') (fun _ => h')
  · intro _
    refine leaves_demand h ?_
    intro hstate
    refine steps_settleSendBatch h hbatch ?_
    simp only [Bool.or_eq_true, beq_iff_eq] at hstate
    rcases hstate with hstate | hstate
    · rw [hstate]
      rfl
    · rw [hstate]
      rfl

end Refreshing

end OpenCsv
