import OpenCsv.Account.Trace

/-!
# Proof jobs, step by step

Beginning, finishing and failing a proof job are sequences of steps.  A call that
gives up an operation outside a batch does so before its broadcast, except where it
does not look at the state: a failed review at the beginning, a job that finds its
operation changed, and a reported failure.
-/

namespace OpenCsv

open Call

variable {π : Type}
variable {env : AccountEnv π}
variable {world : World}
variable {strict : Prop}
variable {a₀ a a' : Account}

/-- Giving up the operation is safe: it is in a batch, or not yet broadcast. -/
def Account.MayClose (a : Account) (id : Text) : Prop :=
  a.members.get id = none → ∀ operation, a.operations.get id = some operation →
    operation.state.isPrebroadcast = true

theorem Account.MayClose.congr
    {id : Text}
    (h : a.MayClose id)
    (hoperations : a'.operations = a.operations)
    (hmembers : a'.members = a.members) :
    a'.MayClose id := by
  unfold Account.MayClose
  rw [hoperations, hmembers]
  exact h

theorem Account.MayClose.of_state
    {id : Text}
    {operation : Operation}
    (hoperation : a.operations.get id = some operation)
    (hstate : operation.state.isPrebroadcast = true) :
    a.MayClose id := by
  intro _ operation' hoperation'
  obtain rfl := Option.some.inj (hoperation.symm.trans hoperation')
  exact hstate

section Failing

theorem steps_recordRetryableProofError
    {id : Text}
    (h : Steps env strict a₀ a) :
    Leaves (recordRetryableProofError id) a (Steps env strict a₀) := by
  have hrow : Steps env strict a₀ { a with
      operations := a.operations.modify id (fun operation =>
        if operation.state = .planned ∨ operation.state = .feeReserved then
          { operation with
            receipt := some operation.receiptOrEmpty
            rejectionReason := none }
        else
          operation) } := by
    refine h.then (Step.row id _ ?_)
    intro operation _
    split_ifs
    · exact .note rfl ⟨rfl, rfl, rfl, rfl⟩ rfl
    · exact RowStep.refl operation
  refine hrow.then (Step.batchRows _ ?_)
  intro id' batch _
  split_ifs
  · exact .note rfl rfl rfl
  · exact .note rfl rfl rfl

theorem steps_failProofJob
    {α : Type}
    {id : Text}
    {error : AccountError}
    (h : Steps env strict a₀ a)
    (hsafe : strict → error.retryable = false → a.MayClose id) :
    Leaves (failProofJob id error : AccountCall α) a (Steps env strict a₀) := by
  unfold failProofJob
  have hclear : Steps env strict a₀ { a with activeProof := none } :=
    h.then (Step.aside ⟨rfl, rfl, rfl, rfl, rfl, rfl, rfl, rfl, rfl, rfl⟩)
  refine leaves_modify (leaves_ite ?_ ?_)
  · intro _
    refine Leaves.bind (steps_recordRetryableProofError hclear) (fun _ h => h) ?_
    intro _ a' h'
    exact h'
  · intro hretryable
    have hsafe' : strict → a.MayClose id := fun hs => hsafe hs (by simpa using hretryable)
    have hfail : ∀ a', Steps env strict a₀ a' → a'.operations = a.operations →
        a'.members = a.members →
        Leaves (failPrebroadcast id error : AccountCall α) a' (Steps env strict a₀) := by
      intro a' h' hoperations hmembers
      exact steps_failPrebroadcast h' (fun hs => (hsafe' hs).congr hoperations hmembers)
    extract_lets jp
    refine leaves_ite ?_ ?_
    · intro _
      cases dependencyNamed error.message with
      | none =>
          exact hfail _ hclear rfl rfl
      | some dependency =>
          refine leaves_bind (Ends.mono (ends_freezeUnconfirmedDependency hclear) ?_)
          intro r a' hr
          cases r with
          | error e => exact hr.1
          | ok u => exact hfail a' hr.1 hr.2.1 hr.2.2.1
    · intro _
      exact hfail _ hclear rfl rfl

end Failing

section Beginning

/-- A job starts from a funded operation. -/
theorem ends_beginFunding
    {id : Text}
    {operation : Operation}
    (h : Steps env strict a₀ a)
    (hoperation : a.operations.get id = some operation) :
    Ends (beginFunding env id operation) a (fun r a' => Steps env strict a₀ a' ∧
      ∀ funding, r = .ok funding → ∃ operation', a'.operations.get id = some operation' ∧
        operation'.state = .feeReserved) := by
  have hclose : operation.state.isPrebroadcast = true → strict → a.MayClose id :=
    fun hstate _ => Account.MayClose.of_state hoperation hstate
  unfold beginFunding
  split
  · rename_i hstate
    rw [ends_bind, ends_attempt]
    refine Ends.mono (ends_reserve_planned h hoperation hstate) ?_
    intro r a' hr
    cases r with
    | ok funding =>
        obtain ⟨h', rfl⟩ := hr
        exact ⟨h', fun _ _ => ⟨_, get_operations_reserve hoperation, rfl⟩⟩
    | error e =>
        obtain ⟨h', rfl⟩ := hr
        dsimp only
        rw [ends_bind]
        refine Ends.mono (steps_rejectPrebroadcastOperation h (hclose (by rw [hstate]; rfl))) ?_
        intro r a'' hr
        cases r with
        | error e => exact ⟨hr, fun _ hv => of_error_eq_ok hv⟩
        | ok u => exact ⟨hr, fun _ hv => of_error_eq_ok hv⟩
  · rename_i hstate
    rw [ends_bind, ends_attempt, ends_reads]
    cases reservedFundingForOperation a operation with
    | ok funding =>
        exact ⟨h, fun _ _ => ⟨operation, hoperation, hstate⟩⟩
    | error e =>
        refine Ends.mono (ends_failPrebroadcast h (hclose (by rw [hstate]; rfl))) ?_
        rintro r a'' ⟨h'', e', rfl⟩
        exact ⟨h'', fun _ hv => of_error_eq_ok hv⟩
  · exact ⟨h, fun _ hv => of_error_eq_ok hv⟩

/-- A job that begins leaves a funded operation and the lease. -/
theorem ends_beginProofJob
    {id : Text}
    (h : Steps env strict a₀ a)
    (hsafe : strict → a.MayClose id) :
    Ends (beginProofJob env world id) a (fun r a' => Steps env strict a₀ a' ∧
      ∀ job, r = .ok (.run job) → job.operationId = id ∧ a'.MayClose id) := by
  have hfail : ∀ e : AccountError, Ends (failPrebroadcast id e : AccountCall ProofJobStart) a
      (fun r a' => Steps env strict a₀ a' ∧
        ∀ job, r = .ok (.run job) → job.operationId = id ∧ a'.MayClose id) := by
    intro e
    refine Ends.mono (ends_failPrebroadcast h hsafe) ?_
    rintro r a' ⟨h', e', rfl⟩
    exact ⟨h', fun _ hv => of_error_eq_ok hv⟩
  have herror : ∀ e : AccountError, Steps env strict a₀ a ∧ ∀ job,
      (Except.error e : Except AccountError ProofJobStart) = .ok (.run job) →
        job.operationId = id ∧ a.MayClose id :=
    fun _ => ⟨h, fun _ hv => of_error_eq_ok hv⟩
  unfold beginProofJob
  refine ends_reads_bind herror ?_
  intro _ _
  refine ends_reads_bind herror ?_
  intro operation hoperation
  refine ends_demand_bind herror ?_
  intro _
  refine ends_ite_of ?_ ?_
  · intro _
    refine ends_lift_bind herror ?_
    intro receipt _
    exact ⟨h, fun _ hv => by cases hv⟩
  · intro _
    refine ends_get_bind (ends_demand_bind herror ?_)
    intro _
    split
    · exact hfail _
    · split
      · exact hfail _
      · refine Ends.bind (ends_beginFunding h (operation_eq_ok_iff.mp hoperation)) ?_ ?_
        · intro e a' hr
          exact ⟨hr.1, fun _ hv => of_error_eq_ok hv⟩
        · intro funding a' hr
          obtain ⟨operation', hoperation', hstate'⟩ := hr.2 funding rfl
          refine ⟨hr.1.then (Step.aside ⟨rfl, rfl, rfl, rfl, rfl, rfl, rfl, rfl, rfl, rfl⟩), ?_⟩
          intro job hjob
          obtain rfl := ProofJobStart.run.inj (Except.ok.inj hjob)
          exact ⟨rfl, Account.MayClose.of_state hoperation' (by rw [hstate']; rfl)⟩

theorem steps_beginProofJob
    {id : Text}
    (h : Steps env strict a₀ a)
    (hsafe : strict → a.MayClose id) :
    Leaves (beginProofJob env world id) a (Steps env strict a₀) :=
  Ends.mono (ends_beginProofJob h hsafe) (fun _ _ hr => hr.1)

end Beginning

section Finishing

theorem nextPending_markSpent
    {env : WalletEnv π}
    (coinIds : List Text)
    (w : MemWallet) :
    (w.markSpent env coinIds).1.nextPending = w.nextPending := by
  induction coinIds generalizing w with
  | nil =>
      rfl
  | cons id ids ih =>
      rw [MemWallet.markSpent]
      split
      · rfl
      · rw [ih]

theorem WalletStep.markSpent
    {env : WalletEnv π}
    (w : MemWallet)
    (coinIds : List Text) :
    WalletStep env w (w.markSpent env coinIds).1 :=
  ⟨MemWallet.pending_markSpent coinIds w, nextPending_markSpent coinIds w,
    MemWallet.markSpent_follows coinIds w⟩

theorem validateImported_eq_ok
    {completed : CompletedProofJob}
    {pendingId : UInt64}
    {u : Unit}
    (h : validateImported env completed pendingId a = .ok u) :
    a.protocol.pendingSpendConflicts pendingId = .ok false ∧
      a.protocol.pendingSpendsAvailable env.wallet pendingId = .ok true := by
  simp only [validateImported, except_bind_eq_ok_iff, mapError_eq_ok_iff, require_eq_ok_iff] at h
  obtain ⟨conflicts, hconflicts, available, havailable, _, hfree, -⟩ := h
  simp only [Bool.and_eq_true, Bool.not_eq_true'] at hfree
  rw [hconflicts, havailable, hfree.1, hfree.2]
  exact ⟨rfl, rfl⟩

/-- What an import leaves: a wallet with one more proof, checked where it is accepted. -/
structure Imported
    (env : AccountEnv π)
    (a : Account)
    (text : Text)
    (pendingId : UInt64)
    (a' : Account) : Prop where
  wallet : ∃ w w', a.protocol.importPending env.wallet text = .ok (pendingId, w) ∧
    WalletStep env.wallet w w' ∧ a' = { a with protocol := w' }

structure Accepted
    (env : AccountEnv π)
    (a : Account)
    (text : Text)
    (pendingId : UInt64)
    (a' : Account) : Prop where
  wallet : ∃ w w', a.protocol.importPending env.wallet text = .ok (pendingId, w) ∧
    w.pendingSpendConflicts pendingId = .ok false ∧
      w.pendingSpendsAvailable env.wallet pendingId = .ok true ∧
        WalletStep env.wallet w w' ∧ a' = { a with protocol := w' }

theorem ends_markReconciled
    {coinIds : List Text} :
    Ends (markReconciled env coinIds) a (fun r a' =>
      (∃ v, r = .ok v) ∧ ∃ w, WalletStep env.wallet a.protocol w ∧ a' = { a with protocol := w }) := by
  unfold markReconciled
  rw [ends_bind, ends_get]
  dsimp only
  rw [ends_ite]
  split_ifs
  · exact ⟨⟨_, rfl⟩, a.protocol, WalletStep.refl _, rfl⟩
  · exact ⟨⟨_, rfl⟩, _, WalletStep.markSpent a.protocol coinIds, rfl⟩

theorem ends_importProof
    {completed : CompletedProofJob}
    (h : Steps env strict a₀ a) :
    Ends (importProof env world completed) a (fun r a' =>
      match r with
      | .error _ => Steps env strict a₀ a'
      | .ok (pendingId, .error _) => Imported env a completed.pendingJson pendingId a'
      | .ok (pendingId, .ok _) => Accepted env a completed.pendingJson pendingId a') := by
  unfold importProof
  rw [ends_bind, ends_reads]
  cases himport : (a.protocol.importPending env.wallet completed.pendingJson).mapError
      (AccountError.newText "database_error") with
  | error e =>
      exact h
  | ok imported =>
      obtain ⟨pendingId, w⟩ := imported
      rw [mapError_eq_ok_iff] at himport
      dsimp only
      rw [ends_bind, ends_modify]
      dsimp only
      rw [ends_bind, ends_reads]
      cases (pendingNullifiers { a with protocol := w } pendingId).mapError
          (AccountError.newText "database_error") with
      | error e =>
          exact h.then (Step.importOnly himport)
      | ok nullifiers =>
          dsimp only
          cases verifyProtocolInputsUnspent world nullifiers completed.checkedThrough
              (protocolSpendPreflightRequired env) with
          | error e =>
              exact ⟨w, w, himport, WalletStep.refl w, rfl⟩
          | ok u =>
              dsimp only
              rw [ends_bind, ends_get]
              dsimp only
              cases hvalid : validateImported env completed pendingId { a with protocol := w } with
              | error e =>
                  exact ⟨w, w, himport, WalletStep.refl w, rfl⟩
              | ok u =>
                  obtain ⟨hconflicts, havailable⟩ := validateImported_eq_ok hvalid
                  dsimp only
                  rw [ends_bind]
                  refine Ends.mono ends_markReconciled ?_
                  rintro r a' ⟨⟨v, rfl⟩, w', hwallet, rfl⟩
                  cases v with
                  | error e =>
                      exact ⟨w, w', himport, hwallet, rfl⟩
                  | ok u =>
                      exact ⟨w, w', himport, hconflicts, havailable, hwallet, rfl⟩

/-- An imported proof is in the wallet under the id it was given. -/
theorem importPending_spec
    {env : WalletEnv π}
    {w w' : MemWallet}
    {text : Text}
    {pendingId : UInt64}
    (h : w.importPending env text = .ok (pendingId, w')) :
    ∃ p, MemWallet.readPending env text = .ok p ∧ pendingId = w.nextPending ∧
      w' = { w with
        pending := w.pending.insert w.nextPending p
        nextPending := w.nextPending + 1 } := by
  simp only [MemWallet.importPending, except_bind_eq_ok_iff, pure, Except.pure, Except.ok.injEq,
    Prod.mk.injEq] at h
  obtain ⟨p, hp, rfl, rfl⟩ := h
  exact ⟨p, hp, rfl, rfl⟩

/-- A prepared operation stays prepared while its receipt is written. -/
theorem ends_preparedReceipt
    {id : Text}
    {operation : Operation}
    (h : Steps env strict a₀ a)
    (hoperation : a.operations.get id = some operation)
    (hstate : operation.state = .proofReady) :
    Ends (preparedReceipt env id) a (fun _ a' => Steps env strict a₀ a' ∧ a'.MayClose id) := by
  have hclose : a.MayClose id :=
    Account.MayClose.of_state hoperation (by rw [hstate]; rfl)
  unfold preparedReceipt
  rw [ends_bind, ends_reads]
  cases a.operation id with
  | error e =>
      exact ⟨h, hclose⟩
  | ok _ =>
      set f : Operation → Operation := fun operation =>
        { operation with
          checkpointHash := none
          backupAcked := false
          receipt := some Receipt.empty }
      set a₁ : Account := { a with operations := a.operations.modify id f }
      have h₁ : Steps env strict a₀ a₁ := by
        refine h.then (Step.row id f ?_)
        intro operation' hoperation'
        obtain rfl := Option.some.inj (hoperation.symm.trans hoperation')
        exact .prepared hstate hstate ⟨rfl, rfl, rfl, rfl⟩ rfl
      have hoperation₁ : a₁.operations.get id = some (f operation) := by
        simp [a₁, hoperation]
      have hclose₁ : a₁.MayClose id :=
        Account.MayClose.of_state hoperation₁ (by
          show operation.state.isPrebroadcast = true
          rw [hstate]
          rfl)
      dsimp only
      rw [ends_bind, updateOperation, ends_modify]
      dsimp only
      rw [ends_bind, ends_reads]
      cases a₁.currentHash env with
      | error e =>
          exact ⟨h₁, hclose₁⟩
      | ok hash =>
          refine ⟨h₁.then (Step.row id _ ?_), ?_⟩
          · intro operation' hoperation'
            obtain rfl := Option.some.inj (hoperation₁.symm.trans hoperation')
            exact .prepared hstate hstate ⟨rfl, rfl, rfl, rfl⟩ rfl
          · intro _ operation' hoperation'
            rw [Table.get_modify_self, hoperation₁, Option.map_some] at hoperation'
            obtain rfl := Option.some.inj hoperation'
            show operation.state.isPrebroadcast = true
            rw [hstate]
            rfl

/-- A funded operation with an accepted proof is prepared, or given up. -/
theorem steps_makeReady
    {id text : Text}
    {r : Request}
    {operation : Operation}
    {pendingId : UInt64}
    {p : Pending}
    (h : Steps env strict a₀ a)
    (hoperation : a.operations.get id = some operation)
    (hstate : operation.state = .feeReserved)
    (hbound : a.pendingByOperation.get id = some pendingId)
    (hpending : a.protocol.pending.lookup pendingId = some p)
    (htext : MemWallet.readPending env.wallet text = .ok p ∨
      (a.protocol.exportPending env.wallet pendingId = .ok text ∧ p.spentIds = [])) :
    Ends (markProofReady id r text) a (fun _ a' => Steps env strict a₀ a' ∧
      ∃ operation', a'.operations.get id = some operation' ∧ operation'.state = .proofReady) := by
  refine ⟨h.then (Step.ready id text _ hoperation hstate hbound hpending htext rfl rfl rfl rfl
    rfl rfl), ?_⟩
  refine ⟨{ operation with
    state := .proofReady
    request := r
    pendingJson := some text
    receipt := some Receipt.empty }, ?_, rfl⟩
  simp [hoperation]

theorem steps_prepareOrFail
    {id : Text}
    {operation : Operation}
    (h : Steps env strict a₀ a)
    (hoperation : a.operations.get id = some operation)
    (hstate : operation.state = .proofReady) :
    Leaves (do
        match ← attempt (preparedReceipt env id) with
        | .ok _ => pure ()
        | .error error => failPrebroadcast id error) a (Steps env strict a₀) := by
  refine leaves_attempt (Ends.mono (ends_preparedReceipt h hoperation hstate) ?_)
  intro r a' hr
  cases r with
  | ok _ => exact hr.1
  | error e => exact steps_failPrebroadcast hr.1 (fun _ => hr.2)

theorem steps_installProof
    {completed : CompletedProofJob}
    {operation : Operation}
    (h : Steps env strict a₀ a)
    (hoperation : a.operations.get completed.operationId = some operation)
    (hstate : operation.state = .feeReserved) :
    Leaves (installProof env world completed) a (Steps env strict a₀) := by
  unfold installProof
  refine leaves_bind (Ends.mono (ends_importProof h) ?_)
  intro r a' hr
  cases r with
  | error e =>
      exact hr
  | ok imported =>
      obtain ⟨pendingId, result⟩ := imported
      cases result with
      | error e =>
          obtain ⟨w, w', himport, hwallet, rfl⟩ := hr
          refine leaves_modify ?_
          refine steps_failProofJob (h.then (Step.importDiscard himport hwallet)) ?_
          intro _ _
          exact Account.MayClose.of_state hoperation (by rw [hstate]; rfl)
      | ok u =>
          obtain ⟨w, w', himport, hconflicts, havailable, hwallet, rfl⟩ := hr
          have hinstall := h.then (Step.install completed.operationId completed.pendingJson himport
            hconflicts havailable hwallet hoperation hstate)
          obtain ⟨p, hread, rfl, rfl⟩ := importPending_spec himport
          refine leaves_modify ?_
          refine leaves_step (ends_persistDependencyReobservationsAt hinstall) ?_
          intro _ a₂ h₂ hsame
          have hoperation₂ : a₂.operations.get completed.operationId = some operation := by
            rw [hsame.operations]
            exact hoperation
          have hbound₂ : a₂.pendingByOperation.get completed.operationId =
              some a.protocol.nextPending := by
            rw [hsame.pendingByOperation]
            simp [Table.get_put]
          have hpending₂ : a₂.protocol.pending.lookup a.protocol.nextPending = some p := by
            rw [hsame.protocol]
            show w'.pending.lookup _ = _
            rw [hwallet.pending, AList.lookup_insert]
          have hready := steps_makeReady (r := .transfer completed.request) h₂ hoperation₂ hstate
            hbound₂ hpending₂ (Or.inl hread)
          refine leaves_step (Ends.mono hready (fun _ _ hr => ⟨hr.1, fun _ _ => hr.2⟩)) ?_
          · rintro _ a₃ h₃ ⟨operation', hoperation', hstate'⟩
            refine leaves_modify ?_
            exact steps_prepareOrFail
              (h₃.then (Step.aside ⟨rfl, rfl, rfl, rfl, rfl, rfl, rfl, rfl, rfl, rfl⟩)) hoperation' hstate'

/-- A job that finishes gives its operation up in a late state only while it holds the lease. -/
theorem steps_finishProofJob
    {completed : CompletedProofJob}
    (h : Steps env strict a₀ a)
    (hsafe : strict → a.activeProof = some completed.operationId →
      a.MayClose completed.operationId) :
    Leaves (finishProofJob env world completed) a (Steps env strict a₀) := by
  unfold finishProofJob
  refine leaves_reads h ?_
  intro operation hoperation
  rw [operation_eq_ok_iff] at hoperation
  refine leaves_ite ?_ ?_
  · intro _
    refine leaves_modify ?_
    have hclear : Steps env strict a₀ { a with activeProof := none } :=
      h.then (Step.aside ⟨rfl, rfl, rfl, rfl, rfl, rfl, rfl, rfl, rfl, rfl⟩)
    exact leaves_lift hclear (fun _ _ => hclear)
  · intro _
    refine leaves_get (leaves_demand h ?_)
    intro hlease
    have hclose : strict → a.MayClose completed.operationId :=
      fun hs => hsafe hs (beq_iff_eq.mp hlease)
    extract_lets jp
    have hjp : ∀ unchanged, (unchanged = true → operation.state = .feeReserved) →
        Leaves (jp unchanged) a (Steps env strict a₀) := by
      intro unchanged hunchanged
      refine leaves_ite ?_ ?_
      · intro _
        exact steps_failProofJob h (fun hs _ => hclose hs)
      · intro hchanged
        have hstate := hunchanged (by simpa using hchanged)
        refine leaves_lift h ?_
        intro request _
        split
        · exact steps_failProofJob h (fun hs _ => hclose hs)
        · refine leaves_ite ?_ ?_
          · intro _
            exact steps_failProofJob h (fun hs _ => hclose hs)
          · intro _
            exact steps_installProof h hoperation hstate
    refine leaves_ite ?_ ?_
    · intro hstate
      refine leaves_lift h ?_
      intro outpoint _
      exact hjp _ (fun _ => hstate)
    · intro _
      exact hjp false (fun hf => by cases hf)

theorem operationId_of_run
    {job : AccountProofJob}
    {completed : CompletedProofJob}
    (h : job.run env world = .ok completed) :
    completed.operationId = job.operationId := by
  simp only [AccountProofJob.run, except_bind_eq_ok_iff, pure, Except.pure, Except.ok.injEq] at h
  obtain ⟨_, _, _, _, _, _, _, _, _, _, _, _, rfl⟩ := h
  rfl

theorem steps_proveOperation
    {id : Text}
    (h : Steps env strict a₀ a)
    (hsafe : strict → a.MayClose id) :
    Leaves (proveOperation env world id) a (Steps env strict a₀) := by
  unfold proveOperation
  refine leaves_bind (Ends.mono (ends_beginProofJob h hsafe) ?_)
  intro r a' hr
  cases r with
  | error e =>
      exact hr.1
  | ok start =>
      cases start with
      | ready receipt =>
          exact hr.1
      | run job =>
          obtain ⟨hid, hclose⟩ := hr.2 job rfl
          dsimp only
          cases hrun : job.run env world with
          | error e =>
              exact steps_failProofJob hr.1 (fun _ _ => hclose)
          | ok completed =>
              refine steps_finishProofJob hr.1 ?_
              rw [operationId_of_run hrun, hid]
              exact fun _ _ => hclose

end Finishing

end OpenCsv
