import OpenCsv.Account.TraceBatch

/-!
# Minting and signing, step by step

A mint is admitted, funded, proved and prepared within one call.  A signature moves a
prepared operation, or a prepared batch with all its members, to its transaction; the
order in which one transaction writes the rows of a batch does not matter.
-/

namespace OpenCsv

open Call

variable {π : Type}
variable {env : AccountEnv π}
variable {world : World}
variable {strict : Prop}
variable {a₀ a a' : Account}

section Minting

/-- A proved mint is in the wallet under the id it was given, and spends nothing. -/
theorem proveMint_spec
    {env : WalletEnv π}
    {w w' : MemWallet}
    {assetId toOwner : Text}
    {amounts : List UInt64}
    {draws : MemWallet.Draws}
    {proved : Proved}
    (h : w.proveMint env assetId toOwner amounts draws = .ok (proved, w')) :
    ∃ p, p.spentIds = [] ∧ proved.pendingId = w.nextPending ∧
      w' = { w with
        pending := w.pending.insert w.nextPending p
        nextPending := w.nextPending + 1 } := by
  simp only [MemWallet.proveMint, except_bind_eq_ok_iff, pure, Except.pure, Except.ok.injEq] at h
  obtain ⟨⟨p, record, ctx⟩, hp, hpush⟩ := h
  obtain ⟨rfl, rfl⟩ := Prod.mk.inj hpush
  exact ⟨p, (MemWallet.mintPending_spec hp).2.2, rfl, rfl⟩

theorem steps_proveMintOperation
    {id : Text}
    {request : IssuanceRequest}
    {funding : ReservedFunding}
    {operation : Operation}
    (h : Steps env strict a₀ a)
    (hoperation : a.operations.get id = some operation)
    (hstate : operation.state = .feeReserved) :
    Leaves (proveMintOperation env world id request funding) a (Steps env strict a₀) := by
  have hclose : strict → a.MayClose id :=
    fun _ => Account.MayClose.of_state hoperation (by rw [hstate]; rfl)
  unfold proveMintOperation
  refine leaves_lift h ?_
  intro toOwner _
  cases world.verifyFunding funding.outpoint with
  | error e =>
      refine Leaves.bind (steps_rejectPrebroadcastOperation h hclose) (fun _ h => h) ?_
      intro _ a' h'
      exact h'
  | ok checked =>
      refine leaves_get ?_
      cases hprove : a.protocol.proveMint env.wallet request.assetId toOwner request.amounts
          world.draws with
      | error e =>
          exact steps_failPrebroadcast h hclose
      | ok result =>
          obtain ⟨proved, w⟩ := result
          have hinstall := h.then (Step.installMint id hprove hoperation hstate)
          obtain ⟨p, hspent, hid, rfl⟩ := proveMint_spec hprove
          have hbound : (a.pendingByOperation.put id proved.pendingId).get id =
              some proved.pendingId := by
            simp [Table.get_put]
          unfold installMint
          refine leaves_modify (leaves_modify (leaves_get ?_))
          split
          · exact steps_failPrebroadcast hinstall hclose
          · split
            · exact steps_failPrebroadcast hinstall hclose
            · rename_i text hexport
              refine leaves_step (Ends.mono (steps_makeReady (r := .mint request) hinstall
                hoperation hstate hbound (by rw [hid]; exact AList.lookup_insert _)
                (Or.inr ⟨hexport, hspent⟩)) (fun _ _ hr => ⟨hr.1, fun _ _ => hr.2⟩)) ?_
              rintro _ a₃ h₃ ⟨operation', hoperation', hstate'⟩
              exact steps_prepareOrFail h₃ hoperation' hstate'

/-- Funding a planned mint, and proving it. -/
theorem steps_fundAndProveMint
    {id : Text}
    {request : IssuanceRequest}
    {expected : Option OutPoint}
    {operation : Operation}
    (h : Steps env strict a₀ a)
    (hoperation : a.operations.get id = some operation)
    (hstate : operation.state = .planned) :
    Leaves (do
        let funding ← reserveFeeUtxoMatching env id expected
        proveMintOperation env world id request funding) a (Steps env strict a₀) := by
  refine leaves_bind (Ends.mono (ends_reserve_planned h hoperation hstate) ?_)
  intro r a' hr
  cases r with
  | error e =>
      exact hr.1
  | ok funding =>
      obtain ⟨h', rfl⟩ := hr
      exact steps_proveMintOperation h' (get_operations_reserve hoperation) rfl

theorem validateCurrentProductionMint_spec
    {request : IssuanceRequest}
    {toOwner : Text}
    {policy : ProductionIssuancePolicy}
    {authorization : ProductionMintAuthorization}
    (h : validateCurrentProductionMint env world request toOwner = .ok (policy, authorization)) :
    env.config.productionIssuancePolicies.find? (fun policy =>
        policy.assetId == authorization.assetId) = some policy ∧
      AuthorizedMint env.issuance policy authorization := by
  simp only [validateCurrentProductionMint, except_bind_eq_ok_iff, okOr_eq_ok_iff,
    require_eq_ok_iff, mapError_eq_ok_iff, pure, Except.pure, Except.ok.injEq,
    Prod.mk.injEq] at h
  obtain ⟨release, -, reference, -, policy', hpolicy, authorization', -, -, hsame, -, -, digest,
    hverify, rfl, rfl⟩ := h
  simp only [Bool.and_eq_true, beq_iff_eq] at hsame
  rw [hsame.2]
  exact ⟨hpolicy, verifyProductionMintAuthorization_spec hverify⟩

theorem ends_insertProductionMintOperation
    {id : Text}
    {request : IssuanceRequest}
    {nonce : Text}
    {policy : ProductionIssuancePolicy}
    {authorization : ProductionMintAuthorization}
    (h : Steps env strict a₀ a)
    (hpolicy : env.config.productionIssuancePolicies.find? (fun policy =>
        policy.assetId == authorization.assetId) = some policy)
    (hauthorized : AuthorizedMint env.issuance policy authorization) :
    Ends (insertProductionMintOperation world id request nonce policy authorization) a
      (fun r a' => Steps env strict a₀ a' ∧ ∀ v, r = .ok v →
        a'.operations.get id = some (plannedOperation (.mint request) nonce world.now)) := by
  have herror : ∀ e : AccountError, Steps env strict a₀ a ∧ ∀ v,
      (Except.error e : Except AccountError Unit) = .ok v →
        a.operations.get id = some (plannedOperation (.mint request) nonce world.now) :=
    fun _ => ⟨h, fun _ hv => of_error_eq_ok hv⟩
  unfold insertProductionMintOperation
  refine ends_demand_bind herror ?_
  intro hid
  obtain rfl := beq_iff_eq.mp hid
  refine ends_atomic.mpr (ends_get_bind (ends_demand_bind herror ?_))
  intro hnew
  simp only [Bool.and_eq_true, Bool.not_eq_true', Table.has_eq_false_iff] at hnew
  refine ends_reads_bind herror ?_
  intro _ hcontinues
  refine Ends.bind (steps_insertPlannedOperation h) (fun e _ _ => herror e) ?_
  intro u a₁ hr
  obtain ⟨hfresh, rfl⟩ := hr.2 u rfl
  refine ⟨h.then (Step.authorize hfresh hnew.1 hcontinues hpolicy hauthorized), ?_⟩
  intro _ _
  exact Table.get_insert_self_of_none hfresh

theorem steps_mintPrepare
    {request : IssuanceRequest}
    (h : Steps env strict a₀ a) :
    Leaves (mintPrepare env world request) a (Steps env strict a₀) := by
  unfold mintPrepare
  refine leaves_reads h ?_
  intro _ _
  refine leaves_demand h ?_
  intro _
  refine leaves_demand h ?_
  intro _
  refine leaves_get (leaves_demand h ?_)
  intro _
  refine leaves_ite ?_ ?_
  · intro _
    refine leaves_lift h ?_
    rintro ⟨policy, authorization⟩ hvalid
    obtain ⟨hpolicy, hauthorized⟩ := validateCurrentProductionMint_spec hvalid
    refine leaves_lift h ?_
    intro outpoint _
    refine leaves_step (ends_insertProductionMintOperation h hpolicy hauthorized) ?_
    intro _ a' h' hoperation
    exact steps_fundAndProveMint h' hoperation rfl
  · intro _
    refine leaves_step (steps_insertPlannedOperation h) ?_
    rintro _ _ h' ⟨hfresh, rfl⟩
    refine leaves_attempt (Ends.mono (ends_reserve_planned h'
      (Table.get_insert_self_of_none hfresh) rfl) ?_)
    intro r a'' hr
    cases r with
    | ok funding =>
        obtain ⟨h'', rfl⟩ := hr
        exact steps_proveMintOperation h''
          (get_operations_reserve (Table.get_insert_self_of_none hfresh)) rfl
    | error e =>
        obtain ⟨h'', rfl⟩ := hr
        refine Leaves.bind (steps_rejectPrebroadcastOperation h''
          (fun _ => Account.MayClose.of_state (Table.get_insert_self_of_none hfresh) rfl))
          (fun _ h => h) ?_
        intro _ a₃ h₃
        exact h₃

theorem WalletStep.initIssuer
    {env : WalletEnv π}
    {w w' : MemWallet}
    {currency assetId : Text}
    {seed hash : Bytes 32}
    {nonce : UInt64}
    (h : w.initIssuerFromSeed env currency seed nonce hash = .ok (assetId, w')) :
    WalletStep env w w' := by
  simp only [MemWallet.initIssuerFromSeed, except_bind_eq_ok_iff, pure, Except.pure,
    Except.ok.injEq, Prod.mk.injEq] at h
  obtain ⟨code, -, -, rfl⟩ := h
  split_ifs
  · exact WalletStep.refl w
  · obtain ⟨assets, hassets⟩ := MemWallet.pinAsset_eq w
      { issuerPk := issuerPublicKey env.sponge seed
        currencyCode := code
        termsHash := ⟨hash⟩
        nonce := nonce }
    rw [hassets]
    exact ⟨rfl, rfl, MemWallet.Follows.refl w.coins⟩

theorem steps_instrumentCreate
    {terms : InstrumentTerms}
    (h : Steps env strict a₀ a) :
    Leaves (instrumentCreate env terms) a (Steps env strict a₀) := by
  unfold instrumentCreate
  refine leaves_reads h ?_
  intro _ _
  refine leaves_lift h ?_
  intro hash _
  refine leaves_demand h ?_
  intro _
  refine leaves_get (leaves_lift h ?_)
  intro code _
  refine leaves_lift h ?_
  intro _ _
  refine leaves_lift h ?_
  rintro ⟨assetId, w⟩ hinit
  rw [mapError_eq_ok_iff] at hinit
  have hwallet : Steps env strict a₀ { a with protocol := w } :=
    h.then (Step.wallet (WalletStep.initIssuer hinit))
  refine leaves_modify (leaves_demand hwallet ?_)
  intro _
  refine leaves_demand hwallet ?_
  intro _
  exact leaves_modify (leaves_reads (hwallet.aside ⟨rfl, rfl, rfl, rfl, rfl, rfl, rfl, rfl, rfl, rfl⟩)
    (fun _ _ => hwallet.aside ⟨rfl, rfl, rfl, rfl, rfl, rfl, rfl, rfl, rfl, rfl⟩))

end Minting

section Signing

/-- A failed review gives the operation up; a passed one changes nothing. -/
theorem ends_reviewBeforeSigning
    {id : Text}
    {operation : Operation}
    (h : Steps env strict a₀ a)
    (hclose : strict → a.MayClose id) :
    Ends (reviewBeforeSigning env world id operation) a (fun r a' =>
      Steps env strict a₀ a' ∧ ∀ v, r = .ok v → a = a') := by
  have herror : ∀ e : AccountError, Steps env strict a₀ a ∧
      ∀ v : Unit, Except.error e = .ok v → a = a :=
    fun _ => ⟨h, fun _ _ => rfl⟩
  unfold reviewBeforeSigning
  cases operation.request.kind with
  | mint =>
      exact ⟨h, fun _ _ => rfl⟩
  | transfer =>
      refine ends_lift_bind herror ?_
      intro request _
      refine ends_get_bind ?_
      split
      · exact ⟨h, fun _ _ => rfl⟩
      · refine Ends.mono (ends_failPrebroadcast h hclose) ?_
        rintro r a' ⟨h', e, rfl⟩
        exact ⟨h', fun _ hv => of_error_eq_ok hv⟩

theorem ends_preflightBeforeSigning
    {id : Text}
    {operation : Operation}
    {pendingId checkedThrough : UInt64}
    (h : Steps env strict a₀ a)
    (hclose : strict → a.MayClose id) :
    Ends (preflightBeforeSigning env world id operation pendingId checkedThrough) a (fun r a' =>
      Steps env strict a₀ a' ∧ ∀ v, r = .ok v → a = a') := by
  have herror : ∀ e : AccountError, Steps env strict a₀ a ∧
      ∀ v : Unit, Except.error e = .ok v → a = a :=
    fun _ => ⟨h, fun _ _ => rfl⟩
  unfold preflightBeforeSigning
  cases operation.request.kind with
  | mint =>
      exact ⟨h, fun _ _ => rfl⟩
  | transfer =>
      refine ends_reads_bind herror ?_
      intro nullifiers _
      split
      · exact ⟨h, fun _ _ => rfl⟩
      · refine Ends.mono (ends_failPrebroadcast h hclose) ?_
        rintro r a' ⟨h', e, rfl⟩
        exact ⟨h', fun _ hv => of_error_eq_ok hv⟩

theorem steps_signAndBroadcast
    {id : Text}
    {policy : FeePolicy}
    (h : Steps env strict a₀ a) :
    Leaves (signAndBroadcast env world id policy) a (Steps env strict a₀) := by
  unfold signAndBroadcast
  refine leaves_reads h ?_
  intro _ _
  refine leaves_demand h ?_
  intro _
  refine leaves_reads h ?_
  intro operation hoperation
  rw [operation_eq_ok_iff] at hoperation
  refine leaves_reads h ?_
  intro snapshot _
  refine leaves_demand h ?_
  intro hready
  have hstate : operation.state = .proofReady := beq_iff_eq.mp hready
  have hclose : strict → a.MayClose id :=
    fun _ => Account.MayClose.of_state hoperation (by rw [hstate]; rfl)
  refine leaves_demand h ?_
  intro _
  refine leaves_step (ends_reviewBeforeSigning h hclose) ?_
  rintro _ _ h₁ rfl
  refine leaves_reads h₁ ?_
  intro funding _
  refine leaves_step (ends_orNoteReason (P := fun _ a' => a = a')
    ((ends_lift _).mpr ⟨h₁, fun _ _ => rfl⟩)) ?_
  rintro checkedThrough _ h₂ rfl
  refine leaves_reads h₂ ?_
  intro pendingId _
  refine leaves_step (ends_preflightBeforeSigning h₂ hclose) ?_
  rintro _ _ h₃ rfl
  refine leaves_reads h₃ ?_
  intro dependencies _
  refine leaves_step (ends_orNoteReason (ends_reobserveUnconfirmedDependencies h₃)) ?_
  intro _ a₄ h₄ hsame
  refine leaves_reads h₄ ?_
  intro record _
  refine leaves_lift h₄ ?_
  intro tx _
  set f : Operation → Operation := fun operation =>
    { operation with
      state := .signedPersisted
      signedTx := some tx
      txid := some (tx.txid env.sha256)
      receipt := some (signedReceipt snapshot) }
  have hsigned : Steps env strict a₀ { a₄ with operations := a₄.operations.modify id f } := by
    refine h₄.then (Step.row id f ?_)
    intro operation' hoperation'
    rw [hsame.operations, hoperation] at hoperation'
    obtain rfl := Option.some.inj hoperation'
    exact .signed hstate rfl rfl rfl rfl rfl (Or.inl ⟨snapshot, rfl⟩)
  have happlied : Steps env strict a₀ { a₄ with
      operations := a₄.operations.modify id f
      bitcoin := a₄.bitcoin.applyUnconfirmedTx tx } :=
    hsigned.aside ⟨rfl, rfl, rfl, rfl, rfl, rfl, rfl, rfl, rfl, rfl⟩
  refine leaves_modify (leaves_modify (leaves_lift happlied ?_))
  intro _ _
  refine happlied.then (Step.row id _ ?_)
  intro operation' hoperation'
  rw [Table.get_modify_self, Option.map_eq_some_iff] at hoperation'
  obtain ⟨row, -, rfl⟩ := hoperation'
  exact .moved (Or.inl rfl) rfl ⟨rfl, rfl, rfl, rfl⟩ ⟨_, rfl⟩

end Signing

section Batch

/-- The row of a member that is signed with its batch. -/
def Operation.signedWith (env : AccountEnv π) (tx : Transaction) (operation : Operation) :
    Operation :=
  { operation with
    state := .signedPersisted
    signedTx := some tx
    txid := some (tx.txid env.sha256)
    receipt := some operation.receiptOrEmpty }

/-- A verified member is prepared, and nothing that matters changes. -/
theorem ends_verifyMember
    {context : Ctx}
    {id : Text}
    {member : Member}
    (h : Steps env strict a₀ a) :
    Ends (verifyMember env world context id member) a (fun r a' =>
      Steps env strict a₀ a' ∧ ∀ v, r = .ok v → a.SameCore a' ∧
        ∃ operation, a.operations.get id = some operation ∧ operation.state = .proofReady) := by
  have herror : ∀ e : AccountError, Steps env strict a₀ a ∧ ∀ v : Unit,
      Except.error e = .ok v → a.SameCore a ∧ ∃ operation,
        a.operations.get id = some operation ∧ operation.state = .proofReady :=
    fun _ => ⟨h, fun _ hv => of_error_eq_ok hv⟩
  unfold verifyMember
  refine ends_reads_bind herror ?_
  intro operation hoperation
  rw [operation_eq_ok_iff] at hoperation
  refine ends_demand_bind herror ?_
  intro hready
  simp only [Bool.and_eq_true, beq_iff_eq] at hready
  refine ends_reads_bind herror ?_
  intro funding _
  refine ends_lift_bind herror ?_
  intro checkedThrough _
  refine ends_reads_bind herror ?_
  intro pendingId _
  refine ends_reads_bind herror ?_
  intro nullifiers _
  refine ends_lift_bind herror ?_
  intro _ _
  refine ends_reads_bind herror ?_
  intro dependencies _
  refine Ends.bind (ends_reobserveUnconfirmedDependencies h) ?_ ?_
  · intro e a' hr
    exact ⟨hr.1, fun _ hv => of_error_eq_ok hv⟩
  · intro u a' hr
    have herror' : ∀ e : AccountError, Steps env strict a₀ a' ∧ ∀ v : Unit,
        Except.error e = .ok v → a.SameCore a' ∧ ∃ operation,
          a.operations.get id = some operation ∧ operation.state = .proofReady :=
      fun _ => ⟨hr.1, fun _ hv => of_error_eq_ok hv⟩
    refine ends_reads_bind herror' ?_
    intro _ _
    refine ends_demand_bind herror' ?_
    intro _
    refine ends_demand_bind herror' ?_
    intro _
    refine (ends_lift _).mpr ⟨hr.1, ?_⟩
    intro _ _
    exact ⟨hr.2 u rfl, operation, hoperation, hready.1⟩

theorem ends_verifyMembers
    {context : Ctx}
    {members : List (Text × Member)}
    (h : Steps env strict a₀ a) :
    Ends (each members (fun (id, member) => verifyMember env world context id member)) a
      (fun r a' => Steps env strict a₀ a' ∧ ∀ v, r = .ok v → a.SameCore a' ∧
        ∀ id ∈ members.map Prod.fst, ∃ operation,
          a.operations.get id = some operation ∧ operation.state = .proofReady) := by
  induction members generalizing a with
  | nil =>
      exact ⟨h, fun _ _ => ⟨Account.SameCore.refl a, by simp⟩⟩
  | cons row rest ih =>
      obtain ⟨id, member⟩ := row
      refine Ends.bind (ends_verifyMember h) ?_ ?_
      · intro e a' hr
        exact ⟨hr.1, fun _ hv => of_error_eq_ok hv⟩
      · intro u a' hr
        obtain ⟨hsame, hready⟩ := hr.2 u rfl
        refine Ends.mono (ih hr.1) ?_
        intro r a'' hr'
        refine ⟨hr'.1, ?_⟩
        intro v hv
        obtain ⟨hsame', hrest⟩ := hr'.2 v hv
        refine ⟨hsame.trans hsame', ?_⟩
        rw [List.map_cons, List.forall_mem_cons]
        refine ⟨hready, ?_⟩
        rw [hsame.operations] at hrest
        exact hrest

/-- Marking reservations of one account as released, whatever else it holds. -/
def Releases (env : AccountEnv π) (strict : Prop) (before after : Table Text Reservation) :
    Prop :=
  ∀ a : Account, a.reservations = before → Steps env strict a { a with reservations := after }

/-- The members of a batch are signed and their reservations released, one after the other. -/
theorem ends_signMembers
    (env : AccountEnv π)
    (strict : Prop)
    (tx : Transaction)
    {ids : List Text}
    (hnodup : ids.Nodup) :
    Ends (each ids (fun id => do
        let _ ← reads (fun a => a.operation id)
        updateOperation id (Operation.signedWith env tx)
        modify (fun a => { a with
          reservations := a.reservations.modify id (fun row =>
            { row with state := .signatureReleased }) }))) a
      (fun r a' => ∀ v, r = .ok v → ∃ reservations,
        Releases env strict a.reservations reservations ∧
          a' = { a with
            operations := a.operations.modifyMany
              (ids.map (fun id => (id, Operation.signedWith env tx)))
            reservations := reservations }) := by
  induction ids generalizing a with
  | nil =>
      intro _ _
      refine ⟨a.reservations, ?_, by simp⟩
      intro b hb
      rw [← hb]
      exact Steps.refl b
  | cons id ids ih =>
      rw [List.nodup_cons] at hnodup
      rw [each, bind_assoc]
      refine ends_reads_bind (fun _ _ hv => of_error_eq_ok hv) ?_
      intro operation _
      rw [bind_assoc]
      refine ends_modify_bind (ends_modify_bind (Ends.mono (ih hnodup.2) ?_))
      intro r a' hr v hv
      obtain ⟨reservations, hreleases, rfl⟩ := hr v hv
      refine ⟨reservations, ?_, ?_⟩
      · intro b hb
        have hstep : Steps env strict b _ := (Steps.refl b).then (Step.releaseSignature id)
        rw [hb] at hstep
        exact hstep.trans (hreleases _ rfl)
      · have hids : id ∉ (ids.map (fun id => (id, Operation.signedWith env tx))).map Prod.fst := by
          simpa [Function.comp_def] using hnodup.1
        rw [List.map_cons, ← Table.modifyMany_modify hids]

/-- The rows of a batch and of its members, in whatever order they are written. -/
theorem Steps.rowsBatch
    {batchLocalId : Text}
    {batch : SendBatch}
    (h : Steps env strict a₀ a)
    (fs : List (Text × (Operation → Operation)))
    (g : SendBatch → SendBatch)
    (tx : Transaction)
    (hbatch : a.batches.get batchLocalId = some batch)
    (hready : batch.state = .proofReady ∨ batch.state.isReleased = true)
    (hreleased : (g batch).state.isReleased = true)
    (htx : (g batch).signedTx = some tx)
    (htxid : (g batch).txid = some (tx.txid env.sha256))
    (hkeys : fs.map Prod.fst = a.memberIds batchLocalId)
    (hrows : ∀ id f operation, (id, f) ∈ fs → a.operations.get id = some operation →
      RowStep env (if batch.state.isReleased then batch.txid else none) operation (f operation) ∧
        (f operation).state.isReleased = true ∧
          (f operation).txid = some (tx.txid env.sha256)) :
    Steps env strict a₀
      { a with
        operations := a.operations.modifyMany fs
        batches := a.batches.modify batchLocalId g } := by
  have hnodup : (fs.map Prod.fst).Nodup := by
    rw [hkeys]
    exact nodup_memberIds a batchLocalId
  refine h.then (Step.rowsBatch batchLocalId _ g tx hbatch hready hreleased htx htxid ?_ ?_ ?_)
  · intro id operation hoperation
    cases hf : fs.lookup id with
    | none =>
        exact RowStep.refl operation
    | some f =>
        exact (hrows id f operation ((Table.lookup_eq_some_iff hnodup).mp hf) hoperation).1
  · intro id operation member hoperation hmember hid
    have hmem : id ∈ fs.map Prod.fst := by
      rw [hkeys]
      exact mem_memberIds_iff.mpr ⟨member, hmember, hid⟩
    obtain ⟨⟨id', f⟩, hf, rfl⟩ := List.mem_map.mp hmem
    rw [(Table.lookup_eq_some_iff hnodup).mpr hf]
    exact (hrows id' f operation hf hoperation).2
  · intro id operation _ hother
    have hlookup : fs.lookup id = none := by
      cases hf : fs.lookup id with
      | none =>
          rfl
      | some f =>
          have hmem : id ∈ fs.map Prod.fst :=
            List.mem_map.mpr ⟨(id, f), (Table.lookup_eq_some_iff hnodup).mp hf, rfl⟩
          rw [hkeys] at hmem
          obtain ⟨member, hmember, hid⟩ := mem_memberIds_iff.mp hmem
          exact absurd hid (hother member hmember)
    rw [hlookup]
    rfl

theorem ends_persistSignedBatch
    {batchLocalId : Text}
    {batch : SendBatch}
    (world : World)
    (stock : Stock)
    (tx : Transaction)
    (h : Steps env strict a₀ a)
    (hbatch : a.batches.get batchLocalId = some batch)
    (hstate : batch.state = .proofReady)
    (hready : ∀ id ∈ a.memberIds batchLocalId, ∃ operation,
      a.operations.get id = some operation ∧ operation.state = .proofReady) :
    Ends (persistSignedBatch env world batchLocalId (a.memberIds batchLocalId) stock tx) a
      (fun r a' => Steps env strict a₀ a' ∧ ∀ v, r = .ok v → ∃ batch',
        a'.batches.get batchLocalId = some batch' ∧ batch'.state.isReleased = true) := by
  have herror : ∀ e : AccountError, Steps env strict a₀ a ∧ ∀ v : Unit,
      Except.error e = .ok v → ∃ batch', a.batches.get batchLocalId = some batch' ∧
        batch'.state.isReleased = true :=
    fun _ => ⟨h, fun _ hv => of_error_eq_ok hv⟩
  set g : SendBatch → SendBatch := fun batch =>
    { batch with
      state := .signedPersisted
      signedTx := some tx
      txid := some (tx.txid env.sha256)
      receipt := some batch.receiptOrEmpty }
  unfold persistSignedBatch
  refine ends_atomic.mpr (ends_lift_bind herror ?_)
  intro _ _
  refine ends_modify_bind (ends_modify_bind (Ends.bind
    (ends_signMembers env strict tx (nodup_memberIds a batchLocalId)) (fun e _ _ => herror e) ?_))
  intro u a₁ hr
  obtain ⟨reservations, hreleases, rfl⟩ := hr u rfl
  refine ends_demand_bind herror ?_
  intro _
  refine ⟨?_, ?_⟩
  · have hreserved : Steps env strict a₀ { a with reservations := reservations } :=
      h.trans (hreleases a rfl)
    have hrows := hreserved.rowsBatch
      ((a.memberIds batchLocalId).map (fun id => (id, Operation.signedWith env tx))) g tx hbatch
      (Or.inl hstate) rfl rfl rfl (by simp [Function.comp_def, Account.memberIds]; rfl) ?_
    · exact hrows.aside ⟨rfl, rfl, rfl, rfl, rfl, rfl, rfl, rfl, rfl, rfl⟩
    · intro id f operation hf hoperation
      obtain ⟨id', hid', heq⟩ := List.mem_map.mp hf
      obtain ⟨rfl, rfl⟩ := Prod.mk.inj heq
      obtain ⟨operation', hoperation', hproof⟩ := hready id' hid'
      obtain rfl := Option.some.inj (hoperation'.symm.trans hoperation)
      exact ⟨.signed hproof rfl rfl rfl rfl rfl (Or.inr rfl), rfl, rfl⟩
  · intro _ _
    refine ⟨g batch, ?_, rfl⟩
    show (a.batches.modify batchLocalId g).get batchLocalId = _
    rw [Table.get_modify_self, hbatch]
    rfl

/-- A released batch and its members are relayed. -/
theorem steps_relayBatch
    {batchLocalId : Text}
    {batch : SendBatch}
    {f : SendBatch → SendBatch}
    (h : Steps env strict a₀ a)
    (hbatch : a.batches.get batchLocalId = some batch)
    (hreleased : batch.state.isReleased = true)
    (hf : ∀ batch, (f batch).state = .broadcastUnobserved ∧ (f batch).signedTx = batch.signedTx ∧
      (f batch).txid = batch.txid) :
    Leaves (do
        updateBatch batchLocalId f
        updateMembers batchLocalId (fun operation =>
          { operation with state := .broadcastUnobserved })) a (Steps env strict a₀) := by
  have hmoved : (f batch).state.isReleased = true := by
    rw [(hf batch).1]
    rfl
  have hrow : Steps env strict a₀ { a with batches := a.batches.modify batchLocalId f } := by
    refine h.then (Step.batchRow batchLocalId f ?_)
    intro batch' hbatch'
    obtain rfl := Option.some.inj (hbatch.symm.trans hbatch')
    exact .moved hreleased hmoved (hf batch).2.1 (hf batch).2.2
  refine leaves_modify (leaves_iff.mpr (hrow.then (Step.forceMembers batchLocalId ?_ hmoved)))
  show (a.batches.modify batchLocalId f).get batchLocalId = _
  rw [Table.get_modify_self, hbatch]
  rfl

theorem steps_signAndBroadcastSendBatch
    {batchLocalId : Text}
    (h : Steps env strict a₀ a) :
    Leaves (signAndBroadcastSendBatch env world batchLocalId) a (Steps env strict a₀) := by
  unfold signAndBroadcastSendBatch
  refine leaves_reads h ?_
  intro _ _
  refine leaves_reads h ?_
  intro batch hbatch
  rw [sendBatch_eq_ok_iff] at hbatch
  refine leaves_demand h ?_
  intro hready
  have hstate : batch.state = .proofReady := beq_iff_eq.mp hready
  refine leaves_demand h ?_
  intro _
  refine leaves_lift h ?_
  intro proposalWire _
  refine leaves_lift h ?_
  intro _ _
  refine leaves_lift h ?_
  intro proposal _
  refine leaves_get (leaves_lift h ?_)
  intro requests _
  refine leaves_step (ends_orCancelBatch h) ?_
  rintro _ _ h₁ rfl
  refine leaves_step (ends_reviewMembers h₁) ?_
  intro _ a₂ h₂ hsame₂
  refine leaves_reads h₂ ?_
  rintro ⟨outpoint, stock⟩ _
  refine leaves_demand h₂ ?_
  intro _
  refine leaves_lift h₂ ?_
  intro _ _
  refine leaves_step (ends_verifyMembers h₂) ?_
  rintro _ a₃ h₃ ⟨hsame₃, hproofs⟩
  have hsame := hsame₂.trans hsame₃
  refine leaves_lift h₃ ?_
  rintro ⟨tx, fee⟩ _
  refine leaves_demand h₃ ?_
  intro _
  have hids : a₃.memberIds batchLocalId = a.memberIds batchLocalId := by
    unfold Account.memberIds Account.sendBatchMembers
    rw [hsame.members]
  have hbatch₃ : a₃.batches.get batchLocalId = some batch := by
    rw [hsame.batches]
    exact hbatch
  have hproofs₃ : ∀ id ∈ a₃.memberIds batchLocalId, ∃ operation,
      a₃.operations.get id = some operation ∧ operation.state = .proofReady := by
    rw [hids, hsame₃.operations]
    exact hproofs
  have hpersist := ends_persistSignedBatch world stock tx h₃ hbatch₃ hstate hproofs₃
  rw [hids] at hpersist
  refine leaves_step hpersist ?_
  rintro _ a₄ h₄ ⟨batch', hbatch', hreleased⟩
  have happlied : Steps env strict a₀ { a₄ with bitcoin := a₄.bitcoin.applyUnconfirmedTx tx } :=
    h₄.aside ⟨rfl, rfl, rfl, rfl, rfl, rfl, rfl, rfl, rfl, rfl⟩
  refine leaves_modify (leaves_lift happlied ?_)
  intro _ _
  exact steps_relayBatch happlied hbatch' hreleased (fun _ => ⟨rfl, rfl, rfl⟩)

end Batch

end OpenCsv
