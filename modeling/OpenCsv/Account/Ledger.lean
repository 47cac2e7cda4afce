import OpenCsv.Account.Rebuild
import OpenCsv.Account.TraceRun
import OpenCsv.Lib.Ledger

/-!
# The production issuance ledger

An authorization is admitted as the next row of its asset: the latest row is found by
the order of padded decimal texts, which is the order of the numbers.  A restore
validates every row of a checkpoint in the same way before it imports any.

**Results.** `production_issuance_ledger`: after every run of calls, restarts and
restores the authorizations of an asset are numbered without gap, chain their supplies,
are signed by enough distinct keys of the policy, and stay below its cap.
-/

namespace OpenCsv

open Call Ledger

variable {π : Type}
variable {env : AccountEnv π}

section Texts

theorem encodeU64Decimal_le_iff
    (m n : UInt64) :
    (encodeU64Decimal m).le (encodeU64Decimal n) = true ↔ m ≤ n := by
  have hm : m.toNat < 10 ^ 20 := lt_trans m.toNat_lt (by norm_num)
  have hn : n.toNat < 10 ^ 20 := lt_trans n.toNat_lt (by norm_num)
  rw [UInt64.le_iff_toNat_le]
  show bytesLe (decimalDigits 20 m.toNat) (decimalDigits 20 n.toNat) = true ↔ _
  rw [bytesLe_digits_iff, Nat.mod_eq_of_lt hm, Nat.mod_eq_of_lt hn]

/-- A padded decimal is read back as the number. -/
theorem decodeU64Decimal_encode
    (n : UInt64)
    (field : String) :
    decodeU64Decimal (encodeU64Decimal n) field = .ok n := by
  have hn : n.toNat < 10 ^ 20 := lt_trans n.toNat_lt (by norm_num)
  have hvalue : decimalValue (encodeU64Decimal n).bytes = n.toNat := by
    show decimalValue (decimalDigits 20 n.toNat) = n.toNat
    rw [decimalValue_digits, Nat.mod_eq_of_lt hn]
  have hdigits : ((encodeU64Decimal n).bytes.length == 20 &&
      (encodeU64Decimal n).bytes.all isDecimalDigit) = true := by
    rw [Bool.and_eq_true]
    constructor
    · show ((decimalDigits 20 n.toNat).length == 20) = true
      simp
    · rw [List.all_eq_true]
      exact isDecimalDigit_decimalDigits
  have hrange : decide (decimalValue (encodeU64Decimal n).bytes < 2 ^ 64) = true := by
    rw [hvalue, decide_eq_true_eq]
    exact n.toNat_lt
  simp only [decodeU64Decimal, require, hdigits, hrange, if_true]
  show Except.ok (UInt64.ofNat (decimalValue (encodeU64Decimal n).bytes)) = _
  rw [hvalue, UInt64.ofNat_toNat]

end Texts

section Rows

/-- What the ledger reads of an admitted row. -/
def ledgerColumns : Columns AdmittedRow where
  number := fun row => row.authorization.sequence.toNat
  before := fun row => row.authorization.supplyBeforeBaseUnits.toNat
  after := fun row => row.authorization.supplyAfterBaseUnits.toNat

/-- The admitted authorizations of an asset, oldest first. -/
def Account.admitted (a : Account) (assetId : Text) : List AdmittedRow :=
  (a.issuance.rows.map Prod.snd).filter (fun row => row.assetId == assetId)

/-- A row under an id is the row of its authorization, which its asset's policy grants. -/
structure AdmittedUnder (env : AccountEnv π) (id : Text) (row : AdmittedRow) : Prop where
  granted : ∃ policy,
    env.config.productionIssuancePolicies.find? (fun policy =>
      policy.assetId == row.assetId) = some policy ∧
      AuthorizedMint env.issuance policy row.authorization ∧
      row = admittedRow policy row.authorization id row.createdAt
  id_eq : row.authorization.authorizationIdSha256 = id

/-- The invariant of the ledger. -/
structure Account.LedgerSound (env : AccountEnv π) (a : Account) : Prop where
  rows : ∀ id row, a.issuance.get id = some row →
    AdmittedUnder env id row ∧ a.operations.has id = true
  chained : ∀ assetId, Chained ledgerColumns (a.admitted assetId)

variable {a : Account}
variable {id assetId : Text}
variable {row : AdmittedRow}

theorem Account.mem_admitted
    (h : row ∈ a.admitted assetId) :
    row.assetId = assetId ∧ ∃ id, a.issuance.get id = some row := by
  obtain ⟨hmem, hasset⟩ := List.mem_filter.mp h
  obtain ⟨⟨id, row⟩, hrow, rfl⟩ := List.mem_map.mp hmem
  exact ⟨by simpa using hasset, id, Table.mem_rows_iff.mp hrow⟩

theorem AdmittedUnder.sequence_eq
    (h : AdmittedUnder env id row) :
    row.sequenceDecimal = encodeU64Decimal row.authorization.sequence := by
  obtain ⟨policy, -, -, heq⟩ := h.granted
  rw [heq]
  rfl

theorem AdmittedUnder.supplyBefore_eq
    (h : AdmittedUnder env id row) :
    row.supplyBeforeDecimal = encodeU64Decimal row.authorization.supplyBeforeBaseUnits := by
  obtain ⟨policy, -, -, heq⟩ := h.granted
  rw [heq]
  rfl

theorem AdmittedUnder.supplyAfter_eq
    (h : AdmittedUnder env id row) :
    row.supplyAfterDecimal = encodeU64Decimal row.authorization.supplyAfterBaseUnits := by
  obtain ⟨policy, -, -, heq⟩ := h.granted
  rw [heq]
  rfl

/-- The exact sum of the outputs of an admitted row. -/
def AdmittedRow.amount (row : AdmittedRow) : ℕ :=
  (row.authorization.amounts.map UInt64.toNat).sum

/-- The checkpoint of an account with a sound ledger can be exported. -/
theorem Account.LedgerSound.currentHash
    (h : a.LedgerSound env) :
    ∃ hash, a.currentHash env = .ok hash := by
  have hexported : ∃ issuance, a.exportedIssuance = .ok issuance := by
    refine exists_mapM_eq_ok ?_
    rintro ⟨id, row⟩ hrow
    have hmem : (id, row) ∈ a.issuance.rows := (List.mem_insertionSort _).mp hrow
    obtain ⟨hunder, -⟩ := h.rows id row (Table.mem_rows_iff.mp hmem)
    simp only [exportedAuthorization, hunder.sequence_eq, hunder.supplyBefore_eq,
      hunder.supplyAfter_eq, decodeU64Decimal_encode]
    exact ⟨_, rfl⟩
  obtain ⟨issuance, hissuance⟩ := hexported
  simp only [Account.currentHash, Account.checkpoint, hissuance]
  exact ⟨_, rfl⟩

namespace Account.LedgerSound

theorem of_mem
    (h : a.LedgerSound env)
    (hrow : row ∈ a.admitted assetId) :
    ∃ id, AdmittedUnder env id row := by
  obtain ⟨-, id, hget⟩ := Account.mem_admitted hrow
  exact ⟨id, (h.rows id row hget).1⟩

theorem after_eq
    (h : a.LedgerSound env)
    (hrow : row ∈ a.admitted assetId) :
    ledgerColumns.after row = ledgerColumns.before row + row.amount := by
  obtain ⟨id, hunder⟩ := h.of_mem hrow
  obtain ⟨policy, -, hauthorized, -⟩ := hunder.granted
  exact hauthorized.supply_exact

/-- The row with the greatest sequence text is the latest one. -/
theorem priorRow_eq
    (h : a.LedgerSound env)
    (assetId : Text) :
    priorRow a assetId = (a.admitted assetId).getLast? := by
  have htotal : Std.Total (fun r r' : AdmittedRow => sequenceGe r r' = true) :=
    ⟨fun r r' => bytesLe_total r'.sequenceDecimal.bytes r.sequenceDecimal.bytes⟩
  have htrans : IsTrans AdmittedRow (fun r r' => sequenceGe r r' = true) :=
    ⟨fun _ _ _ h h' => bytesLe_trans h' h⟩
  have hperm := List.perm_insertionSort (fun r r' : AdmittedRow => sequenceGe r r' = true)
    (a.admitted assetId)
  have hsorted := List.pairwise_insertionSort (fun r r' : AdmittedRow => sequenceGe r r' = true)
    (a.admitted assetId)
  show ((a.admitted assetId).insertionSort (fun r r' => sequenceGe r r' = true)).head? = _
  cases hsort : (a.admitted assetId).insertionSort (fun r r' => sequenceGe r r' = true) with
  | nil =>
      rw [hsort] at hperm
      rw [List.nil_perm.mp hperm]
      rfl
  | cons first rest =>
      rw [hsort] at hperm hsorted
      have hfirst : first ∈ a.admitted assetId := hperm.mem_iff.mp List.mem_cons_self
      refine ((h.chained assetId).getLast_of_max hfirst ?_).symm
      intro row hrow
      obtain ⟨id, hunder⟩ := h.of_mem hrow
      obtain ⟨id', hunder'⟩ := h.of_mem hfirst
      rcases List.mem_cons.mp (hperm.mem_iff.mpr hrow) with rfl | hrest
      · exact le_refl _
      · have hge := List.rel_of_pairwise_cons hsorted hrest
        unfold sequenceGe at hge
        rw [hunder.sequence_eq, hunder'.sequence_eq, encodeU64Decimal_le_iff] at hge
        exact UInt64.le_iff_toNat_le.mp hge

/-- An authorization that continues the ledger has the next number and starts from the total. -/
theorem continues
    (h : a.LedgerSound env)
    {authorization : ProductionMintAuthorization}
    (hcontinues : continuesLedger authorization a = .ok ()) :
    authorization.sequence.toNat = (a.admitted authorization.assetId).length + 1 ∧
      authorization.supplyBeforeBaseUnits.toNat =
        ledgerColumns.total (a.admitted authorization.assetId) := by
  simp only [continuesLedger, except_bind_eq_ok_iff, require_eq_ok_iff, beq_iff_eq] at hcontinues
  obtain ⟨⟨sequence, supply⟩, hfloor, -, hsequence, hsupply⟩ := hcontinues
  rw [hsequence, hsupply]
  have hprior := h.priorRow_eq authorization.assetId
  unfold expectedFloor at hfloor
  cases hlast : priorRow a authorization.assetId with
  | none =>
      rw [hlast] at hfloor hprior
      obtain ⟨rfl, rfl⟩ := Prod.mk.inj (Except.ok.inj hfloor)
      rw [List.getLast?_eq_none_iff.mp hprior.symm]
      exact ⟨rfl, rfl⟩
  | some prior =>
      rw [hlast] at hfloor hprior
      obtain ⟨id, hunder⟩ := h.of_mem (List.mem_of_getLast? hprior.symm)
      simp only [hunder.sequence_eq, hunder.supplyAfter_eq, decodeU64Decimal_encode,
        except_bind_eq_ok_iff, okOr_eq_ok_iff, Except.ok.injEq, exists_eq_left', pure,
        Except.pure, Prod.mk.injEq] at hfloor
      obtain ⟨next, hnext, rfl, rfl⟩ := hfloor
      have hnumber := (h.chained authorization.assetId).number_getLast hprior.symm
      constructor
      · rw [toNat_of_checkedAdd hnext, ← hnumber]
        rfl
      · rw [Columns.total, ← hprior]
        rfl

end Account.LedgerSound

/-- A new row is the latest one of its asset and belongs to no other. -/
theorem Account.admitted_insert
    {a' : Account}
    (hissuance : a'.issuance = a.issuance.insert id row)
    (hnew : a.issuance.get id = none) :
    a'.admitted assetId =
      if row.assetId = assetId then a.admitted assetId ++ [row] else a.admitted assetId := by
  unfold Account.admitted
  rw [hissuance, Table.rows_insert_of_none hnew, List.map_append, List.filter_append]
  by_cases hasset : row.assetId = assetId
  · simp [hasset]
  · simp [hasset]

/-- A row that continues its asset may be added. -/
theorem Account.LedgerSound.insert
    {a' : Account}
    (h : a.LedgerSound env)
    (hissuance : a'.issuance = a.issuance.insert id row)
    (hnew : a.issuance.get id = none)
    (hunder : AdmittedUnder env id row)
    (hnumber : ledgerColumns.number row = (a.admitted row.assetId).length + 1)
    (hbefore : ledgerColumns.before row = ledgerColumns.total (a.admitted row.assetId))
    (hoperation : a'.operations.has id = true)
    (hoperations : ∀ id, a.operations.has id = true → a'.operations.has id = true) :
    a'.LedgerSound env where
  rows := by
    intro id' row' hrow
    rw [hissuance, Table.get_insert] at hrow
    split_ifs at hrow with hid
    · subst hid
      rw [hnew, Option.getD_none, Option.some.injEq] at hrow
      subst hrow
      exact ⟨hunder, hoperation⟩
    · obtain ⟨hunder', hoperation'⟩ := h.rows id' row' hrow
      exact ⟨hunder', hoperations id' hoperation'⟩
  chained := by
    intro assetId
    rw [Account.admitted_insert hissuance hnew]
    split_ifs with hasset
    · subst hasset
      exact Chained.concat (h.chained row.assetId) hnumber hbefore
    · exact h.chained assetId

end Rows

section Steps

variable {strict : Prop}
variable {a a' a'' : Account}

/-- The ledger and the registry floor are untouched and no operation disappears. -/
structure Account.KeepsLedger (a a' : Account) : Prop where
  issuance : a'.issuance = a.issuance
  operations : ∀ id, a.operations.has id = true → a'.operations.has id = true
  registry : a'.registryFloor = a.registryFloor ∧ a'.registryState = a.registryState

theorem Account.KeepsLedger.refl
    (a : Account) :
    a.KeepsLedger a :=
  ⟨rfl, fun _ h => h, rfl, rfl⟩

theorem Account.KeepsLedger.trans
    (h : a.KeepsLedger a')
    (h' : a'.KeepsLedger a'') :
    a.KeepsLedger a'' :=
  ⟨h'.issuance.trans h.issuance, fun id hid => h'.operations id (h.operations id hid),
    h'.registry.1.trans h.registry.1, h'.registry.2.trans h.registry.2⟩

theorem Account.KeepsLedger.of_modifyAll
    (f : Text → Operation → Operation)
    (hissuance : a'.issuance = a.issuance)
    (hoperations : a'.operations = a.operations.modifyAll f)
    (hregistry : a'.registryFloor = a.registryFloor ∧ a'.registryState = a.registryState := by
      exact ⟨rfl, rfl⟩) :
    a.KeepsLedger a' := by
  refine ⟨hissuance, ?_, hregistry⟩
  intro id hid
  obtain ⟨operation, hget⟩ := Table.has_eq_true_iff.mp hid
  rw [hoperations, Table.has_eq_true_iff]
  exact ⟨f id operation, by rw [Table.get_modifyAll, hget, Option.map_some]⟩

theorem Account.KeepsLedger.of_modify
    (id : Text)
    (f : Operation → Operation)
    (hissuance : a'.issuance = a.issuance)
    (hoperations : a'.operations = a.operations.modify id f)
    (hregistry : a'.registryFloor = a.registryFloor ∧ a'.registryState = a.registryState := by
      exact ⟨rfl, rfl⟩) :
    a.KeepsLedger a' :=
  .of_modifyAll _ hissuance hoperations hregistry

theorem Account.KeepsLedger.of_insert
    {id : Text}
    {operation : Operation}
    (hissuance : a'.issuance = a.issuance)
    (hoperations : a'.operations = a.operations.insert id operation)
    (hregistry : a'.registryFloor = a.registryFloor ∧ a'.registryState = a.registryState := by
      exact ⟨rfl, rfl⟩) :
    a.KeepsLedger a' := by
  refine ⟨hissuance, ?_, hregistry⟩
  intro id' hid
  obtain ⟨operation', hget⟩ := Table.has_eq_true_iff.mp hid
  rw [hoperations, Table.has_eq_true_iff, Table.get_insert]
  split_ifs with heq
  · exact ⟨_, rfl⟩
  · exact ⟨operation', hget⟩

theorem Account.KeepsLedger.of_eq
    (hissuance : a'.issuance = a.issuance)
    (hoperations : a'.operations = a.operations)
    (hregistry : a'.registryFloor = a.registryFloor ∧ a'.registryState = a.registryState := by
      exact ⟨rfl, rfl⟩) :
    a.KeepsLedger a' :=
  ⟨hissuance, fun _ h => hoperations ▸ h, hregistry⟩

theorem Account.LedgerSound.of_rows
    (h : a.LedgerSound env)
    (hissuance : a'.issuance = a.issuance)
    (hoperations : ∀ id, a.operations.has id = true → a'.operations.has id = true) :
    a'.LedgerSound env where
  rows := by
    intro id row hrow
    rw [hissuance] at hrow
    obtain ⟨hunder, hoperation⟩ := h.rows id row hrow
    exact ⟨hunder, hoperations id hoperation⟩
  chained := by
    intro assetId
    show Chained ledgerColumns ((a'.issuance.rows.map Prod.snd).filter _)
    rw [hissuance]
    exact h.chained assetId

theorem Account.LedgerSound.of_keeps
    (h : a.LedgerSound env)
    (hkeeps : a.KeepsLedger a') :
    a'.LedgerSound env :=
  h.of_rows hkeeps.issuance hkeeps.operations

theorem Account.keepsLedger_dropPending
    (a : Account)
    (id : Text) :
    a.KeepsLedger (a.dropPending id) := by
  unfold Account.dropPending
  split
  · exact .refl a
  · exact .of_eq rfl rfl

theorem keepsLedger_updateOperation
    {id : Text}
    {f : Operation → Operation}
    {a₀ : Account}
    (h : a₀.KeepsLedger a) :
    Leaves (updateOperation id f) a a₀.KeepsLedger :=
  h.trans (.of_modify id f rfl rfl)

theorem keepsLedger_updateMembers
    (batchLocalId : Text)
    (f : Operation → Operation) :
    Leaves (updateMembers batchLocalId f) a a.KeepsLedger :=
  .of_modifyAll (fun id operation =>
    if (a.members.get id).any (fun member => member.batchLocalId == batchLocalId) then
      f operation
    else
      operation) rfl rfl

theorem keepsLedger_releaseFeeReservation
    {id : Text}
    {a₀ : Account}
    (h : a₀.KeepsLedger a) :
    Leaves (releaseFeeReservation id) a a₀.KeepsLedger := by
  unfold releaseFeeReservation
  refine leaves_get (leaves_demand h ?_)
  intro _
  refine leaves_reads h ?_
  intro operation _
  exact h.trans (.of_eq rfl rfl)

theorem keepsLedger_cancelOperation
    {id : Text}
    {a₀ : Account}
    (h : a₀.KeepsLedger a) :
    Leaves (cancelOperation id) a a₀.KeepsLedger := by
  unfold cancelOperation
  refine leaves_reads h ?_
  intro operation _
  refine leaves_demand h ?_
  intro _
  refine leaves_ite (fun _ => h) ?_
  intro _
  have hlease : a₀.KeepsLedger { a with
      activeProof := if a.activeProof = some id then none else a.activeProof } :=
    h.trans (.of_eq rfl rfl)
  refine leaves_modify (leaves_modify ?_)
  refine Leaves.bind
    (keepsLedger_releaseFeeReservation (hlease.trans (Account.keepsLedger_dropPending _ id)))
      (fun _ h' => h') ?_
  intro _ a' h'
  exact keepsLedger_updateOperation h'

theorem keepsLedger_cancelSendBatch
    {batchLocalId : Text} :
    Leaves (cancelSendBatch batchLocalId) a a.KeepsLedger := by
  have hself := Account.KeepsLedger.refl a
  unfold cancelSendBatch
  refine leaves_reads hself ?_
  intro batch _
  refine leaves_ite (fun _ => hself) ?_
  intro _
  refine leaves_demand hself ?_
  intro _
  refine leaves_modify (leaves_get ?_)
  refine Leaves.bind (leaves_each (Q := a.KeepsLedger) (.of_eq rfl rfl) ?_) (fun _ h => h) ?_
  · intro id _ a' h'
    exact keepsLedger_cancelOperation h'
  · intro _ a' h'
    exact h'.trans (.of_eq rfl rfl)

theorem keepsLedger_closeOperation
    {id reason : Text} :
    Leaves (closeOperation id reason) a a.KeepsLedger := by
  unfold closeOperation
  refine leaves_modify ?_
  refine Leaves.bind (keepsLedger_releaseFeeReservation (Account.keepsLedger_dropPending a id))
    (fun _ h => h) ?_
  intro _ a' h'
  exact keepsLedger_updateOperation h'

/-- Only an admission writes the ledger. -/
theorem Step.ledgerSound
    (h : Step env strict a a')
    (ha : a.LedgerSound env) :
    a'.LedgerSound env := by
  cases h with
  | aside hsame =>
      exact ha.of_keeps (.of_eq hsame.issuance hsame.operations
        ⟨hsame.registryFloor, hsame.registryState⟩)
  | rows f _ => exact ha.of_keeps (.of_modifyAll f rfl rfl)
  | rowsBatch batchLocalId f g tx _ _ _ _ _ _ _ _ => exact ha.of_keeps (.of_modifyAll f rfl rfl)
  | forceMembers batchLocalId _ _ =>
      exact ha.of_keeps (leaves_iff.mp (keepsLedger_updateMembers batchLocalId _))
  | plan id _ => exact ha.of_keeps (.of_insert rfl rfl)
  | @authorize request nonce time policy authorization hfresh hnew hcontinues hpolicy hauthorized =>
      obtain ⟨hnumber, hbefore⟩ := ha.continues hcontinues
      refine ha.insert rfl hnew ⟨⟨policy, hpolicy, hauthorized, rfl⟩, rfl⟩ hnumber hbefore ?_ ?_
      · rw [Table.has_eq_true_iff]
        exact ⟨_, Table.get_insert_self_of_none hfresh⟩
      · have hinsert : a.KeepsLedger { a with
            operations := a.operations.insert authorization.authorizationIdSha256
              (plannedOperation (.mint request) nonce time) } :=
          .of_insert rfl rfl
        exact hinsert.operations
  | join id _ _ _ _ => exact ha.of_keeps (.of_insert rfl rfl)
  | reserve id funding _ _ _ => exact ha.of_keeps (.of_modify id _ rfl (by rw [Account.reserve]))
  | cancelOperation id =>
      exact ha.of_keeps (leaves_iff.mp (keepsLedger_cancelOperation (.refl a)))
  | cancelSendBatch batchLocalId =>
      exact ha.of_keeps (leaves_iff.mp keepsLedger_cancelSendBatch)
  | close id reason _ _ => exact ha.of_keeps (leaves_iff.mp keepsLedger_closeOperation)
  | ready id text f _ _ _ _ _ _ _ _ _ _ _ => exact ha.of_keeps (.of_modify id f rfl rfl)
  | finalize world id txid state _ _ _ _ _ => exact ha.of_keeps (.of_modify id _ rfl (by rw [Account.storeDelivery]))
  | _ => exact ha.of_keeps (.of_eq rfl rfl)

end Steps

section Restores

variable {a : Account}
variable {checkpoint : Checkpoint}
variable {earlier : List BackupAuthorization}
variable {admitted : BackupAuthorization}

/-- Every row passed its check against the rows before it. -/
theorem checkEach_spec
    {α : Type}
    {check : List α → α → Except AccountError Unit}
    {earlier xs done rest : List α}
    {x : α}
    {u : Unit}
    (h : checkEach check earlier xs = .ok u)
    (hxs : xs = done ++ x :: rest) :
    check (earlier ++ done) x = .ok () := by
  induction done generalizing earlier xs with
  | nil =>
      rw [hxs, List.nil_append, checkEach, except_bind_eq_ok_iff] at h
      rw [List.append_nil]
      exact h.choose_spec.1
  | cons y done ih =>
      rw [hxs, List.cons_append, checkEach, except_bind_eq_ok_iff] at h
      obtain ⟨-, -, hrest⟩ := h
      rw [List.append_cons]
      exact ih hrest rfl

/-- What the validation of an imported authorization finds. -/
structure Continues
    (env : AccountEnv π)
    (checkpoint : Checkpoint)
    (earlier : List BackupAuthorization)
    (admitted : BackupAuthorization) : Prop where
  operation : ∃ row ∈ checkpoint.operations, row.1 = admitted.authorizationIdSha256
  operationId : admitted.operationId = admitted.authorizationIdSha256
  fresh : admitted.authorizationIdSha256 ∉
    earlier.map BackupAuthorization.authorizationIdSha256
  agrees : authorizationAgrees admitted = true
  sequence : admitted.sequence.toNat = (supplyFloor earlier admitted.assetId).1.toNat + 1
  supply : admitted.supplyBeforeBaseUnits = (supplyFloor earlier admitted.assetId).2
  granted : ∃ policy,
    env.config.productionIssuancePolicies.find? (fun policy =>
      policy.assetId == admitted.assetId) = some policy ∧
      AuthorizedMint env.issuance policy admitted.authorization ∧
      policy.commitmentSha256 = admitted.policyCommitmentSha256

theorem checkAuthorization_spec
    {u : Unit}
    (h : checkAuthorization env checkpoint earlier admitted = .ok u) :
    Continues env checkpoint earlier admitted := by
  simp only [checkAuthorization, except_bind_eq_ok_iff, require_eq_ok_iff, okOr_eq_ok_iff,
    mapError_eq_ok_iff] at h
  obtain ⟨-, -, -, -, -, hidentity, ⟨id, operation⟩, hoperation, request, -, -, hagrees, expected,
    hexpected, -, hfloor, release, -, reference, -, policy, hpolicy, -, hnames, digest, hverified,
    -⟩ := h
  simp only [Bool.and_eq_true, beq_iff_eq, Bool.not_eq_true', List.contains_eq_mem,
    decide_eq_false_iff_not] at hidentity hagrees hfloor hnames
  have hid : id = admitted.operationId := by simpa using List.find?_some hoperation
  refine
    { operation := ⟨(id, operation), List.mem_of_find?_eq_some hoperation,
        hid.trans hidentity.1.1.2⟩
      operationId := hidentity.1.1.2
      fresh := hidentity.1.2
      agrees := hagrees.2
      sequence := ?_
      supply := hfloor.2
      granted := ⟨policy, hpolicy, verifyProductionMintAuthorization_spec hverified, ?_⟩ }
  · rw [hfloor.1, toNat_of_checkedAdd hexpected]
    rfl
  · rw [hnames.2]
    exact commitment_of_verified hverified

/-- The ledger holds exactly the imported rows. -/
structure Account.Imports (a : Account) (earlier : List BackupAuthorization) : Prop where
  rows : a.issuance.rows = earlier.map (fun admitted =>
    (admitted.authorizationIdSha256, importedAuthorization admitted))
  agrees : ∀ admitted ∈ earlier, authorizationAgrees admitted = true

theorem Account.Imports.admitted_eq
    (h : a.Imports earlier)
    (assetId : Text) :
    a.admitted assetId =
      (earlier.filter (fun row => row.assetId == assetId)).map importedAuthorization := by
  unfold Account.admitted
  rw [h.rows, List.map_map, List.filter_map]
  rfl

/-- The floor of the validation is the last row of the imported ledger. -/
theorem Account.Imports.floor
    (h : a.Imports earlier)
    (hsound : a.LedgerSound env)
    (assetId : Text) :
    (supplyFloor earlier assetId).1.toNat = (a.admitted assetId).length ∧
      (supplyFloor earlier assetId).2.toNat = ledgerColumns.total (a.admitted assetId) := by
  have hchained := hsound.chained assetId
  unfold supplyFloor
  cases hlast : (earlier.filter (fun row => row.assetId == assetId)).getLast? with
  | none =>
      rw [h.admitted_eq, List.getLast?_eq_none_iff.mp hlast]
      exact ⟨rfl, rfl⟩
  | some prior =>
      have hprior : (a.admitted assetId).getLast? = some (importedAuthorization prior) := by
        rw [h.admitted_eq, List.getLast?_map, hlast, Option.map_some]
      have hagrees := h.agrees prior (List.mem_filter.mp (List.mem_of_getLast? hlast)).1
      simp only [authorizationAgrees, Bool.and_eq_true, beq_iff_eq] at hagrees
      constructor
      · show prior.sequence.toNat = _
        rw [← hchained.number_getLast hprior, hagrees.1.1.1.1.2]
        rfl
      · show prior.supplyAfterBaseUnits.toNat = _
        rw [Columns.total, hprior, hagrees.2]
        rfl

/-- An imported row is the row of its authorization. -/
theorem Continues.admittedUnder
    (h : Continues env checkpoint earlier admitted) :
    AdmittedUnder env admitted.authorizationIdSha256 (importedAuthorization admitted) := by
  have hagrees := h.agrees
  simp only [authorizationAgrees, Bool.and_eq_true, beq_iff_eq] at hagrees
  obtain ⟨policy, hpolicy, hauthorized, hcommitment⟩ := h.granted
  refine ⟨⟨policy, hpolicy, hauthorized, ?_⟩, hagrees.1.1.1.2.symm⟩
  simp only [importedAuthorization, admittedRow, AdmittedRow.mk.injEq, and_true, true_and]
  exact ⟨hagrees.1.1.1.1.1, by rw [hagrees.1.1.1.1.2], hcommitment.symm, by rw [hagrees.1.2],
    by rw [hagrees.2], h.operationId⟩

/-- A validated row may be imported after the rows before it. -/
theorem Account.Imports.insert
    (h : a.Imports earlier)
    (hsound : a.LedgerSound env)
    (hoperations : ∀ row ∈ checkpoint.operations, a.operations.has row.1 = true)
    (hcontinues : Continues env checkpoint earlier admitted)
    {a' : Account}
    (ha' : a' = { a with
      issuance := a.issuance.insert admitted.authorizationIdSha256
        (importedAuthorization admitted) }) :
    a'.Imports (earlier ++ [admitted]) ∧ a'.LedgerSound env := by
  have hnew : a.issuance.get admitted.authorizationIdSha256 = none := by
    rw [Table.get_eq_none_iff, h.rows, List.map_map]
    exact hcontinues.fresh
  have hagrees := hcontinues.agrees
  simp only [authorizationAgrees, Bool.and_eq_true, beq_iff_eq] at hagrees
  obtain ⟨hnumber, htotal⟩ := h.floor hsound admitted.assetId
  obtain ⟨row, hrow, hid⟩ := hcontinues.operation
  subst ha'
  constructor
  · refine ⟨?_, ?_⟩
    · show (a.issuance.insert _ _).rows = _
      rw [Table.rows_insert_of_none hnew, h.rows, List.map_append, List.map_singleton]
    · intro other hother
      rcases List.mem_append.mp hother with hearlier | hlast
      · exact h.agrees other hearlier
      · rw [List.mem_singleton.mp hlast]
        exact hcontinues.agrees
  · refine hsound.insert rfl hnew hcontinues.admittedUnder ?_ ?_ ?_ (fun _ hid => hid)
    · show admitted.authorization.sequence.toNat = _
      rw [← hagrees.1.1.1.1.2, hcontinues.sequence, hnumber]
      rfl
    · show admitted.authorization.supplyBeforeBaseUnits.toNat = _
      rw [← hagrees.1.2, hcontinues.supply, htotal]
      rfl
    · rw [← hid]
      exact hoperations row hrow

/-- The row of an operation that was just imported. -/
def importedRow (world : World) (row : Text × Operation) : Text × Operation :=
  (row.1, { row.2 with createdAt := world.now })

/-- Exactly these operations are stored, and nothing is admitted yet. -/
def Account.Stores (a : Account) (world : World) (operations : List (Text × Operation)) : Prop :=
  a.issuance = Table.empty ∧ a.operations.rows = operations.map (importedRow world)

theorem yields_importOperation
    {world : World}
    {row : Text × Operation}
    {done : List (Text × Operation)}
    (h : a.Stores world done) :
    Yields (importOperation world row) a (fun _ a' => a'.Stores world (done ++ [row])) := by
  unfold importOperation
  refine yields_demand ?_
  intro _
  refine yields_get (yields_demand ?_)
  intro hfresh
  have hstored : Account.Stores { a with
      operations := a.operations.insert row.1 { row.2 with createdAt := world.now } }
      world (done ++ [row]) := by
    refine ⟨h.1, ?_⟩
    have hnone : a.operations.get row.1 = none := by
      simpa [Table.has] using hfresh
    show (a.operations.insert row.1 _).rows = _
    rw [Table.rows_insert_of_none hnone, h.2, List.map_append, List.map_singleton]
    rfl
  refine yields_modify ?_
  cases row.2.funding with
  | none => exact yields_pure hstored
  | some funding =>
      refine yields_get (yields_demand ?_)
      intro _ _ _
      exact hstored

/-- What a successful import has written into the ledger and the operations. -/
structure Account.Imported
    (env : AccountEnv π)
    (world : World)
    (checkpoint : Checkpoint)
    (a : Account) : Prop where
  ledger : a.LedgerSound env
  operations : a.operations.rows = checkpoint.operations.map (importedRow world)

theorem Account.Imported.of_eq
    {world : World}
    {a' : Account}
    (h : a.Imported env world checkpoint)
    (hissuance : a'.issuance = a.issuance)
    (hoperations : a'.operations = a.operations) :
    a'.Imported env world checkpoint :=
  ⟨h.ledger.of_rows hissuance (fun _ hid => hoperations ▸ hid), hoperations ▸ h.operations⟩

theorem empty_of_isClean
    (h : a.isClean = true) :
    a.issuance = Table.empty ∧ a.operations = Table.empty := by
  simp only [Account.isClean, Bool.and_eq_true, List.isEmpty_iff] at h
  exact ⟨Table.eq_empty_of_rows h.2, Table.eq_empty_of_rows h.1.1.1.1.1.1.2⟩

theorem issuance_of_checkTables
    {u : Unit}
    (h : checkTables env checkpoint = .ok u) :
    checkEach (checkAuthorization env checkpoint) [] checkpoint.issuance = .ok () := by
  simp only [checkTables, except_bind_eq_ok_iff] at h
  obtain ⟨_, -, _, -, _, -, _, hissuance, -⟩ := h
  exact hissuance

/-- An import that succeeds leaves a sound ledger and the operations of the checkpoint. -/
theorem yields_importRows
    {world : World}
    (hclean : a.issuance = Table.empty ∧ a.operations = Table.empty)
    (hchecked : checkEach (checkAuthorization env checkpoint) [] checkpoint.issuance = .ok ()) :
    Yields (importRows env world checkpoint) a (fun _ a' => a'.Imported env world checkpoint) := by
  have hempty : a.Stores world [] := ⟨hclean.1, by rw [hclean.2]; rfl⟩
  unfold importRows
  refine Yields.bind (yields_each_of (I := fun a' : Account => a'.Stores world []) hempty ?_) ?_
  · intro row _ a' h'
    refine yields_get (yields_demand ?_)
    intro _ _ _
    exact h'
  intro _ a₁ h₁
  refine Yields.bind (yields_each_of (I := fun a' : Account => a'.Stores world []) h₁ ?_) ?_
  · intro manifest _ a' h'
    refine yields_get (yields_demand ?_)
    intro _ _ _
    exact h'
  intro _ a₂ h₂
  refine Yields.bind (yields_each (I := fun done (a' : Account) => a'.Stores world done) h₂ ?_) ?_
  · intro done row rest a' _ h'
    exact yields_importOperation h'
  intro _ a₃ h₃
  have hhas : ∀ row ∈ checkpoint.operations, a₃.operations.has row.1 = true := by
    intro row hrow
    have hmem : importedRow world row ∈ a₃.operations.rows := by
      rw [h₃.2]
      exact List.mem_map_of_mem hrow
    exact Table.has_eq_true_iff.mpr ⟨_, Table.mem_rows_iff.mp hmem⟩
  refine Yields.bind (yields_each (I := fun done (a' : Account) => a'.Imports done ∧ a'.LedgerSound env ∧
    a'.operations = a₃.operations) ?_ ?_) ?_
  · have hrows : a₃.issuance.rows = [] := by rw [h₃.1]; rfl
    refine ⟨⟨hrows, by simp⟩, ⟨?_, ?_⟩, rfl⟩
    · intro id row hrow
      rw [h₃.1] at hrow
      cases hrow
    · intro assetId
      unfold Account.admitted
      rw [hrows]
      exact Chained.nil
  · intro done admitted rest a' hxs h' _ _
    obtain ⟨himports, hsound, hoperations⟩ := h'
    have hcontinues := checkAuthorization_spec (checkEach_spec hchecked hxs)
    obtain ⟨himports', hsound'⟩ := himports.insert hsound (hoperations ▸ hhas) hcontinues rfl
    exact ⟨himports', hsound', hoperations⟩
  intro _ a₄ h₄
  have h₄' : a₄.Imported env world checkpoint := ⟨h₄.2.1, h₄.2.2 ▸ h₃.2⟩
  refine Yields.bind (yields_each_of (I := Account.Imported env world checkpoint) h₄' ?_) ?_
  · intro row _ a' h' _ _
    exact h'.of_eq rfl rfl
  intro _ a₅ h₅
  refine Yields.bind (yields_each_of (I := Account.Imported env world checkpoint) h₅ ?_) ?_
  · intro row _ a' h' _ _
    exact h'.of_eq rfl rfl
  intro _ a₆ h₆
  refine Yields.bind (yields_each_of (I := Account.Imported env world checkpoint) h₆ ?_) ?_
  · intro row _ a' h'
    refine yields_demand ?_
    intro _
    refine yields_demand ?_
    intro _ _ _
    exact h'.of_eq rfl rfl
  intro _ a₇ h₇
  refine Yields.bind (yields_each_of (I := Account.Imported env world checkpoint) h₇ ?_) ?_
  · intro row _ a' h' _ _
    exact h'.of_eq rfl rfl
  intro _ a₈ h₈
  refine yields_modify (yields_each_of (I := Account.Imported env world checkpoint) ?_ ?_)
  · exact h₈.of_eq rfl rfl
  · intro consignment _ a' h'
    refine yields_get (yields_demand ?_)
    intro _ _ _
    exact h'.of_eq rfl rfl

variable {a₀ : Account}

theorem Account.SameDatabase.keepsLedger
    (h : a.SameDatabase a') :
    a.KeepsLedger a' := by
  obtain ⟨w, pendings, rfl⟩ := h
  exact .of_eq rfl rfl

theorem keepsLedger_restoreFinalizedOperations :
    Leaves (restoreFinalizedOperations env) a a.KeepsLedger := by
  unfold restoreFinalizedOperations
  refine leaves_get ?_
  refine Leaves.bind (sameDatabase_replayOperations (.refl a)) (fun _ h => h.keepsLedger) ?_
  intro quarantines a' h'
  refine leaves_ite (fun _ => h'.keepsLedger) ?_
  intro _
  exact h'.keepsLedger.trans (.of_modifyAll (fun id operation =>
    if quarantines.contains id then
      { operation with
        state := .protocolRejected
        rejectionReason := some (Text.lit "duplicate_protocol_spend") }
    else
      operation) rfl rfl)

/-- Comparing the registry release writes the floor only. -/
theorem reconcile_eq
    (env : AccountEnv π)
    (a : Account) :
    ∃ floor state, reconcileProductionUsdRegistryFloor env a =
      { a with registryFloor := floor, registryState := state } := by
  unfold reconcileProductionUsdRegistryFloor
  split_ifs
  · exact ⟨_, _, rfl⟩
  · split
    · exact ⟨_, _, rfl⟩
    · exact ⟨_, _, rfl⟩
    · split_ifs
      · exact ⟨_, _, rfl⟩
      · exact ⟨_, _, rfl⟩
      · exact ⟨_, _, rfl⟩

theorem Account.LedgerSound.reconcile
    (h : a.LedgerSound env)
    (env' : AccountEnv π) :
    (reconcileProductionUsdRegistryFloor env' a).LedgerSound env := by
  obtain ⟨floor, state, heq⟩ := reconcile_eq env' a
  rw [heq]
  exact h.of_rows rfl (fun _ hid => hid)

/-- After the comparison, opening the database again reads the ledger and the floor only. -/
theorem keepsLedger_reopen :
    Leaves (reopen env) a (reconcileProductionUsdRegistryFloor env a).KeepsLedger := by
  have hrooted : (reconcileProductionUsdRegistryFloor env a).SameDatabase
      { reconcileProductionUsdRegistryFloor env a with
        protocol := (reconcileProductionUsdRegistryFloor env a).protocol.rooted
        pendingByOperation := Table.empty } :=
    ⟨_, _, rfl⟩
  unfold reopen
  refine leaves_modify (leaves_modify ?_)
  refine Leaves.bind (sameDatabase_restoreIssuers hrooted) (fun _ h => h.keepsLedger) ?_
  intro _ a₁ h₁
  refine Leaves.bind (sameDatabase_restoreConsignmentState h₁) (fun _ h => h.keepsLedger) ?_
  intro _ a₂ h₂
  refine Leaves.bind keepsLedger_restoreFinalizedOperations
    (fun _ h => h₂.keepsLedger.trans h) ?_
  intro _ a₃ h₃
  have hlock : a₃.KeepsLedger (restoreFeeReservations.final a₃) := .of_eq rfl rfl
  refine leaves_modify (Leaves.mono (sameDatabase_restorePendingOperations (.refl _)) ?_)
  intro a₄ h₄
  exact (h₂.keepsLedger.trans h₃).trans (hlock.trans h₄.keepsLedger)

/-- A failed import takes its rows back. -/
theorem ledgerSound_importCheckpoint
    {world : World}
    {hash : Text}
    {floor : Option RegistryFloor}
    (h : a.LedgerSound env)
    (hclean : a.issuance = Table.empty ∧ a.operations = Table.empty)
    (hchecked : checkEach (checkAuthorization env checkpoint) [] checkpoint.issuance = .ok ()) :
    Leaves (importCheckpoint env world checkpoint hash floor) a (Account.LedgerSound env) := by
  unfold importCheckpoint
  refine leaves_get (leaves_attempt ?_)
  refine Ends.mono (Yields.bind (yields_importRows hclean hchecked) ?_ :
    Yields _ a (fun _ => Account.LedgerSound env)) ?_
  · intro _ a₁ h₁
    have h₂ : Account.LedgerSound env { a₁ with
        backupVerified := true
        restoredCheckpoint := some hash
        registryFloor := floor.or a₁.registryFloor } :=
      h₁.ledger.of_rows rfl (fun _ hid => hid)
    refine yields_modify ?_
    refine Yields.bind (sameDatabase_restoreIssuers (.refl _)).yields ?_
    intro _ a₃ h₃
    refine Yields.mono (sameDatabase_restoreConsignmentState h₃).yields ?_
    intro _ a₄ h₄
    exact h₂.of_keeps h₄.keepsLedger
  · intro r a' h'
    cases r with
    | ok _ => exact h' () rfl
    | error e => exact h.of_keeps (.of_eq rfl rfl)

/-- A restore keeps the ledger of a wallet in use, and builds a sound one in a clean database. -/
theorem ledgerSound_restoreCheckpoint
    {world : World}
    {hash : Text}
    (h : a.LedgerSound env) :
    Leaves (restoreCheckpoint env world checkpoint hash) a (Account.LedgerSound env) := by
  unfold restoreCheckpoint
  refine leaves_demand h ?_
  intro _
  refine leaves_reads h ?_
  intro floor _
  refine leaves_get ?_
  split
  · exact leaves_check h
  · refine leaves_demand h ?_
    intro hclean
    refine leaves_lift h ?_
    intro _ hchecked
    refine Leaves.bind (ledgerSound_importCheckpoint h (empty_of_isClean hclean)
      (issuance_of_checkTables hchecked)) (fun _ h' => h') ?_
    intro _ a₁ h₁
    refine leaves_modify (leaves_modify ?_)
    have hlock : (reconcileProductionUsdRegistryFloor env a₁).KeepsLedger
        (restoreFeeReservations.final (reconcileProductionUsdRegistryFloor env a₁)) :=
      .of_eq rfl rfl
    have h₂ := (h₁.reconcile env).of_keeps hlock
    refine Leaves.bind (sameDatabase_restorePendingOperations (.refl _))
      (fun _ h₃ => h₂.of_keeps h₃.keepsLedger) ?_
    intro _ a₃ h₃
    refine leaves_reads (h₂.of_keeps h₃.keepsLedger) ?_
    intro _ _
    exact h₂.of_keeps h₃.keepsLedger

end Restores

section Main

/-- In every reachable state the ledger is sound. -/
theorem ledgerSound_of_reachable
    {a : Account}
    (h : (recoverySystem env).Reachable a) :
    a.LedgerSound env := by
  refine h.invariant ?_ ?_
  · intro a hfresh
    refine ⟨?_, ?_⟩
    · intro id row hrow
      rw [hfresh.issuance] at hrow
      cases hrow
    · intro assetId
      unfold Account.admitted
      rw [hfresh.issuance]
      exact Chained.nil
  · rintro a ⟨world, act⟩ a' ha hstep
    cases act with
    | call act =>
        subst hstep
        exact keeps_perform (fun _ _ (hstep : Step env False _ _) h => hstep.ledgerSound h)
          False.elim ha
    | restore checkpoint hash =>
        subst hstep
        exact leaves_iff.mp (ledgerSound_restoreCheckpoint ha)
    | reopen =>
        obtain ⟨-, rfl⟩ := hstep
        exact (ha.reconcile env).of_keeps (leaves_iff.mp keepsLedger_reopen)

/-- The total admitted for an asset is under the cap of its policy. -/
theorem Account.LedgerSound.sum_le
    {a : Account}
    (h : a.LedgerSound env)
    {assetId : Text}
    {policy : ProductionIssuancePolicy}
    (hpolicy : env.config.productionIssuancePolicies.find? (fun policy =>
      policy.assetId == assetId) = some policy) :
    ((a.admitted assetId).map AdmittedRow.amount).sum ≤
      policy.maxCumulativeSupplyBaseUnits.toNat := by
  rw [← (h.chained assetId).total_eq_sum (fun row hrow => h.after_eq hrow)]
  unfold Columns.total
  cases hlast : (a.admitted assetId).getLast? with
  | none =>
      exact Nat.zero_le _
  | some row =>
      have hrow := List.mem_of_getLast? hlast
      obtain ⟨id, hunder⟩ := h.of_mem hrow
      obtain ⟨policy', hpolicy', hauthorized, -⟩ := hunder.granted
      rw [(Account.mem_admitted hrow).1, hpolicy, Option.some.injEq] at hpolicy'
      subst hpolicy'
      exact UInt64.le_iff_toNat_le.mp hauthorized.supply_capped

/--
After every run: the authorizations of an asset are numbered `1, 2, …`, each starts from
the supply of the one before it and adds exactly its outputs, each is granted by the
policy of the asset, and their total is under its cap.  An authorization is admitted
once, for the operation that carries its id, and the latest row is the one with the
greatest padded sequence text.
-/
theorem production_issuance_ledger
    {a : Account}
    (h : (recoverySystem env).Reachable a)
    (assetId : Text) :
    (a.admitted assetId).map (fun row => row.authorization.sequence.toNat) =
        List.range' 1 (a.admitted assetId).length ∧
      (∀ earlier row later, a.admitted assetId = earlier ++ row :: later →
        row.authorization.supplyBeforeBaseUnits.toNat =
            (earlier.getLast?.map (fun prior =>
              prior.authorization.supplyAfterBaseUnits.toNat)).getD 0 ∧
          row.authorization.supplyAfterBaseUnits.toNat =
            row.authorization.supplyBeforeBaseUnits.toNat + row.amount) ∧
      (∀ row ∈ a.admitted assetId, ∃ policy,
        env.config.productionIssuancePolicies.find? (fun policy =>
          policy.assetId == assetId) = some policy ∧
        AuthorizedMint env.issuance policy row.authorization) ∧
      (∀ policy, env.config.productionIssuancePolicies.find? (fun policy =>
          policy.assetId == assetId) = some policy →
        ((a.admitted assetId).map AdmittedRow.amount).sum ≤
          policy.maxCumulativeSupplyBaseUnits.toNat) ∧
      (a.issuance.rows.map (fun row => row.2.authorization.authorizationIdSha256)).Nodup ∧
      (∀ id row, a.issuance.get id = some row →
        row.authorization.authorizationIdSha256 = id ∧ row.operationId = id ∧
          a.operations.has id = true) ∧
      priorRow a assetId = (a.admitted assetId).getLast? ∧
      (∀ m n : UInt64, (encodeU64Decimal m).le (encodeU64Decimal n) = true ↔ m ≤ n) := by
  have hsound := ledgerSound_of_reachable h
  have hids : a.issuance.rows.map (fun row => row.2.authorization.authorizationIdSha256) =
      a.issuance.rows.map Prod.fst := by
    refine List.map_congr_left ?_
    rintro ⟨id, row⟩ hrow
    exact (hsound.rows id row (Table.mem_rows_iff.mp hrow)).1.id_eq
  refine ⟨(hsound.chained assetId).numbers, ?_, ?_, fun policy hpolicy => hsound.sum_le hpolicy,
    ?_, ?_, hsound.priorRow_eq assetId, encodeU64Decimal_le_iff⟩
  · intro earlier row later hrows
    have hrow : row ∈ a.admitted assetId := by
      rw [hrows]
      exact List.mem_append_right earlier List.mem_cons_self
    exact ⟨(hsound.chained assetId).before_eq_total hrows, hsound.after_eq hrow⟩
  · intro row hrow
    obtain ⟨id, hunder⟩ := hsound.of_mem hrow
    obtain ⟨policy, hpolicy, hauthorized, -⟩ := hunder.granted
    rw [(Account.mem_admitted hrow).1] at hpolicy
    exact ⟨policy, hpolicy, hauthorized⟩
  · rw [hids]
    exact a.issuance.nodup
  · intro id row hrow
    obtain ⟨hunder, hoperation⟩ := hsound.rows id row hrow
    obtain ⟨policy, -, -, heq⟩ := hunder.granted
    refine ⟨hunder.id_eq, ?_, hoperation⟩
    rw [heq]
    rfl

end Main

namespace Account.Sample

def hexZeros (n : ℕ) : Text := toHex (List.replicate n 0)

/-- A policy of two authorities, both of which have to sign. -/
def policy : ProductionIssuancePolicy :=
  let policy : ProductionIssuancePolicy :=
    { formatVersion := 1
      policyVersion := 1
      deploymentId := Text.lit "sample-mainnet"
      registryVersion := 2
      assetId := hexZeros 32
      authorityPublicKeys := [toHex [2, 1], toHex [2, 2]]
      signatureThreshold := 2
      maxAuthorizationBaseUnits := 100
      maxCumulativeSupplyBaseUnits := 1000
      maxAuthorizationLifetimeSeconds := 5000
      validFromUnixSeconds := 0
      expiresAtUnixSeconds := 5000
      sourceRevision := hexZeros 20
      approvalReceipts := [Text.lit "https://sample"]
      commitmentSha256 := Text.lit "" }
  { policy with commitmentSha256 := productionIssuancePolicyCommitment issuance policy }

def release (version : UInt64) : ProductionUsdRegistryRelease where
  formatVersion := 2
  registryVersion := version
  deploymentId := Text.lit "sample-mainnet"
  rollout :=
    { phase := .limited
      maxTransferBaseUnits := 100
      maxBatchTotalBaseUnits := 100
      maxRolling24hOutgoingBaseUnits := 100
      maxRolling24hOperations := 10
      maxBatchRecipients := 4
      maxReserveAllocationSats := 10000 }
  issuancePolicyCommitments := [⟨policy.assetId, policy.commitmentSha256⟩]
  commitmentSha256 := hexZeros 32

def rawObserver (host : String) : ObservationCheck :=
  ⟨.rawTransactionApi, .require, some (Text.lit host), [Text.lit "chain"], 120⟩

/-- A production account under the release with a version. -/
def production (version : UInt64) : AccountEnv Unit :=
  { Account.Sample.env MemWallet.Sample.plainEnv with
    config :=
      { config with
        network := .mainnet
        deploymentId := Text.lit "sample-mainnet"
        observationChecks :=
          [rawObserver "a", rawObserver "b", ⟨.directP2pRelay, .observe, none, [], 120⟩,
            ⟨.confirmedSpv, .observe, none, [], 120⟩]
        verificationPeers := [Text.lit "p", Text.lit "q"]
        usdIssuers := [Digest.fill 0]
        productionUsdRegistry := some (release version)
        productionIssuancePolicies := [policy]
        assumeAuthenticatedProofRoot := true } }

/-- The first authorization of the asset: 60 and 40. -/
def authorization : ProductionMintAuthorization :=
  let authorization : ProductionMintAuthorization :=
    { formatVersion := 1
      authorizationIdSha256 := Text.lit ""
      deploymentId := Text.lit "sample-mainnet"
      registryCommitmentSha256 := (release 2).commitmentSha256
      issuancePolicyCommitmentSha256 := policy.commitmentSha256
      assetId := policy.assetId
      toOwner := hexZeros 32
      amounts := [60, 40]
      fundingOutpoint := Text.lit "outpoint"
      sequence := 1
      supplyBeforeBaseUnits := 0
      supplyAfterBaseUnits := 100
      notBeforeUnixSeconds := 500
      expiresAtUnixSeconds := 1500
      approvalReceipts := [Text.lit "https://sample"]
      signatures := [⟨toHex [2, 1], hexZeros 64⟩, ⟨toHex [2, 2], hexZeros 64⟩] }
  { authorization with
    authorizationIdSha256 :=
      toHex (productionMintAuthorizationDigest issuance authorization).toList }

/-- A production account that has seen the release and holds the manifest of the asset. -/
def issuer : Account :=
  { blank (MemWallet.create (Bytes.zero 32)) with
    registryFloor := some ⟨2, (release 2).commitmentSha256⟩
    registryState := .current
    manifests := Table.empty.insert policy.assetId
      ⟨⟨.mainnet, Text.lit "USD", Text.lit ""⟩, OpenCsv.Sample.genesis⟩ }

def mintRequest : IssuanceRequest where
  assetId := policy.assetId
  toOwner := some (hexZeros 32)
  amounts := [60, 40]
  productionAuthorization := some authorization

/-- The issuer after it prepared the authorized mint. -/
def minted : Account :=
  (perform (production 2) world (.mintPrepare mintRequest)).final issuer

theorem minted_reachable :
    (recoverySystem (production 2)).Reachable minted := by
  have hfresh : issuer.Fresh := ⟨rfl, rfl, rfl, rfl, rfl, rfl, rfl, rfl⟩
  have hstep : (recoverySystem (production 2)).step issuer
      (world, .call (.mintPrepare mintRequest)) minted := rfl
  exact .step (.init hfresh) hstep

/-- The ledger of the issuer holds one authorization, numbered and within the cap. -/
theorem minted_ledger :
    (minted.admitted policy.assetId).length = 1 ∧
      (minted.admitted policy.assetId).map (fun row => row.authorization.sequence.toNat) =
        List.range' 1 (minted.admitted policy.assetId).length :=
  ⟨by decide +kernel, (production_issuance_ledger minted_reachable policy.assetId).1⟩

end Account.Sample

end OpenCsv
