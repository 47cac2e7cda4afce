import OpenCsv.Account.Ledger

/-!
# Rolling caps

On mainnet a rollout policy caps the transfers of the last day and the batches that are being
collected.  Three calls plan transfers; cancelling and reopening only take transfers out.

**Results.** Planning keeps the caps where its checks pass (`Capped.plan`, `Capped.join`),
taking out keeps them (`Capped.thinned`), and they hold in every reachable state
(`rolling_caps`).
-/

namespace OpenCsv

open Call

variable {π : Type}

section Usage

/-- The amount that an operation sends. -/
def Operation.outgoing (operation : Operation) : ℕ :=
  match operation.request with
  | .transfer request => request.amount.toNat
  | _ => 0

/-- Neither cancelled nor rejected by the protocol. -/
def Operation.isLive (operation : Operation) : Bool :=
  operation.state != .cancelled && operation.state != .protocolRejected

namespace Account

/-- The live transfers of the last day. -/
def recent (a : Account) (now : ℤ) : List Operation :=
  (a.operations.rows.map Prod.snd).filter (fun operation =>
    operation.request.kind == .transfer && now - 86400 ≤ operation.createdAt &&
      operation.isLive)

def recentTotal (a : Account) (now : ℤ) : ℕ :=
  ((a.recent now).map Operation.outgoing).sum

/-- The amount that the operation of an id sends. -/
def outgoingOf (a : Account) (operationId : Text) : ℕ :=
  ((a.operations.get operationId).map Operation.outgoing).getD 0

/-- The amount that a batch sends. -/
def batchTotal (a : Account) (batchLocalId : Text) : ℕ :=
  ((a.memberIds batchLocalId).map a.outgoingOf).sum

end Account

/-- Count and amount of transfers, added up one by one. -/
theorem foldlM_addRolling
    {operations : List Operation}
    {usage : UInt64 × UInt64}
    (hreadable : ∀ operation ∈ operations, ∃ request, operation.request = .transfer request) :
    (∀ count amount, operations.foldlM addRolling usage = .ok (count, amount) →
        count.toNat = usage.1.toNat + operations.length ∧
          amount.toNat = usage.2.toNat + (operations.map Operation.outgoing).sum) ∧
      (usage.1.toNat + operations.length < 2 ^ 64 →
        usage.2.toNat + (operations.map Operation.outgoing).sum < 2 ^ 64 →
          ∃ count amount, operations.foldlM addRolling usage = .ok (count, amount)) := by
  induction operations generalizing usage with
  | nil =>
      refine ⟨?_, fun _ _ => ⟨usage.1, usage.2, rfl⟩⟩
      intro count amount h
      obtain rfl := Except.ok.inj h
      simp
  | cons operation operations ih =>
      rcases hreadable operation List.mem_cons_self with ⟨request, hrequest⟩
      have hrest : ∀ operation ∈ operations, ∃ request, operation.request = .transfer request :=
        fun op hop => hreadable op (List.mem_cons_of_mem _ hop)
      have hout : operation.outgoing = request.amount.toNat := by
        rw [Operation.outgoing, hrequest]
      have hone : (1 : UInt64).toNat = 1 := rfl
      simp only [List.foldlM_cons, List.length_cons, List.map_cons, List.sum_cons, hout]
      constructor
      · intro count amount h
        simp only [except_bind_eq_ok_iff, addRolling, hrequest, Request.asTransfer,
          okOr_eq_ok_iff, pure, Except.pure, Except.ok.injEq] at h
        rcases h with ⟨next, ⟨_, rfl, count', hcount, amount', hamount, rfl⟩, h⟩
        rcases (@ih (count', amount') hrest).1 count amount h with ⟨hc, ha⟩
        have hcount' := toNat_of_checkedAdd hcount
        have hamount' := toNat_of_checkedAdd hamount
        dsimp only at hc ha
        rw [hone] at hcount'
        constructor
        · omega
        · omega
      · intro hcount hamount
        have hnext : addRolling usage operation =
            .ok (usage.1 + 1, usage.2 + request.amount) := by
          have h₁ : checkedAdd usage.1 1 = some (usage.1 + 1) := by
            rw [checkedAdd, if_pos (by rw [hone]; omega)]
          have h₂ : checkedAdd usage.2 request.amount = some (usage.2 + request.amount) := by
            rw [checkedAdd, if_pos (by omega)]
          simp only [addRolling, except_bind_eq_ok_iff, hrequest, Request.asTransfer,
            okOr_eq_ok_iff, pure, Except.pure, Except.ok.injEq]
          exact ⟨request, rfl, _, h₁, _, h₂, rfl⟩
        have h₁ : (usage.1 + 1).toNat = usage.1.toNat + 1 := by
          rw [UInt64.toNat_add, hone, Nat.mod_eq_of_lt (by omega)]
        have h₂ : (usage.2 + request.amount).toNat = usage.2.toNat + request.amount.toNat := by
          rw [UInt64.toNat_add, Nat.mod_eq_of_lt (by omega)]
        rcases (@ih (usage.1 + 1, usage.2 + request.amount) hrest).2 (by simp only [h₁]; omega)
          (by simp only [h₂]; omega) with ⟨count, amount, h⟩
        exact ⟨count, amount, by rw [hnext]; exact h⟩

/-- The amounts of requests, added up one by one. -/
theorem foldlM_amounts
    {requests : List TransferRequest}
    {start total : UInt64} :
    requests.foldlM (fun sum request =>
        okOr (checkedAdd sum request.amount)
          (AccountError.new "production_value_limit_exceeded" "batch amount overflow")) start =
            .ok total ↔
      total.toNat = start.toNat + (requests.map (fun r => r.amount.toNat)).sum := by
  induction requests generalizing start with
  | nil =>
      simp only [List.foldlM_nil, List.map_nil, List.sum_nil, Nat.add_zero]
      constructor
      · intro h
        rw [Except.ok.inj h]
      · intro h
        rw [UInt64.toNat_inj.mp h]
        rfl
  | cons request requests ih =>
      simp only [List.foldlM_cons, except_bind_eq_ok_iff, okOr_eq_ok_iff, List.map_cons,
        List.sum_cons]
      constructor
      · rintro ⟨next, hnext, h⟩
        have hsum := toNat_of_checkedAdd hnext
        have hrest := ih.mp h
        omega
      · intro h
        have htotal := total.toNat_lt
        refine ⟨start + request.amount, ?_, ih.mpr ?_⟩
        · rw [checkedAdd, if_pos (by omega)]
        · rw [UInt64.toNat_add, Nat.mod_eq_of_lt (by omega)]
          omega

/-- A batch policy passes where the batch has room for its requests. -/
theorem requireProductionBatchPolicy_eq_ok_iff
    {env : AccountEnv π}
    {policy : ProductionRolloutPolicy}
    (hpolicy : productionRolloutPolicy env = some policy)
    {requests : List TransferRequest} :
    requireProductionBatchPolicy env requests = .ok () ↔
      requests.length ≤ policy.maxBatchRecipients.toNat ∧
        (requests.map (fun r => r.amount.toNat)).sum ≤ policy.maxBatchTotalBaseUnits.toNat := by
  have hzero : (0 : UInt64).toNat = 0 := rfl
  simp only [requireProductionBatchPolicy, hpolicy, except_bind_eq_ok_iff, require_eq_ok_iff,
    decide_eq_true_eq, foldlM_amounts, hzero, Nat.zero_add]
  constructor
  · rintro ⟨_, hlength, total, htotal, hle⟩
    rw [← htotal]
    exact ⟨hlength, UInt64.le_iff_toNat_le.mp hle⟩
  · rintro ⟨hlength, hle⟩
    have hfits := policy.maxBatchTotalBaseUnits.toNat_lt
    have hround : (UInt64.ofNat (requests.map (fun r => r.amount.toNat)).sum).toNat =
        (requests.map (fun r => r.amount.toNat)).sum := by
      rw [UInt64.toNat_ofNat', Nat.mod_eq_of_lt (by omega)]
    refine ⟨(), hlength, _, hround, ?_⟩
    rw [UInt64.le_iff_toNat_le, hround]
    exact hle

end Usage

section Caps

/-- The caps at a moment, and what they rest on. -/
structure Capped (policy : ProductionRolloutPolicy) (a : Account) (now : ℤ) : Prop where
  readable : ∀ row ∈ a.operations.rows, ∃ request, row.2.request = .transfer request
  operations : (a.recent now).length ≤ policy.maxRolling24hOperations.toNat
  amount : a.recentTotal now ≤ policy.maxRolling24hOutgoingBaseUnits.toNat
  members : ∀ row ∈ a.members.rows,
    (∃ operation, a.operations.get row.1 = some operation) ∧
      ∃ batch, a.batches.get row.2.batchLocalId = some batch
  batches : ∀ id batch, a.batches.get id = some batch → batch.state = .collecting →
    (a.memberIds id).length ≤ policy.maxBatchRecipients.toNat ∧
      a.batchTotal id ≤ policy.maxBatchTotalBaseUnits.toNat

variable {policy : ProductionRolloutPolicy}
variable {a a' : Account}
variable {now now' : ℤ}

theorem recent_sublist
    (a : Account)
    (h : now ≤ now') :
    (a.recent now').Sublist (a.recent now) := by
  apply List.monotone_filter_right
  intro operation hop
  simp only [Bool.and_eq_true, decide_eq_true_eq] at hop ⊢
  exact ⟨⟨hop.1.1, by omega⟩, hop.2⟩

/-- The window slides on. -/
theorem Capped.later
    (h : Capped policy a now)
    (hnow : now ≤ now') :
    Capped policy a now' where
  readable := h.readable
  operations := (recent_sublist a hnow).length_le.trans h.operations
  amount :=
    (((recent_sublist a hnow).map Operation.outgoing).sum_le_sum (fun _ _ => Nat.zero_le _)).trans
      h.amount
  members := h.members
  batches := h.batches

/-- The caps read three tables. -/
theorem Capped.congr
    (h : Capped policy a now)
    (hoperations : a'.operations = a.operations)
    (hmembers : a'.members = a.members)
    (hbatches : a'.batches = a.batches) :
    Capped policy a' now := by
  have hids : ∀ id, a'.memberIds id = a.memberIds id := by
    intro id
    rw [Account.memberIds, Account.sendBatchMembers, hmembers]
    rfl
  have hof : a'.outgoingOf = a.outgoingOf := by
    funext id
    rw [Account.outgoingOf, hoperations]
    rfl
  refine ⟨?_, ?_, ?_, ?_, ?_⟩
  · rw [hoperations]
    exact h.readable
  · rw [Account.recent, hoperations]
    exact h.operations
  · rw [Account.recentTotal, Account.recent, hoperations]
    exact h.amount
  · rw [hoperations, hmembers, hbatches]
    exact h.members
  · intro id batch hget hstate
    rw [hbatches] at hget
    rw [Account.batchTotal, hids, hof]
    exact h.batches id batch hget hstate

/-- The usage of the last day is what the code adds up. -/
theorem Capped.usage
    (h : Capped policy a now)
    {world : World}
    (hnow : world.now = now) :
    ∃ count amount, productionRollingTransferUsage world a = .ok (count, amount) ∧
      count.toNat = (a.recent now).length ∧ amount.toNat = a.recentTotal now := by
  have hreadable : ∀ operation ∈ a.recent now, ∃ request,
      operation.request = .transfer request := by
    intro operation hop
    rcases List.mem_map.mp (List.mem_filter.mp hop).1 with ⟨row, hrow, rfl⟩
    exact h.readable row hrow
  have hfold : productionRollingTransferUsage world a =
      (a.recent now).foldlM addRolling (0, 0) := by
    subst hnow
    simp only [productionRollingTransferUsage, Account.recent, Operation.isLive, Bool.and_assoc]
  have hzero : (0 : UInt64).toNat = 0 := rfl
  have hops := h.operations
  have hamount := h.amount
  have hmaxOps := policy.maxRolling24hOperations.toNat_lt
  have hmaxAmount := policy.maxRolling24hOutgoingBaseUnits.toNat_lt
  rw [Account.recentTotal] at hamount
  have hspec := @foldlM_addRolling (a.recent now) (0, 0) hreadable
  rcases hspec.2 (by simp only [hzero]; omega) (by simp only [hzero]; omega) with
    ⟨count, amount, hok⟩
  rcases hspec.1 count amount hok with ⟨hcount, htotal⟩
  refine ⟨count, amount, hfold.trans hok, ?_, ?_⟩
  · simpa [hzero] using hcount
  · rw [Account.recentTotal, htotal]
    simp [hzero]

/-- A new policy check that passes has room for the request. -/
theorem of_requireProductionNewTransferPolicy
    {env : AccountEnv π}
    (hpolicy : productionRolloutPolicy env = some policy)
    {world : World}
    {request : TransferRequest}
    (hcapped : Capped policy a now)
    (hnow : now ≤ world.now)
    (h : requireProductionNewTransferPolicy env world a request = .ok ()) :
    (a.recent world.now).length + 1 ≤ policy.maxRolling24hOperations.toNat ∧
      a.recentTotal world.now + request.amount.toNat ≤
        policy.maxRolling24hOutgoingBaseUnits.toNat := by
  rcases (hcapped.later hnow).usage rfl with ⟨count, amount, husage, hcount, hamount⟩
  simp only [requireProductionNewTransferPolicy, hpolicy, husage, except_bind_eq_ok_iff,
    require_eq_ok_iff, Except.ok.injEq, Option.any_eq_true, decide_eq_true_eq] at h
  rcases h with ⟨_, -, usage, rfl, _, ⟨next, hnext, hle⟩, total, htotal, hleTotal⟩
  have hone : (1 : UInt64).toNat = 1 := rfl
  have hsum := toNat_of_checkedAdd hnext
  have hsumTotal := toNat_of_checkedAdd htotal
  have hleTotal' := UInt64.le_iff_toNat_le.mp hleTotal
  dsimp only at hsum hsumTotal
  rw [hone] at hsum
  constructor
  · omega
  · omega

end Caps

section Planning

variable {policy : ProductionRolloutPolicy}
variable {a : Account}
variable {now : ℤ}
variable {id nonce : Text}
variable {request : TransferRequest}

/-- The journal with one more transfer. -/
def Account.planned
    (a : Account)
    (id : Text)
    (request : TransferRequest)
    (nonce : Text)
    (now : ℤ) : Account :=
  { a with operations := a.operations.insert id (plannedOperation (.transfer request) nonce now) }

theorem recent_planned
    (hid : a.operations.get id = none) :
    (a.planned id request nonce now).recent now =
      a.recent now ++ [plannedOperation (.transfer request) nonce now] := by
  have hnew : (plannedOperation (.transfer request) nonce now).isLive = true := rfl
  have hkind : (plannedOperation (.transfer request) nonce now).request.kind = .transfer := rfl
  have hdate : decide (now - 86400 ≤
      (plannedOperation (.transfer request) nonce now).createdAt) = true := by
    apply decide_eq_true
    show now - 86400 ≤ now
    omega
  rw [Account.recent, Account.planned, Table.rows_insert_of_none hid, List.map_append,
    List.filter_append]
  congr 1
  simp only [List.map_cons, List.map_nil, List.filter_cons, hnew, hkind, hdate, beq_self_eq_true,
    Bool.and_self, if_true, List.filter_nil]

theorem outgoingOf_planned_self
    (hid : a.operations.get id = none) :
    (a.planned id request nonce now).outgoingOf id = request.amount.toNat := by
  rw [Account.outgoingOf, Account.planned, Table.get_insert_self_of_none hid]
  rfl

theorem outgoingOf_planned_of_ne
    {id' : Text}
    (hne : id' ≠ id) :
    (a.planned id request nonce now).outgoingOf id' = a.outgoingOf id' := by
  rw [Account.outgoingOf, Account.planned, Table.get_insert, if_neg hne]
  rfl

/-- Members have operations, so a new one is no member's. -/
theorem Capped.batchTotal_planned
    (h : Capped policy a now)
    (hid : a.operations.get id = none)
    (batchLocalId : Text) :
    (a.planned id request nonce now).batchTotal batchLocalId = a.batchTotal batchLocalId := by
  have hids : (a.planned id request nonce now).memberIds batchLocalId =
      a.memberIds batchLocalId := rfl
  rw [Account.batchTotal, Account.batchTotal, hids]
  congr 1
  apply List.map_congr_left
  intro id' hid'
  rcases mem_memberIds_iff.mp hid' with ⟨member, hmember, -⟩
  rcases (h.members _ (Table.mem_rows_iff.mpr hmember)).1 with ⟨operation, hoperation⟩
  apply outgoingOf_planned_of_ne
  rintro rfl
  rw [hid] at hoperation
  cases hoperation

/-- A planned transfer that has room keeps the caps. -/
theorem Capped.plan
    (h : Capped policy a now)
    (hid : a.operations.get id = none)
    (hroom : (a.recent now).length + 1 ≤ policy.maxRolling24hOperations.toNat)
    (hroomAmount : a.recentTotal now + request.amount.toNat ≤
      policy.maxRolling24hOutgoingBaseUnits.toNat) :
    Capped policy (a.planned id request nonce now) now := by
  refine ⟨?_, ?_, ?_, ?_, ?_⟩
  · intro row hrow
    rw [Account.planned, Table.rows_insert_of_none hid, List.mem_append,
      List.mem_singleton] at hrow
    rcases hrow with hrow | rfl
    · exact h.readable row hrow
    · exact ⟨request, rfl⟩
  · rw [recent_planned hid, List.length_append]
    exact hroom
  · have hout : (plannedOperation (.transfer request) nonce now).outgoing =
        request.amount.toNat := rfl
    rw [Account.recentTotal, recent_planned hid, List.map_append, List.sum_append]
    rw [Account.recentTotal] at hroomAmount
    simpa [hout] using hroomAmount
  · intro row hrow
    rcases h.members row hrow with ⟨⟨operation, hoperation⟩, hbatch⟩
    refine ⟨⟨operation, ?_⟩, hbatch⟩
    have hne : row.1 ≠ id := by
      rintro rfl
      rw [hid] at hoperation
      cases hoperation
    rw [Account.planned, Table.get_insert, if_neg hne]
    exact hoperation
  · intro batchLocalId batch hget hstate
    rw [h.batchTotal_planned hid]
    exact h.batches batchLocalId batch hget hstate

/-- The members of a batch, one more for its own. -/
theorem memberIds_insert_perm
    {member : Member}
    (hmember : a.members.get id = none)
    (batchLocalId : Text) :
    (({ a with members := a.members.insert id member } : Account).memberIds batchLocalId).Perm
      (a.memberIds batchLocalId ++
        if member.batchLocalId = batchLocalId then [id] else []) := by
  have hnew := (List.perm_insertionSort (fun r r' : Text × Member => r.2.ordinal ≤ r'.2.ordinal)
    ((a.members.insert id member).rows.filter
      (fun row => row.2.batchLocalId == batchLocalId))).map Prod.fst
  have hold := (List.perm_insertionSort (fun r r' : Text × Member => r.2.ordinal ≤ r'.2.ordinal)
    (a.members.rows.filter (fun row => row.2.batchLocalId == batchLocalId))).map Prod.fst
  refine List.Perm.trans hnew ?_
  rw [Table.rows_insert_of_none hmember, List.filter_append, List.map_append]
  refine List.Perm.append hold.symm ?_
  by_cases heq : member.batchLocalId = batchLocalId
  · simp [heq]
  · simp [heq]

/-- A member that has room in its batch keeps the caps. -/
theorem Capped.join
    (h : Capped policy a now)
    {member : Member}
    {operation : Operation}
    {batch : SendBatch}
    (hmember : a.members.get id = none)
    (hoperation : a.operations.get id = some operation)
    (hbatch : a.batches.get member.batchLocalId = some batch)
    (hroom : (a.memberIds member.batchLocalId).length + 1 ≤ policy.maxBatchRecipients.toNat)
    (hroomAmount : a.batchTotal member.batchLocalId + operation.outgoing ≤
      policy.maxBatchTotalBaseUnits.toNat) :
    Capped policy { a with members := a.members.insert id member } now := by
  refine ⟨h.readable, h.operations, h.amount, ?_, ?_⟩
  · intro row hrow
    rw [Table.rows_insert_of_none hmember, List.mem_append, List.mem_singleton] at hrow
    rcases hrow with hrow | rfl
    · exact h.members row hrow
    · exact ⟨⟨operation, hoperation⟩, batch, hbatch⟩
  · intro id' batch' hget hstate
    have hperm := @memberIds_insert_perm a id member hmember id'
    have hof : ({ a with members := a.members.insert id member } : Account).outgoingOf =
        a.outgoingOf := rfl
    have hout : a.outgoingOf id = operation.outgoing := by
      rw [Account.outgoingOf, hoperation]
      rfl
    rw [Account.batchTotal, hof, hperm.length_eq, (hperm.map a.outgoingOf).sum_eq,
      List.length_append, List.map_append, List.sum_append]
    rcases h.batches id' batch' hget hstate with ⟨hlength, htotal⟩
    rw [Account.batchTotal] at htotal hroomAmount
    by_cases heq : member.batchLocalId = id'
    · subst heq
      simp only [if_true, List.length_singleton, List.map_cons, List.map_nil, List.sum_cons,
        List.sum_nil, hout]
      exact ⟨hroom, by omega⟩
    · simp only [if_neg heq, List.length_nil, List.map_nil, List.sum_nil]
      exact ⟨hlength, htotal⟩

/-- A batch that is opened has no members. -/
theorem Capped.openBatch
    (h : Capped policy a now)
    {batch : SendBatch}
    (hid : a.batches.get id = none) :
    Capped policy { a with batches := a.batches.insert id batch } now ∧ a.memberIds id = [] := by
  have hnone : a.memberIds id = [] := by
    rw [List.eq_nil_iff_forall_not_mem]
    intro id' hid'
    rcases mem_memberIds_iff.mp hid' with ⟨member, hmember, rfl⟩
    rcases (h.members _ (Table.mem_rows_iff.mpr hmember)).2 with ⟨batch', hbatch'⟩
    rw [hid] at hbatch'
    cases hbatch'
  refine ⟨⟨h.readable, h.operations, h.amount, ?_, ?_⟩, hnone⟩
  · intro row hrow
    rcases h.members row hrow with ⟨hoperation, batch', hbatch'⟩
    refine ⟨hoperation, batch', ?_⟩
    rw [Table.get_insert, if_neg ?_]
    · exact hbatch'
    · intro heq
      rw [heq, hid] at hbatch'
      cases hbatch'
  · intro id' batch' hget hstate
    have hids : ({ a with batches := a.batches.insert id batch } : Account).memberIds id' =
        a.memberIds id' := rfl
    have htotal : ({ a with batches := a.batches.insert id batch } : Account).batchTotal id' =
        a.batchTotal id' := rfl
    rw [hids, htotal]
    by_cases heq : id' = id
    · subst heq
      rw [Account.batchTotal, hnone]
      simp
    · rw [Table.get_insert, if_neg heq] at hget
      exact h.batches id' batch' hget hstate

end Planning

section Calls

variable {env : AccountEnv π}
variable {world : World}
variable {policy : ProductionRolloutPolicy}
variable {a : Account}
variable {now : ℤ}
variable {request : TransferRequest}

theorem ends_insertPlanned
    {id nonce : Text} :
    Ends (insertPlannedOperation world id (.transfer request) nonce) a (fun r a' =>
      match r with
      | .ok _ => a.operations.get id = none ∧ a' = a.planned id request nonce world.now
      | .error _ => a' = a) := by
  unfold insertPlannedOperation
  rw [ends_bind, ends_get]
  dsimp only
  rw [ends_bind, ends_demand]
  split_ifs with hfresh
  · have hnone : a.operations.get id = none := by
      simpa [Table.has_eq_false_iff] using hfresh
    exact ⟨hnone, rfl⟩
  · rfl

/-- A planned transfer becomes a member of a batch with room. -/
theorem ends_planAndJoin
    {id nonce batchLocalId : Text}
    {ordinal : UInt8}
    {batch : SendBatch}
    (h : Capped policy a world.now)
    (hroom : (a.recent world.now).length + 1 ≤ policy.maxRolling24hOperations.toNat)
    (hroomAmount : a.recentTotal world.now + request.amount.toNat ≤
      policy.maxRolling24hOutgoingBaseUnits.toNat)
    (hbatch : a.batches.get batchLocalId = some batch)
    (hmembers : (a.memberIds batchLocalId).length + 1 ≤ policy.maxBatchRecipients.toNat)
    (htotal : a.batchTotal batchLocalId + request.amount.toNat ≤
      policy.maxBatchTotalBaseUnits.toNat) :
    Ends (do
        insertPlannedOperation world id (.transfer request) nonce
        insertMember world batchLocalId id ordinal) a (fun r a' =>
      ∀ v, r = .ok v → Capped policy a' world.now) := by
  rw [ends_bind]
  refine Ends.mono ends_insertPlanned ?_
  intro r a' hr
  cases r with
  | error e =>
      exact fun _ hv => of_error_eq_ok hv
  | ok u =>
      rcases hr with ⟨hid, rfl⟩
      refine Ends.mono ends_insertMember ?_
      intro r' a'' hr' v hv
      rcases hr' v hv with ⟨hmember, member, rfl, rfl⟩
      have hplanned : Capped policy (a.planned id request nonce world.now) world.now :=
        h.plan hid hroom hroomAmount
      refine hplanned.join hmember (Table.get_insert_self_of_none hid) hbatch hmembers ?_
      rw [h.batchTotal_planned hid]
      exact htotal

/-- What the requests of members add up to. -/
theorem of_transferRequestsForBatchMembers
    {members : List Text}
    {requests : List TransferRequest}
    (h : a.transferRequestsForBatchMembers members = .ok requests) :
    requests.length = members.length ∧
      (requests.map (fun r => r.amount.toNat)).sum = (members.map a.outgoingOf).sum := by
  have hrequest : ∀ id request,
      (do
        let operation ← a.operation id
        operation.request.asTransfer) = .ok request → request.amount.toNat = a.outgoingOf id := by
    intro id request h
    simp only [except_bind_eq_ok_iff, Account.operation, okOr_eq_ok_iff] at h
    rcases h with ⟨operation, hget, htransfer⟩
    rw [Account.outgoingOf, hget]
    cases hreq : operation.request with
    | transfer r =>
        rw [hreq] at htransfer
        obtain rfl := Except.ok.inj htransfer
        simp [Operation.outgoing, hreq]
    | mint r =>
        rw [hreq] at htransfer
        cases htransfer
    | unreadable kind =>
        rw [hreq] at htransfer
        cases htransfer
  have hmap := map_eq_of_mapM_eq_ok h hrequest
  refine ⟨?_, congrArg List.sum hmap⟩
  have hlength := congrArg List.length hmap
  rwa [List.length_map, List.length_map] at hlength

variable (hpolicy : productionRolloutPolicy env = some policy)

include hpolicy

theorem leaves_transferPlan
    (h : Capped policy a now)
    (hnow : now ≤ world.now) :
    Leaves (transferPlan env world request) a (fun a' => Capped policy a' world.now) := by
  unfold transferPlan
  refine leaves_reads (h.later hnow) ?_
  intro _ hadmit
  simp only [admitTransfer, except_bind_eq_ok_iff] at hadmit
  rcases hadmit with ⟨_, -, _, -, _, -, hadmit⟩
  rcases of_requireProductionNewTransferPolicy hpolicy h hnow hadmit with ⟨hroom, hroomAmount⟩
  refine leaves_bind (Ends.mono ends_insertPlanned ?_)
  intro r a' hr
  cases r with
  | error e =>
      obtain rfl := hr
      exact h.later hnow
  | ok u =>
      rcases hr with ⟨hid, rfl⟩
      exact (h.later hnow).plan hid hroom hroomAmount

theorem leaves_joinBatch
    {batchLocalId : Text}
    {batch : SendBatch}
    (h : Capped policy a world.now)
    (hroom : (a.recent world.now).length + 1 ≤ policy.maxRolling24hOperations.toNat)
    (hroomAmount : a.recentTotal world.now + request.amount.toNat ≤
      policy.maxRolling24hOutgoingBaseUnits.toNat)
    (hbatch : a.batches.get batchLocalId = some batch) :
    Leaves (joinBatch env world request batchLocalId batch) a
      (fun a' => Capped policy a' world.now) := by
  unfold joinBatch
  refine leaves_demand h ?_
  intro _
  refine leaves_demand h ?_
  intro _
  refine leaves_get (leaves_demand h ?_)
  intro _
  refine leaves_lift h ?_
  intro requests hrequests
  refine leaves_lift h ?_
  intro _ hbatchPolicy
  rcases of_transferRequestsForBatchMembers hrequests with ⟨hlength, hsum⟩
  rcases (requireProductionBatchPolicy_eq_ok_iff hpolicy).mp hbatchPolicy with ⟨hmembers, htotal⟩
  simp only [List.length_append, List.length_singleton, List.map_append, List.map_cons,
    List.map_nil, List.sum_append, List.sum_cons, List.sum_nil, hlength, hsum,
    Nat.add_zero] at hmembers htotal
  exact leaves_atomic h (ends_planAndJoin h hroom hroomAmount hbatch hmembers htotal)

theorem leaves_startBatch
    (h : Capped policy a world.now)
    (hroom : (a.recent world.now).length + 1 ≤ policy.maxRolling24hOperations.toNat)
    (hroomAmount : a.recentTotal world.now + request.amount.toNat ≤
      policy.maxRolling24hOutgoingBaseUnits.toNat) :
    Leaves (startBatch env world request) a (fun a' => Capped policy a' world.now) := by
  unfold startBatch
  refine leaves_lift h ?_
  intro _ hbatchPolicy
  rcases (requireProductionBatchPolicy_eq_ok_iff hpolicy).mp hbatchPolicy with ⟨hmembers, htotal⟩
  simp only [List.length_singleton, List.map_cons, List.map_nil, List.sum_cons, List.sum_nil,
    Nat.add_zero] at hmembers htotal
  refine leaves_atomic h ?_
  rw [ends_bind, ends_get]
  dsimp only
  rw [ends_bind, ends_demand]
  split_ifs with hfresh
  · have hnone : a.batches.get (world.randomId 0) = none := by
      simpa [Table.has_eq_false_iff] using hfresh
    dsimp only
    rw [ends_bind, ends_modify]
    dsimp only
    rw [← bind_assoc, ends_bind]
    rcases h.openBatch hnone with ⟨hopen, hempty⟩
    refine Ends.mono (ends_planAndJoin hopen hroom hroomAmount
      (Table.get_insert_self_of_none hnone) ?_ ?_) ?_
    · show (a.memberIds (world.randomId 0)).length + 1 ≤ _
      rw [hempty]
      simpa using hmembers
    · show (a.memberIds (world.randomId 0) |>.map a.outgoingOf).sum + request.amount.toNat ≤ _
      rw [hempty]
      simpa using htotal
    · intro r a' hr
      cases r with
      | error e =>
          exact fun _ hv => of_error_eq_ok hv
      | ok u =>
          intro _ _
          exact (hr u rfl).congr rfl rfl rfl
  · exact fun _ hv => hv.elim

theorem leaves_planBatchedTransfer
    {requestedBatch : Option Text}
    (h : Capped policy a now)
    (hnow : now ≤ world.now) :
    Leaves (planBatchedTransfer env world request requestedBatch) a
      (fun a' => Capped policy a' world.now) := by
  unfold planBatchedTransfer
  refine leaves_reads (h.later hnow) ?_
  intro _ hadmit
  simp only [admitTransfer, except_bind_eq_ok_iff] at hadmit
  rcases hadmit with ⟨_, -, _, -, _, -, hadmit⟩
  rcases of_requireProductionNewTransferPolicy hpolicy h hnow hadmit with ⟨hroom, hroomAmount⟩
  have hlater := h.later hnow
  cases requestedBatch with
  | some batchLocalId =>
      refine leaves_reads hlater ?_
      intro batch hbatch
      exact leaves_joinBatch hpolicy hlater hroom hroomAmount (sendBatch_eq_ok_iff.mp hbatch)
  | none =>
      refine leaves_get ?_
      cases hopen : OpenCsv.openBatch world a with
      | none =>
          exact leaves_startBatch hpolicy hlater hroom hroomAmount
      | some found =>
          obtain ⟨batchLocalId, batch⟩ := found
          refine leaves_joinBatch hpolicy hlater hroom hroomAmount ?_
          unfold OpenCsv.openBatch at hopen
          simp only [Option.bind_eq_some_iff, Option.map_eq_some_iff, Option.filter_eq_some_iff,
            Prod.mk.injEq] at hopen
          rcases hopen with ⟨id, -, batch', ⟨hbatch', -⟩, rfl, rfl⟩
          exact hbatch'

end Calls

section Thinning

/-- The same transfer, live at most where it was. -/
structure Operation.Thins (operation operation' : Operation) : Prop where
  request : operation'.request = operation.request
  createdAt : operation'.createdAt = operation.createdAt
  live : operation'.isLive = true → operation.isLive = true

/-- The same journal with fewer live transfers and fewer collecting batches. -/
structure Account.Thins (a a' : Account) : Prop where
  operations : ∃ f, a'.operations = a.operations.modifyAll f ∧
    ∀ id operation, Operation.Thins operation (f id operation)
  members : a'.members = a.members
  batches : ∃ g, a'.batches = a.batches.modifyAll g ∧
    ∀ id batch, (g id batch).state = .collecting → batch.state = .collecting

theorem Table.modifyAll_self
    {κ ρ : Type}
    [DecidableEq κ]
    (t : Table κ ρ) :
    t.modifyAll (fun _ r => r) = t := by
  cases t
  simp [Table.modifyAll]

theorem Table.modifyAll_modifyAll
    {κ ρ : Type}
    [DecidableEq κ]
    (t : Table κ ρ)
    (f g : κ → ρ → ρ) :
    (t.modifyAll f).modifyAll g = t.modifyAll (fun k r => g k (f k r)) := by
  simp [Table.modifyAll]

theorem Operation.Thins.refl
    (operation : Operation) :
    Operation.Thins operation operation :=
  ⟨rfl, rfl, id⟩

variable {a a' a'' : Account}

theorem Account.Thins.refl
    (a : Account) :
    a.Thins a :=
  ⟨⟨_, (Table.modifyAll_self _).symm, fun _ operation => .refl operation⟩, rfl,
    ⟨_, (Table.modifyAll_self _).symm, fun _ _ h => h⟩⟩

theorem Account.Thins.trans
    (h : a.Thins a')
    (h' : a'.Thins a'') :
    a.Thins a'' := by
  rcases h.operations with ⟨f, hf, hthins⟩
  rcases h'.operations with ⟨f', hf', hthins'⟩
  rcases h.batches with ⟨g, hg, hstate⟩
  rcases h'.batches with ⟨g', hg', hstate'⟩
  refine ⟨⟨fun id operation => f' id (f id operation), ?_, ?_⟩, h'.members.trans h.members,
    ⟨fun id batch => g' id (g id batch), ?_, ?_⟩⟩
  · rw [hf', hf, Table.modifyAll_modifyAll]
  · intro id operation
    have hfirst := hthins id operation
    have hsecond := hthins' id (f id operation)
    exact ⟨hsecond.request.trans hfirst.request, hsecond.createdAt.trans hfirst.createdAt,
      fun hlive => hfirst.live (hsecond.live hlive)⟩
  · rw [hg', hg, Table.modifyAll_modifyAll]
  · intro id batch hcollecting
    exact hstate id batch (hstate' id (g id batch) hcollecting)

/-- What writes none of the three tables. -/
theorem Account.Thins.aside
    (h : a.Thins a')
    (hoperations : a''.operations = a'.operations)
    (hmembers : a''.members = a'.members)
    (hbatches : a''.batches = a'.batches) :
    a.Thins a'' := by
  rcases h with ⟨hop, hmem, hbat⟩
  refine ⟨?_, hmembers.trans hmem, ?_⟩
  · rw [hoperations]
    exact hop
  · rw [hbatches]
    exact hbat

/-- Rewriting operations into thinner ones. -/
theorem Account.Thins.rewrite
    (h : a.Thins a')
    (f : Text → Operation → Operation)
    (hf : ∀ id operation, Operation.Thins operation (f id operation))
    (hoperations : a''.operations = a'.operations.modifyAll f)
    (hmembers : a''.members = a'.members)
    (hbatches : a''.batches = a'.batches) :
    a.Thins a'' := by
  refine h.trans ⟨⟨f, hoperations, hf⟩, hmembers, ⟨fun _ batch => batch, ?_, fun _ _ h => h⟩⟩
  rw [hbatches, Table.modifyAll_self]

/-- Thinner rows keep a filter's rows at most. -/
theorem recent_thins_le
    {rows : List (Text × Operation)}
    {f : Text → Operation → Operation}
    (hf : ∀ id operation, Operation.Thins operation (f id operation))
    (now : ℤ) :
    let keeps : Operation → Bool := fun operation =>
      operation.request.kind == .transfer && now - 86400 ≤ operation.createdAt &&
        operation.isLive
    (((rows.map (fun row => (row.1, f row.1 row.2))).map Prod.snd).filter keeps).length ≤
        ((rows.map Prod.snd).filter keeps).length ∧
      ((((rows.map (fun row => (row.1, f row.1 row.2))).map Prod.snd).filter keeps).map
          Operation.outgoing).sum ≤
        (((rows.map Prod.snd).filter keeps).map Operation.outgoing).sum := by
  intro keeps
  induction rows with
  | nil =>
      exact ⟨le_refl _, le_refl _⟩
  | cons row rows ih =>
      have hthin := hf row.1 row.2
      have hkeeps : keeps (f row.1 row.2) = true → keeps row.2 = true := by
        intro h
        simp only [keeps, Bool.and_eq_true, hthin.request, hthin.createdAt] at h ⊢
        exact ⟨h.1, hthin.live h.2⟩
      have hout : (f row.1 row.2).outgoing = row.2.outgoing := by
        rw [Operation.outgoing, hthin.request]
        rfl
      simp only [List.map_cons, List.filter_cons]
      cases hnew : keeps (f row.1 row.2) with
      | true =>
          rw [if_pos rfl, if_pos (hkeeps hnew)]
          simp only [List.length_cons, List.map_cons, List.sum_cons, hout]
          omega
      | false =>
          rw [if_neg (by simp)]
          split
          · simp only [List.length_cons, List.map_cons, List.sum_cons]
            omega
          · exact ih

/-- Taking transfers out keeps the caps. -/
theorem Capped.thinned
    {policy : ProductionRolloutPolicy}
    {now : ℤ}
    (h : Capped policy a now)
    (hthins : a.Thins a') :
    Capped policy a' now := by
  rcases hthins with ⟨⟨f, hf, hoperation⟩, hmembers, ⟨g, hg, hbatch⟩⟩
  have hids : ∀ id, a'.memberIds id = a.memberIds id := by
    intro id
    rw [Account.memberIds, Account.sendBatchMembers, hmembers]
    rfl
  have hof : a'.outgoingOf = a.outgoingOf := by
    funext id
    rw [Account.outgoingOf, Account.outgoingOf, hf, Table.get_modifyAll]
    cases a.operations.get id with
    | none =>
        rfl
    | some operation =>
        simp [Operation.outgoing, (hoperation id operation).request]
  have hrows : a'.operations.rows =
      a.operations.rows.map (fun row => (row.1, f row.1 row.2)) := by
    rw [hf]
    rfl
  have hle := @recent_thins_le a.operations.rows f hoperation now
  rw [← hrows] at hle
  refine ⟨?_, hle.1.trans h.operations, hle.2.trans h.amount, ?_, ?_⟩
  · intro row hrow
    rw [hrows] at hrow
    rcases List.mem_map.mp hrow with ⟨old, hold, rfl⟩
    rcases h.readable old hold with ⟨request, hrequest⟩
    exact ⟨request, (hoperation old.1 old.2).request.trans hrequest⟩
  · intro row hrow
    rw [hmembers] at hrow
    rcases h.members row hrow with ⟨⟨operation, hget⟩, batch, hgetBatch⟩
    refine ⟨⟨f row.1 operation, ?_⟩, g row.2.batchLocalId batch, ?_⟩
    · rw [hf, Table.get_modifyAll, hget]
      rfl
    · rw [hg, Table.get_modifyAll, hgetBatch]
      rfl
  · intro id batch hget hstate
    rw [hg, Table.get_modifyAll, Option.map_eq_some_iff] at hget
    rcases hget with ⟨old, hold, rfl⟩
    rw [Account.batchTotal, hids, hof]
    exact h.batches id old hold (hbatch id old hstate)

end Thinning

section Taking

variable {env : AccountEnv π}
variable {a₀ a : Account}

theorem Account.Thins.cancelled
    (h : a₀.Thins a)
    (id : Text) :
    a₀.Thins { a with
      operations := a.operations.modify id (fun operation =>
        { operation with state := .cancelled }) } := by
  refine h.rewrite (fun id' operation =>
    if id' = id then { operation with state := .cancelled } else operation) ?_ rfl rfl rfl
  intro id' operation
  split
  · exact ⟨rfl, rfl, fun hlive => by simp [Operation.isLive] at hlive⟩
  · exact .refl operation

theorem thins_cancelOperation
    {id : Text}
    (h : a₀.Thins a) :
    Leaves (cancelOperation id) a a₀.Thins := by
  unfold cancelOperation
  refine leaves_reads h ?_
  intro operation _
  refine leaves_demand h ?_
  intro _
  refine leaves_ite (fun _ => h) ?_
  intro _
  refine leaves_modify (leaves_modify ?_)
  have hdropped : a₀.Thins (({ a with
      activeProof := if a.activeProof = some id then none else a.activeProof } :
        Account).dropPending id) := by
    unfold Account.dropPending
    split
    · exact h.aside rfl rfl rfl
    · exact h.aside rfl rfl rfl
  unfold releaseFeeReservation
  refine Leaves.bind ?_ (fun _ h' => h') (fun _ _ h' => h'.cancelled id)
  refine leaves_get (leaves_demand hdropped ?_)
  intro _
  refine leaves_reads hdropped ?_
  intro _ _
  exact hdropped.aside rfl rfl rfl

theorem thins_cancelSendBatch
    {id : Text}
    (h : a₀.Thins a) :
    Leaves (cancelSendBatch id) a a₀.Thins := by
  unfold cancelSendBatch
  refine leaves_reads h ?_
  intro batch _
  refine leaves_ite (fun _ => h) ?_
  intro _
  refine leaves_demand h ?_
  intro _
  refine leaves_modify (leaves_get ?_)
  refine Leaves.bind (leaves_each (h.aside rfl rfl rfl) ?_) (fun _ h' => h') ?_
  · intro id' _ a' h'
    exact thins_cancelOperation h'
  · intro _ a' h'
    refine leaves_modify ?_
    refine h'.trans ⟨⟨fun _ operation => operation, (Table.modifyAll_self _).symm,
      fun _ operation => .refl operation⟩, rfl, ⟨fun id' batch =>
        if id' = id then { batch with state := .cancelled } else batch, rfl, ?_⟩⟩
    intro id' batch' hcollecting
    dsimp only at hcollecting
    split at hcollecting
    · cases hcollecting
    · exact hcollecting

theorem Account.Thins.sameDatabase
    (h : a₀.Thins a)
    {a' : Account}
    (hsame : a.SameDatabase a') :
    a₀.Thins a' := by
  rcases hsame with ⟨w, pendings, rfl⟩
  exact h.aside rfl rfl rfl

theorem thins_restoreFinalizedOperations
    (h : a₀.Thins a) :
    Leaves (restoreFinalizedOperations env) a a₀.Thins := by
  unfold restoreFinalizedOperations
  refine leaves_get ?_
  refine Leaves.bind (Leaves.mono (sameDatabase_replayOperations (.refl a))
    (fun _ hsame => h.sameDatabase hsame)) (fun _ h' => h') ?_
  intro quarantines a' h'
  refine leaves_ite (fun _ => h') ?_
  intro _
  refine h'.rewrite (fun operationId operation =>
    if quarantines.contains operationId then
      { operation with
        state := .protocolRejected
        rejectionReason := some (Text.lit "duplicate_protocol_spend") }
    else
      operation) ?_ rfl rfl rfl
  intro id operation
  split
  · exact ⟨rfl, rfl, fun hlive => by simp [Operation.isLive] at hlive⟩
  · exact .refl operation

theorem thins_reopen
    (h : a₀.Thins a) :
    Leaves (reopen env) a a₀.Thins := by
  unfold reopen
  have hfloor : a₀.Thins (reconcileProductionUsdRegistryFloor env a) := by
    unfold reconcileProductionUsdRegistryFloor
    split
    · exact h.aside rfl rfl rfl
    · split
      · exact h.aside rfl rfl rfl
      · exact h.aside rfl rfl rfl
      · split
        · exact h.aside rfl rfl rfl
        · split
          · exact h.aside rfl rfl rfl
          · exact h.aside rfl rfl rfl
  refine leaves_modify (leaves_modify ?_)
  refine Leaves.bind (Leaves.mono (sameDatabase_restoreIssuers (.refl _))
    (fun _ hsame => Account.Thins.sameDatabase (hfloor.aside rfl rfl rfl) hsame))
      (fun _ h' => h') ?_
  intro _ a₁ h₁
  refine Leaves.bind (Leaves.mono (sameDatabase_restoreConsignmentState (.refl a₁))
    (fun _ hsame => h₁.sameDatabase hsame)) (fun _ h' => h') ?_
  intro _ a₂ h₂
  refine Leaves.bind (thins_restoreFinalizedOperations h₂) (fun _ h' => h') ?_
  intro _ a₃ h₃
  unfold restoreFeeReservations
  have hlocked : a₀.Thins { a₃ with
      bitcoin := a₃.reservations.rows.foldl (fun w row => w.lockOutpoint row.2.outpoint)
        a₃.bitcoin } :=
    h₃.aside rfl rfl rfl
  refine leaves_modify ?_
  exact Leaves.mono (sameDatabase_restorePendingOperations (.refl _))
    (fun _ hsame => hlocked.sameDatabase hsame)

end Taking

section Runs

/-- The calls that plan transfers and take them out. -/
inductive RollingAct where
  | transferPlan (request : TransferRequest)
  | planBatchedTransfer (request : TransferRequest) (requestedBatch : Option Text)
  | cancelOperation (operationId : Text)
  | cancelSendBatch (batchLocalId : Text)
  | reopen

def rolling (env : AccountEnv π) (world : World) : RollingAct → AccountCall Unit
  | .transferPlan request => (transferPlan env world request).ignore
  | .planBatchedTransfer request requestedBatch =>
      planBatchedTransfer env world request requestedBatch
  | .cancelOperation operationId => OpenCsv.cancelOperation operationId
  | .cancelSendBatch batchLocalId => OpenCsv.cancelSendBatch batchLocalId
  | .reopen => OpenCsv.reopen env

/-- An account and its clock: it is created, and takes a call when the clock has moved on. -/
def rollingSystem (env : AccountEnv π) : System (Account × ℤ) (World × RollingAct) where
  init := fun s => s.1.Fresh
  step := fun s label s' => s.2 ≤ label.1.now ∧
    s' = ((rolling env label.1 label.2).final s.1, label.1.now)

variable {env : AccountEnv π}
variable {policy : ProductionRolloutPolicy}

theorem Capped.fresh
    {a : Account}
    (h : a.Fresh)
    (now : ℤ) :
    Capped policy a now := by
  have hrows : a.operations.rows = [] := by
    rw [h.operations]
    rfl
  have hmembers : a.members.rows = [] := by
    rw [h.members]
    rfl
  have hrecent : a.recent now = [] := by
    rw [Account.recent, hrows]
    rfl
  refine ⟨?_, ?_, ?_, ?_, ?_⟩
  · intro row hrow
    rw [hrows] at hrow
    cases hrow
  · rw [hrecent]
    exact Nat.zero_le _
  · rw [Account.recentTotal, hrecent]
    exact Nat.zero_le _
  · intro row hrow
    rw [hmembers] at hrow
    cases hrow
  · intro id batch hget
    rw [h.batches, Table.get_empty] at hget
    cases hget

/-- Every call keeps the caps. -/
theorem capped_rolling
    (hpolicy : productionRolloutPolicy env = some policy)
    {world : World}
    {act : RollingAct}
    {a : Account}
    {now : ℤ}
    (h : Capped policy a now)
    (hnow : now ≤ world.now) :
    Capped policy ((rolling env world act).final a) world.now := by
  have hlater := h.later hnow
  cases act with
  | transferPlan request =>
      exact leaves_iff.mp (leaves_ignore (leaves_transferPlan hpolicy h hnow))
  | planBatchedTransfer request requestedBatch =>
      exact leaves_iff.mp (leaves_planBatchedTransfer hpolicy h hnow)
  | cancelOperation operationId =>
      exact hlater.thinned (leaves_iff.mp (thins_cancelOperation (.refl a)))
  | cancelSendBatch batchLocalId =>
      exact hlater.thinned (leaves_iff.mp (thins_cancelSendBatch (.refl a)))
  | reopen =>
      exact hlater.thinned (leaves_iff.mp (thins_reopen (.refl a)))

/-- The requests of a batch that keeps its caps pass the batch policy. -/
theorem Capped.batchPolicy
    (hpolicy : productionRolloutPolicy env = some policy)
    {a : Account}
    {now : ℤ}
    (h : Capped policy a now)
    {id : Text}
    {batch : SendBatch}
    (hget : a.batches.get id = some batch)
    (hstate : batch.state = .collecting) :
    ∃ requests, a.transferRequestsForBatchMembers (a.memberIds id) = .ok requests ∧
      requireProductionBatchPolicy env requests = .ok () := by
  have hread : ∀ id' ∈ a.memberIds id, ∃ request,
      (do
        let operation ← a.operation id'
        operation.request.asTransfer) = .ok request := by
    intro id' hid'
    rcases mem_memberIds_iff.mp hid' with ⟨member, hmember, -⟩
    rcases (h.members _ (Table.mem_rows_iff.mpr hmember)).1 with ⟨operation, hoperation⟩
    rcases h.readable _ (Table.mem_rows_iff.mpr hoperation) with ⟨request, hrequest⟩
    refine ⟨request, ?_⟩
    simp only [except_bind_eq_ok_iff, Account.operation, okOr_eq_ok_iff]
    refine ⟨operation, hoperation, ?_⟩
    dsimp only at hrequest
    rw [hrequest]
    rfl
  rcases exists_mapM_eq_ok hread with ⟨requests, hrequests⟩
  rcases of_transferRequestsForBatchMembers hrequests with ⟨hlength, hsum⟩
  rcases h.batches id batch hget hstate with ⟨hmembers, htotal⟩
  rw [Account.batchTotal, ← hsum] at htotal
  rw [← hlength] at hmembers
  exact ⟨requests, hrequests,
    (requireProductionBatchPolicy_eq_ok_iff hpolicy).mpr ⟨hmembers, htotal⟩⟩

/--
The rolling caps.  In every reachable state and at every later moment, the live transfers of the
last day keep the caps on their number and amount, and the code adds these up without overflow;
every batch that is being collected keeps the caps on its members and its amount, and its
requests pass the batch policy, whose sum does not overflow either.
-/
theorem rolling_caps
    (hpolicy : productionRolloutPolicy env = some policy)
    {s : Account × ℤ}
    (h : (rollingSystem env).Reachable s) :
    (∀ world : World, s.2 ≤ world.now →
        (s.1.recent world.now).length ≤ policy.maxRolling24hOperations.toNat ∧
          s.1.recentTotal world.now ≤ policy.maxRolling24hOutgoingBaseUnits.toNat ∧
          ∃ count amount, productionRollingTransferUsage world s.1 = .ok (count, amount) ∧
            count.toNat = (s.1.recent world.now).length ∧
            amount.toNat = s.1.recentTotal world.now) ∧
      ∀ id batch, s.1.batches.get id = some batch → batch.state = .collecting →
        (s.1.memberIds id).length ≤ policy.maxBatchRecipients.toNat ∧
          s.1.batchTotal id ≤ policy.maxBatchTotalBaseUnits.toNat ∧
          ∃ requests, s.1.transferRequestsForBatchMembers (s.1.memberIds id) = .ok requests ∧
            requireProductionBatchPolicy env requests = .ok () := by
  have hcapped : Capped policy s.1 s.2 := by
    refine @System.Reachable.invariant _ _ (rollingSystem env)
      (fun s => Capped policy s.1 s.2) ?_ ?_ s h
    · intro s hfresh
      exact Capped.fresh hfresh s.2
    · rintro s ⟨world, act⟩ s' hs ⟨hnow, rfl⟩
      exact capped_rolling hpolicy hs hnow
  constructor
  · intro world hnow
    have hlater := hcapped.later hnow
    exact ⟨hlater.operations, hlater.amount, hlater.usage rfl⟩
  · intro id batch hget hstate
    rcases hcapped.batches id batch hget hstate with ⟨hmembers, htotal⟩
    exact ⟨hmembers, htotal, hcapped.batchPolicy hpolicy hget hstate⟩

end Runs

namespace Account.Sample

def payUsd (amount : UInt64) : TransferRequest :=
  ⟨hexZeros 32, hexZeros 32, amount⟩

/-- The issuer after it queued a payment of 40 in a new batch. -/
def queued : Account :=
  (rolling (production 2) world (.planBatchedTransfer (payUsd 40) none)).final issuer

/-- One of the ten transfers and 40 of the 100 base units of the day are used. -/
theorem queued_caps :
    (queued.recent 1000).length = 1 ∧ queued.recentTotal 1000 = 40 ∧
      queued.recentTotal 1000 ≤ 100 := by
  have hfresh : issuer.Fresh := ⟨rfl, rfl, rfl, rfl, rfl, rfl, rfl, rfl⟩
  have hinit : (rollingSystem (production 2)).Reachable (issuer, 0) := .init hfresh
  have hstep : (rollingSystem (production 2)).step (issuer, 0)
      (world, .planBatchedTransfer (payUsd 40) none) (queued, 1000) := by
    constructor
    · decide
    · rfl
  have hcaps := (rolling_caps rfl (hinit.step hstep)).1 world (le_refl _)
  exact ⟨by decide +kernel, by decide +kernel, hcaps.2.1⟩

end Account.Sample

end OpenCsv
