import OpenCsv.Account.TraceProof

/-!
# Batch proof jobs, step by step

The installation of a batch writes its rows in one transaction and replaces the
wallet afterwards.  The rows and the wallet are independent, so the whole is the same
as binding and preparing one member after the other.
-/

namespace OpenCsv

open Call

variable {π : Type}
variable {env : AccountEnv π}
variable {world : World}
variable {strict : Prop}
variable {a₀ a a' : Account}

section Members

theorem get_of_mem_sendBatchMembers
    {batchLocalId id : Text}
    {member : Member}
    (h : (id, member) ∈ a.sendBatchMembers batchLocalId) :
    a.members.get id = some member ∧ member.batchLocalId = batchLocalId := by
  unfold Account.sendBatchMembers at h
  rw [List.mem_insertionSort, List.mem_filter] at h
  exact ⟨Table.mem_rows_iff.mp h.1, beq_iff_eq.mp h.2⟩

theorem mem_memberIds_iff
    {batchLocalId id : Text} :
    id ∈ a.memberIds batchLocalId ↔
      ∃ member, a.members.get id = some member ∧ member.batchLocalId = batchLocalId := by
  unfold Account.memberIds
  constructor
  · intro h
    obtain ⟨⟨id', member⟩, hmem, rfl⟩ := List.mem_map.mp h
    exact ⟨member, get_of_mem_sendBatchMembers hmem⟩
  · rintro ⟨member, hget, hbatch⟩
    refine List.mem_map.mpr ⟨(id, member), ?_, rfl⟩
    unfold Account.sendBatchMembers
    rw [List.mem_insertionSort, List.mem_filter]
    exact ⟨Table.mem_rows_iff.mpr hget, beq_iff_eq.mpr hbatch⟩

theorem nodup_memberIds
    (a : Account)
    (batchLocalId : Text) :
    (a.memberIds batchLocalId).Nodup := by
  unfold Account.memberIds Account.sendBatchMembers
  have hperm := (List.perm_insertionSort (fun r r' : Text × Member => r.2.ordinal ≤ r'.2.ordinal)
    (a.members.rows.filter (fun row => row.2.batchLocalId == batchLocalId))).map Prod.fst
  rw [hperm.nodup_iff]
  exact a.members.nodup.sublist (List.filter_sublist.map Prod.fst)

end Members

section Reviewing

/-- A failed check cancels the batch. -/
theorem ends_orCancelBatch
    {batchLocalId : Text}
    {check : Except AccountError Unit}
    (h : Steps env strict a₀ a) :
    Ends (orCancelBatch batchLocalId check) a (fun r a' =>
      Steps env strict a₀ a' ∧ ∀ v, r = .ok v → a = a') := by
  cases check with
  | ok _ =>
      exact ⟨h, fun _ _ => rfl⟩
  | error e =>
      refine Ends.bind (steps_cancelSendBatch h) ?_ ?_
      · intro e a' h'
        exact ⟨h', fun _ hv => of_error_eq_ok hv⟩
      · intro _ a' h'
        exact ⟨h', fun _ hv => of_error_eq_ok hv⟩

theorem ends_reviewMembers
    {batchLocalId : Text}
    {operationIds : List Text}
    (h : Steps env strict a₀ a) :
    Ends (reviewMembers env world batchLocalId operationIds) a (fun r a' =>
      Steps env strict a₀ a' ∧ ∀ v, r = .ok v → a.SameCore a') := by
  refine ends_each_sameCore h ?_
  intro id a' h'
  have herror : ∀ e : AccountError, Steps env strict a₀ a' ∧ ∀ v,
      (Except.error e : Except AccountError Unit) = .ok v → a'.SameCore a' :=
    fun _ => ⟨h', fun _ hv => of_error_eq_ok hv⟩
  refine ends_reads_bind herror ?_
  intro operation _
  refine ends_lift_bind herror ?_
  intro request _
  refine ends_get_bind (Ends.mono (ends_orCancelBatch h') ?_)
  intro r a'' hr
  exact ⟨hr.1, fun v hv => hr.2 v hv ▸ Account.SameCore.refl a'⟩

theorem ends_reserveBatchStock
    {batchLocalId : Text}
    {count : UInt8} :
    Ends (reserveBatchStock batchLocalId count) a (fun _ a' => a.SameCore a') := by
  have hsame := Account.SameCore.refl a
  unfold reserveBatchStock
  refine ends_get_bind ?_
  split
  · exact ends_demand_bind (fun _ => hsame) (fun _ => hsame)
  · split
    · exact hsame
    · exact ⟨rfl, rfl, rfl, rfl, rfl, rfl, rfl, rfl, rfl, rfl⟩

end Reviewing

section Beginning

/-- The members of a batch keep their rows up to the notes of the proof job. -/
def Account.KeepsMembers (a : Account) (members : List (Text × Member)) : Prop :=
  ∀ id member, (id, member) ∈ members → ∃ member', a.members.get id = some member' ∧
    member'.batchLocalId = member.batchLocalId

theorem leaves_beginMember
    {members : List (Text × Member)}
    {index : ℕ}
    {id : Text}
    {member : Member}
    (h : Steps env strict a₀ a)
    (hkeeps : a.KeepsMembers members)
    (hmember : (id, member) ∈ members) :
    Leaves (beginMember env world index id member) a (fun a' =>
      Steps env strict a₀ a' ∧ a'.KeepsMembers members) := by
  set noted : Member :=
    { member with
      changeSpk := some (member.changeSpk.getD (world.changeScript index))
      commitNonce := some (member.commitNonce.getD (world.commitNonce index)) } with hnoted
  have hrest : ∀ a', Steps env strict a₀ a' → a'.KeepsMembers members → ∀ funding request,
      Leaves (do
        modify (fun a => { a with members := a.members.modify id (fun _ => noted) })
        lift (world.batchFeeKey funding.outpoint)
        return (⟨id, request, funding⟩ : BatchProofMemberJob)) a' (fun a' =>
          Steps env strict a₀ a' ∧ a'.KeepsMembers members) := by
    intro a' h' hkeeps' funding request
    obtain ⟨member', hget, hbatch⟩ := hkeeps' id member hmember
    have hstep := h'.then (Step.memberNote id noted hget hbatch.symm)
    have hkept : Account.KeepsMembers
        { a' with members := a'.members.modify id (fun _ => noted) } members := by
      intro id' m hm
      obtain ⟨m', hm', hb'⟩ := hkeeps' id' m hm
      by_cases hid : id' = id
      · subst hid
        obtain rfl := Option.some.inj (hm'.symm.trans hget)
        refine ⟨noted, ?_, hbatch.symm.trans hb'⟩
        simp [hm']
      · exact ⟨m', by simp [Table.get_modify_of_ne hid, hm'], hb'⟩
    exact leaves_modify (leaves_lift ⟨hstep, hkept⟩ (fun _ _ => ⟨hstep, hkept⟩))
  unfold beginMember
  refine leaves_reads ⟨h, hkeeps⟩ ?_
  intro operation hoperation
  rw [operation_eq_ok_iff] at hoperation
  extract_lets jp
  have hjp : ∀ funding a', Steps env strict a₀ a' → a'.KeepsMembers members →
      Leaves (jp funding) a' (fun a' => Steps env strict a₀ a' ∧ a'.KeepsMembers members) := by
    intro funding a' h' hkeeps'
    refine leaves_lift ⟨h', hkeeps'⟩ ?_
    intro request _
    exact hrest a' h' hkeeps' funding request
  split
  · rename_i hstate
    refine leaves_bind (Ends.mono (ends_reserve_planned h hoperation hstate) ?_)
    intro r a' hr
    cases r with
    | error e =>
        obtain ⟨h', rfl⟩ := hr
        exact ⟨h', hkeeps⟩
    | ok funding =>
        obtain ⟨h', rfl⟩ := hr
        exact hjp funding _ h' hkeeps
  · refine leaves_reads ⟨h, hkeeps⟩ ?_
    intro funding _
    exact hjp funding a h hkeeps
  · exact ⟨h, hkeeps⟩

theorem steps_beginSendBatchProof
    {batchLocalId : Text}
    (h : Steps env strict a₀ a) :
    Leaves (beginSendBatchProof env world batchLocalId) a (Steps env strict a₀) := by
  unfold beginSendBatchProof
  refine leaves_reads h ?_
  intro _ _
  refine leaves_reads h ?_
  intro batch hbatch
  refine leaves_get ?_
  extract_lets members
  split
  · clear_value members
    cases members with
    | nil => exact h
    | cons _ _ => exact h
  · exact h
  · refine leaves_demand h ?_
    intro _
    refine leaves_demand h ?_
    intro _
    refine leaves_demand h ?_
    intro _
    refine leaves_demand h ?_
    intro _
    refine leaves_lift h ?_
    intro requests _
    refine leaves_step (ends_orCancelBatch h) ?_
    rintro _ _ h₁ rfl
    refine leaves_step (ends_reviewMembers h₁) ?_
    intro _ a₂ h₂ hsame₂
    refine leaves_bind (Ends.mono ends_reserveBatchStock ?_)
    intro r a₃ hsame₃
    have h₃ := h₂.then (Step.aside hsame₃)
    cases r with
    | error e =>
        exact h₃
    | ok reserved =>
        have hkeeps : a₃.KeepsMembers members := by
          intro id member hmem
          refine ⟨member, ?_, rfl⟩
          rw [hsame₃.members, hsame₂.members]
          exact (get_of_mem_sendBatchMembers hmem).1
        refine Leaves.bind (leaves_collect (Q := fun a' => Steps env strict a₀ a' ∧
          a'.KeepsMembers members) ⟨h₃, hkeeps⟩ ?_) (fun _ h => h.1) ?_
        · rintro ⟨⟨id, member⟩, index⟩ hmem a' ⟨h', hkeeps'⟩
          exact leaves_beginMember h' hkeeps' (List.fst_mem_of_mem_zipIdx hmem)
        · intro jobs a' h'
          exact h'.1.then (Step.aside ⟨rfl, rfl, rfl, rfl, rfl, rfl, rfl, rfl, rfl, rfl⟩)
  · exact h

end Beginning

section Finishing

/-- Proofs imported one after the other, each over coins that are still free. -/
inductive Imports (env : WalletEnv π) :
    MemWallet → List (Text × Text × UInt64) → MemWallet → Prop
  | nil (w : MemWallet) :
      Imports env w [] w
  | cons {w w' w'' : MemWallet} {id text : Text} {pendingId : UInt64}
      {rest : List (Text × Text × UInt64)}
      (himport : w.importPending env text = .ok (pendingId, w'))
      (hconflicts : w'.pendingSpendConflicts pendingId = .ok false)
      (havailable : w'.pendingSpendsAvailable env pendingId = .ok true)
      (hrest : Imports env w' rest w'') :
      Imports env w ((id, text, pendingId) :: rest) w''

theorem importMember_eq_ok
    {completed : CompletedBatchProofJob}
    {member : CompletedBatchProofMember}
    {w w' : MemWallet}
    {pendingId : UInt64}
    (h : importMember env completed member w = .ok (w', pendingId)) :
    w.importPending env.wallet member.pendingJson = .ok (pendingId, w') ∧
      w'.pendingSpendConflicts pendingId = .ok false ∧
        w'.pendingSpendsAvailable env.wallet pendingId = .ok true := by
  simp only [importMember, except_bind_eq_ok_iff, mapError_eq_ok_iff, require_eq_ok_iff, pure,
    Except.pure, Except.ok.injEq, Prod.mk.injEq] at h
  obtain ⟨⟨pendingId', w₁⟩, himport, conflicts, hconflicts, available, havailable, _, hfree, _, _,
    _, _, _, _, _, _, rfl, rfl⟩ := h
  simp only [Bool.and_eq_true, Bool.not_eq_true'] at hfree
  rw [hconflicts, havailable, hfree.1, hfree.2]
  exact ⟨himport, rfl, rfl⟩

/-- Every member is funded, and its proof is imported over free coins. -/
structure MembersImported
    (env : AccountEnv π)
    (a : Account)
    (members : List CompletedBatchProofMember)
    (w w' : MemWallet)
    (entries : List (Text × Text × UInt64)) : Prop where
  imports : Imports env.wallet w entries w'
  texts : entries.map (fun entry => (entry.1, entry.2.1)) =
    members.map (fun member => (member.operationId, member.pendingJson))
  funded : ∀ member ∈ members, ∃ operation,
    a.operations.get member.operationId = some operation ∧ operation.state = .feeReserved

theorem ends_importMembers
    {completed : CompletedBatchProofJob}
    {members : List CompletedBatchProofMember}
    {w : MemWallet}
    (h : Steps env strict a₀ a) :
    Ends (importMembers env world completed members w) a (fun r a' =>
      Steps env strict a₀ a' ∧ ∀ v, r = .ok v → a = a' ∧ ∃ entries,
        MembersImported env a members w v.1 entries ∧
          v.2 = entries.map (fun entry => (entry.1, entry.2.2))) := by
  have herror : ∀ {members : List CompletedBatchProofMember} {w : MemWallet} (e : AccountError),
      Steps env strict a₀ a ∧
        ∀ v : MemWallet × List (Text × UInt64), Except.error e = .ok v → a = a ∧ ∃ entries,
          MembersImported env a members w v.1 entries ∧
            v.2 = entries.map (fun entry => (entry.1, entry.2.2)) :=
    fun _ => ⟨h, fun _ hv => of_error_eq_ok hv⟩
  induction members generalizing w with
  | nil =>
      refine ⟨h, ?_⟩
      intro v hv
      obtain rfl := Except.ok.inj hv
      exact ⟨rfl, [], ⟨Imports.nil w, rfl, by simp⟩, rfl⟩
  | cons member rest ih =>
      rw [importMembers]
      refine ends_get_bind (Ends.bind (ends_orCancelBatch h) ?_ ?_)
      · intro e a' hr
        exact ⟨hr.1, fun _ hv => of_error_eq_ok hv⟩
      intro _ a' hr
      obtain rfl := hr.2 _ rfl
      refine ends_reads_bind herror ?_
      intro operation hoperation
      rw [operation_eq_ok_iff] at hoperation
      extract_lets jp
      have hjp : ∀ unchanged, (unchanged = true → operation.state = .feeReserved) →
          Ends (jp unchanged) a (fun r a' =>
            Steps env strict a₀ a' ∧ ∀ v, r = .ok v → a = a' ∧ ∃ entries,
              MembersImported env a (member :: rest) w v.1 entries ∧
                v.2 = entries.map (fun entry => (entry.1, entry.2.2))) := by
        intro unchanged hunchanged
        refine ends_demand_bind herror ?_
        intro hsame
        refine ends_lift_bind herror ?_
        rintro ⟨w', pendingId⟩ hmember
        obtain ⟨himport, hconflicts, havailable⟩ := importMember_eq_ok hmember
        refine Ends.bind ih ?_ ?_
        · intro e a' hr
          exact ⟨hr.1, fun _ hv => of_error_eq_ok hv⟩
        · intro v a' hr
          obtain ⟨rfl, entries, ⟨himports, htexts, hfunded⟩, hpendings⟩ := hr.2 v rfl
          refine ⟨h, ?_⟩
          intro v' hv'
          obtain rfl := Except.ok.inj hv'
          refine ⟨rfl, (member.operationId, member.pendingJson, pendingId) :: entries, ?_, ?_⟩
          · refine ⟨Imports.cons himport hconflicts havailable himports, ?_, ?_⟩
            · rw [List.map_cons, List.map_cons, htexts]
            · rw [List.forall_mem_cons]
              exact ⟨⟨operation, hoperation, hunchanged hsame⟩, hfunded⟩
          · rw [List.map_cons, ← hpendings]
      refine ends_ite_of ?_ ?_
      · intro hstate
        refine ends_lift_bind herror ?_
        intro outpoint _
        exact hjp _ (fun _ => hstate)
      · intro _
        exact hjp false (fun hf => by cases hf)

/-- The same database, with another wallet and other pending proofs. -/
def Account.withWallet (a : Account) (w : MemWallet) (pendings : Table Text UInt64) : Account :=
  { a with protocol := w, pendingByOperation := pendings }

theorem Account.SameCore.withWallet
    (h : a.SameCore a')
    (w : MemWallet)
    (pendings : Table Text UInt64) :
    (a.withWallet w pendings).SameCore (a'.withWallet w pendings) :=
  ⟨h.operations, h.reservations, h.batches, h.members, h.issuance, h.locked, rfl, rfl,
    h.registryFloor, h.registryState⟩

/-! Steps of the database beside a wallet that is put in at the end. -/

theorem Steps.withAside
    {w : MemWallet}
    {pendings : Table Text UInt64}
    (h : Steps env strict a₀ (a.withWallet w pendings))
    (hsame : a.SameCore a') :
    Steps env strict a₀ (a'.withWallet w pendings) :=
  h.then (Step.aside (hsame.withWallet w pendings))

theorem Steps.withRow
    {w : MemWallet}
    {pendings : Table Text UInt64}
    (h : Steps env strict a₀ (a.withWallet w pendings))
    (id : Text)
    (f : Operation → Operation)
    (hf : ∀ operation, a.operations.get id = some operation →
      RowStep env none operation (f operation)) :
    Steps env strict a₀
      (Account.withWallet { a with operations := a.operations.modify id f } w pendings) :=
  h.then (Step.row id f hf)

theorem Steps.withBatchRow
    {w : MemWallet}
    {pendings : Table Text UInt64}
    (h : Steps env strict a₀ (a.withWallet w pendings))
    (id : Text)
    (g : SendBatch → SendBatch)
    (hg : ∀ batch, a.batches.get id = some batch → BatchStep batch (g batch)) :
    Steps env strict a₀
      (Account.withWallet { a with batches := a.batches.modify id g } w pendings) :=
  h.then (Step.batchRow id g hg)

/-- The row of a member after its proof is installed. -/
def CompletedBatchProofMember.installed
    (member : CompletedBatchProofMember)
    (operation : Operation) : Operation :=
  { operation with
    state := .proofReady
    request := .transfer member.request
    pendingJson := some member.pendingJson
    receipt := some Receipt.empty
    checkpointHash := none
    backupAcked := false }

/-- Binding and preparing one member, beside a wallet that has its proof. -/
theorem ends_installMember
    {completed : CompletedBatchProofJob}
    {member : CompletedBatchProofMember}
    {operation : Operation}
    {w : MemWallet}
    {pendings : Table Text UInt64}
    {pendingId : UInt64}
    {p : Pending}
    (h : Steps env strict a₀ (a.withWallet w pendings))
    (hoperation : a.operations.get member.operationId = some operation)
    (hstate : operation.state = .feeReserved)
    (hbound : pendings.get member.operationId = some pendingId)
    (hpending : w.pending.lookup pendingId = some p)
    (hread : MemWallet.readPending env.wallet member.pendingJson = .ok p) :
    Ends (installMember completed member) a (fun r a' => ∀ v, r = .ok v →
      a'.batches = a.batches ∧ a'.pendingByOperation = a.pendingByOperation ∧
        a'.operations = a.operations.modify member.operationId member.installed ∧
          Steps env strict a₀ (a'.withWallet w pendings)) := by
  unfold installMember
  refine Ends.bind (ends_persistDependencyReobservationsAt
    (Steps.refl a : Steps env strict a a)) (fun _ _ _ _ hv => of_error_eq_ok hv) ?_
  intro _ a₁ hr
  have hsame : a.SameCore a₁ := hr.2 _ rfl
  have hoperation₁ : a₁.operations.get member.operationId = some operation := by
    rw [hsame.operations]
    exact hoperation
  refine ends_demand_bind (fun _ _ hv => of_error_eq_ok hv) ?_
  intro _ _ _
  refine ⟨hsame.batches, hsame.pendingByOperation, ?_, ?_⟩
  · show a₁.operations.modify member.operationId member.installed = _
    rw [hsame.operations]
  · exact (h.withAside hsame).then (Step.ready member.operationId member.pendingJson
      member.installed hoperation₁ hstate hbound hpending (Or.inl hread) rfl rfl rfl rfl rfl rfl)

/-- Binding and preparing the members one after the other. -/
theorem ends_installMembers
    {completed : CompletedBatchProofJob}
    {members : List CompletedBatchProofMember}
    {entries : List (Text × Text × UInt64)}
    {w w' : MemWallet}
    {pendings : Table Text UInt64}
    (h : Steps env strict a₀ (a.withWallet w pendings))
    (himported : MembersImported env a members w w' entries)
    (hnodup : (members.map CompletedBatchProofMember.operationId).Nodup) :
    Ends (each members (installMember completed)) a (fun r a' => ∀ v, r = .ok v →
      a'.batches = a.batches ∧ a'.pendingByOperation = a.pendingByOperation ∧
        Steps env strict a₀ (a'.withWallet w' ((entries.map (fun entry =>
          (entry.1, entry.2.2))).foldl (fun map entry => map.put entry.1 entry.2) pendings))) := by
  obtain ⟨himports, htexts, hfunded⟩ := himported
  induction members generalizing a entries w pendings with
  | nil =>
      obtain rfl := List.map_eq_nil_iff.mp htexts
      cases himports
      exact fun _ _ => ⟨rfl, rfl, h⟩
  | cons member rest ih =>
      cases himports with
      | nil =>
          cases htexts
      | cons himport hconflicts havailable hrest =>
          rw [List.map_cons, List.map_cons, List.cons.injEq, Prod.mk.injEq] at htexts
          obtain ⟨⟨rfl, rfl⟩, htexts⟩ := htexts
          rw [List.map_cons, List.nodup_cons] at hnodup
          obtain ⟨operation, hoperation, hstate⟩ := hfunded member List.mem_cons_self
          have hinstall := h.then (Step.install member.operationId member.pendingJson himport
            hconflicts havailable (WalletStep.refl _) hoperation hstate)
          obtain ⟨p, hread, rfl, rfl⟩ := importPending_spec himport
          refine Ends.bind (ends_installMember (h := hinstall) hoperation hstate
            (by simp [Table.get_put]) (AList.lookup_insert _) hread)
            (fun _ _ _ _ hv => of_error_eq_ok hv) ?_
          intro _ a₁ hr
          obtain ⟨hbatches, hpendings, hoperations, h₁⟩ := hr _ rfl
          refine Ends.mono (ih h₁ hnodup.2 hrest htexts ?_) ?_
          · intro member' hmember'
            have hne : member'.operationId ≠ member.operationId := fun heq =>
              hnodup.1 (heq ▸ List.mem_map_of_mem hmember')
            rw [hoperations, Table.get_modify_of_ne hne]
            exact hfunded member' (List.mem_cons_of_mem _ hmember')
          · intro r a₂ hr v hv
            obtain ⟨hbatches', hpendings', hsteps⟩ := hr v hv
            exact ⟨hbatches'.trans hbatches, hpendings'.trans hpendings, hsteps⟩

/-- A loop of notes on the rows of operations. -/
theorem leaves_noteOperations
    {β : Type}
    {xs : List β}
    {key : β → Text}
    {f : Operation → Operation}
    {w : MemWallet}
    {pendings map : Table Text UInt64}
    (h : Steps env strict a₀ (a.withWallet w pendings))
    (hmap : a.pendingByOperation = map)
    (hf : ∀ operation, RowStep env none operation (f operation)) :
    Leaves (each xs (fun x => updateOperation (key x) f)) a (fun a' =>
      a'.pendingByOperation = map ∧ Steps env strict a₀ (a'.withWallet w pendings)) := by
  refine leaves_each ⟨hmap, h⟩ ?_
  rintro x _ a' ⟨hmap', h'⟩
  exact ⟨hmap', h'.withRow (key x) f (fun operation _ => hf operation)⟩

/-- The rows of a batch and its members, with the new wallet beside them. -/
theorem ends_installBatch
    {completed : CompletedBatchProofJob}
    {batch : SendBatch}
    {entries : List (Text × Text × UInt64)}
    {w w' : MemWallet}
    (h : Steps env strict a₀ (a.withWallet w a.pendingByOperation))
    (himported : MembersImported env a completed.members w w' entries)
    (hnodup : (completed.members.map CompletedBatchProofMember.operationId).Nodup)
    (hbatch : a.batches.get completed.batchLocalId = some batch)
    (hstate : batch.state = .frozen) :
    Ends (installBatch env completed) a (fun r a' =>
      match r with
      | .error _ => a = a'
      | .ok _ => a'.pendingByOperation = a.pendingByOperation ∧
          Steps env strict a₀ (a'.withWallet w' ((entries.map (fun entry =>
            (entry.1, entry.2.2))).foldl (fun map entry => map.put entry.1 entry.2)
              a.pendingByOperation))) := by
  unfold installBatch
  refine ends_atomic.mpr ?_
  refine Ends.bind (ends_installMembers h himported hnodup) (fun _ _ _ => rfl) ?_
  intro _ a₁ hr
  obtain ⟨hbatches, hpendings, h₁⟩ := hr _ rfl
  have hadvance : ∀ batch', a₁.batches.get completed.batchLocalId = some batch' →
      batch'.state = .frozen := by
    intro batch' hbatch'
    rw [hbatches, hbatch] at hbatch'
    rw [← Option.some.inj hbatch']
    exact hstate
  refine ends_modify_bind (ends_modify_bind (ends_reads_bind (fun _ => rfl) ?_))
  intro hash _
  refine ends_modify_bind ?_
  set g : SendBatch → SendBatch := fun batch =>
    { batch with
      state := .proofReady
      proposalWire := some completed.proposalWire
      manifestWire := some completed.manifestWire
      receipt := some BatchReceipt.empty
      checkpointHash := none
      backupAcked := false }
  have h₂ : Steps env strict a₀ (Account.withWallet
      { a₁ with
        batches := a₁.batches.modify completed.batchLocalId g
        activeBatchProof := none } _ _) :=
    (h₁.withBatchRow completed.batchLocalId g (fun batch' hbatch' =>
      .advanced (Or.inr ⟨hadvance batch' hbatch', rfl⟩) rfl rfl)).withAside
        ⟨rfl, rfl, rfl, rfl, rfl, rfl, rfl, rfl, rfl, rfl⟩
  have h₃ := h₂.withBatchRow completed.batchLocalId (fun batch =>
    { batch with checkpointHash := some hash }) (fun _ _ => .note rfl rfl rfl)
  refine Ends.mono (leaves_noteOperations h₃ hpendings
    (fun _ => .note rfl ⟨rfl, rfl, rfl, rfl⟩ rfl)) ?_
  intro r a' hr
  cases r with
  | error e => rfl
  | ok v => exact hr

theorem steps_finishSendBatchProof
    {completed : CompletedBatchProofJob}
    (h : Steps env strict a₀ a) :
    Leaves (finishSendBatchProof env world completed) a (Steps env strict a₀) := by
  unfold finishSendBatchProof
  refine leaves_reads h ?_
  intro batch hbatch
  rw [sendBatch_eq_ok_iff] at hbatch
  refine leaves_ite ?_ ?_
  · intro _
    exact h.then (Step.aside ⟨rfl, rfl, rfl, rfl, rfl, rfl, rfl, rfl, rfl, rfl⟩)
  · intro _
    refine leaves_get (leaves_demand h ?_)
    intro hfrozen
    have hstate : batch.state = .frozen := by
      simp only [Bool.and_eq_true, beq_iff_eq] at hfrozen
      exact hfrozen.1
    refine leaves_lift h ?_
    rintro ⟨outpoint, stock⟩ _
    refine leaves_demand h ?_
    intro _
    refine leaves_demand h ?_
    intro hmembers
    have hnodup : (completed.members.map CompletedBatchProofMember.operationId).Nodup := by
      rw [← beq_iff_eq.mp hmembers]
      exact nodup_memberIds a completed.batchLocalId
    refine leaves_step (ends_orCancelBatch h) ?_
    rintro _ _ _ rfl
    have hmark : WalletStep env.wallet a.protocol _ :=
      WalletStep.markSpent a.protocol completed.reconciledSpentCoinIds
    cases hspent : a.protocol.markSpent env.wallet completed.reconciledSpentCoinIds with
    | mk w result =>
        rw [hspent] at hmark
        cases result with
        | error e =>
            exact h
        | ok _ =>
            refine leaves_bind ?_
            show Leaves (importMembers env world completed completed.members w >>= _) a _
            refine leaves_step (ends_importMembers h) ?_
            rintro ⟨w', pendings⟩ a' _ ⟨rfl, entries, himported, rfl⟩
            have hwallet : Steps env strict a₀ (a.withWallet w a.pendingByOperation) :=
              h.then (Step.wallet hmark)
            refine leaves_bind (Ends.mono (ends_installBatch hwallet himported hnodup hbatch
              hstate) ?_)
            intro r a' hr
            cases r with
            | error e =>
                exact hr ▸ h
            | ok _ =>
                obtain ⟨hpendings, h'⟩ := hr
                show Steps env strict a₀ (a'.withWallet w' _)
                rw [hpendings]
                exact h'

theorem steps_failSendBatchProof
    {α : Type}
    {batchLocalId : Text}
    {error : AccountError}
    (h : Steps env strict a₀ a) :
    Leaves (failSendBatchProof batchLocalId error : AccountCall α) a (Steps env strict a₀) := by
  unfold failSendBatchProof
  refine leaves_modify ?_
  have hclear : Steps env strict a₀ { a with activeBatchProof := none } :=
    h.then (Step.aside ⟨rfl, rfl, rfl, rfl, rfl, rfl, rfl, rfl, rfl, rfl⟩)
  extract_lets jp
  have hjp : ∀ a', Steps env strict a₀ a' → Leaves (jp ()) a' (Steps env strict a₀) := by
    intro a' h'
    refine Leaves.bind (steps_updateBatch h' (fun _ _ => .note rfl rfl rfl)) (fun _ h => h) ?_
    intro _ a'' h''
    exact h''
  refine leaves_ite ?_ ?_
  · intro _
    exact hjp _ hclear
  · intro _
    refine leaves_get ?_
    cases hids : Account.memberIds { a with activeBatchProof := none } batchLocalId with
    | nil =>
        refine Leaves.bind (steps_cancelSendBatch hclear) (fun _ h => h) ?_
        exact fun _ a' h' => hjp a' h'
    | cons id rest =>
        have hmember : a.members.get id ≠ none := by
          obtain ⟨member, hget, -⟩ := mem_memberIds_iff.mp
            (hids ▸ List.mem_cons_self : id ∈ Account.memberIds _ batchLocalId)
          intro hnone
          cases hnone.symm.trans hget
        refine Leaves.bind (steps_rejectPrebroadcastOperation hclear
          (fun _ hnone => absurd hnone hmember)) (fun _ h => h) ?_
        exact fun _ a' h' => hjp a' h'

end Finishing

end OpenCsv
