import OpenCsv.Account.Recovery

/-!
# What rebuilding a wallet leaves alone

The steps that open and restore share read the database and write the protocol wallet in
memory.  Only the quarantine of finalized operations, the locks of the fee wallet and
the registry floor are written besides.
-/

namespace OpenCsv

open Call
open AcceptKernel (RejectReason)

variable {π : Type}
variable {env : AccountEnv π}
variable {a₀ a a' a'' : Account}

/-- Two accounts that differ at most in the protocol wallet and its pending proofs. -/
def Account.SameDatabase (a a' : Account) : Prop :=
  ∃ w pendings, a' = { a with protocol := w, pendingByOperation := pendings }

section Database

theorem Account.SameDatabase.refl
    (a : Account) :
    a.SameDatabase a :=
  ⟨a.protocol, a.pendingByOperation, rfl⟩

theorem Account.SameDatabase.trans
    (h : a.SameDatabase a')
    (h' : a'.SameDatabase a'') :
    a.SameDatabase a'' := by
  obtain ⟨w, pendings, rfl⟩ := h
  obtain ⟨w', pendings', rfl⟩ := h'
  exact ⟨w', pendings', rfl⟩

theorem Account.SameDatabase.protocol
    (h : a₀.SameDatabase a)
    (w : MemWallet) :
    a₀.SameDatabase { a with protocol := w } := by
  obtain ⟨w', pendings, rfl⟩ := h
  exact ⟨w, pendings, rfl⟩

end Database

section Steps

theorem sameDatabase_restoreIssuers
    (h : a₀.SameDatabase a) :
    Leaves (restoreIssuers env) a a₀.SameDatabase := by
  unfold restoreIssuers
  refine leaves_get (leaves_each h ?_)
  rintro ⟨index, asset⟩ _ a' h'
  refine leaves_reads h' ?_
  rintro ⟨actualId, w⟩ _
  exact leaves_modify (leaves_check (h'.protocol w))

theorem sameDatabase_replaySpend
    {coinId : Text}
    (h : a₀.SameDatabase a) :
    Leaves (replaySpend env coinId) a a₀.SameDatabase := by
  unfold replaySpend
  refine leaves_get ?_
  split
  · exact h.protocol _
  · exact h.protocol _

theorem sameDatabase_replayConsignment
    {consignmentId : Text}
    {stored : StoredConsignment}
    {chain : SnapshotChain}
    (h : a₀.SameDatabase a) :
    Leaves (replayConsignment env consignmentId stored chain) a a₀.SameDatabase := by
  unfold replayConsignment
  refine leaves_get (leaves_ite (fun _ => h) ?_)
  intro _
  refine leaves_modify ?_
  split
  · exact h.protocol _
  · exact h.protocol _
  · exact h.protocol _

theorem sameDatabase_restoreConsignmentState
    (h : a₀.SameDatabase a) :
    Leaves (restoreConsignmentState env) a a₀.SameDatabase := by
  unfold restoreConsignmentState
  refine leaves_get ?_
  refine Leaves.bind (leaves_collect h ?_) (fun _ h' => h') ?_
  · rintro ⟨consignmentId, stored, chain⟩ _ a' h'
    exact sameDatabase_replayConsignment h'
  · intro spent a' h'
    refine leaves_each h' ?_
    intro coinId _ a'' h''
    exact sameDatabase_replaySpend h''

theorem sameDatabase_replayFinalized
    {id : Text}
    {operation : Operation}
    {replayed : ReplayedSpends}
    (h : a₀.SameDatabase a) :
    Leaves (replayFinalized env id operation replayed) a a₀.SameDatabase := by
  unfold replayFinalized
  refine leaves_reads h ?_
  intro found _
  refine leaves_reads h ?_
  rintro ⟨pendingId, w⟩ _
  refine leaves_modify (leaves_lift (h.protocol w) ?_)
  intro spends _
  refine leaves_ite ?_ ?_
  · intro _
    exact h.protocol _
  intro _
  refine leaves_ite ?_ ?_
  · intro _
    refine leaves_modify (leaves_demand (h.protocol _) ?_)
    intro _
    exact h.protocol _
  intro _
  refine leaves_lift (h.protocol w) ?_
  rintro ⟨⟨consignment, spends'⟩, w'⟩ _
  refine leaves_modify (leaves_demand (h.protocol w') ?_)
  intro _
  refine leaves_demand (h.protocol w') ?_
  intro _
  exact h.protocol w'

theorem sameDatabase_replayOperations
    {rows : List (Text × Operation)}
    {replayed : ReplayedSpends}
    (h : a₀.SameDatabase a) :
    Leaves (replayOperations env rows replayed) a a₀.SameDatabase := by
  induction rows generalizing a replayed with
  | nil =>
      exact h
  | cons row rest ih =>
      obtain ⟨id, operation⟩ := row
      refine Leaves.bind (sameDatabase_replayFinalized h) (fun _ h' => h') ?_
      rintro ⟨quarantined, replayed'⟩ a' h'
      refine Leaves.bind (ih h') (fun _ h'' => h'') ?_
      intro _ a'' h''
      exact h''

theorem sameDatabase_restorePendingOperations
    (h : a₀.SameDatabase a) :
    Leaves (restorePendingOperations env) a a₀.SameDatabase := by
  unfold restorePendingOperations
  refine leaves_get (leaves_each h ?_)
  rintro ⟨id, pendingJson⟩ _ a' h'
  refine leaves_reads h' ?_
  rintro ⟨pendingId, w⟩ _
  obtain ⟨w', pendings, rfl⟩ := h'
  exact ⟨w, pendings.put id pendingId, rfl⟩

end Steps

section Credits

/-! Receiving a consignment and marking coins pins assets and writes coins. -/

/-- Two accounts that differ at most in the pinned assets and the coins of the wallet. -/
def Account.Credited (a a' : Account) : Prop :=
  ∃ assets coins, a' = { a with protocol := { a.protocol with assets := assets, coins := coins } }

theorem Account.Credited.refl
    (a : Account) :
    a.Credited a :=
  ⟨a.protocol.assets, a.protocol.coins, rfl⟩

theorem Account.Credited.protocol
    {w : MemWallet}
    (h : a₀.Credited a)
    (hw : ∃ assets coins, w = { a.protocol with assets := assets, coins := coins }) :
    a₀.Credited { a with protocol := w } := by
  obtain ⟨assets, coins, rfl⟩ := h
  obtain ⟨assets', coins', rfl⟩ := hw
  exact ⟨assets', coins', rfl⟩

end Credits

section Rows

variable {world : World}
variable {checkpoint : Checkpoint}

/-- What an import of rows does not write: the wallet in memory and the registry. -/
structure Account.SameMemory (a a' : Account) : Prop where
  protocol : a'.protocol = a.protocol
  pendingByOperation : a'.pendingByOperation = a.pendingByOperation
  registryFloor : a'.registryFloor = a.registryFloor
  registryState : a'.registryState = a.registryState

theorem Account.SameMemory.refl
    (a : Account) :
    a.SameMemory a :=
  ⟨rfl, rfl, rfl, rfl⟩

/-- Rows may be written beside the memory. -/
theorem Account.SameMemory.write
    (h : a₀.SameMemory a)
    (hprotocol : a'.protocol = a.protocol := by rfl)
    (hpending : a'.pendingByOperation = a.pendingByOperation := by rfl)
    (hfloor : a'.registryFloor = a.registryFloor := by rfl)
    (hstate : a'.registryState = a.registryState := by rfl) :
    a₀.SameMemory a' :=
  ⟨hprotocol.trans h.protocol, hpending.trans h.pendingByOperation, hfloor.trans h.registryFloor,
    hstate.trans h.registryState⟩

end Rows

end OpenCsv
