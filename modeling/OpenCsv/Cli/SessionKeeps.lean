import OpenCsv.Cli.IngestSteps

/-!
# What is stored stays

Files of a session are only added: a write under a name that is taken changes nothing, and a
call that fails has at most added files.

**Results.** However the writes of a frame end, what was stored before is stored after
(`keeps_ingest`), and opening a directory changes no file (`keeps_open`).
-/

namespace OpenCsv

open Call

variable {K S R X : Type}
variable {crate : GossipCrate K S R X}
variable {sponge : Sponge}
variable {s s' s'' : Session K X}

/-- Everything that is stored is still stored. -/
structure Keeps (s s' : Session K X) : Prop where
  read : ∀ path bytes, s.root.read path = some bytes → s'.root.read path = some bytes
  frames : ∀ id wire, s.root.frames.get id = some wire → s'.root.frames.get id = some wire
  signed : ∀ id bytes, s.root.signed.get id = some bytes → s'.root.signed.get id = some bytes
  policy : s.policy = s.root.policy →
    s'.policy = s'.root.policy ∧ s'.policy.chainId = s.policy.chainId

namespace Keeps

theorem refl
    (s : Session K X) :
    Keeps s s :=
  ⟨fun _ _ h => h, fun _ _ h => h, fun _ _ h => h, fun h => ⟨h, rfl⟩⟩

theorem trans
    (h : Keeps s s')
    (h' : Keeps s' s'') :
    Keeps s s'' where
  read := fun path bytes hread => h'.read path bytes (h.read path bytes hread)
  frames := fun id wire hget => h'.frames id wire (h.frames id wire hget)
  signed := fun id bytes hget => h'.signed id bytes (h.signed id bytes hget)
  policy := fun hpolicy =>
    ⟨(h'.policy (h.policy hpolicy).1).1,
      (h'.policy (h.policy hpolicy).1).2.trans (h.policy hpolicy).2⟩

/-- Only the index changes. -/
theorem of_root_eq
    (hroot : s'.root = s.root)
    (hpolicy : s.policy = s.root.policy → s'.policy = s.policy) :
    Keeps s s' := by
  constructor
  · intro path bytes h
    rwa [hroot]
  · intro id wire h
    rwa [hroot]
  · intro id bytes h
    rwa [hroot]
  · intro h
    rw [hpolicy h, hroot]
    exact ⟨h, rfl⟩

end Keeps

section Writes

/-- A row that is inserted hides no other. -/
theorem Table.get_insert_of_get
    {κ ρ : Type}
    [DecidableEq κ]
    {t : Table κ ρ}
    {k k' : κ}
    {r r' : ρ}
    (h : t.get k' = some r') :
    (t.insert k r).get k' = some r' := by
  rw [Table.get_insert]
  split_ifs with hk
  · rw [← hk, h]
    rfl
  · exact h

theorem SessionRoot.read_write_of_read
    {root : SessionRoot X}
    {path path' : SemanticPath}
    {bytes bytes' : List UInt8}
    (hnew : root.read path = none)
    (h : root.read path' = some bytes') :
    (root.write path bytes).read path' = some bytes' := by
  cases path <;> cases path' <;> simp only [SessionRoot.read, SessionRoot.write] at hnew h ⊢ <;>
    first
      | exact h
      | exact Table.get_insert_of_get h
      | (rw [hnew] at h; cases h)

theorem keeps_store
    {object : SemanticObject K S}
    {payload : List UInt8}
    (hnew : s.root.read (object.path crate) = none) :
    Keeps s (s.store crate object payload) := by
  refine ⟨fun path bytes h => SessionRoot.read_write_of_read hnew h, ?_, ?_, ?_⟩
  · intro id wire h
    cases object <;> exact h
  · intro id bytes h
    cases object <;> exact h
  · intro h
    cases object <;> exact ⟨h, rfl⟩

theorem Session.remember_policy
    (object : SemanticObject K S)
    (sender : K) :
    (s.remember crate object sender).policy = s.policy := by
  cases object with
  | commitment c =>
      rw [Session.remember]
      split_ifs <;> rfl
  | _ => rfl

theorem keeps_remember
    (object : SemanticObject K S)
    (sender : K) :
    Keeps s (s.remember crate object sender) :=
  Keeps.of_root_eq (Session.remember_root s object sender)
    (fun _ => Session.remember_policy object sender)

theorem keeps_putFrame
    (frame : SignedFrame K R)
    (wire : List UInt8) :
    Keeps s (s.putFrame crate frame wire) := by
  refine ⟨?_, fun id wire h => Table.get_insert_of_get h, fun _ _ h => h, fun h => ⟨h, rfl⟩⟩
  intro path bytes h
  cases path <;> exact h

/-- The state that a result carries. -/
def resultState {ε σ α : Type} : EStateM.Result ε σ α → σ
  | .ok _ s => s
  | .error _ s => s

theorem keeps_writeFrame
    (io : IngestWrite → WriteOutcome)
    (frame : SignedFrame K R)
    (wire : List UInt8) :
    Keeps s (resultState (writeFrame crate io frame wire s)) := by
  have hput : Keeps s (s.putFrame crate frame wire) := keeps_putFrame frame wire
  have hcount : Keeps s ((s.putFrame crate frame wire).count wire.length) :=
    hput.trans (Keeps.of_root_eq rfl (fun _ => rfl))
  unfold writeFrame
  cases io .frame with
  | failed => exact Keeps.refl s
  | unsynced => exact hput
  | done =>
      simp only []
      by_cases hevent : io .event = .done
      · rw [if_pos hevent]
        exact hcount
      · rw [if_neg hevent]
        exact hcount

theorem keeps_writeAll
    (io : IngestWrite → WriteOutcome)
    (frame : SignedFrame K R)
    (object : SemanticObject K S)
    (wire : List UInt8) :
    Keeps s (resultState (writeAll crate io frame object wire s)) := by
  unfold writeAll
  by_cases hread : (s.root.read (object.path crate)).isSome
  · rw [if_pos hread]
    exact (keeps_remember object frame.sender).trans (keeps_writeFrame io frame wire)
  · have hstore : Keeps s (s.store crate object frame.payload) :=
      keeps_store (by simpa using hread)
    rw [if_neg hread]
    cases io .semantic with
    | failed => exact Keeps.refl s
    | unsynced => exact hstore
    | done =>
        exact (hstore.trans (keeps_remember object frame.sender)).trans
          (keeps_writeFrame io frame wire)

end Writes

section Calls

variable [DecidableEq K] [DecidableEq R]

/-- However the writes of a frame end, nothing stored is lost. -/
theorem keeps_ingest
    (io : IngestWrite → WriteOutcome)
    (wire : List UInt8) :
    Keeps s (final (ingest crate sponge io wire) s) := by
  have hfinal : final (ingest crate sponge io wire) s =
      resultState (ingest crate sponge io wire s) := rfl
  rw [hfinal, ingest_apply]
  cases s.arrival crate sponge wire with
  | error e => exact Keeps.refl s
  | ok brought =>
      rcases brought with _ | ⟨frame, object⟩
      · exact Keeps.refl s
      · exact keeps_writeAll io frame object wire

omit [DecidableEq K] [DecidableEq R] in
theorem RelayPolicy.validate_eq_ok_iff
    {policy policy' : RelayPolicy} :
    policy.validate = .ok policy' ↔
      policy' = policy ∧ 1 ≤ policy.maxCommitments ∧ policy.maxCommitments ≤ 64 ∧
        policy.maxReplacementEpochs ≠ 0 ∧ 4096 ≤ policy.maxSessionBytes ∧
        4096 ≤ policy.maxEventBytes := by
  simp only [validate, except_bind_eq_ok_iff, require_eq_ok_iff, pure, Except.pure,
    Except.ok.injEq, Bool.and_eq_true, decide_eq_true_eq, bne_iff_ne, ne_eq, exists_const,
    and_assoc]
  constructor
  · rintro ⟨h1, h2, h3, h4, h5, rfl⟩
    exact ⟨rfl, h1, h2, h3, h4, h5⟩
  · rintro ⟨rfl, h1, h2, h3, h4, h5⟩
    exact ⟨h1, h2, h3, h4, h5, rfl⟩

/-- What is in memory when a directory is opened. -/
theorem Session.openRoot_eq_ok_iff
    {root : SessionRoot X} :
    openRoot crate root = .ok s' ↔
      root.relayPolicy.validate = .ok root.relayPolicy ∧
        rebuildSessionIndex crate root root.relayPolicy =
          .ok (s'.commitments, s'.commitmentSenders, s'.storedFrameBytes) ∧
        s'.root = root ∧ s'.policy = root.policy ∧ s'.relayPolicy = root.relayPolicy ∧
        s'.identity = root.identity := by
  simp only [openRoot, except_bind_eq_ok_iff, pure, Except.pure, Except.ok.injEq]
  constructor
  · rintro ⟨relayPolicy, hpolicy, index, hindex, rfl⟩
    obtain ⟨rfl, -⟩ := RelayPolicy.validate_eq_ok_iff.mp hpolicy
    exact ⟨hpolicy, hindex, rfl, rfl, rfl, rfl⟩
  · rintro ⟨hpolicy, hindex, rfl, hsession, hrelay, hidentity⟩
    refine ⟨_, hpolicy, _, hindex, ?_⟩
    cases s'
    simp only at hsession hrelay hidentity
    rw [hsession, hrelay, hidentity]

theorem keeps_open
    (h : Session.openRoot crate s.root = .ok s') :
    Keeps s s' := by
  obtain ⟨-, -, hroot, hpolicy, -⟩ := Session.openRoot_eq_ok_iff.mp h
  exact Keeps.of_root_eq hroot (fun heq => hpolicy.trans heq.symm)

end Calls

end OpenCsv
