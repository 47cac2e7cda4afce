import OpenCsv.Cli.SessionKeeps

/-!
# What is read back

The proposal of a session never changes, but it is accepted only while it has not expired.

**Results.** Reading the proposal succeeds exactly when it is stored, belongs to the chain of
the session, and has not expired at its height (`Session.loadProposal_eq_some_iff`).
-/

namespace OpenCsv

open Call

variable {K S R X : Type}
variable {crate : GossipCrate K S R X}
variable {s s' : Session K X}

section Proposals

variable {proposal : Proposal K}

theorem readLimited_eq_ok_iff
    {bytes bytes' : List UInt8}
    {limit : ℕ}
    {path : Text} :
    readLimited bytes limit path = .ok bytes' ↔ bytes.length ≤ limit ∧ bytes' = bytes := by
  simp only [readLimited, except_bind_eq_ok_iff, require_eq_ok_iff, decide_eq_true_eq, pure,
    Except.pure, Except.ok.injEq]
  constructor
  · rintro ⟨_, hlength, rfl⟩
    exact ⟨hlength, rfl⟩
  · rintro ⟨hlength, rfl⟩
    exact ⟨(), hlength, rfl⟩

/-- The proposal in a file of the directory. -/
def ReadsProposal
    (crate : GossipCrate K S R X)
    (wire : List UInt8)
    (proposal : Proposal K) : Prop :=
  wire.length ≤ maxPayloadBytes ∧
    Proposal.fromWire crate.toBitcoinCrate wire = .ok proposal ∧ proposal.version = batchVersion

theorem ReadsProposal.validate
    {wire : List UInt8}
    (h : ReadsProposal crate wire proposal) :
    proposal.validate = .ok () := by
  obtain ⟨-, hread, -⟩ := h
  simp only [Proposal.fromWire, except_bind_eq_ok_iff, pure, Except.pure,
    Except.ok.injEq] at hread
  obtain ⟨_, -, _, -, ⟨⟩, hvalid, _, -, rfl⟩ := hread
  exact hvalid

theorem ReadsProposal.unique
    {wire : List UInt8}
    {proposal' : Proposal K}
    (h : ReadsProposal crate wire proposal)
    (h' : ReadsProposal crate wire proposal') :
    proposal = proposal' :=
  Except.ok.inj (h.2.1.symm.trans h'.2.1)

theorem requireLiveProposal_eq_ok_iff :
    requireLiveProposal proposal = .ok () ↔ proposal.version = batchVersion := by
  rw [requireLiveProposal, require_eq_ok_iff, decide_eq_true_eq]

theorem Proposal.validateAt_eq_ok_iff
    {chainId : Bytes 32}
    {height : UInt32} :
    proposal.validateAt chainId height = .ok () ↔
      proposal.validate = .ok () ∧ proposal.chainId = chainId ∧
        height < proposal.expiryHeight := by
  simp only [validateAt, except_bind_eq_ok_iff, require_eq_ok_iff, decide_eq_true_eq]
  constructor
  · rintro ⟨⟨⟩, hvalid, _, hchain, hheight⟩
    exact ⟨hvalid, hchain, hheight⟩
  · rintro ⟨hvalid, hchain, hheight⟩
    exact ⟨(), hvalid, (), hchain, hheight⟩

/-- The stored proposal, whatever the height. -/
theorem storedProposal_eq_some_iff
    {root : SessionRoot X} :
    storedProposal crate root = .ok (some proposal) ↔
      ∃ wire, root.proposal = some wire ∧ ReadsProposal crate wire proposal := by
  unfold storedProposal ReadsProposal
  cases root.proposal with
  | none => simp
  | some wire =>
      simp only [except_bind_eq_ok_iff, readLimited_eq_ok_iff, mapError_eq_ok_iff, pure,
        Except.pure, Except.ok.injEq, Option.some.injEq]
      constructor
      · rintro ⟨_, ⟨hlength, rfl⟩, _, hread, ⟨⟩, hlive, rfl⟩
        exact ⟨_, rfl, hlength, hread, requireLiveProposal_eq_ok_iff.mp hlive⟩
      · rintro ⟨_, rfl, hlength, hread, hlive⟩
        exact ⟨_, ⟨hlength, rfl⟩, _, hread, (), requireLiveProposal_eq_ok_iff.mpr hlive, rfl⟩

theorem storedProposal_eq_none_iff
    {root : SessionRoot X} :
    storedProposal crate root = .ok none ↔ root.proposal = none := by
  unfold storedProposal
  cases root.proposal with
  | none => simp
  | some wire =>
      simp only [except_bind_eq_ok_iff, pure, Except.pure, Except.ok.injEq, reduceCtorEq,
        and_false, exists_false]

/-- The stored proposal is accepted on its chain until it expires. -/
theorem Session.loadProposal_eq_some_iff :
    s.loadProposal crate = .ok (some proposal) ↔
      storedProposal crate s.root = .ok (some proposal) ∧
        proposal.chainId = s.policy.chainId ∧ s.policy.currentHeight < proposal.expiryHeight := by
  rw [storedProposal_eq_some_iff]
  unfold loadProposal
  cases s.root.proposal with
  | none => simp
  | some wire =>
      simp only [except_bind_eq_ok_iff, readLimited_eq_ok_iff, mapError_eq_ok_iff, pure,
        Except.pure, Except.ok.injEq, Option.some.injEq]
      constructor
      · rintro ⟨_, ⟨hlength, rfl⟩, _, hread, ⟨⟩, hlive, ⟨⟩, hvalid, rfl⟩
        obtain ⟨-, hchain, hheight⟩ := Proposal.validateAt_eq_ok_iff.mp hvalid
        exact ⟨⟨_, rfl, hlength, hread, requireLiveProposal_eq_ok_iff.mp hlive⟩, hchain, hheight⟩
      · rintro ⟨⟨_, rfl, hread⟩, hchain, hheight⟩
        exact ⟨_, ⟨hread.1, rfl⟩, _, hread.2.1, (), requireLiveProposal_eq_ok_iff.mpr hread.2.2,
          (), Proposal.validateAt_eq_ok_iff.mpr ⟨hread.validate, hchain, hheight⟩, rfl⟩

theorem Session.loadProposal_eq_none_iff :
    s.loadProposal crate = .ok none ↔ s.root.proposal = none := by
  unfold loadProposal
  cases s.root.proposal with
  | none => simp
  | some wire =>
      simp only [except_bind_eq_ok_iff, pure, Except.pure, Except.ok.injEq, reduceCtorEq,
        and_false, exists_false]

theorem Session.requireProposal_eq_ok_iff
    {message : String} :
    s.requireProposal crate message = .ok proposal ↔
      s.loadProposal crate = .ok (some proposal) := by
  simp only [requireProposal, except_bind_eq_ok_iff, okOr_eq_ok_iff]
  constructor
  · rintro ⟨_, hload, rfl⟩
    exact hload
  · intro hload
    exact ⟨_, hload, rfl⟩

/-- A stored proposal stays. -/
theorem Keeps.storedProposal
    (h : Keeps s s')
    (hstored : storedProposal crate s.root = .ok (some proposal)) :
    OpenCsv.storedProposal crate s'.root = .ok (some proposal) := by
  obtain ⟨wire, hwire, hread⟩ := storedProposal_eq_some_iff.mp hstored
  exact storedProposal_eq_some_iff.mpr ⟨wire, h.read .proposal wire hwire, hread⟩

end Proposals

end OpenCsv
