import OpenCsv.Cli.SessionRuns

/-!
# Refused and repeated frames

A frame that is refused by a check leaves no trace.  Files are written one after the other,
though, and a write that fails does not take back what the call has already written or put into
the index.

A frame that was accepted is recognized by its body.  A commitment is matched with the proposal
before it is recognized, and the proposal is checked against the height of the chain.

**Results.** A call that fails has changed nothing exactly when its writes are not torn
(`ingest_unchanged_iff`), and an accepted frame is recognized in every later state, for
commitments as long as the proposal has not expired (`ingest_again_iff`).
-/

namespace OpenCsv

open Call

section Idempotence

variable {K S R X : Type}
variable {crate : GossipCrate K S R X}
variable {sponge : Sponge}
variable {s s' : Session K X}

section Torn

/-- Would the object be added to the index? -/
def Session.isNewCommitment
    (s : Session K X)
    (crate : GossipCrate K S R X) : SemanticObject K S → Bool
  | .commitment c => !s.indexed crate c
  | _ => false

/-- A write fails with something of the call already in place: a file, or the index. -/
def torn
    (crate : GossipCrate K S R X)
    (io : IngestWrite → WriteOutcome)
    (s : Session K X)
    (object : SemanticObject K S) : Bool :=
  let stored := (s.root.read (object.path crate)).isSome
  if !stored && io .semantic != .done then io .semantic == .unsynced
  else if io .frame != .done then
    io .frame == .unsynced || !stored || s.isNewCommitment crate object
  else io .event != .done

variable {frame : SignedFrame K R}
variable {object : SemanticObject K S}
variable {wire : List UInt8}

theorem SessionRoot.read_write
    {root : SessionRoot X}
    {path : SemanticPath}
    {bytes : List UInt8}
    (h : root.read path = none) :
    (root.write path bytes).read path = some bytes := by
  cases path <;> simp only [SessionRoot.read, SessionRoot.write] at h ⊢ <;>
    exact Table.get_insert_self_of_none h

theorem Session.remember_of_indexed
    (h : s.isNewCommitment crate object = false)
    (sender : K) :
    s.remember crate object sender = s := by
  cases object with
  | commitment c =>
      have hindexed : s.indexed crate c = true := by
        simpa [isNewCommitment] using h
      rw [remember, if_pos hindexed]
  | _ => rfl

theorem Session.remember_ne
    (h : s.isNewCommitment crate object = true)
    (sender : K) :
    s.remember crate object sender ≠ s := by
  cases object with
  | commitment c =>
      have hnew : ¬s.indexed crate c = true := by
        simpa [isNewCommitment] using h
      rw [remember, if_neg hnew]
      intro heq
      have hlength := congrArg (fun t : Session K X => t.commitments.length) heq
      simp at hlength
  | _ => cases h

/-- If the result is an error, its state is the one before. -/
def ErrorKeeps {α : Type} (s : Session K X) :
    EStateM.Result GossipError (Session K X) α → Prop
  | .ok _ _ => True
  | .error _ s' => s' = s

theorem errorKeeps_iff
    {α : Type}
    {c : Call GossipError (Session K X) α} :
    ErrorKeeps s (c s) ↔ ∀ e, answer c s = .error e → final c s = s := by
  unfold answer final
  cases c s with
  | ok a s' => simp [ErrorKeeps]
  | error e s' => simp [ErrorKeeps]

/-- A frame that is written shows in the state. -/
theorem putFrame_ne
    (hnew : s.root.frames.get (frame.semanticFrameId crate) = none)
    (hframes : s'.root.frames = s.root.frames) :
    s'.putFrame crate frame wire ≠ s ∧ (s'.putFrame crate frame wire).count wire.length ≠ s := by
  have hget : (s'.putFrame crate frame wire).root.frames.get (frame.semanticFrameId crate) =
      some wire := by
    refine Table.get_insert_self_of_none ?_
    rw [hframes]
    exact hnew
  constructor
  · intro heq
    rw [heq, hnew] at hget
    cases hget
  · intro heq
    have hroot : (s'.putFrame crate frame wire).root = s.root := by
      rw [← heq]
      rfl
    rw [hroot, hnew] at hget
    cases hget

/-- An object that is written shows in the state. -/
theorem store_ne
    (hnew : s.root.read (object.path crate) = none)
    (hroot : s'.root = (s.store crate object frame.payload).root) :
    s' ≠ s := by
  rintro rfl
  have hread := @SessionRoot.read_write _ _ _ frame.payload hnew
  rw [hroot] at hnew
  rw [Session.store] at hnew
  rw [hnew] at hread
  cases hread

/-- The writes of the frame itself, from a state with the same frames. -/
theorem writeFrame_keeps_iff
    (io : IngestWrite → WriteOutcome)
    (hnew : s.root.frames.get (frame.semanticFrameId crate) = none)
    (hframes : s'.root.frames = s.root.frames) :
    ErrorKeeps s (writeFrame crate io frame wire s') ↔
      if io .frame = .done then io .event = .done
      else io .frame = .failed ∧ s' = s := by
  obtain ⟨hput, hcount⟩ := @putFrame_ne _ _ _ _ _ _ _ _ wire hnew hframes
  unfold writeFrame
  cases io .frame with
  | failed => simp [ErrorKeeps]
  | unsynced => simp [ErrorKeeps, hput]
  | done => by_cases hevent : io .event = .done <;> simp [ErrorKeeps, hevent, hcount]

/-- A failing write leaves no trace exactly when nothing of the call was in place. -/
theorem writeAll_keeps_iff
    (io : IngestWrite → WriteOutcome)
    (hnew : s.root.frames.get (frame.semanticFrameId crate) = none) :
    ErrorKeeps s (writeAll crate io frame object wire s) ↔ torn crate io s object = false := by
  have hmemory : s.remember crate object frame.sender = s ↔
      s.isNewCommitment crate object = false := by
    cases hindexed : s.isNewCommitment crate object with
    | false => exact iff_of_true (Session.remember_of_indexed hindexed _) rfl
    | true => exact iff_of_false (Session.remember_ne hindexed _) (by simp)
  cases hread : s.root.read (object.path crate) with
  | some existing =>
      rw [writeAll, if_pos (by rw [hread]; rfl), writeFrame_keeps_iff io hnew (by simp), hmemory]
      simp only [torn, hread]
      cases io .frame <;> cases io .event <;> simp
  | none =>
      have hstored : ¬(s.root.read (object.path crate)).isSome := by
        simp [hread]
      have hstore : s.store crate object frame.payload ≠ s := store_ne hread rfl
      have hafter : (s.store crate object frame.payload).remember crate object frame.sender ≠ s :=
        store_ne hread (Session.remember_root _ _ _)
      rw [writeAll, if_neg hstored]
      simp only [torn, hread]
      cases io .semantic with
      | failed => simp [ErrorKeeps]
      | unsynced => simp [ErrorKeeps, hstore]
      | done =>
          simp only []
          have hframes : ((s.store crate object frame.payload).remember crate object
              frame.sender).root.frames = s.root.frames := by
            rw [Session.remember_root]
            cases object <;> rfl
          rw [writeFrame_keeps_iff io hnew hframes]
          cases io .frame <;> cases io .event <;> simp [hafter]

variable [DecidableEq K] [DecidableEq R]

/-- A call that fails changed nothing, exactly when its writes are not torn. -/
theorem ingest_unchanged_iff
    (io : IngestWrite → WriteOutcome)
    (wire : List UInt8) :
    (∀ e, answer (ingest crate sponge io wire) s = .error e →
        final (ingest crate sponge io wire) s = s) ↔
      ∀ frame object, s.arrival crate sponge wire = .ok (some (frame, object)) →
        torn crate io s object = false := by
  rw [← errorKeeps_iff, ingest_apply]
  cases harrival : s.arrival crate sponge wire with
  | error e => simp [ErrorKeeps]
  | ok brought =>
      rcases brought with _ | ⟨frame, object⟩
      · simp [ErrorKeeps]
      · obtain ⟨-, -, hnew, -⟩ := Session.arrival_eq_some_iff.mp harrival
        simp only []
        rw [writeAll_keeps_iff io hnew]
        simp

end Torn

section Again

variable {frame : SignedFrame K R}
variable {object : SemanticObject K S}
variable {wire : List UInt8}

/-- A commitment is authorized by its fee key, while the proposal is accepted. -/
theorem Session.verifyOrigin_commitment_iff
    (hkind : frame.kind = .commitment) :
    s.verifyOriginAuthorization crate frame = .ok () ↔
      ∃ p c, s.loadProposal crate = .ok (some p) ∧
        readCommitment crate p frame.payload = .ok c ∧
        frame.verifyOriginSignature crate c.feePubkey = .ok () := by
  simp only [verifyOriginAuthorization, hkind, except_bind_eq_ok_iff, requireProposal_eq_ok_iff]
  constructor
  · rintro ⟨p, hproposal, c, hcommitment, hsignature⟩
    exact ⟨p, c, hproposal, hcommitment, hsignature⟩
  · rintro ⟨p, c, hproposal, hcommitment, hsignature⟩
    exact ⟨p, hproposal, c, hcommitment, hsignature⟩

/-- The frames of other kinds are authorized by what is in them. -/
theorem Session.verifyOrigin_of_ne
    (hkind : frame.kind ≠ .commitment)
    (s s' : Session K X) :
    s.verifyOriginAuthorization crate frame = s'.verifyOriginAuthorization crate frame := by
  cases hframe : frame.kind with
  | commitment => exact absurd hframe hkind
  | _ => simp only [verifyOriginAuthorization, hframe]

/-- An accepted frame is stored. -/
theorem frames_of_accepted
    {io : IngestWrite → WriteOutcome}
    (hnew : s.root.frames.get (frame.semanticFrameId crate) = none)
    (h : writeAll crate io frame object wire s = .ok .accepted s') :
    s'.root.frames.get (frame.semanticFrameId crate) = some wire := by
  have hwritten : ∀ t : Session K X, t.root.frames = s.root.frames →
      writeFrame crate io frame wire t = .ok .accepted s' →
      s'.root.frames.get (frame.semanticFrameId crate) = some wire := by
    intro t hframes ht
    unfold writeFrame at ht
    cases hframe : io .frame with
    | failed =>
        rw [hframe] at ht
        cases ht
    | unsynced =>
        rw [hframe] at ht
        cases ht
    | done =>
        simp only [hframe] at ht
        split_ifs at ht
        obtain rfl := (EStateM.Result.ok.inj ht).2
        refine Table.get_insert_self_of_none ?_
        rw [hframes]
        exact hnew
  unfold writeAll at h
  split_ifs at h with hread
  · exact hwritten _ (by simp) h
  · cases hsemantic : io .semantic with
    | failed =>
        rw [hsemantic] at h
        cases h
    | unsynced =>
        rw [hsemantic] at h
        cases h
    | done =>
        rw [hsemantic] at h
        refine hwritten _ ?_ h
        rw [Session.remember_root]
        cases object <;> rfl

variable [DecidableEq K] [DecidableEq R]

/-- What is known of an accepted frame. -/
theorem arrival_of_accepted
    {io : IngestWrite → WriteOutcome}
    (h : answer (ingest crate sponge io wire) s = .ok .accepted) :
    ∃ frame object, s.arrival crate sponge wire = .ok (some (frame, object)) ∧
      (final (ingest crate sponge io wire) s).root.frames.get (frame.semanticFrameId crate) =
        some wire := by
  unfold answer at h
  unfold final
  rw [ingest_apply] at h ⊢
  cases harrival : s.arrival crate sponge wire with
  | error e =>
      rw [harrival] at h
      cases h
  | ok brought =>
      rcases brought with _ | ⟨frame, object⟩
      · rw [harrival] at h
        cases h
      · refine ⟨frame, object, rfl, ?_⟩
        rw [harrival] at h
        simp only [] at h ⊢
        obtain ⟨-, -, hnew, -⟩ := Session.arrival_eq_some_iff.mp harrival
        cases hwrites : writeAll crate io frame object wire s with
        | error e s' =>
            rw [hwrites] at h
            cases h
        | ok outcome s' =>
            rw [hwrites] at h
            obtain rfl := Except.ok.inj h
            exact frames_of_accepted hnew hwrites

omit [DecidableEq K] in
/-- A stored frame repeats itself. -/
theorem checkDuplicate_self
    (hframe : SignedFrame.fromWire crate wire = .ok frame) :
    checkDuplicate crate frame wire = .ok () := by
  have hlength := (SignedFrame.of_fromWire hframe).2.2
  simp only [checkDuplicate, except_bind_eq_ok_iff, readLimited_eq_ok_iff, require_eq_ok_iff,
    decide_eq_true_eq]
  exact ⟨wire, ⟨hlength, rfl⟩, frame, hframe, rfl, rfl⟩

variable [DecidableEq S]

/-- The stored proposal has not expired at the height of the session. -/
def Session.Unexpired
    (s : Session K X)
    (crate : GossipCrate K S R X) : Prop :=
  ∀ proposal, storedProposal crate s.root = .ok (some proposal) →
    s.policy.currentHeight < proposal.expiryHeight

/-- An accepted frame is a duplicate later on; a commitment while the proposal stands. -/
theorem ingest_again_iff
    {io io' : IngestWrite → WriteOutcome}
    {s₀ : Session K X}
    (hreach : (sessions crate sponge).Reachable s₀)
    (haccepted : answer (ingest crate sponge io wire) s₀ = .ok .accepted)
    (hlater : (sessions crate sponge).Later (final (ingest crate sponge io wire) s₀) s)
    (hframe : SignedFrame.fromWire crate wire = .ok frame) :
    ingest crate sponge io' wire s = .ok .duplicate s ↔
      (frame.kind = .commitment → s.Unexpired crate) := by
  obtain ⟨frame', object, harrival, hstored⟩ := arrival_of_accepted haccepted
  obtain ⟨hframe', horigin, -, -⟩ := Session.arrival_eq_some_iff.mp harrival
  obtain rfl := Except.ok.inj (hframe.symm.trans hframe')
  have hkeeps : Keeps s₀ s := (keeps_ingest io wire).trans (keeps_later hlater)
  have hstored' := (keeps_later hlater).frames _ _ hstored
  have hduplicate : ingest crate sponge io' wire s = .ok .duplicate s ↔
      s.verifyOriginAuthorization crate frame = .ok () := by
    rw [ingest_apply]
    constructor
    · intro h
      cases harrival' : s.arrival crate sponge wire with
      | error e =>
          rw [harrival'] at h
          cases h
      | ok brought =>
          rcases brought with _ | ⟨frame', object'⟩
          · obtain ⟨frame', _, hframe', horigin', -⟩ := Session.arrival_eq_none_iff.mp harrival'
            obtain rfl := Except.ok.inj (hframe.symm.trans hframe')
            exact horigin'
          · obtain ⟨hframe', -, hnew, -⟩ := Session.arrival_eq_some_iff.mp harrival'
            obtain rfl := Except.ok.inj (hframe.symm.trans hframe')
            rw [hstored'] at hnew
            cases hnew
    · intro h
      have hnone : s.arrival crate sponge wire = .ok none :=
        Session.arrival_eq_none_iff.mpr
          ⟨frame, wire, hframe, h, hstored', checkDuplicate_self hframe⟩
      rw [hnone]
  rw [hduplicate]
  by_cases hkind : frame.kind = .commitment
  · obtain ⟨p, c, hproposal, hcommitment, hsignature⟩ :=
      (Session.verifyOrigin_commitment_iff hkind).mp horigin
    obtain ⟨hp, hchain, -⟩ := Session.loadProposal_eq_some_iff.mp hproposal
    have hp' := hkeeps.storedProposal hp
    have hchain' := (hkeeps.policy (policy_of_reachable hreach)).2
    rw [Session.verifyOrigin_commitment_iff hkind]
    constructor
    · rintro ⟨q, _, hq, -⟩ -
      intro p' hp''
      obtain ⟨hq', -, hheight⟩ := Session.loadProposal_eq_some_iff.mp hq
      obtain rfl := Option.some.inj (Except.ok.inj (hq'.symm.trans hp''))
      exact hheight
    · intro hunexpired
      refine ⟨p, c, Session.loadProposal_eq_some_iff.mpr ⟨hp', ?_, hunexpired hkind p hp'⟩,
        hcommitment, hsignature⟩
      rw [hchain, hchain']
  · rw [Session.verifyOrigin_of_ne hkind s s₀]
    exact iff_of_true horigin (fun h => absurd h hkind)

/--
A failing call leaves no trace exactly when its writes are not torn.  A frame that was accepted
is a duplicate that changes nothing in every later state, for a commitment exactly while the
proposal has not expired.
-/
theorem refused_and_repeated
    (crate : GossipCrate K S R X)
    (sponge : Sponge) :
    (∀ (s : Session K X) (io : IngestWrite → WriteOutcome) (wire : List UInt8),
      (∀ e, answer (ingest crate sponge io wire) s = .error e →
          final (ingest crate sponge io wire) s = s) ↔
        ∀ frame object, s.arrival crate sponge wire = .ok (some (frame, object)) →
          torn crate io s object = false) ∧
      ∀ (s₀ s : Session K X) (io io' : IngestWrite → WriteOutcome) (wire : List UInt8)
        (frame : SignedFrame K R),
        (sessions crate sponge).Reachable s₀ →
        answer (ingest crate sponge io wire) s₀ = .ok .accepted →
        (sessions crate sponge).Later (final (ingest crate sponge io wire) s₀) s →
        SignedFrame.fromWire crate wire = .ok frame →
        (ingest crate sponge io' wire s = .ok .duplicate s ↔
          (frame.kind = .commitment → s.Unexpired crate)) := by
  constructor
  · intro s io wire
    exact ingest_unchanged_iff io wire
  · intro s₀ s io io' wire frame hreach haccepted hlater hframe
    exact ingest_again_iff hreach haccepted hlater hframe

end Again

end Idempotence

namespace SampleSession

/-- The write of the frame fails. -/
def frameFails : IngestWrite → WriteOutcome :=
  fun w => if w = .frame then .failed else .done

/-- A receipt of the height at which the sample proposal expires. -/
def expiryTip : VerifiedChainTip :=
  ⟨Manifest.Sample.proposal.chainId, 200, Bytes.zero 32, 1000⟩

/-- The session after the proposal expired. -/
def expired : Session Manifest.Sample.Key Secret :=
  final (refreshVerifiedTip expiryTip 1000 ⟨60, 0⟩) committed

theorem arrival_expired :
    expired.arrival crate foldSponge (secondFrame.toWire crate) =
      .error (protocolError "ExpiredProposal: proposal expired at the verified height") := by
  decide +kernel

theorem later_expired :
    (sessions crate foldSponge).Later committed expired := by
  have hstep : (sessions crate foldSponge).step committed
      (.refreshVerifiedTip expiryTip 1000 ⟨60, 0⟩) expired := rfl
  exact .step .refl hstep

theorem accepted_second :
    answer (ingest crate foldSponge writesDone (secondFrame.toWire crate)) proposed =
        .ok .accepted ∧
      final (ingest crate foldSponge writesDone (secondFrame.toWire crate)) proposed =
        committed :=
  accepted_of_arrival arrival_second

/-- The sample commitment is recognized right after it was accepted. -/
theorem second_again :
    SignedFrame.fromWire crate (secondFrame.toWire crate) = .ok secondFrame ∧
      (ingest crate foldSponge writesDone (secondFrame.toWire crate) committed =
          .ok .duplicate committed ↔
        (secondFrame.kind = .commitment → committed.Unexpired crate)) := by
  obtain ⟨hframe, -⟩ := Session.arrival_eq_some_iff.mp arrival_second
  refine ⟨hframe, ?_⟩
  have hlater : (sessions crate foldSponge).Later (final (ingest crate foldSponge writesDone
      (secondFrame.toWire crate)) proposed) committed := by
    rw [accepted_second.2]
    exact .refl
  exact (refused_and_repeated crate foldSponge).2 proposed committed writesDone writesDone
    (secondFrame.toWire crate) secondFrame reachable_proposed.of_restrict accepted_second.1
    hlater hframe

/--
The write of the frame fails when the proposal is already stored; and an accepted commitment
is refused after the proposal expired.
-/
theorem trace_of_failure :
    ((sessions crate foldSponge).Reachable fresh ∧
      answer (ingest crate foldSponge frameFails (proposalFrame.toWire crate)) fresh =
        .error .io ∧
      final (ingest crate foldSponge frameFails (proposalFrame.toWire crate)) fresh ≠ fresh) ∧
    ((sessions crate foldSponge).Reachable proposed ∧
      answer (ingest crate foldSponge writesDone (secondFrame.toWire crate)) proposed =
        .ok .accepted ∧
      (sessions crate foldSponge).Later (final (ingest crate foldSponge writesDone
        (secondFrame.toWire crate)) proposed) expired ∧
      answer (ingest crate foldSponge writesDone (secondFrame.toWire crate)) expired =
        .error (protocolError
          "ExpiredProposal: proposal expired at the verified height")) := by
  have hcut := @cut_of_arrival _ _ _ _ crate foldSponge _ _ _ _ _ _ frameFails arrival_proposal rfl rfl rfl
  refine ⟨⟨.init ⟨_, _, _, init_fresh⟩, hcut.1, ?_⟩, reachable_proposed.of_restrict,
    accepted_second.1, ?_, (refused_of_arrival writesDone arrival_expired).1⟩
  · rw [hcut.2]
    intro heq
    have hstored := congrArg (fun s : Session Manifest.Sample.Key Secret =>
      s.root.proposal.isSome) heq
    exact Bool.noConfusion hstored
  · rw [accepted_second.2]
    exact later_expired

end SampleSession

end OpenCsv
