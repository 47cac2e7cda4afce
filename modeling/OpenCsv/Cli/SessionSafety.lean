import OpenCsv.Cli.SessionAcceptance

/-!
# Safety of the stored objects

The process of a session may end between any two writes of a frame that is ingested; the
directory is then opened again, when it can be.

**Results.** What holds in a session holds after every call and after every crash that leaves a
directory that can be opened (`valid_of_reachable`).  In every session the stored manifests are
one chain of replacements from epoch zero on, the stored commitments share nothing with each
other and fit the limits, and every stored share verifies against its manifest
(`stored_objects_safe`).
-/

namespace OpenCsv

open Call Relation

variable {K S R X : Type}

section Events

variable (crate : GossipCrate K S R X)
variable (sponge : Sponge)
variable [DecidableEq K] [DecidableEq S] [DecidableEq R]

/-- A call, or the end of the process during the writes of a frame. -/
inductive SessionEvent (X : Type) where
  | call (call : SessionCall X)
  | crash (io : IngestWrite → WriteOutcome) (wire : List UInt8)

/-- The runs with crashes; after each the directory is opened again. -/
def crashingSessions : System (Session K X) (SessionEvent X) where
  init := (sessions crate sponge).init
  step := fun s event s' =>
    match event with
    | .call call => (undisturbedSessions crate sponge).step s call s'
    | .crash io wire =>
        Session.openRoot crate (final (ingest crate sponge io wire) s).root = .ok s'

variable {crate : GossipCrate K S R X}
variable {sponge : Sponge}
variable {s : Session K X}

/-- A run without failing writes is a run without crashes. -/
theorem crashing_of_undisturbed
    (h : (undisturbedSessions crate sponge).Reachable s) :
    (crashingSessions crate sponge).Reachable s := by
  induction h with
  | init hinit => exact .init hinit
  | @step s call s' _ hstep ih =>
      exact System.Reachable.step (a := SessionEvent.call call) ih hstep

end Events

section Moves

variable {crate : GossipCrate K S R X}
variable {sponge : Sponge}
variable [DecidableEq K] [DecidableEq R]
variable {s s' : Session K X}
variable {proposal : Proposal K}
variable {frames : List (SignedFrame K R)}
variable {manifests : List (Manifest K)}
variable {shares : List (SignatureShare K S)}
variable {frame : SignedFrame K R}
variable {object : SemanticObject K S}
variable {wire : List UInt8}

/-- The accepted objects, the frames and the index are the same. -/
structure Session.SameObjects (s s' : Session K X) : Prop where
  proposal : s'.root.proposal = s.root.proposal
  committed : s'.root.commitments = s.root.commitments
  listed : s'.root.manifests = s.root.manifests
  shared : s'.root.signatures = s.root.signatures
  framed : s'.root.frames = s.root.frames
  relayPolicy : s'.relayPolicy = s.relayPolicy
  pool : s'.commitments = s.commitments
  senders : s'.commitmentSenders = s.commitmentSenders
  bytes : s'.storedFrameBytes = s.storedFrameBytes

omit [DecidableEq K] [DecidableEq R] in
theorem Session.Untouched.of_sameObjects
    (h : s.Untouched)
    (hsame : s.SameObjects s') :
    s'.Untouched where
  proposal := hsame.proposal.trans h.proposal
  committed := hsame.committed.trans h.committed
  listed := hsame.listed.trans h.listed
  shared := hsame.shared.trans h.shared
  framed := hsame.framed.trans h.framed
  pool := hsame.pool.trans h.pool
  senders := hsame.senders.trans h.senders
  counted := hsame.bytes.trans h.counted

theorem Session.Started.of_sameObjects
    (h : s.Started crate sponge proposal frames manifests shares)
    (hsame : s.SameObjects s') :
    s'.Started crate sponge proposal frames manifests shares where
  sound := by
    have hproposed : storedProposal crate s'.root = .ok (some proposal) := by
      rw [← h.sound.proposed]
      unfold storedProposal
      rw [hsame.proposal]
    rw [hsame.relayPolicy, hsame.pool, hsame.bytes]
    refine ⟨hproposed, ?_, h.sound.distinct, h.sound.room, ?_, h.sound.authorized,
      h.sound.senders, ?_, h.sound.quota⟩
    · rw [hsame.committed]
      exact h.sound.committed
    · rw [hsame.framed]
      exact h.sound.framed
    · rw [hsame.framed]
      exact h.sound.counted
  senders := hsame.senders.trans h.senders
  covered := by
    rw [hsame.committed]
    exact h.covered
  granted := by
    rw [hsame.pool]
    exact h.granted
  listed := by
    rw [hsame.listed, hsame.pool]
    exact h.listed
  chain := h.chain
  shared := by
    rw [hsame.shared]
    exact h.shared
  backed := h.backed
  delivered := h.delivered

/-- With the same objects only the settings are in question. -/
theorem Session.Valid.files_of_sameObjects
    (h : s.Valid crate sponge)
    (hsame : s.SameObjects s') :
    s'.Untouched ∨ ∃ proposal frames manifests shares,
      s'.Started crate sponge proposal frames manifests shares := by
  rcases h.files with huntouched | ⟨proposal, frames, manifests, shares, hstarted⟩
  · exact Or.inl (huntouched.of_sameObjects hsame)
  · exact Or.inr ⟨proposal, frames, manifests, shares, hstarted.of_sameObjects hsame⟩

/-- Ingesting a frame without a failing write keeps what holds. -/
theorem Session.Valid.final_ingest
    (h : s.Valid crate sponge) :
    (final (ingest crate sponge writesDone wire) s).Valid crate sponge := by
  unfold final
  rw [ingest_done]
  cases harrival : s.arrival crate sponge wire with
  | error e => exact h
  | ok brought =>
      rcases brought with _ | ⟨frame, object⟩
      · exact h
      · exact h.accept harrival

variable [DecidableEq S]

/-- No move breaks what holds. -/
theorem Move.valid
    (hmove : Move crate sponge (fun io => io = writesDone) s s')
    (h : s.Valid crate sponge) :
    s'.Valid crate sponge := by
  cases hmove with
  | ingest wire hio =>
      subst hio
      exact h.final_ingest
  | reopen hopen => exact h.of_reopens (h.reopens hopen)
  | height currentHeight =>
      exact ⟨rfl, h.relayPolicy, h.limits, h.identity,
        h.files_of_sameObjects ⟨rfl, rfl, rfl, rfl, rfl, rfl, rfl, rfl, rfl⟩⟩
  | _ =>
      exact h.of_sameSettings ⟨rfl, rfl, rfl, rfl, rfl, rfl⟩
        (h.files_of_sameObjects ⟨rfl, rfl, rfl, rfl, rfl, rfl, rfl, rfl, rfl⟩)

theorem Moves.valid
    (hmoves : Moves crate sponge (fun io => io = writesDone) s s')
    (h : s.Valid crate sponge) :
    s'.Valid crate sponge := by
  induction hmoves with
  | refl => exact h
  | tail _ hmove ih => exact hmove.valid ih

end Moves

section Crashes

variable {crate : GossipCrate K S R X}
variable {sponge : Sponge}
variable [DecidableEq K] [DecidableEq R]
variable {s s' : Session K X}
variable {frame : SignedFrame K R}
variable {object : SemanticObject K S}
variable {wire : List UInt8}

omit [DecidableEq K] [DecidableEq R] in
/-- The directory after the frame of an object, however its write ends. -/
theorem root_of_writeFrame
    (io : IngestWrite → WriteOutcome) :
    (resultState (writeFrame crate io frame wire s)).root = s.root ∨
      (resultState (writeFrame crate io frame wire s)).root =
        (s.putFrame crate frame wire).root := by
  unfold writeFrame
  cases io .frame with
  | failed => exact Or.inl rfl
  | unsynced => exact Or.inr rfl
  | done =>
      refine Or.inr ?_
      simp only []
      split_ifs <;> rfl

/-- However the writes of a frame end, they leave one of three directories. -/
theorem root_of_ingest
    (io : IngestWrite → WriteOutcome)
    (harrival : s.arrival crate sponge wire = .ok (some (frame, object))) :
    (final (ingest crate sponge io wire) s).root = s.root ∨
      (final (ingest crate sponge io wire) s).root =
        (s.store crate object frame.payload).root ∨
      (final (ingest crate sponge io wire) s).root =
        (s.accept crate frame object wire).root := by
  have hfinal : final (ingest crate sponge io wire) s =
      resultState (ingest crate sponge io wire s) := rfl
  have haccept : (s.accept crate frame object wire).root =
      (((s.store crate object frame.payload).remember crate object frame.sender).putFrame crate
        frame wire).root := rfl
  rw [hfinal, ingest_apply, harrival, haccept]
  simp only [writeAll]
  by_cases hread : (s.root.read (object.path crate)).isSome
  · obtain ⟨-, -, -, hadmission⟩ := Session.arrival_eq_some_iff.mp harrival
    obtain ⟨-, -, -, hfile⟩ := Session.admission_eq_ok_iff.mp hadmission
    have hsame : s.store crate object frame.payload = s := by
      rcases hfile with hnone | ⟨hsome, -⟩
      · rw [hnone] at hread
        cases hread
      · exact Session.store_of_read hsome
    rw [if_pos hread, hsame]
    rcases root_of_writeFrame (s := s.remember crate object frame.sender) io with hroot | hroot
    · rw [hroot]
      exact Or.inl (Session.remember_root s object frame.sender)
    · exact Or.inr (Or.inr hroot)
  · rw [if_neg hread]
    cases io .semantic with
    | failed => exact Or.inl rfl
    | unsynced => exact Or.inr (Or.inl rfl)
    | done =>
        simp only []
        rcases root_of_writeFrame
          (s := (s.store crate object frame.payload).remember crate object frame.sender) io
          with hroot | hroot
        · rw [hroot]
          exact Or.inr (Or.inl (Session.remember_root _ object frame.sender))
        · exact Or.inr (Or.inr hroot)

/-- An object that is not a commitment may be stored without its frame. -/
theorem Session.Valid.store
    (h : s.Valid crate sponge)
    (harrival : s.arrival crate sponge wire = .ok (some (frame, object)))
    (hobject : ∀ c, object ≠ .commitment c) :
    (s.store crate object frame.payload).Valid crate sponge := by
  refine h.of_sameSettings (Session.sameSettings_store object frame.payload) (Or.inr ?_)
  have hbrings := Session.brings_of_arrival harrival
  obtain ⟨hread, -, -, hadmission⟩ := Session.arrival_eq_some_iff.mp harrival
  obtain ⟨-, -, -, hfile⟩ := Session.admission_eq_ok_iff.mp hadmission
  rcases h.files with huntouched | ⟨proposal, frames, manifests, shares, hstarted⟩
  · obtain ⟨p, rfl, -, hparse, hversion, -⟩ := huntouched.brings hbrings
    exact ⟨p, _, _, _,
      huntouched.storeProposal ⟨(SignedFrame.of_fromWire hread).2.1, hparse, hversion⟩⟩
  · have hkind : frame.kind ≠ .commitment := by
      intro hkind
      obtain ⟨c, hc⟩ := hbrings.kind_eq_commitment_iff.mp hkind
      exact hobject c hc
    obtain ⟨manifests', shares', hstored, -⟩ :=
      hstarted.store hbrings hread (hfile.imp id And.left) hkind
    exact ⟨proposal, frames, manifests', shares', hstored⟩

/-- The directory with a new commitment and without its frame cannot be opened. -/
theorem Session.Valid.open_store_commitment
    {c : ParticipantCommitment K}
    (h : s.Valid crate sponge)
    (harrival : s.arrival crate sponge wire = .ok (some (frame, .commitment c))) :
    Session.openRoot crate (s.store crate (.commitment c : SemanticObject K S)
      frame.payload).root =
        .error (protocolError "stored commitment lacks its authorized relay frame") := by
  have hbrings := Session.brings_of_arrival harrival
  obtain ⟨hread, -, hframe, hadmission⟩ := Session.arrival_eq_some_iff.mp harrival
  obtain ⟨-, -, -, hfile⟩ := Session.admission_eq_ok_iff.mp hadmission
  cases hbrings with
  | @commitment p _ hkind hload hparse horigin hadmitted =>
      rcases h.files with huntouched | ⟨proposal, frames, manifests, shares, hstarted⟩
      · rw [huntouched.loadProposal] at hload
        cases hload
      · obtain rfl := hstarted.eq_of_loadProposal hload
        have hnone : s.root.commitments.get (c.commitmentId crate.toBitcoinCrate) = none := by
          rcases hfile with hnone | ⟨hsame, -⟩
          · exact hnone
          · exact absurd hframe (hstarted.frame_of_commitment hkind hsame)
        have hsound := hstarted.sound_storeCommitment hread hparse hadmitted hnone
        have huncovered : ∀ grant ∈ grantsOf crate p frames,
            grant.2.commitmentId crate.toBitcoinCrate ≠ c.commitmentId crate.toBitcoinCrate := by
          intro grant hgrant
          exact hstarted.sound.committed.get_eq_none_iff.mp hnone _ (hstarted.granted grant hgrant)
        have hrebuild := hsound.rebuild_of_uncovered
          (List.mem_append_right _ (List.mem_singleton_self c)) huncovered
        have hlimits : (s.store crate (.commitment c : SemanticObject K S)
            frame.payload).root.relayPolicy = s.root.relayPolicy := rfl
        rw [Session.openRoot, hlimits, h.limits, ← h.relayPolicy]
        simp only [bind, Except.bind]
        rw [hrebuild]

/-- A crash that leaves a directory that can be opened keeps what holds. -/
theorem Session.Valid.crash
    {io : IngestWrite → WriteOutcome}
    (h : s.Valid crate sponge)
    (hopen : Session.openRoot crate (final (ingest crate sponge io wire) s).root = .ok s') :
    s'.Valid crate sponge := by
  cases harrival : s.arrival crate sponge wire with
  | error e =>
      rw [(refused_of_arrival io harrival).2] at hopen
      exact h.of_reopens (h.reopens hopen)
  | ok brought =>
  rcases brought with _ | ⟨frame, object⟩
  · have hfinal : final (ingest crate sponge io wire) s = s := by
      unfold final
      rw [ingest_apply, harrival]
    rw [hfinal] at hopen
    exact h.of_reopens (h.reopens hopen)
  · rcases root_of_ingest io harrival with hroot | hroot | hroot
    · rw [hroot] at hopen
      exact h.of_reopens (h.reopens hopen)
    · rw [hroot] at hopen
      by_cases hobject : ∃ c, object = .commitment c
      · obtain ⟨c, rfl⟩ := hobject
        rw [h.open_store_commitment harrival] at hopen
        cases hopen
      · have hstored := h.store harrival (fun c hc => hobject ⟨c, hc⟩)
        exact hstored.of_reopens (hstored.reopens hopen)
    · rw [hroot] at hopen
      have haccepted := h.accept harrival
      exact haccepted.of_reopens (haccepted.reopens hopen)

/-- A session in a new directory. -/
def Session.blank
    (policy : SessionPolicy)
    (relayPolicy : RelayPolicy)
    (identity : X) : Session K X where
  root := SessionRoot.create policy relayPolicy identity
  policy
  relayPolicy
  identity
  commitments := []
  commitmentSenders := ∅
  storedFrameBytes := 0

/-- A new session has nothing stored. -/
theorem Session.valid_of_init
    {policy : SessionPolicy}
    {relayPolicy : RelayPolicy}
    {identity : X}
    (h : Session.init crate policy relayPolicy identity = .ok s) :
    s.Valid crate sponge := by
  simp only [Session.init, except_bind_eq_ok_iff] at h
  obtain ⟨relayPolicy', hlimits, hopen⟩ := h
  obtain ⟨rfl, -⟩ := RelayPolicy.validate_eq_ok_iff.mp hlimits
  have huntouched : (Session.blank policy relayPolicy' identity : Session K X).Untouched :=
    ⟨rfl, rfl, rfl, rfl, rfl, rfl, rfl, rfl⟩
  have hvalid : (Session.blank policy relayPolicy' identity : Session K X).Valid crate sponge :=
    ⟨rfl, rfl, hlimits, rfl, Or.inl huntouched⟩
  exact hvalid.of_reopens (hvalid.reopens hopen)

variable [DecidableEq S]

/-- What holds in every session, with or without crashes. -/
theorem valid_of_reachable
    (h : (crashingSessions crate sponge).Reachable s) :
    s.Valid crate sponge := by
  refine @System.Reachable.invariant _ _ _ (fun s => s.Valid crate sponge) ?_ ?_ s h
  · rintro s ⟨policy, relayPolicy, identity, hinit⟩
    exact Session.valid_of_init hinit
  · intro s event s' hvalid hstep
    cases event with
    | call call =>
        obtain ⟨hperform, hdone⟩ := hstep
        have hmoves : Moves crate sponge (fun io => io = writesDone) s s' :=
          Session.moves_of_perform rfl (fun io wire hcall => hdone io wire hcall) hperform
        exact hmoves.valid hvalid
    | crash io wire => exact hvalid.crash hstep

end Crashes

section Safety

variable (crate : GossipCrate K S R X)
variable (sponge : Sponge)
variable [DecidableEq K] [DecidableEq R]

/-- Nothing came into the session. -/
structure SessionRoot.Untouched (root : SessionRoot X) : Prop where
  proposal : root.proposal = none
  commitments : root.commitments = .empty
  manifests : root.manifests = .empty
  signatures : root.signatures = .empty
  frames : root.frames = .empty

/-- The files of a session are some objects, and the objects are safe. -/
structure SessionRoot.Safe
    (root : SessionRoot X)
    (proposal : Proposal K)
    (commitments : List (ParticipantCommitment K))
    (frames : List (SignedFrame K R))
    (manifests : List (Manifest K))
    (shares : List (SignatureShare K S)) : Prop where
  proposed : storedProposal crate root = .ok (some proposal)
  committed : root.commitments.Holds (readStoredCommitment crate proposal)
    (ParticipantCommitment.commitmentId crate.toBitcoinCrate) commitments
  framed : root.frames.Holds (SignedFrame.fromWire crate) (SignedFrame.semanticFrameId crate)
    frames
  listed : root.manifests.Holds (readPoolManifest crate sponge proposal commitments)
    (Manifest.fileName crate) manifests
  shared : root.signatures.Holds (readStoredShare crate) SignatureShare.fileName shares
  /-- One manifest for every epoch from zero on, each the replacement of the one before. -/
  chain : ManifestChain crate sponge proposal manifests
  /-- No two commitments share a fee key, a fee input, an operation or a payload. -/
  distinct : commitments.Pairwise (fun a b => a.clashes b = false)
  /-- Every commitment was sent, and no relay identity sent two. -/
  sent : ∀ c ∈ commitments, ∃ sender, (sender, c) ∈ grantsOf crate proposal frames
  senders : ((grantsOf crate proposal frames).map Prod.fst).Nodup
  count : commitments.length ≤
    min root.relayPolicy.maxCommitments.toNat proposal.participantCount.toNat
  bytes : (root.frames.rows.map (fun file => file.2.length)).sum ≤
    root.relayPolicy.maxSessionBytes.toNat
  /-- Every share verifies against the manifest that it names. -/
  backed : ∀ share ∈ shares, share.Backed crate sponge proposal manifests

variable {crate : GossipCrate K S R X}
variable {sponge : Sponge}
variable {s : Session K X}

theorem Session.Valid.safe
    (h : s.Valid crate sponge) :
    s.root.Untouched ∨ ∃ proposal commitments frames manifests shares,
      s.root.Safe crate sponge proposal commitments frames manifests shares := by
  rcases h.files with huntouched | ⟨proposal, frames, manifests, shares, hstarted⟩
  · exact Or.inl ⟨huntouched.proposal, huntouched.committed, huntouched.listed,
      huntouched.shared, huntouched.framed⟩
  · refine Or.inr ⟨proposal, s.commitments, frames, manifests, shares, ?_⟩
    have hsound := hstarted.sound
    refine ⟨hsound.proposed, hsound.committed, hsound.framed, hstarted.listed, hstarted.shared,
      hstarted.chain, hsound.distinct, ?_, hsound.senders, ?_, ?_, hstarted.backed⟩
    · intro c hc
      obtain ⟨⟨sender, c'⟩, hgrant, rfl⟩ := hstarted.exists_grant c hc
      exact ⟨sender, hgrant⟩
    · rw [← h.relayPolicy]
      exact hsound.room
    · rw [← hsound.counted, ← h.relayPolicy, ← UInt64.le_iff_toNat_le]
      exact hsound.quota

variable [DecidableEq S]

/--
In every session, whatever frames came in and whatever was called, the stored manifests are one
chain of replacements from epoch zero on, the stored commitments share nothing with each other
and fit the limits, and every stored share verifies against its manifest.
-/
theorem stored_objects_safe
    (h : (undisturbedSessions crate sponge).Reachable s) :
    s.root.Untouched ∨ ∃ proposal commitments frames manifests shares,
      s.root.Safe crate sponge proposal commitments frames manifests shares :=
  (valid_of_reachable (crashing_of_undisturbed h)).safe

/-- A session with a proposal and a commitment. -/
theorem SampleSession.committed_safe :
    SampleSession.committed.root.Untouched ∨ ∃ proposal commitments frames manifests shares,
      SampleSession.committed.root.Safe SampleSession.crate foldSponge proposal commitments frames
        manifests shares :=
  stored_objects_safe SampleSession.reachable_committed

end Safety

end OpenCsv
