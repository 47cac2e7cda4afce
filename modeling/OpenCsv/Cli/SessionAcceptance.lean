import OpenCsv.Cli.SessionInvariant

/-!
# What a new frame leaves

A frame with a new object is stored after its object, and a commitment enters the index with
its relay identity.

**Results.** A frame with a new object keeps what holds in a session (`Session.Valid.accept`).
The directory of a session can be opened, and gives back the session but for the order of its
commitments (`Session.Valid.exists_open`).
-/

namespace OpenCsv

open Call

variable {K S R X : Type}

section Commitments

variable {crate : GossipCrate K S R X}
variable {sponge : Sponge}
variable [DecidableEq K] [DecidableEq R]
variable {s : Session K X}
variable {proposal : Proposal K}
variable {frames : List (SignedFrame K R)}
variable {manifests : List (Manifest K)}
variable {shares : List (SignatureShare K S)}
variable {frame : SignedFrame K R}
variable {wire : List UInt8}
variable {c : ParticipantCommitment K}

omit [DecidableEq K] [DecidableEq R] in
/-- The state after a commitment that was not in the index. -/
theorem Session.accept_commitment
    (hnew : s.indexed crate c = false) :
    s.accept crate frame (.commitment c : SemanticObject K S) wire =
      { s with
        root := { s.root with
          commitments :=
            s.root.commitments.insert (c.commitmentId crate.toBitcoinCrate) frame.payload
          frames := s.root.frames.insert (frame.semanticFrameId crate) wire }
        commitments := s.commitments ++ [c]
        commitmentSenders := insert (crate.serializeKey frame.sender) s.commitmentSenders
        storedFrameBytes := s.storedFrameBytes + UInt64.ofNat wire.length } := by
  have hnew' : (s.store crate (.commitment c : SemanticObject K S) frame.payload).indexed crate c =
      false := hnew
  simp only [accept, remember, hnew', Bool.false_eq_true, if_false]
  rfl

omit [DecidableEq R] in
/-- A commitment that is admitted and not in the index fits, and shares nothing. -/
theorem Session.admitCommitment_eq_ok_iff
    {sender : K}
    (hnew : s.indexed crate c = false) :
    s.admitCommitment crate proposal c sender = .ok () ↔
      s.commitments.length <
          min s.relayPolicy.maxCommitments.toNat proposal.participantCount.toNat ∧
        crate.serializeKey sender ∉ s.commitmentSenders ∧
        ∀ existing ∈ s.commitments, existing.clashes c = false := by
  simp only [admitCommitment, hnew, Bool.false_eq_true, if_false, except_bind_eq_ok_iff,
    require_eq_ok_iff, decide_eq_true_eq, Bool.not_eq_true', List.any_eq_false, Bool.not_eq_true,
    exists_const]

/-- A commitment with its file is in the index. -/
theorem Session.Started.not_indexed
    (h : s.Started crate sponge proposal frames manifests shares)
    (hget : s.root.commitments.get (c.commitmentId crate.toBitcoinCrate) = none) :
    s.indexed crate c = false := by
  have hids := h.sound.committed.get_eq_none_iff.mp hget
  simp only [Session.indexed, List.any_eq_false, beq_iff_eq]
  exact hids

/-- The directory with the file of a new commitment, before its frame is written. -/
theorem Session.Started.sound_storeCommitment
    (h : s.Started crate sponge proposal frames manifests shares)
    (hread : SignedFrame.fromWire crate wire = .ok frame)
    (hparse : ParticipantCommitment.fromWire crate.toBitcoinCrate proposal frame.payload = .ok c)
    (hadmitted : s.admitCommitment crate proposal c frame.sender = .ok ())
    (hfile : s.root.commitments.get (c.commitmentId crate.toBitcoinCrate) = none) :
    (s.store crate (.commitment c : SemanticObject K S) frame.payload).root.Sound crate
      s.relayPolicy proposal (s.commitments ++ [c]) frames s.storedFrameBytes := by
  obtain ⟨hroom, -, hclash⟩ :=
    (Session.admitCommitment_eq_ok_iff (h.not_indexed hfile)).mp hadmitted
  exact { h.sound with
    committed := h.sound.committed.insert hfile
      (readBounded_eq_ok_iff.mpr ⟨(SignedFrame.of_fromWire hread).2.1, hparse⟩)
    distinct := by
      refine List.pairwise_append.mpr ⟨h.sound.distinct, List.pairwise_singleton _ _, ?_⟩
      intro existing hmem c' hc'
      rw [List.mem_singleton.mp hc']
      exact hclash existing hmem
    room := by
      rw [List.length_append, List.length_singleton]
      exact hroom }

/-- A new commitment is stored with its frame. -/
theorem Session.Started.acceptCommitment
    (h : s.Started crate sponge proposal frames manifests shares)
    (hkind : frame.kind = .commitment)
    (hread : SignedFrame.fromWire crate wire = .ok frame)
    (hparse : ParticipantCommitment.fromWire crate.toBitcoinCrate proposal frame.payload = .ok c)
    (horigin : frame.verifyOriginSignature crate c.feePubkey = .ok ())
    (hadmitted : s.admitCommitment crate proposal c frame.sender = .ok ())
    (hfile : s.root.commitments.get (c.commitmentId crate.toBitcoinCrate) = none)
    (hframe : s.root.frames.get (frame.semanticFrameId crate) = none)
    (hcount : checkedAdd s.storedFrameBytes (UInt64.ofNat wire.length) =
      some (s.storedFrameBytes + UInt64.ofNat wire.length))
    (hquota : s.storedFrameBytes + UInt64.ofNat wire.length ≤ s.relayPolicy.maxSessionBytes) :
    (s.accept crate frame (.commitment c : SemanticObject K S) wire).Started crate sponge proposal
      (frames ++ [frame]) manifests shares := by
  have hnew := h.not_indexed hfile
  obtain ⟨-, hsender, -⟩ := (Session.admitCommitment_eq_ok_iff hnew).mp hadmitted
  have hgrant : frame.grant crate proposal = some (crate.serializeKey frame.sender, c) := by
    simp only [SignedFrame.grant, hkind, hparse]
    rfl
  have hgrants : grantsOf crate proposal (frames ++ [frame]) =
      grantsOf crate proposal frames ++ [(crate.serializeKey frame.sender, c)] :=
    grantsOf_append_of_some hgrant
  have hauthorized : frame.Authorized crate proposal := by
    simp only [SignedFrame.Authorized, hkind]
    exact ⟨c, hparse, horigin⟩
  have hsenders : ((grantsOf crate proposal (frames ++ [frame])).map Prod.fst).Nodup := by
    rw [hgrants, List.map_append, List.nodup_append']
    refine ⟨h.sound.senders, List.nodup_singleton _, ?_⟩
    rw [h.senders, List.mem_toFinset] at hsender
    simpa using hsender
  have hstored := h.sound_storeCommitment hread hparse hadmitted hfile
  rw [Session.accept_commitment hnew]
  refine ⟨hstored.putFrame hframe hread hauthorized hsenders hcount hquota, ?_, ?_, ?_, ?_,
    h.chain, h.shared, h.backed, ?_⟩
  · show insert _ s.commitmentSenders = _
    rw [hgrants, h.senders, List.map_append, List.toFinset_append]
    simp
  · intro id bytes hget
    rw [Table.get_insert, hfile] at hget
    split_ifs at hget with hid
    · exact ⟨frame, List.mem_append_right _ (List.mem_singleton_self _), hkind,
        Option.some.inj hget⟩
    · obtain ⟨frame', hmem, hframe'⟩ := h.covered id bytes hget
      exact ⟨frame', List.mem_append_left _ hmem, hframe'⟩
  · intro grant hmem
    rw [hgrants] at hmem
    rcases List.mem_append.mp hmem with hmem | hmem
    · exact List.mem_append_left _ (h.granted grant hmem)
    · rw [List.mem_singleton.mp hmem]
      exact List.mem_append_right _ (List.mem_singleton_self _)
  · refine h.listed.reread (fun _ bytes m _ _ hpool => ?_)
    exact readPoolManifest_of_extends (Manifest.PoolExtends.append _ _) hpool
  · intro frame' hmem hkind'
    rcases List.mem_append.mp hmem with hmem | hmem
    · exact h.delivered frame' hmem hkind'
    · rw [List.mem_singleton.mp hmem, hkind] at hkind'
      cases hkind'

end Commitments

section Acceptance

variable {crate : GossipCrate K S R X}
variable {sponge : Sponge}
variable [DecidableEq K] [DecidableEq R]
variable {s s' : Session K X}
variable {proposal : Proposal K}
variable {frames : List (SignedFrame K R)}
variable {manifests : List (Manifest K)}
variable {shares : List (SignatureShare K S)}
variable {frame : SignedFrame K R}
variable {object : SemanticObject K S}
variable {wire : List UInt8}

/-- The policy, the limits and the identity are the same. -/
structure Session.SameSettings (s s' : Session K X) : Prop where
  policy : s'.policy = s.policy
  relayPolicy : s'.relayPolicy = s.relayPolicy
  identity : s'.identity = s.identity
  rootPolicy : s'.root.policy = s.root.policy
  rootRelayPolicy : s'.root.relayPolicy = s.root.relayPolicy
  rootIdentity : s'.root.identity = s.root.identity

/-- With the same settings only the files are in question. -/
theorem Session.Valid.of_sameSettings
    (h : s.Valid crate sponge)
    (hsame : s.SameSettings s')
    (hfiles : s'.Untouched ∨ ∃ proposal frames manifests shares,
      s'.Started crate sponge proposal frames manifests shares) :
    s'.Valid crate sponge where
  policy := by rw [hsame.policy, hsame.rootPolicy, h.policy]
  relayPolicy := by rw [hsame.relayPolicy, hsame.rootRelayPolicy, h.relayPolicy]
  limits := by rw [hsame.rootRelayPolicy, h.limits]
  identity := by rw [hsame.identity, hsame.rootIdentity, h.identity]
  files := hfiles

omit [DecidableEq K] [DecidableEq R] in
theorem Session.sameSettings_store
    (object : SemanticObject K S)
    (payload : List UInt8) :
    s.SameSettings (s.store crate object payload) := by
  constructor <;> cases object <;> rfl

omit [DecidableEq K] [DecidableEq R] in
theorem Session.sameSettings_accept :
    s.SameSettings (s.accept crate frame object wire) := by
  cases object with
  | commitment c =>
      cases hnew : s.indexed crate c with
      | false =>
          rw [Session.accept_commitment hnew]
          constructor <;> rfl
      | true =>
          have hnew' : (s.store crate (.commitment c : SemanticObject K S)
              frame.payload).indexed crate c = true := hnew
          simp only [accept, remember, hnew', if_true]
          constructor <;> rfl
  | _ => constructor <;> rfl

omit [DecidableEq R] in
/-- What a frame brings is authorized. -/
theorem Session.Brings.authorized
    (h : s.Brings crate sponge frame object)
    (hproposal : ∀ p, s.loadProposal crate = .ok (some p) → p = proposal) :
    frame.Authorized crate proposal := by
  cases h with
  | proposal hkind hread hversion hvalid horigin =>
      simp only [SignedFrame.Authorized, hkind]
      exact ⟨_, hread, horigin⟩
  | commitment hkind hload hread horigin hadmitted =>
      obtain rfl := hproposal _ hload
      simp only [SignedFrame.Authorized, hkind]
      exact ⟨_, hread, horigin⟩
  | manifest hkind hload hread hepoch hexisting hplace horigin =>
      simp only [SignedFrame.Authorized, hkind]
      exact horigin
  | signature hkind hload hexisting hread hfind hverify horigin =>
      simp only [SignedFrame.Authorized, hkind]
      exact horigin

omit [DecidableEq K] [DecidableEq R] in
/-- Writing the file of an object again changes nothing. -/
theorem Session.store_of_read
    {payload : List UInt8}
    (h : s.root.read (object.path crate) = some payload) :
    s.store crate object payload = s := by
  rw [Session.store, SessionRoot.write_of_read h]

/-- The file of an object that is not a commitment is written, or it is there. -/
theorem Session.Started.store
    (h : s.Started crate sponge proposal frames manifests shares)
    (hbrings : s.Brings crate sponge frame object)
    (hread : SignedFrame.fromWire crate wire = .ok frame)
    (hfile : s.root.read (object.path crate) = none ∨
      s.root.read (object.path crate) = some frame.payload)
    (hkind : frame.kind ≠ .commitment) :
    ∃ manifests' shares',
      (s.store crate object frame.payload).Started crate sponge proposal frames manifests' shares' ∧
        ∀ share, object = .signature share → share ∈ shares' := by
  have hpayload := (SignedFrame.of_fromWire hread).2.1
  cases hbrings with
  | proposal hproposal hparse hversion hvalid horigin =>
      rcases hfile with hnone | hsame
      · obtain ⟨bytes, hbytes, -⟩ := storedProposal_eq_some_iff.mp h.sound.proposed
        rw [SemanticObject.path, SessionRoot.read, hbytes] at hnone
        cases hnone
      · rw [Session.store_of_read hsame]
        exact ⟨manifests, shares, h, fun share hshare => by cases hshare⟩
  | commitment hcommitment => exact absurd hcommitment hkind
  | @manifest p m existing hmanifest hload hparse hepoch hexisting hplace horigin =>
      obtain rfl := h.eq_of_loadProposal hload
      obtain rfl := Except.ok.inj (hexisting.symm.trans h.loadManifests)
      rcases hfile with hnone | hsame
      · have hchain : ManifestChain crate sponge p (existing ++ [m]) := by
          rcases h.chain.of_place hplace with hmem | hchain
          · exact absurd rfl (h.listed.get_eq_none_iff.mp hnone m hmem)
          · exact hchain
        have hpool := readBounded_eq_ok_iff.mpr ⟨hpayload, hparse⟩
        exact ⟨_, shares, h.storeManifest hnone hpool hchain, fun share hshare => by cases hshare⟩
      · rw [Session.store_of_read hsame]
        exact ⟨existing, shares, h, fun share hshare => by cases hshare⟩
  | @signature p share m existing hsignature hload hexisting hparse hfind hverify horigin =>
      obtain rfl := h.eq_of_loadProposal hload
      obtain rfl := Except.ok.inj (hexisting.symm.trans h.loadManifests)
      have hshare : readStoredShare crate frame.payload = .ok share :=
        readBounded_eq_ok_iff.mpr ⟨hpayload, hparse⟩
      rcases hfile with hnone | hsame
      · refine ⟨existing, _, h.storeShare hnone hshare ⟨m, hfind, hverify⟩, ?_⟩
        intro share' hsame
        rw [← SemanticObject.signature.inj hsame]
        exact List.mem_append_right _ (List.mem_singleton_self _)
      · rw [Session.store_of_read hsame]
        refine ⟨existing, shares, h, ?_⟩
        intro share' hsame'
        obtain rfl := SemanticObject.signature.inj hsame'
        obtain ⟨share', hmem, -, hread'⟩ := h.shared.of_get hsame
        rwa [Except.ok.inj (hread'.symm.trans hshare)] at hmem

end Acceptance

section Running

variable {crate : GossipCrate K S R X}
variable {sponge : Sponge}
variable [DecidableEq K] [DecidableEq R]
variable {s s' : Session K X}
variable {proposal : Proposal K}
variable {frames : List (SignedFrame K R)}
variable {manifests : List (Manifest K)}
variable {shares : List (SignatureShare K S)}
variable {frame : SignedFrame K R}
variable {object : SemanticObject K S}
variable {wire : List UInt8}

omit [DecidableEq K] [DecidableEq R] in
/-- Only a commitment changes the index. -/
theorem Session.accept_of_ne
    (h : ∀ c, object ≠ .commitment c) :
    s.accept crate frame object wire =
      ((s.store crate object frame.payload).putFrame crate frame wire).count wire.length := by
  cases object with
  | commitment c => exact absurd rfl (h c)
  | _ => rfl

omit [DecidableEq R] in
/-- The object of a frame has the kind of the frame. -/
theorem Session.Brings.kind_eq_commitment_iff
    (h : s.Brings crate sponge frame object) :
    frame.kind = .commitment ↔ ∃ c, object = .commitment c := by
  cases h with
  | proposal hkind => simp [hkind]
  | commitment hkind => simp [hkind]
  | manifest hkind => simp [hkind]
  | signature hkind => simp [hkind]

/-- A frame with a new object in a session with a proposal. -/
theorem Session.Started.accept
    (h : s.Started crate sponge proposal frames manifests shares)
    (harrival : s.arrival crate sponge wire = .ok (some (frame, object))) :
    ∃ manifests' shares', (s.accept crate frame object wire).Started crate sponge proposal
      (frames ++ [frame]) manifests' shares' := by
  obtain ⟨hread, -, hframe, hadmission⟩ := Session.arrival_eq_some_iff.mp harrival
  obtain ⟨hcount, hquota⟩ := Session.bytes_of_admission hadmission
  obtain ⟨-, -, -, hfile⟩ := Session.admission_eq_ok_iff.mp hadmission
  have hfile' := hfile.imp id And.left
  have hbrings := Session.brings_of_arrival harrival
  have hauthorized := hbrings.authorized (fun p hload => h.eq_of_loadProposal hload)
  by_cases hkind : frame.kind = .commitment
  · obtain ⟨c, rfl⟩ := hbrings.kind_eq_commitment_iff.mp hkind
    cases hbrings with
    | commitment _ hload hparse horigin hadmitted =>
        obtain rfl := h.eq_of_loadProposal hload
        have hnone : s.root.commitments.get (c.commitmentId crate.toBitcoinCrate) = none := by
          rcases hfile' with hnone | hsame
          · exact hnone
          · exact absurd hframe (h.frame_of_commitment hkind hsame)
        exact ⟨manifests, shares, h.acceptCommitment hkind hread hparse horigin hadmitted hnone hframe
          hcount hquota⟩
  · have hobject : ∀ c, object ≠ .commitment c := by
      intro c hc
      exact hkind (hbrings.kind_eq_commitment_iff.mpr ⟨c, hc⟩)
    obtain ⟨manifests', shares', hstored, hshare⟩ := h.store hbrings hread hfile' hkind
    have hgrant : frame.grant crate proposal = none := by
      unfold SignedFrame.grant
      split
      · exact absurd ‹_› hkind
      · rfl
    have hsettings : s.SameSettings (s.store crate object frame.payload) :=
      Session.sameSettings_store object frame.payload
    refine ⟨manifests', shares', ?_⟩
    rw [Session.accept_of_ne hobject]
    refine hstored.deliver ?_ hread hauthorized hgrant ?_ hcount ?_
    · cases object <;> exact hframe
    · intro hsignature
      cases hbrings with
      | signature _ _ _ hparse => exact ⟨_, hshare _ rfl, hparse⟩
      | proposal hkind' => exact absurd (hkind'.symm.trans hsignature) (by decide)
      | commitment hkind' => exact absurd hkind' hkind
      | manifest hkind' => exact absurd (hkind'.symm.trans hsignature) (by decide)
    · rw [hsettings.relayPolicy]
      exact hquota

omit [DecidableEq R] in
/-- The first frame of a session brings the proposal. -/
theorem Session.Untouched.brings
    (h : s.Untouched)
    (hbrings : s.Brings crate sponge frame object) :
    ∃ p, object = .proposal p ∧ frame.kind = .proposal ∧
      Proposal.fromWire crate.toBitcoinCrate frame.payload = .ok p ∧ p.version = batchVersion ∧
      frame.verifyOriginSignature crate p.stockOwnerPubkey = .ok () := by
  have hnone : ∀ p, s.loadProposal crate ≠ .ok (some p) := by
    intro p hload
    rw [h.loadProposal] at hload
    cases hload
  cases hbrings with
  | proposal hkind hparse hversion hvalid horigin =>
      exact ⟨_, rfl, hkind, hparse, hversion, horigin⟩
  | commitment _ hload => exact absurd hload (hnone _)
  | manifest _ hload => exact absurd hload (hnone _)
  | signature _ hload => exact absurd hload (hnone _)

theorem Session.Untouched.accept
    (h : s.Untouched)
    (harrival : s.arrival crate sponge wire = .ok (some (frame, object))) :
    ∃ p, (s.accept crate frame object wire).Started crate sponge p [frame] []
      ([] : List (SignatureShare K S)) := by
  obtain ⟨hread, -, hframe, hadmission⟩ := Session.arrival_eq_some_iff.mp harrival
  obtain ⟨hcount, hquota⟩ := Session.bytes_of_admission hadmission
  obtain ⟨p, rfl, hkind, hparse, hversion, horigin⟩ :=
    h.brings (Session.brings_of_arrival harrival)
  have hstored : (s.store crate (.proposal p : SemanticObject K S) frame.payload).Started crate
      sponge p ([] : List (SignedFrame K R)) [] ([] : List (SignatureShare K S)) :=
    h.storeProposal ⟨(SignedFrame.of_fromWire hread).2.1, hparse, hversion⟩
  refine ⟨p, ?_⟩
  rw [Session.accept_of_ne (fun c hc => by cases hc)]
  refine hstored.deliver hframe hread ?_ ?_ ?_ hcount hquota
  · simp only [SignedFrame.Authorized, hkind]
    exact ⟨p, hparse, horigin⟩
  · simp only [SignedFrame.grant, hkind]
  · intro hsignature
    rw [hkind] at hsignature
    cases hsignature

/-- A frame with a new object keeps what holds. -/
theorem Session.Valid.accept
    (h : s.Valid crate sponge)
    (harrival : s.arrival crate sponge wire = .ok (some (frame, object))) :
    (s.accept crate frame object wire).Valid crate sponge := by
  refine h.of_sameSettings Session.sameSettings_accept (Or.inr ?_)
  rcases h.files with huntouched | ⟨proposal, frames, manifests, shares, hstarted⟩
  · obtain ⟨p, haccept⟩ := huntouched.accept harrival
    exact ⟨p, _, _, _, haccept⟩
  · obtain ⟨manifests', shares', haccept⟩ := hstarted.accept harrival
    exact ⟨proposal, _, _, _, haccept⟩

end Running

section Opening

variable {crate : GossipCrate K S R X}
variable {sponge : Sponge}
variable [DecidableEq K] [DecidableEq R]
variable {s s' : Session K X}
variable {proposal : Proposal K}
variable {frames : List (SignedFrame K R)}
variable {manifests : List (Manifest K)}
variable {shares : List (SignatureShare K S)}

/-- The index in memory is the one of the files, but for the order of the commitments. -/
theorem Session.Started.rebuild
    (h : s.Started crate sponge proposal frames manifests shares) :
    ∃ read, read.Perm s.commitments ∧
      rebuildSessionIndex crate s.root s.relayPolicy =
        .ok (read, s.commitmentSenders, s.storedFrameBytes) := by
  obtain ⟨read, hperm, hrebuild⟩ := h.sound.rebuild_of_covered h.exists_grant
  refine ⟨read, hperm, ?_⟩
  rw [hrebuild, h.senders]

theorem Session.Untouched.rebuild
    (h : s.Untouched) :
    rebuildSessionIndex crate s.root s.relayPolicy =
      .ok (s.commitments, s.commitmentSenders, s.storedFrameBytes) := by
  have hempty : ∀ {κ ρ : Type} (le : κ → κ → Bool),
      (Table.empty : Table κ ρ).listing le = [] := fun le => rfl
  simp only [rebuildSessionIndex, storedProposal, h.proposal, h.committed, h.framed, hempty,
    rebuildCommitments, rebuildFrames, h.pool, h.senders, h.counted, bind, Except.bind]
  rfl

/-- The commitments of the session in another order. -/
theorem Session.Started.reorder
    (h : s.Started crate sponge proposal frames manifests shares)
    (hperm : s'.commitments.Perm s.commitments)
    (hroot : s'.root = s.root)
    (hlimits : s'.relayPolicy = s.relayPolicy)
    (hsenders : s'.commitmentSenders = s.commitmentSenders)
    (hbytes : s'.storedFrameBytes = s.storedFrameBytes) :
    s'.Started crate sponge proposal frames manifests shares where
  sound := by
    rw [hroot, hlimits, hbytes]
    exact { h.sound with
      committed := h.sound.committed.perm hperm.symm
      distinct := by
        refine (hperm.pairwise_iff (fun {a b} hab => ?_)).mpr h.sound.distinct
        rw [ParticipantCommitment.clashes_comm]
        exact hab
      room := by
        rw [hperm.length_eq]
        exact h.sound.room }
  senders := hsenders.trans h.senders
  covered := by
    rw [hroot]
    exact h.covered
  granted := fun grant hgrant => hperm.mem_iff.mpr (h.granted grant hgrant)
  listed := by
    rw [hroot]
    refine h.listed.reread (fun _ bytes m _ _ hpool => ?_)
    exact readPoolManifest_of_extends
      (Manifest.PoolExtends.of_perm hperm.symm h.nodup_commitmentIds) hpool
  chain := h.chain
  shared := by
    rw [hroot]
    exact h.shared
  backed := h.backed
  delivered := h.delivered

/-- The index in memory is the one of the files, but for the order of the commitments. -/
theorem Session.Valid.rebuild
    (h : s.Valid crate sponge) :
    ∃ read, read.Perm s.commitments ∧
      rebuildSessionIndex crate s.root s.relayPolicy =
        .ok (read, s.commitmentSenders, s.storedFrameBytes) := by
  rcases h.files with huntouched | ⟨proposal, frames, manifests, shares, hstarted⟩
  · exact ⟨s.commitments, List.Perm.refl _, huntouched.rebuild⟩
  · exact hstarted.rebuild

/-- What opening the directory of a session gives. -/
structure Session.Reopens (s s' : Session K X) : Prop where
  root : s'.root = s.root
  policy : s'.policy = s.policy
  relayPolicy : s'.relayPolicy = s.relayPolicy
  identity : s'.identity = s.identity
  commitments : s'.commitments.Perm s.commitments
  senders : s'.commitmentSenders = s.commitmentSenders
  bytes : s'.storedFrameBytes = s.storedFrameBytes

/-- The directory can be opened, and the session is the same but for the order. -/
theorem Session.Valid.exists_open
    (h : s.Valid crate sponge) :
    ∃ s', Session.openRoot crate s.root = .ok s' ∧ s.Reopens s' := by
  obtain ⟨read, hperm, hrebuild⟩ := h.rebuild
  refine ⟨{ s with commitments := read }, ?_, ⟨rfl, rfl, rfl, rfl, hperm, rfl, rfl⟩⟩
  refine Session.openRoot_eq_ok_iff.mpr
    ⟨h.limits, ?_, rfl, h.policy, h.relayPolicy, h.identity⟩
  rw [← h.relayPolicy]
  exact hrebuild

/-- The session that is opened is the same but for the order. -/
theorem Session.Valid.reopens
    (h : s.Valid crate sponge)
    (hopen : Session.openRoot crate s.root = .ok s') :
    s.Reopens s' := by
  obtain ⟨s'', hopen', hreopens⟩ := h.exists_open
  rwa [Except.ok.inj (hopen'.symm.trans hopen)] at hreopens

/-- Opening keeps what holds. -/
theorem Session.Valid.of_reopens
    (h : s.Valid crate sponge)
    (hreopens : s.Reopens s') :
    s'.Valid crate sponge := by
  refine h.of_sameSettings ⟨hreopens.policy, hreopens.relayPolicy, hreopens.identity, ?_, ?_, ?_⟩ ?_
  · rw [hreopens.root]
  · rw [hreopens.root]
  · rw [hreopens.root]
  · rcases h.files with huntouched | ⟨proposal, frames, manifests, shares, hstarted⟩
    · refine Or.inl ⟨?_, ?_, ?_, ?_, ?_, ?_, ?_, ?_⟩
      · rw [hreopens.root, huntouched.proposal]
      · rw [hreopens.root, huntouched.committed]
      · rw [hreopens.root, huntouched.listed]
      · rw [hreopens.root, huntouched.shared]
      · rw [hreopens.root, huntouched.framed]
      · have hpool := hreopens.commitments
        rw [huntouched.pool] at hpool
        exact hpool.eq_nil
      · rw [hreopens.senders, huntouched.senders]
      · rw [hreopens.bytes, huntouched.counted]
    · exact Or.inr ⟨proposal, frames, manifests, shares, hstarted.reorder hreopens.commitments
        hreopens.root hreopens.relayPolicy hreopens.senders hreopens.bytes⟩

end Opening

end OpenCsv
