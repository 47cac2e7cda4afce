import OpenCsv.Cli.SessionRebuild
import OpenCsv.Cli.SessionRuns

/-!
# What holds in every session

The peers of a session choose what arrives and in which order, and the session may be closed
and opened again between any two calls.

**Results.** What is known of a frame with a new object depends on its kind
(`Session.brings_of_arrival`).  In every session the files of the accepted objects, the frames
that they came in and the index in memory agree (`Session.Valid`).
-/

namespace OpenCsv

open Call

variable {K S R X : Type}

section Brought

variable (crate : GossipCrate K S R X)
variable (sponge : Sponge)
variable [DecidableEq K]

/-- What was checked of an object that a frame brings. -/
inductive Session.Brings
    (s : Session K X)
    (frame : SignedFrame K R) : SemanticObject K S → Prop
  | proposal {p : Proposal K} :
      frame.kind = .proposal →
      Proposal.fromWire crate.toBitcoinCrate frame.payload = .ok p →
      p.version = batchVersion →
      p.validateAt s.policy.chainId s.policy.currentHeight = .ok () →
      frame.verifyOriginSignature crate p.stockOwnerPubkey = .ok () →
        s.Brings frame (.proposal p)
  | commitment {p : Proposal K} {c : ParticipantCommitment K} :
      frame.kind = .commitment →
      s.loadProposal crate = .ok (some p) →
      ParticipantCommitment.fromWire crate.toBitcoinCrate p frame.payload = .ok c →
      frame.verifyOriginSignature crate c.feePubkey = .ok () →
      s.admitCommitment crate p c frame.sender = .ok () →
        s.Brings frame (.commitment c)
  | manifest {p : Proposal K} {m : Manifest K} {existing : List (Manifest K)} :
      frame.kind = .manifest →
      s.loadProposal crate = .ok (some p) →
      Manifest.fromWirePool crate.toBitcoinCrate sponge p s.commitments frame.payload = .ok m →
      m.replacementEpoch < s.relayPolicy.maxReplacementEpochs →
      s.loadManifests crate sponge (some p) s.commitments = .ok existing →
      checkManifestPlace crate sponge p existing m = .ok () →
      frame.originSignature.isNone = true →
        s.Brings frame (.manifest m)
  | signature {p : Proposal K} {share : SignatureShare K S} {m : Manifest K}
      {existing : List (Manifest K)} :
      frame.kind = .signature →
      s.loadProposal crate = .ok (some p) →
      s.loadManifests crate sponge (some p) s.commitments = .ok existing →
      SignatureShare.fromWire crate.toBitcoinCrate frame.payload = .ok share →
      existing.find? (fun m => m.manifestId crate.toBitcoinCrate == share.manifestId) = some m →
      m.verifySignatureShare crate.toBitcoinCrate sponge p share = .ok () →
      frame.originSignature.isNone = true →
        s.Brings frame (.signature share)

variable {crate : GossipCrate K S R X}
variable {sponge : Sponge}
variable {s : Session K X}
variable {frame : SignedFrame K R}
variable {object : SemanticObject K S}
variable {wire : List UInt8}

/-- The checks of a frame with a new object, by its kind. -/
theorem Session.brings_of_arrival
    [DecidableEq R]
    (h : s.arrival crate sponge wire = .ok (some (frame, object))) :
    s.Brings crate sponge frame object := by
  obtain ⟨-, horigin, -, hadmission⟩ := Session.arrival_eq_some_iff.mp h
  obtain ⟨-, hpolicy, hvalid, -⟩ := Session.admission_eq_ok_iff.mp hadmission
  simp only [enforceFramePolicy, except_bind_eq_ok_iff] at hpolicy
  obtain ⟨-, -, hpolicy⟩ := hpolicy
  cases hkind : frame.kind with
  | proposal =>
      simp only [verifyOriginAuthorization, hkind, except_bind_eq_ok_iff,
        mapError_eq_ok_iff] at horigin
      simp only [validateSemantic, hkind, except_bind_eq_ok_iff, mapError_eq_ok_iff, pure,
        Except.pure, Except.ok.injEq] at hvalid
      obtain ⟨p, hread, _, hlive, hsignature⟩ := horigin
      obtain ⟨p', hread', _, hheight, rfl⟩ := hvalid
      obtain rfl := Except.ok.inj (hread.symm.trans hread')
      exact .proposal hkind hread (requireLiveProposal_eq_ok_iff.mp hlive) hheight hsignature
  | commitment =>
      simp only [hkind, readCommitment, except_bind_eq_ok_iff, mapError_eq_ok_iff,
        requireProposal_eq_ok_iff] at hpolicy
      simp only [verifyOriginAuthorization, hkind, readCommitment, except_bind_eq_ok_iff,
        mapError_eq_ok_iff, requireProposal_eq_ok_iff] at horigin
      simp only [validateSemantic, hkind, readCommitment, except_bind_eq_ok_iff,
        mapError_eq_ok_iff, requireProposal_eq_ok_iff, pure, Except.pure,
        Except.ok.injEq] at hvalid
      obtain ⟨p, hload, c, hread, hnext⟩ := hpolicy
      obtain ⟨p', hload', c', hread', hsignature⟩ := horigin
      obtain ⟨p'', hload'', c'', hread'', rfl⟩ := hvalid
      obtain rfl := Option.some.inj (Except.ok.inj (hload.symm.trans hload'))
      obtain rfl := Option.some.inj (Except.ok.inj (hload.symm.trans hload''))
      obtain rfl := Except.ok.inj (hread.symm.trans hread')
      obtain rfl := Except.ok.inj (hread.symm.trans hread'')
      exact .commitment hkind hload hread hsignature hnext
  | manifest =>
      simp only [hkind, except_bind_eq_ok_iff, mapError_eq_ok_iff, requireProposal_eq_ok_iff,
        require_eq_ok_iff, decide_eq_true_eq] at hpolicy
      simp only [verifyOriginAuthorization, hkind, require_eq_ok_iff] at horigin
      simp only [validateSemantic, loadCommitments, hkind, except_bind_eq_ok_iff,
        mapError_eq_ok_iff, requireProposal_eq_ok_iff, pure, Except.pure,
        Except.ok.injEq] at hvalid
      obtain ⟨p, hload, m, hread, hepoch⟩ := hpolicy
      obtain ⟨p', hload', m', hread', existing, hexisting, _, hplace, rfl⟩ := hvalid
      obtain rfl := Option.some.inj (Except.ok.inj (hload.symm.trans hload'))
      obtain rfl := Except.ok.inj (hread.symm.trans hread')
      exact .manifest hkind hload hread hepoch hexisting hplace horigin
  | signature =>
      simp only [verifyOriginAuthorization, hkind, require_eq_ok_iff] at horigin
      simp only [validateSemantic, loadCommitments, hkind, except_bind_eq_ok_iff,
        mapError_eq_ok_iff, requireProposal_eq_ok_iff, okOr_eq_ok_iff, pure, Except.pure,
        Except.ok.injEq] at hvalid
      obtain ⟨p, hload, existing, hexisting, share, hread, m, hfind, _, hverify, rfl⟩ := hvalid
      exact .signature hkind hload hexisting hread hfind hverify horigin

end Brought

section Invariant

/-- The name of the file of a share. -/
def SignatureShare.fileName (share : SignatureShare K S) : Bytes 32 × UInt16 :=
  (share.manifestId, share.inputIndex)

/-- A share in a file. -/
abbrev readStoredShare
    (crate : GossipCrate K S R X) : List UInt8 → Except GossipError (SignatureShare K S) :=
  readBounded (SignatureShare.fromWire crate.toBitcoinCrate)

variable (crate : GossipCrate K S R X)
variable (sponge : Sponge)
variable [DecidableEq K]

/-- The share verifies against the manifest that it names. -/
def SignatureShare.Backed
    (proposal : Proposal K)
    (manifests : List (Manifest K))
    (share : SignatureShare K S) : Prop :=
  ∃ m, manifests.find? (fun m => m.manifestId crate.toBitcoinCrate == share.manifestId) = some m ∧
    m.verifySignatureShare crate.toBitcoinCrate sponge proposal share = .ok ()

/-- A session without a proposal: nothing is stored. -/
structure Session.Untouched (s : Session K X) : Prop where
  proposal : s.root.proposal = none
  committed : s.root.commitments = .empty
  listed : s.root.manifests = .empty
  shared : s.root.signatures = .empty
  framed : s.root.frames = .empty
  pool : s.commitments = []
  senders : s.commitmentSenders = ∅
  counted : s.storedFrameBytes = 0

/-- The files of a session with a proposal agree with each other and with the index. -/
structure Session.Started
    [DecidableEq R]
    (s : Session K X)
    (proposal : Proposal K)
    (frames : List (SignedFrame K R))
    (manifests : List (Manifest K))
    (shares : List (SignatureShare K S)) : Prop where
  sound : s.root.Sound crate s.relayPolicy proposal s.commitments frames s.storedFrameBytes
  senders : s.commitmentSenders = ((grantsOf crate proposal frames).map Prod.fst).toFinset
  covered : ∀ id bytes, s.root.commitments.get id = some bytes →
    ∃ frame ∈ frames, frame.kind = .commitment ∧ frame.payload = bytes
  granted : ∀ grant ∈ grantsOf crate proposal frames, grant.2 ∈ s.commitments
  listed : s.root.manifests.Holds (readPoolManifest crate sponge proposal s.commitments)
    (Manifest.fileName crate) manifests
  chain : ManifestChain crate sponge proposal manifests
  shared : s.root.signatures.Holds (readStoredShare crate) SignatureShare.fileName shares
  backed : ∀ share ∈ shares, share.Backed crate sponge proposal manifests
  delivered : ∀ frame ∈ frames, frame.kind = .signature →
    ∃ share ∈ shares, SignatureShare.fromWire crate.toBitcoinCrate frame.payload = .ok share

/-- What holds in every session. -/
structure Session.Valid
    [DecidableEq R]
    (s : Session K X) : Prop where
  policy : s.policy = s.root.policy
  relayPolicy : s.relayPolicy = s.root.relayPolicy
  limits : s.root.relayPolicy.validate = .ok s.root.relayPolicy
  identity : s.identity = s.root.identity
  files : s.Untouched ∨ ∃ proposal frames manifests shares,
    s.Started crate sponge proposal frames manifests shares

end Invariant

section Reading

variable {crate : GossipCrate K S R X}
variable {sponge : Sponge}
variable [DecidableEq K] [DecidableEq R]
variable {s : Session K X}
variable {proposal : Proposal K}
variable {frames : List (SignedFrame K R)}
variable {manifests : List (Manifest K)}
variable {shares : List (SignatureShare K S)}

omit [DecidableEq K] [DecidableEq R] in
theorem Session.Untouched.loadProposal
    (h : s.Untouched) :
    s.loadProposal crate = .ok none :=
  Session.loadProposal_eq_none_iff.mpr h.proposal

namespace Session.Started

variable (h : s.Started crate sponge proposal frames manifests shares)

include h

/-- The proposal that is read is the stored one. -/
theorem eq_of_loadProposal
    {p : Proposal K}
    (hload : s.loadProposal crate = .ok (some p)) :
    p = proposal := by
  have hstored := (Session.loadProposal_eq_some_iff.mp hload).1
  exact Option.some.inj (Except.ok.inj (hstored.symm.trans h.sound.proposed))

/-- The manifests that are read are the chain. -/
theorem loadManifests :
    s.loadManifests crate sponge (some proposal) s.commitments = .ok manifests :=
  loadManifests_of_holds h.listed h.chain

/-- Every commitment of the index is authorized by a frame. -/
theorem exists_grant :
    ∀ c ∈ s.commitments, ∃ grant ∈ grantsOf crate proposal frames, grant.2 = c := by
  intro c hc
  obtain ⟨bytes, hget, hread⟩ := h.sound.committed.get_of_mem hc
  obtain ⟨frame, hframe, hkind, rfl⟩ := h.covered _ _ hget
  refine ⟨(crate.serializeKey frame.sender, c), ?_, rfl⟩
  refine List.mem_filterMap.mpr ⟨frame, hframe, ?_⟩
  simp only [SignedFrame.grant, hkind, (readBounded_eq_ok_iff.mp hread).2]
  rfl

/-- The identifiers of the commitments are distinct. -/
theorem nodup_commitmentIds :
    (s.commitments.map (ParticipantCommitment.commitmentId crate.toBitcoinCrate)).Nodup :=
  h.sound.committed.nodup

/-- A commitment whose file is there came in a frame that is there. -/
theorem frame_of_commitment
    {id : Bytes 32}
    {frame : SignedFrame K R}
    (hkind : frame.kind = .commitment)
    (hget : s.root.commitments.get id = some frame.payload) :
    s.root.frames.get (frame.semanticFrameId crate) ≠ none := by
  obtain ⟨frame', hmem, hkind', hpayload⟩ := h.covered _ _ hget
  have hid : frame'.semanticFrameId crate = frame.semanticFrameId crate := by
    simp only [SignedFrame.semanticFrameId, hkind, hkind', hpayload]
  intro hnone
  exact (h.sound.framed.get_eq_none_iff.mp hnone) frame' hmem hid

end Session.Started

end Reading

section Steps

variable {crate : GossipCrate K S R X}
variable {sponge : Sponge}
variable [DecidableEq K] [DecidableEq R]
variable {s s' : Session K X}
variable {proposal : Proposal K}
variable {commitments : List (ParticipantCommitment K)}
variable {frames : List (SignedFrame K R)}
variable {manifests : List (Manifest K)}
variable {shares : List (SignatureShare K S)}
variable {frame : SignedFrame K R}
variable {wire : List UInt8}

/-- One more frame in a directory. -/
theorem SessionRoot.Sound.putFrame
    {root : SessionRoot X}
    {relayPolicy : RelayPolicy}
    {bytes : UInt64}
    (h : root.Sound crate relayPolicy proposal commitments frames bytes)
    (hnew : root.frames.get (frame.semanticFrameId crate) = none)
    (hread : SignedFrame.fromWire crate wire = .ok frame)
    (hauthorized : frame.Authorized crate proposal)
    (hsenders : ((grantsOf crate proposal (frames ++ [frame])).map Prod.fst).Nodup)
    (hcount : checkedAdd bytes (UInt64.ofNat wire.length) =
      some (bytes + UInt64.ofNat wire.length))
    (hquota : bytes + UInt64.ofNat wire.length ≤ relayPolicy.maxSessionBytes) :
    ({ root with frames := root.frames.insert (frame.semanticFrameId crate) wire } :
      SessionRoot X).Sound crate relayPolicy proposal commitments (frames ++ [frame])
        (bytes + UInt64.ofNat wire.length) where
  proposed := h.proposed
  committed := h.committed
  distinct := h.distinct
  room := h.room
  framed := h.framed.insert hnew hread
  authorized := by
    intro frame' hmem
    rcases List.mem_append.mp hmem with hmem | hmem
    · exact h.authorized frame' hmem
    · rw [List.mem_singleton.mp hmem]
      exact hauthorized
  senders := hsenders
  counted := by
    have hsmall : (UInt64.ofNat wire.length).toNat = wire.length := by
      have hlength := (SignedFrame.of_fromWire hread).2.2
      rw [UInt64.toNat_ofNat', Nat.mod_eq_of_lt (lt_of_le_of_lt hlength (by decide))]
    have hroom : bytes.toNat + wire.length < 2 ^ 64 := by
      unfold checkedAdd at hcount
      split_ifs at hcount with hroom
      rwa [hsmall] at hroom
    rw [UInt64.toNat_add, hsmall, Nat.mod_eq_of_lt hroom, Table.rows_insert_of_none hnew,
      List.map_append, List.sum_append, h.counted]
    simp
  quota := hquota

omit [DecidableEq K] [DecidableEq R] in
/-- A frame that authorizes nothing. -/
theorem grantsOf_append_of_none
    (hgrant : frame.grant crate proposal = none) :
    grantsOf crate proposal (frames ++ [frame]) = grantsOf crate proposal frames := by
  simp [grantsOf, hgrant]

omit [DecidableEq K] [DecidableEq R] in
/-- A frame that authorizes a commitment. -/
theorem grantsOf_append_of_some
    {grant : Bytes 33 × ParticipantCommitment K}
    (hgrant : frame.grant crate proposal = some grant) :
    grantsOf crate proposal (frames ++ [frame]) = grantsOf crate proposal frames ++ [grant] := by
  simp [grantsOf, hgrant]

namespace Session.Started

/-- A frame that authorizes nothing is stored. -/
theorem deliver
    (h : s.Started crate sponge proposal frames manifests shares)
    (hnew : s.root.frames.get (frame.semanticFrameId crate) = none)
    (hread : SignedFrame.fromWire crate wire = .ok frame)
    (hauthorized : frame.Authorized crate proposal)
    (hgrant : frame.grant crate proposal = none)
    (hshare : frame.kind = .signature →
      ∃ share ∈ shares, SignatureShare.fromWire crate.toBitcoinCrate frame.payload = .ok share)
    (hcount : checkedAdd s.storedFrameBytes (UInt64.ofNat wire.length) =
      some (s.storedFrameBytes + UInt64.ofNat wire.length))
    (hquota : s.storedFrameBytes + UInt64.ofNat wire.length ≤ s.relayPolicy.maxSessionBytes) :
    ((s.putFrame crate frame wire).count wire.length).Started crate sponge proposal
      (frames ++ [frame]) manifests shares where
  sound := by
    refine h.sound.putFrame hnew hread hauthorized ?_ hcount hquota
    rw [grantsOf_append_of_none hgrant]
    exact h.sound.senders
  senders := by
    rw [grantsOf_append_of_none hgrant]
    exact h.senders
  covered := by
    intro id bytes hget
    obtain ⟨frame', hmem, hframe⟩ := h.covered id bytes hget
    exact ⟨frame', List.mem_append_left _ hmem, hframe⟩
  granted := by
    rw [grantsOf_append_of_none hgrant]
    exact h.granted
  listed := h.listed
  chain := h.chain
  shared := h.shared
  backed := h.backed
  delivered := by
    intro frame' hmem hkind
    rcases List.mem_append.mp hmem with hmem | hmem
    · exact h.delivered frame' hmem hkind
    · rw [List.mem_singleton.mp hmem] at hkind ⊢
      exact hshare hkind

/-- The next manifest is stored. -/
theorem storeManifest
    {m : Manifest K}
    {payload : List UInt8}
    (h : s.Started crate sponge proposal frames manifests shares)
    (hnew : s.root.manifests.get (m.fileName crate) = none)
    (hread : readPoolManifest crate sponge proposal s.commitments payload = .ok m)
    (hchain : ManifestChain crate sponge proposal (manifests ++ [m])) :
    (s.store crate (.manifest m : SemanticObject K S) payload).Started crate sponge proposal
      frames (manifests ++ [m]) shares where
  sound := ⟨h.sound.proposed, h.sound.committed, h.sound.distinct, h.sound.room, h.sound.framed,
    h.sound.authorized, h.sound.senders, h.sound.counted, h.sound.quota⟩
  senders := h.senders
  covered := h.covered
  granted := h.granted
  listed := h.listed.insert hnew hread
  chain := hchain
  shared := h.shared
  backed := by
    intro share hshare
    obtain ⟨m', hfind, hverify⟩ := h.backed share hshare
    refine ⟨m', ?_, hverify⟩
    rw [List.find?_append, hfind]
    rfl
  delivered := h.delivered

/-- A new share is stored. -/
theorem storeShare
    {share : SignatureShare K S}
    {payload : List UInt8}
    (h : s.Started crate sponge proposal frames manifests shares)
    (hnew : s.root.signatures.get share.fileName = none)
    (hread : readStoredShare crate payload = .ok share)
    (hbacked : share.Backed crate sponge proposal manifests) :
    (s.store crate (.signature share) payload).Started crate sponge proposal
      frames manifests (shares ++ [share]) where
  sound := ⟨h.sound.proposed, h.sound.committed, h.sound.distinct, h.sound.room, h.sound.framed,
    h.sound.authorized, h.sound.senders, h.sound.counted, h.sound.quota⟩
  senders := h.senders
  covered := h.covered
  granted := h.granted
  listed := h.listed
  chain := h.chain
  shared := h.shared.insert hnew hread
  backed := by
    intro share' hmem
    rcases List.mem_append.mp hmem with hmem | hmem
    · exact h.backed share' hmem
    · rw [List.mem_singleton.mp hmem]
      exact hbacked
  delivered := by
    intro frame' hmem hkind
    obtain ⟨share', hshare, hparse⟩ := h.delivered frame' hmem hkind
    exact ⟨share', List.mem_append_left _ hshare, hparse⟩

end Session.Started

/-- The first proposal is stored. -/
theorem Session.Untouched.storeProposal
    {payload : List UInt8}
    (h : s.Untouched)
    (hread : ReadsProposal crate payload proposal) :
    (s.store crate (.proposal proposal : SemanticObject K S) payload).Started crate sponge
      proposal ([] : List (SignedFrame K R)) [] ([] : List (SignatureShare K S)) where
  sound :=
    { proposed := storedProposal_eq_some_iff.mpr ⟨payload, rfl, hread⟩
      committed := by
        show s.root.commitments.Holds _ _ s.commitments
        rw [h.committed, h.pool]
        exact Table.Holds.empty
      distinct := by
        show s.commitments.Pairwise _
        rw [h.pool]
        exact List.Pairwise.nil
      room := by
        show s.commitments.length ≤ _
        rw [h.pool]
        exact Nat.zero_le _
      framed := by
        show s.root.frames.Holds _ _ []
        rw [h.framed]
        exact Table.Holds.empty
      authorized := by simp
      senders := List.nodup_nil
      counted := by
        show s.storedFrameBytes.toNat = (s.root.frames.rows.map _).sum
        rw [h.framed, h.counted]
        rfl
      quota := by
        show s.storedFrameBytes ≤ _
        rw [h.counted]
        exact UInt64.zero_le }
  senders := h.senders
  covered := by
    intro id bytes hget
    have hnone : s.root.commitments.get id = none := by
      rw [h.committed, Table.get_empty]
    exact absurd (hnone.symm.trans hget) (by simp)
  granted := by simp [grantsOf]
  listed := by
    show s.root.manifests.Holds _ _ []
    rw [h.listed]
    exact Table.Holds.empty
  chain := ManifestChain.nil
  shared := by
    show s.root.signatures.Holds _ _ []
    rw [h.shared]
    exact Table.Holds.empty
  backed := by simp
  delivered := by simp

end Steps

end OpenCsv
