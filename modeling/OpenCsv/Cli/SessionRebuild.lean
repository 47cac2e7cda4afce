import OpenCsv.Cli.ManifestChain

/-!
# The index that is computed from the files

Opening a directory reads the commitments and the frames in the order of their names, and
computes the index from them.  Every stored commitment needs the frame that authorized it.

**Result.** The index of a directory is determined by its commitments and by what its frames
authorize, up to the order of the commitments (`rebuildSessionIndex_of_holds`).
-/

namespace OpenCsv

variable {K S R X : Type}

section Grants

variable (crate : GossipCrate K S R X)
variable [DecidableEq K]

namespace SignedFrame

/-- The commitment that a frame authorizes, with the relay identity. -/
def grant
    (proposal : Proposal K)
    (frame : SignedFrame K R) : Option (Bytes 33 × ParticipantCommitment K) :=
  match frame.kind with
  | .commitment =>
      (ParticipantCommitment.fromWire crate.toBitcoinCrate proposal frame.payload).toOption.map
        (fun c => (crate.serializeKey frame.sender, c))
  | _ => none

/-- The frame carries the authorization that its kind needs, and no other. -/
def Authorized
    (proposal : Proposal K)
    (frame : SignedFrame K R) : Prop :=
  match frame.kind with
  | .proposal => ∃ p : Proposal K,
      Proposal.fromWire crate.toBitcoinCrate frame.payload = .ok p ∧
        frame.verifyOriginSignature crate p.stockOwnerPubkey = .ok ()
  | .commitment => ∃ c : ParticipantCommitment K,
      ParticipantCommitment.fromWire crate.toBitcoinCrate proposal frame.payload = .ok c ∧
        frame.verifyOriginSignature crate c.feePubkey = .ok ()
  | .manifest | .signature => frame.originSignature.isNone = true

end SignedFrame

/-- What is gathered from frames that authorize some commitments. -/
def FrameIndex.of
    (storedFrameBytes : UInt64)
    (grants : List (Bytes 33 × ParticipantCommitment K)) : FrameIndex where
  storedFrameBytes
  commitmentSenders := (grants.map Prod.fst).toFinset
  authorizedCommitments :=
    (grants.map (fun grant => grant.2.commitmentId crate.toBitcoinCrate)).toFinset

end Grants

section Frames

variable {crate : GossipCrate K S R X}
variable [DecidableEq K]
variable {proposal : Proposal K}
variable {frame : SignedFrame K R}
variable {grants : List (Bytes 33 × ParticipantCommitment K)}
variable {bytes bytes' : UInt64}

omit [DecidableEq K] in
/-- A frame that is authorized adds what it authorizes. -/
theorem FrameIndex.add_of_authorized
    (hauthorized : frame.Authorized crate proposal)
    (hsenders : ((grants ++ (frame.grant crate proposal).toList).map Prod.fst).Nodup) :
    (FrameIndex.of crate bytes grants).add crate (some proposal) frame =
      .ok (FrameIndex.of crate bytes (grants ++ (frame.grant crate proposal).toList)) := by
  cases hkind : frame.kind with
  | proposal =>
      simp only [SignedFrame.Authorized, hkind] at hauthorized
      obtain ⟨p, hread, hsignature⟩ := hauthorized
      simp only [FrameIndex.add, SignedFrame.grant, hkind, Option.toList_none, List.append_nil,
        except_bind_eq_ok_iff, mapError_eq_ok_iff]
      exact ⟨p, hread, (), hsignature, rfl⟩
  | commitment =>
      simp only [SignedFrame.Authorized, hkind] at hauthorized
      obtain ⟨c, hread, hsignature⟩ := hauthorized
      have hgrant : frame.grant crate proposal = some (crate.serializeKey frame.sender, c) := by
        simp only [SignedFrame.grant, hkind, hread]
        rfl
      rw [hgrant] at hsenders ⊢
      simp only [Option.toList_some, List.map_append, List.map_singleton] at hsenders
      have hfresh : crate.serializeKey frame.sender ∉ grants.map Prod.fst := by
        intro hmem
        exact (List.disjoint_of_nodup_append hsenders) hmem (List.mem_singleton_self _)
      simp only [FrameIndex.add, hkind, readCommitment, except_bind_eq_ok_iff,
        mapError_eq_ok_iff, okOr_eq_ok_iff, require_eq_ok_iff, decide_eq_true_eq]
      refine ⟨proposal, rfl, c, hread, (), hsignature, (), ?_, ?_⟩
      · simpa [FrameIndex.of] using hfresh
      · simp only [FrameIndex.of, Option.toList_some, List.map_append, List.map_singleton,
          List.toFinset_append, List.toFinset_cons, List.toFinset_nil, pure, Except.pure,
          insert_empty_eq, Finset.union_singleton]
  | manifest =>
      simp only [SignedFrame.Authorized, hkind] at hauthorized
      simp only [FrameIndex.add, SignedFrame.grant, hkind, Option.toList_none, List.append_nil,
        except_bind_eq_ok_iff, require_eq_ok_iff]
      exact ⟨(), hauthorized, rfl⟩
  | signature =>
      simp only [SignedFrame.Authorized, hkind] at hauthorized
      simp only [FrameIndex.add, SignedFrame.grant, hkind, Option.toList_none, List.append_nil,
        except_bind_eq_ok_iff, require_eq_ok_iff]
      exact ⟨(), hauthorized, rfl⟩

omit [DecidableEq K] in
/-- The bytes of one more frame, while they fit. -/
theorem FrameIndex.count_of_le
    {maxSessionBytes : UInt64}
    {length : ℕ}
    (hbytes : bytes.toNat + length ≤ maxSessionBytes.toNat) :
    (FrameIndex.of crate bytes grants).count maxSessionBytes length =
      .ok (FrameIndex.of crate (bytes + UInt64.ofNat length) grants) := by
  have hmax := maxSessionBytes.toNat_lt
  have hlength : (UInt64.ofNat length).toNat = length := by
    rw [UInt64.toNat_ofNat', Nat.mod_eq_of_lt (by omega)]
  have hsum : (bytes + UInt64.ofNat length).toNat = bytes.toNat + length := by
    rw [UInt64.toNat_add, hlength, Nat.mod_eq_of_lt (by omega)]
  have hadd : checkedAdd bytes (UInt64.ofNat length) = some (bytes + UInt64.ofNat length) := by
    rw [checkedAdd, if_pos (by omega)]
  have hquota : bytes + UInt64.ofNat length ≤ maxSessionBytes := by
    rw [UInt64.le_iff_toNat_le]
    omega
  simp only [FrameIndex.count, except_bind_eq_ok_iff, okOr_eq_ok_iff, require_eq_ok_iff,
    decide_eq_true_eq]
  exact ⟨_, hadd, (), hquota, rfl⟩

variable [DecidableEq R]

omit [DecidableEq K] in
/-- The index of some frames that are authorized, by distinct identities, and fit. -/
theorem rebuildFrames_of_authorized
    {relayPolicy : RelayPolicy}
    {files : List (Bytes 32 × List UInt8)}
    {frames : List (SignedFrame K R)}
    (hreads : List.Forall₂ (fun file frame => SignedFrame.fromWire crate file.2 = .ok frame)
      files frames)
    (hauthorized : ∀ frame ∈ frames, frame.Authorized crate proposal)
    (hsenders :
      ((grants ++ frames.filterMap (SignedFrame.grant crate proposal)).map Prod.fst).Nodup)
    (hbytes : bytes'.toNat = bytes.toNat + (files.map (fun file => file.2.length)).sum)
    (hquota : bytes' ≤ relayPolicy.maxSessionBytes) :
    rebuildFrames crate relayPolicy (some proposal) files (FrameIndex.of crate bytes grants) =
      .ok (FrameIndex.of crate bytes'
        (grants ++ frames.filterMap (SignedFrame.grant crate proposal))) := by
  induction hreads generalizing bytes grants with
  | nil =>
      have heq : bytes' = bytes := by
        rw [← UInt64.toNat_inj]
        simpa using hbytes
      rw [heq, List.filterMap_nil, List.append_nil, rebuildFrames]
  | @cons file frame files frames hread _ ih =>
      have hsplit : grants ++ (frame :: frames).filterMap (SignedFrame.grant crate proposal) =
          (grants ++ (frame.grant crate proposal).toList) ++
            frames.filterMap (SignedFrame.grant crate proposal) := by
        rw [List.append_assoc, List.filterMap_cons]
        cases frame.grant crate proposal <;> rfl
      rw [hsplit] at hsenders ⊢
      rw [List.map_cons, List.sum_cons] at hbytes
      rw [UInt64.le_iff_toNat_le] at hquota
      have hlength : (UInt64.ofNat file.2.length).toNat = file.2.length := by
        have hmax := relayPolicy.maxSessionBytes.toNat_lt
        rw [UInt64.toNat_ofNat', Nat.mod_eq_of_lt (by omega)]
      have hsum : (bytes + UInt64.ofNat file.2.length).toNat = bytes.toNat + file.2.length := by
        have hmax := relayPolicy.maxSessionBytes.toNat_lt
        rw [UInt64.toNat_add, hlength, Nat.mod_eq_of_lt (by omega)]
      have hnodup :
          ((grants ++ (frame.grant crate proposal).toList).map Prod.fst).Nodup := by
        rw [List.map_append] at hsenders
        exact hsenders.of_append_left
      simp only [rebuildFrames, except_bind_eq_ok_iff, readLimited_eq_ok_iff]
      refine ⟨_, FrameIndex.count_of_le (by omega), file.2,
        ⟨(SignedFrame.of_fromWire hread).2.2, rfl⟩, frame, hread, _,
        FrameIndex.add_of_authorized (hauthorized frame List.mem_cons_self) hnodup, ?_⟩
      refine ih (fun frame' hframe => hauthorized frame' (List.mem_cons_of_mem _ hframe)) hsenders
        ?_
      rw [hsum, hbytes]
      omega

end Frames

section Commitments

variable {crate : GossipCrate K S R X}
variable [DecidableEq K]
variable {proposal : Proposal K}

/-- Sharing something is mutual. -/
theorem ParticipantCommitment.clashes_comm
    (a b : ParticipantCommitment K) :
    a.clashes b = b.clashes a := by
  simp only [clashes, beq_eq_decide, eq_comm]

/-- A commitment in a file. -/
abbrev readStoredCommitment
    (crate : GossipCrate K S R X)
    (proposal : Proposal K) : List UInt8 → Except GossipError (ParticipantCommitment K) :=
  readBounded (ParticipantCommitment.fromWire crate.toBitcoinCrate proposal)

/-- The stored commitments are read when no two of them share anything. -/
theorem rebuildCommitments_of_pairwise
    {files : List (Bytes 32 × List UInt8)}
    {commitments seen : List (ParticipantCommitment K)}
    (hreads : List.Forall₂
      (fun file c => readStoredCommitment crate proposal file.2 = .ok c) files commitments)
    (hdistinct : (seen ++ commitments).Pairwise (fun a b => a.clashes b = false)) :
    rebuildCommitments crate (some proposal) files seen = .ok (seen ++ commitments) := by
  induction hreads generalizing seen with
  | nil => rw [rebuildCommitments, List.append_nil]
  | @cons file c files commitments hread _ ih =>
      obtain ⟨hlength, hparse⟩ := readBounded_eq_ok_iff.mp hread
      have hfresh : (!seen.any (fun existing => existing.clashes c)) = true := by
        have hcross := (List.pairwise_append.mp hdistinct).2.2
        simp only [Bool.not_eq_true', List.any_eq_false, Bool.not_eq_true]
        exact fun existing hmem => hcross existing hmem c List.mem_cons_self
      simp only [rebuildCommitments, readCommitment, except_bind_eq_ok_iff, okOr_eq_ok_iff,
        readLimited_eq_ok_iff, mapError_eq_ok_iff, require_eq_ok_iff]
      refine ⟨proposal, rfl, file.2, ⟨hlength, rfl⟩, c, hparse, (), hfresh, ?_⟩
      rw [List.append_cons] at hdistinct
      rw [List.append_cons seen c commitments]
      exact ih hdistinct

end Commitments

section Index

variable {crate : GossipCrate K S R X}
variable [DecidableEq R]
variable {proposal : Proposal K}
variable {root : SessionRoot X}
variable {relayPolicy : RelayPolicy}
variable {commitments : List (ParticipantCommitment K)}
variable {frames : List (SignedFrame K R)}

/-- What the frames of a directory authorize. -/
def grantsOf
    (crate : GossipCrate K S R X)
    (proposal : Proposal K)
    (frames : List (SignedFrame K R)) : List (Bytes 33 × ParticipantCommitment K) :=
  frames.filterMap (SignedFrame.grant crate proposal)

/-- The files of the frames, in the order of their names, are the frames in some order. -/
theorem rebuildFrames_of_holds
    {bytes : UInt64}
    (hframes : root.frames.Holds (SignedFrame.fromWire crate) (SignedFrame.semanticFrameId crate)
      frames)
    (hauthorized : ∀ frame ∈ frames, frame.Authorized crate proposal)
    (hsenders : ((grantsOf crate proposal frames).map Prod.fst).Nodup)
    (hbytes : bytes.toNat = (root.frames.rows.map (fun file => file.2.length)).sum)
    (hquota : bytes ≤ relayPolicy.maxSessionBytes) :
    rebuildFrames crate relayPolicy (some proposal) (root.frames.listing idNameLe) ⟨0, ∅, ∅⟩ =
      .ok (FrameIndex.of crate bytes (grantsOf crate proposal frames)) := by
  obtain ⟨read, hread, hperm⟩ := hframes.mapM_listing idNameLe
  have hgrants : (grantsOf crate proposal read).Perm (grantsOf crate proposal frames) :=
    hperm.filterMap _
  have hfrom := @rebuildFrames_of_authorized _ _ _ _ crate proposal [] 0 bytes _ relayPolicy _ _
    (mapM_eq_ok_iff.mp hread)
    (fun frame hframe => hauthorized frame (hperm.mem_iff.mp hframe))
    ((hgrants.map Prod.fst).nodup_iff.mpr hsenders) ?_ hquota
  · have hindex : FrameIndex.of crate bytes (grantsOf crate proposal read) =
        FrameIndex.of crate bytes (grantsOf crate proposal frames) := by
      simp only [FrameIndex.of, List.toFinset_eq_of_perm _ _ (hgrants.map Prod.fst),
        List.toFinset_eq_of_perm _ _
          (hgrants.map (fun grant => grant.2.commitmentId crate.toBitcoinCrate))]
    rw [← hindex]
    exact hfrom
  · rw [hbytes, ((root.frames.listing_perm idNameLe).map _).sum_eq]
    exact (Nat.zero_add _).symm

omit [DecidableEq R] in
theorem mem_authorizedCommitments_iff
    {bytes : UInt64}
    {grants : List (Bytes 33 × ParticipantCommitment K)}
    {id : Bytes 32} :
    id ∈ (FrameIndex.of crate bytes grants).authorizedCommitments ↔
      ∃ grant ∈ grants, grant.2.commitmentId crate.toBitcoinCrate = id := by
  simp [FrameIndex.of]

variable [DecidableEq K]

/-- What is known of the commitments and the frames in a directory. -/
structure SessionRoot.Sound
    (crate : GossipCrate K S R X)
    (root : SessionRoot X)
    (relayPolicy : RelayPolicy)
    (proposal : Proposal K)
    (commitments : List (ParticipantCommitment K))
    (frames : List (SignedFrame K R))
    (bytes : UInt64) : Prop where
  proposed : storedProposal crate root = .ok (some proposal)
  committed : root.commitments.Holds (readStoredCommitment crate proposal)
    (ParticipantCommitment.commitmentId crate.toBitcoinCrate) commitments
  distinct : commitments.Pairwise (fun a b => a.clashes b = false)
  room : commitments.length ≤
    min relayPolicy.maxCommitments.toNat proposal.participantCount.toNat
  framed : root.frames.Holds (SignedFrame.fromWire crate) (SignedFrame.semanticFrameId crate)
    frames
  authorized : ∀ frame ∈ frames, frame.Authorized crate proposal
  senders : ((grantsOf crate proposal frames).map Prod.fst).Nodup
  counted : bytes.toNat = (root.frames.rows.map (fun file => file.2.length)).sum
  quota : bytes ≤ relayPolicy.maxSessionBytes

variable {bytes : UInt64}

/-- The index of a directory, but for the check that every commitment has its frame. -/
theorem SessionRoot.Sound.rebuild
    (h : root.Sound crate relayPolicy proposal commitments frames bytes) :
    ∃ read, read.Perm commitments ∧
      rebuildSessionIndex crate root relayPolicy = do
        require (read.all (fun c => c.commitmentId crate.toBitcoinCrate ∈
            (FrameIndex.of crate bytes (grantsOf crate proposal frames)).authorizedCommitments))
          (protocolError "stored commitment lacks its authorized relay frame")
        return (read, ((grantsOf crate proposal frames).map Prod.fst).toFinset, bytes) := by
  obtain ⟨read, hread, hperm⟩ := h.committed.mapM_listing idNameLe
  refine ⟨read, hperm, ?_⟩
  have hpairwise : read.Pairwise (fun a b => a.clashes b = false) := by
    refine (hperm.pairwise_iff (fun {a b} hab => ?_)).mpr h.distinct
    rw [ParticipantCommitment.clashes_comm]
    exact hab
  have hpool : rebuildCommitments crate (some proposal) (root.commitments.listing idNameLe) [] =
      .ok read :=
    @rebuildCommitments_of_pairwise _ _ _ _ crate _ _ _ _ [] (mapM_eq_ok_iff.mp hread) hpairwise
  have hlimit : require (decide (read.length ≤
      min ((some proposal).elim 0 (fun p => p.participantCount.toNat))
        relayPolicy.maxCommitments.toNat))
      (protocolError "stored commitment pool exceeds local quota") = .ok () := by
    rw [require_eq_ok_iff, decide_eq_true_eq, hperm.length_eq, min_comm]
    exact h.room
  unfold rebuildSessionIndex
  simp only [h.proposed, hpool, rebuildFrames_of_holds h.framed h.authorized h.senders h.counted
    h.quota, hlimit, bind, Except.bind]
  rfl

/-- The index of a directory in which every commitment has its frame. -/
theorem SessionRoot.Sound.rebuild_of_covered
    (h : root.Sound crate relayPolicy proposal commitments frames bytes)
    (hcovered : ∀ c ∈ commitments, ∃ grant ∈ grantsOf crate proposal frames, grant.2 = c) :
    ∃ read, read.Perm commitments ∧
      rebuildSessionIndex crate root relayPolicy =
        .ok (read, ((grantsOf crate proposal frames).map Prod.fst).toFinset, bytes) := by
  obtain ⟨read, hperm, hrebuild⟩ := h.rebuild
  refine ⟨read, hperm, ?_⟩
  rw [hrebuild, except_bind_eq_ok_iff]
  refine ⟨(), require_eq_ok_iff.mpr ?_, rfl⟩
  rw [List.all_eq_true]
  intro c hc
  obtain ⟨grant, hgrant, rfl⟩ := hcovered c (hperm.mem_iff.mp hc)
  exact decide_eq_true (mem_authorizedCommitments_iff.mpr ⟨grant, hgrant, rfl⟩)

/-- A directory with a commitment that no frame authorizes is refused. -/
theorem SessionRoot.Sound.rebuild_of_uncovered
    (h : root.Sound crate relayPolicy proposal commitments frames bytes)
    {c : ParticipantCommitment K}
    (hc : c ∈ commitments)
    (huncovered : ∀ grant ∈ grantsOf crate proposal frames,
      grant.2.commitmentId crate.toBitcoinCrate ≠ c.commitmentId crate.toBitcoinCrate) :
    rebuildSessionIndex crate root relayPolicy =
      .error (protocolError "stored commitment lacks its authorized relay frame") := by
  obtain ⟨read, hperm, hrebuild⟩ := h.rebuild
  have hall : (read.all (fun c => decide (c.commitmentId crate.toBitcoinCrate ∈
      (FrameIndex.of crate bytes
        (grantsOf crate proposal frames)).authorizedCommitments))) = false := by
    rw [List.all_eq_false]
    refine ⟨c, hperm.mem_iff.mpr hc, ?_⟩
    rw [decide_eq_true_eq, mem_authorizedCommitments_iff]
    rintro ⟨grant, hgrant, heq⟩
    exact huncovered grant hgrant heq
  rw [hrebuild, hall]
  rfl

end Index

end OpenCsv
