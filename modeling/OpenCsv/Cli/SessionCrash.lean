import OpenCsv.Cli.SessionSafety

/-!
# Crashes while a frame is ingested

A frame is written in up to three steps: the object it carries, the frame, and a line of the
event log.  The process may end between any two of them.

**Result.** Opening the directory then gives the state before or after the frame exactly when the
frame brings no object with a new file, and the directory can be opened exactly when the frame
brings no new commitment (`crash_between_writes`).
-/

namespace OpenCsv

open Call

variable {K S R X : Type}

section Definitions

/-- The place of a write among the writes of a frame. -/
def IngestWrite.rank : IngestWrite → ℕ
  | .semantic => 0
  | .frame => 1
  | .event => 2

/-- The process ends just before a write. -/
def stopsBefore (write : IngestWrite) : IngestWrite → WriteOutcome :=
  fun other => if other.rank < write.rank then .done else .failed

variable (crate : GossipCrate K S R X)
variable (sponge : Sponge)
variable [DecidableEq K] [DecidableEq R]

/-- The directory that is left when the process ends just before a write of a frame. -/
def Session.cutRoot
    (s : Session K X)
    (wire : List UInt8)
    (write : IngestWrite) : SessionRoot X :=
  (final (ingest crate sponge (stopsBefore write) wire) s).root

/-- Wherever the process ends, the directory can be opened. -/
def Session.SurvivesCrash (s : Session K X) (wire : List UInt8) : Prop :=
  ∀ write, ∃ s', Session.openRoot crate (s.cutRoot crate sponge wire write) = .ok s'

/-- Wherever the process ends, opening the directory gives the state before or after. -/
def Session.CrashAtomic (s : Session K X) (wire : List UInt8) : Prop :=
  ∀ write, ∃ s', Session.openRoot crate (s.cutRoot crate sponge wire write) = .ok s' ∧
    (s'.root = s.root ∨ s'.root = (final (ingest crate sponge writesDone wire) s).root)

/-- The frame brings an object whose file is not there. -/
def Session.NewFile (s : Session K X) (wire : List UInt8) : Prop :=
  ∃ (frame : SignedFrame K R) (object : SemanticObject K S),
    s.arrival crate sponge wire = .ok (some (frame, object)) ∧
      s.root.read (object.path crate) = none

end Definitions

section Directories

variable {crate : GossipCrate K S R X}
variable {sponge : Sponge}
variable [DecidableEq K] [DecidableEq R]
variable {s s' : Session K X}
variable {frame : SignedFrame K R}
variable {object : SemanticObject K S}
variable {wire : List UInt8}

theorem SessionRoot.read_write_self
    {root : SessionRoot X}
    {path : SemanticPath}
    {bytes : List UInt8}
    (hnew : root.read path = none) :
    (root.write path bytes).read path = some bytes := by
  cases path with
  | proposal => rfl
  | commitment id => exact Table.get_insert_self_of_none hnew
  | manifest epoch id => exact Table.get_insert_self_of_none hnew
  | signature id index => exact Table.get_insert_self_of_none hnew

omit [DecidableEq K] [DecidableEq R] in
theorem Session.store_frames
    (payload : List UInt8) :
    (s.store crate object payload).root.frames = s.root.frames := by
  cases object <;> rfl

/-- Before the frame is written, the object is. -/
theorem cutRoot_frame
    (harrival : s.arrival crate sponge wire = .ok (some (frame, object)))
    (hnew : s.root.read (object.path crate) = none) :
    s.cutRoot crate sponge wire .frame = (s.store crate object frame.payload).root := by
  rw [Session.cutRoot, (cut_of_arrival harrival hnew rfl rfl).2, Session.remember_root]

/-- An object without its frame is neither the state before nor the state after. -/
theorem store_root_ne
    (harrival : s.arrival crate sponge wire = .ok (some (frame, object)))
    (hnew : s.root.read (object.path crate) = none) :
    (s.store crate object frame.payload).root ≠ s.root ∧
      (s.store crate object frame.payload).root ≠
        (final (ingest crate sponge writesDone wire) s).root := by
  obtain ⟨-, -, hframe, -⟩ := Session.arrival_eq_some_iff.mp harrival
  constructor
  · intro heq
    have hread : (s.store crate object frame.payload).root.read (object.path crate) =
        some frame.payload := SessionRoot.read_write_self hnew
    rw [heq, hnew] at hread
    cases hread
  · intro heq
    rw [(accepted_of_arrival harrival).2] at heq
    have hstored : (s.accept crate frame object wire).root.frames.get
        (frame.semanticFrameId crate) = some wire := by
      have hframes : (s.accept crate frame object wire).root.frames =
          s.root.frames.insert (frame.semanticFrameId crate) wire := by
        show ((s.store crate object frame.payload).remember crate object
          frame.sender).root.frames.insert _ _ = _
        rw [Session.remember_root, Session.store_frames]
      rw [hframes]
      exact Table.get_insert_self_of_none hframe
    rw [← heq, Session.store_frames, hframe] at hstored
    cases hstored

/-- A directory that is not cut between an object and its frame is one of two. -/
theorem cutRoot_of_not_newFile
    (h : ¬s.NewFile crate sponge wire)
    (write : IngestWrite) :
    s.cutRoot crate sponge wire write = s.root ∨
      s.cutRoot crate sponge wire write =
        (final (ingest crate sponge writesDone wire) s).root := by
  cases harrival : s.arrival crate sponge wire with
  | error e => exact Or.inl (congrArg _ (refused_of_arrival _ harrival).2)
  | ok brought =>
  rcases brought with _ | ⟨frame, object⟩
  · refine Or.inl ?_
    unfold Session.cutRoot final
    rw [ingest_apply, harrival]
  · rw [(accepted_of_arrival harrival).2]
    have hread : s.root.read (object.path crate) = some frame.payload := by
      obtain ⟨-, -, -, hadmission⟩ := Session.arrival_eq_some_iff.mp harrival
      rcases (Session.admission_eq_ok_iff.mp hadmission).2.2.2 with hnone | ⟨hsome, -⟩
      · exact absurd ⟨frame, object, harrival, hnone⟩ h
      · exact hsome
    rcases root_of_ingest (stopsBefore write) harrival with hroot | hroot | hroot
    · exact Or.inl hroot
    · rw [Session.store_of_read hread] at hroot
      exact Or.inl hroot
    · exact Or.inr hroot

/-- After a crash around an object that is not a new commitment, the session can be opened. -/
theorem Session.Valid.survives
    (h : s.Valid crate sponge)
    (hnew : ∀ (frame : SignedFrame K R) (c : ParticipantCommitment K),
      s.arrival crate sponge wire ≠ .ok (some (frame, (.commitment c : SemanticObject K S)))) :
    s.SurvivesCrash crate sponge wire := by
  intro write
  by_cases hfile : s.NewFile crate sponge wire
  · obtain ⟨frame, object, harrival, -⟩ := hfile
    have hobject : ∀ c, object ≠ .commitment c := by
      rintro c rfl
      exact hnew frame c harrival
    rcases root_of_ingest (stopsBefore write) harrival with hroot | hroot | hroot
    · obtain ⟨s', hopen, -⟩ := h.exists_open
      exact ⟨s', by rw [Session.cutRoot, hroot, hopen]⟩
    · obtain ⟨s', hopen, -⟩ := (h.store harrival hobject).exists_open
      exact ⟨s', by rw [Session.cutRoot, hroot, hopen]⟩
    · obtain ⟨s', hopen, -⟩ := (h.accept harrival).exists_open
      exact ⟨s', by rw [Session.cutRoot, hroot, hopen]⟩
  · rcases cutRoot_of_not_newFile hfile write with hroot | hroot
    · obtain ⟨s', hopen, -⟩ := h.exists_open
      exact ⟨s', by rw [hroot, hopen]⟩
    · obtain ⟨s', hopen, -⟩ := h.final_ingest.exists_open
      exact ⟨s', by rw [hroot, hopen]⟩

/-- A new commitment has a new file. -/
theorem Session.Valid.newFile_of_commitment
    {c : ParticipantCommitment K}
    (h : s.Valid crate sponge)
    (harrival : s.arrival crate sponge wire = .ok (some (frame, .commitment c))) :
    s.root.read ((SemanticObject.commitment c : SemanticObject K S).path crate) = none := by
  have hbrings := Session.brings_of_arrival harrival
  have hkind := hbrings.kind_eq_commitment_iff.mpr ⟨c, rfl⟩
  obtain ⟨-, -, hframe, hadmission⟩ := Session.arrival_eq_some_iff.mp harrival
  rcases (Session.admission_eq_ok_iff.mp hadmission).2.2.2 with hnone | ⟨hsome, -⟩
  · exact hnone
  · rcases h.files with huntouched | ⟨proposal, frames, manifests, shares, hstarted⟩
    · obtain ⟨p, hp, -⟩ := huntouched.brings hbrings
      cases hp
    · exact absurd hframe (hstarted.frame_of_commitment hkind hsome)

end Directories

section Atomicity

variable {crate : GossipCrate K S R X}
variable {sponge : Sponge}
variable [DecidableEq K] [DecidableEq S] [DecidableEq R]
variable {s : Session K X}

/--
When the process ends between two writes of a frame, opening the directory gives the state before
or after the frame exactly when the frame brings no object with a new file; the directory can be
opened at all exactly when the frame brings no new commitment.
-/
theorem crash_between_writes
    (h : (crashingSessions crate sponge).Reachable s)
    (wire : List UInt8) :
    (s.CrashAtomic crate sponge wire ↔ ¬s.NewFile crate sponge wire) ∧
      (s.SurvivesCrash crate sponge wire ↔
        ∀ (frame : SignedFrame K R) (c : ParticipantCommitment K),
          s.arrival crate sponge wire ≠
            .ok (some (frame, (.commitment c : SemanticObject K S)))) := by
  have hvalid := valid_of_reachable h
  refine ⟨⟨?_, ?_⟩, ?_, hvalid.survives⟩
  · rintro hatomic ⟨frame, object, harrival, hnew⟩
    obtain ⟨s', hopen, hroot⟩ := hatomic .frame
    rw [cutRoot_frame harrival hnew] at hopen
    obtain ⟨-, -, hsame, -⟩ := Session.openRoot_eq_ok_iff.mp hopen
    rw [hsame] at hroot
    obtain ⟨hbefore, hafter⟩ := store_root_ne harrival hnew
    exact hroot.elim hbefore hafter
  · intro hfile write
    rcases cutRoot_of_not_newFile hfile write with hroot | hroot
    · obtain ⟨s', hopen, hreopens⟩ := hvalid.exists_open
      exact ⟨s', by rw [hroot, hopen], Or.inl hreopens.root⟩
    · obtain ⟨s', hopen, hreopens⟩ := hvalid.final_ingest.exists_open
      exact ⟨s', by rw [hroot, hopen], Or.inr hreopens.root⟩
  · intro hsurvives frame c harrival
    obtain ⟨s', hopen⟩ := hsurvives .frame
    rw [cutRoot_frame harrival (hvalid.newFile_of_commitment harrival),
      hvalid.open_store_commitment harrival] at hopen
    cases hopen

end Atomicity

namespace SampleSession

/-- A crash around the proposal of a session. -/
theorem crash_at_proposal :
    (fresh.CrashAtomic crate foldSponge (proposalFrame.toWire crate) ↔
        ¬fresh.NewFile crate foldSponge (proposalFrame.toWire crate)) ∧
      (fresh.SurvivesCrash crate foldSponge (proposalFrame.toWire crate) ↔
        ∀ (frame : SignedFrame Manifest.Sample.Key (List UInt8))
          (c : ParticipantCommitment Manifest.Sample.Key),
          fresh.arrival crate foldSponge (proposalFrame.toWire crate) ≠
            .ok (some (frame, .commitment c))) :=
  crash_between_writes (.init ⟨_, _, _, init_fresh⟩) (proposalFrame.toWire crate)

/-- The process ends between the file and the frame of a commitment. -/
theorem commitment_cut_short :
    Session.openRoot crate
        (proposed.cutRoot crate foldSponge (secondFrame.toWire crate) .frame) =
        .error (protocolError "stored commitment lacks its authorized relay frame") ∧
      ¬proposed.CrashAtomic crate foldSponge (secondFrame.toWire crate) := by
  have hvalid : proposed.Valid crate foldSponge :=
    valid_of_reachable (crashing_of_undisturbed reachable_proposed)
  have hcut : Session.openRoot crate
      (proposed.cutRoot crate foldSponge (secondFrame.toWire crate) .frame) =
        .error (protocolError "stored commitment lacks its authorized relay frame") := by
    rw [cutRoot_frame arrival_second (hvalid.newFile_of_commitment arrival_second)]
    exact hvalid.open_store_commitment arrival_second
  refine ⟨hcut, fun hatomic => ?_⟩
  obtain ⟨s', hopen, -⟩ := hatomic .frame
  rw [hcut] at hopen
  cases hopen

end SampleSession

end OpenCsv
