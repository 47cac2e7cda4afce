import OpenCsv.Bitcoin.BatchFees
import OpenCsv.Cbf.Wire

/-!
# The order of the participants

Participants are sorted by the encodings of their fee outpoints, and no two of them share
one.  So a manifest is a function of the set of its commitments (`buildAt_of_perm`).
-/

namespace OpenCsv

variable {K S : Type}

section Order

variable {crate : BitcoinCrate K S}
variable {sponge : Sponge}

theorem OutPoint.serialize_injective :
    Function.Injective OutPoint.serialize := by
  rintro ⟨txid, vout⟩ ⟨txid', vout'⟩ h
  obtain ⟨htxid, hvout⟩ := List.append_inj h (by simp)
  have hvout' : vout = vout' := delimits_u32.eq_of_enc_eq trivial trivial hvout
  have htxid' : txid = txid' := Bytes.ext_toList htxid
  rw [htxid', hvout']

namespace ParticipantCommitment

theorem sort_perm
    (commitments : List (ParticipantCommitment K)) :
    (sort commitments).Perm commitments :=
  List.perm_insertionSort _ commitments

theorem pairwise_sort
    (commitments : List (ParticipantCommitment K)) :
    (sort commitments).Pairwise (fun a b => a.le b = true) := by
  have htotal : Std.Total (fun a b : ParticipantCommitment K => a.le b = true) :=
    ⟨fun a b => bytesLe_total a.feeOutpoint.serialize b.feeOutpoint.serialize⟩
  have htrans : IsTrans (ParticipantCommitment K) (fun a b => a.le b = true) :=
    ⟨fun _ _ _ h h' => bytesLe_trans h h'⟩
  exact List.pairwise_insertionSort _ commitments

/-- Different orders of participants with different inputs are sorted alike. -/
theorem sort_eq_of_perm
    {commitments commitments' : List (ParticipantCommitment K)}
    (hperm : commitments.Perm commitments')
    (hnodup : (commitments.map feeOutpoint).Nodup) :
    sort commitments = sort commitments' := by
  have hsorts : (sort commitments).Perm (sort commitments') :=
    (sort_perm commitments).trans (hperm.trans (sort_perm commitments').symm)
  refine List.Perm.eq_of_pairwise ?_ (pairwise_sort commitments) (pairwise_sort commitments')
    hsorts
  intro a b ha hb hab hba
  have houtpoint : a.feeOutpoint = b.feeOutpoint :=
    OutPoint.serialize_injective (bytesLe_antisymm hab hba)
  have ha' : a ∈ commitments := (sort_perm commitments).mem_iff.mp ha
  have hb' : b ∈ commitments := hperm.mem_iff.mpr ((sort_perm commitments').mem_iff.mp hb)
  exact List.inj_on_of_nodup_map hnodup ha' hb' houtpoint

theorem nodup_of_rejectDuplicates
    {commitments : List (ParticipantCommitment K)}
    (h : rejectDuplicates crate commitments = .ok ()) :
    (commitments.map (commitmentId crate)).Nodup ∧ (commitments.map feeOutpoint).Nodup := by
  simp only [rejectDuplicates, require_eq_ok_iff, decide_eq_true_eq] at h
  exact ⟨h.1, h.2.2.1⟩

end ParticipantCommitment

namespace Manifest

variable {proposal : Proposal K}
variable {commitments commitments' : List (ParticipantCommitment K)}
variable {epoch feerate : UInt32}
variable {m : Manifest K}

/-- The inputs of a manifest that was built are different. -/
theorem nodup_of_buildAt
    (h : buildAt crate sponge proposal commitments epoch feerate = .ok m) :
    (m.commitments.map (ParticipantCommitment.commitmentId crate)).Nodup ∧
      (m.commitments.map ParticipantCommitment.feeOutpoint).Nodup := by
  obtain ⟨-, -, -, -, -, _, -, hassembled⟩ := buildAt_spec h
  exact ParticipantCommitment.nodup_of_rejectDuplicates hassembled.distinct

/-- A build does not depend on the order of the commitments. -/
theorem buildAt_of_perm
    (hperm : commitments.Perm commitments')
    (h : buildAt crate sponge proposal commitments epoch feerate = .ok m) :
    buildAt crate sponge proposal commitments' epoch feerate = .ok m := by
  have hnodup : (commitments.map ParticipantCommitment.feeOutpoint).Nodup :=
    ((buildAt_spec h).1.map _).nodup_iff.mp (nodup_of_buildAt h).2
  obtain ⟨marker, hmarker, hproposal, hlength, hbounds, hvalid, hsorted⟩ :=
    buildAt_eq_ok_iff.mp h
  refine buildAt_eq_ok_iff.mpr ⟨marker, hmarker, hproposal, ?_, hbounds, ?_, ?_⟩
  · rw [← hperm.length_eq, hlength]
  · intro c hc
    exact hvalid c (hperm.mem_iff.mpr hc)
  · rw [← ParticipantCommitment.sort_eq_of_perm hperm hnodup]
    exact hsorted

/-- A build of valid commitments ends alike, in success or in failure, in whatever order. -/
theorem buildAt_congr_of_perm
    (hperm : commitments.Perm commitments')
    (hnodup : (commitments.map ParticipantCommitment.feeOutpoint).Nodup)
    (hvalid : ∀ c ∈ commitments, c.validate crate proposal = .ok ()) :
    buildAt crate sponge proposal commitments epoch feerate =
      buildAt crate sponge proposal commitments' epoch feerate := by
  have hunits : ∀ cs : List (ParticipantCommitment K),
      (∀ c ∈ cs, c.validate crate proposal = .ok ()) →
      cs.mapM (fun c => c.validate crate proposal) =
        .ok (List.replicate cs.length ()) := by
    intro cs hcs
    induction cs with
    | nil => rfl
    | cons c cs ih =>
        rw [List.mapM_cons, hcs c List.mem_cons_self,
          ih (fun c' hc' => hcs c' (List.mem_cons_of_mem c hc'))]
        rfl
  have hvalid' : ∀ c ∈ commitments', c.validate crate proposal = .ok () :=
    fun c hc => hvalid c (hperm.mem_iff.mpr hc)
  simp only [buildAt, buildAtWithMarker, hunits commitments hvalid, hunits commitments' hvalid',
    hperm.length_eq, ParticipantCommitment.sort_eq_of_perm hperm hnodup]

end Manifest

end Order

end OpenCsv
