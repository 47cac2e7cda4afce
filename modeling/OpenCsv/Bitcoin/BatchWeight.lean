import OpenCsv.Bitcoin.BatchShares

/-!
# The weight a batch is paid for

The fee of a batch is fixed before anybody signs, from the weight that the transaction has
when every signature takes 73 bytes.  What a signature is shorter is what the weight is
smaller.

**Results.** `Manifest.finalize_weight`: the bound and when it is met, the check of the
weight that never fails, and the feerate that the signed transaction pays.
-/

namespace OpenCsv

open SignatureShare

variable {K S : Type}

namespace Manifest

variable {crate : BitcoinCrate K S}
variable {sponge : Sponge}
variable {proposal : Proposal K}
variable {m : Manifest K}

section Errors

variable [DecidableEq K]

/-- The other errors of `finalize` are of other kinds, and the weight never is one. -/
theorem finalize_reasons
    (hvalid : m.validate crate sponge proposal = .ok ())
    {stock : S}
    {signatures : List S}
    (hlengths : ∀ signature ∈ stock :: signatures,
      (crate.serializeSignature signature).length ≤ 73) :
    FailsOnly (fun e => e.reason ≠ .protocolLayoutViolation)
      (m.finalize crate sponge proposal stock signatures) := by
  have hall : ∀ s : S, FailsOnly (fun e => e.reason ≠ .protocolLayoutViolation)
      (requireAll crate s) := by
    intro s
    refine (failsOnly_require (by decide)).bind (fun _ _ => ?_)
    exact failsOnly_require (by decide)
  have hstock : FailsOnly (fun e => e.reason ≠ .protocolLayoutViolation)
      (m.verifyStockSignature crate proposal stock) := by
    refine (hall stock).bind (fun _ _ => ?_)
    refine (failsOnly_mapError (fun _ => nofun)).bind (fun _ _ => ?_)
    exact failsOnly_mapError (fun _ => nofun)
  have hparticipant : ∀ (i : ℕ) (s : S), FailsOnly
      (fun e => e.reason ≠ .protocolLayoutViolation)
        (m.verifyParticipantSignature crate i s) := by
    intro i s
    refine (hall s).bind (fun _ _ => ?_)
    refine (failsOnly_okOr (by decide)).bind (fun _ _ => ?_)
    refine (failsOnly_mapError (fun _ => nofun)).bind (fun _ _ => ?_)
    exact failsOnly_mapError (fun _ => nofun)
  unfold finalize
  rw [hvalid]
  refine (failsOnly_ok ()).bind (fun _ _ => ?_)
  refine (failsOnly_require (by decide)).bind (fun _ hcount => ?_)
  refine hstock.bind (fun _ _ => ?_)
  refine (failsOnly_mapM (fun p _ => hparticipant p.2 p.1)).bind (fun _ _ => ?_)
  refine (failsOnly_okOr (by decide)).bind (fun envelope henvelope => ?_)
  rw [require_eq_ok_iff, decide_eq_true_eq] at hcount
  rw [okOr_eq_ok_iff] at henvelope
  -- The one error of this kind is behind a check that holds.
  have hweight : (m.signedTx crate proposal envelope stock signatures).weight ≤
      m.maxWeight.toNat := by
    have hslack := weight_add_slack hvalid henvelope stock hlengths hcount
    omega
  show FailsOnly _ (require _ _ >>= fun _ => _)
  rw [decide_eq_true hweight]
  exact failsOnly_ok _

/-- What `finalize` answers is the signed transaction. -/
theorem signed_of_finalize
    {stock : S}
    {signatures : List S}
    {tx : Transaction}
    (h : m.finalize crate sponge proposal stock signatures = .ok tx) :
    signatures.length = m.commitments.length ∧
      ∃ envelope, envelopeV2Encode (m.commitments.map (·.payload)) = some envelope ∧
        m.signedTx crate proposal envelope stock signatures = tx := by
  simp only [finalize, except_bind_eq_ok_iff, require_eq_ok_iff, decide_eq_true_eq,
    okOr_eq_ok_iff, pure, Except.pure, Except.ok.injEq] at h
  obtain ⟨-, -, -, hcount, -, -, -, -, envelope, henvelope, -, -, rfl⟩ := h
  exact ⟨hcount, envelope, henvelope, rfl⟩

end Errors

section Result

variable [DecidableEq K]

/--
The signatures of a valid manifest, of at most 73 bytes each, give a transaction of at most
the weight that its fee was fixed for, and of that weight when all take 73 bytes; `finalize`
never complains of the weight, and what it answers pays the feerate of the manifest.
-/
theorem finalize_weight
    (hvalid : m.validate crate sponge proposal = .ok ())
    (stock : S)
    (signatures : List S)
    (hlengths : ∀ signature ∈ stock :: signatures,
      (crate.serializeSignature signature).length ≤ 73) :
    m.maxWeight.toNat = 968 + 423 * m.commitments.length ∧
      (∀ envelope, envelopeV2Encode (m.commitments.map (·.payload)) = some envelope →
        signatures.length = m.commitments.length →
          (m.signedTx crate proposal envelope stock signatures).weight ≤ m.maxWeight.toNat ∧
          ((m.signedTx crate proposal envelope stock signatures).weight = m.maxWeight.toNat ↔
            ∀ signature ∈ stock :: signatures,
              (crate.serializeSignature signature).length = 73)) ∧
      m.finalize crate sponge proposal stock signatures ≠
        .error (.new .protocolLayoutViolation "signed transaction exceeds pessimistic weight") ∧
      ∀ tx, m.finalize crate sponge proposal stock signatures = .ok tx →
        tx.weight ≤ m.maxWeight.toNat ∧
        (tx.weight = m.maxWeight.toNat ↔ ∀ signature ∈ stock :: signatures,
          (crate.serializeSignature signature).length = 73) ∧
        m.feerateSatVb.toNat * ((tx.weight + 3) / 4) ≤ m.minerFee.toNat ∧
        proposal.stockValue.toNat +
            (m.commitments.map (fun c => c.feePrevout.value.toNat)).sum =
          (tx.outputs.map (fun output => output.value.toNat)).sum + m.minerFee.toNat := by
  obtain ⟨-, hbalanced⟩ := buildAt_balanced (validate_eq_ok_iff.mp hvalid)
  obtain ⟨hweight, hfee, -, -⟩ := hbalanced.exact
  have hbound : ∀ envelope, envelopeV2Encode (m.commitments.map (·.payload)) = some envelope →
      signatures.length = m.commitments.length →
        (m.signedTx crate proposal envelope stock signatures).weight ≤ m.maxWeight.toNat ∧
        ((m.signedTx crate proposal envelope stock signatures).weight = m.maxWeight.toNat ↔
          ∀ signature ∈ stock :: signatures,
            (crate.serializeSignature signature).length = 73) := by
    intro envelope henvelope hcount
    have hslack := weight_add_slack hvalid henvelope stock hlengths hcount
    rw [← slack_eq_zero_iff hlengths]
    omega
  refine ⟨?_, hbound, ?_, ?_⟩
  · rw [hweight, weightOf, Nat.add_comm]
  · exact fun herror => finalize_reasons hvalid hlengths _ herror rfl
  · intro tx htx
    obtain ⟨hcount, envelope, henvelope, rfl⟩ := signed_of_finalize htx
    obtain ⟨hle, hequal⟩ := hbound envelope henvelope hcount
    refine ⟨hle, hequal, ?_, hbalanced.conserved⟩
    rw [hfee, feeOf, ← hweight]
    exact Nat.mul_le_mul_left _ (Nat.div_le_div_right (Nat.add_le_add_right hle 3))

/-- Two participants: at most 1814 weight units, and no complaint. -/
theorem two_participants_weight :
    Sample.manifest.maxWeight.toNat = 968 + 423 * Sample.manifest.commitments.length ∧
      Sample.manifest.finalize Sample.crate foldSponge Sample.proposal Sample.stockSignature
          [Sample.firstSignature, Sample.secondSignature] ≠
        .error (.new .protocolLayoutViolation
          "signed transaction exceeds pessimistic weight") := by
  have hall := finalize_weight Sample.validate_manifest Sample.stockSignature
    [Sample.firstSignature, Sample.secondSignature]
    (fun s _ => Sample.crate_lawful.signature_length s)
  exact ⟨hall.1, hall.2.2.1⟩

end Result

end Manifest

end OpenCsv
