import OpenCsv.Bitcoin.BatchV2
import OpenCsv.Lib.System

/-!
# Fees of a batch

What a manifest holds that was built without an error, with its amounts read over the
natural numbers: the shared cost is split evenly, every participant can pay its part, and
nothing is created or lost.  A replacement is the same batch at a higher feerate; as it
adds at least one satoshi for every participant, every part grows.

**Results.**
* `Manifest.buildAt_balanced`: conservation, fair charging and the layout of a manifest.
* `Manifest.replacements_monotone`: what holds along a chain of replacements.
-/

namespace OpenCsv

variable {K S : Type}
variable {crate : BitcoinCrate K S}
variable {sponge : Sponge}

namespace Manifest

/-- The pessimistic weight of `n` participants. -/
def weightOf (n : ℕ) : ℕ :=
  423 * n + 968

/-- The miner fee of `n` participants at a feerate: the weight in vbytes, rounded up. -/
def feeOf (feerate n : ℕ) : ℕ :=
  feerate * ((weightOf n + 3) / 4)

section Amounts

/-- The checked weight is the weight over the natural numbers. -/
theorem maxSignedWeight_spec
    {n : ℕ}
    {weight : UInt64}
    (h : maxSignedWeight n = .ok weight) :
    (1 ≤ n ∧ n ≤ maxBatchV2Participants) ∧ weight.toNat = weightOf n := by
  simp only [maxSignedWeight, except_bind_eq_ok_iff, require_eq_ok_iff, decide_eq_true_eq,
    okOr_eq_ok_iff, Option.bind_eq_some_iff] at h
  obtain ⟨_, hcount, value, hmul, hadd⟩ := h
  refine ⟨hcount, ?_⟩
  have hsmall : n ≤ 64 := hcount.2
  rw [toNat_of_checkedAdd hadd, toNat_of_checkedMul hmul, UInt64.toNat_ofNat',
    Nat.mod_eq_of_lt (by omega)]
  rfl

theorem toNat_divCeil_four
    {w : UInt64}
    (h : w.toNat < 2 ^ 32) :
    (divCeil w 4).toNat = (w.toNat + 3) / 4 := by
  have hdiv : (w / 4).toNat = w.toNat / 4 := UInt64.toNat_div w 4
  have hmod : (w % 4).toNat = w.toNat % 4 := UInt64.toNat_mod w 4
  unfold divCeil
  by_cases hrest : 0 < w % 4
  · rw [if_pos hrest, UInt64.toNat_add, hdiv]
    rw [UInt64.lt_iff_toNat_lt, hmod] at hrest
    have hone : (1 : UInt64).toNat = 1 := rfl
    have hzero : (0 : UInt64).toNat = 0 := rfl
    omega
  · rw [if_neg hrest, hdiv]
    rw [UInt64.lt_iff_toNat_lt, hmod] at hrest
    have hzero : (0 : UInt64).toNat = 0 := rfl
    omega

/-- A participant's charge is its even part, within its cap, and leaves enough change. -/
theorem chargeAndChange_spec
    {total base remainder charge change : UInt64}
    {n i : ℕ}
    {c : ParticipantCommitment K}
    (hn : 0 < n)
    (hi : i < 2 ^ 64)
    (hbase : base.toNat = total.toNat / n)
    (hremainder : remainder.toNat = total.toNat % n)
    (h : chargeAndChange base remainder (c, i) = .ok (charge, change)) :
    charge.toNat = evenPart total.toNat n i ∧ charge ≤ c.maxCharge ∧
      change.toNat + charge.toNat = c.feePrevout.value.toNat ∧ minOutputSats ≤ change := by
  simp only [chargeAndChange, except_bind_eq_ok_iff, require_eq_ok_iff, decide_eq_true_eq,
    okOr_eq_ok_iff, pure, Except.pure, Except.ok.injEq, Prod.mk.injEq] at h
  obtain ⟨_, hcap, change', hsub, _, hdust, rfl, rfl⟩ := h
  refine ⟨?_, hcap, toNat_of_checkedSub hsub, hdust⟩
  have htotal : total.toNat < 2 ^ 64 := total.toNat_lt
  have hle : evenPart total.toNat n i ≤ total.toNat := evenPart_le_total hn
  have hindex : UInt64.ofNat i < remainder ↔ i < total.toNat % n := by
    rw [UInt64.lt_iff_toNat_lt, UInt64.toNat_ofNat', Nat.mod_eq_of_lt hi, hremainder]
  unfold evenPart at hle ⊢
  by_cases hextra : UInt64.ofNat i < remainder
  · rw [if_pos (hindex.mp hextra)] at hle ⊢
    rw [if_pos hextra, UInt64.toNat_add, hbase]
    have hone : (1 : UInt64).toNat = 1 := rfl
    omega
  · rw [if_neg (fun hlt => hextra (hindex.mpr hlt))] at hle ⊢
    rw [if_neg hextra, UInt64.toNat_add, hbase]
    have hzero : (0 : UInt64).toNat = 0 := rfl
    omega

end Amounts

section Assembly

/-- The values of the change outputs. -/
def changes (m : Manifest K) : List UInt64 :=
  (m.unsignedTx.outputs.drop 3).map TxOut.value

/-- What a participant pays and gets back. -/
structure Pays (total n i : ℕ) (c : ParticipantCommitment K) (charge change : UInt64) :
    Prop where
  even : charge.toNat = evenPart total n i
  capped : charge ≤ c.maxCharge
  returned : change.toNat + charge.toNat = c.feePrevout.value.toNat
  floor : minOutputSats ≤ change

/-- A manifest of its epoch and feerate, with its amounts read over the natural numbers. -/
structure Assembled
    (crate : BitcoinCrate K S)
    (sponge : Sponge)
    (proposal : Proposal K)
    (epoch feerate : UInt32)
    (markerScript : List UInt8)
    (m : Manifest K) : Prop where
  count : 1 ≤ m.commitments.length ∧ m.commitments.length ≤ maxBatchV2Participants
  distinct : ParticipantCommitment.rejectDuplicates crate m.commitments = .ok ()
  batchId_eq : m.batchId = proposal.batchId crate
  epoch_eq : m.replacementEpoch = epoch
  feerate_eq : m.feerateSatVb = feerate
  weight : m.maxWeight.toNat = weightOf m.commitments.length
  fee : m.minerFee.toNat = feeOf feerate.toNat m.commitments.length
  total : m.totalCharge.toNat = m.minerFee.toNat + markerDustSats.toNat
  charges_length : m.charges.length = m.commitments.length
  changes_length : m.changes.length = m.commitments.length
  pays : ∀ (i : ℕ) c, m.commitments[i]? = some c → ∃ charge change, m.charges[i]? = some charge ∧
    m.changes[i]? = some change ∧
      Pays m.totalCharge.toNat m.commitments.length i c charge change
  transaction : ∃ record,
    batchHeaderV2 sponge (m.commitments.map (·.payload)) (proposal.context crate) = some record ∧
      m.unsignedTx = transactionOf crate proposal m.commitments m.changes record markerScript

theorem transactionOf_changes
    {proposal : Proposal K}
    {commitments : List (ParticipantCommitment K)}
    {values : List UInt64}
    {record : AnchorRecord}
    {markerScript : List UInt8}
    (h : values.length = commitments.length) :
    ((transactionOf crate proposal commitments values record markerScript).outputs.drop 3).map
      TxOut.value = values := by
  show ((commitments.zip values).map
    (fun p : ParticipantCommitment K × UInt64 => (⟨p.2, p.1.changeSpk⟩ : TxOut))).map
      TxOut.value = values
  rw [List.map_map]
  exact List.map_snd_zip h.le

theorem buildSorted_spec
    {proposal : Proposal K}
    {commitments : List (ParticipantCommitment K)}
    {epoch feerate : UInt32}
    {markerScript : List UInt8}
    {m : Manifest K}
    (h : buildSorted crate sponge proposal commitments epoch feerate markerScript = .ok m) :
    m.commitments = commitments ∧
      m.Assembled crate sponge proposal epoch feerate markerScript := by
  simp only [buildSorted, except_bind_eq_ok_iff, okOr_eq_ok_iff, pure, Except.pure,
    Except.ok.injEq] at h
  obtain ⟨_, hdistinct, weight, hweight, weight', hnarrow, fee, hfee, total, htotal, amounts,
    hamounts, record, hrecord, _, -, rfl⟩ := h
  obtain ⟨hcount, hweight⟩ := maxSignedWeight_spec hweight
  have hsmall : commitments.length ≤ 64 := hcount.2
  have hlength : amounts.length = commitments.length := by
    rw [mapM_eq_ok_iff] at hamounts
    rw [← hamounts.length_eq, List.length_zipIdx]
  have hchanges : ((transactionOf crate proposal commitments (amounts.map Prod.snd) record
      markerScript).outputs.drop 3).map TxOut.value = amounts.map Prod.snd :=
    transactionOf_changes (by rw [List.length_map, hlength])
  split_ifs at hnarrow with hfits
  obtain rfl := Option.some.inj hnarrow
  have hn : (UInt64.ofNat commitments.length).toNat = commitments.length := by
    rw [UInt64.toNat_ofNat', Nat.mod_eq_of_lt (by omega)]
  have hbase : (total / UInt64.ofNat commitments.length).toNat =
      total.toNat / commitments.length := by
    rw [UInt64.toNat_div, hn]
  have hremainder : (total % UInt64.ofNat commitments.length).toNat =
      total.toNat % commitments.length := by
    rw [UInt64.toNat_mod, hn]
  refine ⟨rfl, hcount, hdistinct, rfl, rfl, rfl, ?_, ?_, toNat_of_checkedAdd htotal, ?_, ?_, ?_,
    record, hrecord, ?_⟩
  · rw [UInt64.toNat_toUInt32, hweight, Nat.mod_eq_of_lt (hweight ▸ hfits)]
  · rw [toNat_of_checkedMul hfee, toNat_divCeil_four hfits, hweight, UInt32.toNat_toUInt64]
    rfl
  · rw [List.length_map, hlength]
  · show (((transactionOf _ _ _ _ _ _).outputs.drop 3).map TxOut.value).length = _
    rw [hchanges, List.length_map, hlength]
  · intro i c hc
    have hplace : commitments.zipIdx[i]? = some (c, i) := by
      rw [List.getElem?_zipIdx, hc, Nat.zero_add]
      rfl
    obtain ⟨⟨charge, change⟩, hamount, hpays⟩ := getElem?_of_mapM_eq_ok hamounts hplace
    have hi : i < commitments.length := (List.getElem?_eq_some_iff.mp hc).1
    obtain ⟨heven, hcap, hreturned, hfloor⟩ :=
      chargeAndChange_spec hcount.1 (by omega) hbase hremainder hpays
    refine ⟨charge, change, ?_, ?_, heven, hcap, hreturned, hfloor⟩
    · rw [List.getElem?_map, hamount]
      rfl
    · show (((transactionOf _ _ _ _ _ _).outputs.drop 3).map TxOut.value)[i]? = some change
      rw [hchanges, List.getElem?_map, hamount]
      rfl
  · show transactionOf _ _ _ _ _ _ = transactionOf _ _ _
      (((transactionOf _ _ _ _ _ _).outputs.drop 3).map TxOut.value) _ _
    rw [hchanges]

/-- A successful build, taken apart. -/
theorem buildAt_eq_ok_iff
    {proposal : Proposal K}
    {commitments : List (ParticipantCommitment K)}
    {epoch feerate : UInt32}
    {m : Manifest K} :
    buildAt crate sponge proposal commitments epoch feerate = .ok m ↔
      ∃ markerScript, markerSpkForVersion proposal.version = .ok markerScript ∧
        proposal.validate = .ok () ∧ commitments.length = proposal.participantCount.toNat ∧
        (proposal.targetFeerateSatVb ≤ feerate ∧ feerate ≤ proposal.maxFeerateSatVb) ∧
        (∀ c ∈ commitments, c.validate crate proposal = .ok ()) ∧
        buildSorted crate sponge proposal (ParticipantCommitment.sort commitments) epoch feerate
          markerScript = .ok m := by
  have hall : (∃ units, commitments.mapM (fun c => c.validate crate proposal) = .ok units) ↔
      ∀ c ∈ commitments, c.validate crate proposal = .ok () := by
    constructor
    · rintro ⟨units, hunits⟩ c hc
      obtain ⟨⟨⟩, hunit⟩ := exists_ok_of_mem_of_mapM_eq_ok hunits hc
      exact hunit
    · intro hvalid
      exact exists_mapM_eq_ok (fun c hc => ⟨(), hvalid c hc⟩)
  simp only [buildAt, buildAtWithMarker, except_bind_eq_ok_iff, require_eq_ok_iff,
    decide_eq_true_eq, ← hall]
  constructor
  · rintro ⟨marker, hmarker, ⟨⟩, hproposal, ⟨⟩, hlength, ⟨⟩, hbounds, units, hunits, hsorted⟩
    exact ⟨marker, hmarker, hproposal, hlength, hbounds, ⟨units, hunits⟩, hsorted⟩
  · rintro ⟨marker, hmarker, hproposal, hlength, hbounds, ⟨units, hunits⟩, hsorted⟩
    exact ⟨marker, hmarker, (), hproposal, (), hlength, (), hbounds, units, hunits, hsorted⟩

/-- What was built holds the given commitments, each valid, at a feerate within the bounds. -/
theorem buildAt_spec
    {proposal : Proposal K}
    {commitments : List (ParticipantCommitment K)}
    {epoch feerate : UInt32}
    {m : Manifest K}
    (h : buildAt crate sponge proposal commitments epoch feerate = .ok m) :
    m.commitments.Perm commitments ∧ (∀ c ∈ m.commitments, c.validate crate proposal = .ok ()) ∧
      proposal.validate = .ok () ∧ m.commitments.length = proposal.participantCount.toNat ∧
      (proposal.targetFeerateSatVb ≤ feerate ∧ feerate ≤ proposal.maxFeerateSatVb) ∧
      ∃ markerScript, markerSpkForVersion proposal.version = .ok markerScript ∧
        m.Assembled crate sponge proposal epoch feerate markerScript := by
  obtain ⟨marker, hmarker, hproposal, hlength, hbounds, hvalid, hsorted⟩ :=
    buildAt_eq_ok_iff.mp h
  obtain ⟨hcommitments, hassembled⟩ := buildSorted_spec hsorted
  have hperm : m.commitments.Perm commitments := by
    rw [hcommitments]
    exact List.perm_insertionSort _ commitments
  refine ⟨hperm, ?_, hproposal, ?_, hbounds, marker, hmarker, hassembled⟩
  · intro c hc
    exact hvalid c (hperm.mem_iff.mp hc)
  · rw [hperm.length_eq, hlength]

end Assembly

section Balance

/-- Conservation, fair charging and the layout of a manifest. -/
structure Balanced
    (crate : BitcoinCrate K S)
    (sponge : Sponge)
    (proposal : Proposal K)
    (m : Manifest K) : Prop where
  /-- What goes in comes out or is the miner fee. -/
  conserved : proposal.stockValue.toNat +
      (m.commitments.map (fun c => c.feePrevout.value.toNat)).sum =
    (m.unsignedTx.outputs.map (fun output => output.value.toNat)).sum + m.minerFee.toNat
  stock : m.unsignedTx.outputs[2]? = some ⟨proposal.stockValue, proposal.stockScriptPubkey crate⟩
  charges_sum : (m.charges.map UInt64.toNat).sum = markerDustSats.toNat + m.minerFee.toNat
  charges_even : ∀ a ∈ m.charges, ∀ b ∈ m.charges, a.toNat ≤ b.toNat + 1
  /-- The record commits to the payloads in the order of the inputs. -/
  record : ∃ record,
    batchHeaderV2 sponge (m.commitments.map (·.payload)) (proposal.context crate) = some record ∧
      m.unsignedTx.outputs[0]? = some ⟨0, anchorScript record.toBytes⟩
  inputs : m.unsignedTx.inputs.map TxIn.prev =
    proposal.stockOutpoint :: m.commitments.map (·.feeOutpoint)
  outputs_length : m.unsignedTx.outputs.length = m.commitments.length + 3
  charges_length : m.charges.length = m.commitments.length
  /-- Each participant, at its own place, within its cap and with enough change. -/
  aligned : ∀ (i : ℕ) c, m.commitments[i]? = some c → ∃ charge change,
    m.charges[i]? = some charge ∧
      m.unsignedTx.outputs[i + 3]? = some ⟨change, c.changeSpk⟩ ∧
      change.toNat + charge.toNat = c.feePrevout.value.toNat ∧
      charge ≤ c.maxCharge ∧ minOutputSats ≤ change
  /-- Every amount is what it is over the natural numbers. -/
  exact : m.maxWeight.toNat = weightOf m.commitments.length ∧
    m.minerFee.toNat = feeOf m.feerateSatVb.toNat m.commitments.length ∧
    m.totalCharge.toNat = m.minerFee.toNat + markerDustSats.toNat ∧
    m.charges.map UInt64.toNat = evenSplit m.totalCharge.toNat m.commitments.length

variable {proposal : Proposal K}
variable {epoch feerate : UInt32}
variable {markerScript : List UInt8}
variable {m : Manifest K}

/-- The charges are the even split of the total. -/
theorem Assembled.charges_eq
    (h : m.Assembled crate sponge proposal epoch feerate markerScript) :
    m.charges.map UInt64.toNat = evenSplit m.totalCharge.toNat m.commitments.length := by
  refine List.ext_getElem ?_ ?_
  · rw [List.length_map, h.charges_length, evenSplit, List.length_map, List.length_range]
  · intro i hi hi'
    rw [List.length_map, h.charges_length] at hi
    obtain ⟨charge, change, hcharge, -, hpays⟩ :=
      h.pays i _ (List.getElem?_eq_getElem hi)
    have heq := (List.getElem?_eq_some_iff.mp hcharge).2
    simp only [List.getElem_map, evenSplit, List.getElem_range, heq, hpays.even]

/-- Every charge is one of the parts. -/
theorem Assembled.exists_evenPart
    (h : m.Assembled crate sponge proposal epoch feerate markerScript)
    {charge : UInt64}
    (hcharge : charge ∈ m.charges) :
    ∃ i, charge.toNat = evenPart m.totalCharge.toNat m.commitments.length i := by
  have hmem : charge.toNat ∈ evenSplit m.totalCharge.toNat m.commitments.length := by
    rw [← h.charges_eq]
    exact List.mem_map_of_mem hcharge
  obtain ⟨i, -, heq⟩ := List.mem_map.mp hmem
  exact ⟨i, heq.symm⟩

theorem Assembled.outputs_eq
    (h : m.Assembled crate sponge proposal epoch feerate markerScript) :
    ∃ record,
      batchHeaderV2 sponge (m.commitments.map (·.payload)) (proposal.context crate) =
          some record ∧
        m.unsignedTx.outputs =
          ⟨0, anchorScript record.toBytes⟩ :: ⟨markerDustSats, markerScript⟩ ::
            ⟨proposal.stockValue, proposal.stockScriptPubkey crate⟩ ::
              (m.commitments.zip m.changes).map (fun p => ⟨p.2, p.1.changeSpk⟩) := by
  obtain ⟨record, hrecord, htx⟩ := h.transaction
  exact ⟨record, hrecord, by rw [htx]; rfl⟩

theorem Assembled.balanced
    (h : m.Assembled crate sponge proposal epoch feerate markerScript) :
    m.Balanced crate sponge proposal := by
  obtain ⟨record, hrecord, houtputs⟩ := h.outputs_eq
  have hsum : (m.charges.map UInt64.toNat).sum = m.totalCharge.toNat := by
    rw [h.charges_eq, sum_evenSplit h.count.1]
  have hvalues : (m.changes.map UInt64.toNat).sum + (m.charges.map UInt64.toNat).sum =
      (m.commitments.map (fun c => c.feePrevout.value.toNat)).sum := by
    refine sum_add_sum_of_places ?_ ?_ ?_
    · rw [List.length_map, h.changes_length]
    · rw [List.length_map, h.charges_length]
    · intro i c hc
      obtain ⟨charge, change, hcharge, hchange, hpays⟩ := h.pays i c hc
      refine ⟨change.toNat, charge.toNat, ?_, ?_, hpays.returned⟩
      · rw [List.getElem?_map, hchange]
        rfl
      · rw [List.getElem?_map, hcharge]
        rfl
  have htotal := h.total
  have hchanges : ((m.commitments.zip m.changes).map
      (fun p => (⟨p.2, p.1.changeSpk⟩ : TxOut))).map (fun output => output.value.toNat) =
        m.changes.map UInt64.toNat := by
    have hsnd := List.map_snd_zip h.changes_length.le
    conv_rhs => rw [← hsnd]
    rw [List.map_map, List.map_map]
    rfl
  constructor
  · rw [houtputs]
    simp only [List.map_cons, List.sum_cons, hchanges]
    have hzero : (0 : UInt64).toNat = 0 := rfl
    omega
  · rw [houtputs]
    rfl
  · rw [hsum]
    omega
  · intro a ha b hb
    obtain ⟨i, hpart⟩ := h.exists_evenPart ha
    obtain ⟨j, hpart'⟩ := h.exists_evenPart hb
    rw [hpart, hpart']
    exact evenPart_le_succ _ _ i j
  · exact ⟨record, hrecord, by rw [houtputs]; rfl⟩
  · obtain ⟨_, -, htx⟩ := h.transaction
    rw [htx]
    simp only [transactionOf, List.map_cons, List.map_map]
    rfl
  · rw [houtputs]
    simp only [List.length_cons, List.length_map, List.length_zip, h.changes_length, min_self]
  · exact h.charges_length
  · intro i c hc
    obtain ⟨charge, change, hcharge, hchange, hpays⟩ := h.pays i c hc
    refine ⟨charge, change, hcharge, ?_, hpays.returned, hpays.capped, hpays.floor⟩
    rw [houtputs]
    show ((m.commitments.zip m.changes).map (fun p => (⟨p.2, p.1.changeSpk⟩ : TxOut)))[i]? = _
    have hplace : (m.commitments.zip m.changes)[i]? = some (c, change) :=
      List.getElem?_zip_eq_some.mpr ⟨hc, hchange⟩
    rw [List.getElem?_map, hplace]
    rfl
  · exact ⟨h.weight, by rw [h.fee, h.feerate_eq], h.total, h.charges_eq⟩

/-- A manifest that was built conserves value and charges its participants fairly. -/
theorem buildAt_balanced
    {commitments : List (ParticipantCommitment K)}
    (h : buildAt crate sponge proposal commitments epoch feerate = .ok m) :
    m.commitments.Perm commitments ∧ m.Balanced crate sponge proposal := by
  obtain ⟨hperm, -, -, -, -, _, -, hassembled⟩ := buildAt_spec h
  exact ⟨hperm, hassembled.balanced⟩

/-- The two participants of the sample. -/
theorem two_participants_balanced :
    Sample.manifest.commitments.Perm [Sample.first, Sample.second] ∧
      Sample.manifest.Balanced Sample.crate foldSponge Sample.proposal := by
  have hbuild : buildAt Sample.crate foldSponge Sample.proposal [Sample.first, Sample.second] 0
      Sample.proposal.targetFeerateSatVb = .ok Sample.manifest := Sample.build_manifest
  exact buildAt_balanced hbuild

end Balance

section Replacement

variable {proposal : Proposal K}
variable {m m' : Manifest K}

/-- The participants of a manifest that was built are the given ones, in order. -/
theorem commitments_of_buildAt
    {commitments : List (ParticipantCommitment K)}
    {epoch feerate : UInt32}
    (h : buildAt crate sponge proposal commitments epoch feerate = .ok m) :
    m.commitments = ParticipantCommitment.sort commitments := by
  obtain ⟨_, -, -, -, -, -, hsorted⟩ := buildAt_eq_ok_iff.mp h
  exact (buildSorted_spec hsorted).1

/-- The replacement steps of a batch, labelled with the new feerates. -/
def replacements
    (crate : BitcoinCrate K S)
    (sponge : Sponge)
    (proposal : Proposal K)
    (m : Manifest K) : System (Manifest K) UInt32 where
  init := fun s => s = m
  step := fun s feerate s' => s.replacement crate sponge proposal feerate = .ok s'

/-- The inputs, the first three outputs and the change scripts are the same. -/
structure SameBatch (m m' : Manifest K) : Prop where
  inputs : m'.unsignedTx.inputs = m.unsignedTx.inputs
  fixed : m'.unsignedTx.outputs.take 3 = m.unsignedTx.outputs.take 3
  scripts : (m'.unsignedTx.outputs.drop 3).map TxOut.scriptPubkey =
    (m.unsignedTx.outputs.drop 3).map TxOut.scriptPubkey

/-- The caps of the participants, the largest feerate and the floor of change outputs. -/
structure WithinLimits (proposal : Proposal K) (m : Manifest K) : Prop where
  caps : ∀ (i : ℕ) c, m.commitments[i]? = some c →
    ∃ charge, m.charges[i]? = some charge ∧ charge ≤ c.maxCharge
  feerate : m.feerateSatVb ≤ proposal.maxFeerateSatVb
  floor : ∀ change ∈ m.changes, minOutputSats ≤ change

/-- One epoch later: a larger miner fee, and less change for everybody. -/
structure NextEpoch (m m' : Manifest K) : Prop where
  epoch : m'.replacementEpoch.toNat = m.replacementEpoch.toNat + 1
  fee : m.minerFee < m'.minerFee
  changes_length : m'.changes.length = m.changes.length
  changes : ∀ (i : ℕ) change change', m.changes[i]? = some change →
    m'.changes[i]? = some change' → change' < change

/-- What a successful replacement is. -/
theorem replacement_eq_ok_iff
    {feerate : UInt32} :
    m.replacement crate sponge proposal feerate = .ok m' ↔
      m.feerateSatVb < feerate ∧ proposal.version = batchVersion ∧
        m.replacementEpoch.toNat + 1 < 2 ^ 32 ∧
        buildAt crate sponge proposal m.commitments (m.replacementEpoch + 1) feerate = .ok m' ∧
        m.SameBatch m' ∧ m.unsignedTx.witnesses = m'.unsignedTx.witnesses := by
  simp only [replacement, except_bind_eq_ok_iff, require_eq_ok_iff, decide_eq_true_eq,
    okOr_eq_ok_iff, pure, Except.pure, Except.ok.injEq]
  constructor
  · rintro ⟨_, hrate, _, hversion, epoch, hepoch, replacement, hbuild, _,
      ⟨hinputs, hwitnesses, hfixed, hscripts⟩, rfl⟩
    split_ifs at hepoch with hroom
    obtain rfl := Option.some.inj hepoch
    exact ⟨hrate, hversion, hroom, hbuild, ⟨hinputs.symm, hfixed.symm, hscripts.symm⟩, hwitnesses⟩
  · rintro ⟨hrate, hversion, hroom, hbuild, ⟨hinputs, hfixed, hscripts⟩, hwitnesses⟩
    exact ⟨(), hrate, (), hversion, m.replacementEpoch + 1, by rw [if_pos hroom], m', hbuild, (),
      ⟨hinputs.symm, hwitnesses, hfixed.symm, hscripts.symm⟩, rfl⟩

/-- A higher feerate raises the fee by at least one satoshi for every participant. -/
theorem feeOf_add_le
    {feerate feerate' n : ℕ}
    (h : feerate < feerate') :
    feeOf feerate n + n ≤ feeOf feerate' n := by
  have hvbytes : n ≤ (weightOf n + 3) / 4 := by
    unfold weightOf
    omega
  have hstep : (feerate + 1) * ((weightOf n + 3) / 4) ≤ feerate' * ((weightOf n + 3) / 4) :=
    Nat.mul_le_mul_right _ h
  rw [Nat.add_mul, Nat.one_mul] at hstep
  unfold feeOf
  omega

variable [DecidableEq K]

/-- A valid manifest is its own reconstruction. -/
theorem validate_eq_ok_iff :
    m.validate crate sponge proposal = .ok () ↔
      buildAt crate sponge proposal m.commitments m.replacementEpoch m.feerateSatVb = .ok m := by
  simp only [validate, except_bind_eq_ok_iff, require_eq_ok_iff, decide_eq_true_eq]
  constructor
  · rintro ⟨expected, hbuild, heq⟩
    rwa [← heq] at hbuild
  · intro hbuild
    exact ⟨m, hbuild, rfl⟩

/-- A valid manifest is within its limits. -/
theorem withinLimits_of_validate
    (h : m.validate crate sponge proposal = .ok ()) :
    m.WithinLimits proposal := by
  obtain ⟨-, -, -, -, hbounds, _, -, hassembled⟩ := buildAt_spec (validate_eq_ok_iff.mp h)
  refine ⟨?_, hbounds.2, ?_⟩
  · intro i c hc
    obtain ⟨charge, _, hcharge, -, hpays⟩ := hassembled.pays i c hc
    exact ⟨charge, hcharge, hpays.capped⟩
  · intro change hchange
    obtain ⟨i, hi⟩ := List.mem_iff_getElem?.mp hchange
    have hlt : i < m.commitments.length := by
      rw [← hassembled.changes_length]
      exact (List.getElem?_eq_some_iff.mp hi).1
    obtain ⟨_, change', -, hchange', hpays⟩ :=
      hassembled.pays i _ (List.getElem?_eq_getElem hlt)
    rw [hi] at hchange'
    obtain rfl := Option.some.inj hchange'
    exact hpays.floor

/-- One replacement: still valid, the same batch, one epoch later. -/
theorem replacement_step
    {feerate : UInt32}
    (hvalid : m.validate crate sponge proposal = .ok ())
    (h : m.replacement crate sponge proposal feerate = .ok m') :
    m'.validate crate sponge proposal = .ok () ∧ m.SameBatch m' ∧ m.NextEpoch m' := by
  obtain ⟨hrate, -, hroom, hbuild, hsame, -⟩ := replacement_eq_ok_iff.mp h
  have hbefore := validate_eq_ok_iff.mp hvalid
  obtain ⟨-, -, -, -, -, _, -, hold⟩ := buildAt_spec hbefore
  obtain ⟨-, -, -, -, -, _, -, hnew⟩ := buildAt_spec hbuild
  have hcommitments : m'.commitments = m.commitments := by
    rw [commitments_of_buildAt hbuild, ← commitments_of_buildAt hbefore]
  have hvalid' : m'.validate crate sponge proposal = .ok () := by
    rw [validate_eq_ok_iff, hcommitments, hnew.epoch_eq, hnew.feerate_eq]
    exact hbuild
  have hfee : m.minerFee.toNat + m.commitments.length ≤ m'.minerFee.toNat := by
    rw [hold.fee, hnew.fee, hcommitments]
    exact feeOf_add_le (UInt32.lt_iff_toNat_lt.mp hrate)
  have hcount := hold.count.1
  refine ⟨hvalid', hsame, ?_, ?_, ?_, ?_⟩
  · rw [hnew.epoch_eq, UInt32.toNat_add]
    exact Nat.mod_eq_of_lt hroom
  · rw [UInt64.lt_iff_toNat_lt]
    omega
  · rw [hnew.changes_length, hold.changes_length, hcommitments]
  · intro i change change' hchange hchange'
    have hlt : i < m.commitments.length := by
      rw [← hold.changes_length]
      exact (List.getElem?_eq_some_iff.mp hchange).1
    obtain ⟨charge, x, -, hx, hpays⟩ := hold.pays i _ (List.getElem?_eq_getElem hlt)
    obtain ⟨charge', y, -, hy, hpays'⟩ := hnew.pays i _ (by
      rw [hcommitments]
      exact List.getElem?_eq_getElem hlt)
    obtain rfl := Option.some.inj (hchange.symm.trans hx)
    obtain rfl := Option.some.inj (hchange'.symm.trans hy)
    have htotal := hold.total
    have htotal' := hnew.total
    -- the shared cost grows by a satoshi for every participant, so its even part does
    have hpart : charge.toNat < charge'.toNat := by
      rw [hpays.even, hpays'.even, hcommitments]
      exact evenPart_lt_evenPart hcount (by omega)
    have hreturned := hpays.returned
    have hreturned' := hpays'.returned
    rw [UInt64.lt_iff_toNat_lt]
    omega

/--
Along a chain of replacements the batch stays the same and within its limits, and every
step goes to a later epoch with a larger fee and less change for everybody.
-/
theorem replacements_monotone
    (hvalid : m.validate crate sponge proposal = .ok ())
    (hreach : (replacements crate sponge proposal m).Reachable m') :
    m.SameBatch m' ∧ m'.WithinLimits proposal ∧
      ∀ feerate m'', m'.replacement crate sponge proposal feerate = .ok m'' →
        m.SameBatch m'' ∧ m''.WithinLimits proposal ∧ m'.NextEpoch m'' := by
  have hinv : m'.validate crate sponge proposal = .ok () ∧ m.SameBatch m' := by
    refine @System.Reachable.invariant _ _ _
      (fun s => s.validate crate sponge proposal = .ok () ∧ m.SameBatch s) ?_ ?_ m' hreach
    · rintro s rfl
      exact ⟨hvalid, rfl, rfl, rfl⟩
    · rintro s feerate s' ⟨hs, hsame⟩ hstep
      obtain ⟨hs', hsame', -⟩ := replacement_step hs hstep
      exact ⟨hs', hsame'.inputs.trans hsame.inputs, hsame'.fixed.trans hsame.fixed,
        hsame'.scripts.trans hsame.scripts⟩
  obtain ⟨hvalid', hsame⟩ := hinv
  refine ⟨hsame, withinLimits_of_validate hvalid', ?_⟩
  intro feerate m'' hstep
  obtain ⟨hvalid'', hsame', hnext⟩ := replacement_step hvalid' hstep
  exact ⟨⟨hsame'.inputs.trans hsame.inputs, hsame'.fixed.trans hsame.fixed,
    hsame'.scripts.trans hsame.scripts⟩, withinLimits_of_validate hvalid'', hnext⟩

theorem Sample.validate_manifest :
    Sample.manifest.validate Sample.crate foldSponge Sample.proposal = .ok () :=
  validate_eq_ok_iff.mpr Sample.build_manifest

/-- One replacement of the sample, at feerate six. -/
theorem sample_replaced :
    ∃ m', Sample.manifest.replacement Sample.crate foldSponge Sample.proposal 6 = .ok m' ∧
      Sample.manifest.SameBatch m' ∧ m'.WithinLimits Sample.proposal := by
  have hsome : (Sample.manifest.replacement Sample.crate foldSponge Sample.proposal 6).isOk =
      true := by
    decide +kernel
  rcases hreplaced : Sample.manifest.replacement Sample.crate foldSponge Sample.proposal 6
    with e | m'
  · rw [hreplaced] at hsome
    cases hsome
  · have hstep : (replacements Sample.crate foldSponge Sample.proposal Sample.manifest).step
        Sample.manifest 6 m' := hreplaced
    have hmono := replacements_monotone Sample.validate_manifest (.step (.init rfl) hstep)
    exact ⟨m', rfl, hmono.1, hmono.2.1⟩

end Replacement

end Manifest

end OpenCsv
