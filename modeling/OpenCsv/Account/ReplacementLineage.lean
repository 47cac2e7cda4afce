import OpenCsv.Account.SoloReplacement

/-!
# The lineage of a solo anchor

A replacement may be replaced again.  Each step is checked against the version before it only,
so what holds between the first version and the last one has to be carried along the lineage.

**Result.** `lineage_is_replacement`: the last version would have been accepted as a replacement
of the first one, with a receipt that adds up those of the steps, and there are at most as many
steps as change can lose satoshis.
-/

namespace OpenCsv
namespace SoloReplacement

variable {minimalNonDust : List UInt8 → UInt64}
variable {original replacement next : Transaction}
variable {receipt receipt' : Receipt}

/-- What the check of a replacement asks of two versions and their receipt. -/
structure Accepts
    (minimalNonDust : List UInt8 → UInt64)
    (original replacement : Transaction)
    (receipt : Receipt)
    (record marker change change' : TxOut) : Prop where
  layout : validateLayout original = true
  layout' : validateLayout replacement = true
  version : original.version = replacement.version
  lockTime : original.lockTime = replacement.lockTime
  kept : original.inputs <+: replacement.inputs
  nodup : (replacement.inputs.map TxIn.prev).Nodup
  replaceable : ∀ input ∈ replacement.inputs, input.sequence = enableRbfNoLocktime
  outputs : original.outputs = [record, marker, change]
  outputs' : replacement.outputs = [record, marker, change']
  script : change.scriptPubkey = change'.scriptPubkey
  dust : minimalNonDust change'.scriptPubkey ≤ change'.value
  increment : receipt.feeIncrementSats.toNat + change'.value.toNat = change.value.toNat
  positive : 0 < receipt.feeIncrementSats.toNat
  left : receipt.replacementChangeSats = change'.value

/-- Inputs that are a prefix agree pairwise with it. -/
theorem zip_of_prefix
    {inputs inputs' : List TxIn}
    (h : inputs <+: inputs') :
    (inputs.zip inputs').all (fun (old, new) =>
      old.prev == new.prev && old.sequence == new.sequence &&
        old.scriptSig == new.scriptSig) = true := by
  induction inputs generalizing inputs' with
  | nil =>
      simp
  | cons input inputs ih =>
      obtain ⟨rest, rfl⟩ := h
      simpa using ih (List.prefix_append inputs rest)

/-- The check, as what it asks. -/
theorem validate_eq_ok_iff :
    validateSoloAnchorReplacement minimalNonDust original replacement = .ok receipt ↔
      ∃ record marker change change',
        Accepts minimalNonDust original replacement receipt record marker change change' := by
  constructor
  · intro h
    unfold validateSoloAnchorReplacement at h
    simp only [except_bind_eq_ok_iff, require_eq_ok_iff, exists_and_left, exists_const] at h
    obtain ⟨hlayout, hlayout', hinputs, hnodup, hreplaceable, h⟩ := h
    obtain ⟨-, record, marker, change, houtputs⟩ := layout_of_validateLayout hlayout
    obtain ⟨-, record', marker', change', houtputs'⟩ := layout_of_validateLayout hlayout'
    simp only [houtputs, houtputs', except_bind_eq_ok_iff, require_eq_ok_iff, exists_and_left,
      exists_const, beq_iff_eq, okOr_eq_ok_iff, Option.filter_eq_some_iff,
      decide_eq_true_eq] at h
    obtain ⟨rfl, rfl, hscript, hdust, increment, ⟨hsub, hpos⟩, hreceipt⟩ := h
    obtain rfl := Except.ok.inj hreceipt
    simp only [Bool.and_eq_true, decide_eq_true_eq, beq_iff_eq] at hinputs
    simp only [List.all_append, Bool.and_eq_true, List.all_eq_true, beq_iff_eq] at hreplaceable
    exact ⟨record, marker, change, change',
      { layout := hlayout
        layout' := hlayout'
        version := hinputs.1.1.1
        lockTime := hinputs.1.1.2
        kept := prefix_of_zip hinputs.1.2 hinputs.2
        nodup := by simpa using hnodup
        replaceable := hreplaceable.2
        outputs := houtputs
        outputs' := houtputs'
        script := hscript
        dust := hdust
        increment := toNat_of_checkedSub hsub
        positive := UInt64.lt_iff_toNat_lt.mp hpos
        left := rfl }⟩
  · rintro ⟨record, marker, change, change', h⟩
    have hsub : checkedSub change.value change'.value = some receipt.feeIncrementSats := by
      have hincrement := h.increment
      rw [checkedSub, if_pos (by omega)]
      refine congrArg some (UInt64.toNat_inj.mp ?_)
      rw [UInt64.toNat_sub_of_le _ _ (UInt64.le_iff_toNat_le.mpr (by omega))]
      omega
    have hpos : 0 < receipt.feeIncrementSats := UInt64.lt_iff_toNat_lt.mpr h.positive
    have hold : ∀ input ∈ original.inputs, input.sequence = enableRbfNoLocktime :=
      fun input hinput => h.replaceable input (h.kept.subset hinput)
    obtain ⟨increment, left⟩ := receipt
    obtain rfl := h.left
    unfold validateSoloAnchorReplacement
    simp only [except_bind_eq_ok_iff, require_eq_ok_iff, exists_and_left, exists_const]
    refine ⟨h.layout, h.layout', ?_, by simpa using h.nodup, ?_, ?_⟩
    · simp only [Bool.and_eq_true, decide_eq_true_eq, beq_iff_eq]
      exact ⟨⟨⟨h.version, h.lockTime⟩, h.kept.length_le⟩, zip_of_prefix h.kept⟩
    · simp only [List.all_append, Bool.and_eq_true, List.all_eq_true, beq_iff_eq]
      exact ⟨hold, h.replaceable⟩
    · simp only [h.outputs, h.outputs', except_bind_eq_ok_iff, require_eq_ok_iff, exists_and_left,
        exists_const, beq_iff_eq, okOr_eq_ok_iff, Option.filter_eq_some_iff, decide_eq_true_eq]
      exact ⟨trivial, trivial, h.script, h.dust, increment, ⟨hsub, hpos⟩, rfl⟩

/-- Two steps are one: the receipts add up. -/
theorem Accepts.trans
    {record marker change change' record' marker' change₂ change₃ : TxOut}
    (h : Accepts minimalNonDust original replacement receipt record marker change change')
    (h' : Accepts minimalNonDust replacement next receipt' record' marker' change₂ change₃) :
    ∃ receipt₂ : Receipt,
      receipt₂.feeIncrementSats.toNat =
        receipt.feeIncrementSats.toNat + receipt'.feeIncrementSats.toNat ∧
      Accepts minimalNonDust original next receipt₂ record marker change change₃ := by
  -- The versions agree on the outputs in the middle.
  obtain ⟨rfl, rfl, rfl⟩ : record = record' ∧ marker = marker' ∧ change' = change₂ := by
    have houtputs := h.outputs'.symm.trans h'.outputs
    simpa using houtputs
  have hfirst := h.increment
  have hsecond := h'.increment
  have hbound := change.value.toNat_lt
  have hsum : (receipt.feeIncrementSats + receipt'.feeIncrementSats).toNat =
      receipt.feeIncrementSats.toNat + receipt'.feeIncrementSats.toNat := by
    rw [UInt64.toNat_add, Nat.mod_eq_of_lt (by omega)]
  have hpos := h.positive
  refine ⟨⟨receipt.feeIncrementSats + receipt'.feeIncrementSats, change₃.value⟩, hsum,
    { layout := h.layout
      layout' := h'.layout'
      version := h.version.trans h'.version
      lockTime := h.lockTime.trans h'.lockTime
      kept := h.kept.trans h'.kept
      nodup := h'.nodup
      replaceable := h'.replaceable
      outputs := h.outputs
      outputs' := h'.outputs'
      script := h.script.trans h'.script
      dust := h'.dust
      increment := ?_
      positive := ?_
      left := rfl }⟩
  · show (receipt.feeIncrementSats + receipt'.feeIncrementSats).toNat + _ = _
    omega
  · show 0 < (receipt.feeIncrementSats + receipt'.feeIncrementSats).toNat
    omega

/-- The versions of an anchor: each one was accepted as a replacement of the one before it. -/
inductive Lineage (minimalNonDust : List UInt8 → UInt64) :
    Transaction → List Receipt → Transaction → Prop where
  | first {original replacement : Transaction} {receipt : Receipt}
      (accepted : validateSoloAnchorReplacement minimalNonDust original replacement =
        .ok receipt) :
      Lineage minimalNonDust original [receipt] replacement
  | replace {original replacement next : Transaction} {receipts : List Receipt}
      {receipt : Receipt}
      (earlier : Lineage minimalNonDust original receipts replacement)
      (accepted : validateSoloAnchorReplacement minimalNonDust replacement next =
        .ok receipt) :
      Lineage minimalNonDust original (receipts ++ [receipt]) next

/-- What the receipts of a lineage add up to. -/
def totalIncrement (receipts : List Receipt) : ℕ :=
  (receipts.map (fun receipt => receipt.feeIncrementSats.toNat)).sum

/-- Every step costs at least one satoshi of change. -/
theorem Lineage.length_le
    {receipts : List Receipt}
    (h : Lineage minimalNonDust original receipts replacement) :
    receipts.length ≤ totalIncrement receipts := by
  induction h with
  | first accepted =>
      obtain ⟨_, _, _, _, h⟩ := validate_eq_ok_iff.mp accepted
      have hpos := h.positive
      simp only [totalIncrement, List.map_cons, List.map_nil, List.sum_cons, List.sum_nil,
        List.length_singleton]
      omega
  | replace earlier accepted ih =>
      obtain ⟨_, _, _, _, h⟩ := validate_eq_ok_iff.mp accepted
      have hpos := h.positive
      simp only [totalIncrement, List.map_append, List.sum_append, List.length_append,
        List.length_singleton, List.map_cons, List.map_nil, List.sum_cons, List.sum_nil] at ih ⊢
      omega

/-- The last version is a replacement of the first one. -/
theorem Lineage.accepts
    {receipts : List Receipt}
    (h : Lineage minimalNonDust original receipts replacement) :
    ∃ (total : Receipt) (record marker change change' : TxOut),
      total.feeIncrementSats.toNat = totalIncrement receipts ∧
      Accepts minimalNonDust original replacement total record marker change change' := by
  induction h with
  | first accepted =>
      obtain ⟨record, marker, change, change', h⟩ := validate_eq_ok_iff.mp accepted
      exact ⟨_, record, marker, change, change', by simp [totalIncrement], h⟩
  | replace earlier accepted ih =>
      obtain ⟨total, record, marker, change, change', htotal, hearlier⟩ := ih
      obtain ⟨_, _, _, change₃, hstep⟩ := validate_eq_ok_iff.mp accepted
      obtain ⟨total₂, hsum, hboth⟩ := hearlier.trans hstep
      refine ⟨total₂, record, marker, change, change₃, ?_, hboth⟩
      rw [hsum, htotal]
      simp [totalIncrement]

/--
The last version of a lineage would have been accepted as one replacement of the first version,
and its receipt is the sum of the receipts on the way.  It spends the same first input, under
the same record, and is another transaction; and the steps, each of which costs change, are no
more than the satoshis that change has above dust.
-/
theorem lineage_is_replacement
    {receipts : List Receipt}
    (h : Lineage minimalNonDust original receipts replacement) :
    ∃ total : Receipt,
      validateSoloAnchorReplacement minimalNonDust original replacement = .ok total ∧
      total.feeIncrementSats.toNat = totalIncrement receipts ∧
      replacement.inputs.head? = original.inputs.head? ∧ original.inputs ≠ [] ∧
      replacement.outputs.head? = original.outputs.head? ∧
      replacement ≠ original ∧
      ∃ record marker change, original.outputs = [record, marker, change] ∧
        receipts.length + (minimalNonDust change.scriptPubkey).toNat ≤ change.value.toNat := by
  obtain ⟨total, record, marker, change, change', htotal, haccepts⟩ := h.accepts
  have hvalid : validateSoloAnchorReplacement minimalNonDust original replacement = .ok total :=
    validate_eq_ok_iff.mpr ⟨record, marker, change, change', haccepts⟩
  obtain ⟨hinputs, hhead, -⟩ := replacement_fee_eq hvalid
  have hincrement := haccepts.increment
  have hpos := haccepts.positive
  refine ⟨total, hvalid, htotal, hhead, hinputs, ?_, ?_, record, marker, change,
    haccepts.outputs, ?_⟩
  · rw [haccepts.outputs, haccepts.outputs']
    rfl
  · rintro rfl
    have houtputs := haccepts.outputs.symm.trans haccepts.outputs'
    obtain rfl : change = change' := by
      simpa using houtputs
    omega
  · have hdust := UInt64.le_iff_toNat_le.mp haccepts.dust
    rw [← haccepts.script] at hdust
    have hlength := h.length_le
    omega

open SoloReplacement.Sample

/-- Two steps from the sample anchor. -/
theorem lineage_is_replacement_sample :
    ∃ total, validateSoloAnchorReplacement (fun _ => 294) Sample.original
        (anchorOf [fundingOf 1, fundingOf 2] 1000) = .ok total ∧
      total.feeIncrementSats.toNat = 1298 := by
  have hsecond : validateSoloAnchorReplacement (fun _ => 294) Sample.replacement
      (anchorOf [fundingOf 1, fundingOf 2] 1000) = .ok ⟨500, 1000⟩ := by
    decide +kernel
  obtain ⟨total, hvalid, htotal, -⟩ :=
    lineage_is_replacement (.replace (.first validate_replacement) hsecond)
  exact ⟨total, hvalid, htotal⟩

end SoloReplacement
end OpenCsv
