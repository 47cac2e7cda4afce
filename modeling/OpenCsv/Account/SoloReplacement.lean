import OpenCsv.Account.Replacement
import OpenCsv.Lib.Amounts

/-!
# The receipt of a solo replacement

The check a fee replacement of a solo anchor passes before it is signed.  It sees two
transactions and no values of their inputs, so its receipt states what change lost.

**Results.**
* `validateSoloAnchorReplacement_eq`: the account runs this check and drops the receipt.
* `replacement_fee_eq`: an accepted replacement keeps the inputs in front, the record,
  the marker and the change script, and its fee grows by what change lost together with
  the values of the appended inputs.
-/

namespace OpenCsv
namespace SoloReplacement

/-- Why a proposed replacement of a solo anchor is rejected. -/
inductive Rejection
  | originalLayout
  | replacementLayout
  | fundingInputsChanged
  | notReplaceable
  | recordChanged
  | markerChanged
  | changeScriptChanged
  | changeRemovedOrDust
  | feeNotIncreased
deriving DecidableEq

/-- The stable code of a rejection. -/
def Rejection.code : Rejection → String
  | .originalLayout => "original_layout"
  | .replacementLayout => "replacement_layout"
  | .fundingInputsChanged => "funding_inputs_changed"
  | .notReplaceable => "not_replaceable"
  | .recordChanged => "record_changed"
  | .markerChanged => "marker_changed"
  | .changeScriptChanged => "change_script_changed"
  | .changeRemovedOrDust => "change_removed_or_dust"
  | .feeNotIncreased => "fee_not_increased"

/-- What change lost, and what is left of it. -/
structure Receipt where
  feeIncrementSats : UInt64
  replacementChangeSats : UInt64
deriving DecidableEq

/-- `validate_solo_anchor_replacement`, over the dust limit of a script. -/
def validateSoloAnchorReplacement
    (minimalNonDust : List UInt8 → UInt64)
    (original replacement : Transaction) : Except Rejection Receipt := do
  require (validateLayout original) .originalLayout
  require (validateLayout replacement) .replacementLayout
  require
    (original.version == replacement.version && original.lockTime == replacement.lockTime &&
      original.inputs.length ≤ replacement.inputs.length &&
        (original.inputs.zip replacement.inputs).all (fun (old, new) =>
          old.prev == new.prev && old.sequence == new.sequence && old.scriptSig == new.scriptSig))
    .fundingInputsChanged
  require ((replacement.inputs.map TxIn.prev).Nodup) .fundingInputsChanged
  require
    ((original.inputs ++ replacement.inputs).all (fun input =>
      input.sequence == enableRbfNoLocktime))
    .notReplaceable
  match original.outputs, replacement.outputs with
  | [record, marker, change], [record', marker', change'] => do
      require (record == record') .recordChanged
      require (marker == marker') .markerChanged
      require (change.scriptPubkey == change'.scriptPubkey) .changeScriptChanged
      require (minimalNonDust change'.scriptPubkey ≤ change'.value) .changeRemovedOrDust
      let feeIncrementSats ←
        okOr ((checkedSub change.value change'.value).filter (0 < ·)) .feeNotIncreased
      return { feeIncrementSats, replacementChangeSats := change'.value }
  -- The layouts leave three outputs on either side.
  | _, _ => .error .originalLayout

section Account

variable {ε ε' α β : Type}

theorem mapError_require_bind
    (check : Bool)
    (e : ε)
    (k : Unit → Except ε α)
    (g : ε → ε') :
    (require check e >>= k).mapError g = require check (g e) >>= fun u => (k u).mapError g := by
  cases check <;> rfl

theorem mapError_require
    (check : Bool)
    (e : ε)
    (g : ε → ε') :
    (require check e).mapError g = require check (g e) := by
  cases check <;> rfl

theorem map_require_bind
    (check : Bool)
    (e : ε)
    (k : Unit → Except ε α)
    (f : α → β) :
    (require check e >>= k).map f = require check e >>= fun u => (k u).map f := by
  cases check <;> rfl

/-- The last step: change falls, whatever is done with the difference. -/
theorem okOr_filter_checkedSub
    (old new : UInt64)
    (e : ε)
    (k : UInt64 → β) :
    ((okOr ((checkedSub old new).filter (0 < ·)) e >>= fun increment =>
      (pure (k increment) : Except ε β)).map (fun _ => ())) = require (new < old) e := by
  unfold checkedSub
  by_cases hle : new.toNat ≤ old.toNat
  · have hsub : (old - new).toNat = old.toNat - new.toNat :=
      UInt64.toNat_sub_of_le old new (UInt64.le_iff_toNat_le.mpr hle)
    by_cases hlt : new < old
    · have hpos : 0 < old - new := by
        rw [UInt64.lt_iff_toNat_lt] at hlt ⊢
        rw [hsub, UInt64.toNat_zero]
        omega
      simp [hle, hpos, hlt, okOr, require, Option.filter, Except.map, bind, Except.bind, pure,
        Except.pure]
    · have hzero : ¬ 0 < old - new := by
        rw [UInt64.lt_iff_toNat_lt] at hlt ⊢
        rw [hsub, UInt64.toNat_zero]
        omega
      simp [hle, hzero, hlt, okOr, require, Option.filter, Except.map, bind, Except.bind]
  · have hlt : ¬ new < old := by
      rw [UInt64.lt_iff_toNat_lt]
      omega
    simp [hle, hlt, okOr, require, Except.map, bind, Except.bind]

/-- The account's check is this one, without its receipt. -/
theorem validateSoloAnchorReplacement_eq
    {π : Type}
    (env : AccountEnv π)
    (original replacement : Transaction) :
    OpenCsv.validateSoloAnchorReplacement env original replacement =
      ((validateSoloAnchorReplacement env.minimalNonDust original replacement).map
        (fun _ => ())).mapError (fun rejection => soloReplacementError rejection.code) := by
  unfold OpenCsv.validateSoloAnchorReplacement validateSoloAnchorReplacement
  simp only [map_require_bind, mapError_require_bind, Rejection.code]
  refine bind_congr (fun _ => bind_congr (fun _ => bind_congr (fun _ => bind_congr (fun _ =>
    bind_congr (fun _ => ?_)))))
  generalize original.outputs = outputs
  generalize replacement.outputs = outputs'
  -- Only two lists of three outputs are compared.
  rcases outputs with _ | ⟨record, _ | ⟨marker, _ | ⟨change, _ | ⟨extra, rest⟩⟩⟩⟩
  · rfl
  · rfl
  · rfl
  · rcases outputs' with _ | ⟨record', _ | ⟨marker', _ | ⟨change', _ | ⟨extra, rest⟩⟩⟩⟩
    · rfl
    · rfl
    · rfl
    · simp only [map_require_bind, mapError_require_bind, okOr_filter_checkedSub]
      refine bind_congr (fun _ => bind_congr (fun _ => bind_congr (fun _ => bind_congr (fun _ =>
        ?_))))
      rw [mapError_require]
    · rfl
  · rfl

end Account

section Fees

variable (value : OutPoint → ℕ)

/-- The values of the outputs that a list of inputs spends. -/
def spentValue (inputs : List TxIn) : ℕ :=
  (inputs.map (fun input => value input.prev)).sum

/-- What a transaction leaves to the miner. -/
def actualFee (tx : Transaction) : ℤ :=
  (spentValue value tx.inputs : ℤ) - ((tx.outputs.map (fun output => output.value.toNat)).sum : ℕ)

theorem spentValue_append
    (inputs appended : List TxIn) :
    spentValue value (inputs ++ appended) = spentValue value inputs + spentValue value appended := by
  simp [spentValue]

/-- Inputs that agree pairwise with a prefix are that prefix. -/
theorem prefix_of_zip
    {inputs inputs' : List TxIn}
    (hlen : inputs.length ≤ inputs'.length)
    (h : (inputs.zip inputs').all (fun (old, new) =>
      old.prev == new.prev && old.sequence == new.sequence && old.scriptSig == new.scriptSig)) :
    inputs <+: inputs' := by
  induction inputs generalizing inputs' with
  | nil =>
      exact List.nil_prefix
  | cons old inputs ih =>
      rcases inputs' with _ | ⟨new, inputs'⟩
      · simp at hlen
      · simp only [List.zip_cons_cons, List.all_cons, Bool.and_eq_true, beq_iff_eq] at h
        obtain ⟨⟨⟨hprev, hsequence⟩, hscript⟩, hrest⟩ := h
        have hhead : old = new := by
          cases old
          cases new
          simp_all
        rw [hhead, List.cons_prefix_cons]
        exact ⟨rfl, ih (by simpa using hlen) hrest⟩

/-- The layout: inputs, and three outputs. -/
theorem layout_of_validateLayout
    {tx : Transaction}
    (h : validateLayout tx = true) :
    tx.inputs ≠ [] ∧ ∃ record marker change, tx.outputs = [record, marker, change] := by
  unfold validateLayout at h
  split at h
  · next houtputs =>
      refine ⟨?_, _, _, _, houtputs⟩
      rintro hinputs
      simp [hinputs] at h
  · cases h

variable {minimalNonDust : List UInt8 → UInt64}
variable {original replacement : Transaction}
variable {receipt : Receipt}

/-- What an accepted replacement keeps, and what its receipt counts. -/
structure Accepted
    (original replacement : Transaction)
    (receipt : Receipt)
    (record marker change change' : TxOut) : Prop where
  inputs : original.inputs ≠ []
  kept : original.inputs <+: replacement.inputs
  outputs : original.outputs = [record, marker, change]
  outputs' : replacement.outputs = [record, marker, change']
  script : change'.scriptPubkey = change.scriptPubkey
  increment : receipt.feeIncrementSats.toNat + change'.value.toNat = change.value.toNat
  positive : 0 < receipt.feeIncrementSats.toNat

theorem accepted_of_validate
    (h : validateSoloAnchorReplacement minimalNonDust original replacement = .ok receipt) :
    ∃ record marker change change',
      Accepted original replacement receipt record marker change change' := by
  unfold validateSoloAnchorReplacement at h
  simp only [except_bind_eq_ok_iff, require_eq_ok_iff, exists_and_left, exists_const] at h
  obtain ⟨hlayout, hlayout', hinputs, -, -, h⟩ := h
  obtain ⟨hne, record, marker, change, houtputs⟩ := layout_of_validateLayout hlayout
  obtain ⟨-, record', marker', change', houtputs'⟩ := layout_of_validateLayout hlayout'
  simp only [houtputs, houtputs', except_bind_eq_ok_iff, require_eq_ok_iff, exists_and_left,
    exists_const, beq_iff_eq, okOr_eq_ok_iff, Option.filter_eq_some_iff, decide_eq_true_eq] at h
  obtain ⟨rfl, rfl, hscript, -, increment, ⟨hsub, hpos⟩, hreceipt⟩ := h
  obtain rfl := Except.ok.inj hreceipt
  simp only [Bool.and_eq_true, decide_eq_true_eq] at hinputs
  exact ⟨record, marker, change, change',
    { inputs := hne
      kept := prefix_of_zip hinputs.1.2 hinputs.2
      outputs := houtputs
      outputs' := houtputs'
      script := hscript.symm
      increment := toNat_of_checkedSub hsub
      positive := UInt64.lt_iff_toNat_lt.mp hpos }⟩

/--
An accepted replacement keeps the inputs of the original in front, the first of them
being the anchor's context, the record, the marker and the change script.  It pays
strictly more; its fee grows by the increment of the receipt and by what the appended
inputs bring, and by the increment alone exactly when they bring nothing.
-/
theorem replacement_fee_eq
    (h : validateSoloAnchorReplacement minimalNonDust original replacement = .ok receipt) :
    original.inputs ≠ [] ∧ replacement.inputs.head? = original.inputs.head? ∧
      (∃ record marker change change', original.outputs = [record, marker, change] ∧
        replacement.outputs = [record, marker, change'] ∧
          change'.scriptPubkey = change.scriptPubkey) ∧
        ∃ appended, replacement.inputs = original.inputs ++ appended ∧
          ∀ value : OutPoint → ℕ,
            actualFee value original < actualFee value replacement ∧
              actualFee value replacement = actualFee value original +
                receipt.feeIncrementSats.toNat + spentValue value appended ∧
              ((receipt.feeIncrementSats.toNat : ℤ) =
                  actualFee value replacement - actualFee value original ↔
                spentValue value appended = 0) := by
  obtain ⟨record, marker, change, change', haccepted⟩ := accepted_of_validate h
  obtain ⟨appended, happended⟩ := haccepted.kept
  have hhead : replacement.inputs.head? = original.inputs.head? := by
    rw [← happended, List.head?_append_of_ne_nil _ haccepted.inputs]
  refine ⟨haccepted.inputs, hhead, ⟨record, marker, change, change', haccepted.outputs,
    haccepted.outputs', haccepted.script⟩, appended, happended.symm, ?_⟩
  intro value
  have hspent : spentValue value replacement.inputs =
      spentValue value original.inputs + spentValue value appended := by
    rw [← happended, spentValue_append]
  have hfee : actualFee value replacement = actualFee value original +
      receipt.feeIncrementSats.toNat + spentValue value appended := by
    have hincrement := haccepted.increment
    simp only [actualFee, haccepted.outputs, haccepted.outputs', hspent, List.map_cons,
      List.map_nil, List.sum_cons, List.sum_nil]
    omega
  have hpos := haccepted.positive
  refine ⟨?_, hfee, ?_⟩
  · omega
  · omega

end Fees

namespace Sample

/-- A funding output. -/
def fundingOf (n : ℕ) : OutPoint :=
  ⟨⟨leBytes 32 n, by simp⟩, 0⟩

/-- A solo anchor over some funding outputs, with an amount of change. -/
def anchorOf (funding : List OutPoint) (change : UInt64) : Transaction where
  version := 2
  inputs := funding.map (fun outpoint => ⟨outpoint, [], enableRbfNoLocktime⟩)
  outputs :=
    [ ⟨0, 0x6a :: 0x40 :: List.replicate 64 7⟩, ⟨markerDustSats, markerSpk⟩,
      ⟨change, 0x00 :: 0x14 :: List.replicate 20 3⟩]
  lockTime := 0
  witnesses := []

/-- The original, and a replacement with one more input. -/
def original : Transaction := anchorOf [fundingOf 1] 2298
def replacement : Transaction := anchorOf [fundingOf 1, fundingOf 2] 1500

theorem validate_replacement :
    validateSoloAnchorReplacement (fun _ => 294) original replacement = .ok ⟨798, 1500⟩ := by
  decide +kernel

end Sample

open SoloReplacement.Sample

/-- The replacement spends a second output of 1000 satoshis, which the receipt leaves out. -/
theorem not_receipt_counts_appended :
    ¬ ∀ (minimalNonDust : List UInt8 → UInt64) (value : OutPoint → ℕ)
        (original replacement : Transaction) (receipt : Receipt),
      validateSoloAnchorReplacement minimalNonDust original replacement = .ok receipt →
        (receipt.feeIncrementSats.toNat : ℤ) =
          actualFee value replacement - actualFee value original := by
  intro h
  have hfee := h (fun _ => 294) (fun _ => 1000) original replacement ⟨798, 1500⟩
    validate_replacement
  exact absurd hfee (by decide +kernel)

theorem replacement_fee_eq_sample :
    actualFee (fun _ => 1000) replacement = actualFee (fun _ => 1000) original + 798 + 1000 := by
  obtain ⟨-, -, -, appended, happended, hfees⟩ := replacement_fee_eq validate_replacement
  have hlast : appended = [⟨fundingOf 2, [], enableRbfNoLocktime⟩] := by
    simpa [replacement, original, anchorOf] using happended.symm
  rw [(hfees (fun _ => 1000)).2.1, hlast]
  rfl

end SoloReplacement
end OpenCsv
