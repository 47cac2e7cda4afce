import OpenCsv.Kernel.Audit

/-!
# Copies and the supply

Anyone can broadcast the bytes of a record again.  A copy of a mint is not counted, but a copy
of a redemption is subtracted once more, and a copy in front of another mint with the same
commitment is counted in its place.

**Result.** `supply_unchanged_iff`: the records whose supply no copies can change.
-/

namespace OpenCsv

namespace Kernel

/-- The same records and copies of them. -/
structure Copied (anchors anchors' : List (Location × Record)) : Prop where
  sublist : anchors.Sublist anchors'
  copies : ∀ anchor ∈ anchors', ∃ original ∈ anchors, anchor.2 = original.2

/-- No entry is above the height. -/
def CoveredBy (height : UInt64) (anchors : List (Location × Record)) : Prop :=
  ∀ anchor ∈ anchors, anchor.1.height ≤ height

def maxHeight : UInt64 := 0xFFFFFFFFFFFFFFFF

/-- All mints of an asset, by commitment. -/
def allMints (assetId : AssetId24) (anchors : List (Location × Record)) :
    List (MintCommit × UInt64) :=
  mints assetId maxHeight anchors

/-- All redeemed values of an asset. -/
def allRedeems (assetId : AssetId24) (anchors : List (Location × Record)) : List UInt64 :=
  redeems assetId maxHeight anchors

/-- A value for each commitment, from one of its records. -/
def Chooses (mints : List (MintCommit × UInt64)) (choice : MintCommit → ℕ) : Prop :=
  ∀ commit ∈ keys mints, ∃ v, (commit, v) ∈ mints ∧ choice commit = v.toNat

/-- Nothing of value is redeemed, and the records of a mint commitment agree. -/
structure CopyProof (assetId : AssetId24) (anchors : List (Location × Record)) : Prop where
  redeems : ∀ v ∈ allRedeems assetId anchors, v = 0
  mints : ∀ commit v v', (commit, v) ∈ allMints assetId anchors →
    (commit, v') ∈ allMints assetId anchors → v = v'

/-- More is redeemed than was minted, whichever record of a commitment counts. -/
def Overspent (assetId : AssetId24) (anchors : List (Location × Record)) : Prop :=
  ∀ choice, Chooses (allMints assetId anchors) choice →
    ∑ commit ∈ keys (allMints assetId anchors), choice commit <
      ((allRedeems assetId anchors).map UInt64.toNat).sum

/-- More is minted than a `u64` holds, whichever record counts, and nothing is redeemed. -/
structure Overflowing (assetId : AssetId24) (anchors : List (Location × Record)) : Prop where
  redeems : ∀ v ∈ allRedeems assetId anchors, v = 0
  mints : ∀ choice, Chooses (allMints assetId anchors) choice →
    2 ^ 64 - 1 < ∑ commit ∈ keys (allMints assetId anchors), choice commit

section Reading

variable {assetId : AssetId24}
variable {height : UInt64}
variable {anchors anchors' : List (Location × Record)}

theorem mem_mints_iff
    {commit : MintCommit}
    {v : UInt64} :
    (commit, v) ∈ mints assetId height anchors ↔
      ∃ location, (location, Record.mint assetId v commit) ∈ anchors ∧
        location.height ≤ height := by
  rw [mints, List.mem_filterMap]
  constructor
  · rintro ⟨⟨location, record⟩, hmem, hread⟩
    cases record with
    | mint recordAsset value mintCommit =>
        simp only at hread
        split at hread
        · rename_i hcond
          obtain ⟨hheight, rfl⟩ := hcond
          cases hread
          exact ⟨location, hmem, hheight⟩
        · cases hread
    | _ => cases hread
  · rintro ⟨location, hmem, hheight⟩
    exact ⟨_, hmem, by simp [hheight]⟩

theorem mem_redeems_iff
    {v : UInt64} :
    v ∈ redeems assetId height anchors ↔
      ∃ location payload, (location, Record.redeem assetId v payload) ∈ anchors ∧
        location.height ≤ height := by
  rw [redeems, List.mem_filterMap]
  constructor
  · rintro ⟨⟨location, record⟩, hmem, hread⟩
    cases record with
    | redeem recordAsset value payload =>
        simp only at hread
        split at hread
        · rename_i hcond
          obtain ⟨hheight, rfl⟩ := hcond
          cases hread
          exact ⟨location, payload, hmem, hheight⟩
        · cases hread
    | _ => cases hread
  · rintro ⟨location, payload, hmem, hheight⟩
    exact ⟨_, hmem, by simp [hheight]⟩

theorem le_maxHeight
    (height : UInt64) :
    height ≤ maxHeight := by
  have hlt := height.toNat_lt
  have hmax : maxHeight.toNat = 2 ^ 64 - 1 := rfl
  rw [UInt64.le_iff_toNat_le, hmax]
  omega

/-- A height that covers all entries hides none of them. -/
theorem read_of_covered
    (h : CoveredBy height anchors) :
    mints assetId height anchors = allMints assetId anchors ∧
      redeems assetId height anchors = allRedeems assetId anchors := by
  constructor
  · refine List.filterMap_congr (fun anchor hmem => ?_)
    cases anchor.2 <;> simp [h anchor hmem, le_maxHeight]
  · refine List.filterMap_congr (fun anchor hmem => ?_)
    cases anchor.2 <;> simp [h anchor hmem, le_maxHeight]

theorem Copied.mem_allMints_iff
    (h : Copied anchors anchors')
    {entry : MintCommit × UInt64} :
    entry ∈ allMints assetId anchors' ↔ entry ∈ allMints assetId anchors := by
  obtain ⟨commit, v⟩ := entry
  rw [allMints, allMints, mem_mints_iff, mem_mints_iff]
  constructor
  · rintro ⟨location, hmem, -⟩
    obtain ⟨⟨location', record⟩, hmem', rfl⟩ := h.copies _ hmem
    exact ⟨location', hmem', le_maxHeight _⟩
  · rintro ⟨location, hmem, -⟩
    exact ⟨location, h.sublist.subset hmem, le_maxHeight _⟩

theorem Copied.keys_eq
    (h : Copied anchors anchors') :
    keys (allMints assetId anchors') = keys (allMints assetId anchors) := by
  ext commit
  simp only [mem_keys_iff, h.mem_allMints_iff]

theorem Copied.mem_allRedeems_iff
    (h : Copied anchors anchors')
    {v : UInt64} :
    v ∈ allRedeems assetId anchors' ↔ v ∈ allRedeems assetId anchors := by
  rw [allRedeems, allRedeems, mem_redeems_iff, mem_redeems_iff]
  constructor
  · rintro ⟨location, payload, hmem, -⟩
    obtain ⟨⟨location', record⟩, hmem', rfl⟩ := h.copies _ hmem
    exact ⟨location', payload, hmem', le_maxHeight _⟩
  · rintro ⟨location, payload, hmem, -⟩
    exact ⟨location, payload, h.sublist.subset hmem, le_maxHeight _⟩

/-- The first records of the commitments are a choice. -/
theorem chooses_first
    (mints : List (MintCommit × UInt64)) :
    Chooses mints (firstWeight UInt64.toNat mints) := by
  intro commit hcommit
  obtain ⟨v, hmem, hweight⟩ := @exists_of_mem_keys _ _ _ UInt64.toNat _ _ hcommit
  exact ⟨v, hmem, hweight⟩

/-- So are the first records among copies. -/
theorem Copied.chooses
    (h : Copied anchors anchors') :
    Chooses (allMints assetId anchors) (firstWeight UInt64.toNat (allMints assetId anchors')) := by
  intro commit hcommit
  rw [← h.keys_eq] at hcommit
  obtain ⟨v, hmem, hweight⟩ := chooses_first _ commit hcommit
  exact ⟨v, h.mem_allMints_iff.mp hmem, hweight⟩

theorem Copied.covered
    (h : Copied anchors anchors')
    (hcovered : CoveredBy height anchors') :
    CoveredBy height anchors :=
  fun anchor hmem => hcovered anchor (h.sublist.subset hmem)

theorem circulating_of_covered
    (h : CoveredBy height anchors) :
    circulating assetId height anchors =
      ((∑ commit ∈ keys (allMints assetId anchors),
          firstWeight UInt64.toNat (allMints assetId anchors) commit : ℕ) : ℤ) -
        (((allRedeems assetId anchors).map UInt64.toNat).sum : ℕ) := by
  obtain ⟨hmints, hredeems⟩ := @read_of_covered assetId _ _ h
  rw [circulating, minted, redeemed, hmints, hredeems]

/-- The supply tells amounts in range apart, and nothing else. -/
theorem supply_eq_supply_iff :
    supply assetId height anchors' = supply assetId height anchors ↔
      circulating assetId height anchors' = circulating assetId height anchors ∨
        (¬ (0 ≤ circulating assetId height anchors' ∧
            circulating assetId height anchors' ≤ 2 ^ 64 - 1) ∧
          ¬ (0 ≤ circulating assetId height anchors ∧
            circulating assetId height anchors ≤ 2 ^ 64 - 1)) := by
  cases hsupply : supply assetId height anchors with
  | ok v =>
      have hlt := v.toNat_lt
      have hv := supply_eq_ok_iff.mp hsupply
      rw [supply_eq_ok_iff]
      omega
  | error e =>
      cases e
      have hout := supply_eq_error_iff.mp hsupply
      rw [supply_eq_error_iff]
      omega

end Reading

section Arranging

/-! Copies in front decide which records of the mint commitments count. -/

variable {assetId : AssetId24}
variable {anchors anchors' : List (Location × Record)}
variable {choice : MintCommit → ℕ}

theorem Copied.refl :
    Copied anchors anchors :=
  ⟨List.Sublist.refl anchors, fun anchor hmem => ⟨anchor, hmem, rfl⟩⟩

theorem Copied.cons
    (h : Copied anchors anchors')
    {anchor original : Location × Record}
    (hmem : original ∈ anchors)
    (hcopy : anchor.2 = original.2) :
    Copied anchors (anchor :: anchors') := by
  refine ⟨h.sublist.cons anchor, ?_⟩
  rw [List.forall_mem_cons]
  exact ⟨⟨original, hmem, hcopy⟩, h.copies⟩

/-- Any choice of records can be made to count. -/
theorem exists_copied_of_chooses
    (h : Chooses (allMints assetId anchors) choice)
    (hcopied : Copied anchors anchors')
    (commits : List MintCommit)
    (hcommits : ∀ commit ∈ commits, commit ∈ keys (allMints assetId anchors)) :
    ∃ front, Copied anchors (front ++ anchors') ∧ allRedeems assetId front = [] ∧
      keys (allMints assetId front) = commits.toFinset ∧
        ∀ commit ∈ commits, firstWeight UInt64.toNat (allMints assetId front) commit =
          choice commit := by
  induction commits with
  | nil =>
      exact ⟨[], hcopied, rfl, rfl, by simp⟩
  | cons commit commits ih =>
      obtain ⟨hcommit, hcommits⟩ := List.forall_mem_cons.mp hcommits
      obtain ⟨front, hfront, hredeems, hkeys, hweights⟩ := ih hcommits
      obtain ⟨v, hmem, hchoice⟩ := h commit hcommit
      obtain ⟨location, hmem, -⟩ := mem_mints_iff.mp hmem
      have hmints : allMints assetId ((location, .mint assetId v commit) :: front) =
          (commit, v) :: allMints assetId front := by
        rw [allMints, mints_cons]
        simp [mints, allMints, le_maxHeight]
      refine ⟨(location, .mint assetId v commit) :: front, hfront.cons hmem rfl, ?_, ?_, ?_⟩
      · have hone : redeems assetId maxHeight [(location, .mint assetId v commit)] = [] := rfl
        rw [allRedeems, redeems_cons, hone, List.nil_append]
        exact hredeems
      · rw [hmints, keys_cons, hkeys, List.toFinset_cons]
      · intro commit' hmem'
        rw [hmints]
        by_cases heq : commit' = commit
        · rw [heq, firstWeight_cons_self, hchoice]
        · rw [firstWeight_cons_of_ne heq]
          exact hweights commit' (List.mem_of_ne_of_mem heq hmem')

/-- Copies of a redemption are subtracted, each once more. -/
theorem exists_copied_of_redeem
    (h : Copied anchors anchors')
    {v : UInt64}
    (hv : v ∈ allRedeems assetId anchors)
    (n : ℕ) :
    ∃ anchors'', Copied anchors anchors'' ∧
      allMints assetId anchors'' = allMints assetId anchors' ∧
        ((allRedeems assetId anchors'').map UInt64.toNat).sum =
          n * v.toNat + ((allRedeems assetId anchors').map UInt64.toNat).sum := by
  obtain ⟨location, payload, hmem, -⟩ := mem_redeems_iff.mp hv
  induction n with
  | zero => exact ⟨anchors', h, rfl, by omega⟩
  | succ n ih =>
      obtain ⟨anchors'', hcopied, hmints, hsum⟩ := ih
      refine ⟨(location, .redeem assetId v payload) :: anchors'', hcopied.cons hmem rfl, ?_, ?_⟩
      · have hone : mints assetId maxHeight [(location, .redeem assetId v payload)] = [] := rfl
        rw [allMints, mints_cons, hone, List.nil_append]
        exact hmints
      · rw [allRedeems, redeems_cons]
        have hone : redeems assetId maxHeight [(location, .redeem assetId v payload)] = [v] := by
          simp [redeems, le_maxHeight]
        rw [hone, List.map_append, List.sum_append]
        have hsum' : ((redeems assetId maxHeight anchors'').map UInt64.toNat).sum = _ := hsum
        rw [hsum', Nat.add_mul]
        simp
        omega

theorem covered_max
    (anchors : List (Location × Record)) :
    CoveredBy maxHeight anchors :=
  fun anchor _ => le_maxHeight anchor.1.height

/-- The circulating amount of an arrangement: the chosen values less the redeemed ones. -/
theorem exists_arranged
    (h : Chooses (allMints assetId anchors) choice) :
    ∃ anchors', Copied anchors anchors' ∧
      (∑ commit ∈ keys (allMints assetId anchors'),
        firstWeight UInt64.toNat (allMints assetId anchors') commit) =
          ∑ commit ∈ keys (allMints assetId anchors), choice commit ∧
      allRedeems assetId anchors' = allRedeems assetId anchors := by
  obtain ⟨front, hcopied, hredeems, hkeys, hweights⟩ := exists_copied_of_chooses h Copied.refl
    (keys (allMints assetId anchors)).toList (fun commit hmem => Finset.mem_toList.mp hmem)
  refine ⟨front ++ anchors, hcopied, ?_, ?_⟩
  · rw [hcopied.keys_eq]
    refine Finset.sum_congr rfl (fun commit hcommit => ?_)
    have hmints : allMints assetId (front ++ anchors) =
        allMints assetId front ++ allMints assetId anchors := List.filterMap_append
    have hmem : commit ∈ (keys (allMints assetId anchors)).toList := Finset.mem_toList.mpr hcommit
    rw [hmints, firstWeight_append, hkeys, if_pos (List.mem_toFinset.mpr hmem)]
    exact hweights commit hmem
  · have happend : allRedeems assetId (front ++ anchors) =
        allRedeems assetId front ++ allRedeems assetId anchors := List.filterMap_append
    rw [happend, hredeems, List.nil_append]

end Arranging

section Copies

variable {assetId : AssetId24}
variable {anchors : List (Location × Record)}

/-- No copies change the supply. -/
def SupplyUnchanged (assetId : AssetId24) (anchors : List (Location × Record)) : Prop :=
  ∀ anchors' height, Copied anchors anchors' → CoveredBy height anchors' →
    supply assetId height anchors' = supply assetId height anchors

theorem sum_eq_zero_of_redeems
    {values : List UInt64}
    (h : ∀ v ∈ values, v = 0) :
    (values.map UInt64.toNat).sum = 0 := by
  refine List.sum_eq_zero (fun n hn => ?_)
  obtain ⟨v, hv, rfl⟩ := List.mem_map.mp hn
  rw [h v hv]
  rfl

theorem CopyProof.unchanged
    (h : CopyProof assetId anchors) :
    SupplyUnchanged assetId anchors := by
  intro anchors' height hcopied hcovered
  rw [supply_eq_supply_iff, circulating_of_covered hcovered,
    circulating_of_covered (hcopied.covered hcovered)]
  refine Or.inl ?_
  have hredeems' : ∀ v ∈ allRedeems assetId anchors', v = 0 :=
    fun v hv => h.redeems v (hcopied.mem_allRedeems_iff.mp hv)
  rw [sum_eq_zero_of_redeems h.redeems, sum_eq_zero_of_redeems hredeems', hcopied.keys_eq]
  congr 2
  refine Finset.sum_congr rfl (fun commit hcommit => ?_)
  obtain ⟨v, hmem, hweight⟩ := chooses_first _ commit hcommit
  obtain ⟨v', hmem', hweight'⟩ := hcopied.chooses commit hcommit
  rw [hweight, hweight', h.mints commit v v' hmem hmem']

theorem Overspent.unchanged
    (h : Overspent assetId anchors) :
    SupplyUnchanged assetId anchors := by
  intro anchors' height hcopied hcovered
  rw [supply_eq_supply_iff, circulating_of_covered hcovered,
    circulating_of_covered (hcopied.covered hcovered), hcopied.keys_eq]
  have hfirst := h _ (chooses_first _)
  have hfirst' := h _ hcopied.chooses
  have hmore : ((allRedeems assetId anchors).map UInt64.toNat).sum ≤
      ((allRedeems assetId anchors').map UInt64.toNat).sum :=
    (((hcopied.sublist.filterMap _).map _).sum_le_sum (fun _ _ => Nat.zero_le _))
  refine Or.inr ⟨?_, ?_⟩
  · omega
  · omega

theorem Overflowing.unchanged
    (h : Overflowing assetId anchors) :
    SupplyUnchanged assetId anchors := by
  intro anchors' height hcopied hcovered
  rw [supply_eq_supply_iff, circulating_of_covered hcovered,
    circulating_of_covered (hcopied.covered hcovered), hcopied.keys_eq]
  have hfirst := h.mints _ (chooses_first _)
  have hfirst' := h.mints _ hcopied.chooses
  have hredeems' : ∀ v ∈ allRedeems assetId anchors', v = 0 :=
    fun v hv => h.redeems v (hcopied.mem_allRedeems_iff.mp hv)
  rw [sum_eq_zero_of_redeems h.redeems, sum_eq_zero_of_redeems hredeems']
  refine Or.inr ⟨?_, ?_⟩
  · omega
  · omega

/-- Where copies change nothing, no redemption of value stands against a supply that is there. -/
theorem SupplyUnchanged.overspent
    (h : SupplyUnchanged assetId anchors)
    {v : UInt64}
    (hv : v ∈ allRedeems assetId anchors)
    (hpos : v ≠ 0) :
    Overspent assetId anchors := by
  intro choice hchoice
  by_contra hnot
  obtain ⟨arranged, hcopied, hsum, hredeems⟩ := exists_arranged hchoice
  have hvpos : 0 < v.toNat := by
    have hne : v.toNat ≠ 0 := fun h0 => hpos (UInt64.toNat_inj.mp h0)
    omega
  have hvlt := v.toNat_lt
  -- The copies of the redemption take the supply below zero, one copy after it is still there.
  have hcirculating : ∀ n, ∃ anchors', Copied anchors anchors' ∧
      circulating assetId maxHeight anchors' =
        ((∑ commit ∈ keys (allMints assetId anchors), choice commit : ℕ) : ℤ) -
          (n * v.toNat + ((allRedeems assetId anchors).map UInt64.toNat).sum : ℕ) := by
    intro n
    obtain ⟨anchors', hcopied', hmints, hredeems'⟩ := exists_copied_of_redeem hcopied hv n
    refine ⟨anchors', hcopied', ?_⟩
    rw [circulating_of_covered (covered_max anchors'), hmints, hsum, hredeems', hredeems]
  set total := ∑ commit ∈ keys (allMints assetId anchors), choice commit with htotal
  set redeemed := ((allRedeems assetId anchors).map UInt64.toNat).sum with hredeemed
  obtain ⟨inside, hinside, hin⟩ := hcirculating ((total - redeemed) / v.toNat)
  obtain ⟨below, hbelow, hout⟩ := hcirculating ((total - redeemed) / v.toNat + 1)
  have hsame := (h inside maxHeight hinside (covered_max inside)).trans
    (h below maxHeight hbelow (covered_max below)).symm
  rw [supply_eq_supply_iff, hin, hout] at hsame
  have hdiv := Nat.div_add_mod (total - redeemed) v.toNat
  have hmod := Nat.mod_lt (total - redeemed) hvpos
  rw [Nat.mul_comm] at hdiv
  rw [Nat.add_mul, Nat.one_mul] at hsame
  omega

/-- Where copies change nothing and nothing is redeemed, commitments agree or overflow. -/
theorem SupplyUnchanged.agree_or_overflow
    (h : SupplyUnchanged assetId anchors)
    (hredeems : ∀ v ∈ allRedeems assetId anchors, v = 0) :
    CopyProof assetId anchors ∨ Overflowing assetId anchors := by
  by_cases hagree : ∀ commit v v', (commit, v) ∈ allMints assetId anchors →
      (commit, v') ∈ allMints assetId anchors → v = v'
  · exact Or.inl ⟨hredeems, hagree⟩
  · refine Or.inr ⟨hredeems, ?_⟩
    push Not at hagree
    obtain ⟨commit, v, v', hmem, hmem', hne⟩ := hagree
    intro choice hchoice
    by_contra hnot
    have hcirculating : ∀ choice, Chooses (allMints assetId anchors) choice →
        ∃ anchors', Copied anchors anchors' ∧ circulating assetId maxHeight anchors' =
          ((∑ commit ∈ keys (allMints assetId anchors), choice commit : ℕ) : ℤ) := by
      intro choice hchoice
      obtain ⟨arranged, hcopied, hsum, hredeems'⟩ := exists_arranged hchoice
      refine ⟨arranged, hcopied, ?_⟩
      rw [circulating_of_covered (covered_max arranged), hsum, hredeems',
        sum_eq_zero_of_redeems hredeems]
      simp
    -- Another record of the commitment counts, and the sum is another one.
    obtain ⟨w, hw, hwne⟩ : ∃ w, (commit, w) ∈ allMints assetId anchors ∧
        w.toNat ≠ choice commit := by
      by_cases heq : v.toNat = choice commit
      · refine ⟨v', hmem', fun heq' => hne (UInt64.toNat_inj.mp (heq.trans heq'.symm))⟩
      · exact ⟨v, hmem, heq⟩
    have hcommit : commit ∈ keys (allMints assetId anchors) := mem_keys_iff.mpr ⟨w, hw⟩
    have hother : Chooses (allMints assetId anchors) (Function.update choice commit w.toNat) := by
      intro commit' hcommit'
      by_cases heq : commit' = commit
      · subst heq
        exact ⟨w, hw, Function.update_self ..⟩
      · rw [Function.update_of_ne heq]
        exact hchoice commit' hcommit'
    obtain ⟨arranged, hcopied, hcirc⟩ := hcirculating choice hchoice
    obtain ⟨arranged', hcopied', hcirc'⟩ := hcirculating _ hother
    have hsame := (h arranged maxHeight hcopied (covered_max arranged)).trans
      (h arranged' maxHeight hcopied' (covered_max arranged')).symm
    have hsum := Finset.sum_update_of_mem hcommit choice w.toNat
    have hsplit := Finset.sum_eq_add_sum_sdiff_singleton_of_mem hcommit choice
    rw [supply_eq_supply_iff, hcirc, hcirc', hsum] at hsame
    omega

/--
Copies of its records leave the supply of an asset alone exactly if nothing of value is
redeemed and the records of each mint commitment agree, or the supply is an error in any case.
-/
theorem supply_unchanged_iff
    (assetId : AssetId24)
    (anchors : List (Location × Record)) :
    (∀ anchors' height, Copied anchors anchors' → CoveredBy height anchors' →
        supply assetId height anchors' = supply assetId height anchors) ↔
      CopyProof assetId anchors ∨ Overspent assetId anchors ∨ Overflowing assetId anchors := by
  constructor
  · intro h
    by_cases hredeems : ∀ v ∈ allRedeems assetId anchors, v = 0
    · rcases SupplyUnchanged.agree_or_overflow h hredeems with hproof | hoverflow
      · exact Or.inl hproof
      · exact Or.inr (Or.inr hoverflow)
    · push Not at hredeems
      obtain ⟨v, hv, hpos⟩ := hredeems
      exact Or.inr (Or.inl (SupplyUnchanged.overspent h hv hpos))
  · rintro (h | h | h)
    · exact h.unchanged
    · exact h.unchanged
    · exact h.unchanged

end Copies

namespace Sample

def asset : AssetId24 := List.Vector.replicate 24 1

def issued : Location × Record :=
  (⟨1, 0⟩, .mint asset 5 (List.Vector.replicate 24 2))

def burned (position : UInt32) : Location × Record :=
  (⟨2, position⟩, .redeem asset 3 (List.Vector.replicate 24 3))

/-- A redemption of three out of five, broadcast again. -/
theorem copied_redemption_counts_twice :
    Copied [issued, burned 0] [issued, burned 0, burned 1] ∧
      CoveredBy 2 [issued, burned 0, burned 1] ∧
        supply asset 2 [issued, burned 0] = .ok 2 ∧
          supply asset 2 [issued, burned 0, burned 1] = .error .negativeSupply := by
  refine ⟨⟨by decide, ?_⟩, ?_, by decide +kernel, by decide +kernel⟩
  · simp [burned]
  · rw [CoveredBy]
    decide

end Sample

end Kernel

end OpenCsv
