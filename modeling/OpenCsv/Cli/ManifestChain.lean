import OpenCsv.Bitcoin.BatchPool
import OpenCsv.Cli.SessionReads

/-!
# The chain of manifests

The manifests of a session are numbered by their epochs from zero on, and each is the
replacement of the one before it.  They are stored under their epochs and identifiers, and read
back in whatever order the directory lists them.

**Results.** A manifest that may be stored and is not there yet extends the chain by one
(`ManifestChain.append`), and the manifests that are read back are the chain
(`loadManifests_of_holds`), out of every larger pool of commitments.
-/

namespace OpenCsv

variable {K S R X : Type}
variable {crate : GossipCrate K S R X}
variable {sponge : Sponge}

section Bounded

/-- Read an object out of a file of bounded size. -/
def readBounded
    {α : Type}
    (parse : List UInt8 → Except ProtocolError α)
    (bytes : List UInt8) : Except GossipError α := do
  let bytes ← readLimited bytes maxPayloadBytes SemanticPath.proposal.display
  (parse bytes).mapError batchError

theorem readBounded_eq_ok_iff
    {α : Type}
    {parse : List UInt8 → Except ProtocolError α}
    {bytes : List UInt8}
    {a : α} :
    readBounded parse bytes = .ok a ↔ bytes.length ≤ maxPayloadBytes ∧ parse bytes = .ok a := by
  simp only [readBounded, except_bind_eq_ok_iff, readLimited_eq_ok_iff, mapError_eq_ok_iff]
  constructor
  · rintro ⟨_, ⟨hlength, rfl⟩, hparse⟩
    exact ⟨hlength, hparse⟩
  · rintro ⟨hlength, hparse⟩
    exact ⟨bytes, ⟨hlength, rfl⟩, hparse⟩

end Bounded

variable [DecidableEq K]
variable {proposal : Proposal K}
variable {manifests : List (Manifest K)}
variable {manifest : Manifest K}

section Chain

/-- The epochs count from zero, and each manifest replaces the one before it. -/
structure ManifestChain
    (crate : GossipCrate K S R X)
    (sponge : Sponge)
    (proposal : Proposal K)
    (manifests : List (Manifest K)) : Prop where
  epoch : ∀ (i : ℕ) m, manifests[i]? = some m → m.replacementEpoch.toNat = i
  replaced : ∀ (i : ℕ) m m', manifests[i]? = some m → manifests[i + 1]? = some m' →
    m.replacement crate.toBitcoinCrate sponge proposal m'.feerateSatVb = .ok m'

omit [DecidableEq K] in
theorem ManifestChain.nil :
    ManifestChain crate sponge proposal [] :=
  ⟨fun _ _ h => (by cases h), fun _ _ _ h => (by cases h)⟩

omit [DecidableEq K] in
/-- Manifests of the chain with one epoch are the same. -/
theorem ManifestChain.eq_of_epoch
    (h : ManifestChain crate sponge proposal manifests)
    {m m' : Manifest K}
    (hm : m ∈ manifests)
    (hm' : m' ∈ manifests)
    (hepoch : m.replacementEpoch = m'.replacementEpoch) :
    m = m' := by
  obtain ⟨i, hi⟩ := List.mem_iff_getElem?.mp hm
  obtain ⟨j, hj⟩ := List.mem_iff_getElem?.mp hm'
  have hij : i = j := by
    rw [← h.epoch i m hi, ← h.epoch j m' hj, hepoch]
  subst hij
  exact Option.some.inj (hi.symm.trans hj)

omit [DecidableEq K] in
/-- The chain is in the order of the epochs. -/
theorem ManifestChain.pairwise
    (h : ManifestChain crate sponge proposal manifests) :
    manifests.Pairwise (fun a b => a.replacementEpoch ≤ b.replacementEpoch) := by
  rw [List.pairwise_iff_getElem]
  intro i j hi hj hij
  have hepoch := h.epoch i _ (List.getElem?_eq_getElem hi)
  have hepoch' := h.epoch j _ (List.getElem?_eq_getElem hj)
  rw [UInt32.le_iff_toNat_le, hepoch, hepoch']
  exact hij.le

omit [DecidableEq K] in
theorem pairwise_sortByEpoch
    (read : List (Manifest K)) :
    (sortByEpoch read).Pairwise (fun a b => a.replacementEpoch ≤ b.replacementEpoch) := by
  have htotal : Std.Total
      (fun a b : Manifest K => a.replacementEpoch ≤ b.replacementEpoch) :=
    ⟨fun a b => UInt32.le_total _ _⟩
  have htrans : IsTrans (Manifest K)
      (fun a b : Manifest K => a.replacementEpoch ≤ b.replacementEpoch) :=
    ⟨fun a b c => UInt32.le_trans⟩
  exact List.pairwise_insertionSort _ read

omit [DecidableEq K] in
/-- Sorting the manifests by epoch gives the chain. -/
theorem ManifestChain.sortByEpoch_eq
    (h : ManifestChain crate sponge proposal manifests)
    {read : List (Manifest K)}
    (hperm : read.Perm manifests) :
    sortByEpoch read = manifests := by
  refine @List.Perm.eq_of_pairwise _ (fun a b => a.replacementEpoch ≤ b.replacementEpoch) _ _
    ?_ ?_ h.pairwise ?_
  · intro a b ha hb hab hba
    have ha' : a ∈ manifests :=
      hperm.mem_iff.mp ((List.mem_insertionSort _).mp ha)
    exact h.eq_of_epoch ha' hb (UInt32.le_antisymm hab hba)
  · exact pairwise_sortByEpoch read
  · exact (List.perm_insertionSort _ _).trans hperm

/-- The check compares neighbours. -/
theorem checkEpochs_eq_ok_iff :
    checkEpochs crate sponge proposal manifests = .ok () ↔
      ∀ (i : ℕ) m m', manifests[i]? = some m → manifests[i + 1]? = some m' →
        m.replacementEpoch + 1 = m'.replacementEpoch ∧
          m.replacement crate.toBitcoinCrate sponge proposal m'.feerateSatVb = .ok m' := by
  induction manifests with
  | nil =>
      refine iff_of_true rfl ?_
      intro i m m' hm
      cases hm
  | cons m manifests ih =>
      rcases manifests with _ | ⟨m', rest⟩
      · refine iff_of_true rfl ?_
        intro i a a' _ ha'
        cases ha'
      · simp only [checkEpochs, except_bind_eq_ok_iff, require_eq_ok_iff, decide_eq_true_eq,
          mapError_eq_ok_iff, ih]
        constructor
        · rintro ⟨_, hepoch, expected, hreplacement, _, rfl, hrest⟩ i a a' ha ha'
          cases i with
          | zero =>
              obtain rfl := Option.some.inj ha
              obtain rfl := Option.some.inj ha'
              exact ⟨hepoch, hreplacement⟩
          | succ i => exact hrest i a a' ha ha'
        · intro hall
          obtain ⟨hepoch, hreplacement⟩ := hall 0 m m' rfl rfl
          exact ⟨(), hepoch, m', hreplacement, (), rfl, fun i a a' => hall (i + 1) a a'⟩

/-- One epoch later, without a wrap. -/
theorem epoch_succ
    {a b : UInt32}
    (h : b.toNat = a.toNat + 1) :
    a + 1 = b := by
  rw [← UInt32.toNat_inj, UInt32.toNat_add]
  have hlt := b.toNat_lt
  have hone : (1 : UInt32).toNat = 1 := rfl
  rw [hone, Nat.mod_eq_of_lt (by omega)]
  exact h.symm

/-- The chain passes the check of its epochs. -/
theorem ManifestChain.checkEpochs
    (h : ManifestChain crate sponge proposal manifests) :
    checkEpochs crate sponge proposal manifests = .ok () := by
  rw [checkEpochs_eq_ok_iff]
  intro i m m' hm hm'
  refine ⟨epoch_succ ?_, h.replaced i m m' hm hm'⟩
  rw [h.epoch i m hm, h.epoch (i + 1) m' hm']

omit [DecidableEq K] in
/-- A chain with its next replacement. -/
theorem ManifestChain.concat
    (h : ManifestChain crate sponge proposal manifests)
    (hepoch : manifest.replacementEpoch.toNat = manifests.length)
    (hreplaced : ∀ last, manifests.getLast? = some last →
      last.replacement crate.toBitcoinCrate sponge proposal manifest.feerateSatVb =
        .ok manifest) :
    ManifestChain crate sponge proposal (manifests ++ [manifest]) := by
  constructor
  · intro i m hm
    by_cases hi : i < manifests.length
    · rw [List.getElem?_append_left hi] at hm
      exact h.epoch i m hm
    · rw [List.getElem?_append_right (by omega)] at hm
      obtain ⟨hlt, rfl⟩ := List.getElem?_eq_some_iff.mp hm
      rw [List.length_singleton] at hlt
      simp only [List.getElem_singleton]
      omega
  · intro i m m' hm hm'
    by_cases hi : i + 1 < manifests.length
    · rw [List.getElem?_append_left (by omega)] at hm
      rw [List.getElem?_append_left hi] at hm'
      exact h.replaced i m m' hm hm'
    · rw [List.getElem?_append_right (by omega)] at hm'
      obtain ⟨hlt, rfl⟩ := List.getElem?_eq_some_iff.mp hm'
      rw [List.length_singleton] at hlt
      simp only [List.getElem_singleton]
      refine hreplaced m ?_
      rw [List.getElem?_append_left (by omega)] at hm
      rw [List.getLast?_eq_getElem?, ← hm]
      congr 1
      omega

/-- A manifest that may be stored is in the chain, or it is the next one. -/
theorem ManifestChain.of_place
    (h : ManifestChain crate sponge proposal manifests)
    (hplace : checkManifestPlace crate sponge proposal manifests manifest = .ok ()) :
    manifest ∈ manifests ∨ ManifestChain crate sponge proposal (manifests ++ [manifest]) := by
  unfold checkManifestPlace at hplace
  cases hfind : manifests.find? (fun m => m.replacementEpoch == manifest.replacementEpoch) with
  | some sameEpoch =>
      rw [hfind] at hplace
      have heq : sameEpoch = manifest := by
        simpa using hplace
      exact Or.inl (heq ▸ List.mem_of_find?_eq_some hfind)
  | none =>
      refine Or.inr ?_
      rw [hfind] at hplace
      simp only [] at hplace
      have hfresh : ∀ m ∈ manifests, m.replacementEpoch ≠ manifest.replacementEpoch := by
        intro m hm
        simpa using List.find?_eq_none.mp hfind m hm
      split_ifs at hplace with hzero
      · have hempty : manifests = [] := by
          simpa using hplace
        subst hempty
        refine h.concat ?_ (fun last hlast => by cases hlast)
        rw [hzero]
        rfl
      · simp only [except_bind_eq_ok_iff, okOr_eq_ok_iff, mapError_eq_ok_iff, require_eq_ok_iff,
          decide_eq_true_eq] at hplace
        obtain ⟨previous, hprevious, expected, hreplacement, rfl⟩ := hplace
        have hnext : previous.replacementEpoch + 1 = expected.replacementEpoch := by
          simpa using List.find?_some hprevious
        obtain ⟨i, hi⟩ := List.mem_iff_getElem?.mp (List.mem_of_find?_eq_some hprevious)
        have hlt := (List.getElem?_eq_some_iff.mp hi).1
        have hepoch : expected.replacementEpoch.toNat = i + 1 := by
          rw [← hnext, UInt32.toNat_add, h.epoch i previous hi]
          have hone : (1 : UInt32).toNat = 1 := rfl
          have hbound := previous.replacementEpoch.toNat_lt
          rw [h.epoch i previous hi] at hbound
          have hroom : i + 1 ≠ 2 ^ 32 := by
            intro hwrap
            refine hzero ?_
            rw [← UInt32.toNat_inj, ← hnext, UInt32.toNat_add, h.epoch i previous hi, hone, hwrap]
            rfl
          rw [hone, Nat.mod_eq_of_lt (by omega)]
        -- no manifest of the chain has the epoch, so the previous one is the last
        have hlast : i + 1 = manifests.length := by
          by_contra hne
          have hlt' : i + 1 < manifests.length := by omega
          refine hfresh _ (List.getElem_mem hlt') ?_
          rw [← UInt32.toNat_inj, hepoch]
          exact h.epoch (i + 1) _ (List.getElem?_eq_getElem hlt')
        refine h.concat (hepoch.trans hlast) ?_
        intro last hlast'
        have hsame : last = previous := by
          rw [List.getLast?_eq_getElem?] at hlast'
          have hindex : manifests.length - 1 = i := by omega
          rw [hindex, hi] at hlast'
          exact (Option.some.inj hlast').symm
        rw [hsame]
        exact hreplacement

end Chain

section Loading

variable {pool pool' : List (ParticipantCommitment K)}

/-- The name of the file of a manifest. -/
def Manifest.fileName (crate : GossipCrate K S R X) (m : Manifest K) : UInt32 × Bytes 32 :=
  (m.replacementEpoch, m.manifestId crate.toBitcoinCrate)

/-- A manifest in a file, rebuilt from a pool. -/
def readPoolManifest
    (crate : GossipCrate K S R X)
    (sponge : Sponge)
    (proposal : Proposal K)
    (pool : List (ParticipantCommitment K)) : List UInt8 → Except GossipError (Manifest K) :=
  readBounded (Manifest.fromWirePool crate.toBitcoinCrate sponge proposal pool)

theorem readPoolManifest_of_extends
    (h : Manifest.PoolExtends crate.toBitcoinCrate pool pool')
    {bytes : List UInt8}
    (hread : readPoolManifest crate sponge proposal pool bytes = .ok manifest) :
    readPoolManifest crate sponge proposal pool' bytes = .ok manifest := by
  obtain ⟨hlength, hparse⟩ := readBounded_eq_ok_iff.mp hread
  exact readBounded_eq_ok_iff.mpr ⟨hlength, Manifest.fromWirePool_of_extends h hparse⟩

theorem readManifest_eq_ok_iff
    {file : (UInt32 × Bytes 32) × List UInt8} :
    readManifest crate sponge proposal pool file = .ok manifest ↔
      readPoolManifest crate sponge proposal pool file.2 = .ok manifest := by
  rw [readPoolManifest, readBounded_eq_ok_iff]
  simp only [readManifest, except_bind_eq_ok_iff, readLimited_eq_ok_iff, mapError_eq_ok_iff]
  constructor
  · rintro ⟨_, ⟨hlength, rfl⟩, hparse⟩
    exact ⟨hlength, hparse⟩
  · rintro ⟨hlength, hparse⟩
    exact ⟨file.2, ⟨hlength, rfl⟩, hparse⟩

/-- The manifests that are read back are the chain. -/
theorem loadManifests_of_holds
    {s : Session K X}
    (hholds : s.root.manifests.Holds (readPoolManifest crate sponge proposal pool)
      (Manifest.fileName crate) manifests)
    (hchain : ManifestChain crate sponge proposal manifests) :
    s.loadManifests crate sponge (some proposal) pool = .ok manifests := by
  obtain ⟨read, hread, hperm⟩ := hholds.mapM_listing manifestNameLe
  have hfiles : (s.root.manifests.listing manifestNameLe).mapM
      (readManifest crate sponge proposal pool) = .ok read := by
    rw [mapM_eq_ok_iff] at hread ⊢
    exact hread.imp (fun _ _ h => readManifest_eq_ok_iff.mpr h)
  unfold Session.loadManifests
  simp only [except_bind_eq_ok_iff, pure, Except.pure, Except.ok.injEq]
  refine ⟨read, hfiles, (), ?_, hchain.sortByEpoch_eq hperm⟩
  rw [hchain.sortByEpoch_eq hperm]
  exact hchain.checkEpochs

end Loading

end OpenCsv
