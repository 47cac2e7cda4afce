import OpenCsv.Cbf.FullScan
import OpenCsv.Cbf.Verified

/-!
# The scan index over changing header chains

The client's header chain may grow, lose blocks or be replaced between two syncs, and
filters and blocks may fail to arrive at any point of a sync.  A block hash determines
its ancestors; what a peer serves for a hash is only known to have the Merkle root of its
header.

**Results.**
* `ScanIndex.Lineage`: the index lists the hashes of linked blocks and the anchors of
  those whose filter matches, in order.
* `scanSync_lineage`: after any sync, failed ones included, these blocks are on the
  client's current header chain.
-/

namespace OpenCsv

/-- Where headers, filters and blocks come from. -/
structure BlockTree where
  parent : Bytes 32 → Bytes 32
  /-- The filter of a block. -/
  filter : Bytes 32 → List UInt8 → Bool
  /-- What peers may send for a hash. -/
  serves : Bytes 32 → Block → Prop

/-- The filter matches one of the watched scripts. -/
def BlockTree.marked (tree : BlockTree) (blockHash : Bytes 32) : Bool :=
  tree.filter blockHash markerSpk || tree.filter blockHash legacyMarkerSpk

/-- A client whose headers are a chain of the tree; filters and blocks may fail. -/
structure ClientView.Shows
    (tree : BlockTree)
    (view : ClientView)
    (chain : UInt64 → Bytes 32) : Prop where
  headers : ∀ height, view.blockHash height =
    if height ≤ view.tipHeight then some (chain height) else none
  linked : ∀ height < view.tipHeight, tree.parent (chain (height + 1)) = chain height
  filter : ∀ height spk answer, view.filterMatches height spk = some answer →
    answer = tree.filter (chain height) spk
  block : ∀ blockHash block, view.fetchBlock blockHash = some block → tree.serves blockHash block

/-- A height that was checked, with the block if its filter matched. -/
structure CheckedBlock where
  blockHash : Bytes 32
  block : Option Block

/-- The anchors of checked blocks, the first one at `height`. -/
def anchorsFrom (sha256 : Sha256) (height : UInt64) : List CheckedBlock → List ScannedAnchor
  | [] => []
  | checked :: rest =>
      (checked.block.elim [] (fun block => anchorsInBlock sha256 block height)) ++
        anchorsFrom sha256 (height + 1) rest

/-- The block was read exactly if its filter matches, and it has the root of its header. -/
def CheckedBlock.Genuine (sha256 : Sha256) (tree : BlockTree) (checked : CheckedBlock) : Prop :=
  match checked.block with
  | none => tree.marked checked.blockHash = false
  | some block => tree.marked checked.blockHash = true ∧
      tree.serves checked.blockHash block ∧ block.MerkleVerified sha256

/-- The blocks are those of a header chain, the first one at `height`. -/
def OnChain (chain : UInt64 → Bytes 32) (height : UInt64) (blocks : List CheckedBlock) : Prop :=
  ∀ i checked, blocks[i]? = some checked → checked.blockHash = chain (height + UInt64.ofNat i)

namespace ScanIndex

section Invariant

variable (sha256 : Sha256)
variable (tree : BlockTree)

/-- The index is what checking these blocks, one after the other, gives. -/
structure Lineage (index : ScanIndex) (blocks : List CheckedBlock) : Prop where
  hashes : index.chainHashes = blocks.map CheckedBlock.blockHash
  occurrences : index.occurrences = anchorsFrom sha256 index.fromHeight blocks
  tip : index.fromHeight ≠ 0 → index.syncedTip.toNat + 1 = index.fromHeight.toNat + blocks.length
  bounded : index.syncedTip.toNat + 1 < 2 ^ 64
  unstarted : index.fromHeight = 0 → blocks = []
  linked : blocks.IsChain (fun a b => tree.parent b.blockHash = a.blockHash)
  genuine : ∀ checked ∈ blocks, checked.Genuine sha256 tree

/-- Syncs against clients that show chains of one tree. -/
def treeSystem : System ScanIndex (ClientView × UInt64) where
  init := fun index => index = fresh
  step := fun index call index' =>
    (∃ chain, call.1.Shows tree chain) ∧ index' = (index.scanSync sha256 call.1 call.2).1

end Invariant

section Anchors

variable {sha256 : Sha256}

/-- Anchors of checked blocks lie at the heights of these blocks. -/
theorem height_of_mem_anchorsFrom
    {height : UInt64}
    {blocks : List CheckedBlock}
    (hfits : height.toNat + blocks.length ≤ 2 ^ 64)
    {e : ScannedAnchor}
    (he : e ∈ anchorsFrom sha256 height blocks) :
    height.toNat ≤ e.location.height.toNat ∧
      e.location.height.toNat < height.toNat + blocks.length := by
  induction blocks generalizing height with
  | nil =>
      cases he
  | cons checked blocks ih =>
      rw [List.length_cons] at hfits ⊢
      rcases List.mem_append.mp he with he | he
      · have hheight : e.location.height = height := by
          cases hblock : checked.block with
          | none =>
              rw [hblock] at he
              cases he
          | some block =>
              rw [hblock] at he
              obtain ⟨t, ht, hcandidate⟩ := List.mem_flatMap.mp he
              rw [(AnchorTx.mem_candidates hcandidate).1]
              exact ((anchorTxs_spec block height).2 t ht).1
        rw [hheight]
        omega
      · have hlength : 0 < blocks.length := by
          cases blocks with
          | nil => cases he
          | cons b bs => simp
        have hnext : (height + 1).toNat = height.toNat + 1 := by
          rw [UInt64.toNat_add]
          exact Nat.mod_eq_of_lt (by simp; omega)
        have h := ih (by omega) he
        omega

theorem anchorsFrom_append_singleton
    (height : UInt64)
    (blocks : List CheckedBlock)
    (checked : CheckedBlock) :
    anchorsFrom sha256 height (blocks ++ [checked]) =
      anchorsFrom sha256 height blocks ++
        checked.block.elim [] (fun block =>
          anchorsInBlock sha256 block (height + UInt64.ofNat blocks.length)) := by
  induction blocks generalizing height with
  | nil =>
      simp [anchorsFrom]
  | cons first blocks ih =>
      rw [List.cons_append, anchorsFrom, ih, anchorsFrom, List.append_assoc, succ_add_ofNat]
      rfl

/-- Dropping the anchors above a height drops the blocks above it. -/
theorem filter_anchorsFrom
    {height : UInt64}
    {blocks : List CheckedBlock}
    (hfits : height.toNat + blocks.length ≤ 2 ^ 64)
    {ancestor : UInt64}
    {k : ℕ}
    (hk : ancestor.toNat + 1 = height.toNat + k) :
    (anchorsFrom sha256 height blocks).filter (fun e => e.location.height ≤ ancestor) =
      anchorsFrom sha256 height (blocks.take k) := by
  induction blocks generalizing height k with
  | nil =>
      rw [List.take_nil]
      rfl
  | cons checked blocks ih =>
      rw [List.length_cons] at hfits
      cases k with
      | zero =>
          rw [List.take_zero]
          show List.filter _ _ = []
          rw [List.filter_eq_nil_iff]
          intro e he
          have hlower := (height_of_mem_anchorsFrom (by rw [List.length_cons]; omega) he).1
          rw [decide_eq_true_eq, UInt64.le_iff_toNat_le]
          omega
      | succ k =>
          have hfirst : (checked.block.elim [] (fun block => anchorsInBlock sha256 block height)).filter
              (fun e => decide (e.location.height ≤ ancestor)) =
                checked.block.elim [] (fun block => anchorsInBlock sha256 block height) := by
            rw [List.filter_eq_self]
            intro e he
            have hmem : e ∈ anchorsFrom sha256 height [checked] := by
              rw [anchorsFrom]
              exact List.mem_append_left _ he
            have hupper := (height_of_mem_anchorsFrom (by simp; omega) hmem).2
            rw [List.length_singleton] at hupper
            rw [decide_eq_true_eq, UInt64.le_iff_toNat_le]
            omega
          rw [anchorsFrom, List.filter_append, hfirst, List.take_succ_cons, anchorsFrom]
          by_cases hlast : height.toNat + 1 < 2 ^ 64
          · have hnext : (height + 1).toNat = height.toNat + 1 := by
              rw [UInt64.toNat_add]
              exact Nat.mod_eq_of_lt hlast
            have hk' : ancestor.toNat + 1 = (height + 1).toNat + k := by
              omega
            rw [ih (by omega) hk']
          · have hnil : blocks = [] := by
              refine List.length_eq_zero_iff.mp ?_
              omega
            rw [hnil, List.take_nil]
            rfl

end Anchors

section Reconciling

variable {sha256 : Sha256}
variable {tree : BlockTree}
variable {index : ScanIndex}
variable {blocks : List CheckedBlock}
variable {view : ClientView}
variable {chain : UInt64 → Bytes 32}

theorem fresh_lineage :
    fresh.Lineage sha256 tree [] where
  hashes := rfl
  occurrences := rfl
  tip := fun h => absurd rfl h
  bounded := by decide
  unstarted := fun _ => rfl
  linked := List.isChain_nil
  genuine := by simp

/-- Heights of a lineage do not wrap around. -/
theorem Lineage.fits
    (h : index.Lineage sha256 tree blocks) :
    index.fromHeight.toNat + blocks.length ≤ 2 ^ 64 := by
  by_cases hzero : index.fromHeight = 0
  · rw [h.unstarted hzero, hzero]
    decide
  · have htip := h.tip hzero
    have hlt := index.syncedTip.toNat_lt
    omega

theorem Lineage.start
    (h : index.Lineage sha256 tree blocks)
    (fromHeight : UInt64) :
    (index.start fromHeight).Lineage sha256 tree blocks ∧
      (index.start fromHeight).fromHeight ≠ 0 := by
  unfold ScanIndex.start
  split_ifs with hzero
  · have hmax : 1 ≤ (max fromHeight 1).toNat := by
      rw [toNat_max]
      exact le_max_right _ _
    have hne : max fromHeight 1 ≠ 0 := by
      intro hcontra
      rw [hcontra] at hmax
      simp at hmax
    have hle : (1 : UInt64) ≤ max fromHeight 1 := UInt64.le_iff_toNat_le.mpr hmax
    have hpred : (pred (max fromHeight 1)).toNat + 1 = (max fromHeight 1).toNat := by
      rw [pred, if_neg hne, UInt64.toNat_sub_of_le _ _ hle]
      exact Nat.sub_add_cancel hmax
    obtain rfl := h.unstarted hzero
    refine ⟨⟨h.hashes, h.occurrences, ?_, ?_, fun _ => rfl, h.linked, h.genuine⟩, hne⟩
    · intro _
      exact hpred
    · show (pred (max fromHeight 1)).toNat + 1 < 2 ^ 64
      rw [hpred]
      exact UInt64.toNat_lt _
  · exact ⟨h, hzero⟩

/-- Blocks that meet a header chain at some height are on it from there down. -/
theorem onChain_take
    {height : UInt64}
    (hview : view.Shows tree chain)
    (hlinked : blocks.IsChain (fun a b => tree.parent b.blockHash = a.blockHash))
    {k : ℕ}
    {checked : CheckedBlock}
    (hget : blocks[k]? = some checked)
    (hmeets : checked.blockHash = chain (height + UInt64.ofNat k))
    (hle : height.toNat + k ≤ view.tipHeight.toNat) :
    OnChain chain height (blocks.take (k + 1)) := by
  induction k generalizing checked with
  | zero =>
      intro i checked' hi
      obtain ⟨hlt, -⟩ := List.getElem?_eq_some_iff.mp hi
      rw [List.length_take] at hlt
      obtain rfl : i = 0 := by
        omega
      rw [List.getElem?_take_of_lt (by omega), hget] at hi
      obtain rfl := Option.some.inj hi
      exact hmeets
  | succ k ih =>
      obtain ⟨hlt, hchecked⟩ := List.getElem?_eq_some_iff.mp hget
      have hbelow : blocks[k]? = some blocks[k] := List.getElem?_eq_getElem (by omega)
      have hparent : tree.parent checked.blockHash = blocks[k].blockHash := by
        have h := List.isChain_iff_getElem.mp hlinked k (by omega)
        rwa [hchecked] at h
      have htip := view.tip_lt
      have hlast : (height + UInt64.ofNat k).toNat = height.toNat + k := by
        rw [UInt64.toNat_add, UInt64.toNat_ofNat']
        omega
      have hmeets' : blocks[k].blockHash = chain (height + UInt64.ofNat k) := by
        rw [← hparent, hmeets, ← add_ofNat_succ]
        refine hview.linked _ ?_
        rw [UInt64.lt_iff_toNat_lt]
        omega
      have hbelow' := ih hbelow hmeets' (by omega)
      intro i checked' hi
      by_cases hik : i = k + 1
      · subst hik
        rw [List.getElem?_take_of_lt (by omega), hget] at hi
        obtain rfl := Option.some.inj hi
        exact hmeets
      · obtain ⟨hlt', -⟩ := List.getElem?_eq_some_iff.mp hi
        rw [List.length_take] at hlt'
        refine hbelow' i checked' ?_
        rw [List.getElem?_take_of_lt (by omega)] at hi ⊢
        exact hi

/-- The walk back ends at a stored block of the header chain, or below all of them. -/
theorem commonAncestor_eq
    (h : index.Lineage sha256 tree blocks)
    (hview : view.Shows tree chain)
    {offset : ℕ}
    (hoffset : offset ≤ blocks.length)
    (hle : index.fromHeight.toNat + offset ≤ view.tipHeight.toNat + 1) :
    index.commonAncestor view.blockHash offset = .ok none ∨
      ∃ k checked, k < offset ∧ blocks[k]? = some checked ∧
        checked.blockHash = chain (index.fromHeight + UInt64.ofNat k) ∧
        index.commonAncestor view.blockHash offset =
          .ok (some (index.fromHeight + UInt64.ofNat k)) := by
  induction offset with
  | zero =>
      exact Or.inl rfl
  | succ offset ih =>
      have hlt : offset < blocks.length := hoffset
      have hstored : index.chainHashes[offset]? = some blocks[offset].blockHash := by
        rw [h.hashes, List.getElem?_map, List.getElem?_eq_getElem hlt]
        rfl
      have htip := view.tip_lt
      have hheight : (index.fromHeight + UInt64.ofNat offset).toNat =
          index.fromHeight.toNat + offset := by
        rw [UInt64.toNat_add, UInt64.toNat_ofNat']
        omega
      have hcanonical : view.blockHash (index.fromHeight + UInt64.ofNat offset) =
          some (chain (index.fromHeight + UInt64.ofNat offset)) := by
        rw [hview.headers, if_pos]
        rw [UInt64.le_iff_toNat_le]
        omega
      have hstep : index.commonAncestor view.blockHash (offset + 1) =
          if blocks[offset].blockHash = chain (index.fromHeight + UInt64.ofNat offset) then
            .ok (some (index.fromHeight + UInt64.ofNat offset))
          else
            index.commonAncestor view.blockHash offset := by
        rw [commonAncestor, hstored, hcanonical]
        rfl
      rw [hstep]
      split_ifs with hmeets
      · exact Or.inr ⟨offset, blocks[offset], Nat.lt_succ_self offset,
          List.getElem?_eq_getElem hlt, hmeets, rfl⟩
      · rcases ih (by omega) (by omega) with hnone | ⟨k, checked, hk, hget, hmeets', hsome⟩
        · exact Or.inl hnone
        · exact Or.inr ⟨k, checked, by omega, hget, hmeets', hsome⟩

/-- Dropping what lies above a height keeps the blocks up to it. -/
theorem Lineage.truncate
    (h : index.Lineage sha256 tree blocks)
    (hstarted : index.fromHeight ≠ 0)
    {ancestor : UInt64}
    {k : ℕ}
    (hk : ancestor.toNat + 1 = index.fromHeight.toNat + k)
    (hle : k ≤ blocks.length) :
    (index.truncate ancestor).Lineage sha256 tree (blocks.take k) := by
  have htip := h.tip hstarted
  unfold ScanIndex.truncate
  split_ifs with hlt hbelow
  · have hlt' := UInt64.lt_iff_toNat_lt.mp hbelow
    obtain rfl : k = 0 := by
      omega
    have hbounded := h.bounded
    refine ⟨?_, ?_, ?_, ?_, fun hzero => absurd hzero hstarted, ?_, ?_⟩
    · rfl
    · rw [h.occurrences]
      exact filter_anchorsFrom h.fits hk
    · intro _
      exact hk
    · show ancestor.toNat + 1 < 2 ^ 64
      omega
    · exact List.isChain_nil
    · simp
  · have hge : index.fromHeight ≤ ancestor := UInt64.not_lt.mp hbelow
    have hge' := UInt64.le_iff_toNat_le.mp hge
    have hkeep : (ancestor - index.fromHeight).toNat + 1 = k := by
      rw [UInt64.toNat_sub_of_le _ _ hge]
      omega
    have hbounded := h.bounded
    have hlt' := UInt64.lt_iff_toNat_lt.mp hlt
    refine ⟨?_, ?_, ?_, ?_, fun hzero => absurd hzero hstarted, ?_, ?_⟩
    · show List.take _ index.chainHashes = _
      rw [hkeep, h.hashes, List.map_take]
    · show List.filter _ index.occurrences = _
      rw [h.occurrences]
      exact filter_anchorsFrom h.fits hk
    · intro _
      show ancestor.toNat + 1 = index.fromHeight.toNat + (blocks.take k).length
      rw [List.length_take]
      omega
    · show ancestor.toNat + 1 < 2 ^ 64
      omega
    · exact h.linked.take k
    · intro checked hchecked
      exact h.genuine checked (List.mem_of_mem_take hchecked)
  · have hge := UInt64.le_iff_toNat_le.mp (UInt64.not_lt.mp hlt)
    have hall : blocks.take k = blocks := by
      refine List.take_of_length_le ?_
      omega
    rwa [hall]

/-- After reconciling, what is left of the index is on the header chain. -/
theorem Lineage.reconcile
    (h : index.Lineage sha256 tree blocks)
    (hstarted : index.fromHeight ≠ 0)
    (hview : view.Shows tree chain) :
    ∃ index' blocks', index.reconcileChainView view = .ok index' ∧
      index'.Lineage sha256 tree blocks' ∧ index'.fromHeight = index.fromHeight ∧
      OnChain chain index'.fromHeight blocks' ∧
      (blocks' = [] ∨ index.fromHeight.toNat + blocks'.length ≤ view.tipHeight.toNat + 1) := by
  by_cases hempty : index.chainHashes = []
  · have hnil : blocks = [] := by
      rw [h.hashes] at hempty
      exact List.map_eq_nil_iff.mp hempty
    refine ⟨index, blocks, ?_, h, rfl, ?_, Or.inl hnil⟩
    · rw [reconcileChainView, if_pos hempty]
    · intro i checked hi
      rw [hnil] at hi
      cases hi
  · have htip := h.tip hstarted
    have htip' := view.tip_lt
    have hmin : (min index.syncedTip view.tipHeight).toNat =
        min index.syncedTip.toNat view.tipHeight.toNat := by
      show (if index.syncedTip ≤ view.tipHeight then index.syncedTip else view.tipHeight).toNat = _
      simp only [UInt64.le_iff_toNat_le]
      split_ifs
      · omega
      · omega
    set scanned := if index.fromHeight ≤ min index.syncedTip view.tipHeight then
      (min index.syncedTip view.tipHeight - index.fromHeight).toNat + 1 else 0 with hscanned
    have hbounds : scanned ≤ blocks.length ∧
        (scanned = 0 ∨ index.fromHeight.toNat + scanned ≤ view.tipHeight.toNat + 1) := by
      rw [hscanned]
      split_ifs with hle
      · rw [UInt64.toNat_sub_of_le _ _ hle]
        rw [UInt64.le_iff_toNat_le] at hle
        omega
      · exact ⟨Nat.zero_le _, Or.inl rfl⟩
    have hpositive : 0 < index.fromHeight.toNat := by
      refine Nat.pos_of_ne_zero ?_
      intro hzero
      exact hstarted (UInt64.toNat_inj.mp hzero)
    -- Below all stored blocks the walk ends just under the start height.
    have hpred : (pred index.fromHeight).toNat + 1 = index.fromHeight.toNat + 0 := by
      have hle : (1 : UInt64) ≤ index.fromHeight := UInt64.le_iff_toNat_le.mpr hpositive
      rw [pred, if_neg hstarted, UInt64.toNat_sub_of_le _ _ hle]
      exact Nat.sub_add_cancel hpositive
    have hreconcile : index.reconcileChainView view =
        (index.commonAncestor view.blockHash scanned).map
          (fun ancestor => index.truncate (ancestor.getD (pred index.fromHeight))) := by
      rw [reconcileChainView, if_neg hempty]
      show (index.commonAncestor view.blockHash scanned >>= fun ancestor =>
        pure (index.truncate (ancestor.getD (pred index.fromHeight)))) = _
      cases index.commonAncestor view.blockHash scanned <;> rfl
    have hwalk : index.commonAncestor view.blockHash scanned = .ok none ∨
        ∃ k checked, k < scanned ∧ blocks[k]? = some checked ∧
          checked.blockHash = chain (index.fromHeight + UInt64.ofNat k) ∧
          index.commonAncestor view.blockHash scanned =
            .ok (some (index.fromHeight + UInt64.ofNat k)) := by
      rcases hbounds.2 with hzero | hle
      · rw [hzero]
        exact Or.inl rfl
      · exact commonAncestor_eq h hview hbounds.1 hle
    rcases hwalk with hnone | ⟨k, checked, hk, hget, hmeets, hsome⟩
    · refine ⟨_, _, by rw [hreconcile, hnone]; rfl,
        h.truncate hstarted hpred (Nat.zero_le _), truncate_fromHeight index _, ?_,
        Or.inl (List.take_zero)⟩
      intro i checked hi
      rw [List.take_zero] at hi
      cases hi
    · have hreach : index.fromHeight.toNat + k ≤ view.tipHeight.toNat := by
        rcases hbounds.2 with hzero | hle
        · omega
        · omega
      have hancestor : (index.fromHeight + UInt64.ofNat k).toNat + 1 =
          index.fromHeight.toNat + (k + 1) := by
        rw [UInt64.toNat_add, UInt64.toNat_ofNat']
        omega
      refine ⟨_, _, by rw [hreconcile, hsome]; rfl,
        h.truncate hstarted hancestor (by omega), truncate_fromHeight index _, ?_, Or.inr ?_⟩
      · rw [truncate_fromHeight]
        exact onChain_take hview h.linked hget hmeets hreach
      · rw [List.length_take]
        omega

end Reconciling

section Syncing

variable {sha256 : Sha256}
variable {tree : BlockTree}
variable {index : ScanIndex}
variable {blocks : List CheckedBlock}
variable {view : ClientView}
variable {chain : UInt64 → Bytes 32}

/-- The anchors that checking a height adds are those of a genuine block. -/
theorem scanHeight_genuine
    (hview : view.Shows tree chain)
    {index' : ScanIndex}
    {height : UInt64}
    (hok : scanHeight sha256 view index height = .ok index') :
    ∃ checked : CheckedBlock, checked.blockHash = chain height ∧ checked.Genuine sha256 tree ∧
      index' = { index with
        occurrences := index.occurrences ++
          checked.block.elim [] (fun block => anchorsInBlock sha256 block height)
        chainHashes := index.chainHashes ++ [checked.blockHash]
        syncedTip := height } := by
  simp only [scanHeight, except_bind_eq_ok_iff, okOr_eq_ok_iff, pure, Except.pure,
    Except.ok.injEq] at hok
  obtain ⟨blockHash, hhash, currentMarker, hcurrent, legacyMarker, hlegacy, found, hfound, rfl⟩ :=
    hok
  have hchain : blockHash = chain height := by
    rw [hview.headers] at hhash
    split_ifs at hhash
    exact (Option.some.inj hhash).symm
  have hmarked : tree.marked blockHash = (currentMarker || legacyMarker) := by
    rw [BlockTree.marked, hchain, ← hview.filter _ _ _ hcurrent, ← hview.filter _ _ _ hlegacy]
  cases hmarker : currentMarker || legacyMarker with
  | true =>
      rw [hmarker, cond_true] at hfound
      simp only [fetchAnchors, except_bind_eq_ok_iff, okOr_eq_ok_iff] at hfound
      obtain ⟨block, hfetch, hfound⟩ := hfound
      split_ifs at hfound with hroot
      obtain rfl := Except.ok.inj hfound
      refine ⟨⟨blockHash, some block⟩, hchain, ⟨?_, hview.block _ _ hfetch, ?_⟩, rfl⟩
      · rw [hmarked, hmarker]
      · exact not_not.mp hroot
  | false =>
      rw [hmarker, cond_false] at hfound
      obtain rfl := Except.ok.inj hfound
      refine ⟨⟨blockHash, none⟩, hchain, ?_, rfl⟩
      show tree.marked blockHash = false
      rw [hmarked, hmarker]

/-- The next height continues the chain. -/
theorem Lineage.extend
    (h : index.Lineage sha256 tree blocks)
    (hstarted : index.fromHeight ≠ 0)
    (hview : view.Shows tree chain)
    (hchain : OnChain chain index.fromHeight blocks)
    (hle : index.fromHeight.toNat + blocks.length ≤ view.tipHeight.toNat)
    {checked : CheckedBlock}
    (hmeets : checked.blockHash = chain (index.fromHeight + UInt64.ofNat blocks.length))
    (hgenuine : checked.Genuine sha256 tree) :
    Lineage sha256 tree
      { index with
        occurrences := index.occurrences ++ checked.block.elim [] (fun block =>
          anchorsInBlock sha256 block (index.fromHeight + UInt64.ofNat blocks.length))
        chainHashes := index.chainHashes ++ [checked.blockHash]
        syncedTip := index.fromHeight + UInt64.ofNat blocks.length } (blocks ++ [checked]) ∧
      OnChain chain index.fromHeight (blocks ++ [checked]) := by
  have htip := view.tip_lt
  have hheight : (index.fromHeight + UInt64.ofNat blocks.length).toNat =
      index.fromHeight.toNat + blocks.length := by
    rw [UInt64.toNat_add, UInt64.toNat_ofNat']
    omega
  have hchain' : OnChain chain index.fromHeight (blocks ++ [checked]) := by
    intro i checked' hi
    by_cases hlt : i < blocks.length
    · rw [List.getElem?_append_left hlt] at hi
      exact hchain i checked' hi
    · have hi' := (List.getElem?_eq_some_iff.mp hi).1
      rw [List.length_append, List.length_singleton] at hi'
      obtain rfl : i = blocks.length := by
        omega
      rw [List.getElem?_concat_length] at hi
      obtain rfl := Option.some.inj hi
      exact hmeets
  refine ⟨⟨?_, ?_, ?_, ?_, fun hzero => absurd hzero hstarted, ?_, ?_⟩, hchain'⟩
  · show index.chainHashes ++ _ = _
    rw [h.hashes, List.map_append]
    rfl
  · show index.occurrences ++ _ = _
    rw [h.occurrences, anchorsFrom_append_singleton]
  · intro _
    show (index.fromHeight + UInt64.ofNat blocks.length).toNat + 1 =
      index.fromHeight.toNat + (blocks ++ [checked]).length
    rw [hheight, List.length_append, List.length_singleton]
    omega
  · show (index.fromHeight + UInt64.ofNat blocks.length).toNat + 1 < 2 ^ 64
    rw [hheight]
    omega
  · rw [List.isChain_append]
    refine ⟨h.linked, List.isChain_singleton _, ?_⟩
    intro last hlast first hfirst
    rw [List.head?_cons, Option.mem_some_iff] at hfirst
    subst hfirst
    rw [List.getLast?_eq_getElem?] at hlast
    have hpositive : 0 < blocks.length := by
      refine List.length_pos_of_ne_nil ?_
      rintro rfl
      cases hlast
    obtain ⟨n, hn⟩ := Nat.exists_eq_succ_of_ne_zero hpositive.ne'
    have hbelow : last.blockHash = chain (index.fromHeight + UInt64.ofNat n) := by
      refine hchain n last ?_
      rw [hn] at hlast
      exact hlast
    rw [hmeets, hn, hbelow, Nat.succ_eq_add_one, ← add_ofNat_succ]
    refine hview.linked _ ?_
    rw [UInt64.lt_iff_toNat_lt, UInt64.toNat_add, UInt64.toNat_ofNat']
    omega
  · intro checked' hmem
    rcases List.mem_append.mp hmem with hmem | hmem
    · exact h.genuine checked' hmem
    · rw [List.mem_singleton.mp hmem]
      exact hgenuine

/-- A scan that stops anywhere has checked whole blocks of the header chain. -/
theorem scanHeights_lineage
    (hview : view.Shows tree chain)
    (count : ℕ)
    (h : index.Lineage sha256 tree blocks)
    (hstarted : index.fromHeight ≠ 0)
    (hchain : OnChain chain index.fromHeight blocks)
    (hcount : index.fromHeight.toNat + blocks.length + count ≤ view.tipHeight.toNat + 1) :
    ∃ blocks',
      (scanHeights sha256 view count index
        (index.fromHeight + UInt64.ofNat blocks.length)).1.Lineage sha256 tree blocks' ∧
      OnChain chain (scanHeights sha256 view count index
        (index.fromHeight + UInt64.ofNat blocks.length)).1.fromHeight blocks' := by
  induction count generalizing index blocks with
  | zero =>
      exact ⟨blocks, h, hchain⟩
  | succ count ih =>
      rw [scanHeights]
      cases hscan : scanHeight sha256 view index
          (index.fromHeight + UInt64.ofNat blocks.length) with
      | error e =>
          exact ⟨blocks, h, hchain⟩
      | ok index' =>
          obtain ⟨checked, hmeets, hgenuine, rfl⟩ := scanHeight_genuine hview hscan
          obtain ⟨h', hchain'⟩ := h.extend hstarted hview hchain (by omega) hmeets hgenuine
          have hlength : (blocks ++ [checked]).length = blocks.length + 1 := by
            simp
          have hcount' : index.fromHeight.toNat + (blocks ++ [checked]).length + count ≤
              view.tipHeight.toNat + 1 := by
            rw [hlength]
            omega
          have hrest := ih h' hstarted hchain' hcount'
          rw [hlength, ← add_ofNat_succ] at hrest
          exact hrest

/-- The height after the synced tip is that of the first block not checked. -/
theorem Lineage.nextHeight_eq
    (h : index.Lineage sha256 tree blocks)
    (hstarted : index.fromHeight ≠ 0) :
    max (saturatingAdd index.syncedTip 1) index.fromHeight =
      index.fromHeight + UInt64.ofNat blocks.length := by
  have htip := h.tip hstarted
  have hbounded := h.bounded
  refine UInt64.toNat_inj.mp ?_
  rw [toNat_max, saturatingAdd_one hbounded, UInt64.toNat_add, UInt64.toNat_ofNat']
  omega

/-- A sync leaves a lineage on the client's header chain. -/
theorem Lineage.scanSync
    (h : index.Lineage sha256 tree blocks)
    (hview : view.Shows tree chain)
    (fromHeight : UInt64) :
    ∃ blocks',
      (index.scanSync sha256 view fromHeight).1.Lineage sha256 tree blocks' ∧
      OnChain chain (index.scanSync sha256 view fromHeight).1.fromHeight blocks' := by
  obtain ⟨hstart, hstarted⟩ := h.start fromHeight
  obtain ⟨index', blocks', hreconcile, h', hfrom, hchain, -⟩ := hstart.reconcile hstarted hview
  have hstarted' : index'.fromHeight ≠ 0 := by
    rw [hfrom]
    exact hstarted
  have htip := h'.tip hstarted'
  have hbounded := h'.bounded
  have hlast : (index'.fromHeight + UInt64.ofNat blocks'.length).toNat =
      index'.fromHeight.toNat + blocks'.length := by
    rw [UInt64.toNat_add, UInt64.toNat_ofNat']
    omega
  unfold ScanIndex.scanSync
  simp only [hreconcile]
  rw [h'.nextHeight_eq hstarted']
  by_cases hle : index'.fromHeight + UInt64.ofNat blocks'.length ≤ view.tipHeight
  · rw [if_pos hle]
    refine scanHeights_lineage hview _ h' hstarted' hchain ?_
    rw [UInt64.toNat_sub_of_le _ _ hle, hlast]
    rw [UInt64.le_iff_toNat_le] at hle
    omega
  · rw [if_neg hle]
    exact ⟨blocks', h', hchain⟩

/-- Whatever the syncs were, the index is that of some checked blocks. -/
theorem lineage_of_reachable
    (hreach : (treeSystem sha256 tree).Reachable index) :
    ∃ blocks, index.Lineage sha256 tree blocks := by
  refine @System.Reachable.invariant _ _ _
    (fun index => ∃ blocks, index.Lineage sha256 tree blocks) ?_ ?_ index hreach
  · rintro _ rfl
    exact ⟨[], fresh_lineage⟩
  · rintro index ⟨view, fromHeight⟩ _ ⟨blocks, h⟩ ⟨⟨chain, hview⟩, rfl⟩
    obtain ⟨blocks', h', -⟩ := h.scanSync hview fromHeight
    exact ⟨blocks', h'⟩

/--
After any sync, failed ones included, the index has the hashes of linked blocks on the
client's header chain from its start height to its tip, and the anchors of those whose
filter matches, in height and block order.
-/
theorem scanSync_lineage
    (hreach : (treeSystem sha256 tree).Reachable index)
    (hview : view.Shows tree chain)
    (fromHeight : UInt64) :
    ∃ blocks',
      (index.scanSync sha256 view fromHeight).1.Lineage sha256 tree blocks' ∧
      OnChain chain (index.scanSync sha256 view fromHeight).1.fromHeight blocks' := by
  obtain ⟨blocks, h⟩ := lineage_of_reachable hreach
  exact h.scanSync hview fromHeight

end Syncing

namespace ForkSample

/-- The hash of one byte repeated. -/
def hashOf (b : UInt8) : Bytes 32 := List.Vector.replicate 32 b

/-- Blocks two and three are both built on block one, and only the filter of two matches. -/
def tree : BlockTree where
  parent := fun blockHash => if blockHash = hashOf 1 then hashOf 0 else hashOf 1
  filter := fun blockHash script => blockHash == hashOf 2 && script == markerSpk
  serves := fun _ _ => True

/-- The header chain that ends with a block. -/
def chainTo (last : UInt8) (height : UInt64) : Bytes 32 :=
  if height = 0 then hashOf 0 else if height = 1 then hashOf 1 else hashOf last

/-- A client on that chain; no peer sends it a block. -/
def view (last : UInt8) : ClientView where
  tipHeight := 2
  tip_lt := by decide
  blockHash := fun height => if height ≤ 2 then some (chainTo last height) else none
  filterMatches := fun height spk => some (tree.filter (chainTo last height) spk)
  fetchBlock := fun _ => none

theorem view_shows
    {last : UInt8}
    (h : last ≠ 1) :
    (view last).Shows tree (chainTo last) where
  headers := fun _ => rfl
  linked := by
    intro height hlt
    have hlt' : height.toNat < 2 := UInt64.lt_iff_toNat_lt.mp hlt
    have hne : hashOf last ≠ hashOf 1 := by
      intro heq
      exact h (congrArg List.Vector.head heq)
    have hcases : height = 0 ∨ height = 1 := by
      rw [← UInt64.toNat_inj, ← UInt64.toNat_inj]
      show height.toNat = 0 ∨ height.toNat = 1
      omega
    rcases hcases with rfl | rfl
    · rfl
    · show (if hashOf last = hashOf 1 then hashOf 0 else hashOf 1) = hashOf 1
      rw [if_neg hne]
  filter := by
    intro height spk answer hanswer
    exact (Option.some.inj hanswer).symm
  block := fun _ _ _ => trivial

/-- The index of a sync that failed at block two. -/
def stalled : ScanIndex := (fresh.scanSync Sha2.sha256 (view 2) 1).1

/-- The next sync, after a reorganisation, is on the other branch. -/
theorem fork_followed :
    ∃ blocks,
      (stalled.scanSync Sha2.sha256 (view 3) 1).1.Lineage Sha2.sha256 tree blocks ∧
      OnChain (chainTo 3) (stalled.scanSync Sha2.sha256 (view 3) 1).1.fromHeight blocks := by
  have hreach : (treeSystem Sha2.sha256 tree).Reachable stalled := by
    refine System.Reachable.step (a := (view 2, 1)) (System.Reachable.init rfl) ?_
    exact ⟨⟨chainTo 2, view_shows (by decide)⟩, rfl⟩
  exact scanSync_lineage hreach (view_shows (by decide)) 1

example :
    (stalled.scanSync Sha2.sha256 (view 3) 1).1.chainHashes = [hashOf 1, hashOf 3] := by
  decide +kernel

end ForkSample

end ScanIndex

end OpenCsv
