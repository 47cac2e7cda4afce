import OpenCsv.Cbf.ClientUse
import OpenCsv.Cbf.HonestChain
import OpenCsv.Lib.Sha256

/-!
# Outpoints of an honest chain

A client faces an honest world if it holds the headers of an honest chain and can get its
blocks and exact filters from some peer; others may send filters that fail the check.  Then
each query is answered, and the filters find every block that creates or spends an output
with a script that filters contain.

**Results.**
* `Client.filterMatches_honest`: a query is answered, and what is in the filter is found.
* `Client.verifyOutpointUnspent_iff`: when the client reports an output as unspent.
-/

namespace OpenCsv

open Call

namespace Client

section Worlds

variable (profile : Profile)
variable (sha256 : Sha256)
variable (client : Client)
variable (world : World)

/-- Disk or a peer has these bytes for the filter of a height. -/
def Offered (height : UInt64) (bytes : List UInt8) : Prop :=
  world.cached height = .ok (some bytes) ∨
    ∃ peer ∈ client.peers, ∃ blockHash, world.cfilter peer height.toUInt32 blockHash = .ok bytes

/-- The filter of a block is committed to, a peer has it, and nothing else hashes like it. -/
structure ServesFilter (height : UInt64) (block : Block) (serialized : List UInt8) : Prop where
  committed : client.filterChain.filterHashAt height = some (filterHash sha256 serialized)
  served : ∃ peer ∈ client.peers,
    world.cfilter peer height.toUInt32 (block.header.hash sha256) = .ok serialized
  genuine : ∀ bytes, Offered client world height bytes →
    filterHash sha256 bytes = filterHash sha256 serialized → bytes = serialized

/-- The client holds the headers of a chain, whose blocks and exact filters it can get. -/
structure HonestWorld (blocks : List Block) : Prop where
  headers : client.chain.headers = blocks.map Block.header
  roots : ∀ block ∈ blocks, block.computeMerkleRoot sha256 = some block.header.merkleRoot
  filters : ∀ (height : UInt64) (block : Block), blocks[height.toNat]? = some block →
    ∃ serialized, ExactFilter sha256 profile blocks block serialized ∧
      ServesFilter sha256 client world height block serialized
  saved : world.saved = .ok ()
  served : ∀ block ∈ blocks, ∃ peer ∈ client.peers,
    world.block peer (block.header.hash sha256) = .ok block
  honest : ∀ block ∈ blocks, ∀ peer ∈ client.peers, ∀ block',
    world.block peer (block.header.hash sha256) = .ok block' →
      block'.header.hash sha256 = block.header.hash sha256 → block' = block

end Worlds

section Serving

variable {profile : Profile}
variable {sha256 : Sha256}
variable {network : Network}
variable {client : Client}
variable {world : World}
variable {blocks : List Block}

theorem verifyFilter_eq_ok_iff
    {filters : FilterHeaderChain}
    {height : UInt64}
    {bytes : List UInt8} :
    filters.verifyFilter sha256 height bytes = .ok () ↔
      filters.filterHashAt height = some (filterHash sha256 bytes) := by
  rw [FilterHeaderChain.verifyFilter, except_bind_eq_ok_iff]
  simp only [okOr_eq_ok_iff, require_eq_ok_iff, decide_eq_true_eq]
  constructor
  · rintro ⟨committed, hcommitted, rfl⟩
    exact hcommitted
  · intro hcommitted
    exact ⟨_, hcommitted, rfl⟩

/-- Bytes with the committed hash are the filter. -/
theorem ServesFilter.eq_of_verified
    {height : UInt64}
    {block : Block}
    {serialized bytes : List UInt8}
    (h : ServesFilter sha256 client world height block serialized)
    (hoffered : Offered client world height bytes)
    (hverified : client.filterChain.verifyFilter sha256 height bytes = .ok ()) :
    bytes = serialized := by
  rw [verifyFilter_eq_ok_iff, h.committed] at hverified
  exact h.genuine bytes hoffered (Option.some.inj hverified).symm

/-- The peers are asked until one sends the filter. -/
theorem filterFrom_honest
    {height : UInt64}
    {block : Block}
    {serialized : List UInt8}
    (h : ServesFilter sha256 client world height block serialized)
    (hsaved : world.saved = .ok ())
    {peers : List Peer}
    (hpeers : ∀ peer ∈ peers, peer ∈ client.peers)
    (hserved : ∃ peer ∈ peers,
      world.cfilter peer height.toUInt32 (block.header.hash sha256) = .ok serialized)
    (lastErr : Option CbfError) :
    filterFrom sha256 client world height (block.header.hash sha256) lastErr peers =
      .ok serialized := by
  induction peers generalizing lastErr with
  | nil =>
      obtain ⟨peer, hmem, -⟩ := hserved
      cases hmem
  | cons peer peers ih =>
      obtain ⟨hpeer, hpeers⟩ := List.forall_mem_cons.mp hpeers
      have hverified : client.filterChain.verifyFilter sha256 height serialized = .ok () :=
        verifyFilter_eq_ok_iff.mpr h.committed
      rw [filterFrom]
      cases hanswer : world.cfilter peer height.toUInt32 (block.header.hash sha256) with
      | error e =>
          refine ih hpeers ?_ (some e)
          obtain ⟨server, hmem, hserves⟩ := hserved
          rcases List.mem_cons.mp hmem with rfl | hmem
          · rw [hanswer] at hserves
            cases hserves
          · exact ⟨server, hmem, hserves⟩
      | ok bytes =>
          cases hcheck : client.filterChain.verifyFilter sha256 height bytes with
          | error e =>
              simp only [hcheck]
              refine ih hpeers ?_ (some e)
              obtain ⟨server, hmem, hserves⟩ := hserved
              rcases List.mem_cons.mp hmem with rfl | hmem
              · obtain rfl := Except.ok.inj (hanswer.symm.trans hserves)
                rw [hverified] at hcheck
                cases hcheck
              · exact ⟨server, hmem, hserves⟩
          | ok u =>
              obtain rfl := h.eq_of_verified (Or.inr ⟨peer, hpeer, _, hanswer⟩) hcheck
              simp only [hcheck, hsaved]
              rfl

theorem HonestWorld.hashAt
    (h : HonestWorld profile sha256 client world blocks)
    (hkept : HeaderChain.Kept profile sha256 (params network) client.chain)
    {height : UInt64}
    {block : Block}
    (hblock : blocks[height.toNat]? = some block) :
    client.chain.hashAt height = some (block.header.hash sha256) := by
  rw [HeaderChain.hashAt, hkept.sound.hashes, h.headers, List.getElem?_map, List.getElem?_map,
    hblock]
  rfl

theorem filterAt_honest
    (h : HonestWorld profile sha256 client world blocks)
    (hkept : HeaderChain.Kept profile sha256 (params network) client.chain)
    {height : UInt64}
    {block : Block}
    (hblock : blocks[height.toNat]? = some block)
    {serialized : List UInt8}
    (hserves : ServesFilter sha256 client world height block serialized) :
    filterAt sha256 client world height = .ok serialized := by
  have hfetch : ∀ lastErr, (do
      let blockHash ← okOr (client.chain.hashAt height)
        (.filter (Text.lit "no block at height " ++ Text.ofNat height.toNat))
      filterFrom sha256 client world height blockHash lastErr client.peers) =
        Except.ok serialized := by
    intro lastErr
    rw [h.hashAt hkept hblock]
    exact filterFrom_honest hserves h.saved (fun _ hmem => hmem) hserves.served lastErr
  rw [filterAt]
  cases hcached : world.cached height with
  | error e => exact hfetch (some e)
  | ok cached =>
      cases cached with
      | none => exact hfetch none
      | some bytes =>
          cases hcheck : client.filterChain.verifyFilter sha256 height bytes with
          | error e =>
              simp only [hcheck]
              exact hfetch (some e)
          | ok u =>
              simp only [hcheck]
              rw [hserves.eq_of_verified (Or.inl hcached) hcheck]

/-- A query of the filter of a block is answered, and elements of the block are found. -/
theorem filterMatches_honest
    (h : HonestWorld profile sha256 client world blocks)
    (hkept : HeaderChain.Kept profile sha256 (params network) client.chain)
    {height : UInt64}
    {block : Block}
    (hblock : blocks[height.toNat]? = some block)
    (script : List UInt8) :
    ∃ found, filterMatches profile sha256 client world height script = .ok found ∧
      ∀ elements, block.basicFilterElements (prevoutScripts sha256 blocks block) = .ok elements →
        script ∈ elements → found = true := by
  obtain ⟨serialized, ⟨elements, helements, hcount, hencode⟩, hserves⟩ :=
    h.filters height block hblock
  have hdedup : elements.dedup.length ≤ elements.length := (List.dedup_sublist elements).length_le
  obtain ⟨serialized', w, hencode', hparse, hstream⟩ :=
    parse_encode profile (filterKey (block.header.hash sha256))
      (show elements.dedup.length < 2 ^ 32 by omega)
  obtain rfl := Except.ok.inj (hencode'.symm.trans hencode)
  have hnarrow := narrow_of_length_le (filterKey (block.header.hash sha256))
    (show elements.dedup.length ≤ 2868786956 by omega)
  obtain ⟨found, hmatch, hfound⟩ : ∃ found, GcsFilter.matchesItem profile
      ⟨UInt64.ofNat elements.dedup.length, w.bytes⟩ (filterKey (block.header.hash sha256)) script =
        .ok found ∧ (script ∈ elements → found = true) := by
    rcases matchesItem_parsed profile (filterKey (block.header.hash sha256)) script (by omega)
      hstream with hmatch | ⟨hwide, -⟩
    · exact ⟨_, hmatch, fun hscript => decide_eq_true ⟨script, hscript, rfl⟩⟩
    · exact absurd hnarrow hwide
  refine ⟨found, ?_, ?_⟩
  · rw [filterMatches, filterAt_honest h hkept hblock hserves, h.hashAt hkept hblock]
    show (GcsFilter.parse serialized' >>= fun filter =>
      filter.matchesItem profile (filterKey (block.header.hash sha256)) script) = _
    rw [hparse]
    exact hmatch
  · intro elements' helements' hscript
    obtain rfl := Except.ok.inj (helements'.symm.trans helements)
    exact hfound hscript

/-- The peers are asked until one sends the block. -/
theorem fetchFrom_honest
    (h : HonestWorld profile sha256 client world blocks)
    {block : Block}
    (hblock : block ∈ blocks)
    {peers : List Peer}
    (hpeers : ∀ peer ∈ peers, peer ∈ client.peers)
    (hserved : ∃ peer ∈ peers, world.block peer (block.header.hash sha256) = .ok block)
    (lastErr : Option CbfError) :
    fetchFrom sha256 world (block.header.hash sha256) lastErr peers = .ok block := by
  induction peers generalizing lastErr with
  | nil =>
      obtain ⟨peer, hmem, -⟩ := hserved
      cases hmem
  | cons peer peers ih =>
      obtain ⟨hpeer, hpeers⟩ := List.forall_mem_cons.mp hpeers
      rw [fetchFrom_cons]
      cases hanswer : getBlock sha256 world peer (block.header.hash sha256) with
      | error e =>
          refine ih hpeers ?_ (some e)
          obtain ⟨server, hmem, hserves⟩ := hserved
          rcases List.mem_cons.mp hmem with rfl | hmem
          · rw [getBlock_eq_ok_iff.mpr ⟨hserves, rfl⟩] at hanswer
            cases hanswer
          · exact ⟨server, hmem, hserves⟩
      | ok block' =>
          obtain ⟨hsent, hhash⟩ := getBlock_eq_ok_iff.mp hanswer
          rw [h.honest block hblock peer hpeer block' hsent hhash]

/-- The block of a height is fetched and has the root of its header. -/
theorem verifiedBlock_honest
    (h : HonestWorld profile sha256 client world blocks)
    (hkept : HeaderChain.Kept profile sha256 (params network) client.chain)
    {height : UInt64}
    {block : Block}
    (hblock : blocks[height.toNat]? = some block) :
    verifiedBlock sha256 client world height = .ok block := by
  have hmem : block ∈ blocks := List.mem_of_getElem? hblock
  have hfetch : fetchBlock sha256 client world (block.header.hash sha256) = .ok block :=
    fetchFrom_honest h hmem (fun _ hpeer => hpeer) (h.served block hmem) none
  have hroot : ∀ e : Stop CbfError,
      require (decide (block.header.merkleRoot = block.header.merkleRoot)) e = .ok () :=
    fun e => require_eq_ok_iff.mpr (decide_eq_true rfl)
  rw [verifiedBlock, h.hashAt hkept hblock]
  show (fetchBlock sha256 client world (block.header.hash sha256) >>= fun block => _) = _
  rw [hfetch]
  show (okOr (block.computeMerkleRoot sha256) Stop.panic >>= fun root => _) = _
  rw [h.roots block hmem]
  show (require (decide (block.header.merkleRoot = block.header.merkleRoot)) _ >>= fun _ => _) = _
  rw [hroot]
  rfl

end Serving

section Exactness

variable {profile : Profile}
variable {sha256 : Sha256}
variable {network : Network}
variable {client : Client}
variable {world : World}
variable {blocks : List Block}
variable {expected : ExpectedOutput}

theorem mem_heightsBetween
    {birth tip height : UInt64} :
    height ∈ heightsBetween birth tip ↔ birth ≤ height ∧ height ≤ tip := by
  rw [heightsBetween, List.mem_map, UInt64.le_iff_toNat_le, UInt64.le_iff_toNat_le]
  have htip := tip.toNat_lt
  constructor
  · rintro ⟨i, hi, rfl⟩
    rw [List.mem_range] at hi
    rw [UInt64.toNat_ofNat', Nat.mod_eq_of_lt (by omega)]
    omega
  · rintro ⟨hbirth, hle⟩
    refine ⟨height.toNat - birth.toNat, List.mem_range.mpr (by omega), ?_⟩
    rw [Nat.add_sub_cancel' hbirth, UInt64.ofNat_toNat]

theorem mem_matchedTxs
    {found : UInt64 → Bool}
    {heights : List UInt64}
    {tx : Transaction} :
    tx ∈ matchedTxs blocks found heights ↔
      ∃ height ∈ heights, found height = true ∧
        ∃ block, blocks[height.toNat]? = some block ∧ tx ∈ block.txs := by
  rw [matchedTxs, List.mem_flatMap]
  refine exists_congr (fun height => and_congr_right (fun _ => ?_))
  cases hfound : found height with
  | false => simp
  | true =>
      cases hblock : blocks[height.toNat]? with
      | none => simp
      | some block => simp

/-- Filters that match are those of blocks that create or spend the output, at least. -/
structure FindsOutput (sha256 : Sha256) (expected : ExpectedOutput) (blocks : List Block)
    (found : UInt64 → Bool) : Prop where
  created : ∀ (height : UInt64) (block : Block), blocks[height.toNat]? = some block →
    (∃ tx ∈ block.txs, tx.hasOutput expected = true) → found height = true
  spent : ∀ (height : UInt64) (block : Block), blocks[height.toNat]? = some block →
    (∃ tx ∈ block.txs.tail, tx.spends expected = true) →
      (∃ tx ∈ chainTxs blocks, tx.txid sha256 = expected.outpoint.txid ∧
        tx.hasOutput expected = true) → found height = true

theorem toNat_of_block
    {tip : UInt64}
    (htip : tip.toNat + 1 = blocks.length)
    {height : ℕ}
    {block : Block}
    (hblock : blocks[height]? = some block) :
    (UInt64.ofNat height).toNat = height ∧ UInt64.ofNat height ≤ tip := by
  have htipLt := tip.toNat_lt
  have hlt := (List.getElem?_eq_some_iff.mp hblock).1
  have hvalue : (UInt64.ofNat height).toNat = height := by
    rw [UInt64.toNat_ofNat', Nat.mod_eq_of_lt (by omega)]
  exact ⟨hvalue, UInt64.le_iff_toNat_le.mpr (by rw [hvalue]; omega)⟩

/-- If the blocks that match create the output and do not spend it, it is unspent. -/
theorem createdUnspent_of_quiet
    (hchain : HonestChain sha256 blocks)
    {found : UInt64 → Bool}
    (hfinds : FindsOutput sha256 expected blocks found)
    {birth tip : UInt64}
    (htip : tip.toNat + 1 = blocks.length)
    (hquiet : ∀ tx ∈ matchedTxs blocks found (heightsBetween birth tip), tx.Quiet sha256 expected)
    (hcreates : Creates sha256 expected (matchedTxs blocks found (heightsBetween birth tip))) :
    CreatedUnspent sha256 expected blocks birth.toNat := by
  obtain ⟨tx, hmem, hid⟩ := hcreates
  have houtput := (hquiet tx hmem).1 hid
  obtain ⟨created, hcreated, hfound, block, hblock, htx⟩ := mem_matchedTxs.mp hmem
  obtain ⟨hbirth, -⟩ := mem_heightsBetween.mp hcreated
  have hblockMem : block ∈ blocks := List.mem_of_getElem? hblock
  refine ⟨created.toNat, UInt64.le_iff_toNat_le.mp hbirth, ⟨block, hblock, tx, htx, hid, houtput⟩,
    ?_⟩
  intro height block' hle hblock' tx' htx'
  rw [← Bool.not_eq_true]
  intro hspends
  rcases hchain.coinbase_or_mem_tail (List.mem_of_getElem? hblock') htx' with hcoin | htail
  · -- then the coinbase of the block that creates the output spends it
    obtain ⟨tx'', htx'', hspends''⟩ := hchain.coinbase_spends hcoin hspends hblockMem
    have hmem'' := mem_matchedTxs.mpr ⟨created, hcreated, hfound, block, hblock, htx''⟩
    rw [(hquiet tx'' hmem'').2] at hspends''
    cases hspends''
  · -- the filter of the block that spends the output has its script
    obtain ⟨hvalue, hheightTip⟩ := toNat_of_block htip hblock'
    rw [← hvalue] at hblock'
    have hfound' : found (UInt64.ofNat height) = true :=
      hfinds.spent _ block' hblock' ⟨tx', htail, hspends⟩
        ⟨tx, List.mem_flatMap.mpr ⟨block, hblockMem, htx⟩, hid, houtput⟩
    have hbetween : UInt64.ofNat height ∈ heightsBetween birth tip := by
      refine mem_heightsBetween.mpr ⟨?_, hheightTip⟩
      rw [UInt64.le_iff_toNat_le] at hbirth ⊢
      rw [hvalue]
      exact hbirth.trans hle
    have hmem' := mem_matchedTxs.mpr ⟨_, hbetween, hfound', block', hblock', htx'⟩
    rw [(hquiet tx' hmem').2] at hspends
    cases hspends

/-- If the output is unspent, the blocks that match create it and do not spend it. -/
theorem quiet_of_createdUnspent
    (hchain : HonestChain sha256 blocks)
    {found : UInt64 → Bool}
    (hfinds : FindsOutput sha256 expected blocks found)
    {birth tip : UInt64}
    (htip : tip.toNat + 1 = blocks.length)
    (h : CreatedUnspent sha256 expected blocks birth.toNat) :
    (∀ tx ∈ matchedTxs blocks found (heightsBetween birth tip), tx.Quiet sha256 expected) ∧
      Creates sha256 expected (matchedTxs blocks found (heightsBetween birth tip)) := by
  obtain ⟨created, hbirth, ⟨block, hblock, tx, htx, hid, houtput⟩, hunspent⟩ := h
  have hblockMem : block ∈ blocks := List.mem_of_getElem? hblock
  constructor
  · intro tx' hmem'
    obtain ⟨height, -, -, block', hblock', htx'⟩ := mem_matchedTxs.mp hmem'
    constructor
    · intro hid'
      obtain ⟨-, rfl⟩ := hchain.unique hblock' hblock htx' htx (hid'.trans hid.symm)
      exact houtput
    · by_cases hle : created ≤ height.toNat
      · exact hunspent height.toNat block' hle hblock' tx' htx'
      · -- before its creation an output is not spent
        rw [← Bool.not_eq_true]
        intro hspends
        rcases hchain.coinbase_or_mem_tail (List.mem_of_getElem? hblock') htx' with hcoin | htail
        · obtain ⟨tx'', htx'', hspends''⟩ := hchain.coinbase_spends hcoin hspends hblockMem
          rw [hunspent created block le_rfl hblock tx'' htx''] at hspends''
          cases hspends''
        · obtain ⟨earlier, hearlier, block'', hblock'', tx'', htx'', hid''⟩ :=
            hchain.created_before hblock' htail hspends
          have hsame := (hchain.unique hblock'' hblock htx'' htx (hid''.trans hid.symm)).1
          omega
  · obtain ⟨hvalue, hcreatedTip⟩ := toNat_of_block htip hblock
    rw [← hvalue] at hbirth hblock
    have hfound : found (UInt64.ofNat created) = true :=
      hfinds.created _ block hblock ⟨tx, htx, houtput⟩
    have hbetween := mem_heightsBetween.mpr ⟨UInt64.le_iff_toNat_le.mpr hbirth, hcreatedTip⟩
    exact ⟨tx, mem_matchedTxs.mpr ⟨_, hbetween, hfound, block, hblock, htx⟩, hid⟩

/-- The answer to the query of a filter; without an answer nothing is found. -/
def foundAt (profile : Profile) (sha256 : Sha256) (client : Client) (world : World)
    (script : List UInt8) (height : UInt64) : Bool :=
  match filterMatches profile sha256 client world height script with
  | .ok found => found
  | .error _ => false

theorem answersAt_honest
    (h : HonestWorld profile sha256 client world blocks)
    (hkept : HeaderChain.Kept profile sha256 (params network) client.chain)
    {height : UInt64}
    {block : Block}
    (hblock : blocks[height.toNat]? = some block)
    (script : List UInt8) :
    AnswersAt profile sha256 client world script blocks
      (foundAt profile sha256 client world script) height := by
  obtain ⟨found, hfilter, -⟩ := filterMatches_honest h hkept hblock script
  refine ⟨?_, fun _ => ⟨block, hblock, verifiedBlock_honest h hkept hblock⟩⟩
  rw [foundAt, hfilter]

/-- What the exact filter of a block contains is found. -/
theorem foundAt_of_mem
    (h : HonestWorld profile sha256 client world blocks)
    (hkept : HeaderChain.Kept profile sha256 (params network) client.chain)
    {height : UInt64}
    {block : Block}
    (hblock : blocks[height.toNat]? = some block)
    {script : List UInt8}
    (hscript : ∀ elements, block.basicFilterElements (prevoutScripts sha256 blocks block) =
      .ok elements → script ∈ elements) :
    foundAt profile sha256 client world script height = true := by
  obtain ⟨found, hfilter, hfound⟩ := filterMatches_honest h hkept hblock script
  obtain ⟨serialized, ⟨elements, helements, -, -⟩, -⟩ := h.filters height block hblock
  rw [foundAt, hfilter]
  exact hfound elements helements (hscript elements helements)

theorem output_of_hasOutput
    {tx : Transaction}
    (h : tx.hasOutput expected = true) :
    ∃ output, tx.outputs[expected.outpoint.vout.toNat]? = some output ∧
      output.value = expected.value ∧ output.scriptPubkey = expected.script := by
  rw [Transaction.hasOutput] at h
  split at h
  · rename_i output houtput
    exact ⟨output, houtput, of_decide_eq_true h⟩
  · cases h

/-- The filters of an honest chain find the blocks that matter. -/
theorem findsOutput_honest
    (hchain : HonestChain sha256 blocks)
    (h : HonestWorld profile sha256 client world blocks)
    (hkept : HeaderChain.Kept profile sha256 (params network) client.chain)
    (hscript : Filterable expected.script) :
    FindsOutput sha256 expected blocks
      (foundAt profile sha256 client world expected.script) := by
  constructor
  · rintro height block hblock ⟨tx, htx, hhas⟩
    refine foundAt_of_mem h hkept hblock (fun elements helements => ?_)
    obtain ⟨output, houtput, -, hsame⟩ := output_of_hasOutput hhas
    rw [← hsame] at hscript ⊢
    obtain ⟨index, hindex⟩ := List.mem_iff_getElem?.mp htx
    exact mem_filterElements helements (List.mem_zipIdx_iff_getElem?.mpr hindex)
      (mem_filterOutputs (List.mem_of_getElem? houtput) hscript)
  · rintro height block hblock ⟨tx, htx, hspends⟩ ⟨creator, hcreator, hid, hhas⟩
    refine foundAt_of_mem h hkept hblock (fun elements helements => ?_)
    obtain ⟨input, hinput, hprev⟩ := List.any_eq_true.mp hspends
    obtain ⟨output, houtput, -, hsame⟩ := output_of_hasOutput hhas
    have hspent : spentScript sha256 (chainTxs blocks) input = expected.script := by
      rw [spentScript, of_decide_eq_true hprev, hchain.outputOf_eq hcreator hid, houtput]
      exact hsame
    obtain ⟨coinbase, rest, htxs, -⟩ := hchain.coinbase block (List.mem_of_getElem? hblock)
    rw [Block.basicFilterElements, prevoutScripts, htxs, List.zipIdx_cons, List.tail_cons,
      filterElements, if_pos rfl] at helements
    rw [htxs, List.tail_cons] at htx
    obtain ⟨later, hlater, hout⟩ := except_bind_eq_ok_iff.mp helements
    obtain rfl := Except.ok.inj hout
    rw [← hspent] at hscript ⊢
    exact List.mem_append_right _
      (mem_filterElements_spent (Nat.succ_ne_zero 0) hlater htx hinput hscript.1)

/-- The verification comes to an answer if its scan does, past the checks. -/
theorem verifyOutpointUnspent_eq_ok_iff
    {birthHeight maxBlocks : UInt64}
    {verdict : OutpointVerdict} :
    verifyOutpointUnspent profile sha256 client world expected birthHeight maxBlocks =
        .ok verdict ↔
      birthHeight ≠ 0 ∧ ∃ tip, client.chain.tipHeight = some tip ∧ birthHeight ≤ tip ∧
        ¬ (maxBlocks = 0 ∨ tip - birthHeight + 1 > maxBlocks) ∧
          outpointFrom profile sha256 client world expected birthHeight tip
            (heightsBetween birthHeight tip) none 0 = .ok verdict := by
  simp only [verifyOutpointUnspent, except_bind_eq_ok_iff, require_eq_ok_iff, okOr_eq_ok_iff,
    decide_eq_true_eq, exists_and_left, exists_const]

/-- The window fits if the blocks from the birth height on are as few as asked for. -/
theorem windowFits_iff
    {birthHeight tip maxBlocks : UInt64}
    (hbirth : birthHeight ≠ 0)
    (hle : birthHeight ≤ tip) :
    ¬ (maxBlocks = 0 ∨ tip - birthHeight + 1 > maxBlocks) ↔
      tip.toNat + 1 ≤ birthHeight.toNat + maxBlocks.toNat := by
  have hbirthNat : birthHeight.toNat ≠ 0 := by
    rintro hzero
    exact hbirth (UInt64.toNat_inj.mp hzero)
  have hleNat := UInt64.le_iff_toNat_le.mp hle
  have htip := tip.toNat_lt
  have hcount : (tip - birthHeight + 1).toNat = tip.toNat - birthHeight.toNat + 1 := by
    rw [UInt64.toNat_add, UInt64.toNat_sub_of_le _ _ hle]
    have hone : (1 : UInt64).toNat = 1 := rfl
    rw [hone, Nat.mod_eq_of_lt (by omega)]
  rw [not_or, gt_iff_lt, UInt64.lt_iff_toNat_lt, hcount, not_lt, ← UInt64.toNat_inj]
  have hzero : (0 : UInt64).toNat = 0 := rfl
  rw [hzero]
  omega

theorem HonestWorld.length_eq
    (h : HonestWorld profile sha256 client world blocks)
    (hkept : HeaderChain.Kept profile sha256 (params network) client.chain)
    {tip : UInt64}
    (htip : client.chain.tipHeight = some tip) :
    tip.toNat + 1 = blocks.length := by
  rw [(hkept.length_of_tipHeight htip).1, h.headers, List.length_map]

theorem HonestWorld.answersBetween
    (h : HonestWorld profile sha256 client world blocks)
    (hkept : HeaderChain.Kept profile sha256 (params network) client.chain)
    {birth tip : UInt64}
    (htip : client.chain.tipHeight = some tip)
    {script : List UInt8} :
    ∀ height ∈ heightsBetween birth tip, AnswersAt profile sha256 client world script blocks
      (foundAt profile sha256 client world script) height := by
  intro height hmem
  have hle := UInt64.le_iff_toNat_le.mp (mem_heightsBetween.mp hmem).2
  have hcount := h.length_eq hkept htip
  exact answersAt_honest h hkept (List.getElem?_eq_getElem (by omega)) script

/--
On an honest chain whose blocks and exact filters it can get, a client reports an output with
a script that filters contain as unspent exactly if it was created from the birth height on
and has not been spent since; the birth height must not be zero, nor the window larger than
asked for.
-/
theorem verifyOutpointUnspent_iff
    (hkept : HeaderChain.Kept profile sha256 (params network) client.chain)
    (hchain : HonestChain sha256 blocks)
    (hworld : HonestWorld profile sha256 client world blocks)
    (hscript : Filterable expected.script)
    (birthHeight maxBlocks : UInt64) :
    (∃ created through matched,
        verifyOutpointUnspent profile sha256 client world expected birthHeight maxBlocks =
          .ok (.unspent created through matched)) ↔
      birthHeight ≠ 0 ∧ blocks.length ≤ birthHeight.toNat + maxBlocks.toNat ∧
        CreatedUnspent sha256 expected blocks birthHeight.toNat := by
  constructor
  · rintro ⟨created, through, matched, hverdict⟩
    obtain ⟨hbirth, tip, htip, hle, hwindow, hscan⟩ := verifyOutpointUnspent_eq_ok_iff.mp hverdict
    have hcount := hworld.length_eq hkept htip
    have hscan' := (outpointFrom_unspent_iff (hworld.answersBetween hkept htip) none 0).mp
      ⟨created, through, matched, hscan⟩
    refine ⟨hbirth, ?_, ?_⟩
    · have hblocks := (windowFits_iff hbirth hle).mp hwindow
      omega
    · obtain ⟨hquiet, hnone | hcreates⟩ := hscan'
      · cases hnone
      · exact createdUnspent_of_quiet hchain (findsOutput_honest hchain hworld hkept hscript) hcount
          hquiet hcreates
  · rintro ⟨hbirth, hwindow, hunspent⟩
    obtain ⟨tip, htip, hle⟩ : ∃ tip, client.chain.tipHeight = some tip ∧ birthHeight ≤ tip := by
      obtain ⟨created, hbirthLe, ⟨block, hblock, -⟩, -⟩ := hunspent
      have hlt := (List.getElem?_eq_some_iff.mp hblock).1
      cases htip : client.chain.tipHeight with
      | none =>
          rw [HeaderChain.tipHeight, hworld.headers, List.length_map] at htip
          split at htip
          · omega
          · cases htip
      | some tip =>
          have hcount := hworld.length_eq hkept htip
          exact ⟨tip, rfl, UInt64.le_iff_toNat_le.mpr (by omega)⟩
    have hcount := hworld.length_eq hkept htip
    obtain ⟨hquiet, hcreates⟩ := quiet_of_createdUnspent hchain
      (findsOutput_honest hchain hworld hkept hscript) hcount hunspent
    obtain ⟨created, through, matched, hscan⟩ : ∃ created through matched,
        outpointFrom profile sha256 client world expected birthHeight tip
          (heightsBetween birthHeight tip) none 0 = .ok (.unspent created through matched) :=
      (outpointFrom_unspent_iff (hworld.answersBetween hkept htip) none 0).mpr
        ⟨hquiet, Or.inr hcreates⟩
    have hfits := (windowFits_iff hbirth hle).mpr (show tip.toNat + 1 ≤
      birthHeight.toNat + maxBlocks.toNat by omega)
    exact ⟨created, through, matched,
      verifyOutpointUnspent_eq_ok_iff.mpr ⟨hbirth, tip, htip, hle, hfits, hscan⟩⟩

end Exactness

section Served

variable {profile : Profile}
variable {sha256 : Sha256}

/-- No cache, and peers that serve blocks and filters. -/
def servedWorld (sha256 : Sha256) (blocks : List Block) (filters : List (List UInt8)) : World where
  cached _ := .ok none
  saved := .ok ()
  cfilter _ height _ := okOr filters[height.toNat]? (.io (Text.lit "no filter"))
  block _ blockHash :=
    okOr (blocks.find? (fun block => block.header.hash sha256 = blockHash))
      (.io (Text.lit "no block"))

/-- A client of such peers faces an honest world. -/
theorem honestWorld_served
    {client : Client}
    {blocks : List Block}
    {filters : List (List UInt8)}
    (hpeers : client.peers ≠ [])
    (hheaders : client.chain.headers = blocks.map Block.header)
    (hroots : ∀ block ∈ blocks, block.computeMerkleRoot sha256 = some block.header.merkleRoot)
    (hlen : blocks.length ≤ 2 ^ 32)
    (hdistinct : (blocks.map (fun block => block.header.hash sha256)).Nodup)
    (hexact : List.Forall₂ (ExactFilter sha256 profile blocks) blocks filters)
    (hcommitted : client.filterChain.filterHashes = filters.map (filterHash sha256)) :
    HonestWorld profile sha256 client (servedWorld sha256 blocks filters) blocks := by
  obtain ⟨peer, hpeer⟩ := List.exists_mem_of_ne_nil _ hpeers
  obtain ⟨hcount, hget⟩ := List.forall₂_iff_get.mp hexact
  have hfind : ∀ block ∈ blocks, blocks.find? (fun other => other.header.hash sha256 =
      block.header.hash sha256) = some block := by
    intro block hblock
    have hsome : (blocks.find? (fun other => other.header.hash sha256 =
        block.header.hash sha256)).isSome = true :=
      List.find?_isSome.mpr ⟨block, hblock, decide_eq_true rfl⟩
    obtain ⟨other, hother⟩ := Option.isSome_iff_exists.mp hsome
    have hsame : other.header.hash sha256 = block.header.hash sha256 := by
      simpa using List.find?_some hother
    rw [List.inj_on_of_nodup_map hdistinct (List.mem_of_find?_eq_some hother) hblock hsame] at hother
    exact hother
  have hserves : ∀ block ∈ blocks, ∀ peer,
      (servedWorld sha256 blocks filters).block peer (block.header.hash sha256) = .ok block :=
    fun block hblock peer => okOr_eq_ok_iff.mpr (hfind block hblock)
  refine ⟨hheaders, hroots, ?_, rfl, fun block hblock => ⟨peer, hpeer, hserves block hblock peer⟩, ?_⟩
  · intro height block hblock
    have hlt := (List.getElem?_eq_some_iff.mp hblock).1
    have hserialized : filters[height.toNat]? = some filters[height.toNat] :=
      List.getElem?_eq_getElem (by omega)
    have hnarrow : height.toUInt32.toNat = height.toNat := by
      rw [UInt64.toNat_toUInt32, Nat.mod_eq_of_lt (by omega)]
    have hanswer : ∀ peer blockHash, (servedWorld sha256 blocks filters).cfilter peer
        height.toUInt32 blockHash = .ok filters[height.toNat] :=
      fun peer blockHash => okOr_eq_ok_iff.mpr (by rw [hnarrow]; exact hserialized)
    have hexactAt : ExactFilter sha256 profile blocks block filters[height.toNat] := by
      rw [← (List.getElem?_eq_some_iff.mp hblock).2]
      exact hget height.toNat hlt (by omega)
    refine ⟨_, hexactAt, ?_, ⟨peer, hpeer, hanswer peer _⟩, ?_⟩
    · rw [FilterHeaderChain.filterHashAt, hcommitted, List.getElem?_map, hserialized]
      rfl
    · rintro bytes (hcached | ⟨peer', -, blockHash, hsent⟩) -
      · cases hcached
      · exact (Except.ok.inj ((hanswer peer' blockHash).symm.trans hsent)).symm
  · intro block hblock peer' _ block' hsent _
    exact (Except.ok.inj ((hserves block hblock peer').symm.trans hsent)).symm

end Served

namespace Sample

open HeaderChain.Sample (genesis)

/-- A coinbase transaction. -/
def coinbaseOf (scriptSig : List UInt8) (outputs : List TxOut) : Transaction where
  version := 1
  inputs := [⟨⟨Bytes.zero 32, 0xffffffff⟩, scriptSig, 0xffffffff⟩]
  outputs := outputs
  lockTime := 0
  witnesses := []

/-- The script of the first output there is. -/
def genesisScript : List UInt8 :=
  0x41 :: (leBytes 65
    0x04678afdb0fe5548271967f1a67130b7105cd6a828e03909a67962e0ea1f61deb649f6bc3f4cef38c4f35504e51ec112de5c384df7ba0b8d578a4c702b6bf11d5f).reverse ++
      [0xac]

def genesisCoinbase : Transaction :=
  coinbaseOf (leBytes 77
    0x04ffff001d0104455468652054696d65732030332f4a616e2f32303039204368616e63656c6c6f72206f6e206272696e6b206f66207365636f6e64206261696c6f757420666f722062616e6b73).reverse
    [⟨5000000000, genesisScript⟩]

/-- A coinbase with an output to spend and one with data. -/
def firstCoinbase : Transaction :=
  coinbaseOf [0x51, 0x00] [⟨5000000000, [0x51]⟩, ⟨0, [0x6a, 0x01, 0x00]⟩]

def genesisBlock : Block :=
  ⟨genesis, [genesisCoinbase], by decide⟩

def firstBlock : Block where
  header :=
    { genesis with
      prevBlock := genesis.hash Sha2.sha256
      merkleRoot := firstCoinbase.txid Sha2.sha256
      time := genesis.time + 1
      nonce := 3 }
  txs := [firstCoinbase]
  txs_le := by decide

def minedBlocks : List Block :=
  [genesisBlock, firstBlock]

/-- The exact filter of a block with only a coinbase and one script in it. -/
def exactFilter (block : Block) (script : List UInt8) : List UInt8 :=
  (GcsFilter.encode .dev [script] (filterKey (block.header.hash Sha2.sha256))).toOption.getD []

def minedFilters : List (List UInt8) :=
  [exactFilter genesisBlock genesisScript, exactFilter firstBlock [0x51]]

def minedAnswers : List HeaderAnswer :=
  [.ok [genesis], .ok [firstBlock.header], .ok []]

def minedChain : HeaderChain :=
  final (HeaderChain.sync .dev Sha2.sha256 minedAnswers) (HeaderChain.new (params .regtest))

theorem minedChain_kept :
    HeaderChain.Kept .dev Sha2.sha256 (params .regtest) minedChain :=
  HeaderChain.Kept.new.sync minedAnswers

/-- A client that has synchronised with the chain. -/
def synchronised : Client :=
  ⟨[left], minedChain, ⟨minedFilters.map (filterHash Sha2.sha256), []⟩⟩

theorem synchronised_kept :
    HeaderChain.Kept .dev Sha2.sha256 (params .regtest) synchronised.chain := by
  have hchain : synchronised.chain = minedChain := by
    unfold synchronised
    dsimp only
  rw [hchain]
  exact minedChain_kept

theorem minedBlocks_honest :
    HonestChain Sha2.sha256 minedBlocks := by
  refine HonestChain.of_coinbases (by decide +kernel) ?_
  exact List.forall_mem_cons.mpr ⟨⟨genesisCoinbase, rfl, by decide +kernel⟩,
    List.forall_mem_singleton.mpr ⟨firstCoinbase, rfl, by decide +kernel⟩⟩

theorem exactFilter_encoded
    {block : Block}
    {script : List UInt8}
    (helements : block.basicFilterElements (prevoutScripts Sha2.sha256 minedBlocks block) =
      .ok [script]) :
    ExactFilter Sha2.sha256 .dev minedBlocks block (exactFilter block script) := by
  have hone : [script].dedup.length < 2 ^ 32 := by
    rw [List.dedup_eq_self.mpr (List.nodup_singleton script), List.length_singleton]
    norm_num
  obtain ⟨serialized, w, hencode, -, -⟩ :=
    parse_encode .dev (filterKey (block.header.hash Sha2.sha256)) hone
  refine ⟨[script], helements, by norm_num, ?_⟩
  rw [exactFilter, hencode]
  rfl

theorem synchronised_world :
    HonestWorld .dev Sha2.sha256 synchronised (servedWorld Sha2.sha256 minedBlocks minedFilters)
      minedBlocks := by
  refine honestWorld_served (List.cons_ne_nil _ _) (by decide +kernel) ?_ (by decide)
    (by decide +kernel) ?_ rfl
  · exact List.forall_mem_cons.mpr ⟨by decide +kernel, List.forall_mem_singleton.mpr
      (by decide +kernel)⟩
  · exact .cons (exactFilter_encoded (by decide +kernel))
      (.cons (exactFilter_encoded (by decide +kernel)) .nil)

/-- The output of the genesis block. -/
def genesisOutput : ExpectedOutput :=
  ⟨⟨genesisCoinbase.txid Sha2.sha256, 0⟩, 5000000000, genesisScript⟩

/-- The output to spend of the first block. -/
def spendableOutput : ExpectedOutput :=
  ⟨⟨firstCoinbase.txid Sha2.sha256, 0⟩, 5000000000, [0x51]⟩

/-- The output with data of the first block. -/
def dataOutput : ExpectedOutput :=
  ⟨⟨firstCoinbase.txid Sha2.sha256, 1⟩, 0, [0x6a, 0x01, 0x00]⟩

/-- No transaction but a coinbase spends anything here. -/
theorem createdUnspent_mined
    {expected : ExpectedOutput}
    {created birth : ℕ}
    {block : Block}
    {tx : Transaction}
    (hbirth : birth ≤ created)
    (hblock : minedBlocks[created]? = some block)
    (htx : tx ∈ block.txs)
    (hid : tx.txid Sha2.sha256 = expected.outpoint.txid)
    (houtput : tx.hasOutput expected = true)
    (hspends : ∀ block ∈ minedBlocks, ∀ tx ∈ block.txs, tx.spends expected = false) :
    CreatedUnspent Sha2.sha256 expected minedBlocks birth :=
  ⟨created, hbirth, ⟨block, hblock, tx, htx, hid, houtput⟩,
    fun _ block' _ hblock' => hspends block' (List.mem_of_getElem? hblock')⟩

theorem genesisOutput_unspent :
    CreatedUnspent Sha2.sha256 genesisOutput minedBlocks (0 : UInt64).toNat := by
  have houtput : genesisCoinbase.hasOutput genesisOutput = true := by
    decide +kernel
  have hspends : ∀ block ∈ minedBlocks, ∀ tx ∈ block.txs, tx.spends genesisOutput = false := by
    decide +kernel
  have hblock : minedBlocks[0]? = some genesisBlock := rfl
  exact createdUnspent_mined (by decide) hblock (List.mem_singleton_self _) rfl houtput hspends

theorem spendableOutput_unspent :
    CreatedUnspent Sha2.sha256 spendableOutput minedBlocks (1 : UInt64).toNat := by
  have houtput : firstCoinbase.hasOutput spendableOutput = true := by
    decide +kernel
  have hspends : ∀ block ∈ minedBlocks, ∀ tx ∈ block.txs, tx.spends spendableOutput = false := by
    decide +kernel
  have hblock : minedBlocks[1]? = some firstBlock := rfl
  exact createdUnspent_mined (by decide) hblock (List.mem_singleton_self _) rfl houtput hspends

theorem dataOutput_unspent :
    CreatedUnspent Sha2.sha256 dataOutput minedBlocks (1 : UInt64).toNat := by
  have houtput : firstCoinbase.hasOutput dataOutput = true := by
    decide +kernel
  have hspends : ∀ block ∈ minedBlocks, ∀ tx ∈ block.txs, tx.spends dataOutput = false := by
    decide +kernel
  have hblock : minedBlocks[1]? = some firstBlock := rfl
  exact createdUnspent_mined (by decide) hblock (List.mem_singleton_self _) rfl houtput hspends

/-- The output to spend is reported as unspent. -/
theorem spendableOutput_reported :
    ∃ created through matched, verifyOutpointUnspent .dev Sha2.sha256 synchronised
      (servedWorld Sha2.sha256 minedBlocks minedFilters) spendableOutput 1 10 =
        .ok (.unspent created through matched) := by
  have hscript : Filterable spendableOutput.script := by
    decide
  have hwindow : minedBlocks.length ≤ (1 : UInt64).toNat + (10 : UInt64).toNat := by
    decide
  exact (@verifyOutpointUnspent_iff .dev Sha2.sha256 .regtest synchronised _ minedBlocks
    spendableOutput synchronised_kept minedBlocks_honest synchronised_world hscript 1 10).mpr ⟨by decide, hwindow, spendableOutput_unspent⟩

/-- The output is there, but the client does not report it. -/
def Unreported (expected : ExpectedOutput) (birthHeight maxBlocks : UInt64) : Prop :=
  CreatedUnspent Sha2.sha256 expected minedBlocks birthHeight.toNat ∧
    ¬ ∃ created through matched, verifyOutpointUnspent .dev Sha2.sha256 synchronised
      (servedWorld Sha2.sha256 minedBlocks minedFilters) expected birthHeight maxBlocks =
        .ok (.unspent created through matched)

theorem unreported_of_verdict
    {expected : ExpectedOutput}
    {birthHeight maxBlocks : UInt64}
    (hunspent : CreatedUnspent Sha2.sha256 expected minedBlocks birthHeight.toNat)
    (hverdict : (match verifyOutpointUnspent .dev Sha2.sha256 synchronised
        (servedWorld Sha2.sha256 minedBlocks minedFilters) expected birthHeight maxBlocks with
      | .ok (.unspent _ _ _) => true
      | _ => false) = false) :
    Unreported expected birthHeight maxBlocks := by
  refine ⟨hunspent, ?_⟩
  rintro ⟨created, through, matched, hreported⟩
  rw [hreported] at hverdict
  cases hverdict

/--
On an honest chain with exact filters three outputs are created and unspent, and none of them
is reported: for the birth height zero, for a script with data, and for too small a window.
-/
theorem unspent_unreported :
    HeaderChain.Kept .dev Sha2.sha256 (params .regtest) synchronised.chain ∧
      HonestChain Sha2.sha256 minedBlocks ∧
      HonestWorld .dev Sha2.sha256 synchronised (servedWorld Sha2.sha256 minedBlocks minedFilters)
        minedBlocks ∧
      Unreported genesisOutput 0 10 ∧ Unreported dataOutput 1 10 ∧ Unreported spendableOutput 1 0 :=
  ⟨synchronised_kept, minedBlocks_honest, synchronised_world,
    unreported_of_verdict genesisOutput_unspent (by decide +kernel),
    unreported_of_verdict dataOutput_unspent (by decide +kernel),
    unreported_of_verdict spendableOutput_unspent (by decide +kernel)⟩

end Sample

end Client

end OpenCsv
