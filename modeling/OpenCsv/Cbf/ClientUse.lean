import OpenCsv.Cbf.ClientSync

/-!
# The client after a failed synchronisation

A client starts with the chains of its cache and one synchronisation that succeeds; from
then on it synchronises again and again, whatever comes of it.  In every run its filter
hashes cover the chain it holds.  Its peers do not survive a synchronisation that fails
before the cache files are written: a query for a block then panics.

**Results.**
* `Client.covers_of_reachable`: the filter hashes belong to blocks of the chain held.
* `Client.usable_after_error_iff`: when exactly a client can be used after an error.
-/

namespace OpenCsv

open Call

/-- Load the filter hashes of a cache; they are for the chain of the same cache. -/
def FilterHeaderChain.load (chain : HeaderChain) (file : Option (List UInt8)) :
    FilterHeaderChain :=
  let hashes := match file with
    | none => []
    | some bytes =>
        if bytes.length % 32 ≠ 0 then []
        else (List.range (bytes.length / 32)).filterMap (fun i =>
          Bytes.tryFrom 32 ((bytes.drop (32 * i)).take 32))
  ⟨hashes, chain.hashes.take hashes.length⟩

namespace Client

/-- A synchronisation, by what peers and disk answer. -/
structure ClientStep where
  answers : Peer → PeerAnswers
  saves : Saves

/-- The filter hashes were served for the blocks of the chain held. -/
structure Covers (client : Client) : Prop where
  blocks : client.filterChain.blocks = client.chain.hashes.take client.filterChain.len
  len_le : client.filterChain.len ≤ client.chain.hashes.length

section System

variable (profile : Profile)
variable (sha256 : Sha256)

/-- Connect to peers, with the chains of the cache. -/
def Connects (network : Network) (client : Client) : Prop :=
  ∃ file filterFile chain peers answers saves,
    HeaderChain.load profile sha256 (params network) file = .ok chain ∧
      peers ≠ [] ∧ peers.Nodup ∧
        syncInner profile sha256 true answers saves
          ⟨peers, chain, FilterHeaderChain.load chain filterFile⟩ = .ok () client

/-- Runs of a client. -/
def clientSystem (network : Network) : System Client ClientStep where
  init client := Connects profile sha256 network client
  step client step client' :=
    client' = final (sync profile sha256 step.answers step.saves) client

/-- A filter of a block that queries get to open. -/
def FilterOpens (chain : HeaderChain) (filters : FilterHeaderChain) (height : UInt64) : Prop :=
  ∃ (bytes : List UInt8) (blockHash : Bytes 32) (filter : GcsFilter) (anchor : AnchorRecord)
    (matched : Bool),
    filters.verifyFilter sha256 height bytes = .ok () ∧
      chain.hashAt height = some blockHash ∧ GcsFilter.parse bytes = .ok filter ∧
        filter.matchesItem profile (filterKey blockHash) (anchorScript anchor.toBytes) = .ok matched

/-- No query panics, a missing peer is an error, and the filter hashes cover the chain. -/
structure Usable (client : Client) : Prop where
  peers : client.peers ≠ [] ∨
    ∀ world blockHash, ∃ e, fetchBlock sha256 client world blockHash = .error (.error e)
  fetchBlock : ∀ world blockHash, fetchBlock sha256 client world blockHash ≠ .error .panic
  filterMatches : ∀ world height item,
    filterMatches profile sha256 client world height item ≠ .error .panic
  verifyAnchor : ∀ world anchor location txid required,
    verifyAnchor profile sha256 client world anchor location txid required ≠ .error .panic
  covers : client.Covers

/-- What every run of a client keeps. -/
structure Holds (network : Network) (client : Client) : Prop where
  kept : HeaderChain.Kept profile sha256 (params network) client.chain
  genesis : client.chain.headers ≠ []
  covers : client.Covers

end System

section Covering

variable {sha256 : Sha256}

/-- The common start of two lists. -/
theorem take_commonLength
    {α : Type}
    [DecidableEq α]
    (left right : List α) :
    left.take ((left.zip right).takeWhile (fun p => p.1 = p.2)).length =
        right.take ((left.zip right).takeWhile (fun p => p.1 = p.2)).length ∧
      ((left.zip right).takeWhile (fun p => p.1 = p.2)).length ≤ right.length := by
  induction left generalizing right with
  | nil => simp
  | cons a left ih =>
      cases right with
      | nil => simp
      | cons b right =>
          obtain ⟨htake, hle⟩ := ih right
          by_cases hab : a = b
          · subst hab
            rw [List.zip_cons_cons, List.takeWhile_cons_of_pos (by simp), List.length_cons,
              List.take_succ_cons, List.take_succ_cons, htake, List.length_cons]
            exact ⟨rfl, by omega⟩
          · rw [List.zip_cons_cons, List.takeWhile_cons_of_neg (by simpa using hab)]
            simp

/-- Pages that are accepted have a hash for each height up to the last. -/
theorem fetchPages_ok
    {chain : HeaderChain}
    {stopHeight start : ℕ}
    {answers rest : List CfAnswer}
    {expectedPrev : Bytes 32}
    {out fetched : List (Bytes 32)}
    (h : FilterHeaderChain.fetchPages sha256 chain stopHeight start expectedPrev out answers =
      .ok fetched rest) :
    ∃ added, fetched = out ++ added ∧ added.length = stopHeight + 1 - start ∧
      (start ≤ stopHeight → stopHeight < chain.hashes.length ∧
        ∃ hashes later rest', answers = .ok (expectedPrev, hashes) :: rest' ∧
          added = hashes ++ later ∧ hashes.length = min (start + 1999) stopHeight - start + 1) := by
  induction answers generalizing start expectedPrev out with
  | nil =>
      rw [FilterHeaderChain.fetchPages.eq_def] at h
      split at h
      · simp only at h
        cases hstop : chain.hashes[min (start + 1999) stopHeight]? with
        | none =>
            rw [hstop] at h
            cases h
        | some hash =>
            rw [hstop] at h
            cases h
      · rename_i hdone
        cases h
        exact ⟨[], (List.append_nil _).symm, by simp; omega, fun hle => absurd hle hdone⟩
  | cons answer answers ih =>
      rw [FilterHeaderChain.fetchPages.eq_def] at h
      split at h
      · rename_i hmore
        simp only at h
        cases hstop : chain.hashes[min (start + 1999) stopHeight]? with
        | none =>
            rw [hstop] at h
            cases h
        | some hash =>
            rw [hstop] at h
            cases answer with
            | error e => cases h
            | ok response =>
                cases hcheck : FilterHeaderChain.checkPage start (min (start + 1999) stopHeight)
                    expectedPrev response with
                | error e =>
                    simp only [hcheck] at h
                    cases h
                | ok u =>
                    simp only [hcheck] at h
                    obtain ⟨_, hprev, hcount⟩ := except_bind_eq_ok_iff.mp hcheck
                    rw [require_eq_ok_iff, decide_eq_true_eq] at hprev hcount
                    obtain ⟨later, hfetched, hlater, hnext⟩ := ih h
                    have hlt : min (start + 1999) stopHeight < chain.hashes.length :=
                      (List.getElem?_eq_some_iff.mp hstop).1
                    refine ⟨response.2 ++ later, ?_, ?_, fun _ => ⟨?_, ?_⟩⟩
                    · rw [hfetched, List.append_assoc]
                    · clear hnext
                      rw [List.length_append, hcount, hlater]
                      omega
                    · by_cases hlast : min (start + 1999) stopHeight + 1 ≤ stopHeight
                      · exact (hnext hlast).1
                      · omega
                    · exact ⟨response.2, later, answers, by rw [← hprev], rfl, hcount⟩
      · rename_i hdone
        cases h
        exact ⟨[], (List.append_nil _).symm, by simp; omega, fun hle => absurd hle hdone⟩

/-- A range that is accepted has a hash for each height above those held. -/
theorem fetchRange_ok
    {filters : FilterHeaderChain}
    {chain : HeaderChain}
    {stopHeight : ℕ}
    {answers rest : List CfAnswer}
    {fetched : List (Bytes 32)}
    (h : filters.fetchRange sha256 chain stopHeight answers = .ok fetched rest) :
    fetched.length = stopHeight + 1 - filters.len ∧
      (filters.len ≤ stopHeight → stopHeight < chain.hashes.length ∧
        ∃ hashes later rest',
          answers = .ok (advanceFilterHeader sha256 (Bytes.zero 32) filters.filterHashes, hashes) ::
            rest' ∧ fetched = hashes ++ later ∧
              hashes.length = min (filters.len + 1999) stopHeight - filters.len + 1) := by
  rw [FilterHeaderChain.fetchRange, lift_bind_apply] at h
  split at h
  · rename_i expectedPrev hprev
    have hheader : expectedPrev =
        advanceFilterHeader sha256 (Bytes.zero 32) filters.filterHashes := by
      split at hprev
      · rename_i hzero
        rw [List.length_eq_zero_iff.mp hzero]
        exact (Except.ok.inj hprev).symm
      · rename_i hne
        rw [okOr_eq_ok_iff, FilterHeaderChain.filterHeaderAt, if_pos (by omega),
          Nat.sub_add_cancel (by omega), FilterHeaderChain.len, List.take_length] at hprev
        exact (Option.some.inj hprev).symm
    obtain ⟨added, hfetched, hlen, hfirst⟩ := fetchPages_ok h
    obtain rfl : fetched = added := hfetched
    rw [hheader] at hfirst
    exact ⟨hlen, hfirst⟩
  · cases h

theorem fetchRange_length
    {filters : FilterHeaderChain}
    {chain : HeaderChain}
    {stopHeight : ℕ}
    {answers : List CfAnswer}
    (hle : filters.len ≤ chain.hashes.length) :
    Yields (filters.fetchRange sha256 chain stopHeight) answers
      (fun fetched _ => filters.len + fetched.length ≤ chain.hashes.length) := by
  show Ends _ _ _
  rw [Ends]
  split
  · rename_i fetched rest hfetch
    rintro fetched' heq
    cases heq
    obtain ⟨hlen, hfirst⟩ := fetchRange_ok hfetch
    rw [hlen]
    by_cases hmore : filters.len ≤ stopHeight
    · have hlt := (hfirst hmore).1
      omega
    · omega
  · rintro _ ⟨⟩

/-- A peer serves hashes for blocks of the chain only. -/
theorem filterTask_length
    {revalidate : Bool}
    {chain : HeaderChain}
    {filters : FilterHeaderChain}
    {stop : ℕ}
    {answers : PeerAnswers}
    {fetched : List (Bytes 32)}
    (hle : filters.len ≤ chain.hashes.length)
    (h : filterTask sha256 revalidate chain filters stop answers = .done fetched) :
    filters.len + fetched.length ≤ chain.hashes.length := by
  rw [filterTask] at h
  split at h
  · rename_i fetched' hanswer
    cases h
    have hyields : Yields (do
        if revalidate ∧ filters.filterHashes ≠ [] then
          filters.reattestTail sha256 chain filterCacheReattestBlocks
        filters.fetchRange sha256 chain stop) answers.filters
        (fun fetched _ => filters.len + fetched.length ≤ chain.hashes.length) :=
      yields_ite (fun _ => yields_bind (fun _ _ => fetchRange_length hle))
        (fun _ => fetchRange_length hle)
    exact yields_iff.mp hyields fetched hanswer
  · cases h
  · cases h

/-- Cut back to the common part, the hashes cover the chain that was agreed on. -/
theorem covers_keptFilters
    {client : Client}
    (hblocks : client.filterChain.blocks = client.chain.hashes.take client.filterChain.len)
    (agreed : HeaderChain)
    (peers : List Peer) :
    Covers ⟨peers, agreed, client.keptFilters agreed⟩ := by
  obtain ⟨htake, hcommon⟩ := take_commonLength client.chain.hashes agreed.hashes
  have hlen : (client.keptFilters agreed).len =
      min (client.chain.commonPrefixLen agreed) client.filterChain.len :=
    List.length_take
  constructor
  · show client.filterChain.blocks.take (client.chain.commonPrefixLen agreed) = agreed.hashes.take _
    have hcut := congrArg (List.take client.filterChain.len) htake
    rw [List.take_take, List.take_take] at hcut
    rw [hlen, hblocks, List.take_take, Nat.min_comm]
    exact hcut
  · rw [hlen]
    exact (Nat.min_le_left _ _).trans hcommon

/-- Hashes that were fetched for the blocks above keep the cover. -/
theorem Covers.extend
    {peers : List Peer}
    {chain : HeaderChain}
    {filters : FilterHeaderChain}
    (h : Covers ⟨peers, chain, filters⟩)
    {fetched : List (Bytes 32)}
    (hle : filters.len + fetched.length ≤ chain.hashes.length)
    (left : List Peer) :
    Covers ⟨left, chain, filters.extend chain fetched⟩ := by
  have hlen : (filters.extend chain fetched).len = filters.len + fetched.length :=
    List.length_append
  have hblocks : filters.blocks = chain.hashes.take filters.len := h.blocks
  constructor
  · show filters.blocks ++ (chain.hashes.drop filters.len).take fetched.length = _
    rw [hlen, hblocks, List.take_add]
  · rw [hlen]
    exact hle

end Covering

section Running

variable {profile : Profile}
variable {sha256 : Sha256}
variable {network : Network}
variable {client client' : Client}
variable {answers : Peer → PeerAnswers}

/-- The chain that is agreed on comes from a synchronisation with a peer. -/
theorem HeadersAgree.synced
    {peers : List Peer}
    {agreed : HeaderChain}
    (h : client.HeadersAgree profile sha256 answers peers agreed) :
    ∃ headerAnswers, agreed =
      final (HeaderChain.sync profile sha256 headerAnswers) client.chain := by
  obtain ⟨⟨peer, rest, hfirst, -⟩, -⟩ := h
  have hmem : (peer, agreed) ∈ client.candidates profile sha256 answers := by
    rw [hfirst]
    exact List.mem_cons_self
  obtain ⟨-, htask⟩ := mem_candidates_iff.mp hmem
  refine ⟨(answers peer).headers, ?_⟩
  rw [headerTask] at htask
  rw [final]
  split at htask
  · rename_i hsync
    rw [hsync]
    exact (TaskEnd.done.inj htask).symm
  · cases htask
  · cases htask
  · cases htask

theorem HeadersAgree.kept
    {peers : List Peer}
    {agreed : HeaderChain}
    (h : client.HeadersAgree profile sha256 answers peers agreed)
    (hkept : HeaderChain.Kept profile sha256 (params network) client.chain) :
    HeaderChain.Kept profile sha256 (params network) agreed := by
  obtain ⟨headerAnswers, rfl⟩ := h.synced
  exact leaves_iff.mp (HeaderChain.leaves_sync (HeaderChain.Kept.closed _) hkept)

theorem genesis_closed
    (sent : List BlockHeader) :
    HeaderChain.Closed profile sha256 sent (fun chain => chain.headers ≠ []) where
  truncate chain fork h hnil := by
    have hlen := congrArg List.length hnil
    have hpos := List.length_pos_of_ne_nil h
    simp only [HeaderChain.truncate, List.length_take, List.length_nil] at hlen
    omega
  appended chain header chain' _ _ happended := by
    obtain ⟨work, -, -, rfl⟩ := HeaderChain.appended_eq_ok happended
    simp

theorem HeadersAgree.genesis
    {peers : List Peer}
    {agreed : HeaderChain}
    (h : client.HeadersAgree profile sha256 answers peers agreed)
    (hgenesis : client.chain.headers ≠ []) :
    agreed.headers ≠ [] := by
  obtain ⟨headerAnswers, rfl⟩ := h.synced
  exact leaves_iff.mp (HeaderChain.leaves_sync (genesis_closed _) hgenesis)

theorem genesis_of_tipHeight
    {chain : HeaderChain}
    {tip : UInt64}
    (h : chain.tipHeight = some tip) :
    chain.headers ≠ [] := by
  rintro hnil
  rw [HeaderChain.tipHeight, hnil] at h
  cases h

/-- Where the filter round came through, the hashes cover the chain. -/
theorem FiltersAgree.covers
    {revalidate : Bool}
    {peers left : List Peer}
    {agreed : HeaderChain}
    {stop : ℕ}
    {fetched : List (Bytes 32)}
    (h : client.FiltersAgree sha256 answers revalidate peers agreed stop fetched)
    (hblocks : client.filterChain.blocks = client.chain.hashes.take client.filterChain.len) :
    Covers ⟨left, agreed, (client.keptFilters agreed).extend agreed fetched⟩ := by
  have hcovers := covers_keptFilters hblocks agreed peers
  obtain ⟨⟨peer, -, hend⟩, -⟩ := h
  exact hcovers.extend (filterTask_length hcovers.len_le hend) left

theorem Holds.connects
    (h : Connects profile sha256 network client) :
    Holds profile sha256 network client := by
  obtain ⟨file, filterFile, chain, peers, answers, saves, hload, -, -, hsync⟩ := h
  have hend := @ends_syncInner profile sha256
    ⟨peers, chain, FilterHeaderChain.load chain filterFile⟩ answers true saves
  rw [Ends, hsync] at hend
  have hkept : HeaderChain.Kept profile sha256 (params network) chain := HeaderChain.load_kept hload
  have hblocks : (FilterHeaderChain.load chain filterFile).blocks =
      chain.hashes.take (FilterHeaderChain.load chain filterFile).len := rfl
  cases hend with
  | agreed peers agreed tip fetched left hagree htip hfilters hleft r hr =>
      exact ⟨hagree.kept hkept, genesis_of_tipHeight htip, hfilters.covers hblocks⟩

/-- A synchronisation keeps this, whatever comes of it. -/
theorem Holds.sync
    (h : Holds profile sha256 network client)
    (saves : Saves) :
    Leaves (Client.sync profile sha256 answers saves) client (Holds profile sha256 network) := by
  refine Ends.mono (ends_syncInner false saves) ?_
  intro r client' hend
  have hblocks := h.covers.blocks
  cases hend with
  | waitingHeaders => exact ⟨h.kept, h.genesis, h.covers.blocks, h.covers.len_le⟩
  | unagreed e hnone => exact ⟨h.kept, h.genesis, h.covers.blocks, h.covers.len_le⟩
  | waitingFilters peers agreed hagree =>
      exact ⟨hagree.kept h.kept, hagree.genesis h.genesis, covers_keptFilters hblocks agreed []⟩
  | empty peers agreed hagree htip =>
      exact ⟨hagree.kept h.kept, hagree.genesis h.genesis, covers_keptFilters hblocks agreed peers⟩
  | unfiltered peers agreed tip e hagree htip hnone =>
      exact ⟨hagree.kept h.kept, hagree.genesis h.genesis, covers_keptFilters hblocks agreed []⟩
  | agreed peers agreed tip fetched left hagree htip hfilters hleft r hr =>
      exact ⟨hagree.kept h.kept, hagree.genesis h.genesis, hfilters.covers hblocks⟩

theorem holds_of_reachable
    (h : (clientSystem profile sha256 network).Reachable client) :
    Holds profile sha256 network client := by
  refine @System.Reachable.invariant _ _ (clientSystem profile sha256 network)
    (Holds profile sha256 network) ?_ ?_ client h
  · intro client hconnects
    exact Holds.connects hconnects
  · rintro client ⟨answers, saves⟩ client' hholds rfl
    exact leaves_iff.mp (hholds.sync saves)

/-- In every run, the filter hashes belong to blocks of the chain held. -/
theorem covers_of_reachable
    (h : (clientSystem profile sha256 network).Reachable client) :
    client.Covers :=
  (holds_of_reachable h).covers

end Running

section Queries

variable {profile : Profile}
variable {sha256 : Sha256}
variable {client : Client}
variable {world : World}

/-- A block that is accepted was sent, and hashes as was asked for. -/
theorem getBlock_eq_ok_iff
    {peer : Peer}
    {blockHash : Bytes 32}
    {block : Block} :
    getBlock sha256 world peer blockHash = .ok block ↔
      world.block peer blockHash = .ok block ∧ block.header.hash sha256 = blockHash := by
  rw [getBlock, except_bind_eq_ok_iff]
  constructor
  · rintro ⟨sent, hsent, hok⟩
    obtain ⟨_, hhash, hok⟩ := except_bind_eq_ok_iff.mp hok
    obtain rfl := Except.ok.inj hok
    rw [require_eq_ok_iff, decide_eq_true_eq] at hhash
    exact ⟨hsent, hhash⟩
  · rintro ⟨hsent, hhash⟩
    exact ⟨block, hsent, except_bind_eq_ok_iff.mpr
      ⟨(), require_eq_ok_iff.mpr (decide_eq_true hhash), rfl⟩⟩

theorem fetchFrom_cons
    (blockHash : Bytes 32)
    (lastErr : Option CbfError)
    (peer : Peer)
    (peers : List Peer) :
    fetchFrom sha256 world blockHash lastErr (peer :: peers) =
      match getBlock sha256 world peer blockHash with
      | .ok block => .ok block
      | .error e => fetchFrom sha256 world blockHash (some e) peers := by
  cases lastErr <;> rfl

/-- A block is asked for in vain once at least, or comes. -/
theorem answers_fetchFrom
    {blockHash : Bytes 32}
    {peers : List Peer}
    (lastErr : Option CbfError)
    (h : lastErr ≠ none ∨ peers ≠ []) :
    Answers (fetchFrom sha256 world blockHash lastErr peers) (fun _ => True) := by
  induction peers generalizing lastErr with
  | nil =>
      cases lastErr with
      | none => simp at h
      | some e => exact answers_error e
  | cons peer peers ih =>
      rw [fetchFrom_cons]
      cases getBlock sha256 world peer blockHash with
      | ok block => exact trivial
      | error e => exact ih (some e) (Or.inl (Option.some_ne_none e))

theorem filterFrom_verified
    {height : UInt64}
    {blockHash : Bytes 32}
    {lastErr : Option CbfError}
    {peers : List Peer}
    {bytes : List UInt8}
    (h : filterFrom sha256 client world height blockHash lastErr peers = .ok bytes) :
    client.filterChain.verifyFilter sha256 height bytes = .ok () := by
  induction peers generalizing lastErr with
  | nil =>
      rw [filterFrom.eq_def] at h
      cases h
  | cons peer peers ih =>
      rw [filterFrom.eq_def] at h
      simp only at h
      split at h
      · exact ih h
      · split at h
        · exact ih h
        · rename_i hverify
          cases hsaved : world.saved with
          | error e =>
              rw [hsaved] at h
              cases h
          | ok u =>
              rw [hsaved] at h
              cases h
              exact hverify

/-- A filter that a query gets has the hash that was synchronised. -/
theorem filterAt_verified
    {height : UInt64}
    {bytes : List UInt8}
    (h : filterAt sha256 client world height = .ok bytes) :
    client.filterChain.verifyFilter sha256 height bytes = .ok () := by
  rw [filterAt] at h
  split at h
  · obtain ⟨_, -, h⟩ := except_bind_eq_ok_iff.mp h
    exact filterFrom_verified h
  · obtain ⟨_, -, h⟩ := except_bind_eq_ok_iff.mp h
    exact filterFrom_verified h
  · split at h
    · rename_i hverify
      cases h
      exact hverify
    · obtain ⟨_, -, h⟩ := except_bind_eq_ok_iff.mp h
      exact filterFrom_verified h

/-- A height with a filter hash has a block. -/
theorem Covers.hashAt
    (h : client.Covers)
    {height : UInt64}
    {bytes : List UInt8}
    (hverify : client.filterChain.verifyFilter sha256 height bytes = .ok ()) :
    ∃ blockHash, client.chain.hashAt height = some blockHash := by
  obtain ⟨committed, hcommitted, -⟩ := except_bind_eq_ok_iff.mp hverify
  rw [okOr_eq_ok_iff] at hcommitted
  have hlt : height.toNat < client.filterChain.len :=
    (List.getElem?_eq_some_iff.mp hcommitted).1
  exact ⟨_, List.getElem?_eq_getElem (hlt.trans_le h.len_le)⟩

/-- A question to a filter is answered for a filter that opens, and does not panic. -/
theorem answers_filterMatches
    (h : client.Covers)
    (height : UInt64)
    (item : List UInt8) :
    Answers (filterMatches profile sha256 client world height item) (fun matched =>
      ∃ bytes blockHash filter, client.filterChain.verifyFilter sha256 height bytes = .ok () ∧
        client.chain.hashAt height = some blockHash ∧ GcsFilter.parse bytes = .ok filter ∧
          filter.matchesItem profile (filterKey blockHash) item = .ok matched) := by
  rw [filterMatches]
  cases hfilter : filterAt sha256 client world height with
  | error e => exact answers_error e
  | ok bytes =>
      have hverify := filterAt_verified hfilter
      obtain ⟨blockHash, hhash⟩ := h.hashAt hverify
      rw [hhash]
      have hparses := GcsFilter.answers_parse bytes
      show Answers (GcsFilter.parse bytes >>= fun filter =>
        filter.matchesItem profile (filterKey blockHash) item) _
      cases hparse : GcsFilter.parse bytes with
      | error e =>
          rw [hparse] at hparses
          exact hparses
      | ok filter =>
          rw [hparse] at hparses
          have hmatches := @GcsFilter.answers_matchesItem profile _ hparses
            (filterKey blockHash) item
          show Answers (filter.matchesItem profile (filterKey blockHash) item) _
          cases hmatch : filter.matchesItem profile (filterKey blockHash) item with
          | error e =>
              rw [hmatch] at hmatches
              exact hmatches
          | ok matched => exact ⟨bytes, blockHash, filter, hverify, rfl, hparse, hmatch⟩

/-- A chain in use has a block at every height up to its tip. -/
theorem Holds.hashAt
    {network : Network}
    (h : Holds profile sha256 network client)
    {tip height : UInt64}
    (htip : client.chain.tipHeight = some tip)
    (hle : height ≤ tip) :
    ∃ (blockHash : Bytes 32) (header : BlockHeader), client.chain.hashAt height = some blockHash ∧
      header.hash sha256 = blockHash := by
  have hsound := h.kept.sound
  have hcount := (h.kept.length_of_tipHeight htip).1
  have hlt : height.toNat < client.chain.headers.length := by
    have hleNat := UInt64.le_iff_toNat_le.mp hle
    omega
  refine ⟨_, client.chain.headers[height.toNat], ?_, rfl⟩
  rw [HeaderChain.hashAt, hsound.hashes, List.getElem?_map, List.getElem?_eq_getElem hlt]
  rfl

/-- While no filter opens, the verification of an anchor ends before it looks for the block. -/
theorem answers_verifyAnchor
    {network : Network}
    (h : Holds profile sha256 network client)
    {tip : UInt64}
    (htip : client.chain.tipHeight = some tip)
    (hclosed : ∀ height ≤ tip, height ≠ 0 →
      ¬ FilterOpens profile sha256 client.chain client.filterChain height)
    (anchor : AnchorRecord)
    (location : AnchorLocation)
    (txid : Bytes 32)
    (required : UInt64) :
    Answers (verifyAnchor profile sha256 client world anchor location txid required)
      (fun _ => True) := by
  rw [verifyAnchor]
  refine (answers_require _ _).bind (fun _ hheight => ?_)
  rw [htip]
  show Answers (if location.height > tip then _ else _) _
  split
  · exact trivial
  · rename_i hle
    have hle' : location.height ≤ tip := UInt64.not_lt.mp hle
    obtain ⟨blockHash, header, hhash, -⟩ := h.hashAt htip hle'
    rw [hhash]
    show Answers (filterMatches profile sha256 client world location.height
      (anchorScript anchor.toBytes) >>= fun _ => _) _
    refine Answers.bind (P := fun _ => False)
      ((answers_filterMatches h.covers _ _).mono ?_) (fun _ h => h.elim)
    rintro matched ⟨bytes, hash, filter, hverify, hhash, hparse, hmatch⟩
    exact hclosed location.height hle' (of_decide_eq_true hheight)
      ⟨bytes, hash, filter, anchor, matched, hverify, hhash, hparse, hmatch⟩

/-- A peer can answer with the header of a block alone. -/
def hollow (header : BlockHeader) : Block :=
  ⟨header, [], Nat.zero_le _⟩

/-- Where a filter opens, a block without transactions makes the verification panic. -/
theorem verifyAnchor_panics
    {network : Network}
    (h : Holds profile sha256 network client)
    (hpeers : client.peers ≠ [])
    {tip height : UInt64}
    (htip : client.chain.tipHeight = some tip)
    (hle : height ≤ tip)
    (hheight : height ≠ 0)
    (hopens : FilterOpens profile sha256 client.chain client.filterChain height) :
    ∃ world anchor location txid required,
      verifyAnchor profile sha256 client world anchor location txid required = .error .panic := by
  obtain ⟨bytes, blockHash, filter, anchor, matched, hverify, hhash, hparse, hmatch⟩ := hopens
  obtain ⟨blockHash', header, hhash', hheader⟩ := h.hashAt htip hle
  obtain rfl := Option.some.inj (hhash.symm.trans hhash')
  obtain ⟨peer, peers, hcons⟩ := List.exists_cons_of_ne_nil hpeers
  let world : World :=
    ⟨fun _ => .ok (some bytes), .ok (), fun _ _ _ => .ok bytes, fun _ _ => .ok (hollow header)⟩
  refine ⟨world, anchor, ⟨height, 0⟩, Bytes.zero 32, 1, ?_⟩
  have hfilter : filterAt sha256 client world height = .ok bytes := by
    simp only [filterAt, world, hverify]
  have hmatches : filterMatches profile sha256 client world height
      (anchorScript anchor.toBytes) = .ok matched := by
    rw [filterMatches, hfilter, hhash]
    show (GcsFilter.parse bytes >>= fun filter =>
      filter.matchesItem profile (filterKey blockHash) (anchorScript anchor.toBytes)) = _
    rw [hparse]
    exact hmatch
  have hblock : fetchBlock sha256 client world blockHash = .ok (hollow header) := by
    have hget : getBlock sha256 world peer blockHash = .ok (hollow header) :=
      getBlock_eq_ok_iff.mpr ⟨rfl, hheader⟩
    rw [fetchBlock, hcons, fetchFrom_cons, hget]
  have hroot : (hollow header).computeMerkleRoot sha256 = none := rfl
  simp only [verifyAnchor, htip, hhash, hmatches, hblock, hroot, require, okOr, bind, Except.bind,
    ne_eq, hheight, not_false_eq_true, decide_true, if_true, gt_iff_lt, UInt64.not_lt.mpr hle,
    if_false]

/-- A client with peers can be used while no filter opens, and only then. -/
theorem usable_iff
    {network : Network}
    (h : Holds profile sha256 network client)
    (hpeers : client.peers ≠ [])
    {tip : UInt64}
    (htip : client.chain.tipHeight = some tip) :
    Usable profile sha256 client ↔ ∀ height ≤ tip, height ≠ 0 →
      ¬ FilterOpens profile sha256 client.chain client.filterChain height := by
  constructor
  · intro husable height hle hheight hopens
    obtain ⟨world, anchor, location, txid, required, hpanic⟩ :=
      verifyAnchor_panics h hpeers htip hle hheight hopens
    exact husable.verifyAnchor world anchor location txid required hpanic
  · intro hclosed
    refine ⟨Or.inl hpeers, ?_, ?_, ?_, h.covers⟩
    · intro world blockHash
      exact (answers_fetchFrom none (Or.inr hpeers)).ne_panic
    · intro world height item
      exact (answers_filterMatches h.covers height item).ne_panic
    · intro world anchor location txid required
      exact (answers_verifyAnchor h htip hclosed anchor location txid required).ne_panic

end Queries

section Failing

variable {profile : Profile}
variable {sha256 : Sha256}
variable {network : Network}
variable {client client' : Client}
variable {answers : Peer → PeerAnswers}

theorem HeadersAgree.unique
    {peers peers' : List Peer}
    {agreed agreed' : HeaderChain}
    (h : client.HeadersAgree profile sha256 answers peers agreed)
    (h' : client.HeadersAgree profile sha256 answers peers' agreed') :
    peers = peers' ∧ agreed = agreed' := by
  obtain ⟨⟨peer, rest, hfirst, rfl⟩, -⟩ := h
  obtain ⟨⟨peer', rest', hfirst', rfl⟩, -⟩ := h'
  obtain ⟨hhead, rfl⟩ := List.cons.inj (hfirst.symm.trans hfirst')
  obtain ⟨rfl, rfl⟩ := Prod.mk.inj hhead
  exact ⟨rfl, rfl⟩

theorem FiltersAgree.unique
    {revalidate : Bool}
    {peers : List Peer}
    {agreed : HeaderChain}
    {stop : ℕ}
    {fetched fetched' : List (Bytes 32)}
    (h : client.FiltersAgree sha256 answers revalidate peers agreed stop fetched)
    (h' : client.FiltersAgree sha256 answers revalidate peers agreed stop fetched') :
    fetched = fetched' := by
  obtain ⟨⟨peer, hpeer, hend⟩, -⟩ := h
  exact h'.same peer hpeer fetched hend

/-- Without peers, a query for a block panics. -/
theorem not_usable_of_no_peers
    (h : client.peers = []) :
    ¬ Usable profile sha256 client := by
  intro husable
  refine husable.fetchBlock ⟨fun _ => .ok none, .ok (), fun _ _ _ => .ok [],
    fun _ _ => .error (.noPeers (Text.lit ""))⟩ (Bytes.zero 32) ?_
  rw [Client.fetchBlock, h]
  rfl

/--
The peers carry a synchronisation through both rounds, to a chain of whose blocks no filter
opens.
-/
structure Carried (profile : Profile) (sha256 : Sha256) (client : Client)
    (answers : Peer → PeerAnswers) : Prop where
  rounds : ∃ peers agreed tip fetched,
    client.HeadersAgree profile sha256 answers peers agreed ∧ agreed.tipHeight = some tip ∧
      client.FiltersAgree sha256 answers false peers agreed tip.toNat fetched ∧
        ∀ height ≤ tip, height ≠ 0 → ¬ FilterOpens profile sha256 agreed
          ((client.keptFilters agreed).extend agreed fetched) height

/--
After a synchronisation that fails, a client can be used exactly if the peers carried it
through and no filter opens: if, then, only a cache file could not be written.
-/
theorem usable_after_error_iff
    {saves : Saves}
    {e : CbfError}
    (h : (clientSystem profile sha256 network).Reachable client)
    (hsync : sync profile sha256 answers saves client = .error (some (.error e)) client') :
    Usable profile sha256 client' ↔ Carried profile sha256 client answers := by
  have hend := @ends_syncInner profile sha256 client answers false saves
  have hholds := leaves_iff.mp (@Holds.sync _ _ _ _ answers (holds_of_reachable h) saves)
  have hfinal : final (sync profile sha256 answers saves) client = client' := by
    rw [final, hsync]
  rw [hfinal] at hholds
  have hsync' : syncInner profile sha256 false answers saves client =
      .error (some (.error e)) client' := hsync
  rw [Ends, hsync'] at hend
  cases hend with
  | unagreed e hnone =>
      refine iff_of_false (not_usable_of_no_peers rfl) ?_
      rintro ⟨peers, agreed, tip, fetched, hagree, -⟩
      exact hnone peers agreed hagree
  | unfiltered peers agreed tip e hagree htip hnone =>
      refine iff_of_false (not_usable_of_no_peers rfl) ?_
      rintro ⟨peers', agreed', tip', fetched, hagree', htip', hfilters, -⟩
      obtain ⟨rfl, rfl⟩ := hagree.unique hagree'
      obtain rfl := Option.some.inj (htip.symm.trans htip')
      exact hnone fetched hfilters
  | agreed peers agreed tip fetched left hagree htip hfilters hleft r hr =>
      rw [usable_iff hholds hleft htip]
      constructor
      · intro hclosed
        exact ⟨peers, agreed, tip, fetched, hagree, htip, hfilters, hclosed⟩
      · rintro ⟨peers', agreed', tip', fetched', hagree', htip', hfilters', hclosed⟩
        obtain ⟨rfl, rfl⟩ := hagree.unique hagree'
        obtain rfl := Option.some.inj (htip.symm.trans htip')
        obtain rfl := hfilters.unique hfilters'
        exact hclosed

end Failing

namespace Sample

open HeaderChain.Sample (genesis first rival)

/-- The run stops with an error value, in a state that passes a test. -/
def stopsWith
    {ε σ α : Type}
    (result : EStateM.Result (Option (Stop ε)) σ α)
    (test : σ → Bool) : Bool :=
  match result with
  | .error (some (.error _)) s => test s
  | _ => false

theorem of_stopsWith
    {ε σ α : Type}
    {result : EStateM.Result (Option (Stop ε)) σ α}
    {test : σ → Bool}
    (h : stopsWith result test = true) :
    ∃ e s, result = .error (some (.error e)) s ∧ test s = true := by
  unfold stopsWith at h
  split at h
  · exact ⟨_, _, rfl, h⟩
  · cases h

theorem eq_ok_final
    {ε σ : Type}
    {c : Call ε σ Unit}
    {s : σ}
    (h : (answer c s).isOk = true) :
    c s = .ok () (final c s) := by
  rw [answer] at h
  rw [final]
  revert h
  cases c s with
  | ok u s' => exact fun _ => rfl
  | error e s' => rintro ⟨⟩

def left : Peer := Text.lit "10.0.0.1:18444"

def right : Peer := Text.lit "10.0.0.2:18444"

/-- Both peers serve the genesis block and a hash for its filter. -/
def genesisAnswers (_ : Peer) : PeerAnswers where
  headers := [.ok [genesis], .ok []]
  filters := [.ok (Bytes.zero 32, [Bytes.zero 32])]

/-- The peers are on different blocks above it. -/
def forkedAnswers (peer : Peer) : PeerAnswers where
  headers := [.ok [if peer = left then first else rival], .ok []]
  filters := []

/-- Nothing new. -/
def idleAnswers (_ : Peer) : PeerAnswers where
  headers := [.ok []]
  filters := []

def written : Saves :=
  ⟨.ok (), .ok ()⟩

def diskFull : Saves :=
  ⟨.error (.io (Text.lit "No space left on device")), .ok ()⟩

def connecting : Client :=
  ⟨[left, right], HeaderChain.new (params .regtest),
    FilterHeaderChain.load (HeaderChain.new (params .regtest)) none⟩

/-- A client that is connected to both. -/
def client : Client :=
  final (syncInner .dev Sha2.sha256 true genesisAnswers written) connecting

theorem client_reachable :
    (clientSystem .dev Sha2.sha256 .regtest).Reachable client := by
  have hrun : (answer (syncInner .dev Sha2.sha256 true genesisAnswers written)
      connecting).isOk = true := by
    decide +kernel
  have hsync : syncInner .dev Sha2.sha256 true genesisAnswers written connecting = .ok () client :=
    eq_ok_final hrun
  have hdistinct : [left, right].Nodup := by
    decide +kernel
  exact .init ⟨none, none, _, [left, right], genesisAnswers, written, rfl,
    List.cons_ne_nil _ _, hdistinct, hsync⟩

/-- Peers on different tips fail the synchronisation and are lost. -/
theorem sync_forked :
    ∃ e client', sync .dev Sha2.sha256 forkedAnswers written client =
      .error (some (.error e)) client' ∧ client'.peers = [] := by
  have hrun : stopsWith (sync .dev Sha2.sha256 forkedAnswers written client) (fun client' =>
      client'.peers.isEmpty) = true := by
    decide +kernel
  rcases of_stopsWith hrun with ⟨e, client', hsync, hclient⟩
  exact ⟨e, client', hsync, List.isEmpty_iff.mp hclient⟩

theorem unusable_after_fork :
    (clientSystem .dev Sha2.sha256 .regtest).Reachable client ∧
      ∃ e client', sync .dev Sha2.sha256 forkedAnswers written client =
        .error (some (.error e)) client' ∧ ¬ Usable .dev Sha2.sha256 client' := by
  obtain ⟨e, client', hsync, hpeers⟩ := sync_forked
  exact ⟨client_reachable, e, client', hsync, not_usable_of_no_peers hpeers⟩

/-- A full disk fails the synchronisation and leaves the peers. -/
theorem sync_diskFull :
    ∃ e client', sync .dev Sha2.sha256 idleAnswers diskFull client =
      .error (some (.error e)) client' ∧ client'.peers ≠ [] ∧ client'.chain.tipHeight = some 0 := by
  have hrun : stopsWith (sync .dev Sha2.sha256 idleAnswers diskFull client) (fun client' =>
      decide (client'.peers ≠ [] ∧ client'.chain.tipHeight = some 0)) = true := by
    decide +kernel
  rcases of_stopsWith hrun with ⟨e, client', hsync, hclient⟩
  exact ⟨e, client', hsync, of_decide_eq_true hclient⟩

theorem usable_after_full_disk :
    ∃ e client', sync .dev Sha2.sha256 idleAnswers diskFull client =
      .error (some (.error e)) client' ∧ Usable .dev Sha2.sha256 client' ∧
        Carried .dev Sha2.sha256 client idleAnswers := by
  obtain ⟨e, client', hsync, hpeers, htip⟩ := sync_diskFull
  have hfinal : client' = final (sync .dev Sha2.sha256 idleAnswers diskFull) client := by
    rw [final, hsync]
  have hstep : (clientSystem .dev Sha2.sha256 .regtest).step client ⟨idleAnswers, diskFull⟩ client' :=
    hfinal
  have hholds := holds_of_reachable (client_reachable.step hstep)
  have husable : Usable .dev Sha2.sha256 client' := by
    rw [usable_iff hholds hpeers htip]
    intro height hle hne
    exact absurd (UInt64.le_zero_iff.mp hle) hne
  exact ⟨e, client', hsync, husable, (usable_after_error_iff client_reachable hsync).mp husable⟩

end Sample

end Client

end OpenCsv
