import OpenCsv.Cbf.ClientUse
import OpenCsv.Cbf.Verified
import OpenCsv.Lib.HashChain

/-!
# Attestation of cached filter hashes

The hashes of a cache are not checked against filters.  A peer that a client connects to
sends the filter header before the last hashes of the cache and these hashes again; the
client compares the header with the one that its own hashes chain to.  A header commits to
all hashes below it, so a peer that commits to other hashes is caught at any height.

**Results.**
* `FilterHeaderChain.reattestTail_ok`: what a peer has sent for the tail to be accepted.
* `filterTask_served`: a peer that commits to a list comes through exactly if the cache is
  a part of that list.
* `Client.filterEnd_attests`: a hash for each header, and what the cache has in common with
  the lists of the peers.
-/

namespace OpenCsv

open Call

section Headers

variable (sha256 : Sha256)

/-- The header that commits to a list of filter hashes. -/
def headerOf (hashes : List (Bytes 32)) : Bytes 32 :=
  advanceFilterHeader sha256 (Bytes.zero 32) hashes

/-- The messages that are hashed for it. -/
def filterMessages (hashes : List (Bytes 32)) : List (List UInt8) :=
  (HashChain.messages (fun header hash => filterHeader sha256 hash header) (Bytes.zero 32)
    hashes).map (fun p => p.2.toList ++ p.1.toList)

/-- The pages from `start` up to `stop` of a peer that commits to a list of filter hashes. -/
def servedPages (committed : List (Bytes 32)) (start stop : ℕ) : List CfAnswer :=
  if start ≤ stop then
    .ok (headerOf sha256 (committed.take start),
        (committed.drop start).take (min (start + 1999) stop - start + 1)) ::
      servedPages committed (min (start + 1999) stop + 1) stop
  else []
termination_by stop + 1 - start

/--
What a peer that commits to a list answers to a client with `held` hashes: the tail, and
what is above.
-/
def Serves (committed : List (Bytes 32)) (held stop : ℕ) (answers : List CfAnswer) : Prop :=
  ∃ rest, answers =
    (if held = 0 then []
      else servedPages sha256 committed (held - Client.filterCacheReattestBlocks) (held - 1)) ++
    (servedPages sha256 committed held stop ++ rest)

/-- A peer has sent the tail of the hashes, and the header before it. -/
def FilterHeaderChain.Attested (filters : FilterHeaderChain) (answers : List CfAnswer) : Prop :=
  filters.filterHashes ≠ [] →
    ∃ rest, answers =
      .ok (headerOf sha256
          (filters.filterHashes.take (filters.len - Client.filterCacheReattestBlocks)),
        filters.filterHashes.drop (filters.len - Client.filterCacheReattestBlocks)) :: rest

end Headers

section Committing

variable {sha256 : Sha256}
variable {hashes committed : List (Bytes 32)}

theorem headerOf_append
    (later : List (Bytes 32)) :
    advanceFilterHeader sha256 (headerOf sha256 hashes) later =
      headerOf sha256 (hashes ++ later) :=
  (List.foldl_append ..).symm

/-- Lists with the same header at a height agree up to it. -/
theorem take_eq_of_headerOf
    (hfree : sha256.CollisionFree (filterMessages sha256 committed ++ filterMessages sha256 hashes))
    {n : ℕ}
    (hcommitted : n ≤ committed.length)
    (hhashes : n ≤ hashes.length)
    (h : headerOf sha256 (committed.take n) = headerOf sha256 (hashes.take n)) :
    committed.take n = hashes.take n := by
  refine HashChain.take_eq_of_absorbed hcommitted hhashes ?_ h
  rw [filterMessages, filterMessages, ← List.map_append] at hfree
  rintro ⟨header, hash⟩ hp ⟨header', hash'⟩ hq heq
  have hmessage : hash.toList ++ header.toList = hash'.toList ++ header'.toList :=
    hfree _ (List.mem_map.mpr ⟨_, hp, rfl⟩) _ (List.mem_map.mpr ⟨_, hq, rfl⟩) heq
  obtain ⟨hleft, hright⟩ := List.append_inj hmessage (by simp)
  rw [Bytes.ext_toList hleft, Bytes.ext_toList hright]

end Committing

namespace FilterHeaderChain

variable {sha256 : Sha256}
variable {filters : FilterHeaderChain}
variable {chain : HeaderChain}
variable {committed : List (Bytes 32)}

/-- The pages of a peer are accepted from where the headers agree. -/
theorem fetchPages_served
    {start stop : ℕ}
    {out : List (Bytes 32)}
    (rest : List CfAnswer)
    (hchain : stop < chain.hashes.length)
    (hcommitted : stop < committed.length) :
    fetchPages sha256 chain stop start (headerOf sha256 (committed.take start)) out
        (servedPages sha256 committed start stop ++ rest) =
      .ok (out ++ (committed.take (stop + 1)).drop start) rest := by
  induction start using servedPages.induct stop generalizing out with
  | case1 start hle ih =>
      generalize hlast : min (start + 1999) stop = last at ih
      have hblock : chain.hashes[last]? = some chain.hashes[last] :=
        List.getElem?_eq_getElem (by omega)
      have hpage : ((committed.drop start).take (last - start + 1)).length = last - start + 1 := by
        rw [List.length_take, List.length_drop]
        omega
      have hcheck : checkPage start last (headerOf sha256 (committed.take start))
          (headerOf sha256 (committed.take start), (committed.drop start).take (last - start + 1)) =
            .ok () := by
        rw [checkPage, require, if_pos (decide_eq_true rfl)]
        exact require_eq_ok_iff.mpr (decide_eq_true hpage)
      have hnext : advanceFilterHeader sha256 (headerOf sha256 (committed.take start))
          ((committed.drop start).take (last - start + 1)) =
            headerOf sha256 (committed.take (last + 1)) := by
        rw [headerOf_append, ← List.take_add]
        congr 2
        omega
      rw [servedPages, if_pos hle, hlast, List.cons_append, fetchPages.eq_def, if_pos hle, hlast]
      simp only [hblock, hcheck, hnext]
      rw [ih, List.append_assoc]
      congr 2
      have hcount : last + 1 = start + (last - start + 1) := by omega
      have hsplit : stop + 1 - start = (last - start + 1) + (stop + 1 - (last + 1)) := by omega
      rw [List.drop_take, List.drop_take, hsplit]
      generalize last - start + 1 = n at hcount
      rw [hcount, ← List.drop_drop, ← List.take_add]
  | case2 start hnot =>
      rw [servedPages, if_neg hnot, List.nil_append, fetchPages.eq_def, if_neg hnot,
        List.drop_eq_nil_of_le (by rw [List.length_take]; omega), List.append_nil]

/-- The header before the range of a request. -/
theorem previous_eq_ok :
    (if filters.len = 0 then Except.ok (Bytes.zero 32)
      else okOr (filters.filterHeaderAt sha256 (filters.len - 1))
        (some (CbfError.filter (Text.lit "no preceding filter header at height " ++
          Text.ofNat (filters.len - 1))))) =
      .ok (headerOf sha256 filters.filterHashes) := by
  split
  · rename_i hzero
    rw [List.length_eq_zero_iff.mp hzero]
    rfl
  · rw [okOr_eq_ok_iff, filterHeaderAt, if_pos (by omega), Nat.sub_add_cancel (by omega), len,
      List.take_length]
    rfl

theorem fetchRange_apply
    (stop : ℕ)
    (answers : List CfAnswer) :
    filters.fetchRange sha256 chain stop answers =
      fetchPages sha256 chain stop filters.len (headerOf sha256 filters.filterHashes) []
        answers := by
  rw [fetchRange, lift_bind_apply, previous_eq_ok]

/-- The range of a peer is accepted on top of its own hashes. -/
theorem fetchRange_served
    {stop : ℕ}
    (rest : List CfAnswer)
    (hfilters : filters.filterHashes = committed.take filters.len)
    (hchain : stop < chain.hashes.length)
    (hcommitted : stop < committed.length) :
    filters.fetchRange sha256 chain stop (servedPages sha256 committed filters.len stop ++ rest) =
      .ok ((committed.take (stop + 1)).drop filters.len) rest := by
  rw [fetchRange_apply, hfilters, fetchPages_served rest hchain hcommitted, List.nil_append]

/-- A page after another header is refused. -/
theorem checkPage_refused
    {start stop : ℕ}
    {expectedPrev : Bytes 32}
    {response : Bytes 32 × List (Bytes 32)}
    (h : response.1 ≠ expectedPrev) :
    ∃ message, checkPage start stop expectedPrev response = .error (.filter message) := by
  rw [checkPage, require, if_neg (by simpa using h)]
  exact ⟨_, rfl⟩

/-- The range of a peer is refused on top of hashes with another header. -/
theorem fetchRange_refused
    {stop : ℕ}
    (rest : List CfAnswer)
    (hle : filters.len ≤ stop)
    (hchain : stop < chain.hashes.length)
    (h : headerOf sha256 filters.filterHashes ≠ headerOf sha256 (committed.take filters.len)) :
    ∃ message rest', filters.fetchRange sha256 chain stop
        (servedPages sha256 committed filters.len stop ++ rest) =
      .error (some (.filter message)) rest' := by
  have hblock : chain.hashes[min (filters.len + 1999) stop]? =
      some chain.hashes[min (filters.len + 1999) stop] :=
    List.getElem?_eq_getElem (by omega)
  obtain ⟨message, hcheck⟩ : ∃ message,
      checkPage filters.len (min (filters.len + 1999) stop) (headerOf sha256 filters.filterHashes)
        (headerOf sha256 (committed.take filters.len),
          (committed.drop filters.len).take (min (filters.len + 1999) stop - filters.len + 1)) =
        .error (.filter message) :=
    checkPage_refused h.symm
  rw [fetchRange_apply, servedPages, if_pos hle, List.cons_append, fetchPages.eq_def, if_pos hle]
  simp only [hblock, hcheck]
  exact ⟨message, _, rfl⟩

section Tail

variable {maxBlocks : ℕ}

/-- What is left of the attestation of hashes that are not empty. -/
theorem reattestTail_apply
    (hne : filters.filterHashes ≠ [])
    (hmax : maxBlocks ≠ 0)
    (answers : List CfAnswer) :
    filters.reattestTail sha256 chain maxBlocks answers =
      ((filters.truncate (filters.len - maxBlocks)).fetchRange sha256 chain (filters.len - 1) >>=
        fun fetched => demand (fetched = filters.filterHashes.drop (filters.len - maxBlocks))
          (some (.filter (Text.lit "peer filter-hash tail differs from cached chain at height " ++
            Text.ofNat (filters.len - maxBlocks))))) answers := by
  have hpos : 0 < filters.len := List.length_pos_of_ne_nil hne
  rw [reattestTail, if_neg (by simpa using hne), demand_bind_apply, if_pos (decide_eq_true hmax),
    Nat.sub_add_cancel hpos]

theorem len_truncate
    (n : ℕ) :
    (filters.truncate n).len = min n filters.len :=
  List.length_take

/-- The tail of a peer is accepted for its own hashes. -/
theorem reattestTail_served
    (rest : List CfAnswer)
    (hne : filters.filterHashes ≠ [])
    (hmax : maxBlocks ≠ 0)
    (hfilters : filters.filterHashes = committed.take filters.len)
    (hchain : filters.len ≤ chain.hashes.length)
    (hcommitted : filters.len ≤ committed.length) :
    filters.reattestTail sha256 chain maxBlocks
        (servedPages sha256 committed (filters.len - maxBlocks) (filters.len - 1) ++ rest) =
      .ok () rest := by
  have hpos : 0 < filters.len := List.length_pos_of_ne_nil hne
  have hlen : (filters.truncate (filters.len - maxBlocks)).len = filters.len - maxBlocks := by
    rw [len_truncate]
    omega
  have hprefix : (filters.truncate (filters.len - maxBlocks)).filterHashes =
      committed.take (filters.truncate (filters.len - maxBlocks)).len := by
    rw [hlen, truncate, hfilters, List.take_take, Nat.min_eq_left (Nat.sub_le _ _)]
  have hfetch : (filters.truncate (filters.len - maxBlocks)).fetchRange sha256 chain
      (filters.len - 1)
      (servedPages sha256 committed (filters.len - maxBlocks) (filters.len - 1) ++ rest) =
        .ok (filters.filterHashes.drop (filters.len - maxBlocks)) rest := by
    have hserved := @fetchRange_served sha256 _ chain committed (filters.len - 1) rest hprefix
      (by omega) (by omega)
    rw [hlen, Nat.sub_add_cancel hpos, ← hfilters] at hserved
    exact hserved
  rw [reattestTail_apply hne hmax, bind_of_ok hfetch, demand, if_pos (decide_eq_true rfl)]
  rfl

/-- The tail of a peer is refused for other hashes, at whatever height they differ. -/
theorem reattestTail_refused
    (rest : List CfAnswer)
    (hne : filters.filterHashes ≠ [])
    (hmax : maxBlocks ≠ 0)
    (hfilters : filters.filterHashes ≠ committed.take filters.len)
    (hchain : filters.len ≤ chain.hashes.length)
    (hcommitted : filters.len ≤ committed.length)
    (hfree : sha256.CollisionFree
      (filterMessages sha256 committed ++ filterMessages sha256 filters.filterHashes)) :
    ∃ message rest', filters.reattestTail sha256 chain maxBlocks
        (servedPages sha256 committed (filters.len - maxBlocks) (filters.len - 1) ++ rest) =
      .error (some (.filter message)) rest' := by
  have hpos : 0 < filters.len := List.length_pos_of_ne_nil hne
  have hlen : (filters.truncate (filters.len - maxBlocks)).len = filters.len - maxBlocks := by
    rw [len_truncate]
    omega
  by_cases hprefix : (filters.truncate (filters.len - maxBlocks)).filterHashes =
      committed.take (filters.truncate (filters.len - maxBlocks)).len
  · -- the header agrees, so the hashes differ in the tail itself
    have hfetch := @fetchRange_served sha256 _ chain committed (filters.len - 1) rest hprefix
      (by omega) (by omega)
    rw [hlen, Nat.sub_add_cancel hpos] at hfetch
    have hdiffer : (committed.take filters.len).drop (filters.len - maxBlocks) ≠
        filters.filterHashes.drop (filters.len - maxBlocks) := by
      intro hdrop
      apply hfilters
      have htake : (committed.take filters.len).take (filters.len - maxBlocks) =
          filters.filterHashes.take (filters.len - maxBlocks) := by
        rw [hlen] at hprefix
        rw [List.take_take, Nat.min_eq_left (Nat.sub_le _ _)]
        exact hprefix.symm
      rw [← List.take_append_drop (filters.len - maxBlocks) filters.filterHashes, ← htake, ← hdrop,
        List.take_append_drop]
    rw [reattestTail_apply hne hmax, bind_of_ok hfetch, demand,
      if_neg (fun h => hdiffer (of_decide_eq_true h))]
    exact ⟨_, _, rfl⟩
  · -- the hashes differ below the tail, so the headers before it do
    have hheader : headerOf sha256 (filters.truncate (filters.len - maxBlocks)).filterHashes ≠
        headerOf sha256 (committed.take (filters.truncate (filters.len - maxBlocks)).len) := by
      intro heq
      rw [hlen] at heq hprefix
      exact hprefix (take_eq_of_headerOf hfree ((Nat.sub_le _ _).trans hcommitted)
        (Nat.sub_le _ _) heq.symm).symm
    obtain ⟨message, rest', hfetch⟩ := @fetchRange_refused sha256 _ chain committed
      (filters.len - 1) rest (by omega) (by omega) hheader
    rw [hlen] at hfetch
    rw [reattestTail_apply hne hmax, bind_apply, hfetch]
    exact ⟨message, rest', rfl⟩

/-- The answers with which a tail is accepted begin with a page of it. -/
theorem reattestTail_ok
    {answers rest : List CfAnswer}
    (hne : filters.filterHashes ≠ [])
    (hmax : maxBlocks ≠ 0)
    (h : filters.reattestTail sha256 chain maxBlocks answers = .ok () rest) :
    ∃ hashes later rest', answers =
        .ok (headerOf sha256 (filters.filterHashes.take (filters.len - maxBlocks)), hashes) ::
          rest' ∧
      filters.filterHashes.drop (filters.len - maxBlocks) = hashes ++ later ∧
        hashes.length = min 2000 (min maxBlocks filters.len) := by
  have hpos : 0 < filters.len := List.length_pos_of_ne_nil hne
  have hlen : (filters.truncate (filters.len - maxBlocks)).len = filters.len - maxBlocks := by
    rw [len_truncate]
    omega
  rw [reattestTail_apply hne hmax, bind_apply] at h
  split at h
  · rename_i fetched rest' hfetch
    have hsame : fetched = filters.filterHashes.drop (filters.len - maxBlocks) := by
      by_contra hdiffer
      rw [demand, if_neg (fun h => hdiffer (of_decide_eq_true h))] at h
      cases h
    obtain ⟨-, hfirst⟩ := Client.fetchRange_ok hfetch
    obtain ⟨-, hashes, later, rest'', hanswers, hfetched, hcount⟩ := hfirst (by omega)
    refine ⟨hashes, later, rest'', hanswers, by rw [← hsame, hfetched], ?_⟩
    rw [hcount, hlen]
    clear hfirst
    omega
  · cases h

end Tail

end FilterHeaderChain

namespace Client

section Tasks

variable {sha256 : Sha256}
variable {filters : FilterHeaderChain}
variable {chain : HeaderChain}
variable {committed : List (Bytes 32)}
variable {revalidate : Bool}
variable {stop : ℕ}
variable {answers : PeerAnswers}

/-- The end of a task, by what it answers. -/
def TaskEnd.ofAnswer {α : Type} : Except (Option CbfError) α → TaskEnd α
  | .ok a => .done a
  | .error (some e) => .failed e
  | .error none => .waiting

/-- A task that attests the cached hashes first. -/
theorem filterTask_attesting
    (hne : filters.filterHashes ≠ []) :
    filterTask sha256 true chain filters stop answers =
      TaskEnd.ofAnswer (answer (filters.reattestTail sha256 chain filterCacheReattestBlocks >>=
        fun _ => filters.fetchRange sha256 chain stop) answers.filters) := by
  have hattest : true = true ∧ filters.filterHashes ≠ [] := ⟨rfl, hne⟩
  rw [filterTask, if_pos hattest]
  split
  · rename_i fetched h
    exact (congrArg TaskEnd.ofAnswer h).symm
  · rename_i e h
    exact (congrArg TaskEnd.ofAnswer h).symm
  · rename_i h
    exact (congrArg TaskEnd.ofAnswer h).symm

/-- A task that only fetches. -/
theorem filterTask_fetching
    (h : ¬ (revalidate = true ∧ filters.filterHashes ≠ [])) :
    filterTask sha256 revalidate chain filters stop answers =
      TaskEnd.ofAnswer (answer (filters.fetchRange sha256 chain stop) answers.filters) := by
  rw [filterTask, if_neg h]
  split
  · rename_i fetched h
    exact (congrArg TaskEnd.ofAnswer h).symm
  · rename_i e h
    exact (congrArg TaskEnd.ofAnswer h).symm
  · rename_i h
    exact (congrArg TaskEnd.ofAnswer h).symm

theorem ofAnswer_eq_done
    {α : Type}
    {c : Call (Option CbfError) (List CfAnswer) α}
    {s : List CfAnswer}
    {a : α}
    (h : TaskEnd.ofAnswer (answer c s) = .done a) :
    ∃ s', c s = .ok a s' := by
  rw [answer] at h
  cases hc : c s with
  | ok b s' =>
      rw [hc] at h
      obtain rfl := TaskEnd.done.inj h
      exact ⟨s', rfl⟩
  | error e s' =>
      rw [hc] at h
      cases e <;> cases h

/-- A task that comes through has accepted the tail and the hashes above. -/
theorem filterTask_done
    {fetched : List (Bytes 32)}
    (h : filterTask sha256 revalidate chain filters stop answers = .done fetched) :
    ∃ between rest, filters.fetchRange sha256 chain stop between = .ok fetched rest ∧
      (revalidate = true → filters.filterHashes ≠ [] →
        filters.reattestTail sha256 chain filterCacheReattestBlocks answers.filters =
          .ok () between) := by
  by_cases hattest : revalidate = true ∧ filters.filterHashes ≠ []
  · obtain ⟨rfl, hne⟩ := hattest
    rw [filterTask_attesting hne] at h
    obtain ⟨rest, hok⟩ := ofAnswer_eq_done h
    rw [bind_apply] at hok
    split at hok
    · rename_i u between htail
      exact ⟨between, rest, hok, fun _ _ => htail⟩
    · cases hok
  · rw [filterTask_fetching hattest] at h
    obtain ⟨rest, hok⟩ := ofAnswer_eq_done h
    exact ⟨answers.filters, rest, hok, fun hrevalidate hne => absurd ⟨hrevalidate, hne⟩ hattest⟩

/-- A task that comes through leaves a hash for each height up to the last. -/
theorem filterTask_len
    {fetched : List (Bytes 32)}
    (hle : filters.len ≤ stop + 1)
    (h : filterTask sha256 revalidate chain filters stop answers = .done fetched) :
    (filters.extend chain fetched).len = stop + 1 := by
  obtain ⟨between, rest, hfetch, -⟩ := filterTask_done h
  obtain ⟨hlen, -⟩ := fetchRange_ok hfetch
  rw [FilterHeaderChain.len, FilterHeaderChain.extend, List.length_append, hlen,
    ← FilterHeaderChain.len]
  omega

/-- A task that comes through has had the cached hashes attested. -/
theorem filterTask_attested
    {fetched : List (Bytes 32)}
    (h : filterTask sha256 true chain filters stop answers = .done fetched) :
    filters.Attested sha256 answers.filters := by
  intro hne
  obtain ⟨between, rest, -, htail⟩ := filterTask_done h
  obtain ⟨hashes, later, rest', hanswers, hdrop, hcount⟩ :=
    FilterHeaderChain.reattestTail_ok hne (by decide) (htail rfl hne)
  -- the window fits into one page
  have hlater : later = [] := by
    have hlen := congrArg List.length hdrop
    rw [List.length_append, hcount, List.length_drop, ← FilterHeaderChain.len] at hlen
    have hwindow : filterCacheReattestBlocks = 144 := rfl
    exact List.length_eq_zero_iff.mp (by omega)
  rw [hlater, List.append_nil] at hdrop
  rw [hdrop]
  exact ⟨rest', hanswers⟩

/-- A peer comes through exactly if the cached hashes are part of what it commits to. -/
theorem filterTask_served
    (hchain : stop + 1 = chain.hashes.length)
    (hcommitted : committed.length = stop + 1)
    (hle : filters.len ≤ stop + 1)
    (hfree : sha256.CollisionFree
      (filterMessages sha256 committed ++ filterMessages sha256 filters.filterHashes))
    (hserves : Serves sha256 committed filters.len stop answers.filters) :
    (filters.filterHashes = committed.take filters.len →
        filterTask sha256 true chain filters stop answers = .done (committed.drop filters.len)) ∧
      (filters.filterHashes ≠ committed.take filters.len →
        ∃ message, filterTask sha256 true chain filters stop answers =
          .failed (.filter message)) := by
  obtain ⟨rest, hanswers⟩ := hserves
  constructor
  · intro hfilters
    have hfetch := @FilterHeaderChain.fetchRange_served sha256 _ chain committed stop rest hfilters
      (by omega) (by omega)
    rw [← hcommitted, List.take_length] at hfetch
    by_cases hne : filters.filterHashes = []
    · have hzero : filters.len = 0 := List.length_eq_zero_iff.mpr hne
      rw [if_pos hzero, List.nil_append] at hanswers
      rw [filterTask_fetching (fun h => h.2 hne), answer, hanswers, hfetch]
      rfl
    · have hzero : filters.len ≠ 0 := fun h => hne (List.length_eq_zero_iff.mp h)
      rw [if_neg hzero] at hanswers
      have htail := @FilterHeaderChain.reattestTail_served sha256 _ chain committed
        filterCacheReattestBlocks (servedPages sha256 committed filters.len stop ++ rest) hne
        (by decide) hfilters (by omega) (by omega)
      rw [filterTask_attesting hne, answer, hanswers, bind_of_ok htail, hfetch]
      rfl
  · intro hfilters
    have hne : filters.filterHashes ≠ [] := by
      rintro hnil
      have hzero : filters.len = 0 := List.length_eq_zero_iff.mpr hnil
      rw [hnil, hzero, List.take_zero] at hfilters
      exact hfilters rfl
    have hzero : filters.len ≠ 0 := fun h => hne (List.length_eq_zero_iff.mp h)
    rw [if_neg hzero] at hanswers
    obtain ⟨message, rest', htail⟩ := @FilterHeaderChain.reattestTail_refused sha256 _ chain committed
      filterCacheReattestBlocks (servedPages sha256 committed filters.len stop ++ rest) hne
      (by decide) hfilters (by omega) (by omega) hfree
    refine ⟨message, ?_⟩
    rw [filterTask_attesting hne, answer, hanswers, bind_apply, htail]
    rfl

end Tasks

section Attesting

variable {profile : Profile}
variable {sha256 : Sha256}
variable {network : Network}
variable {agreed : HeaderChain}
variable {tip : UInt64}

theorem len_keptFilters
    (client : Client)
    (agreed : HeaderChain) :
    (client.keptFilters agreed).len ≤ agreed.hashes.length := by
  obtain ⟨-, hcommon⟩ := take_commonLength client.chain.hashes agreed.hashes
  rw [FilterHeaderChain.len, keptFilters, FilterHeaderChain.truncate, List.length_take]
  exact (Nat.min_le_left _ _).trans hcommon

/-- A synchronisation that succeeds leaves a hash for each header. -/
theorem len_of_syncInner
    {revalidate : Bool}
    {client client' : Client}
    {answers : Peer → PeerAnswers}
    {saves : Saves}
    (hkept : HeaderChain.Kept profile sha256 (params network) client.chain)
    (h : syncInner profile sha256 revalidate answers saves client = .ok () client') :
    client'.filterChain.len = client'.chain.headers.length := by
  have hend := @ends_syncInner profile sha256 client answers revalidate saves
  rw [Ends, h] at hend
  cases hend with
  | agreed peers agreed tip fetched left hagree htip hfilters hleft r hr =>
      obtain ⟨⟨peer, -, hdone⟩, -⟩ := hfilters
      obtain ⟨hcount, hhashes⟩ := (hagree.kept hkept).length_of_tipHeight htip
      have hle := len_keptFilters client agreed
      rw [← hcount]
      exact filterTask_len (by omega) hdone

/--
A peer whose hashes are accepted leaves one for each header and has attested the cached ones.
Where the cache and the list that a peer commits to have the same header, they agree below;
and a peer that serves its list comes through exactly if the cache is part of it.
-/
theorem filterEnd_attests
    (hkept : HeaderChain.Kept profile sha256 (params network) agreed)
    (htip : agreed.tipHeight = some tip)
    (client : Client)
    (answers : Peer → PeerAnswers) :
    (∀ revalidate saves client', HeaderChain.Kept profile sha256 (params network) client.chain →
      syncInner profile sha256 revalidate answers saves client = .ok () client' →
        client'.filterChain.len = client'.chain.headers.length) ∧
      (∀ revalidate peer fetched,
        client.filterEnd sha256 answers revalidate agreed tip.toNat peer = .done fetched →
          ((client.keptFilters agreed).extend agreed fetched).len = agreed.headers.length) ∧
      (∀ peer fetched,
        client.filterEnd sha256 answers true agreed tip.toNat peer = .done fetched →
          (client.keptFilters agreed).Attested sha256 (answers peer).filters) ∧
      ∀ committed : List (Bytes 32), committed.length = agreed.headers.length →
        sha256.CollisionFree (filterMessages sha256 committed ++
          filterMessages sha256 (client.keptFilters agreed).filterHashes) →
          (∀ n ≤ (client.keptFilters agreed).len,
            headerOf sha256 (committed.take n) =
                headerOf sha256 ((client.keptFilters agreed).filterHashes.take n) →
              ∀ height < n,
                (client.keptFilters agreed).filterHashes[height]? = committed[height]?) ∧
          ∀ peer,
            Serves sha256 committed (client.keptFilters agreed).len tip.toNat
                (answers peer).filters →
              ((client.keptFilters agreed).filterHashes =
                  committed.take (client.keptFilters agreed).len →
                client.filterEnd sha256 answers true agreed tip.toNat peer =
                  .done (committed.drop (client.keptFilters agreed).len)) ∧
              ((client.keptFilters agreed).filterHashes ≠
                  committed.take (client.keptFilters agreed).len →
                ∃ message, client.filterEnd sha256 answers true agreed tip.toNat peer =
                  .failed (.filter message)) := by
  obtain ⟨hcount, hhashes⟩ := hkept.length_of_tipHeight htip
  have hle := len_keptFilters client agreed
  refine ⟨fun _ _ _ hchain h => len_of_syncInner hchain h, ?_, fun _ _ h => filterTask_attested h,
    ?_⟩
  · intro revalidate peer fetched h
    rw [← hcount]
    exact filterTask_len (by omega) h
  · intro committed hcommitted hfree
    constructor
    · intro n hn hheader height hheight
      have htake := take_eq_of_headerOf hfree (by omega) hn hheader
      rw [← List.getElem?_take_of_lt hheight, ← htake, List.getElem?_take_of_lt hheight]
    · intro peer hserves
      exact filterTask_served (by omega) (by omega) (by omega) hfree hserves

end Attesting

namespace Sample

open HeaderChain.Sample (genesis)

def genesisChain : HeaderChain :=
  final (HeaderChain.sync .dev Sha2.sha256 [.ok [genesis], .ok []])
    (HeaderChain.new (params .regtest))

theorem genesisChain_kept :
    HeaderChain.Kept .dev Sha2.sha256 (params .regtest) genesisChain :=
  HeaderChain.Kept.new.sync _

/-- The hash of the filter of the genesis block, by the peer. -/
def committed : List (Bytes 32) :=
  [List.Vector.replicate 32 1]

def committedAnswers (_ : Peer) : PeerAnswers where
  headers := []
  filters :=
    servedPages Sha2.sha256 committed 0 0 ++ (servedPages Sha2.sha256 committed 1 0 ++ [])

/-- The hash of the cache has changed. -/
def corrupted : Client :=
  ⟨[left], genesisChain, ⟨[List.Vector.replicate 32 0], genesisChain.hashes⟩⟩

theorem corrupted_detected :
    ∃ message, corrupted.filterEnd Sha2.sha256 committedAnswers true genesisChain
      (0 : UInt64).toNat left = .failed (.filter message) := by
  have htip : genesisChain.tipHeight = some 0 := by
    decide +kernel
  have hlen : (corrupted.keptFilters genesisChain).len = 1 := by
    decide +kernel
  have hfree : Sha256.CollisionFree Sha2.sha256 (filterMessages Sha2.sha256 committed ++
      filterMessages Sha2.sha256 (corrupted.keptFilters genesisChain).filterHashes) := by
    decide +kernel
  have hcount : committed.length = genesisChain.headers.length := by
    decide +kernel
  have hdiffer : (corrupted.keptFilters genesisChain).filterHashes ≠
      committed.take (corrupted.keptFilters genesisChain).len := by
    decide +kernel
  have hserves : Serves Sha2.sha256 committed (corrupted.keptFilters genesisChain).len
      (0 : UInt64).toNat (committedAnswers left).filters := by
    have hzero : (0 : UInt64).toNat = 0 := rfl
    rw [hlen, hzero]
    exact ⟨[], rfl⟩
  obtain ⟨-, -, -, hall⟩ :=
    filterEnd_attests genesisChain_kept htip corrupted committedAnswers
  exact ((hall committed hcount hfree).2 left hserves).2 hdiffer

end Sample

end Client

end OpenCsv
