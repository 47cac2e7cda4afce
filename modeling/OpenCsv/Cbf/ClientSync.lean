import OpenCsv.Cbf.Client

/-!
# How a synchronisation of the client ends

A synchronisation ends before it adopts a chain, or with a chain but no filter hashes, or
at its cache files.  `SyncEnd` lists the ends with what the peers have answered in each, and
`ends_syncInner` says that there are no others.
-/

namespace OpenCsv

open Call

namespace Client

section Rounds

variable (profile : Profile)
variable (sha256 : Sha256)
variable (client : Client)
variable (answers : Peer → PeerAnswers)

/-- Some peer comes through the header round, and all that do end at the same tip. -/
structure HeadersAgree (peers : List Peer) (agreed : HeaderChain) : Prop where
  first : ∃ peer rest, client.candidates profile sha256 answers = (peer, agreed) :: rest ∧
    peers = peer :: rest.map Prod.fst
  same : ∀ c ∈ client.candidates profile sha256 answers, c.2.tip = agreed.tip

/-- The filter hashes that belong to the common part of two chains. -/
def keptFilters (agreed : HeaderChain) : FilterHeaderChain :=
  client.filterChain.truncate (client.chain.commonPrefixLen agreed)

/-- How the filter round ends for a peer. -/
def filterEnd (revalidate : Bool) (agreed : HeaderChain) (stop : ℕ) (peer : Peer) :
    TaskEnd (List (Bytes 32)) :=
  filterTask sha256 revalidate agreed (client.keptFilters agreed) stop (answers peer)

/-- The ends of the filter round, in the order of the peers. -/
def filterEnds (revalidate : Bool) (peers : List Peer) (agreed : HeaderChain) (stop : ℕ) :
    List (Peer × TaskEnd (List (Bytes 32))) :=
  peers.map (fun peer => (peer, client.filterEnd sha256 answers revalidate agreed stop peer))

/-- Some peer comes through the filter round, and all that do serve the same hashes. -/
structure FiltersAgree (revalidate : Bool) (peers : List Peer) (agreed : HeaderChain) (stop : ℕ)
    (fetched : List (Bytes 32)) : Prop where
  some_done : ∃ peer ∈ peers,
    client.filterEnd sha256 answers revalidate agreed stop peer = .done fetched
  same : ∀ peer ∈ peers, ∀ fetched',
    client.filterEnd sha256 answers revalidate agreed stop peer = .done fetched' →
      fetched' = fetched

/-- The ends of a synchronisation. -/
inductive SyncEnd (revalidate : Bool) (saves : Saves) :
    Except (Option (Stop CbfError)) Unit → Client → Prop
  /-- A peer does not answer in the header round. -/
  | waitingHeaders :
      SyncEnd revalidate saves (.error none) { client with peers := [] }
  /-- A peer does not answer in the filter round. -/
  | waitingFilters (peers : List Peer) (agreed : HeaderChain)
      (_ : client.HeadersAgree profile sha256 answers peers agreed) :
      SyncEnd revalidate saves (.error none) ⟨[], agreed, client.keptFilters agreed⟩
  /-- No chain is agreed on. -/
  | unagreed (e : CbfError)
      (_ : ∀ peers agreed, ¬ client.HeadersAgree profile sha256 answers peers agreed) :
      SyncEnd revalidate saves (.error (some (.error e))) { client with peers := [] }
  /-- The chain that was agreed on is empty. -/
  | empty (peers : List Peer) (agreed : HeaderChain)
      (_ : client.HeadersAgree profile sha256 answers peers agreed)
      (_ : agreed.tipHeight = none) :
      SyncEnd revalidate saves (.error (some .panic))
        ⟨peers, agreed, client.keptFilters agreed⟩
  /-- No filter hashes are agreed on. -/
  | unfiltered (peers : List Peer) (agreed : HeaderChain) (tip : UInt64) (e : CbfError)
      (_ : client.HeadersAgree profile sha256 answers peers agreed)
      (_ : agreed.tipHeight = some tip)
      (_ : ∀ fetched, ¬ client.FiltersAgree sha256 answers revalidate peers agreed tip.toNat
        fetched) :
      SyncEnd revalidate saves (.error (some (.error e)))
        ⟨[], agreed, client.keptFilters agreed⟩
  /-- Everything is agreed on; the cache files are written, or not. -/
  | agreed (peers : List Peer) (agreed : HeaderChain) (tip : UInt64)
      (fetched : List (Bytes 32)) (left : List Peer)
      (_ : client.HeadersAgree profile sha256 answers peers agreed)
      (_ : agreed.tipHeight = some tip)
      (_ : client.FiltersAgree sha256 answers revalidate peers agreed tip.toNat fetched)
      (_ : left ≠ []) (r : Except (Option (Stop CbfError)) Unit)
      (_ : r = .ok () ∨ ∃ e, r = .error (some (.error e))) :
      SyncEnd revalidate saves r
        ⟨left, agreed, (client.keptFilters agreed).extend agreed fetched⟩

end Rounds

section Joining

variable {stop : ℕ}

/-- What the filter round has collected from the tasks so far. -/
structure Joined (tasks : List (Peer × TaskEnd (List (Bytes 32)))) (collected : Collected) :
    Prop where
  peers : collected.peers ≠ [] ↔ collected.reference ≠ none
  some_done : ∀ fetched, collected.reference = some fetched →
    ∃ peer, (peer, .done fetched) ∈ tasks
  same : ∀ peer fetched, (peer, .done fetched) ∈ tasks → collected.reference = some fetched

/-- Two tasks of the round have ended with different hashes. -/
def Disagree (tasks : List (Peer × TaskEnd (List (Bytes 32)))) : Prop :=
  ∃ peer peer' fetched fetched', (peer, .done fetched) ∈ tasks ∧
    (peer', .done fetched') ∈ tasks ∧ fetched ≠ fetched'

section Steps

variable {tasks : List (Peer × TaskEnd (List (Bytes 32)))}
variable {collected : Collected}
variable {peer : Peer}
variable {fetched : List (Bytes 32)}

/-- A task without hashes adds at most a line about its failure. -/
theorem Joined.skip
    (h : Joined tasks collected)
    {task : TaskEnd (List (Bytes 32))}
    (htask : ∀ fetched, task ≠ .done fetched)
    (failures : List Text) :
    Joined (tasks ++ [(peer, task)]) { collected with failures := failures } := by
  refine ⟨h.peers, ?_, ?_⟩
  · intro fetched hfetched
    obtain ⟨peer', hmem⟩ := h.some_done fetched hfetched
    exact ⟨peer', List.mem_append_left _ hmem⟩
  · intro peer' fetched hmem
    rcases List.mem_append.mp hmem with hmem | hmem
    · exact h.same peer' fetched hmem
    · exact absurd (Prod.mk.inj (List.mem_singleton.mp hmem)).2.symm (htask fetched)

/-- The first hashes become the reference. -/
theorem Joined.reference
    (h : Joined tasks collected)
    (hreference : collected.reference = none) :
    Joined (tasks ++ [(peer, .done fetched)])
      { collected with reference := some fetched, peers := collected.peers ++ [peer] } := by
  refine ⟨by simp, ?_, ?_⟩
  · intro fetched' hfetched
    obtain rfl := Option.some.inj hfetched
    exact ⟨peer, List.mem_append_right _ (List.mem_singleton_self _)⟩
  · intro peer' fetched' hmem
    rcases List.mem_append.mp hmem with hmem | hmem
    · have hsome := h.same peer' fetched' hmem
      rw [hreference] at hsome
      cases hsome
    · cases List.mem_singleton.mp hmem
      rfl

/-- The same hashes once more. -/
theorem Joined.again
    (h : Joined tasks collected)
    (hreference : collected.reference = some fetched) :
    Joined (tasks ++ [(peer, .done fetched)])
      { collected with peers := collected.peers ++ [peer] } := by
  refine ⟨by simp [hreference], ?_, ?_⟩
  · intro fetched' hfetched
    obtain ⟨peer', hmem⟩ := h.some_done fetched' hfetched
    exact ⟨peer', List.mem_append_left _ hmem⟩
  · intro peer' fetched' hmem
    rcases List.mem_append.mp hmem with hmem | hmem
    · exact h.same peer' fetched' hmem
    · cases List.mem_singleton.mp hmem
      exact hreference

end Steps

theorem joined_nil :
    Joined [] ⟨none, [], []⟩ :=
  ⟨by simp, nofun, nofun⟩

theorem joinFilters_cases
    {done tasks : List (Peer × TaskEnd (List (Bytes 32)))}
    {collected : Collected}
    (h : Joined done collected) :
    match joinFilters stop collected tasks with
    | .ok collected' => Joined (done ++ tasks) collected'
    | .error none => True
    | .error (some .panic) => False
    | .error (some (.error _)) => Disagree (done ++ tasks) := by
  induction tasks generalizing done collected with
  | nil =>
      rw [List.append_nil]
      exact h
  | cons first tasks ih =>
      obtain ⟨peer, task⟩ := first
      have happend : done ++ (peer, task) :: tasks = (done ++ [(peer, task)]) ++ tasks := by
        rw [List.append_assoc]
        rfl
      rw [joinFilters.eq_def, happend]
      cases task with
      | waiting => exact trivial
      | failed e => exact ih (h.skip (by rintro _ ⟨⟩) _)
      | panicked => exact ih (h.skip (by rintro _ ⟨⟩) _)
      | done fetched =>
          cases hreference : collected.reference with
          | none =>
              simp only [hreference]
              exact ih (h.reference hreference)
          | some expected =>
              simp only [hreference]
              by_cases heq : expected = fetched
              · subst heq
                rw [if_neg (fun h => h rfl)]
                have hjoined := @Joined.again _ _ peer _ h hreference
                rw [hreference] at hjoined
                exact ih hjoined
              · rw [if_pos heq]
                obtain ⟨peer₀, hpeer₀⟩ := h.some_done expected hreference
                refine ⟨peer₀, peer, expected, fetched, ?_, ?_, heq⟩
                · exact List.mem_append_left _ (List.mem_append_left _ hpeer₀)
                · exact List.mem_append_left _
                    (List.mem_append_right _ (List.mem_singleton_self _))

end Joining

section Ends

variable {profile : Profile}
variable {sha256 : Sha256}
variable {client : Client}
variable {answers : Peer → PeerAnswers}

theorem mem_candidates_iff
    {peer : Peer}
    {candidate : HeaderChain} :
    (peer, candidate) ∈ client.candidates profile sha256 answers ↔
      peer ∈ client.peers ∧
        headerTask profile sha256 client.chain (answers peer) = .done candidate := by
  have hresult : ∀ task : TaskEnd HeaderChain,
      task.result? = some candidate ↔ task = .done candidate := by
    intro task
    cases task <;> simp [TaskEnd.result?]
  simp only [candidates, List.mem_filterMap, Option.map_eq_some_iff, Prod.mk.injEq]
  constructor
  · rintro ⟨peer', hpeer, candidate', htask, rfl, rfl⟩
    exact ⟨hpeer, (hresult _).mp htask⟩
  · rintro ⟨hpeer, htask⟩
    exact ⟨peer, hpeer, candidate, (hresult _).mpr htask, rfl, rfl⟩

theorem mem_filterEnds_iff
    {revalidate : Bool}
    {peers : List Peer}
    {agreed : HeaderChain}
    {stop : ℕ}
    {fetched : List (Bytes 32)}
    {peer : Peer} :
    (peer, .done fetched) ∈ client.filterEnds sha256 answers revalidate peers agreed stop ↔
      peer ∈ peers ∧ client.filterEnd sha256 answers revalidate agreed stop peer = .done fetched := by
  rw [filterEnds, List.mem_map]
  constructor
  · rintro ⟨peer', hmem, heq⟩
    cases congrArg Prod.fst heq
    exact ⟨hmem, congrArg Prod.snd heq⟩
  · rintro ⟨hmem, heq⟩
    exact ⟨peer, hmem, by rw [heq]⟩

/-- Hashes that were collected are agreed on. -/
theorem FiltersAgree.of_joined
    {revalidate : Bool}
    {peers : List Peer}
    {agreed : HeaderChain}
    {stop : ℕ}
    {fetched : List (Bytes 32)}
    {collected : Collected}
    (h : Joined (client.filterEnds sha256 answers revalidate peers agreed stop) collected)
    (hreference : collected.reference = some fetched) :
    client.FiltersAgree sha256 answers revalidate peers agreed stop fetched := by
  obtain ⟨peer, hmem⟩ := h.some_done fetched hreference
  obtain ⟨hpeer, hend⟩ := mem_filterEnds_iff.mp hmem
  refine ⟨⟨peer, hpeer, hend⟩, ?_⟩
  intro peer' hpeer' fetched' hend'
  have hsame := h.same peer' fetched' (mem_filterEnds_iff.mpr ⟨hpeer', hend'⟩)
  rw [hreference] at hsame
  exact (Option.some.inj hsame).symm

theorem not_filtersAgree_of_joined
    {revalidate : Bool}
    {peers : List Peer}
    {agreed : HeaderChain}
    {stop : ℕ}
    {collected : Collected}
    (h : Joined (client.filterEnds sha256 answers revalidate peers agreed stop) collected)
    (hreference : collected.reference = none)
    (fetched : List (Bytes 32)) :
    ¬ client.FiltersAgree sha256 answers revalidate peers agreed stop fetched := by
  rintro ⟨⟨peer, hpeer, hend⟩, -⟩
  have hsome := h.same peer fetched (mem_filterEnds_iff.mpr ⟨hpeer, hend⟩)
  rw [hreference] at hsome
  cases hsome

theorem not_filtersAgree_of_disagree
    {revalidate : Bool}
    {peers : List Peer}
    {agreed : HeaderChain}
    {stop : ℕ}
    (h : Disagree (client.filterEnds sha256 answers revalidate peers agreed stop))
    (fetched : List (Bytes 32)) :
    ¬ client.FiltersAgree sha256 answers revalidate peers agreed stop fetched := by
  rintro ⟨-, hsame⟩
  obtain ⟨peer₁, peer₂, fetched₁, fetched₂, hmem₁, hmem₂, hne⟩ := h
  obtain ⟨hpeer₁, hend₁⟩ := mem_filterEnds_iff.mp hmem₁
  obtain ⟨hpeer₂, hend₂⟩ := mem_filterEnds_iff.mp hmem₂
  exact hne ((hsame _ hpeer₁ _ hend₁).trans (hsame _ hpeer₂ _ hend₂).symm)

/-- Writing the cache files succeeds or fails with an error. -/
theorem ends_saves
    (saves : Saves)
    (client : Client) :
    Ends (do
        lift (saves.chain.mapError (fun e => some (Stop.error e)))
        lift (saves.filters.mapError (fun e => some (Stop.error e))) :
        Call (Option (Stop CbfError)) Client Unit) client
      (fun r client' => client' = client ∧ (r = .ok () ∨ ∃ e, r = .error (some (.error e)))) := by
  refine ends_bind.mpr ((ends_lift _).mpr ?_)
  cases saves.chain with
  | error e => exact ⟨rfl, Or.inr ⟨e, rfl⟩⟩
  | ok u =>
      refine (ends_lift _).mpr ?_
      cases saves.filters with
      | error e => exact ⟨rfl, Or.inr ⟨e, rfl⟩⟩
      | ok u => exact ⟨rfl, Or.inl rfl⟩

/-- A synchronisation ends in one of the ways listed. -/
theorem ends_syncInner
    (revalidate : Bool)
    (saves : Saves) :
    Ends (syncInner profile sha256 revalidate answers saves) client
      (client.SyncEnd profile sha256 answers revalidate saves) := by
  refine ends_get_bind (ends_modify_bind ?_)
  refine ends_bind.mpr ((ends_demand _ _).mpr ?_)
  split
  case isFalse hwaiting => exact .waitingHeaders
  case isTrue hanswered =>
  cases hcandidates : client.candidates profile sha256 answers with
  | nil =>
      refine .unagreed _ ?_
      rintro peers agreed ⟨⟨peer, rest, hfirst, -⟩, -⟩
      rw [hcandidates] at hfirst
      cases hfirst
  | cons first rest =>
      obtain ⟨peer, agreed⟩ := first
      refine ends_bind.mpr ((ends_demand _ _).mpr ?_)
      split
      case isFalse hdiffer =>
        refine .unagreed _ ?_
        rintro peers agreed' ⟨⟨peer', rest', hfirst, -⟩, hsame⟩
        rw [hcandidates] at hfirst hsame
        obtain ⟨hhead, rfl⟩ := List.cons.inj hfirst
        obtain ⟨-, rfl⟩ := Prod.mk.inj hhead
        refine hdiffer (List.all_eq_true.mpr (fun c hc => decide_eq_true ?_))
        exact hsame c (List.mem_cons_of_mem _ hc)
      case isTrue hsame =>
      have hagree : client.HeadersAgree profile sha256 answers (peer :: rest.map Prod.fst)
          agreed := by
        refine ⟨⟨peer, rest, hcandidates, rfl⟩, ?_⟩
        rw [hcandidates, List.forall_mem_cons]
        exact ⟨rfl, fun c hc => of_decide_eq_true (List.all_eq_true.mp hsame c hc)⟩
      refine ends_modify_bind (ends_bind.mpr ((ends_lift _).mpr ?_))
      cases htip : agreed.tipHeight with
      | none => exact .empty _ _ hagree htip
      | some tip =>
          refine ends_modify_bind (ends_bind.mpr ((ends_lift _).mpr ?_))
          have hjoin := @joinFilters_cases tip.toNat _
            (client.filterEnds sha256 answers revalidate (peer :: rest.map Prod.fst) agreed
              tip.toNat) _ joined_nil
          rw [List.nil_append] at hjoin
          split
          · rename_i collected hjoined
            replace hjoined : joinFilters tip.toNat ⟨none, [], []⟩ (client.filterEnds sha256 answers
              revalidate (peer :: rest.map Prod.fst) agreed tip.toNat) = .ok collected := hjoined
            rw [hjoined] at hjoin
            refine ends_bind.mpr ((ends_demand _ _).mpr ?_)
            cases hreference : collected.reference with
            | none =>
                have hnone : collected.peers = [] :=
                  by_contra (fun hne => hjoin.peers.mp hne hreference)
                rw [hnone]
                exact .unfiltered _ agreed tip _ hagree htip
                  (not_filtersAgree_of_joined hjoin hreference)
            | some fetched =>
                have hleft : collected.peers ≠ [] :=
                  hjoin.peers.mpr (by rw [hreference]; exact Option.some_ne_none _)
                rw [if_pos (by simpa using hleft)]
                refine ends_modify_bind ((ends_saves saves _).mono ?_)
                rintro r client' ⟨rfl, hr⟩
                exact .agreed _ agreed tip fetched _ hagree htip
                  (.of_joined hjoin hreference) hleft r hr
          · rename_i e hjoined
            replace hjoined : joinFilters tip.toNat ⟨none, [], []⟩ (client.filterEnds sha256 answers
              revalidate (peer :: rest.map Prod.fst) agreed tip.toNat) = .error e := hjoined
            rw [hjoined] at hjoin
            match e, hjoin with
            | none, _ => exact .waitingFilters _ agreed hagree
            | some (.error e), hdisagree =>
                exact .unfiltered _ agreed tip e hagree htip
                  (not_filtersAgree_of_disagree hdisagree)

end Ends

end Client

end OpenCsv
