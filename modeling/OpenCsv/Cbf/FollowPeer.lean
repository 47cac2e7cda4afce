import OpenCsv.Cbf.ClientSync

/-!
# Following a peer across forks

A header chain follows its peer: headers that attach below the tip cut the chain back to
the fork, whatever the branch weighs that replaces the rest.  What a synchronisation leaves
is therefore the kept part and a branch of headers the peer sent, and its work is the work
of the two.  A client is more careful: it adopts a chain only if all peers that came
through end at the same tip.
-/

namespace OpenCsv

open Call

namespace HeaderChain

/-- A chain that keeps the first headers of another one and goes on with a branch. -/
structure Branches (chain chain' : HeaderChain) (kept : ℕ) (branch : List BlockHeader) : Prop where
  kept_le : kept ≤ chain.headers.length
  headers : chain'.headers = chain.headers.take kept ++ branch

/-- A chain that goes on with headers that were sent. -/
def Trails (chain : HeaderChain) (sent : List BlockHeader) (chain' : HeaderChain) : Prop :=
  ∃ kept branch, chain.Branches chain' kept branch ∧ ∀ header ∈ branch, header ∈ sent

/-- The tip work is the work of all headers, not only modulo `2 ^ 128`. -/
def Exact (chain : HeaderChain) : Prop :=
  chain.tipWork.toNat = totalWork chain.headers

section Following

variable {profile : Profile}
variable {sha256 : Sha256}
variable {network : Network}
variable {chain chain' : HeaderChain}
variable {sent : List BlockHeader}

theorem Trails.refl :
    chain.Trails sent chain := by
  refine ⟨chain.headers.length, [], ⟨le_rfl, ?_⟩, by simp⟩
  rw [List.take_length, List.append_nil]

theorem Trails.truncate
    (h : chain.Trails sent chain')
    (n : ℕ) :
    chain.Trails sent (chain'.truncate n) := by
  obtain ⟨kept, branch, ⟨hkept, hheaders⟩, hsent⟩ := h
  refine ⟨min n kept, branch.take (n - kept), ⟨by omega, ?_⟩, ?_⟩
  · show chain'.headers.take n = _
    rw [hheaders, List.take_append, List.take_take, List.length_take, Nat.min_eq_left hkept]
  · intro header hmem
    exact hsent header (List.mem_of_mem_take hmem)

theorem Trails.appended
    (h : chain.Trails sent chain')
    {header : BlockHeader}
    (hheader : header ∈ sent)
    {chain'' : HeaderChain}
    (happended : chain'.appended profile sha256 header = .ok chain'') :
    chain.Trails sent chain'' := by
  obtain ⟨kept, branch, ⟨hkept, hheaders⟩, hsent⟩ := h
  obtain ⟨work, -, -, rfl⟩ := appended_eq_ok happended
  refine ⟨kept, branch ++ [header], ⟨hkept, ?_⟩, ?_⟩
  · show chain'.headers ++ [header] = _
    rw [hheaders, List.append_assoc]
  · intro h' hmem
    rcases List.mem_append.mp hmem with hmem | hmem
    · exact hsent h' hmem
    · rw [List.mem_singleton.mp hmem]
      exact hheader

theorem Trails.closed :
    Closed profile sha256 sent (chain.Trails sent) where
  truncate _ fork h := h.truncate (fork + 1)
  appended _ _ _ hheader h happended := h.appended hheader happended

theorem totalWork_append
    (left right : List BlockHeader) :
    totalWork (left ++ right) = totalWork left + totalWork right := by
  simp [totalWork]

/-- What replaces the headers after the kept ones decides which chain is heavier. -/
theorem Branches.work_le_iff
    {kept : ℕ}
    {branch : List BlockHeader}
    (h : chain.Branches chain' kept branch) :
    totalWork chain.headers ≤ totalWork chain'.headers ↔
      totalWork (chain.headers.drop kept) ≤ totalWork branch := by
  have hsplit : totalWork chain.headers =
      totalWork (chain.headers.take kept) + totalWork (chain.headers.drop kept) := by
    rw [← totalWork_append, List.take_append_drop]
  rw [hsplit, h.headers, totalWork_append]
  omega

theorem Sound.exact
    (h : chain.Sound .dev sha256 network) :
    chain.Exact := by
  rw [Exact, h.tipWork, Nat.mod_eq_of_lt (h.room rfl)]

end Following

end HeaderChain

namespace Client

section Adopting

variable {profile : Profile}
variable {sha256 : Sha256}
variable {client : Client}
variable {answers : Peer → PeerAnswers}

/-- The chain a synchronisation leaves is the old one, or has the tip of all candidates. -/
theorem leaves_syncInner_chain
    (revalidate : Bool)
    (saves : Saves) :
    Leaves (syncInner profile sha256 revalidate answers saves) client (fun client' =>
      client'.chain = client.chain ∨
        ∀ c ∈ client.candidates profile sha256 answers, c.2.tip = client'.chain.tip) := by
  refine Ends.mono (ends_syncInner revalidate saves) ?_
  intro r client' hend
  cases hend with
  | waitingHeaders => exact Or.inl rfl
  | waitingFilters peers agreed hagree => exact Or.inr hagree.same
  | unagreed e hnone => exact Or.inl rfl
  | empty peers agreed hagree htip => exact Or.inr hagree.same
  | unfiltered peers agreed tip e hagree htip hnone => exact Or.inr hagree.same
  | agreed peers agreed tip fetched left hagree htip hfilters hleft r hr => exact Or.inr hagree.same

/-- A client does not lose work as long as one of its peers that come through keeps it. -/
theorem work_le_of_candidate
    {peer : Peer}
    {candidate : HeaderChain}
    (hpeer : peer ∈ client.peers)
    (htask : headerTask profile sha256 client.chain (answers peer) = .done candidate)
    (hwork : client.chain.tipWork ≤ candidate.tipWork)
    (saves : Saves) :
    client.chain.tipWork ≤ (final (sync profile sha256 answers saves) client).chain.tipWork := by
  rcases leaves_iff.mp (@leaves_syncInner_chain profile sha256 client answers false saves) with hsame | hall
  · rw [sync, hsame]
    exact BitVec.le_refl _
  · have htip := hall (peer, candidate) (mem_candidates_iff.mpr ⟨hpeer, htask⟩)
    have htipWork : candidate.tipWork = _ := congrArg (fun tip => tip.2.2) htip
    rw [htipWork] at hwork
    exact hwork

end Adopting

end Client

namespace HeaderChain

/--
A header chain follows its peer to whatever valid branch it sends; a client keeps its work as
long as one of its peers does.
-/
theorem sync_follows_peer
    {profile : Profile}
    {sha256 : Sha256}
    {network : Network}
    {chain : HeaderChain}
    (h : (chainSystem profile sha256 network).Reachable chain) :
    (∀ answers n chain', sync profile sha256 answers chain = .ok (some n) chain' →
      chain'.Sound profile sha256 network ∧
        (profile = .dev → chain.Exact ∧ chain'.Exact) ∧
          ∃ kept branch, chain.Branches chain' kept branch ∧
            (∀ header ∈ branch, header ∈ sentHeaders answers) ∧
              (chain.Exact → chain'.Exact → (chain.tipWork ≤ chain'.tipWork ↔
                totalWork (chain.headers.drop kept) ≤ totalWork branch))) ∧
    (∀ (peers : List Peer) (filters : FilterHeaderChain) (answers : Peer → PeerAnswers)
        (saves : Saves), ∀ peer ∈ peers, ∀ candidate,
      Client.headerTask profile sha256 chain (answers peer) = .done candidate →
        chain.tipWork ≤ candidate.tipWork →
          chain.tipWork ≤ (final (Client.sync profile sha256 answers saves)
            ⟨peers, chain, filters⟩).chain.tipWork) := by
  refine ⟨?_, ?_⟩
  · intro answers n chain' hsync
    have hfinal : final (sync profile sha256 answers) chain = chain' := by
      rw [final, hsync]
    have hstep : (chainSystem profile sha256 network).step chain (.sync answers) chain' :=
      hfinal.symm
    have hsound := sound_of_reachable h
    have hsound' := sound_of_reachable (h.step hstep)
    refine ⟨hsound', ?_, ?_⟩
    · rintro rfl
      exact ⟨hsound.exact, hsound'.exact⟩
    · have htrails : chain.Trails (sentHeaders answers)
          (final (sync profile sha256 answers) chain) :=
        leaves_iff.mp (leaves_sync Trails.closed Trails.refl)
      rw [hfinal] at htrails
      obtain ⟨kept, branch, hbranches, hsent⟩ := htrails
      refine ⟨kept, branch, hbranches, hsent, ?_⟩
      intro hexact hexact'
      rw [BitVec.le_def, hexact, hexact']
      exact hbranches.work_le_iff
  · intro peers filters answers saves peer hpeer candidate htask hwork
    exact @Client.work_le_of_candidate _ _ ⟨peers, chain, filters⟩ _ _ _ hpeer htask hwork saves

namespace Sample

/-- A peer whose only new block replaces two blocks of the chain. -/
theorem sync_rival :
    ∃ chain', sync .dev Sha2.sha256 [.ok [rival], .ok []] chain = .ok (some 1) chain' ∧
      chain'.tipWork = 4 := by
  have hanswer : Call.answer (sync .dev Sha2.sha256 [.ok [rival], .ok []]) chain =
      .ok (some 1) := by
    decide +kernel
  refine ⟨Call.final (sync .dev Sha2.sha256 [.ok [rival], .ok []]) chain, ?_, by decide +kernel⟩
  revert hanswer
  unfold Call.answer Call.final
  cases sync .dev Sha2.sha256 [.ok [rival], .ok []] chain with
  | ok moved chain' =>
      intro hanswer
      rw [Except.ok.inj hanswer]
  | error e chain' =>
      rintro ⟨⟩

theorem sync_loses_work :
    (chainSystem .dev Sha2.sha256 .regtest).Reachable chain ∧
      ∃ chain', sync .dev Sha2.sha256 [.ok [rival], .ok []] chain = .ok (some 1) chain' ∧
        ¬ chain.tipWork ≤ chain'.tipWork := by
  obtain ⟨chain', hsync, hwork⟩ := sync_rival
  refine ⟨chain_reachable, chain', hsync, ?_⟩
  rw [hwork, chain_headers.2]
  decide

theorem rival_followed :
    ∃ chain', sync .dev Sha2.sha256 [.ok [rival], .ok []] chain = .ok (some 1) chain' ∧
      chain'.Sound .dev Sha2.sha256 .regtest ∧ chain'.Exact := by
  obtain ⟨chain', hsync, -⟩ := sync_rival
  have hfollows := (sync_follows_peer chain_reachable).1 _ 1 chain' hsync
  exact ⟨chain', hsync, hfollows.1, (hfollows.2.1 rfl).2⟩

end Sample

end HeaderChain

end OpenCsv
