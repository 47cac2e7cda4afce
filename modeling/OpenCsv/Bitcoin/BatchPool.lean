import OpenCsv.Bitcoin.BatchWire

/-!
# Agreement without a coordinator

Peers receive the commitments of a batch in different orders and among commitments to
other manifests.

**Results.** All of them build the same manifest, and rebuild it from its message out of
whatever pool they hold (`Manifest.order_insensitive`), unless the pool has a collision of
the hash.  A manifest that was rebuilt once is rebuilt from every larger pool
(`Manifest.fromWirePool_of_extends`).
-/

namespace OpenCsv

open Call WireReader

variable {K S : Type}

section Pool

variable {crate : BitcoinCrate K S}
variable {sponge : Sponge}

namespace ParticipantCommitment

/-- What the id of a commitment is the hash of. -/
def preimage (crate : BitcoinCrate K S) (commitment : ParticipantCommitment K) : List UInt8 :=
  ascii "OpenCSV/batch-v2/commitment" ++ [0] ++ commitment.body crate

/-- A commitment that some proposal takes. -/
def WellFormed (crate : BitcoinCrate K S) (commitment : ParticipantCommitment K) : Prop :=
  ∃ proposal, commitment.validate crate proposal = .ok ()

/-- Well-formed commitments with one preimage are the same. -/
theorem eq_of_preimage_eq
    (hlawful : crate.Lawful)
    {c c' : ParticipantCommitment K}
    (hc : c.WellFormed crate)
    (hc' : c'.WellFormed crate)
    (h : c.preimage crate = c'.preimage crate) :
    c = c' := by
  have hread : ∀ {c : ParticipantCommitment K}, c.WellFormed crate →
      Decodes (readFields crate) (c.body crate) c := by
    rintro c ⟨proposal, hvalid⟩
    obtain ⟨hprevout, hchange⟩ := script_lengths hvalid
    exact decodes_readFields hlawful (by rw [hprevout]; decide) (by rw [hchange]; decide)
  have hbody : c.body crate = c'.body crate := List.append_cancel_left h
  exact (hread hc).unique (hbody ▸ hread hc')

/-- The id finds its commitment in a pool without collisions. -/
theorem find?_commitmentId
    (hlawful : crate.Lawful)
    {pool : List (ParticipantCommitment K)}
    (hpool : ∀ c ∈ pool, c.WellFormed crate)
    (hfree : Set.InjOn crate.sha256 {x | ∃ c ∈ pool, x = c.preimage crate})
    {c : ParticipantCommitment K}
    (hc : c ∈ pool) :
    pool.find? (fun candidate => candidate.commitmentId crate == c.commitmentId crate) =
      some c := by
  have hsome : (pool.find? (fun candidate =>
      candidate.commitmentId crate == c.commitmentId crate)).isSome = true := by
    rw [List.find?_isSome]
    exact ⟨c, hc, beq_self_eq_true _⟩
  obtain ⟨c', hc'⟩ := Option.isSome_iff_exists.mp hsome
  have hmem := List.mem_of_find?_eq_some hc'
  have hid : c'.commitmentId crate = c.commitmentId crate := by
    simpa using List.find?_some hc'
  have hpreimage : c'.preimage crate = c.preimage crate :=
    hfree ⟨c', hmem, rfl⟩ ⟨c, hc, rfl⟩ hid
  rw [hc', eq_of_preimage_eq hlawful (hpool c' hmem) (hpool c hc) hpreimage]

end ParticipantCommitment

namespace Manifest

section Larger

/-- Every commitment that the first pool finds is found in the second. -/
def PoolExtends
    (crate : BitcoinCrate K S)
    (pool pool' : List (ParticipantCommitment K)) : Prop :=
  ∀ id c, pool.find? (fun candidate => candidate.commitmentId crate == id) = some c →
    pool'.find? (fun candidate => candidate.commitmentId crate == id) = some c

variable {pool pool' : List (ParticipantCommitment K)}

theorem PoolExtends.append
    (pool rest : List (ParticipantCommitment K)) :
    PoolExtends crate pool (pool ++ rest) := by
  intro id c h
  rw [List.find?_append, h]
  rfl

/-- Pools with distinct ids find the same whatever their order. -/
theorem PoolExtends.of_perm
    (hperm : pool.Perm pool')
    (hnodup : (pool.map (ParticipantCommitment.commitmentId crate)).Nodup) :
    PoolExtends crate pool pool' := by
  intro id c h
  have hmem' : c ∈ pool' := hperm.mem_iff.mp (List.mem_of_find?_eq_some h)
  have hid : c.commitmentId crate = id := by
    simpa using List.find?_some h
  have hsome :
      (pool'.find? (fun candidate => candidate.commitmentId crate == id)).isSome = true := by
    rw [List.find?_isSome]
    exact ⟨c, hmem', by simpa using hid⟩
  obtain ⟨c', hc'⟩ := Option.isSome_iff_exists.mp hsome
  have hid' : c'.commitmentId crate = id := by
    simpa using List.find?_some hc'
  have hnodup' : (pool'.map (ParticipantCommitment.commitmentId crate)).Nodup :=
    (hperm.map _).nodup_iff.mp hnodup
  have heq : c' = c := List.inj_on_of_nodup_map hnodup' (List.mem_of_find?_eq_some hc') hmem'
    (hid'.trans hid.symm)
  rw [hc', heq]

/-- The same commitments are selected from a pool that extends another. -/
theorem select_of_extends
    (h : PoolExtends crate pool pool')
    {n : ℕ}
    {seen : List (Bytes 32)}
    {bytes rest : List UInt8}
    {commitments : List (ParticipantCommitment K)}
    (hselect : select crate pool n seen bytes = .ok commitments rest) :
    select crate pool' n seen bytes = .ok commitments rest := by
  induction n generalizing seen bytes commitments with
  | zero => exact hselect
  | succ n ih =>
      rw [select, bind_apply] at hselect ⊢
      cases harray : array 32 bytes with
      | error e bytes' =>
          rw [harray] at hselect
          cases hselect
      | ok id bytes' =>
      simp only [harray, demand_bind_apply] at hselect ⊢
      by_cases hseen : id ∉ seen
      · simp only [hseen, decide_true, if_true, not_false_eq_true, lift_bind_apply] at hselect ⊢
        cases hfind : pool.find? (fun candidate => candidate.commitmentId crate == id) with
        | none =>
            rw [hfind] at hselect
            cases hselect
        | some c =>
            rw [h id c hfind]
            simp only [hfind, okOr, bind_apply] at hselect ⊢
            cases hrest : select crate pool n (id :: seen) bytes' with
            | error e bytes'' =>
                rw [hrest] at hselect
                cases hselect
            | ok chosen bytes'' =>
                rw [hrest] at hselect
                obtain ⟨rfl, rfl⟩ := EStateM.Result.ok.inj hselect
                rw [ih hrest]
                rfl
      · simp only [hseen, decide_false, Bool.false_eq_true, if_false] at hselect
        cases hselect

variable [DecidableEq K]

/-- A manifest is rebuilt from any pool that extends the one it was read with. -/
theorem fromWirePool_of_extends
    (h : PoolExtends crate pool pool')
    {proposal : Proposal K}
    {wire : List UInt8}
    {m : Manifest K}
    (hread : fromWirePool crate sponge proposal pool wire = .ok m) :
    fromWirePool crate sponge proposal pool' wire = .ok m := by
  simp only [fromWirePool, except_bind_eq_ok_iff] at hread ⊢
  obtain ⟨body, hbody, commitments, hselected, hm⟩ := hread
  refine ⟨body, hbody, commitments, ?_, hm⟩
  unfold answer at hselected ⊢
  simp only [selected, bind_apply] at hselected ⊢
  cases hid : array 32 body with
  | error e _ => simp [hid] at hselected
  | ok id _ =>
  simp only [hid] at hselected ⊢
  cases hepoch : u32 _ with
  | error e _ => simp [hepoch] at hselected
  | ok epoch _ =>
  simp only [hepoch] at hselected ⊢
  cases hcount : u8 _ with
  | error e _ => simp [hcount] at hselected
  | ok count rest =>
  simp only [hcount] at hselected ⊢
  generalize hdemand : demand (decide (id = Proposal.batchId crate proposal ∧
    count = proposal.participantCount)) _ rest = checked at hselected ⊢
  cases checked with
  | error e _ => simp at hselected
  | ok _ rest =>
      simp only [] at hselected ⊢
      cases hselect : select crate pool count.toNat [] rest with
      | error e _ => simp [hselect] at hselected
      | ok chosen _ =>
          rw [hselect] at hselected
          rw [select_of_extends h hselect]
          exact hselected

omit [DecidableEq K] in
/-- What is selected depends on the pool through its lookups only. -/
theorem select_congr
    (h : ∀ id, pool.find? (fun candidate => candidate.commitmentId crate == id) =
      pool'.find? (fun candidate => candidate.commitmentId crate == id))
    (n : ℕ)
    (seen : List (Bytes 32)) :
    select crate pool n seen = select crate pool' n seen := by
  induction n generalizing seen with
  | zero => rfl
  | succ n ih =>
      simp only [select, h, ih]

/-- A manifest is rebuilt in the same way, or refused with the same error, from both pools. -/
theorem fromWirePool_congr
    (h : ∀ id, pool.find? (fun candidate => candidate.commitmentId crate == id) =
      pool'.find? (fun candidate => candidate.commitmentId crate == id))
    (proposal : Proposal K)
    (wire : List UInt8) :
    fromWirePool crate sponge proposal pool wire =
      fromWirePool crate sponge proposal pool' wire := by
  simp only [fromWirePool, selected, select_congr h]

end Larger

/-- The named commitments are looked up one after the other. -/
theorem decodes_select
    {pool : List (ParticipantCommitment K)}
    {commitments : List (ParticipantCommitment K)}
    {seen : List (Bytes 32)}
    (hfind : ∀ c ∈ commitments, pool.find?
      (fun candidate => candidate.commitmentId crate == c.commitmentId crate) = some c)
    (hnodup : (commitments.map (ParticipantCommitment.commitmentId crate)).Nodup)
    (hseen : ∀ c ∈ commitments, c.commitmentId crate ∉ seen) :
    Decodes (select crate pool commitments.length seen)
      (commitments.flatMap (fun c => (c.commitmentId crate).toList)) commitments := by
  induction commitments generalizing seen with
  | nil =>
      exact decodes_pure []
  | cons c commitments ih =>
      rw [List.map_cons, List.nodup_cons] at hnodup
      rw [List.flatMap_cons, List.length_cons, select]
      refine Decodes.bind (decodes_array _) ?_
      refine Decodes.demand (decide_eq_true (hseen c List.mem_cons_self)) ?_
      rw [← List.nil_append (commitments.flatMap _)]
      refine Decodes.bind (decodes_lift (okOr_eq_ok_iff.mpr (hfind c List.mem_cons_self))) ?_
      refine Decodes.map ?_ (fun rest => c :: rest)
      refine ih (fun c' hc' => hfind c' (List.mem_cons_of_mem c hc')) hnodup.2 ?_
      intro c' hc'
      rw [List.mem_cons]
      rintro (heq | hmem)
      · exact hnodup.1 (heq ▸ List.mem_map_of_mem hc')
      · exact hseen c' (List.mem_cons_of_mem c hc') hmem

variable [DecidableEq K]

/-- A manifest is rebuilt from any pool that holds its commitments. -/
theorem fromWirePool_wireBytes
    (hlawful : crate.Lawful)
    {proposal : Proposal K}
    {m : Manifest K}
    {pool : List (ParticipantCommitment K)}
    (hvalid : m.validate crate sponge proposal = .ok ())
    (hdecode : crate.deserializeTransaction m.unsignedTx.serialize = .ok m.unsignedTx)
    (hpool : ∀ c ∈ pool, c.WellFormed crate)
    (hfree : Set.InjOn crate.sha256 {x | ∃ c ∈ pool, x = c.preimage crate})
    (hmem : ∀ c ∈ m.commitments, c ∈ pool) :
    fromWirePool crate sponge proposal pool (m.wireBytes crate) = .ok m := by
  have hbuild := validate_eq_ok_iff.mp hvalid
  obtain ⟨-, -, -, hparticipants, -, _, -, hassembled⟩ := buildAt_spec hbuild
  have hn : (UInt8.ofNat m.commitments.length).toNat = m.commitments.length := by
    have hcount := hassembled.count.2
    rw [UInt8.toNat_ofNat', Nat.mod_eq_of_lt (by unfold maxBatchV2Participants at hcount; omega)]
  have hn' : UInt8.ofNat m.commitments.length = proposal.participantCount := by
    rw [← UInt8.toNat_inj, hn, hparticipants]
  have hselect : Decodes (select crate pool m.commitments.length [])
      (m.commitments.flatMap (fun c => (c.commitmentId crate).toList)) m.commitments :=
    decodes_select
      (fun c hc => ParticipantCommitment.find?_commitmentId hlawful hpool hfree (hmem c hc))
      (nodup_of_buildAt hbuild).1 (fun c _ => List.not_mem_nil)
  -- only the front of the body is read before the commitments are known
  have hselected : answer (selected crate proposal pool) (m.body crate) = .ok m.commitments := by
    have hread : Decodes (selected crate proposal pool)
        (m.batchId.toList ++ (leBytes 4 m.replacementEpoch.toNat ++
          ([UInt8.ofNat m.commitments.length] ++
            m.commitments.flatMap (fun c => (c.commitmentId crate).toList)))) m.commitments := by
      refine Decodes.bind (decodes_array _) ?_
      refine Decodes.bind (decodes_u32 _) ?_
      refine Decodes.bind (decodes_u8 _) ?_
      refine Decodes.demand (decide_eq_true ⟨hassembled.batchId_eq, hn'⟩) ?_
      rw [hn]
      exact hselect
    unfold answer
    simp only [body, List.append_assoc]
    have hfront := hread (leBytes 4 m.maxWeight.toNat ++ (leBytes 4 m.feerateSatVb.toNat ++
      (leBytes 8 m.minerFee.toNat ++ (leBytes 8 m.totalCharge.toNat ++
        (m.charges.flatMap (fun charge => leBytes 8 charge.toNat) ++
          (leBytes 4 m.unsignedTx.serialize.length ++ m.unsignedTx.serialize))))))
    simp only [List.append_assoc] at hfront
    rw [hfront]
  simp only [fromWirePool, except_bind_eq_ok_iff]
  refine ⟨_, wireBody_wireMessage (body_length_lt hbuild), _, hselected, ?_⟩
  exact (codec proposal m.commitments).decode_encode m ⟨hvalid, List.Perm.refl _, hdecode⟩

/--
Peers that hold the same commitments build the same manifest, whatever their order, and
rebuild it from its message out of any pool that holds its commitments.
-/
theorem order_insensitive
    (hlawful : crate.Lawful) :
    (∀ (proposal : Proposal K) (commitments commitments' : List (ParticipantCommitment K))
        (epoch feerate : UInt32) (m : Manifest K), commitments.Perm commitments' →
      (buildAt crate sponge proposal commitments epoch feerate = .ok m ↔
        buildAt crate sponge proposal commitments' epoch feerate = .ok m)) ∧
      ∀ (proposal : Proposal K) (m : Manifest K) (pool : List (ParticipantCommitment K)),
        m.validate crate sponge proposal = .ok () →
        crate.deserializeTransaction m.unsignedTx.serialize = .ok m.unsignedTx →
        (∀ c ∈ pool, c.WellFormed crate) →
        Set.InjOn crate.sha256 {x | ∃ c ∈ pool, x = c.preimage crate} →
        (∀ c ∈ m.commitments, c ∈ pool) →
        fromWirePool crate sponge proposal pool (m.wireBytes crate) = .ok m := by
  constructor
  · intro proposal commitments commitments' epoch feerate m hperm
    exact ⟨buildAt_of_perm hperm, buildAt_of_perm hperm.symm⟩
  · intro proposal m pool hvalid hdecode hpool hfree hmem
    exact fromWirePool_wireBytes hlawful hvalid hdecode hpool hfree hmem

/-- A commitment that the sample manifest does not select. -/
def Sample.third : ParticipantCommitment Sample.Key :=
  Sample.participant 0x30 Sample.firstKey Sample.firstHash

/-- The sample manifest is rebuilt from a pool with a further commitment. -/
theorem rebuilt_from_larger_pool :
    fromWirePool Sample.crate foldSponge Sample.proposal
      [Sample.third, Sample.second, Sample.first] (Sample.manifest.wireBytes Sample.crate) =
        .ok Sample.manifest := by
  have hdistinct : ([Sample.third, Sample.second, Sample.first].map
      (fun c => Sample.crate.sha256 (c.preimage Sample.crate))).Nodup := by
    decide +kernel
  refine (@order_insensitive _ _ Sample.crate foldSponge _ Sample.crate_lawful).2
    Sample.proposal Sample.manifest [Sample.third, Sample.second, Sample.first]
    Sample.validate_manifest Sample.deserialize_manifest ?_ ?_ ?_
  · intro c hc
    refine ⟨Sample.proposal, ?_⟩
    have hvalid : ∀ c ∈ [Sample.third, Sample.second, Sample.first],
        c.validate Sample.crate Sample.proposal = .ok () := by
      decide +kernel
    exact hvalid c hc
  · rintro _ ⟨c, hc, rfl⟩ _ ⟨c', hc', rfl⟩ heq
    rw [List.inj_on_of_nodup_map hdistinct hc hc' heq]
  · intro c hc
    exact List.mem_cons_of_mem _ ((List.Perm.swap _ _ _).mem_iff.mp hc)

end Manifest

end Pool

end OpenCsv
