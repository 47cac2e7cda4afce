import OpenCsv.Ffi.WalletOps

/-!
# Coin status over whole runs

Six operations write the status and the provenance of stored coins.  Each of them
either rewrites a coin in place or merges a delivered coin into the coin with its
id, so one relation between coin lists describes them all (`Follows`).

**Results.** Every operation moves the coins along `Follows` (`apply_follows`), and
a whole run keeps ids unique, spent coins spent and settled coins settled, and
restores frozen coins only through accepted settled verifications
(`coin_status_monotone`).
-/

namespace OpenCsv

namespace MemWallet

variable {π : Type}
variable {env : WalletEnv π}

section Evolution

/-- What a coin may become; `thaw` says whether a frozen coin may be restored. -/
structure Evolves (env : WalletEnv π) (thaw : Prop) (c c' : StoredCoin) : Prop where
  id : c'.id env.sponge = c.id env.sponge
  spent : c.status = .spent → c'.status = .spent
  settled : c.unconfirmedAnchor = none → c'.unconfirmedAnchor = none
  frozen : c.status = .frozen → c'.status = .unspent → thaw

/-- How a coin list may change. -/
structure Follows
    (env : WalletEnv π)
    (thaw : Text → Prop)
    (coins coins' : List StoredCoin) : Prop where
  nodup : (coins.map (StoredCoin.id env.sponge)).Nodup →
    (coins'.map (StoredCoin.id env.sponge)).Nodup
  evolves : ∀ c ∈ coins, ∃ c' ∈ coins', Evolves env (thaw (c.id env.sponge)) c c'

variable {thaw : Text → Prop}

theorem Evolves.refl
    {p : Prop}
    (c : StoredCoin) :
    Evolves env p c c where
  id := rfl
  spent := fun h => h
  settled := fun h => h
  frozen := by
    intro hfrozen hunspent
    rw [hfrozen] at hunspent
    cases hunspent

/-- Spending a coin is always allowed. -/
theorem Evolves.spend
    {p : Prop}
    (c : StoredCoin) :
    Evolves env p c { c with status := .spent } :=
  ⟨rfl, fun _ => rfl, fun h => h, fun _ h => nomatch h⟩

theorem Follows.refl
    (coins : List StoredCoin) :
    Follows env thaw coins coins where
  nodup := fun h => h
  evolves := fun c hc => ⟨c, hc, Evolves.refl c⟩

theorem Follows.weaken
    {thaw' : Text → Prop}
    {coins coins' : List StoredCoin}
    (h : Follows env thaw coins coins')
    (hle : ∀ id, thaw id → thaw' id) :
    Follows env thaw' coins coins' := by
  refine ⟨h.nodup, ?_⟩
  intro c hc
  obtain ⟨c', hc', he⟩ := h.evolves c hc
  exact ⟨c', hc', he.id, he.spent, he.settled, fun hf hu => hle _ (he.frozen hf hu)⟩

theorem Follows.trans
    {coins coins' coins'' : List StoredCoin}
    (h : Follows env thaw coins coins')
    (h' : Follows env thaw coins' coins'') :
    Follows env thaw coins coins'' := by
  refine ⟨fun hnodup => h'.nodup (h.nodup hnodup), ?_⟩
  intro c hc
  obtain ⟨c', hc', he⟩ := h.evolves c hc
  obtain ⟨c'', hc'', he'⟩ := h'.evolves c' hc'
  refine ⟨c'', hc'', he'.id.trans he.id, fun hs => he'.spent (he.spent hs),
    fun hs => he'.settled (he.settled hs), ?_⟩
  -- A coin restored over two steps is restored by one of them.
  intro hfrozen hunspent
  cases hstatus : c'.status with
  | unspent =>
      exact he.frozen hfrozen hstatus
  | frozen =>
      rw [← he.id]
      exact he'.frozen hstatus hunspent
  | spent =>
      rw [he'.spent hstatus] at hunspent
      cases hunspent

/-- Rewriting coins in place. -/
theorem Follows.map
    {f : StoredCoin → StoredCoin}
    (h : ∀ c, Evolves env (thaw (c.id env.sponge)) c (f c))
    (coins : List StoredCoin) :
    Follows env thaw coins (coins.map f) := by
  have hids : (coins.map f).map (StoredCoin.id env.sponge) =
      coins.map (StoredCoin.id env.sponge) := by
    rw [List.map_map]
    exact List.map_congr_left (fun c _ => (h c).id)
  refine ⟨fun hnodup => hids ▸ hnodup, ?_⟩
  intro c hc
  exact ⟨f c, List.mem_map_of_mem hc, h c⟩

/-- Appending a coin with a new id. -/
theorem Follows.append
    {coins : List StoredCoin}
    {stored : StoredCoin}
    (h : stored.id env.sponge ∉ coins.map (StoredCoin.id env.sponge)) :
    Follows env thaw coins (coins ++ [stored]) := by
  refine ⟨?_, fun c hc => ⟨c, List.mem_append_left _ hc, Evolves.refl c⟩⟩
  intro hnodup
  rw [List.map_append, List.map_cons, List.map_nil]
  refine hnodup.append (List.nodup_singleton _) ?_
  intro id hid hid'
  rw [List.mem_singleton.mp hid'] at hid
  exact h hid

/-- A change behind the first coin. -/
theorem Follows.cons
    {coins coins' : List StoredCoin}
    (c : StoredCoin)
    (h : Follows env thaw coins coins')
    (hids : ∀ id ∈ coins'.map (StoredCoin.id env.sponge),
      id ∈ coins.map (StoredCoin.id env.sponge) ∨ id ≠ c.id env.sponge) :
    Follows env thaw (c :: coins) (c :: coins') := by
  refine ⟨?_, ?_⟩
  · intro hnodup
    rw [List.map_cons, List.nodup_cons] at hnodup ⊢
    refine ⟨?_, h.nodup hnodup.2⟩
    intro hmem
    rcases hids _ hmem with hold | hne
    · exact hnodup.1 hold
    · exact hne rfl
  · intro d hd
    rcases List.mem_cons.mp hd with rfl | hd
    · exact ⟨d, List.mem_cons_self, Evolves.refl d⟩
    · obtain ⟨d', hd', he⟩ := h.evolves d hd
      exact ⟨d', List.mem_cons_of_mem c hd', he⟩

/-- A change of the first coin. -/
theorem Follows.head
    {c c' : StoredCoin}
    (coins : List StoredCoin)
    (h : Evolves env (thaw (c.id env.sponge)) c c') :
    Follows env thaw (c :: coins) (c' :: coins) := by
  refine ⟨?_, ?_⟩
  · intro hnodup
    rw [List.map_cons, h.id]
    exact hnodup
  · intro d hd
    rcases List.mem_cons.mp hd with rfl | hd
    · exact ⟨c', List.mem_cons_self, h⟩
    · exact ⟨d, List.mem_cons_of_mem c' hd, Evolves.refl d⟩

theorem Follows.foldl
    {α : Type}
    {f : List StoredCoin → α → List StoredCoin}
    (h : ∀ coins a, Follows env thaw coins (f coins a))
    (as : List α)
    (coins : List StoredCoin) :
    Follows env thaw coins (as.foldl f coins) := by
  induction as generalizing coins with
  | nil =>
      exact Follows.refl coins
  | cons a as ih =>
      exact (h coins a).trans (ih (f coins a))

end Evolution

section Operations

variable {thaw : Text → Prop}

theorem mem_ids_upsertCoin
    {stored : StoredCoin}
    {coins : List StoredCoin}
    {id : Text}
    (h : id ∈ (upsertCoin env stored coins).map (StoredCoin.id env.sponge)) :
    id ∈ coins.map (StoredCoin.id env.sponge) ∨ id = stored.id env.sponge := by
  induction coins with
  | nil =>
      exact Or.inr (List.mem_singleton.mp h)
  | cons c coins ih =>
      rw [upsertCoin] at h
      split_ifs at h with heq
      · rw [List.map_cons, List.mem_cons] at h
        rcases h with rfl | h
        · exact Or.inr rfl
        · exact Or.inl (List.mem_cons_of_mem _ h)
      · rw [List.map_cons, List.mem_cons] at h
        rcases h with rfl | h
        · exact Or.inl List.mem_cons_self
        · exact (ih h).imp_left (List.mem_cons_of_mem _)

/-- A merge moves the coins as it moves the coin it replaces. -/
theorem upsertCoin_follows
    {stored : StoredCoin}
    {coins : List StoredCoin}
    (h : ∀ existing,
      coins.find? (fun c => c.id env.sponge == stored.id env.sponge) = some existing →
      Evolves env (thaw (existing.id env.sponge)) existing stored) :
    Follows env thaw coins (upsertCoin env stored coins) := by
  induction coins with
  | nil =>
      exact Follows.append (by simp)
  | cons c coins ih =>
      rw [upsertCoin]
      split_ifs with heq
      · refine Follows.head coins (h c ?_)
        simp [heq]
      · rw [List.find?_cons_of_neg (by simpa using heq)] at h
        refine Follows.cons c (ih h) ?_
        intro id hid
        rcases mem_ids_upsertCoin hid with hold | rfl
        · exact Or.inl hold
        · exact Or.inr (fun hid' => heq hid'.symm)

@[simp] theorem ids_spendId
    (id : Text)
    (coins : List StoredCoin) :
    (spendId env id coins).map (StoredCoin.id env.sponge) =
      coins.map (StoredCoin.id env.sponge) := by
  induction coins with
  | nil =>
      rfl
  | cons c coins ih =>
      rw [spendId]
      split_ifs
      · rfl
      · rw [List.map_cons, List.map_cons, ih]

theorem spendId_follows
    (coins : List StoredCoin)
    (id : Text) :
    Follows env thaw coins (spendId env id coins) := by
  induction coins with
  | nil =>
      exact Follows.refl []
  | cons c coins ih =>
      rw [spendId]
      split_ifs with heq
      · exact Follows.head coins (Evolves.spend c)
      · refine Follows.cons c ih ?_
        intro id' hid'
        rw [ids_spendId] at hid'
        exact Or.inl hid'

/-- An output of our own keeps the status and the settled anchor of a known coin. -/
theorem creditLocalOutput_follows
    (coins : List StoredCoin)
    (stored : StoredCoin) :
    Follows env thaw coins (creditLocalOutput env coins stored) := by
  unfold creditLocalOutput
  split
  · rename_i existing hfind
    apply upsertCoin_follows
    intro existing' hfind'
    obtain rfl : existing = existing' := Option.some.inj (hfind.symm.trans hfind')
    refine ⟨?_, fun hs => hs, ?_, ?_⟩
    · exact (beq_iff_eq.mp (List.find?_some hfind :)).symm
    · intro hsettled
      simp [hsettled]
    · intro hfrozen hunspent
      rw [hfrozen] at hunspent
      cases hunspent
  · rename_i hfind
    apply Follows.append
    rw [List.find?_eq_none] at hfind
    intro hmem
    obtain ⟨c, hc, hid⟩ := List.mem_map.mp hmem
    exact hfind c hc (beq_iff_eq.mpr hid)

/-- Marking by prefix only ever spends. -/
theorem markSpent_follows
    (coinIds : List Text)
    (w : MemWallet) :
    Follows env thaw w.coins (w.markSpent env coinIds).1.coins := by
  induction coinIds generalizing w with
  | nil =>
      exact Follows.refl w.coins
  | cons id ids ih =>
      rw [markSpent]
      split
      · exact Follows.refl w.coins
      · rename_i s hfind
        set marked : MemWallet :=
          { w with
            coins := w.coins.map (fun c =>
              if (c.id env.sponge).startsWith id then { c with status := .spent } else c) }
        have hmark : Follows env thaw w.coins marked.coins := by
          refine Follows.map ?_ w.coins
          intro c
          split_ifs
          · exact Evolves.spend c
          · exact Evolves.refl c
        exact hmark.trans (ih marked)

theorem freezeUnconfirmedAnchor_follows
    (w : MemWallet)
    (anchorTxid : Text) :
    Follows env thaw w.coins (w.freezeUnconfirmedAnchor anchorTxid).coins := by
  refine Follows.map ?_ w.coins
  intro c
  split_ifs with h
  · refine ⟨rfl, ?_, fun hs => hs, fun _ hu => nomatch hu⟩
    intro hspent
    rw [h.1] at hspent
    cases hspent
  · exact Evolves.refl c

/-- A delivery keeps what the wallet knows, and thaws the coin only if it is settled. -/
theorem creditCoin_follows
    {call : VerifyCall}
    {proof : List UInt8}
    {selector : ℕ}
    {state : CreditState}
    {coin : Coin}
    (hthaw : call.unconfirmedAnchor = none → thaw (coin.id env.sponge)) :
    Follows env thaw state.wallet.coins
      (creditCoin env call proof selector state coin).wallet.coins := by
  have hid : ∀ existing, (redeliver call existing
      ⟨coin, .unspent, proof, selector, call.unconfirmedAnchor⟩).id env.sponge =
        coin.id env.sponge := by
    intro existing
    cases existing <;> rfl
  apply upsertCoin_follows
  rw [hid]
  intro existing hfind
  have hexisting : existing.id env.sponge = coin.id env.sponge :=
    beq_iff_eq.mp (List.find?_some hfind :)
  rw [hfind]
  refine ⟨(hid _).trans hexisting.symm, ?_, ?_, ?_⟩
  · intro hspent
    simp [redeliver, hspent]
  · intro hsettled
    simp [redeliver, hsettled]
  · intro hfrozen hunspent
    rw [hexisting]
    apply hthaw
    by_contra hanchor
    have hsome : call.unconfirmedAnchor.isNone = false := by
      rw [Option.isNone_eq_false_iff, Option.isSome_iff_ne_none]
      exact hanchor
    simp [redeliver, hsome, hfrozen] at hunspent

theorem creditCoins_follows
    {call : VerifyCall}
    {consignment : Consignment}
    {coins : List Coin}
    {state : CreditState}
    (hthaw : ∀ coin ∈ coins, call.unconfirmedAnchor = none → thaw (coin.id env.sponge)) :
    Follows env thaw state.wallet.coins
      (creditCoins env call consignment coins state).1.wallet.coins := by
  induction coins generalizing state with
  | nil =>
      exact Follows.refl _
  | cons coin coins ih =>
      rw [creditCoins]
      split
      · exact Follows.refl _
      · have hcoin := hthaw coin List.mem_cons_self
        exact (creditCoin_follows hcoin).trans
          (ih (fun c hc => hthaw c (List.mem_cons_of_mem coin hc)))

end Operations

section Runs

/-- The operations that may restore a frozen coin: accepted settled verifications of it. -/
def Thaws (env : WalletEnv π) (w : MemWallet) (op : Op) (id : Text) : Prop :=
  ∃ call consignment accepted, op = .verify call ∧ call.unconfirmedAnchor = none ∧
    env.decodeConsignment call.blob = .ok consignment ∧
    w.acceptConsignment env call consignment = .ok accepted ∧
    id ∈ accepted.coins.map (Coin.id env.sponge)

theorem verify_follows
    (w : MemWallet)
    (call : VerifyCall) :
    Follows env (Thaws env w (.verify call)) w.coins
      (w.verifyWithProvenance env call).1.coins := by
  unfold verifyWithProvenance
  split
  · exact Follows.refl _
  · rename_i consignment hdecode
    split
    · exact Follows.refl _
    · rename_i accepted haccept
      have hcredit : Follows env (Thaws env w (.verify call)) w.coins
          (creditCoins env call consignment accepted.coins
            ⟨w.pinAux env consignment.aux, [], []⟩).1.wallet.coins := by
        have hthaw : ∀ coin ∈ accepted.coins, call.unconfirmedAnchor = none →
            Thaws env w (.verify call) (coin.id env.sponge) := by
          intro coin hcoin hsettled
          exact ⟨call, consignment, accepted, rfl, hsettled, hdecode, haccept,
            List.mem_map_of_mem hcoin⟩
        set start : CreditState := ⟨w.pinAux env consignment.aux, [], []⟩
        have hpinned : start.wallet.coins = w.coins :=
          coins_pinAux w consignment.aux
        rw [← hpinned]
        exact creditCoins_follows hthaw
      split
      · rename_i state e hstate
        rw [hstate] at hcredit
        exact hcredit
      · rename_i state u hstate
        rw [hstate] at hcredit
        exact hcredit

/-- Finalizing spends the inputs and merges the outputs that come back. -/
theorem finalize_follows
    {w w' : MemWallet}
    {pendingId : UInt64}
    {anchorRef : AnchorRef}
    {result : List UInt8 × List Text}
    {thaw : Text → Prop}
    (h : w.finalize env pendingId anchorRef = .ok (result, w')) :
    Follows env thaw w.coins w'.coins := by
  simp only [finalize, except_bind_eq_ok_iff, pure, Except.pure, Except.ok.injEq,
    Prod.mk.injEq] at h
  obtain ⟨pending, -, -, rfl⟩ := h
  have hspend : Follows env thaw w.coins
      (pending.spentIds.foldl (fun coins id => spendId env id coins) w.coins) :=
    Follows.foldl (fun coins id => spendId_follows coins id) pending.spentIds w.coins
  exact hspend.trans (Follows.foldl creditLocalOutput_follows _ _)

/-- Every operation moves the coins along `Follows`. -/
theorem apply_follows
    (w : MemWallet)
    (op : Op) :
    Follows env (Thaws env w op) w.coins (w.apply env op).coins := by
  have hsame : ∀ w' : MemWallet, w'.coins = w.coins → Follows env (Thaws env w op) w.coins w'.coins := by
    intro w' hw'
    rw [hw']
    exact Follows.refl _
  have hprove : ∀ op', ((w.proveCall env op').elim w w.afterCall).coins = w.coins := by
    intro op'
    cases hcall : w.proveCall env op' with
    | none =>
        rfl
    | some result =>
        cases result with
        | error e =>
            rfl
        | ok result =>
            obtain ⟨proved, w'⟩ := result
            obtain ⟨p, record, ctx, hpush, -⟩ := proveCall_spec hcall
            have hw : w' = (w.pushPending p record ctx).2 := by
              rw [hpush]
            rw [Option.elim_some, afterCall, hw]
            rfl
  cases op with
  | keygen secret =>
      exact Follows.refl _
  | initIssuer currency seed =>
      apply hsame
      simp only [apply, initIssuer]
      cases parseCurrencyCode currency with
      | error e => rfl
      | ok code => exact coins_pinAsset w _
  | initIssuerFromSeed currency seed nonce termsHash =>
      apply hsame
      simp only [apply, initIssuerFromSeed]
      cases parseCurrencyCode currency with
      | error e => rfl
      | ok code =>
          simp only [bind, Except.bind, pure, Except.pure, afterCall]
          split
          · rfl
          · exact coins_pinAsset w _
  | proveMint | proveTransfer | proveTransferAmount | proveRedeem =>
      exact hsame _ (hprove _)
  | importPending text =>
      apply hsame
      simp only [apply, importPending]
      cases readPending env text with
      | error e => rfl
      | ok p => rfl
  | cancelPending pendingId =>
      exact Follows.refl _
  | finalize pendingId anchorRef =>
      simp only [apply]
      cases h : w.finalize env pendingId anchorRef with
      | error e => exact Follows.refl _
      | ok result => exact finalize_follows h
  | verify call =>
      exact verify_follows w call
  | freezeUnconfirmedAnchor anchorTxid =>
      exact freezeUnconfirmedAnchor_follows w anchorTxid
  | markSpent coinIds =>
      exact markSpent_follows coinIds w
  | markConfirmedSpentNullifiers nullifiers =>
      obtain ⟨ids, hids⟩ := markConfirmedSpentNullifiers_eq env w nullifiers
      simp only [apply, hids]
      exact markSpent_follows ids w

/-- A run of operations. -/
def run (env : WalletEnv π) (w : MemWallet) (ops : List Op) : MemWallet :=
  ops.foldl (apply env) w

/-- Some operation of the run restores the coin. -/
def ThawedIn (env : WalletEnv π) (w : MemWallet) (ops : List Op) (id : Text) : Prop :=
  ∃ before op after, ops = before ++ op :: after ∧ Thaws env (w.run env before) op id

/-- A whole run moves the coins along `Follows`. -/
theorem run_follows
    (w : MemWallet)
    (ops : List Op) :
    Follows env (ThawedIn env w ops) w.coins (w.run env ops).coins := by
  induction ops generalizing w with
  | nil =>
      exact Follows.refl _
  | cons op ops ih =>
      have hstep : Follows env (ThawedIn env w (op :: ops)) w.coins (w.apply env op).coins :=
        (apply_follows w op).weaken (fun id h => ⟨[], op, ops, rfl, h⟩)
      have hrest : Follows env (ThawedIn env w (op :: ops)) (w.apply env op).coins
          (w.run env (op :: ops)).coins := by
        refine (ih (w.apply env op)).weaken ?_
        rintro id ⟨before, op', after, rfl, h⟩
        exact ⟨op :: before, op', after, rfl, h⟩
      exact hstep.trans hrest

theorem ids_nodup_of_reachable
    {w : MemWallet}
    (h : (system env).Reachable w) :
    (w.coins.map (StoredCoin.id env.sponge)).Nodup := by
  apply System.Reachable.invariant _ _ h
  · intro w hinit
    rw [(init_spec hinit).1]
    exact List.nodup_nil
  · rintro w op _ hnodup rfl
    exact (apply_follows w op).nodup hnodup

/--
In every reachable wallet each coin id occurs once, and over every further run a
coin is kept, a spent coin stays spent, a settled coin stays settled, and a frozen
coin becomes unspent only if the run has an accepted settled verification of it.
-/
theorem coin_status_monotone
    {w : MemWallet}
    (hreach : (system env).Reachable w)
    (ops : List Op) :
    (w.coins.map (StoredCoin.id env.sponge)).Nodup ∧
      ((w.run env ops).coins.map (StoredCoin.id env.sponge)).Nodup ∧
      ∀ c ∈ w.coins, ∃ c' ∈ (w.run env ops).coins, c'.id env.sponge = c.id env.sponge ∧
        (c.status = .spent → c'.status = .spent) ∧
        (c.unconfirmedAnchor = none → c'.unconfirmedAnchor = none) ∧
        (c.status = .frozen → c'.status = .unspent →
          ThawedIn env w ops (c.id env.sponge)) := by
  have hnodup := ids_nodup_of_reachable hreach
  have hrun : Follows env (ThawedIn env w ops) w.coins (w.run env ops).coins :=
    run_follows w ops
  refine ⟨hnodup, hrun.nodup hnodup, ?_⟩
  intro c hc
  obtain ⟨c', hc', he⟩ := hrun.evolves c hc
  exact ⟨c', hc', he.id, he.spent, he.settled, he.frozen⟩

end Runs

namespace Sample

theorem held_status_monotone :
    (held (JsonText.ofValue .null)).coins.length = 2 ∧
      ∀ c ∈ (held (JsonText.ofValue .null)).coins,
        ∃ c' ∈ ((held (JsonText.ofValue .null)).run (mintEnv (JsonText.ofValue .null))
            [.markSpent [], .verify mintCall]).coins,
          c'.id foldSponge = c.id foldSponge ∧ (c.status = .spent → c'.status = .spent) := by
  refine ⟨by decide +kernel, ?_⟩
  obtain ⟨-, -, hrun⟩ := coin_status_monotone (held_reachable (JsonText.ofValue .null))
    [.markSpent [], .verify mintCall]
  intro c hc
  obtain ⟨c', hc', hid, hspent, -⟩ := hrun c hc
  exact ⟨c', hc', hid, hspent⟩

end Sample

end MemWallet

end OpenCsv
