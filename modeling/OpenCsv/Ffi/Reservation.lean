import OpenCsv.Ffi.WalletOps

/-!
# Reservation of pending spends

A coin is reserved while a live pending transaction names it.  Selection by amount
reads the reservations; calls that name their coins, and imports, do not.

**Results.** Selection by amount uses unspent, unreserved coins only
(`selectTransferInputs_free`).  In every run in which the other calls also avoid
reserved and frozen coins, live pending transactions never share a coin and a `prove` call
consumes unspent coins (`pending_spends_exclusive`).  `Sample.coin_proved_twice`
and `Sample.frozen_coin_proved` show what the other calls allow.
-/

namespace OpenCsv

namespace MemWallet

variable {π : Type}
variable {env : WalletEnv π}

section Reserved

/-- A coin is reserved exactly when a live pending transaction names it. -/
theorem mem_reserved_iff
    {w : MemWallet}
    {id : Text} :
    id ∈ w.reserved ↔ ∃ i p, w.pending.lookup i = some p ∧ id ∈ p.spentIds := by
  unfold reserved
  rw [List.mem_flatMap]
  constructor
  · rintro ⟨⟨i, p⟩, hentry, hid⟩
    exact ⟨i, p, AList.mem_lookup_iff.mpr hentry, hid⟩
  · rintro ⟨i, p, hlookup, hid⟩
    exact ⟨⟨i, p⟩, AList.mem_lookup_iff.mp hlookup, hid⟩

/-- Live pending transactions never share a coin. -/
def Exclusive (w : MemWallet) : Prop :=
  ∀ i j p q, i ≠ j → w.pending.lookup i = some p → w.pending.lookup j = some q →
    ∀ id ∈ p.spentIds, id ∉ q.spentIds

theorem Exclusive.of_pending_eq
    {w w' : MemWallet}
    (h : w.Exclusive)
    (hpending : w'.pending = w.pending) :
    w'.Exclusive := by
  unfold Exclusive
  rw [hpending]
  exact h

/-- A pending transaction over unreserved coins may be added. -/
theorem Exclusive.insert
    {w w' : MemWallet}
    {k : UInt64}
    {p : Pending}
    (h : w.Exclusive)
    (hpending : w'.pending = w.pending.insert k p)
    (hfree : ∀ id ∈ p.spentIds, id ∉ w.reserved) :
    w'.Exclusive := by
  intro i j q r hne hq hr id hid hid'
  rw [hpending] at hq hr
  by_cases hi : i = k
  · -- The new transaction against an older one.
    have hj : j ≠ k := fun hj => hne (hi.trans hj.symm)
    rw [hi, AList.lookup_insert] at hq
    rw [AList.lookup_insert_ne hj] at hr
    obtain rfl := Option.some.inj hq
    exact hfree id hid (mem_reserved_iff.mpr ⟨j, r, hr, hid'⟩)
  · rw [AList.lookup_insert_ne hi] at hq
    by_cases hj : j = k
    · rw [hj, AList.lookup_insert] at hr
      obtain rfl := Option.some.inj hr
      exact hfree id hid' (mem_reserved_iff.mpr ⟨i, q, hq, hid⟩)
    · rw [AList.lookup_insert_ne hj] at hr
      exact h i j q r hne hq hr id hid hid'

theorem Exclusive.erase
    {w w' : MemWallet}
    {k : UInt64}
    (h : w.Exclusive)
    (hpending : w'.pending = w.pending.erase k) :
    w'.Exclusive := by
  intro i j p q hne hp hq
  rw [hpending] at hp hq
  have hi : i ≠ k := by
    rintro rfl
    rw [AList.lookup_erase] at hp
    cases hp
  have hj : j ≠ k := by
    rintro rfl
    rw [AList.lookup_erase] at hq
    cases hq
  rw [AList.lookup_erase_ne hi] at hp
  rw [AList.lookup_erase_ne hj] at hq
  exact h i j p q hne hp hq

end Reserved

section Selection

/-- A coin that may be spent: unspent, and named by no live pending transaction. -/
def Free (env : WalletEnv π) (w : MemWallet) (s : StoredCoin) : Prop :=
  s ∈ w.coins ∧ s.status = .unspent ∧ s.id env.sponge ∉ w.reserved

theorem foldl_better_mem
    {candidates : List Selection}
    {selected : Option Selection}
    {s : Selection}
    (h : candidates.foldl Selection.better selected = some s) :
    s ∈ candidates ∨ selected = some s := by
  induction candidates generalizing selected with
  | nil =>
      exact Or.inr h
  | cons c candidates ih =>
      rcases ih h with hmem | hbetter
      · exact Or.inl (List.mem_cons_of_mem c hmem)
      · unfold Selection.better at hbetter
        split at hbetter
        · obtain rfl := Option.some.inj hbetter
          exact Or.inl List.mem_cons_self
        · split_ifs at hbetter
          · obtain rfl := Option.some.inj hbetter
            exact Or.inl List.mem_cons_self
          · exact Or.inr hbetter

theorem mem_of_mem_pairsInOrder
    {α : Type}
    {xs : List α}
    {x y : α}
    (h : (x, y) ∈ pairsInOrder xs) :
    x ∈ xs ∧ y ∈ xs := by
  induction xs with
  | nil =>
      cases h
  | cons z zs ih =>
      rw [pairsInOrder, List.mem_append, List.mem_map] at h
      rcases h with ⟨y', hy', heq⟩ | h
      · obtain ⟨rfl, rfl⟩ := Prod.mk.inj heq
        exact ⟨List.mem_cons_self, List.mem_cons_of_mem _ hy'⟩
      · exact ⟨List.mem_cons_of_mem _ (ih h).1, List.mem_cons_of_mem _ (ih h).2⟩

/-- The ids of a candidate are ids of eligible coins. -/
theorem mem_eligible_of_candidate
    {eligible : List (Text × UInt64)}
    {amount : UInt64}
    {s : Selection}
    {id : Text}
    (h : s ∈ singles eligible amount ++ doubles eligible amount)
    (hid : id ∈ s.ids) :
    id ∈ eligible.map Prod.fst := by
  rcases List.mem_append.mp h with h | h
  · obtain ⟨⟨id₀, value⟩, hmem, hsome⟩ := List.mem_filterMap.mp h
    dsimp only at hsome
    split_ifs at hsome
    obtain rfl := Option.some.inj hsome
    rw [List.mem_singleton.mp hid]
    exact List.mem_map_of_mem hmem
  · obtain ⟨⟨a, b⟩, hmem, hsome⟩ := List.mem_filterMap.mp h
    obtain ⟨ha, hb⟩ := mem_of_mem_pairsInOrder hmem
    obtain ⟨total, -, htotal⟩ := Option.bind_eq_some_iff.mp hsome
    split_ifs at htotal
    obtain rfl := Option.some.inj htotal
    rcases List.mem_pair.mp hid with rfl | rfl
    · exact List.mem_map_of_mem ha
    · exact List.mem_map_of_mem hb

/-- Selection by amount only uses free coins. -/
theorem selectTransferInputs_free
    {w : MemWallet}
    {assetIdHex : Text}
    {amount total : UInt64}
    {coinIds : List Text}
    (h : w.selectTransferInputs env assetIdHex amount = .ok (coinIds, total)) :
    ∀ id ∈ coinIds, ∃ s, w.Free env s ∧ s.id env.sponge = id := by
  simp only [selectTransferInputs, except_bind_eq_ok_iff, okOr_eq_ok_iff, pure, Except.pure,
    Except.ok.injEq, Prod.mk.injEq] at h
  obtain ⟨-, -, assetId, -, selected, hselected, rfl, -⟩ := h
  intro id hid
  rcases foldl_better_mem hselected with hmem | hnone
  · have heligible := mem_eligible_of_candidate hmem hid
    obtain ⟨⟨id₀, value⟩, hmem₀, rfl⟩ := List.mem_map.mp heligible
    unfold eligible at hmem₀
    rw [List.mem_insertionSort, List.mem_map] at hmem₀
    obtain ⟨s, hs, heq⟩ := hmem₀
    obtain ⟨rfl, -⟩ := Prod.mk.inj heq
    obtain ⟨hcoin, hfree⟩ := List.mem_filter.mp hs
    simp only [Bool.and_eq_true, beq_iff_eq, Bool.not_eq_true', List.contains_eq_mem,
      decide_eq_false_iff_not] at hfree
    exact ⟨s, ⟨hcoin, hfree.1.1.1, hfree.2⟩, rfl⟩
  · cases hnone

end Selection

section Runs

/--
The condition on a step: coins named by hand are neither frozen nor reserved, and
imported spends are not reserved.
-/
def NamesFree (env : WalletEnv π) (w : MemWallet) : Op → Prop
  | .proveTransfer coinIds _ _ _ => ∀ idPrefix ∈ coinIds, ∀ s,
      w.findCoin env idPrefix = .ok s →
      s.status ≠ .frozen ∧ s.id env.sponge ∉ w.reserved
  | .proveRedeem coinId _ => ∀ s, w.findCoin env coinId = .ok s →
      s.status ≠ .frozen ∧ s.id env.sponge ∉ w.reserved
  | .importPending text => ∀ p, readPending env text = .ok p →
      ∀ id ∈ p.spentIds, id ∉ w.reserved
  | _ => True

/-- Under the condition a coin that a `prove` call finds is neither frozen nor reserved. -/
theorem not_frozen_of_named
    {w : MemWallet}
    {op : Op}
    (hcond : NamesFree env w op)
    {idPrefix : Text}
    (hnamed : idPrefix ∈ w.named env op)
    {s : StoredCoin}
    (hfind : w.findCoin env idPrefix = .ok s) :
    s.status ≠ .frozen ∧ s.id env.sponge ∉ w.reserved := by
  cases op with
  | proveTransfer coinIds toOwnerHex amounts draws =>
      exact hcond idPrefix hnamed s hfind
  | proveRedeem coinId draws =>
      obtain rfl := List.mem_singleton.mp hnamed
      exact hcond s hfind
  | proveTransferAmount assetIdHex toOwnerHex amount draws =>
      simp only [named] at hnamed
      split at hnamed
      · rename_i coinIds total hselect
        -- A selected coin is found by its full id.
        obtain ⟨s', ⟨hmem, hunspent, hfree⟩, rfl⟩ :=
          selectTransferInputs_free hselect idPrefix hnamed
        rw [findCoin_id hmem hfind, hunspent]
        exact ⟨by simp, hfree⟩
      · cases hnamed
  | _ =>
      cases hnamed

/-- A successful `prove` call adds one pending transaction over free coins. -/
theorem proveCall_free
    {w w' : MemWallet}
    {op : Op}
    {proved : Proved}
    (hcond : NamesFree env w op)
    (h : w.proveCall env op = some (.ok (proved, w'))) :
    ∃ p, w'.pending = w.pending.insert w.nextPending p ∧ proved.spends = p.spentIds ∧
      ∀ id ∈ p.spentIds, ∃ s, w.Free env s ∧ s.id env.sponge = id ∧
        ∀ c ∈ w.coins, c.id env.sponge = id → c = s := by
  obtain ⟨p, record, ctx, hpush, hmade⟩ := proveCall_spec h
  obtain ⟨rfl, rfl⟩ := Prod.mk.inj hpush
  refine ⟨p, rfl, rfl, ?_⟩
  intro id hid
  obtain ⟨idPrefix, hnamed, s, hfind, hspent, rfl⟩ := hmade.spentIds id hid
  obtain ⟨hmem, hstart, hunique⟩ := findCoin_spec hfind
  obtain ⟨hfrozen, hreserved⟩ := not_frozen_of_named hcond hnamed hfind
  have hunspent : s.status = .unspent := by
    cases hstatus : s.status with
    | unspent => rfl
    | frozen => exact absurd hstatus hfrozen
    | spent => exact absurd hstatus hspent
  refine ⟨s, ⟨hmem, hunspent, hreserved⟩, rfl, ?_⟩
  intro c hc heq
  exact hunique c hc (heq ▸ hstart)

theorem pending_creditCoins
    (call : VerifyCall)
    (consignment : Consignment)
    (coins : List Coin)
    (state : CreditState) :
    (creditCoins env call consignment coins state).1.wallet.pending =
      state.wallet.pending := by
  induction coins generalizing state with
  | nil =>
      rfl
  | cons coin coins ih =>
      rw [creditCoins]
      split
      · rfl
      · rw [ih]
        rfl

theorem pending_verifyWithProvenance
    (w : MemWallet)
    (call : VerifyCall) :
    (w.verifyWithProvenance env call).1.pending = w.pending := by
  unfold verifyWithProvenance
  split
  · rfl
  · rename_i consignment hdecode
    split
    · rfl
    · rename_i accepted haccept
      have hcredit : (creditCoins env call consignment accepted.coins
          ⟨w.pinAux env consignment.aux, [], []⟩).1.wallet.pending = w.pending :=
        (pending_creditCoins call consignment accepted.coins _).trans
          (pending_pinAux w consignment.aux)
      split
      · rename_i state e hstate
        rw [hstate] at hcredit
        exact hcredit
      · rename_i state u hstate
        rw [hstate] at hcredit
        exact hcredit

theorem pending_markSpent
    (coinIds : List Text)
    (w : MemWallet) :
    (w.markSpent env coinIds).1.pending = w.pending := by
  induction coinIds generalizing w with
  | nil =>
      rfl
  | cons id ids ih =>
      rw [markSpent]
      split
      · rfl
      · rw [ih]

/-- A step under the condition keeps the live pending transactions apart. -/
theorem Exclusive.apply
    {w : MemWallet}
    {op : Op}
    (h : w.Exclusive)
    (hcond : NamesFree env w op) :
    (w.apply env op).Exclusive := by
  have hprove : ((w.proveCall env op).elim w w.afterCall).Exclusive := by
    cases hcall : w.proveCall env op with
    | none =>
        exact h
    | some result =>
        cases result with
        | error e =>
            exact h
        | ok result =>
            obtain ⟨p, hpending, -, hfree⟩ := proveCall_free hcond hcall
            apply h.insert hpending
            intro id hid
            obtain ⟨s, hs, rfl, -⟩ := hfree id hid
            exact hs.2.2
  cases op with
  | keygen secret =>
      exact h
  | initIssuer currency seed =>
      apply h.of_pending_eq
      simp only [MemWallet.apply, initIssuer]
      cases parseCurrencyCode currency with
      | error e => rfl
      | ok code => exact pending_pinAsset w _
  | initIssuerFromSeed currency seed nonce termsHash =>
      apply h.of_pending_eq
      simp only [MemWallet.apply, initIssuerFromSeed]
      cases parseCurrencyCode currency with
      | error e => rfl
      | ok code =>
          simp only [bind, Except.bind, pure, Except.pure, afterCall]
          split
          · rfl
          · exact pending_pinAsset w _
  | proveMint | proveTransfer | proveTransferAmount | proveRedeem =>
      exact hprove
  | importPending text =>
      simp only [MemWallet.apply, importPending]
      cases hread : readPending env text with
      | error e => exact h
      | ok p => exact h.insert rfl (hcond p hread)
  | cancelPending pendingId =>
      exact h.erase rfl
  | finalize pendingId anchorRef =>
      simp only [MemWallet.apply, finalize]
      cases w.findPending pendingId "unknown" with
      | error e => exact h
      | ok p => exact h.erase rfl
  | verify call =>
      exact h.of_pending_eq (pending_verifyWithProvenance w call)
  | freezeUnconfirmedAnchor anchorTxid =>
      exact h
  | markSpent coinIds =>
      exact h.of_pending_eq (pending_markSpent coinIds w)
  | markConfirmedSpentNullifiers nullifiers =>
      obtain ⟨ids, hids⟩ := markConfirmedSpentNullifiers_eq env w nullifiers
      simp only [MemWallet.apply, hids]
      exact h.of_pending_eq (pending_markSpent ids w)

/--
In every run in which coins named by hand are neither frozen nor reserved and imported
spends are not reserved, no two live pending transactions name one coin, and a `prove`
call that succeeds consumes coins that are unspent at that moment.
-/
theorem pending_spends_exclusive
    {w : MemWallet}
    (hreach : ((system env).restrict (NamesFree env)).Reachable w) :
    w.Exclusive ∧
      ∀ op proved w', NamesFree env w op → w.proveCall env op = some (.ok (proved, w')) →
        ∀ id ∈ proved.spends,
          (∃ s ∈ w.coins, s.id env.sponge = id) ∧
          ∀ s ∈ w.coins, s.id env.sponge = id → s.status = .unspent := by
  constructor
  · apply System.Reachable.invariant _ _ hreach
    · intro w hinit i j p q _ hp
      rw [(init_spec hinit).2] at hp
      cases hp
    · rintro w op _ h ⟨rfl, hcond⟩
      exact h.apply hcond
  · intro op proved w' hcond hcall id hid
    obtain ⟨p, -, hspends, hfree⟩ := proveCall_free hcond hcall
    rw [hspends] at hid
    obtain ⟨s, hs, hid', hunique⟩ := hfree id hid
    refine ⟨⟨s, hs.1, hid'⟩, ?_⟩
    intro c hc heq
    rw [hunique c hc heq]
    exact hs.2.1

end Runs

namespace Sample

open OpenCsv.Sample (coin osk)

theorem payment_spends_exclusive :
    (held (JsonText.ofValue .null)).Exclusive ∧
      ∃ proved w', (held (JsonText.ofValue .null)).proveCall plainEnv payOp =
          some (.ok (proved, w')) ∧
        ∀ id ∈ proved.spends, ∀ s ∈ (held (JsonText.ofValue .null)).coins,
          s.id foldSponge = id → s.status = .unspent := by
  have hreach : ((system plainEnv).restrict (NamesFree plainEnv)).Reachable
      (held (JsonText.ofValue .null)) := by
    apply System.Reachable.step (a := .verify mintCall)
      (System.Reachable.init (Or.inl ⟨osk.digest.bytes, rfl⟩))
    exact ⟨rfl, trivial⟩
  obtain ⟨hexclusive, hprove⟩ := pending_spends_exclusive hreach
  have hfree : NamesFree plainEnv (held (JsonText.ofValue .null)) payOp := by
    intro idPrefix _ s hs
    obtain ⟨hmem, -, -⟩ := findCoin_spec hs
    have hall : (held (JsonText.ofValue .null)).coins.all (fun s => s.status == .unspent &&
        !(held (JsonText.ofValue .null)).reserved.contains (s.id foldSponge)) = true := by
      decide +kernel
    have hcoin := List.all_eq_true.mp hall s hmem
    rw [Bool.and_eq_true, beq_iff_eq, Bool.not_eq_true', List.contains_eq_mem,
      decide_eq_false_iff_not] at hcoin
    rw [hcoin.1]
    exact ⟨by simp, hcoin.2⟩
  have hsome : ((held (JsonText.ofValue .null)).proveCall plainEnv payOp).any
      (fun result => result.toOption.isSome) = true := by
    decide +kernel
  obtain ⟨result, hcall, hok⟩ := (Option.any_eq_true _ _).mp hsome
  cases result with
  | error e =>
      cases hok
  | ok result =>
      obtain ⟨proved, w'⟩ := result
      refine ⟨hexclusive, proved, w', hcall, ?_⟩
      intro id hid
      exact (hprove payOp proved w' hfree hcall id hid).2

/-- The wallet after the same coin was paid twice. -/
def paidTwice : MemWallet :=
  ((held (JsonText.ofValue .null)).apply plainEnv payOp).apply plainEnv payOp

/-- Two live transactions of a reachable wallet name one coin. -/
theorem coin_proved_twice :
    (system plainEnv).Reachable paidTwice ∧ ¬ paidTwice.Exclusive := by
  refine ⟨reachable_apply (reachable_apply (held_reachable _) payOp) payOp, ?_⟩
  intro hexclusive
  have hshared : (paidTwice.pending.lookup 1).map Pending.spentIds =
        some [(coin 60 1).id foldSponge] ∧
      (paidTwice.pending.lookup 2).map Pending.spentIds =
        some [(coin 60 1).id foldSponge] := by
    decide +kernel
  obtain ⟨p, hp, hspent⟩ := Option.map_eq_some_iff.mp hshared.1
  obtain ⟨q, hq, hspent'⟩ := Option.map_eq_some_iff.mp hshared.2
  refine hexclusive 1 2 p q (by decide) hp hq ((coin 60 1).id foldSponge) ?_ ?_
  · rw [hspent]
    exact List.mem_singleton_self _
  · rw [hspent']
    exact List.mem_singleton_self _

/-- The wallet after the mint was seen unconfirmed and then vanished. -/
def frozenHeld : MemWallet :=
  ((create osk.digest.bytes).apply plainEnv
    (.verify { mintCall with
      requiredConfirmations := 0
      unconfirmedAnchor := some (Text.lit "31") })).apply plainEnv
        (.freezeUnconfirmedAnchor (Text.lit "31"))

/-- A frozen coin is consumed by a `prove` call. -/
theorem frozen_coin_proved :
    (system plainEnv).Reachable frozenHeld ∧
      (match frozenHeld.proveCall plainEnv payOp with
        | some (.ok (proved, _)) => proved.spends.any (fun id =>
            frozenHeld.coins.any (fun s => s.id foldSponge == id && s.status == .frozen))
        | _ => false) = true :=
  ⟨reachable_apply (reachable_apply (reachable_create _) _) _, by decide +kernel⟩

end Sample

end MemWallet

end OpenCsv
