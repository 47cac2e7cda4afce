import OpenCsv.Account.ProofJob
import OpenCsv.Account.Recovery
import OpenCsv.Ffi.CoinSelection

/-!
# Reselection

A proof job selects its inputs on a snapshot of the wallet.  Inputs that the verified chain has
already spent are marked, and the selection is made again.

**Results.** Every round but the last spends a coin (`unspentCount_lt`), so the rounds end
(`reconcileSnapshot_fuel`), with a selection that the chain has not spent
(`coin_selection`).
-/

namespace OpenCsv

open MemWallet (Cover Least sortedIds valueOf)

variable {π : Type}

section Marking

variable {env : WalletEnv π}

/-- The coins that can still be selected or marked. -/
def unspentCount (w : MemWallet) : ℕ :=
  w.coins.countP (fun s => s.status == .unspent)

theorem countP_lt_of_mem
    {α : Type}
    {p q : α → Bool}
    {xs : List α}
    (hle : ∀ x ∈ xs, p x = true → q x = true)
    {x : α}
    (hx : x ∈ xs)
    (hq : q x = true)
    (hp : p x = false) :
    xs.countP p < xs.countP q := by
  induction xs with
  | nil =>
      cases hx
  | cons y ys ih =>
      have hrest : ∀ z ∈ ys, p z = true → q z = true :=
        fun z hz => hle z (List.mem_cons_of_mem y hz)
      rw [List.countP_cons, List.countP_cons]
      rcases List.mem_cons.mp hx with rfl | hmem
      · have hmono := List.countP_mono_left hrest
        simp [hp, hq]
        omega
      · have hlt := ih hrest hmem
        have hy := hle y List.mem_cons_self
        cases hpy : p y with
        | false =>
            simp
            omega
        | true =>
            simp [hy hpy]
            omega

/-- Marking by ids spends the coins that the ids name. -/
theorem coins_markSpent
    {w w' : MemWallet}
    {ids : List Text}
    (h : w.markSpent env ids = (w', .ok ())) :
    w'.coins = w.coins.map (fun c =>
      if ids.any (fun id => (c.id env.sponge).startsWith id) then { c with status := .spent }
      else c) := by
  induction ids generalizing w with
  | nil =>
      obtain rfl : w = w' := (Prod.mk.inj h).1
      simp
  | cons id ids ih =>
      rw [MemWallet.markSpent] at h
      split at h
      · cases (Prod.mk.inj h).2
      · rw [ih h, List.map_map]
        apply List.map_congr_left
        intro c _
        have hid : ∀ c : StoredCoin, StoredCoin.id env.sponge { c with status := .spent } =
            c.id env.sponge := fun _ => rfl
        by_cases hfirst : (c.id env.sponge).startsWith id = true
        · simp [hfirst, hid]
        · simp [hfirst]

/-- What is marked are unspent coins, by their ids. -/
theorem of_markConfirmedSpentNullifiers
    {w w' : MemWallet}
    {nullifiers : List Digest}
    {removed : List Text}
    (h : w.markConfirmedSpentNullifiers env nullifiers = (w', .ok removed)) :
    w.markSpent env removed = (w', .ok ()) ∧
      ∀ id ∈ removed, ∃ c ∈ w.coins, (c.status == .unspent) = true ∧ c.id env.sponge = id := by
  unfold MemWallet.markConfirmedSpentNullifiers at h
  dsimp only at h
  split at h
  · cases (Prod.mk.inj h).2
  · rename_i w'' u hmark
    obtain ⟨rfl, hids⟩ := Prod.mk.inj h
    obtain rfl := Except.ok.inj hids
    refine ⟨hmark, ?_⟩
    intro id hid
    rcases List.mem_map.mp hid with ⟨c, hc, rfl⟩
    have hunspent := List.mem_filter.mp (List.mem_filter.mp hc).1
    exact ⟨c, hunspent.1, hunspent.2, rfl⟩

/-- A round that marks something leaves fewer unspent coins. -/
theorem unspentCount_lt
    {w w' : MemWallet}
    {nullifiers : List Digest}
    {removed : List Text}
    (h : w.markConfirmedSpentNullifiers env nullifiers = (w', .ok removed))
    (hremoved : removed ≠ []) :
    unspentCount w' < unspentCount w := by
  rcases of_markConfirmedSpentNullifiers h with ⟨hmark, hids⟩
  rcases List.exists_mem_of_ne_nil removed hremoved with ⟨id, hid⟩
  rcases hids id hid with ⟨c, hc, hunspent, rfl⟩
  rw [unspentCount, unspentCount, coins_markSpent hmark, List.countP_map]
  refine countP_lt_of_mem ?_ hc hunspent ?_
  · intro s _ hs
    simp only [Function.comp_apply] at hs
    split_ifs at hs with hnamed
    · simp at hs
    · exact hs
  · have hnamed : removed.any (fun id => (c.id env.sponge).startsWith id) = true :=
      List.any_eq_true.mpr ⟨c.id env.sponge, hid, Text.startsWith_self _⟩
    simp only [Function.comp_apply]
    rw [if_pos hnamed]
    rfl

end Marking

section Rounds

variable (env : AccountEnv π)
variable (world : World)

/-- More rounds than unspent coins are as good as any other such number. -/
theorem reconcileSnapshot_fuel
    (request : TransferRequest)
    (checkedThrough : UInt64)
    {n m : ℕ}
    {w : MemWallet}
    {reconciled : List Text}
    (hn : unspentCount w < n)
    (hm : unspentCount w < m) :
    reconcileSnapshot env world request checkedThrough n w reconciled =
      reconcileSnapshot env world request checkedThrough m w reconciled := by
  induction n generalizing m w reconciled with
  | zero =>
      omega
  | succ n ih =>
      obtain ⟨m, rfl⟩ : ∃ k, m = k + 1 := ⟨m - 1, by omega⟩
      rw [reconcileSnapshot, reconcileSnapshot]
      congr 1
      funext nullifiers
      congr 1
      funext spends
      split
      · rfl
      · split
        · rfl
        · rename_i w' removed hmark
          cases hempty : removed.isEmpty with
          | true =>
              rfl
          | false =>
              have hlt := unspentCount_lt hmark (by simpa using hempty)
              have hstep := @ih m w' (reconciled ++ removed) (by omega) (by omega)
              simp only [hstep]

/-- The rounds end with a selection that none of the confirmed spends is in. -/
theorem of_reconcileSnapshot
    {request : TransferRequest}
    {checkedThrough : UInt64}
    {n : ℕ}
    {w w' : MemWallet}
    {reconciled reconciled' : List Text}
    (hn : unspentCount w < n)
    (h : reconcileSnapshot env world request checkedThrough n w reconciled =
      .ok (w', reconciled')) :
    ∃ nullifiers,
      w'.selectedTransferNullifiers env.wallet request.assetId request.amount = .ok nullifiers ∧
        confirmedProtocolInputSpends world nullifiers checkedThrough
          (protocolSpendPreflightRequired env) = .ok [] := by
  induction n generalizing w reconciled with
  | zero =>
      omega
  | succ n ih =>
      simp only [reconcileSnapshot, except_bind_eq_ok_iff, mapError_eq_ok_iff] at h
      rcases h with ⟨nullifiers, hnullifiers, spends, hspends, h⟩
      split at h
      · rename_i hempty
        simp only [pure, Except.pure, Except.ok.injEq, Prod.mk.injEq] at h
        rcases h with ⟨rfl, -⟩
        rw [List.isEmpty_iff.mp hempty] at hspends
        exact ⟨nullifiers, hnullifiers, hspends⟩
      · split at h
        · cases h
        · rename_i w'' removed hmark
          simp only [except_bind_eq_ok_iff, require_eq_ok_iff] at h
          rcases h with ⟨_, hremoved, h⟩
          have hlt := unspentCount_lt hmark (by simpa using hremoved)
          exact ih (by omega) h

/-- Nullifiers without confirmed spends are in no index. -/
theorem of_confirmedProtocolInputSpends
    {nullifiers : List Digest}
    {minimumTip : UInt64}
    (h : confirmedProtocolInputSpends world nullifiers minimumTip true = .ok []) :
    ∀ nullifier ∈ nullifiers, ∃ tip, world.nullifierOccurrence nullifier = .ok (tip, none) := by
  simp only [confirmedProtocolInputSpends, Bool.not_true, Bool.false_eq_true, if_false,
    except_bind_eq_ok_iff, pure, Except.pure, Except.ok.injEq] at h
  rcases h with ⟨_, -, spends, hspends, hnone⟩
  intro nullifier hmem
  rcases List.mem_iff_getElem?.mp hmem with ⟨i, hi⟩
  rcases getElem?_of_mapM_eq_ok hspends hi with ⟨spend, hget, hspend⟩
  have hspendMem : spend ∈ spends := List.mem_of_getElem? hget
  simp only [except_bind_eq_ok_iff, mapError_eq_ok_iff, Except.ok.injEq] at hspend
  rcases hspend with ⟨⟨tip, occurrence⟩, hoccurrence, _, -, rfl⟩
  cases occurrence with
  | none =>
      exact ⟨tip, hoccurrence⟩
  | some location =>
      have hin : (nullifier, location) ∈ spends.filterMap id :=
        List.mem_filterMap.mpr ⟨some (nullifier, location), hspendMem, rfl⟩
      rw [hnone] at hin
      cases hin

/--
Coin selection and reselection.  The selected inputs are the least cover of the amount by one
or two eligible coins, and the selection fails for the amount zero and where nothing covers; the
outputs of a proved payment add up to its inputs; and the rounds of a proof job end, with an
error or with a selection that the verified chain has not spent, where the job consults it.
-/
theorem coin_selection
    (w : MemWallet)
    (request : TransferRequest)
    {assetId : Digest}
    (hasset : parseDigest request.assetId "asset id" = .ok assetId) :
    (match w.selectTransferInputs env.wallet request.assetId request.amount with
      | .error _ => request.amount = 0 ∨ ∀ sub, ¬ Cover env.wallet w assetId request.amount sub
      | .ok (ids, total) =>
          request.amount ≠ 0 ∧ ∃ sub, Least env.wallet w assetId request.amount sub ∧
            ids = sortedIds env.wallet sub ∧ total.toNat = valueOf sub) ∧
      (∀ toOwnerHex draws proved w',
        w.proveTransferAmount env.wallet request.assetId toOwnerHex request.amount draws =
            .ok (proved, w') →
          ∃ sub, Least env.wallet w assetId request.amount sub ∧
            ∃ pending, w'.pending.lookup proved.pendingId = some pending ∧
              pending.spentIds = sortedIds env.wallet sub ∧
              (pending.openings.map (fun c => c.value.toNat)).sum = valueOf sub) ∧
      ∀ (checkedThrough : UInt64) (rounds : ℕ), w.coins.length < rounds →
        reconcileSnapshot env world request checkedThrough rounds w [] =
            reconcileSnapshot env world request checkedThrough (w.coins.length + 1) w [] ∧
          ∀ w' reconciled,
            reconcileSnapshot env world request checkedThrough rounds w [] =
                .ok (w', reconciled) →
              ∃ nullifiers,
                w'.selectedTransferNullifiers env.wallet request.assetId request.amount =
                    .ok nullifiers ∧
                  (protocolSpendPreflightRequired env = true → ∀ nullifier ∈ nullifiers,
                    ∃ tip, world.nullifierOccurrence nullifier = .ok (tip, none)) := by
  refine ⟨MemWallet.selectTransferInputs_least hasset request.amount, ?_, ?_⟩
  · intro toOwnerHex draws proved w' hproved
    exact MemWallet.proveTransferAmount_conserves hasset hproved
  · intro checkedThrough rounds hrounds
    have hcount : unspentCount w ≤ w.coins.length := List.countP_le_length
    refine ⟨reconcileSnapshot_fuel env world request checkedThrough (by omega) (by omega), ?_⟩
    intro w' reconciled hrun
    rcases of_reconcileSnapshot env world (by omega) hrun with ⟨nullifiers, hselected, hspends⟩
    refine ⟨nullifiers, hselected, ?_⟩
    intro hrequired
    rw [hrequired] at hspends
    exact of_confirmedProtocolInputSpends world hspends

end Rounds

namespace Account.Sample

open MemWallet.Sample (plainEnv held)
open OpenCsv.Sample (assetId coin)

/-- The wallet that holds the sample mint of 60 and 40. -/
def holder : MemWallet :=
  held (JsonText.ofValue .null)

def paymentOf (amount : UInt64) : TransferRequest :=
  ⟨toHex assetId.bytes.toList, toHex (Digest.fill 4).bytes.toList, amount⟩

theorem parse_paymentOf
    (amount : UInt64) :
    parseDigest (paymentOf amount).assetId "asset id" = .ok assetId := by
  show parseDigest (toHex assetId.bytes.toList) "asset id" = .ok assetId
  decide +kernel

/-- Every coin covers nothing, and the selection refuses to pay it. -/
theorem zero_is_refused :
    ¬ ∀ amount, (∃ e, holder.selectTransferInputs plainEnv (paymentOf amount).assetId amount =
        .error e) ↔ ∀ sub, ¬ Cover plainEnv holder assetId amount sub := by
  intro h
  have hcover : Cover plainEnv holder assetId 0 (holder.coins.take 1) := by
    refine ⟨(List.take_sublist 1 _).subperm, ?_, Or.inl (by decide +kernel), by decide +kernel,
      Nat.zero_le _⟩
    intro s hs
    apply (MemWallet.eligible_iff s).mp
    have hall : ∀ s ∈ holder.coins.take 1,
        (s.status == .unspent && s.coin.assetId == assetId &&
          (holder.secretFor plainEnv s.coin.owner).isSome &&
            !(holder.reserved.contains (s.id plainEnv.sponge))) = true := by
      decide +kernel
    exact hall s hs
  exact (h 0).mp ⟨_, rfl⟩ _ hcover

/-- A payment of 50 spends the coin of 60, not both coins. -/
theorem coin_selection_fifty :
    ∃ sub, Least plainEnv holder assetId 50 sub ∧
      sortedIds plainEnv sub = [(coin 60 1).id plainEnv.sponge] := by
  have hselect : holder.selectTransferInputs plainEnv (paymentOf 50).assetId 50 =
      .ok ([(coin 60 1).id plainEnv.sponge], 60) := by
    decide +kernel
  have hparse := parse_paymentOf 50
  have hamount : (paymentOf 50).amount = 50 := rfl
  generalize paymentOf 50 = request at hselect hparse hamount
  generalize holder = w at hselect ⊢
  have hselection := (coin_selection (env plainEnv) world w request hparse).1
  have henv : (env plainEnv).wallet = plainEnv := rfl
  rw [henv, hamount, hselect] at hselection
  rcases hselection with ⟨-, sub, hsub, hids, -⟩
  exact ⟨sub, hsub, hids.symm⟩

end Account.Sample

end OpenCsv
