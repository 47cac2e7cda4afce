import OpenCsv.Ffi.WalletOps

/-!
# Credited value and stored coins

A verification reports one credit total per asset, summed over the accepted
openings, and stores the coins under their commitments.  Openings that repeat a
commitment are summed twice and stored once.

**Results.** In every run of verifications whose accepted openings are new to the
wallet and different from each other, with totals below `2 ^ 64`, the credits add
up to the coins the run added (`credits_eq_added`).  `Sample.twin_openings_overcredit`
is a consignment outside that condition.
-/

namespace OpenCsv

open AcceptKernel (RejectReason)

namespace MemWallet

variable {π : Type}
variable {env : WalletEnv π}

section Totals

/-- The credits of one asset, summed. -/
def creditTotal (asset : Digest) (credits : List CreditJson) : ℕ :=
  ((credits.filter (fun c => c.assetId = toHex asset.bytes.toList)).map
    (fun c => c.amount.toNat)).sum

/-- The value of the coins of one asset. -/
def valueTotal (asset : Digest) (coins : List Coin) : ℕ :=
  ((coins.filter (fun c => c.assetId = asset)).map (fun c => c.value.toNat)).sum

theorem valueTotal_cons
    (asset : Digest)
    (coin : Coin)
    (coins : List Coin) :
    valueTotal asset (coin :: coins) =
      (if coin.assetId = asset then coin.value.toNat else 0) + valueTotal asset coins := by
  by_cases h : coin.assetId = asset
  · simp [valueTotal, h]
  · simp [valueTotal, h]

theorem valueTotal_append
    (asset : Digest)
    (coins coins' : List Coin) :
    valueTotal asset (coins ++ coins') = valueTotal asset coins + valueTotal asset coins' := by
  simp [valueTotal]

theorem toHex_digest_inj
    {d d' : Digest}
    (h : toHex d.bytes.toList = toHex d'.bytes.toList) :
    d = d' := by
  obtain ⟨b⟩ := d
  obtain ⟨b'⟩ := d'
  exact congrArg Digest.mk (Bytes.ext_toList (toHex_injective h))

/-- A credit adds the value of the coin to the total of its asset, unless it wraps. -/
theorem creditTotal_addCredit
    (asset : Digest)
    (currency : Option Text)
    {coin : Coin}
    {credits : List CreditJson}
    (h : creditTotal coin.assetId credits + coin.value.toNat < 2 ^ 64) :
    creditTotal asset (addCredit currency coin credits) =
      (if coin.assetId = asset then coin.value.toNat else 0) + creditTotal asset credits := by
  have hhex : toHex coin.assetId.bytes.toList = toHex asset.bytes.toList ↔
      coin.assetId = asset := by
    constructor
    · exact toHex_digest_inj
    · rintro rfl
      rfl
  induction credits with
  | nil =>
      by_cases heq : coin.assetId = asset
      · simp [creditTotal, addCredit, heq]
      · simp [creditTotal, addCredit, hhex, heq]
  | cons credit credits ih =>
      have hcons : ∀ (a : Digest) (c : CreditJson) (cs : List CreditJson),
          creditTotal a (c :: cs) =
            (if c.assetId = toHex a.bytes.toList then c.amount.toNat else 0) +
              creditTotal a cs := by
        intro a c cs
        by_cases hc : c.assetId = toHex a.bytes.toList
        · simp [creditTotal, hc]
        · simp [creditTotal, hc]
      rw [hcons] at h
      rw [addCredit]
      by_cases hasset : credit.assetId = toHex coin.assetId.bytes.toList
      · rw [if_pos hasset] at h
        rw [if_pos hasset, hcons, hcons]
        have hadd : (credit.amount + coin.value).toNat =
            credit.amount.toNat + coin.value.toNat := by
          rw [UInt64.toNat_add]
          exact Nat.mod_eq_of_lt (by omega)
        simp only [hadd, hasset, hhex]
        split_ifs
        · omega
        · omega
      · rw [if_neg hasset] at h
        rw [if_neg hasset, hcons, hcons, ih (by omega)]
        omega

end Totals

section Loop

/-- A coin with a new id is appended. -/
theorem upsertCoin_of_fresh
    {stored : StoredCoin}
    {coins : List StoredCoin}
    (h : stored.id env.sponge ∉ coins.map (StoredCoin.id env.sponge)) :
    upsertCoin env stored coins = coins ++ [stored] := by
  induction coins with
  | nil =>
      rfl
  | cons c coins ih =>
      rw [List.map_cons, List.mem_cons, not_or] at h
      rw [upsertCoin, if_neg (fun heq => h.1 heq.symm), ih h.2, List.cons_append]

/-- Crediting a new coin appends it as it is and adds its value. -/
theorem creditCoin_of_fresh
    {call : VerifyCall}
    {proof : List UInt8}
    {selector : ℕ}
    {state : CreditState}
    {coin : Coin}
    (h : coin.id env.sponge ∉ state.wallet.coins.map (StoredCoin.id env.sponge)) :
    ∃ stored, stored.coin = coin ∧
      (creditCoin env call proof selector state coin).wallet =
        { state.wallet with coins := state.wallet.coins ++ [stored] } ∧
      ∃ currency, (creditCoin env call proof selector state coin).credits =
        addCredit currency coin state.credits := by
  have hnone : state.wallet.coins.find? (fun c => c.id env.sponge == coin.id env.sponge) =
      none := by
    rw [List.find?_eq_none]
    intro c hc heq
    exact h (List.mem_map.mpr ⟨c, hc, beq_iff_eq.mp heq⟩)
  set stored : StoredCoin := ⟨coin, .unspent, proof, selector, call.unconfirmedAnchor⟩
    with hstored
  have hid : stored.id env.sponge = coin.id env.sponge := rfl
  refine ⟨stored, rfl, ?_, _, rfl⟩
  simp only [creditCoin, hnone, redeliver]
  rw [← hstored, upsertCoin_of_fresh (hid ▸ h)]

/-- Crediting new and different coins appends them and adds their values. -/
theorem creditCoins_of_fresh
    {call : VerifyCall}
    {consignment : Consignment}
    {coins : List Coin}
    {state : CreditState}
    (hopenings : ∀ coin ∈ coins, coin ∈ consignment.coinOpenings)
    (hnodup : (coins.map (Coin.id env.sponge)).Nodup)
    (hfresh : ∀ coin ∈ coins,
      coin.id env.sponge ∉ state.wallet.coins.map (StoredCoin.id env.sponge))
    (htotal : ∀ asset, creditTotal asset state.credits + valueTotal asset coins < 2 ^ 64) :
    ∃ state' added, creditCoins env call consignment coins state = (state', .ok ()) ∧
      state'.wallet.coins = state.wallet.coins ++ added ∧
      added.map StoredCoin.coin = coins ∧
      ∀ asset, creditTotal asset state'.credits =
        creditTotal asset state.credits + valueTotal asset coins := by
  induction coins generalizing state with
  | nil =>
      exact ⟨state, [], rfl, by simp, rfl, fun asset => by simp [valueTotal]⟩
  | cons coin coins ih =>
      have hmem := hopenings coin List.mem_cons_self
      obtain ⟨selector, hselector⟩ : ∃ selector,
          consignment.coinOpenings.findIdx? (fun o => o == coin) = some selector := by
        rw [← Option.isSome_iff_exists, List.findIdx?_isSome, List.any_eq_true]
        exact ⟨coin, hmem, beq_self_eq_true coin⟩
      set next := creditCoin env call consignment.proof selector state coin with hnext
      obtain ⟨stored, hcoin, hwallet, currency, hcredits⟩ :
          ∃ stored, stored.coin = coin ∧
            next.wallet = { state.wallet with coins := state.wallet.coins ++ [stored] } ∧
            ∃ currency, next.credits = addCredit currency coin state.credits :=
        creditCoin_of_fresh (hfresh coin List.mem_cons_self)
      have hcoins : next.wallet.coins = state.wallet.coins ++ [stored] := by
        rw [hwallet]
      have hcredit : ∀ asset, creditTotal asset next.credits =
          (if coin.assetId = asset then coin.value.toNat else 0) +
            creditTotal asset state.credits := by
        intro asset
        rw [hcredits]
        apply creditTotal_addCredit
        have hcoinTotal := htotal coin.assetId
        rw [valueTotal_cons, if_pos rfl] at hcoinTotal
        omega
      rw [List.map_cons, List.nodup_cons] at hnodup
      -- The coin just stored has an id of its own.
      have hfresh' : ∀ c ∈ coins,
          c.id env.sponge ∉ next.wallet.coins.map (StoredCoin.id env.sponge) := by
        intro c hc
        rw [hcoins, List.map_append, List.mem_append, not_or]
        refine ⟨hfresh c (List.mem_cons_of_mem coin hc), ?_⟩
        rw [List.map_cons, List.map_nil, List.mem_singleton, StoredCoin.id, hcoin]
        intro heq
        exact hnodup.1 (heq ▸ List.mem_map_of_mem hc)
      have htotal' : ∀ asset,
          creditTotal asset next.credits + valueTotal asset coins < 2 ^ 64 := by
        intro asset
        have h := htotal asset
        rw [valueTotal_cons] at h
        rw [hcredit]
        omega
      obtain ⟨state', added, hrun, hadded, hmap, htotals⟩ :=
        ih (fun c hc => hopenings c (List.mem_cons_of_mem coin hc)) hnodup.2 hfresh' htotal'
      refine ⟨state', stored :: added, ?_, ?_, ?_, ?_⟩
      · rw [creditCoins, hselector]
        exact hrun
      · rw [hadded, hcoins, List.append_assoc, List.singleton_append]
      · rw [List.map_cons, hmap, hcoin]
      · intro asset
        rw [htotals, hcredit, valueTotal_cons]
        omega

end Loop

section Runs

/-- The openings of a consignment that belong to the wallet. -/
def ownedOpenings
    (env : WalletEnv π)
    (w : MemWallet)
    (consignment : Consignment) : List Coin :=
  consignment.coinOpenings.filter (fun o =>
    (w.keys.map (OwnerSecret.owner env.sponge)).contains o.owner)

/--
The condition on a call: our openings of an accepted consignment have different
ids, none of them held, and totals that fit in a `u64`.
-/
def FreshOpenings (env : WalletEnv π) (w : MemWallet) (call : VerifyCall) : Prop :=
  ∀ consignment accepted,
    env.decodeConsignment call.blob = .ok consignment →
    w.acceptConsignment env call consignment = .ok accepted →
    ((w.ownedOpenings env consignment).map (Coin.id env.sponge)).Nodup ∧
      (∀ coin ∈ w.ownedOpenings env consignment,
        coin.id env.sponge ∉ w.coins.map (StoredCoin.id env.sponge)) ∧
      ∀ asset, valueTotal asset (w.ownedOpenings env consignment) < 2 ^ 64

/-- The report of a call that returned `Verified`. -/
def reportOf : Except OpError (Except RejectReason Verified) → List Verified
  | .ok (.ok verified) => [verified]
  | _ => []

/-- A sequence of verifications: the wallet it leaves and its reports. -/
def verifyRun (env : WalletEnv π) : MemWallet → List VerifyCall → MemWallet × List Verified
  | w, [] => (w, [])
  | w, call :: calls =>
      let (w', result) := w.verifyWithProvenance env call
      let (w'', reports) := verifyRun env w' calls
      (w'', reportOf result ++ reports)

/-- Every call of a sequence meets the condition in the wallet it finds. -/
def RunFresh (env : WalletEnv π) : MemWallet → List VerifyCall → Prop
  | _, [] => True
  | w, call :: calls =>
      FreshOpenings env w call ∧ RunFresh env (w.verifyWithProvenance env call).1 calls

/-- The credits of one asset over all reports. -/
def reportedTotal (asset : Digest) (reports : List Verified) : ℕ :=
  (reports.map (fun v => creditTotal asset v.credits)).sum

/-- Coins that are new to the wallet and have ids of their own. -/
structure NewCoins (env : WalletEnv π) (w : MemWallet) (added : List StoredCoin) : Prop where
  nodup : (added.map (StoredCoin.id env.sponge)).Nodup
  fresh : ∀ c ∈ added, c.id env.sponge ∉ w.coins.map (StoredCoin.id env.sponge)

/-- The accepted coins are the openings that belong to the wallet. -/
theorem coins_of_acceptConsignment
    {w : MemWallet}
    {call : VerifyCall}
    {consignment : Consignment}
    {accepted : AcceptedCoins}
    (h : w.acceptConsignment env call consignment = .ok accepted) :
    accepted.coins = w.ownedOpenings env consignment := by
  rw [acceptConsignment, accept, acceptForPublicOwners_ok_iff] at h
  obtain ⟨record, proofRecord, ctx, hfacts⟩ := h
  exact hfacts.coins_eq

/-- One call that meets the condition credits what it stores. -/
theorem verifyWithProvenance_of_fresh
    {w : MemWallet}
    {call : VerifyCall}
    (h : FreshOpenings env w call) :
    ∃ added, (w.verifyWithProvenance env call).1.coins = w.coins ++ added ∧
      NewCoins env w added ∧
      ∀ asset, reportedTotal asset (reportOf (w.verifyWithProvenance env call).2) =
        valueTotal asset (added.map StoredCoin.coin) := by
  unfold verifyWithProvenance
  split
  · exact ⟨[], by simp, ⟨by simp, by simp⟩, fun asset => rfl⟩
  · rename_i consignment hdecode
    split
    · exact ⟨[], by simp, ⟨by simp, by simp⟩, fun asset => rfl⟩
    · rename_i accepted haccept
      obtain ⟨hnodup, hfresh, htotal⟩ := h consignment accepted hdecode haccept
      have hcoins := coins_of_acceptConsignment haccept
      obtain ⟨state, added, hrun, hadded, hmap, hcredits⟩ :
          ∃ state added, creditCoins env call consignment (w.ownedOpenings env consignment)
              ⟨w.pinAux env consignment.aux, [], []⟩ = (state, .ok ()) ∧
            state.wallet.coins = (w.pinAux env consignment.aux).coins ++ added ∧
            added.map StoredCoin.coin = w.ownedOpenings env consignment ∧
            ∀ asset, creditTotal asset state.credits =
              creditTotal asset [] + valueTotal asset (w.ownedOpenings env consignment) := by
        have hmem : ∀ coin ∈ w.ownedOpenings env consignment,
            coin ∈ consignment.coinOpenings :=
          fun coin hcoin => List.mem_of_mem_filter hcoin
        refine creditCoins_of_fresh hmem hnodup ?_ ?_
        · simpa using hfresh
        · simpa [creditTotal] using htotal
      have hids : added.map (StoredCoin.id env.sponge) =
          (w.ownedOpenings env consignment).map (Coin.id env.sponge) := by
        rw [← hmap, List.map_map]
        rfl
      rw [hcoins, hrun]
      refine ⟨added, ?_, ⟨?_, ?_⟩, ?_⟩
      · rw [hadded, coins_pinAux]
      · rw [hids]
        exact hnodup
      · intro c hc
        apply hfresh c.coin
        rw [← hmap]
        exact List.mem_map_of_mem hc
      · intro asset
        rw [hmap]
        simpa [reportedTotal, reportOf, creditTotal] using hcredits asset

/--
In every run of verifications that meet the condition, the reported credits are
the value of the coins the run added.  These coins are new and have commitments of
their own, so two of them share a nullifier only where the hash collides.
-/
theorem credits_eq_added
    {w : MemWallet}
    {calls : List VerifyCall}
    (h : RunFresh env w calls) :
    ∃ added, (verifyRun env w calls).1.coins = w.coins ++ added ∧
      NewCoins env w added ∧
      (∀ asset, reportedTotal asset (verifyRun env w calls).2 =
        valueTotal asset (added.map StoredCoin.coin)) ∧
      ∀ osk osk', added.Pairwise (fun c c' =>
        (nullifier env.sponge osk (c.coin.commitment env.sponge) =
            nullifier env.sponge osk' (c'.coin.commitment env.sponge) →
          c.coin.commitment env.sponge = c'.coin.commitment env.sponge) →
        c.coin.nullifier env.sponge osk ≠ c'.coin.nullifier env.sponge osk') := by
  have hrun : ∃ added, (verifyRun env w calls).1.coins = w.coins ++ added ∧
      NewCoins env w added ∧
      ∀ asset, reportedTotal asset (verifyRun env w calls).2 =
        valueTotal asset (added.map StoredCoin.coin) := by
    induction calls generalizing w with
    | nil =>
        exact ⟨[], by simp [verifyRun], ⟨by simp, by simp⟩, fun asset => rfl⟩
    | cons call calls ih =>
        obtain ⟨hcall, hcalls⟩ := h
        obtain ⟨added, hadded, hnew, htotal⟩ := verifyWithProvenance_of_fresh hcall
        obtain ⟨added', hadded', hnew', htotal'⟩ := ih hcalls
        have hfresh' : ∀ c ∈ added', c.id env.sponge ∉ w.coins.map (StoredCoin.id env.sponge) ∧
            c.id env.sponge ∉ added.map (StoredCoin.id env.sponge) := by
          intro c hc
          have hc' := hnew'.fresh c hc
          rw [hadded, List.map_append, List.mem_append, not_or] at hc'
          exact hc'
        refine ⟨added ++ added', ?_, ⟨?_, ?_⟩, ?_⟩
        · rw [verifyRun]
          dsimp only
          rw [hadded', hadded, List.append_assoc]
        · rw [List.map_append]
          refine hnew.nodup.append hnew'.nodup ?_
          intro id hid hid'
          obtain ⟨c, hc, rfl⟩ := List.mem_map.mp hid'
          exact (hfresh' c hc).2 hid
        · intro c hc
          rcases List.mem_append.mp hc with hc | hc
          · exact hnew.fresh c hc
          · exact (hfresh' c hc).1
        · intro asset
          have hsplit : reportedTotal asset (verifyRun env w (call :: calls)).2 =
              reportedTotal asset (reportOf (w.verifyWithProvenance env call).2) +
                reportedTotal asset
                  (verifyRun env (w.verifyWithProvenance env call).1 calls).2 := by
            simp [verifyRun, reportedTotal]
          rw [hsplit, htotal, htotal', List.map_append, valueTotal_append]
  obtain ⟨added, hadded, hnew, htotal⟩ := hrun
  refine ⟨added, hadded, hnew, htotal, ?_⟩
  intro osk osk'
  have hpairwise := List.pairwise_map.mp hnew.nodup
  refine hpairwise.imp ?_
  intro c c' hne hcollision heq
  apply hne
  rw [StoredCoin.id, StoredCoin.id, Coin.id, Coin.id, hcollision heq]

end Runs

namespace Sample

open OpenCsv.Sample (assetId genesis osk coin mintOf)

/-- The sample wallet, before it has verified anything. -/
def fresh : MemWallet :=
  create osk.digest.bytes

theorem mint_credits_eq_added :
    RunFresh plainEnv fresh [mintCall] ∧
      ∃ added, (verifyRun plainEnv fresh [mintCall]).1.coins = fresh.coins ++ added ∧
        ∀ asset, reportedTotal asset (verifyRun plainEnv fresh [mintCall]).2 =
          valueTotal asset (added.map StoredCoin.coin) := by
  have howned : fresh.ownedOpenings plainEnv
      (mintConsignment (coin 60 1) (coin 40 2) (some genesis)) = [coin 60 1, coin 40 2] := by
    decide +kernel
  have hrun : RunFresh plainEnv fresh [mintCall] := by
    refine ⟨?_, trivial⟩
    intro consignment accepted hdecode _
    obtain rfl : mintConsignment (coin 60 1) (coin 40 2) (some genesis) = consignment :=
      Except.ok.inj hdecode
    rw [howned]
    refine ⟨by decide +kernel, by simp [fresh, create, empty], ?_⟩
    intro asset
    have h₀ : (coin 60 1).value.toNat = 60 := rfl
    have h₁ : (coin 40 2).value.toNat = 40 := rfl
    have hnil : valueTotal asset [] = 0 := rfl
    rw [valueTotal_cons, valueTotal_cons, hnil, h₀, h₁]
    split_ifs <;> omega
  obtain ⟨added, hadded, -, htotal, -⟩ := credits_eq_added hrun
  exact ⟨hrun, added, hadded, htotal⟩

/-- An environment that knows a mint of 50 and 50 in two equal openings. -/
def twinEnv : WalletEnv Unit :=
  walletEnv [(.mint, mintOf (coin 50 1) (coin 50 1))]
    [mintConsignment (coin 50 1) (coin 50 1) (some genesis)] (JsonText.ofValue .null)

/-- Two equal openings are credited twice and stored once. -/
theorem twin_openings_overcredit :
    reportedTotal assetId (verifyRun twinEnv fresh [mintCall]).2 = 100 ∧
      fresh.coins = [] ∧
      valueTotal assetId ((verifyRun twinEnv fresh [mintCall]).1.coins.map StoredCoin.coin) =
        50 := by
  decide +kernel

end Sample

end MemWallet

end OpenCsv
