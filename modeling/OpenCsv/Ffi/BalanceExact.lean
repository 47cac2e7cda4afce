import OpenCsv.Ffi.Credits
import OpenCsv.Lib.Tally

/-!
# Balances

Three places add up coin values by asset: the balance of the wallet, the credits of a
verification and the balance of the command line.  None of the additions is checked, and a
sender can mint as much of an asset of its own as it likes.

**Results.** In a run of verifications all sums are exact just when the values of each asset
fit in a `u64` (`sums_exact_iff`).  Two mints of `2 ^ 63` are enough to miss that
(`Sample.balance_wraps`).
-/

namespace OpenCsv

/-! The wallet of the command line, as far as its balance reads it. -/

namespace CliOps

inductive CoinStatus where
  | unspent
  | spent
deriving DecidableEq

structure StoredCoin where
  coin : Coin
  status : CoinStatus
deriving DecidableEq

/-- The values that a balance adds up: of unspent coins, of one asset if it is given. -/
def balanceItems (coins : List StoredCoin) (asset : Option Digest) : List (Digest × UInt64) :=
  (coins.filter (fun s => s.status == .unspent && asset.all (fun a => a == s.coin.assetId))).map
    (fun s => (s.coin.assetId, s.coin.value))

/-- Unspent balances per asset, of one asset if it is given. -/
def balance (coins : List StoredCoin) (asset : Option Digest) : List (Digest × UInt64) :=
  coins.foldl (fun out s =>
    if s.status != .unspent then out
    else if asset.any (fun a => a != s.coin.assetId) then out
    else Tally.add s.coin.assetId s.coin.value out) []

/-- The balance tallies its values. -/
theorem balance_eq
    (coins : List StoredCoin)
    (asset : Option Digest) :
    balance coins asset = Tally.run (balanceItems coins asset) := by
  have hfold : ∀ start : List (Digest × UInt64),
      coins.foldl (fun out s =>
        if s.status != .unspent then out
        else if asset.any (fun a => a != s.coin.assetId) then out
        else Tally.add s.coin.assetId s.coin.value out) start =
      (balanceItems coins asset).foldl (fun out item => Tally.add item.1 item.2 out) start := by
    induction coins with
    | nil =>
        intro start
        rfl
    | cons s coins ih =>
        intro start
        rw [List.foldl_cons, ih]
        cases hstatus : s.status with
        | spent =>
            simp [balanceItems, hstatus]
        | unspent =>
            cases asset with
            | none =>
                simp [balanceItems, hstatus]
            | some a =>
                by_cases ha : a = s.coin.assetId
                · simp [balanceItems, hstatus, ha]
                · simp [balanceItems, hstatus, ha]
  exact hfold []

end CliOps

namespace MemWallet

open AcceptKernel (RejectReason)

variable {π : Type}
variable {env : WalletEnv π}

section Items

/-- The amounts of credits, by asset. -/
def creditItems (credits : List CreditJson) : List (Text × UInt64) :=
  credits.map (fun c => (c.assetId, c.amount))

/-- The values of coins, by asset. -/
def coinItems (coins : List Coin) : List (Text × UInt64) :=
  coins.map (fun c => (toHex c.assetId.bytes.toList, c.value))

def unspentCoins (w : MemWallet) : List Coin :=
  (w.coins.filter (fun s => s.status == .unspent)).map StoredCoin.coin

/-- The coins of the wallet that a call accepts. -/
def acceptedCoins
    (env : WalletEnv π)
    (w : MemWallet)
    (call : VerifyCall) : List Coin :=
  match env.decodeConsignment call.blob with
  | .error _ => []
  | .ok consignment =>
      match w.acceptConsignment env call consignment with
      | .error _ => []
      | .ok _ => w.ownedOpenings env consignment

/-- The credits that a call reports. -/
def reportedCredits (result : Except OpError (Except RejectReason Verified)) : List CreditJson :=
  (reportOf result).flatMap Verified.credits

/-- The values of every asset fit in a `u64`. -/
def Fits (coins : List Coin) : Prop :=
  ∀ asset, valueTotal asset coins < 2 ^ 64

theorem creditItems_addCredit
    (currency : Option Text)
    (coin : Coin)
    (credits : List CreditJson) :
    creditItems (addCredit currency coin credits) =
      Tally.add (toHex coin.assetId.bytes.toList) coin.value (creditItems credits) := by
  induction credits with
  | nil =>
      rfl
  | cons credit credits ih =>
      by_cases h : credit.assetId = toHex coin.assetId.bytes.toList
      · simp [addCredit, creditItems, Tally.add, h]
      · simp only [creditItems] at ih
        simp [addCredit, creditItems, Tally.add, h, ih]

/-- The balance tallies the unspent coins. -/
theorem creditItems_balance
    (w : MemWallet) :
    creditItems (w.balance env) = Tally.run (coinItems w.unspentCoins) := by
  have hfold : ∀ (stored : List StoredCoin) (start : List CreditJson),
      creditItems (stored.foldl
        (fun out s => addCredit (w.currencyOf env s.coin.assetId) s.coin out) start) =
      (coinItems (stored.map StoredCoin.coin)).foldl
        (fun out item => Tally.add item.1 item.2 out) (creditItems start) := by
    intro stored
    induction stored with
    | nil =>
        intro start
        rfl
    | cons s stored ih =>
        intro start
        rw [List.foldl_cons, ih, creditItems_addCredit]
        rfl
  exact hfold _ []

/-- The credit loop tallies the coins. -/
theorem creditItems_creditCoins
    {call : VerifyCall}
    {consignment : Consignment}
    {coins : List Coin}
    {state : CreditState}
    (hopenings : ∀ coin ∈ coins, coin ∈ consignment.coinOpenings) :
    ∃ state', creditCoins env call consignment coins state = (state', .ok ()) ∧
      creditItems state'.credits =
        (coinItems coins).foldl (fun out item => Tally.add item.1 item.2 out)
          (creditItems state.credits) := by
  induction coins generalizing state with
  | nil =>
      exact ⟨state, rfl, rfl⟩
  | cons coin coins ih =>
      obtain ⟨selector, hselector⟩ : ∃ selector,
          consignment.coinOpenings.findIdx? (fun o => o == coin) = some selector := by
        rw [← Option.isSome_iff_exists, List.findIdx?_isSome, List.any_eq_true]
        exact ⟨coin, hopenings coin List.mem_cons_self, beq_self_eq_true coin⟩
      obtain ⟨state', hrun, hitems⟩ :=
        @ih (creditCoin env call consignment.proof selector state coin)
          (fun c hc => hopenings c (List.mem_cons_of_mem coin hc))
      refine ⟨state', ?_, ?_⟩
      · rw [creditCoins, hselector]
        exact hrun
      · rw [hitems, creditCoin, creditItems_addCredit]
        rfl

/-- The credits of a call tally the coins that it accepts. -/
theorem creditItems_verify
    (w : MemWallet)
    (call : VerifyCall) :
    creditItems (reportedCredits (w.verifyWithProvenance env call).2) =
      Tally.run (coinItems (w.acceptedCoins env call)) := by
  unfold verifyWithProvenance acceptedCoins
  cases hdecode : env.decodeConsignment call.blob with
  | error e =>
      rfl
  | ok consignment =>
      cases haccept : w.acceptConsignment env call consignment with
      | error reason =>
          simp only [haccept]
          rfl
      | ok accepted =>
          have hmem : ∀ coin ∈ w.ownedOpenings env consignment,
              coin ∈ consignment.coinOpenings :=
            fun coin hcoin => List.mem_of_mem_filter hcoin
          obtain ⟨state, hrun, hitems⟩ := @creditItems_creditCoins _ env call consignment _
            ⟨w.pinAux env consignment.aux, [], []⟩ hmem
          simp only [haccept, coins_of_acceptConsignment haccept, hrun]
          simp only [reportedCredits, reportOf, List.flatMap_cons, List.flatMap_nil,
            List.append_nil]
          exact hitems

theorem total_coinItems
    (asset : Digest)
    (coins : List Coin) :
    Tally.total (toHex asset.bytes.toList) (coinItems coins) = valueTotal asset coins := by
  induction coins with
  | nil =>
      rfl
  | cons coin coins ih =>
      have hhex : toHex coin.assetId.bytes.toList = toHex asset.bytes.toList ↔
          coin.assetId = asset := by
        constructor
        · exact toHex_digest_inj
        · rintro rfl
          rfl
      rw [valueTotal_cons, ← ih, coinItems, List.map_cons, Tally.total_cons]
      simp only [hhex, coinItems]

/-- Totals by the text of an asset are totals by the asset. -/
theorem total_coinItems_lt_iff
    (coins : List Coin) :
    (∀ key, Tally.total key (coinItems coins) < 2 ^ 64) ↔ Fits coins := by
  constructor
  · intro h asset
    rw [← total_coinItems]
    exact h _
  · intro h key
    by_cases hkey : key ∈ (coinItems coins).map Prod.fst
    · obtain ⟨item, hitem, rfl⟩ := List.mem_map.mp hkey
      obtain ⟨coin, -, rfl⟩ := List.mem_map.mp hitem
      rw [total_coinItems]
      exact h coin.assetId
    · rw [Tally.total_of_notMem hkey]
      exact Nat.two_pow_pos 64

end Items

section Exact

/-- Reported credits are the sums over coins, and no addition wrapped. -/
def SumsExact (credits : List CreditJson) (coins : List Coin) : Prop :=
  Tally.Exact (creditItems credits) (coinItems coins) ∧ Tally.Safe [] (coinItems coins)

/-- Through a run of verifications the balances and the credits are exact. -/
def RunExact (env : WalletEnv π) : MemWallet → List VerifyCall → Prop
  | w, [] => SumsExact (w.balance env) w.unspentCoins
  | w, call :: calls =>
      SumsExact (w.balance env) w.unspentCoins ∧
        SumsExact (reportedCredits (w.verifyWithProvenance env call).2)
          (w.acceptedCoins env call) ∧
        RunExact env (w.verifyWithProvenance env call).1 calls

/-- Through a run of verifications the unspent coins and the accepted coins fit. -/
def RunFits (env : WalletEnv π) : MemWallet → List VerifyCall → Prop
  | w, [] => Fits w.unspentCoins
  | w, call :: calls =>
      Fits w.unspentCoins ∧ Fits (w.acceptedCoins env call) ∧
        RunFits env (w.verifyWithProvenance env call).1 calls

theorem sumsExact_iff
    {credits : List CreditJson}
    {coins : List Coin}
    (h : creditItems credits = Tally.run (coinItems coins)) :
    SumsExact credits coins ↔ Fits coins := by
  have hsafe := @Tally.safe_iff Text _ [] List.nodup_nil (coinItems coins)
  have hzero : ∀ key : Text, Tally.total key [] = 0 := fun _ => rfl
  simp only [hzero, Nat.zero_add] at hsafe
  rw [SumsExact, h, Tally.exact_run_iff, hsafe, total_coinItems_lt_iff, and_self]

/-- Through a run the sums are exact just when they fit. -/
theorem runExact_iff
    (w : MemWallet)
    (calls : List VerifyCall) :
    RunExact env w calls ↔ RunFits env w calls := by
  induction calls generalizing w with
  | nil =>
      exact sumsExact_iff (creditItems_balance w)
  | cons call calls ih =>
      rw [RunExact, RunFits, sumsExact_iff (creditItems_balance w),
        sumsExact_iff (creditItems_verify w call), ih]

/-- The unspent coins that a run leaves fit. -/
theorem fits_of_runFits
    {w : MemWallet}
    {calls : List VerifyCall}
    (h : RunFits env w calls) :
    Fits (verifyRun env w calls).1.unspentCoins := by
  induction calls generalizing w with
  | nil =>
      exact h
  | cons call calls ih =>
      obtain ⟨-, -, hrest⟩ := h
      exact ih hrest

/--
Balances and credits.  In every run of verifications, from any wallet, the balances and the
reported credits are exact, without an addition that wraps, just when the values of every asset
fit; and so is the balance of the command line.
-/
theorem sums_exact_iff
    (env : WalletEnv π)
    (w : MemWallet)
    (calls : List VerifyCall)
    (coins : List CliOps.StoredCoin)
    (asset : Option Digest) :
    (RunExact env w calls ↔ RunFits env w calls) ∧
      ((Tally.Exact (CliOps.balance coins asset) (CliOps.balanceItems coins asset) ∧
          Tally.Safe [] (CliOps.balanceItems coins asset)) ↔
        ∀ a, Tally.total a (CliOps.balanceItems coins asset) < 2 ^ 64) := by
  have hsafe := @Tally.safe_iff Digest _ [] List.nodup_nil
    (CliOps.balanceItems coins asset)
  have hzero : ∀ key : Digest, Tally.total key [] = 0 := fun _ => rfl
  simp only [hzero, Nat.zero_add] at hsafe
  refine ⟨runExact_iff w calls, ?_⟩
  rw [CliOps.balance_eq, Tally.exact_run_iff, hsafe, and_self]

end Exact

namespace Sample

open OpenCsv.Sample (assetId genesis osk coin)

/-- `2 ^ 63`. -/
def half : UInt64 := 0x8000000000000000

/-- A confirmed mint of `2 ^ 63`, one per position. -/
def halfAnchor (position : UInt32) (nonce : UInt8) : AnchorTx where
  location := ⟨1, position⟩
  txid := List.Vector.replicate 32 nonce
  record := .mint assetId.toAnchor half
    (mintCommit foldSponge assetId half (Digest.fill nonce)).toAnchor
  ctx := List.Vector.replicate 32 (nonce + 1)
  batch := none

def halfStatement (nonce : UInt8) : NodeStatement :=
  mintStatement foldSponge assetId half (Digest.fill nonce)
    (coin half nonce) (coin 0 (nonce + 1))

def halfConsignment (place : UInt8) (position : UInt32) (nonce : UInt8) : Consignment where
  coinOpenings := [coin half nonce, coin 0 (nonce + 1)]
  nullifiers := []
  proof := tableProof place
  anchorRef := ⟨List.Vector.replicate 32 nonce, ⟨1, position⟩⟩
  aux := some genesis

/-- An environment that knows two mints of `2 ^ 63`. -/
def halvesEnv : WalletEnv Unit :=
  walletEnv [(.mint, halfStatement 0x31), (.mint, halfStatement 0x41)]
    [halfConsignment 0 0 0x31, halfConsignment 1 1 0x41] (JsonText.ofValue .null)

def halfCall (place : UInt8) : VerifyCall where
  blob := [place]
  chain := ⟨1, [halfAnchor 0 0x31, halfAnchor 1 0x41]⟩
  requiredConfirmations := 1
  unconfirmedAnchor := none

/-- Two accepted mints of `2 ^ 63` show a balance of zero. -/
theorem balance_wraps :
    ¬ RunExact halvesEnv fresh [halfCall 0, halfCall 1] ∧
      ((verifyRun halvesEnv fresh [halfCall 0, halfCall 1]).1.balance halvesEnv).map
        CreditJson.amount = [0] ∧
      valueTotal assetId (verifyRun halvesEnv fresh [halfCall 0, halfCall 1]).1.unspentCoins =
        2 ^ 64 := by
  have htotal : valueTotal assetId
      (verifyRun halvesEnv fresh [halfCall 0, halfCall 1]).1.unspentCoins = 2 ^ 64 := by
    decide +kernel
  refine ⟨?_, by decide +kernel, htotal⟩
  intro h
  have hlt := fits_of_runFits ((runExact_iff fresh [halfCall 0, halfCall 1]).mp h) assetId
  rw [htotal] at hlt
  exact lt_irrefl _ hlt

end Sample

end MemWallet

end OpenCsv
