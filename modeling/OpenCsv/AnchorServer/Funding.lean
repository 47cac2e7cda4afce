import OpenCsv.Cbf.Block
import OpenCsv.Ffi.Hex
import OpenCsv.Lib.Sha256
import OpenCsv.Lib.System
import OpenCsv.Lib.Table

/-!
# Funding reservations of the anchor server

A client asks for a context, which reserves one of the server's coins, and later has an
anchor broadcast that spends this coin.  Reserved coins and contexts are two collections
with a lock each: a reserve call holds the first one from its sweep to its end and the
second one only for moments, a broadcast call takes its context out and goes on without
a lock.  Calls of any number of clients interleave at these points.

**Results.**
* `ServerState.Sound`: the reserved coins are those of contexts, of broadcasts under way
  and of accepted broadcasts, each of them once.
* `reservations_accounted`: how long this stays so; `Stranding.coin_stranded`: a failed
  broadcast ends it.
-/

namespace OpenCsv

section Esplora

/-- A txid in display order; digits of either case. -/
def txidDigits : List UInt8 → Option (List UInt8)
  | [] => some []
  | c :: d :: rest => do
      let hi ← hexValue c
      let lo ← hexValue d
      let bytes ← txidDigits rest
      return ((hi <<< 4) ||| lo) :: bytes
  | _ => none

def parseTxid (txid : Text) : Option (Bytes 32) := do
  let bytes ← txidDigits txid.bytes
  let hash ← Bytes.tryFrom 32 bytes
  return hash.reverse

/-- A coin as its listing names it. -/
abbrev FundingKey := Text × UInt32

structure EsploraUtxo where
  txid : Text
  vout : UInt32
  value : UInt64
  confirmed : Bool
deriving DecidableEq

def EsploraUtxo.key (utxo : EsploraUtxo) : FundingKey := (utxo.txid, utxo.vout)

/-- The coin behind a name. -/
def coinOf (key : FundingKey) : Option (Bytes 32) × UInt32 := (parseTxid key.1, key.2)

/-- Confirmed coins before others, then by value. -/
def EsploraUtxo.le (u v : EsploraUtxo) : Bool :=
  (!u.confirmed && v.confirmed) || (u.confirmed == v.confirmed && u.value ≤ v.value)

/-- The last of the largest. -/
def largestUtxo (utxos : List EsploraUtxo) : Option EsploraUtxo :=
  utxos.foldl (fun best utxo =>
    match best with
    | none => some utxo
    | some b => if b.le utxo then some utxo else some b) none

end Esplora

/-- Failures of a call on the funding wallet. -/
inductive FundingError where
  | esplora (message : Text)
  | noSpendable (fee : UInt64)
  | badTxid (txid : Text)
  | unknownContext
  | utxoGone
  | notCovered (value fee : UInt64)
  | signing (message : Text)
deriving DecidableEq

def dustSats : UInt64 := 546

/-- How long a reservation is held, in nanoseconds. -/
def reservationTtl : ℕ := 180000000000

/-- A coin held for a client. -/
structure AnchorWallet.Reservation where
  outpoint : FundingKey
  madeAt : ℕ
deriving DecidableEq

/-- The server's key, as far as a broadcast uses it. -/
structure AnchorKey where
  scriptPubkey : List UInt8
  /-- The witness of the first input, given the value it spends. -/
  sign : Transaction → UInt64 → Except Text (List (List UInt8))

section Calls

variable (sha256 : Sha256)

/-- The coin a reserve call settles on, and the context it derives. -/
def pickUtxo
    (reserved : Finset FundingKey)
    (fee : UInt64)
    (utxos : Except Text (List EsploraUtxo)) : Except FundingError (FundingKey × Ctx) := do
  let utxos ← utxos.mapError .esplora
  let utxo ← okOr (largestUtxo ((utxos.filter (fun u => u.key ∉ reserved)).filter
    (fun u => fee + dustSats ≤ u.value))) (.noSpendable fee)
  let txid ← okOr (parseTxid utxo.txid) (.badTxid utxo.txid)
  return (utxo.key, fundingCtx sha256 ⟨txid, utxo.vout⟩)

/-- The transaction of an anchor, before its input is signed. -/
def anchorTransaction
    (key : AnchorKey)
    (record : AnchorRecord)
    (prev : OutPoint)
    (change : UInt64) : Transaction where
  version := 2
  inputs := [⟨prev, [], 0xfffffffd⟩]
  outputs := [⟨0, anchorScript record.toBytes⟩, ⟨change, key.scriptPubkey⟩]
  lockTime := 0
  witnesses := [[]]

/-- A broadcast call after it took its context, up to the answer to the posted transaction. -/
def spendReserved
    (key : AnchorKey)
    (record : AnchorRecord)
    (outpoint : FundingKey)
    (fee : UInt64)
    (utxos : Except Text (List EsploraUtxo))
    (post : Transaction → Except Text Text) : Except FundingError Text := do
  let utxos ← utxos.mapError .esplora
  let utxo ← okOr (utxos.find? (fun u => u.key = outpoint)) .utxoGone
  require (fee + dustSats ≤ utxo.value) (.notCovered utxo.value fee)
  let prevTxid ← okOr (parseTxid utxo.txid) (.badTxid utxo.txid)
  let tx := anchorTransaction key record ⟨prevTxid, utxo.vout⟩ (utxo.value - fee)
  let witness ← (key.sign tx utxo.value).mapError .signing
  (post { tx with witnesses := [witness] }).mapError .esplora

end Calls

/-- Where the reserve call that holds the lock has got to. -/
inductive ReserveCall where
  | swept
  | picked (outpoint : FundingKey) (ctx : Ctx)
deriving DecidableEq

/-- What happened to coins, in order. -/
inductive CoinEvent where
  | handedOut (outpoint : FundingKey)
  | spent (outpoint : FundingKey)
deriving DecidableEq

/-- The wallet's collections, the calls under way, and what happened so far. -/
structure ServerState where
  reserved : Finset FundingKey
  contexts : Table Ctx AnchorWallet.Reservation
  reserving : Option ReserveCall
  broadcasting : List FundingKey
  log : List CoinEvent

/-- A stretch of a call between two points where others may come in. -/
inductive ServerAct where
  /-- A reserve call takes the lock and sweeps; each reservation has its own instant. -/
  | lock (now : Ctx → ℕ)
  | pick (fee : UInt64) (utxos : Except Text (List EsploraUtxo))
  | record (now : ℕ)
  /-- A broadcast call takes its context out. -/
  | take (ctx : Ctx)
  | send
      (outpoint : FundingKey)
      (anchor : AnchorRecord)
      (fee : UInt64)
      (utxos : Except Text (List EsploraUtxo))
      (post : Transaction → Except Text Text)

namespace ServerState

section Steps

variable (sha256 : Sha256)
variable (key : AnchorKey)

def started : ServerState where
  reserved := ∅
  contexts := Table.empty
  reserving := none
  broadcasting := []
  log := []

/-- The reservation is kept by a sweep. -/
def live (now : Ctx → ℕ) (ctx : Ctx) (reservation : AnchorWallet.Reservation) : Bool :=
  now ctx - reservation.madeAt < reservationTtl

/-- The coins that a sweep releases. -/
def expired (s : ServerState) (now : Ctx → ℕ) : List FundingKey :=
  (s.contexts.rows.filter (fun row => !live now row.1 row.2)).map (fun row => row.2.outpoint)

/-- What a stretch of a call does; `none` where no call has got there. -/
def next (s : ServerState) : ServerAct → Option ServerState
  | .lock now =>
      match s.reserving with
      | some _ => none
      | none => some { s with
          contexts := s.contexts.filter (live now)
          reserved := s.reserved \ (s.expired now).toFinset
          reserving := some .swept }
  | .pick fee utxos =>
      match s.reserving with
      | some .swept =>
          match pickUtxo sha256 s.reserved fee utxos with
          | .error _ => some { s with reserving := none }
          | .ok (outpoint, ctx) => some { s with
              reserved := insert outpoint s.reserved
              reserving := some (.picked outpoint ctx) }
      | _ => none
  | .record now =>
      match s.reserving with
      | some (.picked outpoint ctx) => some { s with
          contexts := s.contexts.put ctx ⟨outpoint, now⟩
          reserving := none
          log := s.log ++ [.handedOut outpoint] }
      | _ => none
  | .take ctx =>
      match s.contexts.get ctx with
      | none => some s
      | some reservation => some { s with
          contexts := s.contexts.delete ctx
          broadcasting := reservation.outpoint :: s.broadcasting }
  | .send outpoint anchor fee utxos post =>
      if outpoint ∈ s.broadcasting then
        some { s with
          broadcasting := s.broadcasting.erase outpoint
          log :=
            match spendReserved key anchor outpoint fee utxos post with
            | .ok _ => s.log ++ [.spent outpoint]
            | .error _ => s.log }
      else
        none

/-- The server as a system, one stretch of some call per step. -/
def system : System ServerState ServerAct where
  init := fun s => s = started
  step := fun s act s' => s.next sha256 key act = some s'

/--
A coin is not reserved again under another spelling of its txid or over the context of
another coin, and no broadcast that took its context fails before its transaction is
accepted.
-/
def Careful (s : ServerState) : ServerAct → Prop
  | .pick fee utxos =>
      ∀ outpoint ctx, pickUtxo sha256 s.reserved fee utxos = .ok (outpoint, ctx) →
        s.contexts.get ctx = none ∧ ∀ k ∈ s.reserved, coinOf k ≠ coinOf outpoint
  | .send outpoint anchor fee utxos post =>
      ∃ txid, spendReserved key anchor outpoint fee utxos post = .ok txid
  | _ => True

end Steps

section Coins

/-- Coins of live contexts. -/
def held (s : ServerState) : List FundingKey :=
  s.contexts.rows.map (fun row => row.2.outpoint)

/-- Coins of accepted broadcasts. -/
def spent (s : ServerState) : List FundingKey :=
  s.log.filterMap (fun event =>
    match event with
    | .handedOut _ => none
    | .spent outpoint => some outpoint)

/-- The coin of the reserve call that holds the lock. -/
def picked (s : ServerState) : List FundingKey :=
  match s.reserving with
  | some (.picked outpoint _) => [outpoint]
  | _ => []

/-- Every coin that is reserved for a reason. -/
def inUse (s : ServerState) : List FundingKey :=
  s.held ++ (s.broadcasting ++ (s.spent ++ s.picked))

/-- No call is in progress. -/
def Idle (s : ServerState) : Prop :=
  s.reserving = none ∧ s.broadcasting = []

/-- Every reserved coin is reserved for a reason. -/
def Accounted (s : ServerState) : Prop :=
  ∀ outpoint ∈ s.reserved, outpoint ∈ s.inUse

/-- No coin is handed out after it was spent. -/
def NeverAgain (s : ServerState) : Prop :=
  s.log.Pairwise (fun earlier later => ∀ k k',
    earlier = .spent k → later = .handedOut k' → coinOf k ≠ coinOf k')

/-- The reserved coins are the coins in use, each of them in one use. -/
structure Sound (s : ServerState) : Prop where
  reserved : ∀ outpoint, outpoint ∈ s.reserved ↔ outpoint ∈ s.inUse
  distinct : (s.inUse.map coinOf).Nodup
  again : s.NeverAgain
  fresh : ∀ outpoint ctx, s.reserving = some (.picked outpoint ctx) → s.contexts.get ctx = none

end Coins

section Keeping

variable {sha256 : Sha256}
variable {key : AnchorKey}
variable {s s' : ServerState}

theorem started_sound :
    started.Sound where
  reserved := fun outpoint => by simp [started, inUse, held, spent, picked, Table.empty]
  distinct := List.nodup_nil
  again := List.Pairwise.nil
  fresh := by
    intro outpoint ctx h
    cases h

/-- Names of one coin in use are one name. -/
theorem Sound.eq_of_coinOf_eq
    (h : s.Sound)
    {k k' : FundingKey}
    (hk : k ∈ s.inUse)
    (hk' : k' ∈ s.inUse)
    (heq : coinOf k = coinOf k') :
    k = k' :=
  List.inj_on_of_nodup_map h.distinct hk hk' heq

/-- A sweep releases the coins of the contexts it drops, and no others. -/
theorem Sound.lock
    (h : s.Sound)
    (hfree : s.reserving = none)
    (now : Ctx → ℕ) :
    Sound { s with
      contexts := s.contexts.filter (live now)
      reserved := s.reserved \ (s.expired now).toFinset
      reserving := some .swept } := by
  have hpicked : s.picked = [] := by
    rw [picked, hfree]
  -- The coins in use before the sweep are those after it and the released ones.
  have hsplit : s.inUse.Perm (s.expired now ++ inUse { s with
      contexts := s.contexts.filter (live now)
      reserved := s.reserved \ (s.expired now).toFinset
      reserving := some .swept }) := by
    have hrows := List.filter_append_perm (fun row => !live now row.1 row.2) s.contexts.rows
    have hheld := (hrows.map (fun row => row.2.outpoint)).symm
    rw [List.map_append] at hheld
    have hlive : (s.contexts.rows.filter (fun row => !!live now row.1 row.2)) =
        s.contexts.rows.filter (fun row => live now row.1 row.2) := by
      simp
    rw [hlive] at hheld
    have happend := hheld.append_right (s.broadcasting ++ (s.spent ++ s.picked))
    rw [List.append_assoc, hpicked] at happend
    unfold inUse
    rw [hpicked]
    exact happend
  have hdistinct := (hsplit.map coinOf).nodup_iff.mp h.distinct
  rw [List.map_append, List.nodup_append'] at hdistinct
  refine ⟨?_, hdistinct.2.1, h.again, ?_⟩
  · intro outpoint
    rw [Finset.mem_sdiff, List.mem_toFinset, h.reserved, hsplit.mem_iff, List.mem_append]
    constructor
    · rintro ⟨hmem, hnot⟩
      exact hmem.resolve_left hnot
    · intro hmem
      refine ⟨Or.inr hmem, ?_⟩
      intro hexpired
      exact hdistinct.2.2 (List.mem_map_of_mem hexpired) (List.mem_map_of_mem hmem)
  · intro outpoint ctx hreserving
    cases hreserving

/-- A coin that is not reserved under any name may be reserved. -/
theorem Sound.pick
    (h : s.Sound)
    (hswept : s.reserving = some .swept)
    {outpoint : FundingKey}
    {ctx : Ctx}
    (hctx : s.contexts.get ctx = none)
    (hother : ∀ k ∈ s.reserved, coinOf k ≠ coinOf outpoint) :
    Sound { s with
      reserved := insert outpoint s.reserved
      reserving := some (.picked outpoint ctx) } := by
  have hpicked : s.picked = [] := by
    rw [picked, hswept]
  have hinUse : inUse { s with
      reserved := insert outpoint s.reserved
      reserving := some (.picked outpoint ctx) } = s.inUse ++ [outpoint] := by
    unfold inUse
    rw [hpicked, List.append_nil]
    show s.held ++ (s.broadcasting ++ (s.spent ++ [outpoint])) = _
    simp only [List.append_assoc]
  refine ⟨?_, ?_, h.again, ?_⟩
  · intro k
    rw [hinUse, Finset.mem_insert, h.reserved, List.mem_append, List.mem_singleton, or_comm]
  · rw [hinUse, List.map_append, List.nodup_append']
    refine ⟨h.distinct, List.nodup_singleton _, ?_⟩
    intro coin hcoin hlast
    obtain ⟨k, hk, rfl⟩ := List.mem_map.mp hcoin
    exact hother k ((h.reserved k).mpr hk) (List.mem_singleton.mp hlast)
  · intro outpoint' ctx' hreserving
    obtain ⟨-, rfl⟩ := ReserveCall.picked.inj (Option.some.inj hreserving)
    exact hctx

/-- The picked coin goes to its context. -/
theorem Sound.record
    (h : s.Sound)
    {outpoint : FundingKey}
    {ctx : Ctx}
    (hpicked : s.reserving = some (.picked outpoint ctx))
    (now : ℕ) :
    Sound { s with
      contexts := s.contexts.put ctx ⟨outpoint, now⟩
      reserving := none
      log := s.log ++ [.handedOut outpoint] } := by
  have hmine : s.picked = [outpoint] := by
    rw [picked, hpicked]
  have hrows : (s.contexts.put ctx ⟨outpoint, now⟩).rows =
      s.contexts.rows ++ [(ctx, ⟨outpoint, now⟩)] := by
    exact Table.rows_put_of_none (h.fresh outpoint ctx hpicked)
  have hinUse : (inUse { s with
      contexts := s.contexts.put ctx ⟨outpoint, now⟩
      reserving := none
      log := s.log ++ [.handedOut outpoint] }).Perm s.inUse := by
    unfold inUse
    rw [hmine]
    unfold held spent picked
    rw [hrows, List.map_append, List.filterMap_append]
    simp only [List.map_cons, List.map_nil, List.filterMap_cons, List.filterMap_nil,
      List.append_nil, List.append_assoc, List.singleton_append]
    refine List.Perm.append_left _ ?_
    rw [← List.append_assoc]
    exact (List.perm_append_singleton outpoint _).symm
  refine ⟨?_, ?_, ?_, ?_⟩
  · intro k
    rw [hinUse.mem_iff]
    exact h.reserved k
  · exact (hinUse.map coinOf).nodup_iff.mpr h.distinct
  · refine List.pairwise_append.mpr ⟨h.again, List.pairwise_singleton _ _, ?_⟩
    intro earlier hearlier later hlater k k' hspent hhanded heq
    obtain rfl := List.mem_singleton.mp hlater
    obtain rfl := CoinEvent.handedOut.inj hhanded
    have hk : k ∈ s.spent := by
      refine List.mem_filterMap.mpr ⟨earlier, hearlier, ?_⟩
      rw [hspent]
    have hdistinct := h.distinct
    unfold inUse at hdistinct
    rw [List.map_append, List.map_append, List.map_append, hmine] at hdistinct
    have hlast := (List.nodup_append'.mp
      (List.nodup_append'.mp (List.nodup_append'.mp hdistinct).2.1).2.1).2.2
    exact hlast (List.mem_map_of_mem hk) (by rw [heq]; exact List.mem_singleton_self _)
  · intro outpoint' ctx' hreserving
    cases hreserving

/-- A reserve call that found no coin gives the lock back. -/
theorem Sound.release
    (h : s.Sound)
    (hswept : s.reserving = some .swept) :
    Sound { s with reserving := none } := by
  have hinUse : inUse { s with reserving := none } = s.inUse := by
    unfold inUse picked
    rw [hswept]
    rfl
  refine ⟨?_, ?_, h.again, ?_⟩
  · rw [hinUse]
    exact h.reserved
  · rw [hinUse]
    exact h.distinct
  · intro outpoint ctx hreserving
    cases hreserving

/-- A context that is taken leaves its coin to the broadcast. -/
theorem Sound.take
    (h : s.Sound)
    {ctx : Ctx}
    {reservation : AnchorWallet.Reservation}
    (hget : s.contexts.get ctx = some reservation) :
    Sound { s with
      contexts := s.contexts.delete ctx
      broadcasting := reservation.outpoint :: s.broadcasting } := by
  have hrows : s.contexts.rows.Perm ((ctx, reservation) :: (s.contexts.delete ctx).rows) := by
    have hsplit := (List.filter_append_perm (fun row => row.1 == ctx) s.contexts.rows).symm
    have hone : s.contexts.rows.filter (fun row => row.1 == ctx) = [(ctx, reservation)] :=
      Table.rows_filter_key hget
    rw [hone] at hsplit
    exact hsplit
  have hinUse : s.inUse.Perm (inUse { s with
      contexts := s.contexts.delete ctx
      broadcasting := reservation.outpoint :: s.broadcasting }) := by
    have hheld := hrows.map (fun row => row.2.outpoint)
    rw [List.map_cons] at hheld
    unfold inUse
    refine (hheld.append_right _).trans ?_
    rw [List.cons_append]
    exact List.perm_middle.symm
  refine ⟨?_, (hinUse.map coinOf).nodup_iff.mp h.distinct, h.again, ?_⟩
  · intro k
    rw [← hinUse.mem_iff]
    exact h.reserved k
  · intro outpoint ctx' hreserving
    have hfresh := h.fresh outpoint ctx' hreserving
    show (s.contexts.delete ctx).get ctx' = none
    rw [Table.get_delete]
    split_ifs
    · rfl
    · exact hfresh

/-- An accepted broadcast leaves its coin spent. -/
theorem Sound.send_ok
    (h : s.Sound)
    {outpoint : FundingKey}
    (hbusy : outpoint ∈ s.broadcasting) :
    Sound { s with
      broadcasting := s.broadcasting.erase outpoint
      log := s.log ++ [.spent outpoint] } := by
  have hinUse : s.inUse.Perm (inUse { s with
      broadcasting := s.broadcasting.erase outpoint
      log := s.log ++ [.spent outpoint] }) := by
    unfold inUse
    refine List.Perm.append_left _ ?_
    show (s.broadcasting ++ (s.spent ++ s.picked)).Perm
      (s.broadcasting.erase outpoint ++ ((s.log ++ [CoinEvent.spent outpoint]).filterMap _ ++ s.picked))
    rw [List.filterMap_append]
    refine ((List.perm_cons_erase hbusy).append_right _).trans ?_
    rw [List.cons_append]
    refine List.perm_middle.symm.trans (List.Perm.append_left _ ?_)
    simp only [List.filterMap_cons, List.filterMap_nil, List.append_assoc,
      List.singleton_append]
    exact List.perm_middle.symm
  refine ⟨?_, (hinUse.map coinOf).nodup_iff.mp h.distinct, ?_, h.fresh⟩
  · intro k
    rw [← hinUse.mem_iff]
    exact h.reserved k
  · refine List.pairwise_append.mpr ⟨h.again, List.pairwise_singleton _ _, ?_⟩
    intro earlier _ later hlater k k' _ hhanded
    obtain rfl := List.mem_singleton.mp hlater
    cases hhanded

/-- A failed broadcast leaves its coin reserved for no reason. -/
theorem Sound.send_error
    (h : s.Sound)
    {outpoint : FundingKey}
    (hbusy : outpoint ∈ s.broadcasting) :
    ¬ Accounted { s with broadcasting := s.broadcasting.erase outpoint } := by
  intro haccounted
  have hmem : outpoint ∈ s.inUse :=
    List.mem_append_right _ (List.mem_append_left _ hbusy)
  have hstill : outpoint ∈ inUse { s with broadcasting := s.broadcasting.erase outpoint } :=
    haccounted outpoint ((h.reserved outpoint).mpr hmem)
  have hperm : s.inUse.Perm (outpoint :: inUse { s with
      broadcasting := s.broadcasting.erase outpoint }) := by
    unfold inUse
    refine (List.Perm.append_left _ ((List.perm_cons_erase hbusy).append_right _)).trans ?_
    rw [List.cons_append]
    exact List.perm_middle
  have hnodup := (hperm.map coinOf).nodup_iff.mp h.distinct
  rw [List.map_cons, List.nodup_cons] at hnodup
  exact hnodup.1 (List.mem_map_of_mem hstill)

/-- Careful stretches of calls keep the collections sound. -/
theorem Sound.next
    (h : s.Sound)
    {act : ServerAct}
    (hcareful : s.Careful sha256 key act)
    (hnext : s.next sha256 key act = some s') :
    s'.Sound := by
  cases act with
  | lock now =>
      dsimp only [ServerState.next] at hnext
      split at hnext
      · cases hnext
      · rename_i hfree
        obtain rfl := Option.some.inj hnext
        exact h.lock hfree now
  | pick fee utxos =>
      dsimp only [ServerState.next] at hnext
      split at hnext
      · rename_i hswept
        split at hnext
        · obtain rfl := Option.some.inj hnext
          exact h.release hswept
        · rename_i outpoint ctx hpick
          obtain rfl := Option.some.inj hnext
          obtain ⟨hctx, hother⟩ := hcareful outpoint ctx hpick
          exact h.pick hswept hctx hother
      · cases hnext
  | record now =>
      dsimp only [ServerState.next] at hnext
      split at hnext
      · rename_i outpoint ctx hpicked
        obtain rfl := Option.some.inj hnext
        exact h.record hpicked now
      · cases hnext
  | take ctx =>
      dsimp only [ServerState.next] at hnext
      split at hnext
      · obtain rfl := Option.some.inj hnext
        exact h
      · rename_i reservation hget
        obtain rfl := Option.some.inj hnext
        exact h.take hget
  | send outpoint anchor fee utxos post =>
      obtain ⟨txid, hsent⟩ := hcareful
      dsimp only [ServerState.next] at hnext
      split_ifs at hnext with hbusy
      rw [hsent] at hnext
      obtain rfl := Option.some.inj hnext
      exact h.send_ok hbusy

end Keeping

section Runs

variable {sha256 : Sha256}
variable {key : AnchorKey}
variable {s : ServerState}

/-- Contexts and accepted broadcasts account for the reserved coins while no call runs. -/
theorem Accounted.of_idle
    (h : s.Accounted)
    (hidle : s.Idle)
    {outpoint : FundingKey}
    (hreserved : outpoint ∈ s.reserved) :
    outpoint ∈ s.held ∨ outpoint ∈ s.spent := by
  have hmem := h outpoint hreserved
  unfold inUse picked at hmem
  rw [hidle.1, hidle.2] at hmem
  simpa using hmem

/--
In every run whose calls are careful no two live contexts hold one coin, no spent coin is
handed out, and while no call is in progress every reserved coin is that of a context or
of an accepted broadcast.  A broadcast that takes its context keeps this so if and only if
its transaction is accepted.
-/
theorem reservations_accounted
    (hreach : ((system sha256 key).restrict (fun s => s.Careful sha256 key)).Reachable s) :
    (s.held.map coinOf).Nodup ∧
      s.NeverAgain ∧
      (s.Idle → ∀ outpoint ∈ s.reserved, outpoint ∈ s.held ∨ outpoint ∈ s.spent) ∧
      ∀ outpoint anchor fee utxos post s',
        s.next sha256 key (.send outpoint anchor fee utxos post) = some s' →
        (s'.Accounted ↔ ∃ txid, spendReserved key anchor outpoint fee utxos post = .ok txid) := by
  have h : s.Sound := by
    refine @System.Reachable.invariant _ _ _ Sound ?_ ?_ s hreach
    · rintro _ rfl
      exact started_sound
    · rintro s act s' hs ⟨hnext, hcareful⟩
      exact hs.next hcareful hnext
  have hheld := h.distinct
  rw [inUse, List.map_append] at hheld
  refine ⟨(List.nodup_append'.mp hheld).1, h.again, ?_, ?_⟩
  · intro hidle outpoint hreserved
    exact Accounted.of_idle (fun k hk => (h.reserved k).mp hk) hidle hreserved
  · intro outpoint anchor fee utxos post s' hnext
    dsimp only [ServerState.next] at hnext
    split_ifs at hnext with hbusy
    cases hsent : spendReserved key anchor outpoint fee utxos post with
    | ok txid =>
        rw [hsent] at hnext
        obtain rfl := Option.some.inj hnext
        refine iff_of_true ?_ ⟨txid, rfl⟩
        intro k hk
        exact ((h.send_ok hbusy).reserved k).mp hk
    | error e =>
        rw [hsent] at hnext
        obtain rfl := Option.some.inj hnext
        exact iff_of_false (h.send_error hbusy) (by simp)

end Runs
namespace Stranding

def txid : Bytes 32 := List.Vector.replicate 32 0xab

def coin : FundingKey := (toHex txid.toList, 0)

def listing : List EsploraUtxo := [⟨coin.1, 0, 10000, true⟩]

def ctx : Ctx := fundingCtx Sha2.sha256 ⟨txid, 0⟩

def key : AnchorKey where
  scriptPubkey := [0x51]
  sign := fun _ _ => .ok []

def anchor : AnchorRecord := AnchorRecord.fromBytes (Bytes.zero 64)

/-- The state after a stretch of a call. -/
def after (s : ServerState) (act : ServerAct) : ServerState :=
  (s.next Sha2.sha256 key act).getD s

theorem next_after
    {s : ServerState}
    {act : ServerAct}
    (h : (s.next Sha2.sha256 key act).isSome = true) :
    s.next Sha2.sha256 key act = some (after s act) := by
  obtain ⟨s', hs'⟩ := Option.isSome_iff_exists.mp h
  rw [after, hs']
  rfl

/-- A client reserves the coin and starts its broadcast. -/
def swept : ServerState := after started (.lock (fun _ => 0))

def picking : ServerState := after swept (.pick 210 (.ok listing))

def waiting : ServerState := after picking (.record 0)

def sending : ServerState := after waiting (.take ctx)

/-- The listing of the coins fails. -/
def failure : ServerAct :=
  .send coin anchor 210 (.error (Text.lit "timed out")) (fun _ => .ok coin.1)

def success : ServerAct :=
  .send coin anchor 210 (.ok listing) (fun _ => .ok coin.1)

/-- One more careful stretch. -/
theorem reachable_after
    {s : ServerState}
    {act : ServerAct}
    (h : ((system Sha2.sha256 key).restrict
      (fun s => s.Careful Sha2.sha256 key)).Reachable s)
    (hsome : (s.next Sha2.sha256 key act).isSome = true)
    (hcareful : s.Careful Sha2.sha256 key act) :
    ((system Sha2.sha256 key).restrict
      (fun s => s.Careful Sha2.sha256 key)).Reachable (after s act) :=
  System.Reachable.step h ⟨next_after hsome, hcareful⟩

theorem sending_reachable :
    ((system Sha2.sha256 key).restrict
      (fun s => s.Careful Sha2.sha256 key)).Reachable sending := by
  have hempty : swept.reserved = ∅ := by
    decide +kernel
  have hpick : swept.Careful Sha2.sha256 key (.pick 210 (.ok listing)) := by
    intro outpoint ctx' _
    refine ⟨rfl, ?_⟩
    intro k hk
    rw [hempty] at hk
    cases hk
  refine reachable_after (reachable_after (reachable_after (reachable_after
    (System.Reachable.init rfl) ?_ trivial) ?_ hpick) ?_ trivial) ?_ trivial
  · decide +kernel
  · decide +kernel
  · decide +kernel
  · decide +kernel

/-- The broadcast succeeds, and its coin stays reserved as a spent one. -/
theorem success_accounted :
    (after sending success).Accounted := by
  have hkeeps := (reservations_accounted sending_reachable).2.2.2
  refine (hkeeps coin anchor 210 (.ok listing) (fun _ => .ok coin.1) _ ?_).mpr ?_
  · exact next_after (by decide +kernel)
  · exact ⟨coin.1, by decide +kernel⟩

/--
The broadcast fails: no call is in progress and the coin is reserved for no reason.  No
later reserve call can have it.
-/
theorem coin_stranded :
    (system Sha2.sha256 key).Reachable (after sending failure) ∧
      (after sending failure).Idle ∧
      coin ∈ (after sending failure).reserved ∧
      (after sending failure).held = [] ∧
      (after sending failure).spent = [] ∧
      pickUtxo Sha2.sha256 (after (after sending failure)
        (.lock (fun _ => 2 * reservationTtl))).reserved 210 (.ok listing) =
          .error (.noSpendable 210) := by
  have hreach : (system Sha2.sha256 key).Reachable sending :=
    System.Reachable.of_restrict sending_reachable
  have hfailure : sending.next Sha2.sha256 key failure = some (after sending failure) := by
    refine next_after ?_
    decide +kernel
  refine ⟨hreach.step hfailure, ?_⟩
  unfold Idle
  decide +kernel

/-- The coin in capitals. -/
def respelled : FundingKey :=
  (Text.lit "ABABABABABABABABABABABABABABABABABABABABABABABABABABABABABABABAB", 0)

/-- The server's state when another client asks and the coin is listed in capitals. -/
def respent : ServerState :=
  after (after (after (after sending success) (.lock (fun _ => 0)))
    (.pick 210 (.ok [⟨respelled.1, 0, 10000, true⟩]))) (.record 0)

/-- A spent coin that is listed under another spelling is handed out again. -/
theorem respelled_coin_respent :
    coinOf respelled = coinOf coin ∧
      respent.log = [.handedOut coin, .spent coin, .handedOut respelled] := by
  decide +kernel

end Stranding
end ServerState

end OpenCsv
