import Mathlib.Data.List.Lex
import Mathlib.Data.List.MinMax
import Mathlib.Data.Prod.Lex
import OpenCsv.Ffi.Wallet

/-!
# Coin selection

A payment spends one or two coins.  The wallet keeps the best candidate of two nested loops over
the eligible coins, which are sorted by id.

**Results.** The selection is the least cover (`selectTransferInputs_least`), and the outputs of
a proved payment add up to its inputs (`proveTransferAmount_conserves`).
-/

namespace OpenCsv

/-- The bytes of a text, as numbers. -/
def Text.code (t : Text) : List ℕ :=
  t.bytes.map UInt8.toNat

section TextOrder

/-- The order of byte strings is the lexicographic one. -/
theorem bytesLe_iff
    (as bs : List UInt8) :
    bytesLe as bs = true ↔ ¬ bs.map UInt8.toNat < as.map UInt8.toNat := by
  induction as generalizing bs with
  | nil =>
      simp [bytesLe]
  | cons a as ih =>
      cases bs with
      | nil =>
          simp [bytesLe]
      | cons b bs =>
          rw [List.map_cons, List.map_cons, List.cons_lt_cons_iff, not_or, not_and, ← ih]
          simp only [bytesLe, Bool.or_eq_true, decide_eq_true_eq, Bool.and_eq_true, beq_iff_eq,
            UInt8.lt_iff_toNat_lt, ← UInt8.toNat_inj]
          constructor
          · rintro (hlt | ⟨heq, hle⟩)
            · exact ⟨by omega, fun heq => absurd heq (by omega)⟩
            · exact ⟨by omega, fun _ => hle⟩
          · rintro ⟨hnot, hle⟩
            rcases lt_or_eq_of_le (Nat.le_of_not_lt hnot) with hlt | heq
            · exact Or.inl hlt
            · exact Or.inr ⟨heq, hle heq.symm⟩

theorem Text.le_iff
    (s t : Text) :
    s.le t = true ↔ s.code ≤ t.code := by
  rw [← not_lt]
  exact bytesLe_iff s.bytes t.bytes

theorem Text.code_inj
    {s t : Text} :
    s.code = t.code ↔ s = t := by
  constructor
  · intro h
    exact Text.ext (List.map_injective_iff.mpr (fun _ _ => UInt8.toNat_inj.mp) h)
  · rintro rfl
    rfl

end TextOrder

namespace MemWallet

variable {π : Type}

section Covers

/-- A coin that a payment of an asset may spend. -/
structure Eligible
    (env : WalletEnv π)
    (w : MemWallet)
    (assetId : Digest)
    (s : StoredCoin) : Prop where
  unspent : s.status = .unspent
  asset : s.coin.assetId = assetId
  owned : ∃ osk ∈ w.keys, osk.owner env.sponge = s.coin.owner
  unreserved : ∀ entry ∈ w.pending.entries, s.id env.sponge ∉ entry.2.spentIds

/-- The value of coins. -/
def valueOf (sub : List StoredCoin) : ℕ :=
  (sub.map (fun s => s.coin.value.toNat)).sum

/-- The ids of coins, sorted. -/
def sortedIds (env : WalletEnv π) (sub : List StoredCoin) : List Text :=
  (sub.map (StoredCoin.id env.sponge)).insertionSort (fun a b => a.le b = true)

/-- One or two eligible coins whose value fits and covers an amount. -/
structure Cover
    (env : WalletEnv π)
    (w : MemWallet)
    (assetId : Digest)
    (amount : UInt64)
    (sub : List StoredCoin) : Prop where
  subset : sub.Subperm w.coins
  eligible : ∀ s ∈ sub, Eligible env w assetId s
  size : sub.length = 1 ∨ sub.length = 2
  fits : valueOf sub < 2 ^ 64
  covers : amount.toNat ≤ valueOf sub

/-- Change, number of inputs, sorted ids: covers are compared in this order. -/
def coverKey
    (env : WalletEnv π)
    (amount : UInt64)
    (sub : List StoredCoin) : ℕ ×ₗ ℕ ×ₗ List (List ℕ) :=
  toLex (valueOf sub - amount.toNat, toLex (sub.length, (sortedIds env sub).map Text.code))

/-- The same of a candidate. -/
def Selection.key (s : Selection) : ℕ ×ₗ ℕ ×ₗ List (List ℕ) :=
  toLex (s.change.toNat, toLex (s.ids.length, s.ids.map Text.code))

end Covers

section Order

theorem idsLt_iff
    (ss ts : List Text) :
    idsLt ss ts = true ↔ ss.map Text.code < ts.map Text.code := by
  induction ss generalizing ts with
  | nil =>
      cases ts with
      | nil =>
          simp [idsLt]
      | cons t ts =>
          simp [idsLt]
  | cons s ss ih =>
      cases ts with
      | nil =>
          simp [idsLt]
      | cons t ts =>
          have hle : (!t.le s) = true ↔ s.code < t.code := by
            rw [Bool.not_eq_true', ← Bool.not_eq_true, Text.le_iff, not_le]
          rw [idsLt, Bool.or_eq_true, hle, Bool.and_eq_true, beq_iff_eq, ih, List.map_cons,
            List.map_cons, List.cons_lt_cons_iff, Text.code_inj]

/-- Candidates are compared by their keys. -/
theorem Selection.lt_iff
    (a b : Selection) :
    a.lt b = true ↔ a.key < b.key := by
  simp only [Selection.lt, Selection.key, Prod.Lex.toLex_lt_toLex, Bool.or_eq_true,
    Bool.and_eq_true, decide_eq_true_eq, beq_iff_eq, idsLt_iff, UInt64.lt_iff_toNat_lt,
    UInt64.toNat_inj]

/-- The loops keep a candidate with the least key. -/
theorem foldl_better
    (candidates : List Selection) :
    candidates.foldl Selection.better none = candidates.argmin Selection.key := by
  have hstep : Selection.better = List.argAux (fun b c => b.key < c.key) := by
    funext selected candidate
    cases selected with
    | none =>
        rfl
    | some current =>
        simp only [Selection.better, List.argAux, Selection.lt_iff]
  rw [hstep]
  rfl

end Order

section Candidates

variable {env : WalletEnv π}
variable {w : MemWallet}
variable {assetId : Digest}
variable {amount : UInt64}

instance : Std.Total (fun a b : Text × UInt64 => a.1.le b.1 = true) :=
  ⟨fun a b => bytesLe_total a.1.bytes b.1.bytes⟩

instance : IsTrans (Text × UInt64) (fun a b => a.1.le b.1 = true) :=
  ⟨fun _ _ _ => bytesLe_trans⟩

instance : Std.Antisymm (fun a b : Text => a.le b = true) :=
  ⟨fun _ _ h h' => Text.ext (bytesLe_antisymm h h')⟩

instance : Std.Total (fun a b : Text => a.le b = true) :=
  ⟨fun a b => bytesLe_total a.bytes b.bytes⟩

instance : IsTrans Text (fun a b => a.le b = true) :=
  ⟨fun _ _ _ => bytesLe_trans⟩

/-- The entry of a coin in the list of eligible ones. -/
def entryOf (env : WalletEnv π) (s : StoredCoin) : Text × UInt64 :=
  (s.id env.sponge, s.coin.value)

/-- The value of entries. -/
def entriesValue (entries : List (Text × UInt64)) : ℕ :=
  (entries.map (fun e => e.2.toNat)).sum

theorem eligible_iff
    (s : StoredCoin) :
    (s.status == .unspent && s.coin.assetId == assetId &&
      (w.secretFor env s.coin.owner).isSome &&
        !(w.reserved.contains (s.id env.sponge))) = true ↔ Eligible env w assetId s := by
  have howned : (w.secretFor env s.coin.owner).isSome = true ↔
      ∃ osk ∈ w.keys, osk.owner env.sponge = s.coin.owner := by
    simp [secretFor, List.find?_isSome]
  have hfree : (!(w.reserved.contains (s.id env.sponge))) = true ↔
      ∀ entry ∈ w.pending.entries, s.id env.sponge ∉ entry.2.spentIds := by
    simp only [reserved, Bool.not_eq_true', List.contains_eq_mem, decide_eq_false_iff_not,
      List.mem_flatMap, not_exists, not_and]
  simp only [Bool.and_eq_true, beq_iff_eq, howned, hfree]
  constructor
  · rintro ⟨⟨⟨hunspent, hasset⟩, howner⟩, hunreserved⟩
    exact ⟨hunspent, hasset, howner, hunreserved⟩
  · rintro ⟨hunspent, hasset, howner, hunreserved⟩
    exact ⟨⟨⟨hunspent, hasset⟩, howner⟩, hunreserved⟩

theorem eligible_perm
    (env : WalletEnv π)
    (w : MemWallet)
    (assetId : Digest) :
    (w.eligible env assetId).Perm ((w.coins.filter (fun s =>
      s.status == .unspent && s.coin.assetId == assetId &&
        (w.secretFor env s.coin.owner).isSome &&
          !(w.reserved.contains (s.id env.sponge)))).map (entryOf env)) :=
  List.perm_insertionSort _ _

theorem eligible_sorted
    (env : WalletEnv π)
    (w : MemWallet)
    (assetId : Digest) :
    (w.eligible env assetId).Pairwise (fun a b => a.1.le b.1 = true) :=
  List.pairwise_insertionSort _ _

/-- Entries in the order of the list are those of eligible coins. -/
theorem exists_coins_of_sublist
    {entries : List (Text × UInt64)}
    (h : entries.Sublist (w.eligible env assetId)) :
    ∃ sub : List StoredCoin, sub.Subperm w.coins ∧ (∀ s ∈ sub, Eligible env w assetId s) ∧
      entries.Perm (sub.map (entryOf env)) := by
  rcases ((eligible_perm env w assetId).subperm_left).mp h.subperm with ⟨entries', hperm, hsub⟩
  rcases List.sublist_map_iff.mp hsub with ⟨sub, hcoins, rfl⟩
  refine ⟨sub, (hcoins.trans List.filter_sublist).subperm, ?_, hperm.symm⟩
  intro s hs
  exact (eligible_iff s).mp (List.mem_filter.mp (hcoins.subset hs)).2

/-- Eligible coins have entries in the order of the list. -/
theorem exists_sublist_of_coins
    {sub : List StoredCoin}
    (hsub : sub.Subperm w.coins)
    (heligible : ∀ s ∈ sub, Eligible env w assetId s) :
    ∃ entries : List (Text × UInt64), entries.Sublist (w.eligible env assetId) ∧
      entries.Perm (sub.map (entryOf env)) := by
  have hself : sub.filter (fun s =>
      s.status == .unspent && s.coin.assetId == assetId &&
        (w.secretFor env s.coin.owner).isSome &&
          !(w.reserved.contains (s.id env.sponge))) = sub :=
    List.filter_eq_self.mpr (fun s hs => (eligible_iff s).mpr (heligible s hs))
  have hfilter := hsub.filter (fun s =>
      s.status == .unspent && s.coin.assetId == assetId &&
        (w.secretFor env s.coin.owner).isSome &&
          !(w.reserved.contains (s.id env.sponge)))
  rw [hself] at hfilter
  rcases hfilter with ⟨sub', hperm, hcoins⟩
  have hentries : (sub.map (entryOf env)).Subperm (w.eligible env assetId) :=
    ((eligible_perm env w assetId).subperm_left).mpr
      ⟨sub'.map (entryOf env), hperm.map _, hcoins.map _⟩
  rcases hentries with ⟨entries, hperm', hsublist⟩
  exact ⟨entries, hsublist, hperm'⟩

/-- What sorted entries say of their coins. -/
theorem coins_of_entries
    {sub : List StoredCoin}
    {entries : List (Text × UInt64)}
    (hsublist : entries.Sublist (w.eligible env assetId))
    (hperm : entries.Perm (sub.map (entryOf env))) :
    valueOf sub = entriesValue entries ∧ sub.length = entries.length ∧
      sortedIds env sub = entries.map Prod.fst := by
  refine ⟨?_, ?_, ?_⟩
  · have hvalues := (hperm.map (fun e : Text × UInt64 => e.2.toNat)).sum_eq
    rw [List.map_map] at hvalues
    exact hvalues.symm
  · have hlength := hperm.length_eq
    rw [List.length_map] at hlength
    exact hlength.symm
  · have hids := hperm.map Prod.fst
    rw [List.map_map] at hids
    have hsorted : (entries.map Prod.fst).Pairwise (fun a b => a.le b = true) :=
      List.pairwise_map.mpr ((eligible_sorted env w assetId).sublist hsublist)
    apply List.Perm.eq_of_pairwise' (List.pairwise_insertionSort _ _) hsorted
    exact (List.perm_insertionSort _ _).trans hids.symm

theorem mem_pairsInOrder_iff
    {α : Type}
    {a b : α}
    {xs : List α} :
    (a, b) ∈ pairsInOrder xs ↔ [a, b].Sublist xs := by
  induction xs with
  | nil =>
      simp [pairsInOrder]
  | cons x xs ih =>
      rw [pairsInOrder, List.mem_append, ih, List.cons_sublist_cons', List.singleton_sublist]
      constructor
      · rintro (hmem | hsub)
        · rcases List.mem_map.mp hmem with ⟨y, hy, heq⟩
          rcases Prod.mk.inj heq with ⟨rfl, rfl⟩
          exact Or.inr ⟨rfl, hy⟩
        · exact Or.inl hsub
      · rintro (hsub | ⟨rfl, hb⟩)
        · exact Or.inr hsub
        · exact Or.inl (List.mem_map.mpr ⟨b, hb, rfl⟩)

/-- The candidates are the entries of one or two coins whose value fits and covers the amount. -/
theorem mem_candidates_iff
    {entries : List (Text × UInt64)}
    {candidate : Selection} :
    candidate ∈ singles entries amount ++ doubles entries amount ↔
      ∃ sub : List (Text × UInt64), sub.Sublist entries ∧ (sub.length = 1 ∨ sub.length = 2) ∧
        ∃ total : UInt64, total.toNat = entriesValue sub ∧ amount ≤ total ∧
          candidate = ⟨total - amount, sub.map Prod.fst, total⟩ := by
  rw [List.mem_append, singles, doubles, List.mem_filterMap, List.mem_filterMap]
  constructor
  · rintro (⟨⟨id, value⟩, hmem, hcandidate⟩ | ⟨⟨a, b⟩, hmem, hcandidate⟩)
    · dsimp only at hcandidate
      split_ifs at hcandidate with hlt
      obtain rfl := Option.some.inj hcandidate
      refine ⟨[(id, value)], List.singleton_sublist.mpr hmem, Or.inl rfl, value, ?_, ?_, rfl⟩
      · simp [entriesValue]
      · exact UInt64.not_lt.mp hlt
    · dsimp only at hcandidate
      rcases Option.bind_eq_some_iff.mp hcandidate with ⟨total, htotal, hcandidate⟩
      split_ifs at hcandidate with hlt
      obtain rfl := Option.some.inj hcandidate
      refine ⟨[a, b], mem_pairsInOrder_iff.mp hmem, Or.inr rfl, total, ?_, ?_, rfl⟩
      · simp [entriesValue, toNat_of_checkedAdd htotal]
      · exact UInt64.not_lt.mp hlt
  · rintro ⟨sub, hsub, hlength, total, htotal, hle, rfl⟩
    rcases hlength with hone | htwo
    · rcases List.length_eq_one_iff.mp hone with ⟨⟨id, value⟩, rfl⟩
      have hvalue : total = value := by
        rw [← UInt64.toNat_inj, htotal]
        simp [entriesValue]
      subst hvalue
      refine Or.inl ⟨(id, total), List.singleton_sublist.mp hsub, ?_⟩
      dsimp only
      rw [if_neg (UInt64.not_lt.mpr hle)]
      rfl
    · rcases List.length_eq_two.mp htwo with ⟨a, b, rfl⟩
      have hsum : total.toNat = a.2.toNat + b.2.toNat := by
        simpa [entriesValue] using htotal
      have hadd : checkedAdd a.2 b.2 = some total := by
        rw [checkedAdd, if_pos (by have := total.toNat_lt; omega)]
        congr 1
        rw [← UInt64.toNat_inj, UInt64.toNat_add, hsum]
        exact Nat.mod_eq_of_lt (by have := total.toNat_lt; omega)
      refine Or.inr ⟨(a, b), mem_pairsInOrder_iff.mpr hsub, ?_⟩
      dsimp only
      rw [hadd, Option.bind_some, if_neg (UInt64.not_lt.mpr hle)]
      rfl

/-- A candidate is a cover with its key. -/
theorem cover_of_candidate
    {candidate : Selection}
    (h : candidate ∈ singles (w.eligible env assetId) amount ++
      doubles (w.eligible env assetId) amount) :
    ∃ sub, Cover env w assetId amount sub ∧ candidate.ids = sortedIds env sub ∧
      candidate.total.toNat = valueOf sub ∧ candidate.key = coverKey env amount sub := by
  rcases mem_candidates_iff.mp h with ⟨entries, hsublist, hlength, total, htotal, hle, rfl⟩
  rcases exists_coins_of_sublist hsublist with ⟨sub, hsub, heligible, hperm⟩
  rcases coins_of_entries hsublist hperm with ⟨hvalue, hlen, hids⟩
  have hamount : amount.toNat ≤ total.toNat := UInt64.le_iff_toNat_le.mp hle
  refine ⟨sub, ⟨hsub, heligible, ?_, ?_, ?_⟩, ?_, ?_, ?_⟩
  · rw [hlen]
    exact hlength
  · rw [hvalue, ← htotal]
    exact total.toNat_lt
  · rw [hvalue, ← htotal]
    exact hamount
  · exact hids.symm
  · rw [hvalue]
    exact htotal
  · simp only [Selection.key, coverKey, UInt64.toNat_sub_of_le _ _ hle, htotal, hvalue, hids, hlen,
      List.length_map]

/-- A cover is a candidate with its key. -/
theorem candidate_of_cover
    {sub : List StoredCoin}
    (h : Cover env w assetId amount sub) :
    ∃ candidate ∈ singles (w.eligible env assetId) amount ++
        doubles (w.eligible env assetId) amount,
      candidate.key = coverKey env amount sub := by
  rcases exists_sublist_of_coins h.subset h.eligible with ⟨entries, hsublist, hperm⟩
  rcases coins_of_entries hsublist hperm with ⟨hvalue, hlen, hids⟩
  have hfits := h.fits
  have hcovers := h.covers
  rw [hvalue] at hfits hcovers
  have htotal : (UInt64.ofNat (entriesValue entries)).toNat = entriesValue entries :=
    UInt64.toNat_ofNat_of_lt' hfits
  have hle : amount ≤ UInt64.ofNat (entriesValue entries) := by
    rw [UInt64.le_iff_toNat_le, htotal]
    exact hcovers
  refine ⟨⟨UInt64.ofNat (entriesValue entries) - amount, entries.map Prod.fst,
    UInt64.ofNat (entriesValue entries)⟩, mem_candidates_iff.mpr ⟨entries, hsublist, ?_, _,
      htotal, hle, rfl⟩, ?_⟩
  · rw [← hlen]
    exact h.size
  · simp only [Selection.key, coverKey, UInt64.toNat_sub_of_le _ _ hle, htotal, hvalue, hids, hlen,
      List.length_map]

end Candidates

section Selecting

variable {env : WalletEnv π}
variable {w : MemWallet}
variable {assetId : Digest}

/-- The least cover of an amount. -/
structure Least
    (env : WalletEnv π)
    (w : MemWallet)
    (assetId : Digest)
    (amount : UInt64)
    (sub : List StoredCoin) : Prop where
  cover : Cover env w assetId amount sub
  least : ∀ sub', Cover env w assetId amount sub' →
    coverKey env amount sub ≤ coverKey env amount sub'

theorem selectTransferInputs_eq
    {assetIdHex : Text}
    (hasset : parseDigest assetIdHex "asset id" = .ok assetId)
    {amount : UInt64}
    (hamount : amount ≠ 0) :
    w.selectTransferInputs env assetIdHex amount =
      (okOr ((singles (w.eligible env assetId) amount ++
          doubles (w.eligible env assetId) amount).argmin Selection.key)
        (Text.lit "no unreserved one- or two-coin spend for asset " ++ assetIdHex ++
          Text.lit " covers " ++ Text.ofNat amount.toNat)).map (fun s => (s.ids, s.total)) := by
  have hensure : ensure (amount != 0) (Text.lit "transfer amount must be positive") = .ok () :=
    ensure_eq_ok_iff.mpr (by simpa using hamount)
  have hrun : w.selectTransferInputs env assetIdHex amount =
      (okOr ((singles (w.eligible env assetId) amount ++
          doubles (w.eligible env assetId) amount).foldl Selection.better none)
        (Text.lit "no unreserved one- or two-coin spend for asset " ++ assetIdHex ++
          Text.lit " covers " ++ Text.ofNat amount.toNat)).bind
            (fun s => .ok (s.ids, s.total)) := by
    rw [selectTransferInputs, hensure, hasset]
    rfl
  rw [hrun, ← foldl_better]
  cases (singles (w.eligible env assetId) amount ++
    doubles (w.eligible env assetId) amount).foldl Selection.better none with
  | none =>
      rfl
  | some best =>
      rfl

/-- The selection is the least cover; it fails for nothing and where nothing covers. -/
theorem selectTransferInputs_least
    {assetIdHex : Text}
    (hasset : parseDigest assetIdHex "asset id" = .ok assetId)
    (amount : UInt64) :
    match w.selectTransferInputs env assetIdHex amount with
    | .error _ => amount = 0 ∨ ∀ sub, ¬ Cover env w assetId amount sub
    | .ok (ids, total) =>
        amount ≠ 0 ∧ ∃ sub, Least env w assetId amount sub ∧ ids = sortedIds env sub ∧
          total.toNat = valueOf sub := by
  by_cases hzero : amount = 0
  · have herror : w.selectTransferInputs env assetIdHex amount =
        .error (Text.lit "transfer amount must be positive") := by
      simp [selectTransferInputs, hzero, ensure]
      rfl
    rw [herror]
    exact Or.inl hzero
  · rw [selectTransferInputs_eq hasset hzero]
    cases hbest : (singles (w.eligible env assetId) amount ++
        doubles (w.eligible env assetId) amount).argmin Selection.key with
    | none =>
        refine Or.inr (fun sub hcover => ?_)
        rcases candidate_of_cover hcover with ⟨candidate, hmem, -⟩
        rw [List.argmin_eq_none] at hbest
        rw [hbest] at hmem
        cases hmem
    | some best =>
        rcases cover_of_candidate (List.argmin_mem hbest) with ⟨sub, hcover, hids, htotal, hkey⟩
        refine ⟨hzero, sub, ⟨hcover, ?_⟩, hids, htotal⟩
        intro sub' hcover'
        rcases candidate_of_cover hcover' with ⟨candidate, hmem, hkey'⟩
        rw [← hkey, ← hkey']
        exact List.le_of_mem_argmin hmem hbest

/-- Coins that are found by their full ids. -/
theorem map_id_of_mapM_findCoin
    {ids : List Text}
    {stored : List StoredCoin}
    (hids : ∀ id ∈ ids, ∃ s ∈ w.coins, s.id env.sponge = id)
    (h : ids.mapM (w.findCoin env) = .ok stored) :
    stored.map (StoredCoin.id env.sponge) = ids := by
  induction ids generalizing stored with
  | nil =>
      obtain rfl := Except.ok.inj h
      rfl
  | cons id ids ih =>
      simp only [List.mapM_cons, except_bind_eq_ok_iff, pure, Except.pure, Except.ok.injEq] at h
      rcases h with ⟨found, hfound, rest, hrest, rfl⟩
      rcases hids id List.mem_cons_self with ⟨s, hs, rfl⟩
      have hrestIds := ih (fun id hid => hids id (List.mem_cons_of_mem _ hid)) hrest
      rw [List.map_cons, hrestIds, findCoin_id hs hfound]

/-- The outputs of a proved payment add up to the least cover. -/
theorem proveTransferAmount_conserves
    {assetIdHex toOwnerHex : Text}
    (hasset : parseDigest assetIdHex "asset id" = .ok assetId)
    {amount : UInt64}
    {draws : Draws}
    {proved : Proved}
    {w' : MemWallet}
    (h : w.proveTransferAmount env assetIdHex toOwnerHex amount draws = .ok (proved, w')) :
    ∃ sub, Least env w assetId amount sub ∧
      ∃ pending, w'.pending.lookup proved.pendingId = some pending ∧
        pending.spentIds = sortedIds env sub ∧
        (pending.openings.map (fun c => c.value.toNat)).sum = valueOf sub := by
  simp only [proveTransferAmount, proveTransfer, except_bind_eq_ok_iff, pure, Except.pure,
    Except.ok.injEq] at h
  rcases h with ⟨⟨ids, total⟩, hselect, ⟨pending, record, ctx⟩, hpending, hpush⟩
  have hleast := @selectTransferInputs_least _ env w assetId assetIdHex hasset amount
  rw [hselect] at hleast
  rcases hleast with ⟨-, sub, hsub, rfl, htotal⟩
  have hknown : ∀ id ∈ sortedIds env sub, ∃ s ∈ w.coins, s.id env.sponge = id := by
    intro id hid
    rw [sortedIds, List.mem_insertionSort] at hid
    rcases List.mem_map.mp hid with ⟨s, hs, rfl⟩
    exact ⟨s, hsub.cover.subset.subset hs, rfl⟩
  simp only [transferPending, except_bind_eq_ok_iff, pure, Except.pure, Except.ok.injEq,
    Prod.mk.injEq] at hpending
  obtain ⟨-, -, -, -, owner, -, stored, hstored, inputs, -, -, -, inputTotal, -,
    outputTotal, -, -, -, changeKey, -, ⟨out₀, out₁⟩, houts, predecessors, -, proof, -, -, -,
    ⟨record', ctx'⟩, -, hmade, -⟩ := hpending
  have hspent : pending.spentIds = stored.map (StoredCoin.id env.sponge) := by
    rw [← hmade]
  have hopenings : pending.openings = [out₀, out₁] := by
    rw [← hmade]
  refine ⟨sub, hsub, pending, ?_, hspent.trans (map_id_of_mapM_findCoin hknown hstored), ?_⟩
  · rw [pushPending, Prod.mk.injEq] at hpush
    rcases hpush with ⟨rfl, rfl⟩
    exact AList.lookup_insert _
  · have hcovers := hsub.cover.covers
    rw [← htotal] at hcovers
    rw [← htotal, hopenings]
    split_ifs at houts with heq
    · simp only [outputsWithChange, outputsOf, Except.ok.injEq, Prod.mk.injEq] at houts
      rcases houts with ⟨rfl, rfl⟩
      simp [heq]
    · have hchange := UInt64.toNat_sub_of_le total amount (UInt64.le_iff_toNat_le.mpr hcovers)
      simp only [outputsWithChange, outputsOf, Except.ok.injEq, Prod.mk.injEq] at houts
      rcases houts with ⟨rfl, rfl⟩
      simp only [List.map_cons, List.map_nil, List.sum_cons, List.sum_nil, hchange]
      omega

end Selecting

end MemWallet

end OpenCsv
