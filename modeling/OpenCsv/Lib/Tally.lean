import Mathlib.Data.List.Nodup
import Mathlib.Algebra.BigOperators.Group.List.Basic
import Mathlib.Algebra.Ring.Nat
import Mathlib.Tactic.Common

/-!
# Tallies

Amounts of 64 bits are added up by key, in the order in which the keys come first; the
additions wrap.

**Results.** A tally is exact just when no addition wraps (`exact_run_iff`, `safe_iff`), which is
when every key's sum fits.
-/

namespace OpenCsv

namespace Tally

variable {κ : Type*}
variable [DecidableEq κ]

section Definitions

/-- Add an amount to the entry of its key, or start one. -/
def add (key : κ) (amount : UInt64) : List (κ × UInt64) → List (κ × UInt64)
  | [] => [(key, amount)]
  | entry :: tally =>
      if entry.1 = key then
        (entry.1, entry.2 + amount) :: tally
      else
        entry :: add key amount tally

/-- The tally of a list of amounts. -/
def run (items : List (κ × UInt64)) : List (κ × UInt64) :=
  items.foldl (fun tally item => add item.1 item.2 tally) []

/-- The sum of the amounts of one key. -/
def total (key : κ) (items : List (κ × UInt64)) : ℕ :=
  ((items.filter (fun item => item.1 = key)).map (fun item => item.2.toNat)).sum

/-- One entry for every key, with the sum of its amounts. -/
structure Exact (tally items : List (κ × UInt64)) : Prop where
  nodup : (tally.map Prod.fst).Nodup
  keys : ∀ key, key ∈ tally.map Prod.fst ↔ key ∈ items.map Prod.fst
  amounts : ∀ entry ∈ tally, entry.2.toNat = total entry.1 items

/-- No addition wraps while the items are added. -/
def Safe : List (κ × UInt64) → List (κ × UInt64) → Prop
  | _, [] => True
  | tally, item :: items =>
      (∀ entry ∈ tally, entry.1 = item.1 → entry.2.toNat + item.2.toNat < 2 ^ 64) ∧
        Safe (add item.1 item.2 tally) items

end Definitions

section Totals

theorem total_cons
    (key : κ)
    (item : κ × UInt64)
    (items : List (κ × UInt64)) :
    total key (item :: items) =
      (if item.1 = key then item.2.toNat else 0) + total key items := by
  by_cases h : item.1 = key
  · simp [total, h]
  · simp [total, h]

theorem total_of_notMem
    {key : κ}
    {items : List (κ × UInt64)}
    (h : key ∉ items.map Prod.fst) :
    total key items = 0 := by
  induction items with
  | nil =>
      rfl
  | cons item items ih =>
      rw [List.map_cons, List.mem_cons, not_or] at h
      rw [total_cons, if_neg (fun heq => h.1 heq.symm), ih h.2]

/-- An entry of a tally is the sum of its key there. -/
theorem total_of_mem
    {tally : List (κ × UInt64)}
    (hnodup : (tally.map Prod.fst).Nodup)
    {entry : κ × UInt64}
    (h : entry ∈ tally) :
    total entry.1 tally = entry.2.toNat := by
  induction tally with
  | nil =>
      cases h
  | cons first tally ih =>
      rw [List.map_cons, List.nodup_cons] at hnodup
      rw [total_cons]
      rcases List.mem_cons.mp h with rfl | hmem
      · rw [if_pos rfl, total_of_notMem hnodup.1, Nat.add_zero]
      · have hne : first.1 ≠ entry.1 := by
          intro heq
          exact hnodup.1 (heq ▸ List.mem_map_of_mem hmem)
        rw [if_neg hne, ih hnodup.2 hmem, Nat.zero_add]

theorem total_lt
    {tally : List (κ × UInt64)}
    (hnodup : (tally.map Prod.fst).Nodup)
    (key : κ) :
    total key tally < 2 ^ 64 := by
  by_cases h : key ∈ tally.map Prod.fst
  · obtain ⟨entry, hentry, rfl⟩ := List.mem_map.mp h
    rw [total_of_mem hnodup hentry]
    exact entry.2.toNat_lt
  · rw [total_of_notMem h]
    exact Nat.two_pow_pos 64

end Totals

section Adding

/-- An addition adds its key, unless it is there. -/
theorem keys_add
    (key : κ)
    (amount : UInt64)
    (tally : List (κ × UInt64)) :
    (add key amount tally).map Prod.fst =
      if key ∈ tally.map Prod.fst then tally.map Prod.fst else tally.map Prod.fst ++ [key] := by
  induction tally with
  | nil =>
      simp [add]
  | cons entry tally ih =>
      by_cases h : entry.1 = key
      · simp [add, h]
      · have hne : key ≠ entry.1 := fun heq => h heq.symm
        rw [add, if_neg h, List.map_cons, ih, List.map_cons]
        by_cases hmem : key ∈ tally.map Prod.fst
        · rw [if_pos hmem, if_pos (List.mem_cons_of_mem _ hmem)]
        · rw [if_neg hmem, if_neg (by simp [hne, hmem]), List.cons_append]

theorem nodup_add
    {tally : List (κ × UInt64)}
    (hnodup : (tally.map Prod.fst).Nodup)
    (key : κ)
    (amount : UInt64) :
    ((add key amount tally).map Prod.fst).Nodup := by
  rw [keys_add]
  split
  · exact hnodup
  · rename_i hmem
    exact List.nodup_append.mpr ⟨hnodup, List.nodup_singleton key, by
      rintro k hk k' hk' rfl
      rw [List.mem_singleton] at hk'
      exact hmem (hk' ▸ hk)⟩

theorem mem_keys_add
    (key k : κ)
    (amount : UInt64)
    (tally : List (κ × UInt64)) :
    k ∈ (add key amount tally).map Prod.fst ↔ k = key ∨ k ∈ tally.map Prod.fst := by
  rw [keys_add]
  split
  · rename_i hmem
    constructor
    · exact Or.inr
    · rintro (rfl | hk)
      · exact hmem
      · exact hk
  · rw [List.mem_append, List.mem_singleton, or_comm]

/-- An addition adds to the sum of its key, up to wrapping. -/
theorem total_add_mod
    (key k : κ)
    (amount : UInt64)
    (tally : List (κ × UInt64)) :
    total k (add key amount tally) % 2 ^ 64 =
      (total k tally + if key = k then amount.toNat else 0) % 2 ^ 64 := by
  induction tally with
  | nil =>
      rw [add, total_cons, Nat.add_comm]
  | cons entry tally ih =>
      by_cases h : entry.1 = key
      · rw [add, if_pos h, total_cons, total_cons, h]
        by_cases hk : key = k
        · rw [if_pos hk, if_pos hk, if_pos hk, UInt64.toNat_add]
          omega
        · rw [if_neg hk, if_neg hk, if_neg hk]
          rfl
      · rw [add, if_neg h, total_cons, total_cons]
        omega

/-- An addition that does not wrap adds to the sum of its key. -/
theorem total_add
    {tally : List (κ × UInt64)}
    (hnodup : (tally.map Prod.fst).Nodup)
    {key : κ}
    {amount : UInt64}
    (h : total key tally + amount.toNat < 2 ^ 64)
    (k : κ) :
    total k (add key amount tally) = total k tally + if key = k then amount.toNat else 0 := by
  have hmod := total_add_mod key k amount tally
  have hlt := total_lt (nodup_add hnodup key amount) k
  have hle := total_lt hnodup k
  rw [Nat.mod_eq_of_lt hlt] at hmod
  rw [hmod]
  apply Nat.mod_eq_of_lt
  by_cases hk : key = k
  · subst hk
    rwa [if_pos rfl]
  · rwa [if_neg hk]

end Adding

section Runs

/-- The keys of a run and its sums, up to wrapping, from any tally on. -/
theorem foldl_add_spec
    {tally : List (κ × UInt64)}
    (hnodup : (tally.map Prod.fst).Nodup)
    (items : List (κ × UInt64)) :
    ((items.foldl (fun tally item => add item.1 item.2 tally) tally).map Prod.fst).Nodup ∧
      ∀ key,
        (key ∈ (items.foldl (fun tally item => add item.1 item.2 tally) tally).map Prod.fst ↔
          key ∈ tally.map Prod.fst ∨ key ∈ items.map Prod.fst) ∧
        total key (items.foldl (fun tally item => add item.1 item.2 tally) tally) % 2 ^ 64 =
          (total key tally + total key items) % 2 ^ 64 := by
  induction items generalizing tally with
  | nil =>
      refine ⟨hnodup, fun key => ⟨?_, ?_⟩⟩
      · simp
      · rfl
  | cons item items ih =>
      obtain ⟨hkeys, hrest⟩ := ih (nodup_add hnodup item.1 item.2)
      refine ⟨hkeys, fun key => ⟨?_, ?_⟩⟩
      · rw [List.foldl_cons, (hrest key).1, mem_keys_add, List.map_cons, List.mem_cons]
        tauto
      · have hadd := total_add_mod item.1 key item.2 tally
        rw [List.foldl_cons, (hrest key).2, total_cons]
        omega

/-- A tally is exact when the sum of every key fits, and only then. -/
theorem exact_run_iff
    (items : List (κ × UInt64)) :
    Exact (run items) items ↔ ∀ key, total key items < 2 ^ 64 := by
  obtain ⟨hnodup, hspec⟩ := @foldl_add_spec κ _ [] List.nodup_nil items
  have hzero : ∀ key, total key ([] : List (κ × UInt64)) = 0 := fun _ => rfl
  constructor
  · intro h key
    by_cases hkey : key ∈ items.map Prod.fst
    · obtain ⟨entry, hentry, rfl⟩ := List.mem_map.mp ((h.keys key).mpr hkey)
      rw [← h.amounts entry hentry]
      exact entry.2.toNat_lt
    · rw [total_of_notMem hkey]
      exact Nat.two_pow_pos 64
  · intro h
    refine ⟨hnodup, ?_, ?_⟩
    · intro key
      have hkeys := (hspec key).1
      rw [List.map_nil] at hkeys
      rw [run, hkeys]
      simp
    · intro entry hentry
      have hmod := (hspec entry.1).2
      rw [hzero, Nat.zero_add, Nat.mod_eq_of_lt (h entry.1)] at hmod
      rw [← hmod, Nat.mod_eq_of_lt (total_lt hnodup entry.1)]
      exact (total_of_mem hnodup hentry).symm

/-- No addition wraps just when every key's sum fits, whatever was tallied before. -/
theorem safe_iff
    {tally : List (κ × UInt64)}
    (hnodup : (tally.map Prod.fst).Nodup)
    (items : List (κ × UInt64)) :
    Safe tally items ↔ ∀ key, total key tally + total key items < 2 ^ 64 := by
  induction items generalizing tally with
  | nil =>
      have hall : ∀ key, total key tally + total key ([] : List (κ × UInt64)) < 2 ^ 64 :=
        fun key => total_lt hnodup key
      simp only [Safe, true_iff]
      exact hall
  | cons item items ih =>
      have hfirst : (∀ entry ∈ tally, entry.1 = item.1 →
          entry.2.toNat + item.2.toNat < 2 ^ 64) ↔
            total item.1 tally + item.2.toNat < 2 ^ 64 := by
        constructor
        · intro h
          by_cases hmem : item.1 ∈ tally.map Prod.fst
          · obtain ⟨entry, hentry, heq⟩ := List.mem_map.mp hmem
            rw [← heq, total_of_mem hnodup hentry]
            exact h entry hentry heq
          · rw [total_of_notMem hmem, Nat.zero_add]
            exact item.2.toNat_lt
        · intro h entry hentry heq
          rwa [← total_of_mem hnodup hentry, heq]
      rw [Safe, hfirst, ih (nodup_add hnodup item.1 item.2)]
      constructor
      · rintro ⟨hadd, hrest⟩ key
        have h := hrest key
        rw [total_add hnodup hadd] at h
        rw [total_cons]
        omega
      · intro h
        have hadd : total item.1 tally + item.2.toNat < 2 ^ 64 := by
          have hitem := h item.1
          rw [total_cons, if_pos rfl] at hitem
          omega
        refine ⟨hadd, fun key => ?_⟩
        have hkey := h key
        rw [total_cons] at hkey
        rw [total_add hnodup hadd]
        omega

end Runs

end Tally

end OpenCsv
