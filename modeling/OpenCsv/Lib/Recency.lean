import Mathlib.Data.List.Nodup
import Mathlib.Tactic

/-!
# The keys that were used last

A history lists keys with their values, the newest use first.  `latest` keeps the newest use of
every key.  What a store with a bounded number of places holds when it always gives up the key
that was not used for the longest time is a front piece of `latest`.

**Results.** A use of a key that is held, and a use of one that is not, change the front piece
in the expected way (`take_latest_of_mem`, `take_latest_of_notMem`).
-/

namespace OpenCsv
namespace Recency

variable {κ α : Type}
variable [DecidableEq κ]

/-- The newest use of every key of a history. -/
def latest : List (κ × α) → List (κ × α)
  | [] => []
  | use :: uses => use :: (latest uses).filter (fun other => other.1 != use.1)

variable {k : κ}
variable {a : α}
variable {held uses : List (κ × α)}

/-- Every key comes once. -/
theorem nodup_latest
    (uses : List (κ × α)) :
    ((latest uses).map Prod.fst).Nodup := by
  induction uses with
  | nil => simp [latest]
  | cons use uses ih =>
      rw [latest, List.map_cons, List.nodup_cons]
      refine ⟨?_, ih.sublist (List.filter_sublist.map Prod.fst)⟩
      simp

/-- Taking out a key that is not there changes nothing. -/
theorem filter_ne_of_notMem
    (h : k ∉ held.map Prod.fst) :
    held.filter (fun other => other.1 != k) = held := by
  rw [List.filter_eq_self]
  intro use huse
  have hne : use.1 ≠ k := fun heq => h (List.mem_map.mpr ⟨use, huse, heq⟩)
  simpa using hne

/-- A key among the first places makes room for one use when it is taken out. -/
theorem take_filter_of_mem
    {n : ℕ}
    (hnodup : (held.map Prod.fst).Nodup)
    (h : k ∈ (held.take (n + 1)).map Prod.fst) :
    (held.filter (fun other => other.1 != k)).take n =
      (held.take (n + 1)).filter (fun other => other.1 != k) := by
  induction held generalizing n with
  | nil => simp
  | cons use held ih =>
      rw [List.map_cons, List.nodup_cons] at hnodup
      by_cases hk : use.1 = k
      · have hout : k ∉ held.map Prod.fst := hk ▸ hnodup.1
        have hout' : k ∉ (held.take n).map Prod.fst := fun hmem =>
          hout (((List.take_sublist n held).map Prod.fst).subset hmem)
        simp [hk, filter_ne_of_notMem hout, filter_ne_of_notMem hout']
      · have hk' : (use.1 != k) = true := by simpa using hk
        cases n with
        | zero =>
            have heq : use.1 = k := by
              obtain ⟨other, hother, rfl⟩ := List.mem_map.mp h
              simp at hother
              rw [hother]
            exact absurd heq hk
        | succ n =>
            have hmem : k ∈ (held.take (n + 1)).map Prod.fst := by
              rw [List.take_succ_cons, List.map_cons, List.mem_cons] at h
              exact h.resolve_left (Ne.symm hk)
            simp only [List.filter_cons, List.take_succ_cons, hk', if_true, ih hnodup.2 hmem]

/-- A key that is not among the first places can be taken out behind them. -/
theorem take_filter_of_notMem
    {n : ℕ}
    (h : k ∉ (held.take n).map Prod.fst) :
    (held.filter (fun other => other.1 != k)).take n = held.take n := by
  induction held generalizing n with
  | nil => simp
  | cons use held ih =>
      cases n with
      | zero => simp
      | succ n =>
          rw [List.take_succ_cons, List.map_cons, List.mem_cons, not_or] at h
          have hk' : (use.1 != k) = true := by simpa using Ne.symm h.1
          simp only [List.filter_cons, List.take_succ_cons, hk', if_true, ih h.2]

/-- A use of a key that is held moves it to the front. -/
theorem take_latest_of_mem
    {n : ℕ}
    (h : k ∈ ((latest uses).take (n + 1)).map Prod.fst) :
    (latest ((k, a) :: uses)).take (n + 1) =
      (k, a) :: ((latest uses).take (n + 1)).filter (fun other => other.1 != k) := by
  rw [latest, List.take_succ_cons, take_filter_of_mem (nodup_latest uses) h]

/-- A use of a key that is not held puts it in front, and gives up what no longer has a place. -/
theorem take_latest_of_notMem
    {n : ℕ}
    (h : k ∉ ((latest uses).take (n + 1)).map Prod.fst) :
    (latest ((k, a) :: uses)).take (n + 1) =
      (k, a) :: ((latest uses).take (n + 1)).take n := by
  have hsub : ((latest uses).take n).Sublist ((latest uses).take (n + 1)) := by
    rw [List.take_add_one]
    exact List.sublist_append_left _ _
  have hout : k ∉ ((latest uses).take n).map Prod.fst := fun hmem =>
    h ((hsub.map Prod.fst).subset hmem)
  rw [latest, List.take_succ_cons, take_filter_of_notMem hout, List.take_take,
    Nat.min_eq_left (Nat.le_succ n)]

end Recency
end OpenCsv
