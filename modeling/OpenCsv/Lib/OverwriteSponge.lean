import Mathlib.Data.List.Basic
import Mathlib.Tactic.Common

/-!
# Sponges in overwrite mode

A sponge without padding.  Input elements replace the first `rate` elements of the state one
after another; a full block and a partial last block are permuted, and what the last block
does not replace stays as it was.

**Result.** Reading element by element is reading block by block (`absorb_eq_rows`).
-/

namespace OpenCsv

namespace OverwriteSponge

variable {α : Type*}
variable {width : ℕ}

/-- Replace one element of a state. -/
def set (state : Fin width → α) (i : ℕ) (x : α) : Fin width → α :=
  fun j => if j.val = i then x else state j

/-- Replace the elements of a state from position `i` on. -/
def overwrite : (Fin width → α) → ℕ → List α → Fin width → α
  | state, _, [] => state
  | state, i, x :: xs => overwrite (set state i x) (i + 1) xs

variable (perm : (Fin width → α) → Fin width → α)
variable (rate : ℕ)

/-- Absorb an input from position `i` of a block on. -/
def absorb : ℕ → (Fin width → α) → List α → Fin width → α
  | i, state, [] => if i ≠ 0 then perm state else state
  | i, state, x :: xs =>
      if i + 1 = rate then absorb 0 (perm (set state i x)) xs else absorb (i + 1) (set state i x) xs

/-- Absorb a number of blocks. -/
def rows : ℕ → (Fin width → α) → List α → Fin width → α
  | 0, state, _ => state
  | n + 1, state, xs => rows n (perm (overwrite state 0 (xs.take rate))) (xs.drop rate)

/-- The elements that an overwrite leaves and those that it replaces. -/
theorem overwrite_apply
    (state : Fin width → α)
    (i : ℕ)
    (xs : List α)
    (j : Fin width) :
    overwrite state i xs j = if i ≤ j.val then (xs[j.val - i]?).getD (state j) else state j := by
  induction xs generalizing state i with
  | nil =>
      simp [overwrite]
  | cons x xs ih =>
      rw [overwrite, ih, set]
      rcases Nat.lt_trichotomy j.val i with hlt | heq | hgt
      · rw [if_neg (by omega), if_neg (by omega), if_neg (by omega)]
      · rw [if_neg (by omega), if_pos heq, if_pos (by omega), heq]
        simp
      · have hsub : j.val - i = j.val - (i + 1) + 1 := by omega
        rw [if_pos (by omega), if_neg (by omega), if_pos (by omega), hsub]
        simp

variable {perm}
variable {rate}

/-- A block that is not full is the last one. -/
theorem absorb_lastBlock
    {i : ℕ}
    {state : Fin width → α}
    {xs : List α}
    (h : i + xs.length < rate) :
    absorb perm rate i state xs =
      if i + xs.length ≠ 0 then perm (overwrite state i xs) else state := by
  induction xs generalizing i state with
  | nil =>
      rfl
  | cons x xs ih =>
      simp only [List.length_cons] at h ⊢
      rw [absorb, if_neg (by omega), ih (by omega), overwrite, if_pos (by omega),
        if_pos (by omega)]

/-- A full block is permuted before the next one. -/
theorem absorb_full
    {i : ℕ}
    {state : Fin width → α}
    {ys xs : List α}
    (hpos : i < rate)
    (h : i + ys.length = rate) :
    absorb perm rate i state (ys ++ xs) = absorb perm rate 0 (perm (overwrite state i ys)) xs := by
  induction ys generalizing i state with
  | nil =>
      simp only [List.length_nil] at h
      omega
  | cons y ys ih =>
      simp only [List.length_cons] at h
      rw [List.cons_append, absorb, overwrite]
      by_cases hlast : i + 1 = rate
      · obtain rfl : ys = [] := List.length_eq_zero_iff.mp (by omega)
        rw [if_pos hlast]
        rfl
      · rw [if_neg hlast]
        exact ih (by omega) (by omega)

/-- Elements are absorbed block by block. -/
theorem absorb_eq_rows
    (hrate : 0 < rate)
    {n : ℕ}
    {state : Fin width → α}
    {xs : List α}
    (hn : n = (xs.length + (rate - 1)) / rate) :
    absorb perm rate 0 state xs = rows perm rate n state xs := by
  induction n generalizing state xs with
  | zero =>
      have hlt : xs.length + (rate - 1) < rate := by
        rcases Nat.div_eq_zero_iff.mp hn.symm with h | h <;> omega
      obtain rfl : xs = [] := List.length_eq_zero_iff.mp (by omega)
      rfl
  | succ n ih =>
      have hge : rate ≤ xs.length + (rate - 1) := by
        by_contra hlt
        rw [Nat.div_eq_of_lt (by omega)] at hn
        omega
      rw [rows]
      by_cases hshort : xs.length < rate
      · have hzero : n = 0 := by
          have hdiv : (xs.length + (rate - 1)) / rate < 2 := by
            rw [Nat.div_lt_iff_lt_mul hrate]
            omega
          omega
        rw [absorb_lastBlock (by omega), if_pos (by omega), hzero, rows,
          List.take_of_length_le (by omega)]
      · have hlen : (xs.take rate).length = rate := by
          rw [List.length_take]
          omega
        have hnext : n = ((xs.drop rate).length + (rate - 1)) / rate := by
          have hsplit : xs.length + (rate - 1) = xs.length - rate + (rate - 1) + rate := by omega
          rw [hsplit, Nat.add_div_right _ hrate] at hn
          rw [List.length_drop]
          omega
        rw [← ih hnext]
        conv_lhs => rw [← List.take_append_drop rate xs]
        exact absorb_full hrate (by omega)

end OverwriteSponge

end OpenCsv
