import Mathlib.Data.List.Range
import Mathlib.Tactic

/-!
# Numbered ledgers

An append-only list of entries.  Each entry has a number and says what the total was
before it and is after it.  In a chained ledger the numbers are `1, 2, …` and every
entry starts from the total that the one before it reached.

**Results.** The entry of the greatest number is the last one (`Chained.getLast_of_max`),
and when every entry adds an amount, the total is the sum of all amounts
(`Chained.total_eq_sum`).
-/

namespace OpenCsv
namespace Ledger

universe u

variable {α : Type u}

/-- What a ledger reads of an entry. -/
structure Columns (α : Type u) where
  number : α → ℕ
  before : α → ℕ
  after : α → ℕ

/-- The total that the entries reached. -/
def Columns.total (c : Columns α) (xs : List α) : ℕ :=
  (xs.getLast?.map c.after).getD 0

/-- Entries numbered from one, each starting from the total before it. -/
inductive Chained (c : Columns α) : List α → Prop
  | nil : Chained c []
  | concat {xs : List α} {x : α}
      (hxs : Chained c xs)
      (hnumber : c.number x = xs.length + 1)
      (hbefore : c.before x = c.total xs) :
      Chained c (xs ++ [x])

namespace Chained

variable {c : Columns α}
variable {xs : List α}

@[simp] theorem total_concat
    (xs : List α)
    (x : α) :
    c.total (xs ++ [x]) = c.after x := by
  simp [Columns.total]

/-- The numbers are `1, 2, …` in order. -/
theorem numbers
    (h : Chained c xs) :
    xs.map c.number = List.range' 1 xs.length := by
  induction h with
  | nil =>
      rfl
  | @concat xs x _ hnumber _ ih =>
      rw [List.map_append, ih, List.length_append, List.length_singleton, List.range'_concat,
        List.map_singleton, hnumber]
      simp [Nat.add_comm]

theorem number_le
    (h : Chained c xs)
    {x : α}
    (hx : x ∈ xs) :
    c.number x ≤ xs.length := by
  have hmem : c.number x ∈ xs.map c.number := List.mem_map_of_mem hx
  rw [h.numbers, List.mem_range'_1] at hmem
  omega

/-- Every entry starts from the total of the entries before it. -/
theorem before_eq_total
    (h : Chained c xs)
    {ys zs : List α}
    {x : α}
    (hxs : xs = ys ++ x :: zs) :
    c.before x = c.total ys := by
  induction h generalizing zs with
  | nil =>
      simp at hxs
  | @concat xs y _ _ hbefore ih =>
      rcases List.eq_nil_or_concat zs with rfl | ⟨zs, z, rfl⟩
      · obtain ⟨rfl, hxy⟩ := List.append_inj' hxs rfl
        obtain rfl : y = x := by simpa using hxy
        exact hbefore
      · have hsplit : xs ++ [y] = (ys ++ x :: zs) ++ [z] := by simpa using hxs
        exact ih (List.append_inj' hsplit rfl).1

/-- An entry whose number no other exceeds is the last one. -/
theorem getLast_of_max
    (h : Chained c xs)
    {x : α}
    (hx : x ∈ xs)
    (hmax : ∀ y ∈ xs, c.number y ≤ c.number x) :
    xs.getLast? = some x := by
  cases h with
  | nil =>
      cases hx
  | @concat ys y hys hnumber _ =>
      rw [List.getLast?_concat]
      rcases List.mem_append.mp hx with hmem | hmem
      · -- An earlier entry has a smaller number than the last one.
        have hle := hys.number_le hmem
        have hlast := hmax y (List.mem_append_right ys List.mem_cons_self)
        omega
      · rw [List.mem_singleton.mp hmem]

/-- The ledger goes on with the number after the last one's. -/
theorem number_getLast
    (h : Chained c xs)
    {x : α}
    (hx : xs.getLast? = some x) :
    c.number x = xs.length := by
  cases h with
  | nil =>
      cases hx
  | concat _ hnumber _ =>
      rw [List.getLast?_concat, Option.some.injEq] at hx
      subst hx
      rw [hnumber, List.length_append, List.length_singleton]

/-- When every entry adds its amount, the total is the sum of the amounts. -/
theorem total_eq_sum
    (h : Chained c xs)
    {amount : α → ℕ}
    (hamount : ∀ x ∈ xs, c.after x = c.before x + amount x) :
    c.total xs = (xs.map amount).sum := by
  induction h with
  | nil =>
      rfl
  | @concat xs x _ _ hbefore ih =>
      have hx := hamount x (List.mem_append_right xs List.mem_cons_self)
      have hxs := ih (fun y hy => hamount y (List.mem_append_left [x] hy))
      rw [total_concat, hx, hbefore, hxs, List.map_append, List.sum_append, List.map_singleton,
        List.sum_singleton]

end Chained

end Ledger
end OpenCsv
