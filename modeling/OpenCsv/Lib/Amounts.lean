import Mathlib.Tactic

/-!
# Amounts

Checked arithmetic on 64-bit amounts, and the even split of an amount: every part is the
quotient, and the first ones, as many as the remainder, are one larger.

**Results.** The parts add up to the amount (`sum_evenSplit`), no two of them differ by
more than one (`evenPart_le_succ`), and every part of an amount that is larger by the
number of parts is larger (`evenPart_lt_evenPart`).
-/

namespace OpenCsv

section Checked

/-- `u64::checked_add`. -/
def checkedAdd (a b : UInt64) : Option UInt64 :=
  if a.toNat + b.toNat < 2 ^ 64 then some (a + b) else none

/-- `u64::checked_sub`. -/
def checkedSub (a b : UInt64) : Option UInt64 :=
  if b.toNat ≤ a.toNat then some (a - b) else none

/-- `u64::checked_mul`. -/
def checkedMul (a b : UInt64) : Option UInt64 :=
  if a.toNat * b.toNat < 2 ^ 64 then some (a * b) else none

variable {a b c : UInt64}

theorem toNat_of_checkedAdd
    (h : checkedAdd a b = some c) :
    c.toNat = a.toNat + b.toNat := by
  unfold checkedAdd at h
  split_ifs at h with hlt
  obtain rfl := Option.some.inj h
  rw [UInt64.toNat_add, Nat.mod_eq_of_lt hlt]

theorem toNat_of_checkedSub
    (h : checkedSub a b = some c) :
    c.toNat + b.toNat = a.toNat := by
  unfold checkedSub at h
  split_ifs at h with hle
  obtain rfl := Option.some.inj h
  rw [UInt64.toNat_sub_of_le a b (UInt64.le_iff_toNat_le.mpr hle)]
  omega

theorem toNat_of_checkedMul
    (h : checkedMul a b = some c) :
    c.toNat = a.toNat * b.toNat := by
  unfold checkedMul at h
  split_ifs at h with hlt
  obtain rfl := Option.some.inj h
  rw [UInt64.toNat_mul, Nat.mod_eq_of_lt hlt]

end Checked

section EvenSplit

/-- Part `i` of `total` among `n`. -/
def evenPart (total n i : ℕ) : ℕ :=
  total / n + if i < total % n then 1 else 0

/-- All `n` parts of `total`. -/
def evenSplit (total n : ℕ) : List ℕ :=
  (List.range n).map (evenPart total n)

/-- The first `k` parts, as a sum. -/
theorem sum_map_evenPart
    (total n k : ℕ) :
    ((List.range k).map (evenPart total n)).sum = k * (total / n) + min k (total % n) := by
  induction k with
  | zero =>
      simp
  | succ k ih =>
      rw [List.range_succ, List.map_append, List.sum_append, ih, List.map_singleton,
        List.sum_singleton, evenPart]
      split_ifs with hk
      · rw [Nat.min_eq_left hk.le, Nat.min_eq_left (Nat.succ_le_of_lt hk), Nat.succ_eq_add_one]
        ring
      · rw [Nat.min_eq_right (by omega), Nat.min_eq_right (by omega)]
        ring

/-- The parts add up to the amount. -/
theorem sum_evenSplit
    {total n : ℕ}
    (hn : 0 < n) :
    (evenSplit total n).sum = total := by
  have hmod : total % n < n := Nat.mod_lt total hn
  rw [evenSplit, sum_map_evenPart, Nat.min_eq_right hmod.le]
  exact Nat.div_add_mod total n

/-- No two parts differ by more than one. -/
theorem evenPart_le_succ
    (total n i j : ℕ) :
    evenPart total n i ≤ evenPart total n j + 1 := by
  unfold evenPart
  split_ifs <;> omega

/-- A part never exceeds the amount. -/
theorem evenPart_le_total
    {total n i : ℕ}
    (hn : 0 < n) :
    evenPart total n i ≤ total := by
  unfold evenPart
  have hdiv : total / n ≤ n * (total / n) := Nat.le_mul_of_pos_left _ hn
  have hsplit := Nat.div_add_mod total n
  split_ifs <;> omega

/-- When the amount grows by the number of parts, every part grows. -/
theorem evenPart_lt_evenPart
    {total total' n i : ℕ}
    (hn : 0 < n)
    (h : total + n ≤ total') :
    evenPart total n i < evenPart total' n i := by
  have hquotient : total / n + 1 ≤ total' / n := by
    rw [← Nat.add_div_right total hn]
    exact Nat.div_le_div_right h
  by_cases hi : i < total % n
  · -- the part had a unit of the remainder; it needs one again, or a larger quotient
    by_cases hnext : total / n + 2 ≤ total' / n
    · unfold evenPart
      rw [if_pos hi]
      split_ifs <;> omega
    · have hsame : total' / n = total / n + 1 := by omega
      have hlow := Nat.div_add_mod total n
      have hhigh := Nat.div_add_mod total' n
      rw [hsame, Nat.mul_add, Nat.mul_one] at hhigh
      have hi' : i < total' % n := by omega
      unfold evenPart
      rw [if_pos hi, if_pos hi', hsame]
      omega
  · unfold evenPart
    rw [if_neg hi]
    split_ifs <;> omega

end EvenSplit

section Sums

variable {α : Type*}

/-- Two lists whose entries add up to the values of a third, place by place. -/
theorem sum_add_sum_of_places
    {f : α → ℕ}
    {xs : List α}
    {ys zs : List ℕ}
    (hys : ys.length = xs.length)
    (hzs : zs.length = xs.length)
    (h : ∀ (i : ℕ) x, xs[i]? = some x → ∃ y z, ys[i]? = some y ∧ zs[i]? = some z ∧ y + z = f x) :
    ys.sum + zs.sum = (xs.map f).sum := by
  induction xs generalizing ys zs with
  | nil =>
      obtain rfl := List.length_eq_zero_iff.mp hys
      obtain rfl := List.length_eq_zero_iff.mp hzs
      rfl
  | cons x xs ih =>
      obtain ⟨y, ys, rfl⟩ := List.exists_cons_of_length_eq_add_one hys
      obtain ⟨z, zs, rfl⟩ := List.exists_cons_of_length_eq_add_one hzs
      have hfirst : y + z = f x := by
        simpa using h 0 x rfl
      have hrest := @ih ys zs (by simpa using hys) (by simpa using hzs)
        (fun i x' hx' => h (i + 1) x' hx')
      rw [List.sum_cons, List.sum_cons, List.map_cons, List.sum_cons, ← hrest]
      omega

end Sums

end OpenCsv
