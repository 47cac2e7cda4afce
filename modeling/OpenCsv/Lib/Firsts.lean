import Mathlib.Algebra.BigOperators.Group.Finset.Basic
import Mathlib.Data.List.Sort
import Mathlib.Tactic

/-!
# First entries of a keyed list

A scan that counts the first entry of each key, and remembers the keys it has seen, adds up
the weights that `List.lookup` finds.  A stable sort keeps the order within what a filter
leaves.
-/

namespace OpenCsv

section Firsts

variable {κ ν : Type}
variable [DecidableEq κ]

/-- The sum over the first entries of the keys that were not seen before. -/
def sumFirsts (weight : ν → ℕ) : (seen : List κ) → List (κ × ν) → ℕ
  | _, [] => 0
  | seen, (k, v) :: xs =>
      if k ∈ seen then sumFirsts weight seen xs
      else weight v + sumFirsts weight (seen ++ [k]) xs

/-- The distinct keys of a list. -/
def keys (xs : List (κ × ν)) : Finset κ :=
  (xs.map Prod.fst).toFinset

/-- The weight of the first entry of a key. -/
def firstWeight (weight : ν → ℕ) (xs : List (κ × ν)) (k : κ) : ℕ :=
  ((xs.lookup k).map weight).getD 0

variable {weight : ν → ℕ}

theorem keys_cons
    (k : κ)
    (v : ν)
    (xs : List (κ × ν)) :
    keys ((k, v) :: xs) = insert k (keys xs) := by
  simp [keys]

theorem mem_keys_iff
    {k : κ}
    {xs : List (κ × ν)} :
    k ∈ keys xs ↔ ∃ v, (k, v) ∈ xs := by
  simp [keys]

theorem firstWeight_cons_self
    (k : κ)
    (v : ν)
    (xs : List (κ × ν)) :
    firstWeight weight ((k, v) :: xs) k = weight v := by
  simp [firstWeight]

theorem firstWeight_cons_of_ne
    {k k' : κ}
    (h : k' ≠ k)
    (v : ν)
    (xs : List (κ × ν)) :
    firstWeight weight ((k, v) :: xs) k' = firstWeight weight xs k' := by
  have hne : (k' == k) = false := beq_eq_false_iff_ne.mpr h
  simp [firstWeight, List.lookup_cons, hne]

/-- The scan adds up the first weights of the keys that are left. -/
theorem sumFirsts_eq
    (seen : List κ)
    (xs : List (κ × ν)) :
    sumFirsts weight seen xs = ∑ k ∈ keys xs \ seen.toFinset, firstWeight weight xs k := by
  induction xs generalizing seen with
  | nil =>
      simp [sumFirsts, keys]
  | cons x xs ih =>
      obtain ⟨k, v⟩ := x
      rw [sumFirsts, keys_cons]
      by_cases hk : k ∈ seen
      · have hkeys : insert k (keys xs) \ seen.toFinset = keys xs \ seen.toFinset :=
          Finset.insert_sdiff_of_mem _ (List.mem_toFinset.mpr hk)
        rw [if_pos hk, ih seen, hkeys]
        refine Finset.sum_congr rfl (fun k' hk' => ?_)
        have hne : k' ≠ k := by
          rintro rfl
          exact (Finset.mem_sdiff.mp hk').2 (List.mem_toFinset.mpr hk)
        rw [firstWeight_cons_of_ne hne]
      · have hkeys : insert k (keys xs) \ seen.toFinset =
            insert k (keys xs \ (seen ++ [k]).toFinset) := by
          ext k'
          by_cases heq : k' = k
          · simp [heq, hk]
          · simp [heq]
        have hfresh : k ∉ keys xs \ (seen ++ [k]).toFinset := by
          simp
        rw [if_neg hk, ih (seen ++ [k]), hkeys, Finset.sum_insert hfresh, firstWeight_cons_self]
        congr 1
        refine Finset.sum_congr rfl (fun k' hk' => ?_)
        have hne : k' ≠ k := by
          rintro rfl
          exact hfresh hk'
        rw [firstWeight_cons_of_ne hne]

theorem sumFirsts_nil_eq
    (xs : List (κ × ν)) :
    sumFirsts weight [] xs = ∑ k ∈ keys xs, firstWeight weight xs k := by
  rw [sumFirsts_eq, List.toFinset_nil, Finset.sdiff_empty]

/-- A key's first weight is the weight of one of its entries. -/
theorem exists_of_mem_keys
    {k : κ}
    {xs : List (κ × ν)}
    (h : k ∈ keys xs) :
    ∃ v, (k, v) ∈ xs ∧ firstWeight weight xs k = weight v := by
  induction xs with
  | nil => simp [keys] at h
  | cons x xs ih =>
      obtain ⟨k', v'⟩ := x
      by_cases heq : k = k'
      · subst heq
        exact ⟨v', List.mem_cons_self, firstWeight_cons_self k v' xs⟩
      · rw [keys_cons, Finset.mem_insert, or_iff_right heq] at h
        obtain ⟨v, hmem, hweight⟩ := ih h
        exact ⟨v, List.mem_cons_of_mem _ hmem, (firstWeight_cons_of_ne heq v' xs).trans hweight⟩

/-- Entries in front decide for their keys. -/
theorem firstWeight_append
    (xs ys : List (κ × ν))
    (k : κ) :
    firstWeight weight (xs ++ ys) k =
      if k ∈ keys xs then firstWeight weight xs k else firstWeight weight ys k := by
  induction xs with
  | nil => simp [keys]
  | cons x xs ih =>
      obtain ⟨k', v'⟩ := x
      rw [List.cons_append, keys_cons]
      by_cases heq : k = k'
      · subst heq
        rw [firstWeight_cons_self, firstWeight_cons_self, if_pos (Finset.mem_insert_self k _)]
      · rw [firstWeight_cons_of_ne heq, firstWeight_cons_of_ne heq, ih]
        simp [heq]

end Firsts

section Sorting

variable {α : Type}
variable (r : α → α → Prop)
variable [DecidableRel r]
variable {p : α → Bool}

theorem orderedInsert_of_forall
    {a : α}
    {xs : List α}
    (h : ∀ b ∈ xs, r a b) :
    xs.orderedInsert r a = a :: xs := by
  cases xs with
  | nil => rfl
  | cons b xs => exact List.orderedInsert_cons_of_le r xs (h b List.mem_cons_self)

theorem filter_orderedInsert
    [IsTrans α r]
    {a : α}
    {xs : List α}
    (hsorted : xs.Pairwise r) :
    (xs.orderedInsert r a).filter p =
      if p a then (xs.filter p).orderedInsert r a else xs.filter p := by
  induction xs with
  | nil =>
      by_cases hp : p a = true
      · simp [hp]
      · simp [hp]
  | cons b xs ih =>
      obtain ⟨hb, hsorted'⟩ := List.pairwise_cons.mp hsorted
      by_cases hab : r a b
      · have hall : ∀ c ∈ (b :: xs).filter p, r a c := by
          intro c hc
          rcases List.mem_cons.mp (List.mem_of_mem_filter hc) with rfl | hc
          · exact hab
          · exact IsTrans.trans a b c hab (hb c hc)
        rw [List.orderedInsert_cons_of_le r xs hab, orderedInsert_of_forall r hall]
        by_cases hp : p a = true
        · rw [if_pos hp, List.filter_cons_of_pos hp]
        · rw [if_neg hp, List.filter_cons_of_neg hp]
      · rw [List.orderedInsert_of_not_le r xs hab]
        by_cases hpb : p b = true
        · rw [List.filter_cons_of_pos hpb, List.filter_cons_of_pos hpb, ih hsorted',
            List.orderedInsert_of_not_le r _ hab]
          by_cases hp : p a = true
          · rw [if_pos hp, if_pos hp]
          · rw [if_neg hp, if_neg hp]
        · rw [List.filter_cons_of_neg hpb, List.filter_cons_of_neg hpb, ih hsorted']

/-- Sorting what a filter leaves is filtering what is sorted. -/
theorem filter_insertionSort
    [IsTrans α r]
    [Std.Total r]
    (xs : List α) :
    (xs.insertionSort r).filter p = (xs.filter p).insertionSort r := by
  induction xs with
  | nil => rfl
  | cons x xs ih =>
      rw [List.insertionSort_cons, filter_orderedInsert r (List.pairwise_insertionSort r xs), ih]
      by_cases hp : p x = true
      · rw [if_pos hp, List.filter_cons_of_pos hp, List.insertionSort_cons]
      · rw [if_neg hp, List.filter_cons_of_neg hp]

end Sorting

end OpenCsv
