import Mathlib.Data.List.Nodup
import Mathlib.Tactic

/-!
# Keyed tables

A table holds rows under a primary key, in the order they were inserted.  The
four ways of writing a row follow SQL: `insert` leaves an existing row alone,
`put` replaces it, `modify` updates it in place and `delete` removes it.

**Results.** Every operation is determined by the lookups it changes
(`get_insert`, `get_put`, `get_modify`, `get_modifyAll`, `get_delete`), and a
row is in the table exactly when it is found under its key (`mem_rows_iff`).
-/

namespace OpenCsv

/-- Rows under distinct keys, oldest first. -/
structure Table (κ : Type) (ρ : Type) where
  rows : List (κ × ρ)
  nodup : (rows.map Prod.fst).Nodup

namespace Table

variable {κ ρ : Type} [DecidableEq κ]

instance [DecidableEq ρ] : DecidableEq (Table κ ρ) :=
  fun s t => decidable_of_iff (s.rows = t.rows) (by
    cases s
    cases t
    simp)

def empty : Table κ ρ where
  rows := []
  nodup := List.nodup_nil

/-- The row under a key. -/
def get (t : Table κ ρ) (k : κ) : Option ρ :=
  t.rows.lookup k

/-- Is there a row under the key? -/
def has (t : Table κ ρ) (k : κ) : Bool :=
  (t.get k).isSome

section Lookup

variable {t : Table κ ρ}

/-- Lookup in a list with distinct keys finds the rows of the list. -/
theorem lookup_eq_some_iff
    {rows : List (κ × ρ)}
    (h : (rows.map Prod.fst).Nodup)
    {k : κ}
    {r : ρ} :
    rows.lookup k = some r ↔ (k, r) ∈ rows := by
  induction rows with
  | nil =>
      simp
  | cons row rows ih =>
      obtain ⟨k', r'⟩ := row
      rw [List.map_cons, List.nodup_cons] at h
      by_cases hk : k = k'
      · subst hk
        have hout : (k, r) ∉ rows := fun hmem => h.1 (List.mem_map.mpr ⟨(k, r), hmem, rfl⟩)
        simp [hout, eq_comm]
      · have hk' : (k == k') = false := by simpa using hk
        simp [List.lookup_cons, hk, hk', ih h.2]

/-- A row is in the table exactly when it is found under its key. -/
theorem mem_rows_iff
    {k : κ}
    {r : ρ} :
    (k, r) ∈ t.rows ↔ t.get k = some r :=
  (lookup_eq_some_iff t.nodup).symm

theorem has_eq_true_iff
    {k : κ} :
    t.has k = true ↔ ∃ r, t.get k = some r :=
  Option.isSome_iff_exists

theorem has_eq_false_iff
    {k : κ} :
    t.has k = false ↔ t.get k = none := by
  unfold has
  cases t.get k <;> simp

theorem get_eq_none_iff
    {k : κ} :
    t.get k = none ↔ k ∉ t.rows.map Prod.fst := by
  constructor
  · intro h hmem
    obtain ⟨⟨k', r⟩, hr, rfl⟩ := List.mem_map.mp hmem
    have hsome := mem_rows_iff.mp hr
    rw [h] at hsome
    cases hsome
  · intro h
    cases hget : t.get k with
    | none =>
        rfl
    | some r =>
        exact absurd (List.mem_map_of_mem (mem_rows_iff.mpr hget)) h

omit [DecidableEq κ] in
theorem eq_empty_of_rows
    (h : t.rows = []) :
    t = empty := by
  cases t
  subst h
  rfl

@[simp] theorem get_empty
    (k : κ) :
    (empty : Table κ ρ).get k = none :=
  rfl

end Lookup

section Writes

/-- `INSERT OR IGNORE`: an existing row stays. -/
def insert (t : Table κ ρ) (k : κ) (r : ρ) : Table κ ρ :=
  if h : k ∈ t.rows.map Prod.fst then
    t
  else
    { rows := t.rows ++ [(k, r)]
      nodup := by
        rw [List.map_append]
        exact List.Nodup.append t.nodup (List.nodup_singleton _) (by simpa using h) }

/-- Update every row in place; the keys stay. -/
def modifyAll (t : Table κ ρ) (f : κ → ρ → ρ) : Table κ ρ where
  rows := t.rows.map (fun row => (row.1, f row.1 row.2))
  nodup := by
    rw [List.map_map]
    exact t.nodup

/-- Update the row under a key in place. -/
def modify (t : Table κ ρ) (k : κ) (f : ρ → ρ) : Table κ ρ :=
  t.modifyAll (fun k' r => if k' = k then f r else r)

/-- Update several rows, each in its own way. -/
def modifyMany (t : Table κ ρ) (fs : List (κ × (ρ → ρ))) : Table κ ρ :=
  t.modifyAll (fun k r => (fs.lookup k).elim r (fun f => f r))

/-- `INSERT OR REPLACE`. -/
def put (t : Table κ ρ) (k : κ) (r : ρ) : Table κ ρ :=
  (t.modify k (fun _ => r)).insert k r

/-- Keep the rows that pass a test. -/
def filter (t : Table κ ρ) (p : κ → ρ → Bool) : Table κ ρ where
  rows := t.rows.filter (fun row => p row.1 row.2)
  nodup := t.nodup.sublist (List.filter_sublist.map Prod.fst)

/-- Remove the row under a key. -/
def delete (t : Table κ ρ) (k : κ) : Table κ ρ :=
  t.filter (fun k' _ => k' != k)

variable {t : Table κ ρ}

@[simp] theorem get_modifyAll
    (f : κ → ρ → ρ)
    (k : κ) :
    (t.modifyAll f).get k = (t.get k).map (f k) := by
  cases hget : t.get k with
  | none =>
      rw [Option.map_none, get_eq_none_iff]
      rw [get_eq_none_iff] at hget
      simpa [modifyAll] using hget
  | some r =>
      rw [Option.map_some, ← mem_rows_iff]
      exact List.mem_map.mpr ⟨(k, r), mem_rows_iff.mpr hget, rfl⟩

theorem get_modify
    (k k' : κ)
    (f : ρ → ρ) :
    (t.modify k f).get k' = if k' = k then (t.get k').map f else t.get k' := by
  by_cases hk : k' = k
  · simp [modify, hk]
  · simp [modify, hk]

@[simp] theorem modifyMany_nil :
    t.modifyMany [] = t := by
  cases t
  simp [modifyMany, modifyAll]

/-- Rows that are updated one after the other are updated together. -/
theorem modifyMany_modify
    {k : κ}
    {f : ρ → ρ}
    {fs : List (κ × (ρ → ρ))}
    (h : k ∉ fs.map Prod.fst) :
    (t.modify k f).modifyMany fs = t.modifyMany ((k, f) :: fs) := by
  have hk : fs.lookup k = none := by
    rw [List.lookup_eq_none_iff]
    intro row hrow
    have hne : k ≠ row.1 := fun heq => h (heq ▸ List.mem_map_of_mem hrow)
    simpa using hne
  unfold modifyMany modify modifyAll
  congr 1
  rw [List.map_map]
  refine List.map_congr_left ?_
  intro row _
  by_cases hrow : row.1 = k
  · simp [hrow, hk]
  · have hrow' : (row.1 == k) = false := by simpa using hrow
    simp [List.lookup_cons, hrow, hrow']

theorem get_insert
    (k k' : κ)
    (r : ρ) :
    (t.insert k r).get k' = if k' = k then some ((t.get k).getD r) else t.get k' := by
  unfold insert
  split_ifs with hmem hk hk
  · subst hk
    have hsome : t.get k' ≠ none := fun h => (get_eq_none_iff.mp h) hmem
    obtain ⟨r', hr'⟩ := Option.ne_none_iff_exists'.mp hsome
    simp [hr']
  · rfl
  · subst hk
    rw [get_eq_none_iff.mpr hmem]
    exact mem_rows_iff.mp (List.mem_append_right _ (List.mem_singleton_self _))
  · show (t.rows ++ [(k, r)]).lookup k' = t.rows.lookup k'
    rw [List.lookup_append]
    have hk' : (k' == k) = false := by simpa using hk
    simp [List.lookup_cons, hk']

theorem get_insert_self_of_none
    {k : κ}
    {r : ρ}
    (h : t.get k = none) :
    (t.insert k r).get k = some r := by
  rw [get_insert, if_pos rfl, h]
  rfl

/-- An existing row stays. -/
theorem insert_of_get
    {k : κ}
    {r r' : ρ}
    (h : t.get k = some r') :
    t.insert k r = t := by
  have hmem : k ∈ t.rows.map Prod.fst := List.mem_map_of_mem (mem_rows_iff.mpr h)
  rw [insert, dif_pos hmem]

/-- A new row comes last. -/
theorem rows_insert_of_none
    {k : κ}
    {r : ρ}
    (h : t.get k = none) :
    (t.insert k r).rows = t.rows ++ [(k, r)] := by
  unfold insert
  rw [dif_neg (get_eq_none_iff.mp h)]

/-- A row under a new key comes last. -/
theorem rows_put_of_none
    {k : κ}
    {r : ρ}
    (h : t.get k = none) :
    (t.put k r).rows = t.rows ++ [(k, r)] := by
  have hnone : (t.modify k (fun _ => r)).get k = none := by
    rw [get_modify, if_pos rfl, h]
    rfl
  have hrows : (t.modify k (fun _ => r)).rows = t.rows := by
    refine (List.map_congr_left ?_).trans (List.map_id _)
    intro row hrow
    have hne : row.1 ≠ k := by
      intro heq
      exact get_eq_none_iff.mp h (heq ▸ List.mem_map_of_mem hrow)
    simp [hne]
  rw [put, rows_insert_of_none hnone, hrows]

theorem get_put
    (k k' : κ)
    (r : ρ) :
    (t.put k r).get k' = if k' = k then some r else t.get k' := by
  rw [put, get_insert, get_modify, get_modify]
  by_cases hk : k' = k
  · subst hk
    cases t.get k' <;> simp
  · simp [hk]

theorem get_filter
    (p : κ → ρ → Bool)
    (k : κ) :
    (t.filter p).get k = (t.get k).filter (p k) := by
  cases hget : (t.filter p).get k with
  | none =>
      cases hget' : t.get k with
      | none =>
          rfl
      | some r =>
          have hout : (k, r) ∉ (t.filter p).rows := by
            rw [mem_rows_iff, hget]
            simp
          have hp : p k r = false := by
            by_contra hp
            exact hout (List.mem_filter.mpr ⟨mem_rows_iff.mpr hget', by simpa using hp⟩)
          simp [Option.filter, hp]
  | some r =>
      obtain ⟨hmem, hp⟩ := List.mem_filter.mp (mem_rows_iff.mpr hget)
      rw [mem_rows_iff.mp hmem]
      simp only [Option.filter]
      rw [if_pos hp]

theorem get_delete
    (k k' : κ) :
    (t.delete k).get k' = if k' = k then none else t.get k' := by
  rw [delete, get_filter]
  by_cases hk : k' = k
  · cases hget : t.get k' <;> simp [hk, Option.filter]
  · cases hget : t.get k' <;> simp [hk, Option.filter]

/-- One row at most has a key. -/
theorem rows_filter_key
    {k : κ}
    {r : ρ}
    (h : t.get k = some r) :
    t.rows.filter (fun row => row.1 == k) = [(k, r)] := by
  obtain ⟨before, after, hrows⟩ := List.append_of_mem (mem_rows_iff.mpr h)
  have hnodup := t.nodup
  rw [hrows, List.map_append, List.map_cons, List.nodup_middle, List.nodup_cons,
    List.mem_append, not_or] at hnodup
  have hnone : ∀ rows : List (κ × ρ), k ∉ rows.map Prod.fst →
      rows.filter (fun row => row.1 == k) = [] := by
    intro rows hout
    rw [List.filter_eq_nil_iff]
    intro row hrow hk
    exact hout (List.mem_map.mpr ⟨row, hrow, beq_iff_eq.mp hk⟩)
  rw [hrows, List.filter_append, List.filter_cons_of_pos (by simp), hnone before hnodup.1.1,
    hnone after hnodup.1.2, List.nil_append]

@[simp] theorem get_modify_self
    (k : κ)
    (f : ρ → ρ) :
    (t.modify k f).get k = (t.get k).map f := by
  simp [get_modify]

theorem get_modify_of_ne
    {k k' : κ}
    (h : k' ≠ k)
    (f : ρ → ρ) :
    (t.modify k f).get k' = t.get k' := by
  simp [get_modify, h]

end Writes

end Table

end OpenCsv
