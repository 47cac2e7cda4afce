import OpenCsv.Lib.Result
import OpenCsv.Lib.Table

/-!
# Directories of encoded objects

A directory is a table of files under their names, and is listed in the order of the names.
A directory holds some objects when its files are the objects, one file for each, under the
name of the object and with contents that are read back as the object.

**Results.** A new object is held in a new file (`Holds.insert`), reading the whole listing
gives the objects back in some order (`Holds.mapM_listing`), and another way of reading holds
them as well when it reads the same objects (`Holds.reread`).
-/

namespace OpenCsv
namespace Table

variable {κ ρ ε α : Type}

section Successes

theorem mapM_eq_ok_of_map_eq
    {f : ρ → Except ε α}
    {xs : List ρ}
    {as : List α}
    (h : xs.map f = as.map .ok) :
    xs.mapM f = .ok as := by
  rw [mapM_eq_ok_iff]
  induction xs generalizing as with
  | nil =>
      obtain rfl := List.map_eq_nil_iff.mp h.symm
      exact List.Forall₂.nil
  | cons x xs ih =>
      rcases as with _ | ⟨a, as⟩
      · cases h
      · obtain ⟨hx, hxs⟩ := List.cons.inj h
        exact List.Forall₂.cons hx (ih hxs)

/-- A rearrangement of successes is a list of successes. -/
theorem exists_map_ok_of_perm
    {xs : List (Except ε α)}
    {as : List α}
    (h : xs.Perm (as.map .ok)) :
    ∃ bs : List α, xs = bs.map .ok ∧ bs.Perm as := by
  refine ⟨xs.filterMap Except.toOption, ?_, ?_⟩
  · have hall : ∀ x ∈ xs, ∃ a, x = Except.ok a := by
      intro x hx
      obtain ⟨a, -, ha⟩ := List.mem_map.mp (h.mem_iff.mp hx)
      exact ⟨a, ha.symm⟩
    clear h
    induction xs with
    | nil => rfl
    | cons x xs ih =>
        obtain ⟨a, rfl⟩ := hall x List.mem_cons_self
        have htail := ih (fun y hy => hall y (List.mem_cons_of_mem _ hy))
        simpa [Except.toOption] using htail
  · have hfilter := h.filterMap Except.toOption
    have hsame : (as.map (Except.ok (ε := ε))).filterMap Except.toOption = as := by
      rw [List.filterMap_map]
      exact List.filterMap_some
    rwa [hsame] at hfilter

end Successes

/-- The files in the order of their names. -/
def listing (t : Table κ ρ) (le : κ → κ → Bool) : List (κ × ρ) :=
  t.rows.insertionSort (fun a b => le a.1 b.1)

theorem listing_perm
    (t : Table κ ρ)
    (le : κ → κ → Bool) :
    (t.listing le).Perm t.rows :=
  List.perm_insertionSort _ _

/-- The files are the objects, each under its name. -/
def Holds
    (t : Table κ ρ)
    (read : ρ → Except ε α)
    (name : α → κ)
    (objects : List α) : Prop :=
  (t.rows.map (fun row => (row.1, read row.2))).Perm (objects.map (fun a => (name a, .ok a)))

namespace Holds

variable {t : Table κ ρ}
variable {read read' : ρ → Except ε α}
variable {name : α → κ}
variable {objects objects' : List α}

theorem empty :
    (Table.empty : Table κ ρ).Holds read name [] :=
  List.Perm.nil

theorem perm
    (h : t.Holds read name objects)
    (hperm : objects.Perm objects') :
    t.Holds read name objects' :=
  List.Perm.trans h (hperm.map _)

theorem length_eq
    (h : t.Holds read name objects) :
    t.rows.length = objects.length := by
  simpa using List.Perm.length_eq h

/-- The names are distinct. -/
theorem nodup
    (h : t.Holds read name objects) :
    (objects.map name).Nodup := by
  have hnames : (t.rows.map Prod.fst).Perm (objects.map name) := by
    have hfst := List.Perm.map Prod.fst h
    simpa [List.map_map, Function.comp_def] using hfst
  exact hnames.nodup_iff.mp t.nodup

/-- Another way of reading that reads the same objects. -/
theorem reread
    (h : t.Holds read name objects)
    (hread : ∀ k bytes a, (k, bytes) ∈ t.rows → a ∈ objects → read bytes = .ok a →
      read' bytes = .ok a) :
    t.Holds read' name objects := by
  have hrows : t.rows.map (fun row => (row.1, read' row.2)) =
      t.rows.map (fun row => (row.1, read row.2)) := by
    refine List.map_congr_left (fun row hrow => ?_)
    have hmem := (List.Perm.mem_iff h).mp (List.mem_map_of_mem hrow)
    obtain ⟨a, ha, heq⟩ := List.mem_map.mp hmem
    have hok : read row.2 = .ok a := (congrArg Prod.snd heq).symm
    rw [hread row.1 row.2 a hrow ha hok, hok]
  rw [Holds, hrows]
  exact h

/-- Reading all files gives the objects. -/
theorem mapM_listing
    (h : t.Holds read name objects)
    (le : κ → κ → Bool) :
    ∃ as, (t.listing le).mapM (fun row => read row.2) = .ok as ∧ as.Perm objects := by
  have hlisting : ((t.listing le).map (fun row => read row.2)).Perm (objects.map .ok) := by
    have hsnd := List.Perm.map Prod.snd h
    simp only [List.map_map, Function.comp_def] at hsnd
    exact ((t.listing_perm le).map _).trans hsnd
  obtain ⟨as, hmap, hperm⟩ := exists_map_ok_of_perm hlisting
  exact ⟨as, mapM_eq_ok_of_map_eq hmap, hperm⟩

section Lookups

variable [DecidableEq κ]

/-- Every file is one of the objects. -/
theorem of_get
    (h : t.Holds read name objects)
    {k : κ}
    {bytes : ρ}
    (hget : t.get k = some bytes) :
    ∃ a ∈ objects, name a = k ∧ read bytes = .ok a := by
  have hmem := (List.Perm.mem_iff h).mp (List.mem_map_of_mem (mem_rows_iff.mpr hget))
  obtain ⟨a, ha, heq⟩ := List.mem_map.mp hmem
  exact ⟨a, ha, congrArg Prod.fst heq, (congrArg Prod.snd heq).symm⟩

/-- Every object has its file. -/
theorem get_of_mem
    (h : t.Holds read name objects)
    {a : α}
    (ha : a ∈ objects) :
    ∃ bytes, t.get (name a) = some bytes ∧ read bytes = .ok a := by
  have hmem := (List.Perm.mem_iff h).mpr (List.mem_map_of_mem ha)
  obtain ⟨⟨k, bytes⟩, hrow, heq⟩ := List.mem_map.mp hmem
  obtain ⟨rfl, hread⟩ := Prod.mk.inj heq
  exact ⟨bytes, mem_rows_iff.mp hrow, hread⟩

theorem get_eq_none_iff
    (h : t.Holds read name objects)
    {k : κ} :
    t.get k = none ↔ ∀ a ∈ objects, name a ≠ k := by
  constructor
  · rintro hnone a ha rfl
    obtain ⟨bytes, hget, -⟩ := h.get_of_mem ha
    rw [hnone] at hget
    cases hget
  · intro hall
    cases hget : t.get k with
    | none => rfl
    | some bytes =>
        obtain ⟨a, ha, hname, -⟩ := h.of_get hget
        exact absurd hname (hall a ha)

/-- A new file holds a new object. -/
theorem insert
    (h : t.Holds read name objects)
    {a : α}
    {bytes : ρ}
    (hnew : t.get (name a) = none)
    (hread : read bytes = .ok a) :
    (t.insert (name a) bytes).Holds read name (objects ++ [a]) := by
  rw [Holds, rows_insert_of_none hnew, List.map_append, List.map_append]
  refine List.Perm.append h ?_
  rw [List.map_singleton, List.map_singleton, hread]

end Lookups

end Holds

end Table
end OpenCsv
