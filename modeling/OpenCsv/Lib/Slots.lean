import Mathlib.Data.List.Basic
import Mathlib.Tactic

/-!
# Filling numbered slots

A row of slots is filled from a list of numbered entries.  An entry that is there already
may come again; a different one for the same slot is a conflict.

**Results.** Filling succeeds when every entry fits its slot and no two entries conflict
(`exists_fill`); what the slots hold then is a matter of membership (`filled_of_fill`), so
neither the order nor the repetition of the entries counts (`Filled.unique`).
-/

namespace OpenCsv

variable {α : Type*} [DecidableEq α]

/-- Put an entry into its slot; there must be such a slot, and nothing else in it. -/
def putSlot (slots : List (Option α)) (entry : ℕ × α) : Option (List (Option α)) :=
  match slots[entry.1]? with
  | some (some existing) => if existing = entry.2 then some slots else none
  | some none => some (slots.set entry.1 (some entry.2))
  | none => none

/-- Put in one entry after the other. -/
def fill : List (ℕ × α) → List (Option α) → Option (List (Option α))
  | [], slots => some slots
  | entry :: entries, slots => (putSlot slots entry).bind (fill entries)

/-- The slot of an entry is free or holds the entry. -/
def Fits (slots : List (Option α)) (entry : ℕ × α) : Prop :=
  slots[entry.1]? = some none ∨ slots[entry.1]? = some (some entry.2)

/-- The slots hold what they held before, and the entries. -/
structure Filled (slots slots' : List (Option α)) (entries : List (ℕ × α)) : Prop where
  length_eq : slots'.length = slots.length
  holds : ∀ (i : ℕ) a, slots'[i]? = some (some a) ↔
    slots[i]? = some (some a) ∨ (i, a) ∈ entries

variable {slots slots' slots'' : List (Option α)}
variable {entry : ℕ × α}
variable {entries entries' : List (ℕ × α)}

theorem putSlot_isSome_iff :
    (∃ slots', putSlot slots entry = some slots') ↔ Fits slots entry := by
  unfold putSlot Fits
  rcases hslot : slots[entry.1]? with _ | _ | existing
  · simp
  · simp
  · simp

/-- What the slots hold after one entry. -/
theorem filled_of_putSlot
    (h : putSlot slots entry = some slots') :
    Filled slots slots' [entry] := by
  obtain ⟨i, a⟩ := entry
  unfold putSlot at h
  rcases hslot : slots[i]? with _ | _ | existing
  · rw [hslot] at h
    cases h
  · rw [hslot] at h
    obtain rfl := Option.some.inj h
    have hi : i < slots.length := (List.getElem?_eq_some_iff.mp hslot).1
    refine ⟨List.length_set, ?_⟩
    intro j b
    rw [List.mem_singleton, Prod.mk.injEq]
    by_cases hj : j = i
    · subst hj
      rw [List.getElem?_set_self hi, hslot]
      simp [eq_comm]
    · rw [List.getElem?_set_ne (Ne.symm hj)]
      simp [hj]
  · rw [hslot] at h
    simp only at h
    split_ifs at h with heq
    obtain rfl := Option.some.inj h
    subst heq
    refine ⟨rfl, ?_⟩
    intro j b
    rw [List.mem_singleton, Prod.mk.injEq]
    constructor
    · exact Or.inl
    · rintro (hj | ⟨rfl, rfl⟩)
      · exact hj
      · exact hslot

omit [DecidableEq α] in
/-- First some entries, then the others. -/
theorem Filled.trans
    (h : Filled slots slots' entries)
    (h' : Filled slots' slots'' entries') :
    Filled slots slots'' (entries ++ entries') := by
  refine ⟨h'.length_eq.trans h.length_eq, ?_⟩
  intro i a
  rw [h'.holds, h.holds, List.mem_append, or_assoc]

/-- What the slots hold after all entries. -/
theorem filled_of_fill
    (h : fill entries slots = some slots') :
    Filled slots slots' entries := by
  induction entries generalizing slots with
  | nil =>
      obtain rfl := Option.some.inj h
      exact ⟨rfl, by simp⟩
  | cons entry entries ih =>
      obtain ⟨next, hput, hfill⟩ := Option.bind_eq_some_iff.mp h
      exact (filled_of_putSlot hput).trans (ih hfill)

omit [DecidableEq α] in
/-- No two entries of one slot differ. -/
theorem Filled.agree
    (h : Filled slots slots' entries)
    {i : ℕ}
    {a b : α}
    (ha : (i, a) ∈ entries)
    (hb : (i, b) ∈ entries) :
    a = b := by
  have ha' := (h.holds i a).mpr (Or.inr ha)
  have hb' := (h.holds i b).mpr (Or.inr hb)
  exact Option.some.inj (Option.some.inj (ha'.symm.trans hb'))

/-- Entries that fit their slots and agree with each other are all put in. -/
theorem exists_fill
    (hfits : ∀ entry ∈ entries, Fits slots entry)
    (hagree : ∀ i a b, (i, a) ∈ entries → (i, b) ∈ entries → a = b) :
    ∃ slots', fill entries slots = some slots' := by
  induction entries generalizing slots with
  | nil =>
      exact ⟨slots, rfl⟩
  | cons entry entries ih =>
      obtain ⟨next, hput⟩ := putSlot_isSome_iff.mpr (hfits entry List.mem_cons_self)
      have hfilled := filled_of_putSlot hput
      have hrest : ∀ e ∈ entries, Fits next e := by
        rintro ⟨i, a⟩ he
        by_cases hslot : i = entry.1
        · -- the slot was just filled, with the same value
          have ha : a = entry.2 := by
            refine hagree i a entry.2 (List.mem_cons_of_mem entry he) ?_
            rw [hslot]
            exact List.mem_cons_self
          refine Or.inr ((hfilled.holds i a).mpr (Or.inr ?_))
          rw [hslot, ha]
          exact List.mem_singleton_self entry
        · have hbefore := hfits (i, a) (List.mem_cons_of_mem entry he)
          rcases hbefore with hfree | hheld
          · have hlt : i < next.length := by
              rw [hfilled.length_eq]
              exact (List.getElem?_eq_some_iff.mp hfree).1
            refine Or.inl ?_
            rcases hvalue : next[i] with _ | b
            · exact List.getElem?_eq_some_iff.mpr ⟨hlt, hvalue⟩
            · have hb := (hfilled.holds i b).mp (List.getElem?_eq_some_iff.mpr ⟨hlt, hvalue⟩)
              rcases hb with hb | hb
              · rw [hfree] at hb
                cases hb
              · rw [List.mem_singleton] at hb
                exact absurd (congrArg Prod.fst hb) hslot
          · exact Or.inr ((hfilled.holds i a).mpr (Or.inl hheld))
      obtain ⟨slots', hslots'⟩ := ih hrest (fun i a b ha hb =>
        hagree i a b (List.mem_cons_of_mem entry ha) (List.mem_cons_of_mem entry hb))
      exact ⟨slots', by rw [fill, hput]; exact hslots'⟩

omit [DecidableEq α] in
/-- The same entries, in any order and any number, fill the slots alike. -/
theorem Filled.unique
    (h : Filled slots slots' entries)
    (h' : Filled slots slots'' entries')
    (hsame : ∀ entry, entry ∈ entries ↔ entry ∈ entries') :
    slots' = slots'' := by
  have hholds : ∀ (i : ℕ) a, slots'[i]? = some (some a) ↔ slots''[i]? = some (some a) := by
    intro i a
    rw [h.holds, h'.holds, hsame]
  have hlength : slots'.length = slots''.length := h.length_eq.trans h'.length_eq.symm
  refine List.ext_getElem hlength ?_
  intro i hi hi'
  rcases hvalue : slots'[i] with _ | a
  · rcases hvalue' : slots''[i] with _ | b
    · rfl
    · have hb := (hholds i b).mpr (List.getElem?_eq_some_iff.mpr ⟨hi', hvalue'⟩)
      rw [List.getElem?_eq_getElem hi, hvalue] at hb
      cases hb
  · have ha := (hholds i a).mp (List.getElem?_eq_some_iff.mpr ⟨hi, hvalue⟩)
    rw [List.getElem?_eq_getElem hi'] at ha
    exact (Option.some.inj ha).symm

omit [DecidableEq α] in
/-- An empty row whose slots all get an entry is filled with values. -/
theorem Filled.exists_values
    {n : ℕ}
    (h : Filled (List.replicate n none) slots entries)
    (hcovers : ∀ i < n, ∃ a, (i, a) ∈ entries) :
    ∃ values : List α, slots = values.map some := by
  have hall : ∀ slot ∈ slots, ∃ a, slot = some a := by
    intro slot hslot
    obtain ⟨i, hi⟩ := List.mem_iff_getElem?.mp hslot
    have hlt : i < n := by
      have hlt' := (List.getElem?_eq_some_iff.mp hi).1
      rwa [h.length_eq, List.length_replicate] at hlt'
    obtain ⟨a, ha⟩ := hcovers i hlt
    have hvalue := (h.holds i a).mpr (Or.inr ha)
    exact ⟨a, Option.some.inj (hi.symm.trans hvalue)⟩
  clear h
  induction slots with
  | nil =>
      exact ⟨[], rfl⟩
  | cons slot slots ih =>
      obtain ⟨a, rfl⟩ := hall slot List.mem_cons_self
      obtain ⟨values, rfl⟩ := ih (fun s hs => hall s (List.mem_cons_of_mem _ hs))
      exact ⟨a :: values, rfl⟩

omit [DecidableEq α] in
/-- The values of a row that was empty are its entries. -/
theorem Filled.getElem?_eq_some_iff
    {n : ℕ}
    {values : List α}
    (h : Filled (List.replicate n none) (values.map some) entries)
    {i : ℕ}
    {a : α} :
    values[i]? = some a ↔ (i, a) ∈ entries := by
  have hempty : (List.replicate n (none : Option α))[i]? ≠ some (some a) := by
    intro heq
    have hmem := List.mem_of_getElem? heq
    rw [List.mem_replicate] at hmem
    cases hmem.2
  have hholds := h.holds i a
  rw [List.getElem?_map, or_iff_right hempty] at hholds
  rw [← hholds]
  constructor
  · intro hvalue
    rw [hvalue]
    rfl
  · intro hvalue
    obtain ⟨b, hb, heq⟩ := Option.map_eq_some_iff.mp hvalue
    rw [hb, Option.some.inj heq]

end OpenCsv
