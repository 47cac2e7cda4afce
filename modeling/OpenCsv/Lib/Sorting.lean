import Mathlib.Data.List.Sort
import Mathlib.Tactic

/-!
# Sorting as multiset comparison

Sorting two lists by a total order and comparing the results is a way of asking
whether they are permutations of each other.  The order used on byte strings is
the lexicographic one.  `perm_map_of_perm_map` moves such a comparison from the
images under one function to the images under another.  `map_find?_eq_iff` compares the
first matches of two tests in a sorted list.
-/

namespace OpenCsv

section SortPerm

variable {α : Type*}
variable {r : α → α → Prop} [DecidableRel r]
variable [Std.Total r] [IsTrans α r] [Std.Antisymm r]

/-- Two lists sort to the same list exactly when they are permutations. -/
theorem insertionSort_eq_iff_perm
    {l l' : List α} :
    l.insertionSort r = l'.insertionSort r ↔ l.Perm l' := by
  constructor
  · intro h
    have hl := List.perm_insertionSort r l
    rw [h] at hl
    exact hl.symm.trans (List.perm_insertionSort r l')
  · intro h
    have hperm : (l.insertionSort r).Perm (l'.insertionSort r) :=
      ((List.perm_insertionSort r l).trans h).trans
        (List.perm_insertionSort r l').symm
    exact hperm.eq_of_pairwise'
      (List.pairwise_insertionSort r l) (List.pairwise_insertionSort r l')

end SortPerm

section PermMap

variable {α β γ : Type*}

/--
Permuted images transfer from `f` to `g` when `f` identifies no more of the
involved entries than `g` does.
-/
theorem perm_map_of_perm_map
    {f : α → β}
    {g : α → γ}
    {l l' : List α}
    (hfg : ∀ x ∈ l ++ l', ∀ y ∈ l ++ l', f x = f y → g x = g y)
    (h : (l.map f).Perm (l'.map f)) :
    (l.map g).Perm (l'.map g) := by
  classical
  rcases l with _ | ⟨a, l⟩
  · have hnil : l' = [] := by
      simpa using h
    simp [hnil]
  · -- Send each image under `f` to the image under `g` of some preimage.
    let φ : β → γ := fun b =>
      if hb : ∃ x ∈ (a :: l) ++ l', f x = b then g hb.choose else g a
    have hφ : ∀ x ∈ (a :: l) ++ l', φ (f x) = g x := by
      intro x hx
      have hb : ∃ y ∈ (a :: l) ++ l', f y = f x := ⟨x, hx, rfl⟩
      have hspec := hb.choose_spec
      simp only [φ, dif_pos hb]
      exact hfg _ hspec.1 _ hx hspec.2
    have hmap : ∀ m : List α, (∀ x ∈ m, x ∈ (a :: l) ++ l') →
        (m.map f).map φ = m.map g := by
      intro m hm
      rw [List.map_map]
      exact List.map_congr_left (fun x hx => hφ x (hm x hx))
    have himage := h.map φ
    rwa [hmap _ (fun x hx => List.mem_append_left _ hx),
      hmap _ (fun x hx => List.mem_append_right _ hx)] at himage

end PermMap

section Lexicographic

/-- Lexicographic order of byte strings. -/
def bytesLe : List UInt8 → List UInt8 → Bool
  | [], _ => true
  | _ :: _, [] => false
  | a :: as, b :: bs => a < b || (a == b && bytesLe as bs)

theorem bytesLe_total
    (as bs : List UInt8) :
    bytesLe as bs = true ∨ bytesLe bs as = true := by
  induction as generalizing bs with
  | nil =>
      exact Or.inl rfl
  | cons a as ih =>
      cases bs with
      | nil =>
          exact Or.inr rfl
      | cons b bs =>
          simp only [bytesLe, Bool.or_eq_true, decide_eq_true_eq, Bool.and_eq_true,
            beq_iff_eq]
          rcases lt_trichotomy a.toNat b.toNat with hlt | heq | hgt
          · exact Or.inl (Or.inl hlt)
          · have hab : a = b := UInt8.toNat_inj.mp heq
            subst hab
            rcases ih bs with h | h
            · exact Or.inl (Or.inr ⟨rfl, h⟩)
            · exact Or.inr (Or.inr ⟨rfl, h⟩)
          · exact Or.inr (Or.inl hgt)

theorem bytesLe_antisymm
    {as bs : List UInt8}
    (h : bytesLe as bs = true)
    (h' : bytesLe bs as = true) :
    as = bs := by
  induction as generalizing bs with
  | nil =>
      cases bs with
      | nil =>
          rfl
      | cons b bs =>
          simp [bytesLe] at h'
  | cons a as ih =>
      cases bs with
      | nil =>
          simp [bytesLe] at h
      | cons b bs =>
          simp only [bytesLe, Bool.or_eq_true, decide_eq_true_eq, Bool.and_eq_true,
            beq_iff_eq, UInt8.lt_iff_toNat_lt] at h h'
          rcases h with hlt | ⟨hab, hle⟩
          · rcases h' with hgt | ⟨hba, -⟩
            · omega
            · rw [hba] at hlt
              omega
          · subst hab
            rcases h' with hgt | ⟨-, hge⟩
            · omega
            · rw [ih hle hge]

theorem bytesLe_trans
    {as bs cs : List UInt8}
    (h : bytesLe as bs = true)
    (h' : bytesLe bs cs = true) :
    bytesLe as cs = true := by
  induction as generalizing bs cs with
  | nil =>
      rfl
  | cons a as ih =>
      cases bs with
      | nil =>
          simp [bytesLe] at h
      | cons b bs =>
          cases cs with
          | nil =>
              simp [bytesLe] at h'
          | cons c cs =>
              simp only [bytesLe, Bool.or_eq_true, decide_eq_true_eq, Bool.and_eq_true,
                beq_iff_eq, UInt8.lt_iff_toNat_lt] at h h' ⊢
              rcases h with hlt | ⟨rfl, hle⟩
              · rcases h' with hlt' | ⟨rfl, -⟩
                · exact Or.inl (by omega)
                · exact Or.inl hlt
              · rcases h' with hlt' | ⟨rfl, hle'⟩
                · exact Or.inl hlt'
                · exact Or.inr ⟨rfl, ih hle hle'⟩

end Lexicographic

section FirstMatch

variable {α β : Type*}

/--
In a list that is sorted by key, a wider test finds its first match no earlier than a
narrower one, unless one of its matches comes before every match of the narrower test.
-/
theorem map_find?_eq_iff
    {key : β → ℕ}
    {f : α → β}
    {p q : α → Bool}
    {l : List α}
    (hsorted : l.Pairwise (fun a b => key (f a) < key (f b))) :
    (l.find? p).map f = (l.find? (fun a => p a || q a)).map f ↔
      ∀ a ∈ l, q a = true → ∃ b ∈ l, p b = true ∧ key (f b) ≤ key (f a) := by
  induction l with
  | nil =>
      simp
  | cons a l ih =>
      obtain ⟨hfirst, htail⟩ := List.pairwise_cons.mp hsorted
      by_cases hp : p a = true
      · refine iff_of_true ?_ ?_
        · rw [List.find?_cons_of_pos hp, List.find?_cons_of_pos (by simp [hp])]
        · intro b hb _
          refine ⟨a, List.mem_cons_self, hp, ?_⟩
          rcases List.mem_cons.mp hb with rfl | hb
          · exact le_rfl
          · exact (hfirst b hb).le
      · rw [List.find?_cons_of_neg hp]
        by_cases hq : q a = true
        · refine iff_of_false ?_ ?_
          · rw [List.find?_cons_of_pos (by simp [hq])]
            intro heq
            obtain ⟨b, hb, hfb⟩ := Option.map_eq_some_iff.mp heq
            have hlt := hfirst b (List.mem_of_find?_eq_some hb)
            rw [hfb] at hlt
            exact lt_irrefl _ hlt
          · intro hall
            obtain ⟨b, hb, hpb, hle⟩ := hall a List.mem_cons_self hq
            rcases List.mem_cons.mp hb with rfl | hb
            · exact hp hpb
            · exact absurd (hfirst b hb) (not_lt.mpr hle)
        · rw [List.find?_cons_of_neg (by simp [hp, hq]), ih htail]
          constructor
          · intro hall b hb hqb
            rcases List.mem_cons.mp hb with rfl | hb
            · exact absurd hqb hq
            · obtain ⟨c, hc, hpc⟩ := hall b hb hqb
              exact ⟨c, List.mem_cons_of_mem a hc, hpc⟩
          · intro hall b hb hqb
            obtain ⟨c, hc, hpc, hle⟩ := hall b (List.mem_cons_of_mem a hb) hqb
            rcases List.mem_cons.mp hc with rfl | hc
            · exact absurd hpc hp
            · exact ⟨c, hc, hpc, hle⟩

end FirstMatch

section Rows

variable {κ ν : Type*}

/-- A row of a map that is kept in key order; an earlier row of the key is replaced. -/
def insertRow
    (key : κ → ℕ)
    (k : κ)
    (v : ν)
    (rows : List (κ × ν)) : List (κ × ν) :=
  rows.filter (fun row => key row.1 < key k) ++
    (k, v) :: rows.filter (fun row => key k < key row.1)

/-- A row above all others is put last. -/
theorem insertRow_of_lt
    {key : κ → ℕ}
    {k : κ}
    {v : ν}
    {rows : List (κ × ν)}
    (h : ∀ row ∈ rows, key row.1 < key k) :
    insertRow key k v rows = rows ++ [(k, v)] := by
  have hbelow : rows.filter (fun row => key row.1 < key k) = rows := by
    rw [List.filter_eq_self]
    intro row hrow
    exact decide_eq_true (h row hrow)
  have habove : rows.filter (fun row => key k < key row.1) = [] := by
    rw [List.filter_eq_nil_iff]
    intro row hrow
    have hlt := h row hrow
    rw [decide_eq_true_eq]
    omega
  rw [insertRow, hbelow, habove]

/-- Rows in key order are rebuilt as they are. -/
theorem foldl_insertRow
    {key : κ → ℕ}
    {rows rows' : List (κ × ν)}
    (hsorted : (rows ++ rows').Pairwise (fun a b => key a.1 < key b.1)) :
    rows'.foldl (fun acc row => insertRow key row.1 row.2 acc) rows = rows ++ rows' := by
  induction rows' generalizing rows with
  | nil =>
      simp
  | cons row rows' ih =>
      have hlt : ∀ r ∈ rows, key r.1 < key row.1 := by
        intro r hr
        exact (List.pairwise_append.mp hsorted).2.2 r hr row List.mem_cons_self
      rw [List.foldl_cons, insertRow_of_lt hlt, ih (by simpa using hsorted)]
      simp

end Rows

end OpenCsv
