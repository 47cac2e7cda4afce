import Mathlib.Data.List.Basic
import Mathlib.Tactic

/-!
# Lists made of groups

A list that is the concatenation of groups, such as the candidates of one
transaction after those of another.  Searches whose answer is the same for a
whole group are searches over the groups, and keeping the first element of each
key keeps the head of each group.  A search that marks its finds with their position is
compared position by position.
-/

namespace OpenCsv

universe u v w

variable {α : Type u}
variable {γ : Type v}
variable {κ : Type w}

section Search

/-- A search finds an element of the first group that has a match. -/
theorem map_find?_flatMap
    {groups : γ → List α}
    {p : α → Bool}
    {q : γ → Bool}
    {gs : List γ}
    {β : Type*}
    {f : α → β}
    {f' : γ → β}
    (hq : ∀ g ∈ gs, q g = (groups g).any p)
    (hf : ∀ g ∈ gs, ∀ x ∈ groups g, f x = f' g) :
    ((gs.flatMap groups).find? p).map f = (gs.find? q).map f' := by
  induction gs with
  | nil =>
      rfl
  | cons g gs ih =>
      have htail := ih (fun g' hg' => hq g' (List.mem_cons_of_mem g hg'))
        (fun g' hg' => hf g' (List.mem_cons_of_mem g hg'))
      rw [List.flatMap_cons, List.find?_append, List.find?_cons, hq g List.mem_cons_self]
      cases hany : (groups g).any p with
      | true =>
          obtain ⟨x, hx, hpx⟩ := List.any_eq_true.mp hany
          obtain ⟨y, hy⟩ := Option.isSome_iff_exists.mp (List.find?_isSome.mpr ⟨x, hx, hpx⟩)
          rw [hy]
          simp only [Option.some_or, Option.map_some]
          rw [hf g List.mem_cons_self y (List.mem_of_find?_eq_some hy)]
      | false =>
          have hnone : (groups g).find? p = none := by
            rw [List.find?_eq_none]
            intro x hx hpx
            rw [List.any_eq_true.mpr ⟨x, hx, hpx⟩] at hany
            cases hany
          rw [hnone, Option.none_or]
          exact htail

end Search

section FirstOfEach

variable [DecidableEq κ]

/-- Keep the first element of each key, skipping the keys in `seen`. -/
def firstOfEach (key : α → κ) : List κ → List α → List α
  | _, [] => []
  | seen, x :: xs =>
      if key x ∈ seen then
        firstOfEach key seen xs
      else
        x :: firstOfEach key (key x :: seen) xs

/-- Elements with a seen key are skipped. -/
theorem firstOfEach_append_of_seen
    {key : α → κ}
    {seen : List κ}
    {xs ys : List α}
    (h : ∀ x ∈ xs, key x ∈ seen) :
    firstOfEach key seen (xs ++ ys) = firstOfEach key seen ys := by
  induction xs with
  | nil =>
      rfl
  | cons x xs ih =>
      rw [List.cons_append, firstOfEach, if_pos (h x List.mem_cons_self)]
      exact ih (fun x' hx' => h x' (List.mem_cons_of_mem x hx'))

/-- One element is kept of each group: its head. -/
theorem firstOfEach_flatMap
    {key : α → κ}
    {groups : γ → List α}
    {gkey : γ → κ}
    {head : γ → α}
    {gs : List γ}
    {seen : List κ}
    (hhead : ∀ g ∈ gs, (groups g).head? = some (head g))
    (hkey : ∀ g ∈ gs, ∀ x ∈ groups g, key x = gkey g)
    (hnodup : (gs.map gkey).Nodup)
    (hseen : ∀ g ∈ gs, gkey g ∉ seen) :
    firstOfEach key seen (gs.flatMap groups) = gs.map head := by
  induction gs generalizing seen with
  | nil =>
      rfl
  | cons g gs ih =>
      obtain ⟨xs, hxs⟩ : ∃ xs, groups g = head g :: xs := by
        cases hgroup : groups g with
        | nil =>
            have h := hhead g List.mem_cons_self
            rw [hgroup] at h
            cases h
        | cons x xs =>
            have h := hhead g List.mem_cons_self
            rw [hgroup] at h
            exact ⟨xs, by rw [Option.some.inj h]⟩
      have hgkey : ∀ x ∈ head g :: xs, key x = gkey g := by
        rw [← hxs]
        exact hkey g List.mem_cons_self
      have hhd := hgkey (head g) List.mem_cons_self
      rw [List.map_cons, List.nodup_cons] at hnodup
      have hfresh : key (head g) ∉ seen := by
        rw [hhd]
        exact hseen g List.mem_cons_self
      have hskip : ∀ x ∈ xs, key x ∈ key (head g) :: seen := by
        intro x hx
        rw [hgkey x (List.mem_cons_of_mem _ hx), hhd]
        exact List.mem_cons_self
      rw [List.flatMap_cons, hxs, List.cons_append, firstOfEach, if_neg hfresh,
        firstOfEach_append_of_seen hskip, List.map_cons]
      congr 1
      apply ih
      · intro g' hg'
        exact hhead g' (List.mem_cons_of_mem g hg')
      · intro g' hg'
        exact hkey g' (List.mem_cons_of_mem g hg')
      · exact hnodup.2
      · -- A later group has a key of its own.
        intro g' hg'
        rw [hhd, List.mem_cons, not_or]
        refine ⟨?_, hseen g' (List.mem_cons_of_mem g hg')⟩
        intro heq
        exact hnodup.1 (heq ▸ List.mem_map_of_mem hg')

end FirstOfEach

section Positions

/-- Collecting with positions that the results carry compares position by position. -/
theorem filterMap_zipIdx_eq_iff
    {f : ℕ → α → Option γ}
    {position : γ → ℕ}
    {l l' : List α}
    (hposition : ∀ i a b, l[i]? = some a ∨ l'[i]? = some a → f i a = some b → position b = i) :
    l.zipIdx.filterMap (fun p => f p.2 p.1) = l'.zipIdx.filterMap (fun p => f p.2 p.1) ↔
      ∀ i : ℕ, l[i]?.bind (f i) = l'[i]?.bind (f i) := by
  have hmem : ∀ m : List α, (∀ i a b, m[i]? = some a → f i a = some b → position b = i) →
      ∀ (i : ℕ) b, m[i]?.bind (f i) = some b ↔
        b ∈ m.zipIdx.filterMap (fun p => f p.2 p.1) ∧ position b = i := by
    intro m hm i b
    rw [List.mem_filterMap]
    constructor
    · intro hb
      obtain ⟨a, ha, hfa⟩ := Option.bind_eq_some_iff.mp hb
      exact ⟨⟨(a, i), List.mem_zipIdx_iff_getElem?.mpr ha, hfa⟩, hm i a b ha hfa⟩
    · rintro ⟨⟨⟨a, j⟩, haj, hfa⟩, rfl⟩
      have ha : m[j]? = some a := List.mem_zipIdx_iff_getElem?.mp haj
      rw [hm j a b ha hfa, ha]
      exact hfa
  have hl := hmem l (fun i a b ha => hposition i a b (Or.inl ha))
  have hl' := hmem l' (fun i a b ha => hposition i a b (Or.inr ha))
  constructor
  · intro heq i
    refine Option.ext ?_
    intro b
    rw [hl, hl', heq]
  · intro hall
    have key : ∀ (m m' : List α) (n : ℕ), (∀ i, m[i]?.bind (f (n + i)) = m'[i]?.bind (f (n + i))) →
        (m.zipIdx n).filterMap (fun p => f p.2 p.1) =
          (m'.zipIdx n).filterMap (fun p => f p.2 p.1) := by
      intro m
      induction m with
      | nil =>
          intro m' n hm
          symm
          rw [List.zipIdx_nil, List.filterMap_nil, List.filterMap_eq_nil_iff]
          rintro ⟨a, j⟩ ha
          obtain ⟨hle, hget⟩ := List.mem_zipIdx_iff_le_and_getElem?_sub.mp ha
          have h := hm (j - n)
          rw [hget, Nat.add_sub_cancel' hle] at h
          exact h.symm
      | cons a m ih =>
          intro m' n hm
          cases m' with
          | nil =>
              rw [List.zipIdx_nil, List.filterMap_nil, List.filterMap_eq_nil_iff]
              rintro ⟨a', j⟩ ha
              obtain ⟨hle, hget⟩ := List.mem_zipIdx_iff_le_and_getElem?_sub.mp ha
              have h := hm (j - n)
              rw [hget, Nat.add_sub_cancel' hle] at h
              exact h
          | cons a' m' =>
              have hhead := hm 0
              have htail : ∀ i : ℕ, m[i]?.bind (f (n + 1 + i)) = m'[i]?.bind (f (n + 1 + i)) := by
                intro i
                have h := hm (i + 1)
                rwa [List.getElem?_cons_succ, List.getElem?_cons_succ, ← Nat.add_assoc,
                  Nat.add_right_comm] at h
              simp only [List.getElem?_cons_zero, Option.bind_some, Nat.add_zero] at hhead
              rw [List.zipIdx_cons, List.zipIdx_cons, List.filterMap_cons, List.filterMap_cons,
                hhead, ih m' (n + 1) htail]
    refine key l l' 0 ?_
    intro i
    rw [Nat.zero_add]
    exact hall i

end Positions
end OpenCsv
