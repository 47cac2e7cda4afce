import Mathlib.Data.List.Infix
import Mathlib.Data.Nat.Log
import Mathlib.Tactic

/-!
# Trees that pair an odd last node with itself

A list of leaves is reduced level by level; each level combines neighbours, and a last
node without a neighbour is combined with itself.  The reduction ends in one node, the
root.

The duplication makes lists of different lengths share a root.  What the root does
determine, when no two of the combined pairs collide, is the set of leaves and their
order up to repetitions at the end.

**Results.**
* `prefix_of_root`: of two lists that come to one root in the same number of levels, one
  is a prefix of the other, and they have the same members.
* `eq_of_root`: without repetitions they are equal.
* `mem_messages_of_root`: if one list needs more levels, every leaf of the other is
  combined from a pair.
-/

namespace OpenCsv

universe u

namespace Merkle

variable {α : Type u}

section Levels

variable (combine : α → α → α)

/-- The pairs of a level; an odd last node is paired with itself. -/
def pairs : List α → List (α × α)
  | a :: b :: rest => (a, b) :: pairs rest
  | [a] => [(a, a)]
  | [] => []

/-- One level up. -/
def level (l : List α) : List α :=
  (pairs l).map (fun p => combine p.1 p.2)

/-- Some levels up. -/
def levels : ℕ → List α → List α
  | 0, l => l
  | n + 1, l => levels n (level combine l)

/-- The pairs that are combined on the way. -/
def messages : ℕ → List α → List (α × α)
  | 0, _ => []
  | n + 1, l => pairs l ++ messages n (level combine l)

/-- The number of levels to a single node. -/
def height (l : List α) : ℕ :=
  Nat.clog 2 l.length

/-- No two of the pairs are combined to the same node. -/
def CollisionFree (ps : List (α × α)) : Prop :=
  ∀ p ∈ ps, ∀ q ∈ ps, combine p.1 p.2 = combine q.1 q.2 → p = q

end Levels

section Pairs

/-- The members of a list are the components of its pairs. -/
theorem mem_iff_mem_pairs
    {l : List α}
    {a : α} :
    a ∈ l ↔ ∃ p ∈ pairs l, a = p.1 ∨ a = p.2 := by
  induction l using pairs.induct with
  | case1 x y rest ih =>
      simp only [pairs, List.mem_cons, ih, exists_eq_or_imp, or_assoc]
  | case2 x =>
      simp [pairs]
  | case3 =>
      simp [pairs]

theorem length_pairs
    (l : List α) :
    (pairs l).length = (l.length + 1) / 2 := by
  induction l using pairs.induct with
  | case1 x y rest ih =>
      rw [pairs, List.length_cons, ih]
      simp only [List.length_cons]
      omega
  | case2 x =>
      simp [pairs]
  | case3 =>
      simp [pairs]

/-- Lists are comparable when the pairs of one start the pairs of the other. -/
theorem prefix_of_pairs
    {l l' : List α}
    (h : pairs l <+: pairs l') :
    l <+: l' ∨ l' <+: l := by
  induction l using pairs.induct generalizing l' with
  | case1 x y rest ih =>
      match l' with
      | [] =>
          exact Or.inr List.nil_prefix
      | [a] =>
          obtain ⟨heq, -⟩ := List.cons_prefix_cons.mp h
          obtain ⟨rfl, -⟩ := Prod.mk.inj heq
          exact Or.inr (List.cons_prefix_cons.mpr ⟨rfl, List.nil_prefix⟩)
      | a :: b :: rest' =>
          obtain ⟨heq, hrest⟩ := List.cons_prefix_cons.mp h
          obtain ⟨rfl, rfl⟩ := Prod.mk.inj heq
          rcases ih hrest with hle | hge
          · left
            simpa [List.cons_prefix_cons] using hle
          · right
            simpa [List.cons_prefix_cons] using hge
  | case2 x =>
      match l' with
      | [] =>
          exact Or.inr List.nil_prefix
      | [a] =>
          obtain ⟨heq, -⟩ := List.cons_prefix_cons.mp h
          obtain ⟨rfl, -⟩ := Prod.mk.inj heq
          exact Or.inl List.prefix_rfl
      | a :: b :: rest' =>
          obtain ⟨heq, -⟩ := List.cons_prefix_cons.mp h
          obtain ⟨rfl, -⟩ := Prod.mk.inj heq
          exact Or.inl (List.cons_prefix_cons.mpr ⟨rfl, List.nil_prefix⟩)
  | case3 =>
      exact Or.inl List.nil_prefix

end Pairs

section Roots

variable {combine : α → α → α}

theorem length_level
    (l : List α) :
    (level combine l).length = (l.length + 1) / 2 := by
  rw [level, List.length_map, length_pairs]

theorem mem_level
    {l : List α}
    {a : α} :
    a ∈ level combine l ↔ ∃ p ∈ pairs l, combine p.1 p.2 = a :=
  List.mem_map

theorem CollisionFree.mono
    {ps qs : List (α × α)}
    (h : CollisionFree combine ps)
    (hsub : ∀ p ∈ qs, p ∈ ps) :
    CollisionFree combine qs :=
  fun p hp q hq heq => h p (hsub p hp) q (hsub q hq) heq

/-- A level determines the pairs it was combined from. -/
theorem prefix_pairs_of_prefix_level
    {l l' : List α}
    (hfree : CollisionFree combine (pairs l ++ pairs l'))
    (h : level combine l <+: level combine l') :
    pairs l <+: pairs l' := by
  have key : ∀ ps qs : List (α × α), (∀ p ∈ ps, ∀ q ∈ qs,
      combine p.1 p.2 = combine q.1 q.2 → p = q) →
      ps.map (fun p => combine p.1 p.2) <+: qs.map (fun p => combine p.1 p.2) → ps <+: qs := by
    intro ps
    induction ps with
    | nil =>
        intro qs _ _
        exact List.nil_prefix
    | cons p ps ih =>
        intro qs hinj hpre
        cases qs with
        | nil =>
            simp at hpre
        | cons q qs =>
            obtain ⟨heq, hrest⟩ := List.cons_prefix_cons.mp hpre
            refine List.cons_prefix_cons.mpr ⟨?_, ?_⟩
            · exact hinj p List.mem_cons_self q List.mem_cons_self heq
            · refine ih qs ?_ hrest
              intro p' hp' q' hq'
              exact hinj p' (List.mem_cons_of_mem p hp') q' (List.mem_cons_of_mem q hq')
  refine key (pairs l) (pairs l') ?_ h
  intro p hp q hq
  exact hfree p (List.mem_append_left _ hp) q (List.mem_append_right _ hq)

/-- Lists whose levels are comparable and have the same members are so themselves. -/
theorem comparable_of_level
    {l l' : List α}
    (hfree : CollisionFree combine (pairs l ++ pairs l'))
    (hpre : level combine l <+: level combine l' ∨ level combine l' <+: level combine l)
    (hmem : ∀ a, a ∈ level combine l ↔ a ∈ level combine l') :
    (l <+: l' ∨ l' <+: l) ∧ ∀ a, a ∈ l ↔ a ∈ l' := by
  have hpairs : ∀ p, p ∈ pairs l ↔ p ∈ pairs l' := by
    intro p
    constructor
    · intro hp
      obtain ⟨q, hq, heq⟩ := mem_level.mp ((hmem _).mp (mem_level.mpr ⟨p, hp, rfl⟩))
      rwa [hfree p (List.mem_append_left _ hp) q (List.mem_append_right _ hq) heq.symm]
    · intro hp
      obtain ⟨q, hq, heq⟩ := mem_level.mp ((hmem _).mpr (mem_level.mpr ⟨p, hp, rfl⟩))
      rwa [hfree p (List.mem_append_right _ hp) q (List.mem_append_left _ hq) heq.symm]
  have hfree' : CollisionFree combine (pairs l' ++ pairs l) := by
    refine hfree.mono ?_
    intro p hp
    rw [List.mem_append] at hp ⊢
    exact hp.symm
  constructor
  · rcases hpre with hle | hge
    · exact prefix_of_pairs (prefix_pairs_of_prefix_level hfree hle)
    · exact (prefix_of_pairs (prefix_pairs_of_prefix_level hfree' hge)).symm
  · intro a
    rw [mem_iff_mem_pairs, mem_iff_mem_pairs]
    simp only [hpairs]

/-- What one root determines of the lists that come to it in the same number of levels. -/
theorem prefix_of_root
    (n : ℕ)
    {l l' : List α}
    (hfree : CollisionFree combine (messages combine n l ++ messages combine n l'))
    (h : levels combine n l = levels combine n l') :
    (l <+: l' ∨ l' <+: l) ∧ ∀ a, a ∈ l ↔ a ∈ l' := by
  induction n generalizing l l' with
  | zero =>
      obtain rfl : l = l' := h
      exact ⟨Or.inl List.prefix_rfl, fun _ => Iff.rfl⟩
  | succ n ih =>
      have hlower : CollisionFree combine (pairs l ++ pairs l') := by
        refine hfree.mono ?_
        intro p hp
        simp only [messages, List.mem_append] at hp ⊢
        tauto
      have hupper : CollisionFree combine
          (messages combine n (level combine l) ++ messages combine n (level combine l')) := by
        refine hfree.mono ?_
        intro p hp
        simp only [messages, List.mem_append] at hp ⊢
        tauto
      obtain ⟨hpre, hmem⟩ := ih hupper h
      exact comparable_of_level hlower hpre hmem

/-- A prefix with all members of a list without repetitions is the list. -/
theorem eq_of_prefix_of_nodup
    {l l' : List α}
    (hpre : l <+: l')
    (hmem : ∀ a ∈ l', a ∈ l)
    (hnodup : l'.Nodup) :
    l = l' := by
  obtain ⟨rest, rfl⟩ := hpre
  cases rest with
  | nil =>
      simp
  | cons a rest =>
      have ha := hmem a (List.mem_append_right _ List.mem_cons_self)
      exact absurd rfl ((List.nodup_append.mp hnodup).2.2 a ha a List.mem_cons_self)

/-- Lists without repetitions are determined by the root and the number of levels. -/
theorem eq_of_root
    (n : ℕ)
    {l l' : List α}
    (hfree : CollisionFree combine (messages combine n l ++ messages combine n l'))
    (h : levels combine n l = levels combine n l')
    (hl : l.Nodup)
    (hl' : l'.Nodup) :
    l = l' := by
  obtain ⟨hpre, hmem⟩ := prefix_of_root n hfree h
  rcases hpre with hle | hge
  · exact eq_of_prefix_of_nodup hle (fun a ha => (hmem a).mpr ha) hl'
  · exact (eq_of_prefix_of_nodup hge (fun a ha => (hmem a).mp ha) hl).symm

theorem levels_add
    (k n : ℕ)
    (l : List α) :
    levels combine (k + n) l = levels combine n (levels combine k l) := by
  induction k generalizing l with
  | zero =>
      rw [Nat.zero_add]
      rfl
  | succ k ih =>
      rw [Nat.succ_add_eq_add_succ, Nat.add_succ]
      exact ih (level combine l)

theorem messages_add
    (k n : ℕ)
    (l : List α) :
    messages combine (k + n) l =
      messages combine k l ++ messages combine n (levels combine k l) := by
  induction k generalizing l with
  | zero =>
      rw [Nat.zero_add]
      rfl
  | succ k ih =>
      rw [Nat.succ_add_eq_add_succ, Nat.add_succ, messages, ih, messages, List.append_assoc]
      rfl

/-- Above the leaves every node is combined from a pair. -/
theorem mem_levels_succ
    (k : ℕ)
    {l : List α}
    {a : α}
    (ha : a ∈ levels combine (k + 1) l) :
    ∃ p ∈ messages combine (k + 1) l, combine p.1 p.2 = a := by
  rw [levels_add] at ha
  obtain ⟨p, hp, heq⟩ := mem_level.mp ha
  refine ⟨p, ?_, heq⟩
  rw [messages_add]
  exact List.mem_append_right _ (List.mem_append_left _ hp)

/-- Leaves under a root that another list reaches later are nodes of that list. -/
theorem mem_messages_of_root
    (n k : ℕ)
    {l l' : List α}
    (hfree : CollisionFree combine
      (messages combine n l ++ messages combine (k + 1 + n) l'))
    (h : levels combine n l = levels combine (k + 1 + n) l')
    {a : α}
    (ha : a ∈ l) :
    ∃ p ∈ messages combine (k + 1 + n) l', combine p.1 p.2 = a := by
  rw [levels_add] at h
  rw [messages_add] at hfree ⊢
  have hfree' : CollisionFree combine (messages combine n l ++
      messages combine n (levels combine (k + 1) l')) := by
    refine hfree.mono ?_
    intro p hp
    simp only [List.mem_append] at hp ⊢
    tauto
  obtain ⟨-, hmem⟩ := prefix_of_root n hfree' h
  obtain ⟨p, hp, heq⟩ := mem_levels_succ k ((hmem a).mp ha)
  exact ⟨p, List.mem_append_left _ hp, heq⟩

end Roots

section Height

/-- A level above at least two nodes lowers the height by one. -/
theorem height_level
    {combine : α → α → α}
    {l : List α}
    (h : 2 ≤ l.length) :
    height l = height (level combine l) + 1 := by
  rw [height, height, length_level, Nat.clog_of_two_le (by omega) h]
  have hceil : l.length + 2 - 1 = l.length + 1 := by
    omega
  rw [hceil]

@[simp] theorem height_singleton
    (a : α) :
    height [a] = 0 := by
  simp [height]

end Height

end Merkle

end OpenCsv
