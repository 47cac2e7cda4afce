import Mathlib.Data.List.Basic
import Mathlib.Tactic

/-!
# Chains of hashes

A state absorbs the elements of a list one by one.  If no two of the pairs that are
absorbed on the way come to the same state, the last state determines the first state and
the elements, among the lists of one length.

**Results.**
* `eq_of_absorbed`: two chains of one length that end alike are equal.
* `take_eq_of_absorbed`: two lists whose chains agree at some height agree up to it.
-/

namespace OpenCsv

universe u v

namespace HashChain

variable {σ : Type u}
variable {α : Type v}

section Chain

variable (absorb : σ → α → σ)

/-- The pairs that are absorbed on the way. -/
def messages : σ → List α → List (σ × α)
  | _, [] => []
  | s, a :: l => (s, a) :: messages (absorb s a) l

/-- No two of the pairs come to the same state. -/
def CollisionFree (ps : List (σ × α)) : Prop :=
  ∀ p ∈ ps, ∀ q ∈ ps, absorb p.1 p.2 = absorb q.1 q.2 → p = q

end Chain

variable {absorb : σ → α → σ}

theorem CollisionFree.mono
    {ps qs : List (σ × α)}
    (h : CollisionFree absorb ps)
    (hsub : ∀ p ∈ qs, p ∈ ps) :
    CollisionFree absorb qs :=
  fun p hp q hq heq => h p (hsub p hp) q (hsub q hq) heq

theorem messages_append
    (s : σ)
    (l l' : List α) :
    messages absorb s (l ++ l') = messages absorb s l ++ messages absorb (l.foldl absorb s) l' := by
  induction l generalizing s with
  | nil => rfl
  | cons a l ih =>
      rw [List.cons_append, messages, messages, ih]
      rfl

/-- The pairs of a shorter list are among those of the whole. -/
theorem mem_messages_of_take
    {s : σ}
    {l : List α}
    {n : ℕ}
    {p : σ × α}
    (h : p ∈ messages absorb s (l.take n)) :
    p ∈ messages absorb s l := by
  rw [← List.take_append_drop n l, messages_append]
  exact List.mem_append_left _ h

/-- The last state determines the chain. -/
theorem eq_of_absorbed
    {s s' : σ}
    {l l' : List α}
    (hlen : l.length = l'.length)
    (hfree : CollisionFree absorb (messages absorb s l ++ messages absorb s' l'))
    (h : l.foldl absorb s = l'.foldl absorb s') :
    s = s' ∧ l = l' := by
  induction l generalizing s s' l' with
  | nil =>
      obtain rfl := List.length_eq_zero_iff.mp hlen.symm
      exact ⟨h, rfl⟩
  | cons a l ih =>
      obtain ⟨a', l', rfl⟩ := List.exists_cons_of_length_eq_add_one hlen.symm
      have htails : CollisionFree absorb
          (messages absorb (absorb s a) l ++ messages absorb (absorb s' a') l') := by
        refine hfree.mono (fun p hp => ?_)
        rcases List.mem_append.mp hp with hp | hp
        · exact List.mem_append_left _ (List.mem_cons_of_mem _ hp)
        · exact List.mem_append_right _ (List.mem_cons_of_mem _ hp)
      obtain ⟨hstates, rfl⟩ := ih (Nat.succ.inj hlen) htails h
      have hheads : (s, a) = (s', a') :=
        hfree _ (List.mem_append_left _ List.mem_cons_self) _
          (List.mem_append_right _ List.mem_cons_self) hstates
      obtain ⟨rfl, rfl⟩ := Prod.mk.inj hheads
      exact ⟨rfl, rfl⟩

/-- Where two chains over long enough lists meet, the lists agree below. -/
theorem take_eq_of_absorbed
    {s : σ}
    {l l' : List α}
    {n : ℕ}
    (hlen : n ≤ l.length)
    (hlen' : n ≤ l'.length)
    (hfree : CollisionFree absorb (messages absorb s l ++ messages absorb s l'))
    (h : (l.take n).foldl absorb s = (l'.take n).foldl absorb s) :
    l.take n = l'.take n := by
  have hlengths : (l.take n).length = (l'.take n).length := by
    rw [List.length_take_of_le hlen, List.length_take_of_le hlen']
  have hfree' : CollisionFree absorb
      (messages absorb s (l.take n) ++ messages absorb s (l'.take n)) := by
    refine hfree.mono (fun p hp => ?_)
    rcases List.mem_append.mp hp with hp | hp
    · exact List.mem_append_left _ (mem_messages_of_take hp)
    · exact List.mem_append_right _ (mem_messages_of_take hp)
  exact (eq_of_absorbed hlengths hfree' h).2

end HashChain

end OpenCsv
