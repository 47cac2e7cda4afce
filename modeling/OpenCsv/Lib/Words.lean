import Mathlib.Tactic

/-!
# Lines of words

A text of lines, each of them words with a separator between them: it is split into its
lines and these into words.  A cut through the text leaves the lines before it whole and
part of one line; a cut through a line leaves the words before it whole and part of one
word.

**Results.** `linesOf_unlines` and `words_joinWords` read back what was written.
`exists_of_prefix_unlines` and `words_of_prefix` say what a cut leaves.
-/

namespace OpenCsv

variable {α : Type*}

section Splitting

/-- The pieces between separators, without empty ones. -/
def words (sep : α → Bool) (l : List α) : List (List α) :=
  (l.splitOnP sep).filter (fun w => !w.isEmpty)

/-- The pieces that end at a mark; the last one may lack it. -/
def linesOf [DecidableEq α] (mark : α) (l : List α) : List (List α) :=
  if (l.splitOn mark).getLast? = some [] then (l.splitOn mark).dropLast else l.splitOn mark

/-- Words with a separator between them. -/
def joinWords (space : α) : List (List α) → List α
  | [] => []
  | [w] => w
  | w :: ws => w ++ space :: joinWords space ws

/-- Lines, each with its mark. -/
def unlines (mark : α) (ls : List (List α)) : List α :=
  ls.flatMap (fun l => l ++ [mark])

/-- A prefix of two pieces ends in the first one or goes on into the second. -/
theorem prefix_left_or_right
    {p l l' : List α}
    (h : p <+: l ++ l') :
    p <+: l ∨ ∃ q, p = l ++ q ∧ q <+: l' := by
  rcases List.prefix_or_prefix_of_prefix h (List.prefix_append l l') with hle | ⟨q, rfl⟩
  · exact Or.inl hle
  · exact Or.inr ⟨q, rfl, (List.prefix_append_right_inj l).mp h⟩

end Splitting

section Words

variable {sep : α → Bool}

/-- A word: not empty, and without a separator. -/
def IsWord (sep : α → Bool) (w : List α) : Prop :=
  w ≠ [] ∧ ∀ a ∈ w, sep a = false

@[simp] theorem words_nil :
    words sep [] = [] := by
  simp [words]

theorem words_of_isWord
    {w : List α}
    (h : IsWord sep w) :
    words sep w = [w] := by
  rw [words, List.splitOnP_eq_singleton h.2]
  simp [h.1]

/-- A word ends at the first separator. -/
theorem words_append_cons
    {w : List α}
    (h : IsWord sep w)
    {space : α}
    (hspace : sep space = true)
    (rest : List α) :
    words sep (w ++ space :: rest) = w :: words sep rest := by
  rw [words, List.splitOnP_append_cons_of_forall_mem h.2 space hspace, List.filter_cons_of_pos]
  · rfl
  · simp [h.1]

theorem joinWords_cons
    {space : α}
    {w : List α}
    {ws : List (List α)}
    (h : ws ≠ []) :
    joinWords space (w :: ws) = w ++ space :: joinWords space ws := by
  cases ws with
  | nil => exact absurd rfl h
  | cons w' ws => rfl

/-- Joined words are read back. -/
theorem words_joinWords
    {space : α}
    (hspace : sep space = true)
    {ws : List (List α)}
    (h : ∀ w ∈ ws, IsWord sep w) :
    words sep (joinWords space ws) = ws := by
  induction ws with
  | nil =>
      exact words_nil
  | cons w ws ih =>
      have hw := h w List.mem_cons_self
      by_cases hws : ws = []
      · rw [hws]
        exact words_of_isWord hw
      · rw [joinWords_cons hws, words_append_cons hw hspace,
          ih (fun w' hw' => h w' (List.mem_cons_of_mem w hw'))]

/-- Part of a joined line: some whole words, and perhaps part of the next one. -/
theorem words_of_prefix
    {space : α}
    (hspace : sep space = true)
    {ws : List (List α)}
    (h : ∀ w ∈ ws, IsWord sep w)
    {p : List α}
    (hp : p <+: joinWords space ws)
    (hne : p ≠ joinWords space ws) :
    (∃ i < ws.length, words sep p = ws.take i) ∨
      ∃ i w part, ws[i]? = some w ∧ part <+: w ∧ part ≠ [] ∧ part ≠ w ∧
        words sep p = ws.take i ++ [part] := by
  induction ws generalizing p with
  | nil =>
      exact absurd (List.prefix_nil.mp hp) hne
  | cons w ws ih =>
      have hw := h w List.mem_cons_self
      -- A cut inside the first word.
      have hfirst : ∀ part, part <+: w → part ≠ w → p = part →
          (∃ i < (w :: ws).length, words sep p = (w :: ws).take i) ∨
            ∃ i w' part, (w :: ws)[i]? = some w' ∧ part <+: w' ∧ part ≠ [] ∧ part ≠ w' ∧
              words sep p = (w :: ws).take i ++ [part] := by
        rintro part hpart hother rfl
        by_cases hnil : p = []
        · refine Or.inl ⟨0, by simp, ?_⟩
          rw [hnil]
          exact words_nil
        · refine Or.inr ⟨0, w, p, rfl, hpart, hnil, hother, ?_⟩
          refine words_of_isWord ⟨hnil, ?_⟩
          intro a ha
          exact hw.2 a (hpart.subset ha)
      by_cases hws : ws = []
      · subst hws
        exact hfirst p hp hne rfl
      · rw [joinWords_cons hws] at hp hne
        rcases prefix_left_or_right hp with hin | ⟨q, rfl, hq⟩
        · by_cases hwhole : p = w
          · refine Or.inl ⟨1, ?_, ?_⟩
            · have hlength := List.length_pos_of_ne_nil hws
              rw [List.length_cons]
              omega
            · rw [hwhole]
              exact words_of_isWord hw
          · exact hfirst p hin hwhole rfl
        · cases q with
          | nil =>
              refine Or.inl ⟨1, ?_, ?_⟩
              · have hlength := List.length_pos_of_ne_nil hws
                rw [List.length_cons]
                omega
              · rw [List.append_nil]
                exact words_of_isWord hw
          | cons a q =>
              obtain ⟨rfl, hq⟩ := List.cons_prefix_cons.mp hq
              have hq' : q ≠ joinWords a ws := by
                intro heq
                exact hne (by rw [heq])
              rw [words_append_cons hw hspace]
              rcases ih (fun w' hw' => h w' (List.mem_cons_of_mem w hw')) hq hq' with
                ⟨i, hi, hwords⟩ | ⟨i, w', part, hget, hpart, hnil, hother, hwords⟩
              · refine Or.inl ⟨i + 1, ?_, ?_⟩
                · rw [List.length_cons]
                  omega
                · rw [hwords, List.take_succ_cons]
              · refine Or.inr ⟨i + 1, w', part, hget, hpart, hnil, hother, ?_⟩
                rw [hwords, List.take_succ_cons, List.cons_append]

/-- A joined line holds what its words hold, and spaces. -/
theorem mem_joinWords
    {space a : α}
    {ws : List (List α)}
    (h : a ∈ joinWords space ws) :
    a = space ∨ ∃ w ∈ ws, a ∈ w := by
  induction ws with
  | nil =>
      cases h
  | cons w ws ih =>
      by_cases hws : ws = []
      · rw [hws] at h
        exact Or.inr ⟨w, List.mem_cons_self, h⟩
      · rw [joinWords_cons hws] at h
        rcases List.mem_append.mp h with hin | hin
        · exact Or.inr ⟨w, List.mem_cons_self, hin⟩
        · rcases List.mem_cons.mp hin with rfl | hin
          · exact Or.inl rfl
          · rcases ih hin with hspace | ⟨w', hw', ha⟩
            · exact Or.inl hspace
            · exact Or.inr ⟨w', List.mem_cons_of_mem w hw', ha⟩

/-- A text that does not start with a separator has a word. -/
theorem words_cons_ne_nil
    {a : α}
    {l : List α}
    (h : sep a = false) :
    words sep (a :: l) ≠ [] := by
  rw [words, List.splitOnP_cons_eq_if_modifyHead, if_neg (by simp [h])]
  have hne := List.splitOnP_ne_nil sep l
  cases hsplit : l.splitOnP sep with
  | nil => exact absurd hsplit hne
  | cons w ws => simp

end Words

section Lines

variable [DecidableEq α]
variable {mark : α}

@[simp] theorem linesOf_nil :
    linesOf mark ([] : List α) = [] := by
  simp [linesOf]

/-- A text without a mark is one line. -/
theorem linesOf_of_not_mem
    {l : List α}
    (h : mark ∉ l)
    (hne : l ≠ []) :
    linesOf mark l = [l] := by
  rw [linesOf, List.splitOn_eq_singleton h, if_neg]
  simpa using hne

/-- A line ends at the first mark. -/
theorem linesOf_append_cons
    {l : List α}
    (h : mark ∉ l)
    (rest : List α) :
    linesOf mark (l ++ mark :: rest) = l :: linesOf mark rest := by
  unfold linesOf
  rw [List.splitOn_append_cons_self_of_not_mem h]
  have hrest : rest.splitOn mark ≠ [] := List.splitOn_ne_nil mark rest
  rw [List.getLast?_cons_of_ne_nil hrest, List.dropLast_cons_of_ne_nil hrest]
  split_ifs
  · rfl
  · rfl

/-- Lines are read back, whatever text without a mark comes after them. -/
theorem linesOf_unlines
    {ls : List (List α)}
    (h : ∀ l ∈ ls, mark ∉ l)
    (rest : List α) :
    linesOf mark (unlines mark ls ++ rest) = ls ++ linesOf mark rest := by
  induction ls with
  | nil =>
      rfl
  | cons l ls ih =>
      have hl := h l List.mem_cons_self
      rw [unlines, List.flatMap_cons, List.append_assoc, List.append_assoc, List.singleton_append,
        linesOf_append_cons hl]
      show l :: linesOf mark (unlines mark ls ++ rest) = _
      rw [ih (fun l' hl' => h l' (List.mem_cons_of_mem l hl')), List.cons_append]

end Lines

section Cuts

variable {mark : α}

/-- Part of a text of lines: some whole lines, and part of the next one. -/
theorem exists_of_prefix_unlines
    {ls : List (List α)}
    {p : List α}
    (hp : p <+: unlines mark ls)
    (hne : p ≠ unlines mark ls) :
    ∃ m line part, ls[m]? = some line ∧ part <+: line ∧
      p = unlines mark (ls.take m) ++ part := by
  induction ls generalizing p with
  | nil =>
      exact absurd (List.prefix_nil.mp hp) hne
  | cons l ls ih =>
      have hsplit : unlines mark (l :: ls) = (l ++ [mark]) ++ unlines mark ls := rfl
      rw [hsplit] at hp hne
      rcases prefix_left_or_right hp with hin | ⟨q, rfl, hq⟩
      · rcases prefix_left_or_right hin with hpart | ⟨q, rfl, hq⟩
        · exact ⟨0, l, p, rfl, hpart, rfl⟩
        · cases q with
          | nil =>
              exact ⟨0, l, l, rfl, List.prefix_rfl, by simp [unlines]⟩
          | cons a q =>
              obtain ⟨rfl, hnil⟩ := List.cons_prefix_cons.mp hq
              obtain rfl := List.prefix_nil.mp hnil
              cases ls with
              | nil => exact absurd (by simp [unlines]) hne
              | cons l' ls =>
                  exact ⟨1, l', [], rfl, List.nil_prefix, by simp [unlines]⟩
      · have hq' : q ≠ unlines mark ls := by
          intro heq
          exact hne (by rw [heq])
        obtain ⟨m, line, part, hget, hpart, rfl⟩ := ih hq hq'
        exact ⟨m + 1, line, part, hget, hpart, by simp [unlines]⟩

end Cuts

end OpenCsv
