import Mathlib.Data.List.Basic
import Mathlib.Tactic.Common

/-!
# Linear registers

A register reads symbols one after another: a linear map moves its state, and the symbol is
added.  What a run adds to the state does not depend on where it started.

**Result.** A run splits into the run on silence and the run from zero (`run_split`).
-/

namespace OpenCsv

namespace LinearStep

variable {S : Type*}

/-- Read symbols from a state. -/
def run (add : S → S → S) (move : S → S) (s : S) (symbols : List S) : S :=
  symbols.foldl (fun s v => add (move s) v) s

variable {add : S → S → S}
variable {move : S → S}
variable {zero : S}
variable [Std.Associative add]

/-- The run from a sum is the sum of a silent run and a run. -/
theorem run_add
    (hzero : ∀ s, add s zero = s)
    (hmove : ∀ s t, move (add s t) = add (move s) (move t))
    (s t : S)
    (symbols : List S) :
    run add move (add s t) symbols =
      add (run add move s (List.replicate symbols.length zero)) (run add move t symbols) := by
  induction symbols generalizing s t with
  | nil =>
      rfl
  | cons v symbols ih =>
      have hstep : add (move (add s t)) v = add (move s) (add (move t) v) := by
        rw [hmove]
        exact Std.Associative.assoc _ _ _
      show run add move (add (move (add s t)) v) symbols =
        add (run add move (add (move s) zero) (List.replicate symbols.length zero))
          (run add move (add (move t) v) symbols)
      rw [hstep, ih, hzero]

/-- A run is the silent run and what the symbols add to zero. -/
theorem run_split
    (hzero : ∀ s, add s zero = s)
    (hmove : ∀ s t, move (add s t) = add (move s) (move t))
    (s : S)
    (symbols : List S) :
    run add move s symbols =
      add (run add move s (List.replicate symbols.length zero)) (run add move zero symbols) := by
  have h := run_add hzero hmove s zero symbols
  rwa [hzero] at h

end LinearStep

end OpenCsv
