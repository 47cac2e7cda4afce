import Mathlib.Data.List.Basic
import Mathlib.Tactic

/-!
# Wide integers in 64-bit limbs

Unsigned integers held as `u64` limbs, least significant first, with the loops that
compare, scale, divide and subtract them limb by limb.  `limbNat` is the number that the
limbs denote; every operation is described by what it does to that number.

**Results.**
* `limbsGe_iff`: the comparison from the most significant limb down is the order of
  the numbers.
* `limbNat_mulLimbs`, `limbNat_divLimbs`: a factor or divisor of one limb is exact.
* `divideBits_eq`: binary long division is division.
-/

namespace OpenCsv

/-- The number that limbs denote. -/
def limbNat : List UInt64 → ℕ
  | [] => 0
  | l :: ls => l.toNat + 2 ^ 64 * limbNat ls

@[simp] theorem limbNat_nil :
    limbNat [] = 0 :=
  rfl

@[simp] theorem limbNat_cons
    (l : UInt64)
    (ls : List UInt64) :
    limbNat (l :: ls) = l.toNat + 2 ^ 64 * limbNat ls :=
  rfl

theorem limbNat_lt
    (ls : List UInt64) :
    limbNat ls < 2 ^ (64 * ls.length) := by
  induction ls with
  | nil =>
      simp
  | cons l ls ih =>
      have hl := l.toNat_lt
      rw [limbNat_cons, List.length_cons, Nat.mul_succ, pow_add]
      omega

/-- Limbs are zero when every one is. -/
theorem limbNat_eq_zero_iff
    {ls : List UInt64} :
    limbNat ls = 0 ↔ ls.all (· = 0) = true := by
  induction ls with
  | nil =>
      simp
  | cons l ls ih =>
      rw [List.all_cons, Bool.and_eq_true, ← ih, decide_eq_true_eq, limbNat_cons,
        ← UInt64.toNat_inj]
      have hzero : (0 : UInt64).toNat = 0 := rfl
      omega

theorem limbNat_append
    (ls ms : List UInt64) :
    limbNat (ls ++ ms) = limbNat ls + 2 ^ (64 * ls.length) * limbNat ms := by
  induction ls with
  | nil =>
      simp
  | cons l ls ih =>
      rw [List.cons_append, limbNat_cons, ih, limbNat_cons, List.length_cons, Nat.mul_succ,
        pow_add]
      ring

theorem limbNat_injective
    {ls ms : List UInt64}
    (hlen : ls.length = ms.length)
    (h : limbNat ls = limbNat ms) :
    ls = ms := by
  induction ls generalizing ms with
  | nil =>
      exact (List.length_eq_zero_iff.mp hlen.symm).symm
  | cons l ls ih =>
      cases ms with
      | nil => cases hlen
      | cons m ms =>
          have hl := l.toNat_lt
          have hm := m.toNat_lt
          rw [limbNat_cons, limbNat_cons] at h
          have hlow : l.toNat = m.toNat := by omega
          have hhigh : limbNat ls = limbNat ms := by omega
          rw [UInt64.toNat_inj.mp hlow, ih (Nat.succ.inj hlen) hhigh]

section Comparing

/-- `a >= b`, decided at the most significant limb where they differ. -/
def limbsGe (a b : List UInt64) : Bool :=
  match (a.zip b).reverse.find? (fun p => p.1 ≠ p.2) with
  | some p => p.2 < p.1
  | none => true

theorem limbsGe_cons
    (x y : UInt64)
    (a b : List UInt64) :
    limbsGe (x :: a) (y :: b) =
      if (a.zip b).any (fun p => p.1 ≠ p.2) then limbsGe a b else decide (y ≤ x) := by
  have hfind : ((x :: a).zip (y :: b)).reverse.find? (fun p => p.1 ≠ p.2) =
      ((a.zip b).reverse.find? (fun p => p.1 ≠ p.2)).or
        (if x ≠ y then some (x, y) else none) := by
    rw [List.zip_cons_cons, List.reverse_cons, List.find?_append]
    by_cases hxy : x = y <;> simp [hxy]
  rw [limbsGe, hfind]
  cases hrest : (a.zip b).reverse.find? (fun p => p.1 ≠ p.2) with
  | some p =>
      have hany : (a.zip b).any (fun p => p.1 ≠ p.2) = true := by
        have hmem := List.mem_of_find?_eq_some hrest
        have hne := List.find?_some hrest
        exact List.any_eq_true.mpr ⟨p, List.mem_reverse.mp hmem, hne⟩
      rw [hany, if_pos rfl, limbsGe, hrest]
      rfl
  | none =>
      have hany : (a.zip b).any (fun p => p.1 ≠ p.2) = false := by
        rw [List.find?_eq_none] at hrest
        rw [List.any_eq_false]
        exact fun p hp => hrest p (List.mem_reverse.mpr hp)
      rw [hany, if_neg Bool.false_ne_true]
      by_cases hxy : x = y
      · simp [hxy]
      · have hlt : y < x ↔ y ≤ x := by
          have hne : y.toNat ≠ x.toNat := fun h => hxy (UInt64.toNat_inj.mp h).symm
          rw [UInt64.lt_iff_toNat_lt, UInt64.le_iff_toNat_le]
          omega
        simp [hxy, hlt]

theorem limbsGe_iff
    {a b : List UInt64}
    (hlen : a.length = b.length) :
    limbsGe a b = true ↔ limbNat b ≤ limbNat a := by
  induction a generalizing b with
  | nil =>
      obtain rfl := List.length_eq_zero_iff.mp hlen.symm
      simp [limbsGe]
  | cons x a ih =>
      cases b with
      | nil => cases hlen
      | cons y b =>
          have hlen' : a.length = b.length := Nat.succ.inj hlen
          have hx := x.toNat_lt
          have hy := y.toNat_lt
          rw [limbsGe_cons, limbNat_cons, limbNat_cons]
          by_cases hab : a = b
          · subst hab
            have hany : (a.zip a).any (fun p => p.1 ≠ p.2) = false := by
              rw [List.any_eq_false]
              intro p hp
              obtain ⟨i, hi, rfl⟩ := List.mem_iff_getElem.mp hp
              simp
            rw [hany, if_neg Bool.false_ne_true, decide_eq_true_eq, UInt64.le_iff_toNat_le]
            omega
          · have hany : (a.zip b).any (fun p => p.1 ≠ p.2) = true := by
              by_contra hnone
              refine hab (List.ext_getElem hlen' ?_)
              intro i hi hi'
              by_contra hne
              refine hnone (List.any_eq_true.mpr ⟨(a[i], b[i]), ?_, by simpa using hne⟩)
              have hzip : i < (a.zip b).length := by simp [hi, hi']
              exact List.mem_iff_getElem.mpr ⟨i, hzip, by simp⟩
            have hne : limbNat a ≠ limbNat b := fun h => hab (limbNat_injective hlen' h)
            rw [hany, if_pos rfl, ih hlen']
            omega

end Comparing

section Scaling

/-- Limbs times a word, from the lowest limb up; the last limb is the carry. -/
def mulLimbs (b : UInt64) : (carry : ℕ) → List UInt64 → List UInt64
  | carry, [] => [UInt64.ofNat carry]
  | carry, a :: as =>
      let acc := a.toNat * b.toNat + carry
      UInt64.ofNat acc :: mulLimbs b (acc / 2 ^ 64) as

@[simp] theorem mulLimbs_length
    (b : UInt64)
    (carry : ℕ)
    (as : List UInt64) :
    (mulLimbs b carry as).length = as.length + 1 := by
  induction as generalizing carry with
  | nil =>
      rfl
  | cons a as ih =>
      simp [mulLimbs, ih]

theorem limbNat_mulLimbs
    (b : UInt64)
    {carry : ℕ}
    (hcarry : carry < 2 ^ 64)
    (as : List UInt64) :
    limbNat (mulLimbs b carry as) = limbNat as * b.toNat + carry := by
  induction as generalizing carry with
  | nil =>
      simp only [mulLimbs, limbNat_cons, limbNat_nil, UInt64.toNat_ofNat']
      omega
  | cons a as ih =>
      have ha := a.toNat_lt
      have hb := b.toNat_lt
      -- The product of two limbs leaves room for a carry of one limb.
      have hacc : a.toNat * b.toNat + carry < 2 ^ 64 * 2 ^ 64 := by
        have hmul : a.toNat * b.toNat ≤ (2 ^ 64 - 1) * (2 ^ 64 - 1) :=
          Nat.mul_le_mul (by omega) (by omega)
        omega
      have hnext : (a.toNat * b.toNat + carry) / 2 ^ 64 < 2 ^ 64 :=
        Nat.div_lt_of_lt_mul hacc
      have hsplit := Nat.mod_add_div (a.toNat * b.toNat + carry) (2 ^ 64)
      rw [mulLimbs, limbNat_cons, ih hnext, limbNat_cons, UInt64.toNat_ofNat']
      calc (a.toNat * b.toNat + carry) % 2 ^ 64 +
            2 ^ 64 * (limbNat as * b.toNat + (a.toNat * b.toNat + carry) / 2 ^ 64)
          = ((a.toNat * b.toNat + carry) % 2 ^ 64 +
              2 ^ 64 * ((a.toNat * b.toNat + carry) / 2 ^ 64)) +
                2 ^ 64 * (limbNat as * b.toNat) := by ring
        _ = (a.toNat * b.toNat + carry) + 2 ^ 64 * (limbNat as * b.toNat) := by rw [hsplit]
        _ = (a.toNat + 2 ^ 64 * limbNat as) * b.toNat + carry := by ring

/-- Limbs divided by a word, from the highest limb down: the quotient and what is left. -/
def divLimbs (b : UInt64) : List UInt64 → List UInt64 × ℕ
  | [] => ([], 0)
  | a :: as =>
      let rest := divLimbs b as
      let cur := rest.2 * 2 ^ 64 + a.toNat
      (UInt64.ofNat (cur / b.toNat) :: rest.1, cur % b.toNat)

@[simp] theorem divLimbs_length
    (b : UInt64)
    (as : List UInt64) :
    (divLimbs b as).1.length = as.length := by
  induction as with
  | nil =>
      rfl
  | cons a as ih =>
      simp [divLimbs, ih]

theorem limbNat_divLimbs
    {b : UInt64}
    (hb : 0 < b.toNat)
    (as : List UInt64) :
    limbNat (divLimbs b as).1 = limbNat as / b.toNat ∧
      (divLimbs b as).2 = limbNat as % b.toNat := by
  induction as with
  | nil =>
      simp [divLimbs]
  | cons a as ih =>
      obtain ⟨hquot, hrem⟩ := ih
      have ha := a.toNat_lt
      have hlt : (divLimbs b as).2 < b.toNat := by
        rw [hrem]
        exact Nat.mod_lt _ hb
      have hdigit : ((divLimbs b as).2 * 2 ^ 64 + a.toNat) / b.toNat < 2 ^ 64 := by
        rw [Nat.div_lt_iff_lt_mul hb]
        calc (divLimbs b as).2 * 2 ^ 64 + a.toNat
            < ((divLimbs b as).2 + 1) * 2 ^ 64 := by omega
          _ ≤ b.toNat * 2 ^ 64 := Nat.mul_le_mul_right _ hlt
          _ = 2 ^ 64 * b.toNat := Nat.mul_comm _ _
      have hvalue : a.toNat + 2 ^ 64 * limbNat as =
          (2 ^ 64 * (limbNat as / b.toNat)) * b.toNat +
            ((divLimbs b as).2 * 2 ^ 64 + a.toNat) := by
        have hdiv := Nat.div_add_mod (limbNat as) b.toNat
        rw [← hrem] at hdiv
        calc a.toNat + 2 ^ 64 * limbNat as
            = a.toNat + 2 ^ 64 *
                (b.toNat * (limbNat as / b.toNat) + (divLimbs b as).2) := by rw [hdiv]
          _ = _ := by ring
      have hsplit : ∀ m k, (m * b.toNat + k) / b.toNat = m + k / b.toNat := by
        intro m k
        rw [Nat.add_comm, Nat.add_mul_div_right _ _ hb, Nat.add_comm]
      constructor
      · simp only [divLimbs, limbNat_cons, UInt64.toNat_ofNat', hquot, hvalue, hsplit,
          Nat.mod_eq_of_lt hdigit]
        omega
      · simp only [divLimbs, limbNat_cons, hvalue, Nat.mul_add_mod_self_right]

end Scaling

section Subtracting

/-- Limbs plus one; the carry out of the last limb is lost. -/
def addOneLimbs : List UInt64 → List UInt64
  | [] => []
  | a :: as => if a + 1 = 0 then 0 :: addOneLimbs as else (a + 1) :: as

@[simp] theorem addOneLimbs_length
    (as : List UInt64) :
    (addOneLimbs as).length = as.length := by
  induction as with
  | nil =>
      rfl
  | cons a as ih =>
      rw [addOneLimbs]
      split
      · simp [ih]
      · rfl

theorem toNat_add_one
    {a : UInt64} :
    a + 1 = 0 ∧ a.toNat = 2 ^ 64 - 1 ∨ a + 1 ≠ 0 ∧ (a + 1).toNat = a.toNat + 1 := by
  have ha := a.toNat_lt
  have hadd : (a + 1).toNat = (a.toNat + 1) % 2 ^ 64 := UInt64.toNat_add a 1
  by_cases h : a + 1 = 0
  · left
    rw [h] at hadd
    have hzero : (0 : UInt64).toNat = 0 := rfl
    exact ⟨h, by omega⟩
  · right
    refine ⟨h, ?_⟩
    by_contra hne
    refine h (UInt64.toNat_inj.mp ?_)
    rw [hadd]
    have hzero : (0 : UInt64).toNat = 0 := rfl
    omega

theorem limbNat_addOneLimbs
    {as : List UInt64}
    (hroom : limbNat as + 1 < 2 ^ (64 * as.length)) :
    limbNat (addOneLimbs as) = limbNat as + 1 := by
  induction as with
  | nil =>
      simp at hroom
  | cons a as ih =>
      rw [limbNat_cons, List.length_cons, Nat.mul_succ, pow_add] at hroom
      rcases @toNat_add_one a with ⟨hzero, ha⟩ | ⟨hne, ha⟩
      · rw [addOneLimbs, if_pos hzero, limbNat_cons, limbNat_cons, ih (by omega), ha]
        have hzero' : (0 : UInt64).toNat = 0 := rfl
        omega
      · rw [addOneLimbs, if_neg hne, limbNat_cons, limbNat_cons, ha]
        omega

/-- `a - b` limb by limb, with the borrow that comes in and the one that goes out. -/
def subLimbs : (borrow : Bool) → List UInt64 → List UInt64 → List UInt64 × Bool
  | borrow, a :: as, b :: bs =>
      let v₁ := a - b
      let v₂ := v₁ - borrow.toUInt64
      let rest := subLimbs (a < b || v₁ < borrow.toUInt64) as bs
      (v₂ :: rest.1, rest.2)
  | borrow, _, _ => ([], borrow)

theorem subLimbs_length
    (borrow : Bool)
    {as bs : List UInt64}
    (hlen : as.length = bs.length) :
    (subLimbs borrow as bs).1.length = as.length := by
  induction as generalizing borrow bs with
  | nil =>
      simp [subLimbs]
  | cons a as ih =>
      cases bs with
      | nil => cases hlen
      | cons b bs =>
          simp only [subLimbs, List.length_cons]
          rw [ih _ (Nat.succ.inj hlen)]

/-- One limb of a subtraction. -/
theorem sub_limb_eq
    (a b : UInt64)
    (borrow : Bool) :
    (a - b - borrow.toUInt64).toNat + b.toNat + borrow.toNat =
      a.toNat + 2 ^ 64 * (a < b || a - b < borrow.toUInt64 : Bool).toNat := by
  have ha := a.toNat_lt
  have hb := b.toNat_lt
  have hborrow : borrow.toUInt64.toNat = borrow.toNat := by
    cases borrow <;> rfl
  have hle : borrow.toNat ≤ 1 := Bool.toNat_le borrow
  by_cases hab : a.toNat < b.toNat
  · simp [UInt64.toNat_sub, UInt64.lt_iff_toNat_lt, hborrow, hab]
    omega
  · have hsub : (a - b).toNat = a.toNat - b.toNat := by
      rw [UInt64.toNat_sub]
      omega
    by_cases hlast : a.toNat - b.toNat < borrow.toNat
    · simp only [UInt64.toNat_sub (a - b), UInt64.lt_iff_toNat_lt, hborrow, hsub, hab, hlast,
        decide_true, decide_false, Bool.false_or, Bool.toNat_true]
      omega
    · simp only [UInt64.toNat_sub (a - b), UInt64.lt_iff_toNat_lt, hborrow, hsub, hab, hlast,
        decide_false, Bool.false_or, Bool.toNat_false]
      omega

theorem limbNat_subLimbs
    (borrow : Bool)
    {as bs : List UInt64}
    (hlen : as.length = bs.length) :
    limbNat (subLimbs borrow as bs).1 + limbNat bs + borrow.toNat =
      limbNat as + 2 ^ (64 * as.length) * (subLimbs borrow as bs).2.toNat := by
  induction as generalizing borrow bs with
  | nil =>
      obtain rfl := List.length_eq_zero_iff.mp hlen.symm
      simp [subLimbs]
  | cons a as ih =>
      cases bs with
      | nil => cases hlen
      | cons b bs =>
          have hlimb := sub_limb_eq a b borrow
          have hrest := ih (a < b || a - b < borrow.toUInt64) (Nat.succ.inj hlen)
          simp only [subLimbs, limbNat_cons, List.length_cons, Nat.mul_succ, pow_add]
          generalize subLimbs (a < b || a - b < borrow.toUInt64) as bs = rest at hrest ⊢
          generalize (a < b || a - b < borrow.toUInt64 : Bool).toNat = carry at hlimb hrest ⊢
          calc (a - b - borrow.toUInt64).toNat + 2 ^ 64 * limbNat rest.1 +
                (b.toNat + 2 ^ 64 * limbNat bs) + borrow.toNat
              = ((a - b - borrow.toUInt64).toNat + b.toNat + borrow.toNat) +
                  2 ^ 64 * (limbNat rest.1 + limbNat bs) := by ring
            _ = a.toNat + 2 ^ 64 * (limbNat rest.1 + limbNat bs + carry) := by
                rw [hlimb]
                ring
            _ = a.toNat + 2 ^ 64 * limbNat as +
                  2 ^ (64 * as.length) * 2 ^ 64 * rest.2.toNat := by
                rw [hrest]
                ring

end Subtracting

section Bits

/-- Bit `i`. -/
def limbBit (as : List UInt64) (i : ℕ) : UInt64 :=
  (as.getD (i / 64) 0 >>> UInt64.ofNat (i % 64)) &&& 1

theorem toNat_shiftRight_and_one
    (a : UInt64)
    {i : ℕ}
    (hi : i < 64) :
    ((a >>> UInt64.ofNat i) &&& 1).toNat = a.toNat / 2 ^ i % 2 := by
  have hone : (1 : UInt64).toNat = 1 := rfl
  rw [UInt64.toNat_and, hone, Nat.and_one_is_mod, UInt64.toNat_shiftRight, UInt64.toNat_ofNat',
    Nat.mod_eq_of_lt (by omega : i < 2 ^ 64), Nat.mod_eq_of_lt hi, Nat.shiftRight_eq_div_pow]

theorem limbBit_toNat
    (as : List UInt64)
    (i : ℕ) :
    (limbBit as i).toNat = limbNat as / 2 ^ i % 2 := by
  induction as generalizing i with
  | nil =>
      simp [limbBit]
  | cons a as ih =>
      by_cases hi : i < 64
      · have hdiv : i / 64 = 0 := Nat.div_eq_of_lt hi
        have hpow : (2 : ℕ) ^ 64 = 2 ^ i * (2 * 2 ^ (63 - i)) := by
          rw [← pow_succ', ← pow_add]
          congr 1
          omega
        have hvalue : (a.toNat + 2 ^ 64 * limbNat as) / 2 ^ i =
            a.toNat / 2 ^ i + 2 * (2 ^ (63 - i) * limbNat as) := by
          rw [hpow, mul_assoc, Nat.add_mul_div_left _ _ (by positivity), mul_assoc]
        rw [limbBit, hdiv, Nat.mod_eq_of_lt hi, List.getD_cons_zero, limbNat_cons, hvalue,
          Nat.add_mul_mod_self_left]
        exact toNat_shiftRight_and_one a hi
      · have hidx : i / 64 = (i - 64) / 64 + 1 := by omega
        have hmod : i % 64 = (i - 64) % 64 := by omega
        have ha := a.toNat_lt
        have hvalue : (a.toNat + 2 ^ 64 * limbNat as) / 2 ^ i = limbNat as / 2 ^ (i - 64) := by
          have hpow : (2 : ℕ) ^ i = 2 ^ 64 * 2 ^ (i - 64) := by
            rw [← pow_add]
            congr 1
            omega
          rw [hpow, ← Nat.div_div_eq_div_mul]
          congr 1
          omega
        rw [limbNat_cons, hvalue, ← ih (i - 64), limbBit, limbBit, hidx, hmod,
          List.getD_cons_succ]

/-- The limbs shifted left by one bit; `bit` enters at the bottom. -/
def shlLimbs : (bit : UInt64) → List UInt64 → List UInt64
  | _, [] => []
  | bit, a :: as => ((a <<< 1) ||| bit) :: shlLimbs (a >>> 63) as

/-- The bit that a shift pushes out at the top. -/
def topBit (as : List UInt64) : UInt64 :=
  as.getLastD 0 >>> 63

@[simp] theorem shlLimbs_length
    (bit : UInt64)
    (as : List UInt64) :
    (shlLimbs bit as).length = as.length := by
  induction as generalizing bit with
  | nil =>
      rfl
  | cons a as ih =>
      simp [shlLimbs, ih]

theorem toNat_shiftRight_63
    (a : UInt64) :
    (a >>> 63).toNat = a.toNat / 2 ^ 63 := by
  rw [UInt64.toNat_shiftRight, Nat.shiftRight_eq_div_pow]
  rfl

/-- One limb of a shift. -/
theorem shl_limb_eq
    (a : UInt64)
    {bit : UInt64}
    (hbit : bit.toNat < 2) :
    ((a <<< 1) ||| bit).toNat + 2 ^ 64 * (a >>> 63).toNat = 2 * a.toNat + bit.toNat := by
  have ha := a.toNat_lt
  have hshift : (a <<< 1).toNat = 2 ^ 1 * (a.toNat % 2 ^ 63) := by
    have hone : (1 : UInt64).toNat % 64 = 1 := rfl
    rw [UInt64.toNat_shiftLeft, hone, Nat.shiftLeft_eq]
    omega
  rw [UInt64.toNat_or, hshift, ← Nat.two_pow_add_eq_or_of_lt hbit, toNat_shiftRight_63]
  omega

theorem limbNat_shlLimbs
    {bit : UInt64}
    (hbit : bit.toNat < 2)
    {as : List UInt64}
    (hne : as ≠ []) :
    limbNat (shlLimbs bit as) + 2 ^ (64 * as.length) * (topBit as).toNat =
      2 * limbNat as + bit.toNat := by
  induction as generalizing bit with
  | nil =>
      exact absurd rfl hne
  | cons a as ih =>
      have hlimb := shl_limb_eq a hbit
      cases as with
      | nil =>
          simp only [shlLimbs, limbNat_cons, limbNat_nil, topBit, List.length_cons,
            List.length_nil, List.getLastD_cons, List.getLastD_nil]
          omega
      | cons b bs =>
          have hout : (a >>> 63).toNat < 2 := by
            have ha := a.toNat_lt
            rw [toNat_shiftRight_63]
            omega
          have hrest := ih hout (List.cons_ne_nil b bs)
          have htop : topBit (a :: b :: bs) = topBit (b :: bs) := by
            rw [topBit, topBit, List.getLastD_cons, List.getLastD_cons, List.getLastD_cons]
          rw [shlLimbs, limbNat_cons, htop, List.length_cons, Nat.mul_succ, pow_add, limbNat_cons]
          calc ((a <<< 1) ||| bit).toNat + 2 ^ 64 * limbNat (shlLimbs (a >>> 63) (b :: bs)) +
                2 ^ (64 * (b :: bs).length) * 2 ^ 64 * (topBit (b :: bs)).toNat
              = ((a <<< 1) ||| bit).toNat +
                  2 ^ 64 * (limbNat (shlLimbs (a >>> 63) (b :: bs)) +
                    2 ^ (64 * (b :: bs).length) * (topBit (b :: bs)).toNat) := by ring
            _ = 2 * (a.toNat + 2 ^ 64 * limbNat (b :: bs)) + bit.toNat := by
                rw [hrest]
                omega

/-- The limbs with every bit flipped. -/
theorem limbNat_map_complement
    (as : List UInt64) :
    limbNat (as.map (fun a => ~~~a)) + limbNat as + 1 = 2 ^ (64 * as.length) := by
  induction as with
  | nil =>
      rfl
  | cons a as ih =>
      have ha := a.toNat_lt
      have hnot : (~~~a).toNat = 2 ^ 64 - 1 - a.toNat := by
        rw [UInt64.toNat_not]
        rfl
      rw [List.map_cons, limbNat_cons, limbNat_cons, hnot, List.length_cons, Nat.mul_succ, pow_add]
      omega

end Bits

section LongDivision

/--
One step of binary long division: bring down a bit and subtract the divisor if it fits.
The answer is the bit of the quotient, what is left, and the borrow of the subtraction.
-/
def divideBit (divisor rem : List UInt64) (bit : UInt64) : Bool × List UInt64 × Bool :=
  let shifted := shlLimbs bit rem
  if topBit rem = 1 || limbsGe shifted divisor then
    (true, subLimbs false shifted divisor)
  else
    (false, shifted, false)

theorem divideBit_eq
    {divisor rem : List UInt64}
    {bit : UInt64}
    (hbit : bit.toNat < 2)
    (hlen : rem.length = divisor.length)
    (hlt : limbNat rem < limbNat divisor) :
    2 * limbNat rem + bit.toNat =
        (divideBit divisor rem bit).1.toNat * limbNat divisor +
          limbNat (divideBit divisor rem bit).2.1 ∧
      limbNat (divideBit divisor rem bit).2.1 < limbNat divisor ∧
      (divideBit divisor rem bit).2.1.length = divisor.length := by
  have hne : rem ≠ [] := by
    rintro rfl
    obtain rfl := List.length_eq_zero_iff.mp hlen.symm
    exact Nat.lt_irrefl _ hlt
  have hshift := limbNat_shlLimbs hbit hne
  have hlen' : (shlLimbs bit rem).length = divisor.length := by
    rw [shlLimbs_length, hlen]
  have hshiftLt := limbNat_lt (shlLimbs bit rem)
  have hdivLt := limbNat_lt divisor
  rw [hlen'] at hshiftLt
  rw [hlen] at hshift
  have htopLt : (topBit rem).toNat < 2 := by
    have hlast := (rem.getLastD 0).toNat_lt
    rw [topBit, toNat_shiftRight_63]
    omega
  have hone : (1 : UInt64).toNat = 1 := rfl
  rw [divideBit]
  by_cases hfits : (topBit rem = 1 || limbsGe (shlLimbs bit rem) divisor) = true
  · have hsub := limbNat_subLimbs false hlen'
    have hout := limbNat_lt (subLimbs false (shlLimbs bit rem) divisor).1
    rw [subLimbs_length false hlen', hlen'] at hout
    rw [hlen'] at hsub
    rw [if_pos hfits]
    refine ⟨?_, ?_, by rw [subLimbs_length false hlen', hlen']⟩
    all_goals
      generalize subLimbs false (shlLimbs bit rem) divisor = diff at hsub hout ⊢
      simp only [Bool.toNat_true, Bool.toNat_false, Nat.add_zero, Nat.one_mul] at hsub ⊢
      rw [Bool.or_eq_true, decide_eq_true_eq, limbsGe_iff hlen'] at hfits
      generalize (2 : ℕ) ^ (64 * divisor.length) = w at *
      have htop : topBit rem = 1 ∧ (topBit rem).toNat = 1 ∨ (topBit rem).toNat = 0 := by
        by_cases h : topBit rem = 1
        · exact Or.inl ⟨h, by rw [h, hone]⟩
        · right
          have hne' : (topBit rem).toNat ≠ 1 := fun h' => h (UInt64.toNat_inj.mp (h'.trans hone.symm))
          omega
      rcases htop with ⟨htop, htop'⟩ | htop
      · rw [htop'] at hshift
        cases hborrow : diff.2 with
        | false =>
            rw [hborrow] at hsub
            simp only [Bool.toNat_false] at hsub
            omega
        | true =>
            rw [hborrow] at hsub
            simp only [Bool.toNat_true] at hsub
            omega
      · have hge : limbNat divisor ≤ limbNat (shlLimbs bit rem) := by
          rcases hfits with h | h
          · rw [h, hone] at htop
            cases htop
          · exact h
        rw [htop] at hshift
        cases hborrow : diff.2 with
        | false =>
            rw [hborrow] at hsub
            simp only [Bool.toNat_false] at hsub
            omega
        | true =>
            rw [hborrow] at hsub
            simp only [Bool.toNat_true] at hsub
            omega
  · rw [if_neg hfits]
    rw [Bool.or_eq_true, decide_eq_true_eq, limbsGe_iff hlen', not_or] at hfits
    have htop : (topBit rem).toNat = 0 := by
      have hne' : (topBit rem).toNat ≠ 1 :=
        fun h => hfits.1 (UInt64.toNat_inj.mp (h.trans hone.symm))
      omega
    rw [htop] at hshift
    refine ⟨?_, ?_, hlen'⟩
    all_goals
      simp only [Bool.toNat_false]
      omega

/-- Below half of the width, a remainder has no bit to lose. -/
theorem topBit_eq_zero
    {divisor rem : List UInt64}
    (hlen : rem.length = divisor.length)
    (hlt : limbNat rem < limbNat divisor)
    (hhalf : 2 * limbNat divisor ≤ 2 ^ (64 * divisor.length)) :
    topBit rem = 0 := by
  have hne : rem ≠ [] := by
    rintro rfl
    obtain rfl := List.length_eq_zero_iff.mp hlen.symm
    exact Nat.lt_irrefl _ hlt
  have hshift := @limbNat_shlLimbs 0 (by decide) _ hne
  rw [hlen] at hshift
  have hzero : (0 : UInt64).toNat = 0 := rfl
  refine UInt64.toNat_inj.mp (Nat.eq_zero_of_not_pos (fun hpos => ?_))
  have hle : 2 ^ (64 * divisor.length) * 1 ≤ 2 ^ (64 * divisor.length) * (topBit rem).toNat :=
    Nat.mul_le_mul_left _ hpos
  omega

/-- A divisor below half of the width is subtracted without a borrow. -/
theorem divideBit_borrow
    {divisor rem : List UInt64}
    (bit : UInt64)
    (hlen : rem.length = divisor.length)
    (hlt : limbNat rem < limbNat divisor)
    (hhalf : 2 * limbNat divisor ≤ 2 ^ (64 * divisor.length)) :
    (divideBit divisor rem bit).2.2 = false := by
  have hlen' : (shlLimbs bit rem).length = divisor.length := by
    rw [shlLimbs_length, hlen]
  rw [divideBit, topBit_eq_zero hlen hlt hhalf]
  by_cases hge : limbsGe (shlLimbs bit rem) divisor = true
  · have hsub := limbNat_subLimbs false hlen'
    have hout := limbNat_lt (subLimbs false (shlLimbs bit rem) divisor).1
    have hshifted := limbNat_lt (shlLimbs bit rem)
    rw [if_pos (by rw [hge, Bool.or_true])]
    rw [limbsGe_iff hlen'] at hge
    rw [subLimbs_length false hlen', hlen'] at hout
    rw [hlen'] at hsub hshifted
    cases hborrow : (subLimbs false (shlLimbs bit rem) divisor).2 with
    | false =>
        rfl
    | true =>
        rw [hborrow] at hsub
        simp only [Bool.toNat_true, Bool.toNat_false, Nat.add_zero, Nat.mul_one] at hsub
        omega
  · rw [if_neg (by rw [Bool.or_eq_true, not_or]; exact ⟨by decide, hge⟩)]

/-- What the lower bits of the numerator add to a quotient. -/
theorem div_of_step
    {num d r r' b q i : ℕ}
    (hd : 0 < d)
    (hb : num / 2 ^ i % 2 = b)
    (h : 2 * r + b = q * d + r') :
    (r * 2 ^ (i + 1) + num % 2 ^ (i + 1)) / d =
      q * 2 ^ i + (r' * 2 ^ i + num % 2 ^ i) / d := by
  have hmod : num % 2 ^ (i + 1) = num % 2 ^ i + 2 ^ i * b := by
    rw [pow_succ, Nat.mod_mul, hb]
  have hvalue : r * 2 ^ (i + 1) + num % 2 ^ (i + 1) =
      (r' * 2 ^ i + num % 2 ^ i) + q * 2 ^ i * d := by
    calc r * 2 ^ (i + 1) + num % 2 ^ (i + 1)
        = (2 * r + b) * 2 ^ i + num % 2 ^ i := by
          rw [hmod, pow_succ]
          ring
      _ = (r' * 2 ^ i + num % 2 ^ i) + q * 2 ^ i * d := by
          rw [h]
          ring
  rw [hvalue, Nat.add_mul_div_right _ _ hd, Nat.add_comm]

end LongDivision

section Bytes

/-- Put a byte into a place that is still zero. -/
def placeByte (as : List UInt64) (pos : ℕ) (byte : UInt64) : List UInt64 :=
  as.set (pos / 8) (as.getD (pos / 8) 0 ||| byte <<< UInt64.ofNat (8 * (pos % 8)))

@[simp] theorem placeByte_length
    (as : List UInt64)
    (pos : ℕ)
    (byte : UInt64) :
    (placeByte as pos byte).length = as.length := by
  rw [placeByte, List.length_set]

theorem limbNat_placeByte
    {as : List UInt64}
    {pos : ℕ}
    {byte : UInt64}
    (hbyte : byte.toNat < 256)
    (hpos : pos < 8 * as.length)
    (hlow : limbNat as < 256 ^ pos) :
    limbNat (placeByte as pos byte) = limbNat as + byte.toNat * 256 ^ pos := by
  induction as generalizing pos with
  | nil =>
      simp at hpos
  | cons a as ih =>
      have h256 : ∀ n, (256 : ℕ) ^ n = 2 ^ (8 * n) := fun n => by rw [pow_mul]; norm_num
      rw [limbNat_cons] at hlow
      by_cases hi : pos < 8
      · have hdiv : pos / 8 = 0 := Nat.div_eq_of_lt hi
        have hmod : pos % 8 = pos := Nat.mod_eq_of_lt hi
        have hpow : (256 : ℕ) ^ pos ≤ 2 ^ 56 := by
          rw [h256]
          exact Nat.pow_le_pow_right (by norm_num) (by omega)
        have ha : a.toNat < 2 ^ (8 * pos) := by
          rw [← h256]
          omega
        have hshift : (byte <<< UInt64.ofNat (8 * pos)).toNat = 2 ^ (8 * pos) * byte.toNat := by
          have hlt : byte.toNat * 2 ^ (8 * pos) < 2 ^ 64 := by
            rw [← h256]
            nlinarith
          rw [UInt64.toNat_shiftLeft, UInt64.toNat_ofNat',
            Nat.mod_eq_of_lt (by omega : 8 * pos < 2 ^ 64),
            Nat.mod_eq_of_lt (by omega : 8 * pos < 64), Nat.shiftLeft_eq, Nat.mod_eq_of_lt hlt,
            Nat.mul_comm]
        rw [placeByte, hdiv, hmod, List.getD_cons_zero, List.set_cons_zero, limbNat_cons,
          limbNat_cons, UInt64.toNat_or, hshift, Nat.or_comm,
          ← Nat.two_pow_add_eq_or_of_lt ha, h256]
        ring
      · have hidx : pos / 8 = (pos - 8) / 8 + 1 := by omega
        have hmod : pos % 8 = (pos - 8) % 8 := by omega
        have hpow : (256 : ℕ) ^ pos = 2 ^ 64 * 256 ^ (pos - 8) := by
          have hsplit : pos = 8 + (pos - 8) := by omega
          rw [hsplit, pow_add]
          norm_num
        have hset : placeByte (a :: as) pos byte = a :: placeByte as (pos - 8) byte := by
          rw [placeByte, placeByte, hidx, hmod, List.getD_cons_succ, List.set_cons_succ]
        rw [List.length_cons] at hpos
        rw [hset, limbNat_cons, ih (by omega) (by omega), limbNat_cons, hpow]
        ring

end Bytes

end OpenCsv
