import Mathlib.Data.Vector.Basic
import Mathlib.Tactic

/-!
# Fixed-length byte arrays

Byte arrays whose length is part of the type, their contiguous slices, and the
little-endian reading of a byte string as a natural number.

The two directions of the little-endian codec are inverse to each other:
`leNat_leBytes` on numbers that fit the width and `leBytes_leNat` on byte
strings of that width.  Everything else in this module says how slices behave
on concatenations.
-/

namespace OpenCsv

section LittleEndian

/-- Little-endian value of a byte string. -/
def leNat : List UInt8 → ℕ
  | [] => 0
  | b :: bs => b.toNat + 256 * leNat bs

/-- The `k` low bytes of a number, least significant first. -/
def leBytes : ℕ → ℕ → List UInt8
  | 0, _ => []
  | k + 1, n => UInt8.ofNat n :: leBytes k (n / 256)

@[simp] theorem leBytes_length
    (k n : ℕ) :
    (leBytes k n).length = k := by
  induction k generalizing n with
  | zero =>
      rfl
  | succ k ih =>
      simp [leBytes, ih]

/-- A byte string of length `k` denotes a number below `256 ^ k`. -/
theorem leNat_lt
    (bs : List UInt8) :
    leNat bs < 256 ^ bs.length := by
  induction bs with
  | nil =>
      simp [leNat]
  | cons b bs ih =>
      have hb : b.toNat < 256 := b.toNat_lt
      rw [leNat, List.length_cons, pow_succ]
      omega

/-- Reading back the low bytes of a number reduces it modulo the width. -/
theorem leNat_leBytes
    (k n : ℕ) :
    leNat (leBytes k n) = n % 256 ^ k := by
  induction k generalizing n with
  | zero =>
      simp [leBytes, leNat, Nat.mod_one]
  | succ k ih =>
      rw [leBytes, leNat, ih, pow_succ', Nat.mod_mul]
      simp

/-- A `u64` is read back from its eight little-endian bytes. -/
@[simp] theorem leNat_leBytes_u64
    (v : UInt64) :
    leNat (leBytes 8 v.toNat) = v.toNat := by
  rw [leNat_leBytes]
  exact Nat.mod_eq_of_lt v.toNat_lt

/-- A byte string is recovered from its value at its own width. -/
theorem leBytes_leNat
    (bs : List UInt8) :
    leBytes bs.length (leNat bs) = bs := by
  induction bs with
  | nil =>
      rfl
  | cons b bs ih =>
      have hb : b.toNat < 256 := b.toNat_lt
      have hlow : UInt8.ofNat (leNat (b :: bs)) = b := by
        apply UInt8.toNat_inj.mp
        rw [leNat, UInt8.toNat_ofNat']
        omega
      have hhigh : leNat (b :: bs) / 256 = leNat bs := by
        rw [leNat]
        omega
      rw [List.length_cons, leBytes, hlow, hhigh, ih]

/-- The little-endian value determines a byte string of known length. -/
theorem leNat_injective
    {bs cs : List UInt8}
    (hlen : bs.length = cs.length)
    (h : leNat bs = leNat cs) :
    bs = cs := by
  rw [← leBytes_leNat bs, ← leBytes_leNat cs, hlen, h]

end LittleEndian

section Fields

/-- The part of a list from offset `i` on, split after `k` more entries. -/
theorem drop_eq_take_append_drop
    {α : Type*}
    (l : List α)
    (i k : ℕ) :
    l.drop i = (l.drop i).take k ++ l.drop (i + k) := by
  rw [← List.drop_drop, List.take_append_drop]

/-- Reading a field back out of a concatenation. -/
theorem take_drop_append
    {α : Type*}
    {pre mid post : List α}
    {i k : ℕ}
    (hpre : pre.length = i)
    (hmid : mid.length = k) :
    ((pre ++ (mid ++ post)).drop i).take k = mid := by
  rw [List.drop_left' hpre, List.take_left' hmid]

end Fields

/-- A byte array of length `n`. -/
abbrev Bytes (n : ℕ) := List.Vector UInt8 n

namespace Bytes

variable {n k : ℕ}

/-- The all-zero array. -/
def zero (n : ℕ) : Bytes n :=
  List.Vector.replicate n 0

/-- The `k` bytes that start at offset `i`. -/
def slice
    (bs : Bytes n)
    (i k : ℕ)
    (h : i + k ≤ n) : Bytes k :=
  ⟨(bs.toList.drop i).take k, by
    simp only [List.length_take, List.length_drop, List.Vector.toList_length]
    omega⟩

/-- The `k` low bytes of a number as an array. -/
def ofLe (k n : ℕ) : Bytes k :=
  ⟨leBytes k n, leBytes_length k n⟩

/-- The little-endian value of an array. -/
def toLe (bs : Bytes n) : ℕ :=
  leNat bs.toList

/-- Are all bytes from offset `i` on zero? -/
def padded (bs : Bytes n) (i : ℕ) : Bool :=
  (bs.toList.drop i).all (· == 0)

@[simp] theorem toList_slice
    (bs : Bytes n)
    (i k : ℕ)
    (h : i + k ≤ n) :
    (bs.slice i k h).toList = (bs.toList.drop i).take k :=
  rfl

@[simp] theorem toList_ofLe
    (k n : ℕ) :
    (ofLe k n).toList = leBytes k n :=
  rfl

@[simp] theorem toList_zero
    (n : ℕ) :
    (zero n).toList = List.replicate n 0 :=
  rfl

/-- Arrays of the same length are equal when they hold the same bytes. -/
theorem ext_toList
    {bs cs : Bytes n}
    (h : bs.toList = cs.toList) :
    bs = cs :=
  Subtype.ext h

@[simp] theorem toLe_ofLe
    (k n : ℕ) :
    (ofLe k n).toLe = n % 256 ^ k :=
  leNat_leBytes k n

@[simp] theorem ofLe_toLe
    (bs : Bytes n) :
    ofLe n bs.toLe = bs := by
  apply ext_toList
  have h := leBytes_leNat bs.toList
  rwa [List.Vector.toList_length] at h

theorem toLe_lt
    (bs : Bytes n) :
    bs.toLe < 256 ^ n := by
  have h := leNat_lt bs.toList
  rwa [List.Vector.toList_length] at h

/-- Padding from offset `i` on means that the tail is a run of zeroes. -/
theorem padded_iff
    {bs : Bytes n}
    {i : ℕ} :
    bs.padded i = true ↔ bs.toList.drop i = List.replicate (n - i) 0 := by
  rw [List.eq_replicate_iff]
  simp [padded, List.all_eq_true]

/-- `slice.try_into()` for an array of `n` bytes. -/
def tryFrom (n : ℕ) (bs : List UInt8) : Option (Bytes n) :=
  if h : bs.length = n then some ⟨bs, h⟩ else none

@[simp] theorem tryFrom_eq_some_iff
    {n : ℕ}
    {bs : List UInt8}
    {v : Bytes n} :
    tryFrom n bs = some v ↔ bs = v.toList := by
  unfold tryFrom
  split
  · constructor
    · intro h
      rw [← Option.some.inj h]
      rfl
    · rintro rfl
      rfl
  · rename_i hlen
    constructor
    · intro h
      cases h
    · rintro rfl
      exact absurd v.toList_length hlen

end Bytes

end OpenCsv
