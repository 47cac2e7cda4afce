import Mathlib.Data.Nat.Log
import OpenCsv.Lib.Wide
import OpenCsv.Lib.Bytes

/-!
# Compact numbers

A 32-bit encoding of large natural numbers: a byte that counts bytes and a mantissa of
three bytes whose top bit would be a sign.  `compactValue` and `compactOf` are the two
directions, in numbers.

The rest relates the bytes of wide integers to their limbs.
-/

namespace OpenCsv

/-- The number of a compact encoding. -/
def compactValue (bits : ℕ) : ℕ :=
  if bits / 2 ^ 24 ≤ 3 then
    bits % 2 ^ 23 / 256 ^ (3 - bits / 2 ^ 24)
  else
    bits % 2 ^ 23 * 256 ^ (bits / 2 ^ 24 - 3)

/-- The three highest of `size` bytes. -/
def topBytes (size n : ℕ) : ℕ :=
  if size ≤ 3 then n * 256 ^ (3 - size) else n / 256 ^ (size - 3)

/-- The compact encoding of a number; a mantissa with its top bit set moves by a byte. -/
def compactOf (n : ℕ) : ℕ :=
  let size := Nat.log 256 n + 1
  let mantissa := topBytes size n
  if mantissa < 2 ^ 23 then
    size * 2 ^ 24 + mantissa
  else
    (size + 1) * 2 ^ 24 + mantissa / 256

/-- The bytes of a number are counted from above. -/
theorem log_of_bounds
    {n size : ℕ}
    (hlt : n < 256 ^ (size + 1))
    (hge : size = 0 ∨ 256 ^ size ≤ n) :
    Nat.log 256 n = size := by
  rcases hge with rfl | hge
  · exact Nat.log_of_lt (by simpa using hlt)
  · exact Nat.log_eq_of_pow_le_of_lt_pow hge hlt

theorem topBytes_lt
    {n size : ℕ}
    (hlt : n < 256 ^ size) :
    topBytes size n < 256 ^ 3 := by
  rw [topBytes]
  split
  · rename_i hsize
    calc n * 256 ^ (3 - size)
        < 256 ^ size * 256 ^ (3 - size) := Nat.mul_lt_mul_of_pos_right hlt (by positivity)
      _ = 256 ^ 3 := by
        rw [← pow_add]
        congr 1
        omega
  · rename_i hsize
    rw [Nat.div_lt_iff_lt_mul (by positivity), ← pow_add]
    have hsum : 3 + (size - 3) = size := by omega
    rwa [hsum]

section LimbBytes

/-- The bytes of limbs, least significant first. -/
def limbBytes (ls : List UInt64) : List UInt8 :=
  ls.flatMap (fun l => leBytes 8 l.toNat)

/-- The limbs of bytes, least significant first. -/
def limbsOfBytes : (n : ℕ) → List UInt8 → List UInt64
  | 0, _ => []
  | n + 1, bs => UInt64.ofNat (leNat (bs.take 8)) :: limbsOfBytes n (bs.drop 8)

theorem leNat_append
    (bs cs : List UInt8) :
    leNat (bs ++ cs) = leNat bs + 256 ^ bs.length * leNat cs := by
  induction bs with
  | nil =>
      simp [leNat]
  | cons b bs ih =>
      rw [List.cons_append, leNat, ih, leNat, List.length_cons, pow_succ]
      ring

theorem leNat_drop_take
    (bs : List UInt8)
    (i k : ℕ) :
    leNat ((bs.drop i).take k) = leNat bs / 256 ^ i % 256 ^ k := by
  have htake : ∀ (k : ℕ) (cs : List UInt8), leNat (cs.take k) = leNat cs % 256 ^ k := by
    intro k
    induction k with
    | zero =>
        intro cs
        simp [leNat, Nat.mod_one]
    | succ k ih =>
        intro cs
        cases cs with
        | nil => simp [leNat]
        | cons c cs =>
            have hc : c.toNat < 256 := c.toNat_lt
            rw [List.take_succ_cons, leNat, leNat, ih, pow_succ', Nat.mod_mul,
              Nat.add_mul_mod_self_left, Nat.mod_eq_of_lt hc,
              Nat.add_mul_div_left _ _ (by norm_num : 0 < 256), Nat.div_eq_of_lt hc, Nat.zero_add]
  have hdrop : ∀ (i : ℕ) (cs : List UInt8), leNat (cs.drop i) = leNat cs / 256 ^ i := by
    intro i
    induction i with
    | zero => simp
    | succ i ih =>
        intro cs
        cases cs with
        | nil => simp [leNat]
        | cons c cs =>
            have hc : c.toNat < 256 := c.toNat_lt
            rw [List.drop_succ_cons, ih, leNat, pow_succ', ← Nat.div_div_eq_div_mul,
              Nat.add_mul_div_left _ _ (by norm_num : 0 < 256), Nat.div_eq_of_lt hc, Nat.zero_add]
  rw [htake, hdrop]

theorem toNat_getD
    (bs : List UInt8)
    (i : ℕ) :
    (bs.getD i 0).toNat = leNat bs / 256 ^ i % 256 := by
  have h := leNat_drop_take bs i 1
  rw [pow_one] at h
  by_cases hi : i < bs.length
  · rw [List.drop_eq_getElem_cons hi, List.take_succ_cons, List.take_zero] at h
    rw [List.getD_eq_getElem?_getD, List.getElem?_eq_getElem hi, ← h]
    simp [leNat]
  · have hlt := leNat_lt bs
    have hle : 256 ^ bs.length ≤ 256 ^ i := Nat.pow_le_pow_right (by norm_num) (by omega)
    rw [List.getD_eq_getElem?_getD, List.getElem?_eq_none (Nat.le_of_not_lt hi),
      Nat.div_eq_of_lt (by omega)]
    rfl

@[simp] theorem limbsOfBytes_length
    (n : ℕ)
    (bs : List UInt8) :
    (limbsOfBytes n bs).length = n := by
  induction n generalizing bs with
  | zero =>
      rfl
  | succ n ih =>
      simp [limbsOfBytes, ih]

theorem limbNat_limbsOfBytes
    {n : ℕ}
    {bs : List UInt8}
    (hlen : bs.length = 8 * n) :
    limbNat (limbsOfBytes n bs) = leNat bs := by
  induction n generalizing bs with
  | zero =>
      obtain rfl := List.length_eq_zero_iff.mp hlen
      rfl
  | succ n ih =>
      have htake : (bs.take 8).length = 8 := by
        rw [List.length_take]
        omega
      have hlt := leNat_lt (bs.take 8)
      rw [htake] at hlt
      rw [limbsOfBytes, limbNat_cons, UInt64.toNat_ofNat', Nat.mod_eq_of_lt (by omega),
        ih (by rw [List.length_drop]; omega)]
      conv_rhs => rw [← List.take_append_drop 8 bs, leNat_append, htake]
      norm_num

@[simp] theorem limbBytes_length
    (ls : List UInt64) :
    (limbBytes ls).length = 8 * ls.length := by
  induction ls with
  | nil =>
      rfl
  | cons l ls ih =>
      rw [limbBytes, List.flatMap_cons, List.length_append, leBytes_length, List.length_cons]
      rw [limbBytes] at ih
      omega

theorem leNat_limbBytes
    (ls : List UInt64) :
    leNat (limbBytes ls) = limbNat ls := by
  induction ls with
  | nil =>
      rfl
  | cons l ls ih =>
      rw [limbBytes, List.flatMap_cons, leNat_append, leNat_leBytes_u64, leBytes_length,
        limbNat_cons, ← ih, limbBytes]
      norm_num

end LimbBytes

end OpenCsv
