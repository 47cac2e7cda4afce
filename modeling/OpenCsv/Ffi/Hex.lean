import OpenCsv.Lib.Result
import OpenCsv.Lib.Utf8

/-!
# Lowercase hex at the JSON boundary

`toHex` writes two digits a byte; `fromHex` reads pairs with `from_str_radix`,
which takes either case and, as a quirk, a plus sign in the place of the first
digit.

**Results.** A byte array is read back from its hex text
(`fromHexArray_toHex`), and hex texts of arrays are injective (`toHex_injective`).
-/

namespace OpenCsv

/-- One operation's failure, as display text. -/
abbrev OpError := Text

section Digits

/-- The lowercase hex digit of a value below 16. -/
def hexDigit (n : UInt8) : UInt8 :=
  if n < 10 then 0x30 + n else 0x61 + (n - 10)

/-- The value of a hex digit of either case. -/
def hexValue (c : UInt8) : Option UInt8 :=
  if 0x30 ≤ c ∧ c ≤ 0x39 then some (c - 0x30)
  else if 0x61 ≤ c ∧ c ≤ 0x66 then some (c - 0x61 + 10)
  else if 0x41 ≤ c ∧ c ≤ 0x46 then some (c - 0x41 + 10)
  else none

/-- The two digits of a byte. -/
def hexPair (b : UInt8) : List UInt8 :=
  [hexDigit (b >>> 4), hexDigit (b &&& 0x0F)]

/-- `u8::from_str_radix(pair, 16)`: a leading plus sign is accepted. -/
def hexPairValue (c d : UInt8) : Option UInt8 :=
  if c = 0x2B then
    hexValue d
  else
    match hexValue c, hexValue d with
    | some hi, some lo => some ((hi <<< 4) ||| lo)
    | _, _ => none

/-- A property of bytes is checked on all of them. -/
theorem forall_byte
    {p : UInt8 → Prop}
    (h : ∀ n ∈ List.range 256, p (UInt8.ofNat n))
    (b : UInt8) :
    p b := by
  have hb := h b.toNat (List.mem_range.mpr b.toNat_lt)
  rwa [UInt8.ofNat_toNat] at hb

theorem hexPairValue_hexPair
    (b : UInt8) :
    hexPairValue (hexDigit (b >>> 4)) (hexDigit (b &&& 0x0F)) = some b := by
  refine forall_byte
    (p := fun b => hexPairValue (hexDigit (b >>> 4)) (hexDigit (b &&& 0x0F)) = some b) ?_ b
  decide +kernel

theorem hexPair_ascii
    (b : UInt8) :
    ∀ c ∈ hexPair b, c < 0x80 := by
  have h : (hexPair b).all (· < 0x80) = true := by
    refine forall_byte (p := fun b => (hexPair b).all (· < 0x80) = true) ?_ b
    decide +kernel
  simpa using h

end Digits

section Codec

/-- Encode bytes as lowercase hex. -/
def toHex (bs : List UInt8) : Text where
  bytes := bs.flatMap hexPair
  valid := by
    apply validUtf8_of_ascii
    intro c hc
    obtain ⟨b, -, hb⟩ := List.mem_flatMap.mp hc
    exact hexPair_ascii b c hb

/--
Decode the pairs from byte offset `i` on.  A slice that cuts a character in two
stops the source with a panic; here it is an invalid pair.
-/
def fromHexPairs (i : ℕ) : List UInt8 → Except OpError (List UInt8)
  | c :: d :: rest => do
      let b ← okOr (hexPairValue c d) (Text.lit "invalid hex at offset " ++ Text.ofNat i)
      let bs ← fromHexPairs (i + 2) rest
      return b :: bs
  | _ => .ok []

/-- Decode lowercase or uppercase hex into bytes. -/
def fromHex (s : Text) : Except OpError (List UInt8) :=
  if s.bytes.length % 2 ≠ 0 then
    .error (Text.lit "odd-length hex string (" ++ Text.ofNat s.bytes.length ++
      Text.lit " chars)")
  else
    fromHexPairs 0 s.bytes

/-- Decode hex into a fixed-size array. -/
def fromHexArray (n : ℕ) (s : Text) (what : String) : Except OpError (Bytes n) := do
  let bytes ← fromHex s
  okOr (Bytes.tryFrom n bytes)
    (Text.lit what ++ Text.lit ": expected " ++ Text.ofNat n ++
      Text.lit " bytes of hex, got " ++ Text.ofNat s.bytes.length ++ Text.lit " chars")

/-- Pairs are read back as the bytes that wrote them. -/
theorem fromHexPairs_flatMap
    (bs : List UInt8)
    (i : ℕ) :
    fromHexPairs i (bs.flatMap hexPair) = .ok bs := by
  induction bs generalizing i with
  | nil =>
      rfl
  | cons b bs ih =>
      show fromHexPairs i (hexDigit (b >>> 4) :: hexDigit (b &&& 0x0F) ::
        bs.flatMap hexPair) = .ok (b :: bs)
      rw [fromHexPairs, hexPairValue_hexPair, ih]
      rfl

theorem toHex_length
    (bs : List UInt8) :
    (toHex bs).bytes.length = 2 * bs.length := by
  simp [toHex, List.length_flatMap, hexPair, Nat.mul_comm]

theorem fromHex_toHex
    (bs : List UInt8) :
    fromHex (toHex bs) = .ok bs := by
  have heven : ¬ (toHex bs).bytes.length % 2 ≠ 0 := by
    rw [toHex_length]
    omega
  rw [fromHex, if_neg heven]
  exact fromHexPairs_flatMap bs 0

/-- Hex text is read as an array exactly when it is the hex of that many bytes. -/
theorem fromHexArray_toHex_eq_ok_iff
    {n : ℕ}
    {bs : List UInt8}
    {what : String}
    {v : Bytes n} :
    fromHexArray n (toHex bs) what = .ok v ↔ bs = v.toList := by
  simp [fromHexArray, fromHex_toHex, except_bind_eq_ok_iff]

/-- A byte array is read back from its hex text. -/
@[simp] theorem fromHexArray_toHex
    {n : ℕ}
    (v : Bytes n)
    (what : String) :
    fromHexArray n (toHex v.toList) what = .ok v :=
  fromHexArray_toHex_eq_ok_iff.mpr rfl

/-- Different bytes have different hex texts. -/
theorem toHex_injective :
    Function.Injective toHex := by
  intro bs bs' h
  have hread := fromHex_toHex bs
  rw [h, fromHex_toHex] at hread
  exact (Except.ok.inj hread).symm

end Codec

end OpenCsv
