import OpenCsv.Lib.Utf8

/-!
# Base64

A base64 codec as a parameter of developments that store bytes in text, and the
standard alphabet with padding as an executable instance.
-/

namespace OpenCsv

/-- A codec between bytes and text. -/
structure Base64 where
  encode : List UInt8 → Text
  decode : Text → Except Text (List UInt8)

namespace Base64

/-- The codec reads back what it wrote for these bytes. -/
def RoundTrips (codec : Base64) (bytes : List UInt8) : Prop :=
  codec.decode (codec.encode bytes) = .ok bytes

/-- The digit of a value below 64. -/
def digit (n : UInt8) : UInt8 :=
  if n < 26 then 0x41 + n
  else if n < 52 then 0x61 + (n - 26)
  else if n < 62 then 0x30 + (n - 52)
  else if n = 62 then 0x2B
  else 0x2F

/-- The value of a digit. -/
def value (c : UInt8) : Option UInt8 :=
  if 0x41 ≤ c ∧ c ≤ 0x5A then some (c - 0x41)
  else if 0x61 ≤ c ∧ c ≤ 0x7A then some (c - 0x61 + 26)
  else if 0x30 ≤ c ∧ c ≤ 0x39 then some (c - 0x30 + 52)
  else if c = 0x2B then some 62
  else if c = 0x2F then some 63
  else none

def pad : UInt8 := 0x3D

/-- Four digits for three bytes; the last group is padded. -/
def encodeBytes : List UInt8 → List UInt8
  | a :: b :: c :: rest =>
      digit (a >>> 2) :: digit ((a &&& 3) <<< 4 ||| b >>> 4) ::
        digit ((b &&& 15) <<< 2 ||| c >>> 6) :: digit (c &&& 63) :: encodeBytes rest
  | [a, b] =>
      [digit (a >>> 2), digit ((a &&& 3) <<< 4 ||| b >>> 4), digit ((b &&& 15) <<< 2), pad]
  | [a] => [digit (a >>> 2), digit ((a &&& 3) <<< 4), pad, pad]
  | [] => []

/-- One group of four digits; `last` allows padding and asks for zero trailing bits. -/
def decodeGroup (last : Bool) (p q r s : UInt8) : Option (List UInt8) :=
  match value p, value q, value r, value s with
  | some a, some b, some c, some d =>
      some [a <<< 2 ||| b >>> 4, b <<< 4 ||| c >>> 2, c <<< 6 ||| d]
  | some a, some b, some c, none =>
      if last && s == pad && c &&& 3 == 0 then
        some [a <<< 2 ||| b >>> 4, b <<< 4 ||| c >>> 2]
      else
        none
  | some a, some b, none, none =>
      if last && r == pad && s == pad && b &&& 15 == 0 then
        some [a <<< 2 ||| b >>> 4]
      else
        none
  | _, _, _, _ => none

def decodeBytes : List UInt8 → Option (List UInt8)
  | [] => some []
  | p :: q :: r :: s :: rest => do
      let group ← decodeGroup rest.isEmpty p q r s
      let tail ← decodeBytes rest
      return group ++ tail
  | _ => none

/-- The standard alphabet with padding. -/
def standard : Base64 where
  encode := fun bytes => Text.fromUtf8Lossy (encodeBytes bytes)
  decode := fun text =>
    match decodeBytes text.bytes with
    | some bytes => .ok bytes
    | none => .error (Text.lit "invalid base64")

example : encodeBytes [0x4D, 0x61, 0x6E, 0x4D] =
    [0x54, 0x57, 0x46, 0x75, 0x54, 0x51, 0x3D, 0x3D] := by
  decide

end Base64

end OpenCsv
