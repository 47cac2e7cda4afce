import OpenCsv.Lib.Bytes

/-!
# SHA-256

The hash function as an executable definition, for concrete instances of
developments that take it as a parameter.
-/

namespace OpenCsv

namespace Sha2

/-- The round constants. -/
def roundConstants : List UInt32 :=
  [
    0x428a2f98, 0x71374491, 0xb5c0fbcf, 0xe9b5dba5, 0x3956c25b, 0x59f111f1, 0x923f82a4, 0xab1c5ed5,
    0xd807aa98, 0x12835b01, 0x243185be, 0x550c7dc3, 0x72be5d74, 0x80deb1fe, 0x9bdc06a7, 0xc19bf174,
    0xe49b69c1, 0xefbe4786, 0x0fc19dc6, 0x240ca1cc, 0x2de92c6f, 0x4a7484aa, 0x5cb0a9dc, 0x76f988da,
    0x983e5152, 0xa831c66d, 0xb00327c8, 0xbf597fc7, 0xc6e00bf3, 0xd5a79147, 0x06ca6351, 0x14292967,
    0x27b70a85, 0x2e1b2138, 0x4d2c6dfc, 0x53380d13, 0x650a7354, 0x766a0abb, 0x81c2c92e, 0x92722c85,
    0xa2bfe8a1, 0xa81a664b, 0xc24b8b70, 0xc76c51a3, 0xd192e819, 0xd6990624, 0xf40e3585, 0x106aa070,
    0x19a4c116, 0x1e376c08, 0x2748774c, 0x34b0bcb5, 0x391c0cb3, 0x4ed8aa4a, 0x5b9cca4f, 0x682e6ff3,
    0x748f82ee, 0x78a5636f, 0x84c87814, 0x8cc70208, 0x90befffa, 0xa4506ceb, 0xbef9a3f7, 0xc67178f2 ]

def rotr (x : UInt32) (n : UInt32) : UInt32 :=
  x >>> n ||| x <<< (32 - n)

/-- The eight working variables. -/
structure State where
  a : UInt32
  b : UInt32
  c : UInt32
  d : UInt32
  e : UInt32
  f : UInt32
  g : UInt32
  h : UInt32

def initial : State where
  a := 0x6a09e667
  b := 0xbb67ae85
  c := 0x3c6ef372
  d := 0xa54ff53a
  e := 0x510e527f
  f := 0x9b05688c
  g := 0x1f83d9ab
  h := 0x5be0cd19

def round (s : State) (kw : UInt32 × UInt32) : State :=
  let t₁ := s.h + (rotr s.e 6 ^^^ rotr s.e 11 ^^^ rotr s.e 25) +
    ((s.e &&& s.f) ^^^ (~~~s.e &&& s.g)) + kw.1 + kw.2
  let t₂ := (rotr s.a 2 ^^^ rotr s.a 13 ^^^ rotr s.a 22) +
    ((s.a &&& s.b) ^^^ (s.a &&& s.c) ^^^ (s.b &&& s.c))
  ⟨t₁ + t₂, s.a, s.b, s.c, s.d + t₁, s.e, s.f, s.g⟩

/-- Extend the message schedule, held newest first, by `n` words. -/
def extend : ℕ → List UInt32 → List UInt32
  | 0, ws => ws
  | n + 1, ws =>
      let w := fun i => ws.getD i 0
      let s₀ := rotr (w 14) 7 ^^^ rotr (w 14) 18 ^^^ w 14 >>> 3
      let s₁ := rotr (w 1) 17 ^^^ rotr (w 1) 19 ^^^ w 1 >>> 10
      extend n ((w 15 + s₀ + w 6 + s₁) :: ws)

def compress (s : State) (block : List UInt32) : State :=
  let r := (roundConstants.zip (extend 48 block.reverse).reverse).foldl round s
  ⟨s.a + r.a, s.b + r.b, s.c + r.c, s.d + r.d, s.e + r.e, s.f + r.f, s.g + r.g, s.h + r.h⟩

/-- Big-endian bytes of a number. -/
def beBytes (width n : ℕ) : List UInt8 :=
  (leBytes width n).reverse

/-- Big-endian words. -/
def words : List UInt8 → List UInt32
  | x₀ :: x₁ :: x₂ :: x₃ :: rest =>
      (x₀.toUInt32 <<< 24 ||| x₁.toUInt32 <<< 16 ||| x₂.toUInt32 <<< 8 ||| x₃.toUInt32) ::
        words rest
  | _ => []

/-- The padded message. -/
def pad (data : List UInt8) : List UInt8 :=
  data ++ 0x80 :: List.replicate ((119 - data.length % 64) % 64) 0 ++
    beBytes 8 (8 * data.length)

/-- Fold the compression over the 16-word blocks. -/
def absorb : ℕ → State → List UInt32 → State
  | 0, s, _ => s
  | n + 1, s, ws => absorb n (compress s (ws.take 16)) (ws.drop 16)

/-- The eight words of a state, as bytes. -/
def State.toBytes (s : State) : List UInt8 :=
  [s.a, s.b, s.c, s.d, s.e, s.f, s.g, s.h].flatMap (fun w => beBytes 4 w.toNat)

/-- SHA-256 of a byte string. -/
def sha256 (data : List UInt8) : Bytes 32 :=
  let ws := words (pad data)
  ⟨(absorb (ws.length / 16) initial ws).toBytes, by simp [State.toBytes, beBytes]⟩

/-- The digest of the three bytes `abc`. -/
example : (sha256 [0x61, 0x62, 0x63]).toList.take 8 =
    [0xba, 0x78, 0x16, 0xbf, 0x8f, 0x01, 0xcf, 0xea] := by
  decide +kernel

end Sha2

end OpenCsv
