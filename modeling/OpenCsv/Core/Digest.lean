import Mathlib.Data.ZMod.Basic
import OpenCsv.Lib.Bytes

/-!
# Field elements, digests and the domain-separated hash

The scheme hashes over BabyBear.  A `Digest` is 32 bytes, read as eight
little-endian limbs; a limb is reduced modulo `p`, so several byte strings can
denote the same eight field elements.  Digests produced by the hash are
canonical, but digests received from a peer need not be.

The permutation itself lives outside the repository, so the sponge is a
parameter of everything that hashes.  `hashFelts` is the one entry point: it
prefixes the number of absorbed elements and the domain tag.
-/

namespace OpenCsv

section Field

/-- The BabyBear modulus `0x7800_0001`. -/
abbrev babyBearP : ℕ := 0x78000001

/-- A BabyBear field element. -/
abbrev Felt := ZMod babyBearP

/-- `BabyBear::new`: any `u32` is accepted and reduced. -/
def felt (x : UInt32) : Felt :=
  (x.toNat : Felt)

/-- Chunks of three bytes, each packed little-endian into one element. -/
def bytesToFelts : List UInt8 → List Felt
  | [] => []
  | [a] => [felt (UInt32.ofNat (leNat [a]))]
  | [a, b] => [felt (UInt32.ofNat (leNat [a, b]))]
  | a :: b :: c :: rest =>
      felt (UInt32.ofNat (leNat [a, b, c])) :: bytesToFelts rest

/-- A `u64` as limbs of 24, 24 and 16 bits. -/
def u64ToFelts (v : UInt64) : List Felt :=
  [ felt (v &&& 0xFFFFFF).toUInt32,
    felt ((v >>> 24) &&& 0xFFFFFF).toUInt32,
    felt (v >>> 48).toUInt32 ]

/-- The ASCII bytes of a domain tag. -/
def ascii (s : String) : List UInt8 :=
  s.toList.map (fun c => UInt8.ofNat c.toNat)

theorem felt_ofNat
    {n : ℕ}
    (h : n < 2 ^ 32) :
    felt (UInt32.ofNat n) = (n : Felt) := by
  rw [felt, UInt32.toNat_ofNat']
  congr 1
  exact Nat.mod_eq_of_lt h

/-- Numbers below the modulus are determined by the element they denote. -/
theorem felt_natCast_inj
    {m n : ℕ}
    (hm : m < babyBearP)
    (hn : n < babyBearP)
    (h : (m : Felt) = (n : Felt)) :
    m = n := by
  have hmod := (ZMod.natCast_eq_natCast_iff' m n babyBearP).mp h
  rwa [Nat.mod_eq_of_lt hm, Nat.mod_eq_of_lt hn] at hmod

/-- Three bytes make one element. -/
theorem bytesToFelts_length :
    ∀ bs : List UInt8, (bytesToFelts bs).length = (bs.length + 2) / 3
  | [] => rfl
  | [_] => by simp [bytesToFelts]
  | [_, _] => by simp [bytesToFelts]
  | _ :: _ :: _ :: rest => by
      simp only [bytesToFelts, List.length_cons, bytesToFelts_length rest]
      omega

/-- The canonical value of a packed chunk of at most three bytes. -/
theorem felt_leNat_val
    {bs : List UInt8}
    (h : bs.length ≤ 3) :
    (felt (UInt32.ofNat (leNat bs))).val = leNat bs := by
  have hlt : leNat bs < 2 ^ 24 :=
    (leNat_lt bs).trans_le (Nat.pow_le_pow_right (by norm_num) h)
  rw [felt_ofNat (hlt.trans (by norm_num))]
  exact ZMod.val_cast_of_lt (hlt.trans (by decide))

end Field

/-- A full digest: 32 bytes. -/
@[ext] structure Digest where
  bytes : Bytes 32
deriving DecidableEq

/-- The 24-byte prefix of a digest that anchor records carry. -/
@[ext] structure TruncatedDigest where
  bytes : Bytes 24
deriving DecidableEq

/-- The eight field elements of a digest. -/
abbrev Elems := List.Vector Felt 8

namespace Digest

/-- Little-endian `u32` limbs (`chunks_exact(4)`). -/
def limbs : List UInt8 → List ℕ
  | a :: b :: c :: d :: rest => leNat [a, b, c, d] :: limbs rest
  | _ => []

theorem limbs_length :
    ∀ bs : List UInt8, (limbs bs).length = bs.length / 4
  | [] => rfl
  | [_] => by simp [limbs]
  | [_, _] => by simp [limbs]
  | [_, _, _] => by simp [limbs]
  | _ :: _ :: _ :: _ :: rest => by
      simp only [limbs, List.length_cons, limbs_length rest]
      omega

/-- Every limb is below `p`. -/
def isCanonical (d : Digest) : Bool :=
  (limbs d.bytes.toList).all (fun x => decide (x < babyBearP))

/-- The field elements a digest denotes; non-canonical limbs are reduced. -/
def toElems (d : Digest) : Elems :=
  ⟨(limbs d.bytes.toList).map (fun x => felt (UInt32.ofNat x)), by
    simp [limbs_length]⟩

/-- The canonical encoding of eight field elements. -/
def fromElems (e : Elems) : Digest :=
  ⟨⟨e.toList.flatMap (fun x => leBytes 4 x.val), by
    simp [List.length_flatMap, List.map_const']⟩⟩

/-- The 24-byte prefix carried on chain. -/
def toAnchor (d : Digest) : TruncatedDigest :=
  ⟨d.bytes.slice 0 24 (by decide)⟩

/-- The all-zero digest. -/
def zero : Digest :=
  ⟨Bytes.zero 32⟩

/-- The digest whose bytes are all `b`. -/
def fill (b : UInt8) : Digest :=
  ⟨List.Vector.replicate 32 b⟩

/-- Limbs of a canonical encoding are the canonical representatives. -/
theorem limbs_flatMap_leBytes
    (xs : List Felt) :
    limbs (xs.flatMap (fun x => leBytes 4 x.val)) = xs.map ZMod.val := by
  induction xs with
  | nil =>
      rfl
  | cons x xs ih =>
      have hlt : x.val < 256 ^ 4 :=
        (ZMod.val_lt x).trans (by decide)
      have hlimb : leNat (leBytes 4 x.val) = x.val := by
        rw [leNat_leBytes, Nat.mod_eq_of_lt hlt]
      simp only [leBytes] at hlimb ⊢
      simp only [List.flatMap_cons, List.cons_append, List.nil_append, limbs, hlimb,
        List.map_cons, leBytes] at ih ⊢
      rw [ih]

/-- Encoding and decoding eight field elements is the identity. -/
@[simp] theorem toElems_fromElems
    (e : Elems) :
    (fromElems e).toElems = e := by
  apply Subtype.ext
  show (limbs (e.toList.flatMap (fun x => leBytes 4 x.val))).map
      (fun x => felt (UInt32.ofNat x)) = e.toList
  rw [limbs_flatMap_leBytes, List.map_map]
  conv_rhs => rw [← List.map_id e.toList]
  apply List.map_congr_left
  intro x _
  have hlt : x.val < 2 ^ 32 :=
    (ZMod.val_lt x).trans (by decide)
  simp [felt_ofNat hlt]

theorem fromElems_injective :
    Function.Injective fromElems := by
  intro e f h
  rw [← toElems_fromElems e, h, toElems_fromElems]

/-- A digest produced from field elements is canonical. -/
theorem isCanonical_fromElems
    (e : Elems) :
    (fromElems e).isCanonical = true := by
  show (limbs (e.toList.flatMap (fun x => leBytes 4 x.val))).all _ = true
  rw [limbs_flatMap_leBytes]
  simp only [List.all_map, List.all_eq_true, Function.comp_apply, decide_eq_true_eq]
  intro x _
  exact ZMod.val_lt x

/-- Limbs determine a byte string whose length is a multiple of four. -/
theorem limbs_injective :
    ∀ {bs cs : List UInt8},
      bs.length = cs.length → 4 ∣ bs.length →
      limbs bs = limbs cs → bs = cs
  | [], [], _, _, _ => rfl
  | [_], _, _, h4, _ => by simp at h4
  | [_, _], _, _, h4, _ => by norm_num at h4
  | [_, _, _], _, _, h4, _ => by norm_num at h4
  | _ :: _ :: _ :: _ :: _, [], hlen, _, _ => by simp at hlen
  | _ :: _ :: _ :: _ :: _, [_], hlen, _, _ => by simp at hlen
  | _ :: _ :: _ :: _ :: _, [_, _], hlen, _, _ => by simp at hlen
  | _ :: _ :: _ :: _ :: _, [_, _, _], hlen, _, _ => by simp at hlen
  | a :: b :: c :: d :: bs, a' :: b' :: c' :: d' :: cs, hlen, h4, h => by
      simp only [limbs, List.cons.injEq] at h
      have hhead : [a, b, c, d] = [a', b', c', d'] :=
        leNat_injective rfl h.1
      have htail : bs = cs := by
        apply limbs_injective _ _ h.2
        · simpa using hlen
        · simp only [List.length_cons] at h4
          omega
      simp only [List.cons.injEq, and_true] at hhead
      obtain ⟨rfl, rfl, rfl, rfl⟩ := hhead
      rw [htail]

/-- Limbs below the modulus are read back from the elements they denote. -/
theorem map_val_map_felt
    {xs : List ℕ}
    (h : ∀ x ∈ xs, x < babyBearP) :
    (xs.map (fun x => felt (UInt32.ofNat x))).map ZMod.val = xs := by
  rw [List.map_map]
  conv_rhs => rw [← List.map_id xs]
  apply List.map_congr_left
  intro x hx
  have hlt : x < 2 ^ 32 :=
    (h x hx).trans (by decide)
  simp only [Function.comp_apply, felt_ofNat hlt, id_eq]
  exact ZMod.val_cast_of_lt (h x hx)

/-- Canonical digests are equal when they denote the same field elements. -/
theorem eq_of_toElems_eq
    {d e : Digest}
    (hd : d.isCanonical = true)
    (he : e.isCanonical = true)
    (h : d.toElems = e.toElems) :
    d = e := by
  have hcast : (limbs d.bytes.toList).map (fun x => felt (UInt32.ofNat x)) =
      (limbs e.bytes.toList).map (fun x => felt (UInt32.ofNat x)) :=
    congrArg List.Vector.toList h
  simp only [isCanonical, List.all_eq_true, decide_eq_true_eq] at hd he
  have hlimbs : limbs d.bytes.toList = limbs e.bytes.toList := by
    rw [← map_val_map_felt hd, hcast, map_val_map_felt he]
  have hbytes : d.bytes.toList = e.bytes.toList :=
    limbs_injective (by simp) (by simp) hlimbs
  exact Digest.ext (Bytes.ext_toList hbytes)

end Digest

/-- The permutation-based hash of a list of elements (outside the source). -/
abbrev Sponge := List Felt → Elems

/-- One lane of `foldSponge`: a polynomial evaluation. -/
def foldLane (seed : Felt) (xs : List Felt) : Felt :=
  xs.foldl (fun acc x => acc * (seed + 31) + x) seed

/-- A small executable sponge, for concrete instances. -/
def foldSponge : Sponge := fun xs =>
  ⟨[1, 2, 3, 4, 5, 6, 7, 8].map (fun seed => foldLane seed xs), rfl⟩

/--
`H(domain ∥ parts…) = Sponge([N] ∥ domain ∥ parts…)`, with `N` the number of
elements absorbed after the length prefix.
-/
def hashElems
    (sponge : Sponge)
    (domain : String)
    (parts : List (List Felt)) : Elems :=
  let domainFelts := bytesToFelts (ascii domain)
  let n := domainFelts.length + (parts.map List.length).sum
  sponge (felt (UInt32.ofNat n) :: (domainFelts ++ parts.flatten))

/-- The hash as a digest in canonical encoding. -/
def hashFelts
    (sponge : Sponge)
    (domain : String)
    (parts : List (List Felt)) : Digest :=
  Digest.fromElems (hashElems sponge domain parts)

@[simp] theorem toElems_hashFelts
    (sponge : Sponge)
    (domain : String)
    (parts : List (List Felt)) :
    (hashFelts sponge domain parts).toElems = hashElems sponge domain parts :=
  Digest.toElems_fromElems _

theorem isCanonical_hashFelts
    (sponge : Sponge)
    (domain : String)
    (parts : List (List Felt)) :
    (hashFelts sponge domain parts).isCanonical = true :=
  Digest.isCanonical_fromElems _

end OpenCsv
