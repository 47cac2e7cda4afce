import OpenCsv.Kernel.Hash
import OpenCsv.Lib.OverwriteSponge

/-!
# The sponge inside the circuits

The circuits hash with rows of the permutation table.  A row takes four limbs of four elements;
a limb without a value inherits what the row before it put out, and the first row starts from
zeros.  The native hash runs the sponge of the library over the same elements.

A circuit that an assertion refuses is `none`.

**Results.** One row overwrites the state with its block (`PcdHash.permRow_eq`), and the digest
of the circuit is the native one (`PcdHash.inCircuitHash_eq`).
-/

namespace OpenCsv

/-- The elements of a permutation. -/
abbrev PermState := Fin 16 → Felt

/-- An extension limb, as its base coefficients. -/
abbrev ExtLimb := Fin 4 → Felt

def spongeRate : ℕ := 8

section Native

variable (perm : PermState → PermState)

/-- `PaddingFreeSponge::hash_iter`. -/
def paddingFreeSponge : Sponge :=
  fun input =>
    let state := OverwriteSponge.absorb perm spongeRate 0 (fun _ => 0) input
    ⟨List.ofFn (fun i : Fin 8 => state ⟨i, by omega⟩), List.length_ofFn⟩

/-- `hash_felts`, for a domain in bytes. -/
def coreHash (domain : List UInt8) (parts : List (List Felt)) : Digest :=
  let domainFelts := bytesToFelts domain
  let n := domainFelts.length + (parts.map List.length).sum
  Digest.fromElems (paddingFreeSponge perm
    (felt (UInt32.ofNat n) :: (domainFelts ++ parts.flatten)))

theorem coreHash_ascii
    (domain : String)
    (parts : List (List Felt)) :
    coreHash perm (ascii domain) parts = hashFelts (paddingFreeSponge perm) domain parts :=
  rfl

end Native

namespace PcdHash

section Constants

/-- `chunks(n)`. -/
def chunksOf {α : Type} (n : ℕ) (xs : List α) : List (List α) :=
  (List.range ((xs.length + (n - 1)) / n)).map (fun i => (xs.drop (n * i)).take n)

/-- A chunk of at most three bytes, little-endian. -/
def packChunk (chunk : List UInt8) : Felt :=
  felt (UInt32.ofNat (leNat chunk))

/-- A domain tag as constants of a circuit. -/
def domainFelts (tag : List UInt8) : List Felt :=
  (chunksOf 3 tag).map packChunk

def oskElems : ℕ := 11

/-- An owner secret as constants of a circuit: chunks are written into an array of zeros. -/
def oskFelts (osk : Bytes 32) : List Felt :=
  (chunksOf 3 osk.toList).zipIdx.foldl (fun out (chunk, i) => out.set i (packChunk chunk))
    (List.replicate oskElems 0)

theorem domainFelts_eq
    (tag : List UInt8) :
    domainFelts tag = bytesToFelts tag := by
  rw [← Kernel.bytesToFelts_eq, domainFelts, chunksOf, List.map_map]
  rfl

/-- Writing a list into an array of its length, from position `i` on. -/
theorem foldl_set_zipIdx
    {α β : Type}
    (f : α → β)
    {xs : List α}
    {done rest : List β}
    (h : rest.length = xs.length) :
    (xs.zipIdx done.length).foldl (fun out (x, i) => out.set i (f x)) (done ++ rest) =
      done ++ xs.map f := by
  induction xs generalizing done rest with
  | nil =>
      rw [List.length_nil] at h
      rw [List.length_eq_zero_iff.mp h]
      rfl
  | cons x xs ih =>
      cases rest with
      | nil => simp at h
      | cons r rest =>
          have hnext := @ih (done ++ [f x]) rest (by simpa using h)
          simpa [List.zipIdx_cons, List.set_append] using hnext

theorem oskFelts_eq
    (osk : Bytes 32) :
    oskFelts osk = bytesToFelts osk.toList := by
  have hlen : (chunksOf 3 osk.toList).length = oskElems := by
    simp [chunksOf, oskElems]
  have hwrite := @foldl_set_zipIdx _ _ packChunk (chunksOf 3 osk.toList) []
    (List.replicate oskElems 0) (by rw [List.length_replicate, hlen])
  rw [← domainFelts_eq]
  exact hwrite

end Constants

section Circuit

variable (perm : PermState → PermState)

/-- What the sponge absorbs: `[N] ∥ domain_felts ∥ parts…`. -/
def hashInput (domain : List UInt8) (parts : List (List Felt)) : List Felt :=
  let domain := domainFelts domain
  let n := domain.length + (parts.map List.length).sum
  felt (UInt32.ofNat n) :: (domain ++ parts.flatten)

/-- `decompose_ext_to_base_coeffs`. -/
def decomposeExt (limb : ExtLimb) : List Felt :=
  List.ofFn limb

/-- `recompose_base_coeffs_to_ext`. -/
def recomposeExt (coeffs : List Felt) : ExtLimb :=
  fun j => coeffs.getD j 0

/-- The rate limb of a state. -/
def rateLimb (out : PermState) (extIdx : Fin 2) : ExtLimb :=
  fun j => out ⟨4 * extIdx + j, by omega⟩

/--
The value of a rate limb in one row, if the chunk reaches it; a limb that it covers in part
keeps the last coefficients of the row before.  The first row has none before it.
-/
def limbInput
    (newStart : Bool)
    (prev : PermState)
    (chunk : List Felt)
    (extIdx : Fin 2) : Option (Option ExtLimb) :=
  let baseStart := 4 * extIdx.val
  let n := min (chunk.length - baseStart) 4
  if n = 0 then some none
  else
    let coeffs := (chunk.drop baseStart).take n
    if n < 4 then
      if newStart then none
      else some (some (recomposeExt (coeffs ++ (decomposeExt (rateLimb prev extIdx)).drop n)))
    else some (some (recomposeExt coeffs))

/-- One row of the permutation table. -/
def permRow (newStart : Bool) (prev : PermState) (inputs : List (Option ExtLimb)) : PermState :=
  perm (fun i =>
    match inputs.getD (i.val / 4) none with
    | some limb => limb ⟨i.val % 4, Nat.mod_lt _ (by decide)⟩
    | none => if newStart then 0 else prev i)

/-- The rows of a number of chunks; the capacity limbs never get a value. -/
def spongeRows : ℕ → Bool → PermState → List Felt → Option PermState
  | 0, _, prev, _ => some prev
  | rows + 1, newStart, prev, absorbed => do
      let chunk := absorbed.take spongeRate
      let limb₀ ← limbInput newStart prev chunk 0
      let limb₁ ← limbInput newStart prev chunk 1
      spongeRows rows false (permRow perm newStart prev [limb₀, limb₁, none, none])
        (absorbed.drop spongeRate)

/-- `sponge_absorb`: the rate limbs of the last row. -/
def spongeAbsorb (absorbed : List Felt) : Option (ExtLimb × ExtLimb) :=
  if absorbed.length < spongeRate then none
  else
    (spongeRows perm ((absorbed.length + (spongeRate - 1)) / spongeRate) true (fun _ => 0)
      absorbed).map (fun out => (rateLimb out 0, rateLimb out 1))

/-- `hash_felts_base`: the digest of a circuit, in base elements. -/
def inCircuitHash (domain : List UInt8) (parts : List (List Felt)) : Option Elems :=
  (spongeAbsorb perm (hashInput domain parts)).map (fun (limb₀, limb₁) =>
    ⟨decomposeExt limb₀ ++ decomposeExt limb₁, by simp [decomposeExt]⟩)

end Circuit

section Rows

variable {perm : PermState → PermState}

/-- The limb of a chunk, coefficient by coefficient. -/
theorem limbInput_eq
    {newStart : Bool}
    {prev : PermState}
    {chunk : List Felt}
    (hfull : newStart = true → 8 ≤ chunk.length)
    (extIdx : Fin 2) :
    ∃ limb, limbInput newStart prev chunk extIdx = some limb ∧
      ∀ j : Fin 4, limb.elim (rateLimb prev extIdx j) (fun l => l j) =
        (chunk[4 * extIdx.val + j.val]?).getD (rateLimb prev extIdx j) := by
  have hidx := extIdx.isLt
  rw [limbInput]
  dsimp only
  by_cases hzero : min (chunk.length - 4 * extIdx.val) 4 = 0
  · refine ⟨none, by rw [if_pos hzero], fun j => ?_⟩
    rw [List.getElem?_eq_none (by omega)]
    rfl
  · rw [if_neg hzero]
    by_cases hpart : min (chunk.length - 4 * extIdx.val) 4 < 4
    · have hold : newStart = false := by
        cases newStart with
        | false => rfl
        | true =>
            have := hfull rfl
            omega
      rw [if_pos hpart, hold]
      refine ⟨_, rfl, fun j => ?_⟩
      have hmin : min (chunk.length - 4 * extIdx.val) 4 = chunk.length - 4 * extIdx.val := by omega
      simp only [Option.elim_some, recomposeExt, hmin]
      rw [List.getD_eq_getElem?_getD]
      by_cases hj : j.val < chunk.length - 4 * extIdx.val
      · rw [List.getElem?_append_left (by simp; omega), List.getElem?_take_of_lt hj,
          List.getElem?_drop, List.getElem?_eq_getElem (by omega)]
        rfl
      · have hlen : ((chunk.drop (4 * extIdx.val)).take (chunk.length - 4 * extIdx.val)).length =
            chunk.length - 4 * extIdx.val := by simp
        have hsum : chunk.length - 4 * extIdx.val + (j.val - (chunk.length - 4 * extIdx.val)) =
            j.val := by omega
        have hkept : (decomposeExt (rateLimb prev extIdx))[j.val]? =
            some (rateLimb prev extIdx j) := by
          rw [decomposeExt, List.getElem?_eq_getElem (by rw [List.length_ofFn]; exact j.isLt),
            List.getElem_ofFn]
        rw [List.getElem?_append_right (by omega), hlen, List.getElem?_drop, hsum, hkept,
          List.getElem?_eq_none (by omega : chunk.length ≤ 4 * extIdx.val + j.val)]
        rfl
    · rw [if_neg hpart]
      refine ⟨_, rfl, fun j => ?_⟩
      have hj := j.isLt
      have hmin : min (chunk.length - 4 * extIdx.val) 4 = 4 := by omega
      simp only [Option.elim_some, recomposeExt, hmin]
      rw [List.getD_eq_getElem?_getD, List.getElem?_take_of_lt hj, List.getElem?_drop,
        List.getElem?_eq_getElem (by omega)]
      rfl

/-- A row overwrites the state before it with its chunk. -/
theorem permRow_eq
    {newStart : Bool}
    {prev : PermState}
    {chunk : List Felt}
    {limb₀ limb₁ : Option ExtLimb}
    (hstart : newStart = true → prev = fun _ => 0)
    (hlen : chunk.length ≤ 8)
    (h₀ : ∀ j : Fin 4, limb₀.elim (rateLimb prev 0 j) (fun l => l j) =
      (chunk[4 * (0 : Fin 2).val + j.val]?).getD (rateLimb prev 0 j))
    (h₁ : ∀ j : Fin 4, limb₁.elim (rateLimb prev 1 j) (fun l => l j) =
      (chunk[4 * (1 : Fin 2).val + j.val]?).getD (rateLimb prev 1 j)) :
    permRow perm newStart prev [limb₀, limb₁, none, none] =
      perm (OverwriteSponge.overwrite prev 0 chunk) := by
  have hinherit : ∀ i, (if newStart then 0 else prev i) = prev i := by
    intro i
    cases newStart with
    | false => rfl
    | true => rw [hstart rfl, if_pos rfl]
  rw [permRow]
  congr 1
  funext i
  rw [OverwriteSponge.overwrite_apply, if_pos (Nat.zero_le _), Nat.sub_zero]
  have hi := i.isLt
  rcases (by omega : i.val / 4 = 0 ∨ i.val / 4 = 1 ∨ i.val / 4 = 2 ∨ i.val / 4 = 3) with
    hq | hq | hq | hq
  · have hrate : rateLimb prev 0 ⟨i.val % 4, Nat.mod_lt _ (by decide)⟩ = prev i :=
      congrArg prev (Fin.ext (by simp only [Fin.val_zero]; omega))
    have hpos : 4 * (0 : Fin 2).val + i.val % 4 = i.val := by simp only [Fin.val_zero]; omega
    have hj := h₀ ⟨i.val % 4, Nat.mod_lt _ (by decide)⟩
    rw [hrate, hpos] at hj
    rw [hq, ← hj, hinherit]
    cases limb₀ <;> rfl
  · have hrate : rateLimb prev 1 ⟨i.val % 4, Nat.mod_lt _ (by decide)⟩ = prev i :=
      congrArg prev (Fin.ext (by simp only [Fin.val_one]; omega))
    have hpos : 4 * (1 : Fin 2).val + i.val % 4 = i.val := by simp only [Fin.val_one]; omega
    have hj := h₁ ⟨i.val % 4, Nat.mod_lt _ (by decide)⟩
    rw [hrate, hpos] at hj
    rw [hq, ← hj, hinherit]
    cases limb₁ <;> rfl
  · rw [hq, hinherit, List.getElem?_eq_none (by omega)]
    rfl
  · rw [hq, hinherit, List.getElem?_eq_none (by omega)]
    rfl

/-- The rows of the circuit are those of the sponge, from any row on. -/
theorem spongeRows_eq
    {rows : ℕ}
    {newStart : Bool}
    {prev : PermState}
    {absorbed : List Felt}
    (hstart : newStart = true → (prev = fun _ => 0) ∧ spongeRate ≤ absorbed.length) :
    spongeRows perm rows newStart prev absorbed =
      some (OverwriteSponge.rows perm spongeRate rows prev absorbed) := by
  induction rows generalizing newStart prev absorbed with
  | zero =>
      rfl
  | succ rows ih =>
      have hfull : newStart = true → 8 ≤ (absorbed.take spongeRate).length := by
        intro h
        have hle := (hstart h).2
        rw [spongeRate] at hle ⊢
        rw [List.length_take]
        omega
      obtain ⟨limb₀, hlimb₀, h₀⟩ := @limbInput_eq _ prev _ hfull 0
      obtain ⟨limb₁, hlimb₁, h₁⟩ := @limbInput_eq _ prev _ hfull 1
      have hrow := @permRow_eq perm _ _ _ _ _ (fun h => (hstart h).1)
        (List.length_take_le spongeRate absorbed) h₀ h₁
      rw [spongeRows, OverwriteSponge.rows]
      simp only [hlimb₀, hlimb₁, Option.bind_eq_bind, Option.bind_some]
      rw [hrow]
      exact ih (fun h => by cases h)

end Rows

/--
The hash of the circuits.  Whatever the permutation, the sponge in the circuit has the digest of
the native hash on every domain and all parts that fill a first block; and the constants of a
circuit are the native encodings of bytes.
-/
theorem inCircuitHash_eq
    (perm : PermState → PermState)
    (domain : List UInt8)
    (parts : List (List Felt))
    (hlen : spongeRate ≤ (hashInput domain parts).length) :
    (inCircuitHash perm domain parts).map Digest.fromElems = some (coreHash perm domain parts) ∧
      (∀ tag : List UInt8, domainFelts tag = bytesToFelts tag) ∧
      ∀ osk : Bytes 32, oskFelts osk = bytesToFelts osk.toList := by
  refine ⟨?_, domainFelts_eq, oskFelts_eq⟩
  have hrows := @spongeRows_eq perm
    (((hashInput domain parts).length + (spongeRate - 1)) / spongeRate) true (fun _ => 0)
    (hashInput domain parts) (fun _ => ⟨rfl, hlen⟩)
  have hinput : hashInput domain parts =
      felt (UInt32.ofNat ((bytesToFelts domain).length + (parts.map List.length).sum)) ::
        (bytesToFelts domain ++ parts.flatten) := by
    rw [hashInput, domainFelts_eq]
  have habsorb := @OverwriteSponge.absorb_eq_rows _ _ perm spongeRate (by decide) _
    (fun _ => 0) (hashInput domain parts) rfl
  rw [inCircuitHash, spongeAbsorb, if_neg (Nat.not_lt.mpr hlen), hrows, coreHash,
    paddingFreeSponge]
  dsimp only
  rw [← hinput, habsorb]
  simp only [Option.map_some]
  congr 1

/-- Move every element one place. -/
def rotatePerm : PermState → PermState :=
  fun state i => state (i + 1)

/-- Eleven elements make a full row and a row that its last limb covers in part. -/
theorem inCircuitHash_eq_tail :
    (inCircuitHash rotatePerm (ascii "null") [List.replicate 8 7]).map Digest.fromElems =
      some (hashFelts (paddingFreeSponge rotatePerm) "null" [List.replicate 8 7]) :=
  (inCircuitHash_eq rotatePerm (ascii "null") [List.replicate 8 7] (by decide)).1

end PcdHash

end OpenCsv
