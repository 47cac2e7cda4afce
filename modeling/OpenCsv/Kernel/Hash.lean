import OpenCsv.Core.Batch

/-!
# The hash of the kernel

The kernel carries its own encoders of bytes, digests and hash inputs, apart from the ones of
the core, and its own occurrence test for batches.

**Results.**
* `absorbed_eq`, `bytesToFelts_eq`, `digestToFelts_eq`: the encoders agree with the core's.
* `hashBatch_eq`, `binding_eq`: so do the hashes of a batch and of a binding.
-/

namespace OpenCsv

namespace Kernel

section Encoders

/-- Words of three bytes, the last one padded with zeros. -/
def bytesToFelts (bytes : List UInt8) : List Felt :=
  (List.range ((bytes.length + 2) / 3)).map (fun i =>
    felt (UInt32.ofNat (leNat ((bytes.drop (3 * i)).take 3))))

/-- Eight limbs of four bytes. -/
def digestToFelts (bytes : Bytes 32) : List Felt :=
  (List.range 8).map (fun index =>
    felt (UInt32.ofNat (leNat ((bytes.toList.drop (index * 4)).take 4))))

/-- What the sponge absorbs: a length, the domain and the parts. -/
def absorbed (domain : String) (parts : List (List Felt)) : List Felt :=
  let domainFelts := bytesToFelts (ascii domain)
  let partLen := (parts.map List.length).sum
  let inputLen := domainFelts.length + partLen
  felt (UInt32.ofNat inputLen) :: (domainFelts ++ parts.flatten)

/-- `H("bind" ∥ raw_nf ∥ ctx)` is the hash of this. -/
def bindInput (rawNf ctx : Bytes 32) : List Felt :=
  absorbed "bind" [digestToFelts rawNf, bytesToFelts ctx.toList]

/-- `H("batch" ∥ P_1 ∥ … ∥ P_n ∥ ctx)` is the hash of this. -/
def batchInput (payloads : List (Bytes 24)) (ctx : Bytes 32) : List Felt :=
  absorbed "batch"
    [bytesToFelts (payloads.flatMap List.Vector.toList), bytesToFelts ctx.toList]

end Encoders

section Hashes

variable (sponge : Sponge)

/-- The output of the sponge in canonical limbs. -/
def hashBytes (input : List Felt) : Bytes 32 :=
  ⟨(sponge input).toList.flatMap (fun x => leBytes 4 x.val), by
    simp [List.length_flatMap, List.map_const']⟩

def hashBind (rawNf ctx : Bytes 32) : Bytes 32 :=
  hashBytes sponge (bindInput rawNf ctx)

def hashBatch (payloads : List (Bytes 24)) (ctx : Bytes 32) : Bytes 32 :=
  hashBytes sponge (batchInput payloads ctx)

theorem truncate24_le :
    0 + 24 ≤ 32 := by
  decide

/-- The 24-byte anchor-carrying prefix of a digest. -/
def truncate24 (digest : Bytes 32) : Bytes 24 :=
  digest.slice 0 24 truncate24_le

/-- The on-chain payload of a raw value under a context. -/
def binding (raw ctx : Bytes 32) : Bytes 24 :=
  truncate24 (hashBind sponge raw ctx)

/-- Is `rawNf` an occurrence of this batch?  The index of its payload. -/
def batchOccurrence
    (count : UInt8)
    (batchCommit : Bytes 24)
    (envelope : List (Bytes 24))
    (ctx rawNf : Bytes 32) : Option UInt32 :=
  if envelope.length ≠ count.toNat then none
  else if truncate24 (hashBatch sponge envelope ctx) ≠ batchCommit then none
  else (envelope.findIdx? (· == binding sponge rawNf ctx)).map UInt32.ofNat

end Hashes

section Agreement

/-- Chunks of three bytes, by index and from the front. -/
theorem bytesToFelts_eq
    (bytes : List UInt8) :
    bytesToFelts bytes = OpenCsv.bytesToFelts bytes := by
  induction bytes using OpenCsv.bytesToFelts.induct with
  | case1 => rfl
  | case2 a => simp [bytesToFelts, OpenCsv.bytesToFelts]
  | case3 a b => simp [bytesToFelts, OpenCsv.bytesToFelts]
  | case4 a b c rest ih =>
      have hcount : ((a :: b :: c :: rest).length + 2) / 3 = (rest.length + 2) / 3 + 1 := by
        simp only [List.length_cons]
        omega
      rw [OpenCsv.bytesToFelts, ← ih, bytesToFelts, hcount, List.range_succ_eq_map, List.map_cons,
        List.map_map]
      rfl

theorem limbs_eq
    (bytes : Bytes 32) :
    Digest.limbs bytes.toList =
      (List.range 8).map (fun index => leNat ((bytes.toList.drop (index * 4)).take 4)) := by
  have key : ∀ (n : ℕ) (bs : List UInt8), bs.length = 4 * n →
      Digest.limbs bs = (List.range n).map (fun index => leNat ((bs.drop (index * 4)).take 4)) := by
    intro n
    induction n with
    | zero =>
        intro bs hlen
        rw [List.length_eq_zero_iff.mp hlen]
        rfl
    | succ n ih =>
        intro bs hlen
        match bs, hlen with
        | a :: b :: c :: d :: rest, hlen =>
            have hrest : rest.length = 4 * n := by
              simp only [List.length_cons] at hlen
              omega
            rw [Digest.limbs, ih rest hrest, List.range_succ_eq_map, List.map_cons, List.map_map]
            congr 1
            refine List.map_congr_left (fun i _ => ?_)
            have hdrop : (i + 1) * 4 = i * 4 + 4 := by omega
            simp only [Function.comp, Nat.succ_eq_add_one, hdrop, List.drop_succ_cons]
  exact key 8 bytes.toList (by simp)

theorem digestToFelts_eq
    (bytes : Bytes 32) :
    digestToFelts bytes = (Digest.mk bytes).toElems.toList := by
  show _ = (Digest.limbs bytes.toList).map (fun x => felt (UInt32.ofNat x))
  rw [limbs_eq, List.map_map]
  rfl

theorem absorbed_eq
    (domain : String)
    (parts : List (List Felt)) :
    absorbed domain parts =
      felt (UInt32.ofNat ((OpenCsv.bytesToFelts (ascii domain)).length +
        (parts.map List.length).sum)) :: (OpenCsv.bytesToFelts (ascii domain) ++ parts.flatten) := by
  rw [absorbed, bytesToFelts_eq]

variable {sponge : Sponge}

theorem hashBytes_absorbed
    (domain : String)
    (parts : List (List Felt)) :
    hashBytes sponge (absorbed domain parts) = (hashFelts sponge domain parts).bytes := by
  rw [absorbed_eq]
  rfl

theorem hashBatch_eq
    (payloads : List TruncatedDigest)
    (ctx : Ctx) :
    hashBatch sponge (payloads.map TruncatedDigest.bytes) ctx =
      (batchCommit sponge payloads ctx).bytes := by
  rw [hashBatch, batchInput, hashBytes_absorbed, bytesToFelts_eq, bytesToFelts_eq, List.flatMap_map]
  rfl

theorem binding_eq
    (raw : Digest)
    (ctx : Ctx) :
    binding sponge raw.bytes ctx = (bound sponge ctx raw).bytes := by
  rw [binding, hashBind, bindInput, hashBytes_absorbed, digestToFelts_eq, bytesToFelts_eq]
  rfl

end Agreement

end Kernel

end OpenCsv
