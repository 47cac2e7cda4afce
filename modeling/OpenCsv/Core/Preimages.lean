import OpenCsv.Core.Instrument
import OpenCsv.Kernel.Hash
import OpenCsv.Pcd.Value

/-!
# What the sponge absorbs

Every construction that hashes feeds the sponge a length, its domain tag and its parts.  Byte
strings are packed three bytes to an element, digests four bytes to an element and amounts in
three limbs, so two constructions could in principle feed it the same elements.

They never do: the tags are no starts of each other, the one construction without a tag has a
length that no other reaches, and behind the tag every argument ends where its construction says.

**Result.** `Preimage.sequence_injective`, and `preimages_collision_free` for all constructions
and both encoders.
-/

namespace OpenCsv

section Packing

theorem leNat_append_zeros
    (bs : List UInt8)
    (n : ℕ) :
    leNat (bs ++ List.replicate n 0) = leNat bs := by
  induction bs with
  | nil =>
      induction n with
      | zero => rfl
      | succ n ih => simpa [List.replicate_succ, leNat] using ih
  | cons b bs ih =>
      rw [List.cons_append, leNat, leNat, ih]

/-- Numbers written with different widths differ by zeros at the end. -/
theorem append_zeros_eq_of_leNat_eq
    {bs cs : List UInt8}
    (h : leNat bs = leNat cs) :
    bs ++ List.replicate cs.length 0 = cs ++ List.replicate bs.length 0 := by
  refine leNat_injective ?_ ?_
  · simp [Nat.add_comm]
  · rw [leNat_append_zeros, leNat_append_zeros, h]

theorem bytesToFelts_of_ne_nil :
    ∀ {bs : List UInt8}, bs ≠ [] →
      bytesToFelts bs =
        felt (UInt32.ofNat (leNat (bs.take 3))) :: bytesToFelts (bs.drop 3)
  | [], h => absurd rfl h
  | [_], _ => rfl
  | [_, _], _ => rfl
  | _ :: _ :: _ :: _, _ => rfl

theorem bytesToFelts_eq_nil_iff
    {bs : List UInt8} :
    bytesToFelts bs = [] ↔ bs = [] := by
  rw [← List.length_eq_zero_iff, bytesToFelts_length, ← List.length_eq_zero_iff]
  omega

/-- Strings that pack to the same elements differ by zeros at the end. -/
theorem append_eq_of_bytesToFelts_eq
    {bs cs : List UInt8}
    (h : bytesToFelts bs = bytesToFelts cs) :
    ∃ s t, bs ++ s = cs ++ t := by
  induction hn : bytesToFelts bs generalizing bs cs with
  | nil =>
      obtain rfl := bytesToFelts_eq_nil_iff.mp hn
      obtain rfl := bytesToFelts_eq_nil_iff.mp (h ▸ hn)
      exact ⟨[], [], rfl⟩
  | cons x xs ih =>
      have hbs : bs ≠ [] := fun hnil => by simp [bytesToFelts_eq_nil_iff.mpr hnil] at hn
      have hcs : cs ≠ [] := by
        rintro rfl
        rw [hn, bytesToFelts] at h
        cases h
      rw [bytesToFelts_of_ne_nil hbs, bytesToFelts_of_ne_nil hcs, List.cons.injEq] at h
      rw [bytesToFelts_of_ne_nil hbs, List.cons.injEq] at hn
      have hword : leNat (bs.take 3) = leNat (cs.take 3) := by
        rw [← felt_leNat_val (List.length_take_le 3 bs), h.1,
          felt_leNat_val (List.length_take_le 3 cs)]
      by_cases hfull : 3 ≤ bs.length ∧ 3 ≤ cs.length
      · -- two whole words are equal, and so is what follows
        obtain ⟨s, t, hrest⟩ := ih h.2 hn.2
        have hhead : bs.take 3 = cs.take 3 := by
          refine leNat_injective ?_ hword
          rw [List.length_take, List.length_take]
          omega
        refine ⟨s, t, ?_⟩
        rw [← List.take_append_drop 3 bs, ← List.take_append_drop 3 cs, hhead, List.append_assoc,
          List.append_assoc, hrest]
      · -- a short word is the last of its string, so the other word is the last as well
        have hlast : bs.length ≤ 3 ∧ cs.length ≤ 3 := by
          have hboth : bs.drop 3 = [] ↔ cs.drop 3 = [] := by
            rw [← bytesToFelts_eq_nil_iff, h.2, bytesToFelts_eq_nil_iff]
          rw [List.drop_eq_nil_iff, List.drop_eq_nil_iff] at hboth
          omega
        rw [List.take_of_length_le hlast.1, List.take_of_length_le hlast.2] at hword
        exact ⟨_, _, append_zeros_eq_of_leNat_eq hword⟩

theorem bytesToFelts_injective
    {bs cs : List UInt8}
    (hlength : bs.length = cs.length)
    (h : bytesToFelts bs = bytesToFelts cs) :
    bs = cs := by
  obtain ⟨s, t, heq⟩ := append_eq_of_bytesToFelts_eq h
  exact (List.append_inj heq hlength).1

/-- The bytes of an array of known length. -/
theorem bytes_delimits
    (n : ℕ) :
    Delimits (fun _ : Bytes n => True) (fun bs => bytesToFelts bs.toList) := by
  refine delimits_of_length (n := (n + 2) / 3) (fun bs _ => ?_) (fun bs cs _ _ h => ?_)
  · rw [bytesToFelts_length, List.Vector.toList_length]
  · exact Bytes.ext_toList (bytesToFelts_injective (by simp) h)

/-- The limbs of a canonical digest. -/
theorem digest_delimits :
    Delimits (fun d : Digest => d.isCanonical = true) (fun d => d.toElems.toList) := by
  refine delimits_of_length (n := 8) (fun d _ => d.toElems.toList_length) (fun d e hd he h => ?_)
  exact Digest.eq_of_toElems_eq hd he (List.Vector.toList_injective h)

/-- The limbs of an amount. -/
theorem u64_delimits :
    Delimits (fun _ : UInt64 => True) u64ToFelts := by
  refine delimits_of_length (n := 3) (fun v _ => rfl) (fun v w _ _ h => ?_)
  have hlimbs : ValueLimbs.ofU64 v = ValueLimbs.ofU64 w := ValueLimbs.toList_injective h
  rw [← UInt64.toNat_inj, ← (ValueLimbs.ofU64_spec v).2, ← (ValueLimbs.ofU64_spec w).2, hlimbs]

/-- Digests, as many as the elements say. -/
theorem digests_injective
    {ds es : List Digest}
    (hds : ∀ d ∈ ds, d.isCanonical = true)
    (hes : ∀ e ∈ es, e.isCanonical = true)
    (h : ds.flatMap (fun d => d.toElems.toList) = es.flatMap (fun e => e.toElems.toList)) :
    ds = es := by
  have hlength := congrArg List.length h
  simp only [List.length_flatMap, List.Vector.toList_length, List.map_const', List.sum_replicate,
    smul_eq_mul] at hlength
  have hn : ds.length = es.length := by omega
  exact (digest_delimits.flatMap es.length).eq_of_enc_eq ⟨hn, hds⟩ ⟨rfl, hes⟩ h

/-- The bytes of a payload. -/
theorem payload_delimits :
    Delimits (fun _ : TruncatedDigest => True) (fun p => p.bytes.toList) :=
  delimits_of_length (n := 24) (fun p _ => p.bytes.toList_length)
    (fun _ _ _ _ h => TruncatedDigest.ext (Bytes.ext_toList h))

/-- Payloads of eight elements each, before something of known length. -/
theorem payloads_injective
    {ps qs : List TruncatedDigest}
    {xs ys : List Felt}
    (hrest : xs.length = ys.length)
    (h : bytesToFelts (ps.flatMap (fun p => p.bytes.toList)) ++ xs =
      bytesToFelts (qs.flatMap (fun p => p.bytes.toList)) ++ ys) :
    ps = qs ∧ xs = ys := by
  have hbytes : ∀ rs : List TruncatedDigest,
      (rs.flatMap (fun p => p.bytes.toList)).length = rs.length * 24 := by
    intro rs
    simp [List.length_flatMap, List.map_const']
  have hlength := congrArg List.length h
  rw [List.length_append, List.length_append, hrest, bytesToFelts_length, bytesToFelts_length,
    hbytes, hbytes] at hlength
  have hn : ps.length = qs.length := by omega
  have hsame : (ps.flatMap (fun p => p.bytes.toList)).length =
      (qs.flatMap (fun p => p.bytes.toList)).length := by
    rw [hbytes, hbytes, hn]
  obtain ⟨hfelts, hxs⟩ := List.append_inj h (by
    rw [bytesToFelts_length, bytesToFelts_length, hsame])
  refine ⟨?_, hxs⟩
  exact (payload_delimits.flatMap qs.length).eq_of_enc_eq ⟨hn, fun _ _ => trivial⟩
    ⟨rfl, fun _ _ => trivial⟩ (bytesToFelts_injective hsame hfelts)

end Packing

section Constructions

/-- The elements that `hash_felts` absorbs. -/
def hashInput (domain : String) (parts : List (List Felt)) : List Felt :=
  let domainFelts := bytesToFelts (ascii domain)
  felt (UInt32.ofNat (domainFelts.length + (parts.map List.length).sum)) ::
    (domainFelts ++ parts.flatten)

/-- A construction that hashes, with its arguments. -/
inductive Preimage where
  | owner (osk : OwnerSecret)
  | coin (coin : Coin)
  | nullifier (osk : OwnerSecret) (commitment : Digest)
  | mint (assetId : Digest) (value : UInt64) (mintNonce : Digest)
  | nullifierList (nullifiers : List Digest)
  | bind (raw : Digest) (ctx : Ctx)
  | batch (version : BatchVersion) (payloads : List TruncatedDigest) (ctx : Ctx)
  | issuerKey (seed : Bytes 32)
  | asset (genesis : AssetGenesis)
  | terms (terms : InstrumentTermsV1)
deriving DecidableEq

namespace Preimage

/-- The domain tag. -/
def domain : Preimage → String
  | .owner _ => ""
  | .coin _ => "coin"
  | .nullifier _ _ => "null"
  | .mint _ _ _ => "mint"
  | .nullifierList _ => "xfer"
  | .bind _ _ => "bind"
  | .batch .v1 _ _ => "batch"
  | .batch .v2 _ _ => "batch-v2"
  | .issuerKey _ => "issuer-key-v1"
  | .asset _ => "OpenCSV-asset"
  | .terms _ => "OpenCSV-instrument-terms-v1"

/-- The hashed parts. -/
def parts : Preimage → List (List Felt)
  | .owner osk => [bytesToFelts osk.digest.bytes.toList]
  | .coin c =>
      [c.assetId.toElems.toList, u64ToFelts c.value, c.owner.toElems.toList,
        c.randomness.toElems.toList]
  | .nullifier osk commitment =>
      [bytesToFelts osk.digest.bytes.toList, commitment.toElems.toList]
  | .mint assetId value mintNonce =>
      [assetId.toElems.toList, u64ToFelts value, mintNonce.toElems.toList]
  | .nullifierList nullifiers => [nullifiers.flatMap (fun nf => nf.toElems.toList)]
  | .bind raw ctx => [raw.toElems.toList, bytesToFelts ctx.toList]
  | .batch _ payloads ctx =>
      [bytesToFelts (payloads.flatMap (fun p => p.bytes.toList)), bytesToFelts ctx.toList]
  | .issuerKey seed => [bytesToFelts seed.toList]
  | .asset g =>
      [bytesToFelts g.issuerPk.toList, bytesToFelts g.currencyCode.toList,
        g.termsHash.toElems.toList, u64ToFelts g.nonce]
  | .terms t => [bytesToFelts t.canonicalBytes]

/-- What the sponge absorbs. -/
def sequence (p : Preimage) : List Felt :=
  hashInput p.domain p.parts

/-- Digests are canonical, and terms are hashed only when they are valid. -/
def Canonical : Preimage → Prop
  | .owner _ => True
  | .coin c =>
      c.assetId.isCanonical = true ∧ c.owner.isCanonical = true ∧ c.randomness.isCanonical = true
  | .nullifier _ commitment => commitment.isCanonical = true
  | .mint assetId _ mintNonce => assetId.isCanonical = true ∧ mintNonce.isCanonical = true
  | .nullifierList nullifiers => ∀ nf ∈ nullifiers, nf.isCanonical = true
  | .bind raw _ => raw.isCanonical = true
  | .batch _ _ _ => True
  | .issuerKey _ => True
  | .asset g => g.termsHash.isCanonical = true
  | .terms t => t.validate = .ok ()

/-- The digest that the construction returns. -/
def hash (sponge : Sponge) : Preimage → Except InstrumentError Digest
  | .owner osk => .ok (osk.owner sponge)
  | .coin c => .ok (c.commitment sponge)
  | .nullifier osk commitment => .ok (OpenCsv.nullifier sponge osk commitment)
  | .mint assetId value mintNonce => .ok (mintCommit sponge assetId value mintNonce)
  | .nullifierList nullifiers => .ok (nullifierCommit sponge nullifiers)
  | .bind raw ctx => .ok (binding sponge raw ctx)
  | .batch version payloads ctx => .ok (versionedBatchCommit sponge version payloads ctx)
  | .issuerKey seed => .ok ⟨issuerPublicKey sponge seed⟩
  | .asset g => .ok (g.assetId sponge)
  | .terms t => t.termsHash sponge

/-- Every construction returns the digest of its sequence. -/
theorem hash_eq
    {sponge : Sponge}
    {p : Preimage}
    (h : p.Canonical) :
    p.hash sponge = .ok (Digest.fromElems (sponge p.sequence)) := by
  cases p with
  | batch version payloads ctx => cases version <;> rfl
  | terms t =>
      rw [hash, InstrumentTermsV1.termsHash, show t.validate = .ok () from h]
      rfl
  | _ => rfl

end Preimage

end Constructions

namespace Preimage

section Separation

/-- The tags, all but the empty one. -/
def domains : List String :=
  ["coin", "null", "mint", "xfer", "bind", "batch", "batch-v2", "issuer-key-v1", "OpenCSV-asset",
    "OpenCSV-instrument-terms-v1"]

/-- No tag starts another, as field elements. -/
theorem domains_apart :
    ∀ d ∈ domains, ∀ e ∈ domains,
      bytesToFelts (ascii d) <+: bytesToFelts (ascii e) → d = e := by
  decide +kernel

theorem domain_mem
    (p : Preimage) :
    (∃ osk, p = .owner osk) ∨ p.domain ∈ domains := by
  cases p with
  | owner osk => exact .inl ⟨osk, rfl⟩
  | batch version payloads ctx => cases version <;> simp [domain, domains]
  | _ => simp [domain, domains]

/-- No tagged construction feeds as few elements as the one without a tag. -/
theorem length_ne_of_tagged
    {p : Preimage}
    (h : p.domain ∈ domains) :
    (bytesToFelts (ascii p.domain) ++ p.parts.flatten).length ≠ 11 := by
  have hlengths : domains.map (fun d => (bytesToFelts (ascii d)).length) =
      [2, 2, 2, 2, 2, 2, 3, 5, 5, 9] := by
    decide +kernel
  simp only [domains, List.map_cons, List.map_nil, List.cons.injEq, and_true] at hlengths
  obtain ⟨h₁, h₂, h₃, h₄, h₅, h₆, h₇, h₈, h₉, h₁₀⟩ := hlengths
  cases p with
  | owner osk => simp [domain, domains] at h
  | batch version payloads ctx =>
      cases version <;>
        simp [domain, parts, bytesToFelts_length, List.length_flatMap, List.map_const', h₆, h₇] <;>
        omega
  | terms t =>
      simp [domain, parts, bytesToFelts_length, InstrumentTermsV1.canonicalBytes, pushText,
        beBytes32, h₁₀]
      omega
  | _ =>
      simp [domain, parts, bytesToFelts_length, List.length_flatMap, List.map_const', u64ToFelts,
        h₁, h₂, h₃, h₄, h₅, h₈, h₉]
      try omega

/-- The same construction, with any arguments. -/
inductive SameConstruction : Preimage → Preimage → Prop
  | owner (osk osk') : SameConstruction (.owner osk) (.owner osk')
  | coin (c c') : SameConstruction (.coin c) (.coin c')
  | nullifier (osk osk' cm cm') : SameConstruction (.nullifier osk cm) (.nullifier osk' cm')
  | mint (a a' v v' n n') : SameConstruction (.mint a v n) (.mint a' v' n')
  | nullifierList (nfs nfs') : SameConstruction (.nullifierList nfs) (.nullifierList nfs')
  | bind (raw raw' ctx ctx') : SameConstruction (.bind raw ctx) (.bind raw' ctx')
  | batch (version ps ps' ctx ctx') :
      SameConstruction (.batch version ps ctx) (.batch version ps' ctx')
  | issuerKey (seed seed') : SameConstruction (.issuerKey seed) (.issuerKey seed')
  | asset (g g') : SameConstruction (.asset g) (.asset g')
  | terms (t t') : SameConstruction (.terms t) (.terms t')

theorem same_of_domain_eq
    {p q : Preimage}
    (h : p.domain = q.domain) :
    SameConstruction p q := by
  rcases p with _ | _ | _ | _ | _ | _ | ⟨_ | _, _, _⟩ | _ | _ | _ <;>
    rcases q with _ | _ | _ | _ | _ | _ | ⟨_ | _, _, _⟩ | _ | _ | _ <;>
      first
        | constructor
        | simp [domain] at h

end Separation

section Arguments

/-- Behind the tag, the arguments of a construction are read one after another. -/
theorem eq_of_parts_eq
    {p q : Preimage}
    (hsame : SameConstruction p q)
    (hp : p.Canonical)
    (hq : q.Canonical)
    (h : p.parts.flatten = q.parts.flatten) :
    p = q := by
  cases hsame with
  | owner osk osk' =>
      simp only [parts, List.flatten_cons] at h
      obtain ⟨hosk, -⟩ := bytes_delimits 32 _ _ trivial trivial _ _ h
      rw [show osk = osk' from congrArg OwnerSecret.mk (Digest.ext hosk)]
  | coin c c' =>
      simp only [parts, List.flatten_cons] at h
      obtain ⟨hasset, h⟩ := digest_delimits _ _ hp.1 hq.1 _ _ h
      obtain ⟨hvalue, h⟩ := u64_delimits _ _ trivial trivial _ _ h
      obtain ⟨howner, h⟩ := digest_delimits _ _ hp.2.1 hq.2.1 _ _ h
      obtain ⟨hrandomness, -⟩ := digest_delimits _ _ hp.2.2 hq.2.2 _ _ h
      cases c
      cases c'
      simp_all
  | nullifier osk osk' cm cm' =>
      simp only [parts, List.flatten_cons] at h
      obtain ⟨hosk, h⟩ := bytes_delimits 32 _ _ trivial trivial _ _ h
      obtain ⟨hcm, -⟩ := digest_delimits _ _ hp hq _ _ h
      rw [show osk = osk' from congrArg OwnerSecret.mk (Digest.ext hosk), hcm]
  | mint a a' v v' n n' =>
      simp only [parts, List.flatten_cons] at h
      obtain ⟨ha, h⟩ := digest_delimits _ _ hp.1 hq.1 _ _ h
      obtain ⟨hv, h⟩ := u64_delimits _ _ trivial trivial _ _ h
      obtain ⟨hn, -⟩ := digest_delimits _ _ hp.2 hq.2 _ _ h
      rw [ha, hv, hn]
  | nullifierList nfs nfs' =>
      simp only [parts, List.flatten_cons, List.flatten_nil, List.append_nil] at h
      rw [digests_injective hp hq h]
  | bind raw raw' ctx ctx' =>
      simp only [parts, List.flatten_cons] at h
      obtain ⟨hraw, h⟩ := digest_delimits _ _ hp hq _ _ h
      obtain ⟨hctx, -⟩ := bytes_delimits 32 _ _ trivial trivial _ _ h
      rw [hraw, hctx]
  | batch version ps ps' ctx ctx' =>
      simp only [parts, List.flatten_cons] at h
      obtain ⟨hps, h⟩ := payloads_injective (by simp [bytesToFelts_length]) h
      obtain ⟨hctx, -⟩ := bytes_delimits 32 _ _ trivial trivial _ _ h
      rw [hps, hctx]
  | issuerKey seed seed' =>
      simp only [parts, List.flatten_cons] at h
      obtain ⟨rfl, -⟩ := bytes_delimits 32 _ _ trivial trivial _ _ h
      rfl
  | asset g g' =>
      simp only [parts, List.flatten_cons] at h
      obtain ⟨hissuer, h⟩ := bytes_delimits 32 _ _ trivial trivial _ _ h
      obtain ⟨hcode, h⟩ := bytes_delimits 3 _ _ trivial trivial _ _ h
      obtain ⟨hterms, h⟩ := digest_delimits _ _ hp hq _ _ h
      obtain ⟨hnonce, -⟩ := u64_delimits _ _ trivial trivial _ _ h
      cases g
      cases g'
      simp_all
  | terms t t' =>
      simp only [parts, List.flatten_cons, List.flatten_nil, List.append_nil] at h
      obtain ⟨x, y, hbytes⟩ := append_eq_of_bytesToFelts_eq h
      have ht := InstrumentTermsV1.bounded_of_validate hp
      have ht' := InstrumentTermsV1.bounded_of_validate hq
      rw [(InstrumentTermsV1.canonicalBytes_delimits _ _ ht ht' _ _ hbytes).1]

/-- Constructions that feed the sponge the same elements are one construction. -/
theorem sequence_injective
    {p q : Preimage}
    (hp : p.Canonical)
    (hq : q.Canonical)
    (h : p.sequence = q.sequence) :
    p = q := by
  have hbody : bytesToFelts (ascii p.domain) ++ p.parts.flatten =
      bytesToFelts (ascii q.domain) ++ q.parts.flatten :=
    (List.cons.inj h).2
  have hlength := congrArg List.length hbody
  have hdomain : p.domain = q.domain := by
    rcases p.domain_mem with ⟨osk, rfl⟩ | hpmem
    · rcases q.domain_mem with ⟨osk', rfl⟩ | hqmem
      · rfl
      · -- the construction without a tag absorbs eleven elements
        refine absurd (hlength.symm.trans ?_) (length_ne_of_tagged hqmem)
        simp [domain, parts, bytesToFelts_length, ascii]
    · rcases q.domain_mem with ⟨osk', rfl⟩ | hqmem
      · refine absurd (hlength.trans ?_) (length_ne_of_tagged hpmem)
        simp [domain, parts, bytesToFelts_length, ascii]
      · -- two tags at the start of one list
        have hstart : bytesToFelts (ascii p.domain) <+:
            bytesToFelts (ascii q.domain) ++ q.parts.flatten :=
          ⟨_, hbody⟩
        rcases List.prefix_or_prefix_of_prefix hstart (List.prefix_append _ _) with
          hstarts | hstarts
        · exact domains_apart _ hpmem _ hqmem hstarts
        · exact (domains_apart _ hqmem _ hpmem hstarts).symm
  rw [hdomain] at hbody
  exact eq_of_parts_eq (same_of_domain_eq hdomain) hp hq (List.append_cancel_left hbody)

end Arguments

end Preimage

section Encoders

/--
Equal sequences come from the same construction with the same arguments, every construction
hashes its sequence, and the encoder of the kernel feeds the sponge what that of the core feeds it.
-/
theorem preimages_collision_free
    (sponge : Sponge) :
    (∀ p q : Preimage, p.Canonical → q.Canonical → p.sequence = q.sequence → p = q) ∧
      (∀ p : Preimage, p.Canonical →
        p.hash sponge = .ok (Digest.fromElems (sponge p.sequence))) ∧
    (∀ domain parts, Kernel.absorbed domain parts = hashInput domain parts) ∧
      (∀ raw ctx, Kernel.bindInput raw.bytes ctx = (Preimage.bind raw ctx).sequence) ∧
        ∀ payloads ctx, Kernel.batchInput (payloads.map TruncatedDigest.bytes) ctx =
          (Preimage.batch .v1 payloads ctx).sequence := by
  refine ⟨fun p q hp hq h => Preimage.sequence_injective hp hq h,
    fun p hp => Preimage.hash_eq hp, Kernel.absorbed_eq, ?_, ?_⟩
  · intro raw ctx
    rw [Kernel.bindInput, Kernel.absorbed_eq, Kernel.digestToFelts_eq, Kernel.bytesToFelts_eq]
    rfl
  · intro payloads ctx
    rw [Kernel.batchInput, Kernel.absorbed_eq, Kernel.bytesToFelts_eq, Kernel.bytesToFelts_eq,
      List.flatMap_map]
    rfl

/-- A list of nullifiers and a batch with its context, and a coin that hashes. -/
theorem preimages_collision_free_empty :
    ¬(Preimage.nullifierList []).sequence = (Preimage.batch .v1 [] (Bytes.zero 32)).sequence ∧
      (Preimage.nullifierList []).hash foldSponge =
        .ok (Digest.fromElems (foldSponge (Preimage.nullifierList []).sequence)) := by
  have hempty : (Preimage.nullifierList []).Canonical := fun _ h => absurd h List.not_mem_nil
  refine ⟨fun h => ?_, (preimages_collision_free foldSponge).2.1 _ hempty⟩
  have hbatch : (Preimage.batch .v1 [] (Bytes.zero 32)).Canonical := trivial
  exact Preimage.noConfusion ((preimages_collision_free foldSponge).1 _ _ hempty hbatch h)

end Encoders

section Manifests

variable {sponge : Sponge}

/-- A valid manifest stores the digest of its terms. -/
theorem InstrumentManifestV1.termsHash_eq
    {m : InstrumentManifestV1}
    (h : m.validate sponge = .ok ()) :
    (Preimage.terms m.terms).Canonical ∧
      m.genesis.termsHash = Digest.fromElems (sponge (Preimage.terms m.terms).sequence) := by
  simp only [InstrumentManifestV1.validate, InstrumentTermsV1.termsHash, except_bind_eq_ok_iff,
    require_eq_ok_iff, beq_iff_eq] at h
  obtain ⟨_, _, _, _, _, ⟨_, hvalid, hhash⟩, hstored⟩ := h
  exact ⟨hvalid, hstored.trans (Except.ok.inj hhash).symm⟩

/-- A genesis pins its terms, up to a collision of the sponge. -/
theorem InstrumentManifestV1.terms_eq_or_collision
    {m m' : InstrumentManifestV1}
    (h : m.validate sponge = .ok ())
    (h' : m'.validate sponge = .ok ())
    (hgenesis : m.genesis = m'.genesis) :
    m.terms = m'.terms ∨
      (Preimage.terms m.terms).sequence ≠ (Preimage.terms m'.terms).sequence ∧
        sponge (Preimage.terms m.terms).sequence = sponge (Preimage.terms m'.terms).sequence := by
  obtain ⟨hterms, hhash⟩ := termsHash_eq h
  obtain ⟨hterms', hhash'⟩ := termsHash_eq h'
  have hsame : sponge (Preimage.terms m.terms).sequence =
      sponge (Preimage.terms m'.terms).sequence :=
    Digest.fromElems_injective (by rw [← hhash, ← hhash', hgenesis])
  by_cases hseq : (Preimage.terms m.terms).sequence = (Preimage.terms m'.terms).sequence
  · left
    exact Preimage.terms.inj (Preimage.sequence_injective hterms hterms' hseq)
  · right
    exact ⟨hseq, hsame⟩

end Manifests

end OpenCsv
