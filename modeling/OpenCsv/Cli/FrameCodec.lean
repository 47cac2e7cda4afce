import OpenCsv.Cli.GossipFrame

/-!
# The codec of gossip frames

A frame has private fields: it was signed by one of the signing calls, or it was read.  Every
such frame is read back from its bytes, and nothing else is read as it.

**Results.** The frames that a session can hold are authentic (`SignedFrame.Made.authentic`),
and the codec is exact on them (`SignedFrame.frame_codec`).
-/

namespace OpenCsv

variable {K S R X : Type}

/-- What frames rely on in the signature library. -/
structure GossipCrate.Lawful (crate : GossipCrate K S R X) : Prop where
  /-- A key is read back from its serialization. -/
  key : ∀ k, crate.keyFromSlice (crate.serializeKey k) = .ok k
  /-- A signature is read back from its DER encoding. -/
  der : ∀ r, crate.fromDer (crate.serializeDer r) = .ok r
  /-- The least and the greatest length of a DER encoding. -/
  der_length : ∀ r, 8 ≤ (crate.serializeDer r).length ∧ (crate.serializeDer r).length ≤ 72
  /-- Signing makes low-S signatures. -/
  sign_low : ∀ digest x, crate.normalizeS (crate.signRelay digest x) = crate.signRelay digest x
  /-- A signature verifies under the key of its secret. -/
  sign_verifies : ∀ digest x,
    crate.verifyRelay digest (crate.signRelay digest x) (crate.publicKey x) = .ok ()

namespace SignedFrame

/-- The ways to get a frame. -/
inductive Made [DecidableEq K] [DecidableEq R] (crate : GossipCrate K S R X) :
    SignedFrame K R → Prop where
  | sign
      {kind : MessageKind}
      {payload : List UInt8}
      {identity : X}
      {frame : SignedFrame K R}
      (h : SignedFrame.sign crate kind payload identity = .ok frame) : Made crate frame
  | signProposal
      {payload : List UInt8}
      {identity stockKey : X}
      {frame : SignedFrame K R}
      (h : SignedFrame.signProposal crate payload identity stockKey = .ok frame) : Made crate frame
  | signCommitment
      {proposal : Proposal K}
      {payload : List UInt8}
      {identity feeKey : X}
      {frame : SignedFrame K R}
      (h : SignedFrame.signCommitment crate proposal payload identity feeKey = .ok frame) :
      Made crate frame
  | fromWire
      {wire : List UInt8}
      {frame : SignedFrame K R}
      (h : SignedFrame.fromWire crate wire = .ok frame) : Made crate frame

/-- A bounded payload under low-S signatures, the relay's own verified. -/
structure Authentic (crate : GossipCrate K S R X) (frame : SignedFrame K R) : Prop where
  payload : frame.payload.length ≤ maxPayloadBytes
  origin : ∀ r ∈ frame.originSignature, crate.normalizeS r = r
  signature : crate.normalizeS frame.signature = frame.signature
  verified : crate.verifyRelay (frameDigest crate frame.kind frame.sender frame.payload
    frame.originSignature) frame.signature frame.sender = .ok ()

section Codec

variable {crate : GossipCrate K S R X}

theorem parseLowSSignature_eq_ok_iff
    [DecidableEq R]
    {bytes : List UInt8}
    {role : String}
    {r : R} :
    parseLowSSignature crate bytes role = .ok r ↔
      crate.fromDer bytes = .ok r ∧ crate.normalizeS r = r := by
  simp only [parseLowSSignature, except_bind_eq_ok_iff, mapError_eq_ok_iff, require_eq_ok_iff,
    decide_eq_true_eq, pure, Except.pure, Except.ok.injEq]
  constructor
  · rintro ⟨_, hder, _, hlow, rfl⟩
    exact ⟨hder, hlow⟩
  · rintro ⟨hder, hlow⟩
    exact ⟨r, hder, (), hlow, rfl⟩

/-- What an origin field that was read says. -/
theorem parseOriginSignature_low
    [DecidableEq R]
    {bytes : List UInt8}
    {origin : Option R}
    (h : parseOriginSignature crate bytes = .ok origin) :
    ∀ r ∈ origin, crate.normalizeS r = r := by
  rw [parseOriginSignature] at h
  split at h
  · obtain rfl := Except.ok.inj h
    rintro r ⟨⟩
  · cases hparse : parseLowSSignature crate bytes "origin" with
    | error e =>
        rw [hparse] at h
        cases h
    | ok r =>
        rw [hparse] at h
        obtain rfl := Except.ok.inj h
        rintro r' ⟨⟩
        exact (parseLowSSignature_eq_ok_iff.mp hparse).2

/-- An origin signature is read back from its bytes. -/
theorem parseOriginSignature_serialize
    [DecidableEq R]
    (hlawful : crate.Lawful)
    {origin : Option R}
    (hlow : ∀ r ∈ origin, crate.normalizeS r = r) :
    parseOriginSignature crate (origin.elim [] crate.serializeDer) = .ok origin := by
  cases origin with
  | none => rfl
  | some r =>
      have hlen := (hlawful.der_length r).1
      have hparse : parseLowSSignature crate (crate.serializeDer r) "origin" = .ok r :=
        parseLowSSignature_eq_ok_iff.mpr ⟨hlawful.der r, hlow r rfl⟩
      rw [parseOriginSignature, Option.elim_some, if_neg (by omega), hparse]
      rfl

section Making

variable [DecidableEq R]

omit [DecidableEq R] in
theorem authentic_of_signParts
    (hlawful : crate.Lawful)
    {kind : MessageKind}
    {payload : List UInt8}
    {identity : X}
    {originKey : Option X}
    {frame : SignedFrame K R}
    (h : signParts crate kind payload identity originKey = .ok frame) :
    frame.Authentic crate := by
  simp only [signParts, except_bind_eq_ok_iff, require_eq_ok_iff, decide_eq_true_eq, pure,
    Except.pure, Except.ok.injEq] at h
  obtain ⟨_, hpayload, rfl⟩ := h
  refine ⟨hpayload, ?_, hlawful.sign_low _ _, hlawful.sign_verifies _ _⟩
  intro r hr
  obtain ⟨x, -, rfl⟩ := Option.mem_map.mp hr
  exact hlawful.sign_low _ _

theorem authentic_of_fromWire
    {wire : List UInt8}
    {frame : SignedFrame K R}
    (h : SignedFrame.fromWire crate wire = .ok frame) :
    frame.Authentic crate := by
  have hpayload := (of_fromWire h).2.1
  simp only [SignedFrame.fromWire, except_bind_eq_ok_iff, require_eq_ok_iff, decide_eq_true_eq,
    mapError_eq_ok_iff, pure, Except.pure, Except.ok.injEq] at h
  obtain ⟨_, -, _, -, _, -, kind, -, bytes, -, sender, -, _, -, _, -, _, -, _, -,
    origin, horigin, _, -, signature, hsignature, _, hverified, _, -, rfl⟩ := h
  exact ⟨hpayload, parseOriginSignature_low horigin,
    (parseLowSSignature_eq_ok_iff.mp hsignature).2, hverified⟩

/-- Every frame is authentic. -/
theorem Made.authentic
    [DecidableEq K]
    (hlawful : crate.Lawful)
    {frame : SignedFrame K R}
    (h : Made crate frame) :
    frame.Authentic crate := by
  cases h with
  | sign h =>
      simp only [SignedFrame.sign, except_bind_eq_ok_iff] at h
      obtain ⟨_, -, h⟩ := h
      exact authentic_of_signParts hlawful h
  | signProposal h =>
      simp only [SignedFrame.signProposal, except_bind_eq_ok_iff] at h
      obtain ⟨_, -, _, -, _, -, h⟩ := h
      exact authentic_of_signParts hlawful h
  | signCommitment h =>
      simp only [SignedFrame.signCommitment, except_bind_eq_ok_iff] at h
      obtain ⟨_, -, _, -, h⟩ := h
      exact authentic_of_signParts hlawful h
  | fromWire h =>
      exact authentic_of_fromWire h

end Making

section RoundTrip

/-- What is left of a list after its first part. -/
theorem drop_add_of_append
    {bs pre post : List UInt8}
    {i : ℕ}
    (h : bs.drop i = pre ++ post) :
    bs.drop (i + pre.length) = post := by
  rw [← List.drop_drop, h, List.drop_left]

theorem take_drop_of_append
    {bs pre post : List UInt8}
    {i n : ℕ}
    (h : bs.drop i = pre ++ post)
    (hn : pre.length = n) :
    (bs.drop i).take n = pre := by
  rw [h, ← hn, List.take_left]

/-- The bytes of an authentic frame are read as the frame. -/
theorem fromWire_toWire
    [DecidableEq R]
    (hlawful : crate.Lawful)
    {frame : SignedFrame K R}
    (h : frame.Authentic crate) :
    SignedFrame.fromWire crate (frame.toWire crate) = .ok frame := by
  obtain ⟨kind, sender, payload, origin, signature⟩ := frame
  obtain ⟨hpayload, horigin, hsignature, hverified⟩ := h
  dsimp only at hpayload horigin hsignature hverified
  have hparsed := parseOriginSignature_serialize hlawful horigin
  have horiginLen : (origin.elim [] crate.serializeDer).length = 0 ∨
      (8 ≤ (origin.elim [] crate.serializeDer).length ∧
        (origin.elim [] crate.serializeDer).length ≤ 72) := by
    cases origin with
    | none => exact Or.inl rfl
    | some r => exact Or.inr (hlawful.der_length r)
  have hsigLen := hlawful.der_length signature
  have hsig : parseLowSSignature crate (crate.serializeDer signature) "relay" = .ok signature :=
    parseLowSSignature_eq_ok_iff.mpr ⟨hlawful.der signature, hsignature⟩
  generalize hwire : SignedFrame.toWire crate ⟨kind, sender, payload, origin, signature⟩ = wire
  have hshape := hwire
  rw [SignedFrame.toWire] at hshape
  dsimp only at hshape
  generalize origin.elim [] crate.serializeDer = originBytes at *
  generalize crate.serializeDer signature = signatureBytes at *
  have hmax : maxPayloadBytes = 4 * 1024 * 1024 := rfl
  have hframe : maxFrameBytes = 4 * 1024 * 1024 + 256 := rfl
  -- the fields of the frame, one after another
  have h₀ : wire.drop 0 = _ := hshape.symm
  have h₈ := drop_add_of_append h₀
  have h₁₀ := drop_add_of_append h₈
  have h₁₁ := drop_add_of_append h₁₀
  have h₄₄ := drop_add_of_append h₁₁
  have h₄₈ := drop_add_of_append h₄₄
  have hpay := drop_add_of_append h₄₈
  have horig := drop_add_of_append hpay
  have hsigl := drop_add_of_append horig
  have hsigb := drop_add_of_append hsigl
  have hmagic : frameMagic.length = 8 := rfl
  simp only [hmagic, leBytes_length, List.length_singleton, List.Vector.toList_length,
    Nat.zero_add, Nat.reduceAdd] at h₈ h₁₀ h₁₁ h₄₄ h₄₈ hpay horig hsigl hsigb
  have hlength : wire.length = 52 + payload.length + originBytes.length +
      signatureBytes.length := by
    rw [← hshape]
    simp only [List.length_append, hmagic, leBytes_length, List.length_singleton,
      List.Vector.toList_length]
    omega
  have hver := take_drop_of_append h₈ (leBytes_length 2 _)
  have hsender := take_drop_of_append h₁₁ (List.Vector.toList_length _)
  have hpayl := take_drop_of_append h₄₄ (leBytes_length 4 _)
  have hbody := take_drop_of_append h₄₈ rfl
  have horigl := take_drop_of_append hpay (leBytes_length 2 _)
  have horigb := take_drop_of_append horig rfl
  have hsigl' := take_drop_of_append hsigl (leBytes_length 2 _)
  have hkind : wire.getD 10 0 = kind.toByte := by
    have hget : wire.getD 10 0 = (wire.drop 10).headD 0 := by
      simp [List.headD_eq_head?_getD, List.head?_drop]
    rw [hget, h₁₀]
    rfl
  have hpayNat : leNat (leBytes 4 payload.length) = payload.length := by
    rw [leNat_leBytes]
    exact Nat.mod_eq_of_lt (by omega)
  have horigNat : leNat (leBytes 2 originBytes.length) = originBytes.length := by
    rw [leNat_leBytes]
    exact Nat.mod_eq_of_lt (by omega)
  have hsigNat : leNat (leBytes 2 signatureBytes.length) = signatureBytes.length := by
    rw [leNat_leBytes]
    exact Nat.mod_eq_of_lt (by omega)
  have hverNat : leNat (leBytes 2 frameVersion.toNat) = frameVersion.toNat := by decide
  have hmagicTake : wire.take 8 = frameMagic := take_drop_of_append h₀ hmagic
  have hkindByte : MessageKind.fromByte kind.toByte = .ok kind := by
    cases kind <;> decide
  have htry : Bytes.tryFrom 33 (crate.serializeKey sender).toList =
      some (crate.serializeKey sender) := Bytes.tryFrom_eq_some_iff.mpr rfl
  simp only [fromWire, except_bind_eq_ok_iff, require_eq_ok_iff, decide_eq_true_eq,
    mapError_eq_ok_iff, okOr_eq_ok_iff, pure, Except.pure, Except.ok.injEq, hver, hverNat, hsender,
    hpayl, hpayNat, hkind]
  refine ⟨(), ⟨by omega, by omega⟩, (), hmagicTake, (), trivial, kind, hkindByte, _, htry, sender,
    hlawful.key sender, (), hpayload, (), by omega, ?_⟩
  rw [horigl, horigNat]
  refine ⟨(), horiginLen, (), by omega, origin, ?_, (), ?_, signature, ?_, (), ?_, (), ?_, ?_⟩
  · rw [horigb]
    exact hparsed
  · rw [hsigl', hsigNat]
    omega
  · rw [hsigb]
    exact hsig
  · rw [hbody]
    exact hverified
  · rw [hbody]
    exact hwire
  · rw [hbody]

/-- The codec of frames is exact: a frame is read from its bytes, nothing else is read as it,
and frames with one identifier are one frame or a collision of the hash. -/
theorem frame_codec
    [DecidableEq K]
    [DecidableEq R]
    (hlawful : crate.Lawful) :
    (∀ frame, Made crate frame → fromWire crate (frame.toWire crate) = .ok frame) ∧
      (∀ wire frame, fromWire crate wire = .ok frame → wire = frame.toWire crate) ∧
      ∀ frame frame', Made crate frame → Made crate frame' → frame.id crate = frame'.id crate →
        frame = frame' ∨ (frame.toWire crate ≠ frame'.toWire crate ∧
          crate.sha256 (frame.toWire crate) = crate.sha256 (frame'.toWire crate)) := by
  have hread : ∀ frame, Made crate frame → fromWire crate (frame.toWire crate) = .ok frame :=
    fun frame hmade => fromWire_toWire hlawful (hmade.authentic hlawful)
  refine ⟨hread, fun wire frame h => (of_fromWire h).1.symm, ?_⟩
  intro frame frame' hmade hmade' hid
  by_cases hwire : frame.toWire crate = frame'.toWire crate
  · have hframe := hread frame hmade
    rw [hwire, hread frame' hmade'] at hframe
    exact Or.inl (Except.ok.inj hframe).symm
  · exact Or.inr ⟨hwire, hid⟩

end RoundTrip

end Codec

/-! A relay identity with one signature, over an empty signature share. -/

namespace Sample

def Relay : Type := {bytes : List UInt8 // 8 ≤ bytes.length ∧ bytes.length ≤ 72}

instance : DecidableEq Relay :=
  inferInstanceAs (DecidableEq {bytes : List UInt8 // 8 ≤ bytes.length ∧ bytes.length ≤ 72})

def relayKey : Manifest.Sample.Key :=
  Bytes.ofLe 33 0x13cdc4e8ab94fa748475e00e90136ccc04140b9304491e58f3800dc1f1db93e402

def relaySignature : Relay :=
  ⟨leBytes 70 0x8c92a10c0326428f6d8c60198aa7b2edf153da9985ffdc4792cf367cdf1dbd2120024ffc07a04a3946f3761cc0b21f16b58a656964e06b39c6254e701be7b695bb5320024430, by
    rw [leBytes_length]; decide⟩

def relayDigest : Bytes 32 :=
  Bytes.ofLe 32 0xf287dc3e2ead078a22bd222e6a273968c3b51d0712c36b5a2ee1ce87ad3f8c0b

/-- The signature of the frame's digest; other digests have a made-up one. -/
def signRelay (digest : Bytes 32) : Relay :=
  if digest = relayDigest then relaySignature
  else ⟨0x30 :: digest.toList, by simp⟩

def crate : GossipCrate Manifest.Sample.Key Manifest.Sample.Signature Relay Unit where
  toBitcoinCrate := Manifest.Sample.crate
  serializeDer := Subtype.val
  fromDer := fun bytes =>
    if h : 8 ≤ bytes.length ∧ bytes.length ≤ 72 then .ok ⟨bytes, h⟩
    else .error (Text.lit "malformed signature")
  normalizeS := fun r => r
  verifyRelay := fun digest signature key =>
    if signature = signRelay digest ∧ key = relayKey then .ok ()
    else .error (Text.lit "signature failed verification")
  signRelay := fun digest _ => signRelay digest
  publicKey := fun _ => relayKey
  signInput := fun _ _ => Manifest.Sample.stockSignature

theorem crate_lawful :
    crate.Lawful where
  key := fun _ => rfl
  der := fun r => dif_pos r.property
  der_length := fun r => r.property
  sign_low := fun _ _ => rfl
  sign_verifies := fun _ _ => if_pos ⟨rfl, rfl⟩

/-- The frame of an empty signature share. -/
def frame : SignedFrame Manifest.Sample.Key Relay :=
  ⟨.signature, relayKey, [], none, relaySignature⟩

theorem sign_frame :
    sign crate .signature [] () = .ok frame := by
  decide +kernel

end Sample

/-- A frame of the sample identity is read back. -/
theorem frame_codec_signature :
    Made Sample.crate Sample.frame ∧
      fromWire Sample.crate (Sample.frame.toWire Sample.crate) = .ok Sample.frame :=
  ⟨.sign Sample.sign_frame,
    (frame_codec Sample.crate_lawful).1 Sample.frame (.sign Sample.sign_frame)⟩

end SignedFrame

end OpenCsv
