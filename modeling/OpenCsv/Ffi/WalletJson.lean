import OpenCsv.Core.Coin
import OpenCsv.Ffi.Hex
import OpenCsv.Lib.Base64
import OpenCsv.Lib.Json

/-!
# Serialized forms of the wallet

The host persists two things for the wallet: its secret state, and each proved
but not yet finalized transaction.  Both cross the boundary as JSON with hex
fields; the currency code of an asset crosses it as a string.

**Results.**
* `genesisFromJson_genesisToJson_iff`: an asset genesis is read back exactly when
  its currency code is valid UTF-8.
* `shapeFromJson_shapeToJson_iff`: a record shape is read back unless it is a
  redemption, whose 24-byte asset id is read as 32 bytes.
* `Pending.ofExport_toExport_iff` puts the two together.
-/

namespace OpenCsv

/-- What rebuilds the record of a pending transaction under a context. -/
inductive RecordShape where
  /-- MINT publishes no bound payload. -/
  | fixed (record : AnchorRecord)
  | xfer (nullifiers : List Digest)
  | redeem (assetId : TruncatedDigest) (value : UInt64) (rawNf : Digest)
deriving DecidableEq

/-- The record of a transaction under `ctx`; a failed assertion returns its message. -/
def RecordShape.build
    (sponge : Sponge)
    (ctx : Ctx) : RecordShape → Except OpError AnchorRecord
  | .fixed record => .ok record
  | .xfer nullifiers =>
      okOr (AnchorRecord.xferOf sponge nullifiers ctx)
        (Text.lit "XFER carries 1–2 bound nullifiers")
  | .redeem assetId value rawNf => .ok (AnchorRecord.redeemOf sponge assetId value rawNf ctx)

/-- A proved transaction that has not been anchored yet. -/
structure Pending where
  shape : RecordShape
  openings : List CoinOpening
  nullifiers : List Digest
  proof : List UInt8
  aux : Option AssetGenesis
  spentIds : List Text
  unconfirmedDependencies : List Text
deriving DecidableEq

section Forms

/-- Serde form of an asset genesis. -/
structure GenesisJson where
  issuerPk : Text
  currencyCode : Text
  termsHash : Text
  nonce : UInt64
deriving DecidableEq

/-- Serde form of a record shape. -/
inductive ShapeJson where
  | fixed (recordHex : Text)
  | xfer (nullifiers : List Text)
  | redeem (assetId : Text) (value : UInt64) (rawNf : Text)
deriving DecidableEq

/-- Serde form of an opening. -/
structure OpeningJson where
  assetId : Text
  value : UInt64
  owner : Text
  randomness : Text
deriving DecidableEq

/-- The exportable form of a pending transaction. -/
structure PendingExport where
  version : UInt32
  shape : ShapeJson
  openings : List OpeningJson
  nullifiers : List Text
  proofBase64 : Text
  aux : Option GenesisJson
  spentIds : List Text
  unconfirmedDependencies : List Text
deriving DecidableEq

/-- Serde form of an issuer. -/
structure IssuerJson where
  isk : Text
  genesis : GenesisJson
deriving DecidableEq

/-- The secret state the host persists. -/
structure SecretsJson where
  version : UInt32
  ownerSecrets : List Text
  issuers : List IssuerJson
  assets : List GenesisJson
deriving DecidableEq

end Forms

section Serde

def GenesisJson.toJson (g : GenesisJson) : Json :=
  .obj [ ("issuer_pk", .str g.issuerPk), ("currency_code", .str g.currencyCode),
    ("terms_hash", .str g.termsHash), ("nonce", .num g.nonce.toNat) ]

def GenesisJson.fromJson (j : Json) : Except Text GenesisJson := do
  let issuerPk ← j.field "issuer_pk" Json.asText
  let currencyCode ← j.field "currency_code" Json.asText
  let termsHash ← j.field "terms_hash" Json.asText
  let nonce ← j.field "nonce" Json.asU64
  return ⟨issuerPk, currencyCode, termsHash, nonce⟩

/-- Internally tagged by `kind`, in lowercase. -/
def ShapeJson.toJson : ShapeJson → Json
  | .fixed recordHex =>
      .obj [ ("kind", .str (Text.lit "fixed")), ("record_hex", .str recordHex) ]
  | .xfer nullifiers =>
      .obj [ ("kind", .str (Text.lit "xfer")), ("nullifiers", .arr (nullifiers.map .str)) ]
  | .redeem assetId value rawNf =>
      .obj [ ("kind", .str (Text.lit "redeem")), ("asset_id", .str assetId),
        ("value", .num value.toNat), ("raw_nf", .str rawNf) ]

def ShapeJson.fromJson (j : Json) : Except Text ShapeJson := do
  let kind ← j.field "kind" Json.asText
  if kind = Text.lit "fixed" then
    let recordHex ← j.field "record_hex" Json.asText
    return .fixed recordHex
  else if kind = Text.lit "xfer" then
    let nullifiers ← j.field "nullifiers" (Json.asList Json.asText)
    return .xfer nullifiers
  else if kind = Text.lit "redeem" then
    let assetId ← j.field "asset_id" Json.asText
    let value ← j.field "value" Json.asU64
    let rawNf ← j.field "raw_nf" Json.asText
    return .redeem assetId value rawNf
  else
    .error (Text.lit "unknown variant")

def OpeningJson.toJson (o : OpeningJson) : Json :=
  .obj [ ("asset_id", .str o.assetId), ("value", .num o.value.toNat),
    ("owner", .str o.owner), ("randomness", .str o.randomness) ]

def OpeningJson.fromJson (j : Json) : Except Text OpeningJson := do
  let assetId ← j.field "asset_id" Json.asText
  let value ← j.field "value" Json.asU64
  let owner ← j.field "owner" Json.asText
  let randomness ← j.field "randomness" Json.asText
  return ⟨assetId, value, owner, randomness⟩

/-- An absent genesis is written as null. -/
def PendingExport.toJson (e : PendingExport) : Json :=
  .obj [ ("version", .num e.version.toNat), ("shape", e.shape.toJson),
    ("openings", .arr (e.openings.map OpeningJson.toJson)),
    ("nullifiers", .arr (e.nullifiers.map .str)),
    ("proof_base64", .str e.proofBase64),
    ("aux", (e.aux.map GenesisJson.toJson).getD .null),
    ("spent_ids", .arr (e.spentIds.map .str)),
    ("unconfirmed_dependencies", .arr (e.unconfirmedDependencies.map .str)) ]

def PendingExport.fromJson (j : Json) : Except Text PendingExport := do
  let version ← j.field "version" Json.asU32
  let shape ← j.field "shape" ShapeJson.fromJson
  let openings ← j.field "openings" (Json.asList OpeningJson.fromJson)
  let nullifiers ← j.field "nullifiers" (Json.asList Json.asText)
  let proofBase64 ← j.field "proof_base64" Json.asText
  let aux ← j.optional "aux" GenesisJson.fromJson
  let spentIds ← j.field "spent_ids" (Json.asList Json.asText)
  let unconfirmedDependencies ←
    j.defaulted "unconfirmed_dependencies" (Json.asList Json.asText) []
  return ⟨version, shape, openings, nullifiers, proofBase64, aux, spentIds,
    unconfirmedDependencies⟩

def IssuerJson.toJson (i : IssuerJson) : Json :=
  .obj [ ("isk", .str i.isk), ("genesis", i.genesis.toJson) ]

def IssuerJson.fromJson (j : Json) : Except Text IssuerJson := do
  let isk ← j.field "isk" Json.asText
  let genesis ← j.field "genesis" GenesisJson.fromJson
  return ⟨isk, genesis⟩

def SecretsJson.toJson (s : SecretsJson) : Json :=
  .obj [ ("version", .num s.version.toNat), ("owner_secrets", .arr (s.ownerSecrets.map .str)),
    ("issuers", .arr (s.issuers.map IssuerJson.toJson)),
    ("assets", .arr (s.assets.map GenesisJson.toJson)) ]

def SecretsJson.fromJson (j : Json) : Except Text SecretsJson := do
  let version ← j.field "version" Json.asU32
  let ownerSecrets ← j.field "owner_secrets" (Json.asList Json.asText)
  let issuers ← j.field "issuers" (Json.asList IssuerJson.fromJson)
  let assets ← j.field "assets" (Json.asList GenesisJson.fromJson)
  return ⟨version, ownerSecrets, issuers, assets⟩

@[simp] theorem GenesisJson.fromJson_toJson
    (g : GenesisJson) :
    GenesisJson.fromJson g.toJson = .ok g := by
  simp [fromJson, toJson, Json.field, Json.member, okOr, bind, Except.bind, pure, Except.pure]

@[simp] theorem OpeningJson.fromJson_toJson
    (o : OpeningJson) :
    OpeningJson.fromJson o.toJson = .ok o := by
  simp [fromJson, toJson, Json.field, Json.member, okOr, bind, Except.bind, pure, Except.pure]

@[simp] theorem ShapeJson.fromJson_toJson
    (s : ShapeJson) :
    ShapeJson.fromJson s.toJson = .ok s := by
  have hxfer : Text.lit "xfer" ≠ Text.lit "fixed" := by decide +kernel
  have hredeem : Text.lit "redeem" ≠ Text.lit "fixed" := by decide +kernel
  have hredeem' : Text.lit "redeem" ≠ Text.lit "xfer" := by decide +kernel
  cases s with
  | fixed recordHex =>
      simp [fromJson, toJson, Json.field, Json.member, okOr, bind, Except.bind, pure,
        Except.pure]
  | xfer nullifiers =>
      simp [fromJson, toJson, Json.field, Json.member, okOr, bind, Except.bind, pure,
        Except.pure, hxfer]
  | redeem assetId value rawNf =>
      simp [fromJson, toJson, Json.field, Json.member, okOr, bind, Except.bind, pure,
        Except.pure, hredeem, hredeem']

@[simp] theorem PendingExport.fromJson_toJson
    (e : PendingExport) :
    PendingExport.fromJson e.toJson = .ok e := by
  have hopenings : Json.asList OpeningJson.fromJson
      (.arr (e.openings.map OpeningJson.toJson)) = .ok e.openings :=
    Json.asList_map (fun o _ => OpeningJson.fromJson_toJson o)
  have haux : Json.orNull GenesisJson.fromJson
      ((e.aux.map GenesisJson.toJson).getD .null) = .ok e.aux := by
    cases e.aux with
    | none => rfl
    | some g =>
        have hread := GenesisJson.fromJson_toJson g
        simp only [GenesisJson.toJson] at hread
        simp [Json.orNull, GenesisJson.toJson, hread, Except.map]
  simp [fromJson, toJson, Json.field, Json.optional, Json.defaulted, Json.member, hopenings,
    haux, okOr, bind, Except.bind, pure, Except.pure]

@[simp] theorem IssuerJson.fromJson_toJson
    (i : IssuerJson) :
    IssuerJson.fromJson i.toJson = .ok i := by
  simp [fromJson, toJson, Json.field, Json.member, okOr, bind, Except.bind, pure, Except.pure]

@[simp] theorem SecretsJson.fromJson_toJson
    (s : SecretsJson) :
    SecretsJson.fromJson s.toJson = .ok s := by
  have hissuers : Json.asList IssuerJson.fromJson
      (.arr (s.issuers.map IssuerJson.toJson)) = .ok s.issuers :=
    Json.asList_map (fun i _ => IssuerJson.fromJson_toJson i)
  have hassets : Json.asList GenesisJson.fromJson
      (.arr (s.assets.map GenesisJson.toJson)) = .ok s.assets :=
    Json.asList_map (fun g _ => GenesisJson.fromJson_toJson g)
  simp [fromJson, toJson, Json.field, Json.member, hissuers, hassets, okOr, bind, Except.bind,
    pure, Except.pure]

end Serde

section Conversions

def genesisToJson (g : AssetGenesis) : GenesisJson where
  issuerPk := toHex g.issuerPk.toList
  currencyCode := Text.fromUtf8Lossy g.currencyCode.toList
  termsHash := toHex g.termsHash.bytes.toList
  nonce := g.nonce

/-- The three bytes of a currency code. -/
def parseCurrencyCode (code : Text) : Except OpError (Bytes 3) :=
  okOr (Bytes.tryFrom 3 code.bytes)
    (Text.lit "currency code `" ++ code ++ Text.lit "` is not 3 bytes")

def genesisFromJson (g : GenesisJson) : Except OpError AssetGenesis := do
  let code ← parseCurrencyCode g.currencyCode
  let issuerPk ← fromHexArray 32 g.issuerPk "issuer_pk"
  let termsHash ← fromHexArray 32 g.termsHash "terms_hash"
  return ⟨issuerPk, code, ⟨termsHash⟩, g.nonce⟩

/-- A digest of 32 hex bytes. -/
def parseDigest (hex : Text) (what : String) : Except OpError Digest :=
  (fromHexArray 32 hex what).map Digest.mk

/-- Raw nullifiers from the host must be canonical encodings. -/
def canonicalNullifier (hex : Text) (what : String) : Except OpError Digest := do
  let digest ← parseDigest hex what
  if digest.isCanonical then
    return digest
  else
    .error (Text.lit what ++ Text.lit " is not a canonical digest encoding")

def shapeToJson : RecordShape → ShapeJson
  | .fixed record => .fixed (toHex record.toBytes.toList)
  | .xfer nullifiers => .xfer (nullifiers.map (fun nf => toHex nf.bytes.toList))
  | .redeem assetId value rawNf =>
      .redeem (toHex assetId.bytes.toList) value (toHex rawNf.bytes.toList)

def shapeFromJson : ShapeJson → Except OpError RecordShape
  | .fixed recordHex => do
      let bytes ← fromHexArray 64 recordHex "anchor record"
      return .fixed (AnchorRecord.fromBytes bytes)
  | .xfer nullifiers => do
      let nullifiers ← nullifiers.mapM (fun nf => canonicalNullifier nf "nullifier")
      return .xfer nullifiers
  | .redeem assetId value rawNf => do
      let assetId ← parseDigest assetId "asset id"
      let rawNf ← canonicalNullifier rawNf "raw nullifier"
      return .redeem assetId.toAnchor value rawNf

def openingToJson (o : CoinOpening) : OpeningJson where
  assetId := toHex o.assetId.bytes.toList
  value := o.value
  owner := toHex o.owner.bytes.toList
  randomness := toHex o.randomness.bytes.toList

def openingFromJson (o : OpeningJson) : Except OpError CoinOpening := do
  let assetId ← parseDigest o.assetId "asset id"
  let owner ← parseDigest o.owner "owner"
  let randomness ← parseDigest o.randomness "randomness"
  return ⟨assetId, o.value, owner, randomness⟩

/-- `Option::map(genesis_from_json).transpose()`. -/
def auxFromJson : Option GenesisJson → Except OpError (Option AssetGenesis)
  | none => .ok none
  | some g => (genesisFromJson g).map some

/-- The exported form of a pending transaction. -/
def Pending.toExport (base64 : Base64) (p : Pending) : PendingExport where
  version := 1
  shape := shapeToJson p.shape
  openings := p.openings.map openingToJson
  nullifiers := p.nullifiers.map (fun nf => toHex nf.bytes.toList)
  proofBase64 := base64.encode p.proof
  aux := p.aux.map genesisToJson
  spentIds := p.spentIds
  unconfirmedDependencies := p.unconfirmedDependencies

/-- Base64 errors are shown with their field. -/
def decodeProof (base64 : Base64) (text : Text) : Except OpError (List UInt8) :=
  match base64.decode text with
  | .error e => .error (Text.lit "proof base64: " ++ e)
  | .ok proof => .ok proof

/-- The pending transaction of an export. -/
def Pending.ofExport (base64 : Base64) (e : PendingExport) : Except OpError Pending := do
  let shape ← shapeFromJson e.shape
  let openings ← e.openings.mapM openingFromJson
  let nullifiers ← e.nullifiers.mapM (fun nf => canonicalNullifier nf "nullifier")
  let proof ← decodeProof base64 e.proofBase64
  let aux ← auxFromJson e.aux
  return ⟨shape, openings, nullifiers, proof, aux, e.spentIds, e.unconfirmedDependencies⟩

end Conversions

section RoundTrips

@[simp] theorem parseDigest_toHex
    (d : Digest)
    (what : String) :
    parseDigest (toHex d.bytes.toList) what = .ok d := by
  rw [parseDigest, fromHexArray_toHex]
  rfl

theorem canonicalNullifier_toHex
    {nf : Digest}
    (h : nf.isCanonical = true)
    (what : String) :
    canonicalNullifier (toHex nf.bytes.toList) what = .ok nf := by
  simp [canonicalNullifier, h, bind, Except.bind, pure, Except.pure]

theorem mapM_canonicalNullifier_toHex
    {nullifiers : List Digest}
    (h : ∀ nf ∈ nullifiers, nf.isCanonical = true) :
    (nullifiers.map (fun nf => toHex nf.bytes.toList)).mapM
      (fun nf => canonicalNullifier nf "nullifier") = .ok nullifiers :=
  mapM_map_eq_ok (fun nf hnf => canonicalNullifier_toHex (h nf hnf) "nullifier")

/-- Three bytes survive the lossy conversion exactly when they are valid UTF-8. -/
theorem parseCurrencyCode_lossy_eq_ok_iff
    {code : Bytes 3} :
    parseCurrencyCode (Text.fromUtf8Lossy code.toList) = .ok code ↔ ValidUtf8 code.toList := by
  rw [parseCurrencyCode, okOr_eq_ok_iff, Bytes.tryFrom_eq_some_iff, validUtf8_iff_lossy_eq]
  rfl

/-- A genesis is read back exactly when its currency code is valid UTF-8. -/
theorem genesisFromJson_genesisToJson_iff
    {g : AssetGenesis} :
    genesisFromJson (genesisToJson g) = .ok g ↔ ValidUtf8 g.currencyCode.toList := by
  rw [← parseCurrencyCode_lossy_eq_ok_iff]
  simp only [genesisFromJson, genesisToJson, fromHexArray_toHex, except_bind_eq_ok_iff, pure,
    Except.pure, Except.ok.injEq]
  constructor
  · rintro ⟨code, hcode, issuerPk, rfl, termsHash, rfl, heq⟩
    rw [hcode, ← heq]
  · intro hcode
    exact ⟨_, hcode, _, rfl, _, rfl, rfl⟩

theorem openingFromJson_openingToJson
    (o : CoinOpening) :
    openingFromJson (openingToJson o) = .ok o := by
  simp [openingFromJson, openingToJson, bind, Except.bind, pure, Except.pure]

/-- What the provers put into a shape: a record that parses back, canonical nullifiers. -/
def RecordShape.WellMade : RecordShape → Prop
  | .fixed record => AnchorRecord.fromBytes record.toBytes = record
  | .xfer nullifiers => ∀ nf ∈ nullifiers, nf.isCanonical = true
  | .redeem _ _ rawNf => rawNf.isCanonical = true

def RecordShape.isRedeem : RecordShape → Bool
  | .redeem .. => true
  | _ => false

/-- The 24 bytes of an anchored asset id are not 32. -/
theorem parseDigest_truncated
    (p : TruncatedDigest)
    (what : String)
    (d : Digest) :
    parseDigest (toHex p.bytes.toList) what ≠ .ok d := by
  intro h
  have hread : fromHexArray 32 (toHex p.bytes.toList) what = .ok d.bytes := by
    unfold parseDigest at h
    cases hr : fromHexArray 32 (toHex p.bytes.toList) what with
    | error e =>
        rw [hr] at h
        cases h
    | ok bytes =>
        rw [hr] at h
        rw [← Except.ok.inj h]
  have hbytes := congrArg List.length (fromHexArray_toHex_eq_ok_iff.mp hread)
  simp at hbytes

/-- A shape is read back unless it is a redemption. -/
theorem shapeFromJson_shapeToJson_iff
    {s : RecordShape}
    (h : s.WellMade) :
    shapeFromJson (shapeToJson s) = .ok s ↔ s.isRedeem = false := by
  cases s with
  | fixed record =>
      have hrecord : AnchorRecord.fromBytes record.toBytes = record := h
      simp [shapeFromJson, shapeToJson, RecordShape.isRedeem, hrecord, bind, Except.bind, pure,
        Except.pure]
  | xfer nullifiers =>
      have hnullifiers : ∀ nf ∈ nullifiers, nf.isCanonical = true := h
      simp only [shapeFromJson, shapeToJson, RecordShape.isRedeem, iff_true]
      rw [mapM_canonicalNullifier_toHex hnullifiers]
      rfl
  | redeem assetId value rawNf =>
      simp only [shapeFromJson, shapeToJson, RecordShape.isRedeem, except_bind_eq_ok_iff]
      constructor
      · rintro ⟨d, hd, -⟩
        exact absurd hd (parseDigest_truncated assetId "asset id" d)
      · intro hcontra
        cases hcontra

theorem auxFromJson_genesisToJson_iff
    {aux : Option AssetGenesis} :
    auxFromJson (aux.map genesisToJson) = .ok aux ↔
      ∀ g, aux = some g → ValidUtf8 g.currencyCode.toList := by
  cases aux with
  | none =>
      simp [auxFromJson]
  | some g =>
      simp only [Option.map_some, auxFromJson, Option.some.injEq, forall_eq']
      rw [← genesisFromJson_genesisToJson_iff]
      cases genesisFromJson (genesisToJson g) with
      | error e => simp [Except.map]
      | ok g' => simp [Except.map]

/-- A pending transaction of a prover is read back from its export exactly when it is no
redemption and its genesis, if it has one, has a valid currency code. -/
theorem Pending.ofExport_toExport_iff
    {base64 : Base64}
    {p : Pending}
    (hshape : p.shape.WellMade)
    (hnullifiers : ∀ nf ∈ p.nullifiers, nf.isCanonical = true)
    (hbase64 : base64.RoundTrips p.proof) :
    Pending.ofExport base64 (p.toExport base64) = .ok p
      ↔
    p.shape.isRedeem = false ∧
      ∀ g, p.aux = some g → ValidUtf8 g.currencyCode.toList := by
  have hopenings : (p.openings.map openingToJson).mapM openingFromJson = .ok p.openings :=
    mapM_map_eq_ok (fun o _ => openingFromJson_openingToJson o)
  have hproof : decodeProof base64 (base64.encode p.proof) = .ok p.proof := by
    rw [decodeProof, hbase64]
  rw [← shapeFromJson_shapeToJson_iff hshape, ← auxFromJson_genesisToJson_iff]
  simp only [ofExport, toExport, hopenings, mapM_canonicalNullifier_toHex hnullifiers, hproof,
    except_bind_eq_ok_iff, pure, Except.pure, Except.ok.injEq]
  constructor
  · rintro ⟨shape, hs, _, rfl, _, rfl, _, rfl, aux, haux, heq⟩
    rw [hs, haux, ← heq]
    exact ⟨rfl, rfl⟩
  · rintro ⟨hs, haux⟩
    exact ⟨_, hs, _, rfl, _, rfl, _, rfl, _, haux, rfl⟩

end RoundTrips

end OpenCsv
