import OpenCsv.Core.Anchor

/-!
# Assets, coins and consignments

A coin is `(asset_id, v, owner, r)`.  Its commitment hides it on chain; its
nullifier, computable only with the owner secret, spends it.  A consignment
hands coins to a recipient: the openings, the nullifiers of the coins the
transaction consumed, the proof, the anchor, and an optional asset genesis.
-/

namespace OpenCsv

/-- The genesis data an asset identifier commits to. -/
structure AssetGenesis where
  issuerPk : Bytes 32
  currencyCode : Bytes 3
  termsHash : Digest
  nonce : UInt64
deriving DecidableEq

/-- A coin; the same four fields travel in a consignment as its opening. -/
structure Coin where
  assetId : Digest
  value : UInt64
  owner : Digest
  randomness : Digest
deriving DecidableEq

/-- The opening of one output, as a consignment carries it. -/
abbrev CoinOpening := Coin

/-- An owner secret key. -/
structure OwnerSecret where
  digest : Digest
deriving DecidableEq

section Derivations

variable (sponge : Sponge)

/-- `asset_id = H("OpenCSV-asset" ∥ issuer_pk ∥ code ∥ terms ∥ nonce)`. -/
def AssetGenesis.assetId (g : AssetGenesis) : Digest :=
  hashFelts sponge "OpenCSV-asset"
    [ bytesToFelts g.issuerPk.toList,
      bytesToFelts g.currencyCode.toList,
      g.termsHash.toElems.toList,
      u64ToFelts g.nonce ]

/-- `owner = H(osk)`, with no domain tag. -/
def OwnerSecret.owner (osk : OwnerSecret) : Digest :=
  hashFelts sponge "" [bytesToFelts osk.digest.bytes.toList]

/-- `C = H("coin" ∥ asset_id ∥ v ∥ owner ∥ r)`. -/
def Coin.commitment (c : Coin) : Digest :=
  hashFelts sponge "coin"
    [ c.assetId.toElems.toList,
      u64ToFelts c.value,
      c.owner.toElems.toList,
      c.randomness.toElems.toList ]

/-- `nf = H("null" ∥ osk ∥ C)` from a secret and a commitment. -/
def nullifier (osk : OwnerSecret) (commitment : Digest) : Digest :=
  hashFelts sponge "null"
    [bytesToFelts osk.digest.bytes.toList, commitment.toElems.toList]

/-- The nullifier of a coin under its owner secret. -/
def Coin.nullifier (c : Coin) (osk : OwnerSecret) : Digest :=
  OpenCsv.nullifier sponge osk (c.commitment sponge)

/-- `issuer_pk = H("issuer-key-v1" ∥ seed)`. -/
def issuerPublicKey (seed : Bytes 32) : Bytes 32 :=
  (hashFelts sponge "issuer-key-v1" [bytesToFelts seed.toList]).bytes

end Derivations

/-- A consignment, as the sender hands it to the recipient. -/
structure Consignment where
  coinOpenings : List CoinOpening
  nullifiers : List Digest
  proof : List UInt8
  anchorRef : AnchorRef
  aux : Option AssetGenesis
deriving DecidableEq

/-- Public-input bytes of one opening: `asset_id ∥ v ∥ owner ∥ r`. -/
def Coin.toPublicInputBytes (o : CoinOpening) : List UInt8 :=
  o.assetId.bytes.toList ++ (leBytes 8 o.value.toNat ++
    (o.owner.bytes.toList ++ o.randomness.bytes.toList))

/-- The proof's public input: `ctx ∥ anchor bytes ∥ openings`. -/
def publicInput
    (record : AnchorRecord)
    (ctx : Ctx)
    (openings : List CoinOpening) : List UInt8 :=
  ctx.toList ++ (record.toBytes.toList ++
    openings.flatMap Coin.toPublicInputBytes)

@[simp] theorem Coin.toPublicInputBytes_length
    (o : CoinOpening) :
    o.toPublicInputBytes.length = 104 := by
  simp [Coin.toPublicInputBytes]

end OpenCsv
