import Mathlib.Data.List.AList
import Mathlib.Data.List.Destutter
import OpenCsv.Ffi.Snapshot
import OpenCsv.Ffi.WalletJson
import OpenCsv.Pcd.Prove

/-!
# The in-memory wallet

State lives in memory: owner keys, issuers, pinned assets, coins, and the proved
transactions that have not been anchored yet.  A `prove` call puts a pending
transaction into the wallet and returns the record to publish.

Random draws are arguments of the operations.  The recursive prover, the proof
codec, the consignment codec, JSON text and base64 live outside the source and
are the fields of `WalletEnv`.  Release builds wrap on overflow, so `+=` on `u64`
is addition modulo `2 ^ 64`.

**Results.** `MemWallet.findCoin_spec` says what a coin id names, and the `_spec`
lemmas of the three `prove` calls say what they put into a pending transaction.
-/

namespace OpenCsv

open AcceptKernel (RejectReason)

/-- What the wallet calls outside the repository. -/
structure WalletEnv (π : Type) where
  sponge : Sponge
  engine : PcdEngine π
  prover : Prover π
  /-- Display text of a prover error. -/
  proverError : NodeError → Text
  /-- The binary encoding of a proof and of its envelope. -/
  encodeProof : π → List UInt8
  encodeEnvelope : NodeMode → NodeStatement → List UInt8 → List UInt8
  /-- The binary encoding of consignments. -/
  encodeConsignment : Consignment → List UInt8
  decodeConsignment : List UInt8 → Except Text Consignment
  json : JsonText
  base64 : Base64

/-- An issuer key and the asset it controls. -/
structure IssuerRecord where
  isk : Bytes 32
  genesis : AssetGenesis
deriving DecidableEq

/-- Local spend state of a coin. -/
inductive CoinStatus where
  | unspent
  /-- The unconfirmed parent disappeared; a settled verification may restore it. -/
  | frozen
  | spent
deriving DecidableEq

/-- A coin with the proof that created it. -/
structure StoredCoin where
  coin : Coin
  status : CoinStatus
  proof : List UInt8
  /-- Which output of the creating statement this coin is. -/
  selector : ℕ
  unconfirmedAnchor : Option Text
deriving DecidableEq

/-- The wallet. -/
structure MemWallet where
  keys : List OwnerSecret
  issuers : List IssuerRecord
  assets : List AssetGenesis
  coins : List StoredCoin
  pending : AList (fun _ : UInt64 => Pending)
  nextPending : UInt64

/-- Result of a `prove` call. -/
structure Proved where
  pendingId : UInt64
  anchorRecord : Bytes 64
  ctx : Ctx
  spends : List Text
  unconfirmedDependencies : List Text
deriving DecidableEq

/-- One credited asset total. -/
structure CreditJson where
  assetId : Text
  currency : Option Text
  amount : UInt64
deriving DecidableEq

/-- One coin of a listing. -/
structure CoinJson where
  id : Text
  assetId : Text
  currency : Option Text
  value : UInt64
  unspent : Bool
  finality : Text
  anchorTxid : Option Text
deriving DecidableEq

/-- Successful verification outcome. -/
structure Verified where
  credits : List CreditJson
  coins : List CoinJson
  height : UInt64
  position : UInt32
deriving DecidableEq

/-- The coin id: the commitment in hex. -/
def Coin.id (sponge : Sponge) (c : Coin) : Text :=
  toHex (c.commitment sponge).bytes.toList

def StoredCoin.id (sponge : Sponge) (s : StoredCoin) : Text :=
  s.coin.id sponge

/-- `str` order. -/
def Text.le (s t : Text) : Bool :=
  bytesLe s.bytes t.bytes

/-- An early return unless a check holds. -/
def ensure (check : Bool) (e : OpError) : Except OpError Unit :=
  if check then .ok () else .error e

@[simp] theorem ensure_eq_ok_iff
    {check : Bool}
    {e : OpError}
    {u : Unit} :
    ensure check e = .ok u ↔ check = true := by
  cases check <;> simp [ensure]

/-- The number of inputs and outputs of a node circuit. -/
def nodeInputs : ℕ := 2
def nodeOutputs : ℕ := 2

section Amounts

def checkedTotal (amounts : List UInt64) : Except OpError UInt64 :=
  amounts.foldlM (fun acc v => okOr (checkedAdd acc v) (Text.lit "amounts overflow u64")) 0

/-- The two outputs of a transaction; a missing second amount is padded with zero. -/
def outputsOf
    (assetId : Digest)
    (owner₀ owner₁ : Digest)
    (amounts : List UInt64)
    (r₀ r₁ : Digest) : Except OpError (Coin × Coin) :=
  match amounts with
  | [v] => .ok (⟨assetId, v, owner₀, r₀⟩, ⟨assetId, 0, owner₁, r₁⟩)
  | [v₁, v₂] => .ok (⟨assetId, v₁, owner₀, r₀⟩, ⟨assetId, v₂, owner₁, r₁⟩)
  | _ => .error (Text.lit "expected 1–" ++ Text.ofNat nodeOutputs ++
      Text.lit " amounts, got " ++ Text.ofNat amounts.length)

/-- Mint shape: all outputs to one owner. -/
def outputsToOneOwner
    (assetId owner : Digest)
    (amounts : List UInt64)
    (r₀ r₁ : Digest) : Except OpError (Coin × Coin) :=
  outputsOf assetId owner owner amounts r₀ r₁

/-- Transfer shape: the second amount is change. -/
def outputsWithChange
    (assetId recipient changeOwner : Digest)
    (amounts : List UInt64)
    (r₀ r₁ : Digest) : Except OpError (Coin × Coin) :=
  outputsOf assetId recipient changeOwner amounts r₀ r₁

end Amounts

section Records

/-- Does a record parse back as its own class?  Tagged records always do. -/
def recordParsesCleanly (record : AnchorRecord) : Bool :=
  match record with
  | .xfer .. | .xferCompressed .. =>
      (AnchorRecord.fromBytes record.toBytes).recordClass == .xfer
  | _ => true

/--
Draw contexts until the transfer record parses cleanly.  A call whose draws are
all unclean has not returned; here it fails.
-/
def freshXferRecord
    (sponge : Sponge)
    (nullifiers : List Digest)
    (draws : List Ctx) : Except OpError (AnchorRecord × Ctx) :=
  okOr (draws.findSome? (fun ctx =>
    (AnchorRecord.xferOf sponge nullifiers ctx).bind (fun record =>
      if recordParsesCleanly record then some (record, ctx) else none)))
    (Text.lit "no clean transaction context drawn")

end Records

namespace MemWallet

variable {π : Type}
variable (env : WalletEnv π)

section Identity

def empty : MemWallet where
  keys := []
  issuers := []
  assets := []
  coins := []
  pending := ∅
  nextPending := 1

/-- A wallet with one owner key, drawn at random or derived by the account layer. -/
def create (secret : Bytes 32) : MemWallet :=
  { empty with keys := [⟨⟨secret⟩⟩] }

/-- Pin an asset unless its id is pinned. -/
def pinAsset (w : MemWallet) (genesis : AssetGenesis) : MemWallet :=
  if w.assets.any (fun g => g.assetId env.sponge == genesis.assetId env.sponge) then
    w
  else
    { w with assets := w.assets ++ [genesis] }

def issuerFromJson (i : IssuerJson) : Except OpError IssuerRecord := do
  let isk ← fromHexArray 32 i.isk "issuer secret"
  let genesis ← genesisFromJson i.genesis
  return ⟨isk, genesis⟩

def ownerSecretFromHex (s : Text) : Except OpError OwnerSecret :=
  (fromHexArray 32 s "owner secret").map (fun bytes => ⟨⟨bytes⟩⟩)

/-- Restore a wallet from decoded secrets. -/
def openSecrets (secrets : SecretsJson) : Except OpError MemWallet := do
  ensure (secrets.version == 1)
    (Text.lit "unsupported secrets version " ++ Text.ofNat secrets.version.toNat)
  let keys ← secrets.ownerSecrets.mapM ownerSecretFromHex
  let issuers ← secrets.issuers.mapM issuerFromJson
  let assets ← secrets.assets.mapM genesisFromJson
  let pinned := assets.foldl (pinAsset env) { empty with keys := keys, issuers := issuers }
  return issuers.foldl (fun w issuer => w.pinAsset env issuer.genesis) pinned

/-- Restore a wallet from its persisted text. -/
def openText (text : Text) : Except OpError MemWallet :=
  match env.json.parse text >>= SecretsJson.fromJson with
  | .error e => .error (Text.lit "secrets JSON: " ++ e)
  | .ok secrets => openSecrets env secrets

/-- Export the secret state. -/
def secretsJson (w : MemWallet) : SecretsJson where
  version := 1
  ownerSecrets := w.keys.map (fun k => toHex k.digest.bytes.toList)
  issuers := w.issuers.map (fun i =>
    { isk := toHex i.isk.toList, genesis := genesisToJson i.genesis })
  assets := w.assets.map genesisToJson

/-- Add an owner key. -/
def keygen (w : MemWallet) (secret : Bytes 32) : Text × MemWallet :=
  let osk : OwnerSecret := ⟨⟨secret⟩⟩
  (toHex (osk.owner env.sponge).bytes.toList, { w with keys := w.keys ++ [osk] })

/-- Create an issuer of a three-letter currency; the seed is its secret. -/
def initIssuer
    (w : MemWallet)
    (currency : Text)
    (seed : Bytes 32) : Except OpError (Text × MemWallet) := do
  let code ← parseCurrencyCode currency
  let genesis : AssetGenesis :=
    { issuerPk := issuerPublicKey env.sponge seed
      currencyCode := code
      termsHash := Digest.zero
      nonce := UInt64.ofNat w.issuers.length + 1 }
  let pinned := w.pinAsset env genesis
  return (toHex (genesis.assetId env.sponge).bytes.toList,
    { pinned with issuers := pinned.issuers ++ [⟨seed, genesis⟩] })

/-- Create a derived issuer; replaying the same metadata changes nothing. -/
def initIssuerFromSeed
    (w : MemWallet)
    (currency : Text)
    (seed : Bytes 32)
    (nonce : UInt64)
    (termsHash : Bytes 32) : Except OpError (Text × MemWallet) := do
  let code ← parseCurrencyCode currency
  let genesis : AssetGenesis :=
    { issuerPk := issuerPublicKey env.sponge seed
      currencyCode := code
      termsHash := ⟨termsHash⟩
      nonce := nonce }
  let known := w.issuers.any (fun i =>
    i.genesis.assetId env.sponge == genesis.assetId env.sponge)
  let pinned := w.pinAsset env genesis
  return (toHex (genesis.assetId env.sponge).bytes.toList,
    if known then w else { pinned with issuers := pinned.issuers ++ [⟨seed, genesis⟩] })

end Identity

section Lookup

def findGenesis (w : MemWallet) (assetId : Digest) : Option AssetGenesis :=
  w.assets.find? (fun g => g.assetId env.sponge == assetId)

def currencyOf (w : MemWallet) (assetId : Digest) : Option Text :=
  (w.findGenesis env assetId).map (fun g => Text.fromUtf8Lossy g.currencyCode.toList)

def secretFor (w : MemWallet) (owner : Digest) : Option OwnerSecret :=
  w.keys.find? (fun k => k.owner env.sponge == owner)

/-- The coin whose id starts with the given text, if there is exactly one. -/
def findCoin (w : MemWallet) (idPrefix : Text) : Except OpError StoredCoin :=
  match w.coins.filter (fun c => (c.id env.sponge).startsWith idPrefix) with
  | [coin] => .ok coin
  | [] => .error (Text.lit "no coin with id prefix " ++ idPrefix)
  | _ => .error (Text.lit "coin id prefix " ++ idPrefix ++ Text.lit " is ambiguous")

/-- The pending transaction of an id; `absent` is the first word of the error. -/
def findPending
    (w : MemWallet)
    (pendingId : UInt64)
    (absent : String) : Except OpError Pending :=
  okOr (w.pending.lookup pendingId)
    (Text.lit absent ++ Text.lit " pending transaction " ++ Text.ofNat pendingId.toNat)

def coinJson (w : MemWallet) (stored : StoredCoin) : CoinJson where
  id := stored.id env.sponge
  assetId := toHex stored.coin.assetId.bytes.toList
  currency := w.currencyOf env stored.coin.assetId
  value := stored.coin.value
  unspent := stored.status == .unspent
  finality := Text.lit (if stored.unconfirmedAnchor.isSome then "unconfirmed" else "settled")
  anchorTxid := stored.unconfirmedAnchor

def listCoins (w : MemWallet) : List CoinJson :=
  w.coins.map (w.coinJson env)

/-- Add a value to the first total of an asset, or start one. -/
def addCredit
    (currency : Option Text)
    (coin : Coin) : List CreditJson → List CreditJson
  | [] => [⟨toHex coin.assetId.bytes.toList, currency, coin.value⟩]
  | credit :: credits =>
      if credit.assetId = toHex coin.assetId.bytes.toList then
        { credit with amount := credit.amount + coin.value } :: credits
      else
        credit :: addCredit currency coin credits

/-- Unspent balances per asset. -/
def balance (w : MemWallet) : List CreditJson :=
  (w.coins.filter (fun s => s.status == .unspent)).foldl
    (fun out s => addCredit (w.currencyOf env s.coin.assetId) s.coin out) []

/-- Replace the first coin with the id of `stored`, or append it. -/
def upsertCoin (stored : StoredCoin) : List StoredCoin → List StoredCoin
  | [] => [stored]
  | c :: coins =>
      if c.id env.sponge = stored.id env.sponge then
        stored :: coins
      else
        c :: upsertCoin stored coins

end Lookup

section Prove

/-- Encode a proof of the current lineage. -/
def encodeCoinProof (proof : CoinProof π) : List UInt8 :=
  proofEnvelopeMagic ++ proof.version ::
    env.encodeEnvelope proof.mode proof.statement (env.encodeProof proof.proof)

/-- Put a pending transaction under the next id. -/
def pushPending
    (w : MemWallet)
    (pending : Pending)
    (record : AnchorRecord)
    (ctx : Ctx) : Proved × MemWallet :=
  ({ pendingId := w.nextPending
     anchorRecord := record.toBytes
     ctx := ctx
     spends := pending.spentIds
     unconfirmedDependencies := pending.unconfirmedDependencies },
   { w with
     pending := w.pending.insert w.nextPending pending
     nextPending := w.nextPending + 1 })

/-- The random values of a `prove` call. -/
structure Draws where
  randomness₀ : Digest
  randomness₁ : Digest
  mintNonce : Digest
  ctxs : List Ctx

/-- The first context drawn. -/
def Draws.ctx (draws : Draws) : Ctx :=
  draws.ctxs.headD (Bytes.zero 32)

def mintPending
    (w : MemWallet)
    (assetIdHex toOwnerHex : Text)
    (amounts : List UInt64)
    (draws : Draws) : Except OpError (Pending × AnchorRecord × Ctx) := do
  let assetId ← parseDigest assetIdHex "asset id"
  let owner ← parseDigest toOwnerHex "owner"
  let issuer ← okOr (w.issuers.find? (fun i => i.genesis.assetId env.sponge == assetId))
    (Text.lit "this wallet does not issue asset " ++ assetIdHex)
  let (out₀, out₁) ←
    outputsToOneOwner assetId owner amounts draws.randomness₀ draws.randomness₁
  let total ← checkedTotal amounts
  let proof ← (proveGenesisMint env.sponge env.prover issuer.genesis issuer.isk draws.mintNonce
    out₀ out₁).mapError env.proverError
  let record := AnchorRecord.mint assetId.toAnchor total
    (mintCommit env.sponge assetId total draws.mintNonce).toAnchor
  return (
    { shape := .fixed record
      openings := [out₀, out₁]
      nullifiers := []
      proof := encodeCoinProof env proof
      aux := some issuer.genesis
      spentIds := []
      unconfirmedDependencies := [] }, record, draws.ctx)

/-- Issuer-authorized mint of one or two outputs. -/
def proveMint
    (w : MemWallet)
    (assetIdHex toOwnerHex : Text)
    (amounts : List UInt64)
    (draws : Draws) : Except OpError (Proved × MemWallet) := do
  let (pending, record, ctx) ← w.mintPending env assetIdHex toOwnerHex amounts draws
  return w.pushPending pending record ctx

/-- An input of a transfer: a coin that is not spent, with its owner secret. -/
def transferInput
    (w : MemWallet)
    (s : StoredCoin) : Except OpError (StoredCoin × OwnerSecret) := do
  ensure (s.status != .spent)
    (Text.lit "coin " ++ s.id env.sponge ++ Text.lit " is already spent")
  let osk ← okOr (w.secretFor env s.coin.owner)
    (Text.lit "no secret for owner of coin " ++ s.id env.sponge)
  return (s, osk)

/-- The creating proof of a stored coin. -/
def predecessorOf (s : StoredCoin) : Except OpError (CoinProof π) :=
  okOr (env.engine.decodeCoinProof s.proof)
    (Text.lit "stored proof for coin " ++ s.id env.sponge ++ Text.lit " does not decode")

/-- One-input and two-input transfers have circuits of their own. -/
def proveInputs
    (assetId : Digest)
    (inputs : List (StoredCoin × OwnerSecret))
    (predecessors : List (CoinProof π))
    (out₀ out₁ : Coin) : Except OpError (CoinProof π) :=
  match inputs, predecessors with
  | [(s, osk)], [pred] =>
      (proveOneInputTransfer env.sponge env.prover assetId s.coin osk out₀ out₁ pred
        s.selector).mapError env.proverError
  | [(s₀, osk₀), (s₁, osk₁)], [pred₀, pred₁] =>
      (proveTwoInputTransfer env.sponge env.prover assetId s₀.coin s₁.coin osk₀ osk₁ out₀ out₁
        pred₀ pred₁ s₀.selector s₁.selector).mapError env.proverError
  -- The caller has checked the number of inputs.
  | _, _ => .error (Text.lit "length checked above")

/-- The unconfirmed parents of the inputs, sorted and without repetition. -/
def unconfirmedParents (stored : List StoredCoin) : List Text :=
  ((stored.filterMap StoredCoin.unconfirmedAnchor).insertionSort
    (fun s t => s.le t = true)).destutter (fun s t => s ≠ t)

def transferPending
    (w : MemWallet)
    (coinIds : List Text)
    (toOwnerHex : Text)
    (amounts : List UInt64)
    (draws : Draws) : Except OpError (Pending × AnchorRecord × Ctx) := do
  ensure (1 ≤ coinIds.length && coinIds.length ≤ nodeInputs)
    (Text.lit "expected 1–" ++ Text.ofNat nodeInputs ++ Text.lit " input coin ids, got " ++
      Text.ofNat coinIds.length)
  ensure (decide coinIds.Nodup) (Text.lit "duplicate transfer input coin id")
  let owner ← parseDigest toOwnerHex "owner"
  let stored ← coinIds.mapM (w.findCoin env)
  let inputs ← stored.mapM (w.transferInput env)
  let assetId := ((stored.head?).map (fun s => s.coin.assetId)).getD Digest.zero
  ensure (inputs.all (fun i => i.1.coin.assetId == assetId))
    (Text.lit "input coins are not all of the same asset")
  let inputTotal ← checkedTotal (inputs.map (fun i => i.1.coin.value))
  let outputTotal ← checkedTotal amounts
  ensure (outputTotal == inputTotal)
    (Text.lit "conservation: inputs total " ++ Text.ofNat inputTotal.toNat ++
      Text.lit ", outputs total " ++ Text.ofNat outputTotal.toNat)
  let changeKey ← okOr w.keys.head? (Text.lit "wallet has no owner key for change")
  let (out₀, out₁) ← outputsWithChange assetId owner (changeKey.owner env.sponge) amounts
    draws.randomness₀ draws.randomness₁
  let predecessors ← stored.mapM (predecessorOf env)
  let proof ← proveInputs env assetId inputs predecessors out₀ out₁
  let nullifiers := proof.statement.nullifiers.filter (fun nf => nf != Digest.zero)
  ensure (!nullifiers.isEmpty) (Text.lit "transfer statement has no nullifiers")
  let (record, ctx) ← freshXferRecord env.sponge nullifiers draws.ctxs
  return (
    { shape := .xfer nullifiers
      openings := [out₀, out₁]
      nullifiers := nullifiers
      proof := encodeCoinProof env proof
      aux := w.findGenesis env assetId
      spentIds := stored.map (StoredCoin.id env.sponge)
      unconfirmedDependencies := unconfirmedParents stored }, record, ctx)

/-- Spend one or two coins, named by id or by a prefix of it. -/
def proveTransfer
    (w : MemWallet)
    (coinIds : List Text)
    (toOwnerHex : Text)
    (amounts : List UInt64)
    (draws : Draws) : Except OpError (Proved × MemWallet) := do
  let (pending, record, ctx) ← w.transferPending env coinIds toOwnerHex amounts draws
  return w.pushPending pending record ctx

def redeemPending
    (w : MemWallet)
    (coinId : Text)
    (draws : Draws) : Except OpError (Pending × AnchorRecord × Ctx) := do
  let stored ← w.findCoin env coinId
  let (_, osk) ← w.transferInput env stored
  let predecessor ← predecessorOf env stored
  let proof ← (proveRedeem env.sponge env.prover stored.coin.assetId stored.coin osk predecessor
    stored.selector).mapError env.proverError
  let assetId := stored.coin.assetId.toAnchor
  let rawNf := proof.statement.nullifier₀
  return (
    { shape := .redeem assetId stored.coin.value rawNf
      openings := []
      nullifiers := [rawNf]
      proof := encodeCoinProof env proof
      aux := none
      spentIds := [stored.id env.sponge]
      unconfirmedDependencies := stored.unconfirmedAnchor.toList },
    AnchorRecord.redeemOf env.sponge assetId stored.coin.value rawNf draws.ctx, draws.ctx)

/-- Burn a coin back to the issuer. -/
def proveRedeem
    (w : MemWallet)
    (coinId : Text)
    (draws : Draws) : Except OpError (Proved × MemWallet) := do
  let (pending, record, ctx) ← w.redeemPending env coinId draws
  return w.pushPending pending record ctx

end Prove

section Selection

/-- A candidate spend: its change, its coins and their total. -/
structure Selection where
  change : UInt64
  ids : List Text
  total : UInt64
deriving DecidableEq

/-- Lexicographic order of id lists. -/
def idsLt : List Text → List Text → Bool
  | [], [] => false
  | [], _ :: _ => true
  | _ :: _, [] => false
  | s :: ss, t :: ts => !t.le s || (s == t && idsLt ss ts)

/-- Less change first, then fewer inputs, then the ids. -/
def Selection.lt (a b : Selection) : Bool :=
  a.change < b.change ||
    (a.change == b.change &&
      (a.ids.length < b.ids.length || (a.ids.length == b.ids.length && idsLt a.ids b.ids)))

/-- Keep the candidate if it is better than the current selection. -/
def Selection.better (selected : Option Selection) (candidate : Selection) : Option Selection :=
  match selected with
  | none => some candidate
  | some current => if candidate.lt current then some candidate else some current

/-- Pairs of distinct places, in the order of two nested loops. -/
def pairsInOrder {α : Type} : List α → List (α × α)
  | [] => []
  | x :: xs => xs.map (fun y => (x, y)) ++ pairsInOrder xs

/-- The ids that live pending transactions will consume. -/
def reserved (w : MemWallet) : List Text :=
  w.pending.entries.flatMap (fun entry => entry.2.spentIds)

/-- The coins a selection may use, by id. -/
def eligible (w : MemWallet) (assetId : Digest) : List (Text × UInt64) :=
  ((w.coins.filter (fun s =>
    s.status == .unspent && s.coin.assetId == assetId &&
      (w.secretFor env s.coin.owner).isSome &&
        !(w.reserved.contains (s.id env.sponge)))).map
    (fun s => (s.id env.sponge, s.coin.value))).insertionSort (fun a b => a.1.le b.1 = true)

/-- One-coin candidates. -/
def singles (eligible : List (Text × UInt64)) (amount : UInt64) : List Selection :=
  eligible.filterMap (fun (id, value) =>
    if value < amount then none else some ⟨value - amount, [id], value⟩)

/-- Two-coin candidates whose total fits. -/
def doubles (eligible : List (Text × UInt64)) (amount : UInt64) : List Selection :=
  (pairsInOrder eligible).filterMap (fun (a, b) =>
    (checkedAdd a.2 b.2).bind (fun total =>
      if total < amount then none else some ⟨total - amount, [a.1, b.1], total⟩))

/-- Choose the inputs of a payment. -/
def selectTransferInputs
    (w : MemWallet)
    (assetIdHex : Text)
    (amount : UInt64) : Except OpError (List Text × UInt64) := do
  ensure (amount != 0) (Text.lit "transfer amount must be positive")
  let assetId ← parseDigest assetIdHex "asset id"
  let eligible := w.eligible env assetId
  let selected ← okOr ((singles eligible amount ++ doubles eligible amount).foldl
      Selection.better none)
    (Text.lit "no unreserved one- or two-coin spend for asset " ++ assetIdHex ++
      Text.lit " covers " ++ Text.ofNat amount.toNat)
  return (selected.ids, selected.total)

/-- Prove a payment; coin selection and change stay inside the wallet. -/
def proveTransferAmount
    (w : MemWallet)
    (assetIdHex toOwnerHex : Text)
    (amount : UInt64)
    (draws : Draws) : Except OpError (Proved × MemWallet) := do
  let (coinIds, total) ← w.selectTransferInputs env assetIdHex amount
  w.proveTransfer env coinIds toOwnerHex
    (if total = amount then [amount] else [amount, total - amount]) draws

/-- The nullifiers a payment would publish. -/
def selectedTransferNullifiers
    (w : MemWallet)
    (assetIdHex : Text)
    (amount : UInt64) : Except OpError (List Digest) := do
  let (coinIds, _) ← w.selectTransferInputs env assetIdHex amount
  coinIds.mapM (fun coinId => do
    let stored ← w.findCoin env coinId
    let osk ← okOr (w.secretFor env stored.coin.owner)
      (Text.lit "no secret for owner of coin " ++ coinId)
    return stored.coin.nullifier env.sponge osk)

end Selection

section Specs

variable {env}
variable {w : MemWallet}

/-- A found coin is the only one whose id starts with the given text. -/
theorem findCoin_spec
    {idPrefix : Text}
    {s : StoredCoin}
    (h : w.findCoin env idPrefix = .ok s) :
    s ∈ w.coins ∧ (s.id env.sponge).startsWith idPrefix = true ∧
      ∀ c ∈ w.coins, (c.id env.sponge).startsWith idPrefix = true → c = s := by
  unfold findCoin at h
  split at h
  · rename_i coin hfilter
    obtain rfl := Except.ok.inj h
    have hmem : coin ∈ w.coins.filter (fun c => (c.id env.sponge).startsWith idPrefix) := by
      rw [hfilter]
      exact List.mem_singleton_self coin
    refine ⟨List.mem_of_mem_filter hmem, (List.mem_filter.mp hmem).2, ?_⟩
    intro c hc hstart
    have hc' : c ∈ w.coins.filter (fun c => (c.id env.sponge).startsWith idPrefix) :=
      List.mem_filter.mpr ⟨hc, hstart⟩
    rw [hfilter] at hc'
    exact List.mem_singleton.mp hc'
  · cases h
  · cases h

/-- A coin is found by its full id only if no other coin has it. -/
theorem findCoin_id
    {s s' : StoredCoin}
    (hs : s ∈ w.coins)
    (h : w.findCoin env (s.id env.sponge) = .ok s') :
    s' = s :=
  ((findCoin_spec h).2.2 s hs (Text.startsWith_self _)).symm

theorem isCanonical_zero :
    Digest.zero.isCanonical = true := by
  decide +kernel

/-- The nullifiers of a proved transfer are canonical. -/
theorem proveInputs_canonical
    {assetId : Digest}
    {inputs : List (StoredCoin × OwnerSecret)}
    {predecessors : List (CoinProof π)}
    {out₀ out₁ : Coin}
    {proof : CoinProof π}
    (h : proveInputs env assetId inputs predecessors out₀ out₁ = .ok proof) :
    ∀ nf ∈ proof.statement.nullifiers, nf.isCanonical = true := by
  unfold proveInputs at h
  split at h
  · rw [mapError_eq_ok_iff] at h
    unfold proveOneInputTransfer at h
    split_ifs at h
    simp only [except_bind_eq_ok_iff, pure, Except.pure, Except.ok.injEq] at h
    obtain ⟨_, -, rfl⟩ := h
    intro nf hnf
    rcases List.mem_pair.mp hnf with rfl | rfl
    · exact isCanonical_hashFelts _ _ _
    · exact isCanonical_zero
  · rw [mapError_eq_ok_iff] at h
    unfold proveTwoInputTransfer at h
    simp only at h
    split_ifs at h
    simp only [except_bind_eq_ok_iff, pure, Except.pure, Except.ok.injEq] at h
    obtain ⟨_, -, rfl⟩ := h
    intro nf hnf
    rcases List.mem_pair.mp hnf with rfl | rfl
    · exact isCanonical_hashFelts _ _ _
    · exact isCanonical_hashFelts _ _ _
  · cases h

/-- What a proved mint puts into its pending transaction. -/
theorem mintPending_spec
    {assetIdHex toOwnerHex : Text}
    {amounts : List UInt64}
    {draws : Draws}
    {p : Pending}
    {record : AnchorRecord}
    {ctx : Ctx}
    (h : w.mintPending env assetIdHex toOwnerHex amounts draws = .ok (p, record, ctx)) :
    (∃ assetId value commit, p.shape = .fixed (.mint assetId value commit)) ∧
      p.nullifiers = [] ∧ p.spentIds = [] := by
  simp only [mintPending, except_bind_eq_ok_iff, pure, Except.pure, Except.ok.injEq,
    Prod.mk.injEq] at h
  obtain ⟨assetId, -, owner, -, issuer, -, ⟨out₀, out₁⟩, -, total, -, proof, -, rfl, -⟩ := h
  exact ⟨⟨_, _, _, rfl⟩, rfl, rfl⟩

/-- An input that passes the spend check is not spent. -/
theorem transferInput_status
    {s : StoredCoin}
    {input : StoredCoin × OwnerSecret}
    (h : w.transferInput env s = .ok input) :
    s.status ≠ .spent := by
  simp only [transferInput, except_bind_eq_ok_iff, ensure_eq_ok_iff] at h
  obtain ⟨-, hstatus, -⟩ := h
  simpa using hstatus

/-- What a proved transfer puts into its pending transaction. -/
theorem transferPending_spec
    {coinIds : List Text}
    {toOwnerHex : Text}
    {amounts : List UInt64}
    {draws : Draws}
    {p : Pending}
    {record : AnchorRecord}
    {ctx : Ctx}
    (h : w.transferPending env coinIds toOwnerHex amounts draws = .ok (p, record, ctx)) :
    p.shape = .xfer p.nullifiers ∧ (∀ nf ∈ p.nullifiers, nf.isCanonical = true) ∧
      ∃ stored, coinIds.mapM (w.findCoin env) = .ok stored ∧
        (∀ s ∈ stored, s.status ≠ .spent) ∧
        p.spentIds = stored.map (StoredCoin.id env.sponge) := by
  simp only [transferPending, except_bind_eq_ok_iff, pure, Except.pure, Except.ok.injEq,
    Prod.mk.injEq] at h
  obtain ⟨-, -, -, -, owner, -, stored, hstored, inputs, hinputs, -, -, inputTotal, -,
    outputTotal, -, -, -, changeKey, -, ⟨out₀, out₁⟩, -, predecessors, -, proof, hproof, -, -, ⟨record', ctx'⟩,
    -, rfl, -⟩ := h
  refine ⟨rfl, ?_, stored, hstored, ?_, rfl⟩
  case refine_2 =>
    intro s hs
    obtain ⟨input, hinput⟩ := exists_ok_of_mem_of_mapM_eq_ok hinputs hs
    exact transferInput_status hinput
  intro nf hnf
  have hmem : nf ∈ proof.statement.nullifiers.filter (fun nf => nf != Digest.zero) := hnf
  exact proveInputs_canonical hproof nf (List.mem_of_mem_filter hmem)

/-- What a proved redemption puts into its pending transaction. -/
theorem redeemPending_spec
    {coinId : Text}
    {draws : Draws}
    {p : Pending}
    {record : AnchorRecord}
    {ctx : Ctx}
    (h : w.redeemPending env coinId draws = .ok (p, record, ctx)) :
    (∃ assetId value rawNf, p.shape = .redeem assetId value rawNf ∧ p.nullifiers = [rawNf] ∧
      rawNf.isCanonical = true) ∧
      ∃ stored, w.findCoin env coinId = .ok stored ∧ stored.status ≠ .spent ∧
        p.spentIds = [stored.id env.sponge] := by
  simp only [redeemPending, except_bind_eq_ok_iff, pure, Except.pure, Except.ok.injEq,
    Prod.mk.injEq, mapError_eq_ok_iff] at h
  obtain ⟨stored, hstored, ⟨_, osk⟩, hinput, predecessor, -, proof, hproof, rfl, -⟩ := h
  refine ⟨⟨_, _, _, rfl, rfl, ?_⟩, stored, hstored, transferInput_status hinput, rfl⟩
  unfold OpenCsv.proveRedeem at hproof
  split_ifs at hproof
  simp only [except_bind_eq_ok_iff, pure, Except.pure, Except.ok.injEq] at hproof
  obtain ⟨_, -, rfl⟩ := hproof
  exact isCanonical_hashFelts _ _ _

end Specs

end MemWallet

end OpenCsv
