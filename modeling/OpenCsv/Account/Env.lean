import OpenCsv.Account.Checkpoint

/-!
# Configuration, gates and the outside world

What an account is opened with, what it asks the outside world during one call,
and the gates that refuse a call: wallet writes, product writes, the reviewed
assets and the production limits.

The clock of a call stands still.  Everything a gate reads but the database is a
field of `AccountEnv` or `World`, so a result about every environment and every
world covers each configuration and each behaviour of the services.
-/

namespace OpenCsv

section Configuration

inductive ObservationMode where
  | off
  | observe
  | require
deriving DecidableEq

inductive ObservationKind where
  | rawTransactionApi
  | directP2pRelay
  | experimentalP2pPossession
  | confirmedSpv
deriving DecidableEq

structure ObservationCheck where
  kind : ObservationKind
  mode : ObservationMode
  /-- The lowercase host of the endpoint, when it has one. -/
  host : Option Text
  chainFingerprintsSha256 : List Text
  maxAgeSeconds : UInt64
deriving DecidableEq

def defaultObservationMaxAgeSeconds : UInt64 := 120

inductive ProductionActivationPhase where
  | candidate
  | limited
  | general
deriving DecidableEq

/-- Loss and volume limits of a production release. -/
structure ProductionRolloutPolicy where
  phase : ProductionActivationPhase
  maxTransferBaseUnits : UInt64
  maxBatchTotalBaseUnits : UInt64
  maxRolling24hOutgoingBaseUnits : UInt64
  maxRolling24hOperations : UInt32
  maxBatchRecipients : UInt8
  maxReserveAllocationSats : UInt64
deriving DecidableEq

structure ProductionIssuancePolicyRef where
  assetId : Text
  policyCommitmentSha256 : Text
deriving DecidableEq

structure ProductionUsdRegistryRelease where
  formatVersion : UInt32
  registryVersion : UInt64
  deploymentId : Text
  rollout : ProductionRolloutPolicy
  issuancePolicyCommitments : List ProductionIssuancePolicyRef
  commitmentSha256 : Text
deriving DecidableEq

def productionUsdRegistryFormatVersionV2 : UInt32 := 2

/-- The configuration of a primary account. -/
structure AccountConfig where
  network : Network
  deploymentId : Text
  requiredConfirmations : UInt32
  observationChecks : List ObservationCheck
  peers : List Text
  verificationPeers : List Text
  /-- The exact asset ids of the reviewed issuers. -/
  usdIssuers : List Digest
  productionUsdRegistry : Option ProductionUsdRegistryRelease
  productionIssuancePolicies : List ProductionIssuancePolicy
  maxFeeSats : Option UInt64
  /-- Test builds may skip the confirmed-spend preflight and assume an authenticated root. -/
  skipProtocolSpendPreflight : Bool
  assumeAuthenticatedProofRoot : Bool
deriving DecidableEq

end Configuration

/-- What the account is opened with, and what it calls outside the repository. -/
structure AccountEnv (π : Type) where
  wallet : WalletEnv π
  issuance : IssuanceEnv
  config : AccountConfig
  deviceBindingValid : Bool
  rootFingerprint : Text
  deviceBindingCommitment : Option Text
  /-- The hash of the canonical text of a checkpoint. -/
  checkpointHash : Checkpoint → Text
  /-- Validation and hash of instrument terms. -/
  termsHash : InstrumentTerms → Except Text Digest
  /-- The seed of the issuer with an index. -/
  issuerSeed : UInt32 → Bytes 32
  /-- The stock outpoint and the context of a batch proposal. -/
  proposalFromWire : List UInt8 → Except AccountError (OutPoint × Ctx)
  /-- The dust limit of an output script. -/
  minimalNonDust : List UInt8 → UInt64

def AccountEnv.sha256 {π : Type} (env : AccountEnv π) : Sha256 :=
  env.issuance.sha256

/-- The answers of the outside world during one call. -/
structure World where
  now : ℤ
  nowMs : ℤ
  /-- The ids drawn by `random_id`, in order. -/
  randomId : ℕ → Text
  /-- The random values of a `prove` call. -/
  draws : MemWallet.Draws
  /-- How far the chain was checked to prove an outpoint unspent. -/
  verifyFunding : OutPoint → Except AccountError UInt64
  /-- The verified scan's tip, and the first occurrence of a nullifier. -/
  nullifierOccurrence : Digest → Except Text (UInt64 × Option AnchorLocation)
  /-- The accelerator's transaction, and whether it calls it confirmed. -/
  getTx : Txid → Except Text (Option Transaction)
  txConfirmed : Txid → Except Text Bool
  /-- Change scripts revealed and commit nonces drawn for the members of a batch. -/
  changeScript : ℕ → List UInt8
  commitNonce : ℕ → Bytes 32
  /-- Does the derived fee key control a reserved output? -/
  batchFeeKey : OutPoint → Except AccountError Unit
  /-- The transaction the signer builds and signs, and its fee. -/
  sign : Except AccountError (Transaction × UInt64)
  /-- Signing the rollout authorization of a receipt. -/
  stamp : Except AccountError Unit
  /-- The verified fee limit, and the release, of the rollout authorization in a receipt. -/
  signedFeeLimit : Text → Except AccountError (Option UInt64)
  signedRelease : Text → Option ProductionUsdRegistryRelease
  /-- Submission to the peers and to the generic relay. -/
  relay : Except AccountError Unit
  /-- The observation evidence and the observation policies. -/
  observation : Except AccountError Unit
  /-- Reading the evidence of a receiver, and the policies that need no host evidence. -/
  evidence : Except AccountError Unit
  nonHostPolicy : Except AccountError Unit
  /-- Does the verified scan settle a consignment? -/
  scanVerify : List UInt8 → Except AccountError Bool
  /-- The unspent outputs that a full scan of the fee wallet finds. -/
  fullScan : Except AccountError (List LocalOutput)
  /-- The transaction with an id in the fee wallet's graph. -/
  walletTx : Txid → Option Transaction
  /-- The value of a spent funding output, when the graph holds it with an exact height. -/
  historicalValue : OutPoint → Except AccountError UInt64
  /-- Confirmations of a transaction in the verified scan, and the depth the scan requires. -/
  txidConfirmation : Txid → Option (UInt64 × UInt64)
  /-- The next manifest of a signed batch, its signed transaction and its fee. -/
  batchReplacement : Except AccountError (List UInt8 × Transaction × UInt64)
  /-- A confirmed chain view together with one exact mempool transaction. -/
  provisionalChain : Consignment → Transaction → Except AccountError SnapshotChain

section Constants

def minFeeReserveSats : UInt64 := 2500
def sendBatchWindowMillis : ℤ := 2000
def maxLocalBatchRecipients : ℕ := maxBatchV2Participants
def checkpointVersion : UInt32 := 4

end Constants

section Checkpoints

def accountKeyDerivationId (network : Network) : Text :=
  Text.lit (if network = .mainnet then "opencsv-mainnet-account-v1" else "opencsv-account-v2")

variable {π : Type}
variable (env : AccountEnv π)

/-- The checkpoint of the current state. -/
def Account.checkpoint (a : Account) : Except AccountError Checkpoint := do
  let issuance ← a.exportedIssuance
  return {
    version := checkpointVersion
    deploymentId := some env.config.deploymentId
    keyDerivationId := some (accountKeyDerivationId env.config.network)
    registryFloor := a.registryFloor
    network := env.config.network
    rootFingerprint := env.rootFingerprint
    deviceBindingCommitment := env.deviceBindingCommitment
    owners := a.protocol.owners env.wallet.sponge
    assets := a.assets.rows.insertionSort (fun r r' => r.1 ≤ r'.1)
    manifests := a.manifests.rows.map Prod.snd
    operations := a.exportedOperations
    consignments := a.exportedConsignments
    sendBatches := a.exportedBatches
    members := a.exportedMembers
    stocks := a.stocks.rows.insertionSort (fun r r' => r.2.createdAt ≤ r'.2.createdAt)
    reserves := a.reserves.rows.insertionSort (fun r r' => r.2.createdAt ≤ r'.2.createdAt)
    issuance := issuance }

/-- The hash of the current checkpoint. -/
def Account.currentHash (a : Account) : Except AccountError Text :=
  (a.checkpoint env).map env.checkpointHash

end Checkpoints

section Hex

/-- `u8::from_str_radix` on two characters: a plus sign may stand for the first. -/
def u8FromStrRadix16 (c d : UInt8) : Option UInt8 :=
  if c = 0x2B then hexValue d else hexPairValue c d

def decodePairs : List UInt8 → Option (List UInt8)
  | [] => some []
  | c :: d :: rest => do
      let b ← u8FromStrRadix16 c d
      let bs ← decodePairs rest
      return b :: bs
  | [_] => none

def decodeHex32 (value : Text) (what : String) : Except AccountError (Bytes 32) := do
  require (value.bytes.length == 64)
    (.new "database_corrupt" (what ++ " must be 64 hexadecimal characters"))
  let bytes ← okOr (decodePairs value.bytes) (.new "database_corrupt" ("invalid " ++ what ++ " hex"))
  okOr (Bytes.tryFrom 32 bytes) (.new "database_corrupt" ("invalid " ++ what ++ " hex"))

/-- Anchor references keep the bytes of a transaction id in wire order. -/
def unconfirmedDependencyTxid (value : Text) : Except AccountError Txid :=
  decodeHex32 value "unconfirmed dependency"

def unconfirmedDependencyKey (txid : Txid) : Text :=
  toHex txid.toList

end Hex

section Gates

variable {π : Type}
variable (env : AccountEnv π)

def writeBlockError (reason : String) : AccountError :=
  .new reason (match reason with
    | "device_binding_mismatch" =>
        "this restored device is read/export-only until explicit wallet recovery"
    | "backup_required" =>
        "verified Signal Secure Backup is required for Bitcoin-writing operations"
    | "production_usd_not_configured" =>
        "mainnet Bitcoin-writing operations require at least one reviewed non-test USD issuer manifest"
    | "production_registry_rollback" =>
        "this wallet has seen a newer production USD registry release and remains read-only"
    | "production_registry_conflict" =>
        "the production USD registry reuses a version with different committed bytes"
    | "production_activation_not_authorized" =>
        "this production registry is a candidate and does not authorize consumer Bitcoin writes"
    | "production_root_vk_authentication_required" =>
        "mainnet Bitcoin-writing operations require an independently authenticated recursive root verification key; proof-lineage v4 remains testnet-only"
    | "production_observation_policy_required" =>
        "mainnet Bitcoin-writing operations require two independent pinned raw-transaction observers, direct relay, and two confirmed-chain peers"
    | "production_issuance_not_authorized" =>
        "mainnet issuance remains disabled until an independently authenticated issuer authorization and supply policy are implemented"
    | _ => "wallet writes are disabled")

def RegistryState.writeBlockReason : RegistryState → Option String
  | .rollback => some "production_registry_rollback"
  | .conflict => some "production_registry_conflict"
  | .notApplicable | .unconfigured | .current => none

/-- The reviewed issuers; a stale or absent production registry clears them. -/
def Account.usdIssuers (a : Account) : List Digest :=
  match a.registryState with
  | .notApplicable | .current => env.config.usdIssuers
  | .unconfigured | .rollback | .conflict => []

def requireWriteEnabled (a : Account) : Except AccountError Unit := do
  require env.deviceBindingValid (writeBlockError "device_binding_mismatch")
  require a.backupVerified (writeBlockError "backup_required")

def productionUsdConfigured (a : Account) : Bool :=
  env.config.network != .mainnet ||
    (a.registryState == .current && env.config.productionUsdRegistry.isSome &&
      !(a.usdIssuers env).isEmpty)

def productionActivationWriteReady : Bool :=
  env.config.network != .mainnet ||
    env.config.productionUsdRegistry.any (fun release =>
      release.rollout.phase == .limited || release.rollout.phase == .general)

def productionRootVkAuthenticationReady : Bool :=
  env.config.network != .mainnet || env.config.assumeAuthenticatedProofRoot

/-- Is a check of this kind switched on? -/
def AccountConfig.observes (config : AccountConfig) (kind : ObservationKind) : Bool :=
  config.observationChecks.any (fun check => check.kind == kind && check.mode != .off)

def productionObservationPolicyReady : Bool :=
  env.config.network != .mainnet ||
    (let requiredRawHosts := (env.config.observationChecks.filter (fun check =>
        check.kind == .rawTransactionApi && check.mode == .require &&
          !check.chainFingerprintsSha256.isEmpty)).filterMap ObservationCheck.host
     let verificationPeers :=
       if env.config.verificationPeers.isEmpty then env.config.peers
       else env.config.verificationPeers
     2 ≤ requiredRawHosts.dedup.length && env.config.observes .directP2pRelay &&
       env.config.observes .confirmedSpv && 2 ≤ verificationPeers.dedup.length)

/-- Gate of new consumer operations. -/
def requireProductWriteEnabled (a : Account) : Except AccountError Unit := do
  requireWriteEnabled env a
  match a.registryState.writeBlockReason with
  | some reason => .error (writeBlockError reason)
  | none => pure ()
  require (productionUsdConfigured env a) (writeBlockError "production_usd_not_configured")
  require (productionActivationWriteReady env)
    (writeBlockError "production_activation_not_authorized")
  require (productionRootVkAuthenticationReady env)
    (writeBlockError "production_root_vk_authentication_required")
  require (productionObservationPolicyReady env)
    (writeBlockError "production_observation_policy_required")

/-- Gate of issuance, in builds with the issuer tools. -/
def requireIssuanceWriteEnabled (a : Account) : Except AccountError Unit := do
  requireWriteEnabled env a
  if env.config.network = .mainnet then do
    let release ← okOr env.config.productionUsdRegistry
      (writeBlockError "production_issuance_not_authorized")
    require
      (release.formatVersion == productionUsdRegistryFormatVersionV2 &&
        !release.issuancePolicyCommitments.isEmpty)
      (writeBlockError "production_issuance_not_authorized")
    require (!env.config.productionIssuancePolicies.isEmpty)
      (writeBlockError "production_issuance_not_authorized")
    requireProductWriteEnabled env a
  else
    pure ()

def isReviewedUsdAsset (a : Account) (assetId : Text) : Bool :=
  match decodeHex32 assetId "asset id" with
  | .error _ => false
  | .ok requested => (a.usdIssuers env).any (fun issuer => issuer.bytes == requested)

def requireReviewedUsdAsset (a : Account) (assetId : Text) : Except AccountError Unit :=
  require (isReviewedUsdAsset env a assetId)
    (.new "asset_not_reviewed"
      "the exact asset is not in Signal's reviewed USD issuer registry")

def productionRolloutPolicy : Option ProductionRolloutPolicy :=
  if env.config.network = .mainnet then
    env.config.productionUsdRegistry.map ProductionUsdRegistryRelease.rollout
  else
    none

def effectiveFeeLimit (perCall : Option UInt64) : Option UInt64 :=
  match perCall, env.config.maxFeeSats with
  | some perCall, some account => some (min perCall account)
  | some perCall, none => some perCall
  | none, account => account

end Gates

section Limits

variable {π : Type}
variable (env : AccountEnv π)
variable (world : World)

def requireProductionTransferAmount (request : TransferRequest) : Except AccountError Unit :=
  match productionRolloutPolicy env with
  | none => .ok ()
  | some policy =>
      require (request.amount ≤ policy.maxTransferBaseUnits)
        (.newText "production_value_limit_exceeded"
          (Text.ofNat request.amount.toNat ++
            Text.lit " base units exceeds the per-transfer production limit of " ++
              Text.ofNat policy.maxTransferBaseUnits.toNat))

/-- Add one operation of the rolling day to its count and amount. -/
def addRolling
    (usage : UInt64 × UInt64)
    (operation : Operation) : Except AccountError (UInt64 × UInt64) := do
  let request ← operation.request.asTransfer
  let count ← okOr (checkedAdd usage.1 1)
    (.new "database_corrupt" "rolling operation count overflow")
  let amount ← okOr (checkedAdd usage.2 request.amount)
    (.new "database_corrupt" "rolling transfer amount overflow")
  return (count, amount)

/-- Count and amount of the live transfers of the last day. -/
def productionRollingTransferUsage (a : Account) : Except AccountError (UInt64 × UInt64) :=
  ((a.operations.rows.map Prod.snd).filter (fun operation =>
    operation.request.kind == .transfer && world.now - 86400 ≤ operation.createdAt &&
      operation.state != .cancelled && operation.state != .protocolRejected)).foldlM addRolling
        (0, 0)

def requireProductionExistingTransferPolicy
    (a : Account)
    (request : TransferRequest) : Except AccountError Unit := do
  requireProductionTransferAmount env request
  match productionRolloutPolicy env with
  | none => pure ()
  | some policy => do
      let (count, amount) ← productionRollingTransferUsage world a
      require (count.toNat ≤ policy.maxRolling24hOperations.toNat)
        (.new "production_operation_limit_exceeded"
          "active/completed rolling-day operation count exceeds current production policy")
      require (amount ≤ policy.maxRolling24hOutgoingBaseUnits)
        (.new "production_value_limit_exceeded"
          "active/completed rolling-day outgoing amount exceeds current production policy")

def requireProductionNewTransferPolicy
    (a : Account)
    (request : TransferRequest) : Except AccountError Unit := do
  requireProductionTransferAmount env request
  match productionRolloutPolicy env with
  | none => pure ()
  | some policy => do
      let (count, amount) ← productionRollingTransferUsage world a
      require
        ((checkedAdd count 1).any (fun next =>
          next.toNat ≤ policy.maxRolling24hOperations.toNat))
        (.new "production_operation_limit_exceeded"
          "new transfer would exceed the rolling-day production operation limit")
      require
        ((checkedAdd amount request.amount).any (fun next =>
          next ≤ policy.maxRolling24hOutgoingBaseUnits))
        (.new "production_value_limit_exceeded"
          "new transfer would exceed the rolling-day production value limit")

def requireProductionBatchPolicy (requests : List TransferRequest) : Except AccountError Unit :=
  match productionRolloutPolicy env with
  | none => .ok ()
  | some policy => do
      require (requests.length ≤ policy.maxBatchRecipients.toNat)
        (.newText "production_batch_limit_exceeded"
          (Text.ofNat requests.length ++
            Text.lit " recipients exceeds the production batch limit of " ++
              Text.ofNat policy.maxBatchRecipients.toNat))
      let total ← requests.foldlM (fun sum request =>
        okOr (checkedAdd sum request.amount)
          (AccountError.new "production_value_limit_exceeded" "batch amount overflow")) 0
      require (total ≤ policy.maxBatchTotalBaseUnits)
        (.newText "production_value_limit_exceeded"
          (Text.ofNat total.toNat ++
            Text.lit " base units exceeds the production batch limit of " ++
              Text.ofNat policy.maxBatchTotalBaseUnits.toNat))

def requireReviewedTransfer
    (a : Account)
    (request : TransferRequest) : Except AccountError Unit := do
  requireReviewedUsdAsset env a request.assetId
  requireProductionExistingTransferPolicy env world a request

/-- A transfer request as it is journaled. -/
def normalizeTransferRequest (request : TransferRequest) : Except AccountError Unit := do
  let _ ← decodeHex32 request.assetId "asset id"
  let _ ← decodeHex32 request.toOwner "recipient owner"
  require (request.amount != 0) (.new "invalid_request" "transfer amount must be positive")

def protocolSpendPreflightRequired : Bool :=
  !env.config.skipProtocolSpendPreflight && env.config.network != .regtest

/-- The selected inputs that the verified chain already spends. -/
def confirmedProtocolInputSpends
    (nullifiers : List Digest)
    (minimumTip : UInt64)
    (required : Bool) : Except AccountError (List (Digest × AnchorLocation)) :=
  if !required then
    .ok []
  else do
    require (!nullifiers.isEmpty)
      (.new "stale_chain_state" "transfer proof contains no OpenCSV input nullifiers")
    let spends ← nullifiers.mapM (fun nullifier => do
      let (scanTip, occurrence) ← (world.nullifierOccurrence nullifier).mapError (fun error =>
        .newRetryable "chain_verification_unavailable"
          (Text.lit "confirmed OpenCSV spend scan is unavailable: " ++ error))
      require (minimumTip ≤ scanTip)
        (.newRetryable "chain_verification_unavailable"
          (Text.lit "confirmed OpenCSV spend scan tip " ++ Text.ofNat scanTip.toNat ++
            Text.lit " is behind verified funding tip " ++ Text.ofNat minimumTip.toNat))
      return occurrence.map (fun location => (nullifier, location)))
    return spends.filterMap id

/-- Refuse inputs that the verified chain already spends. -/
def verifyProtocolInputsUnspent
    (nullifiers : List Digest)
    (minimumTip : UInt64)
    (required : Bool) : Except AccountError Unit := do
  let spends ← confirmedProtocolInputSpends world nullifiers minimumTip required
  match spends with
  | [] => pure ()
  | (_, location) :: _ =>
      .error (.newText "stale_chain_state"
        (Text.lit "selected OpenCSV input was already spent at " ++
          Text.ofNat location.height.toNat ++ Text.lit ":" ++
            Text.ofNat location.position.toNat ++
              Text.lit "; the wallet checkpoint is behind the verified chain"))

end Limits

end OpenCsv
