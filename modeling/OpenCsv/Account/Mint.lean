import OpenCsv.Account.Planning

/-!
# Mint operations and the issuance ledger

On mainnet a mint needs a production authorization.  Admitting one inserts its row
into the issuance ledger together with the planned operation: the authorization
must continue the sequence and the supply of the latest row of its asset.
-/

namespace OpenCsv

open Call

variable {π : Type}
variable (env : AccountEnv π)
variable (world : World)

section Validation

/-- The policy and the authorization of a mint request, verified now. -/
def validateCurrentProductionMint
    (request : IssuanceRequest)
    (toOwner : Text) :
    Except AccountError (ProductionIssuancePolicy × ProductionMintAuthorization) := do
  let refused := writeBlockError "production_issuance_not_authorized"
  let release ← okOr env.config.productionUsdRegistry refused
  let reference ← okOr (release.issuancePolicyCommitments.find? (fun reference =>
    reference.assetId == request.assetId)) refused
  let policy ← okOr (env.config.productionIssuancePolicies.find? (fun policy =>
    policy.assetId == request.assetId)) refused
  let authorization ← okOr request.productionAuthorization refused
  require
    (authorization.deploymentId == env.config.deploymentId &&
      authorization.registryCommitmentSha256 == release.commitmentSha256 &&
        authorization.assetId == request.assetId)
    refused
  require (0 ≤ world.now) (.new "clock_error" "negative timestamp")
  let _ ← (verifyProductionMintAuthorization env.issuance policy authorization
    release.registryVersion reference.policyCommitmentSha256 toOwner request.amounts
      (UInt64.ofNat world.now.toNat)).mapError AccountError.ofValidation
  return (policy, authorization)

/-- The ledger holds exactly this authorization, for exactly this operation. -/
def verifyProductionIssuanceLedgerEntry
    (a : Account)
    (operationId : Text)
    (policy : ProductionIssuancePolicy)
    (authorization : ProductionMintAuthorization) : Except AccountError Unit := do
  let stored ← okOr (a.issuance.get authorization.authorizationIdSha256)
    (.new "production_issuance_replay"
      "production mint authorization is absent from the durable supply ledger")
  let sequence ← decodeU64Decimal stored.sequenceDecimal "production issuance sequence"
  let before ← decodeU64Decimal stored.supplyBeforeDecimal "production issuance supply before"
  let after ← decodeU64Decimal stored.supplyAfterDecimal "production issuance supply after"
  require
    (stored.assetId == authorization.assetId && sequence == authorization.sequence &&
      stored.policyCommitmentSha256 == policy.commitmentSha256 &&
        before == authorization.supplyBeforeBaseUnits &&
          after == authorization.supplyAfterBaseUnits &&
            stored.authorization == authorization && stored.operationId == operationId &&
              operationId == authorization.authorizationIdSha256)
    (.new "database_corrupt" "production issuance ledger entry disagrees with its authorization")

/-- The operation is funded by exactly the authorized outpoint. -/
def verifyProductionMintFundingBinding
    (operation : Operation)
    (authorization : ProductionMintAuthorization)
    (signedTransactionRequired : Bool) : Except AccountError Unit := do
  let expected ← (productionMintFundingOutpoint env.issuance authorization).mapError (fun error =>
    AccountError.newText "database_corrupt" error.message)
  let outpoint ← operation.outpoint
  require (outpoint == expected)
    (.new "database_corrupt"
      "production mint operation funding disagrees with its signed authorization")
  match operation.signedTx with
  | none =>
      require (!signedTransactionRequired)
        (.new "database_corrupt" "signed production mint has no persisted transaction")
  | some transaction =>
      require (transaction.inputs.head?.map TxIn.prev == some expected)
        (.new "database_corrupt"
          "signed production mint first input disagrees with its authorization")

def validateCurrentProductionMintAdmission
    (a : Account)
    (operationId : Text)
    (operation : Operation) : Except AccountError ProductionIssuanceAuthorizationSnapshot := do
  let request ← operation.request.asMint
  let toOwner ← okOr request.toOwner
    (.new "database_corrupt" "production mint request has no exact recipient")
  let (policy, authorization) ← validateCurrentProductionMint env world request toOwner
  verifyProductionIssuanceLedgerEntry a operationId policy authorization
  return ⟨policy, authorization⟩

def validateCurrentProductionMintOperation
    (a : Account)
    (operationId : Text)
    (operation : Operation) : Except AccountError ProductionIssuanceAuthorizationSnapshot := do
  let snapshot ← validateCurrentProductionMintAdmission env world a operationId operation
  verifyProductionMintFundingBinding env operation snapshot.authorization false
  return snapshot

/-- A signed production mint still agrees with its own snapshot and with the ledger. -/
def verifySignedProductionMint
    (a : Account)
    (operationId : Text)
    (operation : Operation) : Except AccountError Unit :=
  if operation.request.kind ≠ .mint ∨ env.config.network ≠ .mainnet then
    .ok ()
  else do
    let snapshot ← okOr operation.receiptOrEmpty.productionIssuanceAuthorization
      (.new "database_corrupt" "signed production issuance snapshot: missing field")
    let release ← okOr (world.signedRelease operationId)
      (.new "database_corrupt" "signed production mint has no rollout authorization")
    let reference ← okOr (release.issuancePolicyCommitments.find? (fun reference =>
        reference.assetId == snapshot.authorization.assetId))
      (.new "database_corrupt" "signed production mint policy is absent from its release")
    require
      (release.formatVersion == productionUsdRegistryFormatVersionV2 &&
        snapshot.authorization.registryCommitmentSha256 == release.commitmentSha256 &&
          snapshot.authorization.authorizationIdSha256 == operationId &&
            snapshot.policy.commitmentSha256 == reference.policyCommitmentSha256)
      (.new "database_corrupt"
        "signed production mint names another operation, registry, or policy")
    let request ← operation.request.asMint
    require
      (request.productionAuthorization == some snapshot.authorization &&
        request.toOwner == some snapshot.authorization.toOwner &&
          request.amounts == snapshot.authorization.amounts &&
            request.assetId == snapshot.authorization.assetId)
      (.new "database_corrupt"
        "signed production mint snapshot disagrees with its durable request")
    let _ ← (verifyProductionMintAuthorization env.issuance snapshot.policy
      snapshot.authorization release.registryVersion reference.policyCommitmentSha256
        snapshot.authorization.toOwner snapshot.authorization.amounts
          snapshot.authorization.notBeforeUnixSeconds).mapError (fun error =>
            AccountError.newText "database_corrupt" error.message)
    verifyProductionMintFundingBinding env operation snapshot.authorization true
    verifyProductionIssuanceLedgerEntry a operationId snapshot.policy snapshot.authorization

end Validation

section Ledger

/-- Is the first row's sequence text at least the second's? -/
def sequenceGe (row row' : AdmittedRow) : Bool :=
  row'.sequenceDecimal.le row.sequenceDecimal

/-- The latest row of an asset: the first by falling sequence text. -/
def priorRow (a : Account) (assetId : Text) : Option AdmittedRow :=
  (((a.issuance.rows.map Prod.snd).filter (fun row => row.assetId == assetId)).insertionSort
    (fun r r' => sequenceGe r r' = true)).head?

/-- The sequence and the supply that the next authorization of an asset must start from. -/
def expectedFloor (a : Account) (assetId : Text) : Except AccountError (UInt64 × UInt64) :=
  match priorRow a assetId with
  | none => .ok (1, 0)
  | some prior => do
      let sequence ← decodeU64Decimal prior.sequenceDecimal "production issuance sequence"
      let next ← okOr (checkedAdd sequence 1)
        (.new "production_issuance_limit_exceeded" "production issuance sequence overflow")
      let supply ← decodeU64Decimal prior.supplyAfterDecimal "production issuance supply"
      return (next, supply)

/-- The ledger row of an authorization. -/
def admittedRow
    (policy : ProductionIssuancePolicy)
    (authorization : ProductionMintAuthorization)
    (operationId : Text)
    (createdAt : ℤ) : AdmittedRow where
  assetId := authorization.assetId
  sequenceDecimal := encodeU64Decimal authorization.sequence
  policyCommitmentSha256 := policy.commitmentSha256
  supplyBeforeDecimal := encodeU64Decimal authorization.supplyBeforeBaseUnits
  supplyAfterDecimal := encodeU64Decimal authorization.supplyAfterBaseUnits
  authorization := authorization
  operationId := operationId
  createdAt := createdAt

/-- The authorization continues the sequence and the supply of its asset. -/
def continuesLedger
    (authorization : ProductionMintAuthorization)
    (a : Account) : Except AccountError Unit := do
  let (sequence, supply) ← expectedFloor a authorization.assetId
  require (authorization.sequence == sequence)
    (.newText "production_issuance_sequence_mismatch"
      (Text.lit "expected production issuance sequence " ++ Text.ofNat sequence.toNat ++
        Text.lit ", got " ++ Text.ofNat authorization.sequence.toNat))
  require (authorization.supplyBeforeBaseUnits == supply)
    (.newText "production_issuance_supply_mismatch"
      (Text.lit "expected production supply floor " ++ Text.ofNat supply.toNat ++
        Text.lit ", got " ++ Text.ofNat authorization.supplyBeforeBaseUnits.toNat))

/-- Admit an authorization: one planned mint and one ledger row, in one transaction. -/
def insertProductionMintOperation
    (operationId : Text)
    (request : IssuanceRequest)
    (deliveryNonce : Text)
    (policy : ProductionIssuancePolicy)
    (authorization : ProductionMintAuthorization) : AccountCall Unit := do
  demand (operationId == authorization.authorizationIdSha256)
    (.new "production_issuance_not_authorized"
      "production mint operation id must equal its authorization id")
  atomic (do
    let a ← get
    demand (!a.issuance.has authorization.authorizationIdSha256 && !a.isAdmitted operationId)
      (.new "production_issuance_replay" "production mint authorization was already admitted")
    reads (continuesLedger authorization)
    insertPlannedOperation world operationId (.mint request) deliveryNonce
    modify (fun a => { a with
      issuance := a.issuance.insert authorization.authorizationIdSha256
        (admittedRow policy authorization operationId world.now) }))

end Ledger

section Minting

/-- Bind a proved mint to its operation. -/
def installMint
    (operationId : Text)
    (request : IssuanceRequest)
    (funding : ReservedFunding)
    (pendingId : UInt64) : AccountCall Unit := do
  modify (fun a => { a with
    pendingByOperation := a.pendingByOperation.put operationId pendingId })
  let a ← get
  match a.protocol.rebindPending env.wallet pendingId (fundingCtx env.sha256 funding.outpoint) with
  | .error error =>
      failPrebroadcast operationId (.newText "protocol_layout_violation" error)
  | .ok _ =>
      match a.protocol.exportPending env.wallet pendingId with
      | .error error => failPrebroadcast operationId (.newText "database_error" error)
      | .ok pendingJson => do
          markProofReady operationId (.mint request) pendingJson
          match ← attempt (preparedReceipt env operationId) with
          | .ok _ => pure ()
          | .error error => failPrebroadcast operationId error

/-- Prove a mint whose fee output is reserved. -/
def proveMintOperation
    (operationId : Text)
    (request : IssuanceRequest)
    (funding : ReservedFunding) : AccountCall Unit := do
  let toOwner ← lift (okOr request.toOwner
    (.new "database_corrupt" "mint request has no exact recipient"))
  match world.verifyFunding funding.outpoint with
  | .error error => do
      rejectPrebroadcastOperation operationId error.code
      throw error
  | .ok _ => do
      let a ← get
      match a.protocol.proveMint env.wallet request.assetId toOwner request.amounts world.draws with
      | .error error => failPrebroadcast operationId (.newText "invalid_proof_request" error)
      | .ok (proved, w) => do
          modify (fun a => { a with protocol := w })
          installMint env operationId request funding proved.pendingId

/-- Prepare an issuance of an existing instrument. -/
def mintPrepare (request : IssuanceRequest) : AccountCall Unit := do
  reads (requireIssuanceWriteEnabled env)
  demand (!request.amounts.isEmpty && request.amounts.length ≤ 2)
    (.new "invalid_request" "mint requires one or two positive outputs")
  demand (!request.amounts.contains 0) (.new "invalid_request" "mint outputs must be positive")
  let a ← get
  demand (a.manifests.has request.assetId)
    (.new "instrument_definition_required"
      "issuance requires an existing v1 instrument manifest; prototype assets are read-only")
  let toOwner := request.toOwner.getD
    ((a.protocol.owners env.wallet.sponge).head?.getD (Text.lit ""))
  let request := { request with toOwner := some toOwner }
  if env.config.network = .mainnet then do
    let (policy, authorization) ← lift (validateCurrentProductionMint env world request toOwner)
    let operationId := authorization.authorizationIdSha256
    let outpoint ← lift ((productionMintFundingOutpoint env.issuance authorization).mapError
      AccountError.ofValidation)
    insertProductionMintOperation world operationId request (world.randomId 0) policy authorization
    -- A missing outpoint keeps the admitted operation planned.
    let funding ← reserveFeeUtxoMatching env operationId (some outpoint)
    proveMintOperation env world operationId request funding
  else do
    let operationId := world.randomId 0
    insertPlannedOperation world operationId (.mint request) (world.randomId 1)
    match ← attempt (reserveFeeUtxo env operationId) with
    | .ok funding => proveMintOperation env world operationId request funding
    | .error error => do
        rejectPrebroadcastOperation operationId error.code
        throw error

/-- The terms of a manifest are the ones its genesis commits to. -/
def validateManifest (manifest : InstrumentManifest) : Except Text Unit := do
  let code ← okOr (Bytes.tryFrom 3 manifest.terms.unitCode.bytes)
    (Text.lit "unit code is not three bytes")
  require (manifest.genesis.currencyCode == code)
    (Text.lit "manifest unit code does not match asset genesis")
  let hash ← env.termsHash manifest.terms
  require (manifest.genesis.termsHash == hash)
    (Text.lit "manifest terms do not match the genesis terms hash")

/-- Define an instrument; writes stay blocked until a backup contains it. -/
def instrumentCreate (terms : InstrumentTerms) : AccountCall Unit := do
  reads (requireWriteEnabled env)
  let hash ← lift ((env.termsHash terms).mapError
    (AccountError.newText "invalid_instrument_definition"))
  demand (terms.network == env.config.network)
    (.new "instrument_network_mismatch" "instrument definition is for another network")
  let a ← get
  let index := UInt32.ofNat ((a.assets.rows.map (fun row => row.1.toNat + 1)).foldl max 0)
  let nonce := index.toUInt64 + 1
  let seed := env.issuerSeed index
  let code ← lift (okOr (Bytes.tryFrom 3 terms.unitCode.bytes)
    (.new "invalid_instrument_definition" "unit code must be three bytes"))
  let genesis : AssetGenesis :=
    { issuerPk := issuerPublicKey env.wallet.sponge seed
      currencyCode := code
      termsHash := hash
      nonce := nonce }
  lift ((validateManifest env ⟨terms, genesis⟩).mapError
    (AccountError.newText "invalid_instrument_definition"))
  let (assetId, w) ← lift ((a.protocol.initIssuerFromSeed env.wallet terms.unitCode seed nonce
    hash.bytes).mapError (AccountError.newText "invalid_request"))
  modify (fun a => { a with protocol := w })
  demand (assetId == toHex (genesis.assetId env.wallet.sponge).bytes.toList)
    (.new "database_error" "derived issuer genesis disagrees with instrument manifest")
  demand (!a.assets.has index && !a.manifests.has assetId)
    (.new "database_error" "UNIQUE constraint failed: opencsv_assets.asset_id")
  modify (fun a => { a with
    assets := a.assets.insert index ⟨terms.unitCode, hash.bytes, nonce, assetId⟩
    manifests := a.manifests.insert assetId ⟨terms, genesis⟩
    backupVerified := false })
  let _ ← reads (fun a => a.currentHash env)

end Minting

end OpenCsv
