import OpenCsv.Account.Reopen

/-!
# Restoring a checkpoint

A checkpoint is imported into a clean database that was opened with the same key,
configuration and device binding.  Every table is validated against the others before
the import; the import itself is one transaction of the database, but not of the
protocol wallet in memory.
-/

namespace OpenCsv

open Call

variable {π : Type}
variable (env : AccountEnv π)
variable (world : World)

def legacyCheckpointVersion : UInt32 := 1
def batchCheckpointVersion : UInt32 := 2
def preResetCheckpointVersion : UInt32 := 3

def deploymentResetError (network : Network) (message : String) : AccountError :=
  .new (if network = .mainnet then "deployment_mismatch" else "testnet_reset_required") message

def invalidCheckpoint (message : String) : AccountError :=
  .new "invalid_backup_checkpoint" message

section Identity

/-- The registry floor of a checkpoint, when it is newer than the stored one. -/
def registryFloorFromCheckpoint
    (a : Account)
    (floor : Option RegistryFloor) : Except AccountError (Option RegistryFloor) :=
  if env.config.network ≠ .mainnet then do
    require floor.isNone
      (invalidCheckpoint "a testnet checkpoint cannot contain a production USD registry floor")
    return none
  else do
    let floor ← okOr floor
      (.new "deployment_mismatch"
        "production Secure Backup checkpoint has no registry-version floor")
    require (floor.registryVersion != 0)
      (invalidCheckpoint "production registry checkpoint version must be nonzero")
    require (floor.commitmentSha256.bytes.length == 64 &&
        floor.commitmentSha256.bytes.all isHexDigit)
      (invalidCheckpoint "production registry checkpoint commitment is malformed")
    require (!a.registryFloor.any (fun stored =>
        stored.registryVersion == floor.registryVersion &&
          stored.commitmentSha256 != floor.commitmentSha256))
      (.new "production_registry_conflict"
        "Secure Backup reuses a production registry version with different committed bytes")
    return if a.registryFloor.all (fun stored => stored.registryVersion < floor.registryVersion) then
      some floor
    else
      none

/-- The checkpoint belongs to this deployment, network, key and device. -/
def checkIdentity
    (checkpoint : Checkpoint)
    (a : Account) : Except AccountError (Option RegistryFloor) := do
  require (!([legacyCheckpointVersion, batchCheckpointVersion, preResetCheckpointVersion].contains
      checkpoint.version))
    (deploymentResetError env.config.network
      "legacy Secure Backup checkpoints are archived and cannot restore into this deployment")
  require (checkpoint.version == checkpointVersion)
    (.new "backup_version_mismatch" "expected checkpoint version 4")
  require (checkpoint.deploymentId == some env.config.deploymentId)
    (deploymentResetError env.config.network
      "Secure Backup checkpoint belongs to another OpenCSV deployment")
  require (checkpoint.network == env.config.network)
    (.new "backup_network_mismatch"
      "Secure Backup checkpoint belongs to another Bitcoin network")
  match checkpoint.keyDerivationId with
  | some actual =>
      require (actual == accountKeyDerivationId env.config.network)
        (deploymentResetError env.config.network
          "Secure Backup checkpoint belongs to another account-key derivation namespace")
  | none =>
      require (env.config.network != .mainnet)
        (deploymentResetError env.config.network
          "pre-v1 mainnet key derivation is archived; create a fresh production wallet")
  let floor ← registryFloorFromCheckpoint env a checkpoint.registryFloor
  require (checkpoint.rootFingerprint == env.rootFingerprint)
    (.new "account_key_mismatch" "Secure Backup checkpoint belongs to another account root")
  require (checkpoint.deviceBindingCommitment == env.deviceBindingCommitment)
    (.new "device_binding_mismatch" "Secure Backup checkpoint names a different device binding")
  require (checkpoint.owners == a.protocol.owners env.wallet.sponge)
    (.new "account_key_mismatch"
      "Secure Backup owner identity does not derive from this account root")
  return floor

/-- Nothing is stored yet. -/
def Account.isClean (a : Account) : Bool :=
  a.assets.rows.isEmpty && a.manifests.rows.isEmpty && a.operations.rows.isEmpty &&
    a.consignments.rows.isEmpty && a.batches.rows.isEmpty && a.members.rows.isEmpty &&
      a.stocks.rows.isEmpty && a.reserves.rows.isEmpty && a.issuance.rows.isEmpty

end Identity

section Tables

/-- Check the rows of a table one by one, each with the rows before it. -/
def checkEach {α : Type} (check : List α → α → Except AccountError Unit) :
    List α → List α → Except AccountError Unit
  | _, [] => .ok ()
  | earlier, row :: rest => do
      check earlier row
      checkEach check (earlier ++ [row]) rest

def checkAsset (row : UInt32 × Asset) : Except AccountError Unit := do
  let _ ← decodeHex32 row.2.assetId "asset id"
  require (row.2.nonce.toNat < 2 ^ 63) (invalidCheckpoint "asset nonce exceeds SQLite i64")

/-- The id of the asset that a manifest defines. -/
def manifestAssetId (manifest : InstrumentManifest) : Text :=
  toHex (manifest.genesis.assetId env.wallet.sponge).bytes.toList

/-- A manifest agrees with the asset of its genesis. -/
def checkManifest
    (checkpoint : Checkpoint)
    (manifest : InstrumentManifest) : Except AccountError Unit := do
  (validateManifest env manifest).mapError (AccountError.newText "invalid_backup_checkpoint")
  require (manifest.terms.network == checkpoint.network)
    (invalidCheckpoint "instrument manifest belongs to another network")
  let (_, asset) ← okOr (checkpoint.assets.find? (fun row =>
      row.2.assetId == manifestAssetId env manifest))
    (invalidCheckpoint "instrument manifest has no matching asset genesis")
  require
    (asset.currency == manifest.terms.unitCode &&
      asset.termsHash == manifest.genesis.termsHash.bytes && asset.nonce == manifest.genesis.nonce)
    (invalidCheckpoint "instrument manifest disagrees with its checkpoint asset")

/-- A signed transaction, where there is one, has the stored id. -/
def signedTxidAgrees (signedTx : Option Transaction) (txid : Option Txid) : Bool :=
  signedTx.all (fun tx => txid == some (tx.txid env.sha256))

def checkOperation (row : Text × Operation) : Except AccountError Unit :=
  require (signedTxidAgrees env row.2.signedTx row.2.txid)
    (.newText "invalid_backup_checkpoint"
      (Text.lit "operation " ++ row.1 ++ Text.lit " txid does not match its signed bytes"))

/-- The request of an operation is exactly the one of an admitted authorization. -/
def requestAgrees (admitted : BackupAuthorization) (request : IssuanceRequest) : Bool :=
  request.assetId == admitted.assetId &&
    request.toOwner == some admitted.authorization.toOwner &&
      request.amounts == admitted.authorization.amounts &&
        request.productionAuthorization == some admitted.authorization

/-- The decoded numbers of an admitted row are those of its authorization. -/
def authorizationAgrees (admitted : BackupAuthorization) : Bool :=
  admitted.assetId == admitted.authorization.assetId &&
    admitted.sequence == admitted.authorization.sequence &&
      admitted.authorizationIdSha256 == admitted.authorization.authorizationIdSha256 &&
        admitted.policyCommitmentSha256 ==
          admitted.authorization.issuancePolicyCommitmentSha256 &&
            admitted.supplyBeforeBaseUnits == admitted.authorization.supplyBeforeBaseUnits &&
              admitted.supplyAfterBaseUnits == admitted.authorization.supplyAfterBaseUnits

/-- The sequence and the supply that the earlier rows of an asset reached. -/
def supplyFloor (earlier : List BackupAuthorization) (assetId : Text) : UInt64 × UInt64 :=
  match (earlier.filter (fun row => row.assetId == assetId)).getLast? with
  | none => (0, 0)
  | some prior => (prior.sequence, prior.supplyAfterBaseUnits)

/-- One admitted authorization continues its asset and verifies under the configured policy. -/
def checkAuthorization
    (checkpoint : Checkpoint)
    (earlier : List BackupAuthorization)
    (admitted : BackupAuthorization) : Except AccountError Unit := do
  let _ ← decodeHex32 admitted.authorizationIdSha256 "production issuance authorization id"
  let _ ← decodeHex32 admitted.policyCommitmentSha256 "production issuance policy commitment"
  require
    (0 ≤ admitted.createdAt && admitted.operationId == admitted.authorizationIdSha256 &&
      !(earlier.map BackupAuthorization.authorizationIdSha256).contains
        admitted.authorizationIdSha256 &&
          !(earlier.map BackupAuthorization.operationId).contains admitted.operationId)
    (invalidCheckpoint "invalid or duplicate production issuance authorization")
  let (_, operation) ← okOr (checkpoint.operations.find? (fun row =>
      row.1 == admitted.operationId))
    (invalidCheckpoint "production issuance authorization has no matching operation")
  let request ← operation.request.asMint.mapError (fun _ =>
    invalidCheckpoint "production mint request: invalid fields")
  require (requestAgrees admitted request && authorizationAgrees admitted)
    (invalidCheckpoint
      "production issuance ledger disagrees with its operation or authorization")
  let (priorSequence, priorSupply) := supplyFloor earlier admitted.assetId
  let expectedSequence ← okOr (checkedAdd priorSequence 1)
    (invalidCheckpoint "production issuance sequence overflow")
  require (admitted.sequence == expectedSequence && admitted.supplyBeforeBaseUnits == priorSupply)
    (invalidCheckpoint "production issuance ledger has a gap, replay, or stale supply floor")
  let release ← okOr env.config.productionUsdRegistry
    (invalidCheckpoint "production issuance backup requires its exact registry release")
  let reference ← okOr (release.issuancePolicyCommitments.find? (fun reference =>
      reference.assetId == admitted.assetId))
    (invalidCheckpoint "production issuance backup asset is absent from the registry")
  let policy ← okOr (env.config.productionIssuancePolicies.find? (fun policy =>
      policy.assetId == admitted.assetId))
    (invalidCheckpoint "production issuance backup policy is unavailable")
  require
    (admitted.authorization.registryCommitmentSha256 == release.commitmentSha256 &&
      admitted.policyCommitmentSha256 == reference.policyCommitmentSha256)
    (invalidCheckpoint "production issuance backup names another registry or policy")
  let _ ← (verifyProductionMintAuthorization env.issuance policy admitted.authorization
    release.registryVersion reference.policyCommitmentSha256 admitted.authorization.toOwner
      admitted.authorization.amounts admitted.authorization.notBeforeUnixSeconds).mapError
        (fun error => AccountError.newText "invalid_backup_checkpoint"
          (Text.lit "production issuance authorization: " ++ error.message))

def checkBatch (row : Text × SendBatch) : Except AccountError Unit := do
  require (row.2.state != .cancelled) (invalidCheckpoint "unknown send batch state cancelled")
  require (signedTxidAgrees env row.2.signedTx row.2.txid)
    (invalidCheckpoint "batch txid does not match its signed bytes")

def checkBatches (checkpoint : Checkpoint) : Except AccountError Unit := do
  require ((checkpoint.sendBatches.map Prod.fst).Nodup)
    (invalidCheckpoint "send batch ids are not unique")
  require ((checkpoint.sendBatches.filter (fun row => row.2.state == .collecting)).length ≤ 1)
    (invalidCheckpoint "more than one send batch is collecting")
  checkpoint.sendBatches.forM (checkBatch env)

/-- A reservation of a stock names a batch of the checkpoint, once, and fits its state. -/
def checkStock
    (checkpoint : Checkpoint)
    (earlier : List (OutPoint × Stock))
    (row : OutPoint × Stock) : Except AccountError Unit := do
  require
    (row.2.participantCount != 0 && row.2.participantCount.toNat ≤ maxLocalBatchRecipients &&
      !(earlier.map Prod.fst).contains row.1)
    (invalidCheckpoint "invalid or duplicate batch stock")
  match row.2.reservedByBatch with
  | none => pure ()
  | some batchLocalId => do
      require
        ((checkpoint.sendBatches.map Prod.fst).contains batchLocalId &&
          !(earlier.map (fun row => row.2.reservedByBatch)).contains (some batchLocalId))
        (invalidCheckpoint "batch stock names an unavailable or duplicate reservation")
      require (row.2.state == .reserved || row.2.state == .signatureReleased)
        (invalidCheckpoint "reserved batch stock has an incompatible state")

def BatchState.isReserveState : BatchState → Bool
  | .signedPersisted | .broadcastUnobserved | .mempool | .confirmed => true
  | _ => false

def checkReserve
    (earlier : List (Text × ReserveOperation))
    (row : Text × ReserveOperation) : Except AccountError Unit := do
  require
    (row.2.participantCount != 0 && row.2.participantCount.toNat ≤ maxLocalBatchRecipients &&
      row.2.stockCount != 0 && row.2.feeCellCount != 0 && row.2.state.isReserveState &&
        !(earlier.map Prod.fst).contains row.1 &&
          !(earlier.map (fun row => row.2.txid)).contains row.2.txid)
    (invalidCheckpoint "invalid or duplicate batch reserve maintenance operation")
  require (row.2.signedTx.txid env.sha256 == row.2.txid)
    (invalidCheckpoint "batch reserve txid does not match its signed bytes")

def checkMember
    (checkpoint : Checkpoint)
    (earlier : List (Text × Member))
    (row : Text × Member) : Except AccountError Unit := do
  require
    ((checkpoint.sendBatches.map Prod.fst).contains row.2.batchLocalId &&
      (checkpoint.operations.map Prod.fst).contains row.1)
    (invalidCheckpoint "send batch member names an unavailable batch or operation")
  require
    (!(earlier.map (fun row => (row.2.batchLocalId, row.2.ordinal))).contains
        (row.2.batchLocalId, row.2.ordinal) &&
      !(earlier.map Prod.fst).contains row.1)
    (invalidCheckpoint "send batch membership is duplicated")

/-- A batch has members, as many as it was frozen with. -/
def checkMemberCount (checkpoint : Checkpoint) (row : Text × SendBatch) :
    Except AccountError Unit :=
  let count := (checkpoint.members.filter (fun member => member.2.batchLocalId == row.1)).length
  require (count != 0 && row.2.participantCount.all (fun expected => expected.toNat == count))
    (invalidCheckpoint "send batch participant count does not match its members")

def checkConsignment (consignment : BackupConsignment) : Except AccountError Unit := do
  let (_, _, canonicalId) ← canonicalConsignmentIdentity env consignment.consignment
  require (canonicalId == consignment.consignmentId)
    (invalidCheckpoint "consignment identity does not match canonical bytes")

/-- Every table of a checkpoint, against the others. -/
def checkTables (checkpoint : Checkpoint) : Except AccountError Unit := do
  checkpoint.assets.forM checkAsset
  checkpoint.manifests.forM (checkManifest env checkpoint)
  checkpoint.operations.forM (checkOperation env)
  checkEach (checkAuthorization env checkpoint) [] checkpoint.issuance
  checkBatches env checkpoint
  checkEach (checkStock checkpoint) [] checkpoint.stocks
  checkEach (checkReserve env) [] checkpoint.reserves
  checkEach (checkMember checkpoint) [] checkpoint.members
  checkpoint.sendBatches.forM (checkMemberCount checkpoint)
  checkpoint.consignments.forM (checkConsignment env)

end Tables

section Import

/-- The reservation of an imported operation. -/
def importedReservation (operation : Operation) (funding : Funding) : Reservation where
  outpoint := funding.outpoint
  state :=
    match operation.state with
    | .signedPersisted | .broadcastUnobserved | .broadcast | .mempool | .confirmed
    | .consignmentDelivered => .signatureReleased
    | _ => .reserved

def uniqueError (what : String) : AccountError :=
  .new "database_error" ("UNIQUE constraint failed: " ++ what)

def importOperation (row : Text × Operation) : AccountCall Unit := do
  demand (row.2.funding.all (fun funding => funding.valueSats.toNat < 2 ^ 63))
    (invalidCheckpoint "operation fee value exceeds SQLite i64")
  let a ← get
  demand (!a.operations.has row.1) (uniqueError "opencsv_operations.operation_id")
  modify (fun a => { a with
    operations := a.operations.insert row.1 { row.2 with createdAt := world.now } })
  match row.2.funding with
  | none => pure ()
  | some funding => do
      let a ← get
      demand (!a.reservations.rows.any (fun reserved => reserved.2.outpoint == funding.outpoint))
        (uniqueError "opencsv_utxo_reservations.txid, opencsv_utxo_reservations.vout")
      modify (fun a => { a with
        reservations := a.reservations.insert row.1 (importedReservation row.2 funding) })

/-- The ledger row of an imported authorization. -/
def importedAuthorization (admitted : BackupAuthorization) : AdmittedRow where
  assetId := admitted.assetId
  sequenceDecimal := encodeU64Decimal admitted.sequence
  policyCommitmentSha256 := admitted.policyCommitmentSha256
  supplyBeforeDecimal := encodeU64Decimal admitted.supplyBeforeBaseUnits
  supplyAfterDecimal := encodeU64Decimal admitted.supplyAfterBaseUnits
  authorization := admitted.authorization
  operationId := admitted.operationId
  createdAt := admitted.createdAt

def importConsignment (consignment : BackupConsignment) : AccountCall Unit := do
  let a ← get
  demand (!a.consignments.has consignment.consignmentId)
    (uniqueError "opencsv_consignments.consignment_id")
  modify (fun a => { a with
    consignments := a.consignments.insert consignment.consignmentId
      ⟨consignment.consignment, consignment.spends, world.now⟩
    snapshots :=
      match consignment.snapshot with
      | none => a.snapshots
      | some chain => a.snapshots.put consignment.consignmentId chain
    finality :=
      match consignment.finality with
      | none => a.finality
      | some row => a.finality.put consignment.consignmentId row })

/-- The rows of a checkpoint, inserted table by table. -/
def importRows (checkpoint : Checkpoint) : AccountCall Unit := do
  each checkpoint.assets (fun row => do
    let a ← get
    demand (!a.assets.has row.1 && !a.assets.rows.any (fun stored =>
        stored.2.assetId == row.2.assetId))
      (uniqueError "opencsv_assets.asset_index")
    modify (fun a => { a with assets := a.assets.insert row.1 row.2 }))
  each checkpoint.manifests (fun manifest => do
    let a ← get
    demand (!a.manifests.has (manifestAssetId env manifest))
      (uniqueError "opencsv_instrument_manifests.asset_id")
    modify (fun a => { a with
      manifests := a.manifests.insert (manifestAssetId env manifest) manifest }))
  each checkpoint.operations (importOperation world)
  each checkpoint.issuance (fun admitted =>
    modify (fun a => { a with
      issuance := a.issuance.insert admitted.authorizationIdSha256
        (importedAuthorization admitted) }))
  each checkpoint.sendBatches (fun row =>
    modify (fun a => { a with
      batches := a.batches.insert row.1
        { row.2 with checkpointHash := none, backupAcked := false, createdAt := world.now } }))
  each checkpoint.members (fun row =>
    modify (fun a => { a with members := a.members.insert row.1 row.2 }))
  each checkpoint.stocks (fun row => do
    demand (row.2.valueSats.toNat < 2 ^ 63)
      (invalidCheckpoint "batch stock value exceeds SQLite i64")
    demand (row.2.birthHeight.toNat < 2 ^ 63)
      (invalidCheckpoint "batch stock height exceeds SQLite i64")
    modify (fun a => { a with stocks := a.stocks.insert row.1 row.2 }))
  each checkpoint.reserves (fun row =>
    modify (fun a => { a with reserves := a.reserves.insert row.1 row.2 }))
  modify (fun a => { a with
    activeSendBatch :=
      match checkpoint.sendBatches.find? (fun row => row.2.state == .collecting) with
      | none => a.activeSendBatch
      | some row => some row.1 })
  each checkpoint.consignments (importConsignment world)

/-- Import the rows and rebuild the wallet; a failure takes back the rows, not the wallet. -/
def importCheckpoint
    (checkpoint : Checkpoint)
    (hash : Text)
    (floor : Option RegistryFloor) : AccountCall Unit := do
  let before ← get
  match ← attempt (do
      importRows env world checkpoint
      modify (fun a => { a with
        backupVerified := true
        restoredCheckpoint := some hash
        registryFloor := floor.or a.registryFloor })
      restoreIssuers env
      restoreConsignmentState env) with
  | .ok _ => pure ()
  | .error error => do
      modify (fun a => { before with protocol := a.protocol })
      throw error

/-- Import the state that a backup holds into a clean database. -/
def restoreCheckpoint (checkpoint : Checkpoint) (hash : Text) : AccountCall Unit := do
  demand (env.checkpointHash checkpoint == hash)
    (.new "backup_checkpoint_hash_mismatch"
      "Secure Backup checkpoint hash does not match its payload")
  let floor ← reads (checkIdentity env checkpoint)
  let a ← get
  match a.restoredCheckpoint with
  | some existing =>
      demand (existing == hash)
        (.new "conflicting_backup_checkpoint"
          "a different Secure Backup checkpoint was already imported")
  | none => do
      demand a.isClean
        (.new "restore_requires_clean_database"
          "refusing to merge a Secure Backup checkpoint into existing wallet state")
      lift (checkTables env checkpoint)
      importCheckpoint env world checkpoint hash floor
      modify (reconcileProductionUsdRegistryFloor env)
      restoreFeeReservations
      restorePendingOperations env
      -- The normalized checkpoint is exported again; it is not part of the tables here.
      let _ ← reads (fun a => a.currentHash env)

end Import

end OpenCsv
