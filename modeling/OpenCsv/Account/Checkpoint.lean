import OpenCsv.Account.Store

/-!
# Backup checkpoints

The compact state a wallet exports for its backup.  Cancelled operations and
batches are left out, except operations that an admitted mint authorization names;
acknowledgements, which cannot be part of the checkpoint they acknowledge, and
creation times are left out too.
-/

namespace OpenCsv

/-- A stored consignment with its snapshot and finality. -/
structure BackupConsignment where
  consignmentId : Text
  consignment : List UInt8
  spends : Option (List Text)
  snapshot : Option SnapshotChain
  finality : Option FinalityRow
deriving DecidableEq

/-- An admitted mint authorization with its numbers decoded. -/
structure BackupAuthorization where
  authorizationIdSha256 : Text
  assetId : Text
  sequence : UInt64
  policyCommitmentSha256 : Text
  supplyBeforeBaseUnits : UInt64
  supplyAfterBaseUnits : UInt64
  authorization : ProductionMintAuthorization
  operationId : Text
  createdAt : ℤ
deriving DecidableEq

structure Checkpoint where
  version : UInt32
  deploymentId : Option Text
  keyDerivationId : Option Text
  registryFloor : Option RegistryFloor
  network : Network
  rootFingerprint : Text
  deviceBindingCommitment : Option Text
  owners : List Text
  assets : List (UInt32 × Asset)
  manifests : List InstrumentManifest
  operations : List (Text × Operation)
  consignments : List BackupConsignment
  sendBatches : List (Text × SendBatch)
  members : List (Text × Member)
  stocks : List (OutPoint × Stock)
  reserves : List (Text × ReserveOperation)
  issuance : List BackupAuthorization
deriving DecidableEq

section Decimals

/-- `u64` as twenty decimal digits. -/
def encodeU64Decimal (value : UInt64) : Text :=
  decimalText 20 value.toNat

def decodeU64Decimal (value : Text) (field : String) : Except AccountError UInt64 := do
  require (value.bytes.length == 20 && value.bytes.all isDecimalDigit)
    (.new "database_corrupt" (field ++ " is not a canonical padded u64"))
  require (decimalValue value.bytes < 2 ^ 64)
    (.new "database_corrupt" (field ++ " is outside u64"))
  return UInt64.ofNat (decimalValue value.bytes)

end Decimals

section Export

/-- The owners of a wallet, in the order of its keys. -/
def MemWallet.owners (sponge : Sponge) (w : MemWallet) : List Text :=
  w.keys.map (fun k => toHex (k.owner sponge).bytes.toList)

/-- What a checkpoint keeps of an operation. -/
def Operation.compact (operation : Operation) : Operation :=
  { operation with checkpointHash := none, backupAcked := false, createdAt := 0 }

/-- What a checkpoint keeps of a batch. -/
def SendBatch.compact (batch : SendBatch) : SendBatch :=
  { batch with checkpointHash := none, backupAcked := false, createdAt := 0 }

namespace Account

variable (a : Account)

/-- Is the operation named by an admitted authorization? -/
def isAdmitted (operationId : Text) : Bool :=
  a.issuance.rows.any (fun row => row.2.operationId == operationId)

def exportedOperations : List (Text × Operation) :=
  ((a.operations.rows.filter (fun row =>
    row.2.state != .cancelled || a.isAdmitted row.1)).insertionSort (fun r r' =>
      r.2.createdAt ≤ r'.2.createdAt)).map (fun row => (row.1, row.2.compact))

def exportedConsignments : List BackupConsignment :=
  (a.consignments.rows.insertionSort (fun r r' => r.2.createdAt ≤ r'.2.createdAt)).map (fun row =>
    { consignmentId := row.1
      consignment := row.2.consignment
      spends := row.2.spends
      snapshot := a.snapshots.get row.1
      finality := a.finality.get row.1 })

def exportedBatches : List (Text × SendBatch) :=
  ((a.batches.rows.filter (fun row => row.2.state != .cancelled)).insertionSort (fun r r' =>
    r.2.createdAt ≤ r'.2.createdAt)).map (fun row => (row.1, row.2.compact))

/-- When the batch of a member was created. -/
def batchCreatedAt (member : Member) : ℤ :=
  ((a.batches.get member.batchLocalId).map SendBatch.createdAt).getD 0

def exportedMembers : List (Text × Member) :=
  (a.members.rows.filter (fun row =>
    (a.batches.get row.2.batchLocalId).any (fun batch => batch.state != .cancelled))).insertionSort
      (fun r r' => a.batchCreatedAt r.2 < a.batchCreatedAt r'.2 ∨
        (a.batchCreatedAt r.2 = a.batchCreatedAt r'.2 ∧ r.2.ordinal ≤ r'.2.ordinal))

def exportedAuthorization (id : Text) (row : AdmittedRow) :
    Except AccountError BackupAuthorization := do
  let sequence ← decodeU64Decimal row.sequenceDecimal "production issuance sequence"
  let supplyBefore ← decodeU64Decimal row.supplyBeforeDecimal "production issuance supply before"
  let supplyAfter ← decodeU64Decimal row.supplyAfterDecimal "production issuance supply after"
  return {
    authorizationIdSha256 := id
    assetId := row.assetId
    sequence := sequence
    policyCommitmentSha256 := row.policyCommitmentSha256
    supplyBeforeBaseUnits := supplyBefore
    supplyAfterBaseUnits := supplyAfter
    authorization := row.authorization
    operationId := row.operationId
    createdAt := row.createdAt }

/-- Rows by asset, then by the decimal text of the sequence number. -/
def ledgerLe (row row' : Text × AdmittedRow) : Bool :=
  if row.2.assetId = row'.2.assetId then row.2.sequenceDecimal.le row'.2.sequenceDecimal
  else row.2.assetId.le row'.2.assetId

def exportedIssuance : Except AccountError (List BackupAuthorization) :=
  (a.issuance.rows.insertionSort (fun r r' => ledgerLe r r' = true)).mapM (fun row =>
    exportedAuthorization row.1 row.2)

end Account

end Export

end OpenCsv
