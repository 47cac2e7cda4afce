import OpenCsv.Account.Issuance
import OpenCsv.Bitcoin.Chain
import OpenCsv.Ffi.WalletOps
import OpenCsv.Lib.Call
import OpenCsv.Lib.Table

/-!
# The account database

The tables of the account wallet and the state kept in memory beside them: the
protocol wallet, the pending proof of each operation, and the Bitcoin fee wallet.

Rows keep the columns that the account code reads.  A request, a receipt, a signed
transaction and a chain snapshot are kept as the values their texts stand for;
presentation fields of receipts (timings, relay and observer reports) and the
`updated_at` columns are left out.  The account is the primary device's.

What the account asks the outside world during one call (the clock, the chain
services, the signer, the scanner) is a `World`.
-/

namespace OpenCsv

/-- Stable account-wallet failure. -/
structure AccountError where
  code : Text
  message : Text
  retryable : Bool
deriving DecidableEq

namespace AccountError

def new (code message : String) : AccountError :=
  ⟨Text.lit code, Text.lit message, false⟩

def newText (code : String) (message : Text) : AccountError :=
  ⟨Text.lit code, message, false⟩

def newRetryable (code : String) (message : Text) : AccountError :=
  ⟨Text.lit code, message, true⟩

def ofValidation (e : ValidationError) : AccountError :=
  ⟨e.code, e.message, false⟩

end AccountError

/-- A transaction id, in the byte order of the wire. -/
abbrev Txid := Bytes 32

section Enumerations

/-- Stable durable operation states. -/
inductive OperationState where
  /-- Request journaled, no fee input selected. -/
  | planned
  /-- Bitcoin fee input selected and durably locked. -/
  | feeReserved
  /-- OpenCSV proof and pending export durably stored. -/
  | proofReady
  /-- Fully signed transaction persisted before any network write. -/
  | signedPersisted
  | broadcastUnobserved
  | broadcast
  | mempool
  | confirmed
  | consignmentDelivered
  /-- The transition lost a confirmed first-occurrence conflict. -/
  | protocolRejected
  | cancelled
deriving DecidableEq

def OperationState.asStr : OperationState → String
  | .planned => "planned"
  | .feeReserved => "fee_reserved"
  | .proofReady => "proof_ready"
  | .signedPersisted => "signed_persisted"
  | .broadcastUnobserved => "broadcast_unobserved"
  | .broadcast => "broadcast"
  | .mempool => "mempool"
  | .confirmed => "confirmed"
  | .consignmentDelivered => "consignment_delivered"
  | .protocolRejected => "protocol_rejected"
  | .cancelled => "cancelled"

inductive BatchState where
  | collecting
  | solo
  | frozen
  | proofReady
  | signedPersisted
  | broadcastUnobserved
  | mempool
  | confirmed
  | cancelled
deriving DecidableEq

def BatchState.asStr : BatchState → String
  | .collecting => "collecting"
  | .solo => "solo"
  | .frozen => "frozen"
  | .proofReady => "proof_ready"
  | .signedPersisted => "signed_persisted"
  | .broadcastUnobserved => "broadcast_unobserved"
  | .mempool => "mempool"
  | .confirmed => "confirmed"
  | .cancelled => "cancelled"

inductive StockState where
  | pending
  | available
  | reserved
  | signatureReleased
  | confirmed
  | invalidated
deriving DecidableEq

inductive ReservationState where
  | reserved
  | signatureReleased
deriving DecidableEq

inductive Finality where
  | unconfirmed
  | settled
  | frozen
deriving DecidableEq

inductive OperationKind where
  | transfer
  | mint
deriving DecidableEq

def OperationKind.asStr : OperationKind → String
  | .transfer => "transfer"
  | .mint => "mint"

/-- How the configured production registry compares with the newest one seen. -/
inductive RegistryState where
  | notApplicable
  | unconfigured
  | current
  | rollback
  | conflict
deriving DecidableEq

end Enumerations

section Requests

structure TransferRequest where
  assetId : Text
  toOwner : Text
  amount : UInt64
deriving DecidableEq

structure IssuanceRequest where
  assetId : Text
  toOwner : Option Text
  amounts : List UInt64
  productionAuthorization : Option ProductionMintAuthorization
deriving DecidableEq

/-- The request of an operation; a restored text may not be a request of its kind. -/
inductive Request where
  | transfer (request : TransferRequest)
  | mint (request : IssuanceRequest)
  | unreadable (kind : OperationKind)
deriving DecidableEq

namespace Request

def kind : Request → OperationKind
  | .transfer _ => .transfer
  | .mint _ => .mint
  | .unreadable kind => kind

/-- Read a request text as a transfer. -/
def asTransfer : Request → Except AccountError TransferRequest
  | .transfer request => .ok request
  | _ => .error (.new "database_corrupt" "transfer request: invalid fields")

/-- Read a request text as a mint. -/
def asMint : Request → Except AccountError IssuanceRequest
  | .mint request => .ok request
  | _ => .error (.new "database_corrupt" "mint request: invalid fields")

end Request

end Requests

section Rows

/-- A reserved fee output. -/
structure Funding where
  outpoint : OutPoint
  valueSats : UInt64
deriving DecidableEq

/-- The delivery that a replacement took out of a receipt. -/
structure PriorDelivery where
  consignmentId : Text
  consignment : List UInt8
  spends : Option (List Text)
  deliveryNonce : Text
  consignmentDelivered : Bool
deriving DecidableEq

structure ProductionIssuanceAuthorizationSnapshot where
  policy : ProductionIssuancePolicy
  authorization : ProductionMintAuthorization
deriving DecidableEq

/-- The fields of an operation receipt that the account reads back. -/
structure Receipt where
  consignmentId : Option Text
  consignment : Option (List UInt8)
  deliveryReady : Bool
  consignmentDelivered : Bool
  replaces : Option Txid
  preReplacementDelivery : Option PriorDelivery
  supersededConsignmentIds : List Text
  productionIssuanceAuthorization : Option ProductionIssuanceAuthorizationSnapshot
deriving DecidableEq

/-- A receipt object without any of these fields. -/
def Receipt.empty : Receipt where
  consignmentId := none
  consignment := none
  deliveryReady := false
  consignmentDelivered := false
  replaces := none
  preReplacementDelivery := none
  supersededConsignmentIds := []
  productionIssuanceAuthorization := none

structure Operation where
  request : Request
  state : OperationState
  funding : Option Funding
  pendingJson : Option Text
  signedTx : Option Transaction
  txid : Option Txid
  receipt : Option Receipt
  rejectionReason : Option Text
  deliveryNonce : Text
  checkpointHash : Option Text
  backupAcked : Bool
  createdAt : ℤ
deriving DecidableEq

/-- The receipt, or an empty object. -/
def Operation.receiptOrEmpty (operation : Operation) : Receipt :=
  operation.receipt.getD Receipt.empty

/-- A fee-outpoint reservation, under its operation. -/
structure Reservation where
  outpoint : OutPoint
  state : ReservationState
deriving DecidableEq

/-- The fields of a batch receipt that the account reads back. -/
structure BatchReceipt where
  replaces : Option Txid
  preReplacementManifest : Option (List UInt8)
deriving DecidableEq

def BatchReceipt.empty : BatchReceipt where
  replaces := none
  preReplacementManifest := none

structure SendBatch where
  state : BatchState
  deadlineMs : ℤ
  participantCount : Option UInt8
  proposalWire : Option (List UInt8)
  manifestWire : Option (List UInt8)
  signedTx : Option Transaction
  txid : Option Txid
  receipt : Option BatchReceipt
  checkpointHash : Option Text
  backupAcked : Bool
  createdAt : ℤ
deriving DecidableEq

def SendBatch.receiptOrEmpty (batch : SendBatch) : BatchReceipt :=
  batch.receipt.getD BatchReceipt.empty

/-- Membership of an operation in a batch. -/
structure Member where
  batchLocalId : Text
  ordinal : UInt8
  addedAtMs : ℤ
  changeSpk : Option (List UInt8)
  commitNonce : Option (Bytes 32)
deriving DecidableEq

structure Stock where
  participantCount : UInt8
  valueSats : UInt64
  birthHeight : UInt64
  state : StockState
  reservedByBatch : Option Text
  createdAt : ℤ
deriving DecidableEq

/-- A stored consignment; received ones have no spend list. -/
structure StoredConsignment where
  consignment : List UInt8
  spends : Option (List Text)
  createdAt : ℤ
deriving DecidableEq

structure FinalityRow where
  anchorTxid : Txid
  finality : Finality
deriving DecidableEq

/-- An admitted mint authorization, under its id. -/
structure AdmittedRow where
  assetId : Text
  sequenceDecimal : Text
  policyCommitmentSha256 : Text
  supplyBeforeDecimal : Text
  supplyAfterDecimal : Text
  authorization : ProductionMintAuthorization
  operationId : Text
  createdAt : ℤ
deriving DecidableEq

structure Asset where
  currency : Text
  termsHash : Bytes 32
  nonce : UInt64
  assetId : Text
deriving DecidableEq

/-- The terms of an instrument; `document` stands for the fields the account does not read. -/
structure InstrumentTerms where
  network : Network
  unitCode : Text
  document : Text
deriving DecidableEq

structure InstrumentManifest where
  terms : InstrumentTerms
  genesis : AssetGenesis
deriving DecidableEq

/-- A transaction that prepares batch stocks and fee cells, under its maintenance id. -/
structure ReserveOperation where
  state : BatchState
  participantCount : UInt8
  stockCount : UInt8
  feeCellCount : UInt16
  signedTx : Transaction
  txid : Txid
  feeSats : UInt64
  /-- The superseded transactions, each with its fee. -/
  replacementCandidates : List (Transaction × UInt64)
  createdAt : ℤ
deriving DecidableEq

/-- The newest production registry release the wallet has seen. -/
structure RegistryFloor where
  registryVersion : UInt64
  commitmentSha256 : Text
deriving DecidableEq

end Rows

section Bitcoin

/-- Where the fee wallet saw an output confirm. -/
inductive ChainPosition where
  | confirmed (height : UInt64)
  | transitive
  | unconfirmed
deriving DecidableEq

/-- An unspent output of the fee wallet. -/
structure LocalOutput where
  outpoint : OutPoint
  valueSats : UInt64
  position : ChainPosition
deriving DecidableEq

/-- The fee wallet: what it can spend, and the outpoints it keeps locked. -/
structure FeeWallet where
  unspent : List LocalOutput
  locked : List OutPoint
deriving DecidableEq

namespace FeeWallet

def isOutpointLocked (w : FeeWallet) (outpoint : OutPoint) : Bool :=
  w.locked.contains outpoint

def lockOutpoint (w : FeeWallet) (outpoint : OutPoint) : FeeWallet :=
  { w with locked := if w.locked.contains outpoint then w.locked else w.locked ++ [outpoint] }

def unlockOutpoint (w : FeeWallet) (outpoint : OutPoint) : FeeWallet :=
  { w with locked := w.locked.filter (fun o => o != outpoint) }

/-- A transaction of ours in the mempool takes its inputs out of the unspent outputs. -/
def applyUnconfirmedTx (w : FeeWallet) (tx : Transaction) : FeeWallet :=
  { w with
    unspent := w.unspent.filter (fun output =>
      !(tx.inputs.map TxIn.prev).contains output.outpoint) }

@[simp] theorem mem_locked_lockOutpoint
    {w : FeeWallet}
    {o o' : OutPoint} :
    o' ∈ (w.lockOutpoint o).locked ↔ o' = o ∨ o' ∈ w.locked := by
  unfold lockOutpoint
  by_cases h : o ∈ w.locked
  · simp only [List.contains_eq_mem, h, decide_true, if_true]
    constructor
    · exact Or.inr
    · rintro (rfl | h')
      · exact h
      · exact h'
  · simp [h, or_comm]

@[simp] theorem mem_locked_unlockOutpoint
    {w : FeeWallet}
    {o o' : OutPoint} :
    o' ∈ (w.unlockOutpoint o).locked ↔ o' ∈ w.locked ∧ o' ≠ o := by
  simp [unlockOutpoint]

@[simp] theorem locked_applyUnconfirmedTx
    (w : FeeWallet)
    (tx : Transaction) :
    (w.applyUnconfirmedTx tx).locked = w.locked :=
  rfl

end FeeWallet

end Bitcoin

/-- The database and the memory of an open account wallet. -/
structure Account where
  operations : Table Text Operation
  reservations : Table Text Reservation
  batches : Table Text SendBatch
  members : Table Text Member
  stocks : Table OutPoint Stock
  consignments : Table Text StoredConsignment
  snapshots : Table Text SnapshotChain
  finality : Table Text FinalityRow
  issuance : Table Text AdmittedRow
  assets : Table UInt32 Asset
  manifests : Table Text InstrumentManifest
  reserves : Table Text ReserveOperation
  /-- When an unconfirmed parent was last observed. -/
  reobservations : Table Txid ℤ
  registryFloor : Option RegistryFloor
  registryState : RegistryState
  /-- The `active_proof_operation`, `active_batch_proof` and `active_send_batch` rows. -/
  activeProof : Option Text
  activeBatchProof : Option Text
  activeSendBatch : Option Text
  backupVerified : Bool
  restoredCheckpoint : Option Text
  bitcoin : FeeWallet
  protocol : MemWallet
  pendingByOperation : Table Text UInt64

end OpenCsv
