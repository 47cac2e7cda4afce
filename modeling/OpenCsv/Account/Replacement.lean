import OpenCsv.Account.Delivery

/-!
# Fee replacements

A fee bump signs a replacement of the tracked transaction.  The receipt forgets its
consignment, which names the replaced transaction, and keeps a copy of it beside the
id of the replaced transaction.  When the replaced transaction turns out to be the
one that confirmed, a resume puts the copy back and tracks that transaction again.
-/

namespace OpenCsv

open Call

variable {π : Type}
variable (env : AccountEnv π)
variable (world : World)

section Layout

/-- The record, the marker and change, behind at least one input. -/
def validateLayout (transaction : Transaction) : Bool :=
  match transaction.outputs with
  | [recordOut, marker, change] =>
      !transaction.inputs.isEmpty && recordOut.value == 0 &&
        recordOut.scriptPubkey.length == 66 && recordOut.scriptPubkey[0]? == some 0x6a &&
          recordOut.scriptPubkey[1]? == some 0x40 && marker.value == markerDustSats &&
            marker.scriptPubkey == markerSpk && change.scriptPubkey.head? != some 0x6a
  | _ => false

def soloReplacementError (code : String) : AccountError := .new code code

/-- The replacement keeps everything but witnesses and the value of change, which falls. -/
def validateSoloAnchorReplacement
    (original replacement : Transaction) : Except AccountError Unit := do
  require (validateLayout original) (soloReplacementError "original_layout")
  require (validateLayout replacement) (soloReplacementError "replacement_layout")
  require
    (original.version == replacement.version && original.lockTime == replacement.lockTime &&
      original.inputs.length ≤ replacement.inputs.length &&
        (original.inputs.zip replacement.inputs).all (fun (old, new) =>
          old.prev == new.prev && old.sequence == new.sequence && old.scriptSig == new.scriptSig))
    (soloReplacementError "funding_inputs_changed")
  require ((replacement.inputs.map TxIn.prev).Nodup)
    (soloReplacementError "funding_inputs_changed")
  require
    ((original.inputs ++ replacement.inputs).all (fun input =>
      input.sequence == enableRbfNoLocktime))
    (soloReplacementError "not_replaceable")
  match original.outputs, replacement.outputs with
  | [record, marker, change], [record', marker', change'] => do
      require (record == record') (soloReplacementError "record_changed")
      require (marker == marker') (soloReplacementError "marker_changed")
      require (change.scriptPubkey == change'.scriptPubkey)
        (soloReplacementError "change_script_changed")
      require (env.minimalNonDust change'.scriptPubkey ≤ change'.value)
        (soloReplacementError "change_removed_or_dust")
      require (change'.value < change.value) (soloReplacementError "fee_not_increased")
  | _, _ => .error (soloReplacementError "original_layout")

/-- The signed replacement of a transaction, within the fee limit of the original. -/
def replacementAnchor
    (limit : Option UInt64)
    (fundingValue : UInt64)
    (original : Transaction) : Except AccountError Transaction := do
  let (replacement, _) ← world.sign
  validateSoloAnchorReplacement env original replacement
  let outputSats ← (replacement.outputs.map TxOut.value).foldlM (fun sum value =>
    okOr (checkedAdd sum value)
      (AccountError.new "database_corrupt" "replacement output value overflow")) 0
  require (outputSats ≤ fundingValue)
    (.new "protocol_layout_violation" "replacement outputs exceed the protected funding input")
  require (limit.all (fun limit => fundingValue - outputSats ≤ limit))
    (.newText "fee_limit_exceeded"
      (Text.ofNat (fundingValue - outputSats).toNat ++
        Text.lit " sats exceeds configured maximum"))
  return replacement

end Layout

section Receipts

/-- The bytes are the canonical bytes of the consignment with this id. -/
def validateConsignmentIdentity
    (expectedId : Text)
    (blob : List UInt8) : Except AccountError Unit := do
  let consignment ← (env.wallet.decodeConsignment blob).mapError (fun error =>
    AccountError.newText "database_corrupt"
      (Text.lit "persisted consignment is invalid: " ++ error))
  require
    (env.wallet.encodeConsignment consignment == blob && consignmentHash env blob == expectedId)
    (.new "database_corrupt"
      "persisted consignment identity does not match its canonical bytes")

/-- The delivery that a replacement is about to take out of a receipt. -/
def replacementDeliverySnapshot
    (operation : Operation)
    (receipt : Receipt)
    (a : Account) : Except AccountError (Option PriorDelivery) :=
  match receipt.consignmentId with
  | none => .ok none
  | some consignmentId => do
      let consignment ← okOr receipt.consignment
        (.new "database_corrupt" "delivery-ready receipt has no consignment bytes")
      validateConsignmentIdentity env consignmentId consignment
      let stored ← okOr (a.consignments.get consignmentId)
        (.new "database_corrupt" "delivery-ready receipt has no persisted consignment")
      require (stored.consignment == consignment)
        (.new "database_corrupt" "receipt and persisted consignment bytes disagree")
      return some
        { consignmentId := consignmentId
          consignment := consignment
          spends := stored.spends
          deliveryNonce := operation.deliveryNonce
          consignmentDelivered := receipt.consignmentDelivered }

namespace Receipt

/-- A receipt without its delivery. -/
def strip (receipt : Receipt) : Receipt :=
  { receipt with
    consignmentId := none
    consignment := none
    deliveryReady := false
    consignmentDelivered := false }

/-- The receipt of a replacement; without a new copy an earlier one stays. -/
def supersede (receipt : Receipt) (prior : Option PriorDelivery) (replaced : Txid) : Receipt :=
  { receipt.strip with
    replaces := some replaced
    preReplacementDelivery := prior.or receipt.preReplacementDelivery
    supersededConsignmentIds :=
      match receipt.consignmentId with
      | none => receipt.supersededConsignmentIds
      | some staleId =>
          if receipt.supersededConsignmentIds.contains staleId then
            receipt.supersededConsignmentIds
          else
            receipt.supersededConsignmentIds ++ [staleId] }

/-- Put the copied delivery back; a receipt without a copy loses its delivery fields. -/
def restorePreReplacementDelivery
    (receipt : Receipt) : Except AccountError (Receipt × Option PriorDelivery) :=
  match receipt.preReplacementDelivery with
  | none => .ok (receipt.strip, none)
  | some prior => do
      validateConsignmentIdentity env prior.consignmentId prior.consignment
      return ({ receipt with
        preReplacementDelivery := none
        consignmentId := some prior.consignmentId
        consignment := some prior.consignment
        deliveryReady := true
        consignmentDelivered := prior.consignmentDelivered
        supersededConsignmentIds :=
          receipt.supersededConsignmentIds.filter (fun id => id != prior.consignmentId) },
        some prior)

end Receipt

/-- Delete a superseded consignment; a finality row keeps it. -/
def deleteConsignment (consignmentId : Text) : AccountCall Unit := do
  let a ← get
  demand (!a.finality.has consignmentId)
    (.new "database_error" "FOREIGN KEY constraint failed")
  modify (fun a => { a with
    snapshots := a.snapshots.delete consignmentId
    consignments := a.consignments.delete consignmentId })

/-- The row of an operation whose transaction is replaced. -/
def Operation.replaced
    (operation : Operation)
    (receipt : Receipt)
    (replacement : Transaction)
    (deliveryNonce : Text) : Operation :=
  { operation with
    state := .signedPersisted
    signedTx := some replacement
    txid := some (replacement.txid env.sha256)
    receipt := some receipt
    deliveryNonce := deliveryNonce }

/-- The row of an operation whose replaced transaction confirmed. -/
def Operation.reinstated
    (operation : Operation)
    (receipt : Receipt)
    (restored : Option PriorDelivery)
    (original : Transaction) : Operation :=
  { operation with
    state := .broadcastUnobserved
    signedTx := some original
    txid := some (original.txid env.sha256)
    receipt := some { receipt with replaces := none }
    rejectionReason := none
    deliveryNonce := (restored.map PriorDelivery.deliveryNonce).getD operation.deliveryNonce }

/-- The stored consignment of a restored delivery. -/
def Account.restoreDelivery (a : Account) (restored : Option PriorDelivery) : Account :=
  match restored with
  | none => a
  | some prior =>
      { a with
        consignments := a.consignments.put prior.consignmentId
          ⟨prior.consignment, prior.spends, world.now⟩ }

end Receipts

section Bumping

/-- Import the durable proof of an operation again, unless it is in memory. -/
def restorePendingProof (operationId : Text) : AccountCall Unit := do
  let a ← get
  if a.pendingByOperation.has operationId then
    pure ()
  else do
    let pendingJson ← lift (okOr ((a.operations.get operationId).bind Operation.pendingJson)
      (.new "operation_not_resumable" "fee replacement has no durable pending proof export"))
    let (pendingId, w) ← reads (fun a =>
      (a.protocol.importPending env.wallet pendingJson).mapError
        (AccountError.newText "operation_not_resumable"))
    modify (fun a => { a with
      protocol := w
      pendingByOperation := a.pendingByOperation.put operationId pendingId })

/-- Persist a signed replacement and take back what named the replaced transaction. -/
def persistSignedReplacement
    (operationId : Text)
    (receipt : Receipt)
    (replaced : Txid)
    (replacement : Transaction) : AccountCall Unit := do
  restorePendingProof env operationId
  let operation ← reads (fun a => a.operation operationId)
  let prior ← reads (replacementDeliverySnapshot env operation receipt)
  atomic (do
    match receipt.consignmentId with
    | none => pure ()
    | some staleId => deleteConsignment staleId
    updateOperation operationId (fun operation =>
      operation.replaced env (receipt.supersede prior replaced) replacement (world.randomId 0)))

def OperationState.isBumpable : OperationState → Bool
  | .broadcastUnobserved | .broadcast | .mempool => true
  | _ => false

/-- A production mint is signed with a snapshot of its authorization. -/
def signedSnapshotPresent (operation : Operation) : Bool :=
  !(operation.request.kind == .mint && env.config.network == .mainnet &&
    operation.receiptOrEmpty.productionIssuanceAuthorization.isNone)

/-- Build, sign, persist and broadcast a replacement with a higher fee. -/
def feeBump (operationId : Text) (targetSatPerVb : UInt64) : AccountCall Unit := do
  reads (requireWriteEnabled env)
  demand (targetSatPerVb != 0)
    (.new "invalid_fee_policy" "target_sat_per_vb must be positive")
  let operation ← reads (fun a => a.operation operationId)
  if operation.request.kind = .mint ∧ env.config.network ≠ .mainnet then
    reads (requireIssuanceWriteEnabled env)
  else
    pure ()
  demand operation.state.isBumpable
    (.newText "invalid_operation_state"
      (Text.lit "cannot fee-bump " ++ Text.lit operation.state.asStr))
  demand (signedSnapshotPresent env operation)
    (writeBlockError "production_issuance_not_authorized")
  let limit ← lift (world.signedFeeLimit operationId)
  reads (fun a => verifySignedProductionMint env world a operationId operation)
  let original ← lift (okOr operation.signedTx
    (.new "database_corrupt" "operation has no signed transaction"))
  let outpoint ← lift operation.outpoint
  let fundingValue ← lift (world.historicalValue outpoint)
  let _ ← orNoteReason operationId (lift (world.verifyFunding outpoint))
  let replacement ← lift (replacementAnchor env world limit fundingValue original)
  persistSignedReplacement env world operationId operation.receiptOrEmpty
    (original.txid env.sha256) replacement
  modify (fun a => { a with bitcoin := a.bitcoin.applyUnconfirmedTx replacement })
  lift world.relay
  updateOperation operationId (fun operation =>
    { operation with state := .broadcastUnobserved })

end Bumping

section Reconciling

/-- Is the replaced transaction confirmed deep enough in the verified scan? -/
def replacedIsConfirmed (replaced : Txid) : Except AccountError Bool := do
  let confirmed ← (world.txConfirmed replaced).mapError (AccountError.newText "sync_failed")
  return confirmed && (world.txidConfirmation replaced).any (fun (confirmations, required) =>
    max env.config.requiredConfirmations.toUInt64 required ≤ confirmations)

/-- The bytes of the replaced transaction, from the wallet's graph or the accelerator. -/
def replacedTransaction (replaced : Txid) (what : String) : Except AccountError Transaction := do
  let original ←
    match world.walletTx replaced with
    | some transaction => .ok transaction
    | none => do
        let found ← (world.getTx replaced).mapError (AccountError.newText "sync_failed")
        okOr found (.new "database_corrupt"
          ("confirmed pre-replacement " ++ what ++ " bytes are unavailable"))
  require (original.txid env.sha256 == replaced)
    (.new "database_corrupt" ("confirmed pre-replacement " ++ what ++ " has the wrong txid"))
  return original

/-- Track the replaced transaction again when it is the one that confirmed. -/
def reconcileConfirmedReplacement
    (operationId : Text)
    (receipt : Receipt) : AccountCall Bool :=
  match receipt.replaces with
  | none => return false
  | some replaced => do
      if ← lift (replacedIsConfirmed env world replaced) then do
        let original ← lift (replacedTransaction env world replaced "transaction")
        let (receipt, restored) ← lift (receipt.restorePreReplacementDelivery env)
        modify (fun a => a.restoreDelivery world restored)
        updateOperation operationId (fun operation =>
          operation.reinstated env receipt restored original)
        return true
      else
        return false

/-- Resume a mint that was planned or funded, and no more. -/
def resumeMint (operationId : Text) (operation : Operation) : AccountCall Unit := do
  let request ← lift operation.request.asMint
  let snapshot ←
    if env.config.network = .mainnet then do
      let snapshot ← reads (fun a =>
        validateCurrentProductionMintAdmission env world a operationId operation)
      pure (some snapshot)
    else
      pure none
  let funding ←
    if operation.state = .planned then do
      let expected ← lift ((snapshot.mapM (fun snapshot =>
        productionMintFundingOutpoint env.issuance snapshot.authorization)).mapError
          AccountError.ofValidation)
      reserveFeeUtxoMatching env operationId expected
    else
      reads (fun a => reservedFundingForOperation a operation)
  if snapshot.isSome then do
    let operation ← reads (fun a => a.operation operationId)
    let _ ← reads (fun a => validateCurrentProductionMintOperation env world a operationId operation)
  else
    pure ()
  proveMintOperation env world operationId request funding

/-- Rebroadcast a signed operation, or go back to the replaced transaction that confirmed. -/
def resumeSigned (operationId : Text) (operation : Operation) : AccountCall Unit := do
  demand (signedSnapshotPresent env operation)
    (writeBlockError "production_issuance_not_authorized")
  let _ ← lift (world.signedFeeLimit operationId)
  reads (fun a => verifySignedProductionMint env world a operationId operation)
  let _ ← lift (okOr operation.signedTx
    (.new "database_corrupt" "signed state has no transaction"))
  if ← reconcileConfirmedReplacement env world operationId operation.receiptOrEmpty then
    pure ()
  else do
    lift world.relay
    updateOperation operationId (fun row =>
      { row with
        state := .broadcastUnobserved
        receipt := some operation.receiptOrEmpty
        rejectionReason := some (Text.lit "broadcast_unobserved") })

/-- Resume a crash-interrupted operation. -/
def resumeOperation (operationId : Text) : AccountCall Unit := do
  let operation ← reads (fun a => a.operation operationId)
  let signed := operation.state == .signedPersisted || operation.state == .broadcastUnobserved
  if operation.request.kind = .mint ∧ !signed then
    reads (requireIssuanceWriteEnabled env)
  else
    pure ()
  if operation.request.kind = .mint ∧
      (operation.state = .planned ∨ operation.state = .feeReserved) then
    resumeMint env world operationId operation
  else if signed then
    resumeSigned env world operationId operation
  else
    operationStatus env world operationId

end Reconciling

end OpenCsv
