import OpenCsv.Account.Run

/-!
# Opening the database again

The protocol wallet is not stored: it is rebuilt from the rows.  Issuers come from the
assets, received coins from verifying the stored consignments again, spent coins and
change from replaying the finalized operations, and pending proofs from the exports of
prepared and signed operations.
-/

namespace OpenCsv

open Call

variable {π : Type}
variable (env : AccountEnv π)

section Rebuilding

/-- Derive every issuer again and compare its asset. -/
def restoreIssuers : AccountCall Unit := do
  let a ← get
  each (a.assets.rows.insertionSort (fun r r' => r.1 ≤ r'.1)) (fun (index, asset) => do
    let (actualId, w) ← reads (fun a =>
      (a.protocol.initIssuerFromSeed env.wallet asset.currency (env.issuerSeed index) asset.nonce
        asset.termsHash).mapError (AccountError.newText "database_corrupt"))
    modify (fun a => { a with protocol := w })
    demand (actualId == asset.assetId)
      (.newText "database_corrupt"
        (Text.lit "asset " ++ Text.ofNat index.toNat ++
          Text.lit " does not match account root")))

/-- The operations in the order they were created. -/
def Account.operationsInOrder (a : Account) : List (Text × Operation) :=
  a.operations.rows.insertionSort (fun r r' => r.2.createdAt ≤ r'.2.createdAt)

/-- The consignments that local receipts hold. -/
def Account.localConsignmentIds (a : Account) : List Text :=
  a.operations.rows.filterMap (fun row => row.2.receipt.bind Receipt.consignmentId)

/-- Verify one stored consignment again; the answer is its list of spent coins. -/
def replayConsignment
    (consignmentId : Text)
    (stored : StoredConsignment)
    (chain : SnapshotChain) : AccountCall (List Text) := do
  let a ← get
  let finality := a.finality.get consignmentId
  if a.localConsignmentIds.contains consignmentId ∨
      (finality.map FinalityRow.finality) = some .frozen then
    return []
  else do
    let (w, verdict) :=
      match finality with
      | some ⟨anchorTxid, .unconfirmed⟩ =>
          a.protocol.verifyUnconfirmed env.wallet stored.consignment chain
            (unconfirmedDependencyKey anchorTxid)
      | _ =>
          a.protocol.verify env.wallet stored.consignment chain
            env.config.requiredConfirmations.toUInt64
    modify (fun a => { a with protocol := w })
    match verdict with
    | .error error => throw (.newText "database_corrupt" error)
    | .ok (.error _) =>
        throw (.new "stale_chain_state" "stored consignment no longer verifies")
    | .ok (.ok _) => return stored.spends.getD []

/-- Mark one coin as spent. -/
def replaySpend (coinId : Text) : AccountCall Unit := do
  let a ← get
  match a.protocol.markSpent env.wallet [coinId] with
  | (w, .error error) => do
      modify (fun a => { a with protocol := w })
      throw (.newText "database_corrupt" error)
  | (w, .ok _) => modify (fun a => { a with protocol := w })

/-- Verify every received consignment again, but the frozen and the local ones. -/
def restoreConsignmentState : AccountCall Unit := do
  let a ← get
  let rows := a.consignments.rows.insertionSort (fun r r' => r.2.createdAt ≤ r'.2.createdAt)
  let spent ← collect (rows.filterMap (fun row =>
      (a.snapshots.get row.1).map (fun chain => (row.1, row.2, chain))))
    (fun (consignmentId, stored, chain) => replayConsignment env consignmentId stored chain)
  each spent.flatten (replaySpend env)

end Rebuilding

section Replaying

def OperationState.isFinalized : OperationState → Bool
  | .mempool | .confirmed | .consignmentDelivered => true
  | _ => false

def OperationState.isSettled : OperationState → Bool
  | .confirmed | .consignmentDelivered => true
  | _ => false

/-- The coins spent so far, each with its operation and the state of that operation. -/
abbrev ReplayedSpends := Table Text (Text × OperationState)

/-- What the rows say of a finalized operation. -/
structure FinalizedOperation where
  pendingJson : Text
  txid : Txid
  consignmentId : Text
  consignment : List UInt8
  spends : List Text

def finalizedError (operationId : Text) (what : String) : AccountError :=
  .newText "database_corrupt"
    (Text.lit "finalized operation " ++ operationId ++ Text.lit (" " ++ what))

def finalizedOperation
    (operationId : Text)
    (operation : Operation)
    (a : Account) : Except AccountError FinalizedOperation := do
  let pendingJson ← okOr operation.pendingJson
    (finalizedError operationId "has no pending export")
  let txid ← okOr operation.txid (finalizedError operationId "has no txid")
  let receipt ← okOr operation.receipt (finalizedError operationId "has no receipt")
  require receipt.deliveryReady (finalizedError operationId "is not delivery-ready")
  let consignmentId ← okOr receipt.consignmentId
    (finalizedError operationId "has no consignment id")
  let consignment ← okOr receipt.consignment
    (finalizedError operationId "has no consignment bytes")
  let stored ← okOr (a.consignments.get consignmentId)
    (.new "database_error" "Query returned no rows")
  let spends ← okOr stored.spends (finalizedError operationId "has no spend list")
  return ⟨pendingJson, txid, consignmentId, consignment, spends⟩

/--
Replay one finalized operation; the answer is whether it is quarantined.  It may spend
coins of another replayed operation only when that one is settled and this one is not.
-/
def replayFinalized
    (operationId : Text)
    (operation : Operation)
    (replayed : ReplayedSpends) : AccountCall (Bool × ReplayedSpends) := do
  let found ← reads (finalizedOperation operationId operation)
  let (pendingId, w) ← reads (fun a => (a.protocol.importPending env.wallet found.pendingJson).mapError
    (AccountError.newText "database_corrupt"))
  modify (fun a => { a with protocol := w })
  let pendingSpends ← lift (((w.findPending pendingId "no").map Pending.spentIds).mapError
    (AccountError.newText "database_corrupt"))
  let conflicts := found.spends.filterMap replayed.get
  if pendingSpends ≠ found.spends then do
    modify (fun a => { a with protocol := (w.cancelPending pendingId).2 })
    throw (finalizedError operationId "spend list mismatch")
  else if !conflicts.isEmpty then do
    modify (fun a => { a with protocol := (w.cancelPending pendingId).2 })
    demand (operation.state == .mempool && conflicts.all (fun winner => winner.2.isSettled))
      (.newText "protocol_state_conflict"
        (Text.lit "finalized operation " ++ operationId ++
          Text.lit " reuses coins; no confirmed winner can be quarantined safely"))
    return (true, replayed)
  else do
    let ((consignment, spends), w) ← lift ((w.finalize env.wallet pendingId
      ⟨found.txid, ScanIndex.mempool⟩).mapError (AccountError.newText "database_corrupt"))
    modify (fun a => { a with protocol := w })
    demand (consignmentHash env consignment == found.consignmentId &&
        consignment == found.consignment)
      (finalizedError operationId "does not match its receipt")
    demand (found.spends == spends) (finalizedError operationId "spend list mismatch")
    return (false, spends.foldl (fun replayed coinId =>
      replayed.put coinId (operationId, operation.state)) replayed)

/-- Replay the finalized operations one by one; the answer is the quarantined ones. -/
def replayOperations : List (Text × Operation) → ReplayedSpends → AccountCall (List Text)
  | [], _ => return []
  | (operationId, operation) :: rest, replayed => do
      let (quarantined, replayed) ← replayFinalized env operationId operation replayed
      let others ← replayOperations rest replayed
      return if quarantined then operationId :: others else others

/-- Apply every finalized operation again, in the order they were created. -/
def restoreFinalizedOperations : AccountCall Unit := do
  let a ← get
  let quarantines ← replayOperations env
    (a.operationsInOrder.filter (fun row => row.2.state.isFinalized)) Table.empty
  if quarantines.isEmpty then
    pure ()
  else
    modify (fun a => { a with
      operations := a.operations.modifyAll (fun operationId operation =>
        if quarantines.contains operationId then
          { operation with
            state := .protocolRejected
            rejectionReason := some (Text.lit "duplicate_protocol_spend") }
        else
          operation)
      backupVerified := false })

end Replaying

section Reinstalling

/-- Lock every reserved outpoint of the fee wallet. -/
def restoreFeeReservations : AccountCall Unit :=
  modify (fun a => { a with
    bitcoin := a.reservations.rows.foldl (fun w row => w.lockOutpoint row.2.outpoint) a.bitcoin })

def OperationState.isResumable : OperationState → Bool
  | .proofReady | .signedPersisted | .broadcastUnobserved | .broadcast => true
  | _ => false

/-- Import the proof of every prepared or signed operation. -/
def restorePendingOperations : AccountCall Unit := do
  let a ← get
  each (a.operationsInOrder.filterMap (fun row =>
      if row.2.state.isResumable then
        row.2.pendingJson.map (fun pendingJson => (row.1, pendingJson))
      else
        none))
    (fun (operationId, pendingJson) => do
      let (pendingId, w) ← reads (fun a => (a.protocol.importPending env.wallet pendingJson).mapError
        (AccountError.newText "database_corrupt"))
      modify (fun a => { a with
        protocol := w
        pendingByOperation := a.pendingByOperation.put operationId pendingId }))

end Reinstalling

section Opening

/-- Compare the configured registry release with the newest one seen. -/
def reconcileProductionUsdRegistryFloor (a : Account) : Account :=
  if env.config.network ≠ .mainnet then
    { a with registryState := .notApplicable }
  else
    match env.config.productionUsdRegistry, a.registryFloor with
    | none, _ => { a with registryState := .unconfigured }
    | some release, none =>
        { a with
          registryFloor := some ⟨release.registryVersion, release.commitmentSha256⟩
          registryState := .current }
    | some release, some stored =>
        if release.registryVersion < stored.registryVersion then
          { a with registryState := .rollback }
        else if release.registryVersion = stored.registryVersion ∧
            release.commitmentSha256 ≠ stored.commitmentSha256 then
          { a with registryState := .conflict }
        else
          { a with
            registryFloor := some ⟨release.registryVersion, release.commitmentSha256⟩
            registryState := .current }

/-- The protocol wallet of the account root, without anything learned from rows. -/
def MemWallet.rooted (w : MemWallet) : MemWallet :=
  { MemWallet.empty with keys := w.keys }

/-- Drop the wallet and open the same database with the same key and configuration. -/
def reopen : AccountCall Unit := do
  modify (reconcileProductionUsdRegistryFloor env)
  modify (fun a => { a with
    protocol := a.protocol.rooted
    pendingByOperation := Table.empty })
  restoreIssuers env
  restoreConsignmentState env
  restoreFinalizedOperations env
  restoreFeeReservations
  restorePendingOperations env

end Opening

end OpenCsv
