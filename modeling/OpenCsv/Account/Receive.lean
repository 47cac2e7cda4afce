import OpenCsv.Account.BatchReplacement

/-!
# Receiving consignments

A received consignment is verified by the protocol wallet and stored with the chain
view it was verified against and its finality.  A settled row stays settled when the
same consignment is verified again without confirmations.
-/

namespace OpenCsv

open Call

variable {π : Type}
variable (env : AccountEnv π)
variable (world : World)

section Storing

/-- The consignment in its canonical bytes, with its id. -/
def canonicalConsignmentIdentity
    (blob : List UInt8) : Except AccountError (Consignment × List UInt8 × Text) := do
  let decoded ← (env.wallet.decodeConsignment blob).mapError
    (AccountError.newText "invalid_consignment")
  let canonical := env.wallet.encodeConsignment decoded
  let consignment ← (env.wallet.decodeConsignment canonical).mapError
    (AccountError.newText "invalid_consignment")
  return (consignment, canonical, consignmentHash env canonical)

/-- Every other stored consignment can be read. -/
def matchingPaymentConsignments (consignmentId : Text) (a : Account) : Except AccountError Unit :=
  a.consignments.rows.forM (fun row =>
    if row.1 = consignmentId then
      .ok ()
    else
      ((env.wallet.decodeConsignment row.2.consignment).mapError
        (AccountError.newText "database_corrupt")).map (fun _ => ()))

/-- The rows of a verified consignment. -/
def Account.storeReceived
    (a : Account)
    (consignmentId : Text)
    (canonical : List UInt8)
    (chain : SnapshotChain)
    (anchorTxid : Txid)
    (finality : Finality) : Account :=
  { a with
    consignments := a.consignments.put consignmentId
      (match a.consignments.get consignmentId with
      | some stored => { stored with consignment := canonical }
      | none => ⟨canonical, none, world.now⟩)
    snapshots := a.snapshots.put consignmentId chain
    finality := a.finality.put consignmentId
      ⟨anchorTxid,
        if (a.finality.get consignmentId).any (fun row => row.finality == .settled) then .settled
        else finality⟩ }

/-- Verify a canonical consignment in the protocol wallet and store it when it is accepted. -/
def verifyAndStore
    (canonical : List UInt8)
    (consignmentId : Text)
    (anchorTxid : Txid)
    (chain : SnapshotChain)
    (unconfirmed : Bool) : AccountCall Unit := do
  let a ← get
  let (w, verdict) :=
    if unconfirmed then
      a.protocol.verifyUnconfirmed env.wallet canonical chain (unconfirmedDependencyKey anchorTxid)
    else
      a.protocol.verify env.wallet canonical chain env.config.requiredConfirmations.toUInt64
  modify (fun a => { a with protocol := w })
  match verdict with
  | .error error => throw (.newText "invalid_consignment" error)
  | .ok (.error _) => pure ()
  | .ok (.ok _) =>
      modify (fun a => a.storeReceived world consignmentId canonical chain anchorTxid
        (if unconfirmed then .unconfirmed else .settled))

end Storing

section Verifying

/-- Credit a settled consignment. -/
def verifyConsignment (blob : List UInt8) (chain : SnapshotChain) : AccountCall Unit := do
  let (consignment, canonical, consignmentId) ← lift (canonicalConsignmentIdentity env blob)
  reads (matchingPaymentConsignments env consignmentId)
  verifyAndStore env world canonical consignmentId consignment.anchorRef.txid chain false

/-- Credit a consignment whose transaction the accelerator returns. -/
def verifyConsignmentUnconfirmed (blob : List UInt8) : AccountCall Unit := do
  demand (env.config.observationChecks.all (fun check => check.mode != .require))
    (.new "observation_evidence_required"
      "required observer policy needs pinned host evidence and exact raw transaction bytes")
  let (consignment, canonical, consignmentId) ← lift (canonicalConsignmentIdentity env blob)
  reads (matchingPaymentConsignments env consignmentId)
  let anchorTxid := consignment.anchorRef.txid
  let observed ← lift ((world.getTx anchorTxid).mapError
    (AccountError.newText "mempool_observation_failed"))
  match observed with
  | none => do
      freezeUnconfirmedDependency (unconfirmedDependencyKey anchorTxid)
      throw (.newText "unconfirmed_anchor_missing"
        (Text.lit "unconfirmed anchor " ++ toHex anchorTxid.toList.reverse ++
          Text.lit " is not currently observed"))
  | some transaction => do
      let chain ← lift (world.provisionalChain consignment transaction)
      verifyAndStore env world canonical consignmentId anchorTxid chain true

/-- Credit a consignment whose exact transaction the host has observed. -/
def verifyConsignmentUnconfirmedObserved
    (blob : List UInt8)
    (rawTransaction : Transaction) : AccountCall Unit := do
  let (consignment, canonical, consignmentId) ← lift (canonicalConsignmentIdentity env blob)
  reads (matchingPaymentConsignments env consignmentId)
  let anchorTxid := consignment.anchorRef.txid
  demand (rawTransaction.txid env.sha256 == anchorTxid)
    (.newText "unconfirmed_anchor_mismatch"
      (Text.lit "raw transaction computes to " ++
        toHex (rawTransaction.txid env.sha256).toList.reverse ++ Text.lit ", expected " ++
          toHex anchorTxid.toList.reverse))
  lift world.evidence
  match world.observation with
  | .error error => do
      freezeUnconfirmedDependency (unconfirmedDependencyKey anchorTxid)
      throw error
  | .ok _ => do
      lift world.nonHostPolicy
      let chain ← lift (world.provisionalChain consignment rawTransaction)
      verifyAndStore env world canonical consignmentId anchorTxid chain true

end Verifying

section Syncing

/-- Replace what the fee wallet can spend by what a full scan finds. -/
def sync : AccountCall Unit := do
  let unspent ← lift world.fullScan
  modify (fun a => { a with bitcoin := { a.bitcoin with unspent := unspent } })

end Syncing

end OpenCsv
