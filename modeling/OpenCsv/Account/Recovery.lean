import OpenCsv.Account.Restore

/-!
# Runs with restarts and restores

A run of an account may also drop the wallet and open its database again, and import
the checkpoint of a backup.
-/

namespace OpenCsv

open Call

section Runs

variable {π : Type}
variable (env : AccountEnv π)

/-- Calls, and what brings a wallet back. -/
inductive RecoveryAct where
  | call (act : Act)
  | restore (checkpoint : Checkpoint) (hash : Text)
  | reopen

/-- One act; a database that cannot be opened leaves no wallet. -/
def RecoveryAct.perform (world : World) (a a' : Account) : RecoveryAct → Prop
  | .call act => a' = (OpenCsv.perform env world act).final a
  | .restore checkpoint hash => a' = (restoreCheckpoint env world checkpoint hash).final a
  | .reopen => (OpenCsv.reopen env).answer a = .ok () ∧ a' = (OpenCsv.reopen env).final a

/-- The account as a system with restarts and restores. -/
def recoverySystem : System Account (World × RecoveryAct) where
  init := Account.Fresh
  step := fun a label a' => label.2.perform env label.1 a a'

end Runs

namespace Account.Sample

/-- A test account: nothing is switched on that needs a service. -/
def config : AccountConfig where
  network := .regtest
  deploymentId := Text.lit "sample-deployment"
  requiredConfirmations := 1
  observationChecks := []
  peers := []
  verificationPeers := []
  usdIssuers := []
  productionUsdRegistry := none
  productionIssuancePolicies := []
  maxFeeSats := none
  skipProtocolSpendPreflight := true
  assumeAuthenticatedProofRoot := false

/-- A codec that reads the texts of some values. -/
def json (values : List Json) : JsonText where
  print := fun value => Text.fromUtf8Lossy (Json.render 8 value)
  parse := fun text =>
    okOr (values.find? (fun value => Text.fromUtf8Lossy (Json.render 8 value) == text))
      (Text.lit "expected value")

/-- A short checksum in place of a hash. -/
def checksum : Sha256 := fun data =>
  ⟨leBytes 4 (MockVerifier.checksum [] data).toNat ++ List.replicate 28 0, by simp⟩

/-- Keys and signatures are taken as they come. -/
def issuance : IssuanceEnv where
  sha256 := checksum
  json := json []
  publicKey := some
  isSignature := fun _ => true
  normalizeS := id
  verifyEcdsa := fun _ _ _ => true
  url := fun _ => some (Text.lit "https", true)
  outpointFromStr := fun _ => some ⟨Bytes.zero 32, 0⟩
  outpointToString := fun _ => Text.lit "outpoint"

def env (wallet : WalletEnv Unit) : AccountEnv Unit where
  wallet := wallet
  issuance := issuance
  config := config
  deviceBindingValid := true
  rootFingerprint := Text.lit "root"
  deviceBindingCommitment := some (Text.lit "device")
  checkpointHash := fun _ => Text.lit "checkpoint"
  termsHash := fun _ => .ok (Digest.fill 0)
  issuerSeed := fun _ => List.Vector.replicate 32 6
  proposalFromWire := fun _ => .error (.new "invalid_proposal" "no proposal")
  minimalNonDust := fun _ => 294

def offline : AccountError := .new "offline" "no service"

/-- A world in which nothing can be reached. -/
def world : World where
  now := 1000
  nowMs := 1000000
  randomId := fun i => Text.ofNat i
  draws := MemWallet.Sample.draws
  verifyFunding := fun _ => .error offline
  nullifierOccurrence := fun _ => .ok (0, none)
  getTx := fun _ => .ok none
  txConfirmed := fun _ => .ok false
  changeScript := fun _ => []
  commitNonce := fun _ => Bytes.zero 32
  batchFeeKey := fun _ => .error offline
  sign := .error offline
  stamp := .ok ()
  signedFeeLimit := fun _ => .ok none
  signedRelease := fun _ => none
  relay := .error offline
  observation := .error offline
  evidence := .error offline
  nonHostPolicy := .ok ()
  scanVerify := fun _ => .error offline
  fullScan := .error offline
  walletTx := fun _ => none
  historicalValue := fun _ => .error offline
  txidConfirmation := fun _ => none
  batchReplacement := .error offline
  provisionalChain := fun _ _ => .error offline

/-- An account over a protocol wallet, with a verified backup and empty tables. -/
def blank (w : MemWallet) : Account where
  operations := Table.empty
  reservations := Table.empty
  batches := Table.empty
  members := Table.empty
  stocks := Table.empty
  consignments := Table.empty
  snapshots := Table.empty
  finality := Table.empty
  issuance := Table.empty
  assets := Table.empty
  manifests := Table.empty
  reserves := Table.empty
  reobservations := Table.empty
  registryFloor := none
  registryState := .notApplicable
  activeProof := none
  activeBatchProof := none
  activeSendBatch := none
  backupVerified := true
  restoredCheckpoint := none
  bitcoin := ⟨[], []⟩
  protocol := w
  pendingByOperation := Table.empty

theorem blank_fresh
    (secret : Bytes 32) :
    (blank (MemWallet.create secret)).Fresh :=
  ⟨rfl, rfl, rfl, rfl, rfl, rfl, rfl, rfl⟩

/-- The checkpoint of such an account, with some assets, operations and consignments. -/
def checkpoint
    (wallet : WalletEnv Unit)
    (w : MemWallet)
    (assets : List (UInt32 × Asset))
    (operations : List (Text × Operation))
    (consignments : List BackupConsignment) : Checkpoint where
  version := checkpointVersion
  deploymentId := some config.deploymentId
  keyDerivationId := some (accountKeyDerivationId config.network)
  registryFloor := none
  network := config.network
  rootFingerprint := (env wallet).rootFingerprint
  deviceBindingCommitment := (env wallet).deviceBindingCommitment
  owners := w.owners wallet.sponge
  assets := assets
  manifests := []
  operations := operations
  consignments := consignments
  sendBatches := []
  members := []
  stocks := []
  reserves := []
  issuance := []

end Account.Sample

end OpenCsv
