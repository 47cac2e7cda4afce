import OpenCsv.Account.Env
import OpenCsv.Lib.Panic

/-!
# Evidence of observers

The host asks the configured observers for a transaction and hands their answers over.
`validate_observation_checks` accepts the rows of a policy; `evaluate_observation_evidence`
takes the entry of each row out of a map, lists what is wrong with it, and counts the required
rows with nothing wrong.

**Results.** The loop looks every row up in the first map (`foldlM_examineNext`); a pass means
that every required row has a sound entry with accepted dates (`passes_iff`); and the policy is
the one that was meant except where an entry was cached after the present moment, is older than
an `i64` can say, or carries a text that cannot be sliced (`observation_policy_iff`).
-/

namespace OpenCsv

section Texts

/-- The encodings of the Unicode property `White_Space`. -/
def whiteSpaceScalars : List (List UInt8) :=
  [[0x09], [0x0A], [0x0B], [0x0C], [0x0D], [0x20], [0xC2, 0x85], [0xC2, 0xA0],
    [0xE1, 0x9A, 0x80], [0xE2, 0x80, 0x80], [0xE2, 0x80, 0x81], [0xE2, 0x80, 0x82],
    [0xE2, 0x80, 0x83], [0xE2, 0x80, 0x84], [0xE2, 0x80, 0x85], [0xE2, 0x80, 0x86],
    [0xE2, 0x80, 0x87], [0xE2, 0x80, 0x88], [0xE2, 0x80, 0x89], [0xE2, 0x80, 0x8A],
    [0xE2, 0x80, 0xA8], [0xE2, 0x80, 0xA9], [0xE2, 0x80, 0xAF], [0xE2, 0x81, 0x9F],
    [0xE3, 0x80, 0x80]]

/-- Nothing but white space, in at most `fuel` scalars. -/
def blankWithin : ℕ → List UInt8 → Bool
  | 0, bytes => bytes.isEmpty
  | fuel + 1, bytes =>
      match utf8Width bytes with
      | none => bytes.isEmpty
      | some width =>
          whiteSpaceScalars.contains (bytes.take width) && blankWithin fuel (bytes.drop width)

/-- `value.trim().is_empty()`. -/
def Text.isBlank (value : Text) : Bool :=
  blankWithin value.bytes.length value.bytes

/-- `validate_hex_32_config`. -/
def validateHex32Config (value : Text) (what : String) : Except AccountError Unit :=
  require (value.bytes.length == 64 && value.bytes.all (fun b => (hexValue b).isSome))
    (.newText "invalid_config" (Text.lit what ++ Text.lit " must be 64 hexadecimal characters"))

def validateEsploraUrl (url : Text) : Except AccountError Unit :=
  require
    (url.startsWith (Text.lit "https://") || url.startsWith (Text.lit "http://127.0.0.1:") ||
      url.startsWith (Text.lit "http://localhost:"))
    (.new "invalid_config" "Esplora URL must use HTTPS (HTTP is allowed only for localhost)")

/-- The pairs of a hex text: a slice that would cut a character in two panics. -/
def hexDecodePairs (what : String) : List UInt8 → Except (Stop AccountError) (List UInt8)
  | c :: d :: rest => do
      require (!(rest.head?.any utf8Tail)) .panic
      let b ← okOr (hexPairValue c d)
        (.error (.newText "database_corrupt"
          (Text.lit "invalid " ++ Text.lit what ++ Text.lit " hex")))
      let bs ← hexDecodePairs what rest
      return b :: bs
  | _ => .ok []

/-- `hex_decode`. -/
def hexDecode (value : Text) (what : String) : Except (Stop AccountError) (List UInt8) :=
  if value.bytes.length % 2 = 0 then
    hexDecodePairs what value.bytes
  else
    .error (.error (.newText "database_corrupt"
      (Text.lit what ++ Text.lit " has odd-length hexadecimal")))

end Texts

section Words

/-- `i64::saturating_sub`. -/
def saturatingSub (a b : Int64) : Int64 :=
  .ofInt (max (-2 ^ 63) (min (2 ^ 63 - 1) (a.toInt - b.toInt)))

/-- `u64::saturating_mul`. -/
def saturatingMul (a b : UInt64) : UInt64 :=
  .ofNat (min (a.toNat * b.toNat) (2 ^ 64 - 1))

/-- `u64::try_from(a).unwrap_or(u64::MAX)`. -/
def toU64OrMax (a : Int64) : UInt64 :=
  .ofNat (if a.toInt < 0 then 2 ^ 64 - 1 else a.toInt.toNat)

end Words

namespace Observation

section Data

/-- A row of the observation policy. -/
structure Check where
  id : Text
  kind : ObservationKind
  endpoint : Option Text
  mode : ObservationMode
  pinProfile : Option Text
  chainFingerprintsSha256 : List Text
  maxAgeSeconds : UInt64
deriving DecidableEq

/-- What the validation of the rows reads of a configuration. -/
structure Config where
  network : Network
  observationChecks : List Check
  requiredRawObserverQuorum : UInt32

inductive ObservationResult where
  | observed
  | submitted
  | unavailable
  | error
  | notChecked
deriving DecidableEq

/-- An entry of the evidence. -/
structure Evidence where
  checkId : Text
  endpoint : Option Text
  result : ObservationResult
  startedAtMs : Int64
  completedAtMs : Int64
  cachedAtMs : Int64
  certificateProfile : Option Text
  certificateChainFingerprintsSha256 : List Text
  rawTransactionHex : Option Text
  detail : Option Text

/-- What is reported about a row. -/
structure Receipt where
  checkId : Text
  kind : ObservationKind
  mode : ObservationMode
  endpoint : Option Text
  result : ObservationResult
  startedAtMs : Int64
  completedAtMs : Int64
  latencyMs : Int64
  cachedAtMs : Int64
  cacheAgeMs : Int64
  certificateProfile : Option Text
  certificateChainFingerprintsSha256 : List Text
  rawByteMatch : Bool
  detail : Option Text
  failures : List String

namespace Check

/-- Does the evidence have to speak of the row? -/
def isListed (check : Check) : Bool :=
  check.kind == .rawTransactionApi && check.mode != .off

/-- A raw observer that is required. -/
def isRequired (check : Check) : Bool :=
  check.kind == .rawTransactionApi && check.mode == .require

end Check

end Data

section Validation

/-- A built-in row, which a configuration can only repeat. -/
structure BuiltIn where
  id : Text
  network : Network
  endpoint : Text
  pinProfile : Text
  chainFingerprintsSha256 : List Text
  name : String

def mempoolSpaceChainPins : List Text :=
  [ Text.lit "6542d176bed50f193c0ce297ae44ecd8a0a86bec2ede682769344059b4e78530",
    Text.lit "92f351bf3d54164dfa8dd8f9e1139d3150349786485d2b9eecd00e2971c1e6c5" ]

def blockstreamChainPins : List Text :=
  [ Text.lit "13949634d99cd6fd6aa80bc034fefacceb1969feef986586713ecdbb05758d3f",
    Text.lit "238b85a0099c65b970477d5724f1a1d475ce5058cffe4efa8733899bdb863c47",
    Text.lit "e57b7e6f150c419102e8d5c055729ff967b9d1a829bf00cec89ca604ebf4a86f",
    Text.lit "072639d0b140d5bffae16ad9c3f6cc6086040621f51ee61a6d46a8915c07cf76" ]

def builtIns : List BuiltIn :=
  [ ⟨Text.lit "mempool_space_signet", .signet, Text.lit "https://mempool.space/signet/api",
      Text.lit "sectigo_r46", mempoolSpaceChainPins, "mempool.space signet"⟩,
    ⟨Text.lit "blockstream_signet", .signet, Text.lit "https://blockstream.info/signet/api",
      Text.lit "lets_encrypt_yr", blockstreamChainPins, "Blockstream signet"⟩,
    ⟨Text.lit "mempool_space_mainnet", .mainnet, Text.lit "https://mempool.space/api",
      Text.lit "sectigo_r46", mempoolSpaceChainPins, "mempool.space mainnet"⟩,
    ⟨Text.lit "blockstream_mainnet", .mainnet, Text.lit "https://blockstream.info/api",
      Text.lit "lets_encrypt_yr", blockstreamChainPins, "Blockstream mainnet"⟩ ]

def validateEndpoint (check : Check) : Except AccountError Unit :=
  match check.kind, check.endpoint with
  | .rawTransactionApi, none =>
      .error (.new "invalid_config" "raw-transaction observer needs an endpoint")
  | .rawTransactionApi, some endpoint => validateEsploraUrl endpoint
  | _, none => .ok ()
  | _, some _ =>
      .error (.newText "invalid_config"
        (Text.lit "non-API observation " ++ check.id ++
          Text.lit " cannot configure an endpoint"))

def validatePins (network : Network) (check : Check) : Except AccountError Unit :=
  match builtIns.find? (fun builtIn => builtIn.id == check.id) with
  | some builtIn =>
      require
        (network == builtIn.network && check.kind == .rawTransactionApi &&
          check.endpoint == some builtIn.endpoint &&
            check.pinProfile == some builtIn.pinProfile &&
              check.chainFingerprintsSha256 == builtIn.chainFingerprintsSha256)
        (.newText "invalid_config"
          (Text.lit "the built-in " ++ Text.lit builtIn.name ++
            Text.lit " endpoint and pin profile are immutable"))
  | none => do
      require (!(check.isRequired && check.chainFingerprintsSha256.isEmpty))
        (.newText "invalid_config"
          (Text.lit "custom required observer " ++ check.id ++
            Text.lit " needs a certificate-chain fingerprint"))
      check.chainFingerprintsSha256.forM (fun fingerprint =>
        validateHex32Config fingerprint "certificate-chain fingerprint")

/-- One row, after rows with some identifiers. -/
def validateCheck
    (network : Network)
    (ids : List Text)
    (check : Check) : Except AccountError (List Text) := do
  require (!check.id.isBlank && !ids.contains check.id)
    (.new "invalid_config" "observation check identifiers must be non-empty and unique")
  validateEndpoint check
  require (!(check.mode == .require && check.maxAgeSeconds == 0))
    (.newText "invalid_config"
      (Text.lit "required observer " ++ check.id ++ Text.lit " must have a positive max age"))
  validatePins network check
  return ids ++ [check.id]

def validateObservationChecks (config : Config) : Except AccountError Unit := do
  let _ ← config.observationChecks.foldlM (validateCheck config.network) []
  let requiredRawObservers := config.observationChecks.countP Check.isRequired
  require (config.requiredRawObserverQuorum.toNat == requiredRawObservers)
    (.newText "invalid_config"
      (Text.lit "required raw observer quorum must equal all " ++
        Text.ofNat requiredRawObservers ++ Text.lit " raw observers marked require"))

end Validation

section Evaluation

-- The Bitcoin library says whether bytes are a transaction.
variable (isTransaction : List UInt8 → Bool)
variable (nowMs : Int64)
variable (exactRawTransaction : List UInt8)

/-- One failure, when there is one. -/
def failWhen (fails : Bool) (failure : String) : List String :=
  if fails then [failure] else []

/-- `cached_at_ms > now_ms + 30_000`, where the sum wraps. -/
def isFuture (evidence : Evidence) : Bool :=
  nowMs + 30000 < evidence.cachedAtMs

/-- The age exceeds the maximal one; a negative age counts as the largest. -/
def isStale (check : Check) (evidence : Evidence) : Bool :=
  saturatingMul check.maxAgeSeconds 1000 <
    toU64OrMax (saturatingSub nowMs evidence.cachedAtMs)

/-- The bytes that the observer returned, if it returned any. -/
def observedRaw (evidence : Evidence) : Except (Stop AccountError) (Option (List UInt8)) :=
  match evidence.rawTransactionHex with
  | none => .ok none
  | some encoded =>
      match hexDecode encoded "observed raw transaction" with
      | .ok raw => .ok (some raw)
      | .error .panic => .error .panic
      | .error (.error _) => .ok none

/-- A required observer returned another transaction. -/
def reportsConflict (check : Check) (evidence : Evidence) (raw : Option (List UInt8)) : Bool :=
  check.mode == .require && evidence.result == .observed &&
    raw.any (fun raw => raw != exactRawTransaction && isTransaction raw)

/-- What is wrong with an entry. -/
def failures (check : Check) (evidence : Evidence) (raw : Option (List UInt8)) : List String :=
  -- Only rows of raw observers come here, so their kind is not tested again.
  failWhen (evidence.endpoint != check.endpoint) "endpoint mismatch" ++
    failWhen (evidence.completedAtMs < evidence.startedAtMs) "negative request duration" ++
    failWhen (isFuture nowMs evidence) "cache timestamp is in the future" ++
    failWhen (isStale nowMs check evidence) "observation cache is stale" ++
    failWhen (evidence.certificateProfile != check.pinProfile) "certificate profile mismatch" ++
    evidence.certificateChainFingerprintsSha256.flatMap (fun fingerprint =>
      failWhen (!(validateHex32Config fingerprint "observed certificate fingerprint").isOk)
        "invalid certificate fingerprint") ++
    failWhen
      (check.pinProfile.isSome && evidence.certificateChainFingerprintsSha256.isEmpty)
      "pinned certificate chain is missing" ++
    failWhen
      (!check.chainFingerprintsSha256.isEmpty &&
        !evidence.certificateChainFingerprintsSha256.any (fun fingerprint =>
          check.chainFingerprintsSha256.contains fingerprint))
      "certificate chain does not match configured pins" ++
    failWhen (reportsConflict isTransaction exactRawTransaction check evidence raw)
      "observer returned a different valid transaction" ++
    failWhen (!(raw.any (fun raw => raw == exactRawTransaction)))
      "raw transaction bytes do not match" ++
    failWhen (evidence.result != .observed) "transaction was not observed"

/-- The receipt of a row without an entry. -/
def missingReceipt (check : Check) : Receipt where
  checkId := check.id
  kind := check.kind
  mode := check.mode
  endpoint := check.endpoint
  result := .notChecked
  startedAtMs := nowMs
  completedAtMs := nowMs
  latencyMs := saturatingSub nowMs nowMs
  cachedAtMs := nowMs
  cacheAgeMs := saturatingSub nowMs nowMs
  certificateProfile := check.pinProfile
  certificateChainFingerprintsSha256 := []
  rawByteMatch := false
  detail := none
  failures := ["evidence is missing"]

def receiptOf (check : Check) (evidence : Evidence) (raw : Option (List UInt8)) : Receipt where
  checkId := check.id
  kind := check.kind
  mode := check.mode
  endpoint := evidence.endpoint
  result := evidence.result
  startedAtMs := evidence.startedAtMs
  completedAtMs := evidence.completedAtMs
  latencyMs := saturatingSub evidence.completedAtMs evidence.startedAtMs
  cachedAtMs := evidence.cachedAtMs
  cacheAgeMs := saturatingSub nowMs evidence.cachedAtMs
  certificateProfile := evidence.certificateProfile
  certificateChainFingerprintsSha256 := evidence.certificateChainFingerprintsSha256
  rawByteMatch := raw.any (fun raw => raw == exactRawTransaction)
  detail := evidence.detail
  failures := failures isTransaction nowMs exactRawTransaction check evidence raw

/-- The receipt of a row, and whether it reports a conflict. -/
def examine
    (check : Check)
    (evidence : Option Evidence) : Except (Stop AccountError) (Receipt × Bool) :=
  match evidence with
  | none => .ok (missingReceipt nowMs check, false)
  | some evidence => do
      let raw ← observedRaw evidence
      return (receiptOf isTransaction nowMs exactRawTransaction check evidence raw,
        reportsConflict isTransaction exactRawTransaction check evidence raw)

/-- The state of the loop over the rows. -/
structure Progress where
  /-- The entries that no row has taken out of the map. -/
  evidenceById : List Evidence
  receipts : List Receipt
  successfulRequiredRawObservers : UInt32
  conflictingRequiredRawObservers : List Text

/-- A required row with nothing wrong. -/
def Receipt.succeeds (receipt : Receipt) : Bool :=
  receipt.mode == .require && receipt.failures.isEmpty

/-- The state after one more receipt. -/
def Progress.add (progress : Progress) (outcome : Receipt × Bool) : Progress where
  evidenceById :=
    progress.evidenceById.filter (fun evidence => evidence.checkId != outcome.1.checkId)
  receipts := progress.receipts ++ [outcome.1]
  successfulRequiredRawObservers :=
    if outcome.1.succeeds then progress.successfulRequiredRawObservers + 1
    else progress.successfulRequiredRawObservers
  conflictingRequiredRawObservers :=
    if outcome.2 then progress.conflictingRequiredRawObservers ++ [outcome.1.checkId]
    else progress.conflictingRequiredRawObservers

/-- The entry of an identifier. -/
def entryOf (entries : List Evidence) (id : Text) : Option Evidence :=
  entries.find? (fun evidence => evidence.checkId == id)

/-- One turn of the loop. -/
def examineNext
    (progress : Progress)
    (check : Check) : Except (Stop AccountError) Progress :=
  if check.isListed then do
    let outcome ← examine isTransaction nowMs exactRawTransaction check
      (entryOf progress.evidenceById check.id)
    return progress.add outcome
  else
    .ok progress

/-- Texts with a separator between them. -/
def join (texts : List Text) : Text :=
  match texts with
  | [] => Text.lit ""
  | text :: rest => rest.foldl (fun joined text => joined ++ Text.lit ", " ++ text) text

/-- What the policy fails with, when it fails. -/
def policyFailure
    (policy : List Check)
    (requiredRawObserverQuorum : UInt32)
    (progress : Progress) : Option AccountError :=
  match progress.conflictingRequiredRawObservers with
  | id :: ids =>
      some (.newText "observer_transaction_conflict"
        (Text.lit "required observers returned different valid transaction bytes: " ++
          join (id :: ids)))
  | [] =>
      if 0 < policy.countP Check.isRequired ∧
          progress.successfulRequiredRawObservers < requiredRawObserverQuorum then
        some (.newText "required_observation_failed"
          (Text.lit "required raw observer quorum failed: " ++
            Text.ofNat progress.successfulRequiredRawObservers.toNat ++ Text.lit " of " ++
              Text.ofNat requiredRawObserverQuorum.toNat ++
                Text.lit " exact pinned observations succeeded"))
      else
        none

/-- The receipts of the rows, and what the policy fails with. -/
def evaluateObservationEvidence
    (policy : List Check)
    (requiredRawObserverQuorum : UInt32)
    (observations : List Evidence) :
    Except (Stop AccountError) (List Receipt × Option AccountError) := do
  require (decide (observations.map Evidence.checkId).Nodup)
    (.error (.new "invalid_observation_evidence" "duplicate observation evidence identifier"))
  let progress ← policy.foldlM (examineNext isTransaction nowMs exactRawTransaction)
    ⟨observations, [], 0, []⟩
  require progress.evidenceById.isEmpty
    (.error (.newText "invalid_observation_evidence"
      (Text.lit "evidence contains unconfigured checks: " ++
        join (progress.evidenceById.map Evidence.checkId))))
  return (progress.receipts, policyFailure policy requiredRawObserverQuorum progress)

end Evaluation

section Policy

/-- What the entry of a required row has to show, its dates aside. -/
structure Sound
    (exactRawTransaction : List UInt8)
    (check : Check)
    (evidence : Evidence) : Prop where
  endpoint : evidence.endpoint = check.endpoint
  profile : evidence.certificateProfile = check.pinProfile
  fingerprints : ∀ fingerprint ∈ evidence.certificateChainFingerprintsSha256,
    fingerprint.bytes.length = 64 ∧ ∀ b ∈ fingerprint.bytes, (hexValue b).isSome
  present : check.pinProfile.isSome → evidence.certificateChainFingerprintsSha256 ≠ []
  pinned : check.chainFingerprintsSha256 ≠ [] →
    ∃ fingerprint ∈ evidence.certificateChainFingerprintsSha256,
      fingerprint ∈ check.chainFingerprintsSha256
  observed : evidence.result = .observed
  raw : ∃ encoded, evidence.rawTransactionHex = some encoded ∧
    hexDecode encoded "observed raw transaction" = .ok exactRawTransaction
  duration : evidence.startedAtMs.toInt ≤ evidence.completedAtMs.toInt

/-- The entries that a policy asks for, under a rule for their dates. -/
structure Meets
    (dates : Check → Evidence → Prop)
    (policy : List Check)
    (exactRawTransaction : List UInt8)
    (entries : List Evidence) : Prop where
  unique : (entries.map Evidence.checkId).Nodup
  listed : ∀ evidence ∈ entries, ∃ check ∈ policy, check.isListed ∧ check.id = evidence.checkId
  required : ∀ check ∈ policy, check.isRequired → ∃ evidence ∈ entries,
    evidence.checkId = check.id ∧ Sound exactRawTransaction check evidence ∧
      dates check evidence

/-- Cached at most 30 seconds in the future and at most the maximal age in the past. -/
def Fresh (nowMs : Int64) (check : Check) (evidence : Evidence) : Prop :=
  evidence.cachedAtMs.toInt ≤ nowMs.toInt + 30000 ∧
    nowMs.toInt - evidence.cachedAtMs.toInt ≤ check.maxAgeSeconds.toNat * 1000

/-- The dates that the code accepts. -/
def Accepted (nowMs : Int64) (check : Check) (evidence : Evidence) : Prop :=
  isFuture nowMs evidence = false ∧ isStale nowMs check evidence = false

/--
Dated after the present, with a maximal age below the largest `u64`; or after the limit for the
future, which wraps in the last 30 seconds of an `i64` clock.
-/
def Early (nowMs : Int64) (check : Check) (evidence : Evidence) : Prop :=
  (nowMs.toInt < evidence.cachedAtMs.toInt ∧ check.maxAgeSeconds.toNat * 1000 < 2 ^ 64 - 1) ∨
    (2 ^ 63 ≤ nowMs.toInt + 30000 ∧
      nowMs.toInt + 30000 - 2 ^ 64 < evidence.cachedAtMs.toInt)

/-- Older than a maximal age that the largest `i64` does not exceed. -/
def Ancient (nowMs : Int64) (check : Check) (evidence : Evidence) : Prop :=
  check.maxAgeSeconds.toNat * 1000 < nowMs.toInt - evidence.cachedAtMs.toInt ∧
    2 ^ 63 - 1 ≤ check.maxAgeSeconds.toNat * 1000 ∧
      (2 ^ 63 ≤ nowMs.toInt + 30000 →
        evidence.cachedAtMs.toInt ≤ nowMs.toInt + 30000 - 2 ^ 64)

/-- The raw text cannot be sliced into pairs. -/
def Evidence.Cuts (evidence : Evidence) : Prop :=
  ∃ encoded, evidence.rawTransactionHex = some encoded ∧
    hexDecode encoded "observed raw transaction" = .error .panic

end Policy

section Dates

variable {nowMs : Int64}
variable {check : Check}
variable {evidence : Evidence}

theorem toInt_saturatingSub
    (a b : Int64) :
    (saturatingSub a b).toInt = max (-2 ^ 63) (min (2 ^ 63 - 1) (a.toInt - b.toInt)) := by
  apply Int64.toInt_ofInt_of_le
  · omega
  · omega

theorem toNat_toU64OrMax
    (a : Int64) :
    (toU64OrMax a).toNat = if a.toInt < 0 then 2 ^ 64 - 1 else a.toInt.toNat := by
  have hlt := a.toInt_lt
  rw [toU64OrMax, UInt64.toNat_ofNat', Nat.mod_eq_of_lt]
  split
  · omega
  · omega

theorem toNat_saturatingMul
    (a b : UInt64) :
    (saturatingMul a b).toNat = min (a.toNat * b.toNat) (2 ^ 64 - 1) := by
  rw [saturatingMul, UInt64.toNat_ofNat', Nat.mod_eq_of_lt]
  omega

theorem isFuture_eq_false_iff
    (hnow : 0 ≤ nowMs.toInt) :
    isFuture nowMs evidence = false ↔
      evidence.cachedAtMs.toInt ≤
        if nowMs.toInt + 30000 < 2 ^ 63 then nowMs.toInt + 30000
        else nowMs.toInt + 30000 - 2 ^ 64 := by
  have hlt := nowMs.toInt_lt
  have hsum : (nowMs + 30000).toInt = if nowMs.toInt + 30000 < 2 ^ 63 then nowMs.toInt + 30000
      else nowMs.toInt + 30000 - 2 ^ 64 := by
    have hconst : (30000 : Int64).toInt = 30000 := rfl
    rw [Int64.toInt_add, hconst]
    split
    · rw [Int.bmod_eq_of_le (by omega) (by omega)]
    · rw [Int.bmod_eq_iff (by decide)]
      omega
  rw [isFuture, decide_eq_false_iff_not, Int64.not_lt, Int64.le_iff_toInt_le, hsum]

/-- The dates that the code accepts are the ones that were meant, with two exceptions. -/
theorem accepted_iff
    (hnow : 0 ≤ nowMs.toInt) :
    Accepted nowMs check evidence ↔
      (Fresh nowMs check evidence ∧ ¬ Early nowMs check evidence) ∨
        Ancient nowMs check evidence := by
  have hstale : isStale nowMs check evidence = false ↔
      (toU64OrMax (saturatingSub nowMs evidence.cachedAtMs)).toNat ≤
        (saturatingMul check.maxAgeSeconds 1000).toNat := by
    rw [isStale, decide_eq_false_iff_not, UInt64.not_lt, UInt64.le_iff_toNat_le]
  have hthousand : (1000 : UInt64).toNat = 1000 := rfl
  have hlt := nowMs.toInt_lt
  have hcached := evidence.cachedAtMs.toInt_lt
  have hcached' := evidence.cachedAtMs.le_toInt
  rw [Accepted, isFuture_eq_false_iff hnow, hstale, toNat_toU64OrMax, toInt_saturatingSub,
    toNat_saturatingMul, hthousand, Fresh, Early, Ancient]
  generalize nowMs.toInt = now at hnow hlt ⊢
  generalize evidence.cachedAtMs.toInt = cached at hcached hcached' ⊢
  generalize check.maxAgeSeconds.toNat = seconds
  split <;> split <;> omega

end Dates

section Rows

/-- Rows that pass have new identifiers, all of them different. -/
theorem nodup_of_foldlM_validateCheck
    {network : Network}
    {checks : List Check}
    {ids ids' : List Text}
    (h : checks.foldlM (validateCheck network) ids = .ok ids') :
    (checks.map Check.id).Nodup ∧ ∀ check ∈ checks, check.id ∉ ids := by
  induction checks generalizing ids with
  | nil =>
      simp
  | cons check checks ih =>
      simp only [List.foldlM_cons, except_bind_eq_ok_iff, validateCheck, require_eq_ok_iff,
        Bool.and_eq_true, Bool.not_eq_true', List.contains_eq_mem, decide_eq_false_iff_not, pure,
        Except.pure, Except.ok.injEq] at h
      rcases h with ⟨_, ⟨_, ⟨-, hnew⟩, -, -, -, -, -, -, rfl⟩, h⟩
      rcases ih h with ⟨hnodup, hrest⟩
      constructor
      · rw [List.map_cons, List.nodup_cons]
        refine ⟨?_, hnodup⟩
        rintro hmem
        rcases List.mem_map.mp hmem with ⟨other, hother, heq⟩
        apply hrest other hother
        simp [heq]
      · intro other hother
        rcases List.mem_cons.mp hother with rfl | hother
        · exact hnew
        · intro hmem
          exact hrest other hother (List.mem_append_left _ hmem)

/-- A configuration that passes has different identifiers and counts its required rows. -/
theorem of_validateObservationChecks
    {config : Config}
    (h : validateObservationChecks config = .ok ()) :
    (config.observationChecks.map Check.id).Nodup ∧
      config.requiredRawObserverQuorum.toNat =
        config.observationChecks.countP Check.isRequired := by
  simp only [validateObservationChecks, except_bind_eq_ok_iff, require_eq_ok_iff,
    beq_iff_eq] at h
  rcases h with ⟨ids, hrows, hquorum⟩
  exact ⟨(nodup_of_foldlM_validateCheck hrows).1, hquorum⟩

end Rows

section Entries

variable {isTransaction : List UInt8 → Bool}
variable {nowMs : Int64}
variable {exactRawTransaction : List UInt8}
variable {check : Check}
variable {evidence : Evidence}

@[simp] theorem failWhen_eq_nil_iff
    {fails : Bool}
    {failure : String} :
    failWhen fails failure = [] ↔ fails = false := by
  cases fails with
  | true => simp [failWhen]
  | false => simp [failWhen]

theorem validateHex32Config_isOk_iff
    {value : Text}
    {what : String} :
    (validateHex32Config value what).isOk = true ↔
      value.bytes.length = 64 ∧ ∀ b ∈ value.bytes, (hexValue b).isSome := by
  unfold validateHex32Config require
  split
  · rename_i h
    simpa [Except.isOk, Except.toBool] using h
  · rename_i h
    simpa [Except.isOk, Except.toBool] using h

theorem observedRaw_eq_ok_iff
    {raw : List UInt8} :
    observedRaw evidence = .ok (some raw) ↔ ∃ encoded, evidence.rawTransactionHex = some encoded ∧
      hexDecode encoded "observed raw transaction" = .ok raw := by
  unfold observedRaw
  split
  · simp_all
  · split
    · simp_all
    · simp_all
    · simp_all

theorem exists_observedRaw_iff :
    (∃ raw, observedRaw evidence = .ok raw) ↔ ¬ evidence.Cuts := by
  unfold observedRaw Evidence.Cuts
  split
  · simp_all
  · split
    · simp_all
    · simp_all
    · simp_all

/-- Nothing is wrong with an entry that is sound and has accepted dates. -/
theorem failures_eq_nil_iff
    {raw : Option (List UInt8)}
    (hraw : observedRaw evidence = .ok raw) :
    failures isTransaction nowMs exactRawTransaction check evidence raw = [] ↔
      Sound exactRawTransaction check evidence ∧ Accepted nowMs check evidence := by
  have hbytes : (raw.any (fun raw => raw == exactRawTransaction)) = true ↔
      ∃ encoded, evidence.rawTransactionHex = some encoded ∧
        hexDecode encoded "observed raw transaction" = .ok exactRawTransaction := by
    rw [← observedRaw_eq_ok_iff, hraw]
    cases raw with
    | none => simp
    | some raw => simp
  have hduration : (decide (evidence.completedAtMs < evidence.startedAtMs)) = false ↔
      evidence.startedAtMs.toInt ≤ evidence.completedAtMs.toInt := by
    rw [decide_eq_false_iff_not, Int64.not_lt, Int64.le_iff_toInt_le]
  have hprints : (evidence.certificateChainFingerprintsSha256.flatMap (fun fingerprint =>
      failWhen (!(validateHex32Config fingerprint "observed certificate fingerprint").isOk)
        "invalid certificate fingerprint")) = [] ↔
      ∀ fingerprint ∈ evidence.certificateChainFingerprintsSha256,
        fingerprint.bytes.length = 64 ∧ ∀ b ∈ fingerprint.bytes, (hexValue b).isSome := by
    rw [List.flatMap_eq_nil_iff]
    refine forall₂_congr (fun fingerprint _ => ?_)
    rw [failWhen_eq_nil_iff, Bool.not_eq_false', validateHex32Config_isOk_iff]
  have hpinned : (!check.chainFingerprintsSha256.isEmpty &&
      !evidence.certificateChainFingerprintsSha256.any (fun fingerprint =>
        check.chainFingerprintsSha256.contains fingerprint)) = false ↔
      (check.chainFingerprintsSha256 ≠ [] →
        ∃ fingerprint ∈ evidence.certificateChainFingerprintsSha256,
          fingerprint ∈ check.chainFingerprintsSha256) := by
    rw [Bool.and_eq_false_imp]
    simp
  have hpresent : (check.pinProfile.isSome &&
      evidence.certificateChainFingerprintsSha256.isEmpty) = false ↔
      (check.pinProfile.isSome → evidence.certificateChainFingerprintsSha256 ≠ []) := by
    rw [Bool.and_eq_false_imp]
    simp
  simp only [failures, List.append_eq_nil_iff, failWhen_eq_nil_iff, hduration, hprints, hpinned,
    hpresent, bne_eq_false_iff_eq, Bool.not_eq_false', hbytes]
  constructor
  · rintro ⟨⟨⟨⟨⟨⟨⟨⟨⟨⟨hend, hdur⟩, hfuture⟩, hstale⟩, hprofile⟩, hpr⟩, hpres⟩, hpin⟩, -⟩, hb⟩, hobs⟩
    exact ⟨⟨hend, hprofile, hpr, hpres, hpin, hobs, hb, hdur⟩, hfuture, hstale⟩
  · rintro ⟨⟨hend, hprofile, hpr, hpres, hpin, hobs, hb, hdur⟩, hfuture, hstale⟩
    refine ⟨⟨⟨⟨⟨⟨⟨⟨⟨⟨hend, hdur⟩, hfuture⟩, hstale⟩, hprofile⟩, hpr⟩, hpres⟩, hpin⟩, ?_⟩, hb⟩, hobs⟩
    -- A sound entry holds the exact bytes, so it reports no other transaction.
    have hmatch := hbytes.mpr hb
    cases raw with
    | none =>
        simp [reportsConflict]
    | some raw =>
        simp only [Option.any_some, beq_iff_eq] at hmatch
        simp [reportsConflict, hmatch]

end Entries

section Counting

variable {γ δ η : Type}

theorem mapM_congr_of_mem
    {f g : γ → Except η δ}
    {xs : List γ}
    (h : ∀ x ∈ xs, f x = g x) :
    xs.mapM f = xs.mapM g := by
  induction xs with
  | nil =>
      rfl
  | cons x xs ih =>
      rw [List.mapM_cons, List.mapM_cons, h x List.mem_cons_self,
        ih (fun x' hx' => h x' (List.mem_cons_of_mem x hx'))]

/--
Results that are good only for elements that count: there are at most as many as these, and
as many exactly when each of these has a good result.
-/
theorem countP_of_mapM_eq_ok
    {f : γ → Except η δ}
    {counts : γ → Bool}
    {good : δ → Bool}
    {xs : List γ}
    {ys : List δ}
    (h : xs.mapM f = .ok ys)
    (hgood : ∀ x ∈ xs, ∀ y, f x = .ok y → good y = true → counts x = true) :
    ys.countP good ≤ xs.countP counts ∧
      (xs.countP counts ≤ ys.countP good ↔
        ∀ x ∈ xs, counts x = true → ∃ y, f x = .ok y ∧ good y = true) := by
  rw [mapM_eq_ok_iff] at h
  induction h with
  | nil =>
      simp
  | @cons x y xs ys hx _ ih =>
      rcases ih (fun x' hx' => hgood x' (List.mem_cons_of_mem x hx')) with ⟨hle, hiff⟩
      have hsame : (∃ y', f x = .ok y' ∧ good y' = true) ↔ good y = true := by
        rw [hx]
        simp
      rw [List.forall_mem_cons, ← hiff, hsame]
      cases hy : good y with
      | true =>
          have hcounts := hgood x List.mem_cons_self y hx hy
          simp only [List.countP_cons_of_pos, hy, hcounts]
          constructor
          · omega
          · simp
      | false =>
          rw [List.countP_cons_of_neg (by simp [hy])]
          cases hcounts : counts x with
          | true =>
              rw [List.countP_cons_of_pos hcounts]
              constructor
              · omega
              · simp
                omega
          | false =>
              rw [List.countP_cons_of_neg (by simp [hcounts])]
              simp [hle]

end Counting

section Loop

variable {isTransaction : List UInt8 → Bool}
variable {nowMs : Int64}
variable {exactRawTransaction : List UInt8}
variable {check : Check}
variable {entries : List Evidence}
variable {outcome : Receipt × Bool}

theorem entryOf_eq_some_iff
    (hunique : (entries.map Evidence.checkId).Nodup)
    {id : Text}
    {evidence : Evidence} :
    entryOf entries id = some evidence ↔ evidence ∈ entries ∧ evidence.checkId = id := by
  constructor
  · intro h
    have hid := List.find?_some h
    exact ⟨List.mem_of_find?_eq_some h, by simpa using hid⟩
  · rintro ⟨hmem, rfl⟩
    induction entries with
    | nil =>
        cases hmem
    | cons first entries ih =>
        rw [List.map_cons, List.nodup_cons] at hunique
        rcases List.mem_cons.mp hmem with rfl | hmem
        · simp [entryOf]
        · have hne : first.checkId ≠ evidence.checkId := by
            intro heq
            apply hunique.1
            rw [heq]
            exact List.mem_map_of_mem hmem
          rw [entryOf, List.find?_cons_of_neg (by simpa using hne)]
          exact ih hunique.2 hmem

theorem of_examine_some
    {evidence : Evidence}
    (h : examine isTransaction nowMs exactRawTransaction check (some evidence) = .ok outcome) :
    ∃ raw, observedRaw evidence = .ok raw ∧
      outcome = (receiptOf isTransaction nowMs exactRawTransaction check evidence raw,
        reportsConflict isTransaction exactRawTransaction check evidence raw) := by
  simp only [examine, except_bind_eq_ok_iff, pure, Except.pure, Except.ok.injEq] at h
  rcases h with ⟨raw, hraw, rfl⟩
  exact ⟨raw, hraw, rfl⟩

theorem checkId_of_examine
    {evidence : Option Evidence}
    (h : examine isTransaction nowMs exactRawTransaction check evidence = .ok outcome) :
    outcome.1.checkId = check.id := by
  cases evidence with
  | none =>
      obtain rfl := Except.ok.inj h
      rfl
  | some evidence =>
      rcases of_examine_some h with ⟨raw, -, rfl⟩
      rfl

/-- A row succeeds if it is required and has a sound entry with accepted dates. -/
theorem succeeds_iff
    {evidence : Option Evidence}
    (h : examine isTransaction nowMs exactRawTransaction check evidence = .ok outcome) :
    outcome.1.succeeds = true ↔ check.mode = .require ∧ ∃ e, evidence = some e ∧
      Sound exactRawTransaction check e ∧ Accepted nowMs check e := by
  cases evidence with
  | none =>
      obtain rfl := Except.ok.inj h
      simp [Receipt.succeeds, missingReceipt]
  | some evidence =>
      rcases of_examine_some h with ⟨raw, hraw, rfl⟩
      simp only [Receipt.succeeds, receiptOf, Bool.and_eq_true, beq_iff_eq,
        List.isEmpty_iff, failures_eq_nil_iff hraw, Option.some.injEq, exists_eq_left']

/-- A row that reports a conflict is required and has no sound entry. -/
theorem of_conflict
    {evidence : Option Evidence}
    (h : examine isTransaction nowMs exactRawTransaction check evidence = .ok outcome)
    (hconflict : outcome.2 = true) :
    check.mode = .require ∧ ∀ e, evidence = some e → ¬ Sound exactRawTransaction check e := by
  cases evidence with
  | none =>
      obtain rfl := Except.ok.inj h
      cases hconflict
  | some evidence =>
      rcases of_examine_some h with ⟨raw, hraw, rfl⟩
      simp only [reportsConflict, Bool.and_eq_true, beq_iff_eq, Option.any_eq_true,
        bne_iff_ne] at hconflict
      rcases hconflict with ⟨⟨hmode, -⟩, other, rfl, hne, -⟩
      refine ⟨hmode, ?_⟩
      rintro e he hsound
      obtain rfl := Option.some.inj he
      have hexact := observedRaw_eq_ok_iff.mpr hsound.raw
      rw [hraw] at hexact
      exact hne (Option.some.inj (Except.ok.inj hexact))

/-- The entries of other identifiers stay in the map. -/
theorem entryOf_add
    (progress : Progress)
    {id : Text}
    (hne : outcome.1.checkId ≠ id) :
    entryOf (progress.add outcome).evidenceById id = entryOf progress.evidenceById id := by
  rw [entryOf, entryOf, Progress.add, List.find?_filter]
  congr 1
  funext evidence
  rw [Bool.eq_iff_iff, decide_eq_true_eq, and_iff_right_iff_imp, beq_iff_eq, bne_iff_ne]
  rintro rfl
  exact hne.symm

/-- The loop looks every listed row up in the first map. -/
theorem foldlM_examineNext
    {policy : List Check}
    (hids : (policy.map Check.id).Nodup)
    {progress progress' : Progress} :
    policy.foldlM (examineNext isTransaction nowMs exactRawTransaction) progress =
        .ok progress' ↔
      ∃ outcomes,
        (policy.filter Check.isListed).mapM (fun check =>
          examine isTransaction nowMs exactRawTransaction check
            (entryOf progress.evidenceById check.id)) = .ok outcomes ∧
        outcomes.foldl Progress.add progress = progress' := by
  induction policy generalizing progress with
  | nil =>
      simp [pure, Except.pure]
  | cons check policy ih =>
      rw [List.map_cons, List.nodup_cons] at hids
      rcases hids with ⟨hnew, hids⟩
      rw [List.foldlM_cons]
      cases hlisted : check.isListed with
      | false =>
          rw [examineNext, hlisted, List.filter_cons_of_neg (by simp [hlisted])]
          exact ih hids
      | true =>
          have hlater : ∀ outcome,
              examine isTransaction nowMs exactRawTransaction check
                (entryOf progress.evidenceById check.id) = .ok outcome →
              (policy.filter Check.isListed).mapM (fun check =>
                  examine isTransaction nowMs exactRawTransaction check
                    (entryOf (progress.add outcome).evidenceById check.id)) =
                (policy.filter Check.isListed).mapM (fun check =>
                  examine isTransaction nowMs exactRawTransaction check
                    (entryOf progress.evidenceById check.id)) := by
            intro outcome houtcome
            apply mapM_congr_of_mem
            intro other hother
            rw [entryOf_add]
            rw [checkId_of_examine houtcome]
            intro heq
            apply hnew
            rw [heq]
            exact List.mem_map_of_mem (List.mem_of_mem_filter hother)
          rw [examineNext, hlisted, if_pos rfl, List.filter_cons_of_pos hlisted,
            List.mapM_cons]
          simp only [except_bind_eq_ok_iff, pure, Except.pure, Except.ok.injEq, ih hids]
          constructor
          · rintro ⟨_, ⟨outcome, houtcome, rfl⟩, outcomes, hrest, rfl⟩
            rw [hlater outcome houtcome] at hrest
            exact ⟨outcome :: outcomes, ⟨outcome, houtcome, outcomes, hrest, rfl⟩, rfl⟩
          · rintro ⟨_, ⟨outcome, houtcome, outcomes, hrest, rfl⟩, rfl⟩
            rw [← hlater outcome houtcome] at hrest
            exact ⟨_, ⟨outcome, houtcome, rfl⟩, outcomes, hrest, rfl⟩

/-- What the loop has gathered after some outcomes. -/
theorem foldl_add
    (outcomes : List (Receipt × Bool))
    (progress : Progress) :
    (outcomes.foldl Progress.add progress).evidenceById =
        progress.evidenceById.filter (fun evidence =>
          outcomes.all (fun outcome => evidence.checkId != outcome.1.checkId)) ∧
      (outcomes.foldl Progress.add progress).conflictingRequiredRawObservers =
        progress.conflictingRequiredRawObservers ++
          (outcomes.filter Prod.snd).map (fun outcome => outcome.1.checkId) ∧
      (progress.successfulRequiredRawObservers.toNat +
            outcomes.countP (fun outcome => outcome.1.succeeds) < 2 ^ 32 →
        (outcomes.foldl Progress.add progress).successfulRequiredRawObservers.toNat =
          progress.successfulRequiredRawObservers.toNat +
            outcomes.countP (fun outcome => outcome.1.succeeds)) := by
  induction outcomes generalizing progress with
  | nil =>
      simp
  | cons outcome outcomes ih =>
      rcases ih (progress.add outcome) with ⟨hleft, hconflicts, hcount⟩
      rw [List.foldl_cons]
      refine ⟨?_, ?_, ?_⟩
      · rw [hleft, Progress.add, List.filter_filter]
        simp only [List.all_cons, Bool.and_comm]
      · rw [hconflicts]
        cases hconflict : outcome.2 with
        | true => simp [Progress.add, hconflict]
        | false => simp [Progress.add, hconflict]
      · intro hfits
        have hone : (1 : UInt32).toNat = 1 := rfl
        cases hsucceeds : outcome.1.succeeds with
        | true =>
            rw [List.countP_cons_of_pos (by simpa using hsucceeds)] at hfits ⊢
            have hadd : (progress.add outcome).successfulRequiredRawObservers.toNat =
                progress.successfulRequiredRawObservers.toNat + 1 := by
              rw [Progress.add, hsucceeds, if_pos rfl, UInt32.toNat_add, hone,
                Nat.mod_eq_of_lt (by omega)]
            rw [hadd] at hcount
            rw [hcount (by omega)]
            omega
        | false =>
            rw [List.countP_cons_of_neg (by simp [hsucceeds])] at hfits ⊢
            have hadd : (progress.add outcome).successfulRequiredRawObservers =
                progress.successfulRequiredRawObservers := by
              rw [Progress.add, hsucceeds]
              rfl
            rw [hadd] at hcount
            exact hcount hfits

end Loop

section Exactness

variable (isTransaction : List UInt8 → Bool)
variable (config : Config)
variable (nowMs : Int64)
variable (exactRawTransaction : List UInt8)
variable (entries : List Evidence)

/-- The evidence is taken, and the policy does not fail. -/
def Passes : Prop :=
  ∃ receipts, evaluateObservationEvidence isTransaction nowMs exactRawTransaction
    config.observationChecks config.requiredRawObserverQuorum entries = .ok (receipts, none)

/-- The evidence is as it was meant to be, and an entry is early or has a text that is cut. -/
def RefusesGood : Prop :=
  Meets (Fresh nowMs) config.observationChecks exactRawTransaction entries ∧
    ((∃ evidence ∈ entries, evidence.Cuts) ∨
      ∃ check ∈ config.observationChecks, check.isRequired ∧ ∃ evidence ∈ entries,
        evidence.checkId = check.id ∧ Early nowMs check evidence)

/-- The evidence is as it was meant to be except that some required entries are ancient. -/
def TakesAncient : Prop :=
  (∀ evidence ∈ entries, ¬ evidence.Cuts) ∧
    Meets (fun check evidence => (Fresh nowMs check evidence ∧ ¬ Early nowMs check evidence) ∨
      Ancient nowMs check evidence) config.observationChecks exactRawTransaction entries ∧
    ∃ check ∈ config.observationChecks, check.isRequired ∧ ∃ evidence ∈ entries,
      evidence.checkId = check.id ∧ Ancient nowMs check evidence

variable {isTransaction config nowMs exactRawTransaction entries}

theorem policyFailure_eq_none_iff
    {policy : List Check}
    {quorum : UInt32}
    {progress : Progress} :
    policyFailure policy quorum progress = none ↔
      progress.conflictingRequiredRawObservers = [] ∧
        (0 < policy.countP Check.isRequired →
          quorum.toNat ≤ progress.successfulRequiredRawObservers.toNat) := by
  unfold policyFailure
  split
  · rename_i hconflicts
    simp [hconflicts]
  · rename_i hconflicts
    simp [hconflicts, UInt32.lt_iff_toNat_lt]

/-- What the loop has gathered decides the result. -/
theorem passes_iff_progress :
    Passes isTransaction config nowMs exactRawTransaction entries ↔
      (entries.map Evidence.checkId).Nodup ∧ ∃ progress,
        config.observationChecks.foldlM (examineNext isTransaction nowMs exactRawTransaction)
            ⟨entries, [], 0, []⟩ = .ok progress ∧
          progress.evidenceById = [] ∧ progress.conflictingRequiredRawObservers = [] ∧
            (0 < config.observationChecks.countP Check.isRequired →
              config.requiredRawObserverQuorum.toNat ≤
                progress.successfulRequiredRawObservers.toNat) := by
  simp only [Passes, evaluateObservationEvidence, except_bind_eq_ok_iff, require_eq_ok_iff,
    decide_eq_true_eq, List.isEmpty_iff, pure, Except.pure, Except.ok.injEq, Prod.mk.injEq,
    policyFailure_eq_none_iff]
  constructor
  · rintro ⟨receipts, _, hunique, progress, hfold, _, hleft, -, hnone⟩
    exact ⟨hunique, progress, hfold, hleft, hnone⟩
  · rintro ⟨hunique, progress, hfold, hleft, hnone⟩
    exact ⟨_, (), hunique, progress, hfold, (), hleft, rfl, hnone⟩

theorem isListed_of_isRequired
    {check : Check}
    (h : check.isRequired = true) :
    check.isListed = true := by
  simp only [Check.isRequired, Check.isListed, Bool.and_eq_true, beq_iff_eq, bne_iff_ne] at h ⊢
  rw [h.2]
  exact ⟨h.1, nofun⟩

section Gathered

variable {outcomes : List (Receipt × Bool)}

variable (hmap : (config.observationChecks.filter Check.isListed).mapM (fun check =>
  examine isTransaction nowMs exactRawTransaction check (entryOf entries check.id)) =
    .ok outcomes)

include hmap

/-- No entry is left exactly when each names a listed row. -/
theorem left_eq_nil_iff :
    (outcomes.foldl Progress.add ⟨entries, [], 0, []⟩).evidenceById = [] ↔
      ∀ evidence ∈ entries, ∃ check ∈ config.observationChecks,
        check.isListed ∧ check.id = evidence.checkId := by
  rw [(foldl_add outcomes _).1, List.filter_eq_nil_iff]
  refine forall₂_congr (fun evidence _ => ?_)
  simp only [List.all_eq_true, bne_iff_ne, not_forall, not_not]
  constructor
  · rintro ⟨outcome, hmem, hid⟩
    rcases exists_of_mem_of_mapM_eq_ok hmap hmem with ⟨check, hcheck, hexamine⟩
    rcases List.mem_filter.mp hcheck with ⟨hcheck, hlisted⟩
    exact ⟨check, hcheck, hlisted, (checkId_of_examine hexamine).symm.trans hid.symm⟩
  · rintro ⟨check, hcheck, hlisted, hid⟩
    have hmem := List.mem_filter.mpr ⟨hcheck, hlisted⟩
    rcases List.mem_iff_getElem?.mp hmem with ⟨i, hi⟩
    rcases getElem?_of_mapM_eq_ok hmap hi with ⟨outcome, houtcome, hexamine⟩
    exact ⟨outcome, List.mem_of_getElem? houtcome,
      hid.symm.trans (checkId_of_examine hexamine).symm⟩

/-- The quorum is reached exactly when every required row succeeds. -/
theorem quorum_le_iff
    (hquorum : config.requiredRawObserverQuorum.toNat =
      config.observationChecks.countP Check.isRequired) :
    (0 < config.observationChecks.countP Check.isRequired →
        config.requiredRawObserverQuorum.toNat ≤ (outcomes.foldl Progress.add
          ⟨entries, [], 0, []⟩).successfulRequiredRawObservers.toNat) ↔
      ∀ check ∈ config.observationChecks, check.isRequired → ∃ evidence,
        entryOf entries check.id = some evidence ∧ Sound exactRawTransaction check evidence ∧
          Accepted nowMs check evidence := by
  have hcount : (config.observationChecks.filter Check.isListed).countP Check.isRequired =
      config.observationChecks.countP Check.isRequired := by
    rw [List.countP_filter]
    apply List.countP_congr
    intro check _
    rw [Bool.and_eq_true, and_iff_left_iff_imp]
    exact isListed_of_isRequired
  have hmode : ∀ check : Check, check.isListed = true →
      (check.isRequired = true ↔ check.mode = .require) := by
    intro check hlisted
    simp only [Check.isListed, Check.isRequired, Bool.and_eq_true, beq_iff_eq] at hlisted ⊢
    simp [hlisted.1]
  have hspec := countP_of_mapM_eq_ok hmap
    (fun check hcheck outcome hexamine hgood =>
      (hmode check (List.mem_filter.mp hcheck).2).mpr ((succeeds_iff hexamine).mp hgood).1)
  rw [hcount] at hspec
  rcases hspec with ⟨hle, hall⟩
  have hfits := config.requiredRawObserverQuorum.toNat_lt
  have hzero : (0 : UInt32).toNat = 0 := rfl
  have hreached := (foldl_add outcomes ⟨entries, [], 0, []⟩).2.2 (by
    simp only [hzero]
    omega)
  simp only [hzero, Nat.zero_add] at hreached
  have hneeds : (0 < config.observationChecks.countP Check.isRequired →
      config.requiredRawObserverQuorum.toNat ≤ (outcomes.foldl Progress.add
        ⟨entries, [], 0, []⟩).successfulRequiredRawObservers.toNat) ↔
      config.observationChecks.countP Check.isRequired ≤
        outcomes.countP (fun outcome => outcome.1.succeeds) := by
    rw [hreached, hquorum]
    omega
  rw [hneeds, hall]
  constructor
  · intro h check hcheck hrequired
    have hmem := List.mem_filter.mpr ⟨hcheck, isListed_of_isRequired hrequired⟩
    rcases h check hmem hrequired with ⟨outcome, hexamine, hgood⟩
    exact ((succeeds_iff hexamine).mp hgood).2
  · intro h check hmem hrequired
    rcases List.mem_filter.mp hmem with ⟨hcheck, hlisted⟩
    rcases exists_ok_of_mem_of_mapM_eq_ok hmap hmem with ⟨outcome, hexamine⟩
    exact ⟨outcome, hexamine, (succeeds_iff hexamine).mpr
      ⟨(hmode check hlisted).mp hrequired, h check hcheck hrequired⟩⟩

/-- Where every required row has a sound entry, no row reports a conflict. -/
theorem conflicts_eq_nil
    (h : ∀ check ∈ config.observationChecks, check.isRequired → ∃ evidence,
      entryOf entries check.id = some evidence ∧ Sound exactRawTransaction check evidence) :
    (outcomes.foldl Progress.add
      ⟨entries, [], 0, []⟩).conflictingRequiredRawObservers = [] := by
  rw [(foldl_add outcomes _).2.1, List.nil_append, List.map_eq_nil_iff, List.filter_eq_nil_iff]
  intro outcome hmem hconflict
  rcases exists_of_mem_of_mapM_eq_ok hmap hmem with ⟨check, hcheck, hexamine⟩
  rcases List.mem_filter.mp hcheck with ⟨hcheck, hlisted⟩
  rcases of_conflict hexamine hconflict with ⟨hmode, hunsound⟩
  have hrequired : check.isRequired = true := by
    simp only [Check.isListed, Check.isRequired, Bool.and_eq_true, beq_iff_eq] at hlisted ⊢
    exact ⟨hlisted.1, hmode⟩
  rcases h check hcheck hrequired with ⟨evidence, hentry, hsound⟩
  exact hunsound evidence hentry hsound

end Gathered

/-- Evidence passes where it is as meant, with dates that are accepted and texts not cut. -/
theorem passes_iff
    (hids : (config.observationChecks.map Check.id).Nodup)
    (hquorum : config.requiredRawObserverQuorum.toNat =
      config.observationChecks.countP Check.isRequired) :
    Passes isTransaction config nowMs exactRawTransaction entries ↔
      Meets (Accepted nowMs) config.observationChecks exactRawTransaction entries ∧
        ∀ evidence ∈ entries, ¬ evidence.Cuts := by
  rw [passes_iff_progress]
  constructor
  · rintro ⟨hunique, progress, hfold, hleft, -, hreached⟩
    rcases (foldlM_examineNext hids).mp hfold with ⟨outcomes, hmap, rfl⟩
    have hlisted := (left_eq_nil_iff hmap).mp hleft
    have hrequired := (quorum_le_iff hmap hquorum).mp hreached
    refine ⟨⟨hunique, hlisted, ?_⟩, ?_⟩
    · intro check hcheck hreq
      rcases hrequired check hcheck hreq with ⟨evidence, hentry, hsound⟩
      rcases (entryOf_eq_some_iff hunique).mp hentry with ⟨hmem, hid⟩
      exact ⟨evidence, hmem, hid, hsound⟩
    · intro evidence hmem
      rcases hlisted evidence hmem with ⟨check, hcheck, hlist, hid⟩
      have hentry := (entryOf_eq_some_iff hunique).mpr ⟨hmem, hid.symm⟩
      rcases exists_ok_of_mem_of_mapM_eq_ok hmap (List.mem_filter.mpr ⟨hcheck, hlist⟩) with
        ⟨outcome, hexamine⟩
      rw [hentry] at hexamine
      rcases of_examine_some hexamine with ⟨raw, hraw, -⟩
      exact exists_observedRaw_iff.mp ⟨raw, hraw⟩
  · rintro ⟨⟨hunique, hlisted, hrequired⟩, hcuts⟩
    have hexamined : ∀ check ∈ config.observationChecks.filter Check.isListed, ∃ outcome,
        examine isTransaction nowMs exactRawTransaction check (entryOf entries check.id) =
          .ok outcome := by
      intro check _
      cases hentry : entryOf entries check.id with
      | none =>
          exact ⟨_, rfl⟩
      | some evidence =>
          have hmem := ((entryOf_eq_some_iff hunique).mp hentry).1
          rcases exists_observedRaw_iff.mpr (hcuts evidence hmem) with ⟨raw, hraw⟩
          rw [examine, hraw]
          exact ⟨_, rfl⟩
    rcases exists_mapM_eq_ok hexamined with ⟨outcomes, hmap⟩
    have hentries : ∀ check ∈ config.observationChecks, check.isRequired → ∃ evidence,
        entryOf entries check.id = some evidence ∧ Sound exactRawTransaction check evidence ∧
          Accepted nowMs check evidence := by
      intro check hcheck hreq
      rcases hrequired check hcheck hreq with ⟨evidence, hmem, hid, hsound⟩
      exact ⟨evidence, (entryOf_eq_some_iff hunique).mpr ⟨hmem, hid⟩, hsound⟩
    refine ⟨hunique, _, (foldlM_examineNext hids).mpr ⟨outcomes, hmap, rfl⟩,
      (left_eq_nil_iff hmap).mpr hlisted, conflicts_eq_nil hmap ?_,
      (quorum_le_iff hmap hquorum).mpr hentries⟩
    intro check hcheck hreq
    rcases hentries check hcheck hreq with ⟨evidence, hentry, hsound, -⟩
    exact ⟨evidence, hentry, hsound⟩

/--
The observation policy.  With a valid configuration and a clock that is not negative, evidence
passes exactly when it is as it was meant to be, if and only if it is not refused for a date
after the present or a text that is cut, and does not pass with an age that saturates.
-/
theorem observation_policy_iff
    (hvalid : validateObservationChecks config = .ok ())
    (hnow : 0 ≤ nowMs.toInt) :
    (Passes isTransaction config nowMs exactRawTransaction entries ↔
        Meets (Fresh nowMs) config.observationChecks exactRawTransaction entries) ↔
      ¬ RefusesGood config nowMs exactRawTransaction entries ∧
        ¬ TakesAncient config nowMs exactRawTransaction entries := by
  rcases of_validateObservationChecks hvalid with ⟨hids, hquorum⟩
  have hdates : Accepted nowMs = fun check evidence =>
      (Fresh nowMs check evidence ∧ ¬ Early nowMs check evidence) ∨
        Ancient nowMs check evidence := by
    funext check evidence
    exact propext (accepted_iff hnow)
  have hsame : ∀ {check evidence evidence'}, (entries.map Evidence.checkId).Nodup →
      evidence ∈ entries → evidence.checkId = check → evidence' ∈ entries →
        evidence'.checkId = check → evidence' = evidence := by
    intro check evidence evidence' hunique hmem hid hmem' hid'
    have hentry := (entryOf_eq_some_iff hunique).mpr ⟨hmem, hid⟩
    have hentry' := (entryOf_eq_some_iff hunique).mpr ⟨hmem', hid'⟩
    rw [hentry] at hentry'
    exact (Option.some.inj hentry').symm
  have hnotFresh : ∀ {check evidence}, Ancient nowMs check evidence →
      ¬ Fresh nowMs check evidence := by
    rintro check evidence ⟨hold, -⟩ ⟨-, hage⟩
    omega
  rw [passes_iff hids hquorum, hdates]
  constructor
  · intro h
    constructor
    · rintro ⟨hfresh,
        ⟨evidence, hmem, hcut⟩ | ⟨check, hcheck, hreq, evidence, hmem, hid, hearly⟩⟩
      · exact (h.mpr hfresh).2 evidence hmem hcut
      · rcases (h.mpr hfresh).1.required check hcheck hreq with ⟨other, hother, hid', -, haccepted⟩
        obtain rfl := hsame hfresh.unique hmem hid hother hid'
        rcases hfresh.required check hcheck hreq with ⟨third, hthird, hid'', -, hfresh'⟩
        obtain rfl := hsame hfresh.unique hother hid' hthird hid''
        rcases haccepted with ⟨-, hnot⟩ | hancient
        · exact hnot hearly
        · exact hnotFresh hancient hfresh'
    · rintro ⟨hcuts, hmeets, check, hcheck, hreq, evidence, hmem, hid, hancient⟩
      have hfresh := h.mp ⟨hmeets, hcuts⟩
      rcases hfresh.required check hcheck hreq with ⟨other, hother, hid', -, hfresh'⟩
      obtain rfl := hsame hfresh.unique hmem hid hother hid'
      exact hnotFresh hancient hfresh'
  · rintro ⟨hrefuses, htakes⟩
    constructor
    · rintro ⟨hmeets, hcuts⟩
      refine ⟨hmeets.unique, hmeets.listed, ?_⟩
      intro check hcheck hreq
      rcases hmeets.required check hcheck hreq with ⟨evidence, hmem, hid, hsound, hdate⟩
      rcases hdate with ⟨hfresh, -⟩ | hancient
      · exact ⟨evidence, hmem, hid, hsound, hfresh⟩
      · exact absurd ⟨hcuts, hmeets, check, hcheck, hreq, evidence, hmem, hid, hancient⟩ htakes
    · intro hfresh
      refine ⟨⟨hfresh.unique, hfresh.listed, ?_⟩, ?_⟩
      · intro check hcheck hreq
        rcases hfresh.required check hcheck hreq with ⟨evidence, hmem, hid, hsound, hdate⟩
        refine ⟨evidence, hmem, hid, hsound, Or.inl ⟨hdate, ?_⟩⟩
        intro hearly
        exact hrefuses ⟨hfresh, Or.inr ⟨check, hcheck, hreq, evidence, hmem, hid, hearly⟩⟩
      · intro evidence hmem hcut
        exact hrefuses ⟨hfresh, Or.inl ⟨evidence, hmem, hcut⟩⟩

end Exactness

namespace Sample

/-- A custom observer that is required. -/
def observer : Check where
  id := Text.lit "observer"
  kind := .rawTransactionApi
  endpoint := some (Text.lit "https://observer")
  mode := .require
  pinProfile := none
  chainFingerprintsSha256 := [toHex (List.replicate 32 0)]
  maxAgeSeconds := 120

def config : Config where
  network := .signet
  observationChecks := [observer]
  requiredRawObserverQuorum := 1

/-- Its entry for a transaction, cached at some time. -/
def dated (cachedAtMs : Int64) : Evidence where
  checkId := Text.lit "observer"
  endpoint := some (Text.lit "https://observer")
  result := .observed
  startedAtMs := 900
  completedAtMs := 950
  cachedAtMs := cachedAtMs
  certificateProfile := none
  certificateChainFingerprintsSha256 := [toHex (List.replicate 32 0)]
  rawTransactionHex := some (Text.lit "0102")
  detail := none

theorem config_valid :
    validateObservationChecks config = .ok () := by
  decide +kernel

theorem hexDecode_raw :
    hexDecode (Text.lit "0102") "observed raw transaction" = .ok [1, 2] := by
  decide +kernel

theorem dated_not_cut
    (cachedAtMs : Int64) :
    ¬ (dated cachedAtMs).Cuts := by
  rintro ⟨encoded, hencoded, hcut⟩
  obtain rfl := Option.some.inj hencoded
  rw [hexDecode_raw] at hcut
  cases hcut

theorem dated_meets
    {cachedAtMs : Int64}
    (hfresh : Fresh 1000 observer (dated cachedAtMs)) :
    Meets (Fresh 1000) config.observationChecks [1, 2] [dated cachedAtMs] := by
  have hprint : (toHex (List.replicate 32 0)).bytes.length = 64 ∧
      ∀ b ∈ (toHex (List.replicate 32 0)).bytes, (hexValue b).isSome := by
    decide +kernel
  refine ⟨by simp, ?_, ?_⟩
  · intro evidence hmem
    obtain rfl := List.mem_singleton.mp hmem
    exact ⟨observer, List.mem_singleton_self _, rfl, rfl⟩
  · intro check hcheck _
    obtain rfl := List.mem_singleton.mp hcheck
    refine ⟨_, List.mem_singleton_self _, rfl, ⟨rfl, rfl, ?_, nofun, ?_, rfl, ?_, ?_⟩, hfresh⟩
    · intro fingerprint hmem
      obtain rfl := List.mem_singleton.mp hmem
      exact hprint
    · intro _
      exact ⟨_, List.mem_singleton_self _, List.mem_singleton_self _⟩
    · exact ⟨_, rfl, hexDecode_raw⟩
    · show (900 : Int64).toInt ≤ (950 : Int64).toInt
      decide

/-- An entry of this millisecond passes. -/
theorem present_passes :
    Passes (fun _ => false) config 1000 [1, 2] [dated 1000] := by
  have hfresh : Fresh 1000 observer (dated 1000) := by
    constructor
    · decide
    · decide
  refine ((observation_policy_iff config_valid (by decide)).mpr ⟨?_, ?_⟩).mpr
    (dated_meets hfresh)
  · rintro ⟨-, ⟨evidence, hmem, hcut⟩ | ⟨check, hcheck, -, evidence, hmem, -, hearly⟩⟩
    · obtain rfl := List.mem_singleton.mp hmem
      exact dated_not_cut _ hcut
    · obtain rfl := List.mem_singleton.mp hmem
      rcases hearly with ⟨hlate, -⟩ | ⟨hclock, -⟩
      · exact absurd hlate (by decide)
      · exact absurd hclock (by decide)
  · rintro ⟨-, -, check, hcheck, -, evidence, hmem, -, hancient⟩
    obtain rfl := List.mem_singleton.mp hmem
    obtain rfl := List.mem_singleton.mp hcheck
    exact absurd hancient.2.1 (by decide)

/-- An entry of the next millisecond is refused. -/
theorem future_is_stale :
    ¬ ∀ (isTransaction : List UInt8 → Bool) (config : Config) (nowMs : Int64)
        (exactRawTransaction : List UInt8) (entries : List Evidence),
      validateObservationChecks config = .ok () → 0 ≤ nowMs.toInt →
        (Passes isTransaction config nowMs exactRawTransaction entries ↔
          Meets (Fresh nowMs) config.observationChecks exactRawTransaction entries) := by
  intro h
  have hfresh : Fresh 1000 observer (dated 1001) := by
    constructor
    · decide
    · decide
  have hpasses := (h (fun _ => false) config 1000 [1, 2] [dated 1001] config_valid
    (by decide)).mpr (dated_meets hfresh)
  rcases of_validateObservationChecks config_valid with ⟨hids, hquorum⟩
  rcases ((passes_iff hids hquorum).mp hpasses).1.required observer (List.mem_singleton_self _)
    rfl with ⟨evidence, hmem, -, -, -, hstale⟩
  obtain rfl := List.mem_singleton.mp hmem
  exact absurd hstale (by decide +kernel)

end Sample

end Observation

end OpenCsv
