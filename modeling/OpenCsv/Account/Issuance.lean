import OpenCsv.Cbf.Block
import OpenCsv.Ffi.Wallet
import OpenCsv.Lib.Decimal

/-!
# Production issuance authorizations

A production mint needs an envelope signed by a threshold of administrative keys
under a public policy.  `verifyProductionMintAuthorization` checks the policy, the
exact recipient and amounts, the supply transition, the validity window, the
identity of the envelope and its signatures.

Curve arithmetic, URL parsing and the text of outpoints live outside the
repository and are the fields of `IssuanceEnv`.

**Results.** `verifyProductionMintAuthorization_spec` says what a verified
authorization has: an exact supply transition under the policy's cap, and valid
signatures of distinct policy keys, at least the threshold and at least two.
-/

namespace OpenCsv

/-- What the issuance checks call outside the repository. -/
structure IssuanceEnv where
  sha256 : Sha256
  json : JsonText
  /-- The compressed encoding of the public key a byte string stands for. -/
  publicKey : List UInt8 → Option (List UInt8)
  /-- Is a compact signature well formed? -/
  isSignature : Bytes 64 → Bool
  /-- The low-S form of a signature. -/
  normalizeS : Bytes 64 → Bytes 64
  /-- ECDSA verification of a signature over a digest under a compressed key. -/
  verifyEcdsa : Bytes 32 → Bytes 64 → List UInt8 → Bool
  /-- The scheme of a URL, and whether it names a host. -/
  url : Text → Option (Text × Bool)
  outpointFromStr : Text → Option OutPoint
  outpointToString : OutPoint → Text

/-- Stable failure of the policy and authorization verifier. -/
structure ValidationError where
  code : Text
  message : Text
deriving DecidableEq

def ValidationError.new (code message : String) : ValidationError :=
  ⟨Text.lit code, Text.lit message⟩

/-- Public policy for one production issuer's supply authority. -/
structure ProductionIssuancePolicy where
  formatVersion : UInt32
  policyVersion : UInt64
  deploymentId : Text
  registryVersion : UInt64
  assetId : Text
  authorityPublicKeys : List Text
  signatureThreshold : UInt8
  maxAuthorizationBaseUnits : UInt64
  maxCumulativeSupplyBaseUnits : UInt64
  maxAuthorizationLifetimeSeconds : UInt64
  validFromUnixSeconds : UInt64
  expiresAtUnixSeconds : UInt64
  sourceRevision : Text
  approvalReceipts : List Text
  commitmentSha256 : Text
deriving DecidableEq

structure ProductionAuthoritySignature where
  authorityPublicKey : Text
  signatureCompact : Text
deriving DecidableEq

structure ProductionMintAuthorization where
  formatVersion : UInt32
  authorizationIdSha256 : Text
  deploymentId : Text
  registryCommitmentSha256 : Text
  issuancePolicyCommitmentSha256 : Text
  assetId : Text
  toOwner : Text
  amounts : List UInt64
  fundingOutpoint : Text
  sequence : UInt64
  supplyBeforeBaseUnits : UInt64
  supplyAfterBaseUnits : UInt64
  notBeforeUnixSeconds : UInt64
  expiresAtUnixSeconds : UInt64
  approvalReceipts : List Text
  signatures : List ProductionAuthoritySignature
deriving DecidableEq

def productionIssuancePolicyFormatVersion : UInt32 := 1
def productionMintAuthorizationFormatVersion : UInt32 := 1

section Payloads

variable (env : IssuanceEnv)

private def strings (texts : List Text) : Json :=
  .arr (texts.map .str)

/-- What the commitment of a policy covers. -/
def ProductionIssuancePolicy.payload (policy : ProductionIssuancePolicy) : Json :=
  .obj [
    ("domain", .str (Text.lit "OpenCSV-production-issuance-policy-v1")),
    ("format_version", .num policy.formatVersion.toNat),
    ("policy_version", .num policy.policyVersion.toNat),
    ("deployment_id", .str policy.deploymentId),
    ("registry_version", .num policy.registryVersion.toNat),
    ("asset_id", .str policy.assetId),
    ("authority_public_keys", strings policy.authorityPublicKeys),
    ("signature_threshold", .num policy.signatureThreshold.toNat),
    ("max_authorization_base_units", .num policy.maxAuthorizationBaseUnits.toNat),
    ("max_cumulative_supply_base_units", .num policy.maxCumulativeSupplyBaseUnits.toNat),
    ("max_authorization_lifetime_seconds", .num policy.maxAuthorizationLifetimeSeconds.toNat),
    ("valid_from_unix_seconds", .num policy.validFromUnixSeconds.toNat),
    ("expires_at_unix_seconds", .num policy.expiresAtUnixSeconds.toNat),
    ("source_revision", .str policy.sourceRevision),
    ("approval_receipts", strings policy.approvalReceipts)]

def productionIssuancePolicyCommitment (policy : ProductionIssuancePolicy) : Text :=
  toHex (env.sha256 (env.json.print policy.payload).bytes).toList

/-- What the signatures of an authorization cover. -/
def ProductionMintAuthorization.payload (authorization : ProductionMintAuthorization) : Json :=
  .obj [
    ("domain", .str (Text.lit "OpenCSV-production-mint-authorization-v1")),
    ("format_version", .num authorization.formatVersion.toNat),
    ("deployment_id", .str authorization.deploymentId),
    ("registry_commitment_sha256", .str authorization.registryCommitmentSha256),
    ("issuance_policy_commitment_sha256", .str authorization.issuancePolicyCommitmentSha256),
    ("asset_id", .str authorization.assetId),
    ("to_owner", .str authorization.toOwner),
    ("amounts", .arr (authorization.amounts.map (fun amount => .num amount.toNat))),
    ("funding_outpoint", .str authorization.fundingOutpoint),
    ("sequence", .num authorization.sequence.toNat),
    ("supply_before_base_units", .num authorization.supplyBeforeBaseUnits.toNat),
    ("supply_after_base_units", .num authorization.supplyAfterBaseUnits.toNat),
    ("not_before_unix_seconds", .num authorization.notBeforeUnixSeconds.toNat),
    ("expires_at_unix_seconds", .num authorization.expiresAtUnixSeconds.toNat),
    ("approval_receipts", strings authorization.approvalReceipts)]

def productionMintAuthorizationDigest (authorization : ProductionMintAuthorization) : Bytes 32 :=
  env.sha256 (env.json.print authorization.payload).bytes

end Payloads

section Checks

variable (env : IssuanceEnv)

/-- The error codes of the verifier. -/
private def invalidPolicy : String := "invalid_production_issuance_policy"
private def notAuthorized : String := "production_issuance_not_authorized"
private def limitExceeded : String := "production_issuance_limit_exceeded"

/-- Does a text contain another one? -/
def Text.contains (s t : Text) : Bool :=
  (List.range (s.bytes.length + 1)).any (fun i => t.bytes.isPrefixOf (s.bytes.drop i))

def isAsciiLowercase (b : UInt8) : Bool :=
  0x61 ≤ b && b ≤ 0x7A

/-- A lowercase hex digit. -/
def isLowerHexDigit (b : UInt8) : Bool :=
  isDecimalDigit b || (0x61 ≤ b && b ≤ 0x66)

def validateMainnetDeployment (deploymentId : Text) : Except ValidationError Unit :=
  require
    (8 ≤ deploymentId.bytes.length && deploymentId.bytes.length ≤ 96 &&
      deploymentId.bytes.all (fun b => isAsciiLowercase b || isDecimalDigit b || b == 0x2D) &&
        !deploymentId.contains (Text.lit "test") && !deploymentId.contains (Text.lit "signet") &&
          !deploymentId.contains (Text.lit "regtest"))
    (.new invalidPolicy
      "production issuance deployment is not a valid non-test mainnet namespace")

def validateHex32 (value : Text) (label : String) : Except ValidationError Unit :=
  require (value.bytes.length == 64 && value.bytes.all isLowerHexDigit)
    ⟨Text.lit invalidPolicy, Text.lit label ++ Text.lit " must be 32-byte lowercase hex"⟩

def validateSourceRevision (sourceRevision : Text) : Except ValidationError Unit :=
  require
    ((sourceRevision.bytes.length == 40 || sourceRevision.bytes.length == 64) &&
      sourceRevision.bytes.all isLowerHexDigit)
    (.new invalidPolicy "production issuance source revision must be a lowercase Git SHA")

/-- Every receipt is an HTTPS URL not seen before. -/
def validateReceiptUrls
    (label code : String) :
    List Text → List Text → Except ValidationError Unit
  | _, [] => .ok ()
  | seen, receipt :: receipts => do
      let (scheme, host) ← okOr (env.url receipt)
        ⟨Text.lit code, Text.lit label ++ Text.lit " receipt is not a valid URL"⟩
      require (scheme == Text.lit "https" && host && !seen.contains receipt)
        ⟨Text.lit code, Text.lit label ++ Text.lit " receipts must be unique HTTPS URLs"⟩
      validateReceiptUrls label code (receipt :: seen) receipts

def validateReceipts
    (receipts : List Text)
    (label code : String) : Except ValidationError Unit := do
  require (!receipts.isEmpty)
    ⟨Text.lit code, Text.lit label ++ Text.lit " requires at least one public approval receipt"⟩
  validateReceiptUrls env label code [] receipts

/-- The canonical keys of a policy, in strictly increasing order of their texts. -/
def validateAuthorityKeys :
    Option Text → List Text → Except ValidationError (List (List UInt8))
  | _, [] => .ok []
  | previous, encoded :: rest => do
      let bytes ← (fromHex encoded).mapError (fun error =>
        ⟨Text.lit invalidPolicy, Text.lit "production issuance authority key: " ++ error⟩)
      let canonical ← okOr (env.publicKey bytes)
        (.new invalidPolicy "production issuance authority key is not a secp256k1 public key")
      require (canonical == bytes && encoded == toHex canonical)
        (.new invalidPolicy
          "production issuance authority keys must use lowercase compressed canonical encoding")
      require (previous.all (fun p => !encoded.le p))
        (.new invalidPolicy "production issuance authority keys must be unique and sorted")
      let keys ← validateAuthorityKeys (some encoded) rest
      return canonical :: keys

def validateProductionIssuancePolicy
    (policy : ProductionIssuancePolicy)
    (expectedDeploymentId : Text)
    (expectedRegistryVersion : UInt64)
    (expectedAssetId expectedPolicyCommitment : Text) : Except ValidationError Unit := do
  require (policy.formatVersion == productionIssuancePolicyFormatVersion)
    (.new invalidPolicy "unsupported production issuance policy format version")
  require (policy.policyVersion != 0)
    (.new invalidPolicy "production issuance policy version must be nonzero")
  validateMainnetDeployment policy.deploymentId
  require (policy.deploymentId == expectedDeploymentId)
    (.new invalidPolicy "production issuance policy belongs to another deployment")
  require (policy.registryVersion != 0 && policy.registryVersion == expectedRegistryVersion)
    (.new invalidPolicy "production issuance policy belongs to another registry version")
  validateHex32 policy.assetId "production issuance asset id"
  require (policy.assetId == expectedAssetId)
    (.new invalidPolicy "production issuance policy belongs to another asset")
  require (2 ≤ policy.authorityPublicKeys.length)
    (.new invalidPolicy "production issuance requires at least two distinct authority keys")
  let keys ← validateAuthorityKeys env none policy.authorityPublicKeys
  require
    (2 ≤ policy.signatureThreshold.toNat && policy.signatureThreshold.toNat ≤ keys.dedup.length)
    (.new invalidPolicy
      "production issuance signature threshold must be between two and the authority-key count")
  require
    (policy.maxAuthorizationBaseUnits != 0 && policy.maxCumulativeSupplyBaseUnits != 0 &&
      policy.maxAuthorizationBaseUnits ≤ policy.maxCumulativeSupplyBaseUnits)
    (.new invalidPolicy "production issuance amount limits are inconsistent")
  require (policy.maxAuthorizationLifetimeSeconds != 0)
    (.new invalidPolicy "production issuance authorization lifetime must be nonzero")
  require (policy.validFromUnixSeconds < policy.expiresAtUnixSeconds)
    (.new invalidPolicy "production issuance policy validity window is empty")
  validateSourceRevision policy.sourceRevision
  validateReceipts env policy.approvalReceipts "production issuance policy" invalidPolicy
  validateHex32 policy.commitmentSha256 "production issuance policy commitment"
  validateHex32 expectedPolicyCommitment "expected production issuance policy commitment"
  require (policy.commitmentSha256 == expectedPolicyCommitment)
    (.new invalidPolicy
      "production issuance policy does not match the commitment authorized by the containing release")
  require (productionIssuancePolicyCommitment env policy == policy.commitmentSha256)
    (.new invalidPolicy
      "production issuance policy commitment does not match its exact payload")

def productionMintFundingOutpoint
    (authorization : ProductionMintAuthorization) : Except ValidationError OutPoint := do
  let outpoint ← okOr (env.outpointFromStr authorization.fundingOutpoint)
    (.new notAuthorized "production mint funding outpoint is malformed")
  require (env.outpointToString outpoint == authorization.fundingOutpoint)
    (.new notAuthorized "production mint funding outpoint is not canonical")
  return outpoint

/-- One signature: a permitted key, in increasing order, over the exact digest. -/
def verifyAuthoritySignature
    (permitted : List Text)
    (digest : Bytes 32)
    (previous : Option Text)
    (signed : ProductionAuthoritySignature) : Except ValidationError Unit := do
  require (previous.all (fun p => !signed.authorityPublicKey.le p))
    (.new notAuthorized "production mint signatures must be unique and sorted by authority key")
  require (permitted.contains signed.authorityPublicKey)
    (.new notAuthorized "production mint signature uses an unauthorized key")
  let publicKeyBytes ← (fromHex signed.authorityPublicKey).mapError (fun _ =>
    .new notAuthorized "production mint authority key is malformed")
  let publicKey ← okOr (env.publicKey publicKeyBytes)
    (.new notAuthorized "production mint authority key is malformed")
  let signature ←
    (fromHexArray 64 signed.signatureCompact "production mint authority signature").mapError
      (fun error => ⟨Text.lit notAuthorized, error⟩)
  require (env.isSignature signature)
    (.new notAuthorized "production mint authority signature is malformed")
  require (env.normalizeS signature == signature)
    (.new notAuthorized "production mint authority signature is not low-S")
  require (env.verifyEcdsa digest signature publicKey)
    (.new notAuthorized "production mint authority signature does not verify")

def verifyAuthoritySignatures
    (permitted : List Text)
    (digest : Bytes 32) :
    Option Text → List ProductionAuthoritySignature → Except ValidationError Unit
  | _, [] => .ok ()
  | previous, signed :: rest => do
      verifyAuthoritySignature env permitted digest previous signed
      verifyAuthoritySignatures permitted digest (some signed.authorityPublicKey) rest

/-- The sum of the outputs, checked. -/
def mintTotal (amounts : List UInt64) : Except ValidationError UInt64 :=
  amounts.foldlM (fun sum amount =>
    okOr (checkedAdd sum amount) (.new limitExceeded "production mint amount overflow")) 0

def verifyProductionMintAuthorization
    (policy : ProductionIssuancePolicy)
    (authorization : ProductionMintAuthorization)
    (expectedRegistryVersion : UInt64)
    (expectedPolicyCommitment expectedToOwner : Text)
    (expectedAmounts : List UInt64)
    (nowUnixSeconds : UInt64) : Except ValidationError (Bytes 32) := do
  validateProductionIssuancePolicy env policy authorization.deploymentId expectedRegistryVersion
    authorization.assetId expectedPolicyCommitment
  require (authorization.formatVersion == productionMintAuthorizationFormatVersion)
    (.new notAuthorized "unsupported production mint authorization format version")
  require (authorization.issuancePolicyCommitmentSha256 == policy.commitmentSha256)
    (.new notAuthorized "mint authorization belongs to another issuance policy")
  validateHex32 authorization.toOwner "production mint recipient owner"
  require (authorization.toOwner == expectedToOwner && authorization.amounts == expectedAmounts)
    (.new notAuthorized "mint authorization does not match the exact recipient and amounts")
  require
    (!authorization.amounts.isEmpty && authorization.amounts.length ≤ 2 &&
      !authorization.amounts.contains 0)
    (.new notAuthorized "production mint authorization requires one or two positive outputs")
  let _ ← productionMintFundingOutpoint env authorization
  let total ← mintTotal authorization.amounts
  require (total ≤ policy.maxAuthorizationBaseUnits)
    (.new limitExceeded "production mint exceeds the per-authorization supply limit")
  require (authorization.sequence != 0)
    (.new notAuthorized "production mint authorization sequence must be nonzero")
  let expectedSupplyAfter ← okOr (checkedAdd authorization.supplyBeforeBaseUnits total)
    (.new limitExceeded "production cumulative supply overflow")
  require (expectedSupplyAfter == authorization.supplyAfterBaseUnits)
    (.new notAuthorized "production mint authorization supply transition is inconsistent")
  require (authorization.supplyAfterBaseUnits ≤ policy.maxCumulativeSupplyBaseUnits)
    (.new limitExceeded "production mint exceeds the cumulative supply limit")
  require
    (policy.validFromUnixSeconds ≤ authorization.notBeforeUnixSeconds &&
      authorization.expiresAtUnixSeconds ≤ policy.expiresAtUnixSeconds &&
        authorization.notBeforeUnixSeconds < authorization.expiresAtUnixSeconds)
    (.new notAuthorized "production mint authorization is outside the policy validity window")
  require
    (authorization.expiresAtUnixSeconds.toNat - authorization.notBeforeUnixSeconds.toNat ≤
      policy.maxAuthorizationLifetimeSeconds.toNat)
    (.new notAuthorized "production mint authorization lifetime exceeds policy")
  require
    (authorization.notBeforeUnixSeconds ≤ nowUnixSeconds &&
      nowUnixSeconds ≤ authorization.expiresAtUnixSeconds)
    (.new "production_issuance_authorization_expired"
      "production mint authorization is not currently valid")
  validateReceipts env authorization.approvalReceipts "production mint authorization" notAuthorized
  let digest := productionMintAuthorizationDigest env authorization
  require (authorization.authorizationIdSha256 == toHex digest.toList)
    (.new notAuthorized "production mint authorization id does not match its exact payload")
  require (policy.signatureThreshold.toNat ≤ authorization.signatures.length)
    (.new notAuthorized "production mint authorization lacks the required signature threshold")
  verifyAuthoritySignatures env policy.authorityPublicKeys digest none authorization.signatures
  return digest

end Checks

section Specs

variable {env : IssuanceEnv}

/-- The signature is a valid one of the key it names, over the digest. -/
structure SignedBy
    (env : IssuanceEnv)
    (digest : Bytes 32)
    (signed : ProductionAuthoritySignature) : Prop where
  valid : ∃ keyBytes key signature,
    fromHex signed.authorityPublicKey = .ok keyBytes ∧
      env.publicKey keyBytes = some key ∧
        fromHexArray 64 signed.signatureCompact "production mint authority signature" =
          .ok signature ∧
          env.verifyEcdsa digest signature key = true

theorem verifyAuthoritySignature_spec
    {permitted : List Text}
    {digest : Bytes 32}
    {previous : Option Text}
    {signed : ProductionAuthoritySignature}
    {u : Unit}
    (h : verifyAuthoritySignature env permitted digest previous signed = .ok u) :
    (∀ p, previous = some p → signed.authorityPublicKey.le p = false) ∧
      signed.authorityPublicKey ∈ permitted ∧ SignedBy env digest signed := by
  simp only [verifyAuthoritySignature, except_bind_eq_ok_iff, require_eq_ok_iff,
    mapError_eq_ok_iff, okOr_eq_ok_iff] at h
  obtain ⟨-, hprevious, -, hpermitted, keyBytes, hkeyBytes, key, hkey, signature, hsignature,
    -, -, -, -, hverify⟩ := h
  refine ⟨?_, by simpa using hpermitted, ⟨keyBytes, key, signature, hkeyBytes, hkey, hsignature,
    hverify⟩⟩
  rintro p rfl
  simpa using hprevious

/-- Verified signatures come from permitted keys, each used once. -/
theorem verifyAuthoritySignatures_spec
    {permitted : List Text}
    {digest : Bytes 32}
    {previous : Option Text}
    {signatures : List ProductionAuthoritySignature}
    {u : Unit}
    (h : verifyAuthoritySignatures env permitted digest previous signatures = .ok u) :
    (∀ p, previous = some p → ∀ signed ∈ signatures, signed.authorityPublicKey.le p = false) ∧
      (signatures.map ProductionAuthoritySignature.authorityPublicKey).Nodup ∧
      ∀ signed ∈ signatures,
        signed.authorityPublicKey ∈ permitted ∧ SignedBy env digest signed := by
  induction signatures generalizing previous u with
  | nil =>
      simp
  | cons signed rest ih =>
      simp only [verifyAuthoritySignatures, except_bind_eq_ok_iff] at h
      obtain ⟨_, hsigned, hrest⟩ := h
      obtain ⟨hprevious, hpermitted, hvalid⟩ := verifyAuthoritySignature_spec hsigned
      obtain ⟨habove, hnodup, hall⟩ := ih hrest
      have hrest_above := habove signed.authorityPublicKey rfl
      refine ⟨?_, ?_, ?_⟩
      · intro p hp other hother
        rcases List.mem_cons.mp hother with rfl | hother
        · exact hprevious p hp
        · -- A later key is above this one, and this one is above the previous.
          by_contra hle
          have hle' : other.authorityPublicKey.le p = true := by simpa using hle
          have hp' := hprevious p hp
          rcases bytesLe_total signed.authorityPublicKey.bytes p.bytes with h' | h'
          · rw [Text.le, h'] at hp'
            cases hp'
          · have htrans := bytesLe_trans hle' h'
            have hcontra := hrest_above other hother
            rw [Text.le, htrans] at hcontra
            cases hcontra
      · rw [List.map_cons, List.nodup_cons]
        refine ⟨?_, hnodup⟩
        intro hmem
        obtain ⟨other, hother, heq⟩ := List.mem_map.mp hmem
        have hself := hrest_above other hother
        rw [heq] at hself
        rcases bytesLe_total signed.authorityPublicKey.bytes signed.authorityPublicKey.bytes with
          h' | h'
        · rw [Text.le, h'] at hself
          cases hself
        · rw [Text.le, h'] at hself
          cases hself
      · intro other hother
        rcases List.mem_cons.mp hother with rfl | hother
        · exact ⟨hpermitted, hvalid⟩
        · exact hall other hother

/-- A checked sum is the exact sum. -/
theorem mintTotal_spec
    {amounts : List UInt64}
    {total : UInt64}
    (h : mintTotal amounts = .ok total) :
    total.toNat = (amounts.map UInt64.toNat).sum := by
  suffices hgen : ∀ (amounts : List UInt64) (start total : UInt64),
      amounts.foldlM (fun sum amount => okOr (checkedAdd sum amount)
        (ValidationError.new limitExceeded "production mint amount overflow")) start =
          .ok total → total.toNat = start.toNat + (amounts.map UInt64.toNat).sum by
    simpa using hgen amounts 0 total h
  intro amounts
  induction amounts with
  | nil =>
      intro start total h
      obtain rfl := Except.ok.inj h
      simp
  | cons amount amounts ih =>
      intro start total h
      rw [List.foldlM_cons, except_bind_eq_ok_iff] at h
      obtain ⟨next, hnext, hrest⟩ := h
      rw [okOr_eq_ok_iff] at hnext
      rw [ih next total hrest, toNat_of_checkedAdd hnext, List.map_cons, List.sum_cons,
        Nat.add_assoc]

/-- What a policy grants an authorization that verifies under it. -/
structure AuthorizedMint
    (env : IssuanceEnv)
    (policy : ProductionIssuancePolicy)
    (authorization : ProductionMintAuthorization) : Prop where
  supply_exact :
    authorization.supplyAfterBaseUnits.toNat =
      authorization.supplyBeforeBaseUnits.toNat + (authorization.amounts.map UInt64.toNat).sum
  supply_capped :
    authorization.supplyAfterBaseUnits ≤ policy.maxCumulativeSupplyBaseUnits
  id_eq :
    authorization.authorizationIdSha256 =
      toHex (productionMintAuthorizationDigest env authorization).toList
  two_le_threshold : 2 ≤ policy.signatureThreshold.toNat
  threshold_le : policy.signatureThreshold.toNat ≤ authorization.signatures.length
  signers_distinct :
    (authorization.signatures.map ProductionAuthoritySignature.authorityPublicKey).Nodup
  signed : ∀ signed ∈ authorization.signatures,
    signed.authorityPublicKey ∈ policy.authorityPublicKeys ∧
      SignedBy env (productionMintAuthorizationDigest env authorization) signed

theorem two_le_threshold_of_valid
    {policy : ProductionIssuancePolicy}
    {deploymentId assetId commitment : Text}
    {registryVersion : UInt64}
    {u : Unit}
    (h : validateProductionIssuancePolicy env policy deploymentId registryVersion assetId
      commitment = .ok u) :
    2 ≤ policy.signatureThreshold.toNat := by
  simp only [validateProductionIssuancePolicy, except_bind_eq_ok_iff, require_eq_ok_iff] at h
  obtain ⟨-, -, -, -, -, -, -, -, -, -, -, -, -, -, -, -, keys, -, -, hthreshold, -⟩ := h
  simp only [Bool.and_eq_true, decide_eq_true_eq] at hthreshold
  exact hthreshold.1

theorem commitment_of_valid
    {policy : ProductionIssuancePolicy}
    {deploymentId assetId commitment : Text}
    {registryVersion : UInt64}
    {u : Unit}
    (h : validateProductionIssuancePolicy env policy deploymentId registryVersion assetId
      commitment = .ok u) :
    policy.commitmentSha256 = commitment := by
  simp only [validateProductionIssuancePolicy, except_bind_eq_ok_iff, require_eq_ok_iff,
    beq_iff_eq] at h
  obtain ⟨-, -, -, -, -, -, -, -, -, -, -, -, -, -, -, -, keys, -, -, -, -, -, -, -, -, -, -, -, -, -,
    -, -, -, -, -, hcommitment, -⟩ := h
  exact hcommitment

/-- A verified authorization is granted by its policy. -/
theorem verifyProductionMintAuthorization_spec
    {policy : ProductionIssuancePolicy}
    {authorization : ProductionMintAuthorization}
    {registryVersion : UInt64}
    {commitment toOwner : Text}
    {amounts : List UInt64}
    {now : UInt64}
    {digest : Bytes 32}
    (h : verifyProductionMintAuthorization env policy authorization registryVersion commitment
      toOwner amounts now = .ok digest) :
    AuthorizedMint env policy authorization := by
  simp only [verifyProductionMintAuthorization, except_bind_eq_ok_iff, require_eq_ok_iff,
    okOr_eq_ok_iff] at h
  obtain ⟨_, hpolicy, -, -, -, -, -, -, -, -, -, -, outpoint, -, total, htotal, -, -, -, -, after,
    hafter, -, hexact, -, hcap, -, -, -, -, -, -, -, -, -, hid, -, hcount, _, hsignatures, -⟩ := h
  obtain ⟨-, hdistinct, hsigned⟩ := verifyAuthoritySignatures_spec hsignatures
  refine
    { supply_exact := ?_
      supply_capped := by simpa using hcap
      id_eq := by simpa using hid
      two_le_threshold := two_le_threshold_of_valid hpolicy
      threshold_le := by simpa using hcount
      signers_distinct := hdistinct
      signed := hsigned }
  have hafter' : after = authorization.supplyAfterBaseUnits := by simpa using hexact
  rw [← hafter', toNat_of_checkedAdd hafter, mintTotal_spec htotal]

/-- An authorization is verified under the policy of the expected commitment. -/
theorem commitment_of_verified
    {policy : ProductionIssuancePolicy}
    {authorization : ProductionMintAuthorization}
    {registryVersion : UInt64}
    {commitment toOwner : Text}
    {amounts : List UInt64}
    {now : UInt64}
    {digest : Bytes 32}
    (h : verifyProductionMintAuthorization env policy authorization registryVersion commitment
      toOwner amounts now = .ok digest) :
    policy.commitmentSha256 = commitment := by
  simp only [verifyProductionMintAuthorization, except_bind_eq_ok_iff] at h
  obtain ⟨_, hpolicy, -⟩ := h
  exact commitment_of_valid hpolicy

end Specs

end OpenCsv
