import OpenCsv.Core.Coin
import OpenCsv.Lib.Codes
import OpenCsv.Lib.Result

/-!
# Instrument terms

The human and legal terms of an instrument are committed by the genesis of its asset.  Terms
are validated first, so that only bounded and unambiguous definitions are ever hashed, and then
written field by field, every text behind its length.

**Results.**
* `InstrumentTermsV1.canonicalBytes_delimits`: valid terms are determined by their bytes, even
  when more bytes follow.
* `InstrumentTermsV1.validate_previewUsdTerms`: the built-in instrument is valid.
-/

namespace OpenCsv

section Texts

/-- `char::is_whitespace`: the Unicode property `White_Space`. -/
def isWhiteSpace (c : Char) : Bool :=
  let v := c.val
  (0x09 ≤ v && v ≤ 0x0D) || v == 0x20 || v == 0x85 || v == 0xA0 || v == 0x1680 ||
    (0x2000 ≤ v && v ≤ 0x200A) || v == 0x2028 || v == 0x2029 || v == 0x202F || v == 0x205F ||
      v == 0x3000

/-- `char::is_control`: the Unicode category `Cc`. -/
def isControl (c : Char) : Bool :=
  c.val ≤ 0x1F || (0x7F ≤ c.val && c.val ≤ 0x9F)

/-- `str::trim`. -/
def trimText (value : String) : List Char :=
  ((value.toList.dropWhile isWhiteSpace).reverse.dropWhile isWhiteSpace).reverse

/-- `str::as_bytes`. -/
def utf8 (value : String) : List UInt8 :=
  value.toUTF8.data.toList

/-- A `u32` with its most significant byte first. -/
def beBytes32 (n : ℕ) : List UInt8 :=
  (leBytes 4 n).reverse

/-- A text behind the number of its bytes. -/
def pushText (value : String) : List UInt8 :=
  beBytes32 (utf8 value).length ++ utf8 value

end Texts

/-- Why a definition is refused. -/
structure InstrumentError where
  message : String
deriving DecidableEq

def instrumentTermsVersion : UInt32 := 1

/-- Maximum decimal precision of a presentation. -/
def maxInstrumentDecimals : UInt8 := 18

/-- The human and legal definition that an asset genesis commits to. -/
structure InstrumentTermsV1 where
  version : UInt32
  network : String
  displayName : String
  unitCode : String
  decimals : UInt8
  issuerName : String
  termsUri : String
  redemptionSummary : String
  testOnly : Bool
deriving DecidableEq

/-- A bounded text without surrounding white space or control characters. -/
def validateText
    (field : String)
    (value : String)
    (minimum maximum : ℕ) : Except InstrumentError Unit := do
  let length := (utf8 value).length
  require (minimum ≤ length && length ≤ maximum)
    ⟨s!"{field} must be {minimum}..={maximum} UTF-8 bytes"⟩
  require (trimText value == value.toList && !value.toList.any isControl)
    ⟨s!"{field} must not contain surrounding whitespace or control characters"⟩

namespace InstrumentTermsV1

/-- Validate the bounded, unambiguous definition. -/
def validate (terms : InstrumentTermsV1) : Except InstrumentError Unit := do
  require (terms.version == instrumentTermsVersion) ⟨"unsupported instrument terms version"⟩
  require (["mainnet", "signet", "regtest"].contains terms.network)
    ⟨"network must be mainnet, signet, or regtest"⟩
  validateText "display name" terms.displayName 1 96
  validateText "issuer name" terms.issuerName 1 160
  validateText "redemption summary" terms.redemptionSummary 1 512
  require ((utf8 terms.unitCode).length == 3 &&
      (utf8 terms.unitCode).all (fun byte => 0x41 ≤ byte && byte ≤ 0x5A))
    ⟨"unit code must be exactly three uppercase ASCII letters"⟩
  require (terms.decimals ≤ maxInstrumentDecimals) ⟨"instrument decimals exceed 18"⟩
  validateText "terms URI" terms.termsUri 1 512
  require ((utf8 "https://").isPrefixOf (utf8 terms.termsUri)) ⟨"terms URI must use HTTPS"⟩
  require (!(terms.network == "mainnet" && terms.testOnly))
    ⟨"a mainnet instrument cannot be marked test-only"⟩
  require (!(terms.network != "mainnet" && !terms.testOnly))
    ⟨"signet and regtest instruments must be marked test-only"⟩

/-- The bytes that the hash of the terms covers. -/
def canonicalBytes (terms : InstrumentTermsV1) : List UInt8 :=
  beBytes32 terms.version.toNat ++ (pushText terms.network ++ (pushText terms.displayName ++
    (pushText terms.unitCode ++ ([terms.decimals] ++ (pushText terms.issuerName ++
      (pushText terms.termsUri ++ (pushText terms.redemptionSummary ++
        [if terms.testOnly then 1 else 0])))))))

/-- Validate, and return the commitment that an asset genesis stores. -/
def termsHash (sponge : Sponge) (terms : InstrumentTermsV1) : Except InstrumentError Digest := do
  terms.validate
  return hashFelts sponge "OpenCSV-instrument-terms-v1" [bytesToFelts terms.canonicalBytes]

end InstrumentTermsV1

/-- The one instrument that the preview wallet may originate. -/
def previewUsdTerms (network : String) : Except InstrumentError InstrumentTermsV1 := do
  require (["signet", "regtest"].contains network)
    ⟨"OpenCSV Test USD v2 is available only on signet or regtest"⟩
  return {
    version := instrumentTermsVersion
    network := network
    displayName := "OpenCSV Test USD v2"
    unitCode := "USD"
    decimals := 6
    issuerName := "OpenCSV Test Issuer v2"
    termsUri := "https://opencsv.net/usd-preview/terms-v2"
    redemptionSummary :=
      "Test USD v2 has no monetary value and is not redeemable for dollars or USDT."
    testOnly := true }

/-- Committed terms with their exact asset genesis. -/
structure InstrumentManifestV1 where
  terms : InstrumentTermsV1
  genesis : AssetGenesis
deriving DecidableEq

/-- The human definition is exactly the one that the genesis commits to. -/
def InstrumentManifestV1.validate
    (sponge : Sponge)
    (manifest : InstrumentManifestV1) : Except InstrumentError Unit := do
  let expectedCode ← okOr (Bytes.tryFrom 3 (utf8 manifest.terms.unitCode))
    ⟨"unit code is not three bytes"⟩
  require (manifest.genesis.currencyCode == expectedCode)
    ⟨"manifest unit code does not match asset genesis"⟩
  let termsHash ← manifest.terms.termsHash sponge
  require (manifest.genesis.termsHash == termsHash)
    ⟨"manifest terms do not match the genesis terms hash"⟩

section Encoding

theorem utf8_injective
    {s t : String}
    (h : utf8 s = utf8 t) :
    s = t := by
  have hdata : s.toUTF8.data = t.toUTF8.data := Array.toList_inj.mp h
  exact String.toByteArray_inj.mp (ByteArray.ext hdata)

theorem beBytes32_delimits :
    Delimits (· < 2 ^ 32) beBytes32 := by
  refine delimits_of_length (n := 4) (fun n _ => by simp [beBytes32]) (fun m n hm hn h => ?_)
  have hle : leNat (leBytes 4 m) = leNat (leBytes 4 n) :=
    congrArg leNat (List.reverse_injective h)
  rwa [leNat_leBytes, leNat_leBytes, Nat.mod_eq_of_lt (hm.trans_le (by norm_num)),
    Nat.mod_eq_of_lt (hn.trans_le (by norm_num))] at hle

/-- A text of bounded length ends where its length says. -/
theorem pushText_delimits :
    Delimits (fun value => (utf8 value).length < 2 ^ 32) pushText := by
  intro s t hs ht x y h
  rw [pushText, pushText, List.append_assoc, List.append_assoc] at h
  obtain ⟨hlength, h⟩ := beBytes32_delimits _ _ hs ht _ _ h
  obtain ⟨hbytes, hrest⟩ := List.append_inj h hlength
  exact ⟨utf8_injective hbytes, hrest⟩

end Encoding

section Validation

theorem length_of_validateText
    {field value : String}
    {minimum maximum : ℕ}
    (h : validateText field value minimum maximum = .ok ()) :
    (utf8 value).length ≤ maximum := by
  simp only [validateText, except_bind_eq_ok_iff, require_eq_ok_iff, Bool.and_eq_true,
    decide_eq_true_eq] at h
  obtain ⟨_, hlength, _⟩ := h
  exact hlength.2

namespace InstrumentTermsV1

/-- The texts of the definition are short enough for their lengths to be written. -/
structure Bounded (terms : InstrumentTermsV1) : Prop where
  network : (utf8 terms.network).length < 2 ^ 32
  displayName : (utf8 terms.displayName).length < 2 ^ 32
  unitCode : (utf8 terms.unitCode).length < 2 ^ 32
  issuerName : (utf8 terms.issuerName).length < 2 ^ 32
  termsUri : (utf8 terms.termsUri).length < 2 ^ 32
  redemptionSummary : (utf8 terms.redemptionSummary).length < 2 ^ 32

theorem bounded_of_validate
    {terms : InstrumentTermsV1}
    (h : terms.validate = .ok ()) :
    terms.Bounded := by
  simp only [validate, except_bind_eq_ok_iff, require_eq_ok_iff] at h
  obtain ⟨_, _, _, hnetwork, _, hdisplay, _, hissuer, _, hsummary, _, hcode, _, _, _, huri, _⟩ := h
  have hcode : (utf8 terms.unitCode).length = 3 := by
    simp only [Bool.and_eq_true, beq_iff_eq] at hcode
    exact hcode.1
  refine ⟨?_, ?_, by omega, ?_, ?_, ?_⟩
  · simp only [List.contains_cons, List.contains_nil, Bool.or_false, Bool.or_eq_true,
      beq_iff_eq] at hnetwork
    rcases hnetwork with hn | hn | hn <;> rw [hn] <;> decide
  · exact (length_of_validateText hdisplay).trans_lt (by norm_num)
  · exact (length_of_validateText hissuer).trans_lt (by norm_num)
  · exact (length_of_validateText huri).trans_lt (by norm_num)
  · exact (length_of_validateText hsummary).trans_lt (by norm_num)

/-- The fields are read one after another, each ending where it says. -/
theorem canonicalBytes_delimits :
    Delimits Bounded canonicalBytes := by
  intro a b ha hb s t h
  simp only [canonicalBytes, List.append_assoc] at h
  obtain ⟨hversion, h⟩ := beBytes32_delimits _ _ a.version.toNat_lt b.version.toNat_lt _ _ h
  obtain ⟨hnetwork, h⟩ := pushText_delimits _ _ ha.network hb.network _ _ h
  obtain ⟨hdisplay, h⟩ := pushText_delimits _ _ ha.displayName hb.displayName _ _ h
  obtain ⟨hcode, h⟩ := pushText_delimits _ _ ha.unitCode hb.unitCode _ _ h
  obtain ⟨hdecimals, h⟩ := List.append_inj h rfl
  obtain ⟨hissuer, h⟩ := pushText_delimits _ _ ha.issuerName hb.issuerName _ _ h
  obtain ⟨huri, h⟩ := pushText_delimits _ _ ha.termsUri hb.termsUri _ _ h
  obtain ⟨hsummary, h⟩ := pushText_delimits _ _ ha.redemptionSummary hb.redemptionSummary _ _ h
  obtain ⟨htest, hrest⟩ := List.append_inj h rfl
  have hversion : a.version = b.version := UInt32.toNat_inj.mp hversion
  have hdecimals : a.decimals = b.decimals := by simpa using hdecimals
  have htest : a.testOnly = b.testOnly := by
    cases ha : a.testOnly <;> cases hb : b.testOnly <;> simp [ha, hb] at htest ⊢
  refine ⟨?_, hrest⟩
  cases a
  cases b
  simp_all

/-- The built-in instrument passes the checks of every instrument. -/
theorem validate_previewUsdTerms
    {network : String}
    {terms : InstrumentTermsV1}
    (h : previewUsdTerms network = .ok terms) :
    terms.validate = .ok () := by
  simp only [previewUsdTerms, except_bind_eq_ok_iff, require_eq_ok_iff] at h
  obtain ⟨_, hnetwork, h⟩ := h
  have hnetwork : network = "signet" ∨ network = "regtest" := by
    simpa using hnetwork
  obtain rfl := (Except.ok.inj h).symm
  rcases hnetwork with rfl | rfl <;> decide +kernel

end InstrumentTermsV1

end Validation

end OpenCsv
