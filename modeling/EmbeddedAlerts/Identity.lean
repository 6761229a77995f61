import EmbeddedAlerts.Platform

/-!
# Hashes and the canonical match identity

`src/store.rs` and `src/reverse_match.rs` each carry their own copy of
`normalization_name`, `normalize_content`, `sha256_hex` and `match_key`.  Both
copies are here, under `Store` and `ReverseMatch`; `embedding_sha256` is in the
second file only.

A match key is the SHA-256 of a JSON array of nine strings.
-/

namespace EmbeddedAlerts

open Text

/-- `MatchIdentity`, the same in both files. -/
structure MatchIdentity extends ModelSpace where
  tenantId : Uuid
  alertRuleId : Uuid
  alertRuleRevisionId : Uuid
  pageRevisionId : Uuid
  contentSha256 : String
deriving DecidableEq

/-! ### `src/store.rs` -/

namespace Store

/-- `store::normalization_name`. -/
def normalizationName : VectorNormalization → String
  | .none => "none"
  | .l2 => "l2"
  | .unitLength => "unit_length"

theorem normalizationName_inj {m n : VectorNormalization}
    (h : normalizationName m = normalizationName n) : m = n := by
  cases m <;> cases n <;> first | rfl | exact absurd h (by decide)

/-- `store::normalize_content`. -/
def normalizeContent (content : String) : String :=
  String.ofList ([' '].intercalate (splitWhitespace content.toList))

/-- `store::sha256_hex`. -/
def sha256Hex (x : Platform) (bytes : List UInt8) : String :=
  String.ofList (hexEncode (x.sha256 bytes))

/-- The bytes `store::match_key` hashes. -/
def canonicalJson (identity : MatchIdentity) : List UInt8 :=
  utf8 (jsonArray [
    Uuid.chars identity.tenantId,
    Uuid.chars identity.alertRuleId,
    Uuid.chars identity.alertRuleRevisionId,
    Uuid.chars identity.pageRevisionId,
    identity.contentSha256.toList,
    identity.model.toList,
    identity.modelVersion.toList,
    identity.dimensions.toNat.repr.toList,
    (normalizationName identity.normalization).toList])

/-- `store::match_key`. -/
def matchKey (x : Platform) (identity : MatchIdentity) : String :=
  sha256Hex x (canonicalJson identity)

end Store

/-! ### `src/reverse_match.rs` -/

namespace ReverseMatch

/-- `reverse_match::normalization_name`. -/
def normalizationName : VectorNormalization → String
  | .none => "none"
  | .l2 => "l2"
  | .unitLength => "unit_length"

/-- `reverse_match::normalize_content`. -/
def normalizeContent (content : String) : String :=
  String.ofList ([' '].intercalate (splitWhitespace content.toList))

/-- `reverse_match::sha256_hex`. -/
def sha256Hex (x : Platform) (bytes : List UInt8) : String :=
  String.ofList (hexEncode (x.sha256 bytes))

/-- `to_bits().to_be_bytes()`. -/
def toBeBytes (bits : F32Bits) : List UInt8 :=
  [UInt8.ofNat (bits.toNat / 2 ^ 24), UInt8.ofNat (bits.toNat / 2 ^ 16),
    UInt8.ofNat (bits.toNat / 2 ^ 8), UInt8.ofNat bits.toNat]

/-- `if *value == 0.0 { 0.0_f32 } else { *value }`: the two zeros have the bit
patterns `0` and `0x80000000`. -/
def canonicalBits (bits : F32Bits) : F32Bits := if bits = 0x80000000 then 0 else bits

/-- `reverse_match::embedding_sha256`. -/
def embeddingSha256 (x : Platform) (values : List F32Bits) : String :=
  String.ofList (hexEncode (x.sha256 (values.flatMap fun v => toBeBytes (canonicalBits v))))

/-- The bytes `reverse_match::match_key` hashes. -/
def canonicalJson (identity : MatchIdentity) : List UInt8 :=
  utf8 (jsonArray [
    Uuid.chars identity.tenantId,
    Uuid.chars identity.alertRuleId,
    Uuid.chars identity.alertRuleRevisionId,
    Uuid.chars identity.pageRevisionId,
    identity.contentSha256.toList,
    identity.model.toList,
    identity.modelVersion.toList,
    identity.dimensions.toNat.repr.toList,
    (normalizationName identity.normalization).toList])

/-- `reverse_match::match_key`. -/
def matchKey (x : Platform) (identity : MatchIdentity) : String :=
  sha256Hex x (canonicalJson identity)

end ReverseMatch

end EmbeddedAlerts
