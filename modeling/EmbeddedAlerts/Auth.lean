import Mathlib.Data.Finset.Basic
import EmbeddedAlerts.Alerts
import EmbeddedAlerts.Text.Check
import EmbeddedAlerts.Text.Split

/-!
# Authentication by signed tokens

`src/auth_runtime.rs`: how a verifier is configured (`AuthConfig::jwt`,
`AuthConfig::from_env`) and how it reads a token (`JwtVerifier::verify`).
Base64, JSON and HMAC-SHA256 are other crates' and are taken as `TokenCrates`.
A `BTreeSet<String>` is a finite set of texts: nothing here depends on the order
in which it is iterated.
-/

namespace EmbeddedAlerts

namespace Auth

open Text
open Alerts (trimString)

/-! ### `serde_json::Value` -/

inductive Number where
  | posInt (n : UInt64)
  | negInt (n : Int64)
  | float (bits : UInt64)
deriving DecidableEq, Repr

inductive Value where
  | null
  | bool (b : Bool)
  | number (n : Number)
  | string (s : String)
  | array (values : List Value)
  | object (fields : List (String × Value))

/-- `serde_json::Map`: the fields of an object, under their keys. -/
abbrev Object := List (String × Value)

/-- `Map::get`. -/
def Object.get (fields : Object) (key : String) : Option Value := fields.lookup key

def i64Min : ℤ := -2 ^ 63
def i64Max : ℤ := 2 ^ 63 - 1

namespace Value

def asStr : Value → Option String
  | string s => some s
  | _ => none

def asObject : Value → Option Object
  | object fields => some fields
  | _ => none

def asI64 : Value → Option ℤ
  | number (.posInt n) => if (n.toNat : ℤ) ≤ i64Max then some n.toNat else none
  | number (.negInt n) => some n.toInt
  | _ => none

def asU64 : Value → Option UInt64
  | number (.posInt n) => some n
  | _ => none

/-- `Value::get` at a text: only objects have such fields. -/
def get (value : Value) (key : String) : Option Value :=
  match value with
  | object fields => Object.get fields key
  | _ => none

end Value

/-- `i64::try_from(u64)`. -/
def i64TryFrom (n : UInt64) : Option ℤ := if (n.toNat : ℤ) ≤ i64Max then some n.toNat else none

/-- `i64::saturating_add`. -/
def saturatingAdd (a b : ℤ) : ℤ := max i64Min (min i64Max (a + b))

/-- `i64::saturating_sub`. -/
def saturatingSub (a b : ℤ) : ℤ := max i64Min (min i64Max (a - b))

/-! ### The other crates -/

structure TokenCrates where
  /-- `URL_SAFE_NO_PAD.decode`. -/
  base64Decode : List Char → Option (List UInt8)
  /-- `serde_json::from_slice::<Value>`. -/
  fromSlice : List UInt8 → Option Value
  /-- `Hmac<Sha256>`, from a key and a message.  Keys of every length are taken. -/
  hmacSha256 : List UInt8 → List UInt8 → List UInt8

/-- What is documented of them: base64 decodes to fewer bytes than it reads, and
a SHA-256 tag has 32 bytes. -/
structure TokenCrates.Lawful (c : TokenCrates) : Prop where
  decodeLength : ∀ s bytes, c.base64Decode s = some bytes → bytes.length ≤ (utf8 s).length
  hmacLength : ∀ key message, (c.hmacSha256 key message).length = 32

/-! ### Roles and claims -/

def minSecretBytes : ℕ := 32
def maxSecretBytes : ℕ := 4096
def maxTokenBytes : ℕ := 16 * 1024
def maxHeaderBytes : ℕ := 4 * 1024
def maxClaimsBytes : ℕ := 64 * 1024

/-- The characters of a role. -/
def isRoleChar (c : Char) : Bool := c.isAlphanum || c == '_' || c == '-' || c == ':' || c == '.'

/-- The characters of a claim's name and of a cookie's name. -/
def isNameChar (c : Char) : Bool := c.isAlphanum || c == '_' || c == '-'

/-- A role as it is kept: trimmed and in lower case. -/
def roleText (role : List Char) : List Char := asciiLowercase (trim role)

/-- `insert_role`. -/
def insertRole (roles : Finset String) (role : List Char) : Except String (Finset String) :=
  let role := roleText role
  if role.isEmpty then .ok roles
  else if (utf8 role).length > 80 ∨ role.all isRoleChar = false then
    .error "roles must use 1 to 80 ASCII identifier characters"
  else .ok (insert (String.ofList role) roles)

/-- `parse_role_set`. -/
def parseRoleSet (value : String) : Except String (Finset String) :=
  (value.toList.splitOn ',').foldlM insertRole ∅

/-- One turn of the loop of `parse_roles` over a text. -/
def insertRoleText (roles : Finset String) (role : List Char) : Except Unit (Finset String) :=
  (insertRole roles role).mapError fun _ => ()

/-- One turn of the loop of `parse_roles` over an array. -/
def insertRoleValue (roles : Finset String) (value : Value) : Except Unit (Finset String) := do
  let role ← okOr value.asStr ()
  insertRoleText roles role.toList

/-- The loops of `parse_roles`. -/
def collectRoles : Value → Except Unit (Finset String)
  | .string value => (value.toList.splitOn ',').foldlM insertRoleText ∅
  | .array values => values.foldlM insertRoleValue ∅
  | _ => .error ()

/-- `parse_roles`. -/
def parseRoles (value : Value) : Except Unit (Finset String) := do
  let roles ← collectRoles value
  rejectIf (roles = ∅) ()
  return roles

/-- `audience_matches`. -/
def audienceMatches (value : Value) (expected : String) : Bool :=
  match value with
  | .string value => value == expected
  | .array values => values.any fun value => value.asStr == some expected
  | _ => false

/-- `integer_claim`. -/
def integerClaim (value : Value) : Except Unit ℤ :=
  okOr (value.asI64.or (value.asU64.bind i64TryFrom)) ()

/-- `claim_at_path`. -/
def claimAtPath (value : Value) (path : List String) : Option Value :=
  path.foldlM (fun current part => current.get part) value

/-- `parse_claim_path`. -/
def parseClaimPath (value : String) : Except String (List String) :=
  let parts := (value.toList.splitOn '.').map trim
  if parts.isEmpty ∨ parts.length > 8 ∨ parts.any (fun part =>
      part.isEmpty || decide ((utf8 part).length > 80) || !part.all isNameChar) = true then
    .error "JWT claim paths must contain 1 to 8 identifier segments"
  else .ok (parts.map String.ofList)

/-- `validate_cookie_name`. -/
def validateCookieName (value : String) : Except String Unit :=
  rejectIf (value.isEmpty ∨ value.utf8ByteSize > 120 ∨ value.toList.all isNameChar = false)
    "EAL_JWT_COOKIE_NAME must be an ASCII cookie identifier"

/-! ### Configuration -/

structure JwtVerifier where
  secret : List UInt8
  issuer : String
  audience : String
  tenantClaimPath : List String
  roleClaimPath : List String
  allowedRoles : Finset String
  adminRoles : Finset String
  leewaySeconds : ℤ
deriving DecidableEq

inductive AuthMode where
  | jwt (verifier : JwtVerifier)
  | insecureHeaders
deriving DecidableEq

structure AuthConfig where
  mode : AuthMode
  cookieName : String
deriving DecidableEq

structure AuthContext where
  tenantId : Uuid
  subject : String
  roles : Finset String
  tenantAdmin : Bool
deriving DecidableEq

/-- `AuthConfig::jwt`. -/
def AuthConfig.jwt (secret : List UInt8) (issuer audience tenantClaim roleClaim : String)
    (allowedRoles adminRoles : Finset String) (leewaySeconds : ℤ) (cookieName : String) :
    Except String AuthConfig := do
  rejectIf (¬ (minSecretBytes ≤ secret.length ∧ secret.length ≤ maxSecretBytes))
    "EAL_JWT_HS256_SECRET must contain between 32 and 4096 bytes"
  let issuer := trimString issuer
  let audience := trimString audience
  rejectIf (issuer.isEmpty ∨ issuer.utf8ByteSize > 512)
    "EAL_JWT_ISSUER must contain between 1 and 512 bytes"
  rejectIf (audience.isEmpty ∨ audience.utf8ByteSize > 512)
    "EAL_JWT_AUDIENCE must contain between 1 and 512 bytes"
  let tenantClaimPath ← parseClaimPath tenantClaim
  let roleClaimPath ← parseClaimPath roleClaim
  rejectIf (allowedRoles = ∅) "EAL_JWT_ALLOWED_ROLES must contain at least one role"
  rejectIf (¬ adminRoles ⊆ allowedRoles)
    "EAL_JWT_TENANT_ADMIN_ROLES must be a subset of EAL_JWT_ALLOWED_ROLES"
  rejectIf (¬ (0 ≤ leewaySeconds ∧ leewaySeconds ≤ 300))
    "EAL_JWT_LEEWAY_SECONDS must be between 0 and 300"
  validateCookieName cookieName
  return {
    mode := .jwt { secret, issuer, audience, tenantClaimPath, roleClaimPath, allowedRoles,
                   adminRoles, leewaySeconds }
    cookieName }

def defaultCookieName : String := "eal_access_token"

/-- `AuthConfig::insecure_headers`. -/
def AuthConfig.insecureHeaders : AuthConfig where
  mode := .insecureHeaders
  cookieName := defaultCookieName

/-- `required_env`. -/
def requiredEnv (env : String → Option String) (name : String) : Except String String :=
  okOr (((env name).map trimString).filter fun value => !value.isEmpty)
    (name ++ " is required when JWT authentication is enabled")

/-- `env_string`. -/
def envString (env : String → Option String) (name default : String) : String :=
  (((env name).map trimString).filter fun value => !value.isEmpty).getD default

/-- `str::parse::<i64>`: a sign, if there is one, and digits. -/
def parseI64 (s : List Char) : Option ℤ :=
  let digits : List Char := match s with
    | '-' :: rest => rest
    | '+' :: rest => rest
    | rest => rest
  let magnitude : ℕ := digits.foldl (fun n c => 10 * n + (c.toNat - 48)) 0
  let value : ℤ := if s.head? = some '-' then -magnitude else magnitude
  if digits.isEmpty ∨ digits.all Char.isDigit = false ∨ value < i64Min ∨ i64Max < value then none
  else some value

/-- `EAL_JWT_LEEWAY_SECONDS`, or the default. -/
def envLeeway (env : String → Option String) : Except String ℤ :=
  match env "EAL_JWT_LEEWAY_SECONDS" with
  | some value => okOr (parseI64 (trim value.toList)) "EAL_JWT_LEEWAY_SECONDS must be an integer"
  | none => .ok 30

/-- `AuthConfig::from_env`, for the variables `env` of the process. -/
def AuthConfig.fromEnv (env : String → Option String) (production allowInsecureTenantHeader : Bool) :
    Except String AuthConfig :=
  match (env "EAL_JWT_HS256_SECRET").filter fun value => !(trimString value).isEmpty with
  | some secret => do
    let issuer ← requiredEnv env "EAL_JWT_ISSUER"
    let audience ← requiredEnv env "EAL_JWT_AUDIENCE"
    let tenantClaim := envString env "EAL_JWT_TENANT_CLAIM" "tenant_id"
    let roleClaim := envString env "EAL_JWT_ROLE_CLAIM" "role"
    let allowedRoles ← parseRoleSet
      (envString env "EAL_JWT_ALLOWED_ROLES" "authenticated,member,admin,owner")
    let adminRoles ← parseRoleSet (envString env "EAL_JWT_TENANT_ADMIN_ROLES" "admin,owner")
    let leewaySeconds ← envLeeway env
    let cookieName := envString env "EAL_JWT_COOKIE_NAME" defaultCookieName
    AuthConfig.jwt (utf8 secret.toList) issuer audience tenantClaim roleClaim allowedRoles
      adminRoles leewaySeconds cookieName
  | none =>
    if production then
      .error ("production authentication requires EAL_JWT_HS256_SECRET, EAL_JWT_ISSUER, "
        ++ "and EAL_JWT_AUDIENCE")
    else if allowInsecureTenantHeader then .ok .insecureHeaders
    else .error ("authentication is not configured; set JWT verification variables or "
      ++ "explicitly enable the isolated development header scaffold")

/-! ### Verification

`JwtVerifier::verify` is one function; its four parts are named here. -/

section Verify

variable (c : TokenCrates)

/-- The three segments of a token. -/
def splitToken (token : String) : Except Unit (List Char × List Char × List Char) := do
  rejectIf (token.utf8ByteSize > maxTokenBytes ∨ token.toList.any isAsciiWhitespace = true) ()
  let segments := token.toList.splitOn '.'
  let protectedHeader ← okOr (segments[0]?.filter fun value => !value.isEmpty) ()
  let claims ← okOr (segments[1]?.filter fun value => !value.isEmpty) ()
  let signature ← okOr (segments[2]?.filter fun value => !value.isEmpty) ()
  rejectIf (segments[3]?.isSome = true) ()
  return (protectedHeader, claims, signature)

/-- The protected header: the algorithm, the type, no critical extension. -/
def checkProtected (protectedHeader : List Char) : Except Unit Unit := do
  let bytes ← okOr (c.base64Decode protectedHeader) ()
  rejectIf (bytes.length > maxHeaderBytes) ()
  let json ← okOr (c.fromSlice bytes) ()
  let fields ← okOr json.asObject ()
  rejectIf ((fields.get "alg").bind Value.asStr ≠ some "HS256") ()
  rejectIf (((fields.get "typ").bind Value.asStr).any (fun value =>
    !eqIgnoreAsciiCase value.toList "JWT".toList) = true) ()
  rejectIf ((fields.get "crit").isSome = true) ()

/-- The signature. -/
def JwtVerifier.checkSignature (self : JwtVerifier) (protectedHeader claims signature : List Char) :
    Except Unit Unit := do
  let signature ← okOr (c.base64Decode signature) ()
  rejectIf (signature.length ≠ 32) ()
  rejectIf (signature ≠ c.hmacSha256 self.secret (utf8 (protectedHeader ++ '.' :: claims))) ()

/-- `nbf` and `iat`: if the claim is there, it is an integer within the limit. -/
def notAfter (claim : Option Value) (limit : ℤ) : Except Unit Unit :=
  match claim with
  | some value => do
    let instant ← integerClaim value
    rejectIf (instant > limit) ()
  | none => .ok ()

/-- The claims. -/
def JwtVerifier.checkClaims (x : Platform) (self : JwtVerifier) (claims : List Char) (now : ℤ) :
    Except Unit AuthContext := do
  let bytes ← okOr (c.base64Decode claims) ()
  rejectIf (bytes.length > maxClaimsBytes) ()
  let claims ← okOr (c.fromSlice bytes) ()
  let fields ← okOr claims.asObject ()
  rejectIf ((fields.get "iss").bind Value.asStr ≠ some self.issuer) ()
  let aud ← okOr (fields.get "aud") ()
  rejectIf (audienceMatches aud self.audience = false) ()
  let subject ← okOr ((((fields.get "sub").bind Value.asStr).map trimString).filter fun value =>
    !value.isEmpty && decide (value.utf8ByteSize ≤ 256)) ()
  let exp ← okOr (fields.get "exp") ()
  let expiration ← integerClaim exp
  rejectIf (expiration ≤ saturatingSub now self.leewaySeconds) ()
  notAfter (fields.get "nbf") (saturatingAdd now self.leewaySeconds)
  notAfter (fields.get "iat") (saturatingAdd now self.leewaySeconds)
  let tenant ← okOr ((claimAtPath claims self.tenantClaimPath).bind Value.asStr) ()
  let tenantId ← okOr (x.uuidParseStr tenant) ()
  let role ← okOr (claimAtPath claims self.roleClaimPath) ()
  let roles ← parseRoles role
  rejectIf (Disjoint roles self.allowedRoles) ()
  let tenantAdmin := decide (¬ Disjoint roles self.adminRoles)
  return { tenantId, subject, roles, tenantAdmin }

/-- `JwtVerifier::verify`. -/
def JwtVerifier.verify (x : Platform) (self : JwtVerifier) (token : String) (now : ℤ) :
    Except Unit AuthContext := do
  let (protectedHeader, claims, signature) ← splitToken token
  checkProtected c protectedHeader
  self.checkSignature c protectedHeader claims signature
  self.checkClaims c x claims now

end Verify

end Auth

end EmbeddedAlerts
