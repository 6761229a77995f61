import EmbeddedAlerts.Credentials
import EmbeddedAlerts.Text.Bytes

/-!
# Credentials of the workers

`src/worker_auth.rs`: the three worker routes ask for a secret token in a header.  The
process knows the token by its SHA-256 digest only, in hexadecimal, from an environment
variable.  `authorize_eq_ok_iff` says which headers are accepted: those with a token of
32 to 512 bytes whose digest is the configured one, and no other.

`src/error.rs` is here too: the replies that errors become.
-/

namespace EmbeddedAlerts

open Text

/-! ### Error replies -/

/-- `error::HttpError`, as the client sees it. -/
structure ErrorReply where
  status : ℕ
  code : String
  message : String
deriving DecidableEq, Repr

/-- The constructors of `error::HttpError`.  The text of an internal error is logged, not
sent. -/
def HttpError.reply : HttpError → ErrorReply
  | .validation message => ⟨422, "validation_error", message⟩
  | .badRequest message => ⟨400, "bad_request", message⟩
  | .unauthorized message => ⟨401, "unauthorized", message⟩
  | .forbidden message => ⟨403, "forbidden", message⟩
  | .notFound message => ⟨404, "not_found", message⟩
  | .conflict message => ⟨409, "conflict", message⟩
  | .internal _ => ⟨500, "internal_error", "the request could not be completed"⟩

/-- `HttpError::database_required`. -/
def ErrorReply.databaseRequired : ErrorReply :=
  ⟨503, "database_required", "this route requires durable PostgreSQL storage"⟩

/-- `HttpError::ingest_auth_required`. -/
def ErrorReply.ingestAuthRequired : ErrorReply :=
  ⟨503, "ingest_auth_required",
    "page ingestion is disabled until crawler authentication is configured"⟩

namespace WorkerAuth

open Auth (HeaderMap)

def ingestTokenHeader : String := "x-eal-ingest-token"
def ingestTokenDigestEnv : String := "EAL_INGEST_TOKEN_SHA256"
def minTokenBytes : ℕ := 32
def maxTokenBytes : ℕ := 512

/-- `invalid_credentials`. -/
def invalidCredentials : ErrorReply := (HttpError.unauthorized "invalid crawler credentials").reply

/-- `parse_configured_digest`. -/
def parseConfiguredDigest (value : String) : Except String (List UInt8) :=
  let value := utf8 (trim value.toList)
  if value.length ≠ 64 ∨ value.all isAsciiHexdigit = false then
    .error "ingest token digest must contain exactly 64 hexadecimal characters"
  else
    match hexDecode value with
    | some digest => .ok digest
    | none => .error "ingest token digest must be valid hexadecimal"

/-- `configured_digest`. -/
def configuredDigest (env : String → Option String) : Except Unit (List UInt8) := do
  let value ← okOr (env ingestTokenDigestEnv) ()
  (parseConfiguredDigest value).mapError fun _ => ()

/-- `is_configured`. -/
def isConfigured (env : String → Option String) : Bool := (configuredDigest env).toOption.isSome

/-- `token_matches`. -/
def tokenMatches (x : Platform) (expected token : List UInt8) : Bool :=
  if ¬ (minTokenBytes ≤ token.length ∧ token.length ≤ maxTokenBytes) then false
  else fixedTimeEq expected (x.sha256 token)

/-- `authorize`. -/
def authorize {V : Type} (asBytes : V → List UInt8) (x : Platform) (env : String → Option String)
    (headers : HeaderMap V) : Except ErrorReply Unit := do
  let expected ← (configuredDigest env).mapError fun _ => ErrorReply.ingestAuthRequired
  let token ← okOr (headers.get ingestTokenHeader) invalidCredentials
  rejectIf (tokenMatches x expected (asBytes token) = false) invalidCredentials

/-! ### Which tokens are accepted -/

/-- A text is the hexadecimal form of a digest, up to white space around it and the case of
the letters. -/
def Spells (value : String) (digest : List UInt8) : Prop :=
  (utf8 (trim value.toList)).map lowerByte = utf8 (hexEncode digest)

theorem parseConfiguredDigest_ok_iff {value : String} {digest : List UInt8} :
    parseConfiguredDigest value = .ok digest ↔ Spells value digest ∧ digest.length = 32 := by
  have hparse : parseConfiguredDigest value = .ok digest ↔
      (utf8 (trim value.toList)).length = 64 ∧
        (utf8 (trim value.toList)).all isAsciiHexdigit = true ∧
        hexDecode (utf8 (trim value.toList)) = some digest := by
    unfold parseConfiguredDigest
    dsimp only
    by_cases h : (utf8 (trim value.toList)).length ≠ 64 ∨
        (utf8 (trim value.toList)).all isAsciiHexdigit = false
    · rw [if_pos h]
      refine iff_of_false (fun h => nomatch h) ?_
      rintro ⟨hlength, hall, -⟩
      rcases h with h | h
      · exact h hlength
      · rw [hall] at h
        cases h
    · rw [if_neg h]
      obtain ⟨hlength, hall⟩ := not_or.mp h
      rw [not_not] at hlength
      rw [Bool.not_eq_false] at hall
      cases hdecode : hexDecode (utf8 (trim value.toList)) with
      | none => simp
      | some digest' => simp [hlength, hall]
  rw [hparse, hexDecode_eq_some_iff, Spells]
  constructor
  · rintro ⟨hlength, hall, hspells⟩
    refine ⟨hspells, ?_⟩
    obtain ⟨digest', hdecode, hdigest⟩ := hexDecode_isSome _ (n := 32) hlength hall
    rw [hexDecode_eq_some_iff] at hdecode
    obtain rfl := hexEncode_inj (utf8_inj (hspells.symm.trans hdecode))
    exact hdigest
  · rintro ⟨hspells, hdigest⟩
    refine ⟨?_, ?_, hspells⟩
    · have hlength := congrArg List.length hspells
      rw [List.length_map, utf8_hexEncode_length, hdigest] at hlength
      exact hlength
    · exact all_isAsciiHexdigit_of_decode (hexDecode_eq_some_iff _ |>.mpr hspells)

theorem configuredDigest_ok_iff {env : String → Option String} {digest : List UInt8} :
    configuredDigest env = .ok digest ↔
      ∃ value, env ingestTokenDigestEnv = some value ∧ Spells value digest ∧ digest.length = 32 := by
  rw [configuredDigest, okOr_bind]
  simp only [mapError_ok_iff, parseConfiguredDigest_ok_iff]

theorem isConfigured_iff {env : String → Option String} :
    isConfigured env = true ↔ ∃ value digest, env ingestTokenDigestEnv = some value ∧
      Spells value digest ∧ digest.length = 32 := by
  have hok : isConfigured env = true ↔ ∃ digest, configuredDigest env = .ok digest := by
    rw [isConfigured]
    cases configuredDigest env with
    | error e => exact iff_of_false (fun h => nomatch h) fun ⟨_, h⟩ => nomatch h
    | ok digest => exact iff_of_true rfl ⟨digest, rfl⟩
  rw [hok]
  simp only [configuredDigest_ok_iff]
  exact exists_comm

section Authorize

variable {V : Type} {asBytes : V → List UInt8} {x : Platform} {env : String → Option String}
  {headers : HeaderMap V}

theorem tokenMatches_iff (hsha : ∀ bytes, (x.sha256 bytes).length = 32)
    {expected token : List UInt8} (hexpected : expected.length = 32) :
    tokenMatches x expected token = true ↔
      (32 ≤ token.length ∧ token.length ≤ 512) ∧ expected = x.sha256 token := by
  unfold tokenMatches
  by_cases h : minTokenBytes ≤ token.length ∧ token.length ≤ maxTokenBytes
  · rw [if_neg (not_not_intro h), fixedTimeEq_iff (hexpected.trans (hsha token).symm)]
    exact ⟨fun heq => ⟨h, heq⟩, fun heq => heq.2⟩
  · rw [if_pos h]
    exact iff_of_false (fun h => nomatch h) fun h' => h h'.1

/-- The headers carry the token that the process was configured for. -/
def Carries (asBytes : V → List UInt8) (x : Platform) (env : String → Option String)
    (headers : HeaderMap V) (token : List UInt8) : Prop :=
  (∃ entry, headers.get ingestTokenHeader = some entry ∧ asBytes entry = token) ∧
  (32 ≤ token.length ∧ token.length ≤ 512) ∧
  ∃ value, env ingestTokenDigestEnv = some value ∧ Spells value (x.sha256 token)

theorem authorize_eq_ok_iff (hsha : ∀ bytes, (x.sha256 bytes).length = 32) :
    authorize asBytes x env headers = .ok () ↔ ∃ token, Carries asBytes x env headers token := by
  rw [authorize, bind_ok_iff]
  simp only [mapError_ok_iff, configuredDigest_ok_iff, okOr_bind, rejectIf_ok_iff,
    Bool.not_eq_false]
  constructor
  · rintro ⟨digest, ⟨value, hvalue, hspells, hlength⟩, entry, hentry, hmatches⟩
    obtain ⟨hbytes, rfl⟩ := (tokenMatches_iff hsha hlength).mp hmatches
    exact ⟨asBytes entry, ⟨entry, hentry, rfl⟩, hbytes, value, hvalue, hspells⟩
  · rintro ⟨_, ⟨entry, hentry, rfl⟩, hbytes, value, hvalue, hspells⟩
    exact ⟨x.sha256 (asBytes entry), ⟨value, hvalue, hspells, hsha _⟩, entry, hentry,
      (tokenMatches_iff hsha (hsha _)).mpr ⟨hbytes, rfl⟩⟩

theorem authorize_eq_error {e : ErrorReply} (h : authorize asBytes x env headers = .error e) :
    e = if isConfigured env then invalidCredentials else ErrorReply.ingestAuthRequired := by
  unfold authorize at h
  cases hdigest : configuredDigest env with
  | error u =>
    rw [hdigest] at h
    rw [isConfigured, hdigest]
    exact (Except.error.inj h).symm
  | ok digest =>
    rw [hdigest] at h
    rw [isConfigured, hdigest]
    cases hentry : headers.get ingestTokenHeader with
    | none =>
      rw [hentry] at h
      exact (Except.error.inj h).symm
    | some entry =>
      rw [hentry] at h
      by_cases hmatches : tokenMatches x digest (asBytes entry) = false
      · have hreject : rejectIf (tokenMatches x digest (asBytes entry) = false)
            invalidCredentials = .error e := h
        rw [rejectIf, if_pos hmatches] at hreject
        exact (Except.error.inj hreject).symm
      · have hreject : rejectIf (tokenMatches x digest (asBytes entry) = false)
            invalidCredentials = .error e := h
        rw [rejectIf, if_neg hmatches] at hreject
        cases hreject

end Authorize

/-- **A worker is let in exactly with the configured token.**  Everybody else gets one of
two fixed replies, by whether a digest is configured; and two tokens that are let in have
one SHA-256 digest. -/
theorem worker_authorized_iff {V : Type} (asBytes : V → List UInt8) {x : Platform}
    (hsha : ∀ bytes, (x.sha256 bytes).length = 32) (env : String → Option String)
    (headers : HeaderMap V) :
    (authorize asBytes x env headers = .ok () ↔ ∃ token, Carries asBytes x env headers token) ∧
    (∀ e, authorize asBytes x env headers = .error e →
      e = if isConfigured env then invalidCredentials else ErrorReply.ingestAuthRequired) ∧
    ∀ (headers' : HeaderMap V) (token token' : List UInt8),
      Carries asBytes x env headers token → Carries asBytes x env headers' token' →
        x.sha256 token = x.sha256 token' := by
  refine ⟨authorize_eq_ok_iff hsha, fun e => authorize_eq_error, ?_⟩
  intro headers' token token' h h'
  obtain ⟨-, -, value, hvalue, hspells⟩ := h
  obtain ⟨-, -, value', hvalue', hspells'⟩ := h'
  obtain rfl := Option.some.inj (hvalue.symm.trans hvalue')
  exact hexEncode_inj (utf8_inj (hspells.symm.trans hspells'))

namespace Worker

def token : List UInt8 := utf8 "0123456789abcdef0123456789abcdef".toList

def digest : List UInt8 :=
  Scenario.digestBytes 0x3eb1bd439947eb762998e566ccc2e099c791118b2f40579cc4f7da2b5061b7f9

/-- SHA-256 on the token of the tests; any other text has the zero digest. -/
def platform : Platform :=
  { Platform.sample with
    sha256 := fun bytes => if bytes = token then digest else List.replicate 32 0 }

theorem sha256_length (bytes : List UInt8) : (platform.sha256 bytes).length = 32 := by
  simp only [platform]
  by_cases h : bytes = token
  · rw [if_pos h]
    decide
  · rw [if_neg h]
    exact List.length_replicate

/-- The digest in upper case, with white space around it. -/
def spelling : List Char := " 3EB1BD439947EB762998E566CCC2E099C791118B2F40579CC4F7DA2B5061B7F9 ".toList

def env (name : String) : Option String :=
  if name = ingestTokenDigestEnv then some (String.ofList spelling) else none

def headers : HeaderMap (List UInt8) := [(ingestTokenHeader, token)]

theorem spells : Spells (String.ofList spelling) (platform.sha256 token) := by
  unfold Spells platform
  rw [String.toList_ofList]
  decide +kernel

theorem carries : Carries id platform env headers token := by
  refine ⟨⟨token, by decide, rfl⟩, by decide, String.ofList spelling, by decide, spells⟩

end Worker

open Worker in
/-- The token of the tests, with the digest in another spelling; a token that is too
short is not let in. -/
theorem worker_authorized_spelling :
    authorize id platform env headers = .ok () ∧
    authorize id platform env [(ingestTokenHeader, utf8 "too-short".toList)]
      = .error invalidCredentials := by
  obtain ⟨hiff, -, -⟩ := worker_authorized_iff id sha256_length env headers
  obtain ⟨hiff', herror, -⟩ := worker_authorized_iff id sha256_length env
    [(ingestTokenHeader, utf8 "too-short".toList)]
  refine ⟨hiff.mpr ⟨token, carries⟩, ?_⟩
  cases hrun : authorize id platform env [(ingestTokenHeader, utf8 "too-short".toList)] with
  | ok u =>
    obtain ⟨_, ⟨entry, hentry, rfl⟩, ⟨hlong, -⟩, -⟩ := hiff'.mp hrun
    obtain rfl := Option.some.inj hentry
    exact absurd hlong (by decide)
  | error e =>
    have hconfigured : isConfigured env = true :=
      isConfigured_iff.mpr ⟨String.ofList spelling, digest, by decide, spells, by decide⟩
    rw [herror e hrun, hconfigured]
    rfl

end WorkerAuth

end EmbeddedAlerts
