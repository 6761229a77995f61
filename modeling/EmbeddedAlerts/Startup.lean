import EmbeddedAlerts.Normalize
import EmbeddedAlerts.Origins

/-!
# Startup

`src/server_runtime.rs`: `main` up to its server state, and `health`, which reports what
`main` found.  The variables of the process are `env`; what the database answers at this
start is `Services`.  That `HOST` and `PORT` can be bound, which `main` asks for after
that, is left out.

In production `main` reaches its server state exactly if everything it depends on was
there (`production_start_iff`): the database with its schema, a verifier for tokens, a
digest for the workers' token and explicit browser origins.  Headers are trusted without a
token only outside production, on request and when no secret is set.
-/

namespace EmbeddedAlerts

open Text
open Auth (AuthConfig AuthMode JwtVerifier)
open Alerts (trimString)

inductive AppEnvironment where
  | development
  | test
  | production
deriving DecidableEq, Repr

namespace AppEnvironment

/-- `AppEnvironment::parse`. -/
def parse (value : Option String) : Except String AppEnvironment :=
  let normalized := String.ofList (asciiLowercase (trim (value.getD "development").toList))
  if normalized = "" ∨ normalized = "dev" ∨ normalized = "development" then .ok .development
  else if normalized = "test" then .ok .test
  else if normalized = "prod" ∨ normalized = "production" then .ok .production
  else .error ("unsupported APP_ENV value: " ++ normalized)

/-- `AppEnvironment::as_str`. -/
def asStr : AppEnvironment → String
  | development => "development"
  | test => "test"
  | production => "production"

end AppEnvironment

/-- `env_flag`. -/
def envFlag (env : String → Option String) (name : String) : Bool :=
  (env name).any fun value =>
    decide (asciiLowercase (trim value.toList) ∈ ["1".toList, "true".toList, "yes".toList])

/-- `validate_startup_policy`. -/
def validateStartupPolicy (environment : AppEnvironment) (databaseConnected schemaReady
    verifiedJwtEnabled ingestAuthConfigured : Bool) : Except String Unit := do
  rejectIf (environment = .production ∧ databaseConnected = false)
    "production startup requires durable PostgreSQL storage"
  rejectIf (environment = .production ∧ schemaReady = false)
    "production startup requires the durable Embedded Alerts schema"
  rejectIf (environment = .production ∧ verifiedJwtEnabled = false)
    "production startup requires verified JWT authentication"
  rejectIf (environment = .production ∧ ingestAuthConfigured = false)
    "production startup requires authenticated crawler ingestion"

/-- `AuthConfig::is_jwt`. -/
def Auth.AuthConfig.isJwt (self : AuthConfig) : Bool :=
  match self.mode with
  | .jwt _ => true
  | .insecureHeaders => false

/-- `AuthConfig::mode_name`. -/
def Auth.AuthConfig.modeName (self : AuthConfig) : String :=
  match self.mode with
  | .jwt _ => "verified_jwt"
  | .insecureHeaders => "explicit_insecure_headers"

/-- `DatabaseConnection`: where it leads. -/
structure DatabaseConnection where
  url : String
deriving DecidableEq, Repr

/-- What the database answers while the server starts. -/
structure Services where
  /-- `Database::connect`. -/
  connect : String → Except String DatabaseConnection
  /-- `migrations::migrate_all`. -/
  migrateAll : DatabaseConnection → Except String Unit
  /-- `migrations::schema_ready`, after the migration if there was one. -/
  schemaReady : DatabaseConnection → Except String Bool

/-- `AppState`, without the sender of the events. -/
structure AppState where
  environment : AppEnvironment
  db : Option DatabaseConnection
  schemaReady : Bool
  ingestAuthConfigured : Bool
  auth : AuthConfig
  allowedOrigins : List HeaderValue
  supabaseUrl : Option String

section Main

variable (x : Platform) (o : OriginCrates) (env : String → Option String) (services : Services)

/-- The connection of `main`. -/
def connectDatabase : Except String (Option DatabaseConnection) :=
  match nonblank env "DATABASE_URL" with
  | some url => ((services.connect url).mapError fun _ => "connect database").map some
  | none => .ok none

/-- The migration of `main`. -/
def migrateOnStartup (db : Option DatabaseConnection) : Except String Unit :=
  if envFlag env "MIGRATE_ON_STARTUP" = true then do
    let database ← okOr db "MIGRATE_ON_STARTUP requires DATABASE_URL"
    (services.migrateAll database).mapError fun _ => "apply Embedded Alerts migrations"
  else .ok ()

/-- The check of the schema in `main`. -/
def verifySchema (db : Option DatabaseConnection) : Except String Bool :=
  match db with
  | some database =>
    (services.schemaReady database).mapError fun _ => "verify durable Embedded Alerts schema"
  | none => .ok false

/-- `main`, up to the state of the server. -/
def start : Except String AppState := do
  let environment ← AppEnvironment.parse (env "APP_ENV")
  let allowInsecureTenantHeader := envFlag env "ALLOW_INSECURE_TENANT_HEADER"
  let auth ← AuthConfig.fromEnv env (decide (environment = .production)) allowInsecureTenantHeader
  let db ← connectDatabase env services
  migrateOnStartup env services db
  let schemaReady ← verifySchema services db
  let ingestAuthConfigured := WorkerAuth.isConfigured env
  validateStartupPolicy environment db.isSome schemaReady auth.isJwt ingestAuthConfigured
  let allowedOrigins ← Origins.configuredOrigins x o env (decide (environment = .production))
  return { environment, db, schemaReady, ingestAuthConfigured, auth, allowedOrigins,
           supabaseUrl := env "SUPABASE_URL" }

end Main

structure Health where
  service : String
  status : String
  environment : String
  alertStorageMode : String
  indexingStorageMode : String
  productionReady : Bool
  databaseConnected : Bool
  supabaseConfigured : Bool
  tenantContext : String
  websocketAuthorization : String
  schemaReady : Bool
  ingestAuthConfigured : Bool
deriving DecidableEq, Repr

/-- `health`. -/
def health (state : AppState) : Health :=
  let productionReady :=
    state.db.isSome && state.schemaReady && state.auth.isJwt && state.ingestAuthConfigured
  let stored := state.db.isSome && state.schemaReady
  { service := "eal-api"
    status := if productionReady then "ok" else "degraded"
    environment := state.environment.asStr
    alertStorageMode := if stored then "postgresql_immutable_revisions" else "unavailable"
    indexingStorageMode :=
      if stored then "reverse_alert_stream_plus_historical_pgvector" else "unavailable"
    productionReady
    databaseConnected := state.db.isSome
    supabaseConfigured := state.supabaseUrl.isSome
    tenantContext := state.auth.modeName
    websocketAuthorization := "same_verified_identity_plus_explicit_origin"
    schemaReady := state.schemaReady
    ingestAuthConfigured := state.ingestAuthConfigured }

/-! ### The verifier that is configured -/

/-- What a verifier in use was read from, and within which limits. -/
structure ConfiguredVerifier (env : String → Option String) (verifier : JwtVerifier)
    (cookieName : String) : Prop where
  secret : ∃ secret, nonblank env "EAL_JWT_HS256_SECRET" = some secret ∧
    verifier.secret = utf8 secret.toList
  secretBytes : 32 ≤ verifier.secret.length ∧ verifier.secret.length ≤ 4096
  issuer : Auth.requiredEnv env "EAL_JWT_ISSUER" = .ok verifier.issuer ∧
    verifier.issuer.utf8ByteSize ≤ 512
  audience : Auth.requiredEnv env "EAL_JWT_AUDIENCE" = .ok verifier.audience ∧
    verifier.audience.utf8ByteSize ≤ 512
  tenantClaimPath : Auth.parseClaimPath (Auth.envString env "EAL_JWT_TENANT_CLAIM" "tenant_id")
    = .ok verifier.tenantClaimPath
  roleClaimPath : Auth.parseClaimPath (Auth.envString env "EAL_JWT_ROLE_CLAIM" "role")
    = .ok verifier.roleClaimPath
  allowedRoles : Auth.parseRoleSet
      (Auth.envString env "EAL_JWT_ALLOWED_ROLES" "authenticated,member,admin,owner")
    = .ok verifier.allowedRoles ∧ verifier.allowedRoles ≠ ∅
  adminRoles : Auth.parseRoleSet (Auth.envString env "EAL_JWT_TENANT_ADMIN_ROLES" "admin,owner")
    = .ok verifier.adminRoles ∧ verifier.adminRoles ⊆ verifier.allowedRoles
  leewaySeconds : Auth.envLeeway env = .ok verifier.leewaySeconds ∧
    0 ≤ verifier.leewaySeconds ∧ verifier.leewaySeconds ≤ 300
  cookieName : Auth.envString env "EAL_JWT_COOKIE_NAME" Auth.defaultCookieName = cookieName ∧
    Auth.validateCookieName cookieName = .ok ()

/-- A required value is trimmed and not empty. -/
theorem requiredEnv_ok {env : String → Option String} {name value : String}
    (h : Auth.requiredEnv env name = .ok value) :
    trimString value = value ∧ value.isEmpty = false := by
  rw [Auth.requiredEnv, okOr_ok_iff, Option.filter_eq_some_iff, Option.map_eq_some_iff] at h
  obtain ⟨⟨raw, -, rfl⟩, hne⟩ := h
  rw [Bool.not_eq_true'] at hne
  exact ⟨Alerts.trimString_trimString raw, hne⟩

section Verifier

variable {env : String → Option String} {production allowInsecureTenantHeader : Bool}
  {verifier : JwtVerifier} {cookieName : String} {config : AuthConfig}

/-- **`from_env` answers with a verifier exactly if it can be configured.** -/
theorem fromEnv_jwt_iff : AuthConfig.fromEnv env production allowInsecureTenantHeader
    = .ok ⟨.jwt verifier, cookieName⟩ ↔ ConfiguredVerifier env verifier cookieName := by
  have hsecret : (env "EAL_JWT_HS256_SECRET").filter (fun value => !(trimString value).isEmpty)
      = nonblank env "EAL_JWT_HS256_SECRET" := rfl
  rw [AuthConfig.fromEnv, hsecret]
  cases hsome : nonblank env "EAL_JWT_HS256_SECRET" with
  | none =>
    constructor
    · intro h
      simp only at h
      split_ifs at h
      have hmode := congrArg AuthConfig.mode (Except.ok.inj h)
      cases hmode
    · intro h
      obtain ⟨secret, hset, -⟩ := h.secret
      rw [hsome] at hset
      cases hset
  | some secret =>
    simp only [AuthConfig.jwt, bind_ok_iff, rejectIf_ok_iff, pure_ok_iff, not_not, not_or]
    constructor
    · rintro ⟨issuer, hissuer, audience, haudience, allowed, hallowed, admin, hadmin, leeway,
        hleeway, _, hbytes, _, ⟨-, hissuerBytes⟩, _, ⟨-, haudienceBytes⟩, tenantPath, htenant,
        rolePath, hrole, _, hne, _, hsubset, _, hrange, _, hcookie, hconfig⟩
      obtain ⟨hmode, hname⟩ := AuthConfig.mk.inj hconfig
      obtain rfl := AuthMode.jwt.inj hmode
      rw [hname] at hcookie
      rw [(requiredEnv_ok hissuer).1, not_lt] at hissuerBytes
      rw [(requiredEnv_ok haudience).1, not_lt] at haudienceBytes
      exact {
        secret := ⟨secret, hsome, rfl⟩
        secretBytes := hbytes
        issuer := by
          rw [(requiredEnv_ok hissuer).1]
          exact ⟨hissuer, hissuerBytes⟩
        audience := by
          rw [(requiredEnv_ok haudience).1]
          exact ⟨haudience, haudienceBytes⟩
        tenantClaimPath := htenant
        roleClaimPath := hrole
        allowedRoles := ⟨hallowed, hne⟩
        adminRoles := ⟨hadmin, hsubset⟩
        leewaySeconds := ⟨hleeway, hrange⟩
        cookieName := ⟨hname, hcookie⟩ }
    · intro h
      obtain ⟨secret', hset, hutf8⟩ := h.secret
      obtain rfl := Option.some.inj (hsome.symm.trans hset)
      obtain ⟨htrim, hne⟩ := requiredEnv_ok h.issuer.1
      obtain ⟨htrim', hne'⟩ := requiredEnv_ok h.audience.1
      refine ⟨_, h.issuer.1, _, h.audience.1, _, h.allowedRoles.1, _, h.adminRoles.1, _,
        h.leewaySeconds.1, (), ?_, (), ?_, (), ?_, _, h.tenantClaimPath, _, h.roleClaimPath, (),
        h.allowedRoles.2, (), h.adminRoles.2, (), h.leewaySeconds.2, (), ?_, ?_⟩
      · rw [← hutf8]
        exact h.secretBytes
      · rw [htrim, hne, not_lt]
        exact ⟨Bool.false_ne_true, h.issuer.2⟩
      · rw [htrim', hne', not_lt]
        exact ⟨Bool.false_ne_true, h.audience.2⟩
      · rw [h.cookieName.1]
        exact h.cookieName.2
      · rw [h.cookieName.1, htrim, htrim', ← hutf8]

/-- Headers are trusted only outside production, on request and without a secret. -/
theorem fromEnv_insecure_iff : AuthConfig.fromEnv env production allowInsecureTenantHeader
    = .ok .insecureHeaders ↔ nonblank env "EAL_JWT_HS256_SECRET" = none ∧ production = false ∧
      allowInsecureTenantHeader = true := by
  have hsecret : (env "EAL_JWT_HS256_SECRET").filter (fun value => !(trimString value).isEmpty)
      = nonblank env "EAL_JWT_HS256_SECRET" := rfl
  rw [AuthConfig.fromEnv, hsecret]
  cases hsome : nonblank env "EAL_JWT_HS256_SECRET" with
  | none =>
    simp only
    cases production with
    | true => simp
    | false =>
      cases allowInsecureTenantHeader with
      | true => simp
      | false => simp
  | some secret =>
    refine iff_of_false (fun h => ?_) (fun h => Option.some_ne_none secret h.1)
    simp only [bind_ok_iff] at h
    obtain ⟨issuer, -, audience, -, allowed, -, admin, -, leeway, -, hjwt⟩ := h
    obtain ⟨verifier, hmode, -⟩ := Auth.jwt_verifier hjwt
    cases hmode

theorem fromEnv_cases (h : AuthConfig.fromEnv env production allowInsecureTenantHeader = .ok config) :
    config = .insecureHeaders ∨ ∃ verifier, config.mode = .jwt verifier ∧
      ConfiguredVerifier env verifier config.cookieName := by
  obtain ⟨mode, cookieName⟩ := config
  cases mode with
  | jwt verifier => exact Or.inr ⟨verifier, rfl, fromEnv_jwt_iff.mp h⟩
  | insecureHeaders =>
    rw [AuthConfig.fromEnv] at h
    split at h
    · simp only [bind_ok_iff] at h
      obtain ⟨issuer, -, audience, -, allowed, -, admin, -, leeway, -, hjwt⟩ := h
      obtain ⟨verifier, hmode, -⟩ := Auth.jwt_verifier hjwt
      cases hmode
    · split_ifs at h
      exact Or.inl (Except.ok.inj h).symm

end Verifier

/-! ### What a started server is -/

section Started

variable {x : Platform} {o : OriginCrates} {env : String → Option String} {services : Services}
  {state : AppState}

/-- The state of a server, with what each part of it was read from. -/
structure Started (x : Platform) (o : OriginCrates) (env : String → Option String)
    (services : Services) (state : AppState) : Prop where
  environment : AppEnvironment.parse (env "APP_ENV") = .ok state.environment
  auth : AuthConfig.fromEnv env (decide (state.environment = .production))
    (envFlag env "ALLOW_INSECURE_TENANT_HEADER") = .ok state.auth
  db : connectDatabase env services = .ok state.db
  migrated : migrateOnStartup env services state.db = .ok ()
  schemaReady : verifySchema services state.db = .ok state.schemaReady
  ingestAuthConfigured : state.ingestAuthConfigured = WorkerAuth.isConfigured env
  policy : state.environment = .production → state.db.isSome = true ∧ state.schemaReady = true ∧
    state.auth.isJwt = true ∧ state.ingestAuthConfigured = true
  allowedOrigins : Origins.configuredOrigins x o env (decide (state.environment = .production))
    = .ok state.allowedOrigins
  supabaseUrl : state.supabaseUrl = env "SUPABASE_URL"

theorem validateStartupPolicy_ok_iff {environment : AppEnvironment} {a b c d : Bool} :
    validateStartupPolicy environment a b c d = .ok () ↔
      (environment = .production → a = true ∧ b = true ∧ c = true ∧ d = true) := by
  simp only [validateStartupPolicy, bind_ok_iff, rejectIf_ok_iff, not_and, Bool.not_eq_false]
  constructor
  · rintro ⟨-, ha, -, hb, -, hc, hd⟩ henv
    exact ⟨ha henv, hb henv, hc henv, hd henv⟩
  · intro h
    exact ⟨(), fun henv => (h henv).1, (), fun henv => (h henv).2.1, (),
      fun henv => (h henv).2.2.1, fun henv => (h henv).2.2.2⟩

theorem start_ok_iff : start x o env services = .ok state ↔ Started x o env services state := by
  simp only [start, bind_ok_iff, pure_ok_iff]
  constructor
  · rintro ⟨environment, henv, auth, hauth, db, hdb, ⟨⟩, hmigrate, schemaReady, hschema, ⟨⟩, hpolicy,
      origins, horigins, rfl⟩
    exact {
      environment := henv
      auth := hauth
      db := hdb
      migrated := hmigrate
      schemaReady := hschema
      ingestAuthConfigured := rfl
      policy := validateStartupPolicy_ok_iff.mp hpolicy
      allowedOrigins := horigins
      supabaseUrl := rfl }
  · intro h
    have hpolicy := h.policy
    rw [h.ingestAuthConfigured] at hpolicy
    refine ⟨_, h.environment, _, h.auth, _, h.db, (), h.migrated, _, h.schemaReady, (),
      validateStartupPolicy_ok_iff.mpr hpolicy, _, h.allowedOrigins, ?_⟩
    rw [← h.ingestAuthConfigured, ← h.supabaseUrl]

theorem parse_production_iff {value : Option String} :
    AppEnvironment.parse value = .ok .production ↔ ∃ text, value = some text ∧
      (asciiLowercase (trim text.toList) = "prod".toList ∨
        asciiLowercase (trim text.toList) = "production".toList) := by
  have hname : ∀ {l : List Char} {name : String}, String.ofList l = name ↔ l = name.toList := by
    intro l name
    rw [← String.toList_inj, String.toList_ofList]
  have hparse : AppEnvironment.parse value = .ok .production ↔
      (asciiLowercase (trim (value.getD "development").toList) = "prod".toList ∨
        asciiLowercase (trim (value.getD "development").toList) = "production".toList) := by
    simp only [AppEnvironment.parse, hname]
    split_ifs with hdev htest hprod
    · refine iff_of_false (fun h => nomatch h) fun hprod => ?_
      rcases hprod with hprod | hprod
      · rw [hprod] at hdev
        exact absurd hdev (by decide)
      · rw [hprod] at hdev
        exact absurd hdev (by decide)
    · refine iff_of_false (fun h => nomatch h) fun hprod => ?_
      rcases hprod with hprod | hprod
      · rw [hprod] at htest
        exact absurd htest (by decide)
      · rw [hprod] at htest
        exact absurd htest (by decide)
    · exact iff_of_true rfl hprod
    · exact iff_of_false (fun h => nomatch h) hprod
  rw [hparse]
  cases value with
  | none => exact iff_of_false (by decide) fun ⟨_, h, _⟩ => nomatch h
  | some text =>
    constructor
    · exact fun h => ⟨text, rfl, h⟩
    · rintro ⟨text', htext, h⟩
      obtain rfl := Option.some.inj htext
      exact h

/-- Everything that a server in production depends on is there. -/
structure ProductionEnv (x : Platform) (o : OriginCrates) (env : String → Option String)
    (services : Services) : Prop where
  named : ∃ text, env "APP_ENV" = some text ∧ (asciiLowercase (trim text.toList) = "prod".toList ∨
    asciiLowercase (trim text.toList) = "production".toList)
  verifier : ∃ verifier cookieName, ConfiguredVerifier env verifier cookieName
  database : ∃ url connection, nonblank env "DATABASE_URL" = some url ∧
    services.connect url = .ok connection ∧
    (envFlag env "MIGRATE_ON_STARTUP" = true → services.migrateAll connection = .ok ()) ∧
    services.schemaReady connection = .ok true
  worker : ∃ value digest, env WorkerAuth.ingestTokenDigestEnv = some value ∧
    WorkerAuth.Spells value digest ∧ digest.length = 32
  origins : ∃ raw, nonblank env "CORS_ALLOWED_ORIGINS" = some raw ∧ Origins.items raw ≠ [] ∧
    ∀ item ∈ Origins.items raw, ∃ origin, Origins.OriginOf x o item origin

theorem connectDatabase_some_iff {connection : DatabaseConnection} :
    connectDatabase env services = .ok (some connection) ↔
      ∃ url, nonblank env "DATABASE_URL" = some url ∧ services.connect url = .ok connection := by
  unfold connectDatabase
  cases nonblank env "DATABASE_URL" with
  | none => exact iff_of_false (fun h => nomatch h) fun ⟨_, h, _⟩ => nomatch h
  | some url =>
    have hmap : ((services.connect url).mapError fun _ => "connect database").map some
        = .ok (some connection) ↔ services.connect url = .ok connection := by
      cases services.connect url with
      | error e => exact iff_of_false (fun h => nomatch h) fun h => nomatch h
      | ok connection' =>
        exact ⟨fun h => congrArg Except.ok (Option.some.inj (Except.ok.inj h)),
          fun h => congrArg (fun c => Except.ok (some c)) (Except.ok.inj h)⟩
    rw [hmap]
    exact ⟨fun h => ⟨url, rfl, h⟩, fun ⟨_, hurl, h⟩ => Option.some.inj hurl ▸ h⟩

theorem migrateOnStartup_some_iff {connection : DatabaseConnection} :
    migrateOnStartup env services (some connection) = .ok () ↔
      (envFlag env "MIGRATE_ON_STARTUP" = true → services.migrateAll connection = .ok ()) := by
  unfold migrateOnStartup
  by_cases hflag : envFlag env "MIGRATE_ON_STARTUP" = true
  · rw [if_pos hflag, okOr_bind]
    simp only [mapError_ok_iff, Option.some.injEq, exists_eq_left', hflag, true_imp_iff]
  · rw [if_neg hflag]
    exact iff_of_true rfl fun h => absurd h hflag

theorem configuredOrigins_production_iff {origins : List HeaderValue} :
    Origins.configuredOrigins x o env true = .ok origins ↔
      ∃ raw, nonblank env "CORS_ALLOWED_ORIGINS" = some raw ∧
        Origins.parseOrigins x o raw = .ok origins := by
  unfold Origins.configuredOrigins
  cases nonblank env "CORS_ALLOWED_ORIGINS" with
  | none => exact iff_of_false (fun h => nomatch h) fun ⟨_, h, _⟩ => nomatch h
  | some raw => exact ⟨fun h => ⟨raw, rfl, h⟩, fun ⟨_, hraw, h⟩ => Option.some.inj hraw ▸ h⟩

theorem Started.production (h : Started x o env services state)
    (henv : state.environment = .production) : ∃ connection, state.db = some connection ∧
      (∃ url, nonblank env "DATABASE_URL" = some url ∧ services.connect url = .ok connection) ∧
      (envFlag env "MIGRATE_ON_STARTUP" = true → services.migrateAll connection = .ok ()) ∧
      services.schemaReady connection = .ok true := by
  obtain ⟨hdb, hready, -, -⟩ := h.policy henv
  obtain ⟨connection, hconnection⟩ := Option.isSome_iff_exists.mp hdb
  have hconnected := h.db
  have hmigrated := h.migrated
  have hschema := h.schemaReady
  rw [hconnection] at hconnected hmigrated hschema
  rw [verifySchema, mapError_ok_iff, hready] at hschema
  exact ⟨connection, hconnection, connectDatabase_some_iff.mp hconnected,
    migrateOnStartup_some_iff.mp hmigrated, hschema⟩

theorem Started.verifier (h : Started x o env services state)
    (hjwt : state.auth.isJwt = true) : ∃ verifier, state.auth.mode = .jwt verifier ∧
      ConfiguredVerifier env verifier state.auth.cookieName := by
  rcases fromEnv_cases h.auth with hinsecure | hverifier
  · rw [hinsecure] at hjwt
    cases hjwt
  · exact hverifier

theorem Started.productionEnv (h : Started x o env services state)
    (henv : state.environment = .production) : ProductionEnv x o env services := by
  obtain ⟨connection, -, ⟨url, hurl, hconnect⟩, hmigrate, hschema⟩ := h.production henv
  obtain ⟨-, -, hjwt, hingest⟩ := h.policy henv
  obtain ⟨verifier, -, hverifier⟩ := h.verifier hjwt
  have horigins := h.allowedOrigins
  rw [decide_eq_true henv, configuredOrigins_production_iff] at horigins
  obtain ⟨raw, hraw, hparse⟩ := horigins
  obtain ⟨hne, hall, -⟩ := Origins.parseOrigins_ok_iff.mp hparse
  exact {
    named := parse_production_iff.mp (henv ▸ h.environment)
    verifier := ⟨verifier, _, hverifier⟩
    database := ⟨url, connection, hurl, hconnect, hmigrate, hschema⟩
    worker := WorkerAuth.isConfigured_iff.mp (h.ingestAuthConfigured ▸ hingest)
    origins := ⟨raw, hraw, hne, hall⟩ }

/-- A server starts in production if everything is there. -/
theorem ProductionEnv.starts (h : ProductionEnv x o env services) :
    ∃ state, Started x o env services state ∧ state.environment = .production := by
  obtain ⟨verifier, cookieName, hverifier⟩ := h.verifier
  obtain ⟨url, connection, hurl, hconnect, hmigrate, hschema⟩ := h.database
  obtain ⟨raw, hraw, hne, hall⟩ := h.origins
  have hingest : WorkerAuth.isConfigured env = true := WorkerAuth.isConfigured_iff.mpr h.worker
  obtain ⟨origins, hparse⟩ := Origins.exists_parseOrigins hne hall
  refine ⟨{ environment := .production, db := some connection, schemaReady := true,
            ingestAuthConfigured := true, auth := ⟨.jwt verifier, cookieName⟩,
            allowedOrigins := origins, supabaseUrl := env "SUPABASE_URL" }, ?_, rfl⟩
  exact {
    environment := parse_production_iff.mpr h.named
    auth := fromEnv_jwt_iff.mpr hverifier
    db := connectDatabase_some_iff.mpr ⟨url, hurl, hconnect⟩
    migrated := migrateOnStartup_some_iff.mpr hmigrate
    schemaReady := mapError_ok_iff.mpr hschema
    ingestAuthConfigured := hingest.symm
    policy := fun _ => ⟨rfl, rfl, rfl, rfl⟩
    allowedOrigins := configuredOrigins_production_iff.mpr ⟨raw, hraw, hparse⟩
    supabaseUrl := rfl }

theorem health_status_iff : (health state).status = "ok" ↔ state.db.isSome = true ∧
    state.schemaReady = true ∧ state.auth.isJwt = true ∧ state.ingestAuthConfigured = true := by
  have hready : (health state).status = "ok" ↔ (state.db.isSome && state.schemaReady
      && state.auth.isJwt && state.ingestAuthConfigured) = true := by
    cases hready : (state.db.isSome && state.schemaReady && state.auth.isJwt
        && state.ingestAuthConfigured) with
    | true => exact iff_of_true (by simp only [health, hready, if_true]) rfl
    | false =>
      refine iff_of_false ?_ (fun h => nomatch h)
      simp only [health, hready, Bool.false_eq_true, if_false]
      decide
  rw [hready]
  simp only [Bool.and_eq_true, and_assoc]

end Started

/-- **`main` reaches its server state in production exactly if everything it depends on was
there.**  Then this state reports that it is ready, and its verifier is the one that the
variables of the process describe, within the limits; and any state that `main` reaches, in
production or not, trusts headers without a token only if it was asked to outside production
and no secret is set. -/
theorem production_start_iff (x : Platform) (o : OriginCrates) (env : String → Option String)
    (services : Services) :
    ((∃ state, start x o env services = .ok state ∧ state.environment = .production) ↔
      ProductionEnv x o env services) ∧
    (∀ state, start x o env services = .ok state → state.environment = .production →
      (health state).status = "ok" ∧ ∃ verifier, state.auth.mode = .jwt verifier ∧
        ConfiguredVerifier env verifier state.auth.cookieName) ∧
    ∀ state, start x o env services = .ok state →
      (state.auth.mode = .insecureHeaders ↔ state.environment ≠ .production ∧
        envFlag env "ALLOW_INSECURE_TENANT_HEADER" = true ∧
        nonblank env "EAL_JWT_HS256_SECRET" = none) := by
  simp only [start_ok_iff]
  refine ⟨⟨fun ⟨state, h, henv⟩ => h.productionEnv henv, fun h => h.starts⟩,
    fun state h henv => ?_, fun state h => ?_⟩
  · exact ⟨health_status_iff.mpr (h.policy henv), h.verifier (h.policy henv).2.2.1⟩
  · constructor
    · intro hmode
      rcases fromEnv_cases h.auth with hinsecure | ⟨verifier, hjwt, -⟩
      · have hauth := h.auth
        rw [hinsecure, fromEnv_insecure_iff, decide_eq_false_iff_not] at hauth
        exact ⟨hauth.2.1, hauth.2.2, hauth.1⟩
      · rw [hmode] at hjwt
        cases hjwt
    · rintro ⟨henv, hflag, hnone⟩
      have hauth := h.auth
      rw [fromEnv_insecure_iff.mpr ⟨hnone, decide_eq_false henv, hflag⟩] at hauth
      rw [← Except.ok.inj hauth]
      rfl

namespace Deployment

open Auth (Token.config)

def settings : List (String × String) := [
  ("APP_ENV", " Production"),
  ("EAL_JWT_HS256_SECRET", "0123456789abcdef0123456789abcdef"),
  ("EAL_JWT_ISSUER", "https://auth.example.test"),
  ("EAL_JWT_AUDIENCE", "eal-api"),
  ("EAL_JWT_TENANT_CLAIM", "app_metadata.tenant_id"),
  ("EAL_JWT_ROLE_CLAIM", "roles"),
  ("EAL_JWT_LEEWAY_SECONDS", "0"),
  ("DATABASE_URL", "postgres://localhost/eal"),
  ("EAL_INGEST_TOKEN_SHA256", String.ofList WorkerAuth.Worker.spelling),
  ("CORS_ALLOWED_ORIGINS", Browser.text)]

def env (name : String) : Option String := settings.lookup name

def services : Services where
  connect url := .ok ⟨url⟩
  migrateAll _ := .ok ()
  schemaReady _ := .ok true

def state : AppState where
  environment := .production
  db := some ⟨"postgres://localhost/eal"⟩
  schemaReady := true
  ingestAuthConfigured := true
  auth := Token.config
  allowedOrigins := Browser.origins
  supabaseUrl := none

theorem isConfigured_env : WorkerAuth.isConfigured env = true :=
  WorkerAuth.isConfigured_iff.mpr ⟨String.ofList WorkerAuth.Worker.spelling,
    WorkerAuth.Worker.digest, by decide, WorkerAuth.Worker.spells, by decide⟩

/-- The sets are filled from the first role to the last. -/
theorem allowed_roles : Auth.parseRoleSet
    (Auth.envString env "EAL_JWT_ALLOWED_ROLES" "authenticated,member,admin,owner")
    = .ok {"owner", "admin", "member", "authenticated"} := by
  decide

theorem admin_roles : Auth.parseRoleSet
    (Auth.envString env "EAL_JWT_TENANT_ADMIN_ROLES" "admin,owner") = .ok {"owner", "admin"} := by
  decide

theorem configured : ConfiguredVerifier env Auth.Token.verifier Token.config.cookieName where
  secret := ⟨"0123456789abcdef0123456789abcdef", by decide, rfl⟩
  secretBytes := by decide
  issuer := ⟨by decide, by decide⟩
  audience := ⟨by decide, by decide⟩
  tenantClaimPath := by decide
  roleClaimPath := by decide
  allowedRoles := ⟨allowed_roles.trans (congrArg Except.ok (by decide)), by decide⟩
  adminRoles := ⟨admin_roles.trans (congrArg Except.ok (by decide)), by decide⟩
  leewaySeconds := ⟨by decide, by decide⟩
  cookieName := ⟨by decide, by decide⟩

theorem started : Started Browser.platform Browser.crates env services state where
  environment := by decide
  auth := fromEnv_jwt_iff.mpr configured
  db := by decide
  migrated := by decide
  schemaReady := by decide
  ingestAuthConfigured := isConfigured_env.symm
  policy _ := ⟨rfl, rfl, rfl, rfl⟩
  allowedOrigins := configuredOrigins_production_iff.mpr
    ⟨Browser.text, by decide, Browser.parse_text⟩
  supabaseUrl := by decide

end Deployment

open Deployment in
/-- A deployment with the origins and the worker of the tests. -/
theorem production_start_deployment :
    start Browser.platform Browser.crates env services = .ok state ∧
    ProductionEnv Browser.platform Browser.crates env services ∧
    (health state).status = "ok" := by
  have hstart : start Browser.platform Browser.crates env services = .ok state :=
    start_ok_iff.mpr started
  obtain ⟨hiff, hready, -⟩ := production_start_iff Browser.platform Browser.crates env services
  exact ⟨hstart, hiff.mp ⟨state, hstart, rfl⟩, (hready state hstart rfl).1⟩

end EmbeddedAlerts
