import EmbeddedAlerts.Events
import EmbeddedAlerts.Machine.Run
import EmbeddedAlerts.Startup
import EmbeddedAlerts.Tenancy

/-!
# The server

`src/server_routes.rs`, from the headers of a request to its reply.  The member routes
authenticate their caller before they look at the body (`Authenticated`); the worker
routes read the body, and then ask for the workers' token and the tenant's header.
`identify` makes a `Call` of a request, `preflight` are the checks that a handler makes
before it asks for the database, and `handle` is one request from the headers to the
reply, with the events that it publishes.

* `preflight_error`: the checks are the first ones of the handler.
* `Credential`: a request carries a credential for a tenant, read off its headers and the
  variables of the process.
* `tenant_sealed`: **in production the rows of a tenant are touched, and its events are
  published, only by requests with a credential for it.**
-/

namespace EmbeddedAlerts

open Sql Text Relation
open Auth (HeaderMap TokenCrates JwtVerifier)

/-! ### Requests and replies -/

/-- The routes of `build_router` with a handler that uses the store. -/
inductive Route where
  | listRecords
  | getRecord
  | createRecord
  | upsertAlertEmbedding
  | listSources
  | getSource
  | createSource
  | ingestPage
  | reverseMatchPage
  | searchEmbeddings
  | evaluateMatches
deriving DecidableEq, Repr

/-- The routes without `Authenticated`. -/
def Route.forWorkers : Route → Bool
  | upsertAlertEmbedding => true
  | ingestPage => true
  | reverseMatchPage => true
  | _ => false

def Request.route : Request → Route
  | listRecords => .listRecords
  | getRecord _ => .getRecord
  | createRecord _ => .createRecord
  | upsertAlertEmbedding _ _ => .upsertAlertEmbedding
  | listSources => .listSources
  | getSource _ => .getSource
  | createSource _ => .createSource
  | ingestPage _ _ => .ingestPage
  | reverseMatchPage _ _ => .reverseMatchPage
  | searchEmbeddings _ => .searchEmbeddings
  | evaluateMatches _ => .evaluateMatches

/-- A request as it arrives.  `input` is what `Path` and `Json` make of the path and the
body; what they cannot read is answered with a status of theirs. -/
structure HttpRequest where
  headers : HeaderMap HeaderValue
  route : Route
  input : Except ℕ Request
  routed : ∀ request, input = .ok request → request.route = route
  /-- `chrono::Utc::now().timestamp()`. -/
  now : ℤ
  inClock : Auth.InClock now
  supply : Supply

inductive Reply where
  | ok (status : ℕ) (response : Response)
  | error (reply : ErrorReply)
  | rejected (status : ℕ)
deriving DecidableEq

/-- A running server: what it was built with and what it read at its start. -/
structure Server where
  x : Platform
  crates : TokenCrates
  env : String → Option String
  state : AppState

/-! ### Handlers -/

/-- What the handlers read of an authenticated caller. -/
def memberContext (auth : Auth.AuthContext) : AuthContext :=
  ⟨auth.tenantId, auth.subject, auth.tenantAdmin⟩

/-- `require_database`. -/
def requireDatabase (state : AppState) : Except ErrorReply DatabaseConnection :=
  if state.schemaReady = false then .error .databaseRequired
  else okOr state.db .databaseRequired

/-- The caller of a request and what it asks for.  The worker routes know no subject. -/
def Server.identify (server : Server) (request : HttpRequest) : Except Reply Call :=
  if request.route.forWorkers = true then do
    let input ← request.input.mapError .rejected
    (WorkerAuth.authorize HeaderValue.bytes server.x server.env request.headers).mapError .error
    let tenantId ← (Auth.tenantIdFromHeaders HeaderValue.toStr server.x request.headers).mapError
      fun e => .error e.reply
    return ⟨⟨tenantId, "", false⟩, request.supply, input⟩
  else do
    let auth ← (server.state.auth.authenticateAt HeaderValue.toStr server.crates server.x
      request.headers request.now).mapError fun e => Reply.error e.reply
    let input ← request.input.mapError .rejected
    return ⟨memberContext auth, request.supply, input⟩

/-- The checks of a handler before `require_database`. -/
def preflight (x : Platform) (call : Call) : Except HttpError Unit :=
  match call.request with
  | .createRecord input => do
    let _ ← (Alerts.normalized x input).mapError .validation
    return ()
  | .upsertAlertEmbedding _ input => (x.validateEmbedding input.embedding).mapError .validation
  | .createSource input => do
    rejectIf (¬ call.auth.isTenantAdmin = true)
      (.forbidden "this operation requires a tenant administrator role")
    (x.validateSource input).mapError .validation
    let _ ← (Indexing.canonicalizeSourceRoot x input).mapError .validation
    return ()
  | .ingestPage sourceId input => do
    (x.validatePage input).mapError .validation
    rejectIf (¬ input.sourceId = sourceId)
      (.badRequest "body source_id must match the source_id route parameter")
  | .reverseMatchPage sourceId input => do
    (input.validate x).mapError .validation
    rejectIf (¬ input.sourceId = sourceId)
      (.badRequest "body source_id must match the source_id route parameter")
  | .searchEmbeddings input => (x.validateSearch input).mapError .validation
  | .evaluateMatches input => do
    rejectIf (¬ (0 ≤ input.threshold ∧ input.threshold ≤ 1))
      (.validation "threshold must be finite and between 0 and 1")
    (x.validateSearch input.search).mapError .validation
  | .listRecords => .ok ()
  | .getRecord _ => .ok ()
  | .listSources => .ok ()
  | .getSource _ => .ok ()

/-- Everything that happens to a request before the database is used. -/
def Server.accept (server : Server) (request : HttpRequest) : Except Reply Call := do
  let call ← server.identify request
  (preflight server.x call).mapError fun e => Reply.error e.reply
  let _ ← (requireDatabase server.state).mapError Reply.error
  return call

/-- The status of a reply that is not an error. -/
def successStatus (request : Request) (response : Response) : ℕ :=
  match request, response with
  | .createRecord _, _ => 201
  | .createSource _, _ => 201
  | _, .receipt receipt => if receipt.created = true then 201 else 200
  | _, .page page => if page.changed = true then 201 else 200
  | _, .matched response => if response.changed = true then 201 else 200
  | _, _ => 200

/-- The reply to a call, and the events that are published. -/
def Call.answer (call : Call) : Except HttpError (Response × List TenantEvent) →
    Reply × List TenantEvent
  | .ok (response, events) => (.ok (successStatus call.request response) response, events)
  | .error e => (.error e.reply, [])

/-- One request: the reply and the events that are published, and the store after it. -/
def Server.handle (server : Server) (db : Db) (request : HttpRequest) :
    (Reply × List TenantEvent) × Db :=
  match server.accept request with
  | .error reply => ((reply, []), db)
  | .ok call => (call.answer (call.publish server.x db).1, (call.publish server.x db).2)

/-! ### The checks come first -/

section Preflight

variable {x : Platform} {db : Db} {e : HttpError}

theorem validated_bind_of_error {α β : Type} {r : Except String α} {f : α → Api β}
    (h : r.mapError HttpError.validation = .error e) :
    (Routes.validated r >>= f) db = (.error e, db) := by
  refine Action.bind_of_error ?_
  show (r.mapError HttpError.validation, db) = (.error e, db)
  rw [h]

theorem validated_bind_of_ok {α β : Type} {r : Except String α} {f : α → Api β} {a : α}
    (h : r.mapError HttpError.validation = .ok a) : (Routes.validated r >>= f) db = f a db := by
  refine Action.bind_of_ok ?_
  show (r.mapError HttpError.validation, db) = (.ok a, db)
  rw [h]

theorem ensure_bind_of {p : Prop} [Decidable p] {β : Type} {f : Unit → Api β} (h : p) :
    (Action.ensure p e >>= f) db = f () db :=
  Action.bind_of_ok (Action.ensure_apply_of h e db)

theorem ensure_bind_of_reject {p : Prop} [Decidable p] {β : Type} {f : Unit → Api β} {e' : HttpError}
    (h : rejectIf (¬ p) e' = .error e) : (Action.ensure p e' >>= f) db = (.error e, db) := by
  obtain ⟨hp, rfl⟩ := rejectIf_error_iff.mp h
  exact Action.bind_of_error (Action.ensure_apply_of_not hp e' db)

/-- **The checks are the first ones of the handler**: a request that fails one of them
fails with that error, and has not touched the store. -/
theorem preflight_error {call : Call} (h : preflight x call = .error e) :
    call.publish x db = (.error e, db) := by
  obtain ⟨auth, supply, request⟩ := call
  cases request with
  | listRecords | getRecord _ | listSources | getSource _ => cases h
  | createRecord input =>
    rcases bind_error_iff.mp h with h | ⟨_, -, h⟩
    · exact Action.bind_of_error (validated_bind_of_error h)
    · cases h
  | upsertAlertEmbedding alertRuleId input =>
    exact Action.bind_of_error (Action.bind_of_error (validated_bind_of_error h))
  | createSource input =>
    refine Action.bind_of_error ?_
    rcases bind_error_iff.mp h with h | ⟨⟨⟩, hadmin, h⟩
    · exact ensure_bind_of_reject h
    · refine (ensure_bind_of (not_not.mp (rejectIf_ok_iff.mp hadmin))).trans ?_
      rcases bind_error_iff.mp h with h | ⟨_, hvalid, h⟩
      · exact validated_bind_of_error h
      · refine (validated_bind_of_ok hvalid).trans ?_
        rcases bind_error_iff.mp h with h | ⟨_, -, h⟩
        · exact validated_bind_of_error h
        · cases h
  | ingestPage sourceId input =>
    refine Action.bind_of_error ?_
    rcases bind_error_iff.mp h with h | ⟨_, hvalid, h⟩
    · exact validated_bind_of_error h
    · exact (validated_bind_of_ok hvalid).trans (Action.bind_of_error (ensure_bind_of_reject h))
  | reverseMatchPage sourceId input =>
    refine Action.bind_of_error ?_
    rcases bind_error_iff.mp h with h | ⟨_, hvalid, h⟩
    · exact validated_bind_of_error h
    · exact (validated_bind_of_ok hvalid).trans (Action.bind_of_error (ensure_bind_of_reject h))
  | searchEmbeddings input =>
    exact Action.bind_of_error (Action.bind_of_error (validated_bind_of_error h))
  | evaluateMatches input =>
    refine Action.bind_of_error ?_
    rcases bind_error_iff.mp h with h | ⟨_, hrange, h⟩
    · exact ensure_bind_of_reject h
    · refine (ensure_bind_of (not_not.mp (rejectIf_ok_iff.mp hrange))).trans ?_
      exact validated_bind_of_error h

end Preflight

/-! ### One request -/

/-- An event is one of the caller's tenant. -/
theorem Call.publish_tenant {x : Platform} {db s : Db} {call : Call} {response : Response}
    {events : List TenantEvent} (h : call.publish x db = (.ok (response, events), s)) :
    ∀ event ∈ events, event.tenantId = call.auth.tenantId := by
  obtain ⟨auth, supply, request⟩ := call
  have hone : ∀ {α : Type} {a : Api α} {f : α → Response} {g : α → TenantEvent},
      (∀ r, (g r).tenantId = auth.tenantId) → (do let r ← a; return (f r, [g r]) :
        Api (Response × List TenantEvent)) db = (.ok (response, events), s) →
      ∀ event ∈ events, event.tenantId = auth.tenantId := by
    intro α a f g hg hrun event hevent
    obtain ⟨r, s1, -, hreturn⟩ := Action.bind_eq_ok hrun
    obtain ⟨-, rfl⟩ := Prod.mk.inj (Except.ok.inj (Prod.mk.inj hreturn).1)
    rw [List.mem_singleton.mp hevent]
    exact hg r
  have hnone : ∀ {a : Api Response}, (do let r ← a; return (r, []) :
      Api (Response × List TenantEvent)) db = (.ok (response, events), s) →
      ∀ event ∈ events, event.tenantId = auth.tenantId := by
    intro a hrun event hevent
    obtain ⟨r, s1, -, hreturn⟩ := Action.bind_eq_ok hrun
    obtain ⟨-, rfl⟩ := Prod.mk.inj (Except.ok.inj (Prod.mk.inj hreturn).1)
    cases hevent
  cases request with
  | createRecord input => exact hone (fun _ => rfl) h
  | createSource input => exact hone (fun _ => rfl) h
  | ingestPage sourceId input => exact hone (fun _ => rfl) h
  | reverseMatchPage sourceId input => exact hone (fun _ => rfl) h
  | evaluateMatches input =>
    obtain ⟨⟨rule, threshold, search⟩, s1, -, h1⟩ := Action.bind_eq_ok h
    obtain ⟨candidates, s2, -, h2⟩ := Action.bind_eq_ok h1
    obtain ⟨-, rfl⟩ := Prod.mk.inj (Except.ok.inj (Prod.mk.inj h2).1)
    intro event hevent
    obtain ⟨candidate, -, rfl⟩ := List.mem_map.mp hevent
    rfl
  | listRecords | getRecord _ | upsertAlertEmbedding _ _ | listSources | getSource _
  | searchEmbeddings _ => exact hnone h

section Handle

variable {server : Server} {request : HttpRequest} {db : Db} {call : Call} {reply : Reply}

theorem Server.handle_refused (h : server.accept request = .error reply) :
    server.handle db request = ((reply, []), db) := by
  rw [handle, h]

theorem Server.handle_of_ok (h : server.accept request = .ok call) : server.handle db request
    = (call.answer (call.publish server.x db).1, (call.publish server.x db).2) := by
  rw [handle, h]

/-- What an admitted request does to the store is what its call does. -/
theorem Server.handle_admitted (h : server.accept request = .ok call) :
    (server.handle db request).2 = call.after server.x db := by
  rw [handle_of_ok h, Call.after, Call.exec_eq_publish]

theorem Server.handle_events (h : server.accept request = .ok call) :
    ∀ event ∈ (server.handle db request).1.2, event.tenantId = call.auth.tenantId := by
  intro event hevent
  rw [handle_of_ok h] at hevent
  rcases hrun : call.publish server.x db with ⟨e | ⟨response, events⟩, s⟩
  · rw [hrun] at hevent
    cases hevent
  · rw [hrun] at hevent
    exact Call.publish_tenant hrun event hevent

/-- **A server takes steps of the store's model**: a request is refused and changes
nothing, or it is one call. -/
theorem Server.handle_cases (server : Server) (db : Db) (request : HttpRequest) :
    (∃ reply, server.accept request = .error reply ∧
      server.handle db request = ((reply, []), db)) ∨
    ∃ call, server.accept request = .ok call ∧
      (server.handle db request).2 = call.after server.x db := by
  cases h : server.accept request with
  | error reply => exact Or.inl ⟨reply, rfl, handle_refused h⟩
  | ok call => exact Or.inr ⟨call, rfl, handle_admitted h⟩

theorem Server.handle_reachable (h : Reachable server.x db) :
    Reachable server.x (server.handle db request).2 := by
  rcases server.handle_cases db request with ⟨reply, -, hrefused⟩ | ⟨call, -, hadmitted⟩
  · rw [hrefused]
    exact h
  · rw [hadmitted]
    exact h.tail (.request call)

theorem Server.accept_ok_iff : server.accept request = .ok call ↔
    server.identify request = .ok call ∧ preflight server.x call = .ok () ∧
      server.state.schemaReady = true ∧ server.state.db.isSome = true := by
  have hdatabase : (∃ connection, requireDatabase server.state = .ok connection) ↔
      server.state.schemaReady = true ∧ server.state.db.isSome = true := by
    unfold requireDatabase
    by_cases hready : server.state.schemaReady = false
    · rw [if_pos hready]
      refine iff_of_false (fun ⟨_, h⟩ => nomatch h) fun h => ?_
      rw [hready] at h
      cases h.1
    · rw [if_neg hready, Bool.not_eq_false] at *
      rw [Option.isSome_iff_exists]
      simp only [okOr_ok_iff, hready, true_and]
  rw [← hdatabase, accept, bind_ok_iff]
  simp only [bind_ok_iff, mapError_ok_iff, pure_ok_iff]
  constructor
  · rintro ⟨call', hidentify, ⟨⟩, hpreflight, connection, hconnection, rfl⟩
    exact ⟨hidentify, hpreflight, connection, hconnection⟩
  · rintro ⟨hidentify, hpreflight, connection, hconnection⟩
    exact ⟨call, hidentify, (), hpreflight, connection, hconnection, rfl⟩

end Handle

/-! ### Credentials -/

/-- A request carries a credential for tenant `T`, under the variables of the process: for
a worker route the workers' token and the tenant's header, for any other route a token that
the configured verifier is to accept. -/
def Credential (x : Platform) (crates : TokenCrates) (env : String → Option String)
    (request : HttpRequest) (T : Uuid) : Prop :=
  if request.route.forWorkers = true then
    (∃ token, WorkerAuth.Carries HeaderValue.bytes x env request.headers token) ∧
      ∃ value text, request.headers.get "x-eal-tenant-id" = some value ∧
        value.toStr = some text ∧ x.uuidParseStr text = some T
  else
    ∃ verifier cookieName token auth, ConfiguredVerifier env verifier cookieName ∧
      Auth.Unanimous HeaderValue.toStr request.headers cookieName token ∧
      Auth.Accepts crates x verifier (String.ofList token) request.now auth ∧ auth.tenantId = T

theorem tenantIdFromHeaders_ok_iff {V : Type} {toStr : V → Option String} {x : Platform}
    {headers : HeaderMap V} {T : Uuid} : Auth.tenantIdFromHeaders toStr x headers = .ok T ↔
      ∃ value text, headers.get "x-eal-tenant-id" = some value ∧ toStr value = some text ∧
        x.uuidParseStr text = some T := by
  rw [Auth.tenantIdFromHeaders, okOr_bind]
  simp only [okOr_bind, okOr_ok_iff]
  constructor
  · rintro ⟨value, hvalue, text, htext, hparse⟩
    exact ⟨value, text, hvalue, htext, hparse⟩
  · rintro ⟨value, text, hvalue, htext, hparse⟩
    exact ⟨value, hvalue, text, htext, hparse⟩

/-- With a verifier, a member is who the token says. -/
theorem authenticateAt_jwt_iff {c : TokenCrates} (hc : c.Lawful) {x : Platform}
    {config : Auth.AuthConfig} {verifier : JwtVerifier} (hmode : config.mode = .jwt verifier)
    (hleeway : 0 ≤ verifier.leewaySeconds ∧ verifier.leewaySeconds ≤ 300)
    {headers : HeaderMap HeaderValue} {now : ℤ} (hnow : Auth.InClock now)
    {auth : Auth.AuthContext} :
    config.authenticateAt HeaderValue.toStr c x headers now = .ok auth ↔
      ∃ token, Auth.Unanimous HeaderValue.toStr headers config.cookieName token ∧
        Auth.Accepts c x verifier (String.ofList token) now auth := by
  rw [Auth.AuthConfig.authenticateAt, hmode, bind_ok_iff]
  simp only [Auth.extractToken_ok_iff, mapError_ok_iff, Auth.verify_accepts_iff hc hleeway hnow]

/-- **Who is identified has a credential**, if the server has a verifier. -/
theorem Server.identify_credential {server : Server} {request : HttpRequest} {call : Call}
    (hc : server.crates.Lawful) (hsha : ∀ bytes, (server.x.sha256 bytes).length = 32)
    {verifier : JwtVerifier} (hmode : server.state.auth.mode = .jwt verifier)
    (hverifier : ConfiguredVerifier server.env verifier server.state.auth.cookieName)
    (h : server.identify request = .ok call) :
    Credential server.x server.crates server.env request call.auth.tenantId := by
  unfold Server.identify at h
  unfold Credential
  by_cases hworker : request.route.forWorkers = true
  · rw [if_pos hworker] at h ⊢
    simp only [bind_ok_iff, mapError_ok_iff, pure_ok_iff] at h
    obtain ⟨input, -, ⟨⟩, hauthorize, tenantId, htenant, rfl⟩ := h
    exact ⟨(WorkerAuth.authorize_eq_ok_iff hsha).mp hauthorize,
      tenantIdFromHeaders_ok_iff.mp htenant⟩
  · rw [if_neg hworker] at h ⊢
    simp only [bind_ok_iff, mapError_ok_iff, pure_ok_iff] at h
    obtain ⟨auth, hauth, input, -, rfl⟩ := h
    obtain ⟨token, htoken, haccepts⟩ := (authenticateAt_jwt_iff hc hmode
      hverifier.leewaySeconds.2 request.inClock).mp hauth
    exact ⟨verifier, _, token, auth, hverifier, htoken, haccepts, rfl⟩

/-! ### Sealed tenants -/

/-- The rows of tenant `T`. -/
def Db.own (T : Uuid) (db : Db) : Db := db.restrict fun t => decide (t = T)

theorem filter_of_filter {α : Type} {p q : α → Bool} {l m : List α}
    (h : l.filter p = m.filter p) (hq : ∀ a, q a = true → p a = true) :
    l.filter q = m.filter q := by
  have hfilter : ∀ k : List α, (k.filter p).filter q = k.filter q := by
    intro k
    rw [List.filter_filter]
    refine List.filter_congr fun a _ => ?_
    cases ha : q a with
    | true =>
      rw [hq a ha]
      rfl
    | false => rfl
  rw [← hfilter l, h, hfilter m]

/-- What is left alone for the tenants other than `U` is left alone for `T`. -/
theorem Db.own_eq_of_others {T U : Uuid} {db db' : Db} (hne : T ≠ U)
    (h : db.others U = db'.others U) : db.own T = db'.own T := by
  have hkeep : ∀ V : Uuid, decide (V = T) = true → decide (V ≠ U) = true := by
    intro V hV
    rw [of_decide_eq_true hV]
    exact decide_eq_true hne
  have hsources := filter_of_filter (congrArg Db.sources h) fun r => hkeep r.tenantId
  have hpages := filter_of_filter (congrArg Db.pages h) fun r => hkeep r.tenantId
  have hrevisions := filter_of_filter (congrArg Db.pageRevisions h) fun r => hkeep r.tenantId
  have hembeddings := filter_of_filter (congrArg Db.embeddings h) fun r => hkeep r.tenantId
  have hrules := filter_of_filter (congrArg Db.alertRules h) fun r => hkeep r.tenantId
  have hruleRevisions :=
    filter_of_filter (congrArg Db.alertRuleRevisions h) fun r => hkeep r.tenantId
  have hruleEmbeddings :=
    filter_of_filter (congrArg Db.alertRuleEmbeddings h) fun r => hkeep r.tenantId
  have hcandidates := filter_of_filter (congrArg Db.matchCandidates h) fun r => hkeep r.tenantId
  unfold Db.own Db.restrict
  rw [hsources, hpages, hrevisions, hembeddings, hrules, hruleRevisions, hruleEmbeddings,
    hcandidates]

/-- A request of another tenant leaves the rows of `T` alone. -/
theorem Server.handle_own {server : Server} {request : HttpRequest} {db : Db} {T : Uuid}
    (hx : server.x.Lawful) (hdb : Reachable server.x db)
    (h : ∀ call, server.accept request = .ok call → call.auth.tenantId ≠ T) :
    (server.handle db request).2.own T = db.own T ∧
      ∀ event ∈ (server.handle db request).1.2, event.tenantId ≠ T := by
  rcases server.handle_cases db request with ⟨reply, -, hrefused⟩ | ⟨call, hcall, hadmitted⟩
  · rw [hrefused]
    exact ⟨rfl, fun event hevent => absurd hevent List.not_mem_nil⟩
  · constructor
    · rw [hadmitted]
      exact Db.own_eq_of_others (h call hcall).symm (call.after_steps hx (hdb.wf hx)).others_eq
    · intro event hevent
      rw [Server.handle_events hcall event hevent]
      exact h call hcall

/-- **In production a tenant is sealed.**  Whatever requests a server in production
receives, in whatever order: if none of them carries a credential for `T`, the rows of
`T` are what they were, and no event of `T` is published. -/
theorem tenant_sealed {server : Server} (hx : server.x.Lawful)
    (hsha : ∀ bytes, (server.x.sha256 bytes).length = 32) (hc : server.crates.Lawful)
    {o : OriginCrates} {services : Services}
    (hstart : start server.x o server.env services = .ok server.state)
    (hproduction : server.state.environment = .production)
    {db : Db} (hdb : Reachable server.x db) (T : Uuid) (requests : List HttpRequest)
    (hnone : ∀ request ∈ requests, ¬ Credential server.x server.crates server.env request T) :
    (Machine.final server.handle db requests).own T = db.own T ∧
    ∀ output ∈ Machine.outputs server.handle (fun _ => true) db requests,
      ∀ event ∈ output.2, event.tenantId ≠ T := by
  have hstarted := start_ok_iff.mp hstart
  obtain ⟨verifier, hmode, hverifier⟩ := hstarted.verifier (hstarted.policy hproduction).2.2.1
  have hstep : ∀ s, Reachable server.x s ∧ s.own T = db.own T → ∀ request ∈ requests,
      (Reachable server.x (server.handle s request).2 ∧
        (server.handle s request).2.own T = db.own T) ∧
      ∀ event ∈ (server.handle s request).1.2, event.tenantId ≠ T := by
    intro s hs request hrequest
    have hother : ∀ call, server.accept request = .ok call → call.auth.tenantId ≠ T := by
      rintro call hcall rfl
      exact hnone request hrequest (Server.identify_credential hc hsha hmode hverifier
        (Server.accept_ok_iff.mp hcall).1)
    obtain ⟨hown, hevents⟩ := Server.handle_own hx hs.1 hother
    exact ⟨⟨Server.handle_reachable hs.1, hown.trans hs.2⟩, hevents⟩
  refine ⟨?_, Machine.forall_outputs (I := fun s => Reachable server.x s ∧ s.own T = db.own T)
    requests ⟨hdb, rfl⟩ hstep⟩
  exact (Machine.final_induct (I := fun s => Reachable server.x s ∧ s.own T = db.own T) requests
    ⟨hdb, rfl⟩ fun s hs request hrequest => (hstep s hs request hrequest).1).2

namespace Deployment

def server : Server := ⟨Browser.platform, Auth.Token.crates, env, state⟩

theorem platform_lawful : Browser.platform.Lawful where
  distance a b _ _ _ := Scenario.cosineDistance_range a.values b.values
  jsonBounded _ h := h
  jsonNonneg _ h := h
  jsonReaches _ _ _ _ _ h := h
  pageEmbedding _ h := (Scenario.validatePage_ok h).1
  pageStatus _ h := (Scenario.validatePage_ok h).2
  searchEmbedding _ h := Scenario.validateSearch_ok h
  parseDisplay u := by
    have hparse : Browser.platform.uuidParseStr = Scenario.uuidParseStr := rfl
    rw [hparse]
    exact Scenario.uuidParseStr_display u

/-- The store with a rule of tenant 1. -/
def db : Db := Scenario.createRule.after Browser.platform Db.empty

theorem inClock_now : Auth.InClock 1950000000 := by
  norm_num [Auth.InClock]

theorem routed_ok (sent : Request) :
    ∀ request, (.ok sent : Except ℕ Request) = .ok request → request.route = sent.route := by
  intro request h
  rw [Except.ok.inj h]

theorem routed_createRule : ∀ request,
    (.ok Scenario.createRule.request : Except ℕ Request) = .ok request →
      request.route = .createRecord :=
  routed_ok Scenario.createRule.request

/-- A request to create the rule once more, with other headers. -/
def intrusion (headers : HeaderMap HeaderValue) : HttpRequest where
  headers := headers
  route := .createRecord
  input := .ok Scenario.createRule.request
  routed := routed_createRule
  now := 1950000000
  inClock := inClock_now
  supply := Scenario.supply 100

/-- A worker's request for tenant 1. -/
def guess (token : String) : HttpRequest where
  headers := [("x-eal-ingest-token", ⟨utf8 token.toList⟩),
    ("x-eal-tenant-id", ⟨utf8 "00000000-0000-0000-0000-000000000001".toList⟩)]
  route := .upsertAlertEmbedding
  input := .ok Scenario.embedRule.request
  routed := routed_ok Scenario.embedRule.request
  now := 1950000000
  inClock := inClock_now
  supply := Scenario.supply 100

theorem no_credential : ∀ request ∈ [intrusion [], guess "too-short"],
    ¬ Credential server.x server.crates server.env request 1 := by
  refine List.forall_mem_cons.mpr ⟨?_, List.forall_mem_singleton.mpr ?_⟩
  · rintro ⟨verifier, cookieName, token, auth, -, htoken, -⟩
    rcases htoken.present with h | ⟨pair, hpair, -⟩
    · exact h rfl
    · cases hpair
  · rintro ⟨⟨token, ⟨entry, hentry, rfl⟩, ⟨hlong, -⟩, -⟩, -⟩
    obtain rfl := Option.some.inj hentry
    exact absurd hlong (by decide)

end Deployment

open Deployment in
/-- Two requests without a credential, in production. -/
theorem tenant_sealed_deployment :
    db.alertRules ≠ [] ∧
    (Machine.final server.handle db [intrusion [], guess "too-short"]).own 1 = db.own 1 := by
  refine ⟨by decide +kernel, ?_⟩
  exact (tenant_sealed platform_lawful WorkerAuth.Worker.sha256_length Auth.Token.crates_lawful
    (start_ok_iff.mpr started) rfl (.single (.request Scenario.createRule)) 1 _ no_credential).1

end EmbeddedAlerts
