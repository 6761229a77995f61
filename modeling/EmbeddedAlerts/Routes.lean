import EmbeddedAlerts.AlertStore
import EmbeddedAlerts.Indexing
import EmbeddedAlerts.ReverseMatch

/-!
# Routes

`src/server_routes.rs`, from the point where the caller is known: a tenant, a
subject and its role for the member routes, a tenant for the worker routes.
Events are published after the database work and `publish_event` does not fail,
so they leave no trace here.

`Call` is one request with everything that is not a function of the store: the
caller, the input, the clock and the UUIDs drawn on the way.  `Call.exec` runs
it, and `after` strings calls together.
-/

namespace EmbeddedAlerts

open Sql

/-- `AuthContext`, as far as the routes read it. -/
structure AuthContext where
  tenantId : Uuid
  subject : String
  isTenantAdmin : Bool
deriving DecidableEq

/-- The clock at each statement of a request, and the UUIDs drawn for it. -/
structure Supply where
  clock : ℕ → Timestamp
  ids : ℕ → Uuid

structure EvaluateMatchesRequest where
  alertRuleId : Uuid
  threshold : ℚ
  search : EmbeddingSearchRequest
deriving DecidableEq

namespace Routes

/-- `map_err(HttpError::validation)`. -/
def validated {α : Type} (r : Except String α) : Api α := Action.ofExcept (r.mapError .validation)

/-- `list_records`. -/
def listRecords (auth : AuthContext) : Api (List AlertRule) :=
  AlertStore.listAlertRules auth.tenantId auth.subject auth.isTenantAdmin

/-- `get_record`. -/
def getRecord (auth : AuthContext) (id : Uuid) : Api AlertRule := do
  let rule ← AlertStore.getAlertRule auth.tenantId id auth.subject auth.isTenantAdmin
  Action.okOr (.notFound "alert rule was not found") rule

/-- `create_record`. -/
def createRecord (x : Platform) (supply : Supply) (auth : AuthContext) (input : CreateAlertRule) :
    Api AlertRule := do
  let input ← validated (Alerts.normalized x input)
  AlertStore.createAlertRule (supply.clock 0) supply.ids auth.tenantId auth.subject input

/-- `upsert_alert_embedding`. -/
def upsertAlertEmbedding (x : Platform) (supply : Supply) (tenantId alertRuleId : Uuid)
    (input : ReverseMatch.AlertRuleEmbeddingUpsertRequest) :
    Api ReverseMatch.AlertRuleEmbeddingReceipt := do
  validated (x.validateEmbedding input.embedding)
  ReverseMatch.upsertAlertRuleEmbedding x (supply.clock 0) (supply.ids 0) tenantId alertRuleId input

/-- `list_sources`. -/
def listSources (auth : AuthContext) : Api (List SourcePolicy) := Store.listSources auth.tenantId

/-- `get_source`. -/
def getSource (auth : AuthContext) (sourceId : Uuid) : Api SourcePolicy := do
  let source ← Store.getSource auth.tenantId sourceId
  Action.okOr (.notFound "source policy was not found") source

/-- `require_tenant_admin`. -/
def requireTenantAdmin (auth : AuthContext) : Api Unit :=
  Action.ensure (auth.isTenantAdmin = true)
    (.forbidden "this operation requires a tenant administrator role")

/-- `create_source`. -/
def createSource (x : Platform) (supply : Supply) (auth : AuthContext)
    (input : CreateSourcePolicy) : Api SourcePolicy := do
  requireTenantAdmin auth
  validated (x.validateSource input)
  let canonicalRoot ← validated (Indexing.canonicalizeSourceRoot x input)
  Store.createSource (supply.clock 0) (supply.ids 0) auth.tenantId input canonicalRoot

/-- What `ingest_page` and `reverse_match_page` share: the source must be the one
of the route, exist, and be enabled, and both URLs must be admitted by it. -/
def admittedUrls (x : Platform) (tenantId sourceId : Uuid) (input : PageIngestRequest) :
    Api (String × String) := do
  Action.ensure (input.sourceId = sourceId)
    (.badRequest "body source_id must match the source_id route parameter")
  let found ← Store.getSource tenantId sourceId
  let source ← Action.okOr (.notFound "source policy was not found") found
  Action.ensure (source.enabled = true) (.validation "source policy is disabled")
  let canonicalOriginal ← validated (Indexing.canonicalizeForSource x source input.url)
  let canonicalFinal ← validated (Indexing.canonicalizeForSource x source input.finalUrl)
  return (canonicalOriginal, canonicalFinal)

/-- `ingest_page`. -/
def ingestPage (x : Platform) (supply : Supply) (tenantId sourceId : Uuid)
    (input : PageIngestRequest) : Api Store.PageRevision := do
  validated (x.validatePage input)
  let (canonicalOriginal, canonicalFinal) ← admittedUrls x tenantId sourceId input
  Store.ingestPage x (supply.clock 0) supply.ids tenantId sourceId input canonicalOriginal
    canonicalFinal

/-- `reverse_match_page`. -/
def reverseMatchPage (x : Platform) (supply : Supply) (tenantId sourceId : Uuid)
    (input : ReverseMatch.ReverseAlertPageRequest) : Api ReverseMatch.ReverseAlertMatchResponse := do
  validated (input.validate x)
  let (canonicalOriginal, canonicalFinal) ← admittedUrls x tenantId sourceId
    input.toPageIngestRequest
  ReverseMatch.ingestAndReverseMatch x (supply.clock 0) supply.ids tenantId sourceId input
    canonicalOriginal canonicalFinal

/-- `search_embeddings`. -/
def searchEmbeddings (x : Platform) (auth : AuthContext) (input : EmbeddingSearchRequest) :
    Api Store.EmbeddingSearchResponse := do
  validated (x.validateSearch input)
  let page ← Store.searchEmbeddings x auth.tenantId input
  return page.response

/-- What `evaluate_matches` makes of its input before it calls the store: the
rule, the threshold and the search constrained to the rule's sources. -/
def evaluationFor (x : Platform) (auth : AuthContext) (input : EvaluateMatchesRequest) :
    Api (AlertRule × ℚ × EmbeddingSearchRequest) := do
  Action.ensure (0 ≤ input.threshold ∧ input.threshold ≤ 1)
    (.validation "threshold must be finite and between 0 and 1")
  validated (x.validateSearch input.search)
  let rule ← AlertStore.requireAlertRule auth.tenantId input.alertRuleId auth.subject
    auth.isTenantAdmin
  Action.ensure (rule.enabled = true) (.validation "alert rule is disabled")
  Action.ensure (input.search.embedding.model = rule.embeddingModel)
    (.validation "search embedding model must match the active alert-rule revision")
  let sourceIds ← validated ((SourceScope.constrainSearchSources x rule.sourceFilters
    input.search.sourceIds).mapError SourceScope.SourceScopeError.message)
  let search := { input.search with sourceIds := sourceIds }
  validated (x.validateSearch search)
  return (rule, max input.threshold rule.similarityThreshold.val, search)

/-- `evaluate_matches`. -/
def evaluateMatches (x : Platform) (supply : Supply) (auth : AuthContext)
    (input : EvaluateMatchesRequest) : Api (List Store.MatchCandidate) := do
  let (rule, threshold, search) ← evaluationFor x auth input
  Store.evaluateMatches x supply.clock supply.ids auth.tenantId input.alertRuleId rule.revisionId
    threshold search

end Routes

/-! ### Calls and runs -/

/-- One request. -/
inductive Request where
  | listRecords
  | getRecord (id : Uuid)
  | createRecord (input : CreateAlertRule)
  | upsertAlertEmbedding (alertRuleId : Uuid)
      (input : ReverseMatch.AlertRuleEmbeddingUpsertRequest)
  | listSources
  | getSource (sourceId : Uuid)
  | createSource (input : CreateSourcePolicy)
  | ingestPage (sourceId : Uuid) (input : PageIngestRequest)
  | reverseMatchPage (sourceId : Uuid) (input : ReverseMatch.ReverseAlertPageRequest)
  | searchEmbeddings (input : EmbeddingSearchRequest)
  | evaluateMatches (input : EvaluateMatchesRequest)
deriving DecidableEq

/-- What a request answers with. -/
inductive Response where
  | rules (rules : List AlertRule)
  | rule (rule : AlertRule)
  | receipt (receipt : ReverseMatch.AlertRuleEmbeddingReceipt)
  | sources (sources : List SourcePolicy)
  | source (source : SourcePolicy)
  | page (page : Store.PageRevision)
  | matched (response : ReverseMatch.ReverseAlertMatchResponse)
  | hits (response : Store.EmbeddingSearchResponse)
  | candidates (candidates : List Store.MatchCandidate)
deriving DecidableEq

/-- A request with its caller, the clock and the UUIDs it draws. -/
structure Call where
  auth : AuthContext
  supply : Supply
  request : Request

/-- Run a request. -/
def Call.exec (x : Platform) (call : Call) : Api Response :=
  match call.request with
  | .listRecords => return .rules (← Routes.listRecords call.auth)
  | .getRecord id => return .rule (← Routes.getRecord call.auth id)
  | .createRecord input => return .rule (← Routes.createRecord x call.supply call.auth input)
  | .upsertAlertEmbedding alertRuleId input =>
    return .receipt
      (← Routes.upsertAlertEmbedding x call.supply call.auth.tenantId alertRuleId input)
  | .listSources => return .sources (← Routes.listSources call.auth)
  | .getSource sourceId => return .source (← Routes.getSource call.auth sourceId)
  | .createSource input => return .source (← Routes.createSource x call.supply call.auth input)
  | .ingestPage sourceId input =>
    return .page (← Routes.ingestPage x call.supply call.auth.tenantId sourceId input)
  | .reverseMatchPage sourceId input =>
    return .matched (← Routes.reverseMatchPage x call.supply call.auth.tenantId sourceId input)
  | .searchEmbeddings input => return .hits (← Routes.searchEmbeddings x call.auth input)
  | .evaluateMatches input =>
    return .candidates (← Routes.evaluateMatches x call.supply call.auth input)

/-- The store after a call, whatever it answered. -/
def Call.after (x : Platform) (call : Call) (db : Db) : Db := (call.exec x db).2

/-- The store after a run of calls. -/
def after (x : Platform) (calls : List Call) (db : Db) : Db :=
  calls.foldl (fun db call => call.after x db) db

end EmbeddedAlerts
