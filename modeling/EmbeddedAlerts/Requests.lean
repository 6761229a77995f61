import EmbeddedAlerts.Refinement
import EmbeddedAlerts.Sample

/-!
# Every request, every run

The routes on top of the store.  `Call.moves` is the refinement theorem: whatever
a call is and however it ends, a well-formed store has moved along `Steps` of the caller's
tenant.  Its two hypotheses are what a chosen `G` must follow from, one for each
of the two routes that add candidates.

`Reaches x P` are the stores that some run of calls reaches from the empty store,
where `P db call` holds of every call and the store it meets.
-/

namespace EmbeddedAlerts

open Sql Relation SourceScope

variable {x : Platform} {G : Db → MatchCandidateRow → Prop} {T : Uuid} {db db' : Db}

/-! ### What the routes check -/

namespace Routes

theorem validated_ok {α : Type} {r : Except String α} {a : α}
    (h : validated r db = (.ok a, db')) : r = .ok a ∧ db' = db := by
  obtain ⟨h1, rfl⟩ := Prod.mk.inj h
  cases r with
  | error e => cases h1
  | ok b => exact ⟨congrArg Except.ok (Except.ok.inj h1), rfl⟩

theorem moves_validated_bind {R : Db → Db → Prop} [Std.Refl R] {α β : Type} {r : Except String α}
    {f : α → Api β} (hf : ∀ a, r = .ok a → Action.Moves R (f a) db) :
    Action.Moves R (validated r >>= f) db := by
  refine Action.Moves.ofExcept_bind fun a ha => hf a ?_
  cases r with
  | error e => cases ha
  | ok b => exact congrArg Except.ok (Except.ok.inj ha)

theorem admittedUrls_reads (tenantId sourceId : Uuid) (input : PageIngestRequest) (db : Db) :
    Action.Moves Eq (admittedUrls x tenantId sourceId input) db := by
  refine Action.Moves.ensure_bind fun _ => Action.Moves.query_bind ?_
  refine Action.Moves.okOr_bind fun source _ => Action.Moves.ensure_bind fun _ => ?_
  refine moves_validated_bind fun _ _ => moves_validated_bind fun _ _ => ?_
  exact Action.Moves.of_same rfl

/-- What `evaluate_matches` knows when it calls the store. -/
structure EvaluationFor (x : Platform) (auth : AuthContext) (input : EvaluateMatchesRequest)
    (db : Db) (rule : AlertRule) (threshold : ℚ) (search : EmbeddingSearchRequest) : Prop where
  requested : 0 ≤ input.threshold ∧ input.threshold ≤ 1
  joined : ∃ r ∈ db.alertRules, ∃ v ∈ db.alertRuleRevisions,
    r.tenantId = auth.tenantId ∧ r.id = input.alertRuleId ∧ r.activeRevisionId = some v.id ∧
      v.tenantId = auth.tenantId ∧ rule = AlertStore.alertRuleJson r v
  enabled : rule.enabled = true
  model : input.search.embedding.model = rule.embeddingModel
  sources : constrainSearchSources x rule.sourceFilters input.search.sourceIds
    = .ok search.sourceIds
  same : search = { input.search with sourceIds := search.sourceIds }
  searchValid : x.validateSearch search = .ok ()
  threshold : threshold = max input.threshold rule.similarityThreshold.val

theorem requireAlertRule_ok {subject : String} {admin : Bool} {ruleId : Uuid} {rule : AlertRule}
    (h : AlertStore.requireAlertRule T ruleId subject admin db = (.ok rule, db')) :
    db' = db ∧ ∃ r ∈ db.alertRules, ∃ v ∈ db.alertRuleRevisions,
      r.tenantId = T ∧ r.id = ruleId ∧ r.activeRevisionId = some v.id ∧ v.tenantId = T ∧
        rule = AlertStore.alertRuleJson r v := by
  obtain ⟨o, d, hget, hok⟩ := Action.bind_eq_ok h
  obtain ⟨hhead, rfl⟩ := Prod.mk.inj hget
  obtain ⟨rfl, rfl⟩ : o = some rule ∧ db = db' := by
    cases o with
    | none => cases hok
    | some r =>
      obtain ⟨h1, h2⟩ := Prod.mk.inj hok
      exact ⟨congrArg some (Except.ok.inj h1), h2⟩
  have hmem := List.mem_of_mem_head? (Except.ok.inj hhead)
  simp only [AlertStore.joinActiveRevision, List.mem_flatMap, List.mem_filter, List.mem_map,
    decide_eq_true_eq, Bool.and_eq_true] at hmem
  obtain ⟨r, ⟨hr, ⟨hT, hid⟩, -⟩, v, ⟨hv, hactive, hvT⟩, hrule⟩ := hmem
  exact ⟨rfl, r, hr, v, hv, hT, hid, hactive.symm, hvT.trans hT, hrule.symm⟩

theorem evaluationFor_reads (auth : AuthContext) (input : EvaluateMatchesRequest) (db : Db) :
    Action.Moves Eq (evaluationFor x auth input) db := by
  refine Action.Moves.ensure_bind fun _ => moves_validated_bind fun _ _ => ?_
  refine Action.Moves.bind (Action.Moves.query_bind Action.Moves.okOr) fun rule d _ => ?_
  refine Action.Moves.ensure_bind fun _ => Action.Moves.ensure_bind fun _ => ?_
  refine moves_validated_bind fun _ _ => moves_validated_bind fun _ _ => ?_
  exact Action.Moves.of_same rfl

theorem ensure_ok {p : Prop} [Decidable p] {e : HttpError} {u : Unit}
    (h : (Action.ensure p e : Api Unit) db = (.ok u, db')) : p ∧ db' = db := by
  by_cases hp : p
  · rw [Action.ensure_apply_of hp] at h
    exact ⟨hp, (Prod.mk.inj h).2.symm⟩
  · rw [Action.ensure_apply_of_not hp] at h
    cases h

theorem mapError_eq_ok {ε ε' α : Type} {f : ε → ε'} {r : Except ε α} {a : α}
    (h : r.mapError f = .ok a) : r = .ok a := by
  cases r with
  | error e => cases h
  | ok b => exact congrArg Except.ok (Except.ok.inj h)

theorem evaluationFor_ok {auth : AuthContext} {input : EvaluateMatchesRequest} {rule : AlertRule}
    {threshold : ℚ} {search : EmbeddingSearchRequest}
    (h : evaluationFor x auth input db = (.ok (rule, threshold, search), db')) :
    db' = db ∧ EvaluationFor x auth input db rule threshold search := by
  obtain ⟨_, _, hthreshold, h1⟩ := Action.bind_eq_ok h
  obtain ⟨hrange, rfl⟩ := ensure_ok hthreshold
  obtain ⟨_, _, hvalid, h2⟩ := Action.bind_eq_ok h1
  obtain ⟨-, rfl⟩ := validated_ok hvalid
  obtain ⟨rule', _, hrule, h3⟩ := Action.bind_eq_ok h2
  obtain ⟨rfl, hjoined⟩ := requireAlertRule_ok hrule
  obtain ⟨_, _, hcheck1, h4⟩ := Action.bind_eq_ok h3
  obtain ⟨henabled, rfl⟩ := ensure_ok hcheck1
  obtain ⟨_, _, hcheck2, h5⟩ := Action.bind_eq_ok h4
  obtain ⟨hmodel, rfl⟩ := ensure_ok hcheck2
  obtain ⟨sourceIds, _, hcheck3, h6⟩ := Action.bind_eq_ok h5
  obtain ⟨hsources, rfl⟩ := validated_ok hcheck3
  obtain ⟨_, _, hcheck4, h7⟩ := Action.bind_eq_ok h6
  obtain ⟨hvalid', rfl⟩ := validated_ok hcheck4
  obtain ⟨hres, rfl⟩ := Prod.mk.inj h7
  obtain ⟨rfl, hpair⟩ := Prod.mk.inj (Except.ok.inj hres)
  obtain ⟨rfl, rfl⟩ := Prod.mk.inj hpair
  exact ⟨rfl, hrange, hjoined, henabled, hmodel, mapError_eq_ok hsources, rfl, hvalid', rfl⟩

/-- The revision that is evaluated is the rule's own. -/
theorem EvaluationFor.owned {auth : AuthContext} {input : EvaluateMatchesRequest}
    {rule : AlertRule} {threshold : ℚ} {search : EmbeddingSearchRequest}
    (h : EvaluationFor x auth input db rule threshold search) (hwf : Wf x db) :
    Store.Owned auth.tenantId input.alertRuleId rule.revisionId db := by
  obtain ⟨r, hr, v, hv, hrT, hrid, hactive, hvT, rfl⟩ := h.joined
  obtain ⟨v', hv', hid, -, hrule⟩ := hwf.active r hr v.id hactive
  obtain rfl := hwf.valid.alertRuleRevision_eq hv' hv hid
  exact ⟨v', hv', rfl, hvT, hrule.trans hrid⟩

end Routes

/-! ### One call -/

/-- `G` follows from what a search for a rule has found. -/
def EvaluateAllows (x : Platform) (G : Db → MatchCandidateRow → Prop) (call : Call) (db : Db) :
    Prop :=
  ∀ input rule threshold search, call.request = .evaluateMatches input →
    Routes.EvaluationFor x call.auth input db rule threshold search →
    ∀ d, Grows db d → ∀ record,
      Store.Hit x call.auth.tenantId { search with
        minSimilarity := F32.max search.minSimilarity (F32.ofRat threshold) } db record →
      ∀ now id, G d (Store.newCandidate x now id call.auth.tenantId input.alertRuleId
        rule.revisionId threshold record)

/-- `G` follows from what a page has reached. -/
def ReverseAllows (x : Platform) (G : Db → MatchCandidateRow → Prop) (call : Call) (db : Db) :
    Prop :=
  ∀ sourceId input, call.request = .reverseMatchPage sourceId input →
    ∀ d d', Grows db d → Grows d d' → ∀ page wire,
      ReverseMatch.PageOf call.auth.tenantId sourceId page d →
      ReverseMatch.Reached x call.auth.tenantId sourceId input.embedding db wire →
      ReverseMatch.Reached x call.auth.tenantId sourceId input.embedding d wire →
      ∀ now id url, G d' (ReverseMatch.newCandidate x now id call.auth.tenantId page
        input.embedding url wire)

theorem moves_return {R : Db → Db → Prop} [Std.Refl R] [IsTrans Db R] {α : Type} {a : Api α}
    {f : α → Response} (h : Action.Moves R a db) :
    Action.Moves R (do let r ← a; return f r) db :=
  Action.Moves.bind h fun _ s _ => refl_of R s

/-- **Every call takes steps of its caller's tenant.** -/
theorem Call.moves (hx : x.Lawful) {call : Call} {db : Db} (hwf : Wf x db) (he : EvaluateAllows x G call db)
    (hr : ReverseAllows x G call db) :
    Action.Moves (Steps x G call.auth.tenantId) (call.exec x) db := by
  obtain ⟨auth, supply, request⟩ := call
  cases request with
  | listRecords | listSources => exact moves_return (Action.Moves.of_same rfl)
  | getRecord | getSource =>
    exact moves_return (Action.Moves.query_bind Action.Moves.okOr)
  | createRecord input =>
    refine moves_return (Routes.moves_validated_bind fun normalized hnormalized => ?_)
    exact AlertStore.createAlertRule_moves _ _ _ (Alerts.normalized_sourceFilters hnormalized) db
  | upsertAlertEmbedding alertRuleId input =>
    refine moves_return (Routes.moves_validated_bind fun _ _ => ?_)
    exact ReverseMatch.upsertAlertRuleEmbedding_moves _ _ _ _ db
  | createSource input =>
    refine moves_return (Action.Moves.ensure_bind fun _ => ?_)
    refine Routes.moves_validated_bind fun _ _ => Routes.moves_validated_bind fun root _ => ?_
    exact Store.createSource_moves _ _ _ _ db
  | ingestPage sourceId input =>
    refine moves_return (Routes.moves_validated_bind fun _ hvalid => ?_)
    refine Action.Moves.bind (Action.Moves.of_reads (Routes.admittedUrls_reads _ _ _ db))
      fun urls d _ => ?_
    exact Store.ingestPage_moves _ _ _ (hx.pageEmbedding input hvalid) _ _ d
  | reverseMatchPage sourceId input =>
    refine moves_return (Routes.moves_validated_bind fun _ _ => ?_)
    have hreads := Routes.admittedUrls_reads (x := x) auth.tenantId sourceId
      input.toPageIngestRequest db
    refine Action.Moves.bind (Action.Moves.of_reads hreads) fun urls d hurls => ?_
    obtain rfl : db = d := by rwa [Action.Moves, hurls] at hreads
    refine ReverseMatch.ingestAndReverseMatch_moves
      fun d d' hd hd' page wire hpage hfound hwire id => ?_
    exact hr sourceId input rfl d d' hd hd' page wire hpage hfound hwire _ _ _
  | searchEmbeddings input =>
    refine moves_return (Routes.moves_validated_bind fun _ _ => ?_)
    refine Action.Moves.bind (Action.Moves.of_same (Store.searchEmbeddings_snd _ _ db))
      fun _ _ _ => .refl
  | evaluateMatches input =>
    refine moves_return ?_
    have hreads := Routes.evaluationFor_reads (x := x) auth input db
    refine Action.Moves.bind (Action.Moves.of_reads hreads) fun evaluation d hfor => ?_
    obtain ⟨rule, threshold, search⟩ := evaluation
    obtain ⟨rfl, hfor⟩ := Routes.evaluationFor_ok hfor
    exact Store.evaluateMatches_moves (hfor.owned hwf) (he input rule threshold search rfl hfor)

/-! ### Runs -/

/-- The stores a run of calls can reach, if `P` holds of every call and the store
it meets. -/
def Reaches (x : Platform) (P : Db → Call → Prop) : Db → Prop :=
  ReflTransGen (fun db db' => ∃ call, P db call ∧ db' = call.after x db) Db.empty

/-- **What holds initially and is kept by every call holds of every store that is
reached.** -/
theorem Reaches.induct {P : Db → Call → Prop} {I : Db → Prop} (h0 : I Db.empty)
    (hstep : ∀ db call, P db call → I db → I (call.after x db)) {db : Db}
    (h : Reaches x P db) : I db := by
  induction h with
  | refl => exact h0
  | tail _ hs ih =>
    obtain ⟨call, hP, rfl⟩ := hs
    exact hstep _ call hP ih

theorem reaches_after (calls : List Call) :
    Reaches x (fun _ _ => True) (after x calls Db.empty) := by
  suffices h : ∀ db, Reaches x (fun _ _ => True) db →
      Reaches x (fun _ _ => True) (after x calls db) from h _ .refl
  induction calls with
  | nil => intro db h; exact h
  | cons call calls ih =>
    intro db h
    exact ih _ (h.tail ⟨call, trivial, rfl⟩)

theorem Call.after_steps (hx : x.Lawful) (hwf : Wf x db) (call : Call) :
    Steps x (fun _ _ => True) call.auth.tenantId db (call.after x db) :=
  Call.moves hx hwf (fun _ _ _ _ _ _ _ _ _ _ _ _ => trivial)
    (fun _ _ _ _ _ _ _ _ _ _ _ _ _ _ _ => trivial)

theorem Wf.after (hx : x.Lawful) (h : Wf x db) (call : Call) : Wf x (call.after x db) :=
  h.steps (call.after_steps hx h)

/-- **Every store that is reached is well formed.** -/
theorem Reaches.wf (hx : x.Lawful) {P : Db → Call → Prop} (h : Reaches x P db) : Wf x db :=
  Reaches.induct (Wf.empty x) (fun _ call _ hwf => hwf.after hx call) h

/-- **A property of candidates that both routes establish holds of every
candidate in every store that is reached.** -/
theorem Reaches.candidates (hx : x.Lawful) {P : Db → Call → Prop}
    (hG : ∀ {a b : Db} {r : MatchCandidateRow}, Grows a b → G a r → G b r)
    (he : ∀ db call, Wf x db → P db call → EvaluateAllows x G call db)
    (hr : ∀ db call, Wf x db → P db call → ReverseAllows x G call db) (h : Reaches x P db) :
    ∀ r ∈ db.matchCandidates, G db r := by
  have hall : Wf x db ∧ ∀ r ∈ db.matchCandidates, G db r := by
    refine Reaches.induct (I := fun d => Wf x d ∧ ∀ r ∈ d.matchCandidates, G d r)
      ⟨Wf.empty x, by simp [Db.empty]⟩ ?_ h
    rintro d call hP ⟨hwf, hold⟩
    have hsteps : Steps x G call.auth.tenantId d (call.after x d) :=
      Call.moves hx hwf (he d call hwf hP) (hr d call hwf hP)
    exact ⟨hwf.steps hsteps, hsteps.candidates hG hold⟩
  exact hall.2

/-! ### A scenario

The requests the API would be sent about the source, the rule and the page of
`Platform.sample`. -/

namespace Scenario

/-- A tenant administrator. -/
def admin : AuthContext where
  tenantId := 1
  subject := "ada"
  isTenantAdmin := true

/-- The clock stands still, and UUIDs are drawn from `base` on. -/
def supply (base : ℕ) : Supply where
  clock := fun _ => 0
  ids := fun n => Fin.ofNat (2 ^ 128) (base + n)

def call (base : ℕ) (request : Request) : Call := ⟨admin, supply base, request⟩

def createSource : Call := call 10 (.createSource {
  name := "example"
  rootUrl := "https://example.com/"
  allowedHosts := ["example.com"]
  allowedPathPrefixes := ["/"]
  includeSubdomains := false
  discoveryModes := ["sitemap"]
  crawlIntervalSeconds := 3600
  maxDepth := 2
  maxPagesPerRun := 100
  obeyRobots := true
  enabled := true })

def createRule : Call := call 20 (.createRecord {
  name := "rule"
  queryText := "query"
  embeddingModel := "m"
  similarityThreshold := F32.ofRat (1 / 4)
  sourceFilters := []
  deliveryChannels := []
  enabled := true })

def embedRule : Call := call 25 (.upsertAlertEmbedding 20 ⟨21, ⟨space, axis⟩⟩)

def page (values : List F32Bits) : PageIngestRequest where
  sourceId := 10
  url := "https://example.com/a"
  finalUrl := "https://example.com/a"
  title := none
  contentText := "alpha"
  contentType := "text/html"
  httpStatus := 200
  publishedAt := none
  fetchedAt := ⟨0⟩
  embedding := ⟨space, values⟩

def ingest (base : ℕ) : Call := call base (.ingestPage 10 (page diagonal))

/-- The root of the source, with the content of the other page. -/
def rootPage : PageIngestRequest :=
  { page diagonal with url := "https://example.com/", finalUrl := "https://example.com/" }

def ingestRoot (base : ℕ) : Call := call base (.ingestPage 10 rootPage)

def reverse (base : ℕ) (values : List F32Bits) : Call :=
  call base (.reverseMatchPage 10 ⟨page values, 100⟩)

def search : EmbeddingSearchRequest where
  embedding := ⟨space, axis⟩
  sourceIds := []
  minSimilarity := F32.ofRat 0
  limit := 10
  cursor := none

def evaluate (base : ℕ) (threshold : ℚ) : Call :=
  call base (.evaluateMatches ⟨20, threshold, search⟩)

/-- A source, a rule with its embedding, and a page with a stored revision and a
stored embedding.  It takes two ingests: the first leaves the page only. -/
def setup : List Call := [createSource, createRule, embedRule, ingest 30, ingest 40]

end Scenario

end EmbeddedAlerts
