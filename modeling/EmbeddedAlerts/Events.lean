import EmbeddedAlerts.Ranking
import EmbeddedAlerts.Thresholds

/-!
# Events

`src/server_websocket.rs`, and the `publish_event` calls of
`src/server_routes.rs`.  Five handlers publish events, each after its database
work and each with an audience of its own choice; a subscriber is sent an event if
`eventVisibleTo` holds of its context.  The payload is the serialized `data`
together with the type of the event, the tenant and the time.

`Call.publish` is a request with the events it publishes, and
`Call.exec_eq_publish` says that without them it is the request.

Who may read a rule is decided elsewhere, by the query of `get_alert_rule`.
`Addressed` ties the two together: the rules an event names can be read by
everybody in its audience, and an event about one rule has everybody who can read
that rule in its audience.  `Call.publish_addressed` goes through the handlers.
-/

namespace EmbeddedAlerts

open Sql Relation

inductive EventAudience where
  | tenantAdministrators
  | subjectOrTenantAdministrators (subject : String)
deriving DecidableEq

/-- What an event is about. -/
inductive EventData where
  | alertRuleCreated (rule : AlertRule)
  | sourceCreated (source : SourcePolicy)
  | pageRevisionIndexed (revision : Store.PageRevision)
  | reverseMatchCompleted (response : ReverseMatch.ReverseAlertMatchResponse)
  | matchCandidate (candidate : Store.MatchCandidate)
deriving DecidableEq

def EventData.eventType : EventData → String
  | .alertRuleCreated _ => "alert_rule.created"
  | .sourceCreated _ => "source.created"
  | .pageRevisionIndexed _ => "page.revision_indexed"
  | .reverseMatchCompleted _ => "page.reverse_match_completed"
  | .matchCandidate _ => "match.candidate"

/-- The alert-rule ids that occur in the data. -/
def EventData.alertRuleIds : EventData → List Uuid
  | .alertRuleCreated rule => [rule.id]
  | .sourceCreated _ => []
  | .pageRevisionIndexed _ => []
  | .reverseMatchCompleted response => response.candidates.map (·.alertRuleId)
  | .matchCandidate candidate => [candidate.alertRuleId]

structure TenantEvent where
  tenantId : Uuid
  audience : EventAudience
  data : EventData
deriving DecidableEq

/-- `can_access_owner`. -/
def AuthContext.canAccessOwner (auth : AuthContext) (ownerSubject : String) : Bool :=
  auth.isTenantAdmin || decide (auth.subject = ownerSubject)

/-- `event_visible_to`. -/
def eventVisibleTo (event : TenantEvent) (auth : AuthContext) : Bool :=
  if event.tenantId ≠ auth.tenantId then false
  else match event.audience with
    | .tenantAdministrators => auth.isTenantAdmin
    | .subjectOrTenantAdministrators subject => auth.canAccessOwner subject

namespace Routes

/-- `create_record`, with its event. -/
def publishRecord (x : Platform) (supply : Supply) (auth : AuthContext) (input : CreateAlertRule) :
    Api (Response × List TenantEvent) := do
  let record ← createRecord x supply auth input
  return (.rule record,
    [⟨auth.tenantId, .subjectOrTenantAdministrators auth.subject, .alertRuleCreated record⟩])

/-- `create_source`, with its event. -/
def publishSource (x : Platform) (supply : Supply) (auth : AuthContext)
    (input : CreateSourcePolicy) : Api (Response × List TenantEvent) := do
  let source ← createSource x supply auth input
  return (.source source, [⟨auth.tenantId, .tenantAdministrators, .sourceCreated source⟩])

/-- `ingest_page`, with its event. -/
def publishPage (x : Platform) (supply : Supply) (tenantId sourceId : Uuid)
    (input : PageIngestRequest) : Api (Response × List TenantEvent) := do
  let revision ← ingestPage x supply tenantId sourceId input
  return (.page revision, [⟨tenantId, .tenantAdministrators, .pageRevisionIndexed revision⟩])

/-- `reverse_match_page`, with its event. -/
def publishReverseMatch (x : Platform) (supply : Supply) (tenantId sourceId : Uuid)
    (input : ReverseMatch.ReverseAlertPageRequest) : Api (Response × List TenantEvent) := do
  let response ← reverseMatchPage x supply tenantId sourceId input
  return (.matched response, [⟨tenantId, .tenantAdministrators, .reverseMatchCompleted response⟩])

/-- `evaluate_matches`, with an event for every candidate. -/
def publishMatches (x : Platform) (supply : Supply) (auth : AuthContext)
    (input : EvaluateMatchesRequest) : Api (Response × List TenantEvent) := do
  let (rule, threshold, search) ← evaluationFor x auth input
  let candidates ← Store.evaluateMatches x supply.clock supply.ids auth.tenantId input.alertRuleId
    rule.revisionId threshold search
  return (.candidates candidates, candidates.map fun candidate =>
    ⟨auth.tenantId, .subjectOrTenantAdministrators rule.ownerSubject, .matchCandidate candidate⟩)

end Routes

/-- A request, with the events it publishes. -/
def Call.publish (x : Platform) (call : Call) : Api (Response × List TenantEvent) :=
  match call.request with
  | .createRecord input => Routes.publishRecord x call.supply call.auth input
  | .createSource input => Routes.publishSource x call.supply call.auth input
  | .ingestPage sourceId input =>
    Routes.publishPage x call.supply call.auth.tenantId sourceId input
  | .reverseMatchPage sourceId input =>
    Routes.publishReverseMatch x call.supply call.auth.tenantId sourceId input
  | .evaluateMatches input => Routes.publishMatches x call.supply call.auth input
  | _ => do
    let response ← call.exec x
    return (response, [])

variable {x : Platform} {db db' : Db}

theorem return_fst {α β γ : Type} (a : Api α) (f : α → β) (g : α → γ) (db : Db) :
    (do let r ← a; return f r : Api β) db
      = (((do let r ← a; return (f r, g r) : Api (β × γ)) db).1.map Prod.fst,
        ((do let r ← a; return (f r, g r) : Api (β × γ)) db).2) := by
  rcases ha : a db with ⟨e | r, s⟩
  · rw [Action.bind_of_error ha, Action.bind_of_error ha]
    rfl
  · rw [Action.bind_of_ok ha, Action.bind_of_ok ha]
    rfl

theorem evaluateMatches_eq_publish (supply : Supply) (auth : AuthContext)
    (input : EvaluateMatchesRequest) (db : Db) :
    (do return .candidates (← Routes.evaluateMatches x supply auth input) : Api Response) db
      = ((Routes.publishMatches x supply auth input db).1.map Prod.fst,
        (Routes.publishMatches x supply auth input db).2) := by
  unfold Routes.evaluateMatches Routes.publishMatches
  rcases hfor : Routes.evaluationFor x auth input db with ⟨e | ⟨rule, threshold, search⟩, s⟩
  · rw [Action.bind_of_error (Action.bind_of_error hfor), Action.bind_of_error hfor]
    rfl
  · rw [Action.bind_of_ok hfor]
    rcases hrun : Store.evaluateMatches x supply.clock supply.ids auth.tenantId input.alertRuleId
      rule.revisionId threshold search s with ⟨e | candidates, s'⟩
    · rw [Action.bind_of_error ((Action.bind_of_ok hfor).trans hrun)]
      simp only [Action.bind_of_error hrun]
      rfl
    · rw [Action.bind_of_ok ((Action.bind_of_ok hfor).trans hrun)]
      simp only [Action.bind_of_ok hrun]
      rfl

/-- Publishing changes neither the answer nor the store. -/
theorem Call.exec_eq_publish (call : Call) (db : Db) :
    call.exec x db = ((call.publish x db).1.map Prod.fst, (call.publish x db).2) := by
  have hquiet : call.exec x db
      = (((do let r ← call.exec x; return (r, []) : Api (Response × List TenantEvent)) db).1.map
          Prod.fst, ((do let r ← call.exec x; return (r, []) :
            Api (Response × List TenantEvent)) db).2) := by
    rcases hexec : call.exec x db with ⟨e | r, s⟩
    · rw [Action.bind_of_error hexec]
      rfl
    · rw [Action.bind_of_ok hexec]
      rfl
  obtain ⟨auth, supply, request⟩ := call
  cases request with
  | createRecord input => exact return_fst _ _ _ db
  | createSource input => exact return_fst _ _ _ db
  | ingestPage sourceId input => exact return_fst _ _ _ db
  | reverseMatchPage sourceId input => exact return_fst _ _ _ db
  | evaluateMatches input => exact evaluateMatches_eq_publish supply auth input db
  | listRecords | getRecord _ | upsertAlertEmbedding _ _ | listSources | getSource _
  | searchEmbeddings _ => exact hquiet

/-! ### Readable rules -/

/-- The rule is one of the tenant and of the owner, and it has an active revision. -/
def ReadableRule (T id : Uuid) (owner : String) (db : Db) : Prop :=
  ∃ r ∈ db.alertRules, r.id = id ∧ r.tenantId = T ∧ r.ownerSubject = owner ∧
    ∃ v ∈ db.alertRuleRevisions, r.activeRevisionId = some v.id ∧ v.tenantId = T

/-- `get_alert_rule` returns the rule to the caller. -/
def CanGet (auth : AuthContext) (id : Uuid) (db : Db) : Prop :=
  ∃ rule, AlertStore.getAlertRule auth.tenantId id auth.subject auth.isTenantAdmin db
    = (.ok (some rule), db)

variable {T id : Uuid} {owner : String} {auth : AuthContext}

/-- **A rule is returned to its owner and to the administrators of its tenant.** -/
theorem canGet_iff (hvalid : db.Valid) (h : ReadableRule T id owner db) :
    CanGet auth id db ↔ T = auth.tenantId ∧ auth.canAccessOwner owner = true := by
  obtain ⟨r, hr, hid, hrT, howner, v, hv, hactive, hvT⟩ := h
  have hmem : ∀ rule, rule ∈ (db.alertRules.filter fun rule =>
      decide (rule.tenantId = auth.tenantId ∧ rule.id = id)
        && AlertStore.mayRead auth.subject auth.isTenantAdmin rule).flatMap
          (AlertStore.joinActiveRevision db) →
      T = auth.tenantId ∧ auth.canAccessOwner owner = true := by
    intro rule hrule
    obtain ⟨r', hr', -⟩ := List.mem_flatMap.mp hrule
    obtain ⟨hr', hread⟩ := List.mem_filter.mp hr'
    rw [Bool.and_eq_true, decide_eq_true_iff] at hread
    obtain ⟨⟨hT', hid'⟩, hmay⟩ := hread
    obtain rfl := hvalid.alertRule_eq hr hr' (hid.trans hid'.symm)
    refine ⟨hrT.symm.trans hT', ?_⟩
    rw [AlertStore.mayRead, howner] at hmay
    simpa only [AuthContext.canAccessOwner, eq_comm] using hmay
  constructor
  · rintro ⟨rule, hget⟩
    exact hmem rule (List.mem_of_mem_head? (Except.ok.inj (Prod.mk.inj hget).1))
  · rintro ⟨rfl, haccess⟩
    have hrule : AlertStore.alertRuleJson r v ∈ (db.alertRules.filter fun rule =>
        decide (rule.tenantId = auth.tenantId ∧ rule.id = id)
          && AlertStore.mayRead auth.subject auth.isTenantAdmin rule).flatMap
            (AlertStore.joinActiveRevision db) := by
      refine List.mem_flatMap.mpr ⟨r, List.mem_filter.mpr ⟨hr, ?_⟩, ?_⟩
      · rw [Bool.and_eq_true, AlertStore.mayRead, howner]
        refine ⟨decide_eq_true ⟨hrT, hid⟩, ?_⟩
        simpa only [AuthContext.canAccessOwner, eq_comm] using haccess
      · refine List.mem_map_of_mem (List.mem_filter.mpr ⟨hv, decide_eq_true ⟨hactive.symm, ?_⟩⟩)
        rw [hvT, hrT]
    obtain ⟨rule, hhead⟩ := Option.ne_none_iff_exists'.mp fun hnone =>
      List.ne_nil_of_mem hrule (List.head?_eq_none_iff.mp hnone)
    refine ⟨rule, ?_⟩
    unfold AlertStore.getAlertRule
    rw [Action.query_apply, hhead]

/-- A step leaves a readable rule readable. -/
theorem ReadableRule.step {G : Db → MatchCandidateRow → Prop} {U : Uuid}
    (h : ReadableRule T id owner db) (hs : Step x G U db db') : ReadableRule T id owner db' := by
  obtain ⟨r, hr, hid, hrT, howner, v, hv, hactive, hvT⟩ := h
  cases hs with
  | addRule => exact ⟨r, List.mem_append_left _ hr, hid, hrT, howner, v, hv, hactive, hvT⟩
  | addRuleRevision =>
    exact ⟨r, hr, hid, hrT, howner, v, List.mem_append_left _ hv, hactive, hvT⟩
  | @activate f same _ own =>
    have hmem : f r ∈ db.alertRules.map f := List.mem_map_of_mem hr
    rcases own r hr with hfr | ⟨w, hw, hactive', hwT, -⟩
    · rw [hfr] at hmem
      exact ⟨r, hmem, hid, hrT, howner, v, hv, hactive, hvT⟩
    · exact ⟨f r, hmem, (same r).id.trans hid, (same r).tenantId.trans hrT,
        (same r).ownerSubject.trans howner, w, hw, hactive', hwT.trans hrT⟩
  | addSource | addPage | touchPages | addPageRevision | addEmbedding | addAlertEmbedding
  | addCandidate => exact ⟨r, hr, hid, hrT, howner, v, hv, hactive, hvT⟩

theorem ReadableRule.steps {G : Db → MatchCandidateRow → Prop} {U : Uuid}
    (h : ReadableRule T id owner db) (hs : Steps x G U db db') : ReadableRule T id owner db' := by
  induction hs with
  | refl => exact h
  | tail _ hs ih => exact ih.step hs

/-- A rule that can be read stays so, whatever is done to the store. -/
theorem ReadableRule.served (hx : x.Lawful) (hwf : Wf x db) (h : ReadableRule T id owner db)
    (hrun : ReflTransGen (Served x) db db') : ReadableRule T id owner db' := by
  induction hrun with
  | refl => exact h
  | tail hrun hs ih =>
    obtain ⟨U, hsteps⟩ := hs.steps hx (served_run hx hwf hrun).1
    exact ih.steps hsteps

/-! ### Handlers -/

/-- **A created rule is one of its creator.** -/
theorem createAlertRule_readable {now : Timestamp} {ids : ℕ → Uuid} {subject : String}
    {input : CreateAlertRule} {rule : AlertRule} {s : Db}
    (h : AlertStore.createAlertRule now ids T subject input db = (.ok rule, s)) :
    ReadableRule T rule.id subject s := by
  obtain ⟨o, t, htransaction, hok⟩ := Action.bind_eq_ok h
  obtain ⟨rfl, rfl⟩ : o = some rule ∧ t = s := by
    cases o with
    | none => cases hok
    | some r =>
      obtain ⟨hr, ht⟩ := Prod.mk.inj hok
      exact ⟨congrArg some (Except.ok.inj hr), ht⟩
  obtain ⟨n, s1, hinsert, h1⟩ := Action.bind_eq_ok (Action.transaction_eq_ok htransaction)
  obtain ⟨hadmits, rfl⟩ := AlertStore.insertAlertRule_ok (execute_eq_ok hinsert)
  obtain ⟨_, _, hensure1, h2⟩ := Action.bind_eq_ok h1
  obtain ⟨-, rfl⟩ := Routes.ensure_ok hensure1
  obtain ⟨n', s2, hrevision, h3⟩ := Action.bind_eq_ok h2
  obtain ⟨-, rfl⟩ := AlertStore.insertAlertRuleRevision_ok (execute_eq_ok hrevision)
  obtain ⟨_, _, hensure2, h4⟩ := Action.bind_eq_ok h3
  obtain ⟨-, rfl⟩ := Routes.ensure_ok hensure2
  obtain ⟨n'', s3, hactivate, h5⟩ := Action.bind_eq_ok h4
  obtain ⟨_, _, hensure3, h6⟩ := Action.bind_eq_ok h5
  obtain ⟨-, rfl⟩ := Routes.ensure_ok hensure3
  obtain ⟨hhead, rfl⟩ := Prod.mk.inj h6
  have hrule := List.mem_of_mem_head? (Except.ok.inj hhead)
  simp only [AlertStore.joinActiveRevision, List.mem_flatMap, List.mem_filter, List.mem_map,
    decide_eq_true_eq] at hrule
  obtain ⟨r, ⟨hr, hid, hrT⟩, v, ⟨hv, hactive, hvT⟩, rfl⟩ := hrule
  refine ⟨r, hr, rfl, hrT, ?_, v, hv, hactive.symm, hvT.trans hrT⟩
  -- no other rule has the id that was drawn for this one
  have hnew : ∀ r0 ∈ db.alertRules ++ [AlertStore.newAlertRule now (ids 0) T subject],
      r0.id = ids 0 → r0.ownerSubject = subject := by
    intro r0 hr0 hid0
    rcases List.mem_append.mp hr0 with hold | hnew
    · have hfresh := hadmits.fresh r0 hold
      simp [alertRulesTable, AlertStore.newAlertRule, hid0] at hfresh
    · rw [List.mem_singleton.mp hnew]
      rfl
  rcases AlertStore.activateAlertRule_ok (execute_eq_ok hactivate) with rfl | rfl
  · exact hnew r hr hid
  · obtain ⟨r0, hr0, rfl⟩ := List.mem_map.mp hr
    split_ifs at hid ⊢
    · exact hnew r0 hr0 hid
    · exact hnew r0 hr0 hid

/-- The event is about one rule. -/
def EventData.AboutRule : EventData → Prop
  | .alertRuleCreated _ => True
  | .matchCandidate _ => True
  | _ => False

/-- An event for the owner of the rules it names, or one for the administrators
about rules of anybody in the tenant. -/
inductive Addressed (db : Db) (event : TenantEvent) : Prop
  | owner {owner : String} (audience : event.audience = .subjectOrTenantAdministrators owner)
      (rules : ∀ id ∈ event.data.alertRuleIds, ReadableRule event.tenantId id owner db)
  | administrators (audience : event.audience = .tenantAdministrators)
      (rules : ∀ id ∈ event.data.alertRuleIds, ∃ owner, ReadableRule event.tenantId id owner db)
      (several : ¬ event.data.AboutRule)

theorem Addressed.mono {event : TenantEvent} (h : Addressed db event)
    (hmono : ∀ T id owner, ReadableRule T id owner db → ReadableRule T id owner db') :
    Addressed db' event := by
  cases h with
  | owner audience rules => exact .owner audience fun id hid => hmono _ _ _ (rules id hid)
  | administrators audience rules several =>
    refine .administrators audience (fun id hid => ?_) several
    obtain ⟨owner, hread⟩ := rules id hid
    exact ⟨owner, hmono _ _ _ hread⟩

theorem publishMatches_addressed (hwf : Wf x db) {supply : Supply} {auth : AuthContext}
    {input : EvaluateMatchesRequest} {response : Response} {events : List TenantEvent} {s : Db}
    (h : Routes.publishMatches x supply auth input db = (.ok (response, events), s)) :
    ∀ event ∈ events, Addressed s event := by
  obtain ⟨⟨rule, threshold, search⟩, s1, hfor, h1⟩ := Action.bind_eq_ok h
  obtain ⟨rfl, hfor⟩ := Routes.evaluationFor_ok hfor
  obtain ⟨candidates, s2, hrun, h2⟩ := Action.bind_eq_ok h1
  obtain ⟨hresult, rfl⟩ := Prod.mk.inj h2
  obtain ⟨-, rfl⟩ := Prod.mk.inj (Except.ok.inj hresult)
  have hmoves : Action.Moves (Steps x (fun _ _ => True) auth.tenantId)
      (Store.evaluateMatches x supply.clock supply.ids auth.tenantId input.alertRuleId
        rule.revisionId threshold search) s1 :=
    Store.evaluateMatches_moves (hfor.owned hwf) fun _ _ _ _ _ _ => trivial
  rw [Action.Moves, hrun] at hmoves
  intro event hevent
  obtain ⟨candidate, hcandidate, rfl⟩ := List.mem_map.mp hevent
  refine .owner rfl fun id hid => ReadableRule.steps ?_ hmoves
  obtain rfl := List.mem_singleton.mp hid
  obtain ⟨row, -, rfl, record, -, hof⟩ := Store.evaluateMatches_ok hrun candidate hcandidate
  obtain ⟨r, hr, v, hv, hrT, hrid, hactive, hvT, rfl⟩ := hfor.joined
  exact ⟨r, hr, hrid.trans hof.alertRuleId.symm, hrT, rfl, v, hv, hactive, hvT⟩

theorem publishReverseMatch_addressed (hx : x.Lawful) (hwf : Wf x db) {supply : Supply}
    {sourceId : Uuid} {input : ReverseMatch.ReverseAlertPageRequest} {response : Response}
    {events : List TenantEvent} {s : Db}
    (h : Routes.publishReverseMatch x supply T sourceId input db = (.ok (response, events), s)) :
    ∀ event ∈ events, Addressed s event := by
  obtain ⟨result, s1, hroute, h1⟩ := Action.bind_eq_ok h
  obtain ⟨hresult, rfl⟩ := Prod.mk.inj h1
  obtain ⟨-, rfl⟩ := Prod.mk.inj (Except.ok.inj hresult)
  obtain ⟨_, s2, hvalid, h2⟩ := Action.bind_eq_ok hroute
  obtain ⟨-, rfl⟩ := Routes.validated_ok hvalid
  obtain ⟨⟨originalUrl, finalUrl⟩, s3, hurls, h3⟩ := Action.bind_eq_ok h2
  obtain rfl : s2 = s3 := by
    have hreads := Routes.admittedUrls_reads (x := x) T sourceId input.toPageIngestRequest s2
    rw [Action.Moves, hurls] at hreads
    exact hreads
  let c : ReverseIngest := ⟨supply.clock 0, supply.ids, T, sourceId, input, originalUrl, finalUrl⟩
  have hrun : c.exec x s2 = (.ok result, s1) := h3
  have hsteps : Steps x (fun _ _ => True) c.tenantId s2 (c.after x s2) :=
    c.after_steps fun _ _ _ _ => trivial
  rw [ReverseIngest.after, hrun] at hsteps
  intro event hevent
  obtain rfl := List.mem_singleton.mp hevent
  refine .administrators rfl (fun id hid => ?_) id
  obtain ⟨candidate, hcandidate, rfl⟩ := List.mem_map.mp hid
  obtain ⟨alert, halert, hsame, -⟩ :=
    exists_of_forall₂_right (ReverseIngest.exec_ranked hx hrun) hcandidate
  have halert := List.mem_of_mem_take halert
  rw [ranking, mem_sorted, mem_reachedAlerts_iff hx hwf] at halert
  obtain ⟨rule, revision, e, hq, rfl⟩ := halert
  obtain ⟨hvT, -⟩ := active_own hwf hq.mem hq.revisionMem hq.active
  refine ⟨rule.ownerSubject, ReadableRule.steps ?_ hsteps⟩
  exact ⟨rule, hq.mem, hsame.symm, hq.tenantId, rfl, revision, hq.revisionMem, hq.active,
    hvT.trans hq.tenantId⟩

/-- **Every event is addressed to readers of the rules it names.** -/
theorem Call.publish_addressed (hx : x.Lawful) (hwf : Wf x db) {call : Call} {response : Response}
    {events : List TenantEvent} {s : Db}
    (h : call.publish x db = (.ok (response, events), s)) :
    ∀ event ∈ events, Addressed s event := by
  obtain ⟨auth, supply, request⟩ := call
  have hnone : ∀ {a : Api Response}, (do let r ← a; return (r, []) :
      Api (Response × List TenantEvent)) db = (.ok (response, events), s) → events = [] := by
    intro a hrun
    obtain ⟨r, s1, -, hreturn⟩ := Action.bind_eq_ok hrun
    exact (Prod.mk.inj (Except.ok.inj (Prod.mk.inj hreturn).1)).2.symm
  cases request with
  | createRecord input =>
    obtain ⟨record, s1, hroute, h1⟩ := Action.bind_eq_ok h
    obtain ⟨hresult, rfl⟩ := Prod.mk.inj h1
    obtain ⟨-, rfl⟩ := Prod.mk.inj (Except.ok.inj hresult)
    obtain ⟨normalized, s2, -, hcreate⟩ := Action.bind_eq_ok hroute
    intro event hevent
    obtain rfl := List.mem_singleton.mp hevent
    refine .owner rfl fun id hid => ?_
    obtain rfl := List.mem_singleton.mp hid
    exact createAlertRule_readable hcreate
  | createSource input =>
    obtain ⟨source, s1, -, h1⟩ := Action.bind_eq_ok h
    obtain ⟨-, rfl⟩ := Prod.mk.inj (Except.ok.inj (Prod.mk.inj h1).1)
    intro event hevent
    obtain rfl := List.mem_singleton.mp hevent
    exact .administrators rfl (fun id hid => by cases hid) id
  | ingestPage sourceId input =>
    obtain ⟨revision, s1, -, h1⟩ := Action.bind_eq_ok h
    obtain ⟨-, rfl⟩ := Prod.mk.inj (Except.ok.inj (Prod.mk.inj h1).1)
    intro event hevent
    obtain rfl := List.mem_singleton.mp hevent
    exact .administrators rfl (fun id hid => by cases hid) id
  | reverseMatchPage sourceId input => exact publishReverseMatch_addressed hx hwf h
  | evaluateMatches input => exact publishMatches_addressed hwf h
  | listRecords | getRecord _ | upsertAlertEmbedding _ _ | listSources | getSource _
  | searchEmbeddings _ =>
    rw [hnone h]
    intro event hevent
    cases hevent

theorem eventVisibleTo_iff {event : TenantEvent} {auth : AuthContext} :
    eventVisibleTo event auth = true ↔ event.tenantId = auth.tenantId ∧
      (match event.audience with
        | .tenantAdministrators => auth.isTenantAdmin
        | .subjectOrTenantAdministrators subject => auth.canAccessOwner subject) = true := by
  unfold eventVisibleTo
  by_cases hT : event.tenantId = auth.tenantId
  · rw [if_neg (not_not.mpr hT)]
    exact ⟨fun h => ⟨hT, h⟩, fun h => h.2⟩
  · rw [if_pos hT]
    exact ⟨fun h => (by cases h), fun h => absurd h.1 hT⟩

/-- **An event is sent to those who can read the rules it names.**  Everybody who is
sent an event can read every rule in it, and everybody who can read the rule of an
event about one rule is sent it, in the store after the request and in every store
after that. -/
theorem events_match_readers (hx : x.Lawful) (hdb : Reachable x db) {call : Call}
    {response : Response} {events : List TenantEvent} {s : Db}
    (h : call.publish x db = (.ok (response, events), s)) (hrun : ReflTransGen (Served x) s db')
    {event : TenantEvent} (hevent : event ∈ events) (auth : AuthContext) :
    (eventVisibleTo event auth = true → ∀ id ∈ event.data.alertRuleIds, CanGet auth id db') ∧
    (event.data.AboutRule → ∀ id ∈ event.data.alertRuleIds, CanGet auth id db' →
      eventVisibleTo event auth = true) := by
  have hs : Reachable x s := by
    have hserved : Served x db (call.after x db) := .request call
    rw [Call.after, Call.exec_eq_publish, h] at hserved
    exact hdb.tail hserved
  have hvalid := (served_run hx (hs.wf hx) hrun).1.valid
  have haddressed : Addressed db' event :=
    (Call.publish_addressed hx (hdb.wf hx) h event hevent).mono
      fun _ _ _ hread => hread.served hx (hs.wf hx) hrun
  rw [eventVisibleTo_iff]
  cases haddressed with
  | owner audience rules =>
    rw [audience]
    refine ⟨fun hvisible id hid => (canGet_iff hvalid (rules id hid)).mpr hvisible, ?_⟩
    exact fun _ id hid hget => (canGet_iff hvalid (rules id hid)).mp hget
  | administrators audience rules several =>
    rw [audience]
    refine ⟨?_, fun habout => absurd habout several⟩
    rintro ⟨hT, hadmin⟩ id hid
    obtain ⟨owner, hread⟩ := rules id hid
    have hadmin : auth.isTenantAdmin = true := hadmin
    refine (canGet_iff hvalid hread).mpr ⟨hT, ?_⟩
    rw [AuthContext.canAccessOwner, hadmin, Bool.true_or]

open Scenario in
/-- The creator of a rule is sent the event, and can read the rule. -/
theorem events_match_readers_sample : ∃ response event s,
    createRule.publish Platform.sample Db.empty = (.ok (response, [event]), s) ∧
      eventVisibleTo event admin = true ∧ event.data.alertRuleIds = [20] ∧ CanGet admin 20 s := by
  have hok : (createRule.publish Platform.sample Db.empty).1.toOption.map (fun r => r.2.map
      fun event => (eventVisibleTo event admin, event.data.alertRuleIds))
      = some [(true, [20])] := by decide +kernel
  rcases hrun : createRule.publish Platform.sample Db.empty with ⟨e | ⟨response, events⟩, s⟩
  · rw [hrun] at hok
    cases hok
  · rw [hrun] at hok
    obtain ⟨event, rfl, hevent⟩ := List.map_eq_singleton_iff.mp (Option.some.inj hok)
    obtain ⟨hvisible, hids⟩ := Prod.ext_iff.mp hevent
    refine ⟨response, event, s, rfl, hvisible, hids, ?_⟩
    refine (events_match_readers Platform.sample_lawful .refl hrun .refl
      (List.mem_singleton_self event) admin).1 hvisible 20 ?_
    have hids : event.data.alertRuleIds = [20] := hids
    rw [hids]
    exact List.mem_singleton_self 20

end EmbeddedAlerts
