import EmbeddedAlerts.RowSecurity

/-!
# Row-level security and the worker paths

`upsert_alert_rule_embedding` and `find_alert_candidates` read the protected tables
too, but nothing on their way calls `set_request_context`: for a role that does not
bypass the policies, on a connection without leftover settings, the tables are empty.

* `upsertAlertRuleEmbedding_blind`, `findAlertCandidates_blind`: so the first ends in
  the error for a missing target, and the second finds no rule.
* `workers_secured_iff`: **that is what they do anyway exactly if there is nothing to
  find.**
* `workers_blind`: a store where there is.
-/

namespace EmbeddedAlerts

open Sql

namespace RowSecurity

/-- The statement of `upsert_alert_rule_embedding`. -/
def upsertAlertRuleEmbeddingStatement (x : Platform) (now : Timestamp)
    (id tenantId alertRuleId : Uuid) (request : ReverseMatch.AlertRuleEmbeddingUpsertRequest)
    (c : Context) : Statement Db (Option (AlertRuleEmbeddingRow × Bool)) := fun snapshot current =>
  match ReverseMatch.target tenantId alertRuleId request.alertRuleRevisionId
      request.embedding.model (snapshot.secured c) with
  | none => .ok (none, current)
  | some (rule, revision) => do
    let row := ReverseMatch.newAlertEmbedding x now id tenantId rule.id revision.id
      request.embedding
    (alertRuleEmbeddingsPolicy c snapshot.alertRules).withCheck "eal_alert_rule_embeddings" row
    let (selected, rows) ← alertRuleEmbeddingsTable.insertOrSelect AlertRuleEmbeddingRow.sameSpace
      (ReverseMatch.sameAlertEmbedding row) current (snapshot.secured c).alertRuleEmbeddings
      current.alertRuleEmbeddings row
    return (selected, { current with alertRuleEmbeddings := rows })

/-- `upsert_alert_rule_embedding`. -/
def upsertAlertRuleEmbedding (x : Platform) (session : Settings) (now : Timestamp)
    (id tenantId alertRuleId : Uuid) (request : ReverseMatch.AlertRuleEmbeddingUpsertRequest) :
    Api ReverseMatch.AlertRuleEmbeddingReceipt := do
  Action.ofExcept ((x.validateEmbedding request.embedding).mapError .validation)
  let row ← execute session
    (upsertAlertRuleEmbeddingStatement x now id tenantId alertRuleId request)
  let (wire, created) ← Action.okOr (.validation
    "alert embedding must target the enabled active rule revision and its configured model") row
  Action.ensure
    (wire.embeddingSha256 = ReverseMatch.embeddingSha256 x request.embedding.values) (.conflict
    "an immutable embedding already exists for this alert revision and model space")
  return {
    id := wire.id
    alertRuleId := wire.alertRuleId
    alertRuleRevisionId := wire.alertRuleRevisionId
    embeddingSha256 := wire.embeddingSha256
    created := created }

/-- `find_alert_candidates`. -/
def findAlertCandidates (x : Platform) (session : Settings) (tenantId sourceId : Uuid)
    (request : ReverseMatch.ReverseAlertPageRequest) : Api (List ReverseMatch.CandidateWire) :=
  reading session (ReverseMatch.findAlertCandidates x tenantId sourceId request)

end RowSecurity

variable {x : Platform} {db : Db} {session : Settings} {T : Uuid}

/-! ### Embeddings of rules -/

/-- The rule has the revision as its own active revision, enabled and for the
model. -/
def HasTarget (db : Db) (T alertRuleId : Uuid)
    (request : ReverseMatch.AlertRuleEmbeddingUpsertRequest) : Prop :=
  ∃ rule ∈ db.alertRules, rule.tenantId = T ∧ rule.id = alertRuleId ∧
    ∃ revision ∈ db.alertRuleRevisions, revision.tenantId = T ∧
      revision.alertRuleId = alertRuleId ∧ rule.activeRevisionId = some revision.id ∧
      revision.id = request.alertRuleRevisionId ∧ revision.enabled = true ∧
      revision.embeddingModel = request.embedding.model

theorem target_isSome_iff {alertRuleId : Uuid}
    {request : ReverseMatch.AlertRuleEmbeddingUpsertRequest} :
    (∃ found, ReverseMatch.target T alertRuleId request.alertRuleRevisionId
      request.embedding.model db = some found) ↔ HasTarget db T alertRuleId request := by
  constructor
  · rintro ⟨⟨rule, revision⟩, htarget⟩
    obtain ⟨hrule, hT, hid, hrevision, hvT, hactive, hvrule, hvid, henabled, hmodel⟩ :=
      ReverseMatch.target_some htarget
    exact ⟨rule, hrule, hT, hid, revision, hrevision, hvT, hvrule.trans hid, hactive.symm, hvid,
      henabled, hmodel⟩
  · rintro ⟨rule, hrule, hT, hid, revision, hrevision, hvT, hvrule, hactive, hvid, henabled,
      hmodel⟩
    refine Option.ne_none_iff_exists'.mp fun hnone => ?_
    have hnil := List.head?_eq_none_iff.mp hnone
    refine List.eq_nil_iff_forall_not_mem.mp hnil (rule, revision) ?_
    refine List.mem_flatMap.mpr ⟨rule, List.mem_filter.mpr ⟨hrule, decide_eq_true ⟨hT, hid⟩⟩, ?_⟩
    refine List.mem_map_of_mem (List.mem_filter.mpr ⟨hrevision, decide_eq_true ?_⟩)
    exact ⟨hvT.trans hT.symm, hactive.symm, hvrule.trans hid.symm, hvid, henabled, hmodel⟩

/-- **With a target the statement returns a row**, if it does not fail: an embedding
that is in its way is one of the same rule. -/
theorem upsertAlertRuleEmbeddingStatement_some (hwf : Wf x db) {now : Timestamp}
    {id alertRuleId : Uuid} {request : ReverseMatch.AlertRuleEmbeddingUpsertRequest} {d : Db}
    {o : Option (AlertRuleEmbeddingRow × Bool)} (htarget : HasTarget db T alertRuleId request)
    (h : ReverseMatch.upsertAlertRuleEmbeddingStatement x now id T alertRuleId request db db
      = .ok (o, d)) : ∃ wire, o = some wire := by
  obtain ⟨⟨rule, revision⟩, hfound⟩ := target_isSome_iff.mpr htarget
  obtain ⟨-, -, -, hrevision, hvT, -, hvrule, -⟩ := ReverseMatch.target_some hfound
  unfold ReverseMatch.upsertAlertRuleEmbeddingStatement at h
  rw [hfound] at h
  obtain ⟨⟨selected, rows⟩, hinsert, hrows⟩ := except_bind_eq_ok h
  obtain ⟨rfl, -⟩ := Prod.mk.inj (Except.ok.inj hrows)
  rcases Constraints.insertOrSelect_cases hinsert with ⟨ho, -, e, he, hspace⟩ | ⟨ho, -⟩
  · obtain ⟨hT, hrev, hsame⟩ := of_decide_eq_true hspace
    have hown := embedding_own hwf he hrevision hrev.symm
    have hknown : ReverseMatch.sameAlertEmbedding (ReverseMatch.newAlertEmbedding x now id T rule.id
        revision.id request.embedding) e = true :=
      decide_eq_true ⟨hrev.symm, hown.2.trans hvrule, hT.symm, hsame.symm⟩
    rw [ho]
    obtain ⟨e', he'⟩ := Option.isSome_iff_exists.mp (List.find?_isSome.mpr ⟨e, he, hknown⟩)
    exact ⟨(e', false), by rw [he']; rfl⟩
  · exact ⟨_, ho⟩

theorem validated_unit (db : Db) :
    (Action.ofExcept ((Except.ok () : Except String Unit).mapError HttpError.validation) : Api Unit)
      db = (.ok (), db) := rfl

theorem upsertAlertRuleEmbedding_blind (hsession : NoContext session) {now : Timestamp}
    {id alertRuleId : Uuid} {request : ReverseMatch.AlertRuleEmbeddingUpsertRequest}
    (hv : x.validateEmbedding request.embedding = .ok ()) :
    RowSecurity.upsertAlertRuleEmbedding x session now id T alertRuleId request db
      = (.error (.validation
        "alert embedding must target the enabled active rule revision and its configured model"),
        db) := by
  have htarget : ReverseMatch.target T alertRuleId request.alertRuleRevisionId
      request.embedding.model (db.secured ⟨none, none, false⟩) = none := by
    rw [ReverseMatch.target, (secured_of_noContext db).1]
    rfl
  have hstatement : RowSecurity.upsertAlertRuleEmbeddingStatement x now id T alertRuleId request
      ⟨none, none, false⟩ db db = .ok (none, db) := by
    rw [RowSecurity.upsertAlertRuleEmbeddingStatement, htarget]
  rw [RowSecurity.upsertAlertRuleEmbedding, hv,
    execute_of_context (context_of_noContext hsession)]
  rw [Action.bind_of_ok (validated_unit db), Action.bind_of_ok (execute_of_ok hstatement)]
  rfl

theorem upsertAlertRuleEmbedding_of_target (hwf : Wf x db) {now : Timestamp}
    {id alertRuleId : Uuid} {request : ReverseMatch.AlertRuleEmbeddingUpsertRequest}
    (htarget : HasTarget db T alertRuleId request)
    (hv : x.validateEmbedding request.embedding = .ok ()) (message : String) :
    (ReverseMatch.upsertAlertRuleEmbedding x now id T alertRuleId request db).1
      ≠ .error (.validation message) := by
  rw [ReverseMatch.upsertAlertRuleEmbedding, hv, Action.bind_of_ok (validated_unit db)]
  rcases hstatement : ReverseMatch.upsertAlertRuleEmbeddingStatement x now id T alertRuleId request
    db db with e | ⟨o, d⟩
  · rw [Action.bind_of_error (execute_of_error hstatement)]
    intro herror
    have herror := Except.error.inj herror
    cases e <;> cases herror
  · obtain ⟨⟨wire, created⟩, rfl⟩ := upsertAlertRuleEmbeddingStatement_some hwf htarget hstatement
    rw [Action.bind_of_ok (execute_of_ok hstatement), Action.okOr_some_bind_apply]
    dsimp only
    by_cases hsame : wire.embeddingSha256
        = ReverseMatch.embeddingSha256 x request.embedding.values
    · rw [Action.bind_of_ok (Action.ensure_apply_of hsame _ d)]
      intro herror
      cases herror
    · rw [Action.bind_of_error (Action.ensure_apply_of_not hsame _ d)]
      intro herror
      cases herror

theorem upsertAlertRuleEmbedding_of_not_target {now : Timestamp} {id alertRuleId : Uuid}
    {request : ReverseMatch.AlertRuleEmbeddingUpsertRequest}
    (htarget : ¬ HasTarget db T alertRuleId request)
    (hv : x.validateEmbedding request.embedding = .ok ()) :
    ReverseMatch.upsertAlertRuleEmbedding x now id T alertRuleId request db
      = (.error (.validation
        "alert embedding must target the enabled active rule revision and its configured model"),
        db) := by
  have hnone : ReverseMatch.target T alertRuleId request.alertRuleRevisionId
      request.embedding.model db = none := by
    by_contra hsome
    exact htarget (target_isSome_iff.mp (Option.ne_none_iff_exists'.mp hsome))
  have hstatement : ReverseMatch.upsertAlertRuleEmbeddingStatement x now id T alertRuleId request
      db db = .ok (none, db) := by
    rw [ReverseMatch.upsertAlertRuleEmbeddingStatement, hnone]
  rw [ReverseMatch.upsertAlertRuleEmbedding, hv, Action.bind_of_ok (validated_unit db),
    Action.bind_of_ok (execute_of_ok hstatement)]
  rfl

/-! ### The rules a page reaches -/

theorem findAlertCandidates_of_nil {sourceId : Uuid}
    {request : ReverseMatch.ReverseAlertPageRequest}
    (hnone : ReverseMatch.reachedAlerts x T sourceId request.embedding db = []) :
    ReverseMatch.findAlertCandidates x T sourceId request db = (.ok [], db) := by
  rw [ReverseMatch.findAlertCandidates, Action.query_bind_apply, hnone, List.insertionSort_nil,
    List.take_nil]
  rfl

theorem findAlertCandidates_blind (hsession : NoContext session) {sourceId : Uuid}
    {request : ReverseMatch.ReverseAlertPageRequest} :
    RowSecurity.findAlertCandidates x session T sourceId request db = (.ok [], db) := by
  have hnone : ReverseMatch.reachedAlerts x T sourceId request.embedding
      (db.secured ⟨none, none, false⟩) = [] := by
    rw [ReverseMatch.reachedAlerts, (secured_of_noContext db).2.2]
    rfl
  rw [RowSecurity.findAlertCandidates, reading_of_context (context_of_noContext hsession)]
  exact congrArg (fun r => (r.1, db)) (findAlertCandidates_of_nil hnone)

theorem maxCandidates_pos {request : ReverseMatch.ReverseAlertPageRequest}
    (hv : request.validate x = .ok ()) : 1 ≤ request.maxCandidates.toNat := by
  obtain ⟨-, -, hmax⟩ := except_bind_eq_ok hv
  split at hmax
  · cases hmax
  · next hrange =>
    rw [Bool.not_eq_true', decide_eq_false_iff_not, not_not] at hrange
    exact hrange.1

theorem findAlertCandidates_nil_iff (hx : x.Lawful) (hwf : Wf x db) {sourceId : Uuid}
    {request : ReverseMatch.ReverseAlertPageRequest} (hv : request.validate x = .ok ()) :
    ReverseMatch.findAlertCandidates x T sourceId request db = (.ok [], db) ↔
      ¬ ∃ rule revision e, QualifyingRule x db T sourceId request.embedding rule revision e := by
  constructor
  · rintro hnil ⟨rule, revision, e, hqualifies⟩
    have hranked : rankedRule x request.embedding rule revision e
        ∈ ranking x T sourceId request.embedding db :=
      mem_sorted.mpr ((mem_reachedAlerts_iff hx hwf).mpr ⟨rule, revision, e, hqualifies, rfl⟩)
    have htake := (mapM_eq_ok_iff.mp (findAlertCandidates_ranking hnil)).length_eq
    rw [List.length_take, List.length_nil] at htake
    have hmax : 1 ≤ request.maxCandidates.toNat := maxCandidates_pos hv
    have hlength := List.length_pos_of_mem hranked
    omega
  · intro hnone
    have hreached : ReverseMatch.reachedAlerts x T sourceId request.embedding db = [] := by
      refine List.eq_nil_iff_forall_not_mem.mpr fun alert halert => hnone ?_
      obtain ⟨rule, revision, e, hqualifies, -⟩ := (mem_reachedAlerts_iff hx hwf).mp halert
      exact ⟨rule, revision, e, hqualifies⟩
    exact findAlertCandidates_of_nil hreached

theorem upsertAlertRuleEmbedding_of_invalid {now : Timestamp} {id alertRuleId : Uuid}
    {request : ReverseMatch.AlertRuleEmbeddingUpsertRequest}
    (hv : x.validateEmbedding request.embedding ≠ .ok ()) :
    RowSecurity.upsertAlertRuleEmbedding x session now id T alertRuleId request db
      = ReverseMatch.upsertAlertRuleEmbedding x now id T alertRuleId request db := by
  rw [RowSecurity.upsertAlertRuleEmbedding, ReverseMatch.upsertAlertRuleEmbedding]
  rcases hcheck : x.validateEmbedding request.embedding with e | _
  · rfl
  · exact absurd hcheck hv

/-- **Without a context the worker paths do what they would do anyway exactly if there
is nothing for them to find**: no target for the embedding of a rule, and no rule that
qualifies for the page. -/
theorem workers_secured_iff (hx : x.Lawful) (hdb : Reachable x db)
    (hsession : NoContext session) :
    (∀ now id T alertRuleId request,
      (RowSecurity.upsertAlertRuleEmbedding x session now id T alertRuleId request db
          = ReverseMatch.upsertAlertRuleEmbedding x now id T alertRuleId request db ↔
        ¬ (x.validateEmbedding request.embedding = .ok () ∧
          HasTarget db T alertRuleId request))) ∧
    ∀ T sourceId request, ReverseMatch.ReverseAlertPageRequest.validate x request = .ok () →
      (RowSecurity.findAlertCandidates x session T sourceId request db
          = ReverseMatch.findAlertCandidates x T sourceId request db ↔
        ¬ ∃ rule revision e,
          QualifyingRule x db T sourceId request.embedding rule revision e) := by
  have hwf := hdb.wf hx
  refine ⟨fun now id T alertRuleId request => ?_, fun T sourceId request hv => ?_⟩
  · by_cases hv : x.validateEmbedding request.embedding = .ok ()
    · rw [upsertAlertRuleEmbedding_blind hsession hv]
      constructor
      · rintro hsame ⟨-, htarget⟩
        exact upsertAlertRuleEmbedding_of_target hwf htarget hv _ (congrArg Prod.fst hsame).symm
      · intro hnone
        exact (upsertAlertRuleEmbedding_of_not_target (fun htarget => hnone ⟨hv, htarget⟩) hv).symm
    · exact iff_of_true (upsertAlertRuleEmbedding_of_invalid hv) fun h => hv h.1
  · rw [findAlertCandidates_blind hsession, eq_comm, findAlertCandidates_nil_iff hx hwf hv]

/-! ### A scenario -/

open Scenario in
/-- The rule of the scenario has a target for its embedding and qualifies for the
page, so both paths miss it. -/
theorem workers_secured_iff_sample :
    RowSecurity.upsertAlertRuleEmbedding Platform.sample (fun _ => none) 0 50 1 20
        ⟨21, ⟨space, axis⟩⟩ stored
      ≠ ReverseMatch.upsertAlertRuleEmbedding Platform.sample 0 50 1 20 ⟨21, ⟨space, axis⟩⟩ stored ∧
    RowSecurity.findAlertCandidates Platform.sample (fun _ => none) 1 10 ⟨page diagonal, 100⟩ stored
      ≠ ReverseMatch.findAlertCandidates Platform.sample 1 10 ⟨page diagonal, 100⟩ stored := by
  have hsession : NoContext fun _ => none := fun _ _ => Or.inl rfl
  have hworkers := workers_secured_iff Platform.sample_lawful reachable_stored hsession
  constructor
  · intro hsame
    refine (hworkers.1 _ _ _ _ _).mp hsame ⟨by decide, ?_⟩
    unfold HasTarget
    decide +kernel
  · intro hsame
    refine (hworkers.2 _ _ _ (by decide)).mp hsame ?_
    have hreached : ∃ alert, alert ∈ ReverseMatch.reachedAlerts Platform.sample 1 10
        ⟨space, diagonal⟩ stored := by
      refine List.exists_mem_of_length_pos ?_
      decide +kernel
    obtain ⟨alert, halert⟩ := hreached
    obtain ⟨rule, revision, e, hqualifies, -⟩ := (mem_reachedAlerts_iff Platform.sample_lawful
      (reachable_stored.wf Platform.sample_lawful)).mp halert
    exact ⟨rule, revision, e, hqualifies⟩

open Scenario in
/-- **Not every worker path works under the policies**: the embedding of the rule of
the scenario is refused, and no rule is found for the page. -/
theorem workers_blind : ¬ ∀ (x : Platform) (db : Db) (session : Settings), x.Lawful →
    Reachable x db → NoContext session →
    (∀ now id T alertRuleId request,
      RowSecurity.upsertAlertRuleEmbedding x session now id T alertRuleId request db
        = ReverseMatch.upsertAlertRuleEmbedding x now id T alertRuleId request db) ∧
    ∀ T sourceId request, ReverseMatch.ReverseAlertPageRequest.validate x request = .ok () →
      RowSecurity.findAlertCandidates x session T sourceId request db
        = ReverseMatch.findAlertCandidates x T sourceId request db := by
  intro h
  have hnone : NoContext fun _ => none := fun _ _ => Or.inl rfl
  have hsame := (h Platform.sample stored (fun _ => none) Platform.sample_lawful reachable_stored
    hnone).1 0 50 1 20 ⟨21, ⟨space, axis⟩⟩
  rw [upsertAlertRuleEmbedding_blind hnone (by decide)] at hsame
  have htarget : HasTarget stored 1 20 ⟨21, ⟨space, axis⟩⟩ := by
    unfold HasTarget
    decide +kernel
  exact upsertAlertRuleEmbedding_of_target (reachable_stored.wf Platform.sample_lawful) htarget
    (by decide) _ (congrArg Prod.fst hsame).symm

end EmbeddedAlerts
