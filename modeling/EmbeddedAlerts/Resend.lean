import EmbeddedAlerts.FirstWrite
import EmbeddedAlerts.Ranking

/-!
# Sending a page again

What a call of `ingest_and_reverse_match` leaves behind for the next call with the
same request.

* `Kept`: rules are created and embedded, and pages are matched, without touching a
  rule that is there.  So a rule that qualifies goes on qualifying
  (`QualifyingRule.mono`), and a rule that was embedded before is not nearer than it
  was (`mem_take_ranking_earlier`).
* `ReverseIngest.upsertPageRevision_again`: the page is known, so it is answered with
  its recorded revision and has not changed.
* `ReverseIngest.exec_appends`: a call adds candidates of its page revision, from its
  page vector, and nothing else that a later call reads.
* `ReverseIngest.Returned.unique`: one rule is returned with one candidate.
* `ReverseIngest.First`: what is known of the call that is repeated.
-/

namespace EmbeddedAlerts

open Sql Relation

variable {x : Platform} {db db' d s : Db}

/-! ### Rules stay as they are -/

/-- No row is lost, and the rules that are there stay as they are. -/
structure Kept (db db' : Db) : Prop where
  grows : Grows db db'
  rules : db.alertRules ⊆ db'.alertRules

theorem Kept.refl (db : Db) : Kept db db := ⟨Grows.refl db, List.Subset.refl _⟩

theorem Kept.trans {a b c : Db} (h : Kept a b) (h' : Kept b c) : Kept a c :=
  ⟨h.grows.trans h'.grows, List.Subset.trans h.rules h'.rules⟩

/-- The rules stay as they are, but perhaps for one. -/
def RulesBut (id : Uuid) (db db' : Db) : Prop :=
  ∀ r ∈ db.alertRules, r.id ≠ id → r ∈ db'.alertRules

instance (id : Uuid) : Std.Refl (RulesBut id) := ⟨fun _ _ h _ => h⟩

instance (id : Uuid) : IsTrans Db (RulesBut id) :=
  ⟨fun _ _ _ h h' r hr hid => h' r (h r hr hid) hid⟩

def RulesKept (db db' : Db) : Prop := db.alertRules ⊆ db'.alertRules

instance : Std.Refl RulesKept := ⟨fun _ => List.Subset.refl _⟩

instance : IsTrans Db RulesKept := ⟨fun _ _ _ => List.Subset.trans⟩

namespace AlertStore

variable {now : Timestamp} {ids : ℕ → Uuid} {T : Uuid} {subject : String} {input : CreateAlertRule}

theorem activateAlertRule_rulesBut {ruleId revisionId : Uuid} {n : ℕ}
    (h : activateAlertRule now ruleId T revisionId db db = .ok (n, db')) :
    RulesBut ruleId db db' := by
  rcases activateAlertRule_ok h with rfl | rfl
  · exact refl_of (RulesBut ruleId) _
  · intro r hr hid
    refine List.mem_map.mpr ⟨r, hr, if_neg ?_⟩
    simp [isRule, hid]

theorem createAlertRule_rulesBut (db : Db) :
    Action.Moves (RulesBut (ids 0)) (createAlertRule now ids T subject input) db := by
  refine Action.Moves.bind (Action.Moves.transaction ?_) fun _ _ _ => Action.Moves.okOr
  refine Action.Moves.bind (Action.Moves.statement fun n d h => ?_) fun n d1 _ => ?_
  · obtain ⟨-, rfl⟩ := insertAlertRule_ok h
    exact fun r hr _ => List.mem_append_left _ hr
  refine Action.Moves.ensure_bind fun _ => ?_
  refine Action.Moves.bind (Action.Moves.statement fun n d h => ?_) fun n d2 _ => ?_
  · obtain ⟨-, rfl⟩ := insertAlertRuleRevision_ok h
    exact fun r hr _ => hr
  refine Action.Moves.ensure_bind fun _ => ?_
  refine Action.Moves.bind (Action.Moves.statement fun n d h => ?_) fun n d4 _ => ?_
  · exact activateAlertRule_rulesBut h
  exact Action.Moves.ensure_bind fun _ => Action.Moves.of_same rfl

theorem createAlertRule_of_taken (htaken : ∃ r ∈ db.alertRules, r.id = ids 0) :
    (createAlertRule now ids T subject input db).2 = db := by
  obtain ⟨r, hr, hid⟩ := htaken
  rcases hinsert : insertAlertRule (newAlertRule now (ids 0) T subject) db db with e | ⟨n, d⟩
  · rw [createAlertRule, Action.bind_of_error (Action.transaction_of_error
      (Action.bind_of_error (execute_of_error hinsert)))]
  · have hfresh := (insertAlertRule_ok hinsert).1.fresh r hr
    simp [alertRulesTable, newAlertRule, hid] at hfresh

/-- **Creating a rule leaves the rules that are there alone**: the one it activates
has an id that no rule had. -/
theorem createAlertRule_rules (db : Db) :
    Action.Moves RulesKept (createAlertRule now ids T subject input) db := by
  by_cases htaken : ∃ r ∈ db.alertRules, r.id = ids 0
  · exact Action.Moves.of_same (createAlertRule_of_taken htaken)
  · intro r hr
    exact createAlertRule_rulesBut db r hr fun hid => htaken ⟨r, hr, hid⟩

end AlertStore

theorem ReverseMatch.upsertAlertRuleEmbedding_rules {now : Timestamp} {id T alertRuleId : Uuid}
    {request : ReverseMatch.AlertRuleEmbeddingUpsertRequest} (db : Db) :
    Action.Moves RulesKept
      (ReverseMatch.upsertAlertRuleEmbedding x now id T alertRuleId request) db := by
  refine Action.Moves.ofExcept_bind fun _ _ => ?_
  refine Action.Moves.bind (Action.Moves.statement fun o d h => ?_) fun o d _ =>
    Action.Moves.okOr_bind fun _ _ => Action.Moves.ensure_bind fun _ => Action.Moves.of_same rfl
  unfold ReverseMatch.upsertAlertRuleEmbeddingStatement at h
  split at h
  · obtain ⟨-, rfl⟩ := Prod.mk.inj (Except.ok.inj h)
    exact List.Subset.refl _
  · obtain ⟨_, -, hrows⟩ := except_bind_eq_ok h
    obtain ⟨-, rfl⟩ := Prod.mk.inj (Except.ok.inj hrows)
    exact List.Subset.refl _

/-- A run of steps that adds no candidate leaves the candidates alone. -/
theorem Steps.matchCandidates_eq {T : Uuid} (h : Steps x (fun _ _ => False) T db db') :
    db'.matchCandidates = db.matchCandidates := by
  induction h with
  | refl => rfl
  | tail _ hs ih =>
    cases hs with
    | addCandidate _ _ _ also => exact also.elim
    | addSource | addPage | touchPages | addPageRevision | addEmbedding | addRule
    | addRuleRevision | activate | addAlertEmbedding => exact ih

/-! ### Rules that qualify -/

section Qualify

variable {T sourceId : Uuid} {embedding : EmbeddingPayload} {rule : AlertRuleRow}
  {revision : AlertRuleRevisionRow} {e : AlertRuleEmbeddingRow}

theorem QualifyingRule.mono (h : QualifyingRule x db T sourceId embedding rule revision e)
    (hk : Kept db db') : QualifyingRule x db' T sourceId embedding rule revision e :=
  { h with
    mem := hk.rules h.mem
    revisionMem := hk.grows.alertRuleRevisions h.revisionMem
    embeddingMem := hk.grows.alertRuleEmbeddings h.embeddingMem }

theorem QualifyingRule.earlier (hwf : Wf x db) (hwf' : Wf x db') (hk : Kept db db')
    (h : QualifyingRule x db' T sourceId embedding rule revision e)
    (he : e ∈ db.alertRuleEmbeddings) :
    QualifyingRule x db T sourceId embedding rule revision e := by
  obtain ⟨v, hv, hvid, -⟩ := hwf.alertRevision e he
  have hrevision : v = revision := hwf'.valid.alertRuleRevision_eq
    (hk.grows.alertRuleRevisions hv) h.revisionMem (hvid.trans h.embedded)
  have hrefs := hwf.valid.alertRuleRevisions.refs v hv
  simp only [alertRuleRevisionsTable, List.any_eq_true, decide_eq_true_eq] at hrefs
  obtain ⟨r, hr, -, hrid⟩ := hrefs
  have hrule : r = rule := by
    refine hwf'.valid.alertRule_eq (hk.rules hr) h.mem (hrid.trans ?_)
    rw [hrevision]
    exact (active_own hwf' h.mem h.revisionMem h.active).2
  exact { h with
    mem := hrule ▸ hr
    revisionMem := hrevision ▸ hv
    embeddingMem := he }

/-- **A rule that was embedded before is not nearer than it was**: if it is among the
first `n` now, it was then. -/
theorem mem_take_ranking_earlier (hx : x.Lawful) (hwf : Wf x db) (hwf' : Wf x db')
    (hk : Kept db db') (h : QualifyingRule x db' T sourceId embedding rule revision e)
    (he : e ∈ db.alertRuleEmbeddings) {n : ℕ}
    (hfirst : rankedRule x embedding rule revision e
      ∈ (ranking x T sourceId embedding db').take n) :
    rankedRule x embedding rule revision e ∈ (ranking x T sourceId embedding db).take n := by
  refine (increasing_ranking hwf.valid).mem_take_of_subset (increasing_ranking hwf'.valid) ?_ ?_ hfirst
  · intro alert halert
    rw [ranking, mem_sorted, mem_reachedAlerts_iff hx hwf] at halert
    rw [ranking, mem_sorted, mem_reachedAlerts_iff hx hwf']
    obtain ⟨r, v, f, hq, hq'⟩ := halert
    exact ⟨r, v, f, hq.mono hk, hq'⟩
  · rw [ranking, mem_sorted, mem_reachedAlerts_iff hx hwf]
    exact ⟨rule, revision, e, h.earlier hwf hwf' hk he, rfl⟩

end Qualify

namespace ReverseIngest

variable {c : ReverseIngest}

/-! ### The page -/

/-- **What storing the page that succeeds has done.** -/
theorem upsertPageRevision_inv {page : ReverseMatch.PageWire}
    (h : ReverseMatch.upsertPageRevision x c.now c.ids c.tenantId c.sourceId c.request
      c.originalUrl c.finalUrl db = (.ok page, d)) :
    ∃ p pages v changed rows,
      pagesTable.insertOrUpdate PageRow.sameUrl (Store.seenAgain c.now c.fetchedAt) db
        db.pages (Store.newPage c.now (c.ids 0) c.tenantId c.sourceId c.finalUrl
          c.fetchedAt) = .ok (p, pages) ∧
      pageRevisionsTable.insertOrSelect PageRevisionRow.sameContent
        (Store.knownRevision c.tenantId p.id (ReverseMatch.contentSha256 x c.request.contentText))
        { db with pages := pages } db.pageRevisions db.pageRevisions (c.revisionOffer x p)
          = .ok (some (v, changed), rows) ∧
      page = ⟨p.id, v.id, ReverseMatch.contentSha256 x c.request.contentText, changed⟩ ∧
      ReverseMatch.setLatestRevision c.now c.fetchedAt c.tenantId page
        { db with pages := pages, pageRevisions := rows }
        { db with pages := pages, pageRevisions := rows } = .ok ((), d) := by
  obtain ⟨o, s1, hrow, h1⟩ := Action.bind_eq_ok h
  obtain ⟨page', s2, hpage, h2⟩ := Action.bind_eq_ok h1
  obtain ⟨_, s3, hset, h3⟩ := Action.bind_eq_ok h2
  obtain ⟨hsame, rfl⟩ := Prod.mk.inj h3
  obtain rfl := Except.ok.inj hsame
  obtain ⟨⟨p, pages⟩, hp, hp'⟩ := except_bind_eq_ok (execute_eq_ok hrow)
  obtain ⟨⟨selected, rows⟩, hr, hr'⟩ := except_bind_eq_ok hp'
  obtain ⟨rfl, rfl⟩ := Prod.mk.inj (Except.ok.inj hr')
  cases selected with
  | none => cases hpage
  | some selected =>
    obtain ⟨v, changed⟩ := selected
    obtain ⟨hwire, rfl⟩ := Prod.mk.inj hpage
    exact ⟨p, pages, v, changed, rows, hp, hr, (Except.ok.inj hwire).symm, execute_eq_ok hset⟩

theorem Recorded.mono {v : PageRevisionRow} (h : c.Recorded x db v) (hg : Grows db db') :
    c.Recorded x db' v := by
  obtain ⟨p, hp, hid, hT, hsource, hurl⟩ := h.page
  obtain ⟨q, hq, hsame⟩ := hg.pages p hp
  exact { h with
    mem := hg.pageRevisions h.mem
    page := ⟨q, hq, hsame.id.trans hid, hsame.tenantId.trans hT, hsame.sourceId.trans hsource,
      hsame.canonicalUrl.trans hurl⟩ }

theorem upsertPageRevision_recorded {page : ReverseMatch.PageWire}
    (h : ReverseMatch.upsertPageRevision x c.now c.ids c.tenantId c.sourceId c.request
      c.originalUrl c.finalUrl db = (.ok page, d)) :
    ∃ v, c.Recorded x d v ∧ v.id = page.pageRevisionId ∧ v.pageId = page.pageId := by
  obtain ⟨p, pages, v, changed, rows, hp, hr, rfl, hset⟩ := upsertPageRevision_inv h
  have hgrows := (ReverseMatch.setLatestRevision_steps (x := x) (G := fun _ _ => True) hset).grows
  obtain ⟨-, hmem, hT, hsource, hurl⟩ := upsertPage_steps (x := x) (G := fun _ _ => True) hp
  have hsub : db.pageRevisions ⊆ ({ db with pages := pages } : Db).pageRevisions :=
    List.Subset.refl _
  obtain ⟨-, hrev⟩ := insertRevision_steps (x := x) (G := fun _ _ => True) (T := c.tenantId) hsub
    rfl (fun v hv => knownRevision_spec hv) ⟨p, hmem, rfl, hT⟩ hr
  obtain ⟨hv, hvT, hvpage, hvsha⟩ := hrev v changed rfl
  have hrecorded : c.Recorded x { db with pages := pages, pageRevisions := rows } v :=
    ⟨hv, hvT, hvsha, p, hmem, hvpage.symm, hT, hsource, hurl⟩
  exact ⟨v, hrecorded.mono hgrows, rfl, hvpage⟩

/-- **A page that is recorded is answered with its revision**, and has not changed. -/
theorem upsertPageRevision_again (hwf : Wf x db) {v : PageRevisionRow} (hv : c.Recorded x db v)
    {page : ReverseMatch.PageWire}
    (h : ReverseMatch.upsertPageRevision x c.now c.ids c.tenantId c.sourceId c.request
      c.originalUrl c.finalUrl db = (.ok page, d)) :
    page.pageId = v.pageId ∧ page.pageRevisionId = v.id ∧ page.changed = false := by
  obtain ⟨p, pages, w, changed, rows, hp, hr, rfl, -⟩ := upsertPageRevision_inv h
  have hsame := hv.sameContent hwf hp
  obtain ⟨-, hpage, -⟩ := of_decide_eq_true hsame
  rcases Constraints.insertOrSelect_cases hr with ⟨ho, -⟩ | ⟨-, -, -, hnone⟩
  · obtain ⟨w', hfind, hw⟩ := Option.map_eq_some_iff.mp ho.symm
    obtain ⟨rfl, rfl⟩ := Prod.mk.inj hw
    have hknown := knownRevision_spec (List.find?_some hfind)
    have hwv : w' = v := by
      refine hwf.valid.pageRevision_eq_of_content (List.mem_of_find?_eq_some hfind) hv.mem
        (decide_eq_true ⟨?_, ?_, ?_⟩)
      · rw [hknown.1, hv.tenantId]
      · rw [hknown.2.1]
        exact hpage
      · rw [hknown.2.2, hv.content]
    rw [hwv]
    exact ⟨hpage, rfl, rfl⟩
  · have hfalse := hnone v hv.mem
    rw [hsame] at hfalse
    cases hfalse

theorem Recorded.earlier (hwf : Wf x db) (hwf' : Wf x d) (hg : Grows db d) {v : PageRevisionRow}
    (h : c.Recorded x d v) (hv : v ∈ db.pageRevisions) : c.Recorded x db v := by
  obtain ⟨p, hp, hid, -⟩ := hwf.page v hv
  obtain ⟨q, hq, hsame⟩ := hg.pages p hp
  obtain ⟨q', hq', hid', hT, hsource, hurl⟩ := h.page
  obtain rfl := hwf'.valid.page_eq hq hq' (hsame.id.trans (hid.trans hid'.symm))
  exact ⟨hv, h.tenantId, h.content, p, hp, hid, hsame.tenantId.symm.trans hT,
    hsame.sourceId.symm.trans hsource, hsame.canonicalUrl.symm.trans hurl⟩

/-! ### The effect of a call -/

/-- The tables of the rules are the same, and every new candidate has the property. -/
structure Appends (P : MatchCandidateRow → Prop) (a b : Db) : Prop where
  alertRules : b.alertRules = a.alertRules
  alertRuleRevisions : b.alertRuleRevisions = a.alertRuleRevisions
  alertRuleEmbeddings : b.alertRuleEmbeddings = a.alertRuleEmbeddings
  rows : ∀ r ∈ b.matchCandidates, r ∈ a.matchCandidates ∨ P r

instance (P : MatchCandidateRow → Prop) : Std.Refl (Appends P) :=
  ⟨fun _ => ⟨rfl, rfl, rfl, fun _ => Or.inl⟩⟩

instance (P : MatchCandidateRow → Prop) : IsTrans Db (Appends P) where
  trans _ _ _ h h' := by
    refine ⟨h'.alertRules.trans h.alertRules, h'.alertRuleRevisions.trans h.alertRuleRevisions,
      h'.alertRuleEmbeddings.trans h.alertRuleEmbeddings, fun r hr => ?_⟩
    rcases h'.rows r hr with hr | hr
    · exact h.rows r hr
    · exact Or.inr hr

theorem Appends.findAlertCandidates {P : MatchCandidateRow → Prop} (h : Appends P db d)
    (c : ReverseIngest) :
    (ReverseMatch.findAlertCandidates x c.tenantId c.sourceId c.request d).1
      = (ReverseMatch.findAlertCandidates x c.tenantId c.sourceId c.request db).1 := by
  have hreached : ReverseMatch.reachedAlerts x c.tenantId c.sourceId c.request.embedding d
      = ReverseMatch.reachedAlerts x c.tenantId c.sourceId c.request.embedding db := by
    rw [ReverseMatch.reachedAlerts, h.alertRules, h.alertRuleRevisions, h.alertRuleEmbeddings]
    rfl
  rw [ReverseMatch.findAlertCandidates, Action.query_bind_apply, Action.query_bind_apply, hreached]
  rfl

/-- A candidate of the page revision, from the vector of the call. -/
structure NewRow (x : Platform) (c : ReverseIngest) (pageRevisionId : Uuid)
    (r : MatchCandidateRow) : Prop where
  revisionId : r.revisionId = pageRevisionId
  matchMode : r.matchMode = .reverseAlertStream
  fingerprint : r.pageEmbeddingSha256 = some (c.fingerprint x)

theorem turnAt_appends {page : ReverseMatch.PageWire} (turn : ReverseMatch.CandidateWire × ℕ)
    (s : Db) : Action.Moves (Appends (c.NewRow x page.pageRevisionId)) (c.turnAt x page turn) s := by
  refine Action.Moves.bind (Action.Moves.statement fun o d h => ?_) fun o d _ =>
    Action.Moves.okOr_bind fun _ _ => Action.Moves.of_same rfl
  rcases ReverseMatch.persistStatement_ok h with ⟨-, rfl, -⟩ | ⟨-, rfl, -⟩
  · exact refl_of (Appends _) _
  · refine ⟨rfl, rfl, rfl, fun r hr => ?_⟩
    rcases List.mem_append.mp hr with hr | hr
    · exact Or.inl hr
    · rw [List.mem_singleton.mp hr]
      exact Or.inr ⟨rfl, rfl, rfl⟩

/-- **What a call that succeeds adds.** -/
theorem exec_appends (hx : x.Lawful) {result : ReverseMatch.ReverseAlertMatchResponse}
    (h : c.exec x db = (.ok result, s)) : Appends (c.NewRow x result.pageRevisionId) db s := by
  obtain ⟨page, d, wires, candidates, hpage, -, hloop, rfl⟩ := exec_inv hx h
  obtain ⟨pages, revisions, rfl⟩ := ReverseMatch.upsertPageRevision_frame hpage
  have hmoves : Action.Moves (Appends (c.NewRow x page.pageRevisionId))
      (Action.forEach (c.turnAt x page) wires.zipIdx)
      { db with pages := pages, pageRevisions := revisions } :=
    Action.Moves.forEach _ _ fun turn _ s' _ => turnAt_appends turn s'
  rw [Action.Moves, hloop] at hmoves
  exact ⟨hmoves.alertRules, hmoves.alertRuleRevisions, hmoves.alertRuleEmbeddings, hmoves.rows⟩

theorem exec_failed {e : HttpError} (h : c.exec x db = (.error e, s)) : s = db := by
  have hundone : Action.Moves Eq (c.exec x) db ∨ ∃ result t, c.exec x db = (.ok result, t) := by
    rcases hvalid : c.request.validate x with e | u
    · left
      rw [Action.Moves, exec, ReverseMatch.ingestAndReverseMatch, hvalid]
      rfl
    · rcases hrun : ReverseMatch.reverseTransaction x c.now c.ids c.tenantId c.sourceId c.request
        c.originalUrl c.finalUrl db with ⟨e | result, t⟩
      · left
        rw [Action.Moves, exec, ReverseMatch.ingestAndReverseMatch, hvalid]
        exact (congrArg Prod.snd (Action.transaction_of_error hrun)).symm
      · right
        refine ⟨result, t, ?_⟩
        rw [exec, ReverseMatch.ingestAndReverseMatch, hvalid]
        exact Action.transaction_of_ok hrun
  rcases hundone with hsame | ⟨result, t, hok⟩
  · rw [Action.Moves, h] at hsame
    exact hsame.symm
  · rw [h] at hok
    cases hok

/-! ### Repetitions -/

/-- The same request at another time, with other UUIDs. -/
def again (c : ReverseIngest) (now : Timestamp) (ids : ℕ → Uuid) : ReverseIngest :=
  { c with now := now, ids := ids }

/-- No rule among the nearest has a historical candidate for the recorded revision
of the page. -/
def Unobstructed (x : Platform) (db : Db) (c : ReverseIngest) : Prop :=
  ∀ alert ∈ (ranking x c.tenantId c.sourceId c.request.embedding db).take
      c.request.maxCandidates.toNat,
    ∀ v, c.Recorded x db v → ∀ r ∈ db.matchCandidates,
      r.For c.tenantId alert.alertRuleRevisionId v.id c.request.embedding.toModelSpace →
      r.matchMode ≠ .historicalPageSearch

/-- The stored row for a rule and the page revision, as it is returned. -/
def RowFor (x : Platform) (c : ReverseIngest) (pageRevisionId : Uuid) (db : Db)
    (alertRuleRevisionId : Uuid) (candidate : ReverseMatch.ReverseAlertCandidate) : Prop :=
  ∃ row ∈ db.matchCandidates, candidate = ReverseMatch.candidateJson x row ∧
    row.For c.tenantId alertRuleRevisionId pageRevisionId c.request.embedding.toModelSpace

theorem RowFor.mono {pageRevisionId alertRuleRevisionId : Uuid}
    {candidate : ReverseMatch.ReverseAlertCandidate}
    (h : c.RowFor x pageRevisionId db alertRuleRevisionId candidate) (hg : Grows db db') :
    c.RowFor x pageRevisionId db' alertRuleRevisionId candidate := by
  obtain ⟨row, hrow, h⟩ := h
  exact ⟨row, hg.matchCandidates.subset hrow, h⟩

theorem RowFor.unique (hk : Function.Injective (Store.matchKey x)) (hwf : Wf x db)
    {pageRevisionId alertRuleRevisionId : Uuid}
    {candidate candidate' : ReverseMatch.ReverseAlertCandidate}
    (h : c.RowFor x pageRevisionId db alertRuleRevisionId candidate)
    (h' : c.RowFor x pageRevisionId db alertRuleRevisionId candidate') :
    candidate = candidate' := by
  obtain ⟨row, hrow, rfl, hfor⟩ := h
  obtain ⟨row', hrow', rfl, hfor'⟩ := h'
  rw [combination_unique hk hwf hrow hrow' hfor hfor']

/-- The candidate was returned for a rule, and for the active revision that the
rule has. -/
def Returned (x : Platform) (c : ReverseIngest) (pageRevisionId : Uuid) (db : Db)
    (candidate : ReverseMatch.ReverseAlertCandidate) : Prop :=
  ∃ rule ∈ db.alertRules, candidate.alertRuleId = rule.id ∧
    ∃ revisionId, rule.activeRevisionId = some revisionId ∧
      c.RowFor x pageRevisionId db revisionId candidate

theorem Returned.mono {pageRevisionId : Uuid} {candidate : ReverseMatch.ReverseAlertCandidate}
    (h : c.Returned x pageRevisionId db candidate) (hk : Kept db db') :
    c.Returned x pageRevisionId db' candidate := by
  obtain ⟨rule, hrule, hid, revisionId, hactive, hrow⟩ := h
  exact ⟨rule, hk.rules hrule, hid, revisionId, hactive, hrow.mono hk.grows⟩

/-- **One rule is returned with one candidate.** -/
theorem Returned.unique (hk : Function.Injective (Store.matchKey x)) (hwf : Wf x db)
    {pageRevisionId : Uuid} {candidate candidate' : ReverseMatch.ReverseAlertCandidate}
    (h : c.Returned x pageRevisionId db candidate) (h' : c.Returned x pageRevisionId db candidate')
    (hrule : candidate.alertRuleId = candidate'.alertRuleId) : candidate = candidate' := by
  obtain ⟨rule, hmem, hid, revisionId, hactive, hrow⟩ := h
  obtain ⟨rule', hmem', hid', revisionId', hactive', hrow'⟩ := h'
  obtain rfl := hwf.valid.alertRule_eq hmem hmem' (hid.symm.trans (hrule.trans hid'))
  rw [hactive] at hactive'
  obtain rfl := Option.some.inj hactive'
  exact hrow.unique hk hwf hrow'

theorem Answered.returned (hwf : Wf x s) {pageRevisionId : Uuid}
    {wire : ReverseMatch.CandidateWire} {candidate : ReverseMatch.ReverseAlertCandidate}
    (hreached : ReverseMatch.Reached x c.tenantId c.sourceId c.request.embedding s wire)
    (h : c.Answered x pageRevisionId s wire candidate) :
    c.Returned x pageRevisionId s candidate := by
  obtain ⟨row, hrow, rfl, hfor, -⟩ := h
  obtain ⟨a, -, rule, hrule, v, hv, -, -, -, hruleId, hactive, -, hvid, hvrule, -, -, -, -, hrev,
    -⟩ := hreached
  refine ⟨rule, hrule, ?_, wire.alertRuleRevisionId, by rw [hactive, hrev], row, hrow, rfl, hfor⟩
  -- the rule of a candidate is the rule of its rule revision
  obtain ⟨i, hi⟩ := hwf.candidate row hrow
  obtain ⟨w, hw, hwid, -, hwrule⟩ := hi.owned
  have hwv : w = v := by
    refine hwf.valid.alertRuleRevision_eq hw hv ?_
    rw [hwid, hvid, ← hrev]
    exact Option.some.inj (hi.alertRuleRevisionId.symm.trans hfor.alertRuleRevisionId)
  rw [ReverseMatch.candidateJson, hi.alertRuleId, ← hwrule, hwv, hvrule, hruleId]

theorem exists_wire {wires : List ReverseMatch.CandidateWire}
    (hwires : ReverseMatch.findAlertCandidates x c.tenantId c.sourceId c.request db
      = (.ok wires, db)) {alert : ReverseMatch.AlertDistance}
    (halert : alert ∈ (ranking x c.tenantId c.sourceId c.request.embedding db).take
      c.request.maxCandidates.toNat) :
    ∃ wire ∈ wires, wire.alertRuleRevisionId = alert.alertRuleRevisionId := by
  obtain ⟨wire, hwire, hdecoded⟩ := exists_mem_of_mapM (findAlertCandidates_ranking hwires) halert
  exact ⟨wire, hwire, (intoWire_ok hdecoded).2.1⟩

theorem exists_alert {wires : List ReverseMatch.CandidateWire}
    (hwires : ReverseMatch.findAlertCandidates x c.tenantId c.sourceId c.request db
      = (.ok wires, db)) {wire : ReverseMatch.CandidateWire} (hwire : wire ∈ wires) :
    ∃ alert ∈ (ranking x c.tenantId c.sourceId c.request.embedding db).take
      c.request.maxCandidates.toNat, wire.alertRuleRevisionId = alert.alertRuleRevisionId := by
  obtain ⟨alert, halert, hdecoded⟩ := exists_of_mem_mapM (findAlertCandidates_ranking hwires) hwire
  exact ⟨alert, halert, (intoWire_ok hdecoded).2.1⟩

/-- **A repetition that is answered met no historical candidate.** -/
theorem unobstructed_of_ok (hx : x.Lawful) (hk : Function.Injective (Store.matchKey x))
    (hwf : Wf x db) (hv : c.Valid x db) {result : ReverseMatch.ReverseAlertMatchResponse}
    (h : c.exec x db = (.ok result, s)) : c.Unobstructed x db := by
  intro alert halert v hrec r hr hfor hmode
  obtain ⟨wires, hwires⟩ := findAlertCandidates_total hx hwf hv
  obtain ⟨wire, hwire, hrev⟩ := exists_wire hwires halert
  have hother : ¬ (r.matchMode = .reverseAlertStream ∧
      r.pageEmbeddingSha256 = some (c.fingerprint x)) := by
    rw [hmode]
    rintro ⟨hreverse, -⟩
    cases hreverse
  rw [← hrev] at hfor
  have herror := exec_conflict hx hk hwf hv hwires ⟨wire, hwire, v, hrec, r, hr, hfor, hother⟩
  rw [h] at herror
  cases herror

/-- The call that is repeated: it was answered, for the rules `wires`, as the
revision `v`. -/
structure First (x : Platform) (db : Db) (c : ReverseIngest) (v : PageRevisionRow)
    (wires : List ReverseMatch.CandidateWire)
    (result : ReverseMatch.ReverseAlertMatchResponse) (s : Db) : Prop where
  run : c.exec x db = (.ok result, s)
  found : ReverseMatch.findAlertCandidates x c.tenantId c.sourceId c.request db = (.ok wires, db)
  free : ∀ wire ∈ wires, ¬ c.Blocked x db wire
  answered : List.Forall₂ (c.Answered x result.pageRevisionId s) wires result.candidates
  recorded : c.Recorded x s v
  revisionId : v.id = result.pageRevisionId
  pageId : v.pageId = result.pageId

/-- Storing the candidates leaves the page as it was stored. -/
theorem exec_recorded (hx : x.Lawful) {result : ReverseMatch.ReverseAlertMatchResponse}
    (h : c.exec x db = (.ok result, s)) :
    ∃ v, c.Recorded x s v ∧ v.id = result.pageRevisionId ∧ v.pageId = result.pageId := by
  obtain ⟨page, d, wires, candidates, hpage, -, hloop, rfl⟩ := exec_inv hx h
  obtain ⟨v, hrec, hid, hpageId⟩ := upsertPageRevision_recorded hpage
  have hgrows : Action.Moves Grows (Action.forEach (c.turnAt x page) wires.zipIdx) d :=
    Action.Moves.forEach _ _ fun turn _ s' _ => turnAt_grows turn s'
  rw [Action.Moves, hloop] at hgrows
  exact ⟨v, hrec.mono hgrows, hid, hpageId⟩

theorem exists_first (hx : x.Lawful) (hk : Function.Injective (Store.matchKey x)) (hwf : Wf x db)
    (hv : c.Valid x db) {result : ReverseMatch.ReverseAlertMatchResponse}
    (h : c.exec x db = (.ok result, s)) : ∃ v wires, c.First x db v wires result s := by
  obtain ⟨wires, hwires⟩ := findAlertCandidates_total hx hwf hv
  have hfree : ∀ wire ∈ wires, ¬ c.Blocked x db wire := by
    intro wire hwire hblocked
    have herror := exec_conflict hx hk hwf hv hwires ⟨wire, hwire, hblocked⟩
    rw [h] at herror
    cases herror
  obtain ⟨result', s', hrun, hall⟩ := exec_ok hx hk hwf hv hwires hfree
  obtain ⟨hresult, rfl⟩ := Prod.mk.inj (h.symm.trans hrun)
  obtain rfl := Except.ok.inj hresult
  obtain ⟨v, hrec, hid, hpageId⟩ := exec_recorded hx h
  exact ⟨v, wires, h, hwires, hfree, hall, hrec, hid, hpageId⟩

end ReverseIngest

end EmbeddedAlerts
