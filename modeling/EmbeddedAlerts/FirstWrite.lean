import EmbeddedAlerts.Paths

/-!
# Historical evaluation is first-write-wins

A tenant without reverse candidates can be evaluated again and again, with any
query vectors, thresholds, limits, scopes and cursors, and whatever else happens
to the store in between.

* `combination_unique`: a store holds at most one candidate for a rule revision, a
  page revision and a model space.
* `Evaluation.exec_first`: a call returns `Ok`, and answers each hit with what is read
  of the row that was there or, if there was none, of the row it has added.
* `historical_first_write_wins`: **so every later call answers with the row of the
  first**, which is still as it was written.
-/

namespace EmbeddedAlerts

open Sql Relation

variable {x : Platform} {db db' : Db} {T : Uuid}

/-- The tenant has no reverse candidates. -/
def HistoricalOnly (T : Uuid) (db : Db) : Prop :=
  ∀ r ∈ db.matchCandidates, r.tenantId = T → r.matchMode = .historicalPageSearch

/-- **There is at most one candidate for a combination.** -/
theorem combination_unique (hk : Function.Injective (Store.matchKey x)) (hwf : Wf x db)
    {ruleRevision pageRevision : Uuid} {space : ModelSpace} {r s : MatchCandidateRow}
    (hr : r ∈ db.matchCandidates) (hs : s ∈ db.matchCandidates)
    (hrfor : r.For T ruleRevision pageRevision space)
    (hsfor : s.For T ruleRevision pageRevision space) : r = s := by
  obtain ⟨i, hi⟩ := hwf.candidate r hr
  have hfor : s.For i.tenantId i.alertRuleRevisionId i.pageRevisionId i.toModelSpace := by
    constructor
    · rw [hsfor.tenantId, ← hrfor.tenantId, hi.tenantId]
    · rw [hsfor.alertRuleRevisionId, ← hrfor.alertRuleRevisionId, hi.alertRuleRevisionId]
    · rw [hsfor.revisionId, ← hrfor.revisionId, hi.revisionId]
    · rw [hsfor.space, ← hrfor.space, hi.explained]
  exact hwf.valid.candidate_eq_of_key hr hs ((sameMatchKey_iff_for hwf hk hi hs).mpr hfor)

/-- The record is answered with the stored row for its combination: the one that
was there before the call or, if there was none, the row the call offers. -/
structure Evaluation.FirstWrite (x : Platform) (db : Db) (c : Evaluation) (s : Db)
    (record : Store.SearchRecord) (row : MatchCandidateRow) : Prop where
  stored : row ∈ s.matchCandidates
  combination : row.For c.tenantId c.alertRuleRevisionId record.hit.revisionId record.hit.space
  first : row ∈ db.matchCandidates ∨
    (∀ r ∈ db.matchCandidates,
      ¬ r.For c.tenantId c.alertRuleRevisionId record.hit.revisionId record.hit.space) ∧
    ∃ n, row = c.offer x n record

section Call

variable (hx : x.Lawful) (hk : Function.Injective (Store.matchKey x)) (hwf : Wf x db)
  (hT : HistoricalOnly T db) {c : Evaluation} (hc : c.tenantId = T) (hv : c.Valid x db)

include hx hk hwf hT hc hv

/-- **A call answers every hit with the first row written for it.** -/
theorem Evaluation.exec_first : ∃ page rows s,
    Store.searchEmbeddings x c.tenantId c.narrowed db = (.ok page, db) ∧
    c.exec x db = (.ok (rows.map (Store.matchCandidate x)), s) ∧
    List.Forall₂ (c.FirstWrite x db s) page.records rows := by
  obtain ⟨page, hpage⟩ := Evaluation.searchEmbeddings_total hx hwf c.tenantId
    c.narrowed (hx.searchEmbedding c.search hv.search)
  have hfree : ∀ record ∈ page.records, ¬ c.Blocked db record := by
    rintro record - ⟨r, hr, hfor, hmode⟩
    rw [hT r hr (hfor.tenantId.trans hc)] at hmode
    cases hmode
  obtain ⟨rows, s, hrun, hloop, hall⟩ := Evaluation.exec_ok hx hk hwf hv hpage hfree
  have hsound := Evaluation.offers_sound hx hk hwf hv
  refine ⟨page, rows, s, hpage, hrun, hall.imp fun record row hanswered => ?_⟩
  refine ⟨hanswered.stored, hanswered.for hsound hk hloop, ?_⟩
  rcases hanswered.first with hold | ⟨hnone, hnew⟩
  · exact Or.inl hold
  · refine Or.inr ⟨fun r hr hfor => ?_, hnew⟩
    have hkey := (sameMatchKey_iff_for hwf hk (hsound.identifies 0 record hanswered.item) hr).mpr hfor
    rw [hnone r hr] at hkey
    cases hkey

end Call

/-- **Historical evaluation is first-write-wins.** -/
theorem historical_first_write_wins (hx : x.Lawful) (hk : Function.Injective (Store.matchKey x))
    (hdb : Reachable x db) (hT : HistoricalOnly T db) :
    (∀ ruleRevision pageRevision space, ∀ r ∈ db.matchCandidates, ∀ s ∈ db.matchCandidates,
      r.For T ruleRevision pageRevision space → s.For T ruleRevision pageRevision space → r = s) ∧
    (∀ c : Evaluation, c.tenantId = T → c.Valid x db → ∃ page rows s,
      Store.searchEmbeddings x T c.narrowed db = (.ok page, db) ∧
      c.exec x db = (.ok (rows.map (Store.matchCandidate x)), s) ∧
      List.Forall₂ (c.FirstWrite x db s) page.records rows) ∧
    ∀ db', ReflTransGen (Served x) db db' → db.matchCandidates <+: db'.matchCandidates ∧
      (HistoricalOnly T db' → ∀ c : Evaluation, c.tenantId = T → c.Valid x db' → ∃ page rows s,
        Store.searchEmbeddings x T c.narrowed db' = (.ok page, db') ∧
        c.exec x db' = (.ok (rows.map (Store.matchCandidate x)), s) ∧
        List.Forall₂ (fun record row => ∀ r ∈ db.matchCandidates,
          r.For T c.alertRuleRevisionId record.hit.revisionId record.hit.space → row = r)
          page.records rows) := by
  have hwf := hdb.wf hx
  refine ⟨fun _ _ _ r hr s hs => combination_unique hk hwf hr hs, ?_, fun db' hrun => ?_⟩
  · rintro c rfl hv
    exact Evaluation.exec_first hx hk hwf hT rfl hv
  · obtain ⟨hwf', hgrows⟩ := served_run hx hwf hrun
    have hkeeps := hgrows.matchCandidates
    refine ⟨hkeeps, ?_⟩
    rintro hT' c rfl hv
    obtain ⟨page, rows, s, hpage, hexec, hall⟩ := Evaluation.exec_first hx hk hwf' hT' rfl hv
    refine ⟨page, rows, s, hpage, hexec, hall.imp fun record row hfirst r hr hfor => ?_⟩
    have hr' : r ∈ db'.matchCandidates := hkeeps.subset hr
    -- the stored row is in the way of a second one
    rcases hfirst.first with hold | ⟨hnone, -⟩
    · exact combination_unique hk hwf' hold hr' hfirst.combination hfor
    · exact absurd hfor (hnone r hr')

open Scenario in
theorem historical_first_write_wins_sample :
    evaluated.matchCandidates.length = 1 ∧ ∃ page rows s,
      Store.searchEmbeddings Platform.sample 1 (evaluation 80).narrowed evaluated
        = (.ok page, evaluated) ∧
      (evaluation 80).exec Platform.sample evaluated
        = (.ok (rows.map (Store.matchCandidate Platform.sample)), s) ∧
      List.Forall₂ (fun record row => ∀ r ∈ evaluated.matchCandidates,
        r.For 1 21 record.hit.revisionId record.hit.space → row = r) page.records rows := by
  have hT : HistoricalOnly 1 evaluated := fun r hr _ => (evaluated_spec.2.2 r hr).1
  refine ⟨evaluated_spec.2.1, ?_⟩
  exact ((historical_first_write_wins Platform.sample_lawful
    (fun _ _ => Store.matchKey_inj Platform.sample_collisionFree) reachable_evaluated hT).2.2
    evaluated .refl).2 hT (evaluation 80) rfl evaluation_evaluated

end EmbeddedAlerts
