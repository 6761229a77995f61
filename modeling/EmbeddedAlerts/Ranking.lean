import EmbeddedAlerts.SearchScope

/-!
# The nearest rules

Reverse matching ranks the rules of the tenant by the distance of their embedding
from the page vector and takes the first `max_candidates`.

* `mem_reachedAlerts_iff`: a rule is ranked exactly if it qualifies
  (`QualifyingRule`), which is said in terms of the rule, its active revision and
  their embedding, and not of the joins of the query.
* `distinct_alertRuleId`: no rule is ranked twice.
* `ReverseIngest.exec_ranked`: **the candidates of a call that succeeds are those of
  the first rules of the ranking.**
* `ReverseIngest.exec_prefix`: asking for more adds candidates at the end.
-/

namespace EmbeddedAlerts

open Sql SourceScope

variable {x : Platform} {db : Db} {T sourceId : Uuid} {embedding : EmbeddingPayload}

/-- The rule, with this active revision and this embedding of it, qualifies for a
page of the source with this vector. -/
structure QualifyingRule (x : Platform) (db : Db) (T sourceId : Uuid) (embedding : EmbeddingPayload)
    (rule : AlertRuleRow) (revision : AlertRuleRevisionRow) (e : AlertRuleEmbeddingRow) : Prop where
  mem : rule ∈ db.alertRules
  tenantId : rule.tenantId = T
  revisionMem : revision ∈ db.alertRuleRevisions
  active : rule.activeRevisionId = some revision.id
  enabled : revision.enabled = true
  model : revision.embeddingModel = embedding.model
  embeddingMem : e ∈ db.alertRuleEmbeddings
  embedded : e.alertRuleRevisionId = revision.id
  space : e.space = embedding.toModelSpace
  scope : revision.sourceFilters = [] ∨ InRuleScope x revision.sourceFilters sourceId
  similar : (revision.similarityThreshold.val : Float8)
    ≤ (x.cosineDistance e.embedding embedding.values).oneMinus

/-- The row of the ranking for the rule. -/
def rankedRule (x : Platform) (embedding : EmbeddingPayload) (rule : AlertRuleRow)
    (revision : AlertRuleRevisionRow) (e : AlertRuleEmbeddingRow) : ReverseMatch.AlertDistance where
  alertRuleId := rule.id
  alertRuleRevisionId := revision.id
  alertEmbeddingId := e.id
  distance := x.cosineDistance e.embedding embedding.values
  threshold := revision.similarityThreshold.val

/-! ### Source scopes -/

/-- **The query and the parser agree on the source scope of a stored revision.** -/
theorem inScope_iff (hx : x.Lawful) {revision : AlertRuleRevisionRow}
    (hfilters : CanonicalFilters revision.sourceFilters) (sourceId : Uuid) :
    ReverseMatch.inScope revision sourceId = true ↔
      revision.sourceFilters = [] ∨ InRuleScope x revision.sourceFilters sourceId := by
  obtain ⟨ids, -, hids⟩ := hfilters
  rw [ReverseMatch.inScope, Bool.or_eq_true, List.isEmpty_iff, List.contains_iff_mem]
  refine or_congr_right ?_
  constructor
  · intro hmem
    exact ⟨canonicalFilter sourceId, hmem, parseSourceFilter_canonical hx sourceId⟩
  · rintro ⟨f, hf, hparse⟩
    rw [hids] at hf ⊢
    obtain ⟨u, hu, rfl⟩ := List.mem_map.mp hf
    rw [parseSourceFilter_canonical hx u] at hparse
    obtain rfl := Except.ok.inj hparse
    exact List.mem_map_of_mem hu

/-! ### The ranking -/

theorem distinct_alertEmbeddingId (hvalid : db.Valid) :
    Distinct ReverseMatch.AlertDistance.alertEmbeddingId
      (ReverseMatch.reachedAlerts x T sourceId embedding db) := by
  have hids : Distinct AlertRuleEmbeddingRow.id db.alertRuleEmbeddings :=
    hvalid.alertRuleEmbeddings.keys.imp fun h heq => by simp [alertRuleEmbeddingsTable, heq] at h
  have hrules : Distinct AlertRuleRow.id db.alertRules :=
    hvalid.alertRules.keys.imp fun h heq => by simp [alertRulesTable, heq] at h
  have hrevisions : Distinct AlertRuleRevisionRow.id db.alertRuleRevisions :=
    hvalid.alertRuleRevisions.keys.imp fun h heq => by simp [alertRuleRevisionsTable, heq] at h
  refine List.pairwise_flatMap.mpr ⟨fun e _ => List.pairwise_flatMap.mpr ⟨fun r _ => ?_, ?_⟩, ?_⟩
  · refine List.pairwise_map.mpr (hrevisions.pairwise_filter (c := e.alertRuleRevisionId)
      fun v hv => ?_)
    exact (of_decide_eq_true (Bool.and_eq_true _ _ ▸ hv).1).2.1
  · refine hrules.pairwise_filter (c := e.alertRuleId) fun r hr => ?_
    exact (of_decide_eq_true hr).2.1
  · refine (hids.sublist List.filter_sublist).imp fun {e f} hne a ha b hb => ?_
    simp only [List.mem_flatMap, List.mem_map] at ha hb
    obtain ⟨-, -, -, -, rfl⟩ := ha
    obtain ⟨-, -, -, -, rfl⟩ := hb
    exact hne

section Ranking

variable (hx : x.Lawful) (hwf : Wf x db)

include hwf

theorem active_own {rule : AlertRuleRow} {revision : AlertRuleRevisionRow}
    (hrule : rule ∈ db.alertRules) (hrevision : revision ∈ db.alertRuleRevisions)
    (hactive : rule.activeRevisionId = some revision.id) :
    revision.tenantId = rule.tenantId ∧ revision.alertRuleId = rule.id := by
  obtain ⟨v, hv, hid, hvT, hvrule⟩ := hwf.active rule hrule _ hactive
  obtain rfl := hwf.valid.alertRuleRevision_eq hv hrevision hid
  exact ⟨hvT, hvrule⟩

theorem embedding_own {e : AlertRuleEmbeddingRow} {revision : AlertRuleRevisionRow}
    (he : e ∈ db.alertRuleEmbeddings) (hrevision : revision ∈ db.alertRuleRevisions)
    (hembedded : e.alertRuleRevisionId = revision.id) :
    e.tenantId = revision.tenantId ∧ e.alertRuleId = revision.alertRuleId := by
  obtain ⟨v, hv, hid, hvT, hvrule, -⟩ := hwf.alertRevision e he
  obtain rfl := hwf.valid.alertRuleRevision_eq hv hrevision (hid.trans hembedded)
  exact ⟨hvT.symm, hvrule.symm⟩

include hx

/-- **A rule is ranked exactly if it qualifies.** -/
theorem mem_reachedAlerts_iff {alert : ReverseMatch.AlertDistance} :
    alert ∈ ReverseMatch.reachedAlerts x T sourceId embedding db ↔
      ∃ rule revision e, QualifyingRule x db T sourceId embedding rule revision e ∧
        alert = rankedRule x embedding rule revision e := by
  simp only [ReverseMatch.reachedAlerts, List.mem_flatMap, List.mem_filter, List.mem_map,
    decide_eq_true_eq, Bool.and_eq_true]
  constructor
  · rintro ⟨e, ⟨he, heT, hspace⟩, rule, ⟨hrule, hruleT, hruleId, hactive⟩, v,
      ⟨hv, ⟨-, hvId, -, henabled, hmodel, hsimilar⟩, hscope⟩, rfl⟩
    refine ⟨rule, v, e, ⟨hrule, hruleT.trans heT, hv, ?_, henabled, hmodel, he, hvId.symm, hspace,
      (inScope_iff hx (hwf.filters v hv) sourceId).mp hscope, hsimilar⟩, ?_⟩
    · rw [hactive, hvId]
    · rw [rankedRule, hruleId, hvId]
  · rintro ⟨rule, v, e, hq, rfl⟩
    obtain ⟨hvT, hvrule⟩ := active_own hwf hq.mem hq.revisionMem hq.active
    obtain ⟨heT, herule⟩ := embedding_own hwf hq.embeddingMem hq.revisionMem hq.embedded
    refine ⟨e, ⟨hq.embeddingMem, ?_, hq.space⟩, rule, ⟨hq.mem, ?_, ?_, ?_⟩, v,
      ⟨hq.revisionMem, ⟨heT.symm, hq.embedded.symm, herule.symm, hq.enabled, hq.model, hq.similar⟩,
      (inScope_iff hx (hwf.filters v hq.revisionMem) sourceId).mpr hq.scope⟩, ?_⟩
    · rw [heT, hvT, hq.tenantId]
    · rw [heT, hvT]
    · rw [herule, hvrule]
    · rw [hq.active, hq.embedded]
    · rw [rankedRule, herule, hvrule, hq.embedded]

omit hx in
theorem QualifyingRule.unique {rule : AlertRuleRow} {v w : AlertRuleRevisionRow}
    {e f : AlertRuleEmbeddingRow} (h : QualifyingRule x db T sourceId embedding rule v e)
    (h' : QualifyingRule x db T sourceId embedding rule w f) : v = w ∧ e = f := by
  have hvw : v = w := by
    refine hwf.valid.alertRuleRevision_eq h.revisionMem h'.revisionMem ?_
    exact Option.some.inj (h.active.symm.trans h'.active)
  obtain rfl := hvw
  refine ⟨rfl, hwf.valid.alertRuleEmbedding_eq_of_space h.embeddingMem h'.embeddingMem
    (decide_eq_true ⟨?_, ?_, ?_⟩)⟩
  · rw [(embedding_own hwf h.embeddingMem h.revisionMem h.embedded).1,
      (embedding_own hwf h'.embeddingMem h.revisionMem h'.embedded).1]
  · rw [h.embedded, h'.embedded]
  · rw [h.space, h'.space]

theorem distinct_alertRuleId :
    Distinct ReverseMatch.AlertDistance.alertRuleId
      (ReverseMatch.reachedAlerts x T sourceId embedding db) := by
  refine (distinct_alertEmbeddingId hwf.valid).imp_of_mem fun {a b} ha hb hne heq => hne ?_
  obtain ⟨r, v, e, h, rfl⟩ := (mem_reachedAlerts_iff hx hwf).mp ha
  obtain ⟨r', v', e', h', rfl⟩ := (mem_reachedAlerts_iff hx hwf).mp hb
  obtain rfl := hwf.valid.alertRule_eq h.mem h'.mem heq
  obtain ⟨rfl, rfl⟩ := h.unique hwf h'
  rfl

end Ranking

/-! ### Calls -/

/-- The place of a rule in the ranking. -/
def ReverseMatch.AlertDistance.key (alert : ReverseMatch.AlertDistance) : Float8 ×ₗ Uuid :=
  toLex (alert.distance, alert.alertEmbeddingId)

theorem nearestAlert_iff (a b : ReverseMatch.AlertDistance) :
    ReverseMatch.nearestFirst a b ↔ a.key ≤ b.key := by
  rw [ReverseMatch.nearestFirst, ReverseMatch.AlertDistance.key, ReverseMatch.AlertDistance.key,
    Prod.Lex.toLex_le_toLex]

/-- The rules that qualify, in the order of their distance. -/
def ranking (x : Platform) (T sourceId : Uuid) (embedding : EmbeddingPayload) (db : Db) :
    List ReverseMatch.AlertDistance :=
  sorted ReverseMatch.AlertDistance.key (ReverseMatch.reachedAlerts x T sourceId embedding db)

theorem increasing_ranking (hvalid : db.Valid) :
    Increasing ReverseMatch.AlertDistance.key (ranking x T sourceId embedding db) :=
  increasing_sorted ((distinct_alertEmbeddingId hvalid).imp fun hne heq =>
    hne (congrArg (fun k => (ofLex k).2) heq))

theorem findAlertCandidates_ranking {request : ReverseMatch.ReverseAlertPageRequest}
    {wires : List ReverseMatch.CandidateWire} {s : Db}
    (h : ReverseMatch.findAlertCandidates x T sourceId request db = (.ok wires, s)) :
    ((ranking x T sourceId request.embedding db).take request.maxCandidates.toNat).mapM
      (ReverseMatch.AlertDistance.intoWire x) = .ok wires := by
  obtain ⟨hm, -⟩ := Prod.mk.inj h
  rw [ranking, ← insertionSort_eq_sorted nearestAlert_iff]
  exact hm

theorem intoWire_ok {alert : ReverseMatch.AlertDistance} {wire : ReverseMatch.CandidateWire}
    (h : alert.intoWire x = .ok wire) :
    wire.alertRuleId = alert.alertRuleId ∧ wire.alertRuleRevisionId = alert.alertRuleRevisionId ∧
      wire.alertEmbeddingId = alert.alertEmbeddingId := by
  unfold ReverseMatch.AlertDistance.intoWire at h
  split at h
  · obtain rfl := Except.ok.inj h
    exact ⟨rfl, rfl, rfl⟩
  · cases h

namespace ReverseIngest

variable {c : ReverseIngest} {s : Db}

theorem turnAt_ok {page : ReverseMatch.PageWire} {wire : ReverseMatch.CandidateWire} {n : ℕ}
    {d : Db} {candidate : ReverseMatch.ReverseAlertCandidate}
    (h : c.turnAt x page (wire, n) d = (.ok candidate, s)) :
    candidate.alertRuleId = wire.alertRuleId ∧
      candidate.alertRuleRevisionId = some wire.alertRuleRevisionId ∧
      candidate.alertEmbeddingId = some wire.alertEmbeddingId ∧
      candidate.pageRevisionId = page.pageRevisionId := by
  obtain ⟨o, s1, hrow, h1⟩ := Action.bind_eq_ok h
  obtain ⟨⟨row, created⟩, s2, hsome, h2⟩ := Action.bind_eq_ok h1
  obtain rfl := Except.ok.inj (Prod.mk.inj h2).1
  cases o with
  | none => cases hsome
  | some selected =>
    obtain rfl := Except.ok.inj (Prod.mk.inj hsome).1
    rcases ReverseMatch.persistStatement_ok (execute_eq_ok hrow) with ⟨ho, -⟩ | ⟨ho, -⟩
    · obtain ⟨r, hfind, hr⟩ := Option.map_eq_some_iff.mp ho.symm
      obtain ⟨rfl, -⟩ := Prod.mk.inj hr
      have hsame := List.find?_some hfind
      rw [ReverseMatch.sameEvidence, Bool.and_eq_true] at hsame
      obtain ⟨-, -, hrule, hrevision, hpage, -, hembedding, -⟩ := of_decide_eq_true hsame.1
      exact ⟨hrule, hrevision, hembedding, hpage⟩
    · obtain ⟨rfl, -⟩ := Prod.mk.inj (Option.some.inj ho)
      exact ⟨rfl, rfl, rfl, rfl⟩

theorem turnAt_grows {page : ReverseMatch.PageWire} (turn : ReverseMatch.CandidateWire × ℕ)
    (s : Db) : Action.Moves Grows (c.turnAt x page turn) s := by
  refine Action.Moves.bind (Action.Moves.statement fun o d h => ?_) fun o d _ =>
    Action.Moves.okOr_bind fun _ _ => Action.Moves.of_same rfl
  rcases ReverseMatch.persistStatement_ok h with ⟨-, rfl, -⟩ | ⟨-, rfl, -⟩
  · exact Grows.refl _
  · exact { Grows.refl _ with matchCandidates := List.prefix_append _ _ }

/-- **What a call that succeeds has done**: stored the page, found the rules, and
gone through them one by one. -/
theorem exec_inv (hx : x.Lawful) {result : ReverseMatch.ReverseAlertMatchResponse}
    (h : c.exec x db = (.ok result, s)) :
    ∃ page d wires candidates,
      ReverseMatch.upsertPageRevision x c.now c.ids c.tenantId c.sourceId c.request c.originalUrl
        c.finalUrl db = (.ok page, d) ∧
      ReverseMatch.findAlertCandidates x c.tenantId c.sourceId c.request db = (.ok wires, db) ∧
      Action.forEach (c.turnAt x page) wires.zipIdx d = (.ok candidates, s) ∧
      result = response page candidates := by
  obtain ⟨_, s1, hvalid, h1⟩ := Action.bind_eq_ok h
  obtain rfl : db = s1 := (Prod.mk.inj hvalid).2
  obtain ⟨page, d, hpage, h2⟩ := Action.bind_eq_ok (Action.transaction_eq_ok h1)
  obtain ⟨wires, d', hwires, h3⟩ := Action.bind_eq_ok h2
  obtain ⟨candidates, s2, hloop, h4⟩ := Action.bind_eq_ok h3
  obtain ⟨hresult, rfl⟩ := Prod.mk.inj h4
  obtain ⟨rfl, hreached⟩ := ReverseMatch.findAlertCandidates_ok hwires
  rw [filter_reached hx hreached] at hloop
  refine ⟨page, _, wires, candidates, hpage, ?_, hloop, (Except.ok.inj hresult).symm⟩
  -- the rules are not read from the tables that storing the page has touched
  obtain ⟨pages, revisions, rfl⟩ := ReverseMatch.upsertPageRevision_frame hpage
  have hfst := congrArg Prod.fst hwires
  exact Prod.ext hfst rfl

/-- **The candidates of a call that succeeds are those of the first rules of the
ranking.** -/
theorem exec_ranked (hx : x.Lawful) {result : ReverseMatch.ReverseAlertMatchResponse}
    (h : c.exec x db = (.ok result, s)) :
    List.Forall₂ (fun alert candidate =>
        candidate.alertRuleId = alert.alertRuleId ∧
        candidate.alertRuleRevisionId = some alert.alertRuleRevisionId ∧
        candidate.alertEmbeddingId = some alert.alertEmbeddingId)
      ((ranking x c.tenantId c.sourceId c.request.embedding db).take
        c.request.maxCandidates.toNat) result.candidates := by
  obtain ⟨page, d, wires, candidates, -, hwires, hloop, rfl⟩ := exec_inv hx h
  have hdecoded := mapM_eq_ok_iff.mp (findAlertCandidates_ranking hwires)
  have hturns : List.Forall₂ (fun wire candidate =>
      candidate.alertRuleId = wire.alertRuleId ∧
      candidate.alertRuleRevisionId = some wire.alertRuleRevisionId ∧
      candidate.alertEmbeddingId = some wire.alertEmbeddingId) wires candidates := by
    have hloop := Action.forEach_eq_ok (R := Grows)
      (fun turn _ s' _ => turnAt_grows turn s') hloop
    rw [← List.zipIdx_map_fst 0 wires, List.forall₂_map_left_iff]
    refine hloop.imp ?_
    rintro ⟨wire, n⟩ candidate ⟨s, s', -, hturn, -⟩
    obtain ⟨h1, h2, h3, -⟩ := turnAt_ok hturn
    exact ⟨h1, h2, h3⟩
  refine (forall₂_comp hdecoded hturns).imp ?_
  rintro alert candidate ⟨wire, hwire, h1, h2, h3⟩
  obtain ⟨e1, e2, e3⟩ := intoWire_ok hwire
  exact ⟨by rw [h1, e1], by rw [h2, e2], by rw [h3, e3]⟩

theorem map_alertRuleId {alerts : List ReverseMatch.AlertDistance}
    {candidates : List ReverseMatch.ReverseAlertCandidate}
    (h : List.Forall₂ (fun alert candidate =>
        candidate.alertRuleId = alert.alertRuleId ∧
        candidate.alertRuleRevisionId = some alert.alertRuleRevisionId ∧
        candidate.alertEmbeddingId = some alert.alertEmbeddingId) alerts candidates) :
    candidates.map ReverseMatch.ReverseAlertCandidate.alertRuleId
      = alerts.map ReverseMatch.AlertDistance.alertRuleId := by
  rw [← List.forall₂_eq_eq_eq, List.forall₂_map_left_iff, List.forall₂_map_right_iff]
  exact (h.imp fun _ _ hsame => hsame.1).flip

theorem exec_prefix (hx : x.Lawful) {c' : ReverseIngest} {K : UInt16} {d d' : Db}
    {result result' : ReverseMatch.ReverseAlertMatchResponse}
    (hc : c' = { c with request := { c.request with maxCandidates := K } })
    (hK : c.request.maxCandidates.toNat ≤ K.toNat)
    (h : c.exec x db = (.ok result, d)) (h' : c'.exec x db = (.ok result', d')) :
    result.candidates <+: result'.candidates := by
  subst hc
  obtain ⟨page, s1, wires, candidates, hpage, hwires, hloop, rfl⟩ := exec_inv hx h
  obtain ⟨page', s1', wires', candidates', hpage', hwires', hloop', rfl⟩ := exec_inv hx h'
  obtain ⟨hsame, rfl⟩ := Prod.mk.inj (hpage.symm.trans hpage')
  obtain rfl := Except.ok.inj hsame
  have hfirst : wires = wires'.take c.request.maxCandidates.toNat := by
    have hall := mapM_eq_ok_iff.mp (findAlertCandidates_ranking hwires')
    have htake := mapM_eq_ok_iff.mpr (List.forall₂_take c.request.maxCandidates.toNat hall)
    rw [List.take_take, Nat.min_eq_left hK] at htake
    exact Except.ok.inj ((findAlertCandidates_ranking hwires).symm.trans htake)
  obtain ⟨t, htake⟩ := Action.forEach_take c.request.maxCandidates.toNat hloop'
  have hzip : wires'.zipIdx.take c.request.maxCandidates.toNat = wires.zipIdx := by
    rw [hfirst]
    refine List.ext_getElem? fun i => ?_
    rw [List.getElem?_take, List.getElem?_zipIdx, List.getElem?_zipIdx, List.getElem?_take]
    split_ifs <;> rfl
  rw [hzip] at htake
  have hcandidates : candidates = candidates'.take c.request.maxCandidates.toNat :=
    Except.ok.inj (Prod.mk.inj (hloop.symm.trans htake)).1
  rw [response, response, hcandidates]
  exact List.take_prefix _ _

end ReverseIngest

/-- **Reverse matching is an exact bounded top-K over the rules that qualify.** -/
theorem reverse_match_top_k (hx : x.Lawful) (hdb : Reachable x db) (T sourceId : Uuid)
    (embedding : EmbeddingPayload) :
    (∀ alert, alert ∈ ranking x T sourceId embedding db ↔
      ∃ rule revision e, QualifyingRule x db T sourceId embedding rule revision e ∧
        alert = rankedRule x embedding rule revision e) ∧
    Increasing ReverseMatch.AlertDistance.key (ranking x T sourceId embedding db) ∧
    Distinct ReverseMatch.AlertDistance.alertRuleId (ranking x T sourceId embedding db) ∧
    ∀ c : ReverseIngest, c.tenantId = T → c.sourceId = sourceId → c.request.embedding = embedding →
      (∀ wires s,
        ReverseMatch.findAlertCandidates x c.tenantId c.sourceId c.request db = (.ok wires, s) →
        (wires.filter fun w => !decide (w.similarity < w.threshold)) = wires) ∧
      ∀ result s, c.exec x db = (.ok result, s) →
        List.Forall₂ (fun alert candidate =>
            candidate.alertRuleId = alert.alertRuleId ∧
            candidate.alertRuleRevisionId = some alert.alertRuleRevisionId ∧
            candidate.alertEmbeddingId = some alert.alertEmbeddingId)
          ((ranking x T sourceId embedding db).take c.request.maxCandidates.toNat)
          result.candidates ∧
        result.candidates.length
          = min c.request.maxCandidates.toNat (ranking x T sourceId embedding db).length ∧
        Distinct ReverseMatch.ReverseAlertCandidate.alertRuleId result.candidates ∧
        ∀ K result' s', c.request.maxCandidates.toNat ≤ K.toNat →
          { c with request := { c.request with maxCandidates := K } }.exec x db
            = (.ok result', s') → result.candidates <+: result'.candidates := by
  have hwf := hdb.wf hx
  have hdistinct : Distinct ReverseMatch.AlertDistance.alertRuleId
      (ranking x T sourceId embedding db) :=
    (List.perm_insertionSort _ _).symm.pairwise (distinct_alertRuleId hx hwf) fun h => h.symm
  refine ⟨fun alert => ?_, increasing_ranking hwf.valid, hdistinct, ?_⟩
  · rw [ranking, mem_sorted]
    exact mem_reachedAlerts_iff hx hwf
  · rintro c rfl rfl rfl
    refine ⟨fun wires s hwires => ?_, fun result s h => ?_⟩
    · exact ReverseIngest.filter_reached hx (ReverseMatch.findAlertCandidates_ok hwires).2
    · have hranked := ReverseIngest.exec_ranked hx h
      refine ⟨hranked, ?_, ?_,
        fun K result' s' hK h' => ReverseIngest.exec_prefix hx rfl hK h h'⟩
      · rw [← hranked.length_eq, List.length_take]
      · have hnodup := List.pairwise_map.mpr (hdistinct.sublist (List.take_sublist
          c.request.maxCandidates.toNat _))
        rw [← ReverseIngest.map_alertRuleId hranked] at hnodup
        exact List.pairwise_map.mp hnodup

/-! ### A scenario -/

namespace Scenario

/-- The vector `(1, -1, 0, 0)`, at distance 1 from `diagonal`. -/
def across : List F32Bits := [one, 0xbf800000, 0, 0]

/-- A rule with this threshold and this embedding. -/
def addRule (base : ℕ) (threshold : F32) (values : List F32Bits) : List Call := [
  call base (.createRecord {
    name := "rule"
    queryText := "query"
    embeddingModel := "m"
    similarityThreshold := threshold
    sourceFilters := []
    deliveryChannels := []
    enabled := true }),
  call (base + 5) (.upsertAlertEmbedding ((supply base).ids 0)
    ⟨(supply base).ids 1, ⟨space, values⟩⟩)]

/-- The platform with the digests of one more vector and two more pairs of a rule and
the page. -/
def fourRules : Platform := Platform.sampleWith [
  (across.flatMap ReverseMatch.toBeBytes,
    digestBytes 0xa0047811e2b19739eec5ac7797bc6cb2d8f6cf9c4cfa4b29c989e5d381835528),
  (Store.canonicalJson { identity with alertRuleId := 110, alertRuleRevisionId := 111 },
    digestBytes 0x2425b11252d8afb2c30e7e282e23d254b3654963680e4c1ae9bc7257f874c6cc),
  (Store.canonicalJson { identity with alertRuleId := 120, alertRuleRevisionId := 121 },
    digestBytes 0xa0c3af9f8ee89bb4aba449b4e6879286374e969b30a79d95390e6eff36a76cde)]

/-- Three more rules. -/
def many : Db := EmbeddedAlerts.after fourRules (setup ++ addRule 100 (F32.ofRat (3 / 4)) axis ++
  addRule 110 (F32.ofRat 0) across ++ addRule 120 (F32.ofRat 0) across) Db.empty

/-- The page is matched with at most this many rules. -/
def topK (K : UInt16) : ReverseIngest :=
  { reverseIngest 60 diagonal with request := ⟨page diagonal, K⟩ }

end Scenario

open Scenario in
/-- **Two places for three rules that qualify.**  Rule 100 is as near as rule 20, and
nearer than the other two, but its threshold is `3 / 4`. -/
theorem reverse_match_top_k_sample : ∃ result s result' s',
    (topK 2).exec fourRules many = (.ok result, s) ∧
    (topK 10).exec fourRules many = (.ok result', s') ∧
    many.alertRules.map AlertRuleRow.id = [20, 100, 110, 120] ∧
    (ranking fourRules 1 10 ⟨space, diagonal⟩ many).map ReverseMatch.AlertDistance.alertRuleId
      = [20, 110, 120] ∧
    result.candidates.map ReverseMatch.ReverseAlertCandidate.alertRuleId = [20, 110] ∧
    result.candidates <+: result'.candidates := by
  have hspec : ((topK 2).exec fourRules many).1.toOption.isSome = true ∧
      ((topK 10).exec fourRules many).1.toOption.isSome = true ∧
      many.alertRules.map AlertRuleRow.id = [20, 100, 110, 120] ∧
      (ranking fourRules 1 10 ⟨space, diagonal⟩ many).map ReverseMatch.AlertDistance.alertRuleId
        = [20, 110, 120] := by decide +kernel
  obtain ⟨hok, hok', hrules, hranking⟩ := hspec
  rcases hrun : (topK 2).exec fourRules many with ⟨e | result, s⟩
  · rw [hrun] at hok
    cases hok
  rcases hrun' : (topK 10).exec fourRules many with ⟨e | result', s'⟩
  · rw [hrun'] at hok'
    cases hok'
  have htop := ((reverse_match_top_k (Platform.sampleWith_lawful _) (reachable_after _ .refl) 1 10
    ⟨space, diagonal⟩).2.2.2 (topK 2) rfl rfl rfl).2 result s hrun
  refine ⟨result, s, result', s', rfl, rfl, hrules, hranking, ?_,
    htop.2.2.2 10 result' s' (by decide) hrun'⟩
  rw [ReverseIngest.map_alertRuleId htop.1, List.map_take]
  exact congrArg (List.take 2) hranking

end EmbeddedAlerts
