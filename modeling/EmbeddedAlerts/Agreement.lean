import EmbeddedAlerts.Events

/-!
# The two matchers agree

A page and a rule can meet in two ways: the page comes in and the rules are ranked
for it, or the rule is evaluated and the stored pages are searched for it.  The
first compares the source of the page with the filters of the rule as text, in the
query, and similarities with the stored threshold as doubles.  The second parses
the filters, names sources in the search, and narrows its threshold to a single.

* `constrainSearchSources_unrequested`: the stored filters are canonical, so parsing
  loses nothing.
* `evaluationFor_eq`: an evaluation that asks for no more than the rule does has the
  threshold of the rule.
* `searchEmbeddings_all`: with a limit that is not reached, the search returns every hit.
* `selected_iff` and `hit_iff`: both come down to `QualifyingRule`, so **a rule is ranked
  for a page exactly if its evaluation hits the page**.
* `offersAgree_iff`: the candidates offered have one key.  The threshold of the first is
  read from the JSON text of a row and that of the second is not, so they have one
  threshold exactly if it is read unchanged.

`matchers_agree_iff` is what comes out, and `not_matchers_agree` a rule on which the two
differ.
-/

namespace EmbeddedAlerts

open Sql SourceScope Binary

variable {x : Platform} {db : Db}

/-- Cosine distance is symmetric on the vectors of a model space. -/
def SymmetricDistance (x : Platform) : Prop :=
  ∀ a b : EmbeddingPayload, x.validateEmbedding a = .ok () → x.validateEmbedding b = .ok () →
    a.toModelSpace = b.toModelSpace →
    x.cosineDistance a.values b.values = x.cosineDistance b.values a.values

/-- A search may name as many sources as a rule. -/
def SourcesAccepted (x : Platform) : Prop :=
  ∀ (request : EmbeddingSearchRequest) (ids : List Uuid), x.validateSearch request = .ok () →
    ids.Pairwise (· < ·) → ids.length ≤ maxSourceFilters →
    x.validateSearch { request with sourceIds := ids } = .ok ()

/-- An embedding of the active revision of an enabled rule, and a stored embedding of
a page revision, in one tenant and one model space. -/
structure Pairing (db : Db) (rule : AlertRuleRow) (revision : AlertRuleRevisionRow)
    (a : AlertRuleEmbeddingRow) (page : PageRow) (v : PageRevisionRow) (e : EmbeddingRow) :
    Prop where
  ruleMem : rule ∈ db.alertRules
  revisionMem : revision ∈ db.alertRuleRevisions
  active : rule.activeRevisionId = some revision.id
  enabled : revision.enabled = true
  alertMem : a ∈ db.alertRuleEmbeddings
  embedded : a.alertRuleRevisionId = revision.id
  pageMem : page ∈ db.pages
  pageRevisionMem : v ∈ db.pageRevisions
  pageId : v.pageId = page.id
  embeddingMem : e ∈ db.embeddings
  revisionId : e.revisionId = v.id
  tenantId : e.tenantId = rule.tenantId
  space : a.space = e.space

/-- An evaluation of the rule with this vector, by somebody who may read it, that
names no sources, starts at the beginning and asks for no more than the rule. -/
structure Evaluates (x : Platform) (rule : AlertRuleRow) (revision : AlertRuleRevisionRow)
    (a : AlertRuleEmbeddingRow) (auth : AuthContext) (input : EvaluateMatchesRequest) : Prop where
  tenantId : auth.tenantId = rule.tenantId
  access : auth.canAccessOwner rule.ownerSubject = true
  alertRuleId : input.alertRuleId = rule.id
  embedding : input.search.embedding = ⟨a.space, a.embedding⟩
  sourceIds : input.search.sourceIds = []
  cursor : input.search.cursor = none
  nonneg : 0 ≤ input.threshold
  threshold : input.threshold ≤ revision.similarityThreshold.val
  minSimilarity : input.search.minSimilarity.val ≤ revision.similarityThreshold.val
  valid : x.validateSearch input.search = .ok ()

/-! ### The source scope -/

/-- **A search that names no sources gets those of the rule**, and no more than a
search may name. -/
theorem constrainSearchSources_unrequested (hx : x.Lawful) {filters : List String}
    (hfilters : CanonicalFilters filters) :
    ∃ out, constrainSearchSources x filters [] = .ok out ∧ out.Pairwise (· < ·) ∧
      out.length ≤ maxSourceFilters ∧
      ∀ u, (out = [] ∨ u ∈ out) ↔ (filters = [] ∨ InRuleScope x filters u) := by
  obtain ⟨ids, hlen, rfl⟩ := hfilters
  have hscope : ∀ u, InRuleScope x (ids.map canonicalFilter) u ↔ u ∈ ids := by
    intro u
    constructor
    · rintro ⟨f, hf, hparse⟩
      obtain ⟨w, hw, rfl⟩ := List.mem_map.mp hf
      rw [parseSourceFilter_canonical hx] at hparse
      rwa [← Except.ok.inj hparse]
    · intro hu
      exact ⟨canonicalFilter u, List.mem_map_of_mem hu, parseSourceFilter_canonical hx u⟩
  rcases constrainSearchSources_cases x (ids.map canonicalFilter) [] with
    ⟨hbad, -⟩ | ⟨-, -, -, out, hout, hincreasing, hmem⟩
  · exfalso
    rcases hbad with hlong | ⟨f, hf, hmalformed⟩ | ⟨-, u, hu, -⟩
    · rw [List.length_map] at hlong
      omega
    · obtain ⟨u, -, rfl⟩ := List.mem_map.mp hf
      rw [Malformed, parseSourceFilter_canonical hx] at hmalformed
      cases hmalformed
    · cases hu
  · have hids : ∀ u, u ∈ out ↔ u ∈ ids := by
      intro u
      rw [hmem, if_pos rfl, hscope]
    have hempty : out = [] ↔ ids = [] := by
      simp only [List.eq_nil_iff_forall_not_mem, hids]
    refine ⟨out, hout, hincreasing, ?_, fun u => ?_⟩
    · have hnodup : out.Nodup := hincreasing.imp fun hlt => ne_of_lt hlt
      exact (hnodup.subperm fun u hu => (hids u).mp hu).length_le.trans hlen
    · rw [hempty, hids, hscope, List.map_eq_nil_iff]

/-! ### The evaluation -/

theorem requireAlertRule_eq (hwf : Wf x db) {rule : AlertRuleRow} {revision : AlertRuleRevisionRow}
    (hrule : rule ∈ db.alertRules) (hrevision : revision ∈ db.alertRuleRevisions)
    (hactive : rule.activeRevisionId = some revision.id) {auth : AuthContext}
    (hT : auth.tenantId = rule.tenantId) (haccess : auth.canAccessOwner rule.ownerSubject = true) :
    AlertStore.requireAlertRule auth.tenantId rule.id auth.subject auth.isTenantAdmin db
      = (.ok (AlertStore.alertRuleJson rule revision), db) := by
  obtain ⟨hvT, -⟩ := active_own hwf hrule hrevision hactive
  have hreadable : ReadableRule rule.tenantId rule.id rule.ownerSubject db :=
    ⟨rule, hrule, rfl, rfl, rfl, revision, hrevision, hactive, hvT⟩
  obtain ⟨found, hget⟩ := (canGet_iff hwf.valid hreadable).mpr ⟨hT.symm, haccess⟩
  have hrequire : AlertStore.requireAlertRule auth.tenantId rule.id auth.subject
      auth.isTenantAdmin db = (.ok found, db) := by
    unfold AlertStore.requireAlertRule
    rw [Action.bind_of_ok hget]
    rfl
  obtain ⟨-, r, hr, w, hw, -, hid, hactive', -, rfl⟩ := Routes.requireAlertRule_ok hrequire
  obtain rfl := hwf.valid.alertRule_eq hr hrule hid
  obtain rfl := hwf.valid.alertRuleRevision_eq hw hrevision
    (Option.some.inj (hactive'.symm.trans hactive))
  exact hrequire

theorem validated_apply_of_ok {α : Type} {r : Except String α} {a : α} (h : r = .ok a) (db : Db) :
    Routes.validated r db = (.ok a, db) := by
  rw [h]
  rfl

section Agreement

variable {rule : AlertRuleRow} {revision : AlertRuleRevisionRow} {a : AlertRuleEmbeddingRow}
  {page : PageRow} {v : PageRevisionRow} {e : EmbeddingRow} {auth : AuthContext}
  {input : EvaluateMatchesRequest}

theorem Pairing.model (hwf : Wf x db) (h : Pairing db rule revision a page v e) :
    revision.embeddingModel = a.space.model := by
  obtain ⟨w, hw, hid, -, -, -, hmodel⟩ := hwf.alertRevision a h.alertMem
  obtain rfl := hwf.valid.alertRuleRevision_eq hw h.revisionMem (hid.trans h.embedded)
  exact hmodel

/-- **An evaluation that asks for no more than the rule has its threshold.** -/
theorem evaluationFor_eq (hx : x.Lawful) (hwf : Wf x db) (hsources : SourcesAccepted x)
    (hpair : Pairing db rule revision a page v e)
    (heval : Evaluates x rule revision a auth input) :
    ∃ out, Routes.evaluationFor x auth input db
        = (.ok (AlertStore.alertRuleJson rule revision, revision.similarityThreshold.val,
          { input.search with sourceIds := out }), db) ∧
      ∀ u, (out = [] ∨ u ∈ out) ↔
        (revision.sourceFilters = [] ∨ InRuleScope x revision.sourceFilters u) := by
  obtain ⟨out, hout, hincreasing, hlen, hscope⟩ :=
    constrainSearchSources_unrequested hx (hwf.filters revision hpair.revisionMem)
  refine ⟨out, ?_, hscope⟩
  have hrange : 0 ≤ input.threshold ∧ input.threshold ≤ 1 := by
    have hcheck := hwf.valid.alertRuleRevisions.check revision hpair.revisionMem
    simp only [alertRuleRevisionsTable, Bool.and_eq_true, decide_eq_true_eq] at hcheck
    exact ⟨heval.nonneg, heval.threshold.trans hcheck.1.1.2.2⟩
  have hrule := requireAlertRule_eq hwf hpair.ruleMem hpair.revisionMem hpair.active heval.tenantId
    heval.access
  have henabled : (AlertStore.alertRuleJson rule revision).enabled = true := hpair.enabled
  have hmodel : input.search.embedding.model
      = (AlertStore.alertRuleJson rule revision).embeddingModel := by
    rw [heval.embedding]
    exact (hpair.model hwf).symm
  have hvalid : x.validateSearch { input.search with sourceIds := out } = .ok () :=
    hsources _ _ heval.valid hincreasing hlen
  have hmax : max input.threshold (AlertStore.alertRuleJson rule revision).similarityThreshold.val
      = revision.similarityThreshold.val := max_eq_right heval.threshold
  have hfirst : Routes.validated (x.validateSearch input.search) db = (.ok (), db) :=
    validated_apply_of_ok heval.valid db
  have hscoped : Routes.validated ((constrainSearchSources x
      (AlertStore.alertRuleJson rule revision).sourceFilters input.search.sourceIds).mapError
        SourceScopeError.message) db = (.ok out, db) := by
    rw [heval.sourceIds]
    exact validated_apply_of_ok (congrArg (Except.mapError SourceScopeError.message) hout) db
  rw [← heval.alertRuleId] at hrule
  unfold Routes.evaluationFor
  rw [Action.bind_of_ok (Action.ensure_apply_of hrange _ db), Action.bind_of_ok hfirst,
    Action.bind_of_ok hrule, Action.bind_of_ok (Action.ensure_apply_of henabled _ db),
    Action.bind_of_ok (Action.ensure_apply_of hmodel _ db), Action.bind_of_ok hscoped,
    Action.bind_of_ok (validated_apply_of_ok hvalid db), hmax]
  rfl

/-! ### The hits -/

/-- The search that an evaluation makes at a threshold, with another limit. -/
def searchAt (threshold : ℚ) (limit : ℕ) (search : EmbeddingSearchRequest) :
    EmbeddingSearchRequest where
  embedding := search.embedding
  sourceIds := search.sourceIds
  minSimilarity := F32.max search.minSimilarity (F32.ofRat threshold)
  limit := limit
  cursor := search.cursor

theorem length_ranked_le (hvalid : db.Valid) (tenantId : Uuid) (request : EmbeddingSearchRequest) :
    (Store.ranked x tenantId request db).length ≤ db.embeddings.length := by
  have hnodup : ((Store.ranked x tenantId request db).map Store.SearchWire.embeddingId).Nodup :=
    List.pairwise_map.mpr (Store.distinct_ranked hvalid)
  have hsub : (Store.ranked x tenantId request db).map Store.SearchWire.embeddingId
      ⊆ db.embeddings.map EmbeddingRow.id := by
    intro id hid
    obtain ⟨wire, hwire, rfl⟩ := List.mem_map.mp hid
    obtain ⟨e, he, v, -, p, -, -, -, -, -, -, -, -, rfl⟩ := Store.mem_ranked hwire
    exact List.mem_map_of_mem he
  have hle := (hnodup.subperm hsub).length_le
  rwa [List.length_map, List.length_map] at hle

theorem searchEmbeddings_all (hx : x.Lawful) (hwf : Wf x db) (tenantId : Uuid)
    (request : EmbeddingSearchRequest) (hv : x.validateEmbedding request.embedding = .ok ())
    (hcursor : request.cursor = none) (hlimit : db.embeddings.length ≤ request.limit) :
    ∃ page, Store.searchEmbeddings x tenantId request db = (.ok page, db) ∧
      ∀ record, record ∈ page.records ↔ Store.Hit x tenantId request db record := by
  obtain ⟨page, hpage⟩ := Evaluation.searchEmbeddings_total hx hwf tenantId request hv
  obtain ⟨-, hrecords⟩ := Store.searchEmbeddings_records hpage
  refine ⟨page, hpage, fun record => ?_⟩
  have hlength : ((((Store.ranked x tenantId request db).filter
      (Store.similarEnough request)).filter (Store.afterCursor request.cursor)).insertionSort
        Store.nearestFirst).length ≤ request.limit := by
    rw [List.length_insertionSort]
    refine (List.length_filter_le _ _).trans ((List.length_filter_le _ _).trans ?_)
    exact (length_ranked_le hwf.valid tenantId request).trans hlimit
  rw [Store.decoded_of_mapM hrecords, Store.mem_decoded, ← Store.mem_qualifying, Store.qualifying,
    Store.mem_decoded, Store.searchRows, List.take_take,
    List.take_of_length_le (hlength.trans (by omega))]
  refine exists_congr fun wire => and_congr_left fun _ => ?_
  rw [List.mem_insertionSort, List.mem_filter, hcursor]
  exact and_iff_left rfl

/-! ### The two selections -/

/-- The vector of a page, as it is sent. -/
def EmbeddingRow.payload (e : EmbeddingRow) : EmbeddingPayload := ⟨e.space, e.embedding⟩

theorem ranked_eq (hx : x.Lawful) (hwf : Wf x db) (hpair : Pairing db rule revision a page v e)
    {alert : ReverseMatch.AlertDistance}
    (halert : alert ∈ ranking x rule.tenantId page.sourceId e.payload db)
    (hid : alert.alertRuleId = rule.id) :
    QualifyingRule x db rule.tenantId page.sourceId e.payload rule revision a ∧
      alert = rankedRule x e.payload rule revision a := by
  rw [ranking, mem_sorted, mem_reachedAlerts_iff hx hwf] at halert
  obtain ⟨r, w, b, hq, rfl⟩ := halert
  obtain rfl := hwf.valid.alertRule_eq hq.mem hpair.ruleMem hid
  obtain rfl := hwf.valid.alertRuleRevision_eq hq.revisionMem hpair.revisionMem
    (Option.some.inj (hq.active.symm.trans hpair.active))
  have hb := embedding_own hwf hq.embeddingMem hpair.revisionMem hq.embedded
  have ha := embedding_own hwf hpair.alertMem hpair.revisionMem hpair.embedded
  obtain rfl : b = a := by
    refine hwf.valid.alertRuleEmbedding_eq_of_space hq.embeddingMem hpair.alertMem
      (decide_eq_true ⟨?_, ?_, ?_⟩)
    · rw [hb.1, ha.1]
    · rw [hq.embedded, hpair.embedded]
    · rw [hpair.space]
      exact hq.space
  exact ⟨hq, rfl⟩

/-- The rule is ranked for the vector and the source of the page. -/
def Selected (x : Platform) (db : Db) (rule : AlertRuleRow) (page : PageRow) (e : EmbeddingRow) :
    Prop :=
  ∃ alert ∈ ranking x rule.tenantId page.sourceId e.payload db, alert.alertRuleId = rule.id

theorem selected_iff (hx : x.Lawful) (hwf : Wf x db)
    (hpair : Pairing db rule revision a page v e) :
    Selected x db rule page e ↔
      QualifyingRule x db rule.tenantId page.sourceId e.payload rule revision a := by
  constructor
  · rintro ⟨alert, halert, hid⟩
    exact (ranked_eq hx hwf hpair halert hid).1
  · intro hq
    refine ⟨rankedRule x e.payload rule revision a, ?_, rfl⟩
    rw [ranking, mem_sorted, mem_reachedAlerts_iff hx hwf]
    exact ⟨rule, revision, a, hq, rfl⟩

/-- **The page revision is hit exactly if the rule qualifies for it.** -/
theorem hit_iff (hx : x.Lawful) (hwf : Wf x db) (hsymm : SymmetricDistance x)
    (hpair : Pairing db rule revision a page v e) (request : EmbeddingSearchRequest)
    (hembedding : request.embedding = ⟨a.space, a.embedding⟩)
    (hmin : request.minSimilarity.val = revision.similarityThreshold.val)
    (hscope : ∀ u, (request.sourceIds = [] ∨ u ∈ request.sourceIds) ↔
      (revision.sourceFilters = [] ∨ InRuleScope x revision.sourceFilters u)) :
    (∃ record, Store.Hit x rule.tenantId request db record ∧ record.hit.revisionId = v.id) ↔
      QualifyingRule x db rule.tenantId page.sourceId e.payload rule revision a := by
  have ha : x.validateEmbedding ⟨a.space, a.embedding⟩ = .ok () :=
    hwf.alertEmbedding a hpair.alertMem
  have he : x.validateEmbedding e.payload = .ok () := hwf.embedding e hpair.embeddingMem
  have hdistance : x.cosineDistance a.embedding e.embedding
      = x.cosineDistance e.embedding request.embedding.values := by
    rw [hembedding]
    exact hsymm _ _ ha he hpair.space
  have hspace : e.space = request.embedding.toModelSpace := by
    rw [hembedding, hpair.space]
  obtain ⟨v', hv', hve, hvT⟩ := hwf.revision e hpair.embeddingMem
  obtain rfl := hwf.valid.pageRevision_eq hv' hpair.pageRevisionMem (hve.trans hpair.revisionId)
  obtain ⟨p', hp', hpv, hpT⟩ := hwf.page v' hv'
  obtain rfl := hwf.valid.page_eq hp' hpair.pageMem (hpv.trans hpair.pageId)
  constructor
  · rintro ⟨record, hhit, hrevision⟩
    obtain ⟨f, hf, w, hw, q, hq, hfT, hfspace, hwf', -, hqw, -, hsource, hsimilar, hrecord⟩ := hhit
    obtain rfl := hwf.valid.pageRevision_eq hw hv'
      ((Store.SearchWire.intoRecord_ok hrecord).2.2.2.1.symm.trans hrevision)
    obtain rfl := hwf.valid.page_eq hq hp' (hqw.trans hpv.symm)
    obtain rfl : f = e := by
      refine hwf.valid.embedding_eq_of_space hf hpair.embeddingMem (decide_eq_true ⟨?_, ?_, ?_⟩)
      · rw [hfT, hpair.tenantId]
      · rw [← hwf', hve]
      · rw [hfspace, hspace]
    refine ⟨hpair.ruleMem, rfl, hpair.revisionMem, hpair.active, hpair.enabled, ?_, hpair.alertMem,
      hpair.embedded, hpair.space, (hscope _).mp hsource, ?_⟩
    · rw [hpair.model hwf, hpair.space]
      rfl
    · rw [EmbeddingRow.payload, hdistance, ← hmin]
      exact of_decide_eq_true hsimilar
  · intro hq
    have hvalid : x.validateEmbedding request.embedding = .ok () := by rw [hembedding]; exact ha
    obtain ⟨record, hrecord, -⟩ := Evaluation.intoRecord_total hx hwf hvalid hpair.embeddingMem
      hspace v' p'
    have hrevision : record.hit.revisionId = v'.id :=
      (Store.SearchWire.intoRecord_ok hrecord).2.2.2.1
    have hsimilar := hq.similar
    rw [EmbeddingRow.payload, hdistance, ← hmin] at hsimilar
    exact ⟨record, ⟨e, hpair.embeddingMem, v', hv', p', hp', hpair.tenantId, hspace, hve,
      hvT.trans hpair.tenantId, hpv, hpT.trans (hvT.trans hpair.tenantId), (hscope _).mpr hq.scope,
      decide_eq_true hsimilar, hrecord⟩, hrevision⟩

/-! ### What is offered -/

theorem evaluateMatches_revisions {clock : ℕ → Timestamp} {ids : ℕ → Uuid}
    {T ruleId revisionId : Uuid} {threshold : ℚ} {search : EmbeddingSearchRequest}
    {candidates : List Store.MatchCandidate} {found : Store.SearchPage} {s : Db}
    (hpage : Store.searchEmbeddings x T (searchAt threshold search.limit search) db
      = (.ok found, db))
    (h : Store.evaluateMatches x clock ids T ruleId revisionId threshold search db
      = (.ok candidates, s)) (id : Uuid) :
    (∃ candidate ∈ candidates, candidate.revisionId = id) ↔
      ∃ record ∈ found.records, record.hit.revisionId = id := by
  have hloop : Action.forEach (Store.evaluateRecord x clock ids T ruleId revisionId threshold)
      found.records.zipIdx db = (.ok candidates, s) := (Action.bind_of_ok hpage).symm.trans h
  have hall := Action.forEach_eq_ok (R := Grows)
    (fun record _ s' _ => Store.evaluateRecord_grows record s') hloop
  constructor
  · rintro ⟨candidate, hcandidate, hid⟩
    obtain ⟨⟨record, n⟩, hrecord, s1, s2, -, hturn, -⟩ := exists_of_forall₂_right hall hcandidate
    obtain ⟨row, -, rfl, hof⟩ := Store.evaluateRecord_ok hturn
    exact ⟨record, List.fst_mem_of_mem_zipIdx hrecord, hof.revisionId.symm.trans hid⟩
  · rintro ⟨record, hrecord, hid⟩
    obtain ⟨n, hn, hget⟩ := List.mem_iff_getElem.mp hrecord
    have hmem : (record, n) ∈ found.records.zipIdx := by
      rw [List.mk_mem_zipIdx_iff_getElem?, List.getElem?_eq_getElem hn, hget]
    obtain ⟨candidate, hcandidate, s1, s2, -, hturn, -⟩ := exists_of_forall₂_left hall hmem
    obtain ⟨row, -, rfl, hof⟩ := Store.evaluateRecord_ok hturn
    exact ⟨_, hcandidate, hof.revisionId.trans hid⟩

theorem intoWire_threshold {alert : ReverseMatch.AlertDistance} {wire : ReverseMatch.CandidateWire}
    (h : alert.intoWire x = .ok wire) : wire.threshold = x.jsonDouble alert.threshold := by
  unfold ReverseMatch.AlertDistance.intoWire at h
  split at h
  · obtain rfl := Except.ok.inj h
    rfl
  · cases h

/-- The two candidates for the pair, whenever and by whichever call they are offered,
have one key and the threshold of the rule. -/
def OffersAgree (x : Platform) (rule : AlertRuleRow) (revision : AlertRuleRevisionRow)
    (page : PageRow) (v : PageRevisionRow) (e : EmbeddingRow) (wire : ReverseMatch.CandidateWire)
    (record : Store.SearchRecord) : Prop :=
  ∀ (now now' : Timestamp) (id id' : Uuid) (changed : Bool) (url : String),
    let streamed := ReverseMatch.newCandidate x now id rule.tenantId
      ⟨page.id, v.id, v.contentSha256, changed⟩ e.payload url wire
    let historical := Store.newCandidate x now' id' rule.tenantId rule.id revision.id
      revision.similarityThreshold.val record
    streamed.canonicalMatchKey = historical.canonicalMatchKey ∧
      streamed.threshold = historical.threshold ∧
      historical.threshold = revision.similarityThreshold.val

/-- **The candidates have one key; they have one threshold exactly if that of the rule is
read unchanged.** -/
theorem offersAgree_iff (hwf : Wf x db) (hpair : Pairing db rule revision a page v e)
    (request : EmbeddingSearchRequest) (hembedding : request.embedding = ⟨a.space, a.embedding⟩)
    {wire : ReverseMatch.CandidateWire}
    (hwire : (rankedRule x e.payload rule revision a).intoWire x = .ok wire)
    {record : Store.SearchRecord} (hhit : Store.Hit x rule.tenantId request db record)
    (hrevision : record.hit.revisionId = v.id) :
    OffersAgree x rule revision page v e wire record ↔
      x.jsonDouble revision.similarityThreshold.val = revision.similarityThreshold.val := by
  obtain ⟨hrule, hrev, -⟩ := intoWire_ok hwire
  have hthreshold : wire.threshold = x.jsonDouble revision.similarityThreshold.val :=
    intoWire_threshold hwire
  obtain ⟨f, -, w, hw, q, -, -, hspace, -, -, -, -, -, -, hrecord⟩ := hhit
  obtain ⟨-, -, -, hid, hrecordSpace, hsha⟩ := Store.SearchWire.intoRecord_ok hrecord
  obtain rfl := hwf.valid.pageRevision_eq hw hpair.pageRevisionMem (hid.symm.trans hrevision)
  have hspace' : record.hit.space = e.space := by
    rw [hrecordSpace, ← hpair.space]
    exact hspace.trans (congrArg EmbeddingPayload.toModelSpace hembedding)
  have hidentity : ∀ changed, ReverseMatch.matchIdentity rule.tenantId
      ⟨page.id, w.id, w.contentSha256, changed⟩ e.space wire
      = Store.matchIdentity rule.tenantId rule.id revision.id record := by
    intro changed
    rw [ReverseMatch.matchIdentity, Store.matchIdentity, hspace', hrule, hrev, hrevision, hsha]
    rfl
  constructor
  · intro hagree
    exact hthreshold.symm.trans (hagree 0 0 0 0 false "").2.1
  · intro hexact now now' id id' changed url
    refine ⟨?_, hthreshold.trans hexact, rfl⟩
    simp only [ReverseMatch.newCandidate, Store.newCandidate, ReverseMatch.matchKey_eq,
      EmbeddingRow.payload, hidentity]

theorem findAlertCandidates_all (hx : x.Lawful) (hwf : Wf x db) {T sourceId : Uuid}
    {request : ReverseMatch.ReverseAlertPageRequest}
    (hv : x.validateEmbedding request.embedding = .ok ())
    (hmax : (ranking x T sourceId request.embedding db).length ≤ request.maxCandidates.toNat) :
    ∃ wires, ReverseMatch.findAlertCandidates x T sourceId request db = (.ok wires, db) ∧
      (ranking x T sourceId request.embedding db).mapM (ReverseMatch.AlertDistance.intoWire x)
        = .ok wires := by
  have htake : ((ReverseMatch.reachedAlerts x T sourceId request.embedding db).insertionSort
      ReverseMatch.nearestFirst).take request.maxCandidates.toNat
      = ranking x T sourceId request.embedding db := by
    rw [insertionSort_eq_sorted nearestAlert_iff]
    exact List.take_of_length_le hmax
  obtain ⟨wires, hwires⟩ := mapM_ok_of_forall (f := ReverseMatch.AlertDistance.intoWire x)
    (l := ranking x T sourceId request.embedding db) fun alert halert =>
      ReverseIngest.intoWire_total hx hwf hv (mem_sorted.mp halert)
  refine ⟨wires, ?_, hwires⟩
  rw [ReverseMatch.findAlertCandidates, Action.query_bind_apply, htake, hwires]
  rfl

/-- **The search of the evaluation hits the page revision exactly if the rule is
ranked**, with any limit that is not reached. -/
theorem search_agrees (hx : x.Lawful) (hwf : Wf x db) (hsymm : SymmetricDistance x)
    (hpair : Pairing db rule revision a page v e)
    (heval : Evaluates x rule revision a auth input) {out : List Uuid}
    (hscope : ∀ u, (out = [] ∨ u ∈ out) ↔
      (revision.sourceFilters = [] ∨ InRuleScope x revision.sourceFilters u)) {limit : ℕ}
    (hlimit : db.embeddings.length ≤ limit) :
    ∃ found, Store.searchEmbeddings x rule.tenantId (searchAt revision.similarityThreshold.val limit
        { input.search with sourceIds := out }) db = (.ok found, db) ∧
      (∀ record ∈ found.records, Store.Hit x rule.tenantId (searchAt
        revision.similarityThreshold.val limit { input.search with sourceIds := out }) db record) ∧
      (Selected x db rule page e ↔ ∃ record ∈ found.records, record.hit.revisionId = v.id) := by
  -- the threshold of the rule is a single, and the request does not exceed it
  have hmin : (F32.max input.search.minSimilarity
      (F32.ofRat revision.similarityThreshold.val)).val = revision.similarityThreshold.val := by
    rw [F32.max_val, F32.ofRat_val]
    exact max_eq_right heval.minSimilarity
  have hvalid : x.validateEmbedding input.search.embedding = .ok () :=
    hx.searchEmbedding input.search heval.valid
  obtain ⟨found, hfound, hall⟩ := searchEmbeddings_all hx hwf rule.tenantId
    (searchAt revision.similarityThreshold.val limit
      { input.search with sourceIds := out }) hvalid heval.cursor hlimit
  refine ⟨found, hfound, fun record hrecord => (hall record).mp hrecord, ?_⟩
  have hhit := hit_iff hx hwf hsymm hpair (searchAt revision.similarityThreshold.val
    limit { input.search with sourceIds := out }) heval.embedding hmin hscope
  rw [selected_iff hx hwf hpair, ← hhit]
  exact exists_congr fun record => and_congr_left fun _ => (hall record).symm

/-- The streaming and the historical matcher agree on an embedding of a rule and the
stored vector of a page revision.  The checks of the evaluation pass, and its threshold is
that of the rule.  With any limit that is not reached, its search hits the page revision
exactly if the rule is ranked, and the candidates of the two agree on key and threshold.
So do the candidates of the response, and the rules found with any maximum that is not
reached. -/
structure MatchersAgree (x : Platform) (db : Db) (rule : AlertRuleRow)
    (revision : AlertRuleRevisionRow) (page : PageRow) (v : PageRevisionRow) (e : EmbeddingRow)
    (auth : AuthContext) (input : EvaluateMatchesRequest) : Prop where
  search : ∃ search, Routes.evaluationFor x auth input db = (.ok (AlertStore.alertRuleJson rule
      revision, revision.similarityThreshold.val, search), db) ∧
    ∀ limit, db.embeddings.length ≤ limit → ∃ found,
      Store.searchEmbeddings x rule.tenantId
        (searchAt revision.similarityThreshold.val limit search) db = (.ok found, db) ∧
      (Selected x db rule page e ↔ ∃ record ∈ found.records, record.hit.revisionId = v.id) ∧
      ∀ alert ∈ ranking x rule.tenantId page.sourceId e.payload db, alert.alertRuleId = rule.id →
        ∃ wire, alert.intoWire x = .ok wire ∧ ∀ record ∈ found.records,
          record.hit.revisionId = v.id → OffersAgree x rule revision page v e wire record
  response : db.embeddings.length ≤ input.search.limit → ∀ supply candidates s,
    Routes.evaluateMatches x supply auth input db = (.ok candidates, s) →
    (Selected x db rule page e ↔ ∃ candidate ∈ candidates, candidate.revisionId = v.id)
  rules : ∀ request : ReverseMatch.ReverseAlertPageRequest, request.embedding = e.payload →
    (ranking x rule.tenantId page.sourceId e.payload db).length ≤ request.maxCandidates.toNat →
    ∃ wires, ReverseMatch.findAlertCandidates x rule.tenantId page.sourceId request db
        = (.ok wires, db) ∧
      (Selected x db rule page e ↔ ∃ wire ∈ wires, wire.alertRuleId = rule.id)

/-- **Selecting is never where the two differ**: they agree as soon as the candidates
offered for a rule that is ranked do. -/
theorem matchersAgree_of_offers (hx : x.Lawful) (hsymm : SymmetricDistance x)
    (hsources : SourcesAccepted x) (hwf : Wf x db) (hpair : Pairing db rule revision a page v e)
    (heval : Evaluates x rule revision a auth input)
    (hread : QualifyingRule x db rule.tenantId page.sourceId e.payload rule revision a →
      x.jsonDouble revision.similarityThreshold.val = revision.similarityThreshold.val) :
    MatchersAgree x db rule revision page v e auth input := by
  have he : x.validateEmbedding e.payload = .ok () := hwf.embedding e hpair.embeddingMem
  obtain ⟨out, hfor, hscope⟩ := evaluationFor_eq hx hwf hsources hpair heval
  refine ⟨⟨_, hfor, fun limit hlimit => ?_⟩, ?_, ?_⟩
  · obtain ⟨found, hfound, hall, hiff⟩ := search_agrees hx hwf hsymm hpair heval hscope hlimit
    refine ⟨found, hfound, hiff, fun alert halert hid => ?_⟩
    obtain ⟨wire, hwire⟩ := ReverseIngest.intoWire_total hx hwf he (mem_sorted.mp halert)
    refine ⟨wire, hwire, fun record hrecord hrevision => ?_⟩
    obtain ⟨hqualifies, rfl⟩ := ranked_eq hx hwf hpair halert hid
    exact (offersAgree_iff hwf hpair (searchAt revision.similarityThreshold.val limit
      { input.search with sourceIds := out }) heval.embedding hwire (hall record hrecord)
        hrevision).mpr (hread hqualifies)
  · intro hlimit supply candidates s hrun
    obtain ⟨found, hfound, -, hiff⟩ := search_agrees hx hwf hsymm hpair heval hscope hlimit
    have hstore : Store.evaluateMatches x supply.clock supply.ids rule.tenantId rule.id revision.id
        revision.similarityThreshold.val { input.search with sourceIds := out } db
        = (.ok candidates, s) := by
      rw [← heval.tenantId, ← heval.alertRuleId]
      exact (Action.bind_of_ok hfor).symm.trans hrun
    rw [hiff, evaluateMatches_revisions hfound hstore]
  · intro request hembedding hmax
    rw [← hembedding] at he hmax
    obtain ⟨wires, hfind, hwires⟩ := findAlertCandidates_all hx hwf he hmax
    refine ⟨wires, hfind, ?_⟩
    rw [hembedding] at hwires
    constructor
    · rintro ⟨alert, halert, hid⟩
      obtain ⟨wire, hwire, hdecode⟩ := exists_mem_of_mapM hwires halert
      exact ⟨wire, hwire, (intoWire_ok hdecode).1.trans hid⟩
    · rintro ⟨wire, hwire, hid⟩
      obtain ⟨alert, halert, hdecode⟩ := exists_of_mem_mapM hwires hwire
      exact ⟨alert, halert, (intoWire_ok hdecode).1.symm.trans hid⟩

theorem MatchersAgree.read (hx : x.Lawful) (hsources : SourcesAccepted x) (hwf : Wf x db)
    (hpair : Pairing db rule revision a page v e) (heval : Evaluates x rule revision a auth input)
    (h : MatchersAgree x db rule revision page v e auth input)
    (hqualifies : QualifyingRule x db rule.tenantId page.sourceId e.payload rule revision a) :
    x.jsonDouble revision.similarityThreshold.val = revision.similarityThreshold.val := by
  obtain ⟨out, hfor, hscope⟩ := evaluationFor_eq hx hwf hsources hpair heval
  obtain ⟨search, hsearch, hlimits⟩ := h.search
  obtain ⟨found, hfound, hiff, hoffers⟩ := hlimits db.embeddings.length le_rfl
  obtain rfl : { input.search with sourceIds := out } = search := by
    have hsame := hfor.symm.trans hsearch
    simp only [Prod.mk.injEq, Except.ok.injEq, true_and, and_true] at hsame
    exact hsame
  have hselected := (selected_iff hx hwf hpair).mpr hqualifies
  obtain ⟨record, hrecord, hrevision⟩ := hiff.mp hselected
  obtain ⟨alert, halert, hid⟩ := hselected
  obtain ⟨wire, hwire, hoffer⟩ := hoffers alert halert hid
  obtain ⟨-, rfl⟩ := ranked_eq hx hwf hpair halert hid
  have hhit := (Store.searchEmbeddings_ok hfound).2.2 record hrecord
  exact (offersAgree_iff hwf hpair (searchAt revision.similarityThreshold.val
    db.embeddings.length { input.search with sourceIds := out }) heval.embedding hwire hhit
      hrevision).mp (hoffer record hrecord hrevision)

theorem Pairing.qualifies_iff (hwf : Wf x db) (hpair : Pairing db rule revision a page v e) :
    QualifyingRule x db rule.tenantId page.sourceId e.payload rule revision a ↔
      (revision.sourceFilters = [] ∨ InRuleScope x revision.sourceFilters page.sourceId) ∧
        (revision.similarityThreshold.val : Float8)
          ≤ (x.cosineDistance a.embedding e.embedding).oneMinus := by
  constructor
  · intro h
    exact ⟨h.scope, h.similar⟩
  · rintro ⟨hscope, hsimilar⟩
    refine ⟨hpair.ruleMem, rfl, hpair.revisionMem, hpair.active, hpair.enabled, ?_, hpair.alertMem,
      hpair.embedded, hpair.space, hscope, hsimilar⟩
    rw [hpair.model hwf, hpair.space]
    rfl

/-- **The streaming and the historical matcher agree on a pair exactly if the threshold of
the rule is read unchanged**, or the page is out of its scope or too far away. -/
theorem matchers_agree_iff (hx : x.Lawful) (hsymm : SymmetricDistance x)
    (hsources : SourcesAccepted x) (hdb : Reachable x db)
    (hpair : Pairing db rule revision a page v e) (heval : Evaluates x rule revision a auth input) :
    MatchersAgree x db rule revision page v e auth input ↔
      ((revision.sourceFilters = [] ∨ InRuleScope x revision.sourceFilters page.sourceId) →
        (revision.similarityThreshold.val : Float8)
          ≤ (x.cosineDistance a.embedding e.embedding).oneMinus →
        x.jsonDouble revision.similarityThreshold.val = revision.similarityThreshold.val) := by
  have hwf := hdb.wf hx
  constructor
  · intro h hscope hsimilar
    exact h.read hx hsources hwf hpair heval
      ((hpair.qualifies_iff hwf).mpr ⟨hscope, hsimilar⟩)
  · intro h
    refine matchersAgree_of_offers hx hsymm hsources hwf hpair heval fun hqualifies => ?_
    obtain ⟨hscope, hsimilar⟩ := (hpair.qualifies_iff hwf).mp hqualifies
    exact h hscope hsimilar

end Agreement

/-! ### A scenario -/

namespace Scenario

theorem symmetricDistance : SymmetricDistance Platform.sample := by
  intro a b _ _ _
  simp only [Platform.sample, cosineDistance, eq_comm, and_comm, or_comm]

theorem sourcesAccepted : SourcesAccepted Platform.sample := fun _ _ h _ _ => h

/-- The rule has this threshold and the page this vector. -/
def IsPair (threshold : F32) (values : List F32Bits) (rule : AlertRuleRow)
    (revision : AlertRuleRevisionRow) (a : AlertRuleEmbeddingRow) (page : PageRow)
    (v : PageRevisionRow) (e : EmbeddingRow) : Prop :=
  (rule.activeRevisionId = some revision.id ∧ revision.enabled = true ∧
    a.alertRuleRevisionId = revision.id ∧ v.pageId = page.id ∧ e.revisionId = v.id ∧
    e.tenantId = rule.tenantId ∧ a.space = e.space) ∧
  (rule.tenantId = 1 ∧ rule.id = 20 ∧ a.space = space ∧ a.embedding = axis) ∧
  revision.similarityThreshold = threshold ∧ revision.sourceFilters = [] ∧ e.embedding = values

instance (threshold : F32) (values : List F32Bits) (rule : AlertRuleRow)
    (revision : AlertRuleRevisionRow) (a : AlertRuleEmbeddingRow) (page : PageRow)
    (v : PageRevisionRow) (e : EmbeddingRow) :
    Decidable (IsPair threshold values rule revision a page v e) :=
  inferInstanceAs (Decidable ((_ ∧ _) ∧ (_ ∧ _) ∧ _ ∧ _ ∧ _))

/-- The store has such a rule and such a page. -/
def HasPair (db : Db) (threshold : F32) (values : List F32Bits) : Prop :=
  ∃ rule ∈ db.alertRules, ∃ revision ∈ db.alertRuleRevisions, ∃ a ∈ db.alertRuleEmbeddings,
    ∃ page ∈ db.pages, ∃ v ∈ db.pageRevisions, ∃ e ∈ db.embeddings,
      IsPair threshold values rule revision a page v e

instance (db : Db) (threshold : F32) (values : List F32Bits) :
    Decidable (HasPair db threshold values) := by
  unfold HasPair
  infer_instance

/-- An evaluation of the rule, with its own vector. -/
def ownInput : EvaluateMatchesRequest := ⟨20, 1 / 4, search⟩

theorem HasPair.exists_pairing {x : Platform} {db : Db} {threshold : F32} {values : List F32Bits}
    (h : HasPair db threshold values) (hle : 1 / 4 ≤ threshold.val)
    (hvalid : x.validateSearch search = .ok ()) :
    ∃ rule revision a page v e, Pairing db rule revision a page v e ∧
      Evaluates x rule revision a admin ownInput ∧ revision.similarityThreshold = threshold ∧
      revision.sourceFilters = [] ∧ a.embedding = axis ∧ e.embedding = values := by
  obtain ⟨rule, hrule, revision, hrevision, a, ha, page, hpage, v, hv, e, he,
    ⟨hactive, henabled, hembedded, hpageId, hrev, hT, hspace⟩, ⟨hruleT, hruleId, haspace, haxis⟩,
    rfl, hfilters, hvalues⟩ := h
  have hzero : (F32.ofRat 0).val = 0 := by decide +kernel
  have hmin : ownInput.search.minSimilarity.val ≤ revision.similarityThreshold.val := by
    show (F32.ofRat 0).val ≤ _
    rw [hzero]
    linarith
  have hembedding : ownInput.search.embedding = ⟨a.space, a.embedding⟩ := by
    rw [haspace, haxis]
    rfl
  exact ⟨rule, revision, a, page, v, e, ⟨hrule, hrevision, hactive, henabled, ha, hembedded, hpage,
    hv, hpageId, he, hrev, hT, hspace⟩, ⟨hruleT.symm, rfl, hruleId.symm, hembedding, rfl, rfl,
    by norm_num [ownInput], hle, hmin, hvalid⟩, rfl, hfilters, haxis, hvalues⟩

/-- `0.92` as an `f32`, which is a little more. -/
def ninetyTwo : F32 := F32.ofRat (92 / 100)

/-- What is read of its text `0.9200000166893005`: the digits make one double, and the
power of ten that divides them another. -/
def readNinetyTwo : ℚ := roundNE 53 (roundNE 53 9200000166893005 / 10 ^ 16)

/-- The platform on which that text is read so. -/
def misreading : Platform :=
  { Platform.sample with jsonDouble := fun q => if q = ninetyTwo.val then readNinetyTwo else q }

theorem readNinetyTwo_lt : 0 ≤ readNinetyTwo ∧ readNinetyTwo < ninetyTwo.val ∧
    ninetyTwo.val ≤ 1 := by decide +kernel

theorem oneMinus_ne {a b : List F32Bits} {s : ℚ}
    (h : (cosineDistance a b).oneMinus = (s : Float8)) : s ≠ ninetyTwo.val := by
  rintro rfl
  unfold cosineDistance at h
  split_ifs at h
  all_goals
    revert h
    decide +kernel

theorem misreading_lawful : misreading.Lawful := by
  obtain ⟨hnonneg, hlt, hone⟩ := readNinetyTwo_lt
  refine Platform.sample_lawful.withJsonDouble (fun q hq => ?_) (fun q hq => ?_)
    fun t a b s hs hle => ?_
  · split_ifs
    · rw [abs_of_nonneg hnonneg]
      exact hlt.le.trans hone
    · exact hq
  · split_ifs
    · exact hnonneg
    · exact hq
  · rw [if_neg (oneMinus_ne hs)]
    split_ifs with heq
    · exact (heq ▸ hlt.le).trans hle
    · exact hle

def createStrict : Call := call 20 (.createRecord {
  name := "rule"
  queryText := "query"
  embeddingModel := "m"
  similarityThreshold := ninetyTwo
  sourceFilters := []
  deliveryChannels := []
  enabled := true })

def ingestAxis (base : ℕ) : Call := call base (.ingestPage 10 (page axis))

/-- A rule with the threshold `0.92`, and a page with the vector of the rule. -/
def strict : Db := EmbeddedAlerts.after misreading
  [createSource, createStrict, embedRule, ingestAxis 30, ingestAxis 40] Db.empty

end Scenario

open Scenario in
/-- **The two matchers differ** on a rule with the threshold `0.92` and a page with its
vector: one threshold is `0.9200000166893004`, the other `0.9200000166893005`. -/
theorem not_matchers_agree :
    ¬ ∀ x : Platform, x.Lawful → SymmetricDistance x → SourcesAccepted x → ∀ db, Reachable x db →
      ∀ rule revision a page v e auth input, Pairing db rule revision a page v e →
        Evaluates x rule revision a auth input →
        MatchersAgree x db rule revision page v e auth input := by
  intro h
  have hstore : HasPair strict ninetyTwo axis := by decide +kernel
  obtain ⟨rule, revision, a, page, v, e, hpair, heval, hthreshold, hfilters, haxis, hvalues⟩ :=
    hstore.exists_pairing (x := misreading) (by decide +kernel) rfl
  have hdb : Reachable misreading strict := reachable_after _ .refl
  have hwf := hdb.wf misreading_lawful
  have hagree := h misreading misreading_lawful symmetricDistance sourcesAccepted strict hdb rule
    revision a page v e admin ownInput hpair heval
  have hsimilar : (ninetyTwo.val : Float8) ≤ (misreading.cosineDistance axis axis).oneMinus := by
    decide +kernel
  have hread := hagree.read misreading_lawful sourcesAccepted hwf hpair heval
    ((hpair.qualifies_iff hwf).mpr ⟨Or.inl hfilters, by rwa [hthreshold, haxis, hvalues]⟩)
  rw [hthreshold] at hread
  have hlower : misreading.jsonDouble ninetyTwo.val = readNinetyTwo := if_pos rfl
  exact absurd (hlower.symm.trans hread) readNinetyTwo_lt.2.1.ne

open Scenario in
/-- The rule of the scenario is ranked for the stored page, and the two agree on it. -/
theorem matchers_agree_sample : ∃ rule revision a page v e,
    Pairing stored rule revision a page v e ∧
      Evaluates Platform.sample rule revision a admin ownInput ∧
      Selected Platform.sample stored rule page e ∧
      MatchersAgree Platform.sample stored rule revision page v e admin ownInput := by
  have hstore : HasPair stored (F32.ofRat (1 / 4)) diagonal := by decide +kernel
  obtain ⟨rule, revision, a, page, v, e, hpair, heval, hthreshold, hfilters, haxis, hvalues⟩ :=
    hstore.exists_pairing (x := Platform.sample) (by decide +kernel) rfl
  have hwf := reachable_stored.wf Platform.sample_lawful
  have hsimilar : ((F32.ofRat (1 / 4)).val : Float8)
      ≤ (Platform.sample.cosineDistance axis diagonal).oneMinus := by decide +kernel
  have hqualifies := (hpair.qualifies_iff hwf).mpr
    ⟨Or.inl hfilters, by rwa [hthreshold, haxis, hvalues]⟩
  refine ⟨rule, revision, a, page, v, e, hpair, heval,
    (selected_iff Platform.sample_lawful hwf hpair).mpr hqualifies, ?_⟩
  exact (matchers_agree_iff Platform.sample_lawful symmetricDistance sourcesAccepted
    reachable_stored hpair heval).mpr fun _ _ => rfl

end EmbeddedAlerts
