import EmbeddedAlerts.Invariant

/-!
# The requests take steps

Every request moves the store along `Steps`, on success and on failure.  One
lemma for each statement says what it leaves when it succeeds; the rules for
`Action.Moves` put the statements of a request together.

The candidates are where `G` comes in.  `Hit` is what is known about a record of
a search, `Reached` about a rule that a page has reached and `PageOf` about the
page revision it was reached for; a request may add a candidate if `G` follows
from these.
-/

namespace EmbeddedAlerts

open Sql Relation

variable {x : Platform} {G : Db → MatchCandidateRow → Prop} {T : Uuid} {db db' snapshot : Db}

/-! ### Sources -/

theorem Store.insertSource_ok {row : SourceRow} {o : Option SourceRow}
    (h : Store.insertSource row snapshot db = .ok (o, db')) :
    db' = db ∨ (sourcesTable.Admits db db.sources row ∧
      db' = { db with sources := db.sources ++ [row] }) := by
  obtain ⟨⟨o', rows⟩, hi, h⟩ := except_bind_eq_ok h
  obtain ⟨-, rfl⟩ := Prod.mk.inj (Except.ok.inj h)
  rcases Constraints.insertOrNothing_cases hi with ⟨-, rfl, -⟩ | ⟨-, rfl, ha, -⟩
  · exact Or.inl rfl
  · exact Or.inr ⟨ha, rfl⟩

theorem Store.createSource_moves (now : Timestamp) (id : Uuid) (input : CreateSourcePolicy)
    (root : String) (db : Db) :
    Action.Moves (Steps x G T) (Store.createSource now id T input root) db := by
  refine Action.Moves.bind (Action.Moves.statement fun o d' h => ?_) fun o d' _ => ?_
  · rcases Store.insertSource_ok h with rfl | ⟨ha, rfl⟩
    · exact .refl
    · exact .single (.addSource ha rfl)
  · cases o <;> exact .refl

/-! ### Alert rules -/

namespace AlertStore

theorem insertAlertRule_ok {row : AlertRuleRow} {n : ℕ}
    (h : insertAlertRule row snapshot db = .ok (n, db')) :
    alertRulesTable.Admits db db.alertRules row ∧
      db' = { db with alertRules := db.alertRules ++ [row] } := by
  obtain ⟨new, ht, hnew⟩ := except_bind_eq_ok h
  obtain ⟨rows, hi, hrows⟩ := except_bind_eq_ok hnew
  obtain rfl := enforceActiveAlertLimit_ok ht
  obtain ⟨-, rfl⟩ := Prod.mk.inj (Except.ok.inj hrows)
  obtain ⟨ha, rfl⟩ := Constraints.admits_of_insert hi
  exact ⟨ha, rfl⟩

theorem insertAlertRuleRevision_ok {row : AlertRuleRevisionRow} {n : ℕ}
    (h : insertAlertRuleRevision row snapshot db = .ok (n, db')) :
    alertRuleRevisionsTable.Admits db db.alertRuleRevisions row ∧
      db' = { db with alertRuleRevisions := db.alertRuleRevisions ++ [row] } := by
  obtain ⟨rows, hi, h⟩ := except_bind_eq_ok h
  obtain ⟨-, rfl⟩ := Prod.mk.inj (Except.ok.inj h)
  obtain ⟨ha, rfl⟩ := Constraints.admits_of_insert hi
  exact ⟨ha, rfl⟩

theorem activateAlertRule_ok {now : Timestamp} {ruleId tenantId revisionId : Uuid} {n : ℕ}
    (h : activateAlertRule now ruleId tenantId revisionId snapshot db = .ok (n, db')) :
    db' = db ∨ db' = { db with
      alertRules := db.alertRules.map fun r =>
        if isRule ruleId tenantId r then activated now revisionId r else r } := by
  unfold activateAlertRule at h
  split at h
  · obtain ⟨-, rfl⟩ := Prod.mk.inj (Except.ok.inj h)
    exact Or.inl rfl
  · obtain ⟨new, -, h⟩ := except_bind_eq_ok h
    split at h
    · cases h
    · obtain ⟨-, rfl⟩ := Prod.mk.inj (Except.ok.inj h)
      exact Or.inr rfl

/-- Pointing a rule at a revision of its own is a step. -/
theorem activateAlertRule_steps {now : Timestamp} {ruleId revisionId : Uuid} {n : ℕ}
    {v : AlertRuleRevisionRow} (hv : v ∈ db.alertRuleRevisions) (hid : v.id = revisionId)
    (htenant : v.tenantId = T) (hrule : v.alertRuleId = ruleId)
    (h : activateAlertRule now ruleId T revisionId snapshot db = .ok (n, db')) :
    Steps x G T db db' := by
  rcases activateAlertRule_ok h with rfl | rfl
  · exact .refl
  · refine .single (.activate ?_ ?_ ?_)
    · intro r
      split_ifs
      · exact ⟨rfl, rfl, rfl⟩
      · exact AlertRuleRow.Same.refl r
    · intro r hr
      rw [if_neg]
      simp [isRule, hr]
    · intro r _
      split_ifs with hhit
      · obtain ⟨hr1, hr2⟩ := of_decide_eq_true hhit
        exact Or.inr ⟨v, hv, by rw [hid]; rfl, by rw [htenant, hr2], by rw [hrule, hr1]⟩
      · exact Or.inl rfl

theorem createAlertRule_moves (now : Timestamp) (ids : ℕ → Uuid) (subject : String)
    {input : CreateAlertRule} (hf : CanonicalFilters input.sourceFilters) (db : Db) :
    Action.Moves (Steps x G T) (createAlertRule now ids T subject input) db := by
  refine Action.Moves.bind (Action.Moves.transaction ?_) fun o d _ => Action.Moves.okOr
  refine Action.Moves.bind (Action.Moves.statement fun n d h => ?_) fun n d1 _ => ?_
  · obtain ⟨ha, rfl⟩ := insertAlertRule_ok h
    exact .single (.addRule ha rfl rfl)
  refine Action.Moves.ensure_bind fun _ => ?_
  refine Action.Moves.bind (Action.Moves.statement fun n d h => ?_) fun n d2 hrev => ?_
  · obtain ⟨ha, rfl⟩ := insertAlertRuleRevision_ok h
    exact .single (.addRuleRevision ha rfl hf)
  obtain ⟨-, rfl⟩ := insertAlertRuleRevision_ok (execute_eq_ok hrev)
  refine Action.Moves.ensure_bind fun _ => ?_
  refine Action.Moves.bind (Action.Moves.statement fun n d h => ?_) fun n d4 _ => ?_
  · exact activateAlertRule_steps (List.mem_append_right _ (List.mem_singleton_self _)) rfl rfl rfl h
  exact Action.Moves.ensure_bind fun _ => .refl

end AlertStore

/-! ### Embeddings of alert rules -/

namespace ReverseMatch

theorem target_some {alertRuleId revisionId : Uuid} {model : String} {rule : AlertRuleRow}
    {revision : AlertRuleRevisionRow}
    (h : target T alertRuleId revisionId model db = some (rule, revision)) :
    rule ∈ db.alertRules ∧ rule.tenantId = T ∧ rule.id = alertRuleId ∧
      revision ∈ db.alertRuleRevisions ∧ revision.tenantId = T ∧
      some revision.id = rule.activeRevisionId ∧ revision.alertRuleId = rule.id ∧
      revision.id = revisionId ∧ revision.enabled = true ∧ revision.embeddingModel = model := by
  have hmem := List.mem_of_mem_head? h
  simp only [List.mem_flatMap, List.mem_filter, List.mem_map, decide_eq_true_eq, Prod.mk.injEq]
    at hmem
  obtain ⟨_, ⟨hrule, hT, hid⟩, _, ⟨hrev, h1, h2, h3, h4, h5, h6⟩, rfl, rfl⟩ := hmem
  exact ⟨hrule, hT, hid, hrev, h1.trans hT, h2, h3, h4, h5, h6⟩

theorem upsertAlertRuleEmbeddingStatement_steps {now : Timestamp} {id alertRuleId : Uuid}
    {request : AlertRuleEmbeddingUpsertRequest} {o : Option (AlertRuleEmbeddingRow × Bool)}
    (hv : x.validateEmbedding request.embedding = .ok ())
    (h : upsertAlertRuleEmbeddingStatement x now id T alertRuleId request db db = .ok (o, db')) :
    Steps x G T db db' := by
  unfold upsertAlertRuleEmbeddingStatement at h
  split at h
  · obtain ⟨-, rfl⟩ := Prod.mk.inj (Except.ok.inj h)
    exact .refl
  · next rule revision ht =>
    obtain ⟨⟨selected, rows⟩, hi, hrows⟩ := except_bind_eq_ok h
    obtain ⟨-, rfl⟩ := Prod.mk.inj (Except.ok.inj hrows)
    rcases Constraints.insertOrSelect_cases hi with ⟨-, rfl, -⟩ | ⟨-, rfl, ha, -⟩
    · exact .refl
    · obtain ⟨-, -, -, hrev, h1, -, h3, -, h5, h6⟩ := target_some ht
      exact .single (.addAlertEmbedding ha rfl ⟨revision, hrev, rfl, h1, h3, h5, h6⟩ hv)

theorem upsertAlertRuleEmbedding_moves (now : Timestamp) (id alertRuleId : Uuid)
    (request : AlertRuleEmbeddingUpsertRequest) (db : Db) :
    Action.Moves (Steps x G T) (upsertAlertRuleEmbedding x now id T alertRuleId request) db := by
  refine Action.Moves.ofExcept_bind fun _ hv => ?_
  have hv : x.validateEmbedding request.embedding = .ok () := by
    rcases hr : x.validateEmbedding request.embedding with e | u
    · rw [hr] at hv
      cases hv
    · rfl
  refine Action.Moves.bind (Action.Moves.statement fun o d h =>
    upsertAlertRuleEmbeddingStatement_steps hv h) fun o d _ => ?_
  refine Action.Moves.okOr_bind fun wire _ => ?_
  exact Action.Moves.ensure_bind fun _ => .refl

end ReverseMatch

/-! ### Pages -/

/-- An update of pages of the tenant that keeps their identity and the foreign keys. -/
structure Touches (T : Uuid) (db : Db) (f : PageRow → PageRow) : Prop where
  same : ∀ p : PageRow, p.Same (f p)
  others : ∀ p, p.tenantId ≠ T → f p = p
  refs : ∀ p ∈ db.pages, (f p).latestRevisionId = p.latestRevisionId ∨
    pagesTable.refs db (f p) = true

/-- `upserted_page` touches a page or adds one. -/
theorem upsertPage_cases {now fetchedAt : Timestamp} {id sourceId : Uuid} {url : String}
    {page : PageRow} {pages : List PageRow}
    (h : pagesTable.insertOrUpdate PageRow.sameUrl (Store.seenAgain now fetchedAt) db db.pages
      (Store.newPage now id T sourceId url fetchedAt) = .ok (page, pages)) :
    (∃ f, Touches T db f ∧ pages = db.pages.map f) ∨
      (∃ r, pagesTable.Admits db db.pages r ∧ r.tenantId = T ∧ pages = db.pages ++ [r]) := by
  rcases Constraints.insertOrUpdate_cases h with ⟨s, hs, ht, rfl, rfl⟩ | ⟨rfl, rfl, ha, -⟩
  · refine Or.inl ⟨_, ⟨?_, ?_, ?_⟩, rfl⟩
    · intro p
      split_ifs
      · exact ⟨rfl, rfl, rfl, rfl⟩
      · exact PageRow.Same.refl p
    · intro p hp
      rw [if_neg]
      simp only [PageRow.sameUrl, decide_eq_true_eq, not_and]
      intro hT
      exact absurd hT.symm hp
    · intro p _
      left
      split_ifs <;> rfl
  · exact Or.inr ⟨_, ha, rfl, rfl⟩

/-- The page that `upserted_page` returns is in the table, for this source and
URL. -/
theorem upsertPage_page {now fetchedAt : Timestamp} {id sourceId : Uuid} {url : String}
    {page : PageRow} {pages : List PageRow}
    (h : pagesTable.insertOrUpdate PageRow.sameUrl (Store.seenAgain now fetchedAt) db db.pages
      (Store.newPage now id T sourceId url fetchedAt) = .ok (page, pages)) :
    page ∈ pages ∧ page.tenantId = T ∧ page.sourceId = sourceId ∧ page.canonicalUrl = url := by
  rcases Constraints.insertOrUpdate_cases h with ⟨s, hs, ht, rfl, rfl⟩ | ⟨rfl, rfl, -, -⟩
  · obtain ⟨h1, h2, h3⟩ := of_decide_eq_true ht
    exact ⟨List.mem_map.mpr ⟨s, hs, if_pos ht⟩, h1.symm, h2.symm, h3.symm⟩
  · exact ⟨by simp, rfl, rfl, rfl⟩

theorem upsertPage_steps {now fetchedAt : Timestamp} {id sourceId : Uuid} {url : String}
    {page : PageRow} {pages : List PageRow}
    (h : pagesTable.insertOrUpdate PageRow.sameUrl (Store.seenAgain now fetchedAt) db db.pages
      (Store.newPage now id T sourceId url fetchedAt) = .ok (page, pages)) :
    Steps x G T db { db with pages := pages } ∧ page ∈ pages ∧ page.tenantId = T ∧
      page.sourceId = sourceId ∧ page.canonicalUrl = url := by
  refine ⟨?_, upsertPage_page h⟩
  rcases upsertPage_cases h with ⟨f, hf, rfl⟩ | ⟨r, ha, hT, rfl⟩
  · exact .single (.touchPages hf.same hf.others hf.refs)
  · exact .single (.addPage ha hT)

/-- The revision that `selected_revision` returns is in the table, for this page
and this content. -/
theorem insertRevision_steps {row : PageRevisionRow} {p : PageRevisionRow → Bool}
    {o : Option (PageRevisionRow × Bool)} {rows : List PageRevisionRow}
    (hsub : snapshot.pageRevisions ⊆ db.pageRevisions) (hT : row.tenantId = T)
    (hp : ∀ v, p v = true →
      v.tenantId = T ∧ v.pageId = row.pageId ∧ v.contentSha256 = row.contentSha256)
    (hpage : ∃ q ∈ db.pages, q.id = row.pageId ∧ q.tenantId = T)
    (h : pageRevisionsTable.insertOrSelect PageRevisionRow.sameContent p db
      snapshot.pageRevisions db.pageRevisions row = .ok (o, rows)) :
    Steps x G T db { db with pageRevisions := rows } ∧
      ∀ v changed, o = some (v, changed) → v ∈ rows ∧ v.tenantId = T ∧
        v.pageId = row.pageId ∧ v.contentSha256 = row.contentSha256 := by
  rcases Constraints.insertOrSelect_cases h with ⟨ho, rfl, -⟩ | ⟨ho, rfl, ha, -⟩
  · refine ⟨.refl, fun v changed hv => ?_⟩
    rw [ho] at hv
    obtain ⟨w, hw, heq⟩ := Option.map_eq_some_iff.mp hv
    obtain ⟨rfl, -⟩ := Prod.mk.inj heq
    exact ⟨hsub (List.mem_of_find?_eq_some hw), hp w (List.find?_some hw)⟩
  · obtain ⟨q, hq, hid, htenant⟩ := hpage
    refine ⟨.single (.addPageRevision ha hT ⟨q, hq, hid, htenant.trans hT.symm⟩), ?_⟩
    intro v changed hv
    rw [ho] at hv
    obtain ⟨rfl, -⟩ := Prod.mk.inj (Option.some.inj hv)
    exact ⟨by simp, hT, rfl, rfl⟩

theorem knownRevision_spec {tenantId pageId : Uuid} {sha : String} {v : PageRevisionRow}
    (h : Store.knownRevision tenantId pageId sha v = true) :
    v.tenantId = tenantId ∧ v.pageId = pageId ∧ v.contentSha256 = sha := by
  obtain ⟨h1, h2, h3⟩ := of_decide_eq_true h
  exact ⟨h2, h1, h3⟩

namespace Store

theorem selectRevision_steps {now : Timestamp} {id pageId : Uuid} {input : PageIngestRequest}
    {originalUrl finalUrl : String} {o : Option (PageRevisionRow × Bool)}
    (hsub : snapshot.pageRevisions ⊆ db.pageRevisions)
    (hpage : ∃ q ∈ db.pages, q.id = pageId ∧ q.tenantId = T)
    (h : selectRevision x now id T pageId input originalUrl finalUrl snapshot db = .ok (o, db')) :
    Steps x G T db db' ∧ ∀ v changed, o = some (v, changed) →
      v ∈ db'.pageRevisions ∧ v.tenantId = T := by
  unfold selectRevision at h
  simp only at h
  split at h
  · obtain ⟨rfl, rfl⟩ := Prod.mk.inj (Except.ok.inj h)
    refine ⟨.refl, fun v changed hv => ?_⟩
    obtain ⟨w, hw, heq⟩ := Option.map_eq_some_iff.mp hv
    obtain ⟨rfl, -⟩ := Prod.mk.inj heq
    exact ⟨hsub (List.mem_of_find?_eq_some hw), (knownRevision_spec (List.find?_some hw)).1⟩
  · obtain ⟨⟨o', rows⟩, hi, hrows⟩ := except_bind_eq_ok h
    obtain ⟨rfl, rfl⟩ := Prod.mk.inj (Except.ok.inj hrows)
    obtain ⟨hs, hv⟩ := insertRevision_steps (x := x) (G := G) hsub rfl
      (fun v hv => knownRevision_spec hv) hpage hi
    exact ⟨hs, fun v changed ho => ⟨(hv v changed ho).1, (hv v changed ho).2.1⟩⟩

theorem selectEmbedding_steps {now : Timestamp} {id : Uuid} {input : PageIngestRequest}
    {revision : Option (PageRevisionRow × Bool)} {o : Option EmbeddingRow}
    (hrev : ∀ v changed, revision = some (v, changed) → v ∈ db.pageRevisions ∧ v.tenantId = T)
    (hv : x.validateEmbedding input.embedding = .ok ())
    (h : selectEmbedding now id T revision input snapshot db = .ok (o, db')) :
    Steps x G T db db' := by
  unfold selectEmbedding at h
  split at h
  · obtain ⟨-, rfl⟩ := Prod.mk.inj (Except.ok.inj h)
    exact .refl
  · next v changed =>
    obtain ⟨hmem, htenant⟩ := hrev v changed rfl
    obtain ⟨⟨o', rows⟩, hi, hrows⟩ := except_bind_eq_ok h
    obtain ⟨-, rfl⟩ := Prod.mk.inj (Except.ok.inj hrows)
    rcases Constraints.insertOrSelect_cases hi with ⟨-, rfl, -⟩ | ⟨-, rfl, ha, -⟩
    · exact .refl
    · exact .single (.addEmbedding ha rfl ⟨v, hmem, rfl, htenant⟩ hv)

/-- **`updated_page` never updates anything**: the only row it looks for is the
one `upserted_page` has written. -/
theorem updatedPage_ok {now : Timestamp} {pageId : Uuid} {input : PageIngestRequest}
    {revision : Option (PageRevisionRow × Bool)} :
    updatedPage now pageId revision input snapshot db = .ok ([], db) := by
  rcases revision with _ | ⟨v, changed⟩
  · rfl
  · have hnone : updateUnwritten PageRow.id [pageId] (fun p => decide (p.id = pageId))
        (setLatest now input.fetchedAt.timestamptz v.id) snapshot.pages db.pages
          = ([], db.pages) := by
      refine updateUnwritten_of_written fun r _ hr => ?_
      simp [of_decide_eq_true hr]
    simp only [updatedPage, hnone]
    rfl

theorem ingestPageStatement_steps {now : Timestamp} {ids : ℕ → Uuid} {sourceId : Uuid}
    {input : PageIngestRequest} {originalUrl finalUrl : String} {o : Option PageRevision}
    (hv : x.validateEmbedding input.embedding = .ok ())
    (h : ingestPageStatement x now ids T sourceId input originalUrl finalUrl db db
      = .ok (o, db')) : Steps x G T db db' := by
  obtain ⟨⟨page, pages⟩, hpage, h1⟩ := except_bind_eq_ok h
  obtain ⟨⟨revision, d1⟩, hrevision, h2⟩ := except_bind_eq_ok h1
  obtain ⟨⟨embedding, d2⟩, hembedding, h3⟩ := except_bind_eq_ok h2
  obtain ⟨⟨updated, d3⟩, hupdated, h4⟩ := except_bind_eq_ok h3
  obtain ⟨-, rfl⟩ := Prod.mk.inj (Except.ok.inj h4)
  rw [updatedPage_ok] at hupdated
  obtain ⟨-, rfl⟩ := Prod.mk.inj (Except.ok.inj hupdated)
  obtain ⟨hs1, hmem, hT, -, -⟩ := upsertPage_steps (x := x) (G := G) hpage
  have hsub : db.pageRevisions ⊆ ({ db with pages := pages } : Db).pageRevisions :=
    List.Subset.refl _
  obtain ⟨hs2, hrev⟩ := selectRevision_steps (G := G) hsub ⟨page, hmem, rfl, hT⟩ hrevision
  exact (hs1.trans hs2).trans (selectEmbedding_steps hrev hv hembedding)

theorem ingestPage_moves (now : Timestamp) (ids : ℕ → Uuid) (sourceId : Uuid)
    {input : PageIngestRequest} (hv : x.validateEmbedding input.embedding = .ok ())
    (originalUrl finalUrl : String) (db : Db) :
    Action.Moves (Steps x G T) (ingestPage x now ids T sourceId input originalUrl finalUrl) db := by
  refine Action.Moves.bind (Action.Moves.statement fun o d h =>
    ingestPageStatement_steps hv h) fun o d _ => Action.Moves.okOr

end Store

/-! ### Historical candidates -/

namespace Store

/-- What is known about a record of a search: it is what is read of a stored embedding
of the tenant in the model space of the request, with its page revision and its page,
which is similar enough. -/
def Hit (x : Platform) (tenantId : Uuid) (request : EmbeddingSearchRequest) (db : Db)
    (record : SearchRecord) : Prop :=
  ∃ e ∈ db.embeddings, ∃ v ∈ db.pageRevisions, ∃ p ∈ db.pages,
    e.tenantId = tenantId ∧ e.space = request.embedding.toModelSpace ∧
    v.id = e.revisionId ∧ v.tenantId = tenantId ∧ p.id = v.pageId ∧ p.tenantId = tenantId ∧
    (request.sourceIds = [] ∨ p.sourceId ∈ request.sourceIds) ∧
    similarEnough request (searchWire x request e v p) = true ∧
    (searchWire x request e v p).intoRecord x = .ok record

theorem SearchWire.intoRecord_ok {wire : SearchWire} {record : SearchRecord}
    (h : wire.intoRecord x = .ok record) :
    (∃ s : ℚ, wire.similarity = (s : Float8) ∧ record.hit.similarity = x.jsonDouble s) ∧
      (∃ d : ℚ, wire.distance = (d : Float8) ∧ record.hit.distance = x.jsonDouble d) ∧
      record.hit.embeddingId = wire.embeddingId ∧ record.hit.revisionId = wire.revisionId ∧
      record.hit.space = wire.space ∧ record.contentSha256 = wire.contentSha256 := by
  unfold SearchWire.intoRecord at h
  split at h
  · next s d hs hd =>
    obtain rfl := Except.ok.inj h
    exact ⟨⟨s, hs, rfl⟩, ⟨d, hd, rfl⟩, rfl, rfl, rfl, rfl⟩
  · cases h

/-- The similarity of a hit is what is read of one that reaches the minimum. -/
theorem Hit.similarity {tenantId : Uuid} {request : EmbeddingSearchRequest} {record : SearchRecord}
    (h : Hit x tenantId request db record) :
    ∃ e ∈ db.embeddings, e.id = record.hit.embeddingId ∧ ∃ s : ℚ,
      (x.cosineDistance e.embedding request.embedding.values).oneMinus = (s : Float8) ∧
      request.minSimilarity.val ≤ s ∧ record.hit.similarity = x.jsonDouble s := by
  obtain ⟨e, he, v, -, p, -, -, -, -, -, -, -, -, hsimilar, hrecord⟩ := h
  obtain ⟨⟨s, hs, hread⟩, -, hid, -⟩ := SearchWire.intoRecord_ok hrecord
  have hle := of_decide_eq_true hsimilar
  rw [hs] at hle
  exact ⟨e, he, hid.symm, s, hs, WithTop.coe_le_coe.mp hle, hread⟩

/-- It reaches what is read of a single that is at most the minimum. -/
theorem Hit.reaches (hx : x.Lawful) {tenantId : Uuid} {request : EmbeddingSearchRequest}
    {record : SearchRecord} (h : Hit x tenantId request db record) {t : F32}
    (ht : t.val ≤ request.minSimilarity.val) : x.jsonDouble t.val ≤ record.hit.similarity := by
  obtain ⟨e, -, -, s, hs, hle, hread⟩ := h.similarity
  rw [hread]
  exact hx.jsonReaches t _ _ s hs (ht.trans hle)

/-- A hit of a search is a hit of one with a lower minimum. -/
theorem Hit.lower {tenantId : Uuid} {request : EmbeddingSearchRequest} {record : SearchRecord}
    {t : F32} (h : Hit x tenantId { request with minSimilarity := t } db record)
    (ht : request.minSimilarity.val ≤ t.val) : Hit x tenantId request db record := by
  obtain ⟨e, he, v, hv, p, hp, h1, h2, h3, h4, h5, h6, h7, hsimilar, hrecord⟩ := h
  refine ⟨e, he, v, hv, p, hp, h1, h2, h3, h4, h5, h6, h7, decide_eq_true ?_, hrecord⟩
  exact (WithTop.coe_le_coe.mpr ht).trans (of_decide_eq_true hsimilar)

theorem mem_ranked {tenantId : Uuid} {request : EmbeddingSearchRequest} {wire : SearchWire}
    (h : wire ∈ ranked x tenantId request db) :
    ∃ e ∈ db.embeddings, ∃ v ∈ db.pageRevisions, ∃ p ∈ db.pages,
      e.tenantId = tenantId ∧ e.space = request.embedding.toModelSpace ∧
      v.id = e.revisionId ∧ v.tenantId = tenantId ∧ p.id = v.pageId ∧ p.tenantId = tenantId ∧
      (request.sourceIds = [] ∨ p.sourceId ∈ request.sourceIds) ∧
      searchWire x request e v p = wire := by
  simp only [ranked, List.mem_flatMap, List.mem_filter, List.mem_map, decide_eq_true_eq,
    Bool.and_eq_true, Bool.or_eq_true, List.isEmpty_iff, List.contains_iff_mem] at h
  obtain ⟨e, ⟨he, heT, hspace⟩, v, ⟨hv, hid, hvT⟩, p, ⟨hp, ⟨hpid, hpT⟩, hsource⟩, hw⟩ := h
  exact ⟨e, he, v, hv, p, hp, heT, hspace, hid, hvT.trans heT, hpid, (hpT.trans hvT).trans heT,
    hsource, hw⟩

theorem searchEmbeddings_snd (tenantId : Uuid) (request : EmbeddingSearchRequest) (db : Db) :
    (searchEmbeddings x tenantId request db).2 = db := by
  rcases hm : (searchRows x tenantId request db).mapM (SearchWire.intoRecord x) with e | records
  · simp [searchEmbeddings, hm]
  · simp [searchEmbeddings, hm]

/-- **The records of a search are hits**, at most as many as the limit. -/
theorem searchEmbeddings_ok {tenantId : Uuid} {request : EmbeddingSearchRequest}
    {page : SearchPage} (h : searchEmbeddings x tenantId request db = (.ok page, db')) :
    db' = db ∧ page.records.length ≤ request.limit ∧
      ∀ record ∈ page.records, Hit x tenantId request db record := by
  obtain ⟨rows, s1, hq, h1⟩ := Action.bind_eq_ok h
  obtain ⟨hrows, rfl⟩ := Prod.mk.inj hq
  obtain rfl := Except.ok.inj hrows
  obtain ⟨records, s2, hm, h2⟩ := Action.bind_eq_ok h1
  obtain ⟨hmap, rfl⟩ := Prod.mk.inj hm
  obtain ⟨hpage, rfl⟩ := Prod.mk.inj h2
  obtain rfl := Except.ok.inj hpage
  refine ⟨rfl, ?_, ?_⟩
  · by_cases hmore : records.length > request.limit
    · simp [hmore]
    · simp only [hmore, decide_false, Bool.false_eq_true, if_false]
      omega
  · intro record hrecord
    have hmem : record ∈ records := by
      simp only at hrecord
      split_ifs at hrecord
      · exact List.mem_of_mem_take hrecord
      · exact hrecord
    obtain ⟨wire, hwire, hdecode⟩ := exists_of_mem_mapM hmap hmem
    have hwire := List.mem_of_mem_take hwire
    rw [List.mem_insertionSort, List.mem_filter, List.mem_filter] at hwire
    obtain ⟨⟨hranked, hsimilar⟩, -⟩ := hwire
    obtain ⟨e, he, v, hv, p, hp, h1, h2, h3, h4, h5, h6, h7, rfl⟩ := mem_ranked hranked
    exact ⟨e, he, v, hv, p, hp, h1, h2, h3, h4, h5, h6, h7, hsimilar, hdecode⟩

/-- The revision is one of the rule, in its tenant. -/
def Owned (tenantId alertRuleId alertRuleRevisionId : Uuid) (db : Db) : Prop :=
  ∃ v ∈ db.alertRuleRevisions, v.id = alertRuleRevisionId ∧ v.tenantId = tenantId ∧
    v.alertRuleId = alertRuleId

/-- A hit is the identity of a candidate. -/
theorem Hit.identifies {request : EmbeddingSearchRequest} {record : SearchRecord}
    (h : Hit x T request db record) {alertRuleId alertRuleRevisionId : Uuid}
    (howned : Owned T alertRuleId alertRuleRevisionId db) (now : Timestamp) (id : Uuid)
    (threshold : ℚ) :
    Identifies x db (newCandidate x now id T alertRuleId alertRuleRevisionId threshold record)
      (matchIdentity T alertRuleId alertRuleRevisionId record) := by
  obtain ⟨e, he, v, hv, p, hp, heT, hspace, hid, hvT, hpid, hpT, -, -, hw⟩ := h
  obtain ⟨-, -, h1, h2, h3, h4⟩ := SearchWire.intoRecord_ok hw
  have h1 : record.hit.embeddingId = e.id := h1
  have h2 : record.hit.revisionId = v.id := h2
  have h3 : record.hit.space = e.space := h3
  have h4 : record.contentSha256 = v.contentSha256 := h4
  refine ⟨rfl, rfl, rfl, rfl, rfl, howned, ⟨v, hv, h2.symm, hvT, h4.symm⟩,
    ⟨rfl, e, he, ?_, heT, ?_, h3.symm⟩, rfl⟩
  · exact congrArg some h1
  · exact hid.symm.trans h2.symm

theorem upsertMatch_ok {row : MatchCandidateRow} {o : Option (MatchCandidateRow × Bool)}
    (h : upsertMatch row snapshot db = .ok (o, db')) :
    (o = (snapshot.matchCandidates.find? (sameHistorical row)).map (fun s => (s, false)) ∧
        db' = db ∧ ∃ s ∈ db.matchCandidates, row.sameMatchKey s = true) ∨
      (o = some (row, true) ∧
        db' = { db with matchCandidates := db.matchCandidates ++ [row] } ∧
        matchCandidatesTable.Admits db db.matchCandidates row ∧
        ∀ s ∈ db.matchCandidates, row.sameMatchKey s = false) := by
  obtain ⟨⟨o', rows⟩, hi, hrows⟩ := except_bind_eq_ok h
  obtain ⟨rfl, rfl⟩ := Prod.mk.inj (Except.ok.inj hrows)
  rcases Constraints.insertOrSelect_cases hi with ⟨ho, rfl, ht⟩ | ⟨ho, rfl, ha, ht⟩
  · exact Or.inl ⟨ho, rfl, ht⟩
  · exact Or.inr ⟨ho, rfl, ha, ht⟩

theorem evaluateMatches_moves {clock : ℕ → Timestamp} {ids : ℕ → Uuid}
    {alertRuleId alertRuleRevisionId : Uuid} {threshold : ℚ} {search : EmbeddingSearchRequest}
    {db : Db} (howned : Owned T alertRuleId alertRuleRevisionId db)
    (hG : ∀ d, Grows db d → ∀ record,
      Hit x T { search with
        minSimilarity := F32.max search.minSimilarity (F32.ofRat threshold) } db record →
      ∀ now id, G d (newCandidate x now id T alertRuleId alertRuleRevisionId threshold record)) :
    Action.Moves (Steps x G T)
      (evaluateMatches x clock ids T alertRuleId alertRuleRevisionId threshold search) db := by
  refine Action.Moves.bind (Action.Moves.of_same (searchEmbeddings_snd _ _ _)) fun page d hpage => ?_
  obtain ⟨rfl, -, hhit⟩ := searchEmbeddings_ok hpage
  refine Action.Moves.forEach _ _ fun record hrecord s hs => ?_
  have hhit := hhit record.1 (List.fst_mem_of_mem_zipIdx hrecord)
  refine Action.Moves.bind (Action.Moves.statement fun o d' h => ?_) fun o d' _ =>
    Action.Moves.okOr_bind fun _ _ => .refl
  rcases upsertMatch_ok h with ⟨-, rfl, -⟩ | ⟨-, rfl, ha, -⟩
  · exact .refl
  · exact .single (.addCandidate ha rfl ⟨_, (hhit.identifies howned _ _ _).mono hs.grows⟩
      (hG s hs.grows record.1 hhit _ _))

end Store

/-! ### Reverse candidates -/

namespace ReverseMatch

/-- The page revision a request was stored as. -/
def PageOf (tenantId sourceId : Uuid) (page : PageWire) (db : Db) : Prop :=
  ∃ v ∈ db.pageRevisions, v.id = page.pageRevisionId ∧ v.tenantId = tenantId ∧
    v.contentSha256 = page.contentSha256 ∧
    ∃ p ∈ db.pages, p.id = v.pageId ∧ p.tenantId = tenantId ∧ p.sourceId = sourceId

theorem PageOf.mono {sourceId : Uuid} {page : PageWire} (h : PageOf T sourceId page db)
    (hg : Grows db db') : PageOf T sourceId page db' := by
  obtain ⟨v, hv, h1, h2, h3, p, hp, h4, h5, h6⟩ := h
  obtain ⟨q, hq, hpq⟩ := hg.pages p hp
  exact ⟨v, hg.pageRevisions hv, h1, h2, h3, q, hq, hpq.id.trans h4, hpq.tenantId.trans h5,
    hpq.sourceId.trans h6⟩

theorem upsertPageRevisionStatement_steps {now : Timestamp} {ids : ℕ → Uuid} {sourceId : Uuid}
    {request : ReverseAlertPageRequest} {originalUrl finalUrl : String} {o : Option PageWire}
    (h : upsertPageRevisionStatement x now ids T sourceId request originalUrl finalUrl db db
      = .ok (o, db')) :
    Steps x G T db db' ∧ ∀ page, o = some page → PageOf T sourceId page db' := by
  obtain ⟨⟨page, pages⟩, hpage, h1⟩ := except_bind_eq_ok h
  obtain ⟨⟨revision, rows⟩, hrevision, h2⟩ := except_bind_eq_ok h1
  obtain ⟨rfl, rfl⟩ := Prod.mk.inj (Except.ok.inj h2)
  obtain ⟨hs1, hmem, hT, hsource, -⟩ := upsertPage_steps (x := x) (G := G) hpage
  have hsub : db.pageRevisions ⊆ ({ db with pages := pages } : Db).pageRevisions :=
    List.Subset.refl _
  obtain ⟨hs2, hrev⟩ := insertRevision_steps (x := x) (G := G) (T := T) hsub rfl
    (fun v hv => knownRevision_spec hv) ⟨page, hmem, rfl, hT⟩ hrevision
  refine ⟨hs1.trans hs2, fun wire hwire => ?_⟩
  obtain ⟨⟨v, changed⟩, ho, rfl⟩ := Option.map_eq_some_iff.mp hwire
  obtain ⟨hv, hvT, hvpage, hvsha⟩ := hrev v changed ho
  exact ⟨v, hv, rfl, hvT, hvsha, page, hmem, hvpage.symm, hT, hsource⟩

theorem setLatestRevision_ok {now fetchedAt : Timestamp} {page : PageWire} {u : Unit}
    (h : setLatestRevision now fetchedAt T page snapshot db = .ok (u, db')) :
    ∃ f, Touches T db f ∧ db' = { db with pages := db.pages.map f } := by
  unfold setLatestRevision at h
  simp only at h
  split at h
  · next hrefs =>
    obtain ⟨-, rfl⟩ := Prod.mk.inj (Except.ok.inj h)
    refine ⟨_, ⟨?_, ?_, ?_⟩, rfl⟩
    · intro p
      split_ifs
      · exact ⟨rfl, rfl, rfl, rfl⟩
      · exact PageRow.Same.refl p
    · intro p hp
      rw [if_neg]
      simp [hp]
    · intro p hp
      split_ifs with hhit
      · exact Or.inr (List.all_eq_true.mp hrefs p (List.mem_filter.mpr ⟨hp, hhit⟩))
      · exact Or.inl rfl
  · cases h

theorem setLatestRevision_steps {now fetchedAt : Timestamp} {page : PageWire} {u : Unit}
    (h : setLatestRevision now fetchedAt T page snapshot db = .ok (u, db')) :
    Steps x G T db db' := by
  obtain ⟨f, hf, rfl⟩ := setLatestRevision_ok h
  exact .single (.touchPages hf.same hf.others hf.refs)

theorem upsertPageRevision_moves (now : Timestamp) (ids : ℕ → Uuid) (sourceId : Uuid)
    (request : ReverseAlertPageRequest) (originalUrl finalUrl : String) (db : Db) :
    Action.Moves (Steps x G T)
      (upsertPageRevision x now ids T sourceId request originalUrl finalUrl) db := by
  refine Action.Moves.bind (Action.Moves.statement fun o d h =>
    (upsertPageRevisionStatement_steps h).1) fun o d _ => ?_
  refine Action.Moves.okOr_bind fun page _ => ?_
  refine Action.Moves.bind (Action.Moves.statement fun u d h => setLatestRevision_steps h) ?_
  intro _ _ _
  exact .refl

theorem upsertPageRevision_ok {now : Timestamp} {ids : ℕ → Uuid} {sourceId : Uuid}
    {request : ReverseAlertPageRequest} {originalUrl finalUrl : String} {page : PageWire}
    (h : upsertPageRevision x now ids T sourceId request originalUrl finalUrl db
      = (.ok page, db')) : PageOf T sourceId page db' := by
  obtain ⟨o, s1, hrow, h1⟩ := Action.bind_eq_ok h
  obtain ⟨page', s2, hpage, h2⟩ := Action.bind_eq_ok h1
  obtain ⟨_, s3, hset, h3⟩ := Action.bind_eq_ok h2
  obtain ⟨hp, rfl⟩ := Prod.mk.inj h3
  obtain rfl := Except.ok.inj hp
  cases o with
  | none => cases hpage
  | some page'' =>
    obtain ⟨hp', rfl⟩ := Prod.mk.inj hpage
    obtain rfl := Except.ok.inj hp'
    have hstored := (upsertPageRevisionStatement_steps (G := fun _ _ => True)
      (execute_eq_ok hrow)).2 _ rfl
    exact hstored.mono (setLatestRevision_steps (x := x) (G := fun _ _ => True)
      (execute_eq_ok hset)).grows

/-- Storing the page touches the two page tables only. -/
theorem upsertPageRevision_frame {now : Timestamp} {ids : ℕ → Uuid} {sourceId : Uuid}
    {request : ReverseAlertPageRequest} {originalUrl finalUrl : String} {page : PageWire}
    (h : upsertPageRevision x now ids T sourceId request originalUrl finalUrl db
      = (.ok page, db')) :
    ∃ pages revisions, db' = { db with pages := pages, pageRevisions := revisions } := by
  obtain ⟨o, s1, hrow, h1⟩ := Action.bind_eq_ok h
  obtain ⟨page', s2, hpage, h2⟩ := Action.bind_eq_ok h1
  obtain ⟨_, s3, hset, h3⟩ := Action.bind_eq_ok h2
  obtain ⟨-, rfl⟩ := Prod.mk.inj h3
  obtain ⟨⟨p, pages⟩, -, hp⟩ := except_bind_eq_ok (execute_eq_ok hrow)
  obtain ⟨⟨revision, revisions⟩, -, hr⟩ := except_bind_eq_ok hp
  obtain ⟨-, rfl⟩ := Prod.mk.inj (Except.ok.inj hr)
  cases o with
  | none => cases hpage
  | some page'' =>
    obtain ⟨-, rfl⟩ := Prod.mk.inj hpage
    obtain ⟨f, -, rfl⟩ := setLatestRevision_ok (execute_eq_ok hset)
    exact ⟨_, revisions, rfl⟩

/-- What is known about a rule that a page vector has reached. -/
def Reached (x : Platform) (tenantId sourceId : Uuid) (embedding : EmbeddingPayload) (db : Db)
    (wire : CandidateWire) : Prop :=
  ∃ a ∈ db.alertRuleEmbeddings, ∃ rule ∈ db.alertRules, ∃ v ∈ db.alertRuleRevisions,
    a.tenantId = tenantId ∧ a.space = embedding.toModelSpace ∧
    rule.tenantId = tenantId ∧ rule.id = a.alertRuleId ∧
    rule.activeRevisionId = some a.alertRuleRevisionId ∧
    v.tenantId = tenantId ∧ v.id = a.alertRuleRevisionId ∧ v.alertRuleId = a.alertRuleId ∧
    v.enabled = true ∧ v.embeddingModel = embedding.model ∧ inScope v sourceId = true ∧
    wire.alertRuleId = a.alertRuleId ∧ wire.alertRuleRevisionId = a.alertRuleRevisionId ∧
    wire.alertEmbeddingId = a.id ∧ wire.threshold = x.jsonDouble v.similarityThreshold.val ∧
    ∃ s : ℚ, (x.cosineDistance a.embedding embedding.values).oneMinus = (s : Float8) ∧
      v.similarityThreshold.val ≤ s ∧ wire.similarity = x.jsonDouble s

theorem mem_reachedAlerts {sourceId : Uuid} {embedding : EmbeddingPayload} {alert : AlertDistance}
    {wire : CandidateWire} (h : alert ∈ reachedAlerts x T sourceId embedding db)
    (hw : alert.intoWire x = .ok wire) : Reached x T sourceId embedding db wire := by
  simp only [reachedAlerts, List.mem_flatMap, List.mem_filter, List.mem_map, decide_eq_true_eq,
    Bool.and_eq_true] at h
  obtain ⟨a, ⟨ha, haT, hspace⟩, rule, ⟨hrule, hruleT, hruleId, hactive⟩, v,
    ⟨hv, ⟨hvT, hvId, hvRule, hen, hmodel, hle⟩, hscope⟩, rfl⟩ := h
  unfold AlertDistance.intoWire at hw
  split at hw
  · next similarity hsim =>
    obtain rfl := Except.ok.inj hw
    have hsim : (x.cosineDistance a.embedding embedding.values).oneMinus = (similarity : Float8) :=
      hsim
    rw [hsim] at hle
    exact ⟨a, ha, rule, hrule, v, hv, haT, hspace, hruleT.trans haT, hruleId, hactive,
      hvT.trans haT, hvId, hvRule, hen, hmodel, hscope, rfl, rfl, rfl, rfl, similarity, hsim,
      WithTop.coe_le_coe.mp hle, rfl⟩
  · cases hw

/-- The rule is still reached once its row is read: the second check, in Rust, removes
nothing. -/
theorem Reached.threshold_le (hx : x.Lawful) {sourceId : Uuid} {embedding : EmbeddingPayload}
    {wire : CandidateWire} (h : Reached x T sourceId embedding db wire) :
    wire.threshold ≤ wire.similarity := by
  obtain ⟨a, -, rule, -, v, -, -, -, -, -, -, -, -, -, -, -, -, -, -, -, hthreshold, s, hs, hle,
    hsimilarity⟩ := h
  rw [hthreshold, hsimilarity]
  exact hx.jsonReaches v.similarityThreshold _ _ s hs hle

/-- The row of a rule that was reached. -/
theorem Reached.alert {sourceId : Uuid} {embedding : EmbeddingPayload} {wire : CandidateWire}
    (h : Reached x T sourceId embedding db wire) :
    ∃ alert ∈ reachedAlerts x T sourceId embedding db, ∃ v ∈ db.alertRuleRevisions,
      v.id = wire.alertRuleRevisionId ∧ alert.threshold = v.similarityThreshold.val ∧
      wire.threshold = x.jsonDouble alert.threshold := by
  obtain ⟨a, ha, rule, hrule, v, hv, haT, hspace, hruleT, hruleId, hactive, hvT, hvId, hvRule, hen,
    hmodel, hscope, -, hrev, -, hthreshold, s, hs, hle, -⟩ := h
  refine ⟨⟨a.alertRuleId, a.alertRuleRevisionId, a.id,
    x.cosineDistance a.embedding embedding.values, v.similarityThreshold.val⟩, ?_, v, hv,
    hvId.trans hrev.symm, rfl, hthreshold⟩
  simp only [reachedAlerts, List.mem_flatMap, List.mem_filter, List.mem_map, decide_eq_true_eq,
    Bool.and_eq_true]
  refine ⟨a, ⟨ha, haT, hspace⟩, rule, ⟨hrule, hruleT.trans haT.symm, hruleId, hactive⟩, v,
    ⟨hv, ⟨hvT.trans haT.symm, hvId, hvRule, hen, hmodel, ?_⟩, hscope⟩, rfl⟩
  rw [hs]
  exact WithTop.coe_le_coe.mpr hle

theorem findAlertCandidates_snd (tenantId sourceId : Uuid) (request : ReverseAlertPageRequest)
    (db : Db) : (findAlertCandidates x tenantId sourceId request db).2 = db := rfl

theorem findAlertCandidates_ok {sourceId : Uuid} {request : ReverseAlertPageRequest}
    {wires : List CandidateWire}
    (h : findAlertCandidates x T sourceId request db = (.ok wires, db')) :
    db' = db ∧ ∀ wire ∈ wires, Reached x T sourceId request.embedding db wire := by
  obtain ⟨hm, rfl⟩ := Prod.mk.inj h
  refine ⟨rfl, fun wire hwire => ?_⟩
  obtain ⟨alert, halert, hw⟩ := exists_of_mem_mapM hm hwire
  have halert := List.mem_of_mem_take halert
  rw [List.mem_insertionSort] at halert
  exact mem_reachedAlerts halert hw

/-- A reached rule and a stored page revision are the identity of a candidate. -/
theorem Reached.identifies {sourceId : Uuid} {embedding : EmbeddingPayload} {wire : CandidateWire}
    {page : PageWire} (h : Reached x T sourceId embedding db wire)
    (hpage : PageOf T sourceId page db) (now : Timestamp) (id : Uuid) (url : String) :
    Identifies x db (newCandidate x now id T page embedding url wire)
      (matchIdentity T page embedding.toModelSpace wire) := by
  obtain ⟨a, ha, rule, hrule, v, hv, haT, hspace, -, -, -, hvT, hvid, hvrule, -, -, -, h1, h2, h3,
    -, -⟩ := h
  obtain ⟨w, hw, hid, hwT, hsha, -⟩ := hpage
  refine ⟨rfl, rfl, rfl, rfl, rfl, ⟨v, hv, hvid.trans h2.symm, hvT, hvrule.trans h1.symm⟩,
    ⟨w, hw, hid, hwT, hsha⟩, ⟨rfl, rfl, a, ha, ?_, haT, ?_, ?_, hspace⟩, rfl⟩
  · exact congrArg some h3
  · exact h1.symm
  · exact congrArg some h2

theorem persistStatement_ok {sha : String} {row : MatchCandidateRow}
    {o : Option (MatchCandidateRow × Bool)}
    (h : persistStatement sha row snapshot db = .ok (o, db')) :
    (o = (snapshot.matchCandidates.find? (sameEvidence sha snapshot row)).map
          (fun s => (s, false)) ∧
        db' = db ∧ ∃ s ∈ db.matchCandidates, row.sameMatchKey s = true) ∨
      (o = some (row, true) ∧
        db' = { db with matchCandidates := db.matchCandidates ++ [row] } ∧
        matchCandidatesTable.Admits db db.matchCandidates row ∧
        ∀ s ∈ db.matchCandidates, row.sameMatchKey s = false) := by
  obtain ⟨⟨o', rows⟩, hi, hrows⟩ := except_bind_eq_ok h
  obtain ⟨rfl, rfl⟩ := Prod.mk.inj (Except.ok.inj hrows)
  rcases Constraints.insertOrSelect_cases hi with ⟨ho, rfl, ht⟩ | ⟨ho, rfl, ha, ht⟩
  · exact Or.inl ⟨ho, rfl, ht⟩
  · exact Or.inr ⟨ho, rfl, ha, ht⟩

theorem ingestAndReverseMatch_moves {now : Timestamp} {ids : ℕ → Uuid} {sourceId : Uuid}
    {request : ReverseAlertPageRequest} {originalUrl finalUrl : String} {db : Db}
    (hG : ∀ d d', Grows db d → Grows d d' → ∀ page wire, PageOf T sourceId page d →
      Reached x T sourceId request.embedding db wire →
      Reached x T sourceId request.embedding d wire →
      ∀ id, G d' (newCandidate x now id T page request.embedding finalUrl wire)) :
    Action.Moves (Steps x G T)
      (ingestAndReverseMatch x now ids T sourceId request originalUrl finalUrl) db := by
  refine Action.Moves.ofExcept_bind fun _ _ => Action.Moves.transaction ?_
  have hmove := upsertPageRevision_moves (x := x) (G := G) (T := T) now ids sourceId request
    originalUrl finalUrl db
  refine Action.Moves.bind hmove fun page d hpage => ?_
  have hgrow : Grows db d := by
    rw [Action.Moves, hpage] at hmove
    exact Steps.grows hmove
  -- the rules are not read from the tables that storing the page touches
  obtain ⟨pages, revisions, rfl⟩ := upsertPageRevision_frame hpage
  have hpage := upsertPageRevision_ok hpage
  refine Action.Moves.bind (Action.Moves.of_same (findAlertCandidates_snd _ _ _ _))
    fun wires d1 hwires => ?_
  obtain ⟨rfl, hreached⟩ := findAlertCandidates_ok hwires
  refine Action.Moves.bind (Action.Moves.forEach _ _ fun candidate hcandidate s hs => ?_)
    fun _ _ _ => .refl
  have hwire := hreached candidate.1
    (List.mem_of_mem_filter (List.fst_mem_of_mem_zipIdx hcandidate))
  refine Action.Moves.bind (Action.Moves.statement fun o d' h => ?_) fun o d' _ =>
    Action.Moves.okOr_bind fun _ _ => .refl
  rcases persistStatement_ok h with ⟨-, rfl, -⟩ | ⟨-, rfl, ha, -⟩
  · exact .refl
  · exact .single (.addCandidate ha rfl
      ⟨_, (hwire.identifies hpage _ _ _).mono (Steps.grows hs)⟩
      (hG _ s hgrow (Steps.grows hs) page candidate.1 hpage hwire hwire _))

end ReverseMatch

end EmbeddedAlerts
