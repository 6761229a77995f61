import EmbeddedAlerts.Twins

/-!
# Tenants do not interfere

The requests that write pages and candidates, and then every request, on twins.

Some keys and joins do not name the tenant.  What they find is a row of `T` all the
same.

* The page that `upserted_page` returns is one of `T`, and every row with its id is
  this page (`Twins.upsertPage`).
* `source_id` comes from a source that the route has found for `T`, `page_id` from that
  page, and `revision_id`, `latest_revision_id` and the predecessor from revisions that
  are in both stores.
* A candidate rests on a page revision and an embedding that a query of `T` has found.

* `Call.twins`: **a request gives the same answer on twins, and leaves twins.**
* `tenants_do_not_interfere`: for stores that are reached, with the rows of the others,
  which the request leaves alone.
-/

namespace EmbeddedAlerts

open Sql

variable {x : Platform} {T : Uuid} {ids : ℕ → Uuid} {rest rest' s t s' t' : Db}

theorem any_id {ρ : Type} {id : ρ → Uuid} {l : List ρ} {r : ρ} (h : r ∈ l) :
    l.any (fun w => decide (id w = id r)) = true :=
  List.any_eq_true.mpr ⟨r, h, decide_eq_true rfl⟩

/-! ### Pages -/

/-- `inserted_revision` writes revisions only. -/
theorem Store.selectRevision_embeddings {now : Timestamp} {id pageId : Uuid}
    {input : PageIngestRequest} {originalUrl finalUrl : String}
    {o : Option (PageRevisionRow × Bool)}
    (h : Store.selectRevision x now id T pageId input originalUrl finalUrl s t = .ok (o, t')) :
    t'.embeddings = t.embeddings := by
  unfold Store.selectRevision at h
  simp only at h
  split at h
  · obtain ⟨-, rfl⟩ := Prod.mk.inj (Except.ok.inj h)
    rfl
  · obtain ⟨⟨o', rows⟩, -, hrows⟩ := except_bind_eq_ok h
    obtain ⟨-, rfl⟩ := Prod.mk.inj (Except.ok.inj hrows)
    rfl

/-- The foreign key of a stored page. -/
theorem Db.Valid.latestRevision {db : Db} (h : db.Valid) {p : PageRow} (hp : p ∈ db.pages) :
    p.latestRevisionId.all (fun v => db.pageRevisions.any fun r => decide (r.id = v)) = true :=
  (Bool.and_eq_true _ _ ▸ h.pages.refs p hp).2

theorem upsertPage_writes {now fetchedAt : Timestamp} {id sourceId : Uuid} {url : String}
    {page : PageRow} {pages : List PageRow}
    (h : pagesTable.insertOrUpdate PageRow.sameUrl (Store.seenAgain now fetchedAt) s s.pages
      (Store.newPage now id T sourceId url fetchedAt) = .ok (page, pages)) :
    Writes T s { s with pages := pages } := by
  rcases upsertPage_cases h with ⟨f, hf, rfl⟩ | ⟨r, ha, hT, rfl⟩
  · exact .single (.touchPages hf.same hf.others hf.refs)
  · exact .single (.addPage ha hT)

theorem selectEmbedding_writes {now : Timestamp} {id : Uuid} {input : PageIngestRequest}
    {revision : Option (PageRevisionRow × Bool)} {o : Option EmbeddingRow}
    (h : Store.selectEmbedding now id T revision input s t = .ok (o, t')) : Writes T t t' := by
  unfold Store.selectEmbedding at h
  split at h
  · obtain ⟨-, rfl⟩ := Prod.mk.inj (Except.ok.inj h)
    exact .refl
  · obtain ⟨⟨o', rows⟩, hi, hrows⟩ := except_bind_eq_ok h
    obtain ⟨-, rfl⟩ := Prod.mk.inj (Except.ok.inj hrows)
    exact insertOrSelect_writes (fun rows => { t with embeddings := rows }) rfl
      (fun ha => .addEmbedding ha rfl) hi

section Pages

variable (h : Twins T ids rest rest' s t) {now : Timestamp}

include h

/-- The page of a source of the tenant. -/
theorem Twins.upsertPage {sourceId : Uuid} (n : ℕ) (url : String) (fetchedAt : Timestamp)
    (hs : ∃ r ∈ s.sources, r.id = sourceId) (ht : ∃ r ∈ t.sources, r.id = sourceId) :
    Outcome (fun pages pages' => Twins T ids rest rest' { s with pages := pages } { t with pages := pages' })
      (pagesTable.insertOrUpdate PageRow.sameUrl (Store.seenAgain now fetchedAt) s s.pages
        (Store.newPage now (ids n) T sourceId url fetchedAt))
      (pagesTable.insertOrUpdate PageRow.sameUrl (Store.seenAgain now fetchedAt) t t.pages
        (Store.newPage now (ids n) T sourceId url fetchedAt)) := by
  have hrefs : ∀ {u : Db}, (∃ r ∈ u.sources, r.id = sourceId) →
      pagesTable.refs u (Store.newPage now (ids n) T sourceId url fetchedAt) = true := by
    rintro u ⟨r, hr, rfl⟩
    exact (Bool.and_true _).trans (any_id hr)
  refine .mono ((h.pages rfl rfl ((hrefs hs).trans (hrefs ht).symm)).insertOrUpdate
    (fun w hw => ?_) (fun a ha b hb hpa hpb => ?_) fun w hw => hw)
    fun page pages pages' hl hr hpages => ?_
  · exact (Bool.or_eq_true _ _).mpr (Or.inr hw)
  · obtain ⟨ha1, ha2, ha3⟩ := of_decide_eq_true hpa
    obtain ⟨hb1, hb2, hb3⟩ := of_decide_eq_true hpb
    refine h.left.valid.page_eq_of_url ha hb (decide_eq_true ?_)
    exact ⟨ha1.symm.trans hb1, ha2.symm.trans hb2, ha3.symm.trans hb3⟩
  · exact ⟨{ h.agree with pages := hpages }, h.left.writes (upsertPage_writes hl),
      h.right.writes (upsertPage_writes hr)⟩

/-- A page that `upserted_page` has returned. -/
theorem Twins.find_page {pages pages' : List PageRow} {page : PageRow}
    (h' : Twins T ids rest rest' { s with pages := pages } { t with pages := pages' })
    (hgrows : Grows s { s with pages := pages }) (hgrows' : Grows t { t with pages := pages' })
    (hs : page ∈ pages) (ht : page ∈ pages') (hT : page.tenantId = T) :
    s.pages.find? (fun p => decide (p.id = page.id))
      = t.pages.find? fun p => decide (p.id = page.id) := by
  have hown : ∀ {u : Db} {rows : List PageRow}, Grows u { u with pages := rows } →
      ({ u with pages := rows } : Db).Valid → page ∈ rows →
      ∀ p ∈ u.pages, decide (p.id = page.id) = true → p.tenantId = T := by
    intro u rows hgrows hvalid hpage p hp hid
    obtain ⟨q, hq, hpq⟩ := hgrows.pages p hp
    obtain rfl := hvalid.page_eq hq hpage (hpq.id.trans (of_decide_eq_true hid))
    exact hpq.tenantId.symm.trans hT
  refine h.agree.pages.find? (hown hgrows h'.left.valid hs) (hown hgrows' h'.right.valid ht)
    fun a ha b hb hpa hpb => ?_
  exact h.left.valid.page_eq ha hb ((of_decide_eq_true hpa).trans (of_decide_eq_true hpb).symm)

/-- A revision of the tenant with this content. -/
theorem Twins.find_revision (pageId : Uuid) (sha : String) :
    s.pageRevisions.find? (Store.knownRevision T pageId sha)
      = t.pageRevisions.find? (Store.knownRevision T pageId sha) := by
  refine h.agree.pageRevisions.find? (fun r _ hr => (knownRevision_spec hr).1)
    (fun r _ hr => (knownRevision_spec hr).1) fun a ha b hb hpa hpb => ?_
  obtain ⟨ha1, ha2, ha3⟩ := knownRevision_spec hpa
  obtain ⟨hb1, hb2, hb3⟩ := knownRevision_spec hpb
  refine h.left.valid.pageRevision_eq_of_content ha hb (decide_eq_true ?_)
  exact ⟨ha1.trans hb1.symm, ha2.trans hb2.symm, ha3.trans hb3.symm⟩

/-- `inserted_revision` and `selected_revision`, for a page and a predecessor that are in
both stores. -/
theorem Twins.insertRevision {page : PageRow} {predecessor : Option Uuid} (n : ℕ)
    (input : PageIngestRequest) (originalUrl finalUrl : String)
    (hs : page ∈ s.pages) (ht : page ∈ t.pages)
    (hps : predecessor.all (fun v => s.pageRevisions.any fun r => decide (r.id = v)) = true)
    (hpt : predecessor.all (fun v => t.pageRevisions.any fun r => decide (r.id = v)) = true) :
    Outcome (fun rows rows' =>
        Twins T ids rest rest' { s with pageRevisions := rows } { t with pageRevisions := rows' })
      (pageRevisionsTable.insertOrSelect PageRevisionRow.sameContent
        (Store.knownRevision T page.id (Store.contentSha256 x input.contentText)) s
        s.pageRevisions s.pageRevisions (Store.newPageRevision x now (ids n) T page.id predecessor
          input originalUrl finalUrl))
      (pageRevisionsTable.insertOrSelect PageRevisionRow.sameContent
        (Store.knownRevision T page.id (Store.contentSha256 x input.contentText)) t
        t.pageRevisions t.pageRevisions (Store.newPageRevision x now (ids n) T page.id predecessor
          input originalUrl finalUrl)) := by
  have hrefs : pageRevisionsTable.refs s (Store.newPageRevision x now (ids n) T page.id predecessor
        input originalUrl finalUrl)
      = pageRevisionsTable.refs t (Store.newPageRevision x now (ids n) T page.id predecessor
        input originalUrl finalUrl) :=
    congrArg₂ and ((any_id hs).trans (any_id ht).symm) (hps.trans hpt.symm)
  refine .mono ((h.pageRevisions rfl rfl hrefs).insertOrSelect (fun w hw => ?_)
    (h.find_revision page.id _)) fun o rows rows' hl hr hrows => ?_
  · exact (Bool.or_eq_true _ _).mpr (Or.inr hw)
  · have hleft := insertOrSelect_writes (fun rows => { s with pageRevisions := rows }) rfl
      (fun ha => .addPageRevision ha rfl) hl
    have hright := insertOrSelect_writes (fun rows => { t with pageRevisions := rows }) rfl
      (fun ha => .addPageRevision ha rfl) hr
    exact ⟨{ h.agree with pageRevisions := hrows }, h.left.writes hleft, h.right.writes hright⟩

/-- `inserted_embedding` and `selected_embedding`, for a revision that is in both
stores. -/
theorem Twins.selectEmbedding {revision : Option (PageRevisionRow × Bool)} (n : ℕ)
    (input : PageIngestRequest)
    (hs : ∀ v changed, revision = some (v, changed) → v ∈ s.pageRevisions)
    (ht : ∀ v changed, revision = some (v, changed) → v ∈ t.pageRevisions)
    {u w : Db} (hu : u.embeddings = s.embeddings) (hw : w.embeddings = t.embeddings) :
    Outcome (Twins T ids rest rest') (Store.selectEmbedding now (ids n) T revision input u s)
      (Store.selectEmbedding now (ids n) T revision input w t) := by
  refine h.outcome ?_ (fun _ _ => selectEmbedding_writes) fun _ _ => selectEmbedding_writes
  rcases revision with _ | ⟨v, changed⟩
  · exact .ok h.agree
  have hrefs : embeddingsTable.refs s (Store.newEmbedding now (ids n) T v.id input)
      = embeddingsTable.refs t (Store.newEmbedding now (ids n) T v.id input) :=
    (any_id (hs v changed rfl)).trans (any_id (ht v changed rfl)).symm
  refine .bind ((h.embeddings rfl rfl hrefs).insertOrSelect (fun r hr => ?_) ?_)
    fun o rows rows' _ _ hrows => .ok { h.agree with embeddings := hrows }
  · exact (Bool.or_eq_true _ _).mpr (Or.inr hr)
  · rw [hu, hw]
    refine h.agree.embeddings.find? (fun r _ hr => (of_decide_eq_true hr).2.1)
      (fun r _ hr => (of_decide_eq_true hr).2.1) fun a ha b hb hpa hpb => ?_
    obtain ⟨ha1, ha2, ha3⟩ := of_decide_eq_true hpa
    obtain ⟨hb1, hb2, hb3⟩ := of_decide_eq_true hpb
    refine h.left.valid.embedding_eq_of_space ha hb (decide_eq_true ?_)
    exact ⟨ha2.trans hb2.symm, ha1.trans hb1.symm, ha3.trans hb3.symm⟩

/-- `ingest_page` reads the predecessor from the page as it was before. -/
theorem Twins.selectRevision {pages pages' : List PageRow} {page : PageRow} (n : ℕ)
    (input : PageIngestRequest) (originalUrl finalUrl : String)
    (h' : Twins T ids rest rest' { s with pages := pages } { t with pages := pages' })
    (hgrows : Grows s { s with pages := pages }) (hgrows' : Grows t { t with pages := pages' })
    (hs : page ∈ pages) (ht : page ∈ pages') (hT : page.tenantId = T) :
    Outcome (Twins T ids rest rest')
      (Store.selectRevision x now (ids n) T page.id input originalUrl finalUrl s
        { s with pages := pages })
      (Store.selectRevision x now (ids n) T page.id input originalUrl finalUrl t
        { t with pages := pages' }) := by
  have hfind := h.find_page h' hgrows hgrows' hs ht hT
  rcases hp : t.pages.find? (fun p => decide (p.id = page.id)) with _ | currentPage
  · simp only [Store.selectRevision, hfind, hp, h.find_revision]
    exact .ok h'
  · have hpt := List.mem_of_find?_eq_some hp
    have hps := List.mem_of_find?_eq_some (hfind.trans hp)
    simp only [Store.selectRevision, hfind, hp]
    exact .bind (h'.insertRevision n input originalUrl finalUrl hs ht
      (h.left.valid.latestRevision hps) (h.right.valid.latestRevision hpt))
      fun o rows rows' _ _ hrows => .ok hrows

theorem Twins.ingestPage {sourceId : Uuid} (input : PageIngestRequest)
    (originalUrl finalUrl : String) (hs : ∃ r ∈ s.sources, r.id = sourceId)
    (ht : ∃ r ∈ t.sources, r.id = sourceId) :
    Action.Alike (Twins T ids rest rest')
      (Store.ingestPage x now ids T sourceId input originalUrl finalUrl) s t := by
  refine .bind (.statement h ?_) fun o s' t' _ _ h' => .okOr h'
  refine .bind (h.upsertPage 0 finalUrl input.fetchedAt.timestamptz hs ht)
    fun page pages pages' hl hr h1 => ?_
  obtain ⟨hmem, hT, -, -⟩ := upsertPage_page hl
  have hmem' := (upsertPage_page hr).1
  refine .bind (h.selectRevision 1 input originalUrl finalUrl h1 (upsertPage_writes hl).grows
    (upsertPage_writes hr).grows hmem hmem' hT) fun revision s2 t2 hs2 ht2 h2 => ?_
  have hstored : ∀ {u : Db} {rows : List PageRow} {u' : Db}, page ∈ rows →
      Store.selectRevision x now (ids 1) T page.id input originalUrl finalUrl u
        { u with pages := rows } = .ok (revision, u') →
      ∀ v changed, revision = some (v, changed) → v ∈ u'.pageRevisions := by
    intro u rows u' hpage hselect v changed hv
    have hsub : u.pageRevisions ⊆ ({ u with pages := rows } : Db).pageRevisions :=
      List.Subset.refl _
    exact ((Store.selectRevision_steps (G := fun _ _ => True) hsub ⟨page, hpage, rfl, hT⟩
      hselect).2 v changed hv).1
  refine .bind (h2.selectEmbedding 2 input (hstored hmem hs2) (hstored hmem' ht2)
    (Store.selectRevision_embeddings hs2).symm (Store.selectRevision_embeddings ht2).symm)
    fun embedding s3 t3 _ _ h3 => ?_
  simp only [Store.updatedPage_ok]
  exact .ok h3

/-- The second statement of `upsert_page_revision`: its page and its revision are in both
stores. -/
theorem Twins.setLatestRevision {sourceId : Uuid} (fetchedAt : Timestamp)
    {page : ReverseMatch.PageWire} (hs : ReverseMatch.PageOf T sourceId page s)
    (ht : ReverseMatch.PageOf T sourceId page t) :
    Action.Alike (Twins T ids rest rest')
      (execute (ReverseMatch.setLatestRevision now fetchedAt T page)) s t := by
  have hok : ∀ {u : Db}, u.Valid → ReverseMatch.PageOf T sourceId page u →
      ReverseMatch.setLatestRevision now fetchedAt T page u u = .ok ((), { u with
        pages := u.pages.map fun p => if decide (p.tenantId = T ∧ p.id = page.pageId) then
          Store.setLatest now fetchedAt page.pageRevisionId p else p }) := by
    rintro u hvalid ⟨v, hv, hid, -⟩
    refine if_pos (List.all_eq_true.mpr fun p hp => ?_)
    have hsource := (Bool.and_eq_true _ _ ▸ hvalid.pages.refs p (List.mem_of_mem_filter hp)).1
    exact (Bool.and_eq_true _ _).mpr ⟨hsource, hid ▸ any_id hv⟩
  have hwrites : ∀ {u : Db} (a : Unit) (u' : Db),
      ReverseMatch.setLatestRevision now fetchedAt T page u u = .ok (a, u') → Writes T u u' := by
    intro u a u' hu
    obtain ⟨f, hf, rfl⟩ := ReverseMatch.setLatestRevision_ok hu
    exact .single (.touchPages hf.same hf.others hf.refs)
  refine h.statement ?_ hwrites hwrites
  rw [hok h.left.valid hs, hok h.right.valid ht]
  refine .ok { h.agree with pages := h.agree.pages.map fun p hp => ?_ }
  split_ifs at hp
  · exact hp
  · exact hp

theorem Twins.upsertPageRevision {sourceId : Uuid} (request : ReverseMatch.ReverseAlertPageRequest)
    (originalUrl finalUrl : String) (hs : ∃ r ∈ s.sources, r.id = sourceId)
    (ht : ∃ r ∈ t.sources, r.id = sourceId) :
    Action.Alike (Twins T ids rest rest')
      (ReverseMatch.upsertPageRevision x now ids T sourceId request originalUrl finalUrl) s t := by
  refine .bind (.statement h ?_) fun o s1 t1 hs1 ht1 h1 => .okOr_bind h1 fun page hpage => ?_
  · refine .bind (h.upsertPage 0 finalUrl request.fetchedAt.timestamptz hs ht)
      fun page pages pages' hl hr h1 => ?_
    have hmem := (upsertPage_page hl).1
    have hmem' := (upsertPage_page hr).1
    exact .bind (h1.insertRevision 1 request.toPageIngestRequest originalUrl finalUrl hmem hmem'
      (h1.left.valid.latestRevision hmem) (h1.right.valid.latestRevision hmem'))
      fun o rows rows' _ _ hrows => .ok hrows
  · have hof : ∀ {u u' : Db}, execute (ReverseMatch.upsertPageRevisionStatement x now ids T sourceId
        request originalUrl finalUrl) u = (.ok o, u') → ReverseMatch.PageOf T sourceId page u' :=
      fun hu => (ReverseMatch.upsertPageRevisionStatement_steps (G := fun _ _ => True)
        (execute_eq_ok hu)).2 page hpage
    exact .bind (h1.setLatestRevision request.fetchedAt.timestamptz (hof hs1) (hof ht1))
      fun _ s2 t2 _ _ h2 => ⟨rfl, h2⟩

end Pages

/-! ### Candidates -/

/-- The rows that a candidate names by their id alone are stored. -/
structure Rests (db : Db) (row : MatchCandidateRow) : Prop where
  revision : ∃ v ∈ db.pageRevisions, v.id = row.revisionId
  embedding : ∀ id, row.embeddingId = some id → ∃ e ∈ db.embeddings, e.id = id

theorem Rests.mono {db db' : Db} {row : MatchCandidateRow} (h : Rests db row)
    (hg : Grows db db') : Rests db' row where
  revision := by
    obtain ⟨v, hv, hid⟩ := h.revision
    exact ⟨v, hg.pageRevisions hv, hid⟩
  embedding id hid := by
    obtain ⟨e, he, heid⟩ := h.embedding id hid
    exact ⟨e, hg.embeddings he, heid⟩

theorem Rests.refs {db : Db} {row : MatchCandidateRow} (h : Rests db row) :
    db.pageRevisions.any (fun r => decide (r.id = row.revisionId)) = true ∧
      row.embeddingId.all (fun v => db.embeddings.any fun r => decide (r.id = v)) = true := by
  obtain ⟨v, hv, hid⟩ := h.revision
  refine ⟨hid ▸ any_id hv, ?_⟩
  rcases hembedding : row.embeddingId with _ | id
  · rfl
  · obtain ⟨e, he, rfl⟩ := h.embedding id hembedding
    exact any_id he

theorem Twins.refs_candidate (h : Twins T ids rest rest' s t) {row : MatchCandidateRow}
    (hT : row.tenantId = T) (hs : Rests s row) (ht : Rests t row) :
    matchCandidatesTable.refs s row = matchCandidatesTable.refs t row := by
  have hrevisions := funext h.agree.any_alertRuleRevision
  have hembeddings := funext h.agree.any_alertRuleEmbedding
  simp only [matchCandidatesTable, hs.refs, ht.refs, hT, h.agree.any_alertRule, hrevisions,
    hembeddings]

/-- Twins that have grown out of `s` and `t`. -/
structure Since (T : Uuid) (ids : ℕ → Uuid) (rest rest' s t s' t' : Db) : Prop where
  twins : Twins T ids rest rest' s' t'
  left : Grows s s'
  right : Grows t t'

theorem Twins.since (h : Twins T ids rest rest' s t) : Since T ids rest rest' s t s t :=
  ⟨h, Grows.refl s, Grows.refl t⟩

/-- A candidate that rests on rows of both stores. -/
theorem Since.insertCandidate (h : Since T ids rest rest' s t s' t') {row : MatchCandidateRow}
    {n : ℕ} {p p' : MatchCandidateRow → Bool} (hT : row.tenantId = T) (hid : row.id = ids n)
    (hs : Rests s row) (ht : Rests t row)
    (hp : ∀ r, p r = true → row.sameMatchKey r = true) (heq : p = p') :
    Outcome (fun rows rows' => Since T ids rest rest' s t { s' with matchCandidates := rows }
        { t' with matchCandidates := rows' })
      (matchCandidatesTable.insertOrSelect MatchCandidateRow.sameMatchKey p s' s'.matchCandidates
        s'.matchCandidates row)
      (matchCandidatesTable.insertOrSelect MatchCandidateRow.sameMatchKey p' t' t'.matchCandidates
        t'.matchCandidates row) := by
  have hrefs := h.twins.refs_candidate hT (hs.mono h.left) (ht.mono h.right)
  have hown : ∀ r, p r = true → r.tenantId = T :=
    fun r hr => (of_decide_eq_true (hp r hr)).1.symm.trans hT
  subst heq
  refine .mono ((h.twins.matchCandidates hT hid hrefs).insertOrSelect (fun w hw => ?_) ?_)
    fun o rows rows' hl hr hrows => ?_
  · exact (Bool.or_eq_true _ _).mpr (Or.inr hw)
  · refine h.twins.agree.matchCandidates.find? (fun r _ hr => hown r hr) (fun r _ hr => hown r hr)
      fun a ha b hb hpa hpb => ?_
    obtain ⟨ha1, ha2⟩ := of_decide_eq_true (hp a hpa)
    obtain ⟨hb1, hb2⟩ := of_decide_eq_true (hp b hpb)
    refine h.twins.left.valid.candidate_eq_of_key ha hb (decide_eq_true ?_)
    exact ⟨ha1.symm.trans hb1, ha2.symm.trans hb2⟩
  · have hl := insertOrSelect_writes (fun rows => { s' with matchCandidates := rows }) rfl
      (fun ha => .addCandidate ha hT) hl
    have hr := insertOrSelect_writes (fun rows => { t' with matchCandidates := rows }) rfl
      (fun ha => .addCandidate ha hT) hr
    exact ⟨⟨{ h.twins.agree with matchCandidates := hrows }, h.twins.left.writes hl,
      h.twins.right.writes hr⟩, h.left.trans hl.grows, h.right.trans hr.grows⟩

/-- A hit is a stored embedding of a stored revision. -/
theorem Store.Hit.rests {request : EmbeddingSearchRequest} {record : Store.SearchRecord}
    (h : Store.Hit x T request s record) (now : Timestamp)
    (id alertRuleId alertRuleRevisionId : Uuid) (threshold : ℚ) :
    Rests s (Store.newCandidate x now id T alertRuleId alertRuleRevisionId threshold record) := by
  obtain ⟨e, he, v, hv, p, hp, -, -, -, -, -, -, -, -, hrecord⟩ := h
  obtain ⟨-, -, hembedding, hrevision, -, -⟩ := Store.SearchWire.intoRecord_ok hrecord
  refine ⟨⟨v, hv, hrevision.symm⟩, fun id hid => ⟨e, he, ?_⟩⟩
  exact hembedding.symm.trans (Option.some.inj hid)

theorem ReverseMatch.PageOf.rests {sourceId : Uuid} {page : ReverseMatch.PageWire}
    (h : ReverseMatch.PageOf T sourceId page s) (now : Timestamp) (id : Uuid)
    (embedding : EmbeddingPayload) (url : String) (wire : ReverseMatch.CandidateWire) :
    Rests s (ReverseMatch.newCandidate x now id T page embedding url wire) := by
  obtain ⟨v, hv, hid, -⟩ := h
  refine ⟨⟨v, hv, hid⟩, fun id hid => ?_⟩
  cases hid

/-- One turn of the loop of `evaluate_matches`. -/
theorem Since.evaluateRecord (h : Since T ids rest rest' s t s' t') {clock : ℕ → Timestamp}
    {alertRuleId alertRuleRevisionId : Uuid} {threshold : ℚ} {request : EmbeddingSearchRequest}
    {record : Store.SearchRecord} (n : ℕ) (hs : Store.Hit x T request s record)
    (ht : Store.Hit x T request t record) :
    Action.Alike (Since T ids rest rest' s t) (Store.evaluateRecord x clock ids T alertRuleId
      alertRuleRevisionId threshold (record, n)) s' t' := by
  refine .bind (.statement h (.bind (h.insertCandidate rfl rfl (hs.rests _ _ _ _ _)
    (ht.rests _ _ _ _ _) (fun r hr => ?_) rfl) fun o rows rows' _ _ h' => .ok h'))
    fun o s1 t1 _ _ h1 => .okOr_bind h1 fun _ _ => ⟨rfl, h1⟩
  obtain ⟨htenant, -, -, -, -, hkey⟩ := of_decide_eq_true hr
  exact decide_eq_true ⟨htenant.symm, hkey.symm⟩

theorem Twins.evaluateMatches (h : Twins T ids rest rest' s t) {clock : ℕ → Timestamp}
    (alertRuleId alertRuleRevisionId : Uuid) (threshold : ℚ) (search : EmbeddingSearchRequest) :
    Action.Alike (Twins T ids rest rest') (Store.evaluateMatches x clock ids T alertRuleId
      alertRuleRevisionId threshold search) s t := by
  refine .bind (h.searchEmbeddings _) fun page s1 t1 hs1 ht1 _ => ?_
  obtain ⟨rfl, -, hhit⟩ := Store.searchEmbeddings_ok hs1
  obtain ⟨rfl, -, hhit'⟩ := Store.searchEmbeddings_ok ht1
  have hloop := Action.Alike.forEach (f := Store.evaluateRecord x clock ids T alertRuleId
    alertRuleRevisionId threshold) page.records.zipIdx s1 t1 h.since
    fun record hrecord s' t' h' => by
      have hmem := List.fst_mem_of_mem_zipIdx hrecord
      exact h'.evaluateRecord record.2 (hhit _ hmem) (hhit' _ hmem)
  exact ⟨hloop.1, hloop.2.twins⟩

/-- The evidence that `persist_reverse_candidate` looks for is that of the tenant. -/
theorem Agree.sameEvidence (h : Agree T s t) {row : MatchCandidateRow} (hT : row.tenantId = T)
    (sha : String) :
    ReverseMatch.sameEvidence sha s row = ReverseMatch.sameEvidence sha t row := by
  funext existing
  refine congrArg₂ and rfl (h.pageRevisions.any (fun r _ hr => ?_) fun r _ hr => ?_)
  · exact (of_decide_eq_true hr).1.trans hT
  · exact (of_decide_eq_true hr).1.trans hT

/-- One turn of the loop of `ingest_and_reverse_match`. -/
theorem Since.persistReverseCandidate (h : Since T ids rest rest' s t s' t') {now : Timestamp}
    {sourceId : Uuid} {page : ReverseMatch.PageWire} {embedding : EmbeddingPayload}
    {wire : ReverseMatch.CandidateWire} (n : ℕ) (url : String)
    (hs : ReverseMatch.PageOf T sourceId page s) (ht : ReverseMatch.PageOf T sourceId page t) :
    Action.Alike (Since T ids rest rest' s t)
      (ReverseMatch.persistReverseCandidate x now (ids n) T page embedding url wire) s' t' := by
  refine .bind (.statement h (.bind (h.insertCandidate rfl rfl (hs.rests _ _ _ _ _)
    (ht.rests _ _ _ _ _) (fun r hr => ?_) (h.twins.agree.sameEvidence rfl _))
    fun o rows rows' _ _ h' => .ok h')) fun o s1 t1 _ _ h1 => .okOr_bind h1 fun _ _ => ⟨rfl, h1⟩
  obtain ⟨htenant, hkey, -⟩ := of_decide_eq_true (Bool.and_eq_true _ _ ▸ hr).1
  exact decide_eq_true ⟨htenant.symm, hkey.symm⟩

theorem Twins.ingestAndReverseMatch (h : Twins T ids rest rest' s t) {now : Timestamp}
    {sourceId : Uuid} (request : ReverseMatch.ReverseAlertPageRequest)
    (originalUrl finalUrl : String) (hs : ∃ r ∈ s.sources, r.id = sourceId)
    (ht : ∃ r ∈ t.sources, r.id = sourceId) :
    Action.Alike (Twins T ids rest rest') (ReverseMatch.ingestAndReverseMatch x now ids T sourceId request
      originalUrl finalUrl) s t := by
  refine .ofExcept_bind h fun _ _ => .transaction h ?_
  refine .bind (h.upsertPageRevision request originalUrl finalUrl hs ht)
    fun page s1 t1 hs1 ht1 h1 => ?_
  have hps := ReverseMatch.upsertPageRevision_ok hs1
  have hpt := ReverseMatch.upsertPageRevision_ok ht1
  refine .bind (h1.findAlertCandidates sourceId request) fun wires s2 t2 hs2 ht2 _ => ?_
  obtain ⟨rfl, -⟩ := ReverseMatch.findAlertCandidates_ok hs2
  obtain ⟨rfl, -⟩ := ReverseMatch.findAlertCandidates_ok ht2
  refine .bind ?_ fun candidates s3 t3 _ _ h3 => ⟨rfl, h3⟩
  have hloop := Action.Alike.forEach (f := fun candidate : ReverseMatch.CandidateWire × ℕ =>
    ReverseMatch.persistReverseCandidate x now (ids (candidate.2 + 2)) T page request.embedding
      finalUrl candidate.1) (wires.filter fun c => !decide (c.similarity < c.threshold)).zipIdx s2 t2 h1.since
    fun candidate _ s' t' h' => h'.persistReverseCandidate (candidate.2 + 2) finalUrl hps hpt
  exact ⟨hloop.1, hloop.2.twins⟩

/-! ### Requests -/

/-- The source of a page that is admitted is stored. -/
theorem Routes.admittedUrls_source {sourceId : Uuid} {input : PageIngestRequest}
    {urls : String × String} (h : Routes.admittedUrls x T sourceId input s = (.ok urls, s')) :
    s' = s ∧ ∃ r ∈ s.sources, r.id = sourceId := by
  have hreads := Routes.admittedUrls_reads (x := x) T sourceId input s
  rw [Action.Moves, h] at hreads
  obtain ⟨_, _, hensure, h1⟩ := Action.bind_eq_ok h
  obtain ⟨-, rfl⟩ := Routes.ensure_ok hensure
  obtain ⟨found, _, hfound, h2⟩ := Action.bind_eq_ok h1
  obtain ⟨hfind, rfl⟩ := Prod.mk.inj hfound
  obtain ⟨source, _, hsource, -⟩ := Action.bind_eq_ok h2
  rcases found with _ | source'
  · cases hsource
  · have hfind := Except.ok.inj hfind
    have hpicked := List.find?_some hfind
    exact ⟨hreads.symm, source', List.mem_of_find?_eq_some hfind, (of_decide_eq_true hpicked).2⟩

section Requests

variable (h : Twins T ids rest rest' s t)

include h

theorem Twins.validated_bind {α β : Type} {r : Except String α} {f : α → Api β}
    (hf : ∀ a, Action.Alike (Twins T ids rest rest') (f a) s t) :
    Action.Alike (Twins T ids rest rest') (Routes.validated r >>= f) s t :=
  .ofExcept_bind h fun a _ => hf a

theorem Twins.admittedUrls (sourceId : Uuid) (input : PageIngestRequest) :
    Action.Alike (Twins T ids rest rest') (Routes.admittedUrls x T sourceId input) s t := by
  refine .ensure_bind h fun _ => .bind (h.getSource sourceId) fun found s1 t1 _ _ h1 => ?_
  refine .okOr_bind h1 fun source _ => .ensure_bind h1 fun _ => ?_
  exact h1.validated_bind fun _ => h1.validated_bind fun _ => ⟨rfl, h1⟩

theorem Twins.evaluationFor {subject : String} {admin : Bool} (input : EvaluateMatchesRequest) :
    Action.Alike (Twins T ids rest rest') (Routes.evaluationFor x ⟨T, subject, admin⟩ input) s t := by
  refine .ensure_bind h fun _ => h.validated_bind fun _ => ?_
  refine .bind (.bind (h.getAlertRule _ _ _) fun _ _ _ _ _ h1 => .okOr h1)
    fun rule s1 t1 _ _ h1 => ?_
  refine .ensure_bind h1 fun _ => .ensure_bind h1 fun _ => h1.validated_bind fun _ => ?_
  exact h1.validated_bind fun _ => ⟨rfl, h1⟩

omit h in
theorem Twins.respond {α : Type} {a : Api α} {f : α → Response}
    (ha : Action.Alike (Twins T ids rest rest') a s t) :
    Action.Alike (Twins T ids rest rest') (do let r ← a; return f r) s t :=
  .bind ha fun _ _ _ _ _ h' => ⟨rfl, h'⟩

end Requests

/-- **A request gives the same answer on twins, and leaves twins.** -/
theorem Call.twins {call : Call}
    (h : Twins call.auth.tenantId call.supply.ids rest rest' s t) :
    Action.Alike (Twins call.auth.tenantId call.supply.ids rest rest') (call.exec x) s t := by
  obtain ⟨⟨T, subject, admin⟩, supply, request⟩ := call
  cases request with
  | listRecords => exact Twins.respond (h.listAlertRules _ _)
  | getRecord id =>
    exact Twins.respond (.bind (h.getAlertRule _ _ _) fun _ _ _ _ _ h1 => .okOr h1)
  | createRecord input => exact Twins.respond (h.validated_bind fun _ => h.createAlertRule _)
  | upsertAlertEmbedding alertRuleId input =>
    exact Twins.respond (h.validated_bind fun _ => h.upsertAlertRuleEmbedding 0 _ _)
  | listSources => exact Twins.respond h.listSources
  | getSource sourceId =>
    exact Twins.respond (.bind (h.getSource _) fun _ _ _ _ _ h1 => .okOr h1)
  | createSource input =>
    refine Twins.respond (.ensure_bind h fun _ => h.validated_bind fun _ => ?_)
    exact h.validated_bind fun root => h.createSource _ 0 _ _
  | ingestPage sourceId input =>
    refine Twins.respond (h.validated_bind fun _ => ?_)
    refine .bind (h.admittedUrls sourceId input) fun urls s1 t1 hs ht _ => ?_
    obtain ⟨rfl, hs⟩ := Routes.admittedUrls_source hs
    obtain ⟨rfl, ht⟩ := Routes.admittedUrls_source ht
    exact h.ingestPage input _ _ hs ht
  | reverseMatchPage sourceId input =>
    refine Twins.respond (h.validated_bind fun _ => ?_)
    refine .bind (h.admittedUrls sourceId input.toPageIngestRequest) fun urls s1 t1 hs ht _ => ?_
    obtain ⟨rfl, hs⟩ := Routes.admittedUrls_source hs
    obtain ⟨rfl, ht⟩ := Routes.admittedUrls_source ht
    exact h.ingestAndReverseMatch input _ _ hs ht
  | searchEmbeddings input =>
    refine Twins.respond (h.validated_bind fun _ => ?_)
    exact .bind (h.searchEmbeddings input) fun _ _ _ _ _ h1 => ⟨rfl, h1⟩
  | evaluateMatches input =>
    refine Twins.respond (.bind (h.evaluationFor input) fun found s1 t1 _ _ h1 => ?_)
    exact h1.evaluateMatches _ _ _ _

/-- **Tenants do not interfere.**  A request of `T`, with UUIDs that are not those of rows
of other tenants, does the same on any two stores that have the same rows of `T`, and
leaves the rows of the others alone. -/
theorem tenants_do_not_interfere {call : Call} {d d' : Db} (hd : d.Valid) (hd' : d'.Valid)
    (hagree : Agree call.auth.tenantId d d')
    (hfresh : Unused call.supply.ids (d.others call.auth.tenantId))
    (hfresh' : Unused call.supply.ids (d'.others call.auth.tenantId)) :
    (call.exec x d).1 = (call.exec x d').1 ∧
      Agree call.auth.tenantId (call.after x d) (call.after x d') ∧
      (call.after x d).others call.auth.tenantId = d.others call.auth.tenantId ∧
      (call.after x d').others call.auth.tenantId = d'.others call.auth.tenantId := by
  have h : Twins call.auth.tenantId call.supply.ids _ _ d d' :=
    ⟨hagree, ⟨hd, rfl, hfresh⟩, ⟨hd', rfl, hfresh'⟩⟩
  obtain ⟨hsame, htwins⟩ := Call.twins (x := x) h
  exact ⟨hsame, htwins.agree, htwins.left.others, htwins.right.others⟩

/-- What is left alone for the tenants other than `U` is left alone for `T`. -/
theorem Agree.of_others {U : Uuid} (hne : T ≠ U) (h : s.others U = t.others U) : Agree T s t := by
  have hkeep : ∀ V, V = T → decide (V ≠ U) = true := fun V hV => decide_eq_true (hV ▸ hne)
  exact ⟨.of_filter (congrArg Db.sources h) fun r => hkeep r.tenantId,
    .of_filter (congrArg Db.pages h) fun r => hkeep r.tenantId,
    .of_filter (congrArg Db.pageRevisions h) fun r => hkeep r.tenantId,
    .of_filter (congrArg Db.embeddings h) fun r => hkeep r.tenantId,
    .of_filter (congrArg Db.alertRules h) fun r => hkeep r.tenantId,
    .of_filter (congrArg Db.alertRuleRevisions h) fun r => hkeep r.tenantId,
    .of_filter (congrArg Db.alertRuleEmbeddings h) fun r => hkeep r.tenantId,
    .of_filter (congrArg Db.matchCandidates h) fun r => hkeep r.tenantId⟩

namespace Scenario

/-- An administrator of another tenant registers the same site. -/
def stranger : Call := ⟨⟨2, "eve", true⟩, supply 100, createSource.request⟩

/-- A page that reaches the rule, with the UUIDs 50 to 53. -/
def visit : Call :=
  ⟨admin, ⟨fun _ => 0, fun n => Fin.ofNat (2 ^ 128) (50 + min n 3)⟩, (reverse 50 axis).request⟩

end Scenario

open Scenario in
theorem tenants_do_not_interfere_sample :
    (stranger.after Platform.sample stored).sources ≠ stored.sources ∧
      (visit.after Platform.sample stored).matchCandidates ≠ stored.matchCandidates ∧
      (visit.exec Platform.sample stored).1
        = (visit.exec Platform.sample (stranger.after Platform.sample stored)).1 := by
  have hwf : Wf Platform.sample stored := (reaches_after setup).wf Platform.sample_lawful
  have hagree : Agree 1 stored (stranger.after Platform.sample stored) :=
    Agree.of_others (by decide) (stranger.after_steps Platform.sample_lawful hwf).others_eq.symm
  have hids : ∀ n, visit.supply.ids n ≠ 100 := by
    intro n heq
    have hval := congrArg Fin.val heq
    have hmod : (50 + min n 3) % 2 ^ 128 = 50 + min n 3 := Nat.mod_eq_of_lt (by omega)
    have hhundred : ((100 : Uuid) : ℕ) = 100 := rfl
    simp only [visit, Fin.val_ofNat, hmod, hhundred] at hval
    omega
  have hunused : Unused visit.supply.ids (stored.others 1) := by
    have hempty : stored.others 1 = Db.empty := by decide +kernel
    rw [hempty]
    constructor <;> intro r hr <;> cases hr
  have hunused' : Unused visit.supply.ids ((stranger.after Platform.sample stored).others 1) := by
    have hsources : ∀ r ∈ ((stranger.after Platform.sample stored).others 1).sources,
        r.id = 100 := by decide +kernel
    have hempty : { (stranger.after Platform.sample stored).others 1 with sources := [] }
        = Db.empty := by decide +kernel
    refine ⟨fun r hr n heq => hids n (heq.symm.trans (hsources r hr)), ?_, ?_, ?_, ?_, ?_, ?_, ?_⟩
    · exact fun r hr => absurd ((congrArg Db.pages hempty) ▸ hr) List.not_mem_nil
    · exact fun r hr => absurd ((congrArg Db.pageRevisions hempty) ▸ hr) List.not_mem_nil
    · exact fun r hr => absurd ((congrArg Db.embeddings hempty) ▸ hr) List.not_mem_nil
    · exact fun r hr => absurd ((congrArg Db.alertRules hempty) ▸ hr) List.not_mem_nil
    · exact fun r hr => absurd ((congrArg Db.alertRuleRevisions hempty) ▸ hr) List.not_mem_nil
    · exact fun r hr => absurd ((congrArg Db.alertRuleEmbeddings hempty) ▸ hr) List.not_mem_nil
    · exact fun r hr => absurd ((congrArg Db.matchCandidates hempty) ▸ hr) List.not_mem_nil
  refine ⟨by decide +kernel, by decide +kernel, ?_⟩
  exact (tenants_do_not_interfere hwf.valid (hwf.after Platform.sample_lawful stranger).valid
    hagree hunused hunused').1

end EmbeddedAlerts
