import EmbeddedAlerts.Requests

/-!
# Page ingestion

What `ingest_page` is meant to do is `Ingested`: answer with a revision, and leave
a page that points at it, a revision with the hash of the content, and one
embedding for it.

It does not.  Its last part, `updated_page`, looks for the page row that its first
part, `upserted_page`, has just written.  PostgreSQL does not update a row twice
in one statement, so `updated_page` returns nothing (`Store.updatedPage_ok`), the
final `SELECT` starts from it and returns nothing either, and the request ends in
an internal error, whatever the store and the input are
(`ingestPage_never_ingests`).  The other parts have been written by then: a first
ingest leaves the page without a revision (`ingestPage_first`), because
`inserted_revision` looks for the new page in a snapshot that does not have it
yet.  The sibling statement in `reverse_match` takes the predecessor from
`upserted_page` instead, and updates the page in a statement of its own.
-/

namespace EmbeddedAlerts

open Sql

/-- What `ingest_page` should answer and leave; an error leaves the store as it
was. -/
structure Ingested (x : Platform) (tenantId sourceId : Uuid) (input : PageIngestRequest)
    (canonicalFinalUrl : String) (db : Db) (result : Except HttpError Store.PageRevision × Db) :
    Prop where
  recorded : ∃ answer, result.1 = .ok answer ∧
    ∃ page ∈ result.2.pages, page.tenantId = tenantId ∧ page.sourceId = sourceId ∧
      page.canonicalUrl = canonicalFinalUrl ∧ page.latestRevisionId = some answer.revisionId ∧
    ∃ revision ∈ result.2.pageRevisions, revision.id = answer.revisionId ∧
      revision.pageId = page.id ∧
      revision.contentSha256 = Store.contentSha256 x input.contentText ∧
    (result.2.embeddings.filter fun e =>
      decide (e.revisionId = revision.id ∧ e.space = input.embedding.toModelSpace)).map
        EmbeddingRow.id = [answer.embeddingId]
  unchanged : ∀ e, result.1 = .error e → result.2 = db

variable {x : Platform} {now : Timestamp} {ids : ℕ → Uuid} {tenantId sourceId : Uuid}
  {input : PageIngestRequest} {originalUrl finalUrl : String} {db db' snapshot : Db}

/-- **The statement of `ingest_page` never returns a row.** -/
theorem Store.ingestPageStatement_none {o : Option Store.PageRevision}
    (h : Store.ingestPageStatement x now ids tenantId sourceId input originalUrl finalUrl
      snapshot db = .ok (o, db')) : o = none := by
  obtain ⟨⟨page, pages⟩, -, h1⟩ := except_bind_eq_ok h
  obtain ⟨⟨revision, d1⟩, -, h2⟩ := except_bind_eq_ok h1
  obtain ⟨⟨embedding, d2⟩, -, h3⟩ := except_bind_eq_ok h2
  obtain ⟨⟨updated, d3⟩, hupdated, h4⟩ := except_bind_eq_ok h3
  rw [Store.updatedPage_ok] at hupdated
  obtain ⟨rfl, -⟩ := Prod.mk.inj (Except.ok.inj hupdated)
  exact (Prod.mk.inj (Except.ok.inj h4)).1.symm

theorem Store.ingestPage_error (x : Platform) (now : Timestamp) (ids : ℕ → Uuid)
    (tenantId sourceId : Uuid) (input : PageIngestRequest) (originalUrl finalUrl : String)
    (db : Db) :
    ∃ e, (Store.ingestPage x now ids tenantId sourceId input originalUrl finalUrl db).1
      = .error e := by
  rcases hq : Store.ingestPageStatement x now ids tenantId sourceId input originalUrl finalUrl
      db db with e | ⟨o, d⟩
  · refine ⟨HttpError.ofDbErr e, ?_⟩
    rw [Store.ingestPage, Action.bind_of_error (execute_of_error hq)]
  · obtain rfl := Store.ingestPageStatement_none hq
    refine ⟨.internal "page ingestion returned no durable record", ?_⟩
    rw [Store.ingestPage, Action.bind_of_ok (execute_of_ok hq)]
    rfl

/-- **`ingest_page` never does what it is for**, whatever the store and the input
are. -/
theorem ingestPage_never_ingests (x : Platform) (now : Timestamp) (ids : ℕ → Uuid)
    (tenantId sourceId : Uuid) (input : PageIngestRequest) (originalUrl finalUrl : String)
    (db : Db) :
    ¬ Ingested x tenantId sourceId input finalUrl db
      (Store.ingestPage x now ids tenantId sourceId input originalUrl finalUrl db) := by
  intro h
  obtain ⟨answer, hok, -⟩ := h.recorded
  obtain ⟨e, herror⟩ := Store.ingestPage_error x now ids tenantId sourceId input originalUrl
    finalUrl db
  rw [herror] at hok
  cases hok

/-- **A first ingest fails and leaves its page behind**, without a revision. -/
theorem ingestPage_first (hsource : ∃ s ∈ db.sources, s.id = sourceId)
    (hfresh : ∀ p ∈ db.pages, p.id ≠ ids 0) (hnodangling : ∀ v ∈ db.pageRevisions, v.pageId ≠ ids 0)
    (hnew : ∀ p ∈ db.pages,
      (Store.newPage now (ids 0) tenantId sourceId finalUrl
        input.fetchedAt.timestamptz).sameUrl p = false) :
    Store.ingestPage x now ids tenantId sourceId input originalUrl finalUrl db
      = (.error (.internal "page ingestion returned no durable record"),
        { db with pages := db.pages ++ [Store.newPage now (ids 0) tenantId sourceId finalUrl
          input.fetchedAt.timestamptz] }) := by
  have hadmits : pagesTable.Admits db db.pages
      (Store.newPage now (ids 0) tenantId sourceId finalUrl input.fetchedAt.timestamptz) := by
    refine ⟨rfl, fun p hp => ?_, ?_⟩
    · simp only [pagesTable, hnew p hp, Bool.or_false, decide_eq_false_iff_not]
      exact fun h => hfresh p hp h.symm
    · obtain ⟨s, hs, hid⟩ := hsource
      simp only [pagesTable, Store.newPage, Option.all_none, Bool.and_true, List.any_eq_true]
      exact ⟨s, hs, by simp [hid]⟩
  have hpage := Constraints.insertOrUpdate_of_admits
    (Store.seenAgain now input.fetchedAt.timestamptz) hadmits hnew
  have hnopage : (db.pages.find? fun p => decide (p.id = ids 0)) = none := by
    rw [List.find?_eq_none]
    intro p hp
    simp [hfresh p hp]
  have hnorevision : db.pageRevisions.find? (Store.knownRevision tenantId (ids 0)
      (Store.contentSha256 x input.contentText)) = none := by
    rw [List.find?_eq_none]
    intro v hv
    simp [Store.knownRevision, hnodangling v hv]
  have hstatement : Store.ingestPageStatement x now ids tenantId sourceId input originalUrl finalUrl
      db db = .ok (none, { db with pages := db.pages ++
        [Store.newPage now (ids 0) tenantId sourceId finalUrl input.fetchedAt.timestamptz] }) := by
    have hid : (Store.newPage now (ids 0) tenantId sourceId finalUrl
        input.fetchedAt.timestamptz).id = ids 0 := rfl
    simp only [Store.ingestPageStatement, hpage, Store.selectRevision, Store.selectEmbedding,
      Store.updatedPage, bind, Except.bind, pure, Except.pure, hid, hnopage, hnorevision,
      Option.map_none]
    rfl
  rw [Store.ingestPage, Action.bind_of_ok (execute_of_ok hstatement)]
  rfl

/-- **The first ingest of the scenario fails and has changed the store.** -/
theorem ingestPage_first_fails :
    ¬ ∀ (x : Platform), x.Lawful → ∀ (now : Timestamp) (ids : ℕ → Uuid) (tenantId sourceId : Uuid)
      (input : PageIngestRequest) (originalUrl finalUrl : String) (db : Db), db.Valid →
      (∃ s ∈ db.sources, s.id = sourceId ∧ s.tenantId = tenantId) →
      x.validatePage input = .ok () →
      Ingested x tenantId sourceId input finalUrl db
        (Store.ingestPage x now ids tenantId sourceId input originalUrl finalUrl db) := by
  intro h
  have hwf := (reaches_after [Scenario.createSource]).wf Platform.sample_lawful
  have hsource : ∃ s ∈ (after Platform.sample [Scenario.createSource] Db.empty).sources,
      s.id = 10 ∧ s.tenantId = 1 := by decide
  have hok := h Platform.sample Platform.sample_lawful 0 (Scenario.supply 30).ids 1 10
    (Scenario.page Scenario.diagonal) "https://example.com/a" "https://example.com/a" _ hwf.valid
    hsource (by decide)
  have herror : (Store.ingestPage Platform.sample 0 (Scenario.supply 30).ids 1 10
      (Scenario.page Scenario.diagonal) "https://example.com/a" "https://example.com/a"
      (after Platform.sample [Scenario.createSource] Db.empty)).1
      = .error (.internal "page ingestion returned no durable record") := by decide
  have hchanged : (Store.ingestPage Platform.sample 0 (Scenario.supply 30).ids 1 10
      (Scenario.page Scenario.diagonal) "https://example.com/a" "https://example.com/a"
      (after Platform.sample [Scenario.createSource] Db.empty)).2
      ≠ after Platform.sample [Scenario.createSource] Db.empty := by decide
  exact hchanged (hok.unchanged _ herror)

end EmbeddedAlerts
