import EmbeddedAlerts.Sql.Pair
import EmbeddedAlerts.Requests

/-!
# The same write twice at once

Four statements insert a row and select the stored one if there is a conflict:
the page revision and the candidate of reverse matching, the candidate of
historical evaluation, and the embedding of a rule.  The insert sees what others
have committed in the meantime, the select sees the snapshot of the statement.

`identical_writes_converge_iff`: of two transactions that issue such a statement
with the same values, the second gets the row of the first **exactly if its
statement begins after the first has committed**; otherwise it gets no row at all.
-/

namespace EmbeddedAlerts

open Sql

variable {x : Platform} {db d w : Db} {T : Uuid} {l : List Event}

/-- What the rest of a transaction may do: add rows, and keep the constraints. -/
def Continues (w d : Db) : Prop := d.Valid ∧ Grows w d

/-- The outcome of the second statement, if the first has created the row behind
`again`. -/
def Converges {ω : Type} (l : List Event) (again : ω) (r : Except DbErr (Option ω)) : Prop :=
  (r = .ok (some again) ↔ Late l) ∧ (¬ Late l → r = .ok none)

theorem converges_of {ω : Type} {q : Statement Db (Option ω)} {again : ω}
    {r : Except DbErr (Option ω)} {s : Db} (hr : r = (q s d).map Prod.fst)
    (hs : (Late l ∧ s = d) ∨ (¬ Late l ∧ s = db))
    (hlate : (q d d).map Prod.fst = .ok (some again)) (hearly : (q db d).map Prod.fst = .ok none) :
    Converges l again r := by
  rcases hs with ⟨hl, rfl⟩ | ⟨hl, rfl⟩
  · rw [hlate] at hr
    exact ⟨⟨fun _ => hl, fun _ => hr⟩, fun h => absurd hl h⟩
  · rw [hearly] at hr
    refine ⟨⟨fun h => ?_, fun h => absurd h hl⟩, fun _ => hr⟩
    rw [hr] at h
    cases h

/-- The first statement has created `row`. -/
theorem created_of_some {α : Type} {o : Option (α × Bool)} {a : Option α} {row : α}
    (h : o = some (row, true)) : o ≠ a.map fun t => (t, false) := by
  rw [h]
  cases a with
  | none => exact Option.some_ne_none _
  | some t =>
    intro heq
    injection heq with heq
    injection heq with _ hcreated
    cases hcreated

/-! ### Candidates -/

/-- A candidate that is offered again. -/
theorem candidate_again (row row' : MatchCandidateRow) {p : MatchCandidateRow → Bool}
    (hvalid : d.Valid) (hrow : row ∈ d.matchCandidates)
    (hcheck : matchCandidatesTable.check row' = true) (hsame : row'.sameMatchKey row = true)
    (hp : p row = true) (hpkey : ∀ t, p t = true → row.sameMatchKey t = true)
    (hnone : ∀ t ∈ db.matchCandidates, row.sameMatchKey t = false) :
    matchCandidatesTable.insertOrSelect MatchCandidateRow.sameMatchKey p d d.matchCandidates
        d.matchCandidates row' = .ok (some (row, false), d.matchCandidates) ∧
      matchCandidatesTable.insertOrSelect MatchCandidateRow.sameMatchKey p d db.matchCandidates
        d.matchCandidates row' = .ok (none, d.matchCandidates) :=
  Constraints.insertOrSelect_again row row' hcheck hrow hsame hp hpkey hnone
    fun _ ht hkey => (hvalid.candidate_eq_of_key hrow ht hkey).symm

theorem evaluate_converges {now now' : Timestamp} {id id' alertRuleId alertRuleRevisionId : Uuid}
    {threshold : ℚ} {record : Store.SearchRecord} {sys : Pair Db (Option (MatchCandidateRow × Bool))}
    (h : Interleaves Continues
      (Store.upsertMatch
        (Store.newCandidate x now id T alertRuleId alertRuleRevisionId threshold record))
      (Store.upsertMatch
        (Store.newCandidate x now' id' T alertRuleId alertRuleRevisionId threshold record))
      db l sys) {row : MatchCandidateRow} (hfirst : sys.first = .committed (some (row, true)))
    {r : Except DbErr (Option (MatchCandidateRow × Bool))} (hr : sys.second.outcome = some r) :
    Converges l (row, false) r := by
  obtain ⟨w, d, s, hp, ⟨hvalid, hgrows⟩, hr, hs⟩ := h.second hfirst hr
  rcases Store.upsertMatch_ok hp with ⟨ho, -⟩ | ⟨ho, rfl, hadmits, hnone⟩
  · exact absurd ho (created_of_some rfl)
  · obtain ⟨rfl, -⟩ := Prod.mk.inj (Option.some.inj ho)
    have hpkey : ∀ t, Store.sameHistorical (Store.newCandidate x now' id' T alertRuleId
        alertRuleRevisionId threshold record) t = true → (Store.newCandidate x now id T alertRuleId
          alertRuleRevisionId threshold record).sameMatchKey t = true := by
      intro t ht
      obtain ⟨hT, -, -, -, -, hkey⟩ := of_decide_eq_true ht
      exact decide_eq_true ⟨hT.symm, hkey.symm⟩
    obtain ⟨hlate, hearly⟩ := candidate_again _ (Store.newCandidate x now' id' T alertRuleId
      alertRuleRevisionId threshold record) hvalid
      (hgrows.matchCandidates.subset (List.mem_append_right _ (List.mem_singleton_self _)))
      hadmits.check (decide_eq_true ⟨rfl, rfl⟩)
      (decide_eq_true ⟨rfl, rfl, rfl, rfl, rfl, rfl⟩) hpkey hnone
    refine converges_of hr hs ?_ ?_
    · rw [Store.upsertMatch, hlate]
      rfl
    · rw [Store.upsertMatch, hearly]
      rfl

theorem persist_converges {now now' : Timestamp} {id id' sourceId : Uuid}
    {page : ReverseMatch.PageWire} {embedding : EmbeddingPayload} {url : String}
    {wire : ReverseMatch.CandidateWire} {sys : Pair Db (Option (MatchCandidateRow × Bool))}
    (hpage : ReverseMatch.PageOf T sourceId page db)
    (h : Interleaves Continues
      (ReverseMatch.persistStatement page.contentSha256
        (ReverseMatch.newCandidate x now id T page embedding url wire))
      (ReverseMatch.persistStatement page.contentSha256
        (ReverseMatch.newCandidate x now' id' T page embedding url wire))
      db l sys) {row : MatchCandidateRow} (hfirst : sys.first = .committed (some (row, true)))
    {r : Except DbErr (Option (MatchCandidateRow × Bool))} (hr : sys.second.outcome = some r) :
    Converges l (row, false) r := by
  obtain ⟨w, d, s, hp, ⟨hvalid, hgrows⟩, hr, hs⟩ := h.second hfirst hr
  rcases ReverseMatch.persistStatement_ok hp with ⟨ho, -⟩ | ⟨ho, rfl, hadmits, hnone⟩
  · exact absurd ho (created_of_some rfl)
  · obtain ⟨rfl, -⟩ := Prod.mk.inj (Option.some.inj ho)
    have hpkey : ∀ u t, ReverseMatch.sameEvidence page.contentSha256 u (ReverseMatch.newCandidate x
        now' id' T page embedding url wire) t = true → (ReverseMatch.newCandidate x now id T page
          embedding url wire).sameMatchKey t = true := by
      intro u t ht
      obtain ⟨hT, hkey, -⟩ := of_decide_eq_true (Bool.and_eq_true _ _ ▸ ht).1
      exact decide_eq_true ⟨hT.symm, hkey.symm⟩
    have hevidence : ∀ u, ReverseMatch.PageOf T sourceId page u →
        ReverseMatch.sameEvidence page.contentSha256 u (ReverseMatch.newCandidate x now' id' T page
          embedding url wire) (ReverseMatch.newCandidate x now id T page embedding url wire)
          = true := by
      rintro u ⟨v, hv, hvid, hvT, hvsha, -⟩
      rw [ReverseMatch.sameEvidence, Bool.and_eq_true]
      refine ⟨decide_eq_true ⟨rfl, rfl, rfl, rfl, rfl, rfl, rfl, rfl, rfl⟩, ?_⟩
      exact List.any_eq_true.mpr ⟨v, hv, decide_eq_true ⟨hvT, hvid, hvsha⟩⟩
    have hagain : ∀ u, ReverseMatch.PageOf T sourceId page u → _ := fun u hu =>
      candidate_again _ (ReverseMatch.newCandidate x now' id' T page embedding url wire) hvalid
        (hgrows.matchCandidates.subset (List.mem_append_right _ (List.mem_singleton_self _)))
        hadmits.check (decide_eq_true ⟨rfl, rfl⟩) (hevidence u hu) (hpkey u) hnone
    have hgrow : Grows db d := by
      refine Grows.trans ?_ hgrows
      exact { Grows.refl db with matchCandidates := List.prefix_append _ _ }
    refine converges_of hr hs ?_ ?_
    · rw [ReverseMatch.persistStatement, (hagain d (hpage.mono hgrow)).1]
      rfl
    · rw [ReverseMatch.persistStatement, (hagain db hpage).2]
      rfl

/-! ### Embeddings of rules -/

/-- The statement, once its target is found. -/
theorem alertEmbeddingStatement_of_target {now : Timestamp} {id alertRuleId : Uuid} {s : Db}
    {request : ReverseMatch.AlertRuleEmbeddingUpsertRequest} {rule : AlertRuleRow}
    {revision : AlertRuleRevisionRow} {o : Option (AlertRuleEmbeddingRow × Bool)}
    {rows : List AlertRuleEmbeddingRow}
    (htarget : ReverseMatch.target T alertRuleId request.alertRuleRevisionId
      request.embedding.model s = some (rule, revision))
    (h : alertRuleEmbeddingsTable.insertOrSelect AlertRuleEmbeddingRow.sameSpace
      (ReverseMatch.sameAlertEmbedding
        (ReverseMatch.newAlertEmbedding x now id T rule.id revision.id request.embedding))
      d s.alertRuleEmbeddings d.alertRuleEmbeddings
      (ReverseMatch.newAlertEmbedding x now id T rule.id revision.id request.embedding)
        = .ok (o, rows)) :
    ReverseMatch.upsertAlertRuleEmbeddingStatement x now id T alertRuleId request s d
      = .ok (o, { d with alertRuleEmbeddings := rows }) := by
  unfold ReverseMatch.upsertAlertRuleEmbeddingStatement
  rw [htarget]
  simp only [h]
  rfl

/-- An embedding that is offered again. -/
theorem alertEmbedding_again (row row' : AlertRuleEmbeddingRow) {before : List AlertRuleEmbeddingRow}
    (hcheck : alertRuleEmbeddingsTable.check row' = true) (hT : row'.tenantId = row.tenantId)
    (hrule : row'.alertRuleId = row.alertRuleId)
    (hrevision : row'.alertRuleRevisionId = row.alertRuleRevisionId)
    (hspace : row'.space = row.space) (hnone : ∀ t ∈ before, row.sameSpace t = false) :
    alertRuleEmbeddingsTable.insertOrSelect AlertRuleEmbeddingRow.sameSpace
        (ReverseMatch.sameAlertEmbedding row') d (before ++ [row]) (before ++ [row]) row'
        = .ok (some (row, false), before ++ [row]) ∧
      alertRuleEmbeddingsTable.insertOrSelect AlertRuleEmbeddingRow.sameSpace
        (ReverseMatch.sameAlertEmbedding row') d before (before ++ [row]) row'
        = .ok (none, before ++ [row]) := by
  refine Constraints.insertOrSelect_again row row' hcheck
    (List.mem_append_right _ (List.mem_singleton_self _)) (decide_eq_true ⟨hT, hrevision, hspace⟩)
    (decide_eq_true ⟨hrevision.symm, hrule.symm, hT.symm, hspace.symm⟩) ?_ hnone ?_
  · intro t ht
    obtain ⟨h1, -, h2, h3⟩ := of_decide_eq_true ht
    refine decide_eq_true ⟨?_, ?_, ?_⟩
    · rw [h2, hT]
    · rw [h1, hrevision]
    · rw [h3, hspace]
  · intro t ht hsame
    rcases List.mem_append.mp ht with ht | ht
    · rw [hnone t ht] at hsame
      cases hsame
    · exact List.mem_singleton.mp ht

theorem alertEmbedding_converges {now now' : Timestamp} {id id' alertRuleId : Uuid}
    {request : ReverseMatch.AlertRuleEmbeddingUpsertRequest}
    {sys : Pair Db (Option (AlertRuleEmbeddingRow × Bool))}
    (h : Interleaves Eq
      (ReverseMatch.upsertAlertRuleEmbeddingStatement x now id T alertRuleId request)
      (ReverseMatch.upsertAlertRuleEmbeddingStatement x now' id' T alertRuleId request) db l sys)
    {row : AlertRuleEmbeddingRow} (hfirst : sys.first = .committed (some (row, true)))
    {r : Except DbErr (Option (AlertRuleEmbeddingRow × Bool))}
    (hr : sys.second.outcome = some r) : Converges l (row, false) r := by
  obtain ⟨w, d, s, hp, rfl, hr, hs⟩ := h.second hfirst hr
  unfold ReverseMatch.upsertAlertRuleEmbeddingStatement at hp
  split at hp
  · obtain ⟨ho, -⟩ := Prod.mk.inj (Except.ok.inj hp)
    cases ho
  · next rule revision htarget =>
    obtain ⟨⟨o, rows⟩, hi, hrows⟩ := except_bind_eq_ok hp
    obtain ⟨rfl, rfl⟩ := Prod.mk.inj (Except.ok.inj hrows)
    rcases Constraints.insertOrSelect_cases hi with ⟨ho, -⟩ | ⟨ho, rfl, hadmits, hnone⟩
    · exact absurd ho (created_of_some rfl)
    · obtain ⟨rfl, -⟩ := Prod.mk.inj (Option.some.inj ho)
      have hagain := fun u : Db => alertEmbedding_again (d := u)
        (ReverseMatch.newAlertEmbedding x now id T rule.id revision.id request.embedding)
        (ReverseMatch.newAlertEmbedding x now' id' T rule.id revision.id request.embedding)
        hadmits.check rfl rfl rfl rfl hnone
      -- the target is read from tables the first statement does not write to
      have htarget' : ReverseMatch.target T alertRuleId request.alertRuleRevisionId
          request.embedding.model { db with alertRuleEmbeddings := db.alertRuleEmbeddings ++
            [ReverseMatch.newAlertEmbedding x now id T rule.id revision.id request.embedding] }
          = some (rule, revision) := htarget
      refine converges_of hr hs ?_ ?_
      · rw [alertEmbeddingStatement_of_target htarget' (hagain _).1]
        rfl
      · rw [alertEmbeddingStatement_of_target htarget (hagain _).2]
        rfl

/-! ### Page revisions -/

/-- The page that is stored again has the id it has. -/
theorem page_again (now' fetchedAt' : Timestamp) (id' : Uuid) {sourceId : Uuid} {url : String}
    (hvalid : d.Valid) {p : PageRow} (hp : p ∈ d.pages) (hT : p.tenantId = T)
    (hsource : p.sourceId = sourceId) (hurl : p.canonicalUrl = url) :
    ∃ q pages, pagesTable.insertOrUpdate PageRow.sameUrl (Store.seenAgain now' fetchedAt') d d.pages
      (Store.newPage now' id' T sourceId url fetchedAt') = .ok (q, pages) ∧ q.id = p.id := by
  have hsame : (Store.newPage now' id' T sourceId url fetchedAt').sameUrl p = true :=
    decide_eq_true ⟨hT.symm, hsource.symm, hurl.symm⟩
  rcases hf : d.pages.find? (Store.newPage now' id' T sourceId url fetchedAt').sameUrl with _ | q
  · exact absurd hsame (List.find?_eq_none.mp hf p hp)
  · refine ⟨_, _, Constraints.insertOrUpdate_of_find _ rfl hf, ?_⟩
    have hq : (Store.newPage now' id' T sourceId url fetchedAt').sameUrl q = true :=
      List.find?_some hf
    obtain ⟨h1, h2, h3⟩ := of_decide_eq_true hq
    have hqp : q = p := by
      refine hvalid.page_eq_of_url (List.mem_of_find?_eq_some hf) hp (decide_eq_true ⟨?_, ?_, ?_⟩)
      · rw [hT]
        exact h1.symm
      · rw [hsource]
        exact h2.symm
      · rw [hurl]
        exact h3.symm
    rw [hqp]
    rfl

/-- The statement, once the page is stored and the revision is selected. -/
theorem pageRevisionStatement_of {now : Timestamp} {ids : ℕ → Uuid} {sourceId : Uuid}
    {request : ReverseMatch.ReverseAlertPageRequest} {originalUrl finalUrl : String} {s : Db}
    {q : PageRow} {pages : List PageRow} {o : Option (PageRevisionRow × Bool)}
    {rows : List PageRevisionRow}
    (hpage : pagesTable.insertOrUpdate PageRow.sameUrl
      (Store.seenAgain now request.fetchedAt.timestamptz) d d.pages
      (Store.newPage now (ids 0) T sourceId finalUrl request.fetchedAt.timestamptz)
        = .ok (q, pages))
    (hrevision : pageRevisionsTable.insertOrSelect PageRevisionRow.sameContent
      (Store.knownRevision T q.id (ReverseMatch.contentSha256 x request.contentText))
      { d with pages := pages } s.pageRevisions d.pageRevisions
      (Store.newPageRevision x now (ids 1) T q.id q.latestRevisionId request.toPageIngestRequest
        originalUrl finalUrl) = .ok (o, rows)) :
    ReverseMatch.upsertPageRevisionStatement x now ids T sourceId request originalUrl finalUrl s d
      = .ok (o.map fun (v, changed) =>
          ⟨q.id, v.id, ReverseMatch.contentSha256 x request.contentText, changed⟩,
        { d with pages := pages, pageRevisions := rows }) := by
  simp only [ReverseMatch.upsertPageRevisionStatement, hpage, hrevision, bind, Except.bind]
  rfl

theorem pageRevision_converges {now now' : Timestamp} {ids ids' : ℕ → Uuid} {sourceId : Uuid}
    {request : ReverseMatch.ReverseAlertPageRequest} {originalUrl finalUrl : String}
    {sys : Pair Db (Option ReverseMatch.PageWire)}
    (h : Interleaves Continues
      (ReverseMatch.upsertPageRevisionStatement x now ids T sourceId request originalUrl finalUrl)
      (ReverseMatch.upsertPageRevisionStatement x now' ids' T sourceId request originalUrl finalUrl)
      db l sys) {page : ReverseMatch.PageWire} (hfirst : sys.first = .committed (some page))
    (hchanged : page.changed = true) {r : Except DbErr (Option ReverseMatch.PageWire)}
    (hr : sys.second.outcome = some r) : Converges l { page with changed := false } r := by
  obtain ⟨w, d, s, hp, ⟨hvalid, hgrows⟩, hr, hs⟩ := h.second hfirst hr
  obtain ⟨⟨p, pages⟩, hpage, h1⟩ := except_bind_eq_ok hp
  obtain ⟨⟨o, rows⟩, hrevision, h2⟩ := except_bind_eq_ok h1
  obtain ⟨ho, rfl⟩ := Prod.mk.inj (Except.ok.inj h2)
  obtain ⟨-, hmem, hpT, hpsource, hpurl⟩ := upsertPage_steps (x := x) (G := fun _ _ => True) hpage
  rcases Constraints.insertOrSelect_cases hrevision with ⟨rfl, -⟩ | ⟨rfl, rfl, hadmits, hnone⟩
  · obtain ⟨⟨v, changed⟩, hv, rfl⟩ := Option.map_eq_some_iff.mp ho
    obtain ⟨t, -, ht⟩ := Option.map_eq_some_iff.mp hv
    injection ht with _ hfalse
    rw [← hfalse] at hchanged
    cases hchanged
  · obtain rfl := Option.some.inj ho
    obtain ⟨p', hp', hsame⟩ := hgrows.pages p hmem
    obtain ⟨q, pages', hpage', hq⟩ := page_again now' request.fetchedAt.timestamptz (ids' 0)
      hvalid hp' (hsame.tenantId.trans hpT) (hsame.sourceId.trans hpsource)
      (hsame.canonicalUrl.trans hpurl)
    have hq : q.id = p.id := hq.trans hsame.id
    have hagain := Constraints.insertOrSelect_again (c := pageRevisionsTable)
      (d := ({ d with pages := pages' } : Db))
      (p := Store.knownRevision T q.id (ReverseMatch.contentSha256 x request.contentText))
      (Store.newPageRevision x now (ids 1) T p.id p.latestRevisionId request.toPageIngestRequest
        originalUrl finalUrl)
      (Store.newPageRevision x now' (ids' 1) T q.id q.latestRevisionId request.toPageIngestRequest
        originalUrl finalUrl) hadmits.check
      (hgrows.pageRevisions (List.mem_append_right _ (List.mem_singleton_self _)))
      (decide_eq_true ⟨rfl, hq, rfl⟩) (decide_eq_true ⟨hq.symm, rfl, rfl⟩) ?_ hnone ?_
    · refine converges_of hr hs ?_ ?_
      · rw [pageRevisionStatement_of hpage' hagain.1, hq]
        rfl
      · rw [pageRevisionStatement_of (s := db) hpage' hagain.2]
        rfl
    · intro t ht
      obtain ⟨h1, h2, h3⟩ := of_decide_eq_true ht
      exact decide_eq_true ⟨h2.symm, hq.symm.trans h1.symm, h3.symm⟩
    · intro t ht hsame
      exact (hvalid.pageRevision_eq_of_content (hgrows.pageRevisions (List.mem_append_right _
        (List.mem_singleton_self _))) ht hsame).symm

/-! ### The four statements -/

/-- **Of two identical writes, the second gets the row of the first exactly if its
statement begins after the first has committed**, and no row if not. -/
theorem identical_writes_converge_iff (x : Platform) (T : Uuid) (db : Db) (l : List Event) :
    (∀ now now' ids ids' sourceId request originalUrl finalUrl sys page r,
      Interleaves Continues
        (ReverseMatch.upsertPageRevisionStatement x now ids T sourceId request originalUrl finalUrl)
        (ReverseMatch.upsertPageRevisionStatement x now' ids' T sourceId request originalUrl
          finalUrl) db l sys →
      sys.first = .committed (some page) → page.changed = true → sys.second.outcome = some r →
      Converges l { page with changed := false } r) ∧
    (∀ now now' id id' sourceId page embedding url wire sys row r,
      ReverseMatch.PageOf T sourceId page db → Interleaves Continues
        (ReverseMatch.persistStatement page.contentSha256
          (ReverseMatch.newCandidate x now id T page embedding url wire))
        (ReverseMatch.persistStatement page.contentSha256
          (ReverseMatch.newCandidate x now' id' T page embedding url wire)) db l sys →
      sys.first = .committed (some (row, true)) → sys.second.outcome = some r →
      Converges l (row, false) r) ∧
    (∀ now now' id id' alertRuleId alertRuleRevisionId threshold record sys row r,
      Interleaves Continues
        (Store.upsertMatch
          (Store.newCandidate x now id T alertRuleId alertRuleRevisionId threshold record))
        (Store.upsertMatch
          (Store.newCandidate x now' id' T alertRuleId alertRuleRevisionId threshold record))
        db l sys →
      sys.first = .committed (some (row, true)) → sys.second.outcome = some r →
      Converges l (row, false) r) ∧
    (∀ now now' id id' alertRuleId request sys row r,
      Interleaves Eq
        (ReverseMatch.upsertAlertRuleEmbeddingStatement x now id T alertRuleId request)
        (ReverseMatch.upsertAlertRuleEmbeddingStatement x now' id' T alertRuleId request) db l sys →
      sys.first = .committed (some (row, true)) → sys.second.outcome = some r →
      Converges l (row, false) r) :=
  ⟨fun _ _ _ _ _ _ _ _ _ _ _ h hfirst hchanged hr => pageRevision_converges h hfirst hchanged hr,
    fun _ _ _ _ _ _ _ _ _ _ _ _ hpage h hfirst hr => persist_converges hpage h hfirst hr,
    fun _ _ _ _ _ _ _ _ _ _ _ h hfirst hr => evaluate_converges h hfirst hr,
    fun _ _ _ _ _ _ _ _ _ h hfirst hr => alertEmbedding_converges h hfirst hr⟩

/-! ### Embedding one rule twice -/

namespace Scenario

/-- The store with the source and the rule. -/
def ruled : Db := EmbeddedAlerts.after Platform.sample [createSource, createRule] Db.empty

/-- The statement that embeds the rule, with the UUID it draws. -/
def embedding (id : Uuid) : Statement Db (Option (AlertRuleEmbeddingRow × Bool)) :=
  ReverseMatch.upsertAlertRuleEmbeddingStatement Platform.sample 0 id 1 20 ⟨21, ⟨space, axis⟩⟩

def embeddingRow : AlertRuleEmbeddingRow :=
  ReverseMatch.newAlertEmbedding Platform.sample 0 25 1 20 21 ⟨space, axis⟩

def embeddedOnce : Db := { ruled with alertRuleEmbeddings := [embeddingRow] }

theorem embedding_first :
    embedding 25 ruled ruled = .ok (some (embeddingRow, true), embeddedOnce) := by
  decide +kernel

/-- The second statement begins before the first transaction commits. -/
def early : List Event :=
  [.begins .first, .begins .second, .runs .first, .commits .first, .runs .second]

def late : List Event :=
  [.begins .first, .runs .first, .commits .first, .begins .second, .runs .second]

theorem interleaves_early : Interleaves Eq (embedding 25) (embedding 26) ruled early
    ⟨embeddedOnce, .committed (some (embeddingRow, true)), .ran none embeddedOnce⟩ :=
  .runSecond (.commitFirst (.runFirst (.beginSecond (.beginFirst .start)) embedding_first) rfl)
    (by decide +kernel)

theorem interleaves_late : Interleaves Eq (embedding 25) (embedding 26) ruled late
    ⟨embeddedOnce, .committed (some (embeddingRow, true)),
      .ran (some (embeddingRow, false)) embeddedOnce⟩ :=
  .runSecond (.beginSecond (.commitFirst (.runFirst (.beginFirst .start) embedding_first) rfl))
    (by decide +kernel)

end Scenario

open Scenario in
/-- **The same embedding written twice at once**: the second statement gets no
row, and its caller is told that the rule is not active. -/
theorem identical_writes_diverge :
    ¬ ∀ l sys row r, Interleaves Eq (embedding 25) (embedding 26) ruled l sys →
      sys.first = .committed (some (row, true)) → sys.second.outcome = some r →
      r = .ok (some (row, false)) := by
  intro h
  have hrow := h early _ embeddingRow (.ok none) interleaves_early rfl rfl
  cases hrow

open Scenario in
theorem identical_writes_converge_iff_sample :
    Late late ∧ Converges late (embeddingRow, false) (.ok (some (embeddingRow, false))) :=
  ⟨by decide, (identical_writes_converge_iff Platform.sample 1 ruled late).2.2.2 0 0 25 26 20
    ⟨21, ⟨space, axis⟩⟩ _ embeddingRow _ interleaves_late rfl rfl⟩

end EmbeddedAlerts
