import EmbeddedAlerts.Sql.Mutation
import EmbeddedAlerts.Recrawl

/-!
# Match evidence under arbitrary statements

The requests of the API only ever add rows to `eal_match_candidates`.  This file is
about anyone with a connection: any `INSERT`, `UPDATE` or `DELETE` on the tables,
in transactions that are committed or rolled back, from any state, also one with
rows older than the `NOT VALID` constraints.

`Command.exec` is one statement: the triggers of `migrations/004`–`007`, the
`ON DELETE` actions of the foreign keys and the constraints when it ends.  A delete
runs down from sources to pages, page revisions, embeddings and match candidates;
the trigger on the last table refuses every `DELETE` that reaches a row.  The
tables that are not part of the model (`eal_crawl_queue` and those of
`migrations/003`) refer to no match candidate and none refers to them, so a
statement on one of them changes nothing here.  `ON CONFLICT DO UPDATE` is an
insert or an update.

The trigger compares an updated row with the old one column by column.  The list
leaves out `status` and `updated_at`, which may change, and it leaves out `id`.
-/

namespace EmbeddedAlerts

open Sql

/-! ### The triggers -/

/-- `eal_reject_match_evidence_mutation`, as `migrations/006` leaves it. -/
def rejectMatchEvidenceMutation : Triggers MatchCandidateRow where
  insert r := .ok r
  update old new :=
    if new.tenantId ≠ old.tenantId
        ∨ new.alertRuleId ≠ old.alertRuleId
        ∨ new.alertRuleRevisionId ≠ old.alertRuleRevisionId
        ∨ new.revisionId ≠ old.revisionId
        ∨ new.embeddingId ≠ old.embeddingId
        ∨ new.matchMode ≠ old.matchMode
        ∨ new.alertEmbeddingId ≠ old.alertEmbeddingId
        ∨ new.pageEmbeddingSha256 ≠ old.pageEmbeddingSha256
        ∨ new.pageEmbeddingSpace ≠ old.pageEmbeddingSpace
        ∨ new.canonicalMatchKey ≠ old.canonicalMatchKey
        ∨ new.similarity ≠ old.similarity
        ∨ new.threshold ≠ old.threshold
        ∨ new.scoreExplanation ≠ old.scoreExplanation
        ∨ new.createdAt ≠ old.createdAt then
      .error (.raised "match identity and score evidence are immutable")
    else .ok new
  delete _ := .error (.raised "match evidence cannot be deleted")

/-- `eal_reject_alert_rule_revision_mutation`. -/
def rejectAlertRuleRevisionMutation : Triggers AlertRuleRevisionRow :=
  .immutable "alert-rule revisions are immutable"

/-- `eal_reject_alert_embedding_mutation`. -/
def rejectAlertEmbeddingMutation : Triggers AlertRuleEmbeddingRow :=
  .immutable
    "alert-rule embeddings are immutable; create a new rule revision or model-space row"

/-! ### The `ON DELETE` actions -/

/-- The rows of `eal_match_candidates` that a cascade reaches are deleted under the
trigger. -/
def deleteMatchCandidates (p : MatchCandidateRow → Bool) (db : Db) : Except DbErr Db := do
  let rows ← (Change.delete p).rows rejectMatchEvidenceMutation db.matchCandidates
  return { db with matchCandidates := rows }

/-- `eal_match_candidates.embedding_id .. on delete cascade`. -/
def onEmbeddingsDeleted (gone : List EmbeddingRow) (db : Db) : Except DbErr Db :=
  deleteMatchCandidates (fun m => gone.any fun e => decide (m.embeddingId = some e.id)) db

/-- A reference with `on delete set null`. -/
def setNull (gone : List PageRevisionRow) (reference : Option Uuid) : Option Uuid :=
  reference.filter fun v => !gone.any fun revision => decide (revision.id = v)

/-- `latest_revision_id` and `predecessor_revision_id` are set to NULL; embeddings
and match candidates of the revision are deleted. -/
def onPageRevisionsDeleted (gone : List PageRevisionRow) (db : Db) : Except DbErr Db := do
  let ofGone (revisionId : Uuid) := gone.any fun revision => decide (revision.id = revisionId)
  let db : Db := { db with
    pages := db.pages.map fun page =>
      { page with latestRevisionId := setNull gone page.latestRevisionId }
    pageRevisions := db.pageRevisions.map fun revision =>
      { revision with predecessorRevisionId := setNull gone revision.predecessorRevisionId } }
  let db ← onEmbeddingsDeleted (db.embeddings.filter fun e => ofGone e.revisionId)
    { db with embeddings := db.embeddings.filter fun e => !ofGone e.revisionId }
  deleteMatchCandidates (fun m => ofGone m.revisionId) db

/-- `eal_page_revisions.page_id .. on delete cascade`. -/
def onPagesDeleted (gone : List PageRow) (db : Db) : Except DbErr Db :=
  let ofGone (revision : PageRevisionRow) :=
    gone.any fun page => decide (page.id = revision.pageId)
  onPageRevisionsDeleted (db.pageRevisions.filter ofGone)
    { db with pageRevisions := db.pageRevisions.filter fun revision => !ofGone revision }

/-- `eal_pages.source_id .. on delete cascade`. -/
def onSourcesDeleted (gone : List SourceRow) (db : Db) : Except DbErr Db :=
  let ofGone (page : PageRow) := gone.any fun source => decide (source.id = page.sourceId)
  onPagesDeleted (db.pages.filter ofGone)
    { db with pages := db.pages.filter fun page => !ofGone page }

/-! ### Statements -/

/-- One row of an `UPDATE eal_alert_rules`.  The trigger of `migrations/007` runs if
the statement sets `active_revision_id`, and it sees the rows already written. -/
def updateAlertRule (setsActiveRevision : Bool) (set : AlertRuleRow → Option AlertRuleRow)
    (revisions : List AlertRuleRevisionRow) (rules : List AlertRuleRow) (rule : AlertRuleRow) :
    Except DbErr (List AlertRuleRow) :=
  match set rule with
  | none => .ok rules
  | some new => do
    let new ← if setsActiveRevision then
        AlertStore.enforceActiveAlertLimit rules revisions new
      else .ok new
    return rules.map fun r => if r = rule then new else r

/-- A statement on `eal_alert_rules`. -/
def changeAlertRules (setsActiveRevision : Bool) (revisions : List AlertRuleRevisionRow) :
    Change AlertRuleRow → List AlertRuleRow → Except DbErr (List AlertRuleRow)
  | .insert new, rules => new.foldlM (fun rules row => do
      let row ← AlertStore.enforceActiveAlertLimit rules revisions row
      return rules ++ [row]) rules
  | .update set, rules => rules.foldlM (updateAlertRule setsActiveRevision set revisions) rules
  | .delete p, rules => .ok (rules.filter fun rule => !p rule)

/-- A writing statement. -/
inductive Command where
  | sources (c : Change SourceRow)
  | pages (c : Change PageRow)
  | pageRevisions (c : Change PageRevisionRow)
  | embeddings (c : Change EmbeddingRow)
  | alertRules (setsActiveRevision : Bool) (c : Change AlertRuleRow)
  | alertRuleRevisions (c : Change AlertRuleRevisionRow)
  | alertRuleEmbeddings (c : Change AlertRuleEmbeddingRow)
  | matchCandidates (c : Change MatchCandidateRow)
  /-- A statement on a table outside the model. -/
  | elsewhere

/-- What the statement writes, before the constraints are looked at. -/
def Command.write : Command → Db → Except DbErr Db
  | .sources c, db => do
    let rows ← c.rows .none db.sources
    onSourcesDeleted (c.deleted db.sources) { db with sources := rows }
  | .pages c, db => do
    let rows ← c.rows .none db.pages
    onPagesDeleted (c.deleted db.pages) { db with pages := rows }
  | .pageRevisions c, db => do
    let rows ← c.rows .none db.pageRevisions
    onPageRevisionsDeleted (c.deleted db.pageRevisions) { db with pageRevisions := rows }
  | .embeddings c, db => do
    let rows ← c.rows .none db.embeddings
    onEmbeddingsDeleted (c.deleted db.embeddings) { db with embeddings := rows }
  | .alertRules setsActiveRevision c, db => do
    let rows ← changeAlertRules setsActiveRevision db.alertRuleRevisions c db.alertRules
    return { db with alertRules := rows }
  | .alertRuleRevisions c, db => do
    let rows ← c.rows rejectAlertRuleRevisionMutation db.alertRuleRevisions
    return { db with alertRuleRevisions := rows }
  | .alertRuleEmbeddings c, db => do
    let rows ← c.rows rejectAlertEmbeddingMutation db.alertRuleEmbeddings
    return { db with alertRuleEmbeddings := rows }
  | .matchCandidates c, db => do
    let rows ← c.rows rejectMatchEvidenceMutation db.matchCandidates
    return { db with matchCandidates := rows }
  | .elsewhere, db => .ok db

/-- The constraints of every table when a statement ends. -/
def Db.recheck (db db' : Db) : Except DbErr Unit := do
  sourcesTable.recheck db db' db.sources db'.sources
  pagesTable.recheck db db' db.pages db'.pages
  pageRevisionsTable.recheck db db' db.pageRevisions db'.pageRevisions
  embeddingsTable.recheck db db' db.embeddings db'.embeddings
  alertRulesTable.recheck db db' db.alertRules db'.alertRules
  alertRuleRevisionsTable.recheck db db' db.alertRuleRevisions db'.alertRuleRevisions
  alertRuleEmbeddingsTable.recheck db db' db.alertRuleEmbeddings db'.alertRuleEmbeddings
  matchCandidatesTable.recheck db db' db.matchCandidates db'.matchCandidates

/-- A statement. -/
def Command.exec (c : Command) (db : Db) : Except DbErr Db := do
  let db' ← c.write db
  db.recheck db'
  return db'

/-! ### What a statement can do to the candidates -/

/-- The trigger lets through what changes no column but `id`, `status` and
`updated_at`. -/
theorem rejectMatchEvidenceMutation_update {old new out : MatchCandidateRow}
    (h : rejectMatchEvidenceMutation.update old new = .ok out) :
    out = new ∧
      out = { old with id := out.id, status := out.status, updatedAt := out.updatedAt } := by
  cases old
  cases new
  simp only [rejectMatchEvidenceMutation] at h
  split_ifs at h with hchanged
  rw [← Except.ok.inj h]
  simp only [ne_eq, not_or, not_not] at hchanged
  obtain ⟨rfl, rfl, rfl, rfl, rfl, rfl, rfl, rfl, rfl, rfl, rfl, rfl, rfl, rfl⟩ := hchanged
  exact ⟨rfl, rfl⟩

theorem deleteMatchCandidates_eq {p : MatchCandidateRow → Bool} {db db' : Db}
    (h : deleteMatchCandidates p db = .ok db') : db' = db := by
  obtain ⟨rows, hrows, h⟩ := except_bind_eq_ok h
  rw [← Except.ok.inj h, Change.rows_delete_eq (fun _ => ⟨_, rfl⟩) hrows]

theorem onEmbeddingsDeleted_candidates {gone : List EmbeddingRow} {db db' : Db}
    (h : onEmbeddingsDeleted gone db = .ok db') : db'.matchCandidates = db.matchCandidates := by
  rw [deleteMatchCandidates_eq h]

theorem onPageRevisionsDeleted_candidates {gone : List PageRevisionRow} {db db' : Db}
    (h : onPageRevisionsDeleted gone db = .ok db') :
    db'.matchCandidates = db.matchCandidates := by
  obtain ⟨middle, hmiddle, h⟩ := except_bind_eq_ok h
  have hkept := onEmbeddingsDeleted_candidates hmiddle
  rw [deleteMatchCandidates_eq h]
  exact hkept

theorem onPagesDeleted_candidates {gone : List PageRow} {db db' : Db}
    (h : onPagesDeleted gone db = .ok db') : db'.matchCandidates = db.matchCandidates := by
  have hkept := onPageRevisionsDeleted_candidates h
  exact hkept

theorem onSourcesDeleted_candidates {gone : List SourceRow} {db db' : Db}
    (h : onSourcesDeleted gone db = .ok db') : db'.matchCandidates = db.matchCandidates := by
  have hkept := onPagesDeleted_candidates h
  exact hkept

/-- **No statement on another table reaches the candidates**, through a cascade or
otherwise. -/
theorem Command.write_candidates {c : Command} {db db' : Db} (h : c.write db = .ok db') :
    db'.matchCandidates = db.matchCandidates ∨
      ∃ change, c = .matchCandidates change ∧
        change.rows rejectMatchEvidenceMutation db.matchCandidates = .ok db'.matchCandidates := by
  cases c with
  | sources c =>
    obtain ⟨rows, -, h⟩ := except_bind_eq_ok h
    have hkept := onSourcesDeleted_candidates h
    exact Or.inl hkept
  | pages c =>
    obtain ⟨rows, -, h⟩ := except_bind_eq_ok h
    have hkept := onPagesDeleted_candidates h
    exact Or.inl hkept
  | pageRevisions c =>
    obtain ⟨rows, -, h⟩ := except_bind_eq_ok h
    have hkept := onPageRevisionsDeleted_candidates h
    exact Or.inl hkept
  | embeddings c =>
    obtain ⟨rows, -, h⟩ := except_bind_eq_ok h
    have hkept := onEmbeddingsDeleted_candidates h
    exact Or.inl hkept
  | alertRules setsActiveRevision c =>
    obtain ⟨rows, -, h⟩ := except_bind_eq_ok h
    rw [← Except.ok.inj h]
    exact Or.inl rfl
  | alertRuleRevisions c =>
    obtain ⟨rows, -, h⟩ := except_bind_eq_ok h
    rw [← Except.ok.inj h]
    exact Or.inl rfl
  | alertRuleEmbeddings c =>
    obtain ⟨rows, -, h⟩ := except_bind_eq_ok h
    rw [← Except.ok.inj h]
    exact Or.inl rfl
  | matchCandidates c =>
    obtain ⟨rows, hrows, h⟩ := except_bind_eq_ok h
    rw [← Except.ok.inj h]
    exact Or.inr ⟨c, rfl, hrows⟩
  | elsewhere =>
    rw [← Except.ok.inj h]
    exact Or.inl rfl

/-! ### Runs -/

/-- `r'` is `r` with perhaps another `status` and another `updated_at`. -/
def MatchCandidateRow.EvidenceKept (r r' : MatchCandidateRow) : Prop :=
  r' = { r with status := r'.status, updatedAt := r'.updatedAt }

theorem MatchCandidateRow.EvidenceKept.rfl {r : MatchCandidateRow} : r.EvidenceKept r := Eq.refl r

theorem MatchCandidateRow.EvidenceKept.trans {r s t : MatchCandidateRow}
    (hrs : r.EvidenceKept s) (hst : s.EvidenceKept t) : r.EvidenceKept t := by
  rw [EvidenceKept] at hrs hst ⊢
  rw [hst, hrs]

/-- Every candidate is still there, with its evidence. -/
def Db.EvidenceKept (db db' : Db) : Prop :=
  ∀ r ∈ db.matchCandidates, ∃ r' ∈ db'.matchCandidates, r.EvidenceKept r'

instance : Std.Refl Db.EvidenceKept := ⟨fun _ r hr => ⟨r, hr, .rfl⟩⟩

instance : IsTrans Db Db.EvidenceKept where
  trans _ _ _ h h' r hr := by
    obtain ⟨s, hs, hrs⟩ := h r hr
    obtain ⟨t, ht, hst⟩ := h' s hs
    exact ⟨t, ht, hrs.trans hst⟩

/-- The statement is no `UPDATE eal_match_candidates` that gives a row another
`id`. -/
def Command.KeepsCandidateIds : Command → Db → Prop
  | .matchCandidates (.update set), db =>
    ∀ r ∈ db.matchCandidates, ∀ r', set r = some r' → r'.id = r.id
  | _, _ => True

/-- **One statement keeps the evidence** if it renames no candidate. -/
theorem Command.exec_kept (c : Command) (db db' : Db) (hids : c.KeepsCandidateIds db)
    (h : c.exec db = .ok db') : db.EvidenceKept db' := by
  obtain ⟨written, hwritten, h⟩ := except_bind_eq_ok h
  obtain ⟨_, -, h⟩ := except_bind_eq_ok h
  rw [← Except.ok.inj h]
  intro r hr
  rcases Command.write_candidates hwritten with hsame | ⟨change, rfl, hrows⟩
  · exact ⟨r, hsame ▸ hr, .rfl⟩
  · rcases Change.rows_cases (fun _ => ⟨_, rfl⟩) hrows with ⟨new, hnew⟩ | ⟨set, rfl, hset⟩
    · exact ⟨r, hnew ▸ List.mem_append_left _ hr, .rfl⟩
    · obtain ⟨r', hr', hupdate⟩ := exists_of_forall₂_left hset hr
      refine ⟨r', hr', ?_⟩
      rw [Change.updateRow] at hupdate
      rcases hrow : set r with _ | new
      · rw [hrow] at hupdate
        rw [← Except.ok.inj hupdate]
        exact .rfl
      · rw [hrow] at hupdate
        obtain ⟨rfl, hcolumns⟩ := rejectMatchEvidenceMutation_update hupdate
        rw [hids r hr r' hrow] at hcolumns
        exact hcolumns

/-- **Match evidence is permanent in every run that renames no candidate**: a
candidate that has been committed is in every later state, committed or not, with
every column but `status` and `updated_at` as it was. -/
theorem match_evidence_permanent (db : Db) (before later : List (SessionStep Command))
    (hids : Session.Obeys Command.exec Command.KeepsCandidateIds (Session.start db)
      (before ++ later))
    (r : MatchCandidateRow)
    (hr : r ∈ (Session.run Command.exec (Session.start db) before).committed.matchCandidates) :
    (∃ r' ∈ (Session.run Command.exec (Session.start db)
        (before ++ later)).committed.matchCandidates, r.EvidenceKept r') ∧
      ∃ r' ∈ (Session.run Command.exec (Session.start db)
        (before ++ later)).working.matchCandidates, r.EvidenceKept r' := by
  rw [Session.run_append]
  obtain ⟨hbefore, hlater⟩ := Session.obeys_append.mp hids
  have hopen := (Session.run_kept Command.exec_kept (refl_of Db.EvidenceKept db) hbefore).2
  obtain ⟨hcommitted, hworking⟩ := Session.run_kept Command.exec_kept hopen hlater
  exact ⟨hcommitted r hr, trans_of Db.EvidenceKept hcommitted hworking r hr⟩

/-! ### A candidate that is renamed -/

namespace Scenario

/-- `UPDATE eal_match_candidates SET id = ..`. -/
def rename (id : Uuid) : Command :=
  .matchCandidates (.update fun r => some { r with id := id })

/-- `UPDATE eal_match_candidates SET status = 'delivered', updated_at = ..`. -/
def deliver (now : Timestamp) : Command :=
  .matchCandidates (.update fun r => some { r with status := .delivered, updatedAt := now })

/-- `DELETE FROM eal_sources`. -/
def dropSources : Command := .sources (.delete fun _ => true)

end Scenario

open Scenario in
/-- **The trigger does not look at `id`**: an update of that column is let through
and committed. -/
theorem match_evidence_renamed :
    ∃ r ∈ (Session.run Command.exec (Session.start crawled) []).committed.matchCandidates,
      ¬∃ r' ∈ (Session.run Command.exec (Session.start crawled)
        ([] ++ [.command (rename 999), .commit])).committed.matchCandidates, r'.id = r.id := by
  decide +kernel

open Scenario in
theorem match_evidence_permanent_sample : ∃ r ∈ crawled.matchCandidates,
    ∃ r' ∈ (Session.run Command.exec (Session.start crawled)
      ([] ++ [.command (deliver 9), .commit, .command dropSources, .rollback])
        ).committed.matchCandidates, r.EvidenceKept r' := by
  have hmem : crawled.matchCandidates ≠ [] := by decide +kernel
  obtain ⟨r, hr⟩ := List.exists_mem_of_ne_nil _ hmem
  refine ⟨r, hr, (match_evidence_permanent crawled [] _ ?_ r hr).1⟩
  refine ⟨?_, trivial, trivial⟩
  rintro r - r' h
  rw [← Option.some.inj h]

end EmbeddedAlerts
