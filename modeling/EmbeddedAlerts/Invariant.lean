import EmbeddedAlerts.Steps

/-!
# The invariant

`Wf x db` is what every request may rely on and every step keeps.

* `Db.Valid`: the declared constraints.
* A page revision is in the tenant of its page and an embedding in the tenant of
  its page revision: the foreign keys alone would let the tenants differ.
* The active revision of a rule belongs to that rule, although the query that
  reads it joins on the revision's id and tenant only.
* The vectors in the store passed `validate`.
* Every candidate is identified (`Identifies`).

`Wf.step` is proved table by table: `Step.grows` carries the rows that were there,
and the guard of the step gives what the new row needs.  `Wf.steps` is the same
over a run.
-/

namespace EmbeddedAlerts

open Sql SourceScope Relation

/-! ### Keys are symmetric -/

theorem sourcesTable_symm (r s : SourceRow) :
    sourcesTable.sameKey r s = sourcesTable.sameKey s r := by
  simp only [sourcesTable, SourceRow.sameRoot, eq_comm]

theorem pagesTable_symm (r s : PageRow) :
    pagesTable.sameKey r s = pagesTable.sameKey s r := by
  simp only [pagesTable, PageRow.sameUrl, eq_comm]

theorem pageRevisionsTable_symm (r s : PageRevisionRow) :
    pageRevisionsTable.sameKey r s = pageRevisionsTable.sameKey s r := by
  simp only [pageRevisionsTable, PageRevisionRow.sameContent, eq_comm]

theorem embeddingsTable_symm (r s : EmbeddingRow) :
    embeddingsTable.sameKey r s = embeddingsTable.sameKey s r := by
  simp only [embeddingsTable, EmbeddingRow.sameSpace, eq_comm]

theorem alertRulesTable_symm (r s : AlertRuleRow) :
    alertRulesTable.sameKey r s = alertRulesTable.sameKey s r := by
  simp only [alertRulesTable, eq_comm]

theorem alertRuleRevisionsTable_symm (r s : AlertRuleRevisionRow) :
    alertRuleRevisionsTable.sameKey r s = alertRuleRevisionsTable.sameKey s r := by
  simp only [alertRuleRevisionsTable, AlertRuleRevisionRow.sameNumber, eq_comm]

theorem alertRuleEmbeddingsTable_symm (r s : AlertRuleEmbeddingRow) :
    alertRuleEmbeddingsTable.sameKey r s = alertRuleEmbeddingsTable.sameKey s r := by
  simp only [alertRuleEmbeddingsTable, AlertRuleEmbeddingRow.sameSpace, eq_comm]

theorem matchCandidatesTable_symm (r s : MatchCandidateRow) :
    matchCandidatesTable.sameKey r s = matchCandidatesTable.sameKey s r := by
  simp only [matchCandidatesTable, MatchCandidateRow.sameMatchKey, eq_comm]

/-! ### Rows that agree on a key -/

namespace Db.Valid

variable {db : Db} (h : db.Valid)

include h

theorem source_eq {r s : SourceRow} (hr : r ∈ db.sources) (hs : s ∈ db.sources)
    (hid : r.id = s.id) : r = s :=
  h.sources.eq_of_sameKey sourcesTable_symm hr hs (by simp [sourcesTable, hid])

theorem page_eq {r s : PageRow} (hr : r ∈ db.pages) (hs : s ∈ db.pages) (hid : r.id = s.id) :
    r = s :=
  h.pages.eq_of_sameKey pagesTable_symm hr hs (by simp [pagesTable, hid])

theorem page_eq_of_url {r s : PageRow} (hr : r ∈ db.pages) (hs : s ∈ db.pages)
    (hu : r.sameUrl s = true) : r = s :=
  h.pages.eq_of_sameKey pagesTable_symm hr hs (by simp [pagesTable, hu])

theorem pageRevision_eq {r s : PageRevisionRow} (hr : r ∈ db.pageRevisions)
    (hs : s ∈ db.pageRevisions) (hid : r.id = s.id) : r = s :=
  h.pageRevisions.eq_of_sameKey pageRevisionsTable_symm hr hs (by simp [pageRevisionsTable, hid])

theorem pageRevision_eq_of_content {r s : PageRevisionRow} (hr : r ∈ db.pageRevisions)
    (hs : s ∈ db.pageRevisions) (hk : r.sameContent s = true) : r = s :=
  h.pageRevisions.eq_of_sameKey pageRevisionsTable_symm hr hs (by simp [pageRevisionsTable, hk])

theorem embedding_eq_of_space {r s : EmbeddingRow} (hr : r ∈ db.embeddings)
    (hs : s ∈ db.embeddings) (hk : r.sameSpace s = true) : r = s :=
  h.embeddings.eq_of_sameKey embeddingsTable_symm hr hs (by simp [embeddingsTable, hk])

theorem alertRule_eq {r s : AlertRuleRow} (hr : r ∈ db.alertRules) (hs : s ∈ db.alertRules)
    (hid : r.id = s.id) : r = s :=
  h.alertRules.eq_of_sameKey alertRulesTable_symm hr hs (by simp [alertRulesTable, hid])

theorem alertRuleRevision_eq {r s : AlertRuleRevisionRow} (hr : r ∈ db.alertRuleRevisions)
    (hs : s ∈ db.alertRuleRevisions) (hid : r.id = s.id) : r = s :=
  h.alertRuleRevisions.eq_of_sameKey alertRuleRevisionsTable_symm hr hs
    (by simp [alertRuleRevisionsTable, hid])

theorem alertRuleEmbedding_eq_of_space {r s : AlertRuleEmbeddingRow}
    (hr : r ∈ db.alertRuleEmbeddings) (hs : s ∈ db.alertRuleEmbeddings)
    (hk : r.sameSpace s = true) : r = s :=
  h.alertRuleEmbeddings.eq_of_sameKey alertRuleEmbeddingsTable_symm hr hs
    (by simp [alertRuleEmbeddingsTable, hk])

theorem candidate_eq_of_key {r s : MatchCandidateRow} (hr : r ∈ db.matchCandidates)
    (hs : s ∈ db.matchCandidates) (hk : r.sameMatchKey s = true) : r = s :=
  h.matchCandidates.eq_of_sameKey matchCandidatesTable_symm hr hs
    (by simp [matchCandidatesTable, hk])

end Db.Valid

/-! ### Constraints along a step -/

section Valid

variable {db db' : Db} (h : db.Valid) (hg : Grows db db')

include h

theorem Db.Valid.sources_mono : sourcesTable.Holds db' db.sources :=
  h.sources.mono fun _ h => h

include hg

theorem Db.Valid.pages_mono : pagesTable.Holds db' db.pages :=
  h.pages.mono fun _ => hg.refs_page

theorem Db.Valid.pageRevisions_mono : pageRevisionsTable.Holds db' db.pageRevisions :=
  h.pageRevisions.mono fun _ => hg.refs_pageRevision

theorem Db.Valid.embeddings_mono : embeddingsTable.Holds db' db.embeddings :=
  h.embeddings.mono fun _ => hg.refs_embedding

theorem Db.Valid.alertRules_mono : alertRulesTable.Holds db' db.alertRules :=
  h.alertRules.mono fun _ => hg.refs_alertRule

theorem Db.Valid.alertRuleRevisions_mono :
    alertRuleRevisionsTable.Holds db' db.alertRuleRevisions :=
  h.alertRuleRevisions.mono fun _ => hg.refs_alertRuleRevision

theorem Db.Valid.alertRuleEmbeddings_mono :
    alertRuleEmbeddingsTable.Holds db' db.alertRuleEmbeddings :=
  h.alertRuleEmbeddings.mono fun _ => hg.refs_alertRuleEmbedding

theorem Db.Valid.matchCandidates_mono : matchCandidatesTable.Holds db' db.matchCandidates :=
  h.matchCandidates.mono fun _ => hg.refs_matchCandidate

end Valid

variable {x : Platform} {G : Db → MatchCandidateRow → Prop} {T : Uuid} {db db' : Db}

/-- **A write keeps the declared constraints.** -/
theorem Write.valid (hs : Write T db db') (h : db.Valid) : db'.Valid := by
  have hg := hs.grows
  cases hs with
  | addSource admits _ =>
    exact ⟨h.sources.append admits (fun s _ => sourcesTable_symm s _) fun _ h => h,
      h.pages_mono hg, h.pageRevisions_mono hg, h.embeddings_mono hg, h.alertRules_mono hg,
      h.alertRuleRevisions_mono hg, h.alertRuleEmbeddings_mono hg, h.matchCandidates_mono hg⟩
  | addPage admits _ =>
    exact ⟨h.sources_mono,
      h.pages.append admits (fun s _ => pagesTable_symm s _) fun _ => hg.refs_page,
      h.pageRevisions_mono hg, h.embeddings_mono hg, h.alertRules_mono hg,
      h.alertRuleRevisions_mono hg, h.alertRuleEmbeddings_mono hg, h.matchCandidates_mono hg⟩
  | touchPages same _ refs =>
    refine ⟨h.sources_mono, h.pages.map (fun _ _ => rfl) (fun r s => ?_)
      (fun r hr => hg.refs_page ?_),
      h.pageRevisions_mono hg, h.embeddings_mono hg, h.alertRules_mono hg,
      h.alertRuleRevisions_mono hg, h.alertRuleEmbeddings_mono hg, h.matchCandidates_mono hg⟩
    · simp only [pagesTable, PageRow.sameUrl, (same r).id, (same s).id, (same r).tenantId,
        (same s).tenantId, (same r).sourceId, (same s).sourceId, (same r).canonicalUrl,
        (same s).canonicalUrl]
    · rcases refs r hr with hlatest | hrefs
      · have := h.pages.refs r hr
        simpa only [pagesTable, (same r).sourceId, hlatest] using this
      · exact hrefs
  | addPageRevision admits _ =>
    exact ⟨h.sources_mono, h.pages_mono hg,
      h.pageRevisions.append admits (fun s _ => pageRevisionsTable_symm s _)
        fun _ => hg.refs_pageRevision,
      h.embeddings_mono hg, h.alertRules_mono hg,
      h.alertRuleRevisions_mono hg, h.alertRuleEmbeddings_mono hg, h.matchCandidates_mono hg⟩
  | addEmbedding admits _ =>
    exact ⟨h.sources_mono, h.pages_mono hg, h.pageRevisions_mono hg,
      h.embeddings.append admits (fun s _ => embeddingsTable_symm s _) fun _ => hg.refs_embedding,
      h.alertRules_mono hg,
      h.alertRuleRevisions_mono hg, h.alertRuleEmbeddings_mono hg, h.matchCandidates_mono hg⟩
  | addRule admits _ =>
    exact ⟨h.sources_mono, h.pages_mono hg, h.pageRevisions_mono hg, h.embeddings_mono hg,
      h.alertRules.append admits (fun s _ => alertRulesTable_symm s _) fun _ => hg.refs_alertRule,
      h.alertRuleRevisions_mono hg, h.alertRuleEmbeddings_mono hg, h.matchCandidates_mono hg⟩
  | addRuleRevision admits _ =>
    exact ⟨h.sources_mono, h.pages_mono hg, h.pageRevisions_mono hg, h.embeddings_mono hg,
      h.alertRules_mono hg,
      h.alertRuleRevisions.append admits (fun s _ => alertRuleRevisionsTable_symm s _)
        fun _ => hg.refs_alertRuleRevision,
      h.alertRuleEmbeddings_mono hg, h.matchCandidates_mono hg⟩
  | touchRules same _ refs =>
    refine ⟨h.sources_mono, h.pages_mono hg, h.pageRevisions_mono hg, h.embeddings_mono hg,
      h.alertRules.map (fun r hr => ?_) (fun r s => ?_) (fun r hr => hg.refs_alertRule ?_),
      h.alertRuleRevisions_mono hg, h.alertRuleEmbeddings_mono hg, h.matchCandidates_mono hg⟩
    · have := h.alertRules.check r hr
      simpa only [alertRulesTable, (same r).ownerSubject] using this
    · simp only [alertRulesTable, (same r).id, (same s).id]
    · rcases refs r hr with hfr | hrefs
      · rw [hfr]
        exact h.alertRules.refs r hr
      · exact hrefs
  | addAlertEmbedding admits _ =>
    exact ⟨h.sources_mono, h.pages_mono hg, h.pageRevisions_mono hg, h.embeddings_mono hg,
      h.alertRules_mono hg, h.alertRuleRevisions_mono hg,
      h.alertRuleEmbeddings.append admits (fun s _ => alertRuleEmbeddingsTable_symm s _)
        fun _ => hg.refs_alertRuleEmbedding,
      h.matchCandidates_mono hg⟩
  | addCandidate admits _ =>
    exact ⟨h.sources_mono, h.pages_mono hg, h.pageRevisions_mono hg, h.embeddings_mono hg,
      h.alertRules_mono hg, h.alertRuleRevisions_mono hg, h.alertRuleEmbeddings_mono hg,
      h.matchCandidates.append admits (fun s _ => matchCandidatesTable_symm s _)
        fun _ => hg.refs_matchCandidate⟩

theorem Step.valid (hs : Step x G T db db') (h : db.Valid) : db'.Valid := hs.write.valid h

/-! ### The invariant -/

/-- What every request may rely on. -/
structure Wf (x : Platform) (db : Db) : Prop where
  valid : db.Valid
  page : ∀ v ∈ db.pageRevisions, ∃ p ∈ db.pages, p.id = v.pageId ∧ p.tenantId = v.tenantId
  revision : ∀ e ∈ db.embeddings, ∃ v ∈ db.pageRevisions,
    v.id = e.revisionId ∧ v.tenantId = e.tenantId
  embedding : ∀ e ∈ db.embeddings, Validated x e.space e.embedding
  active : ∀ r ∈ db.alertRules, ∀ id, r.activeRevisionId = some id →
    ∃ v ∈ db.alertRuleRevisions, v.id = id ∧ v.tenantId = r.tenantId ∧ v.alertRuleId = r.id
  filters : ∀ v ∈ db.alertRuleRevisions, CanonicalFilters v.sourceFilters
  alertRevision : ∀ a ∈ db.alertRuleEmbeddings,
    EnabledRevision db a.tenantId a.alertRuleId a.alertRuleRevisionId a.space.model
  alertEmbedding : ∀ a ∈ db.alertRuleEmbeddings, Validated x a.space a.embedding
  candidate : ∀ r ∈ db.matchCandidates, ∃ i, Identifies x db r i

theorem Wf.empty (x : Platform) : Wf x Db.empty where
  valid := Db.valid_empty
  page := by simp [Db.empty]
  revision := by simp [Db.empty]
  embedding := by simp [Db.empty]
  active := by simp [Db.empty]
  filters := by simp [Db.empty]
  alertRevision := by simp [Db.empty]
  alertEmbedding := by simp [Db.empty]
  candidate := by simp [Db.empty]

theorem EnabledRevision.mono {tenantId ruleId revisionId : Uuid} {model : String}
    (h : EnabledRevision db tenantId ruleId revisionId model) (hg : Grows db db') :
    EnabledRevision db' tenantId ruleId revisionId model := by
  obtain ⟨v, hv, h⟩ := h
  exact ⟨v, hg.alertRuleRevisions hv, h⟩

theorem forall_mem_append_singleton {α : Type} {p : α → Prop} {l : List α} {a : α}
    (hl : ∀ b ∈ l, p b) (ha : p a) : ∀ b ∈ l ++ [a], p b := by
  intro b hb
  rcases List.mem_append.mp hb with hb | hb
  · exact hl b hb
  · rw [List.mem_singleton.mp hb]
    exact ha

section Carry

variable (h : Wf x db) (hg : Grows db db')

include h hg

theorem Wf.page_mono : ∀ v ∈ db.pageRevisions, ∃ p ∈ db'.pages,
    p.id = v.pageId ∧ p.tenantId = v.tenantId := by
  intro v hv
  obtain ⟨p, hp, hid, ht⟩ := h.page v hv
  obtain ⟨q, hq, hpq⟩ := hg.pages p hp
  exact ⟨q, hq, hpq.id.trans hid, hpq.tenantId.trans ht⟩

theorem Wf.revision_mono : ∀ e ∈ db.embeddings, ∃ v ∈ db'.pageRevisions,
    v.id = e.revisionId ∧ v.tenantId = e.tenantId := by
  intro e he
  obtain ⟨v, hv, h⟩ := h.revision e he
  exact ⟨v, hg.pageRevisions hv, h⟩

theorem Wf.active_mono : ∀ r ∈ db.alertRules, ∀ id, r.activeRevisionId = some id →
    ∃ v ∈ db'.alertRuleRevisions, v.id = id ∧ v.tenantId = r.tenantId ∧ v.alertRuleId = r.id := by
  intro r hr id hid
  obtain ⟨v, hv, h⟩ := h.active r hr id hid
  exact ⟨v, hg.alertRuleRevisions hv, h⟩

theorem Wf.alertRevision_mono : ∀ a ∈ db.alertRuleEmbeddings,
    EnabledRevision db' a.tenantId a.alertRuleId a.alertRuleRevisionId a.space.model :=
  fun a ha => (h.alertRevision a ha).mono hg

theorem Wf.candidate_mono : ∀ r ∈ db.matchCandidates, ∃ i, Identifies x db' r i := by
  intro r hr
  obtain ⟨i, hi⟩ := h.candidate r hr
  exact ⟨i, hi.mono hg⟩

end Carry

/-- **A step keeps the invariant.** -/
theorem Wf.step (h : Wf x db) (hs : Step x G T db db') : Wf x db' := by
  have hg := hs.grows
  have hv := hs.valid h.valid
  have hold : db'.pageRevisions = db.pageRevisions → db'.embeddings = db.embeddings →
      db'.alertRules = db.alertRules → db'.alertRuleRevisions = db.alertRuleRevisions →
      db'.alertRuleEmbeddings = db.alertRuleEmbeddings →
      db'.matchCandidates = db.matchCandidates → Wf x db' := by
    intro h1 h2 h3 h4 h5 h6
    refine ⟨hv, ?_, ?_, ?_, ?_, ?_, ?_, ?_, ?_⟩
    · rw [h1]; exact h.page_mono hg
    · rw [h2]; exact h.revision_mono hg
    · rw [h2]; exact h.embedding
    · rw [h3]; exact h.active_mono hg
    · rw [h4]; exact h.filters
    · rw [h5]; exact h.alertRevision_mono hg
    · rw [h5]; exact h.alertEmbedding
    · rw [h6]; exact h.candidate_mono hg
  cases hs with
  | addSource | addPage | touchPages => exact hold rfl rfl rfl rfl rfl rfl
  | addPageRevision _ _ page =>
    exact ⟨hv, forall_mem_append_singleton (h.page_mono hg) page, h.revision_mono hg,
      h.embedding, h.active_mono hg, h.filters, h.alertRevision_mono hg, h.alertEmbedding,
      h.candidate_mono hg⟩
  | addEmbedding _ _ revision validated =>
    exact ⟨hv, h.page_mono hg, forall_mem_append_singleton (h.revision_mono hg) revision,
      forall_mem_append_singleton h.embedding validated, h.active_mono hg, h.filters,
      h.alertRevision_mono hg, h.alertEmbedding, h.candidate_mono hg⟩
  | addRule _ _ inactive =>
    refine ⟨hv, h.page_mono hg, h.revision_mono hg, h.embedding,
      forall_mem_append_singleton (h.active_mono hg) ?_, h.filters, h.alertRevision_mono hg,
      h.alertEmbedding, h.candidate_mono hg⟩
    intro id hid
    rw [inactive] at hid
    cases hid
  | addRuleRevision _ _ filters =>
    exact ⟨hv, h.page_mono hg, h.revision_mono hg, h.embedding, h.active_mono hg,
      forall_mem_append_singleton h.filters filters, h.alertRevision_mono hg, h.alertEmbedding,
      h.candidate_mono hg⟩
  | @activate f same _ own =>
    refine ⟨hv, h.page_mono hg, h.revision_mono hg, h.embedding, ?_, h.filters,
      h.alertRevision_mono hg, h.alertEmbedding, h.candidate_mono hg⟩
    intro s hs id hid
    obtain ⟨r, hr, rfl⟩ := List.mem_map.mp hs
    rcases own r hr with hfr | ⟨v, hv, hact, htenant, hrule⟩
    · rw [hfr] at hid ⊢
      exact h.active r hr id hid
    · rw [hact] at hid
      exact ⟨v, hv, Option.some.inj hid, htenant.trans (same r).tenantId.symm,
        hrule.trans (same r).id.symm⟩
  | addAlertEmbedding _ _ revision validated =>
    exact ⟨hv, h.page_mono hg, h.revision_mono hg, h.embedding, h.active_mono hg, h.filters,
      forall_mem_append_singleton (h.alertRevision_mono hg) revision,
      forall_mem_append_singleton h.alertEmbedding validated, h.candidate_mono hg⟩
  | addCandidate _ _ identified _ =>
    obtain ⟨i, hi⟩ := identified
    exact ⟨hv, h.page_mono hg, h.revision_mono hg, h.embedding, h.active_mono hg, h.filters,
      h.alertRevision_mono hg, h.alertEmbedding,
      forall_mem_append_singleton (h.candidate_mono hg) ⟨i, hi.mono hg⟩⟩

/-! ### Along a run -/

/-- Any number of steps. -/
abbrev Steps (x : Platform) (G : Db → MatchCandidateRow → Prop) (T : Uuid) : Db → Db → Prop :=
  ReflTransGen (Step x G T)

theorem Steps.grows (h : Steps x G T db db') : Grows db db' := by
  induction h with
  | refl => exact Grows.refl db
  | tail _ hs ih => exact ih.trans hs.grows

/-- **A run of steps keeps the invariant.** -/
theorem Wf.steps (h : Wf x db) (hs : Steps x G T db db') : Wf x db' := by
  induction hs with
  | refl => exact h
  | tail _ hs ih => exact ih.step hs

theorem Steps.others_eq (h : Steps x G T db db') : db'.others T = db.others T := by
  induction h with
  | refl => rfl
  | tail _ hs ih => rw [hs.others_eq, ih]

theorem Steps.mono {H : Db → MatchCandidateRow → Prop} (hGH : ∀ db r, G db r → H db r)
    (h : Steps x G T db db') : Steps x H T db db' := by
  induction h with
  | refl => exact .refl
  | tail _ hs ih => exact ih.tail (hs.mono hGH)

/-- What holds of every new candidate, and is not lost as the tables grow, holds
of every candidate after a run, if it held of every candidate before. -/
theorem Steps.candidates (hG : ∀ {a b : Db} {r : MatchCandidateRow}, Grows a b → G a r → G b r)
    (h : Steps x G T db db') (h0 : ∀ r ∈ db.matchCandidates, G db r) :
    ∀ r ∈ db'.matchCandidates, G db' r := by
  induction h with
  | refl => exact h0
  | @tail b c _ hs ih =>
    have hg := hs.grows
    have hold : ∀ r ∈ b.matchCandidates, G c r := fun r hr => hG hg (ih r hr)
    cases hs with
    | addCandidate _ _ _ also => exact forall_mem_append_singleton hold (hG hg also)
    | addSource | addPage | touchPages | addPageRevision | addEmbedding | addRule
    | addRuleRevision | activate | addAlertEmbedding => exact hold

end EmbeddedAlerts
