import EmbeddedAlerts.Requests

/-!
# Provenance of match evidence

Every candidate can be traced to the rows it was made from.  `Provenance` names
them: the rule, its revision, the page revision, its page and the model space in
which the two vectors were compared.

`candidates_coherent`: in every store that requests reach, every candidate has
its provenance in its own tenant, whichever of the two paths wrote it.  The
historical path reads its rule through a join that does not ask whose revision it
is; that it is the rule's own is `Wf.active`.  The source scope is checked as a
list of UUIDs on one path and as a JSON string on the other; both come down to
the canonical filters (`Wf.filters`).
-/

namespace EmbeddedAlerts

open Sql SourceScope

/-- The rows a candidate was made from. -/
structure Provenance (x : Platform) (db : Db) (row : MatchCandidateRow) (rule : AlertRuleRow)
    (revision : AlertRuleRevisionRow) (pageRevision : PageRevisionRow) (page : PageRow)
    (space : ModelSpace) : Prop where
  rule_mem : rule ∈ db.alertRules
  rule_id : rule.id = row.alertRuleId
  rule_tenant : rule.tenantId = row.tenantId
  revision_mem : revision ∈ db.alertRuleRevisions
  revision_id : row.alertRuleRevisionId = some revision.id
  revision_tenant : revision.tenantId = row.tenantId
  revision_rule : revision.alertRuleId = rule.id
  revision_enabled : revision.enabled = true
  pageRevision_mem : pageRevision ∈ db.pageRevisions
  pageRevision_id : pageRevision.id = row.revisionId
  pageRevision_tenant : pageRevision.tenantId = row.tenantId
  page_mem : page ∈ db.pages
  page_id : page.id = pageRevision.pageId
  page_tenant : page.tenantId = row.tenantId
  source : revision.sourceFilters = [] ∨ canonicalFilter page.sourceId ∈ revision.sourceFilters
  model : space.model = revision.embeddingModel
  evidence : Evidence db row space
  key : row.canonicalMatchKey = Store.matchKey x {
    toModelSpace := space
    tenantId := row.tenantId
    alertRuleId := rule.id
    alertRuleRevisionId := revision.id
    pageRevisionId := pageRevision.id
    contentSha256 := pageRevision.contentSha256 }

/-- The candidate has a provenance. -/
def Coherent (x : Platform) (db : Db) (row : MatchCandidateRow) : Prop :=
  ∃ rule revision pageRevision page space,
    Provenance x db row rule revision pageRevision page space

variable {x : Platform} {db db' : Db}

theorem Coherent.mono {row : MatchCandidateRow} (hg : Grows db db') (h : Coherent x db row) :
    Coherent x db' row := by
  obtain ⟨rule, revision, pageRevision, page, space, h⟩ := h
  obtain ⟨rule', hrule, hsame⟩ := hg.alertRules rule h.rule_mem
  obtain ⟨page', hpage, hsame'⟩ := hg.pages page h.page_mem
  refine ⟨rule', revision, pageRevision, page', space, { h with
    rule_mem := hrule
    rule_id := hsame.id.trans h.rule_id
    rule_tenant := hsame.tenantId.trans h.rule_tenant
    revision_mem := hg.alertRuleRevisions h.revision_mem
    revision_rule := h.revision_rule.trans hsame.id.symm
    pageRevision_mem := hg.pageRevisions h.pageRevision_mem
    page_mem := hpage
    page_id := hsame'.id.trans h.page_id
    page_tenant := hsame'.tenantId.trans h.page_tenant
    source := ?_
    evidence := h.evidence.mono hg
    key := ?_ }⟩
  · rw [hsame'.sourceId]
    exact h.source
  · rw [hsame.id]
    exact h.key

theorem inScope_of_constrained (hx : x.Lawful) {filters : List String} {requested out : List Uuid}
    {source : Uuid} (hf : CanonicalFilters filters)
    (hout : constrainSearchSources x filters requested = .ok out)
    (hsource : out = [] ∨ source ∈ out) : filters = [] ∨ canonicalFilter source ∈ filters := by
  obtain ⟨ids, hlen, rfl⟩ := hf
  by_cases hne : ids = []
  · left
    rw [hne]
    rfl
  · right
    obtain ⟨hnonempty, hsub⟩ := constrainSearchSources_canonical hx hlen hne hout
    rcases hsource with hempty | hmem
    · exact absurd hempty hnonempty
    · exact List.mem_map_of_mem (hsub source hmem)

/-- **A historical candidate is coherent.** -/
theorem evaluateAllows_coherent (hx : x.Lawful) (hwf : Wf x db) (call : Call) :
    EvaluateAllows x (Coherent x) call db := by
  intro input rule threshold search _ hfor d hg record hhit now id
  obtain ⟨r, hr, v, hv, hrT, hrid, hactive, hvT, hrule⟩ := hfor.joined
  have howned := hfor.owned hwf
  have hident := hhit.identifies howned now id threshold
  obtain ⟨e, he, w, hw, p, hp, heT, hspace, hwid, hwT, hpid, hpT, hsource, -, hrec⟩ := hhit
  obtain ⟨-, -, -, hrevision, hrecspace, hsha⟩ := Store.SearchWire.intoRecord_ok hrec
  have hrev : rule.revisionId = v.id := by rw [hrule]; rfl
  have hown : v.alertRuleId = r.id := by
    obtain ⟨v', hv', hid, -, hruleId⟩ := howned
    rw [← hwf.valid.alertRuleRevision_eq hv' hv (hid.trans hrev), hruleId, hrid]
  have henabled : v.enabled = true := by
    have := hfor.enabled
    rwa [hrule] at this
  have hmodel : e.space.model = v.embeddingModel := by
    have hsame := congrArg (fun s : EmbeddingSearchRequest => s.embedding.model) hfor.same
    have hrulemodel := hfor.model
    rw [hrule] at hrulemodel
    rw [hspace]
    exact hsame.trans hrulemodel
  have hscope : v.sourceFilters = [] ∨ canonicalFilter p.sourceId ∈ v.sourceFilters := by
    have hconstrained := hfor.sources
    rw [hrule] at hconstrained
    exact inScope_of_constrained hx (hwf.filters v hv) hconstrained hsource
  refine Coherent.mono hg ⟨r, v, w, p, e.space, ?_⟩
  exact {
    rule_mem := hr
    rule_id := hrid
    rule_tenant := hrT
    revision_mem := hv
    revision_id := congrArg some hrev
    revision_tenant := hvT
    revision_rule := hown
    revision_enabled := henabled
    pageRevision_mem := hw
    pageRevision_id := hrevision.symm
    pageRevision_tenant := hwT
    page_mem := hp
    page_id := hpid
    page_tenant := hpT
    source := hscope
    model := hmodel
    evidence := by
      have := hident.evidence
      rwa [show (Store.matchIdentity call.auth.tenantId input.alertRuleId rule.revisionId
        record).toModelSpace = e.space from hrecspace] at this
    key := by
      rw [hident.key]
      congr 1
      simp only [Store.matchIdentity, hrid, hrev]
      rw [show record.hit.space = e.space from hrecspace,
        show record.hit.revisionId = w.id from hrevision,
        show record.contentSha256 = w.contentSha256 from hsha]
      rfl }

/-- **A reverse candidate is coherent.** -/
theorem reverseAllows_coherent (call : Call) : ReverseAllows x (Coherent x) call db := by
  intro sourceId input _ d d' _ hg page wire hpage _ hreached now id url
  have hident := hreached.identifies hpage now id url
  obtain ⟨a, ha, r, hr, v, hv, haT, hspace, hrT, hrid, hactive, hvT, hvid, hvrule, henabled,
    hmodel, hscope, hw1, hw2, hw3, -, -⟩ := hreached
  obtain ⟨w, hw, hwid, hwT, hsha, p, hp, hpid, hpT, hsource⟩ := hpage
  have hin : v.sourceFilters = [] ∨ canonicalFilter p.sourceId ∈ v.sourceFilters := by
    rw [hsource]
    simpa [ReverseMatch.inScope] using hscope
  refine Coherent.mono hg ⟨r, v, w, p, input.embedding.toModelSpace, ?_⟩
  exact {
    rule_mem := hr
    rule_id := hrid.trans hw1.symm
    rule_tenant := hrT
    revision_mem := hv
    revision_id := congrArg some (hw2.trans hvid.symm)
    revision_tenant := hvT
    revision_rule := hvrule.trans hrid.symm
    revision_enabled := henabled
    pageRevision_mem := hw
    pageRevision_id := hwid
    pageRevision_tenant := hwT
    page_mem := hp
    page_id := hpid
    page_tenant := hpT
    source := hin
    model := hmodel.symm
    evidence := hident.evidence
    key := by
      rw [hident.key]
      congr 1
      simp only [ReverseMatch.matchIdentity, hw1, hw2, hrid, hvid, hwid, hsha]
      rfl }

/-- **Provenance coherence**: in every store that requests reach, every candidate
is coherent. -/
theorem candidates_coherent (hx : x.Lawful) (h : Reaches x (fun _ _ => True) db) :
    ∀ row ∈ db.matchCandidates, Coherent x db row :=
  h.candidates hx Coherent.mono (fun _ call hwf _ => evaluateAllows_coherent hx hwf call)
    (fun _ call _ _ => reverseAllows_coherent call)

theorem candidates_coherent_sample :
    (after Platform.sample (Scenario.setup ++ [Scenario.reverse 60 Scenario.diagonal])
        Db.empty).matchCandidates.length = 1 ∧
      ∀ row ∈ (after Platform.sample (Scenario.setup ++ [Scenario.reverse 60 Scenario.diagonal])
        Db.empty).matchCandidates,
        Coherent Platform.sample (after Platform.sample
          (Scenario.setup ++ [Scenario.reverse 60 Scenario.diagonal]) Db.empty) row :=
  ⟨by decide +kernel, candidates_coherent Platform.sample_lawful (reaches_after _)⟩

end EmbeddedAlerts
