import EmbeddedAlerts.Search
import EmbeddedAlerts.Paths

/-!
# The source scope of a search

For a rule's filters and for a request alike, no sources means all of them.
`constrainSearchSources_cases` follows that convention through parsing and through
the two sets, and `rule_scope_bounds_search` through the search: **what an
evaluation can see stays inside the scope of the rule**, and the list that means
everything comes out only if neither side restricts the search.
-/

namespace EmbeddedAlerts

open Sql

namespace SourceScope

variable {x : Platform} {filters : List String} {requested : List Uuid}

/-- The source is one that the filters of the rule name. -/
def InRuleScope (x : Platform) (filters : List String) (u : Uuid) : Prop :=
  ∃ f ∈ filters, parseSourceFilter x f = .ok u

/-- The filter names no source. -/
def Malformed (x : Platform) (filter : String) : Prop :=
  parseSourceFilter x filter = .error .invalidRuleFilter

theorem parseSourceFilter_cases (x : Platform) (filter : String) :
    Malformed x filter ∨ ∃ u, parseSourceFilter x filter = .ok u := by
  unfold Malformed parseSourceFilter
  simp only
  split_ifs
  all_goals first
    | exact Or.inl rfl
    | split
      · exact Or.inr ⟨_, rfl⟩
      · exact Or.inl rfl

theorem increasing_btreeSet (ids : List Uuid) : (btreeSet ids).Pairwise (· < ·) := by
  have hdistinct : Distinct id ids.dedup := List.nodup_dedup ids
  have hsorted : btreeSet ids = sorted id ids.dedup :=
    insertionSort_eq_sorted (fun _ _ => Iff.rfl) ids.dedup
  rw [hsorted]
  exact increasing_sorted hdistinct

theorem btreeSet_isEmpty (ids : List Uuid) : (btreeSet ids).isEmpty = true ↔ ids = [] := by
  rw [List.isEmpty_iff, List.eq_nil_iff_forall_not_mem, List.eq_nil_iff_forall_not_mem]
  simp only [mem_btreeSet]

/-- **Parsing fails on too many filters or on one that names no source**, and
else gives the sources that the filters name. -/
theorem parseSourceFilterIds_cases (x : Platform) (filters : List String) :
    ((maxSourceFilters < filters.length ∨ ∃ f ∈ filters, Malformed x f) ∧
      ∃ e, parseSourceFilterIds x filters = .error e) ∨
    (filters.length ≤ maxSourceFilters ∧ (∀ f ∈ filters, ¬ Malformed x f) ∧
      ∃ ids, parseSourceFilterIds x filters = .ok ids ∧ ∀ u, u ∈ ids ↔ InRuleScope x filters u) := by
  unfold parseSourceFilterIds
  by_cases hlen : filters.length > maxSourceFilters
  · rw [if_pos hlen]
    exact Or.inl ⟨Or.inl hlen, _, rfl⟩
  · rw [if_neg hlen]
    rcases hm : filters.mapM (parseSourceFilter x) with e | ids
    · refine Or.inl ⟨Or.inr ?_, e, rfl⟩
      by_contra hno
      have hall : ∀ f ∈ filters, ∃ u, parseSourceFilter x f = .ok u := by
        intro f hf
        rcases parseSourceFilter_cases x f with hbad | hok
        · exact absurd ⟨f, hf, hbad⟩ hno
        · exact hok
      obtain ⟨ids, hids⟩ := mapM_ok_of_forall hall
      rw [hm] at hids
      cases hids
    · refine Or.inr ⟨by omega, fun f hf hbad => ?_, btreeSet ids, rfl, fun u => ?_⟩
      · obtain ⟨u, -, hu⟩ := exists_mem_of_mapM hm hf
        rw [hbad] at hu
        cases hu
      · rw [mem_btreeSet]
        constructor
        · exact fun hu => exists_of_mem_mapM hm hu
        · rintro ⟨f, hf, hfu⟩
          obtain ⟨w, hw, hfw⟩ := exists_mem_of_mapM hm hf
          rw [hfu] at hfw
          obtain rfl := Except.ok.inj hfw
          exact hw

/-- The request names a source that the filters, if there are any, do not. -/
def Outside (x : Platform) (filters : List String) (requested : List Uuid) : Prop :=
  (∃ u, InRuleScope x filters u) ∧ ∃ u ∈ requested, ¬ InRuleScope x filters u

/-- **Constraining a search fails exactly on too many filters, on one that names
no source, and on a request outside the scope**, and else gives the request, or
the scope if the request is empty. -/
theorem constrainSearchSources_cases (x : Platform) (filters : List String)
    (requested : List Uuid) :
    ((maxSourceFilters < filters.length ∨ (∃ f ∈ filters, Malformed x f) ∨
        Outside x filters requested) ∧
      ∃ e, constrainSearchSources x filters requested = .error e) ∨
    (filters.length ≤ maxSourceFilters ∧ (∀ f ∈ filters, ¬ Malformed x f) ∧
      ¬ Outside x filters requested ∧
      ∃ out, constrainSearchSources x filters requested = .ok out ∧ out.Pairwise (· < ·) ∧
        ∀ u, u ∈ out ↔ if requested = [] then InRuleScope x filters u else u ∈ requested) := by
  unfold constrainSearchSources
  rcases parseSourceFilterIds_cases x filters with ⟨hbad, e, he⟩ | ⟨hlen, hgood, ids, hids, hscope⟩
  · rw [he]
    refine Or.inl ⟨?_, e, rfl⟩
    rcases hbad with hbad | hbad
    · exact Or.inl hbad
    · exact Or.inr (Or.inl hbad)
  · rw [hids]
    simp only [bind, Except.bind]
    by_cases hempty : ids.isEmpty = true
    · rw [if_pos hempty]
      have hnone : ∀ u, ¬ InRuleScope x filters u := by
        intro u
        rw [← hscope, List.isEmpty_iff.mp hempty]
        exact List.not_mem_nil
      refine Or.inr ⟨hlen, hgood, fun hout => hnone _ hout.1.choose_spec, _, rfl,
        increasing_btreeSet requested, fun u => ?_⟩
      rw [mem_btreeSet]
      split_ifs with hreq
      · simp [hreq, hnone u]
      · rfl
    · rw [if_neg hempty]
      have hsome : ∃ u, InRuleScope x filters u := by
        obtain ⟨u, hu⟩ := List.exists_mem_of_ne_nil ids fun h => hempty (List.isEmpty_iff.mpr h)
        exact ⟨u, (hscope u).mp hu⟩
      by_cases hreq : requested = []
      · rw [if_pos ((btreeSet_isEmpty requested).mpr hreq)]
        refine Or.inr ⟨hlen, hgood, ?_, _, rfl, increasing_btreeSet ids, fun u => ?_⟩
        · rintro ⟨-, u, hu, -⟩
          rw [hreq] at hu
          cases hu
        · rw [mem_btreeSet, if_pos hreq]
          exact hscope u
      · rw [if_neg fun h => hreq ((btreeSet_isEmpty requested).mp h)]
        by_cases hany : ((btreeSet requested).any fun s => !(btreeSet ids).contains s) = true
        · rw [if_pos hany]
          obtain ⟨u, hu, hnot⟩ := List.any_eq_true.mp hany
          refine Or.inl ⟨Or.inr (Or.inr ⟨hsome, u, mem_btreeSet.mp hu, ?_⟩), _, rfl⟩
          rw [← hscope]
          simpa using hnot
        · rw [if_neg hany]
          refine Or.inr ⟨hlen, hgood, ?_, _, rfl, increasing_btreeSet requested, fun u => ?_⟩
          · rintro ⟨-, u, hu, hnot⟩
            refine hany (List.any_eq_true.mpr ⟨u, mem_btreeSet.mpr hu, ?_⟩)
            rw [← hscope] at hnot
            simpa using hnot
          · rw [mem_btreeSet, if_neg hreq]

end SourceScope

/-! ### The search -/

open SourceScope

/-- The page of the embedding is one of the source. -/
def EmbeddingRow.FromSource (db : Db) (e : EmbeddingRow) (sourceId : Uuid) : Prop :=
  ∃ v ∈ db.pageRevisions, v.id = e.revisionId ∧ ∃ p ∈ db.pages, p.id = v.pageId ∧
    p.sourceId = sourceId

variable {x : Platform} {db : Db} {T : Uuid} {request : EmbeddingSearchRequest}

/-- **A search ranks exactly the embeddings of the tenant in the model space**, if
it names sources only those from them. -/
theorem exists_ranked_iff (hwf : Wf x db) (id : Uuid) :
    (∃ wire ∈ Store.ranked x T request db, wire.embeddingId = id) ↔
      ∃ e ∈ db.embeddings, e.id = id ∧ e.tenantId = T ∧
        e.space = request.embedding.toModelSpace ∧
        (request.sourceIds = [] ∨ ∃ s ∈ request.sourceIds, e.FromSource db s) := by
  constructor
  · rintro ⟨wire, hwire, rfl⟩
    obtain ⟨e, he, v, hv, p, hp, heT, hspace, hve, -, hpv, -, hsource, rfl⟩ :=
      Store.mem_ranked hwire
    refine ⟨e, he, rfl, heT, hspace, hsource.imp_right fun hmem => ?_⟩
    exact ⟨p.sourceId, hmem, v, hv, hve, p, hp, hpv, rfl⟩
  · rintro ⟨e, he, rfl, heT, hspace, hsource⟩
    obtain ⟨v, hv, hve, hvT⟩ := hwf.revision e he
    obtain ⟨p, hp, hpv, hpT⟩ := hwf.page v hv
    refine ⟨Store.searchWire x request e v p, Store.mem_ranked_iff.mpr ⟨e, he, v, hv, p, hp, heT,
      hspace, hve, hvT.trans heT, hpv, hpT.trans (hvT.trans heT), ?_, rfl⟩, rfl⟩
    refine hsource.imp_right ?_
    rintro ⟨s, hs, v', hv', hve', p', hp', hpv', rfl⟩
    obtain rfl := hwf.valid.pageRevision_eq hv hv' (hve.trans hve'.symm)
    obtain rfl := hwf.valid.page_eq hp hp' (hpv.trans hpv'.symm)
    exact hs

theorem intoRecord_page {wire : Store.SearchWire} {record : Store.SearchRecord}
    (h : wire.intoRecord x = .ok record) :
    record.hit.pageId = wire.pageId ∧ record.hit.sourceId = wire.sourceId := by
  unfold Store.SearchWire.intoRecord at h
  split at h
  · obtain rfl := Except.ok.inj h
    exact ⟨rfl, rfl⟩
  · cases h

theorem hit_sourceId {page : Store.SearchPage} {s : Db}
    (h : Store.searchEmbeddings x T request db = (.ok page, s)) (hne : request.sourceIds ≠ [])
    {hit : Store.EmbeddingSearchHit} (hhit : hit ∈ page.response.hits) :
    hit.sourceId ∈ request.sourceIds ∧
      ∃ p ∈ db.pages, p.id = hit.pageId ∧ p.sourceId = hit.sourceId := by
  rw [(Store.searchEmbeddings_records h).1] at hhit
  obtain ⟨record, hrecord, rfl⟩ := List.mem_map.mp hhit
  obtain ⟨-, -, hhits⟩ := Store.searchEmbeddings_ok h
  obtain ⟨e, -, v, -, p, hp, -, -, -, -, -, -, hsource, -, hdecode⟩ := hhits record hrecord
  obtain ⟨hpage, hfrom⟩ := intoRecord_page hdecode
  refine ⟨?_, p, hp, hpage.symm, hfrom.symm⟩
  rw [hfrom]
  exact hsource.resolve_left hne

theorem hits_ranked {page : Store.SearchPage} {s : Db}
    (h : Store.searchEmbeddings x T request db = (.ok page, s)) :
    page.response.hits.map Store.EmbeddingSearchHit.embeddingId
      = (((((Store.ranked x T request db).filter (Store.similarEnough request)).filter
          (Store.afterCursor request.cursor)).insertionSort Store.nearestFirst).take
            request.limit).map Store.SearchWire.embeddingId := by
  obtain ⟨hhits, hrecords⟩ := Store.searchEmbeddings_records h
  have hrows : (Store.searchRows x T request db).take request.limit
      = ((((Store.ranked x T request db).filter (Store.similarEnough request)).filter
          (Store.afterCursor request.cursor)).insertionSort Store.nearestFirst).take
            request.limit := by
    rw [Store.searchRows, List.take_take, Nat.min_eq_left (Nat.le_succ _)]
  rw [hrows] at hrecords
  rw [hhits, List.map_map, ← List.forall₂_eq_eq_eq, List.forall₂_map_left_iff,
    List.forall₂_map_right_iff]
  refine (mapM_eq_ok_iff.mp hrecords).flip.imp fun record wire hdecode => ?_
  exact (Store.SearchWire.intoRecord_ok hdecode).2.2.1

/-- **The scope of a rule bounds what an evaluation can see.** -/
theorem rule_scope_bounds_search (x : Platform) (filters : List String) (requested : List Uuid) :
    ((∃ e, constrainSearchSources x filters requested = .error e) ↔
      maxSourceFilters < filters.length ∨ (∃ f ∈ filters, Malformed x f) ∨
        ((∃ u, InRuleScope x filters u) ∧ requested ≠ [] ∧
          ¬ ∀ u ∈ requested, InRuleScope x filters u)) ∧
    ∀ out, constrainSearchSources x filters requested = .ok out →
      out.Pairwise (· < ·) ∧
      (∀ u, u ∈ out ↔ if requested = [] then InRuleScope x filters u else u ∈ requested) ∧
      (out = [] ↔ requested = [] ∧ ∀ u, ¬ InRuleScope x filters u) ∧
      ∀ (T : Uuid) (search : EmbeddingSearchRequest) (db : Db),
        ((∃ u, InRuleScope x filters u) → ∀ page s,
          Store.searchEmbeddings x T { search with sourceIds := out } db = (.ok page, s) →
          ∀ hit ∈ page.response.hits, InRuleScope x filters hit.sourceId ∧
            ∃ p ∈ db.pages, p.id = hit.pageId ∧ p.sourceId = hit.sourceId) ∧
        (∀ page s,
          Store.searchEmbeddings x T { search with sourceIds := out } db = (.ok page, s) →
          page.response.hits.map Store.EmbeddingSearchHit.embeddingId
            = (((((Store.ranked x T { search with sourceIds := out } db).filter
                (Store.similarEnough search)).filter
                (Store.afterCursor search.cursor)).insertionSort Store.nearestFirst).take
                  search.limit).map Store.SearchWire.embeddingId) ∧
        (x.Lawful → Reachable x db →
          Distinct Store.SearchWire.embeddingId
            (Store.ranked x T { search with sourceIds := out } db) ∧
          ∀ id, (∃ wire ∈ Store.ranked x T { search with sourceIds := out } db,
              wire.embeddingId = id) ↔
            ∃ e ∈ db.embeddings, e.id = id ∧ e.tenantId = T ∧
              e.space = search.embedding.toModelSpace ∧
              (out = [] ∨ ∃ s ∈ out, e.FromSource db s)) := by
  have houtside : Outside x filters requested ↔ (∃ u, InRuleScope x filters u) ∧ requested ≠ [] ∧
      ¬ ∀ u ∈ requested, InRuleScope x filters u := by
    refine and_congr_right fun _ => ?_
    push Not
    exact ⟨fun h => ⟨List.ne_nil_of_mem h.choose_spec.1, h⟩, fun h => h.2⟩
  rw [← houtside]
  rcases constrainSearchSources_cases x filters requested with
    ⟨hbad, e, he⟩ | ⟨hlen, hgood, hinside, out, hout, hincreasing, hmem⟩
  · refine ⟨⟨fun _ => hbad, fun _ => ⟨e, he⟩⟩, fun out hout => ?_⟩
    rw [he] at hout
    cases hout
  · constructor
    · constructor
      · rintro ⟨e, he⟩
        rw [hout] at he
        cases he
      · rintro (hlong | ⟨f, hf, hbad⟩ | hnot)
        · omega
        · exact absurd hbad (hgood f hf)
        · exact absurd hnot hinside
    · intro out' hout'
      obtain rfl : out = out' := Except.ok.inj (hout.symm.trans hout')
      have hempty : out = [] ↔ requested = [] ∧ ∀ u, ¬ InRuleScope x filters u := by
        rw [List.eq_nil_iff_forall_not_mem]
        simp only [hmem]
        split_ifs with hreq
        · simp [hreq]
        · refine ⟨fun h => absurd (List.eq_nil_iff_forall_not_mem.mpr h) hreq, ?_⟩
          rintro ⟨h, -⟩
          exact absurd h hreq
      refine ⟨hincreasing, hmem, hempty, fun T search db =>
        ⟨?_, fun page s hpage => hits_ranked hpage, fun hx hdb => ?_⟩⟩
      · intro hscope page s hpage hit hhit
        have hne : out ≠ [] := by
          intro h
          obtain ⟨u, hu⟩ := hscope
          exact (hempty.mp h).2 u hu
        obtain ⟨hsource, hp⟩ := hit_sourceId hpage hne hhit
        refine ⟨?_, hp⟩
        have hin := (hmem hit.sourceId).mp hsource
        split_ifs at hin with hreq
        · exact hin
        · -- a request that is not outside the scope names sources of the scope only
          by_contra hnot
          exact hinside ⟨hscope, hit.sourceId, hin, hnot⟩
      · exact ⟨Store.distinct_ranked (hdb.wf hx).valid, exists_ranked_iff (hdb.wf hx)⟩

open Scenario in
/-- The rule names the source of the stored page, so an evaluation that names none
ranks its embedding. -/
theorem rule_scope_bounds_search_sample :
    ∃ out, constrainSearchSources Platform.sample [canonicalFilter 10] [] = .ok out ∧
      ∃ wire ∈ Store.ranked Platform.sample 1 { search with sourceIds := out } stored,
        wire.embeddingId = 42 := by
  obtain ⟨out, hout⟩ : ∃ out, constrainSearchSources Platform.sample [canonicalFilter 10] []
      = .ok out := ⟨[10], by decide⟩
  refine ⟨out, hout, ?_⟩
  obtain ⟨-, hmem, -, hsearch⟩ := (rule_scope_bounds_search Platform.sample
    [canonicalFilter 10] []).2 out hout
  refine (((hsearch 1 search stored).2.2 Platform.sample_lawful reachable_stored).2 42).mpr ?_
  have hin : (10 : Uuid) ∈ out := (hmem 10).mpr
    ⟨canonicalFilter 10, List.mem_singleton_self _,
      parseSourceFilter_canonical Platform.sample_lawful 10⟩
  have hstored : ∃ e ∈ stored.embeddings, e.id = 42 ∧ e.tenantId = 1 ∧
      e.space = search.embedding.toModelSpace ∧ ∃ v ∈ stored.pageRevisions,
        v.id = e.revisionId ∧ ∃ p ∈ stored.pages, p.id = v.pageId ∧ p.sourceId = 10 := by
    decide +kernel
  obtain ⟨e, he, hid, heT, hspace, hfrom⟩ := hstored
  exact ⟨e, he, hid, heT, hspace, Or.inr ⟨10, hin, hfrom⟩⟩

end EmbeddedAlerts
