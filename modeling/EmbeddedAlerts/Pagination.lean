import EmbeddedAlerts.SearchScope

/-!
# Paging through a search

A `SearchWalk` calls `search_embeddings` again and again, each time with the cursor
of the page before, on stores that only grow.  `SearchWalk.walk` reads it as a
`Sql.Walk` over the qualifying records, and `search_pagination` is what comes out:
**no hit is lost and none is repeated**, as long as distances are read exactly.

What a walk is about is said in terms of the rows of `eal_embeddings`
(`Qualifies`, `left`) and not of the rows the search returns; `perm_left` joins the
two.
-/

namespace EmbeddedAlerts

open Sql Relation

/-- The place of a hit in the order of a search. -/
def Store.EmbeddingSearchHit.key (hit : Store.EmbeddingSearchHit) : ℚ ×ₗ Uuid :=
  toLex (hit.distance, hit.embeddingId)

/-- The embedding is one the request asks for. -/
def Qualifies (x : Platform) (T : Uuid) (request : EmbeddingSearchRequest) (db : Db)
    (e : EmbeddingRow) : Prop :=
  e.tenantId = T ∧ e.space = request.embedding.toModelSpace ∧
    (request.sourceIds = [] ∨ ∃ s ∈ request.sourceIds, e.FromSource db s) ∧
    (request.minSimilarity.val : Float8)
      ≤ (x.cosineDistance e.embedding request.embedding.values).oneMinus

instance (x : Platform) (T : Uuid) (request : EmbeddingSearchRequest) (db : Db)
    (e : EmbeddingRow) : Decidable (Qualifies x T request db e) := by
  unfold Qualifies EmbeddingRow.FromSource
  infer_instance

/-- The embedding comes after the cursor. -/
def Behind (x : Platform) (request : EmbeddingSearchRequest) (cursor : Option SearchCursor)
    (e : EmbeddingRow) : Prop :=
  ∀ c ∈ cursor, (c.distance : Float8) < x.cosineDistance e.embedding request.embedding.values ∨
    ((c.distance : Float8) = x.cosineDistance e.embedding request.embedding.values ∧
      c.embeddingId < e.id)

instance (x : Platform) (request : EmbeddingSearchRequest) (cursor : Option SearchCursor)
    (e : EmbeddingRow) : Decidable (Behind x request cursor e) := by
  unfold Behind
  infer_instance

/-- The embeddings the request asks for that come after the cursor. -/
def left (x : Platform) (T : Uuid) (request : EmbeddingSearchRequest) (cursor : Option SearchCursor)
    (db : Db) : List EmbeddingRow :=
  db.embeddings.filter fun e =>
    decide (Qualifies x T request db e) && decide (Behind x request cursor e)

/-- Page after page of a search, each with the cursor of the one before: the stores
that the pages are read from, the pages, and the cursor of the last. -/
inductive SearchWalk (x : Platform) (T : Uuid) (request : EmbeddingSearchRequest) :
    Option SearchCursor → List Db → List Store.SearchPage → Option SearchCursor → Prop
  | last {cursor : Option SearchCursor} {db s : Db} {page : Store.SearchPage}
      (search : Store.searchEmbeddings x T { request with cursor := cursor } db = (.ok page, s)) :
      SearchWalk x T request cursor [db] [page] page.response.nextCursor
  | more {cursor final : Option SearchCursor} {db s : Db} {page : Store.SearchPage}
      {c : SearchCursor} {stores : List Db} {pages : List Store.SearchPage}
      (search : Store.searchEmbeddings x T { request with cursor := cursor } db = (.ok page, s))
      (next : page.response.nextCursor = some c)
      (rest : SearchWalk x T request (some c) stores pages final) :
      SearchWalk x T request cursor (db :: stores) (page :: pages) final

/-- The hits of the pages. -/
def hitsOf (pages : List Store.SearchPage) : List Store.EmbeddingSearchHit :=
  pages.flatMap fun page => page.response.hits

variable {x : Platform} {db : Db} {T : Uuid} {request : EmbeddingSearchRequest}
  {cursor final : Option SearchCursor}

/-! ### Embeddings and records -/

theorem behind_iff (hexact : ExactDistances x) {e : EmbeddingRow} {v : PageRevisionRow}
    {p : PageRow} {record : Store.SearchRecord}
    (h : (Store.searchWire x request e v p).intoRecord x = .ok record) :
    Behind x request cursor e ↔
      After Store.SearchRecord.key (cursor.map SearchCursor.key) record := by
  have hread : (Store.searchWire x request e v p).Exact x :=
    hexact e.embedding request.embedding.values
  rw [← decide_eq_true_iff (p := After _ _ _), ← Store.afterCursor_iff hread h]
  cases cursor with
  | none => simp [Behind, Store.afterCursor]
  | some c =>
    simp only [Behind, Store.afterCursor, Option.all_some, Option.mem_def, Option.some.injEq,
      forall_eq', decide_eq_true_eq]
    exact or_congr_right (and_congr_left' eq_comm)

section Embeddings

variable (hx : x.Lawful) (hexact : ExactDistances x) (hwf : Wf x db)
  (hv : x.validateEmbedding request.embedding = .ok ())

include hx hexact hwf hv

theorem exists_left_iff (id : Uuid) :
    (∃ e ∈ left x T request cursor db, e.id = id) ↔
      ∃ record ∈ remaining Store.SearchRecord.key (cursor.map SearchCursor.key)
        (Store.qualifying x T request db), record.hit.embeddingId = id := by
  constructor
  · rintro ⟨e, he, rfl⟩
    rw [left, List.mem_filter, Bool.and_eq_true, decide_eq_true_iff, decide_eq_true_iff] at he
    obtain ⟨he, ⟨heT, hspace, hsource, hsimilar⟩, hbehind⟩ := he
    obtain ⟨v, hv', hve, hvT⟩ := hwf.revision e he
    obtain ⟨p, hp, hpv, hpT⟩ := hwf.page v hv'
    obtain ⟨record, hrecord, -⟩ := Evaluation.intoRecord_total hx hwf hv he hspace v p
    obtain ⟨-, -, hid, -⟩ := Store.SearchWire.intoRecord_ok hrecord
    refine ⟨record, mem_remaining.mpr ⟨Store.mem_qualifying.mpr ⟨e, he, v, hv', p, hp, heT, hspace,
      hve, hvT.trans heT, hpv, hpT.trans (hvT.trans heT), ?_, decide_eq_true hsimilar, hrecord⟩,
      (behind_iff hexact hrecord).mp hbehind⟩, hid⟩
    refine hsource.imp_right ?_
    rintro ⟨s, hs, v', hv', hve', p', hp', hpv', rfl⟩
    obtain rfl := hwf.valid.pageRevision_eq ‹v ∈ db.pageRevisions› hv' (hve.trans hve'.symm)
    obtain rfl := hwf.valid.page_eq hp hp' (hpv.trans hpv'.symm)
    exact hs
  · rintro ⟨record, hrecord, rfl⟩
    obtain ⟨hqualifying, hafter⟩ := mem_remaining.mp hrecord
    obtain ⟨e, he, v, hv', p, hp, heT, hspace, hve, -, hpv, -, hsource, hsimilar, hdecode⟩ :=
      Store.mem_qualifying.mp hqualifying
    obtain ⟨-, -, hid, -⟩ := Store.SearchWire.intoRecord_ok hdecode
    refine ⟨e, ?_, hid.symm⟩
    rw [left, List.mem_filter, Bool.and_eq_true, decide_eq_true_iff, decide_eq_true_iff]
    refine ⟨he, ⟨heT, hspace, hsource.imp_right fun hs => ?_, of_decide_eq_true hsimilar⟩,
      (behind_iff hexact hdecode).mpr hafter⟩
    exact ⟨p.sourceId, hs, v, hv', hve, p, hp, hpv, rfl⟩

omit hx hexact hv in
theorem nodup_left : ((left x T request cursor db).map EmbeddingRow.id).Nodup := by
  have hids : Distinct EmbeddingRow.id db.embeddings :=
    hwf.valid.embeddings.keys.imp fun h heq => by simp [embeddingsTable, heq] at h
  exact List.pairwise_map.mpr (hids.sublist List.filter_sublist)

omit hx hexact hv in
theorem nodup_remaining : ((remaining Store.SearchRecord.key (cursor.map SearchCursor.key)
    (Store.qualifying x T request db)).map fun record => record.hit.embeddingId).Nodup := by
  refine ((perm_remaining.map _).nodup_iff).mpr (List.pairwise_map.mpr ?_)
  exact (Store.distinct_qualifying hwf.valid).sublist List.filter_sublist

/-- **What remains are the embeddings that are left**, each once. -/
theorem perm_left (T : Uuid) (cursor : Option SearchCursor) :
    ((remaining Store.SearchRecord.key (cursor.map SearchCursor.key)
      (Store.qualifying x T request db)).map fun record => record.hit.embeddingId).Perm
      ((left x T request cursor db).map EmbeddingRow.id) := by
  refine (List.perm_ext_iff_of_nodup (nodup_remaining hwf) (nodup_left hwf)).mpr fun id => ?_
  rw [List.mem_map, List.mem_map, exists_left_iff hx hexact hwf hv]

theorem length_left (T : Uuid) (cursor : Option SearchCursor) :
    (remaining Store.SearchRecord.key (cursor.map SearchCursor.key)
      (Store.qualifying x T request db)).length = (left x T request cursor db).length := by
  have hlength := (perm_left hx hexact hwf hv T cursor).length_eq
  rwa [List.length_map, List.length_map] at hlength

end Embeddings

/-! ### Walks -/

section Walks

variable (hx : x.Lawful) (hexact : ExactDistances x)
  (hv : x.validateEmbedding request.embedding = .ok ())

include hx hexact hv

theorem search_page (hwf : Wf x db) {page : Store.SearchPage} {s : Db}
    (h : Store.searchEmbeddings x T { request with cursor := cursor } db = (.ok page, s)) :
    page.records = Sql.page Store.SearchRecord.key request.limit (cursor.map SearchCursor.key)
      (Store.qualifying x T request db) ∧
    page.response.hits = page.records.map Store.SearchRecord.hit ∧
    page.response.nextCursor.map SearchCursor.key = Sql.next Store.SearchRecord.key request.limit
      (cursor.map SearchCursor.key) (Store.qualifying x T request db) := by
  have hvalid : x.validateEmbedding { request with cursor := cursor }.embedding = .ok () := hv
  rw [Store.searchEmbeddings_eq hx hexact hwf hvalid] at h
  obtain rfl := Except.ok.inj (Prod.mk.inj h).1
  refine ⟨rfl, rfl, ?_⟩
  rw [Option.map_map]
  exact Option.map_id'

/-- **A walk through a search is a walk through its qualifying records.** -/
theorem SearchWalk.walk {stores : List Db} {pages : List Store.SearchPage}
    (h : SearchWalk x T request cursor stores pages final) (hwf : ∀ db ∈ stores, Wf x db) :
    Walk Store.SearchRecord.key request.limit (cursor.map SearchCursor.key)
      (stores.map (Store.qualifying x T request)) (pages.map Store.SearchPage.records)
      (final.map SearchCursor.key) ∧
    hitsOf pages = (pages.map Store.SearchPage.records).flatten.map Store.SearchRecord.hit := by
  induction h with
  | last search =>
    obtain ⟨hrecords, hhits, hnext⟩ :=
      search_page hx hexact hv (hwf _ (List.mem_singleton_self _)) search
    constructor
    · rw [List.map_singleton, List.map_singleton, hrecords, hnext]
      exact .last _ _
    · simp [hitsOf, hhits]
  | more search next rest ih =>
    obtain ⟨hrecords, hhits, hnext⟩ := search_page hx hexact hv (hwf _ List.mem_cons_self) search
    obtain ⟨hwalk, hrest⟩ := ih fun s hs => hwf s (List.mem_cons_of_mem _ hs)
    constructor
    · rw [List.map_cons, List.map_cons, hrecords]
      refine .more (c := SearchCursor.key _) ?_ hwalk
      rw [← hnext, next]
      rfl
    · rw [List.map_cons, List.flatten_cons, List.map_append, ← hrest, ← hhits]
      rfl

theorem page_of_left (hlimit : 0 < request.limit) (hwf : Wf x db) {page : Store.SearchPage} {s : Db}
    (h : Store.searchEmbeddings x T { request with cursor := cursor } db = (.ok page, s)) :
    page.response.hits.length = min request.limit (left x T request cursor db).length ∧
      (page.response.nextCursor = none ↔ ∀ e ∈ left x T request cursor db,
        e.id ∈ page.response.hits.map Store.EmbeddingSearchHit.embeddingId) := by
  obtain ⟨hrecords, hhits, hnext⟩ := search_page hx hexact hv hwf h
  have hlength : page.response.hits.length = min request.limit (left x T request cursor db).length := by
    rw [hhits, List.length_map, hrecords, length_page, length_left hx hexact hwf hv T cursor]
  refine ⟨hlength, ?_⟩
  rw [← Option.map_eq_none_iff (f := SearchCursor.key), hnext, next_eq_none hlimit,
    length_left hx hexact hwf hv T cursor]
  constructor
  · intro hle e he
    obtain ⟨record, hrecord, hid⟩ := (exists_left_iff hx hexact hwf hv e.id).mp ⟨e, he, rfl⟩
    have hall : page.records = remaining Store.SearchRecord.key (cursor.map SearchCursor.key)
        (Store.qualifying x T request db) := by
      rw [hrecords, Sql.page, List.take_of_length_le]
      rw [length_left hx hexact hwf hv T cursor]
      exact hle
    rw [hhits, hall, List.map_map]
    exact List.mem_map.mpr ⟨record, hrecord, hid⟩
  · intro hall
    have hsubset : (left x T request cursor db).map EmbeddingRow.id
        ⊆ page.response.hits.map Store.EmbeddingSearchHit.embeddingId := by
      intro id hid
      obtain ⟨e, he, rfl⟩ := List.mem_map.mp hid
      exact hall e he
    have hle := (List.Nodup.subperm (nodup_left hwf) hsubset).length_le
    rw [List.length_map, List.length_map, hlength] at hle
    omega

end Walks

theorem exists_last (hx : x.Lawful) {stores : List Db} (hwf : Wf x db)
    (h : (db :: stores).IsChain (ReflTransGen (Served x))) :
    ∃ last, (∀ s ∈ db :: stores, Wf x s ∧ Grows db s ∧ Grows s last) ∧ Wf x last := by
  induction stores generalizing db with
  | nil =>
    refine ⟨db, fun s hs => ?_, hwf⟩
    obtain rfl := List.mem_singleton.mp hs
    exact ⟨hwf, Grows.refl _, Grows.refl _⟩
  | cons d stores ih =>
    obtain ⟨hrun, hrest⟩ := List.isChain_cons_cons.mp h
    obtain ⟨hd, hgrows⟩ := served_run hx hwf hrun
    obtain ⟨last, hlast, hwflast⟩ := ih hd hrest
    refine ⟨last, fun s hs => ?_, hwflast⟩
    rcases List.mem_cons.mp hs with rfl | hs
    · exact ⟨hwf, Grows.refl _, hgrows.trans (hlast d List.mem_cons_self).2.2⟩
    · obtain ⟨h1, h2, h3⟩ := hlast s hs
      exact ⟨h1, hgrows.trans h2, h3⟩

/-- How many pages a search takes on one store. -/
def pagesNeeded (x : Platform) (T : Uuid) (request : EmbeddingSearchRequest) (db : Db) : ℕ :=
  let n := (db.embeddings.filter fun e => decide (Qualifies x T request db e)).length
  max 1 ((n + request.limit - 1) / request.limit)

theorem left_none (x : Platform) (T : Uuid) (request : EmbeddingSearchRequest) (db : Db) :
    left x T request none db = db.embeddings.filter fun e => decide (Qualifies x T request db e) := by
  refine List.filter_congr fun e _ => ?_
  simp [Behind]

section Main

variable (hx : x.Lawful) (hexact : ExactDistances x) (hlimit : 0 < request.limit)
  (hv : x.validateEmbedding request.embedding = .ok ())

include hx hexact hv

theorem SearchWalk.increasing (hwf : Wf x db) {stores : List Db} {pages : List Store.SearchPage}
    (hrun : (db :: stores).IsChain (ReflTransGen (Served x)))
    (h : SearchWalk x T request none (db :: stores) pages final) :
    (hitsOf pages).Pairwise fun a b => a.key < b.key := by
  obtain ⟨last, hstores, -⟩ := exists_last hx hwf hrun
  obtain ⟨hwalk, hhits⟩ := h.walk hx hexact hv fun s hs => (hstores s hs).1
  have hincreasing := hwalk.increasing fun items hitems => by
    obtain ⟨s, hs, rfl⟩ := List.mem_map.mp hitems
    exact Store.distinct_key (Store.distinct_qualifying (hstores s hs).1.valid)
  rw [hhits]
  exact List.pairwise_map.mpr hincreasing

/-- **No embedding is returned twice.**  Every hit is a record of the last store,
where an embedding has one record. -/
theorem SearchWalk.nodup (hwf : Wf x db) {stores : List Db} {pages : List Store.SearchPage}
    (hrun : (db :: stores).IsChain (ReflTransGen (Served x)))
    (h : SearchWalk x T request none (db :: stores) pages final) :
    ((hitsOf pages).map Store.EmbeddingSearchHit.embeddingId).Nodup := by
  obtain ⟨last, hstores, hlast⟩ := exists_last hx hwf hrun
  obtain ⟨hwalk, hhits⟩ := h.walk hx hexact hv fun s hs => (hstores s hs).1
  have hmem : ∀ record ∈ (pages.map Store.SearchPage.records).flatten,
      record ∈ Store.qualifying x T request last := by
    intro record hrecord
    obtain ⟨items, hitems, hin⟩ := hwalk.mem_store record hrecord
    obtain ⟨s, hs, rfl⟩ := List.mem_map.mp hitems
    exact Store.qualifying_mono (hstores s hs).2.2 hin
  have hincreasing := h.increasing hx hexact hv hwf hrun
  have hnodup : (hitsOf pages).Nodup :=
    hincreasing.imp fun hlt heq => absurd hlt (by rw [heq]; exact lt_irrefl _)
  refine List.Nodup.map_on (fun a ha b hb hid => ?_) hnodup
  rw [hhits] at ha hb
  obtain ⟨r, hr, rfl⟩ := List.mem_map.mp ha
  obtain ⟨t, ht, rfl⟩ := List.mem_map.mp hb
  rw [(Store.distinct_qualifying hlast.valid).eq_of_key (hmem r hr) (hmem t ht) hid]

include hlimit

/-- **A walk that has ended has returned every embedding that was there from the
first page on, once.** -/
theorem SearchWalk.complete (hwf : Wf x db) {stores : List Db} {pages : List Store.SearchPage}
    (hrun : (db :: stores).IsChain (ReflTransGen (Served x)))
    (h : SearchWalk x T request none (db :: stores) pages none) {e : EmbeddingRow}
    (he : e ∈ db.embeddings) (hq : Qualifies x T request db e) :
    ((hitsOf pages).map Store.EmbeddingSearchHit.embeddingId).count e.id = 1 := by
  obtain ⟨last, hstores, -⟩ := exists_last hx hwf hrun
  obtain ⟨hwalk, hhits⟩ := h.walk hx hexact hv fun s hs => (hstores s hs).1
  have hleft : e ∈ left x T request none db := by
    rw [left_none, List.mem_filter]
    exact ⟨he, decide_eq_true hq⟩
  obtain ⟨record, hrecord, hid⟩ := (exists_left_iff hx hexact hwf hv e.id).mp ⟨e, hleft, rfl⟩
  obtain ⟨hrecord, hafter⟩ := mem_remaining.mp hrecord
  have hmem : record ∈ (pages.map Store.SearchPage.records).flatten := by
    refine hwalk.complete hlimit rfl (fun items hitems => ?_) (fun items hitems => ?_) hafter
    · obtain ⟨s, hs, rfl⟩ := List.mem_map.mp hitems
      exact Store.distinct_key (Store.distinct_qualifying (hstores s hs).1.valid)
    · obtain ⟨s, hs, rfl⟩ := List.mem_map.mp hitems
      exact Store.qualifying_mono (hstores s hs).2.1 hrecord
  refine List.count_eq_one_of_mem (h.nodup hx hexact hv hwf hrun) ?_
  rw [hhits, List.map_map]
  exact List.mem_map.mpr ⟨record, hmem, hid⟩

theorem SearchWalk.length_eq (hwf : Wf x db) {k : ℕ} {pages : List Store.SearchPage}
    (h : SearchWalk x T request none (List.replicate k db) pages none) :
    pages.length = pagesNeeded x T request db := by
  obtain ⟨hwalk, -⟩ := h.walk hx hexact hv fun s hs => by
    rw [List.eq_of_mem_replicate hs]
    exact hwf
  have hdistinct : Distinct Store.SearchRecord.key (Store.qualifying x T request db) :=
    Store.distinct_key (Store.distinct_qualifying hwf.valid)
  have hlength := hwalk.length_eq hlimit hdistinct rfl fun items hitems => by
    obtain ⟨s, hs, rfl⟩ := List.mem_map.mp hitems
    rw [List.eq_of_mem_replicate hs]
  have hleft : (remaining Store.SearchRecord.key none (Store.qualifying x T request db)).length
      = (left x T request none db).length := length_left hx hexact hwf hv T none
  rw [left_none] at hleft
  rw [List.length_map] at hlength
  rw [hlength, Option.map_none, hleft]
  rfl

omit hlimit in
theorem exists_searchWalk (hwf : Wf x db) {start final : Option (ℚ ×ₗ Uuid)}
    {stores pages : List (List Store.SearchRecord)}
    (h : Walk Store.SearchRecord.key request.limit start stores pages final) :
    ∀ n cursor, cursor.map SearchCursor.key = start →
      stores = List.replicate n (Store.qualifying x T request db) →
      ∃ pages, SearchWalk x T request cursor (List.replicate n db) pages
        (final.map SearchCursor.ofKey) := by
  have htotal : ∀ cursor, ∃ page, Store.searchEmbeddings x T { request with cursor := cursor } db
      = (.ok page, db) :=
    fun cursor => Evaluation.searchEmbeddings_total hx hwf T { request with cursor := cursor } hv
  have hnext : ∀ (page : Store.SearchPage) (k : Option (ℚ ×ₗ Uuid)),
      page.response.nextCursor.map SearchCursor.key = k →
        page.response.nextCursor = k.map SearchCursor.ofKey := by
    rintro page k rfl
    rw [Option.map_map]
    exact Option.map_id'.symm
  induction h with
  | last start items =>
    rintro n cursor rfl hstores
    obtain ⟨rfl, hitems⟩ : n = 1 ∧ items = Store.qualifying x T request db := by
      obtain ⟨hlength, hall⟩ := List.eq_replicate_iff.mp hstores
      exact ⟨hlength.symm, hall items (List.mem_singleton_self items)⟩
    obtain ⟨page, hpage⟩ := htotal cursor
    obtain ⟨-, -, hkey⟩ := search_page hx hexact hv hwf hpage
    refine ⟨[page], ?_⟩
    rw [hitems, ← hnext page _ hkey]
    exact .last hpage
  | @more start items c stores _ _ cursor_eq rest ih =>
    rintro n cursor rfl hstores
    obtain ⟨m, rfl, hitems, hrest⟩ : ∃ m, n = m + 1 ∧ items = Store.qualifying x T request db ∧
        stores = List.replicate m (Store.qualifying x T request db) := by
      cases n with
      | zero => cases hstores
      | succ m =>
        obtain ⟨hitems, hrest⟩ := List.cons.inj hstores
        exact ⟨m, rfl, hitems, hrest⟩
    obtain ⟨page, hpage⟩ := htotal cursor
    obtain ⟨-, -, hkey⟩ := search_page hx hexact hv hwf hpage
    obtain ⟨pages, hpages⟩ := ih m (some (SearchCursor.ofKey c)) rfl hrest
    refine ⟨page :: pages, ?_⟩
    rw [hitems] at cursor_eq
    rw [List.replicate_succ]
    refine .more hpage ?_ hpages
    rw [hnext page _ hkey, cursor_eq]
    rfl

end Main

/-- **Paging through a search neither loses nor repeats.** -/
theorem search_pagination (hx : x.Lawful) (hexact : ExactDistances x) (T : Uuid)
    (request : EmbeddingSearchRequest) (hlimit : 1 ≤ request.limit)
    (hv : x.validateEmbedding request.embedding = .ok ()) :
    (∀ db cursor, Reachable x db → ∃ page,
      Store.searchEmbeddings x T { request with cursor := cursor } db = (.ok page, db) ∧
      page.response.hits.length = min request.limit (left x T request cursor db).length ∧
      (page.response.nextCursor = none ↔ ∀ e ∈ left x T request cursor db,
        e.id ∈ page.response.hits.map Store.EmbeddingSearchHit.embeddingId)) ∧
    (∀ db stores pages final, Reachable x db →
      (db :: stores).IsChain (ReflTransGen (Served x)) →
      SearchWalk x T request none (db :: stores) pages final →
      ((hitsOf pages).Pairwise fun a b => a.key < b.key) ∧
      ((hitsOf pages).map Store.EmbeddingSearchHit.embeddingId).Nodup ∧
      (final = none → ∀ e ∈ db.embeddings, Qualifies x T request db e →
        ((hitsOf pages).map Store.EmbeddingSearchHit.embeddingId).count e.id = 1)) ∧
    ∀ db, Reachable x db →
      (∃ pages, SearchWalk x T request none
        (List.replicate (pagesNeeded x T request db) db) pages none) ∧
      ∀ k pages, SearchWalk x T request none (List.replicate k db) pages none →
        pages.length = pagesNeeded x T request db := by
  refine ⟨fun db cursor hdb => ?_, fun db stores pages final hdb hrun h => ?_, fun db hdb => ?_⟩
  · obtain ⟨page, hpage⟩ := Evaluation.searchEmbeddings_total hx (hdb.wf hx) T
      { request with cursor := cursor } hv
    exact ⟨page, hpage, page_of_left hx hexact hv hlimit (hdb.wf hx) hpage⟩
  · have hwf := hdb.wf hx
    refine ⟨h.increasing hx hexact hv hwf hrun, h.nodup hx hexact hv hwf hrun, ?_⟩
    rintro rfl e he hq
    exact h.complete hx hexact hlimit hv hwf hrun he hq
  · have hwf := hdb.wf hx
    refine ⟨?_, fun k pages h => h.length_eq hx hexact hlimit hv hwf⟩
    have hdistinct : Distinct Store.SearchRecord.key (Store.qualifying x T request db) :=
      Store.distinct_key (Store.distinct_qualifying hwf.valid)
    have hleft : (remaining Store.SearchRecord.key none (Store.qualifying x T request db)).length
        = (left x T request none db).length := length_left hx hexact hwf hv T none
    obtain ⟨pages, hpages⟩ := exists_walk hlimit hdistinct _ none le_rfl
    rw [hleft, left_none] at hpages
    exact exists_searchWalk hx hexact hv hwf hpages _ none rfl rfl

/-! ### A scenario -/

namespace Scenario

/-- The platform with the digest of one more content. -/
def twoContents : Platform := Platform.sampleWith [(Text.utf8 "beta".toList,
  digestBytes 0xf44e64e75f3948e9f73f8dfa94721c4ce8cbb4f265c4790c702b2d41cfbf2753)]

/-- The page with new content, at distance 0 from `axis`. -/
def nearer (base : ℕ) : Call :=
  call base (.ingestPage 10 { page axis with contentText := "beta" })

/-- The root with new content, at distance 1 from `axis`. -/
def farther (base : ℕ) : Call :=
  call base (.ingestPage 10 { rootPage with
    contentText := "beta"
    embedding := ⟨space, [0, one, 0, 0]⟩ })

/-- Two embeddings, both at distance `1 / 2` from `axis`. -/
def two : Db := EmbeddedAlerts.after twoContents (setup ++ [ingestRoot 50, ingestRoot 60]) Db.empty

def insertions : List Call := [nearer 70, farther 80]

/-- Two more embeddings, one before and one after these. -/
def four : Db := EmbeddedAlerts.after twoContents insertions two

/-- A search for one hit a page. -/
def oneHit : EmbeddingSearchRequest := { search with limit := 1 }

/-- The embeddings on a page, and its cursor. -/
def found (cursor : Option SearchCursor) (db : Db) :
    Except HttpError (List Uuid × Option SearchCursor) :=
  (Store.searchEmbeddings twoContents 1 { oneHit with cursor := cursor } db).1.map fun page =>
    (page.response.hits.map Store.EmbeddingSearchHit.embeddingId, page.response.nextCursor)

theorem exists_page {cursor next : Option SearchCursor} {db : Db} {ids : List Uuid}
    (h : found cursor db = .ok (ids, next)) :
    ∃ page s,
      Store.searchEmbeddings twoContents 1 { oneHit with cursor := cursor } db = (.ok page, s) ∧
      page.response.hits.map Store.EmbeddingSearchHit.embeddingId = ids ∧
      page.response.nextCursor = next := by
  rcases hsearch : Store.searchEmbeddings twoContents 1 { oneHit with cursor := cursor } db with
    ⟨e | page, s⟩
  · rw [found, hsearch] at h
    cases h
  · rw [found, hsearch] at h
    obtain ⟨hids, hnext⟩ := Prod.mk.inj (Except.ok.inj h)
    exact ⟨page, s, rfl, hids, hnext⟩

end Scenario

open Scenario in
/-- **A walk of three pages, with two insertions after the first.**  Of the embeddings
it started with, 42 and 62 are at the same distance; 72 comes before the cursor that
the first page left, and 82 after it. -/
theorem search_pagination_sample :
    ∃ pages, SearchWalk twoContents 1 oneHit none [two, four, four] pages none ∧
      (hitsOf pages).map Store.EmbeddingSearchHit.embeddingId = [42, 62, 82] ∧
      ((hitsOf pages).Pairwise fun a b => a.key < b.key) ∧
      ∀ e ∈ two.embeddings, Qualifies twoContents 1 oneHit two e →
        ((hitsOf pages).map Store.EmbeddingSearchHit.embeddingId).count e.id = 1 := by
  have hfound : found none two = .ok ([42], some ⟨1 / 2, 42⟩) ∧
      found (some ⟨1 / 2, 42⟩) four = .ok ([62], some ⟨1 / 2, 62⟩) ∧
      found (some ⟨1 / 2, 62⟩) four = .ok ([82], none) := by decide +kernel
  obtain ⟨hfirst, hsecond, hthird⟩ := hfound
  obtain ⟨first, _, hsearch, hids, hnext⟩ := exists_page hfirst
  obtain ⟨second, _, hsearch', hids', hnext'⟩ := exists_page hsecond
  obtain ⟨third, _, hsearch'', hids'', hlast⟩ := exists_page hthird
  have hwalk : SearchWalk twoContents 1 oneHit none [two, four, four] [first, second, third] none :=
    .more hsearch hnext (.more hsearch' hnext' (hlast ▸ .last hsearch''))
  have hgrown : ReflTransGen (Served twoContents) two four :=
    (ReflTransGen.refl.tail (.request (nearer 70))).tail (.request (farther 80))
  have hrun : [two, four, four].IsChain (ReflTransGen (Served twoContents)) :=
    .cons_cons hgrown (.cons_cons .refl (.singleton _))
  have hpagination := (search_pagination (Platform.sampleWith_lawful _) (fun _ _ _ _ => rfl) 1
    oneHit le_rfl rfl).2.1 two [four, four] _ none (reachable_after _ .refl) hrun hwalk
  refine ⟨_, hwalk, ?_, hpagination.1, hpagination.2.2 rfl⟩
  rw [hitsOf, List.map_flatMap]
  simp [hids, hids', hids'']

end EmbeddedAlerts
