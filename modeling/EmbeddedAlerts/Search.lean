import EmbeddedAlerts.Historical
import EmbeddedAlerts.Sql.Keyset
import Mathlib.Data.Prod.Lex

/-!
# What a search returns

`search_embeddings` sorts by distance and embedding id, asks for one row more than
the limit, and takes its cursor from the last row it keeps.

* `mem_ranked_iff`: which rows are ranked.
* `distinct_ranked`: no embedding is ranked twice.
* `searchEmbeddings_records`: the records are what is read of the first rows.
* `qualifying`: the records a search is about, whatever its cursor and its limit.
* `searchEmbeddings_eq`: if distances are read exactly, **a search returns a page of
  its qualifying records**, in the sense of `Sql.page`, and the cursor is `Sql.next`.
* `qualifying_mono`: a record stays as long as no row is lost.
-/

namespace EmbeddedAlerts

open Sql

/-- The place in the order of a search that a cursor marks. -/
def SearchCursor.key (c : SearchCursor) : ℚ ×ₗ Uuid := toLex (c.distance, c.embeddingId)

def SearchCursor.ofKey (k : ℚ ×ₗ Uuid) : SearchCursor := ⟨(ofLex k).1, (ofLex k).2⟩

@[simp] theorem SearchCursor.key_ofKey (k : ℚ ×ₗ Uuid) : (SearchCursor.ofKey k).key = k := rfl

/-- Distances are read exactly. -/
def ExactDistances (x : Platform) : Prop :=
  ∀ (a b : List F32Bits) (d : ℚ), x.cosineDistance a b = (d : Float8) → x.jsonDouble d = d

namespace Store

variable {x : Platform} {db db' : Db} {tenantId : Uuid} {request : EmbeddingSearchRequest}

/-! ### The rows that are ranked -/

theorem mem_ranked_iff {wire : SearchWire} :
    wire ∈ ranked x tenantId request db ↔
      ∃ e ∈ db.embeddings, ∃ v ∈ db.pageRevisions, ∃ p ∈ db.pages,
        e.tenantId = tenantId ∧ e.space = request.embedding.toModelSpace ∧
        v.id = e.revisionId ∧ v.tenantId = tenantId ∧ p.id = v.pageId ∧ p.tenantId = tenantId ∧
        (request.sourceIds = [] ∨ p.sourceId ∈ request.sourceIds) ∧
        searchWire x request e v p = wire := by
  refine ⟨mem_ranked, ?_⟩
  rintro ⟨e, he, v, hv, p, hp, heT, hspace, hid, hvT, hpid, hpT, hsource, hw⟩
  simp only [ranked, List.mem_flatMap, List.mem_filter, List.mem_map, decide_eq_true_eq,
    Bool.and_eq_true, Bool.or_eq_true, List.isEmpty_iff, List.contains_iff_mem]
  exact ⟨e, ⟨he, heT, hspace⟩, v, ⟨hv, hid, hvT.trans heT.symm⟩, p,
    ⟨hp, ⟨hpid, hpT.trans hvT.symm⟩, hsource⟩, hw⟩

/-- **No embedding is ranked twice**: it has one page revision, and that has one
page. -/
theorem distinct_ranked (hvalid : db.Valid) :
    Distinct SearchWire.embeddingId (ranked x tenantId request db) := by
  have hids : Distinct EmbeddingRow.id db.embeddings :=
    hvalid.embeddings.keys.imp fun h heq => by simp [embeddingsTable, heq] at h
  have hrevisions : Distinct PageRevisionRow.id db.pageRevisions :=
    hvalid.pageRevisions.keys.imp fun h heq => by simp [pageRevisionsTable, heq] at h
  have hpages : Distinct PageRow.id db.pages :=
    hvalid.pages.keys.imp fun h heq => by simp [pagesTable, heq] at h
  refine List.pairwise_flatMap.mpr ⟨fun e _ => List.pairwise_flatMap.mpr ⟨fun v _ => ?_, ?_⟩, ?_⟩
  · refine List.pairwise_map.mpr (hpages.pairwise_filter (c := v.pageId) fun p hp => ?_)
    exact (of_decide_eq_true (Bool.and_eq_true _ _ ▸ hp).1).1
  · refine hrevisions.pairwise_filter (c := e.revisionId) fun v hv => ?_
    exact (of_decide_eq_true hv).1
  · refine (hids.sublist List.filter_sublist).imp fun {e f} hne a ha b hb => ?_
    simp only [List.mem_flatMap, List.mem_map] at ha hb
    obtain ⟨-, -, -, -, rfl⟩ := ha
    obtain ⟨-, -, -, -, rfl⟩ := hb
    exact hne

/-! ### The order of a search -/

/-- The place of a record in the order of a search. -/
def SearchRecord.key (record : SearchRecord) : ℚ ×ₗ Uuid :=
  toLex (record.hit.distance, record.hit.embeddingId)

def SearchWire.key (wire : SearchWire) : Float8 ×ₗ Uuid := toLex (wire.distance, wire.embeddingId)

theorem nearestFirst_iff (a b : SearchWire) : nearestFirst a b ↔ a.key ≤ b.key := by
  rw [nearestFirst, SearchWire.key, SearchWire.key, Prod.Lex.toLex_le_toLex]

/-- The distance of the row is read exactly. -/
def SearchWire.Exact (x : Platform) (wire : SearchWire) : Prop :=
  ∀ d : ℚ, wire.distance = (d : Float8) → x.jsonDouble d = d

theorem distance_of_intoRecord {wire : SearchWire} {record : SearchRecord} (hexact : wire.Exact x)
    (h : wire.intoRecord x = .ok record) : wire.distance = (record.hit.distance : Float8) := by
  obtain ⟨-, ⟨d, hd, hread⟩, -⟩ := SearchWire.intoRecord_ok h
  rw [hd, hread, hexact d hd]

theorem key_of_intoRecord {wire : SearchWire} {record : SearchRecord} (hexact : wire.Exact x)
    (h : wire.intoRecord x = .ok record) :
    wire.key = toLex ((record.hit.distance : Float8), record.hit.embeddingId) := by
  obtain ⟨-, -, hid, -⟩ := SearchWire.intoRecord_ok h
  rw [SearchWire.key, distance_of_intoRecord hexact h, hid]

/-- Decoding keeps the order. -/
theorem key_lt_iff {a b : SearchWire} {r s : SearchRecord} (hexact : a.Exact x)
    (hexact' : b.Exact x) (ha : a.intoRecord x = .ok r) (hb : b.intoRecord x = .ok s) :
    a.key < b.key ↔ r.key < s.key := by
  rw [key_of_intoRecord hexact ha, key_of_intoRecord hexact' hb, SearchRecord.key,
    SearchRecord.key, Prod.Lex.toLex_lt_toLex, Prod.Lex.toLex_lt_toLex]
  simp only [WithTop.coe_lt_coe, WithTop.coe_inj]

theorem afterCursor_iff {wire : SearchWire} {record : SearchRecord} (hexact : wire.Exact x)
    (h : wire.intoRecord x = .ok record) (cursor : Option SearchCursor) :
    afterCursor cursor wire
      = decide (After SearchRecord.key (cursor.map SearchCursor.key) record) := by
  have hdistance := distance_of_intoRecord hexact h
  obtain ⟨-, -, hid, -⟩ := SearchWire.intoRecord_ok h
  cases cursor with
  | none => simp [afterCursor, After]
  | some c =>
    have hafter : After SearchRecord.key (some c.key) record ↔ c.distance < record.hit.distance ∨
        c.distance = record.hit.distance ∧ c.embeddingId < record.hit.embeddingId := by
      simp [After, SearchCursor.key, SearchRecord.key, Prod.Lex.toLex_lt_toLex]
    simp only [afterCursor, Option.all_some, hdistance, ← hid, WithTop.coe_lt_coe, WithTop.coe_inj,
      eq_comm, Option.map_some]
    exact decide_eq_decide.mpr hafter.symm

/-! ### Decoding -/

/-- The records of the rows that can be decoded. -/
def decoded (x : Platform) (wires : List SearchWire) : List SearchRecord :=
  wires.filterMap fun wire => (wire.intoRecord x).toOption

theorem toOption_eq_some {wire : SearchWire} {record : SearchRecord} :
    (wire.intoRecord x).toOption = some record ↔ wire.intoRecord x = .ok record := by
  cases wire.intoRecord x <;> simp [Except.toOption]

theorem mem_decoded {wires : List SearchWire} {record : SearchRecord} :
    record ∈ decoded x wires ↔ ∃ wire ∈ wires, wire.intoRecord x = .ok record := by
  simp only [decoded, List.mem_filterMap, toOption_eq_some]

theorem decoded_cons {wire : SearchWire} {record : SearchRecord}
    (h : wire.intoRecord x = .ok record) (wires : List SearchWire) :
    decoded x (wire :: wires) = record :: decoded x wires :=
  List.filterMap_cons_some (toOption_eq_some.mpr h)

theorem decoded_of_mapM {wires : List SearchWire} {records : List SearchRecord}
    (h : wires.mapM (SearchWire.intoRecord x) = .ok records) : records = decoded x wires := by
  have hall := mapM_eq_ok_iff.mp h
  clear h
  induction hall with
  | nil => rfl
  | cons hwire _ ih => rw [decoded_cons hwire, ih]

theorem decoded_take {wires : List SearchWire}
    (h : ∀ wire ∈ wires, ∃ record, wire.intoRecord x = .ok record) (n : ℕ) :
    decoded x (wires.take n) = (decoded x wires).take n := by
  induction wires generalizing n with
  | nil => simp [decoded]
  | cons wire wires ih =>
    obtain ⟨record, hrecord⟩ := h wire List.mem_cons_self
    have hrest := ih fun w hw => h w (List.mem_cons_of_mem _ hw)
    cases n with
    | zero => rfl
    | succ n =>
      rw [List.take_succ_cons, decoded_cons hrecord, decoded_cons hrecord, hrest n,
        List.take_succ_cons]

theorem decoded_filter_after {wires : List SearchWire} (hexact : ∀ wire ∈ wires, wire.Exact x)
    (cursor : Option SearchCursor) :
    decoded x (wires.filter (afterCursor cursor)) = (decoded x wires).filter fun record =>
      decide (After SearchRecord.key (cursor.map SearchCursor.key) record) := by
  rw [decoded, decoded, List.filterMap_filter, List.filter_filterMap]
  refine List.filterMap_congr fun wire hwire => ?_
  rcases hw : wire.intoRecord x with e | record
  · simp [Except.toOption]
  · rw [afterCursor_iff (hexact wire hwire) hw]
    simp [Except.toOption, Option.filter]

theorem distinct_decoded {wires : List SearchWire}
    (h : Distinct SearchWire.embeddingId wires) :
    Distinct (fun record => record.hit.embeddingId) (decoded x wires) := by
  refine List.pairwise_filterMap.mpr (h.imp fun {a b} hne r hr s hs heq => hne ?_)
  rw [toOption_eq_some] at hr hs
  rw [← (SearchWire.intoRecord_ok hr).2.2.1, ← (SearchWire.intoRecord_ok hs).2.2.1]
  exact heq

theorem distinct_key {records : List SearchRecord}
    (h : Distinct (fun record => record.hit.embeddingId) records) :
    Distinct SearchRecord.key records :=
  h.imp fun hne heq => hne (congrArg (fun k => (ofLex k).2) heq)

/-- **Sorting the rows sorts their records.** -/
theorem decoded_insertionSort {wires : List SearchWire} (hexact : ∀ wire ∈ wires, wire.Exact x)
    (h : Distinct SearchWire.embeddingId wires) :
    decoded x (wires.insertionSort nearestFirst) = sorted SearchRecord.key (decoded x wires) := by
  have hwires : Distinct SearchWire.key wires :=
    h.imp fun hne heq => hne (congrArg (fun k => (ofLex k).2) heq)
  rw [insertionSort_eq_sorted nearestFirst_iff]
  refine Increasing.ext (List.pairwise_filterMap.mpr ?_)
    (increasing_sorted (distinct_key (distinct_decoded h))) fun record => ?_
  · refine (increasing_sorted hwires).imp_of_mem fun {a b} ha hb hlt r hr s hs => ?_
    rw [mem_sorted] at ha hb
    exact (key_lt_iff (hexact a ha) (hexact b hb) (toOption_eq_some.mp hr)
      (toOption_eq_some.mp hs)).mp hlt
  · rw [mem_sorted, mem_decoded, mem_decoded]
    simp only [mem_sorted]

/-! ### Searches -/

/-- **The records of a search are what is read of its first rows.** -/
theorem searchEmbeddings_records {page : SearchPage} {s : Db}
    (h : searchEmbeddings x tenantId request db = (.ok page, s)) :
    page.response.hits = page.records.map SearchRecord.hit ∧
      ((searchRows x tenantId request db).take request.limit).mapM (SearchWire.intoRecord x)
        = .ok page.records := by
  obtain ⟨rows, s1, hq, h1⟩ := Action.bind_eq_ok h
  obtain ⟨hrows, rfl⟩ := Prod.mk.inj hq
  obtain rfl := Except.ok.inj hrows
  obtain ⟨records, s2, hm, h2⟩ := Action.bind_eq_ok h1
  obtain ⟨hmap, rfl⟩ := Prod.mk.inj hm
  obtain rfl := Except.ok.inj (Prod.mk.inj h2).1
  refine ⟨rfl, mapM_eq_ok_iff.mpr ?_⟩
  have hall := mapM_eq_ok_iff.mp hmap
  by_cases hmore : records.length > request.limit
  · simp only [hmore, decide_true, if_true]
    exact List.forall₂_take _ hall
  · -- there is no row beyond the limit
    have hlength := hall.length_eq
    simp only [hmore, decide_false, Bool.false_eq_true, if_false]
    rw [List.take_of_length_le (by omega)]
    exact hall

/-- The records a search is about, whatever its cursor and its limit. -/
def qualifying (x : Platform) (tenantId : Uuid) (request : EmbeddingSearchRequest) (db : Db) :
    List SearchRecord :=
  decoded x ((ranked x tenantId request db).filter (similarEnough request))

theorem distinct_qualifying (hvalid : db.Valid) :
    Distinct (fun record => record.hit.embeddingId) (qualifying x tenantId request db) :=
  distinct_decoded ((distinct_ranked hvalid).sublist List.filter_sublist)

theorem mem_qualifying {record : SearchRecord} :
    record ∈ qualifying x tenantId request db ↔ Hit x tenantId request db record := by
  rw [qualifying, mem_decoded]
  constructor
  · rintro ⟨wire, hwire, hrecord⟩
    obtain ⟨hranked, hsimilar⟩ := List.mem_filter.mp hwire
    obtain ⟨e, he, v, hv, p, hp, h1, h2, h3, h4, h5, h6, h7, rfl⟩ := mem_ranked hranked
    exact ⟨e, he, v, hv, p, hp, h1, h2, h3, h4, h5, h6, h7, hsimilar, hrecord⟩
  · rintro ⟨e, he, v, hv, p, hp, h1, h2, h3, h4, h5, h6, h7, hsimilar, hrecord⟩
    refine ⟨searchWire x request e v p, List.mem_filter.mpr ⟨?_, hsimilar⟩, hrecord⟩
    exact mem_ranked_iff.mpr ⟨e, he, v, hv, p, hp, h1, h2, h3, h4, h5, h6, h7, rfl⟩

/-- **A record stays as long as no row is lost.** -/
theorem qualifying_mono (hg : Grows db db') {record : SearchRecord}
    (h : record ∈ qualifying x tenantId request db) :
    record ∈ qualifying x tenantId request db' := by
  rw [mem_qualifying] at h ⊢
  obtain ⟨e, he, v, hv, p, hp, h1, h2, h3, h4, h5, h6, h7, hsimilar, hrecord⟩ := h
  obtain ⟨q, hq, hpq⟩ := hg.pages p hp
  -- of the page, a row of the search has three columns only
  have hwire : searchWire x request e v q = searchWire x request e v p := by
    simp only [searchWire, hpq.id, hpq.sourceId, hpq.canonicalUrl]
  refine ⟨e, hg.embeddings he, v, hg.pageRevisions hv, q, hq, h1, h2, h3, h4, ?_, ?_, ?_, ?_, ?_⟩
  · rw [hpq.id, h5]
  · rw [hpq.tenantId, h6]
  · rw [hpq.sourceId]
    exact h7
  · rw [hwire, hsimilar]
  · rw [hwire, hrecord]

section Search

variable (hx : x.Lawful) (hexact : ExactDistances x) (hwf : Wf x db)
  (hv : x.validateEmbedding request.embedding = .ok ())

include hx hexact hwf hv

omit hexact in
theorem intoRecord_of_ranked {wire : SearchWire} (h : wire ∈ ranked x tenantId request db) :
    ∃ record, wire.intoRecord x = .ok record := by
  obtain ⟨e, he, v, -, p, -, -, hspace, -, -, -, -, -, rfl⟩ := mem_ranked h
  obtain ⟨record, hrecord, -⟩ := Evaluation.intoRecord_total hx hwf hv he hspace v p
  exact ⟨record, hrecord⟩

/-- The rows of the statement decode to what remains after the cursor, cut off one
after the limit. -/
theorem mapM_searchRows : (searchRows x tenantId request db).mapM (SearchWire.intoRecord x)
    = .ok ((remaining SearchRecord.key (request.cursor.map SearchCursor.key)
        (qualifying x tenantId request db)).take (request.limit + 1)) := by
  have hall : ∀ wire ∈ (((ranked x tenantId request db).filter (similarEnough request)).filter
      (afterCursor request.cursor)).insertionSort nearestFirst,
      ∃ record, wire.intoRecord x = .ok record := by
    intro wire hwire
    rw [List.mem_insertionSort, List.mem_filter, List.mem_filter] at hwire
    exact intoRecord_of_ranked hx hwf hv hwire.1.1
  have hdistinct : Distinct SearchWire.embeddingId
      (((ranked x tenantId request db).filter (similarEnough request)).filter
        (afterCursor request.cursor)) :=
    (distinct_ranked hwf.valid).sublist (List.filter_sublist.trans List.filter_sublist)
  have hexact : ∀ wire ∈ (ranked x tenantId request db).filter (similarEnough request),
      wire.Exact x := by
    intro wire hwire
    obtain ⟨e, -, v, -, p, -, -, -, -, -, -, -, -, rfl⟩ :=
      mem_ranked (List.mem_of_mem_filter hwire)
    exact hexact e.embedding request.embedding.values
  obtain ⟨records, hrecords⟩ := mapM_ok_of_forall (f := SearchWire.intoRecord x)
    (l := searchRows x tenantId request db) fun wire hwire => hall wire (List.mem_of_mem_take hwire)
  rw [hrecords, decoded_of_mapM hrecords, searchRows, decoded_take hall,
    decoded_insertionSort (fun wire hwire => hexact wire (List.mem_of_mem_filter hwire)) hdistinct,
    decoded_filter_after hexact]
  rfl

/-- **A search returns a page of its qualifying records**, if distances are read
exactly. -/
theorem searchEmbeddings_eq :
    let cursor := request.cursor.map SearchCursor.key
    let records := Sql.page SearchRecord.key request.limit cursor
      (qualifying x tenantId request db)
    searchEmbeddings x tenantId request db = (.ok {
      response := {
        hits := records.map SearchRecord.hit
        nextCursor := (Sql.next SearchRecord.key request.limit cursor
          (qualifying x tenantId request db)).map SearchCursor.ofKey }
      records := records }, db) := by
  intro cursor records
  simp only [searchEmbeddings, Action.query_bind_apply, mapM_searchRows hx hexact hwf hv,
    Action.ofExcept_ok_bind_apply]
  by_cases hmore : request.limit < (remaining SearchRecord.key cursor
      (qualifying x tenantId request db)).length
  · have hlength : request.limit < ((remaining SearchRecord.key cursor
        (qualifying x tenantId request db)).take (request.limit + 1)).length := by
      rw [List.length_take]
      omega
    have htake : ((remaining SearchRecord.key cursor (qualifying x tenantId request db)).take
        (request.limit + 1)).take request.limit = records := by
      rw [List.take_take, Nat.min_eq_left (Nat.le_succ _)]
      rfl
    have hnext : Sql.next SearchRecord.key request.limit cursor (qualifying x tenantId request db)
        = records.getLast?.map SearchRecord.key := if_pos hmore
    simp only [cursor] at hlength htake
    rw [hnext, Option.map_map]
    simp only [hlength, decide_true, if_true, htake]
    rfl
  · have hlength : ¬ request.limit < ((remaining SearchRecord.key cursor
        (qualifying x tenantId request db)).take (request.limit + 1)).length := by
      rw [List.length_take]
      omega
    have htake : (remaining SearchRecord.key cursor (qualifying x tenantId request db)).take
        (request.limit + 1) = records := by
      rw [List.take_of_length_le (by omega)]
      exact (List.take_of_length_le (by omega)).symm
    have hnext : Sql.next SearchRecord.key request.limit cursor (qualifying x tenantId request db)
        = none := if_neg hmore
    rw [htake] at hlength
    simp only [cursor] at htake
    rw [hnext]
    simp only [hlength, decide_false, Bool.false_eq_true, if_false, htake]
    rfl

end Search

end Store

end EmbeddedAlerts
