import EmbeddedAlerts.Offers

/-!
# Historical evaluation, call by call

A call of `store::evaluate_matches` in a well-formed store.  The search always
answers (`Evaluation.searchEmbeddings_total`): stored vectors and the query were
validated, so every distance is a number.  The rest is a loop of offers
(`Evaluation.offers_sound`) whose fallback accepts the historical rows.

* `Evaluation.exec_ok`: **if no record is blocked, the call answers every record**
  with the row it found, or with the row it has added if there was none.
* `Evaluation.exec_error`: **if a record is blocked, the call fails.**
-/

namespace EmbeddedAlerts

open Sql Binary

/-- A call of `store::evaluate_matches`, with the clock and the UUIDs it draws. -/
structure Evaluation where
  tenantId : Uuid
  alertRuleId : Uuid
  alertRuleRevisionId : Uuid
  threshold : ℚ
  search : EmbeddingSearchRequest
  clock : ℕ → Timestamp
  ids : ℕ → Uuid

namespace Evaluation

variable {x : Platform} {db s : Db} {c : Evaluation}

def exec (x : Platform) (c : Evaluation) : Api (List Store.MatchCandidate) :=
  Store.evaluateMatches x c.clock c.ids c.tenantId c.alertRuleId c.alertRuleRevisionId c.threshold
    c.search

def after (x : Platform) (c : Evaluation) (db : Db) : Db := (c.exec x db).2

/-- The search it makes. -/
def narrowed (c : Evaluation) : EmbeddingSearchRequest :=
  { c.search with minSimilarity := F32.max c.search.minSimilarity (F32.ofRat c.threshold) }

/-- The row it offers for a record, on turn `n`. -/
def offer (x : Platform) (c : Evaluation) (n : ℕ) (record : Store.SearchRecord) :
    MatchCandidateRow :=
  Store.newCandidate x (c.clock n) (c.ids n) c.tenantId c.alertRuleId c.alertRuleRevisionId
    c.threshold record

/-- One turn of its loop. -/
def turnAt (x : Platform) (c : Evaluation) : Store.SearchRecord × ℕ → Api Store.MatchCandidate :=
  Store.evaluateRecord x c.clock c.ids c.tenantId c.alertRuleId c.alertRuleRevisionId c.threshold

/-- What its callers see to: a threshold in range, a validated search, a revision
of the rule, and UUIDs nobody has. -/
structure Valid (x : Platform) (db : Db) (c : Evaluation) : Prop where
  threshold : 0 ≤ c.threshold ∧ c.threshold ≤ 1
  search : x.validateSearch c.search = .ok ()
  owned : Store.Owned c.tenantId c.alertRuleId c.alertRuleRevisionId db
  fresh : FreshIds db c.ids c.search.limit

/-- The combination of the record is recorded by a reverse row. -/
def Blocked (db : Db) (c : Evaluation) (record : Store.SearchRecord) : Prop :=
  ∃ r ∈ db.matchCandidates, r.For c.tenantId c.alertRuleRevisionId record.hit.revisionId
    record.hit.space ∧ r.matchMode = .reverseAlertStream

/-! ### The search -/

/-- A stored vector and a validated query have a similarity, and it is read in range. -/
theorem intoRecord_total (hx : x.Lawful) (hwf : Wf x db) {request : EmbeddingSearchRequest}
    (hv : x.validateEmbedding request.embedding = .ok ()) {e : EmbeddingRow}
    (he : e ∈ db.embeddings) (hspace : e.space = request.embedding.toModelSpace)
    (v : PageRevisionRow) (p : PageRow) :
    ∃ record, (Store.searchWire x request e v p).intoRecord x = .ok record ∧
      -1 ≤ record.hit.similarity ∧ record.hit.similarity ≤ 1 := by
  have he' : x.validateEmbedding ⟨e.space, e.embedding⟩ = .ok () := hwf.embedding e he
  obtain ⟨q, hq, -⟩ := hx.distance _ request.embedding he' hv hspace
  obtain ⟨similarity, hsim, hrange⟩ := hx.similarity he' hv hspace
  have hread : |x.jsonDouble similarity| ≤ 1 := hx.jsonBounded similarity (abs_le.mpr hrange)
  have hdistance : (Store.searchWire x request e v p).distance = (q : Float8) := hq
  have hsimilarity : (Store.searchWire x request e v p).similarity = (similarity : Float8) := hsim
  unfold Store.SearchWire.intoRecord
  rw [hdistance, hsimilarity]
  exact ⟨_, rfl, abs_le.mp hread⟩

/-- **The search answers.** -/
theorem searchEmbeddings_total (hx : x.Lawful) (hwf : Wf x db) (tenantId : Uuid)
    (request : EmbeddingSearchRequest) (hv : x.validateEmbedding request.embedding = .ok ()) :
    ∃ page, Store.searchEmbeddings x tenantId request db = (.ok page, db) := by
  have hrows : ∀ wire ∈ Store.searchRows x tenantId request db,
      ∃ record, wire.intoRecord x = .ok record := by
    intro wire hwire
    have hwire := List.mem_of_mem_take hwire
    rw [List.mem_insertionSort, List.mem_filter, List.mem_filter] at hwire
    obtain ⟨e, he, v, -, p, -, -, hspace, -, -, -, -, -, rfl⟩ := Store.mem_ranked hwire.1.1
    obtain ⟨record, hrecord, -⟩ := intoRecord_total hx hwf hv he hspace v p
    exact ⟨record, hrecord⟩
  obtain ⟨records, hrecords⟩ := mapM_ok_of_forall hrows
  simp only [Store.searchEmbeddings, Action.query_bind_apply, hrecords,
    Action.ofExcept_ok_bind_apply]
  exact ⟨_, rfl⟩

theorem similarity_range (hx : x.Lawful) (hwf : Wf x db) {tenantId : Uuid}
    {request : EmbeddingSearchRequest} (hv : x.validateEmbedding request.embedding = .ok ())
    {record : Store.SearchRecord} (h : Store.Hit x tenantId request db record) :
    -1 ≤ record.hit.similarity ∧ record.hit.similarity ≤ 1 := by
  obtain ⟨e, he, v, -, p, -, -, hspace, -, -, -, -, -, -, hrec⟩ := h
  obtain ⟨record', hrecord', hrange⟩ := intoRecord_total hx hwf hv he hspace v p
  obtain rfl := Except.ok.inj (hrec.symm.trans hrecord')
  exact hrange

theorem hit_unique (hwf : Wf x db) {tenantId : Uuid} {request : EmbeddingSearchRequest}
    {r t : Store.SearchRecord} (hr : Store.Hit x tenantId request db r)
    (ht : Store.Hit x tenantId request db t) (hrev : r.hit.revisionId = t.hit.revisionId) :
    r = t := by
  obtain ⟨e, he, v, hv, p, hp, heT, hes, hve, -, hpv, -, -, -, hrec⟩ := hr
  obtain ⟨e', he', v', hv', p', hp', heT', hes', hve', -, hpv', -, -, -, hrec'⟩ := ht
  have hvid : r.hit.revisionId = v.id := (Store.SearchWire.intoRecord_ok hrec).2.2.2.1
  have hvid' : t.hit.revisionId = v'.id := (Store.SearchWire.intoRecord_ok hrec').2.2.2.1
  have hvv : v.id = v'.id := hvid.symm.trans (hrev.trans hvid')
  obtain rfl := hwf.valid.pageRevision_eq hv hv' hvv
  obtain rfl := hwf.valid.page_eq hp hp' (hpv.trans hpv'.symm)
  obtain rfl : e = e' := by
    refine hwf.valid.embedding_eq_of_space he he' (decide_eq_true ⟨?_, ?_, ?_⟩)
    · rw [heT, heT']
    · rw [← hve, ← hve']
    · rw [hes, hes']
  exact Except.ok.inj (hrec.symm.trans hrec')

/-! ### The loop -/

/-- The loop of the call. -/
def offers (x : Platform) (db : Db) (c : Evaluation) : Offers Store.SearchRecord where
  Item := Store.Hit x c.tenantId c.narrowed db
  limit := c.search.limit
  ids := c.ids
  offer := c.offer x
  identity := Store.matchIdentity c.tenantId c.alertRuleId c.alertRuleRevisionId
  fallback row _ := Store.sameHistorical row
  accepts r := decide (r.matchMode = .historicalPageSearch)

theorem offer_check (hx : x.Lawful) (hwf : Wf x db) (hv : c.Valid x db) (n : ℕ)
    {record : Store.SearchRecord} (hhit : Store.Hit x c.tenantId c.narrowed db record) :
    matchCandidatesTable.check (c.offer x n record) = true := by
  have hvalid : x.validateEmbedding c.narrowed.embedding = .ok () :=
    hx.searchEmbedding c.search hv.search
  have hrange := similarity_range hx hwf hvalid hhit
  have hthreshold := hv.threshold
  have hsim : decide (-1 ≤ (c.offer x n record).similarity ∧
      (c.offer x n record).similarity ≤ 1) = true := decide_eq_true hrange
  have hthr : decide (0 ≤ (c.offer x n record).threshold ∧
      (c.offer x n record).threshold ≤ 1) = true := decide_eq_true hthreshold
  simp only [matchCandidatesTable, hsim, hthr, Bool.true_and]
  rfl

theorem offers_sound (hx : x.Lawful) (hk : Function.Injective (Store.matchKey x)) (hwf : Wf x db)
    (hv : c.Valid x db) : (c.offers x db).Sound x db where
  id _ _ := rfl
  distinct := hv.fresh.distinct
  fresh := hv.fresh.matchCandidates
  identifies _ _ hhit := hhit.identifies hv.owned _ _ _
  unique _ _ hr ht hsame := hit_unique hwf hr ht (congrArg MatchIdentity.pageRevisionId hsame)
  check n _ hhit := offer_check hx hwf hv n hhit
  accepts _ _ := rfl
  find s hs hgrows n record hhit r hr hkey := by
    have hident : Identifies x s (c.offer x n record)
        (Store.matchIdentity c.tenantId c.alertRuleId c.alertRuleRevisionId record) :=
      (hhit.identifies hv.owned _ _ _).mono hgrows
    have hfind := find?_sameHistorical hs hk hident hr hkey rfl
    simpa only [offers, decide_eq_true_eq] using hfind

section Call

variable (hx : x.Lawful) (hk : Function.Injective (Store.matchKey x)) (hwf : Wf x db)
  (hv : c.Valid x db)

include hx hk hwf hv

theorem blocked_iff {record : Store.SearchRecord}
    (hhit : Store.Hit x c.tenantId c.narrowed db record) :
    (c.offers x db).Blocked db record ↔ c.Blocked db record := by
  have hident := (offers_sound hx hk hwf hv).identifies 0 record hhit
  have hmode : ∀ m : MatchMode, decide (m = .historicalPageSearch) = false ↔
      m = .reverseAlertStream := by
    intro m
    cases m <;> decide
  refine exists_congr fun r => and_congr_right fun hr => and_congr ?_ (hmode _)
  exact sameMatchKey_iff_for hwf hk hident hr

variable {page : Store.SearchPage}
  (hpage : Store.searchEmbeddings x c.tenantId c.narrowed db = (.ok page, db))

omit hx hk hwf hv in
include hpage in
theorem exec_eq : c.exec x db = Action.forEach (c.turnAt x) page.records.zipIdx db :=
  Action.bind_of_ok hpage

omit hx hk hwf hv in
theorem turnAt_of_some {record : Store.SearchRecord} {n : ℕ} {s s' : Db} {r : MatchCandidateRow}
    {created : Bool}
    (h : (c.offers x db).statement (c.offer x n record) s s = .ok (some (r, created), s')) :
    c.turnAt x (record, n) s = (.ok (Store.matchCandidate x r), s') := by
  have hstatement : Store.upsertMatch (c.offer x n record) s s = .ok (some (r, created), s') := h
  exact Action.bind_of_ok (execute_of_ok hstatement)

omit hx hk hwf hv in
theorem turnAt_of_none {record : Store.SearchRecord} {n : ℕ} {s s' : Db}
    (h : (c.offers x db).statement (c.offer x n record) s s = .ok (none, s')) :
    c.turnAt x (record, n) s
      = (.error (.internal "match upsert returned no durable record"), s') := by
  have hstatement : Store.upsertMatch (c.offer x n record) s s = .ok (none, s') := h
  exact Action.bind_of_ok (execute_of_ok hstatement)

include hpage

/-- **If no record is blocked, every record is answered.** -/
theorem exec_ok (hfree : ∀ record ∈ page.records, ¬ c.Blocked db record) :
    ∃ rows s, c.exec x db = (.ok (rows.map (Store.matchCandidate x)), s) ∧
      Offers.Loop x db (c.offers x db) page.records.length s ∧
      List.Forall₂ (fun record result => (c.offers x db).Answered db record result s)
        page.records rows := by
  obtain ⟨-, hlength, hhits⟩ := Store.searchEmbeddings_ok hpage
  have hfree' : ∀ record ∈ page.records, ¬ (c.offers x db).Blocked db record := by
    intro record hrecord
    rw [blocked_iff hx hk hwf hv (hhits record hrecord)]
    exact hfree record hrecord
  obtain ⟨rows, s, hrun, hloop, hall⟩ := Offers.forEach_ok (offers_sound hx hk hwf hv)
    (f := c.turnAt x) (g := Store.matchCandidate x) (fun _ _ _ _ _ _ h => turnAt_of_some h) hk hwf
    hhits hlength hfree'
  exact ⟨rows, s, (exec_eq hpage).trans hrun, hloop, hall⟩

/-- **If a record is blocked, the call fails.** -/
theorem exec_error (hblocked : ∃ record ∈ page.records, c.Blocked db record) :
    ∃ s, c.exec x db = (.error (.internal "match upsert returned no durable record"), s) := by
  obtain ⟨-, hlength, hhits⟩ := Store.searchEmbeddings_ok hpage
  obtain ⟨record, hrecord, hb⟩ := hblocked
  rw [← blocked_iff hx hk hwf hv (hhits record hrecord)] at hb
  obtain ⟨s, hrun⟩ := Offers.forEach_error (offers_sound hx hk hwf hv)
    (f := c.turnAt x) (g := Store.matchCandidate x) (fun _ _ _ _ _ _ h => turnAt_of_some h) hk hwf
    hhits hlength (fun _ _ _ _ h => turnAt_of_none h) ⟨record, hrecord, hb⟩
  exact ⟨s, (exec_eq hpage).trans hrun⟩

end Call

end Evaluation

end EmbeddedAlerts
