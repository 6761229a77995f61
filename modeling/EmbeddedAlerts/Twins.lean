import EmbeddedAlerts.ActiveRules
import EmbeddedAlerts.Sql.Agree

/-!
# Stores that a tenant cannot tell apart

Two stores may agree on the rows of tenant `T` (`Agree`) and differ in everything else.
A request of `T` runs on both, with the same input, clock and UUIDs, and the UUIDs are
not those of rows of other tenants (`Unused`).

`Twins`: the stores agree, their declared constraints hold, and the rows of the other
tenants are still those of `rest` and `rest'`.  Each query gives the same on twins, and
each insert does the same and leaves twins again (`Twins.outcome`), since the rows in its
way are rows of `T`: a unique key names the tenant, and a primary key is a UUID that no
other tenant has (`twin_of_keys`).
-/

namespace EmbeddedAlerts

open Sql Relation

/-- The stores have the same rows of the tenant. -/
structure Agree (T : Uuid) (d d' : Db) : Prop where
  sources : AgreeOn (fun r => r.tenantId = T) d.sources d'.sources
  pages : AgreeOn (fun r => r.tenantId = T) d.pages d'.pages
  pageRevisions : AgreeOn (fun r => r.tenantId = T) d.pageRevisions d'.pageRevisions
  embeddings : AgreeOn (fun r => r.tenantId = T) d.embeddings d'.embeddings
  alertRules : AgreeOn (fun r => r.tenantId = T) d.alertRules d'.alertRules
  alertRuleRevisions : AgreeOn (fun r => r.tenantId = T) d.alertRuleRevisions d'.alertRuleRevisions
  alertRuleEmbeddings :
    AgreeOn (fun r => r.tenantId = T) d.alertRuleEmbeddings d'.alertRuleEmbeddings
  matchCandidates : AgreeOn (fun r => r.tenantId = T) d.matchCandidates d'.matchCandidates

/-- No row has one of the UUIDs. -/
structure Unused (ids : ℕ → Uuid) (db : Db) : Prop where
  sources : ∀ r ∈ db.sources, ∀ n, r.id ≠ ids n
  pages : ∀ r ∈ db.pages, ∀ n, r.id ≠ ids n
  pageRevisions : ∀ r ∈ db.pageRevisions, ∀ n, r.id ≠ ids n
  embeddings : ∀ r ∈ db.embeddings, ∀ n, r.id ≠ ids n
  alertRules : ∀ r ∈ db.alertRules, ∀ n, r.id ≠ ids n
  alertRuleRevisions : ∀ r ∈ db.alertRuleRevisions, ∀ n, r.id ≠ ids n
  alertRuleEmbeddings : ∀ r ∈ db.alertRuleEmbeddings, ∀ n, r.id ≠ ids n
  matchCandidates : ∀ r ∈ db.matchCandidates, ∀ n, r.id ≠ ids n

/-- The declared constraints hold, the rows of the other tenants are those of `rest`, and
no such row has one of the UUIDs. -/
structure Ready (T : Uuid) (ids : ℕ → Uuid) (rest db : Db) : Prop where
  valid : db.Valid
  others : db.others T = rest
  unused : Unused ids (db.others T)

/-- Two stores that tenant `T` cannot tell apart. -/
structure Twins (T : Uuid) (ids : ℕ → Uuid) (rest rest' s t : Db) : Prop where
  agree : Agree T s t
  left : Ready T ids rest s
  right : Ready T ids rest' t

variable {x : Platform} {T : Uuid} {ids : ℕ → Uuid} {rest rest' s t s' t' : Db}

/-- Any number of writes. -/
abbrev Writes (T : Uuid) : Db → Db → Prop := ReflTransGen (Write T)

theorem Ready.write {db db' : Db} (h : Ready T ids rest db) (hw : Write T db db') :
    Ready T ids rest db' where
  valid := hw.valid h.valid
  others := hw.others_eq.trans h.others
  unused := by
    rw [hw.others_eq]
    exact h.unused

theorem Ready.writes {db db' : Db} (h : Ready T ids rest db) (hw : Writes T db db') :
    Ready T ids rest db' := by
  induction hw with
  | refl => exact h
  | tail _ hw ih => exact ih.write hw

theorem Writes.grows {db db' : Db} (h : Writes T db db') : Grows db db' := by
  induction h with
  | refl => exact Grows.refl db
  | tail _ hw ih => exact ih.trans hw.grows

/-- An insert-or-select writes its row or nothing. -/
theorem insertOrSelect_writes {ρ : Type} {c : Constraints Db ρ} {target : ρ → ρ → Bool}
    {p : ρ → Bool} {db : Db} {snapshot current rows : List ρ} {row : ρ} {r : Option (ρ × Bool)}
    (put : List ρ → Db) (hput : put current = db)
    (hadd : c.Admits db current row → Write T db (put (current ++ [row])))
    (h : c.insertOrSelect target p db snapshot current row = .ok (r, rows)) :
    Writes T db (put rows) := by
  rcases Constraints.insertOrSelect_cases h with ⟨-, rfl, -⟩ | ⟨-, rfl, ha, -⟩
  · rw [hput]
  · exact .single (hadd ha)

/-- A statement, or a part of one, that does the same on twins. -/
theorem Twins.outcome {α : Type} {q q' : Except DbErr (α × Db)} (h : Twins T ids rest rest' s t)
    (hq : Outcome (Agree T) q q') (hleft : ∀ a s', q = .ok (a, s') → Writes T s s')
    (hright : ∀ a t', q' = .ok (a, t') → Writes T t t') :
    Outcome (Twins T ids rest rest') q q' :=
  hq.mono fun a _ _ hs ht hagree =>
    ⟨hagree, h.left.writes (hleft a _ hs), h.right.writes (hright a _ ht)⟩

theorem Twins.statement {α : Type} {q : Statement Db α} (h : Twins T ids rest rest' s t)
    (hq : Outcome (Agree T) (q s s) (q t t))
    (hleft : ∀ a s', q s s = .ok (a, s') → Writes T s s')
    (hright : ∀ a t', q t t = .ok (a, t') → Writes T t t') :
    Action.Alike (Twins T ids rest rest') (execute q) s t :=
  .statement h (h.outcome hq hleft hright)

theorem Twins.query {α : Type} (h : Twins T ids rest rest' s t) {f : Db → α} (hf : f s = f t) :
    Action.Alike (Twins T ids rest rest') (Action.query f : Api α) s t :=
  ⟨congrArg Except.ok hf, h⟩

/-! ### Queries -/

/-- `ORDER BY updated_at DESC, id ASC`. -/
def SourceRow.newestKey (r : SourceRow) : Timestampᵒᵈ ×ₗ Uuid := toLex (OrderDual.toDual r.updatedAt, r.id)

def AlertRule.newestKey (r : AlertRule) : Timestampᵒᵈ ×ₗ Uuid := toLex (OrderDual.toDual r.updatedAt, r.id)

theorem newestSource_iff (a b : SourceRow) : Store.newestFirst a b ↔ a.newestKey ≤ b.newestKey := by
  rw [Store.newestFirst, SourceRow.newestKey, SourceRow.newestKey, Prod.Lex.toLex_le_toLex,
    OrderDual.toDual_lt_toDual, OrderDual.toDual_inj]

theorem newestRecord_iff (a b : AlertRule) :
    AlertStore.newestFirst a b ↔ a.newestKey ≤ b.newestKey := by
  rw [AlertStore.newestFirst, AlertRule.newestKey, AlertRule.newestKey, Prod.Lex.toLex_le_toLex,
    OrderDual.toDual_lt_toDual, OrderDual.toDual_inj]

theorem Db.Valid.distinct_sources {db : Db} (h : db.Valid) (T : Uuid) :
    Distinct SourceRow.newestKey (db.sources.filter fun r => decide (r.tenantId = T)) := by
  refine List.Pairwise.sublist List.filter_sublist (h.sources.keys.imp fun hkey heq => ?_)
  have hid := congrArg (fun k => (ofLex k).2) heq
  simp only [SourceRow.newestKey, ofLex_toLex] at hid
  simp [sourcesTable, hid] at hkey

theorem Db.Valid.distinct_records {db : Db} (h : db.Valid) (p : AlertRuleRow → Bool) :
    Distinct AlertRule.newestKey
      ((db.alertRules.filter p).flatMap (AlertStore.joinActiveRevision db)) := by
  have hrules : Distinct AlertRuleRow.id db.alertRules :=
    h.alertRules.keys.imp fun h heq => by simp [alertRulesTable, heq] at h
  have hid : ∀ a b : AlertRule, a.newestKey = b.newestKey → a.id = b.id :=
    fun a b heq => congrArg (fun k => (ofLex k).2) heq
  refine List.pairwise_flatMap.mpr ⟨fun rule _ => ?_, ?_⟩
  · cases hactive : rule.activeRevisionId with
    | none =>
      have hnil : AlertStore.joinActiveRevision db rule = [] := by
        simp [AlertStore.joinActiveRevision, hactive]
      rw [hnil]
      exact List.Pairwise.nil
    | some id =>
      refine List.pairwise_map.mpr (h.distinct_revisions.pairwise_filter (c := id) fun v hv => ?_)
      have hv := (of_decide_eq_true hv).1
      rw [hactive] at hv
      exact Option.some.inj hv
  · refine (hrules.sublist List.filter_sublist).imp fun {r r'} hne a ha b hb heq => hne ?_
    simp only [AlertStore.joinActiveRevision, List.mem_map] at ha hb
    obtain ⟨v, -, rfl⟩ := ha
    obtain ⟨w, -, rfl⟩ := hb
    exact hid _ _ heq

section Any

variable (h : Agree T s t) (id : Uuid)

include h

theorem Agree.any_alertRule : s.alertRules.any (fun r => decide (r.tenantId = T ∧ r.id = id))
    = t.alertRules.any fun r => decide (r.tenantId = T ∧ r.id = id) :=
  h.alertRules.any (fun _ _ hr => (of_decide_eq_true hr).1) fun _ _ hr => (of_decide_eq_true hr).1

theorem Agree.any_alertRuleRevision :
    s.alertRuleRevisions.any (fun r => decide (r.tenantId = T ∧ r.id = id))
      = t.alertRuleRevisions.any fun r => decide (r.tenantId = T ∧ r.id = id) :=
  h.alertRuleRevisions.any (fun _ _ hr => (of_decide_eq_true hr).1)
    fun _ _ hr => (of_decide_eq_true hr).1

theorem Agree.any_alertRuleEmbedding :
    s.alertRuleEmbeddings.any (fun r => decide (r.tenantId = T ∧ r.id = id))
      = t.alertRuleEmbeddings.any fun r => decide (r.tenantId = T ∧ r.id = id) :=
  h.alertRuleEmbeddings.any (fun _ _ hr => (of_decide_eq_true hr).1)
    fun _ _ hr => (of_decide_eq_true hr).1

end Any

section Queries

variable (h : Twins T ids rest rest' s t)

include h

theorem Twins.getSource (sourceId : Uuid) :
    Action.Alike (Twins T ids rest rest') (Store.getSource T sourceId) s t := by
  refine h.query (h.agree.sources.find? (fun r _ hr => (of_decide_eq_true hr).1)
    (fun r _ hr => (of_decide_eq_true hr).1) fun a ha b hb hpa hpb => ?_)
  exact h.left.valid.source_eq ha hb
    ((of_decide_eq_true hpa).2.trans (of_decide_eq_true hpb).2.symm)

theorem Twins.listSources : Action.Alike (Twins T ids rest rest') (Store.listSources T) s t := by
  refine h.query (congrArg (List.take 500) ?_)
  rw [insertionSort_eq_sorted newestSource_iff, insertionSort_eq_sorted newestSource_iff]
  exact sorted_eq_of_mem_iff (h.left.valid.distinct_sources T)
    (h.right.valid.distinct_sources T)
    (h.agree.sources.mem_filter fun r hr => of_decide_eq_true hr)

/-- A rule of the tenant has the same active revision in both. -/
theorem Twins.mem_joinActiveRevision {rule : AlertRuleRow} (hrule : rule.tenantId = T)
    (a : AlertRule) :
    a ∈ AlertStore.joinActiveRevision s rule ↔ a ∈ AlertStore.joinActiveRevision t rule := by
  simp only [AlertStore.joinActiveRevision, List.mem_map]
  refine exists_congr fun v => and_congr_left fun _ => ?_
  refine h.agree.alertRuleRevisions.mem_filter (fun r hr => ?_) v
  exact (of_decide_eq_true hr).2.trans hrule

theorem Twins.mem_records {p : AlertRuleRow → Bool} (hp : ∀ r, p r = true → r.tenantId = T)
    (a : AlertRule) :
    a ∈ (s.alertRules.filter p).flatMap (AlertStore.joinActiveRevision s) ↔
      a ∈ (t.alertRules.filter p).flatMap (AlertStore.joinActiveRevision t) := by
  simp only [List.mem_flatMap]
  refine exists_congr fun rule => ?_
  rw [h.agree.alertRules.mem_filter hp rule]
  refine and_congr_right fun hrule => h.mem_joinActiveRevision ?_ a
  exact hp rule (List.mem_filter.mp hrule).2

theorem Twins.listAlertRules (subject : String) (admin : Bool) :
    Action.Alike (Twins T ids rest rest') (AlertStore.listAlertRules T subject admin) s t := by
  refine h.query (congrArg (List.take 500) ?_)
  rw [insertionSort_eq_sorted newestRecord_iff, insertionSort_eq_sorted newestRecord_iff]
  refine sorted_eq_of_mem_iff (h.left.valid.distinct_records _)
    (h.right.valid.distinct_records _) (h.mem_records fun r hr => ?_)
  exact of_decide_eq_true (Bool.and_eq_true _ _ ▸ hr).1

/-- A query for one rule of the tenant. -/
theorem Twins.record {p : AlertRuleRow → Bool} {ruleId : Uuid}
    (hp : ∀ r, p r = true → r.tenantId = T ∧ r.id = ruleId) :
    ((s.alertRules.filter p).flatMap (AlertStore.joinActiveRevision s)).head?
      = ((t.alertRules.filter p).flatMap (AlertStore.joinActiveRevision t)).head? := by
  refine head?_eq_of_mem_iff (fun a ha b hb => ?_) (h.mem_records fun r hr => (hp r hr).1)
  refine (h.left.valid.distinct_records p).eq_of_key ha hb ?_
  simp only [List.mem_flatMap, AlertStore.joinActiveRevision, List.mem_map, List.mem_filter]
    at ha hb
  obtain ⟨rule, ⟨hrule, hpr⟩, -, -, rfl⟩ := ha
  obtain ⟨rule', ⟨hrule', hpr'⟩, -, -, rfl⟩ := hb
  obtain rfl := h.left.valid.alertRule_eq hrule hrule' ((hp _ hpr).2.trans (hp _ hpr').2.symm)
  rfl

theorem Twins.getAlertRule (ruleId : Uuid) (subject : String) (admin : Bool) :
    Action.Alike (Twins T ids rest rest') (AlertStore.getAlertRule T ruleId subject admin) s t :=
  h.query (h.record fun _ hr => of_decide_eq_true (Bool.and_eq_true _ _ ▸ hr).1)

theorem Twins.target (alertRuleId revisionId : Uuid) (model : String) :
    ReverseMatch.target T alertRuleId revisionId model s
      = ReverseMatch.target T alertRuleId revisionId model t := by
  refine head?_eq_of_mem_iff (fun a ha b hb => ?_) fun a => ?_
  · simp only [List.mem_flatMap, List.mem_filter, List.mem_map, decide_eq_true_eq] at ha hb
    obtain ⟨rule, ⟨hrule, -, hid⟩, v, ⟨hv, -, -, -, hvid, -⟩, rfl⟩ := ha
    obtain ⟨rule', ⟨hrule', -, hid'⟩, v', ⟨hv', -, -, -, hvid', -⟩, rfl⟩ := hb
    obtain rfl := h.left.valid.alertRule_eq hrule hrule' (hid.trans hid'.symm)
    obtain rfl := h.left.valid.alertRuleRevision_eq hv hv' (hvid.trans hvid'.symm)
    rfl
  · simp only [List.mem_flatMap, List.mem_map]
    refine exists_congr fun rule => ?_
    rw [h.agree.alertRules.mem_filter (fun r hr => (of_decide_eq_true hr).1) rule]
    refine and_congr_right fun hrule => exists_congr fun v => and_congr_left fun _ => ?_
    have hruleT := (of_decide_eq_true (List.mem_filter.mp hrule).2).1
    refine h.agree.alertRuleRevisions.mem_filter (fun r hr => ?_) v
    exact (of_decide_eq_true hr).1.trans hruleT

theorem Twins.ranked (request : EmbeddingSearchRequest) (wire : Store.SearchWire) :
    wire ∈ Store.ranked x T request s ↔ wire ∈ Store.ranked x T request t := by
  rw [Store.mem_ranked_iff, Store.mem_ranked_iff]
  constructor
  · rintro ⟨e, he, v, hv, p, hp, heT, hspace, hid, hvT, hpid, hpT, hrest⟩
    exact ⟨e, (h.agree.embeddings e heT).mp he, v, (h.agree.pageRevisions v hvT).mp hv, p,
      (h.agree.pages p hpT).mp hp, heT, hspace, hid, hvT, hpid, hpT, hrest⟩
  · rintro ⟨e, he, v, hv, p, hp, heT, hspace, hid, hvT, hpid, hpT, hrest⟩
    exact ⟨e, (h.agree.embeddings e heT).mpr he, v, (h.agree.pageRevisions v hvT).mpr hv, p,
      (h.agree.pages p hpT).mpr hp, heT, hspace, hid, hvT, hpid, hpT, hrest⟩

theorem Twins.searchRows (request : EmbeddingSearchRequest) :
    Store.searchRows x T request s = Store.searchRows x T request t := by
  have hdistinct : ∀ {db : Db}, db.Valid → Distinct Store.SearchWire.key
      (((Store.ranked x T request db).filter (Store.similarEnough request)).filter
        (Store.afterCursor request.cursor)) := by
    intro db hvalid
    have hids : Distinct Store.SearchWire.embeddingId (Store.ranked x T request db) :=
      Store.distinct_ranked hvalid
    refine ((hids.sublist List.filter_sublist).sublist List.filter_sublist).imp fun hne heq => ?_
    exact hne (congrArg (fun k => (ofLex k).2) heq)
  rw [Store.searchRows, Store.searchRows, insertionSort_eq_sorted Store.nearestFirst_iff,
    insertionSort_eq_sorted Store.nearestFirst_iff]
  refine congrArg (List.take _) (sorted_eq_of_mem_iff (hdistinct h.left.valid)
    (hdistinct h.right.valid) fun wire => ?_)
  rw [List.mem_filter, List.mem_filter, List.mem_filter, List.mem_filter, h.ranked request wire]

theorem Twins.searchEmbeddings (request : EmbeddingSearchRequest) :
    Action.Alike (Twins T ids rest rest') (Store.searchEmbeddings x T request) s t := by
  refine .query_bind (h.searchRows request) (.ofExcept_bind h fun records _ => ?_)
  exact ⟨rfl, h⟩

theorem Twins.reachedAlerts (sourceId : Uuid) (embedding : EmbeddingPayload)
    (alert : ReverseMatch.AlertDistance) :
    alert ∈ ReverseMatch.reachedAlerts x T sourceId embedding s ↔
      alert ∈ ReverseMatch.reachedAlerts x T sourceId embedding t := by
  simp only [ReverseMatch.reachedAlerts, List.mem_flatMap, List.mem_map]
  refine exists_congr fun e => ?_
  rw [h.agree.alertRuleEmbeddings.mem_filter (fun r hr => (of_decide_eq_true hr).1) e]
  refine and_congr_right fun he => exists_congr fun rule => ?_
  have heT := (of_decide_eq_true (List.mem_filter.mp he).2).1
  rw [h.agree.alertRules.mem_filter (fun r hr => (of_decide_eq_true hr).1.trans heT) rule]
  refine and_congr_right fun _ => exists_congr fun v => and_congr_left fun _ => ?_
  refine h.agree.alertRuleRevisions.mem_filter (fun r hr => ?_) v
  exact (of_decide_eq_true (Bool.and_eq_true _ _ ▸ hr).1).1.trans heT

theorem Twins.ranking (sourceId : Uuid) (embedding : EmbeddingPayload) :
    EmbeddedAlerts.ranking x T sourceId embedding s
      = EmbeddedAlerts.ranking x T sourceId embedding t := by
  refine (increasing_ranking h.left.valid).ext (increasing_ranking h.right.valid) fun alert => ?_
  rw [EmbeddedAlerts.ranking, EmbeddedAlerts.ranking, mem_sorted, mem_sorted]
  exact h.reachedAlerts sourceId embedding alert

theorem Twins.findAlertCandidates (sourceId : Uuid)
    (request : ReverseMatch.ReverseAlertPageRequest) :
    Action.Alike (Twins T ids rest rest') (ReverseMatch.findAlertCandidates x T sourceId request) s t := by
  have hrows : ((ReverseMatch.reachedAlerts x T sourceId request.embedding s).insertionSort
        ReverseMatch.nearestFirst).take request.maxCandidates.toNat
      = ((ReverseMatch.reachedAlerts x T sourceId request.embedding t).insertionSort
        ReverseMatch.nearestFirst).take request.maxCandidates.toNat := by
    rw [insertionSort_eq_sorted nearestAlert_iff, insertionSort_eq_sorted nearestAlert_iff]
    exact congrArg (List.take _) (h.ranking sourceId request.embedding)
  exact .query_bind hrows (.const h)

end Queries

/-! ### Inserts -/

/-- An insert does the same on twins if its keys name the tenant or a UUID that no other
tenant has. -/
theorem twin_of_keys {ρ : Type} {c : Constraints Db ρ} (tenant id : ρ → Uuid) {d d' : Db}
    {l m : List ρ} {r : ρ} {n : ℕ} {same : ρ → Bool} (hrows : AgreeOn (fun w => tenant w = T) l m)
    (hl : ∀ w ∈ l.filter (fun w => decide (tenant w ≠ T)), ∀ n, id w ≠ ids n)
    (hm : ∀ w ∈ m.filter (fun w => decide (tenant w ≠ T)), ∀ n, id w ≠ ids n) (hid : id r = ids n)
    (hkey : ∀ w, c.sameKey r w = (decide (id r = id w) || same w))
    (hsame : ∀ w, same w = true → tenant w = T) (hrefs : c.refs d r = c.refs d' r) :
    c.Twin (fun w => tenant w = T) d d' l m r := by
  have hown : ∀ k : List ρ, (∀ w ∈ k.filter (fun w => decide (tenant w ≠ T)), ∀ n, id w ≠ ids n) →
      ∀ w ∈ k, c.sameKey r w = true → tenant w = T := by
    intro k hk w hw hconflict
    by_contra hT
    rw [hkey w, Bool.or_eq_true, decide_eq_true_iff] at hconflict
    have heq := hconflict.resolve_right fun h => hT (hsame w h)
    exact hk w (List.mem_filter.mpr ⟨hw, decide_eq_true hT⟩) n (heq.symm.trans hid)
  exact ⟨hrows, hown l hl, hown m hm, hrefs⟩

section Inserts

variable (h : Twins T ids rest rest' s t) {d d' : Db} {n : ℕ}

include h

theorem Twins.sources {r : SourceRow} (hT : r.tenantId = T) (hid : r.id = ids n)
    (hrefs : sourcesTable.refs d r = sourcesTable.refs d' r) :
    sourcesTable.Twin (fun w => w.tenantId = T) d d' s.sources t.sources r :=
  twin_of_keys SourceRow.tenantId SourceRow.id h.agree.sources h.left.unused.sources
    h.right.unused.sources hid (fun _ => rfl)
    (fun _ hw => (of_decide_eq_true hw).1.symm.trans hT) hrefs

theorem Twins.pages {r : PageRow} (hT : r.tenantId = T) (hid : r.id = ids n)
    (hrefs : pagesTable.refs d r = pagesTable.refs d' r) :
    pagesTable.Twin (fun w => w.tenantId = T) d d' s.pages t.pages r :=
  twin_of_keys PageRow.tenantId PageRow.id h.agree.pages h.left.unused.pages
    h.right.unused.pages hid (fun _ => rfl)
    (fun _ hw => (of_decide_eq_true hw).1.symm.trans hT) hrefs

theorem Twins.pageRevisions {r : PageRevisionRow} (hT : r.tenantId = T) (hid : r.id = ids n)
    (hrefs : pageRevisionsTable.refs d r = pageRevisionsTable.refs d' r) :
    pageRevisionsTable.Twin (fun w => w.tenantId = T) d d' s.pageRevisions t.pageRevisions r :=
  twin_of_keys PageRevisionRow.tenantId PageRevisionRow.id h.agree.pageRevisions
    h.left.unused.pageRevisions h.right.unused.pageRevisions hid (fun _ => rfl)
    (fun _ hw => (of_decide_eq_true hw).1.symm.trans hT) hrefs

theorem Twins.embeddings {r : EmbeddingRow} (hT : r.tenantId = T) (hid : r.id = ids n)
    (hrefs : embeddingsTable.refs d r = embeddingsTable.refs d' r) :
    embeddingsTable.Twin (fun w => w.tenantId = T) d d' s.embeddings t.embeddings r :=
  twin_of_keys EmbeddingRow.tenantId EmbeddingRow.id h.agree.embeddings h.left.unused.embeddings
    h.right.unused.embeddings hid (fun _ => rfl)
    (fun _ hw => (of_decide_eq_true hw).1.symm.trans hT) hrefs

theorem Twins.alertRules {r : AlertRuleRow} (hid : r.id = ids n)
    (hrefs : alertRulesTable.refs d r = alertRulesTable.refs d' r) :
    alertRulesTable.Twin (fun w => w.tenantId = T) d d' s.alertRules t.alertRules r :=
  twin_of_keys AlertRuleRow.tenantId AlertRuleRow.id h.agree.alertRules h.left.unused.alertRules
    h.right.unused.alertRules hid (fun _ => (Bool.or_false _).symm) (fun _ hw => by cases hw) hrefs

theorem Twins.alertRuleRevisions {r : AlertRuleRevisionRow} (hT : r.tenantId = T)
    (hid : r.id = ids n)
    (hrefs : alertRuleRevisionsTable.refs d r = alertRuleRevisionsTable.refs d' r) :
    alertRuleRevisionsTable.Twin (fun w => w.tenantId = T) d d' s.alertRuleRevisions
      t.alertRuleRevisions r :=
  twin_of_keys AlertRuleRevisionRow.tenantId AlertRuleRevisionRow.id h.agree.alertRuleRevisions
    h.left.unused.alertRuleRevisions h.right.unused.alertRuleRevisions hid (fun _ => rfl)
    (fun _ hw => (of_decide_eq_true hw).1.symm.trans hT) hrefs

theorem Twins.alertRuleEmbeddings {r : AlertRuleEmbeddingRow} (hT : r.tenantId = T)
    (hid : r.id = ids n)
    (hrefs : alertRuleEmbeddingsTable.refs d r = alertRuleEmbeddingsTable.refs d' r) :
    alertRuleEmbeddingsTable.Twin (fun w => w.tenantId = T) d d' s.alertRuleEmbeddings
      t.alertRuleEmbeddings r :=
  twin_of_keys AlertRuleEmbeddingRow.tenantId AlertRuleEmbeddingRow.id h.agree.alertRuleEmbeddings
    h.left.unused.alertRuleEmbeddings h.right.unused.alertRuleEmbeddings hid (fun _ => rfl)
    (fun _ hw => (of_decide_eq_true hw).1.symm.trans hT) hrefs

theorem Twins.matchCandidates {r : MatchCandidateRow} (hT : r.tenantId = T) (hid : r.id = ids n)
    (hrefs : matchCandidatesTable.refs d r = matchCandidatesTable.refs d' r) :
    matchCandidatesTable.Twin (fun w => w.tenantId = T) d d' s.matchCandidates t.matchCandidates r :=
  twin_of_keys MatchCandidateRow.tenantId MatchCandidateRow.id h.agree.matchCandidates
    h.left.unused.matchCandidates h.right.unused.matchCandidates hid (fun _ => rfl)
    (fun _ hw => (of_decide_eq_true hw).1.symm.trans hT) hrefs

end Inserts

/-! ### Sources and rules -/

/-- The update of a rule that is there. -/
theorem activateAlertRule_of_find {now : Timestamp} {ruleId revisionId : Uuid} {u : Db}
    {rule : AlertRuleRow} (h : u.alertRules.find? (AlertStore.isRule ruleId T) = some rule) :
    AlertStore.activateAlertRule now ruleId T revisionId u u
      = match AlertStore.enforceActiveAlertLimit u.alertRules u.alertRuleRevisions
          (AlertStore.activated now revisionId rule) with
        | .error e => .error e
        | .ok _ =>
          if alertRulesTable.refs u (AlertStore.activated now revisionId rule) = false then
            .error .foreignKeyViolation
          else .ok (1, { u with
            alertRules := u.alertRules.map fun r =>
              if AlertStore.isRule ruleId T r then AlertStore.activated now revisionId r else r }) := by
  rw [AlertStore.activateAlertRule, h]
  dsimp only
  rcases hlimit : AlertStore.enforceActiveAlertLimit u.alertRules u.alertRuleRevisions
    (AlertStore.activated now revisionId rule) with e | new
  · rfl
  · obtain rfl := AlertStore.enforceActiveAlertLimit_ok hlimit
    by_cases hrefs : alertRulesTable.refs u (AlertStore.activated now revisionId rule) = false
    · simp only [hrefs, bind, Except.bind, if_true]
      rfl
    · simp only [hrefs, bind, Except.bind]
      rfl

theorem activateAlertRule_writes {now : Timestamp} {ruleId revisionId : Uuid} {u u' : Db} {n : ℕ}
    (h : AlertStore.activateAlertRule now ruleId T revisionId u u = .ok (n, u')) :
    Writes T u u' := by
  rcases hrule : u.alertRules.find? (AlertStore.isRule ruleId T) with _ | rule
  · rw [AlertStore.activateAlertRule, hrule] at h
    obtain ⟨-, rfl⟩ := Prod.mk.inj (Except.ok.inj h)
    exact .refl
  · rw [activateAlertRule_of_find hrule] at h
    have his := List.find?_some hrule
    have hT : rule.tenantId = T := (of_decide_eq_true his).2
    split at h
    · cases h
    · split_ifs at h with hrefs
      obtain ⟨-, rfl⟩ := Prod.mk.inj (Except.ok.inj h)
      refine .single (.touchRules (fun r => ?_) (fun r hr => ?_) fun r _ => ?_)
      · split_ifs
        · exact ⟨rfl, rfl, rfl⟩
        · exact AlertRuleRow.Same.refl r
      · rw [if_neg]
        simp [AlertStore.isRule, hr]
      · split_ifs with hhit
        · rw [Bool.not_eq_false] at hrefs
          simp only [alertRulesTable, AlertStore.activated, hT] at hrefs ⊢
          rw [(of_decide_eq_true hhit).2]
          exact Or.inr hrefs
        · exact Or.inl rfl

theorem upsertAlertRuleEmbeddingStatement_writes {now : Timestamp} {id alertRuleId : Uuid}
    {request : ReverseMatch.AlertRuleEmbeddingUpsertRequest} {u u' : Db}
    {o : Option (AlertRuleEmbeddingRow × Bool)}
    (h : ReverseMatch.upsertAlertRuleEmbeddingStatement x now id T alertRuleId request u u
      = .ok (o, u')) : Writes T u u' := by
  unfold ReverseMatch.upsertAlertRuleEmbeddingStatement at h
  split at h
  · obtain ⟨-, rfl⟩ := Prod.mk.inj (Except.ok.inj h)
    exact .refl
  · obtain ⟨⟨selected, rows⟩, hi, hrows⟩ := except_bind_eq_ok h
    obtain ⟨-, rfl⟩ := Prod.mk.inj (Except.ok.inj hrows)
    exact insertOrSelect_writes (fun rows => { u with alertRuleEmbeddings := rows }) rfl
      (fun ha => .addAlertEmbedding ha rfl) hi

section Rules

variable (h : Twins T ids rest rest' s t) {now : Timestamp} {subject : String}

include h

theorem Twins.createSource (now : Timestamp) (n : ℕ) (input : CreateSourcePolicy) (root : String) :
    Action.Alike (Twins T ids rest rest') (Store.createSource now (ids n) T input root) s t := by
  have hwrites : ∀ u o u', Store.insertSource (Store.newSource now (ids n) T input root) u u
      = .ok (o, u') → Writes T u u' := by
    intro u o u' hq
    rcases Store.insertSource_ok hq with rfl | ⟨ha, rfl⟩
    · exact .refl
    · exact .single (.addSource ha rfl)
  refine .bind (h.statement ?_ (hwrites s) (hwrites t)) fun o s' t' _ _ h' => .okOr h'
  refine .bind ((h.sources rfl rfl rfl).insertOrNothing fun w hw => ?_) fun o rows rows' _ _ hrows => ?_
  · exact (Bool.or_eq_true _ _).mpr (Or.inr hw)
  · exact .ok { h.agree with sources := hrows }

theorem Twins.insertAlertRule (n : ℕ) :
    Action.Alike (Twins T ids rest rest')
      (execute (AlertStore.insertAlertRule (AlertStore.newAlertRule now (ids n) T subject))) s t := by
  have hwrites : ∀ u m u', AlertStore.insertAlertRule (AlertStore.newAlertRule now (ids n) T subject)
      u u = .ok (m, u') → Writes T u u' := by
    intro u m u' hq
    obtain ⟨ha, rfl⟩ := AlertStore.insertAlertRule_ok hq
    exact .single (.addRule ha rfl)
  refine h.statement ?_ (hwrites s) (hwrites t)
  have hinsert : ∀ u : Db, AlertStore.insertAlertRule (AlertStore.newAlertRule now (ids n) T subject)
      u u = (alertRulesTable.insert u u.alertRules (AlertStore.newAlertRule now (ids n) T subject)
        >>= fun rows => .ok (1, { u with alertRules := rows })) := fun _ => rfl
  have htwin : alertRulesTable.Twin (fun w => w.tenantId = T) s t s.alertRules t.alertRules
      (AlertStore.newAlertRule now (ids n) T subject) := h.alertRules rfl rfl
  rw [hinsert, hinsert]
  rcases htwin.insert with ⟨e, hl, hm⟩ | ⟨hl, hm⟩
  · rw [hl, hm]
    exact .error e
  · rw [hl, hm]
    exact .ok { h.agree with alertRules := h.agree.alertRules.append _ }

theorem Twins.insertAlertRuleRevision (input : CreateAlertRule) (n : ℕ) (ruleId : Uuid) :
    Action.Alike (Twins T ids rest rest') (execute (AlertStore.insertAlertRuleRevision
      (AlertStore.newAlertRuleRevision now (ids n) ruleId T subject input))) s t := by
  have hwrites : ∀ u m u', AlertStore.insertAlertRuleRevision
      (AlertStore.newAlertRuleRevision now (ids n) ruleId T subject input) u u = .ok (m, u') →
      Writes T u u' := by
    intro u m u' hq
    obtain ⟨ha, rfl⟩ := AlertStore.insertAlertRuleRevision_ok hq
    exact .single (.addRuleRevision ha rfl)
  refine h.statement ?_ (hwrites s) (hwrites t)
  have hinsert : ∀ u : Db, AlertStore.insertAlertRuleRevision
      (AlertStore.newAlertRuleRevision now (ids n) ruleId T subject input) u u
      = (alertRuleRevisionsTable.insert u u.alertRuleRevisions
        (AlertStore.newAlertRuleRevision now (ids n) ruleId T subject input)
        >>= fun rows => .ok (1, { u with alertRuleRevisions := rows })) := fun _ => rfl
  have hrefs : alertRuleRevisionsTable.refs s
      (AlertStore.newAlertRuleRevision now (ids n) ruleId T subject input)
      = alertRuleRevisionsTable.refs t
        (AlertStore.newAlertRuleRevision now (ids n) ruleId T subject input) :=
    h.agree.any_alertRule ruleId
  rw [hinsert, hinsert]
  rcases (h.alertRuleRevisions rfl rfl hrefs).insert with ⟨e, hl, hm⟩ | ⟨hl, hm⟩
  · rw [hl, hm]
    exact .error e
  · rw [hl, hm]
    exact .ok { h.agree with alertRuleRevisions := h.agree.alertRuleRevisions.append _ }

/-- **The trigger decides the same.** -/
theorem Twins.enforceActiveAlertLimit {new : AlertRuleRow} (hT : new.tenantId = T) :
    AlertStore.enforceActiveAlertLimit s.alertRules s.alertRuleRevisions new
      = AlertStore.enforceActiveAlertLimit t.alertRules t.alertRuleRevisions new := by
  have henabled : AlertStore.newRevisionEnabled s.alertRuleRevisions new
      = AlertStore.newRevisionEnabled t.alertRuleRevisions new := by
    refine congrArg (Option.map _) (h.agree.alertRuleRevisions.find?
      (fun r _ hr => (of_decide_eq_true hr).1.trans hT)
      (fun r _ hr => (of_decide_eq_true hr).1.trans hT) fun a ha b hb hpa hpb => ?_)
    refine h.left.valid.alertRuleRevision_eq ha hb (Option.some.inj ?_)
    exact (of_decide_eq_true hpa).2.1.trans (of_decide_eq_true hpb).2.1.symm
  have hcount : AlertStore.activeCount s.alertRules s.alertRuleRevisions new
      = AlertStore.activeCount t.alertRules t.alertRuleRevisions new := by
    have hnodup : ∀ {db : Db}, db.Valid →
        (activeOthers db.alertRules db.alertRuleRevisions new).Nodup := by
      intro db hvalid
      have hrules : db.alertRules.Nodup :=
        hvalid.alertRules.keys.imp fun hkey heq => by simp [alertRulesTable, heq] at hkey
      exact (hrules.filter _).filter _
    rw [activeCount_eq h.left.valid.distinct_revisions,
      activeCount_eq h.right.valid.distinct_revisions]
    refine length_eq_of_mem_iff (hnodup h.left.valid) (hnodup h.right.valid) fun r => ?_
    refine (List.mem_filter.trans ?_).trans List.mem_filter.symm
    refine Iff.trans (and_congr_left' (h.agree.alertRules.mem_filter (fun w hw => ?_) r))
      (and_congr_right fun hr => ?_)
    · exact (of_decide_eq_true hw).1.trans hT
    have hrT := (of_decide_eq_true (List.mem_filter.mp hr).2).1.trans hT
    rw [enabledActive, enabledActive, h.agree.alertRuleRevisions.any
      (fun v _ hv => (of_decide_eq_true hv).1.trans hrT)
      fun v _ hv => (of_decide_eq_true hv).1.trans hrT]
  rw [AlertStore.enforceActiveAlertLimit, AlertStore.enforceActiveAlertLimit, henabled, hcount]

theorem Twins.activateAlertRule (ruleId revisionId : Uuid) :
    Action.Alike (Twins T ids rest rest')
      (execute (AlertStore.activateAlertRule now ruleId T revisionId)) s t := by
  refine h.statement ?_ (fun _ _ => activateAlertRule_writes) fun _ _ => activateAlertRule_writes
  have hfind : s.alertRules.find? (AlertStore.isRule ruleId T)
      = t.alertRules.find? (AlertStore.isRule ruleId T) := by
    refine h.agree.alertRules.find? (fun r _ hr => (of_decide_eq_true hr).2)
      (fun r _ hr => (of_decide_eq_true hr).2) fun a ha b hb hpa hpb => ?_
    exact h.left.valid.alertRule_eq ha hb
      ((of_decide_eq_true hpa).1.trans (of_decide_eq_true hpb).1.symm)
  rcases hrule : t.alertRules.find? (AlertStore.isRule ruleId T) with _ | rule
  · rw [AlertStore.activateAlertRule, AlertStore.activateAlertRule, hfind, hrule]
    exact .ok h.agree
  · have his := List.find?_some hrule
    have hT : (AlertStore.activated now revisionId rule).tenantId = T := (of_decide_eq_true his).2
    have hrefs : alertRulesTable.refs s (AlertStore.activated now revisionId rule)
        = alertRulesTable.refs t (AlertStore.activated now revisionId rule) := by
      simp only [alertRulesTable, AlertStore.activated, Option.all_some]
      exact h.agree.alertRuleRevisions.any (fun w _ hw => (of_decide_eq_true hw).1.trans hT)
        fun w _ hw => (of_decide_eq_true hw).1.trans hT
    rw [activateAlertRule_of_find (hfind.trans hrule), activateAlertRule_of_find hrule,
      h.enforceActiveAlertLimit hT, hrefs]
    rcases AlertStore.enforceActiveAlertLimit t.alertRules t.alertRuleRevisions
      (AlertStore.activated now revisionId rule) with e | new
    · exact .error e
    · dsimp only
      split_ifs
      · exact .error _
      · refine .ok { h.agree with alertRules := h.agree.alertRules.map fun r hr => ?_ }
        split_ifs at hr
        · exact hr
        · exact hr

theorem Twins.createAlertRule (input : CreateAlertRule) :
    Action.Alike (Twins T ids rest rest')
      (AlertStore.createAlertRule now ids T subject input) s t := by
  refine .bind (.transaction h ?_) fun o s' t' _ _ h' => .okOr h'
  refine .bind (h.insertAlertRule 0) fun n s1 t1 _ _ h1 => .ensure_bind h1 fun _ => ?_
  refine .bind (h1.insertAlertRuleRevision input 1 (ids 0)) fun n s2 t2 _ _ h2 => ?_
  refine .ensure_bind h2 fun _ => ?_
  refine .bind (h2.activateAlertRule (ids 0) (ids 1)) fun n s3 t3 _ _ h3 => ?_
  exact .ensure_bind h3 fun _ => h3.query (h3.record fun r hr => (of_decide_eq_true hr).symm)

theorem Twins.upsertAlertRuleEmbedding (n : ℕ) (alertRuleId : Uuid)
    (request : ReverseMatch.AlertRuleEmbeddingUpsertRequest) :
    Action.Alike (Twins T ids rest rest')
      (ReverseMatch.upsertAlertRuleEmbedding x now (ids n) T alertRuleId request) s t := by
  refine .ofExcept_bind h fun _ _ => ?_
  refine .bind (h.statement ?_ (fun _ _ => upsertAlertRuleEmbeddingStatement_writes)
    fun _ _ => upsertAlertRuleEmbeddingStatement_writes) fun o s' t' _ _ h' => ?_
  · rw [ReverseMatch.upsertAlertRuleEmbeddingStatement,
      ReverseMatch.upsertAlertRuleEmbeddingStatement, ← h.target]
    rcases ReverseMatch.target T alertRuleId request.alertRuleRevisionId request.embedding.model s
      with _ | ⟨rule, revision⟩
    · exact .ok h.agree
    refine .bind ((h.alertRuleEmbeddings rfl rfl ?_).insertOrSelect (fun w hw => ?_) ?_)
      fun o rows rows' _ _ hrows => .ok { h.agree with alertRuleEmbeddings := hrows }
    · exact congrArg₂ and (h.agree.any_alertRule _) (h.agree.any_alertRuleRevision _)
    · exact (Bool.or_eq_true _ _).mpr (Or.inr hw)
    · refine h.agree.alertRuleEmbeddings.find? (fun r _ hr => (of_decide_eq_true hr).2.2.1)
        (fun r _ hr => (of_decide_eq_true hr).2.2.1) fun a ha b hb hpa hpb => ?_
      obtain ⟨ha1, -, ha2, ha3⟩ := of_decide_eq_true hpa
      obtain ⟨hb1, -, hb2, hb3⟩ := of_decide_eq_true hpb
      refine h.left.valid.alertRuleEmbedding_eq_of_space ha hb (decide_eq_true ?_)
      exact ⟨ha2.trans hb2.symm, ha1.trans hb1.symm, ha3.trans hb3.symm⟩
  · exact .okOr_bind h' fun wire _ => .ensure_bind h' fun _ => ⟨rfl, h'⟩

end Rules

end EmbeddedAlerts
