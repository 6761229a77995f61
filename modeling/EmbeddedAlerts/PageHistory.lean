import EmbeddedAlerts.Sql.Linked
import EmbeddedAlerts.Replay

/-!
# The history of a page

`reverse_match::upsert_page_revision` stores a page, selects or inserts the revision
with its content, and points the page at it.  The predecessor of a new revision is
what the page pointed at before.  Its caller runs it in a transaction
(`ReverseIngest.store`).

`ReverseIngest.Stores` lists the three things a call that succeeds has done.

* `revisit`: the page has a revision with the content, and is pointed at it.
* `revise`: the page has none, and gets one behind what it pointed at.
* `discover`: there is no such page, and it is added with its first revision.

`PageRun` is any run of such calls.  `History` is its invariant, and
`page_history_well_formed` says what it means for a reader of the tables.
-/

namespace EmbeddedAlerts

open Sql Relation

variable {x : Platform} {db d : Db}

namespace ReverseIngest

variable {c : ReverseIngest}

/-- `upsert_page_revision`, in the transaction of its caller. -/
def store (x : Platform) (c : ReverseIngest) : Api ReverseMatch.PageWire :=
  Action.transaction (ReverseMatch.upsertPageRevision x c.now c.ids c.tenantId c.sourceId c.request
    c.originalUrl c.finalUrl)

/-- The hash of the content it brings. -/
def contentSha256 (x : Platform) (c : ReverseIngest) : String :=
  ReverseMatch.contentSha256 x c.request.contentText

/-- It is about this page. -/
def Names (c : ReverseIngest) (p : PageRow) : Prop :=
  p.tenantId = c.tenantId ∧ p.sourceId = c.sourceId ∧ p.canonicalUrl = c.finalUrl

instance (c : ReverseIngest) (p : PageRow) : Decidable (c.Names p) := by
  unfold Names
  infer_instance

/-- The page row it adds. -/
def pageOffer (c : ReverseIngest) : PageRow :=
  Store.newPage c.now (c.ids 0) c.tenantId c.sourceId c.finalUrl c.fetchedAt

/-- Point the page `pageId` at a revision. -/
def pointAt (c : ReverseIngest) (pageId revisionId : Uuid) (p : PageRow) : PageRow :=
  if p.id = pageId then Store.setLatest c.now c.fetchedAt revisionId p else p

/-- **What a call that succeeds has done.** -/
inductive Stores (x : Platform) (c : ReverseIngest) (db : Db) : ReverseMatch.PageWire → Db → Prop
  | revisit {p : PageRow} {v : PageRevisionRow} (page : p ∈ db.pages) (names : c.Names p)
      (revision : v ∈ db.pageRevisions) (tenant : v.tenantId = c.tenantId) (own : v.pageId = p.id)
      (content : v.contentSha256 = c.contentSha256 x) :
      Stores x c db ⟨p.id, v.id, c.contentSha256 x, false⟩
        { db with pages := db.pages.map (c.pointAt p.id v.id) }
  | revise {p : PageRow} (page : p ∈ db.pages) (names : c.Names p)
      (fresh : ∀ v ∈ db.pageRevisions, v.id ≠ c.ids 1) :
      Stores x c db ⟨p.id, c.ids 1, c.contentSha256 x, true⟩
        { db with
          pages := db.pages.map (c.pointAt p.id (c.ids 1))
          pageRevisions := db.pageRevisions ++ [c.revisionOffer x p] }
  | discover (new : ∀ p ∈ db.pages, ¬ c.Names p) (freshPage : ∀ p ∈ db.pages, p.id ≠ c.ids 0)
      (fresh : ∀ v ∈ db.pageRevisions, v.id ≠ c.ids 1) :
      Stores x c db ⟨c.ids 0, c.ids 1, c.contentSha256 x, true⟩
        { db with
          pages := db.pages ++ [Store.setLatest c.now c.fetchedAt (c.ids 1) c.pageOffer]
          pageRevisions := db.pageRevisions ++ [c.revisionOffer x c.pageOffer] }

theorem pageOffer_sameUrl {p : PageRow} : c.pageOffer.sameUrl p = true ↔ c.Names p := by
  rw [PageRow.sameUrl, decide_eq_true_iff]
  exact ⟨fun h => ⟨h.1.symm, h.2.1.symm, h.2.2.symm⟩, fun h => ⟨h.1.symm, h.2.1.symm, h.2.2.symm⟩⟩

theorem fresh_of_admits {v : PageRevisionRow} {rows : List PageRevisionRow} {d : Db}
    (h : pageRevisionsTable.Admits d rows v) : ∀ w ∈ rows, w.id ≠ v.id := by
  intro w hw hid
  have hkey := h.fresh w hw
  simp [pageRevisionsTable, hid] at hkey

theorem setLatestRevision_pages {page : ReverseMatch.PageWire} {fetchedAt now : Timestamp} {T : Uuid}
    {u : Unit} (h : ReverseMatch.setLatestRevision now fetchedAt T page db db = .ok (u, d)) :
    d = { db with pages := db.pages.map fun p =>
      if p.tenantId = T ∧ p.id = page.pageId then
        Store.setLatest now fetchedAt page.pageRevisionId p else p } := by
  unfold ReverseMatch.setLatestRevision at h
  simp only at h
  split at h
  · obtain ⟨-, rfl⟩ := Prod.mk.inj (Except.ok.inj h)
    simp only [decide_eq_true_eq]
  · cases h

/-- On the rows of the store, the two updates of a known page amount to one. -/
theorem pages_of_known (hwf : Wf x db) {p : PageRow} (hp : p ∈ db.pages) (hnames : c.Names p)
    (revisionId : Uuid) :
    ((db.pages.map fun q => if c.pageOffer.sameUrl q then
        Store.seenAgain c.now c.fetchedAt q else q).map fun q =>
      if q.tenantId = c.tenantId ∧ q.id = p.id then
        Store.setLatest c.now c.fetchedAt revisionId q else q)
      = db.pages.map (c.pointAt p.id revisionId) := by
  rw [List.map_map]
  refine List.map_congr_left fun q hq => ?_
  by_cases hid : q.id = p.id
  · obtain rfl := hwf.valid.page_eq hq hp hid
    have hurl : c.pageOffer.sameUrl q = true := pageOffer_sameUrl.mpr hnames
    rw [Function.comp_apply, if_pos hurl, if_pos ⟨hnames.1, rfl⟩, pointAt, if_pos rfl]
    rfl
  · have hurl : ¬ c.pageOffer.sameUrl q = true := by
      intro hurl
      obtain ⟨h1, h2, h3⟩ := pageOffer_sameUrl.mp hurl
      have hqp : q = p := hwf.valid.page_eq_of_url hq hp (decide_eq_true
        ⟨h1.trans hnames.1.symm, h2.trans hnames.2.1.symm, h3.trans hnames.2.2.symm⟩)
      exact hid (congrArg PageRow.id hqp)
    rw [Function.comp_apply, if_neg hurl, if_neg fun h => hid h.2, pointAt, if_neg hid]

/-- **A call that succeeds has done one of the three things.** -/
theorem store_ok (hwf : Wf x db) {wire : ReverseMatch.PageWire}
    (h : c.store x db = (.ok wire, d)) : c.Stores x db wire d := by
  obtain ⟨p, pages, v, changed, rows, hp, hr, rfl, hset⟩ :=
    upsertPageRevision_inv (Action.transaction_eq_ok h)
  obtain rfl := setLatestRevision_pages hset
  rcases Constraints.insertOrUpdate_cases hp with
    ⟨q, hq, hurl, rfl, rfl⟩ | ⟨rfl, rfl, hadmits, hnew⟩
  · have hnames : c.Names q := pageOffer_sameUrl.mp hurl
    rcases Constraints.insertOrSelect_cases hr with ⟨ho, rfl, -⟩ | ⟨ho, rfl, hfresh, -⟩
    · obtain ⟨w, hfind, hw⟩ := Option.map_eq_some_iff.mp ho.symm
      obtain ⟨rfl, rfl⟩ := Prod.mk.inj hw
      obtain ⟨hwT, hwpage, hwsha⟩ := knownRevision_spec (List.find?_some hfind)
      have hstored := Stores.revisit hq hnames (List.mem_of_find?_eq_some hfind) hwT hwpage hwsha
      rw [← pages_of_known hwf hq hnames] at hstored
      exact hstored
    · obtain ⟨rfl, rfl⟩ := Prod.mk.inj (Option.some.inj ho)
      have hstored := Stores.revise (x := x) hq hnames (fresh_of_admits hfresh)
      rw [← pages_of_known hwf hq hnames] at hstored
      exact hstored
  · have hfreshPage : ∀ q ∈ db.pages, q.id ≠ c.ids 0 := by
      intro q hq hid
      have hkey := hadmits.fresh q hq
      simp [pagesTable, Store.newPage, hid] at hkey
    have hnone : ∀ q ∈ db.pages, ¬ c.Names q := by
      intro q hq hnames
      have hfalse := hnew q hq
      rw [show (Store.newPage c.now (c.ids 0) c.tenantId c.sourceId c.finalUrl
        c.fetchedAt).sameUrl q = true from pageOffer_sameUrl.mpr hnames] at hfalse
      cases hfalse
    rcases Constraints.insertOrSelect_cases hr with ⟨-, -, w, hw, hsame⟩ | ⟨ho, rfl, hfresh, -⟩
    · -- a revision of a page that is not there
      obtain ⟨-, hpage, -⟩ := of_decide_eq_true hsame
      obtain ⟨q, hq, hid, -⟩ := hwf.page w hw
      exact absurd (hid.trans hpage.symm) (hfreshPage q hq)
    · obtain ⟨rfl, rfl⟩ := Prod.mk.inj (Option.some.inj ho)
      have hstored := Stores.discover (x := x) hnone hfreshPage (fresh_of_admits hfresh)
      have hpages : ((db.pages ++ [c.pageOffer]).map fun q =>
          if q.tenantId = c.tenantId ∧ q.id = c.ids 0 then
            Store.setLatest c.now c.fetchedAt (c.ids 1) q else q)
          = db.pages ++ [Store.setLatest c.now c.fetchedAt (c.ids 1) c.pageOffer] := by
        rw [List.map_append]
        congr 1
        · conv_rhs => rw [← List.map_id db.pages]
          refine List.map_congr_left fun q hq => ?_
          rw [if_neg fun h => hfreshPage q hq h.2]
          rfl
        · rw [List.map_singleton, if_pos ⟨rfl, rfl⟩]
      rw [← hpages] at hstored
      exact hstored

theorem store_cases (hwf : Wf x db) (c : ReverseIngest) :
    (∃ e, c.store x db = (.error e, db)) ∨
      ∃ wire d, c.store x db = (.ok wire, d) ∧ c.Stores x db wire d := by
  rcases hrun : ReverseMatch.upsertPageRevision x c.now c.ids c.tenantId c.sourceId c.request
    c.originalUrl c.finalUrl db with ⟨e | wire, d⟩
  · exact Or.inl ⟨e, Action.transaction_of_error hrun⟩
  · have hstore : c.store x db = (.ok wire, d) := Action.transaction_of_ok hrun
    exact Or.inr ⟨wire, d, hstore, store_ok hwf hstore⟩

theorem store_steps (c : ReverseIngest) (db : Db) :
    Steps x (fun _ _ => True) c.tenantId db (c.store x db).2 :=
  Action.Moves.transaction (ReverseMatch.upsertPageRevision_moves c.now c.ids c.sourceId c.request
    c.originalUrl c.finalUrl db)

end ReverseIngest

/-! ### Runs -/

/-- A run of calls from the empty store, each with the store it met.  Between them
the service does anything that leaves the two page tables alone. -/
inductive PageRun (x : Platform) : List (ReverseIngest × Db) → Db → Prop
  | start : PageRun x [] Db.empty
  | other {log : List (ReverseIngest × Db)} {db db' : Db} (h : PageRun x log db)
      (served : Served x db db') (pages : db'.pages = db.pages)
      (pageRevisions : db'.pageRevisions = db.pageRevisions) : PageRun x log db'
  | call {log : List (ReverseIngest × Db)} {db : Db} (h : PageRun x log db) (c : ReverseIngest) :
      PageRun x (log ++ [(c, db)]) (c.store x db).2

variable {log : List (ReverseIngest × Db)}

theorem PageRun.split (h : PageRun x log db) : ∀ {before after : List (ReverseIngest × Db)}
    {c : ReverseIngest} {d : Db}, log = before ++ (c, d) :: after → PageRun x before d := by
  induction h with
  | start =>
    intro before after c d hlog
    simp at hlog
  | other _ _ _ _ ih => exact ih
  | call h _ ih =>
    intro before after c d hlog
    rcases snoc_eq_append_cons hlog with ⟨rfl, hlast, -⟩ | ⟨rest, -, hlog⟩
    · obtain ⟨-, rfl⟩ := Prod.mk.inj hlast
      exact h
    · exact ih hlog

/-- The calls of a run that succeeded, for one page. -/
def observed (x : Platform) (log : List (ReverseIngest × Db)) (p : PageRow) : List ReverseIngest :=
  (log.filter fun entry => decide (entry.1.Names p) && (entry.1.store x entry.2).1.isOk).map Prod.fst

theorem observed_congr {p q : PageRow} (h : p.Same q) : observed x log q = observed x log p := by
  have hnames : ∀ c : ReverseIngest, c.Names q ↔ c.Names p := by
    intro c
    rw [ReverseIngest.Names, ReverseIngest.Names, h.tenantId, h.sourceId, h.canonicalUrl]
  simp only [observed, hnames]

theorem observed_snoc_of_ok {c : ReverseIngest} {p : PageRow} (hnames : c.Names p)
    {wire : ReverseMatch.PageWire} (hok : c.store x db = (.ok wire, d)) :
    observed x (log ++ [(c, db)]) p = observed x log p ++ [c] := by
  have hkeep : (decide (c.Names p) && (c.store x db).1.isOk) = true := by
    rw [hok, decide_eq_true hnames]
    rfl
  rw [observed, List.filter_append, List.filter_singleton, hkeep, List.map_append]
  rfl

theorem observed_snoc_of_not {c : ReverseIngest} {p : PageRow}
    (h : ¬ c.Names p ∨ ∃ e, c.store x db = (.error e, d)) :
    observed x (log ++ [(c, db)]) p = observed x log p := by
  have hdrop : (decide (c.Names p) && (c.store x db).1.isOk) = false := by
    rcases h with h | ⟨e, h⟩
    · rw [decide_eq_false h, Bool.false_and]
    · rw [h]
      exact Bool.and_false _
  rw [observed, filter_append_of_neg (a := (c, db)) hdrop]
  rfl

/-! ### The invariant -/

/-- The revision follows the other one. -/
structure PageRevisionRow.Follows (v w : PageRevisionRow) : Prop where
  predecessor : v.predecessorRevisionId = some w.id
  pageId : w.pageId = v.pageId
  tenantId : w.tenantId = v.tenantId

/-- The page is as its calls have left it: pointed at a revision of its own with the
content of the last, first seen at the first and last seen at the last. -/
structure PageRow.After (x : Platform) (log : List (ReverseIngest × Db))
    (rows : List PageRevisionRow) (p : PageRow) : Prop where
  first : ∃ c, (observed x log p).head? = some c ∧ p.firstSeenAt = c.fetchedAt
  last : ∃ c, (observed x log p).getLast? = some c ∧ p.lastSeenAt = c.fetchedAt ∧
    ∃ v ∈ rows, p.latestRevisionId = some v.id ∧ v.pageId = p.id ∧ v.tenantId = p.tenantId ∧
      v.contentSha256 = c.contentSha256 x

/-- What holds of the page tables along a run. -/
structure History (x : Platform) (log : List (ReverseIngest × Db)) (db : Db) : Prop where
  wf : Wf x db
  stored : ∀ entry ∈ log, (entry.1.store x entry.2).1.isOk = true →
    ∃ p ∈ db.pages, entry.1.Names p
  pages : ∀ p ∈ db.pages, p.After x log db.pageRevisions
  linked : Linked PageRevisionRow.Follows (fun v => v.predecessorRevisionId = none)
    db.pageRevisions
  root : ∀ v ∈ db.pageRevisions, ∀ w ∈ db.pageRevisions, v.pageId = w.pageId →
    v.predecessorRevisionId = none → w.predecessorRevisionId = none → v = w

section After

variable {rows rows' : List PageRevisionRow} {p : PageRow} {c : ReverseIngest}

theorem PageRow.After.snoc_of_not (h : p.After x log rows)
    (hc : ¬ c.Names p ∨ ∃ e, c.store x db = (.error e, db)) (hsub : rows ⊆ rows') :
    p.After x (log ++ [(c, db)]) rows' := by
  obtain ⟨l, hl, hseen, v, hv, hrest⟩ := h.last
  refine ⟨?_, l, ?_, hseen, v, hsub hv, hrest⟩
  · rw [observed_snoc_of_not hc]
    exact h.first
  · rw [observed_snoc_of_not hc]
    exact hl

variable (hnames : c.Names p) {wire : ReverseMatch.PageWire} (hok : c.store x db = (.ok wire, d))
  {v : PageRevisionRow} (hv : v ∈ rows') (hpage : v.pageId = p.id)
  (htenant : v.tenantId = c.tenantId) (hcontent : v.contentSha256 = c.contentSha256 x)

include hnames hok hv hpage htenant hcontent

theorem PageRow.After.point (h : p.After x log rows) :
    (Store.setLatest c.now c.fetchedAt v.id p).After x (log ++ [(c, db)]) rows' := by
  have hsame : p.Same (Store.setLatest c.now c.fetchedAt v.id p) := ⟨rfl, rfl, rfl, rfl⟩
  have hobserved : observed x (log ++ [(c, db)]) (Store.setLatest c.now c.fetchedAt v.id p)
      = observed x log p ++ [c] := by
    rw [observed_congr hsame, observed_snoc_of_ok hnames hok]
  obtain ⟨f, hf, hfirst⟩ := h.first
  refine ⟨⟨f, ?_, hfirst⟩, c, ?_, rfl, v, hv, rfl, hpage, htenant.trans hnames.1.symm, hcontent⟩
  · rw [hobserved, List.head?_append, hf]
    rfl
  · rw [hobserved]
    exact List.getLast?_concat

/-- Every page stays as its calls have left it when one is pointed at a revision. -/
theorem History.pages_pointAt (h : History x log db) (hp : p ∈ db.pages)
    (hsub : db.pageRevisions ⊆ rows') :
    ∀ q ∈ db.pages.map (c.pointAt p.id v.id), q.After x (log ++ [(c, db)]) rows' := by
  intro q' hq'
  obtain ⟨q, hq, rfl⟩ := List.mem_map.mp hq'
  by_cases hid : q.id = p.id
  · obtain rfl := h.wf.valid.page_eq hq hp hid
    rw [ReverseIngest.pointAt, if_pos rfl]
    exact (h.pages q hq).point hnames hok hv hpage htenant hcontent
  · rw [ReverseIngest.pointAt, if_neg hid]
    refine (h.pages q hq).snoc_of_not (Or.inl fun hnamesq => hid ?_) hsub
    have hqp : q = p := h.wf.valid.page_eq_of_url hq hp (decide_eq_true
      ⟨hnamesq.1.trans hnames.1.symm, hnamesq.2.1.trans hnames.2.1.symm,
        hnamesq.2.2.trans hnames.2.2.symm⟩)
    exact congrArg PageRow.id hqp

end After

theorem ReverseIngest.pointAt_same (c : ReverseIngest) (pageId revisionId : Uuid) (p : PageRow) :
    p.Same (c.pointAt pageId revisionId p) := by
  unfold ReverseIngest.pointAt
  split_ifs
  · exact ⟨rfl, rfl, rfl, rfl⟩
  · exact PageRow.Same.refl p

theorem ReverseIngest.Names.of_same {c : ReverseIngest} {p q : PageRow} (h : c.Names p)
    (hsame : p.Same q) : c.Names q :=
  ⟨hsame.tenantId.trans h.1, hsame.sourceId.trans h.2.1, hsame.canonicalUrl.trans h.2.2⟩

theorem History.stored_snoc (h : History x log db) {c : ReverseIngest}
    (hgrows : ∀ p ∈ db.pages, ∃ q ∈ d.pages, p.Same q)
    (hc : (c.store x db).1.isOk = true → ∃ p ∈ d.pages, c.Names p) :
    ∀ entry ∈ log ++ [(c, db)], (entry.1.store x entry.2).1.isOk = true →
      ∃ p ∈ d.pages, entry.1.Names p := by
  refine forall_mem_append_singleton ?_ hc
  intro entry hentry hok
  obtain ⟨p, hp, hnames⟩ := h.stored entry hentry hok
  obtain ⟨q, hq, hsame⟩ := hgrows p hp
  exact ⟨q, hq, hnames.of_same hsame⟩

theorem History.call (h : History x log db) (c : ReverseIngest) :
    History x (log ++ [(c, db)]) (c.store x db).2 := by
  have hsteps := c.store_steps (x := x) db
  have hwf : Wf x (c.store x db).2 := h.wf.steps hsteps
  rcases c.store_cases h.wf with ⟨e, herror⟩ | ⟨wire, d, hok, hstores⟩
  · rw [herror]
    refine ⟨h.wf, h.stored_snoc (fun p hp => ⟨p, hp, PageRow.Same.refl p⟩) fun hok => ?_,
      fun p hp => (h.pages p hp).snoc_of_not (Or.inr ⟨e, herror⟩) (List.Subset.refl _), h.linked,
      h.root⟩
    rw [herror] at hok
    cases hok
  · have hgrows : ∀ p ∈ db.pages, ∃ q ∈ d.pages, p.Same q := by
      have hgrows := hsteps.grows
      rw [hok] at hgrows
      exact hgrows.pages
    rw [hok] at hwf ⊢
    cases hstores with
    | @revisit p v page names revision tenant own content =>
      refine ⟨hwf, h.stored_snoc hgrows fun _ => ?_,
        h.pages_pointAt names hok revision own tenant content page (List.Subset.refl _),
        h.linked, h.root⟩
      exact ⟨_, List.mem_map_of_mem page, names.of_same (c.pointAt_same _ _ p)⟩
    | @revise p page names fresh =>
      have hnew : c.revisionOffer x p ∈ db.pageRevisions ++ [c.revisionOffer x p] := by simp
      obtain ⟨-, -, -, w, hw, hlatest, hwpage, hwtenant, -⟩ := (h.pages p page).last
      refine ⟨hwf, h.stored_snoc hgrows fun _ => ?_,
        h.pages_pointAt names hok hnew rfl rfl rfl page (List.subset_append_left _ _), ?_, ?_⟩
      · exact ⟨_, List.mem_map_of_mem page, names.of_same (c.pointAt_same _ _ p)⟩
      · exact h.linked.snoc (Or.inr ⟨w, hw, hlatest, hwpage, hwtenant.trans names.1⟩)
      · have hother : (c.revisionOffer x p).predecessorRevisionId ≠ none := by
          rw [show (c.revisionOffer x p).predecessorRevisionId = p.latestRevisionId from rfl, hlatest]
          exact Option.some_ne_none _
        refine forall_mem_append_singleton (fun v hv => ?_) fun w _ _ hnone => absurd hnone hother
        refine forall_mem_append_singleton (h.root v hv) fun _ _ hnone => absurd hnone hother
    | discover new freshPage fresh =>
      have hnew : c.revisionOffer x c.pageOffer
          ∈ db.pageRevisions ++ [c.revisionOffer x c.pageOffer] := by simp
      have hnames : c.Names c.pageOffer := ⟨rfl, rfl, rfl⟩
      have hother : ∀ v ∈ db.pageRevisions, v.pageId ≠ c.ids 0 := by
        intro v hv hid
        obtain ⟨p, hp, hpid, -⟩ := h.wf.page v hv
        exact freshPage p hp (hpid.trans hid)
      have hnone : observed x log c.pageOffer = [] := by
        rw [observed, List.map_eq_nil_iff, List.filter_eq_nil_iff]
        intro entry hentry hkept
        rw [Bool.and_eq_true, decide_eq_true_iff] at hkept
        obtain ⟨q, hq, hqnames⟩ := h.stored entry hentry hkept.2
        refine new q hq ⟨?_, ?_, ?_⟩
        · exact hqnames.1.trans hkept.1.1.symm
        · exact hqnames.2.1.trans hkept.1.2.1.symm
        · exact hqnames.2.2.trans hkept.1.2.2.symm
      have hobserved : observed x (log ++ [(c, db)])
          (Store.setLatest c.now c.fetchedAt (c.ids 1) c.pageOffer) = [c] := by
        have hsame : c.pageOffer.Same
            (Store.setLatest c.now c.fetchedAt (c.ids 1) c.pageOffer) :=
          ⟨rfl, rfl, rfl, rfl⟩
        rw [observed_congr hsame, observed_snoc_of_ok hnames hok, hnone, List.nil_append]
      refine ⟨hwf, h.stored_snoc hgrows fun _ => ?_, ?_, h.linked.snoc (Or.inl rfl), ?_⟩
      · exact ⟨_, List.mem_append_right _ (List.mem_singleton_self _), rfl, rfl, rfl⟩
      · refine forall_mem_append_singleton (fun p hp => ?_) ?_
        · exact (h.pages p hp).snoc_of_not (Or.inl (new p hp)) (List.subset_append_left _ _)
        · refine ⟨⟨c, ?_, rfl⟩, c, ?_, rfl, _, hnew, rfl, rfl, rfl, rfl⟩
          · rw [hobserved]
            rfl
          · rw [hobserved]
            rfl
      · refine forall_mem_append_singleton (fun v hv => ?_) ?_
        · refine forall_mem_append_singleton (h.root v hv) fun hid => ?_
          exact absurd hid (hother v hv)
        · refine forall_mem_append_singleton (fun w hw hid => ?_) fun _ _ _ => rfl
          exact absurd hid.symm (hother w hw)

/-- **The invariant holds along every run.** -/
theorem PageRun.history (hx : x.Lawful) (h : PageRun x log db) : History x log db := by
  induction h with
  | start =>
    refine ⟨Wf.empty x, by simp, by simp [Db.empty], ?_, by simp [Db.empty]⟩
    exact .nil
  | other _ served hpages hrevisions ih =>
    refine ⟨served.wf hx ih.wf, ?_, ?_, ?_, ?_⟩
    · rw [hpages]
      exact ih.stored
    · rw [hpages]
      intro p hp
      obtain ⟨c, hc, hseen, v, hv, hrest⟩ := (ih.pages p hp).last
      exact ⟨(ih.pages p hp).first, c, hc, hseen, v, hrevisions ▸ hv, hrest⟩
    · rw [hrevisions]
      exact ih.linked
    · rw [hrevisions]
      exact ih.root
  | call _ c ih => exact ih.call c

/-! ### What it means -/

/-- The revision names the other one as its predecessor. -/
def Precedes (db : Db) (v w : PageRevisionRow) : Prop :=
  w ∈ db.pageRevisions ∧ v.predecessorRevisionId = some w.id

namespace History

variable {p : PageRow}

theorem distinct (h : History x log db) (hp : p ∈ db.pages) :
    ((db.pageRevisions.filter fun v => decide (v.pageId = p.id)).map
      PageRevisionRow.contentSha256).Nodup := by
  have htenant : ∀ v ∈ db.pageRevisions, v.pageId = p.id → v.tenantId = p.tenantId := by
    intro v hv hid
    obtain ⟨q, hq, hqid, hqtenant⟩ := h.wf.page v hv
    obtain rfl := h.wf.valid.page_eq hq hp (hqid.trans hid)
    exact hqtenant.symm
  rw [List.Nodup, List.pairwise_map]
  have hkeys := h.wf.valid.pageRevisions.keys.filter fun v => decide (v.pageId = p.id)
  refine hkeys.imp_of_mem ?_
  intro v w hv hw hkey hcontent
  rw [List.mem_filter, decide_eq_true_iff] at hv hw
  have hsame : v.sameContent w = true := decide_eq_true
    ⟨(htenant v hv.1 hv.2).trans (htenant w hw.1 hw.2).symm, hv.2.trans hw.2.symm, hcontent⟩
  simp [pageRevisionsTable, hsame] at hkey

theorem chain (h : History x log db) {v : PageRevisionRow} (hv : v ∈ db.pageRevisions) :
    ∃ r ∈ db.pageRevisions, r.pageId = v.pageId ∧ r.predecessorRevisionId = none ∧
      ReflTransGen (Precedes db) v r := by
  obtain ⟨r, hr, hroot, hchain⟩ := h.linked.chain v hv
  refine ⟨r, hr, ?_, hroot, ReflTransGen.mono (fun a b hab => ⟨hab.1, hab.2.predecessor⟩) _ _ hchain⟩
  clear hroot hr
  induction hchain with
  | refl => rfl
  | tail _ hab ih => exact hab.2.pageId.trans ih

theorem existsUnique_root (h : History x log db) (hp : p ∈ db.pages) :
    ∃! r, r ∈ db.pageRevisions ∧ r.pageId = p.id ∧ r.predecessorRevisionId = none := by
  obtain ⟨-, -, -, v, hv, -, hvpage, -⟩ := (h.pages p hp).last
  obtain ⟨r, hr, hrpage, hroot, -⟩ := h.chain hv
  refine ⟨r, ⟨hr, hrpage.trans hvpage, hroot⟩, ?_⟩
  rintro w ⟨hw, hwpage, hwroot⟩
  exact h.root w hw r hr (hwpage.trans (hrpage.trans hvpage).symm) hwroot hroot

end History

/-- **The history of a page is well formed.**  After any run of `upsert_page_revision`,
for every page:

* its revisions have pairwise different content;
* it points at a revision of its own, with the content of the last call that
  succeeded for it;
* one of its revisions has no predecessor, and every other one follows a revision of
  the same page that stands before it in the table, so that its chain of
  predecessors ends in that root.

And a call that succeeds says that the page has changed exactly if it has created the
revision it answers with. -/
theorem page_history_well_formed (hx : x.Lawful) (h : PageRun x log db) :
    (∀ p ∈ db.pages,
      ((db.pageRevisions.filter fun v => decide (v.pageId = p.id)).map
        PageRevisionRow.contentSha256).Nodup ∧
      (∃ c, (observed x log p).getLast? = some c ∧ ∃ v ∈ db.pageRevisions,
        p.latestRevisionId = some v.id ∧ v.pageId = p.id ∧ v.tenantId = p.tenantId ∧
        v.contentSha256 = c.contentSha256 x) ∧
      ∃ r, (r ∈ db.pageRevisions ∧ r.pageId = p.id ∧ r.predecessorRevisionId = none) ∧
        ∀ before v after, db.pageRevisions = before ++ v :: after → v.pageId = p.id →
          (v = r ∨ ∃ w ∈ before, v.predecessorRevisionId = some w.id ∧ w.pageId = p.id ∧
            w.tenantId = p.tenantId) ∧
          (v.predecessorRevisionId = none → v = r) ∧ ReflTransGen (Precedes db) v r) ∧
    ∀ before c d after, log = before ++ (c, d) :: after →
      ∀ wire, (c.store x d).1 = .ok wire →
        (wire.changed = true ↔ ∀ v ∈ d.pageRevisions, v.id ≠ wire.pageRevisionId) ∧
        ∃ v ∈ (c.store x d).2.pageRevisions, v.id = wire.pageRevisionId := by
  have hhistory := h.history hx
  refine ⟨fun p hp => ⟨hhistory.distinct hp, ?_, ?_⟩, ?_⟩
  · obtain ⟨c, hc, -, hlatest⟩ := (hhistory.pages p hp).last
    exact ⟨c, hc, hlatest⟩
  · obtain ⟨r, ⟨hr, hrpage, hroot⟩, hunique⟩ := hhistory.existsUnique_root hp
    refine ⟨r, ⟨hr, hrpage, hroot⟩, fun before v after hrows hvpage => ?_⟩
    have hv : v ∈ db.pageRevisions := by
      rw [hrows]
      simp
    have honly : v.predecessorRevisionId = none → v = r := fun hnone =>
      hunique v ⟨hv, hvpage, hnone⟩
    refine ⟨?_, honly, ?_⟩
    · rcases hhistory.linked.back hrows with hnone | ⟨w, hw, hfollows⟩
      · exact Or.inl (honly hnone)
      · right
        have hwmem : w ∈ db.pageRevisions := by
          rw [hrows]
          exact List.mem_append_left _ hw
        have hwpage : w.pageId = p.id := hfollows.pageId.trans hvpage
        obtain ⟨q, hq, hqid, hqtenant⟩ := hhistory.wf.page w hwmem
        obtain rfl := hhistory.wf.valid.page_eq hq hp (hqid.trans hwpage)
        exact ⟨w, hw, hfollows.predecessor, hwpage, hqtenant.symm⟩
    · obtain ⟨r', hr', hrpage', hroot', hchain⟩ := hhistory.chain hv
      rw [hunique r' ⟨hr', hrpage'.trans hvpage, hroot'⟩] at hchain
      exact hchain
  · intro before c d after hlog wire hok
    have hwf := ((h.split hlog).history hx).wf
    have hstore : c.store x d = (.ok wire, (c.store x d).2) := Prod.ext hok rfl
    have hstores := ReverseIngest.store_ok hwf hstore
    generalize (c.store x d).2 = d' at hstores ⊢
    cases hstores with
    | @revisit p v _ _ revision _ _ _ =>
      refine ⟨⟨fun hchanged => ?_, fun hnone => ?_⟩, v, revision, rfl⟩
      · cases hchanged
      · exact absurd rfl (hnone v revision)
    | revise _ _ fresh =>
      exact ⟨⟨fun _ => fresh, fun _ => rfl⟩, _, List.mem_append_right _ (List.mem_singleton_self _),
        rfl⟩
    | discover _ _ fresh =>
      exact ⟨⟨fun _ => fresh, fun _ => rfl⟩, _, List.mem_append_right _ (List.mem_singleton_self _),
        rfl⟩

/-! ### A scenario -/

namespace Scenario

/-- The platform with the digests of two more contents. -/
def threeContents : Platform := Platform.sampleWith [
  (Text.utf8 "beta".toList,
    digestBytes 0xf44e64e75f3948e9f73f8dfa94721c4ce8cbb4f265c4790c702b2d41cfbf2753),
  (Text.utf8 "gamma".toList,
    digestBytes 0xbe9d587defa1f0c09ef49eb17e206983a5f8f8289e4281860bd0ee5a19592c67)]

/-- The store with the source. -/
def sourced : Db := createSource.after threeContents Db.empty

/-- A fetch of the page with this content, at this time. -/
def fetch (base : ℕ) (contentText : String) (nanoseconds : ℤ) : ReverseIngest where
  now := 0
  ids := (supply base).ids
  tenantId := 1
  sourceId := 10
  request := ⟨{ page diagonal with contentText := contentText, fetchedAt := ⟨nanoseconds⟩ }, 10⟩
  originalUrl := "https://example.com/a"
  finalUrl := "https://example.com/a"

theorem pageRun_sourced : PageRun threeContents [] sourced :=
  .other .start (.request createSource) rfl rfl

/-- The stores of a run of fetches, each with the fetch it meets. -/
def fetches (x : Platform) : List ReverseIngest → Db → List (ReverseIngest × Db)
  | [], _ => []
  | c :: cs, db => (c, db) :: fetches x cs (c.store x db).2

def afterFetches (x : Platform) : List ReverseIngest → Db → Db
  | [], db => db
  | c :: cs, db => afterFetches x cs (c.store x db).2

theorem pageRun_fetches (cs : List ReverseIngest) {log : List (ReverseIngest × Db)} {db : Db}
    (h : PageRun x log db) : PageRun x (log ++ fetches x cs db) (afterFetches x cs db) := by
  induction cs generalizing log db with
  | nil =>
    rw [fetches, List.append_nil]
    exact h
  | cons c cs ih =>
    have hrun := ih (h.call c)
    rw [List.append_assoc] at hrun
    exact hrun

/-- The content goes from `alpha` to `beta`, back, and on to `gamma`. -/
def backAndForth : List ReverseIngest :=
  [fetch 50 "alpha" 0, fetch 60 "beta" 1000, fetch 70 "alpha" 2000, fetch 80 "gamma" 3000]

end Scenario

open Scenario in
/-- The page has three revisions, and the last follows the first. -/
theorem page_history_well_formed_sample :
    ((afterFetches threeContents backAndForth sourced).pageRevisions.map fun v =>
      (v.id, v.predecessorRevisionId)) = [(51, none), (61, some 51), (81, some 51)] ∧
    ∀ p ∈ (afterFetches threeContents backAndForth sourced).pages,
      (((afterFetches threeContents backAndForth sourced).pageRevisions.filter fun v =>
        decide (v.pageId = p.id)).map PageRevisionRow.contentSha256).Nodup := by
  refine ⟨by decide, fun p hp => ?_⟩
  exact ((page_history_well_formed (Platform.sampleWith_lawful _)
    (pageRun_fetches backAndForth pageRun_sourced)).1 p hp).1

end EmbeddedAlerts
