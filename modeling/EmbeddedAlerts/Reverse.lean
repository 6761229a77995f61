import EmbeddedAlerts.Offers

/-!
# Reverse matching, call by call

A call of `reverse_match::ingest_and_reverse_match` in a well-formed store.

* `ReverseIngest.page_total`: storing the page always works and touches the two
  page tables only.  The revision it answers with is the recorded one for this
  page and content, if there is one, and a new one if not.
* `ReverseIngest.findAlertCandidates_total`: the rules are found, and storing the
  page does not change which (`ReverseIngest.Stored.rules`).
* `ReverseIngest.offers_sound`: the rest is a loop of offers, whose fallback
  accepts the reverse rows for the same page vector.
* `ReverseIngest.exec_ok`: **if no found rule is blocked, every found rule gets a
  candidate.**
* `ReverseIngest.exec_conflict`: **if one is, the call ends in a conflict** and
  leaves the store as it was.
-/

namespace EmbeddedAlerts

open Sql Binary

/-- A call of `reverse_match::ingest_and_reverse_match`, with the clock and the
UUIDs it draws. -/
structure ReverseIngest where
  now : Timestamp
  ids : ℕ → Uuid
  tenantId : Uuid
  sourceId : Uuid
  request : ReverseMatch.ReverseAlertPageRequest
  originalUrl : String
  finalUrl : String

namespace ReverseIngest

variable {x : Platform} {db d s : Db} {c : ReverseIngest}

def exec (x : Platform) (c : ReverseIngest) : Api ReverseMatch.ReverseAlertMatchResponse :=
  ReverseMatch.ingestAndReverseMatch x c.now c.ids c.tenantId c.sourceId c.request c.originalUrl
    c.finalUrl

def after (x : Platform) (c : ReverseIngest) (db : Db) : Db := (c.exec x db).2

/-- What is stored of the time at which the page was fetched. -/
abbrev fetchedAt (c : ReverseIngest) : Timestamp := c.request.fetchedAt.timestamptz

/-- The fingerprint of its page vector. -/
def fingerprint (x : Platform) (c : ReverseIngest) : String :=
  ReverseMatch.embeddingSha256 x c.request.embedding.values

/-- What its callers see to: a validated request for a source that exists, and
UUIDs nobody has. -/
structure Valid (x : Platform) (db : Db) (c : ReverseIngest) : Prop where
  request : c.request.validate x = .ok ()
  source : ∃ t ∈ db.sources, t.id = c.sourceId
  fresh : FreshIds db c.ids (c.request.maxCandidates.toNat + 2)

/-- The page and its content are recorded as the revision `v`. -/
structure Recorded (x : Platform) (db : Db) (c : ReverseIngest) (v : PageRevisionRow) : Prop where
  mem : v ∈ db.pageRevisions
  tenantId : v.tenantId = c.tenantId
  content : v.contentSha256 = ReverseMatch.contentSha256 x c.request.contentText
  page : ∃ p ∈ db.pages, p.id = v.pageId ∧ p.tenantId = c.tenantId ∧ p.sourceId = c.sourceId ∧
    p.canonicalUrl = c.finalUrl

theorem Valid.page (hv : c.Valid x db) : x.validatePage c.request.toPageIngestRequest = .ok () := by
  obtain ⟨_, h, -⟩ := except_bind_eq_ok hv.request
  exact h

/-! ### The page -/

theorem newPage_admits (hv : c.Valid x db)
    (hnew : ∀ p ∈ db.pages, (Store.newPage c.now (c.ids 0) c.tenantId c.sourceId c.finalUrl
      c.fetchedAt).sameUrl p = false) :
    pagesTable.Admits db db.pages (Store.newPage c.now (c.ids 0) c.tenantId c.sourceId c.finalUrl
      c.fetchedAt) := by
  refine ⟨rfl, fun p hp => ?_, ?_⟩
  · simp only [pagesTable, hnew p hp, Bool.or_false, decide_eq_false_iff_not]
    exact fun h => hv.fresh.pages 0 (by omega) p hp h.symm
  · obtain ⟨t, ht, hid⟩ := hv.source
    simp only [pagesTable, Store.newPage, Option.all_none, Bool.and_true, List.any_eq_true]
    exact ⟨t, ht, by simp [hid]⟩

/-- The page row is the one that was there for the source and URL, or a new one
because there was none. -/
theorem upsertedPage_cases {page : PageRow} {pages : List PageRow}
    (h : pagesTable.insertOrUpdate PageRow.sameUrl (Store.seenAgain c.now c.fetchedAt) db
      db.pages (Store.newPage c.now (c.ids 0) c.tenantId c.sourceId c.finalUrl
        c.fetchedAt) = .ok (page, pages)) :
    (∃ q ∈ db.pages, page.id = q.id ∧ q.tenantId = c.tenantId ∧ q.sourceId = c.sourceId ∧
        q.canonicalUrl = c.finalUrl) ∨
      (page.id = c.ids 0 ∧ ∀ q ∈ db.pages, ¬ (q.tenantId = c.tenantId ∧
        q.sourceId = c.sourceId ∧ q.canonicalUrl = c.finalUrl)) := by
  rcases Constraints.insertOrUpdate_cases h with ⟨q, hq, ht, rfl, -⟩ | ⟨rfl, -, -, hnone⟩
  · obtain ⟨h1, h2, h3⟩ := of_decide_eq_true ht
    exact Or.inl ⟨q, hq, rfl, h1.symm, h2.symm, h3.symm⟩
  · refine Or.inr ⟨rfl, fun q hq hsame => ?_⟩
    have hfalse := of_decide_eq_false (hnone q hq)
    exact hfalse ⟨hsame.1.symm, hsame.2.1.symm, hsame.2.2.symm⟩

section Page

variable (hx : x.Lawful) (hwf : Wf x db) (hv : c.Valid x db) {page : PageRow} {pages : List PageRow}
  (hpage : pagesTable.insertOrUpdate PageRow.sameUrl (Store.seenAgain c.now c.fetchedAt) db
    db.pages (Store.newPage c.now (c.ids 0) c.tenantId c.sourceId c.finalUrl
      c.fetchedAt) = .ok (page, pages))

/-- The revision row it offers for a page. -/
def revisionOffer (x : Platform) (c : ReverseIngest) (page : PageRow) : PageRevisionRow :=
  Store.newPageRevision x c.now (c.ids 1) c.tenantId page.id page.latestRevisionId
    c.request.toPageIngestRequest c.originalUrl c.finalUrl

theorem Recorded.sameContent (hwf : Wf x db) (hpage : pagesTable.insertOrUpdate PageRow.sameUrl
      (Store.seenAgain c.now c.fetchedAt) db db.pages (Store.newPage c.now (c.ids 0)
        c.tenantId c.sourceId c.finalUrl c.fetchedAt) = .ok (page, pages))
    {v : PageRevisionRow} (h : c.Recorded x db v) :
    (c.revisionOffer x page).sameContent v = true := by
  obtain ⟨p, hp, hpid, hpT, hpsource, hpurl⟩ := h.page
  have hid : page.id = v.pageId := by
    rcases upsertedPage_cases hpage with ⟨q, hq, hqid, hqT, hqsource, hqurl⟩ | ⟨-, hnone⟩
    · have hqp : q = p := by
        refine hwf.valid.page_eq_of_url hq hp (decide_eq_true ⟨?_, ?_, ?_⟩)
        · rw [hqT, hpT]
        · rw [hqsource, hpsource]
        · rw [hqurl, hpurl]
      rw [hqid, hqp, hpid]
    · exact absurd ⟨hpT, hpsource, hpurl⟩ (hnone p hp)
  exact decide_eq_true ⟨h.tenantId.symm, hid, h.content.symm⟩

include hx hwf hv hpage

theorem revisionOffer_admits
    (hnew : ∀ v ∈ db.pageRevisions, (c.revisionOffer x page).sameContent v = false) :
    pageRevisionsTable.Admits { db with pages := pages } db.pageRevisions
      (c.revisionOffer x page) := by
  obtain ⟨hsteps, hmem, -⟩ := upsertPage_steps (x := x) (G := fun _ _ => True) hpage
  have hwf1 := hwf.steps hsteps
  refine ⟨decide_eq_true (hx.pageStatus _ hv.page), fun v hv' => ?_, ?_⟩
  · simp only [pageRevisionsTable, hnew v hv', Bool.or_false, decide_eq_false_iff_not]
    exact fun h => hv.fresh.pageRevisions 1 (by omega) v hv' h.symm
  · have hrefs := hwf1.valid.pages.refs page hmem
    simp only [pagesTable, Bool.and_eq_true] at hrefs
    simp only [pageRevisionsTable, Bool.and_eq_true]
    refine ⟨List.any_eq_true.mpr ⟨page, hmem, ?_⟩, hrefs.2⟩
    exact decide_eq_true rfl

/-- The revision that is answered with: the recorded one, or a new one because
there is none. -/
theorem selectedRevision_total :
    ∃ v changed rows, pageRevisionsTable.insertOrSelect PageRevisionRow.sameContent
      (Store.knownRevision c.tenantId page.id (ReverseMatch.contentSha256 x c.request.contentText))
      { db with pages := pages } db.pageRevisions db.pageRevisions (c.revisionOffer x page)
        = .ok (some (v, changed), rows) ∧ (c.Recorded x db v ∨
          (v.id = c.ids 1 ∧ ∀ w, ¬ c.Recorded x db w)) := by
  have hcheck : pageRevisionsTable.check (c.revisionOffer x page) = true :=
    decide_eq_true (hx.pageStatus _ hv.page)
  by_cases hex : ∃ t ∈ db.pageRevisions, (c.revisionOffer x page).sameContent t = true
  · obtain ⟨t, ht, hsame⟩ := hex
    obtain ⟨h1, h2, h3⟩ := of_decide_eq_true hsame
    have hknown : Store.knownRevision c.tenantId page.id
        (ReverseMatch.contentSha256 x c.request.contentText) t = true :=
      decide_eq_true ⟨h2.symm, h1.symm, h3.symm⟩
    rcases hf : db.pageRevisions.find? (Store.knownRevision c.tenantId page.id
        (ReverseMatch.contentSha256 x c.request.contentText)) with _ | w
    · exact absurd hknown (List.find?_eq_none.mp hf t ht)
    · have hw := List.mem_of_find?_eq_some hf
      obtain ⟨hwT, hwpage, hwsha⟩ := knownRevision_spec (List.find?_some hf)
      refine ⟨w, false, db.pageRevisions, ?_, Or.inl ⟨hw, hwT, hwsha, ?_⟩⟩
      · rw [Constraints.insertOrSelect_of_conflict hcheck ht hsame, hf]
        rfl
      · rcases upsertedPage_cases hpage with ⟨q, hq, hqid, hqT, hqsource, hqurl⟩ | ⟨hid, -⟩
        · exact ⟨q, hq, by rw [hwpage, hqid], hqT, hqsource, hqurl⟩
        · obtain ⟨p, hp, hpid, -⟩ := hwf.page w hw
          exact absurd (hpid.trans (hwpage.trans hid)) (hv.fresh.pages 0 (by omega) p hp)
  · have hnew : ∀ v ∈ db.pageRevisions, (c.revisionOffer x page).sameContent v = false := by
      intro v hv'
      rw [Bool.eq_false_iff]
      exact fun h => hex ⟨v, hv', h⟩
    refine ⟨_, _, _, Constraints.insertOrSelect_of_admits
      (revisionOffer_admits hx hwf hv hpage hnew) hnew, Or.inr ⟨rfl, fun w hw => ?_⟩⟩
    exact hex ⟨w, hw.mem, hw.sameContent hwf hpage⟩

end Page

theorem setLatestRevision_total (hwf : Wf x d) {page : ReverseMatch.PageWire}
    (hpage : ReverseMatch.PageOf c.tenantId c.sourceId page d) (now fetchedAt : Timestamp) :
    ∃ pages, ReverseMatch.setLatestRevision now fetchedAt c.tenantId page d d
      = .ok ((), { d with pages := pages }) := by
  obtain ⟨v, hv, hvid, -⟩ := hpage
  have hall : ((d.pages.filter fun p => decide (p.tenantId = c.tenantId ∧ p.id = page.pageId)).all
      fun p => pagesTable.refs d (Store.setLatest now fetchedAt page.pageRevisionId p)) = true := by
    rw [List.all_eq_true]
    intro p hp
    have hrefs := hwf.valid.pages.refs p (List.mem_of_mem_filter hp)
    simp only [pagesTable, Bool.and_eq_true] at hrefs ⊢
    refine ⟨hrefs.1, List.any_eq_true.mpr ⟨v, hv, ?_⟩⟩
    exact decide_eq_true hvid
  refine ⟨d.pages.map fun p => if decide (p.tenantId = c.tenantId ∧ p.id = page.pageId) then
    Store.setLatest now fetchedAt page.pageRevisionId p else p, ?_⟩
  unfold ReverseMatch.setLatestRevision
  exact if_pos hall

/-- **Storing the page works**: it touches the two page tables only, and answers
with the recorded revision if there is one. -/
theorem page_total (hx : x.Lawful) (hwf : Wf x db) (hv : c.Valid x db) :
    ∃ page pages revisions,
      ReverseMatch.upsertPageRevision x c.now c.ids c.tenantId c.sourceId c.request c.originalUrl
        c.finalUrl db = (.ok page, { db with pages := pages, pageRevisions := revisions }) ∧
      ((∃ v, c.Recorded x db v ∧ v.id = page.pageRevisionId) ∨
        (page.pageRevisionId = c.ids 1 ∧ ∀ w, ¬ c.Recorded x db w)) := by
  have hupsert : ∃ page pages, pagesTable.insertOrUpdate PageRow.sameUrl
      (Store.seenAgain c.now c.fetchedAt) db db.pages (Store.newPage c.now (c.ids 0)
        c.tenantId c.sourceId c.finalUrl c.fetchedAt) = .ok (page, pages) :=
    Constraints.insertOrUpdate_total rfl (newPage_admits hv)
  obtain ⟨page, pages, hpage⟩ := hupsert
  obtain ⟨v, changed, rows, hrevision, hrecorded⟩ := selectedRevision_total hx hwf hv hpage
  have hstatement : ReverseMatch.upsertPageRevisionStatement x c.now c.ids c.tenantId c.sourceId
      c.request c.originalUrl c.finalUrl db db
      = .ok (some ⟨page.id, v.id, ReverseMatch.contentSha256 x c.request.contentText, changed⟩,
        { db with pages := pages, pageRevisions := rows }) := by
    unfold revisionOffer at hrevision
    simp only [ReverseMatch.upsertPageRevisionStatement, hpage, hrevision, bind, Except.bind]
    rfl
  obtain ⟨hsteps, hstored⟩ := ReverseMatch.upsertPageRevisionStatement_steps
    (G := fun _ _ => True) hstatement
  obtain ⟨pages', hset⟩ := setLatestRevision_total (hwf.steps hsteps) (hstored _ rfl) c.now
    c.fetchedAt
  refine ⟨⟨page.id, v.id, ReverseMatch.contentSha256 x c.request.contentText, changed⟩, pages',
    rows, ?_, ?_⟩
  · rw [ReverseMatch.upsertPageRevision, Action.bind_of_ok (execute_of_ok hstatement),
      Action.okOr_some_bind_apply, Action.bind_of_ok (execute_of_ok hset)]
    rfl
  · rcases hrecorded with hrecorded | hnone
    · exact Or.inl ⟨v, hrecorded, rfl⟩
    · exact Or.inr hnone

/-! ### The rules -/

theorem intoWire_total (hx : x.Lawful) (hwf : Wf x db) {tenantId sourceId : Uuid}
    {embedding : EmbeddingPayload} (hv : x.validateEmbedding embedding = .ok ())
    {alert : ReverseMatch.AlertDistance}
    (h : alert ∈ ReverseMatch.reachedAlerts x tenantId sourceId embedding db) :
    ∃ wire, alert.intoWire x = .ok wire := by
  simp only [ReverseMatch.reachedAlerts, List.mem_flatMap, List.mem_filter, List.mem_map,
    decide_eq_true_eq] at h
  obtain ⟨a, ⟨ha, -, hspace⟩, -, -, v, -, rfl⟩ := h
  have ha' : x.validateEmbedding ⟨a.space, a.embedding⟩ = .ok () := hwf.alertEmbedding a ha
  obtain ⟨similarity, hsim, -⟩ := hx.similarity ha' hv hspace
  simp only [ReverseMatch.AlertDistance.intoWire, hsim]
  exact ⟨_, rfl⟩

/-- **The rules are found**, at most `max_candidates` of them. -/
theorem findAlertCandidates_total (hx : x.Lawful) (hwf : Wf x db) (hv : c.Valid x db) :
    ∃ wires, ReverseMatch.findAlertCandidates x c.tenantId c.sourceId c.request db
      = (.ok wires, db) := by
  have hrows : ∀ alert ∈ ((ReverseMatch.reachedAlerts x c.tenantId c.sourceId c.request.embedding
      db).insertionSort ReverseMatch.nearestFirst).take c.request.maxCandidates.toNat,
      ∃ wire, alert.intoWire x = .ok wire := by
    intro alert halert
    have halert := List.mem_of_mem_take halert
    rw [List.mem_insertionSort] at halert
    exact intoWire_total hx hwf (hx.pageEmbedding _ hv.page) halert
  obtain ⟨wires, hwires⟩ := mapM_ok_of_forall hrows
  refine ⟨wires, ?_⟩
  rw [ReverseMatch.findAlertCandidates, Action.query_bind_apply, hwires]
  rfl

theorem length_le {wires : List ReverseMatch.CandidateWire}
    (h : ReverseMatch.findAlertCandidates x c.tenantId c.sourceId c.request db = (.ok wires, d)) :
    wires.length ≤ c.request.maxCandidates.toNat := by
  obtain ⟨hm, -⟩ := Prod.mk.inj h
  have hlength := (mapM_eq_ok_iff.mp hm).length_eq
  rw [← hlength, List.length_take]
  exact Nat.min_le_left _ _

theorem filter_reached (hx : x.Lawful) {wires : List ReverseMatch.CandidateWire}
    (h : ∀ wire ∈ wires, ReverseMatch.Reached x c.tenantId c.sourceId c.request.embedding d wire) :
    (wires.filter fun w => !decide (w.similarity < w.threshold)) = wires := by
  rw [List.filter_eq_self]
  intro wire hwire
  simp only [Bool.not_eq_true', decide_eq_false_iff_not, not_lt]
  exact (h wire hwire).threshold_le hx

theorem reached_unique (hwf : Wf x d) {tenantId sourceId : Uuid} {embedding : EmbeddingPayload}
    {w w' : ReverseMatch.CandidateWire}
    (h : ReverseMatch.Reached x tenantId sourceId embedding d w)
    (h' : ReverseMatch.Reached x tenantId sourceId embedding d w')
    (hsame : w.alertRuleRevisionId = w'.alertRuleRevisionId) : w = w' := by
  obtain ⟨a, ha, -, -, v, hv, haT, hspace, -, -, -, -, hvid, -, -, -, -, h1, h2, h3, h4, s, hs, -,
    h5⟩ := h
  obtain ⟨a', ha', -, -, v', hv', haT', hspace', -, -, -, -, hvid', -, -, -, -, h1', h2', h3', h4',
    s', hs', -, h5'⟩ := h'
  have hrev : a.alertRuleRevisionId = a'.alertRuleRevisionId := by rw [← h2, ← h2', hsame]
  obtain rfl : a = a' := hwf.valid.alertRuleEmbedding_eq_of_space ha ha'
    (decide_eq_true ⟨by rw [haT, haT'], hrev, by rw [hspace, hspace']⟩)
  obtain rfl : v = v' := hwf.valid.alertRuleRevision_eq hv hv' (by rw [hvid, hvid'])
  have hsimilarity : w.similarity = w'.similarity := by
    have heq : (s : Float8) = (s' : Float8) := hs.symm.trans hs'
    rw [h5, h5', WithTop.coe_injective heq]
  cases w
  cases w'
  simp only at h1 h2 h3 h4 h1' h2' h3' h4' hsimilarity
  rw [h1, h2, h3, h4, h1', h2', h3', h4', hsimilarity]

/-! ### The loop -/

/-- The loop of the call, for the page it has stored in `d`. -/
def offers (x : Platform) (d : Db) (c : ReverseIngest) (page : ReverseMatch.PageWire) :
    Offers ReverseMatch.CandidateWire where
  Item := ReverseMatch.Reached x c.tenantId c.sourceId c.request.embedding d
  limit := c.request.maxCandidates.toNat
  ids n := c.ids (n + 2)
  offer n := ReverseMatch.newCandidate x c.now (c.ids (n + 2)) c.tenantId page c.request.embedding
    c.finalUrl
  identity := ReverseMatch.matchIdentity c.tenantId page c.request.embedding.toModelSpace
  fallback row snapshot := ReverseMatch.sameEvidence page.contentSha256 snapshot row
  accepts r := decide (r.matchMode = .reverseAlertStream ∧
    r.pageEmbeddingSha256 = some (c.fingerprint x))

theorem offer_check (hx : x.Lawful) (hwf : Wf x d)
    (hv : x.validateEmbedding c.request.embedding = .ok ()) (page : ReverseMatch.PageWire) (n : ℕ)
    {wire : ReverseMatch.CandidateWire}
    (h : ReverseMatch.Reached x c.tenantId c.sourceId c.request.embedding d wire) :
    matchCandidatesTable.check ((c.offers x d page).offer n wire) = true := by
  obtain ⟨a, ha, rule, -, v, hv', -, hspace, -, -, -, -, -, -, -, -, -, -, -, -, hthr, s, hsim, hle,
    hread⟩ := h
  have ha' : x.validateEmbedding ⟨a.space, a.embedding⟩ = .ok () := hwf.alertEmbedding a ha
  obtain ⟨similarity, hs, hrange⟩ := hx.similarity ha' hv hspace
  obtain rfl : s = similarity := WithTop.coe_injective (hsim.symm.trans hs)
  have hthreshold := hwf.valid.alertRuleRevisions.check v hv'
  have hspaces := hwf.valid.alertRuleEmbeddings.check a ha
  simp only [alertRuleRevisionsTable, Bool.and_eq_true, decide_eq_true_eq] at hthreshold
  simp only [alertRuleEmbeddingsTable, hspace] at hspaces
  have hsimilarity : decide (-1 ≤ ((c.offers x d page).offer n wire).similarity ∧
      ((c.offers x d page).offer n wire).similarity ≤ 1) = true := by
    have hbounded := abs_le.mp (hx.jsonBounded s (abs_le.mpr hrange))
    rw [← hread] at hbounded
    exact decide_eq_true hbounded
  have hthreshold' : decide (0 ≤ ((c.offers x d page).offer n wire).threshold ∧
      ((c.offers x d page).offer n wire).threshold ≤ 1) = true := by
    obtain ⟨h0, h1⟩ := hthreshold.1.1.2
    have hbounded := (abs_le.mp (hx.jsonBounded v.similarityThreshold.val
      (abs_le.mpr ⟨by linarith, h1⟩))).2
    have hnonneg := hx.jsonNonneg v.similarityThreshold.val h0
    rw [← hthr] at hbounded hnonneg
    exact decide_eq_true ⟨hnonneg, hbounded⟩
  simp only [matchCandidatesTable, hsimilarity, hthreshold', Bool.true_and]
  exact hspaces

theorem offers_sound (hx : x.Lawful) (hk : Function.Injective (Store.matchKey x))
    (hv : c.Valid x db) (hd : d.matchCandidates = db.matchCandidates) (hwf : Wf x d)
    {page : ReverseMatch.PageWire} (hpage : ReverseMatch.PageOf c.tenantId c.sourceId page d) :
    (c.offers x d page).Sound x d where
  id _ _ := rfl
  distinct m hm n hn hids := by
    have hm : m < c.request.maxCandidates.toNat := hm
    have hn : n < c.request.maxCandidates.toNat := hn
    have := hv.fresh.distinct (m + 2) (by omega) (n + 2) (by omega) hids
    omega
  fresh n hn := by
    have hn : n < c.request.maxCandidates.toNat := hn
    rw [hd]
    exact hv.fresh.matchCandidates (n + 2) (by omega)
  identifies _ _ hwire := hwire.identifies hpage _ _ _
  unique _ _ h h' hsame :=
    reached_unique hwf h h' (congrArg MatchIdentity.alertRuleRevisionId hsame)
  check n _ hwire := offer_check hx hwf (hx.pageEmbedding _ hv.page) page n hwire
  accepts _ _ := decide_eq_true ⟨rfl, rfl⟩
  find s hs hgrows n wire hwire r hr hkey := by
    have hident : Identifies x s ((c.offers x d page).offer n wire)
        (ReverseMatch.matchIdentity c.tenantId page c.request.embedding.toModelSpace wire) :=
      (hwire.identifies hpage _ _ _).mono hgrows
    simp only [offers, decide_eq_true_eq]
    exact find?_sameEvidence hs hk hident hr hkey rfl

/-- The page and its content are recorded as a revision for which the rule has a
candidate with other evidence: a historical one, or one for another page vector. -/
def Blocked (x : Platform) (db : Db) (c : ReverseIngest) (wire : ReverseMatch.CandidateWire) :
    Prop :=
  ∃ v, c.Recorded x db v ∧ ∃ r ∈ db.matchCandidates,
    r.For c.tenantId wire.alertRuleRevisionId v.id c.request.embedding.toModelSpace ∧
    ¬ (r.matchMode = .reverseAlertStream ∧ r.pageEmbeddingSha256 = some (c.fingerprint x))

/-- What is recorded for one URL is recorded of one page. -/
theorem Recorded.pageId_eq (hwf : Wf x db) {c' : ReverseIngest} (htenant : c'.tenantId = c.tenantId)
    (hsource : c'.sourceId = c.sourceId) (hurl : c'.finalUrl = c.finalUrl) {v w : PageRevisionRow}
    (hv : c.Recorded x db v) (hw : c'.Recorded x db w) : v.pageId = w.pageId := by
  obtain ⟨p, hp, hpid, hpT, hpsource, hpurl⟩ := hv.page
  obtain ⟨q, hq, hqid, hqT, hqsource, hqurl⟩ := hw.page
  have hpq : p = q := by
    refine hwf.valid.page_eq_of_url hp hq (decide_eq_true ⟨?_, ?_, ?_⟩)
    · rw [hpT, hqT, htenant]
    · rw [hpsource, hqsource, hsource]
    · rw [hpurl, hqurl, hurl]
  rw [← hpid, ← hqid, hpq]

/-- A page and its content are recorded once. -/
theorem Recorded.eq (hwf : Wf x db) {v w : PageRevisionRow} (hv : c.Recorded x db v)
    (hw : c.Recorded x db w) : v = w := by
  refine hwf.valid.pageRevision_eq_of_content hv.mem hw.mem (decide_eq_true ⟨?_, ?_, ?_⟩)
  · rw [hv.tenantId, hw.tenantId]
  · exact hv.pageId_eq hwf rfl rfl rfl hw
  · rw [hv.content, hw.content]

theorem blocked_iff (hx : x.Lawful) (hk : Function.Injective (Store.matchKey x)) (hwf : Wf x db)
    (hv : c.Valid x db) (hd : d.matchCandidates = db.matchCandidates) (hwfd : Wf x d)
    {page : ReverseMatch.PageWire} (hpage : ReverseMatch.PageOf c.tenantId c.sourceId page d)
    (hrecorded : (∃ v, c.Recorded x db v ∧ v.id = page.pageRevisionId) ∨
      (page.pageRevisionId = c.ids 1 ∧ ∀ w, ¬ c.Recorded x db w))
    {wire : ReverseMatch.CandidateWire}
    (hwire : ReverseMatch.Reached x c.tenantId c.sourceId c.request.embedding d wire) :
    (c.offers x d page).Blocked d wire ↔ c.Blocked x db wire := by
  have hident := (offers_sound hx hk hv hd hwfd hpage).identifies 0 wire hwire
  constructor
  · rintro ⟨r, hr, hkey, haccepts⟩
    have hfor := (sameMatchKey_iff_for hwfd hk hident hr).mp hkey
    rw [hd] at hr
    rcases hrecorded with ⟨v, hrec, hvid⟩ | ⟨hid, -⟩
    · refine ⟨v, hrec, r, hr, ?_, of_decide_eq_false haccepts⟩
      rw [hvid]
      exact hfor
    · -- a stored candidate is for a stored revision, and this one is new
      obtain ⟨i, hi⟩ := hwf.candidate r hr
      obtain ⟨w, hw, hwid, -⟩ := hi.content
      have hwnew : w.id = c.ids 1 := by
        rw [hwid, ← hi.revisionId, hfor.revisionId]
        exact hid
      exact absurd hwnew (hv.fresh.pageRevisions 1 (by omega) w hw)
  · rintro ⟨v, hrec, r, hr, hfor, hother⟩
    rw [← hd] at hr
    refine ⟨r, hr, ?_, decide_eq_false hother⟩
    have hvid : v.id = page.pageRevisionId := by
      rcases hrecorded with ⟨w, hw, hwid⟩ | ⟨-, hnone⟩
      · rw [hrec.eq hwf hw, hwid]
      · exact absurd hrec (hnone v)
    rw [hvid] at hfor
    exact (sameMatchKey_iff_for hwfd hk hident hr).mpr hfor

/-! ### The call -/

/-- One turn of its loop. -/
def turnAt (x : Platform) (c : ReverseIngest) (page : ReverseMatch.PageWire) :
    ReverseMatch.CandidateWire × ℕ → Api ReverseMatch.ReverseAlertCandidate := fun (candidate, n) =>
  ReverseMatch.persistReverseCandidate x c.now (c.ids (n + 2)) c.tenantId page c.request.embedding
    c.finalUrl candidate

theorem turnAt_of_some {page : ReverseMatch.PageWire} {wire : ReverseMatch.CandidateWire} {n : ℕ}
    {r : MatchCandidateRow} {created : Bool} {s' : Db}
    (h : (c.offers x d page).statement ((c.offers x d page).offer n wire) s s
      = .ok (some (r, created), s')) :
    c.turnAt x page (wire, n) s = (.ok (ReverseMatch.candidateJson x r), s') := by
  have hstatement : ReverseMatch.persistStatement page.contentSha256
      (ReverseMatch.newCandidate x c.now (c.ids (n + 2)) c.tenantId page c.request.embedding
        c.finalUrl wire) s s = .ok (some (r, created), s') := h
  rw [turnAt, ReverseMatch.persistReverseCandidate, Action.bind_of_ok (execute_of_ok hstatement)]
  rfl

theorem turnAt_of_none {page : ReverseMatch.PageWire} {wire : ReverseMatch.CandidateWire} {n : ℕ}
    {s' : Db} (h : (c.offers x d page).statement ((c.offers x d page).offer n wire) s s
      = .ok (none, s')) :
    c.turnAt x page (wire, n) s
      = (.error (.conflict "canonical match identity exists with different evidence"), s') := by
  have hstatement : ReverseMatch.persistStatement page.contentSha256
      (ReverseMatch.newCandidate x c.now (c.ids (n + 2)) c.tenantId page c.request.embedding
        c.finalUrl wire) s s = .ok (none, s') := h
  rw [turnAt, ReverseMatch.persistReverseCandidate, Action.bind_of_ok (execute_of_ok hstatement)]
  rfl

/-- The response for a stored page. -/
def response (page : ReverseMatch.PageWire) (candidates : List ReverseMatch.ReverseAlertCandidate) :
    ReverseMatch.ReverseAlertMatchResponse where
  pageId := page.pageId
  pageRevisionId := page.pageRevisionId
  contentSha256 := page.contentSha256
  changed := page.changed
  pageVectorPersisted := false
  candidates := candidates

/-- The call has stored its page, in `d`. -/
structure Stored (x : Platform) (db : Db) (c : ReverseIngest) (page : ReverseMatch.PageWire)
    (d : Db) : Prop where
  run : ReverseMatch.upsertPageRevision x c.now c.ids c.tenantId c.sourceId c.request c.originalUrl
    c.finalUrl db = (.ok page, d)
  frame : ∃ pages revisions, d = { db with pages := pages, pageRevisions := revisions }
  wf : Wf x d
  stored : ReverseMatch.PageOf c.tenantId c.sourceId page d
  recorded : (∃ v, c.Recorded x db v ∧ v.id = page.pageRevisionId) ∨
    (page.pageRevisionId = c.ids 1 ∧ ∀ w, ¬ c.Recorded x db w)

theorem exists_stored (hx : x.Lawful) (hwf : Wf x db) (hv : c.Valid x db) :
    ∃ page d, c.Stored x db page d := by
  obtain ⟨page, pages, revisions, hrun, hrecorded⟩ := page_total hx hwf hv
  have hmoves := ReverseMatch.upsertPageRevision_moves (x := x) (G := fun _ _ => True)
    (T := c.tenantId) c.now c.ids c.sourceId c.request c.originalUrl c.finalUrl db
  rw [Action.Moves, hrun] at hmoves
  exact ⟨page, _, hrun, ⟨pages, revisions, rfl⟩, hwf.steps hmoves,
    ReverseMatch.upsertPageRevision_ok hrun, hrecorded⟩

namespace Stored

variable {page : ReverseMatch.PageWire}

theorem matchCandidates (h : c.Stored x db page d) : d.matchCandidates = db.matchCandidates := by
  obtain ⟨pages, revisions, rfl⟩ := h.frame
  rfl

variable {wires : List ReverseMatch.CandidateWire} (h : c.Stored x db page d)
  (hwires : ReverseMatch.findAlertCandidates x c.tenantId c.sourceId c.request db
    = (.ok wires, db))

include h hwires

theorem rules : ReverseMatch.findAlertCandidates x c.tenantId c.sourceId c.request d
    = (.ok wires, d) := by
  obtain ⟨pages, revisions, rfl⟩ := h.frame
  have hfst := congrArg Prod.fst hwires
  exact Prod.ext hfst rfl

theorem reached : ∀ wire ∈ wires,
    ReverseMatch.Reached x c.tenantId c.sourceId c.request.embedding d wire :=
  (ReverseMatch.findAlertCandidates_ok (h.rules hwires)).2

theorem reverseTransaction_eq (hx : x.Lawful) :
    ReverseMatch.reverseTransaction x c.now c.ids c.tenantId c.sourceId c.request c.originalUrl
      c.finalUrl db = (do
        let candidates ← Action.forEach (c.turnAt x page) wires.zipIdx
        return response page candidates : Api ReverseMatch.ReverseAlertMatchResponse) d := by
  rw [ReverseMatch.reverseTransaction, Action.bind_of_ok h.run,
    Action.bind_of_ok (h.rules hwires), filter_reached hx (h.reached hwires)]
  rfl

omit h hwires in
theorem exec_eq_transaction (hv : c.Valid x db) :
    c.exec x db = Action.transaction (ReverseMatch.reverseTransaction x c.now c.ids c.tenantId
      c.sourceId c.request c.originalUrl c.finalUrl) db := by
  unfold exec ReverseMatch.ingestAndReverseMatch
  rw [hv.request]
  rfl

theorem exec_of_ok (hx : x.Lawful) (hv : c.Valid x db)
    {candidates : List ReverseMatch.ReverseAlertCandidate}
    (hloop : Action.forEach (c.turnAt x page) wires.zipIdx d = (.ok candidates, s)) :
    c.exec x db = (.ok (response page candidates), s) := by
  rw [exec_eq_transaction hv]
  refine Action.transaction_of_ok ?_
  rw [h.reverseTransaction_eq hwires hx, Action.bind_of_ok hloop]
  rfl

theorem exec_of_error (hx : x.Lawful) (hv : c.Valid x db) {e : HttpError}
    (hloop : Action.forEach (c.turnAt x page) wires.zipIdx d = (.error e, s)) :
    c.exec x db = (.error e, db) := by
  have hrun : ReverseMatch.reverseTransaction x c.now c.ids c.tenantId c.sourceId c.request
      c.originalUrl c.finalUrl db = (.error e, s) := by
    rw [h.reverseTransaction_eq hwires hx, Action.bind_of_error hloop]
  rw [exec_eq_transaction hv]
  exact Action.transaction_of_error hrun

end Stored

/-- A found rule has a stored reverse candidate, for the page revision that was
stored and for this page vector, and this is what the response carries. -/
def Answered (x : Platform) (c : ReverseIngest) (pageRevisionId : Uuid) (s : Db)
    (wire : ReverseMatch.CandidateWire) (result : ReverseMatch.ReverseAlertCandidate) : Prop :=
  ∃ r ∈ s.matchCandidates, result = ReverseMatch.candidateJson x r ∧
    r.For c.tenantId wire.alertRuleRevisionId pageRevisionId c.request.embedding.toModelSpace ∧
    r.matchMode = .reverseAlertStream ∧ r.pageEmbeddingSha256 = some (c.fingerprint x)

section Call

variable (hx : x.Lawful) (hk : Function.Injective (Store.matchKey x)) (hwf : Wf x db)
  (hv : c.Valid x db) {wires : List ReverseMatch.CandidateWire}
  (hwires : ReverseMatch.findAlertCandidates x c.tenantId c.sourceId c.request db
    = (.ok wires, db))

include hx hk hwf hv hwires

/-- **If no found rule is blocked, every found rule gets a candidate.** -/
theorem exec_ok (hfree : ∀ wire ∈ wires, ¬ c.Blocked x db wire) :
    ∃ response s, c.exec x db = (.ok response, s) ∧
      List.Forall₂ (c.Answered x response.pageRevisionId s) wires response.candidates := by
  obtain ⟨page, d, hstored⟩ := exists_stored hx hwf hv
  have hreached := hstored.reached hwires
  have hsound := offers_sound hx hk hv hstored.matchCandidates hstored.wf hstored.stored
  have hfree' : ∀ wire ∈ wires, ¬ (c.offers x d page).Blocked d wire := by
    intro wire hwire
    rw [blocked_iff hx hk hwf hv hstored.matchCandidates hstored.wf hstored.stored
      hstored.recorded (hreached wire hwire)]
    exact hfree wire hwire
  obtain ⟨rows, s, hrun, hloop, hall⟩ := Offers.forEach_ok hsound (f := c.turnAt x page)
    (g := ReverseMatch.candidateJson x) (fun _ _ _ _ _ _ h => turnAt_of_some h) hk hstored.wf
    hreached (length_le hwires) hfree'
  refine ⟨response page (rows.map (ReverseMatch.candidateJson x)), s,
    hstored.exec_of_ok hwires hx hv hrun, ?_⟩
  rw [response, List.forall₂_map_right_iff]
  refine hall.imp fun wire row hanswered => ?_
  exact ⟨row, hanswered.stored, rfl, hanswered.for hsound hk hloop,
    of_decide_eq_true hanswered.accepted⟩

/-- **If a found rule is blocked, the call ends in a conflict**, and the store is
as it was. -/
theorem exec_conflict (hblocked : ∃ wire ∈ wires, c.Blocked x db wire) :
    c.exec x db
      = (.error (.conflict "canonical match identity exists with different evidence"), db) := by
  obtain ⟨page, d, hstored⟩ := exists_stored hx hwf hv
  have hreached := hstored.reached hwires
  have hsound := offers_sound hx hk hv hstored.matchCandidates hstored.wf hstored.stored
  obtain ⟨wire, hwire, hb⟩ := hblocked
  rw [← blocked_iff hx hk hwf hv hstored.matchCandidates hstored.wf hstored.stored
    hstored.recorded (hreached wire hwire)] at hb
  obtain ⟨s, hrun⟩ := Offers.forEach_error hsound (f := c.turnAt x page)
    (g := ReverseMatch.candidateJson x) (fun _ _ _ _ _ _ h => turnAt_of_some h) hk hstored.wf
    hreached (length_le hwires) (fun _ _ _ _ h => turnAt_of_none h) ⟨wire, hwire, hb⟩
  exact hstored.exec_of_error hwires hx hv hrun

end Call

end ReverseIngest

end EmbeddedAlerts
