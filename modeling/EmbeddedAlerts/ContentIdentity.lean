import EmbeddedAlerts.Ingest
import EmbeddedAlerts.PageHistory
import EmbeddedAlerts.QueryViews

/-!
# The identity of content

The program has four copies of one function, which joins the words of a text by single
spaces: `store::normalize_content`, `reverse_match::normalize_content`,
`alerts::collapse_whitespace` and `eal_query::collapse_whitespace`.  What it keeps of
a text is **exactly the sequence of its words** (`normalizeContent_eq_iff`), so its
hash names a sequence of words.

Both ingest paths give a page revision this hash, and a page has at most one revision
with each hash.  `AddsContent` says the first along any action; the second is a
constraint of the table.  Together they make two texts share a revision of a page
exactly if their words agree.
-/

namespace EmbeddedAlerts

open Sql Text Relation

variable {x : Platform} {db d snapshot : Db}

/-! ### Words -/

/-- The words of a text. -/
def words (text : String) : List (List Char) := splitWhitespace text.toList

theorem words_normalizeContent (a : String) : words (Store.normalizeContent a) = words a := by
  rw [words, Store.normalizeContent, String.toList_ofList]
  exact splitWhitespace_collapse a.toList

/-- **Two texts are normalized to one exactly if they have the same words.** -/
theorem normalizeContent_eq_iff (a b : String) :
    Store.normalizeContent a = Store.normalizeContent b ↔ words a = words b := by
  constructor
  · intro h
    rw [← words_normalizeContent a, ← words_normalizeContent b, h]
  · intro h
    rw [words, words] at h
    rw [Store.normalizeContent, Store.normalizeContent, h]

theorem normalizeContent_normalizeContent (a : String) :
    Store.normalizeContent (Store.normalizeContent a) = Store.normalizeContent a :=
  (normalizeContent_eq_iff _ a).mpr (words_normalizeContent a)

/-- **A hash of content names a sequence of words.** -/
theorem contentSha256_eq_iff (hc : x.CollisionFree) (a b : String) :
    Store.contentSha256 x a = Store.contentSha256 x b ↔ words a = words b := by
  rw [← normalizeContent_eq_iff]
  constructor
  · intro h
    have hbytes := Store.sha256Hex_inj hc.injOn (Set.mem_univ _) (Set.mem_univ _) h
    exact String.toList_inj.mp (utf8_inj hbytes)
  · intro h
    rw [Store.contentSha256, Store.contentSha256, h]

/-! ### What the ingest paths add -/

/-- The revisions that were added have this hash. -/
def AddsContent (sha : String) (db d : Db) : Prop :=
  ∀ v ∈ d.pageRevisions, v ∈ db.pageRevisions ∨ v.contentSha256 = sha

namespace AddsContent

variable {sha : String}

theorem of_eq (h : d.pageRevisions = db.pageRevisions) : AddsContent sha db d := by
  intro v hv
  rw [h] at hv
  exact Or.inl hv

theorem trans {d' : Db} (h : AddsContent sha db d) (h' : AddsContent sha d d') :
    AddsContent sha db d' := by
  intro v hv
  rcases h' v hv with hold | hnew
  · exact h v hold
  · exact Or.inr hnew

instance : Std.Refl (AddsContent sha) := ⟨fun _ => of_eq rfl⟩

instance : IsTrans Db (AddsContent sha) := ⟨fun _ _ _ => trans⟩

/-- A revision with the hash is offered to the table. -/
theorem insertOrSelect {known : PageRevisionRow → Bool} {snapshot rows : List PageRevisionRow}
    {r : PageRevisionRow} {o : Option (PageRevisionRow × Bool)} (hr : r.contentSha256 = sha)
    (h : pageRevisionsTable.insertOrSelect PageRevisionRow.sameContent known db snapshot
      db.pageRevisions r = .ok (o, rows)) :
    AddsContent sha db { db with pageRevisions := rows } := by
  rcases Constraints.insertOrSelect_cases h with ⟨-, rfl, -⟩ | ⟨-, rfl, -, -⟩
  · exact of_eq rfl
  · intro v hv
    rcases List.mem_append.mp hv with hold | hadded
    · exact Or.inl hold
    · obtain rfl := List.mem_singleton.mp hadded
      exact Or.inr hr

end AddsContent

section Paths

variable {now : Timestamp} {ids : ℕ → Uuid} {T sourceId : Uuid} {originalUrl finalUrl : String}

theorem selectRevision_addsContent {id pageId : Uuid} {input : PageIngestRequest}
    {o : Option (PageRevisionRow × Bool)}
    (h : Store.selectRevision x now id T pageId input originalUrl finalUrl snapshot db
      = .ok (o, d)) : AddsContent (Store.contentSha256 x input.contentText) db d := by
  unfold Store.selectRevision at h
  simp only at h
  split at h
  · obtain ⟨-, rfl⟩ := Prod.mk.inj (Except.ok.inj h)
    exact .of_eq rfl
  · obtain ⟨⟨o', rows⟩, hinsert, hrows⟩ := except_bind_eq_ok h
    obtain ⟨-, rfl⟩ := Prod.mk.inj (Except.ok.inj hrows)
    exact .insertOrSelect rfl hinsert

theorem selectEmbedding_addsContent {id : Uuid} {input : PageIngestRequest} {sha : String}
    {revision : Option (PageRevisionRow × Bool)} {o : Option EmbeddingRow}
    (h : Store.selectEmbedding now id T revision input snapshot db = .ok (o, d)) :
    AddsContent sha db d := by
  unfold Store.selectEmbedding at h
  split at h
  · obtain ⟨-, rfl⟩ := Prod.mk.inj (Except.ok.inj h)
    exact .of_eq rfl
  · obtain ⟨⟨o', rows⟩, -, hrows⟩ := except_bind_eq_ok h
    obtain ⟨-, rfl⟩ := Prod.mk.inj (Except.ok.inj hrows)
    exact .of_eq rfl

/-- **What `ingest_page` adds has the hash of its content.** -/
theorem ingestPage_addsContent (x : Platform) (now : Timestamp) (ids : ℕ → Uuid)
    (T sourceId : Uuid) (input : PageIngestRequest) (originalUrl finalUrl : String) (db : Db) :
    AddsContent (Store.contentSha256 x input.contentText) db
      (Store.ingestPage x now ids T sourceId input originalUrl finalUrl db).2 := by
  have hmoves : Action.Moves (AddsContent (Store.contentSha256 x input.contentText))
      (Store.ingestPage x now ids T sourceId input originalUrl finalUrl) db := by
    refine Action.Moves.bind (Action.Moves.statement fun o d h => ?_) fun _ _ _ =>
      Action.Moves.okOr
    obtain ⟨⟨page, pages⟩, -, h1⟩ := except_bind_eq_ok h
    obtain ⟨⟨revision, d1⟩, hrevision, h2⟩ := except_bind_eq_ok h1
    obtain ⟨⟨embedding, d2⟩, hembedding, h3⟩ := except_bind_eq_ok h2
    obtain ⟨⟨updated, d3⟩, hupdated, h4⟩ := except_bind_eq_ok h3
    obtain ⟨-, rfl⟩ := Prod.mk.inj (Except.ok.inj h4)
    rw [Store.updatedPage_ok] at hupdated
    obtain ⟨-, rfl⟩ := Prod.mk.inj (Except.ok.inj hupdated)
    have hpages : AddsContent (Store.contentSha256 x input.contentText) db
        { db with pages := pages } := .of_eq rfl
    exact (hpages.trans (selectRevision_addsContent hrevision)).trans
      (selectEmbedding_addsContent hembedding)
  exact hmoves

theorem upsertPageRevision_addsContent (request : ReverseMatch.ReverseAlertPageRequest) (db : Db) :
    Action.Moves (AddsContent (Store.contentSha256 x request.contentText))
      (ReverseMatch.upsertPageRevision x now ids T sourceId request originalUrl finalUrl) db := by
  refine Action.Moves.bind (Action.Moves.statement fun o d h => ?_) fun o d _ => ?_
  · obtain ⟨⟨page, pages⟩, -, h1⟩ := except_bind_eq_ok h
    obtain ⟨⟨revision, rows⟩, hinsert, h2⟩ := except_bind_eq_ok h1
    obtain ⟨-, rfl⟩ := Prod.mk.inj (Except.ok.inj h2)
    have hpages : AddsContent (Store.contentSha256 x request.contentText) db
        { db with pages := pages } := .of_eq rfl
    exact hpages.trans (.insertOrSelect rfl hinsert)
  · refine Action.Moves.okOr_bind fun page _ => ?_
    refine Action.Moves.bind (Action.Moves.statement fun u d' h => ?_) fun _ _ _ =>
      Action.Moves.of_same rfl
    obtain ⟨f, -, rfl⟩ := ReverseMatch.setLatestRevision_ok h
    exact .of_eq rfl

/-- **What the reverse path adds has the hash of its content**, by the other copy of
the function. -/
theorem ReverseIngest.after_addsContent (x : Platform) (c : ReverseIngest) (db : Db) :
    AddsContent (ReverseMatch.contentSha256 x c.request.contentText) db (c.after x db) := by
  have hmoves : Action.Moves (AddsContent (Store.contentSha256 x c.request.contentText))
      (c.exec x) db := by
    refine Action.Moves.ofExcept_bind fun _ _ => Action.Moves.transaction ?_
    refine Action.Moves.bind (upsertPageRevision_addsContent c.request db) fun page d _ => ?_
    refine Action.Moves.bind (Action.Moves.of_same (ReverseMatch.findAlertCandidates_snd _ _ _ _))
      fun wires d1 _ => ?_
    refine Action.Moves.bind (Action.Moves.forEach _ _ fun candidate _ s _ => ?_) fun _ _ _ =>
      Action.Moves.of_same rfl
    refine Action.Moves.bind (Action.Moves.statement fun o d' h => ?_) fun o d' _ =>
      Action.Moves.okOr_bind fun _ _ => Action.Moves.of_same rfl
    rcases ReverseMatch.persistStatement_ok h with ⟨-, rfl, -⟩ | ⟨-, rfl, -, -⟩
    · exact .of_eq rfl
    · exact .of_eq rfl
  exact hmoves

end Paths

/-! ### Sharing a revision -/

/-- **Two revisions of a page are one exactly if the words of their contents agree.** -/
theorem pageRevision_eq_iff (hc : x.CollisionFree) (hwf : Wf x db) {v w : PageRevisionRow}
    (hv : v ∈ db.pageRevisions) (hw : w ∈ db.pageRevisions) (hpage : v.pageId = w.pageId)
    {a b : String} (ha : v.contentSha256 = Store.contentSha256 x a)
    (hb : w.contentSha256 = Store.contentSha256 x b) : v = w ↔ words a = words b := by
  rw [← contentSha256_eq_iff hc, ← ha, ← hb]
  constructor
  · intro h
    rw [h]
  · intro h
    obtain ⟨p, hp, hpid, hptenant⟩ := hwf.page v hv
    obtain ⟨q, hq, hqid, hqtenant⟩ := hwf.page w hw
    obtain rfl : p = q := hwf.valid.page_eq hp hq (by rw [hpid, hqid, hpage])
    exact hwf.valid.pageRevision_eq_of_content hv hw
      (decide_eq_true ⟨hptenant.symm.trans hqtenant, hpage, h⟩)

/-- **Two calls for a page are answered with one revision exactly if the words of their
contents agree**, whatever the service does between them. -/
theorem ReverseIngest.answers_shared_iff (hx : x.Lawful) (hc : x.CollisionFree)
    {c c' : ReverseIngest} {db' d' : Db} {answer answer' : ReverseMatch.ReverseAlertMatchResponse}
    (hdb : Reachable x db) (hexec : c.exec x db = (.ok answer, d))
    (hbetween : ReflTransGen (Served x) d db') (hexec' : c'.exec x db' = (.ok answer', d'))
    (htenant : c'.tenantId = c.tenantId) (hsource : c'.sourceId = c.sourceId)
    (hurl : c'.finalUrl = c.finalUrl) :
    answer.pageRevisionId = answer'.pageRevisionId ↔
      words c.request.contentText = words c'.request.contentText := by
  have hd : d = c.after x db := by rw [ReverseIngest.after, hexec]
  have hd' : d' = c'.after x db' := by rw [ReverseIngest.after, hexec']
  have hfirst : Served x db d := hd ▸ Served.reverse c
  have hwf : Wf x d := hfirst.wf hx (hdb.wf hx)
  have hlast : Served x db' d' := hd' ▸ Served.reverse c'
  obtain ⟨hwf', hgrows⟩ := served_run hx hwf (hbetween.tail hlast)
  obtain ⟨v, hrecorded, hid, -⟩ := exec_recorded hx hexec
  obtain ⟨w, hrecorded', hid', -⟩ := exec_recorded hx hexec'
  have hv := hrecorded.mono hgrows
  have hpage : v.pageId = w.pageId := hv.pageId_eq hwf' htenant hsource hurl hrecorded'
  rw [← pageRevision_eq_iff hc hwf' hv.mem hrecorded'.mem hpage hv.content hrecorded'.content,
    ← hid, ← hid']
  constructor
  · intro h
    exact hwf'.valid.pageRevision_eq hv.mem hrecorded'.mem h
  · intro h
    rw [h]

/-- **The identity of content is the identity of its words.** -/
theorem content_identity :
    (∀ a b, Store.normalizeContent a = Store.normalizeContent b ↔ words a = words b) ∧
    (∀ a, Store.normalizeContent (Store.normalizeContent a) = Store.normalizeContent a) ∧
    (ReverseMatch.normalizeContent = Store.normalizeContent ∧
      Alerts.collapseWhitespace = Store.normalizeContent ∧
      Query.collapseWhitespace = Store.normalizeContent) ∧
    ∀ x : Platform, x.Lawful → x.CollisionFree →
      (∀ a, Store.contentSha256 x a = ReverseMatch.contentSha256 x a) ∧
      (∀ a b, Store.contentSha256 x a = Store.contentSha256 x b ↔ words a = words b) ∧
      (∀ now ids T sourceId input originalUrl finalUrl db,
        AddsContent (Store.contentSha256 x input.contentText) db
          (Store.ingestPage x now ids T sourceId input originalUrl finalUrl db).2) ∧
      (∀ (c : ReverseIngest) (db : Db),
        AddsContent (ReverseMatch.contentSha256 x c.request.contentText) db (c.after x db)) ∧
      (∀ db, Reachable x db → ∀ v ∈ db.pageRevisions, ∀ w ∈ db.pageRevisions,
        v.pageId = w.pageId → ∀ a b, v.contentSha256 = Store.contentSha256 x a →
          w.contentSha256 = Store.contentSha256 x b → (v = w ↔ words a = words b)) ∧
      ∀ (c c' : ReverseIngest) (db d db' d' : Db) answer answer', Reachable x db →
        c.exec x db = (.ok answer, d) → ReflTransGen (Served x) d db' →
        c'.exec x db' = (.ok answer', d') → c'.tenantId = c.tenantId →
        c'.sourceId = c.sourceId → c'.finalUrl = c.finalUrl →
        (answer.pageRevisionId = answer'.pageRevisionId ↔
          words c.request.contentText = words c'.request.contentText) := by
  refine ⟨normalizeContent_eq_iff, normalizeContent_normalizeContent, ⟨rfl, rfl, rfl⟩,
    fun x hx hc => ⟨fun _ => rfl, contentSha256_eq_iff hc, ?_, ?_, ?_, ?_⟩⟩
  · exact ingestPage_addsContent x
  · exact ReverseIngest.after_addsContent x
  · intro db hdb v hv w hw hpage a b ha hb
    exact pageRevision_eq_iff hc (hdb.wf hx) hv hw hpage ha hb
  · intro c c' db d db' d' answer answer' hdb hexec hbetween hexec' htenant hsource hurl
    exact ReverseIngest.answers_shared_iff hx hc hdb hexec hbetween hexec' htenant hsource hurl

/-! ### A scenario -/

namespace Scenario

/-- The store with the source, on the sample platform. -/
def opened : Db := createSource.after Platform.sample Db.empty

theorem reachable_opened : Reachable Platform.sample opened :=
  ReflTransGen.single (.request createSource)

/-- The answer to a fetch of the content `alpha`. -/
def alphaAnswer (changed : Bool) : ReverseMatch.ReverseAlertMatchResponse where
  pageId := 50
  pageRevisionId := 51
  contentSha256 := Store.contentSha256 Platform.sample "alpha"
  changed := changed
  pageVectorPersisted := false
  candidates := []

theorem exec_alpha : (fetch 50 "alpha" 0).exec Platform.sample opened =
    (.ok (alphaAnswer true), (fetch 50 "alpha" 0).after Platform.sample opened) := by
  refine Prod.ext ?_ rfl
  decide

theorem exec_spaced : (fetch 60 " alpha\n" 1).exec Platform.sample
      ((fetch 50 "alpha" 0).after Platform.sample opened) =
    (.ok (alphaAnswer false), (fetch 60 " alpha\n" 1).after Platform.sample
      ((fetch 50 "alpha" 0).after Platform.sample opened)) := by
  refine Prod.ext ?_ rfl
  decide

end Scenario

open Scenario in
/-- The page is fetched twice, with other white space, and the second answer has the
revision of the first. -/
theorem content_identity_sample :
    Store.contentSha256 Platform.sample "alpha" =
      ReverseMatch.contentSha256 Platform.sample " alpha\n" ∧
    (fetch 60 " alpha\n" 1).exec Platform.sample
        ((fetch 50 "alpha" 0).after Platform.sample opened) =
      (.ok (alphaAnswer false), (fetch 60 " alpha\n" 1).after Platform.sample
        ((fetch 50 "alpha" 0).after Platform.sample opened)) ∧
    ((alphaAnswer true).pageRevisionId = (alphaAnswer false).pageRevisionId ↔
      words "alpha" = words " alpha\n") ∧
    words "alpha" = words " alpha\n" := by
  obtain ⟨-, -, -, hidentity⟩ := content_identity
  obtain ⟨hshared, hdigest, -, -, -, hanswers⟩ :=
    hidentity Platform.sample Platform.sample_lawful Platform.sample_collisionFree
  have hwords : words "alpha" = words " alpha\n" := by decide
  refine ⟨?_, exec_spaced, ?_, hwords⟩
  · rw [← hshared]
    exact (hdigest _ _).mpr hwords
  · exact hanswers (fetch 50 "alpha" 0) (fetch 60 " alpha\n" 1) opened _ _ _ _ _ reachable_opened
      exec_alpha .refl exec_spaced rfl rfl rfl

end EmbeddedAlerts
