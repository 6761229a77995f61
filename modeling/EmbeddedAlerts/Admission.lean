import EmbeddedAlerts.Requests
import EmbeddedAlerts.Text.Check
import EmbeddedAlerts.Text.Split

/-!
# What an admitted URL is

`canonicalize` decides with prefixes and suffixes of texts.  The policy of a
source is about the labels of a host and the segments of a path.

* `Url.Admitted`: the policy, in labels and segments.
* `canonicalize_ok_iff`: `canonicalize` checks a URL (`Checked`), removes a
  default port and the fragment (`Url.canonical`), and prints it.
* `canonicalize_admits`: **what it returns is admitted and is its own canonical
  form**, and so is the URL of every page that a run of requests stores.
* `canonicalize_shared_iff`: two spellings of one page give one canonical URL
  exactly when their hosts have the same trailing dots.
-/

namespace EmbeddedAlerts

open Text Sql

/-! ### The `url` crate -/

def Url.IsWeb (u : Url) : Prop := u.scheme = "http" ∨ u.scheme = "https"

/-- What is documented of the `url` crate, for `http` and `https`: a parsed URL,
also after its port and its fragment were removed, is printed so that it parses
back; a path starts with a slash; a domain is in lower case and without white
space. -/
structure Platform.UrlLaws (x : Platform) : Prop where
  reparse : ∀ {raw : String} {u : Url}, x.urlParse raw = .ok u → u.IsWeb →
    ∀ port, port = u.port ∨ port = none →
      x.urlParse (x.urlToString { u with port := port, fragment := none })
        = .ok { u with port := port, fragment := none }
  path : ∀ {raw : String} {u : Url}, x.urlParse raw = .ok u → u.IsWeb →
    u.path.toList.head? = some '/'
  domain : ∀ {raw name : String} {u : Url}, x.urlParse raw = .ok u → u.IsWeb →
    u.host = some (.domain name) →
      Indexing.toAsciiLowercase name.toList = name.toList ∧ trim name.toList = name.toList

/-- The URL that `canonicalize` prints: `set_port(None)` for a default port, and
`set_fragment(None)`. -/
def Url.canonical (u : Url) : Url :=
  let isDefaultPort := (u.scheme == "http" && u.port == some 80)
    || (u.scheme == "https" && u.port == some 443)
  let u := if isDefaultPort then { u with port := none } else u
  { u with fragment := none }

def Url.HasDefaultPort (u : Url) : Prop :=
  (u.scheme = "http" ∧ u.port = some 80) ∨ (u.scheme = "https" ∧ u.port = some 443)

instance : DecidablePred Url.HasDefaultPort := fun _ => inferInstanceAs (Decidable (_ ∨ _))

/-- Only the port and the fragment change. -/
theorem Url.canonical_eq (u : Url) : u.canonical
    = { u with port := if u.HasDefaultPort then none else u.port, fragment := none } := by
  have hiff : ((u.scheme == "http" && u.port == some 80)
      || (u.scheme == "https" && u.port == some 443)) = true ↔ u.HasDefaultPort := by
    simp only [Bool.or_eq_true, Bool.and_eq_true, beq_iff_eq, Url.HasDefaultPort]
  unfold Url.canonical
  by_cases hdefault : u.HasDefaultPort
  · simp only [hiff, hdefault, if_true]
  · simp only [hiff, hdefault, if_false]

/-! ### The policy -/

/-- The labels of a host are those of an allowed one, or, with subdomains, those
of an allowed one after further labels. -/
def HostWithin (includeSubdomains : Bool) (host allowed : List Char) : Prop :=
  host.splitOn '.' = allowed.splitOn '.' ∨
    (includeSubdomains = true ∧ ∃ labels, labels ≠ [] ∧ labels ≠ [[]] ∧
      host.splitOn '.' = labels ++ allowed.splitOn '.')

/-- The segments of a prefix, without its trailing slashes, are the first ones of
a path. -/
def PathWithin (path pathPrefix : List Char) : Prop :=
  (Indexing.trimEndMatches '/' pathPrefix).splitOn '/' <+: path.splitOn '/'

/-- **The policy of a source.** -/
structure Url.Admitted (u : Url) (allowedHosts : List String) (includeSubdomains : Bool)
    (allowedPathPrefixes : List String) : Prop where
  web : u.IsWeb
  noCredentials : u.username = "" ∧ u.password = none
  noFragment : u.fragment = none
  noDefaultPort : ¬ u.HasDefaultPort
  host : ∃ name, u.host = some (.domain name) ∧
    Indexing.normalizeHost name.toList ≠ "localhost".toList ∧
    '.' ∈ Indexing.normalizeHost name.toList ∧
    ∃ allowed ∈ allowedHosts, HostWithin includeSubdomains (Indexing.normalizeHost name.toList)
      (Indexing.normalizeHost allowed.toList)
  path : ∃ p ∈ allowedPathPrefixes, PathWithin u.path.toList p.toList

namespace Indexing

/-! ### Hosts and paths -/

theorem stripSuffix?_eq_some {s suffix pre : List Char} (h : stripSuffix? s suffix = some pre) :
    s = pre ++ suffix := by
  unfold stripSuffix? at h
  split at h
  · next hsuffix =>
    obtain ⟨front, rfl⟩ := List.isSuffixOf_iff_suffix.mp hsuffix
    obtain rfl := Option.some.inj h
    rw [List.length_append, Nat.add_sub_cancel, List.take_left]
  · cases h

theorem stripPrefix?_eq_some {s pre rest : List Char} (h : stripPrefix? s pre = some rest) :
    s = pre ++ rest := by
  unfold stripPrefix? at h
  split at h
  · next hprefix =>
    obtain ⟨back, rfl⟩ := List.isPrefixOf_iff_prefix.mp hprefix
    obtain rfl := Option.some.inj h
    rw [List.drop_left]
  · cases h

/-- A text that is not empty has more than the one empty label. -/
theorem splitOn_ne_singleton_nil {c : Char} {s : List Char} (h : s ≠ []) :
    s.splitOn c ≠ [[]] := by
  intro hsplit
  obtain ⟨-, -, hjoin⟩ := splitOn_eq_iff.mp hsplit
  exact h hjoin.symm

/-- **The suffix test is about whole labels.** -/
theorem hostIsAllowed_within {host : List Char} {allowedHosts : List String}
    {includeSubdomains : Bool} (h : hostIsAllowed host allowedHosts includeSubdomains = true) :
    ∃ allowed ∈ allowedHosts,
      HostWithin includeSubdomains host (normalizeHost allowed.toList) := by
  obtain ⟨allowed, hmem, h⟩ := List.any_eq_true.mp h
  refine ⟨allowed, hmem, ?_⟩
  rw [Bool.or_eq_true, Bool.and_eq_true] at h
  rcases h with hsame | ⟨hsub, hstrip⟩
  · rw [beq_iff_eq] at hsame
    exact Or.inl (by rw [hsame])
  · obtain ⟨pre, hpre, htest⟩ := (Option.any_eq_true _ _).mp hstrip
    rw [Bool.and_eq_true, beq_iff_eq, decide_eq_true_eq] at htest
    obtain ⟨hlast, hlen⟩ := htest
    -- what stands before the suffix is `front` and a dot
    obtain ⟨front, rfl⟩ := List.getLast?_eq_some_iff.mp hlast
    have hfront : front ≠ [] := by
      rintro rfl
      simp at hlen
    have hhost := stripSuffix?_eq_some hpre
    refine Or.inr ⟨hsub, front.splitOn '.', List.splitOn_ne_nil _ _,
      splitOn_ne_singleton_nil hfront, ?_⟩
    rw [hhost, List.append_assoc, List.singleton_append, List.splitOn_append_cons_self]

/-- **The prefix test is about whole segments.** -/
theorem pathIsAllowed_within {path pathPrefix : List Char} (hslash : path.head? = some '/')
    (h : pathIsAllowed path pathPrefix = true) : PathWithin path pathPrefix := by
  unfold pathIsAllowed at h
  split at h
  · next hroot =>
    -- every path starts with the empty segment
    obtain ⟨rest, rfl⟩ := List.head?_eq_some_iff.mp hslash
    have hempty : trimEndMatches '/' ['/'] = [] := by decide
    rw [PathWithin, hroot, hempty]
    have hsplit : ('/' :: rest).splitOn '/' = [] :: rest.splitOn '/' := by
      rw [List.splitOn_cons_eq_if_modifyHead, if_pos (beq_self_eq_true '/')]
    rw [hsplit]
    exact ⟨rest.splitOn '/', rfl⟩
  · rw [Bool.or_eq_true, beq_iff_eq] at h
    rcases h with hsame | hstrip
    · rw [PathWithin, ← hsame]
    · obtain ⟨rest, hrest, hhead⟩ := (Option.any_eq_true _ _).mp hstrip
      obtain ⟨tail, rfl⟩ := List.head?_eq_some_iff.mp (beq_iff_eq.mp hhead)
      rw [PathWithin, stripPrefix?_eq_some hrest, List.splitOn_append_cons_self]
      exact List.prefix_append _ _

/-! ### Canonicalization -/

/-- What `canonicalize` checks. -/
structure Checked (allowedHosts : List String) (includeSubdomains : Bool)
    (allowedPathPrefixes : List String) (u : Url) (name : String) : Prop where
  web : u.IsWeb
  base : u.cannotBeABase = false
  username : u.username.isEmpty = true
  password : u.password = none
  host : u.host = some (.domain name)
  notLocal : normalizeHost name.toList ≠ "localhost".toList
  dotted : '.' ∈ normalizeHost name.toList
  hostAllowed : hostIsAllowed (normalizeHost name.toList) allowedHosts includeSubdomains = true
  pathAllowed : (allowedPathPrefixes.any fun p => pathIsAllowed u.path.toList p.toList) = true

section Canonicalize

variable {x : Platform} {rawUrl s : String} {allowedHosts : List String} {includeSubdomains : Bool}
  {allowedPathPrefixes : List String} {u : Url} {name : String}

theorem canonicalize_ok_iff :
    canonicalize x rawUrl allowedHosts includeSubdomains allowedPathPrefixes = .ok s ↔
      ∃ u name, x.urlParse rawUrl = .ok u ∧
        Checked allowedHosts includeSubdomains allowedPathPrefixes u name ∧
        x.urlToString u.canonical = s := by
  rw [canonicalize, bind_ok_iff]
  simp only [mapError_ok_iff]
  constructor
  · rintro ⟨u, hparse, h⟩
    rw [ite_throw_ok_iff, ite_throw_ok_iff, ite_throw_ok_iff] at h
    obtain ⟨hscheme, hbase, huser, h⟩ := h
    split at h
    · next name hhost =>
      rw [bind_ok_iff] at h
      obtain ⟨_, hpure, h⟩ := h
      obtain rfl := pure_ok_iff.mp hpure
      rw [ite_throw_ok_iff, ite_throw_ok_iff, ite_throw_ok_iff] at h
      obtain ⟨hlocal, hallowed, hpath, h⟩ := h
      rw [not_and_or, not_not, not_not] at hscheme
      rw [not_or, not_not] at hlocal
      rw [Bool.not_eq_true, Bool.or_eq_false_iff, Bool.not_eq_false'] at huser
      exact ⟨u, name, hparse, {
        web := hscheme
        base := Bool.not_eq_true _ ▸ hbase
        username := huser.1
        password := Option.isSome_eq_false_iff.mp huser.2 |> Option.isNone_iff_eq_none.mp
        host := hhost
        notLocal := hlocal.1
        dotted := hlocal.2
        hostAllowed := by simpa using hallowed
        pathAllowed := by simpa using hpath }, pure_ok_iff.mp h⟩
    all_goals cases h
  · rintro ⟨u, name, hparse, h, rfl⟩
    refine ⟨u, hparse, ?_⟩
    rw [ite_throw_ok_iff, ite_throw_ok_iff, ite_throw_ok_iff]
    refine ⟨?_, ?_, ?_, ?_⟩
    · rw [not_and_or, not_not, not_not]
      exact h.web
    · simp [h.base]
    · simp [h.username, h.password]
    split
    · next name' hhost =>
      obtain rfl : name = name' := by
        have := h.host.symm.trans hhost
        simpa using this
      rw [bind_ok_iff]
      refine ⟨_, rfl, ?_⟩
      rw [ite_throw_ok_iff, ite_throw_ok_iff, ite_throw_ok_iff]
      refine ⟨?_, ?_, ?_, rfl⟩
      · rw [not_or, not_not]
        exact ⟨h.notLocal, h.dotted⟩
      · simp [h.hostAllowed]
      · simp [h.pathAllowed]
    all_goals
      next hhost =>
      rw [h.host] at hhost
      cases hhost

/-- Nothing that is checked is changed. -/
theorem Checked.canonical (h : Checked allowedHosts includeSubdomains allowedPathPrefixes u name) :
    Checked allowedHosts includeSubdomains allowedPathPrefixes u.canonical name := by
  rw [Url.canonical_eq]
  exact { h with }

/-- A canonical URL has no default port left to remove. -/
theorem canonical_noDefaultPort (u : Url) : ¬ u.canonical.HasDefaultPort := by
  rw [Url.canonical_eq]
  by_cases hdefault : u.HasDefaultPort
  · rw [if_pos hdefault]
    rintro (⟨-, h⟩ | ⟨-, h⟩)
    · cases h
    · cases h
  · rw [if_neg hdefault]
    exact hdefault

theorem canonical_canonical (u : Url) : u.canonical.canonical = u.canonical := by
  rw [Url.canonical_eq u.canonical, if_neg (canonical_noDefaultPort u), Url.canonical_eq]

theorem canonical_reparse (hurl : x.UrlLaws) (hparse : x.urlParse rawUrl = .ok u)
    (hweb : u.IsWeb) : x.urlParse (x.urlToString u.canonical) = .ok u.canonical := by
  rw [Url.canonical_eq]
  refine hurl.reparse hparse hweb _ ?_
  by_cases hdefault : u.HasDefaultPort
  · exact Or.inr (if_pos hdefault)
  · exact Or.inl (if_neg hdefault)

/-- **Canonicalization is a projection.** -/
theorem canonicalize_canonicalize (hurl : x.UrlLaws)
    (h : canonicalize x rawUrl allowedHosts includeSubdomains allowedPathPrefixes = .ok s) :
    canonicalize x s allowedHosts includeSubdomains allowedPathPrefixes = .ok s := by
  obtain ⟨u, name, hparse, hchecked, rfl⟩ := canonicalize_ok_iff.mp h
  refine canonicalize_ok_iff.mpr ⟨u.canonical, name, canonical_reparse hurl hparse hchecked.web,
    hchecked.canonical, ?_⟩
  rw [canonical_canonical]

/-- A checked URL is admitted in its canonical form. -/
theorem Checked.admitted (h : Checked allowedHosts includeSubdomains allowedPathPrefixes u name)
    (hslash : u.path.toList.head? = some '/') :
    u.canonical.Admitted allowedHosts includeSubdomains allowedPathPrefixes := by
  have hc := h.canonical
  have hpath : u.canonical.path = u.path := by rw [Url.canonical_eq]
  obtain ⟨p, hp, hallowed⟩ := List.any_eq_true.mp hc.pathAllowed
  exact {
    web := hc.web
    noCredentials := ⟨String.isEmpty_iff.mp hc.username, hc.password⟩
    noFragment := by rw [Url.canonical_eq]
    noDefaultPort := canonical_noDefaultPort u
    host := ⟨name, hc.host, hc.notLocal, hc.dotted, hostIsAllowed_within hc.hostAllowed⟩
    path := ⟨p, hp, pathIsAllowed_within (by rw [hpath]; exact hslash) hallowed⟩ }

end Canonicalize

end Indexing

/-! ### The pages of a run -/

theorem PageRow.Same.trans {p q r : PageRow} (h : p.Same q) (h' : q.Same r) : p.Same r where
  id := h'.id.trans h.id
  tenantId := h'.tenantId.trans h.tenantId
  sourceId := h'.sourceId.trans h.sourceId
  canonicalUrl := h'.canonicalUrl.trans h.canonicalUrl

/-- No source is lost, and every page is an old one or has one of the new
tenants, sources and URLs. -/
structure AddsPages (new : Uuid → Uuid → String → Prop) (db db' : Db) : Prop where
  sources : db.sources ⊆ db'.sources
  pages : ∀ q ∈ db'.pages, (∃ p ∈ db.pages, p.Same q) ∨ new q.tenantId q.sourceId q.canonicalUrl

section AddsPages

variable {x : Platform} {new : Uuid → Uuid → String → Prop} {T sourceId : Uuid} {url : String}
  {db db' snapshot : Db}

theorem AddsPages.of_eq (hsources : db'.sources = db.sources) (hpages : db'.pages = db.pages) :
    AddsPages new db db' where
  sources := hsources ▸ List.Subset.refl _
  pages := fun q hq => Or.inl ⟨q, hpages ▸ hq, PageRow.Same.refl q⟩

theorem AddsPages.trans {d : Db} (h : AddsPages new db db') (h' : AddsPages new db' d) :
    AddsPages new db d where
  sources := List.Subset.trans h.sources h'.sources
  pages := by
    intro r hr
    rcases h'.pages r hr with ⟨q, hq, hqr⟩ | hnew
    · rcases h.pages q hq with ⟨p, hp, hpq⟩ | hnew
      · exact Or.inl ⟨p, hp, hpq.trans hqr⟩
      · rw [← hqr.tenantId, ← hqr.sourceId, ← hqr.canonicalUrl] at hnew
        exact Or.inr hnew
    · exact Or.inr hnew

instance : Std.Refl (AddsPages new) := ⟨fun _ => AddsPages.of_eq rfl rfl⟩

instance : IsTrans Db (AddsPages new) := ⟨fun _ _ _ => AddsPages.trans⟩

theorem AddsPages.touch {f : PageRow → PageRow} (hf : Touches T db f) :
    AddsPages new db { db with pages := db.pages.map f } where
  sources := List.Subset.refl _
  pages := by
    intro q hq
    obtain ⟨p, hp, rfl⟩ := List.mem_map.mp hq
    exact Or.inl ⟨p, hp, hf.same p⟩

/-- `upserted_page` adds at most the page of the request. -/
theorem upsertPage_addsPages {now fetchedAt : Timestamp} {id : Uuid} {page : PageRow}
    {pages : List PageRow} (hnew : new T sourceId url)
    (h : pagesTable.insertOrUpdate PageRow.sameUrl (Store.seenAgain now fetchedAt) db db.pages
      (Store.newPage now id T sourceId url fetchedAt) = .ok (page, pages)) :
    AddsPages new db { db with pages := pages } := by
  rcases Constraints.insertOrUpdate_cases h with ⟨s, -, -, rfl, rfl⟩ | ⟨rfl, rfl, -, -⟩
  · refine ⟨List.Subset.refl _, fun q hq => ?_⟩
    obtain ⟨p, hp, rfl⟩ := List.mem_map.mp hq
    refine Or.inl ⟨p, hp, ?_⟩
    split_ifs
    · exact ⟨rfl, rfl, rfl, rfl⟩
    · exact PageRow.Same.refl p
  · refine ⟨List.Subset.refl _, fun q hq => ?_⟩
    rcases List.mem_append.mp hq with hold | hadded
    · exact Or.inl ⟨q, hold, PageRow.Same.refl q⟩
    · obtain rfl := List.mem_singleton.mp hadded
      exact Or.inr hnew

theorem selectRevision_addsPages {now : Timestamp} {id pageId : Uuid} {input : PageIngestRequest}
    {originalUrl finalUrl : String} {o : Option (PageRevisionRow × Bool)}
    (h : Store.selectRevision x now id T pageId input originalUrl finalUrl snapshot db
      = .ok (o, db')) : AddsPages new db db' := by
  unfold Store.selectRevision at h
  simp only at h
  split at h
  · obtain ⟨-, rfl⟩ := Prod.mk.inj (Except.ok.inj h)
    exact AddsPages.of_eq rfl rfl
  · obtain ⟨⟨o', rows⟩, -, hrows⟩ := except_bind_eq_ok h
    obtain ⟨-, rfl⟩ := Prod.mk.inj (Except.ok.inj hrows)
    exact AddsPages.of_eq rfl rfl

theorem selectEmbedding_addsPages {now : Timestamp} {id : Uuid} {input : PageIngestRequest}
    {revision : Option (PageRevisionRow × Bool)} {o : Option EmbeddingRow}
    (h : Store.selectEmbedding now id T revision input snapshot db = .ok (o, db')) :
    AddsPages new db db' := by
  unfold Store.selectEmbedding at h
  split at h
  · obtain ⟨-, rfl⟩ := Prod.mk.inj (Except.ok.inj h)
    exact AddsPages.of_eq rfl rfl
  · obtain ⟨⟨o', rows⟩, -, hrows⟩ := except_bind_eq_ok h
    obtain ⟨-, rfl⟩ := Prod.mk.inj (Except.ok.inj hrows)
    exact AddsPages.of_eq rfl rfl

theorem ingestPageStatement_addsPages {now : Timestamp} {ids : ℕ → Uuid} {input : PageIngestRequest}
    {originalUrl : String} {o : Option Store.PageRevision} (hnew : new T sourceId url)
    (h : Store.ingestPageStatement x now ids T sourceId input originalUrl url db db
      = .ok (o, db')) : AddsPages new db db' := by
  obtain ⟨⟨page, pages⟩, hpage, h1⟩ := except_bind_eq_ok h
  obtain ⟨⟨revision, d1⟩, hrevision, h2⟩ := except_bind_eq_ok h1
  obtain ⟨⟨embedding, d2⟩, hembedding, h3⟩ := except_bind_eq_ok h2
  obtain ⟨⟨updated, d3⟩, hupdated, h4⟩ := except_bind_eq_ok h3
  obtain ⟨-, rfl⟩ := Prod.mk.inj (Except.ok.inj h4)
  rw [Store.updatedPage_ok] at hupdated
  obtain ⟨-, rfl⟩ := Prod.mk.inj (Except.ok.inj hupdated)
  exact ((upsertPage_addsPages hnew hpage).trans (selectRevision_addsPages hrevision)).trans
    (selectEmbedding_addsPages hembedding)

theorem upsertPageRevision_addsPages {now : Timestamp} {ids : ℕ → Uuid}
    {request : ReverseMatch.ReverseAlertPageRequest} {originalUrl : String}
    (hnew : new T sourceId url) (db : Db) :
    Action.Moves (AddsPages new)
      (ReverseMatch.upsertPageRevision x now ids T sourceId request originalUrl url) db := by
  refine Action.Moves.bind (Action.Moves.statement fun o d h => ?_) fun o d _ => ?_
  · obtain ⟨⟨page, pages⟩, hpage, h1⟩ := except_bind_eq_ok h
    obtain ⟨⟨revision, rows⟩, -, h2⟩ := except_bind_eq_ok h1
    obtain ⟨-, rfl⟩ := Prod.mk.inj (Except.ok.inj h2)
    exact (upsertPage_addsPages hnew hpage).trans (AddsPages.of_eq rfl rfl)
  · refine Action.Moves.okOr_bind fun page _ => ?_
    refine Action.Moves.bind (Action.Moves.statement fun u d' h => ?_) fun _ _ _ =>
      Action.Moves.of_same rfl
    obtain ⟨f, hf, rfl⟩ := ReverseMatch.setLatestRevision_ok h
    exact AddsPages.touch hf

theorem ingestAndReverseMatch_addsPages {now : Timestamp} {ids : ℕ → Uuid}
    {request : ReverseMatch.ReverseAlertPageRequest} {originalUrl : String}
    (hnew : new T sourceId url) (db : Db) :
    Action.Moves (AddsPages new)
      (ReverseMatch.ingestAndReverseMatch x now ids T sourceId request originalUrl url) db := by
  refine Action.Moves.ofExcept_bind fun _ _ => Action.Moves.transaction ?_
  refine Action.Moves.bind (upsertPageRevision_addsPages hnew db) fun page d _ => ?_
  refine Action.Moves.bind (Action.Moves.of_same (ReverseMatch.findAlertCandidates_snd _ _ _ _))
    fun wires d1 _ => ?_
  refine Action.Moves.bind (Action.Moves.forEach _ _ fun candidate _ s _ => ?_) fun _ _ _ =>
    Action.Moves.of_same rfl
  refine Action.Moves.bind (Action.Moves.statement fun o d' h => ?_) fun o d' _ =>
    Action.Moves.okOr_bind fun _ _ => Action.Moves.of_same rfl
  rcases ReverseMatch.persistStatement_ok h with ⟨-, rfl, -⟩ | ⟨-, rfl, -, -⟩
  · exact AddsPages.of_eq rfl rfl
  · exact AddsPages.of_eq rfl rfl

theorem createAlertRule_addsPages {now : Timestamp} {ids : ℕ → Uuid} {subject : String}
    {input : CreateAlertRule} (db : Db) :
    Action.Moves (AddsPages new) (AlertStore.createAlertRule now ids T subject input) db := by
  refine Action.Moves.bind (Action.Moves.transaction ?_) fun o d _ => Action.Moves.okOr
  refine Action.Moves.bind (Action.Moves.statement fun n d h => ?_) fun n d1 _ => ?_
  · obtain ⟨-, rfl⟩ := AlertStore.insertAlertRule_ok h
    exact AddsPages.of_eq rfl rfl
  refine Action.Moves.ensure_bind fun _ => ?_
  refine Action.Moves.bind (Action.Moves.statement fun n d h => ?_) fun n d2 _ => ?_
  · obtain ⟨-, rfl⟩ := AlertStore.insertAlertRuleRevision_ok h
    exact AddsPages.of_eq rfl rfl
  refine Action.Moves.ensure_bind fun _ => ?_
  refine Action.Moves.bind (Action.Moves.statement fun n d h => ?_) fun n d4 _ => ?_
  · rcases AlertStore.activateAlertRule_ok h with rfl | rfl
    · exact AddsPages.of_eq rfl rfl
    · exact AddsPages.of_eq rfl rfl
  exact Action.Moves.ensure_bind fun _ => Action.Moves.of_same rfl

theorem upsertAlertRuleEmbedding_addsPages {now : Timestamp} {id alertRuleId : Uuid}
    {request : ReverseMatch.AlertRuleEmbeddingUpsertRequest} (db : Db) :
    Action.Moves (AddsPages new)
      (ReverseMatch.upsertAlertRuleEmbedding x now id T alertRuleId request) db := by
  refine Action.Moves.ofExcept_bind fun _ _ => ?_
  refine Action.Moves.bind (Action.Moves.statement fun o d h => ?_) fun o d _ => ?_
  · unfold ReverseMatch.upsertAlertRuleEmbeddingStatement at h
    split at h
    · obtain ⟨-, rfl⟩ := Prod.mk.inj (Except.ok.inj h)
      exact AddsPages.of_eq rfl rfl
    · obtain ⟨⟨selected, rows⟩, -, hrows⟩ := except_bind_eq_ok h
      obtain ⟨-, rfl⟩ := Prod.mk.inj (Except.ok.inj hrows)
      exact AddsPages.of_eq rfl rfl
  · refine Action.Moves.okOr_bind fun wire _ => ?_
    exact Action.Moves.ensure_bind fun _ => Action.Moves.of_same rfl

theorem createSource_addsPages {now : Timestamp} {id : Uuid} {input : CreateSourcePolicy}
    {root : String} (db : Db) :
    Action.Moves (AddsPages new) (Store.createSource now id T input root) db := by
  refine Action.Moves.bind (Action.Moves.statement fun o d' h => ?_) fun o d' _ => ?_
  · rcases Store.insertSource_ok h with rfl | ⟨-, rfl⟩
    · exact AddsPages.of_eq rfl rfl
    · exact ⟨List.subset_append_left _ _, fun q hq => Or.inl ⟨q, hq, PageRow.Same.refl q⟩⟩
  · cases o <;> exact Action.Moves.of_same rfl

theorem evaluateMatches_addsPages {clock : ℕ → Timestamp} {ids : ℕ → Uuid}
    {alertRuleId alertRuleRevisionId : Uuid} {threshold : ℚ} {search : EmbeddingSearchRequest}
    (db : Db) : Action.Moves (AddsPages new)
      (Store.evaluateMatches x clock ids T alertRuleId alertRuleRevisionId threshold search) db := by
  refine Action.Moves.bind (Action.Moves.of_same (Store.searchEmbeddings_snd _ _ _)) fun page d _ => ?_
  refine Action.Moves.forEach _ _ fun record _ s _ => ?_
  refine Action.Moves.bind (Action.Moves.statement fun o d' h => ?_) fun o d' _ =>
    Action.Moves.okOr_bind fun _ _ => Action.Moves.of_same rfl
  rcases Store.upsertMatch_ok h with ⟨-, rfl, -⟩ | ⟨-, rfl, -, -⟩
  · exact AddsPages.of_eq rfl rfl
  · exact AddsPages.of_eq rfl rfl

/-- The source of the route has canonicalized both URLs. -/
theorem admittedUrls_canonical {input : PageIngestRequest} {urls : String × String}
    (h : Routes.admittedUrls x T sourceId input db = (.ok urls, db')) :
    ∃ source ∈ db.sources, source.id = sourceId ∧ source.tenantId = T ∧
      Indexing.canonicalizeForSource x source input.url = .ok urls.1 ∧
      Indexing.canonicalizeForSource x source input.finalUrl = .ok urls.2 := by
  obtain ⟨_, _, hensure, h1⟩ := Action.bind_eq_ok h
  obtain ⟨-, rfl⟩ := Routes.ensure_ok hensure
  obtain ⟨found, d2, hfound, h2⟩ := Action.bind_eq_ok h1
  obtain ⟨hfind, rfl⟩ := Prod.mk.inj hfound
  obtain ⟨source, d3, hsource, h3⟩ := Action.bind_eq_ok h2
  obtain ⟨_, d4, -, h4⟩ := Action.bind_eq_ok h3
  obtain ⟨original, d5, horiginal, h5⟩ := Action.bind_eq_ok h4
  obtain ⟨final, d6, hfinal, h6⟩ := Action.bind_eq_ok h5
  obtain ⟨hurls, -⟩ := Prod.mk.inj h6
  obtain rfl := Except.ok.inj hurls
  rcases found with _ | source'
  · cases hsource
  · obtain rfl := Except.ok.inj (Prod.mk.inj hsource).1
    have hfind := Except.ok.inj hfind
    have hpicked := List.find?_some hfind
    obtain ⟨htenant, hid⟩ := of_decide_eq_true hpicked
    exact ⟨source', List.mem_of_find?_eq_some hfind, hid, htenant,
      (Routes.validated_ok horiginal).1, (Routes.validated_ok hfinal).1⟩

end AddsPages

/-- The tenant, the source and the URL of a page that a source of the store has
canonicalized. -/
def CanonicalIn (x : Platform) (db : Db) (T sourceId : Uuid) (url : String) : Prop :=
  ∃ source ∈ db.sources, source.id = sourceId ∧ source.tenantId = T ∧
    ∃ rawUrl, Indexing.canonicalizeForSource x source rawUrl = .ok url

variable {x : Platform} {db : Db}

/-- **A request adds only pages whose URL their source has canonicalized.** -/
theorem Call.addsPages (call : Call) (db : Db) :
    AddsPages (CanonicalIn x db) db (call.after x db) := by
  obtain ⟨auth, supply, request⟩ := call
  suffices h : Action.Moves (AddsPages (CanonicalIn x db))
      (Call.exec x ⟨auth, supply, request⟩) db from h
  cases request with
  | listRecords | listSources => exact moves_return (Action.Moves.of_same rfl)
  | getRecord | getSource => exact moves_return (Action.Moves.query_bind Action.Moves.okOr)
  | createRecord input =>
    refine moves_return (Routes.moves_validated_bind fun _ _ => ?_)
    exact createAlertRule_addsPages db
  | upsertAlertEmbedding alertRuleId input =>
    refine moves_return (Routes.moves_validated_bind fun _ _ => ?_)
    exact upsertAlertRuleEmbedding_addsPages db
  | createSource input =>
    refine moves_return (Action.Moves.ensure_bind fun _ => ?_)
    refine Routes.moves_validated_bind fun _ _ => Routes.moves_validated_bind fun _ _ => ?_
    exact createSource_addsPages db
  | ingestPage sourceId input =>
    refine moves_return (Routes.moves_validated_bind fun _ _ => ?_)
    refine Action.Moves.bind (Action.Moves.of_reads (Routes.admittedUrls_reads _ _ _ db))
      fun urls d hurls => ?_
    obtain ⟨source, hmem, hid, htenant, -, hfinal⟩ := admittedUrls_canonical hurls
    refine Action.Moves.bind (Action.Moves.statement fun o d' h => ?_) fun _ _ _ =>
      Action.Moves.okOr
    exact ingestPageStatement_addsPages ⟨source, hmem, hid, htenant, _, hfinal⟩ h
  | reverseMatchPage sourceId input =>
    refine moves_return (Routes.moves_validated_bind fun _ _ => ?_)
    refine Action.Moves.bind (Action.Moves.of_reads (Routes.admittedUrls_reads _ _ _ db))
      fun urls d hurls => ?_
    obtain ⟨source, hmem, hid, htenant, -, hfinal⟩ := admittedUrls_canonical hurls
    exact ingestAndReverseMatch_addsPages ⟨source, hmem, hid, htenant, _, hfinal⟩ d
  | searchEmbeddings input =>
    refine moves_return (Routes.moves_validated_bind fun _ _ => ?_)
    exact Action.Moves.bind (Action.Moves.of_same (Store.searchEmbeddings_snd _ _ db))
      fun _ _ _ => Action.Moves.of_same rfl
  | evaluateMatches input =>
    refine moves_return ?_
    refine Action.Moves.bind (Action.Moves.of_reads (Routes.evaluationFor_reads auth input db))
      fun evaluation d _ => ?_
    exact evaluateMatches_addsPages d

/-- The URL of every page was canonicalized by its source. -/
def CanonicalPages (x : Platform) (db : Db) : Prop :=
  ∀ p ∈ db.pages, CanonicalIn x db p.tenantId p.sourceId p.canonicalUrl

/-- A request keeps this, since no source is ever changed. -/
theorem CanonicalPages.after (h : CanonicalPages x db) (call : Call) :
    CanonicalPages x (call.after x db) := by
  have hadds := call.addsPages (x := x) db
  intro q hq
  have hold : CanonicalIn x db q.tenantId q.sourceId q.canonicalUrl := by
    rcases hadds.pages q hq with ⟨p, hp, hsame⟩ | hnew
    · rw [hsame.tenantId, hsame.sourceId, hsame.canonicalUrl]
      exact h p hp
    · exact hnew
  obtain ⟨source, hmem, hsource⟩ := hold
  exact ⟨source, hadds.sources hmem, hsource⟩

theorem canonicalPages_run (calls : List Call) (h : CanonicalPages x db) :
    CanonicalPages x (after x calls db) := by
  induction calls generalizing db with
  | nil => exact h
  | cons call calls ih => exact ih (h.after call)

/-! ### Three spellings -/

namespace Scenario

/-- What the `url` crate makes of the texts of the scenario and of two further
spellings of its page. -/
def urls : List (String × Url) := [
  ("https://example.com/", url "/"),
  ("https://example.com/a", url "/a"),
  ("https://EXAMPLE.com:443/a#top", { url "/a" with fragment := some "top" }),
  ("https://example.com./a", { url "/a" with host := some (.domain "example.com.") })]

/-- The platform of the scenario with these spellings. -/
def spellings : Platform := { Platform.sample with
  urlParse := fun s =>
    match urls.lookup s with
    | some u => .ok u
    | none => .error "relative URL without a base" }

theorem mem_urls {raw : String} {u : Url} (h : spellings.urlParse raw = .ok u) :
    (raw, u) ∈ urls := by
  rcases hlookup : urls.lookup raw with _ | v
  · simp only [spellings, hlookup] at h
    cases h
  · simp only [spellings, hlookup] at h
    obtain rfl := Except.ok.inj h
    obtain ⟨before, after, htable, -⟩ := List.lookup_eq_some_iff.mp hlookup
    rw [htable]
    exact List.mem_append_right _ List.mem_cons_self

theorem spellings_urlLaws : spellings.UrlLaws where
  reparse hparse _ port hport := by
    have hall : ∀ e ∈ urls, e.2.port = none ∧ spellings.urlParse (spellings.urlToString
        { e.2 with port := none, fragment := none })
          = .ok { e.2 with port := none, fragment := none } := by decide
    obtain ⟨hnone, hreparse⟩ := hall _ (mem_urls hparse)
    obtain rfl : port = none := hport.elim (fun h => h.trans hnone) id
    exact hreparse
  path hparse _ := by
    have hall : ∀ e ∈ urls, e.2.path.toList.head? = some '/' := by decide
    exact hall _ (mem_urls hparse)
  domain hparse _ hhost := by
    have hall : ∀ e ∈ urls, ∀ name ∈ ["example.com", "example.com."],
        Indexing.toAsciiLowercase name.toList = name.toList ∧ trim name.toList = name.toList := by
      decide
    have hnames : ∀ e ∈ urls, e.2.host = some (.domain "example.com") ∨
        e.2.host = some (.domain "example.com.") := by decide
    refine hall _ (mem_urls hparse) _ ?_
    rw [List.mem_cons, List.mem_singleton]
    rcases hnames _ (mem_urls hparse) with h | h
    · exact Or.inl (Host.domain.inj (Option.some.inj (hhost.symm.trans h)))
    · exact Or.inr (Host.domain.inj (Option.some.inj (hhost.symm.trans h)))

def fetchUrl (base : ℕ) (url : String) : Call :=
  call base (.reverseMatchPage 10 ⟨{ page diagonal with url := url, finalUrl := url }, 100⟩)

end Scenario

/-! ### Admission -/

/-- **URL admission is sound and canonicalization is a projection.**  What
`canonicalize` returns parses to a URL that the policy admits, and is its own
canonical form under the policy; so is the URL of every page that a run of
requests has stored, under the policy of its source. -/
theorem canonicalize_admits (hurl : x.UrlLaws) :
    (∀ rawUrl allowedHosts includeSubdomains allowedPathPrefixes s,
      Indexing.canonicalize x rawUrl allowedHosts includeSubdomains allowedPathPrefixes = .ok s →
      (∃ u, x.urlParse s = .ok u ∧
        u.Admitted allowedHosts includeSubdomains allowedPathPrefixes) ∧
      Indexing.canonicalize x s allowedHosts includeSubdomains allowedPathPrefixes = .ok s) ∧
    (∀ calls, ∀ p ∈ (after x calls Db.empty).pages, ∃ source ∈ (after x calls Db.empty).sources,
      source.id = p.sourceId ∧ source.tenantId = p.tenantId ∧
      (∃ u, x.urlParse p.canonicalUrl = .ok u ∧
        u.Admitted source.allowedHosts source.includeSubdomains source.allowedPathPrefixes) ∧
      Indexing.canonicalizeForSource x source p.canonicalUrl = .ok p.canonicalUrl) := by
  have hsound : ∀ {rawUrl s : String} {allowedHosts : List String} {includeSubdomains : Bool}
      {allowedPathPrefixes : List String},
      Indexing.canonicalize x rawUrl allowedHosts includeSubdomains allowedPathPrefixes = .ok s →
      (∃ u, x.urlParse s = .ok u ∧
        u.Admitted allowedHosts includeSubdomains allowedPathPrefixes) ∧
      Indexing.canonicalize x s allowedHosts includeSubdomains allowedPathPrefixes = .ok s := by
    intro rawUrl s allowedHosts includeSubdomains allowedPathPrefixes h
    refine ⟨?_, Indexing.canonicalize_canonicalize hurl h⟩
    obtain ⟨u, name, hparse, hchecked, rfl⟩ := Indexing.canonicalize_ok_iff.mp h
    exact ⟨u.canonical, Indexing.canonical_reparse hurl hparse hchecked.web,
      hchecked.admitted (hurl.path hparse hchecked.web)⟩
  refine ⟨fun _ _ _ _ _ h => hsound h, fun calls p hp => ?_⟩
  have hempty : CanonicalPages x Db.empty := fun q hq => absurd hq List.not_mem_nil
  obtain ⟨source, hmem, hid, htenant, rawUrl, hurl'⟩ := canonicalPages_run calls hempty p hp
  obtain ⟨hadmitted, hfixed⟩ := hsound hurl'
  exact ⟨source, hmem, hid, htenant, hadmitted, hfixed⟩

open Scenario in
/-- A spelling in upper case with the default port and a fragment, and the page
stored under it. -/
theorem canonicalize_admits_spelling :
    Indexing.canonicalize spellings "https://EXAMPLE.com:443/a#top" ["example.com"] false ["/"]
      = .ok "https://example.com/a" ∧
    Indexing.canonicalize spellings "https://example.com/a" ["example.com"] false ["/"]
      = .ok "https://example.com/a" ∧
    ∃ p ∈ (after spellings [createSource, fetchUrl 30 "https://EXAMPLE.com:443/a#top"]
        Db.empty).pages, ∃ source ∈ (after spellings [createSource,
          fetchUrl 30 "https://EXAMPLE.com:443/a#top"] Db.empty).sources,
      source.id = p.sourceId ∧
      Indexing.canonicalizeForSource spellings source p.canonicalUrl = .ok p.canonicalUrl := by
  have hrun : Indexing.canonicalize spellings "https://EXAMPLE.com:443/a#top" ["example.com"] false
      ["/"] = .ok "https://example.com/a" := by decide
  obtain ⟨hsound, hpages⟩ := canonicalize_admits spellings_urlLaws
  obtain ⟨p, hp⟩ : ∃ p, p ∈ (after spellings [createSource,
      fetchUrl 30 "https://EXAMPLE.com:443/a#top"] Db.empty).pages := by
    refine List.exists_mem_of_ne_nil _ ?_
    decide
  obtain ⟨source, hmem, hid, -, -, hfixed⟩ := hpages _ p hp
  exact ⟨hrun, (hsound _ _ _ _ _ hrun).2, p, hp, source, hmem, hid, hfixed⟩

/-! ### One page, one URL -/

/-- `Url::port_or_known_default`. -/
def Url.effectivePort (u : Url) : Option ℕ :=
  match u.port with
  | some port => some port
  | none =>
    if u.scheme = "http" then some 80 else if u.scheme = "https" then some 443 else none

/-- How many dots a host ends with. -/
def trailingDots (host : List Char) : ℕ :=
  host.length - (Indexing.trimEndMatches '.' host).length

namespace Indexing

theorem trimEndMatches_append {c : Char} {s : List Char} :
    ∃ n, s = trimEndMatches c s ++ List.replicate n c := by
  have hsplit := List.takeWhile_append_dropWhile (p := (· == c)) (l := s.reverse)
  have htaken : s.reverse.takeWhile (· == c)
      = List.replicate (s.reverse.takeWhile (· == c)).length c := by
    rw [List.eq_replicate_iff]
    refine ⟨rfl, fun d hd => ?_⟩
    exact beq_iff_eq.mp (List.all_eq_true.mp List.all_takeWhile d hd)
  refine ⟨(s.reverse.takeWhile (· == c)).length, ?_⟩
  have hreverse := congrArg List.reverse hsplit
  rw [List.reverse_append, List.reverse_reverse, htaken, List.reverse_replicate] at hreverse
  exact hreverse.symm

theorem trimEndMatches_dots (host : List Char) :
    host = trimEndMatches '.' host ++ List.replicate (trailingDots host) '.' := by
  obtain ⟨n, hn⟩ := trimEndMatches_append (c := '.') (s := host)
  have hdots : trailingDots host = n := by
    have hlen := congrArg List.length hn
    rw [List.length_append, List.length_replicate] at hlen
    unfold trailingDots
    omega
  rw [hdots]
  exact hn

end Indexing

section Shared

variable {rawUrl rawUrl' s s' name name' : String} {allowedHosts : List String}
  {includeSubdomains : Bool} {allowedPathPrefixes : List String} {u u' : Url}

/-- A host of the `url` crate is its normal form and its trailing dots. -/
theorem domain_eq (hurl : x.UrlLaws) (hparse : x.urlParse rawUrl = .ok u) (hweb : u.IsWeb)
    (hhost : u.host = some (.domain name)) :
    name.toList = Indexing.normalizeHost name.toList
      ++ List.replicate (trailingDots name.toList) '.' := by
  obtain ⟨hlower, htrim⟩ := hurl.domain hparse hweb hhost
  have hdots := Indexing.trimEndMatches_dots name.toList
  have hnormal : Indexing.normalizeHost name.toList = Indexing.trimEndMatches '.' name.toList := by
    rw [Indexing.normalizeHost, htrim]
    have hmap : Indexing.toAsciiLowercase name.toList
        = Indexing.toAsciiLowercase (Indexing.trimEndMatches '.' name.toList)
          ++ Indexing.toAsciiLowercase (List.replicate (trailingDots name.toList) '.') := by
      conv_lhs => rw [hdots]
      exact List.map_append
    rw [hlower] at hmap
    have hlen : (Indexing.toAsciiLowercase (Indexing.trimEndMatches '.' name.toList)).length
        = (Indexing.trimEndMatches '.' name.toList).length := List.length_map _
    exact (List.append_inj (hmap.symm.trans hdots) hlen).1
  rw [hnormal]
  exact hdots

/-- Hosts with one normal form are the same exactly if their trailing dots are. -/
theorem domain_inj_iff (hurl : x.UrlLaws) (hparse : x.urlParse rawUrl = .ok u)
    (hparse' : x.urlParse rawUrl' = .ok u') (hweb : u.IsWeb) (hweb' : u'.IsWeb)
    (hhost : u.host = some (.domain name)) (hhost' : u'.host = some (.domain name'))
    (hsame : Indexing.normalizeHost name.toList = Indexing.normalizeHost name'.toList) :
    u.host = u'.host ↔ trailingDots name.toList = trailingDots name'.toList := by
  rw [hhost, hhost']
  constructor
  · intro h
    obtain rfl : name = name' := by simpa using h
    rfl
  · intro hdots
    have hlist : name.toList = name'.toList := by
      rw [domain_eq hurl hparse hweb hhost, domain_eq hurl hparse' hweb' hhost', hsame, hdots]
    rw [String.toList_inj.mp hlist]

/-- The port that is kept follows from the scheme and the effective port. -/
theorem canonical_port_eq (hweb : u.IsWeb) (hscheme : u.scheme = u'.scheme)
    (hport : u.effectivePort = u'.effectivePort) : u.canonical.port = u'.canonical.port := by
  rw [Url.canonical_eq, Url.canonical_eq]
  have hkept : ∀ v : Url, v.IsWeb → (if v.HasDefaultPort then none else v.port)
      = if v.effectivePort = (if v.scheme = "http" then some 80 else some 443) then none
        else v.effectivePort := by
    rintro ⟨scheme, _, _, _, _, port, _, _, _⟩ hv
    rcases hv with rfl | rfl
    · cases port with
      | none => simp [Url.HasDefaultPort, Url.effectivePort]
      | some p => simp [Url.HasDefaultPort, Url.effectivePort]
    · cases port with
      | none => simp [Url.HasDefaultPort, Url.effectivePort]
      | some p => simp [Url.HasDefaultPort, Url.effectivePort]
  have hweb' : u'.IsWeb := by
    rw [Url.IsWeb, ← hscheme]
    exact hweb
  rw [hkept u hweb, hkept u' hweb', hport, hscheme]

/-- Everything but the host being equal, the canonical forms are equal exactly if
the hosts are. -/
theorem canonical_eq_iff {policyHosts : List String} {policySub : Bool} {policyPaths : List String}
    (hchecked : Indexing.Checked policyHosts policySub policyPaths u name)
    (hchecked' : Indexing.Checked policyHosts policySub policyPaths u' name')
    (hscheme : u.scheme = u'.scheme) (hport : u.effectivePort = u'.effectivePort)
    (hpath : u.path = u'.path) (hquery : u.query = u'.query) :
    u.canonical = u'.canonical ↔ u.host = u'.host := by
  have hports := canonical_port_eq hchecked.web hscheme hport
  rw [Url.canonical_eq, Url.canonical_eq] at hports ⊢
  constructor
  · intro h
    have hhost := congrArg Url.host h
    exact hhost
  · intro hhost
    rw [Url.mk.injEq]
    exact ⟨hscheme, hchecked.base.trans hchecked'.base.symm,
      (String.isEmpty_iff.mp hchecked.username).trans (String.isEmpty_iff.mp hchecked'.username).symm,
      hchecked.password.trans hchecked'.password.symm, hhost, hports, hpath, hquery, rfl⟩

/-- **Two spellings of one page have one canonical URL exactly if their hosts end
with the same number of dots.**  `normalize_host` removes these dots for the
comparison with the allowed hosts only.  So in every store that a run of requests
reaches, pages of a source under the two canonical URLs are one page exactly in
that case. -/
theorem canonicalize_shared_iff (hurl : x.UrlLaws)
    (h : Indexing.canonicalize x rawUrl allowedHosts includeSubdomains allowedPathPrefixes = .ok s)
    (h' : Indexing.canonicalize x rawUrl' allowedHosts includeSubdomains allowedPathPrefixes
      = .ok s')
    (hparse : x.urlParse rawUrl = .ok u) (hparse' : x.urlParse rawUrl' = .ok u')
    (hscheme : u.scheme = u'.scheme) (hport : u.effectivePort = u'.effectivePort)
    (hpath : u.path = u'.path) (hquery : u.query = u'.query)
    (hhost : u.host = some (.domain name)) (hhost' : u'.host = some (.domain name'))
    (hsame : Indexing.normalizeHost name.toList = Indexing.normalizeHost name'.toList) :
    (s = s' ↔ trailingDots name.toList = trailingDots name'.toList) ∧
    (x.Lawful → ∀ calls, ∀ p ∈ (after x calls Db.empty).pages,
      ∀ p' ∈ (after x calls Db.empty).pages, p.tenantId = p'.tenantId → p.sourceId = p'.sourceId →
        p.canonicalUrl = s → p'.canonicalUrl = s' →
        (p = p' ↔ trailingDots name.toList = trailingDots name'.toList)) := by
  have hurls : s = s' ↔ trailingDots name.toList = trailingDots name'.toList := by
    obtain ⟨v, n, hv, hchecked, rfl⟩ := Indexing.canonicalize_ok_iff.mp h
    obtain rfl := Except.ok.inj (hparse.symm.trans hv)
    obtain ⟨v', n', hv', hchecked', rfl⟩ := Indexing.canonicalize_ok_iff.mp h'
    obtain rfl := Except.ok.inj (hparse'.symm.trans hv')
    rw [← domain_inj_iff hurl hparse hparse' hchecked.web hchecked'.web hhost hhost' hsame,
      ← canonical_eq_iff hchecked hchecked' hscheme hport hpath hquery]
    constructor
    · intro hprint
      have hreparse := Indexing.canonical_reparse hurl hparse hchecked.web
      rw [hprint, Indexing.canonical_reparse hurl hparse' hchecked'.web] at hreparse
      exact (Except.ok.inj hreparse).symm
    · intro hcanonical
      rw [hcanonical]
  refine ⟨hurls, fun hx calls p hp p' hp' htenant hsource hps hps' => ?_⟩
  rw [← hurls, ← hps, ← hps']
  constructor
  · intro hpages
    rw [hpages]
  · intro hpages
    have hwf : Wf x (after x calls Db.empty) := (reaches_after calls).wf hx
    exact hwf.valid.page_eq_of_url hp hp' (decide_eq_true ⟨htenant, hsource, hpages⟩)

end Shared

open Scenario in
/-- The host of the page with a trailing dot: it is admitted as the same host, and
the page gets a second row. -/
theorem canonicalize_splits_page :
    spellings.UrlLaws ∧
    ¬ (∀ (allowedHosts : List String) (includeSubdomains : Bool)
      (allowedPathPrefixes : List String) (rawUrl rawUrl' s s' name name' : String) (u u' : Url),
      Indexing.canonicalize spellings rawUrl allowedHosts includeSubdomains allowedPathPrefixes
        = .ok s →
      Indexing.canonicalize spellings rawUrl' allowedHosts includeSubdomains allowedPathPrefixes
        = .ok s' →
      spellings.urlParse rawUrl = .ok u → spellings.urlParse rawUrl' = .ok u' →
      u.scheme = u'.scheme → u.effectivePort = u'.effectivePort → u.path = u'.path →
      u.query = u'.query → u.host = some (.domain name) → u'.host = some (.domain name') →
      Indexing.normalizeHost name.toList = Indexing.normalizeHost name'.toList → s = s') ∧
    ((after spellings [createSource, fetchUrl 30 "https://example.com/a",
        fetchUrl 40 "https://example.com./a"] Db.empty).pages.map fun p =>
      (p.tenantId, p.sourceId, p.canonicalUrl))
      = [(1, 10, "https://example.com/a"), (1, 10, "https://example.com./a")] := by
  refine ⟨spellings_urlLaws, fun hall => ?_, by decide⟩
  have hsame : "https://example.com/a" = "https://example.com./a" :=
    hall ["example.com"] false ["/"] "https://example.com/a" "https://example.com./a" _ _
      "example.com" "example.com." (url "/a") { url "/a" with host := some (.domain "example.com.") }
      (by decide) (by decide) (by decide) (by decide) rfl rfl rfl rfl
      rfl rfl (by decide)
  exact absurd hsame (by decide)

open Scenario in
/-- Two spellings of the page without a trailing dot. -/
theorem canonicalize_shared_iff_spelling :
    trailingDots "example.com".toList = 0 ∧
    ∀ s s', Indexing.canonicalize spellings "https://example.com/a" ["example.com"] false ["/"]
        = .ok s →
      Indexing.canonicalize spellings "https://EXAMPLE.com:443/a#top" ["example.com"] false ["/"]
        = .ok s' → s = s' := by
  refine ⟨by decide, fun s s' h h' => ?_⟩
  have hparse : spellings.urlParse "https://example.com/a" = .ok (url "/a") := by decide
  have hparse' : spellings.urlParse "https://EXAMPLE.com:443/a#top"
      = .ok { url "/a" with fragment := some "top" } := by decide
  have hhost : (url "/a").host = some (.domain "example.com") := rfl
  exact (canonicalize_shared_iff spellings_urlLaws h h' hparse hparse' rfl rfl rfl rfl hhost hhost
    rfl).1.mpr rfl

end EmbeddedAlerts
