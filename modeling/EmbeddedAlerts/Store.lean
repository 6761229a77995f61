import EmbeddedAlerts.Identity
import Mathlib.Data.List.Sort

/-!
# Sources, pages, search and historical evaluation

`src/store.rs`.  Every function is one statement, or a loop of statements, each
committed on its own.

`ingestPage` is a single statement with six `WITH` parts.  They are written out
in order: a part that joins a table reads the `snapshot`, a part that writes one
works on `current`, and parts see each other only through what `RETURNING` hands
on.  The last part updates the page row that the first part has just written, so
`updateUnwritten` passes over it.

`searchEmbeddings` computes its distances on the spot; a NaN cannot be decoded
from the JSON that carries it, so a row that has one makes the request fail
(`SearchWire.intoRecord`).  A number is what is read of it (`Platform.jsonDouble`):
the similarity that a candidate is stored with, and once more the numbers of a
candidate when its row is returned (`matchCandidate`).
-/

namespace EmbeddedAlerts

open Sql

namespace Store

/-! ### Sources -/

/-- `ORDER BY updated_at DESC, id ASC`. -/
def newestFirst (a b : SourceRow) : Prop :=
  b.updatedAt < a.updatedAt ∨ (a.updatedAt = b.updatedAt ∧ a.id ≤ b.id)

instance (a b : SourceRow) : Decidable (newestFirst a b) := by
  unfold newestFirst
  infer_instance

/-- `list_sources`. -/
def listSources (tenantId : Uuid) : Api (List SourcePolicy) :=
  Action.query fun db =>
    ((db.sources.filter fun s => decide (s.tenantId = tenantId)).insertionSort newestFirst).take 500

/-- `get_source`. -/
def getSource (tenantId sourceId : Uuid) : Api (Option SourcePolicy) :=
  Action.query fun db =>
    db.sources.find? fun s => decide (s.tenantId = tenantId ∧ s.id = sourceId)

/-- The row `create_source` inserts. -/
def newSource (now : Timestamp) (id tenantId : Uuid) (input : CreateSourcePolicy)
    (canonicalRootUrl : String) : SourceRow where
  id := id
  tenantId := tenantId
  name := input.name
  rootUrl := canonicalRootUrl
  allowedHosts := input.allowedHosts
  allowedPathPrefixes := input.allowedPathPrefixes
  includeSubdomains := input.includeSubdomains
  discoveryModes := input.discoveryModes
  crawlIntervalSeconds := input.crawlIntervalSeconds
  maxDepth := input.maxDepth
  maxPagesPerRun := input.maxPagesPerRun
  obeyRobots := input.obeyRobots
  enabled := input.enabled
  createdAt := now
  updatedAt := now

/-- The statement of `create_source`. -/
def insertSource (row : SourceRow) : Statement Db (Option SourceRow) := fun _ current => do
  let (inserted, sources) ← sourcesTable.insertOrNothing SourceRow.sameRoot current
    current.sources row
  return (inserted, { current with sources := sources })

/-- `create_source`. -/
def createSource (now : Timestamp) (id tenantId : Uuid) (input : CreateSourcePolicy)
    (canonicalRootUrl : String) : Api SourcePolicy := do
  let row ← execute (insertSource (newSource now id tenantId input canonicalRootUrl))
  Action.okOr (.conflict "a source with this canonical root URL already exists") row

/-! ### Page ingestion -/

structure PageRevision where
  pageId : Uuid
  revisionId : Uuid
  embeddingId : Uuid
  sourceId : Uuid
  tenantId : Uuid
  canonicalUrl : String
  contentSha256 : String
  changed : Bool
  fetchedAt : Timestamp
deriving DecidableEq

/-- The hash of the normalized content. -/
def contentSha256 (x : Platform) (contentText : String) : String :=
  sha256Hex x (Text.utf8 (normalizeContent contentText).toList)

/-- `NULLIF(title, '')`, where an absent title was sent as the empty string. -/
def nullIfEmpty (title : Option String) : Option String :=
  title.filter fun t => decide (t ≠ "")

/-- The page row of `upserted_page`. -/
def newPage (now : Timestamp) (id tenantId sourceId : Uuid) (canonicalFinalUrl : String)
    (fetchedAt : Timestamp) : PageRow where
  id := id
  tenantId := tenantId
  sourceId := sourceId
  canonicalUrl := canonicalFinalUrl
  firstSeenAt := fetchedAt
  lastSeenAt := fetchedAt
  latestRevisionId := none
  createdAt := now
  updatedAt := now

/-- `DO UPDATE SET last_seen_at = EXCLUDED.last_seen_at, updated_at = now()`. -/
def seenAgain (now fetchedAt : Timestamp) (page : PageRow) : PageRow :=
  { page with lastSeenAt := fetchedAt, updatedAt := now }

/-- `SET latest_revision_id = .., last_seen_at = .., updated_at = now()`. -/
def setLatest (now fetchedAt : Timestamp) (revisionId : Uuid) (page : PageRow) : PageRow :=
  { page with latestRevisionId := some revisionId, lastSeenAt := fetchedAt, updatedAt := now }

/-- The row of `inserted_revision`. -/
def newPageRevision (x : Platform) (now : Timestamp) (id tenantId pageId : Uuid)
    (predecessor : Option Uuid) (input : PageIngestRequest) (originalUrl finalUrl : String) :
    PageRevisionRow where
  id := id
  tenantId := tenantId
  pageId := pageId
  predecessorRevisionId := predecessor
  originalUrl := originalUrl
  finalUrl := finalUrl
  title := nullIfEmpty input.title
  contentText := normalizeContent input.contentText
  contentSha256 := contentSha256 x input.contentText
  contentType := input.contentType
  httpStatus := input.httpStatus
  publishedAt := input.publishedAt.map DateTime.timestamptz
  fetchedAt := input.fetchedAt.timestamptz
  createdAt := now

/-- The row of `inserted_embedding`. -/
def newEmbedding (now : Timestamp) (id tenantId revisionId : Uuid) (input : PageIngestRequest) :
    EmbeddingRow where
  id := id
  tenantId := tenantId
  revisionId := revisionId
  space := input.embedding.toModelSpace
  embedding := input.embedding.values
  generatedAt := input.fetchedAt.timestamptz
  createdAt := now

/-- The second branch of `selected_revision`. -/
def knownRevision (tenantId pageId : Uuid) (contentSha256 : String) (r : PageRevisionRow) : Bool :=
  decide (r.pageId = pageId ∧ r.tenantId = tenantId ∧ r.contentSha256 = contentSha256)

/-- The second branch of `selected_embedding`. -/
def knownEmbedding (tenantId revisionId : Uuid) (space : ModelSpace) (e : EmbeddingRow) : Bool :=
  decide (e.revisionId = revisionId ∧ e.tenantId = tenantId ∧ e.space = space)

/-- `inserted_revision` and `selected_revision`.  The insert reads the page it is
for, as `current_page`, from the snapshot. -/
def selectRevision (x : Platform) (now : Timestamp) (id tenantId pageId : Uuid)
    (input : PageIngestRequest) (originalUrl finalUrl : String) :
    Statement Db (Option (PageRevisionRow × Bool)) := fun snapshot current => do
  let known := knownRevision tenantId pageId (contentSha256 x input.contentText)
  match snapshot.pages.find? fun p => decide (p.id = pageId) with
  | none => return ((snapshot.pageRevisions.find? known).map fun r => (r, false), current)
  | some currentPage =>
    let (revision, rows) ← pageRevisionsTable.insertOrSelect PageRevisionRow.sameContent known
      current snapshot.pageRevisions current.pageRevisions
      (newPageRevision x now id tenantId pageId currentPage.latestRevisionId input
        originalUrl finalUrl)
    return (revision, { current with pageRevisions := rows })

/-- `inserted_embedding` and `selected_embedding`. -/
def selectEmbedding (now : Timestamp) (id tenantId : Uuid)
    (revision : Option (PageRevisionRow × Bool)) (input : PageIngestRequest) :
    Statement Db (Option EmbeddingRow) := fun snapshot current => do
  match revision with
  | none => return (none, current)
  | some (revision, _) =>
    let (embedding, rows) ← embeddingsTable.insertOrSelect EmbeddingRow.sameSpace
      (knownEmbedding tenantId revision.id input.embedding.toModelSpace)
      current snapshot.embeddings current.embeddings
      (newEmbedding now id tenantId revision.id input)
    return (embedding.map Prod.fst, { current with embeddings := rows })

/-- `updated_page`, beside `upserted_page`, which has written the row `pageId`. -/
def updatedPage (now : Timestamp) (pageId : Uuid) (revision : Option (PageRevisionRow × Bool))
    (input : PageIngestRequest) : Statement Db (List PageRow) := fun snapshot current => do
  match revision with
  | none => return ([], current)
  | some (revision, _) =>
    let (updated, pages) := updateUnwritten PageRow.id [pageId] (fun p => decide (p.id = pageId))
      (setLatest now input.fetchedAt.timestamptz revision.id) snapshot.pages current.pages
    if !updated.all (pagesTable.refs current) then
      throw .foreignKeyViolation
    return (updated, { current with pages := pages })

/-- The statement of `ingest_page`; `ids 0`, `ids 1` and `ids 2` are the defaults
of the page, the revision and the embedding. -/
def ingestPageStatement (x : Platform) (now : Timestamp) (ids : ℕ → Uuid)
    (tenantId sourceId : Uuid) (input : PageIngestRequest)
    (canonicalOriginalUrl canonicalFinalUrl : String) : Statement Db (Option PageRevision) :=
  fun snapshot current => do
    let (page, pages) ← pagesTable.insertOrUpdate PageRow.sameUrl
      (seenAgain now input.fetchedAt.timestamptz) current current.pages
      (newPage now (ids 0) tenantId sourceId canonicalFinalUrl input.fetchedAt.timestamptz)
    let current := { current with pages := pages }
    let (revision, current) ← selectRevision x now (ids 1) tenantId page.id input
      canonicalOriginalUrl canonicalFinalUrl snapshot current
    let (embedding, current) ← selectEmbedding now (ids 2) tenantId revision input snapshot current
    let (updated, current) ← updatedPage now page.id revision input snapshot current
    let row := do
      let page ← updated.head?
      let (revision, changed) ← revision
      let embedding ← embedding
      return {
        pageId := page.id
        revisionId := revision.id
        embeddingId := embedding.id
        sourceId := sourceId
        tenantId := tenantId
        canonicalUrl := canonicalFinalUrl
        contentSha256 := contentSha256 x input.contentText
        changed := changed
        fetchedAt := input.fetchedAt.timestamptz }
    return (row, current)

/-- `ingest_page`. -/
def ingestPage (x : Platform) (now : Timestamp) (ids : ℕ → Uuid) (tenantId sourceId : Uuid)
    (input : PageIngestRequest) (canonicalOriginalUrl canonicalFinalUrl : String) :
    Api PageRevision := do
  let row ← execute (ingestPageStatement x now ids tenantId sourceId input canonicalOriginalUrl
    canonicalFinalUrl)
  Action.okOr (.internal "page ingestion returned no durable record") row

/-! ### Search -/

/-- A row of the search statement, before it is decoded. -/
structure SearchWire where
  embeddingId : Uuid
  revisionId : Uuid
  pageId : Uuid
  sourceId : Uuid
  canonicalUrl : String
  contentSha256 : String
  title : Option String
  excerpt : String
  similarity : Float8
  distance : Float8
  space : ModelSpace
  fetchedAt : Timestamp
deriving DecidableEq

structure EmbeddingSearchHit where
  embeddingId : Uuid
  revisionId : Uuid
  pageId : Uuid
  sourceId : Uuid
  canonicalUrl : String
  title : Option String
  excerpt : String
  similarity : ℚ
  distance : ℚ
  space : ModelSpace
  fetchedAt : Timestamp
deriving DecidableEq

structure SearchRecord where
  hit : EmbeddingSearchHit
  contentSha256 : String
deriving DecidableEq

structure EmbeddingSearchResponse where
  hits : List EmbeddingSearchHit
  nextCursor : Option SearchCursor
deriving DecidableEq

structure SearchPage where
  response : EmbeddingSearchResponse
  records : List SearchRecord
deriving DecidableEq

/-- `decode_json_row` and `SearchWire::into_record`. -/
def SearchWire.intoRecord (x : Platform) (self : SearchWire) : Except HttpError SearchRecord :=
  match self.similarity, self.distance with
  | some similarity, some distance => .ok {
      contentSha256 := self.contentSha256
      hit := {
        embeddingId := self.embeddingId
        revisionId := self.revisionId
        pageId := self.pageId
        sourceId := self.sourceId
        canonicalUrl := self.canonicalUrl
        title := self.title
        excerpt := self.excerpt
        similarity := x.jsonDouble similarity
        distance := x.jsonDouble distance
        space := self.space
        fetchedAt := self.fetchedAt } }
  | _, _ => .error (.internal "invalid type: string, expected f64")

/-- One row of `ranked`, with the `similarity` that `filtered` adds. -/
def searchWire (x : Platform) (request : EmbeddingSearchRequest) (embedding : EmbeddingRow)
    (revision : PageRevisionRow) (page : PageRow) : SearchWire :=
  let distance := x.cosineDistance embedding.embedding request.embedding.values
  { embeddingId := embedding.id
    revisionId := revision.id
    pageId := page.id
    sourceId := page.sourceId
    canonicalUrl := page.canonicalUrl
    contentSha256 := revision.contentSha256
    title := revision.title
    excerpt := String.ofList (revision.contentText.toList.take 600)
    similarity := distance.oneMinus
    distance := distance
    space := embedding.space
    fetchedAt := revision.fetchedAt }

/-- `ranked`. -/
def ranked (x : Platform) (tenantId : Uuid) (request : EmbeddingSearchRequest) (db : Db) :
    List SearchWire :=
  (db.embeddings.filter fun e =>
      decide (e.tenantId = tenantId ∧ e.space = request.embedding.toModelSpace)).flatMap fun e =>
    (db.pageRevisions.filter fun r =>
        decide (r.id = e.revisionId ∧ r.tenantId = e.tenantId)).flatMap fun r =>
      (db.pages.filter fun p =>
          decide (p.id = r.pageId ∧ p.tenantId = r.tenantId)
            && (request.sourceIds.isEmpty || request.sourceIds.contains p.sourceId)).map
        (searchWire x request e r)

/-- `WHERE 1.0 - distance >= $7`. -/
def similarEnough (request : EmbeddingSearchRequest) (wire : SearchWire) : Bool :=
  decide ((request.minSimilarity.val : Float8) ≤ wire.similarity)

/-- `distance > $d OR (distance = $d AND embedding_id > $e)`. -/
def afterCursor (cursor : Option SearchCursor) (wire : SearchWire) : Bool :=
  cursor.all fun c => decide ((c.distance : Float8) < wire.distance ∨
    (wire.distance = (c.distance : Float8) ∧ c.embeddingId < wire.embeddingId))

/-- `ORDER BY distance ASC, embedding_id ASC`. -/
def nearestFirst (a b : SearchWire) : Prop :=
  a.distance < b.distance ∨ (a.distance = b.distance ∧ a.embeddingId ≤ b.embeddingId)

instance (a b : SearchWire) : Decidable (nearestFirst a b) := by
  unfold nearestFirst
  infer_instance

/-- The rows the search statement returns. -/
def searchRows (x : Platform) (tenantId : Uuid) (request : EmbeddingSearchRequest) (db : Db) :
    List SearchWire :=
  ((((ranked x tenantId request db).filter (similarEnough request)).filter
    (afterCursor request.cursor)).insertionSort nearestFirst).take (request.limit + 1)

/-- `search_embeddings`. -/
def searchEmbeddings (x : Platform) (tenantId : Uuid) (request : EmbeddingSearchRequest) :
    Api SearchPage := do
  let rows ← Action.query (searchRows x tenantId request)
  let records ← Action.ofExcept (rows.mapM (SearchWire.intoRecord x))
  let hasMore := decide (records.length > request.limit)
  let records := if hasMore then records.take request.limit else records
  let nextCursor := if hasMore then
      records.getLast?.map fun record => ⟨record.hit.distance, record.hit.embeddingId⟩
    else none
  return { response := { hits := records.map SearchRecord.hit, nextCursor }, records }

/-! ### Historical evaluation -/

/-- A candidate is read back from its row. -/
abbrev MatchCandidate := MatchCandidateRow

/-- The identity `evaluate_matches` hashes for a record. -/
def matchIdentity (tenantId alertRuleId alertRuleRevisionId : Uuid) (record : SearchRecord) :
    MatchIdentity where
  toModelSpace := record.hit.space
  tenantId := tenantId
  alertRuleId := alertRuleId
  alertRuleRevisionId := alertRuleRevisionId
  pageRevisionId := record.hit.revisionId
  contentSha256 := record.contentSha256

/-- The row `evaluate_matches` offers for a record. -/
def newCandidate (x : Platform) (now : Timestamp) (id tenantId alertRuleId alertRuleRevisionId : Uuid)
    (threshold : ℚ) (record : SearchRecord) : MatchCandidateRow where
  id := id
  tenantId := tenantId
  alertRuleId := alertRuleId
  alertRuleRevisionId := some alertRuleRevisionId
  revisionId := record.hit.revisionId
  embeddingId := some record.hit.embeddingId
  matchMode := .historicalPageSearch
  alertEmbeddingId := none
  pageEmbeddingSha256 := none
  pageEmbeddingSpace := none
  canonicalMatchKey := matchKey x (matchIdentity tenantId alertRuleId alertRuleRevisionId record)
  similarity := record.hit.similarity
  threshold := threshold
  status := .pending
  scoreExplanation := {
    matchMode := none
    semanticSimilarity := record.hit.similarity
    threshold := threshold
    alertRuleRevisionId := alertRuleRevisionId
    pageRevisionId := record.hit.revisionId
    space := record.hit.space
    canonicalUrl := record.hit.canonicalUrl
    contentSha256 := record.contentSha256
    pageEmbeddingSha256 := none
    pageVectorPersisted := none }
  createdAt := now
  updatedAt := now

/-- The second branch of `selected`: the stored row with the values of `row`. -/
def sameHistorical (row candidate : MatchCandidateRow) : Bool :=
  decide (candidate.tenantId = row.tenantId ∧ candidate.alertRuleId = row.alertRuleId ∧
    candidate.alertRuleRevisionId = row.alertRuleRevisionId ∧
    candidate.revisionId = row.revisionId ∧ candidate.embeddingId = row.embeddingId ∧
    candidate.canonicalMatchKey = row.canonicalMatchKey)

/-- The statement of `evaluate_matches`. -/
def upsertMatch (row : MatchCandidateRow) : Statement Db (Option (MatchCandidateRow × Bool)) :=
  fun snapshot current => do
    let (selected, rows) ← matchCandidatesTable.insertOrSelect MatchCandidateRow.sameMatchKey
      (sameHistorical row) current snapshot.matchCandidates current.matchCandidates row
    return (selected, { current with matchCandidates := rows })

/-- `decode_json_row` of `row_to_json(selected)`. -/
def matchCandidate (x : Platform) (row : MatchCandidateRow) : MatchCandidate :=
  { row with
    similarity := x.jsonDouble row.similarity
    threshold := x.jsonDouble row.threshold
    scoreExplanation := { row.scoreExplanation with
      semanticSimilarity := x.jsonDouble row.scoreExplanation.semanticSimilarity
      threshold := x.jsonDouble row.scoreExplanation.threshold } }

/-- One turn of the loop of `evaluate_matches`. -/
def evaluateRecord (x : Platform) (clock : ℕ → Timestamp) (ids : ℕ → Uuid)
    (tenantId alertRuleId alertRuleRevisionId : Uuid) (threshold : ℚ)
    (record : SearchRecord × ℕ) : Api MatchCandidate := do
  let row ← execute (upsertMatch (newCandidate x (clock record.2) (ids record.2) tenantId
    alertRuleId alertRuleRevisionId threshold record.1))
  let (row, _) ← Action.okOr (.internal "match upsert returned no durable record") row
  return matchCandidate x row

/-- `evaluate_matches`; the `n`-th record is written at `clock n`, with `ids n` as
the default of its row. -/
def evaluateMatches (x : Platform) (clock : ℕ → Timestamp) (ids : ℕ → Uuid)
    (tenantId alertRuleId alertRuleRevisionId : Uuid) (threshold : ℚ)
    (search : EmbeddingSearchRequest) : Api (List MatchCandidate) := do
  let search := { search with
    minSimilarity := F32.max search.minSimilarity (F32.ofRat threshold) }
  let page ← searchEmbeddings x tenantId search
  Action.forEach
    (evaluateRecord x clock ids tenantId alertRuleId alertRuleRevisionId threshold)
    page.records.zipIdx

end Store

end EmbeddedAlerts
