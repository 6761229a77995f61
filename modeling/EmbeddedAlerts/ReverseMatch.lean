import EmbeddedAlerts.Store
import EmbeddedAlerts.SourceScope

/-!
# Reverse matching

`src/reverse_match.rs`: a page comes in with its vector, the vector is compared
with the stored embeddings of the active rules, and every rule it reaches gets a
candidate.  The page vector itself is not stored; a candidate keeps its
fingerprint and its model space instead.

`ingestAndReverseMatch` is one transaction: an error in any candidate undoes the
page, its revision and the candidates before it.
-/

namespace EmbeddedAlerts

open Sql

namespace ReverseMatch

def maxCandidatesLimit : ℕ := 500

structure AlertRuleEmbeddingUpsertRequest where
  alertRuleRevisionId : Uuid
  embedding : EmbeddingPayload
deriving DecidableEq

structure AlertRuleEmbeddingReceipt where
  id : Uuid
  alertRuleId : Uuid
  alertRuleRevisionId : Uuid
  embeddingSha256 : String
  created : Bool
deriving DecidableEq

/-- The fields of a `PageIngestRequest`, and how many rules it may reach. -/
structure ReverseAlertPageRequest extends PageIngestRequest where
  maxCandidates : UInt16
deriving DecidableEq

/-- `ReverseAlertPageRequest::validate`. -/
def ReverseAlertPageRequest.validate (x : Platform) (self : ReverseAlertPageRequest) :
    Except String Unit := do
  x.validatePage self.toPageIngestRequest
  if !decide (1 ≤ self.maxCandidates.toNat ∧ self.maxCandidates.toNat ≤ maxCandidatesLimit) then
    throw ("max_candidates must be between 1 and " ++ maxCandidatesLimit.repr)

structure ReverseAlertCandidate where
  id : Uuid
  alertRuleId : Uuid
  alertRuleRevisionId : Option Uuid
  pageRevisionId : Uuid
  alertEmbeddingId : Option Uuid
  similarity : ℚ
  threshold : ℚ
  canonicalMatchKey : String
deriving DecidableEq

structure ReverseAlertMatchResponse where
  pageId : Uuid
  pageRevisionId : Uuid
  contentSha256 : String
  changed : Bool
  pageVectorPersisted : Bool
  candidates : List ReverseAlertCandidate
deriving DecidableEq

structure PageWire where
  pageId : Uuid
  pageRevisionId : Uuid
  contentSha256 : String
  changed : Bool
deriving DecidableEq

structure CandidateWire where
  alertRuleId : Uuid
  alertRuleRevisionId : Uuid
  alertEmbeddingId : Uuid
  similarity : ℚ
  threshold : ℚ
deriving DecidableEq

/-! ### Embeddings of alert rules -/

/-- `target`: the rule, if `revisionId` is its own active revision, enabled, and
for this model. -/
def target (tenantId alertRuleId revisionId : Uuid) (model : String) (db : Db) :
    Option (AlertRuleRow × AlertRuleRevisionRow) :=
  ((db.alertRules.filter fun rule =>
      decide (rule.tenantId = tenantId ∧ rule.id = alertRuleId)).flatMap fun rule =>
    (db.alertRuleRevisions.filter fun revision =>
      decide (revision.tenantId = rule.tenantId ∧ some revision.id = rule.activeRevisionId ∧
        revision.alertRuleId = rule.id ∧ revision.id = revisionId ∧ revision.enabled = true ∧
        revision.embeddingModel = model)).map fun revision => (rule, revision)).head?

/-- The row of `inserted`. -/
def newAlertEmbedding (x : Platform) (now : Timestamp) (id tenantId alertRuleId revisionId : Uuid)
    (embedding : EmbeddingPayload) : AlertRuleEmbeddingRow where
  id := id
  tenantId := tenantId
  alertRuleId := alertRuleId
  alertRuleRevisionId := revisionId
  space := embedding.toModelSpace
  embedding := embedding.values
  embeddingSha256 := embeddingSha256 x embedding.values
  generatedAt := now
  createdAt := now

/-- The second branch of `selected`. -/
def sameAlertEmbedding (row e : AlertRuleEmbeddingRow) : Bool :=
  decide (e.alertRuleRevisionId = row.alertRuleRevisionId ∧ e.alertRuleId = row.alertRuleId ∧
    e.tenantId = row.tenantId ∧ e.space = row.space)

/-- The statement of `upsert_alert_rule_embedding`.  Both branches of `selected`
need the `target`, which is read from the snapshot. -/
def upsertAlertRuleEmbeddingStatement (x : Platform) (now : Timestamp)
    (id tenantId alertRuleId : Uuid) (request : AlertRuleEmbeddingUpsertRequest) :
    Statement Db (Option (AlertRuleEmbeddingRow × Bool)) := fun snapshot current =>
  match target tenantId alertRuleId request.alertRuleRevisionId request.embedding.model snapshot with
  | none => .ok (none, current)
  | some (rule, revision) => do
    let row := newAlertEmbedding x now id tenantId rule.id revision.id request.embedding
    let (selected, rows) ← alertRuleEmbeddingsTable.insertOrSelect AlertRuleEmbeddingRow.sameSpace
      (sameAlertEmbedding row) current snapshot.alertRuleEmbeddings current.alertRuleEmbeddings row
    return (selected, { current with alertRuleEmbeddings := rows })

/-- `upsert_alert_rule_embedding`. -/
def upsertAlertRuleEmbedding (x : Platform) (now : Timestamp) (id tenantId alertRuleId : Uuid)
    (request : AlertRuleEmbeddingUpsertRequest) : Api AlertRuleEmbeddingReceipt := do
  Action.ofExcept ((x.validateEmbedding request.embedding).mapError .validation)
  let row ← execute (upsertAlertRuleEmbeddingStatement x now id tenantId alertRuleId request)
  let (wire, created) ← Action.okOr (.validation
    "alert embedding must target the enabled active rule revision and its configured model") row
  Action.ensure (wire.embeddingSha256 = embeddingSha256 x request.embedding.values) (.conflict
    "an immutable embedding already exists for this alert revision and model space")
  return {
    id := wire.id
    alertRuleId := wire.alertRuleId
    alertRuleRevisionId := wire.alertRuleRevisionId
    embeddingSha256 := wire.embeddingSha256
    created := created }

/-! ### The page -/

/-- The hash of the normalized content. -/
def contentSha256 (x : Platform) (contentText : String) : String :=
  sha256Hex x (Text.utf8 (normalizeContent contentText).toList)

/-- The first statement of `upsert_page_revision`.  Its `inserted_revision` takes
the predecessor from what `upserted_page` returns, not from the snapshot. -/
def upsertPageRevisionStatement (x : Platform) (now : Timestamp) (ids : ℕ → Uuid)
    (tenantId sourceId : Uuid) (request : ReverseAlertPageRequest)
    (canonicalOriginalUrl canonicalFinalUrl : String) : Statement Db (Option PageWire) :=
  fun snapshot current => do
    let (page, pages) ← pagesTable.insertOrUpdate PageRow.sameUrl
      (Store.seenAgain now request.fetchedAt.timestamptz) current current.pages
      (Store.newPage now (ids 0) tenantId sourceId canonicalFinalUrl request.fetchedAt.timestamptz)
    let current := { current with pages := pages }
    let (revision, rows) ← pageRevisionsTable.insertOrSelect PageRevisionRow.sameContent
      (Store.knownRevision tenantId page.id (contentSha256 x request.contentText))
      current snapshot.pageRevisions current.pageRevisions
      (Store.newPageRevision x now (ids 1) tenantId page.id page.latestRevisionId
        request.toPageIngestRequest canonicalOriginalUrl canonicalFinalUrl)
    return (revision.map fun (revision, changed) => {
        pageId := page.id
        pageRevisionId := revision.id
        contentSha256 := contentSha256 x request.contentText
        changed := changed },
      { current with pageRevisions := rows })

/-- The second statement of `upsert_page_revision`. -/
def setLatestRevision (now fetchedAt : Timestamp) (tenantId : Uuid) (page : PageWire) :
    Statement Db Unit := fun _ current =>
  let hit (p : PageRow) : Bool := decide (p.tenantId = tenantId ∧ p.id = page.pageId)
  let set := Store.setLatest now fetchedAt page.pageRevisionId
  if (current.pages.filter hit).all fun p => pagesTable.refs current (set p) then
    .ok ((), { current with pages := current.pages.map fun p => if hit p then set p else p })
  else .error .foreignKeyViolation

/-- `upsert_page_revision`. -/
def upsertPageRevision (x : Platform) (now : Timestamp) (ids : ℕ → Uuid)
    (tenantId sourceId : Uuid) (request : ReverseAlertPageRequest)
    (canonicalOriginalUrl canonicalFinalUrl : String) : Api PageWire := do
  let row ← execute (upsertPageRevisionStatement x now ids tenantId sourceId request
    canonicalOriginalUrl canonicalFinalUrl)
  let page ← Action.okOr
    (.internal "transient page ingestion returned no durable revision") row
  execute (setLatestRevision now request.fetchedAt.timestamptz tenantId page)
  return page

/-! ### The rules a page reaches -/

/-- `jsonb_array_length(source_filters) = 0 OR source_filters ? ('source:' || $2::uuid::text)`. -/
def inScope (revision : AlertRuleRevisionRow) (sourceId : Uuid) : Bool :=
  revision.sourceFilters.isEmpty
    || revision.sourceFilters.contains (SourceScope.canonicalFilter sourceId)

/-- A row of `find_alert_candidates`, before it is decoded, with its distance. -/
structure AlertDistance where
  alertRuleId : Uuid
  alertRuleRevisionId : Uuid
  alertEmbeddingId : Uuid
  distance : Float8
  threshold : ℚ
deriving DecidableEq

/-- `ORDER BY embedding.embedding <=> CAST($7 AS vector), embedding.id`. -/
def nearestFirst (a b : AlertDistance) : Prop :=
  a.distance < b.distance ∨ (a.distance = b.distance ∧ a.alertEmbeddingId ≤ b.alertEmbeddingId)

instance (a b : AlertDistance) : Decidable (nearestFirst a b) := by
  unfold nearestFirst
  infer_instance

/-- The joins and the `WHERE` of `find_alert_candidates`. -/
def reachedAlerts (x : Platform) (tenantId sourceId : Uuid) (embedding : EmbeddingPayload)
    (db : Db) : List AlertDistance :=
  (db.alertRuleEmbeddings.filter fun e =>
      decide (e.tenantId = tenantId ∧ e.space = embedding.toModelSpace)).flatMap fun e =>
    (db.alertRules.filter fun rule =>
        decide (rule.tenantId = e.tenantId ∧ rule.id = e.alertRuleId ∧
          rule.activeRevisionId = some e.alertRuleRevisionId)).flatMap fun _ =>
      (db.alertRuleRevisions.filter fun revision =>
          decide (revision.tenantId = e.tenantId ∧ revision.id = e.alertRuleRevisionId ∧
            revision.alertRuleId = e.alertRuleId ∧ revision.enabled = true ∧
            revision.embeddingModel = embedding.model ∧
            (revision.similarityThreshold.val : Float8)
              ≤ (x.cosineDistance e.embedding embedding.values).oneMinus)
          && inScope revision sourceId).map fun revision =>
        { alertRuleId := e.alertRuleId
          alertRuleRevisionId := e.alertRuleRevisionId
          alertEmbeddingId := e.id
          distance := x.cosineDistance e.embedding embedding.values
          threshold := revision.similarityThreshold.val }

/-- `decode_json_row`: a NaN cannot be decoded, and a number is what is read of it. -/
def AlertDistance.intoWire (x : Platform) (self : AlertDistance) : Except HttpError CandidateWire :=
  match self.distance.oneMinus with
  | some similarity => .ok {
      alertRuleId := self.alertRuleId
      alertRuleRevisionId := self.alertRuleRevisionId
      alertEmbeddingId := self.alertEmbeddingId
      similarity := x.jsonDouble similarity
      threshold := x.jsonDouble self.threshold }
  | none => .error (.internal "invalid type: string, expected f64")

/-- `find_alert_candidates`. -/
def findAlertCandidates (x : Platform) (tenantId sourceId : Uuid)
    (request : ReverseAlertPageRequest) : Api (List CandidateWire) := do
  let rows ← Action.query fun db =>
    ((reachedAlerts x tenantId sourceId request.embedding db).insertionSort nearestFirst).take
      request.maxCandidates.toNat
  Action.ofExcept (rows.mapM (AlertDistance.intoWire x))

/-! ### The candidates -/

/-- The identity `ingest_and_reverse_match` hashes for a candidate. -/
def matchIdentity (tenantId : Uuid) (page : PageWire) (space : ModelSpace)
    (candidate : CandidateWire) : MatchIdentity where
  toModelSpace := space
  tenantId := tenantId
  alertRuleId := candidate.alertRuleId
  alertRuleRevisionId := candidate.alertRuleRevisionId
  pageRevisionId := page.pageRevisionId
  contentSha256 := page.contentSha256

/-- The row `persist_reverse_candidate` offers. -/
def newCandidate (x : Platform) (now : Timestamp) (id tenantId : Uuid) (page : PageWire)
    (embedding : EmbeddingPayload) (canonicalFinalUrl : String) (candidate : CandidateWire) :
    MatchCandidateRow where
  id := id
  tenantId := tenantId
  alertRuleId := candidate.alertRuleId
  alertRuleRevisionId := some candidate.alertRuleRevisionId
  revisionId := page.pageRevisionId
  embeddingId := none
  matchMode := .reverseAlertStream
  alertEmbeddingId := some candidate.alertEmbeddingId
  pageEmbeddingSha256 := some (embeddingSha256 x embedding.values)
  pageEmbeddingSpace := some embedding.toModelSpace
  canonicalMatchKey := matchKey x (matchIdentity tenantId page embedding.toModelSpace candidate)
  similarity := candidate.similarity
  threshold := candidate.threshold
  status := .pending
  scoreExplanation := {
    matchMode := some .reverseAlertStream
    semanticSimilarity := candidate.similarity
    threshold := candidate.threshold
    alertRuleRevisionId := candidate.alertRuleRevisionId
    pageRevisionId := page.pageRevisionId
    space := embedding.toModelSpace
    canonicalUrl := canonicalFinalUrl
    contentSha256 := page.contentSha256
    pageEmbeddingSha256 := some (embeddingSha256 x embedding.values)
    pageVectorPersisted := some false }
  createdAt := now
  updatedAt := now

/-- The second branch of `selected`: the stored row with the evidence of `row`. -/
def sameEvidence (contentSha256 : String) (db : Db) (row existing : MatchCandidateRow) : Bool :=
  decide (existing.tenantId = row.tenantId ∧
    existing.canonicalMatchKey = row.canonicalMatchKey ∧
    existing.alertRuleId = row.alertRuleId ∧
    existing.alertRuleRevisionId = row.alertRuleRevisionId ∧
    existing.revisionId = row.revisionId ∧
    existing.matchMode = .reverseAlertStream ∧
    existing.alertEmbeddingId = row.alertEmbeddingId ∧
    existing.pageEmbeddingSha256 = row.pageEmbeddingSha256 ∧
    existing.pageEmbeddingSpace = row.pageEmbeddingSpace)
    && db.pageRevisions.any fun revision => decide (revision.tenantId = row.tenantId ∧
      revision.id = existing.revisionId ∧ revision.contentSha256 = contentSha256)

/-- The statement of `persist_reverse_candidate`. -/
def persistStatement (contentSha256 : String) (row : MatchCandidateRow) :
    Statement Db (Option (MatchCandidateRow × Bool)) := fun snapshot current => do
  let (selected, rows) ← matchCandidatesTable.insertOrSelect MatchCandidateRow.sameMatchKey
    (sameEvidence contentSha256 snapshot row) current snapshot.matchCandidates
    current.matchCandidates row
  return (selected, { current with matchCandidates := rows })

/-- `decode_json_row` of the object built from `selected`. -/
def candidateJson (x : Platform) (row : MatchCandidateRow) : ReverseAlertCandidate where
  id := row.id
  alertRuleId := row.alertRuleId
  alertRuleRevisionId := row.alertRuleRevisionId
  pageRevisionId := row.revisionId
  alertEmbeddingId := row.alertEmbeddingId
  similarity := x.jsonDouble row.similarity
  threshold := x.jsonDouble row.threshold
  canonicalMatchKey := row.canonicalMatchKey

/-- `persist_reverse_candidate`, with the key and the explanation that its caller
computes. -/
def persistReverseCandidate (x : Platform) (now : Timestamp) (id tenantId : Uuid) (page : PageWire)
    (embedding : EmbeddingPayload) (canonicalFinalUrl : String) (candidate : CandidateWire) :
    Api ReverseAlertCandidate := do
  let row ← execute (persistStatement page.contentSha256
    (newCandidate x now id tenantId page embedding canonicalFinalUrl candidate))
  let (row, _) ← Action.okOr
    (.conflict "canonical match identity exists with different evidence") row
  return candidateJson x row

/-- The transaction of `ingest_and_reverse_match`; `ids 0` and `ids 1` are the
defaults of the page and its revision, `ids (n + 2)` that of the `n`-th
candidate. -/
def reverseTransaction (x : Platform) (now : Timestamp) (ids : ℕ → Uuid)
    (tenantId sourceId : Uuid) (request : ReverseAlertPageRequest)
    (canonicalOriginalUrl canonicalFinalUrl : String) : Api ReverseAlertMatchResponse := do
  let page ← upsertPageRevision x now ids tenantId sourceId request canonicalOriginalUrl
    canonicalFinalUrl
  let candidateRows ← findAlertCandidates x tenantId sourceId request
  let candidates ← Action.forEach
    (fun (candidate, n) => persistReverseCandidate x now (ids (n + 2)) tenantId page
      request.embedding canonicalFinalUrl candidate)
    (candidateRows.filter fun c => !decide (c.similarity < c.threshold)).zipIdx
  return {
    pageId := page.pageId
    pageRevisionId := page.pageRevisionId
    contentSha256 := page.contentSha256
    changed := page.changed
    pageVectorPersisted := false
    candidates := candidates }

/-- `ingest_and_reverse_match`. -/
def ingestAndReverseMatch (x : Platform) (now : Timestamp) (ids : ℕ → Uuid)
    (tenantId sourceId : Uuid) (request : ReverseAlertPageRequest)
    (canonicalOriginalUrl canonicalFinalUrl : String) : Api ReverseAlertMatchResponse := do
  Action.ofExcept ((request.validate x).mapError .validation)
  Action.transaction (reverseTransaction x now ids tenantId sourceId request canonicalOriginalUrl
    canonicalFinalUrl)

end ReverseMatch

end EmbeddedAlerts
