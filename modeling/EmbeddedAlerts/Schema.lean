import Mathlib.Order.WithBot
import Mathlib.Data.Rat.Floor
import Mathlib.Data.Fin.Basic
import EmbeddedAlerts.Sql.Table
import EmbeddedAlerts.Binary.Round

/-!
# The schema

The eight tables of `migrations/002`–`007` that the API reads and writes, with
their columns, their CHECKs, their unique constraints and their foreign keys.

Values are read as follows.

* A UUID is its 128 bits; `uuid` order in PostgreSQL is the order of the bits.
* A finite `REAL` or `DOUBLE PRECISION` is the rational it denotes.  `F32`
  carries the proof that its value is a single; a `Float8` is a rational or NaN,
  which PostgreSQL puts above every number and makes equal to itself, so it is
  the top element.
* A vector is the list of the bit patterns of its `f32` components, which the
  text form sent to pgvector keeps.
* The columns `model`, `model_version`, `dimensions` and `normalization` are
  always written and compared together: they are one `ModelSpace`.
* A `Timestamp` counts microseconds, the resolution of `timestamptz`.  The times of
  a request are finer (`DateTime`) and are rounded when they are stored.

Three checks are missing because they cannot fail: the three digest columns hold
the hexadecimal form of a 32-byte digest, `normalization` and `match_mode` are
enumerations here, and `status` is only ever written with its default.  The
`NOT VALID` constraints of `005` and `006` bind every row, since rows older than
those migrations are not part of the model.
-/

namespace EmbeddedAlerts

open Sql Binary

/-! ### Values -/

abbrev Uuid := Fin (2 ^ 128)

instance Uuid.neZero : NeZero (2 ^ 128) := ⟨(Nat.two_pow_pos 128).ne'⟩

abbrev Timestamp := ℤ

/-- `DateTime<Utc>`, which counts nanoseconds. -/
structure DateTime where
  nanoseconds : ℤ
deriving DecidableEq

instance : LE DateTime := ⟨fun s t => s.nanoseconds ≤ t.nanoseconds⟩

/-- The microseconds that PostgreSQL makes of so many nanoseconds of a second: it reads
the fraction as a double and rounds its millionfold. -/
def fractionalSecond (nanoseconds : ℤ) : ℤ :=
  halfEven (roundNE 53 (roundNE 53 (nanoseconds / 10 ^ 9) * 10 ^ 6))

/-- `$n::timestamptz` of the text of a `DateTime`. -/
def DateTime.timestamptz (t : DateTime) : Timestamp :=
  t.nanoseconds / 10 ^ 9 * 10 ^ 6 + fractionalSecond (t.nanoseconds % 10 ^ 9)

theorem fractionalSecond_mono {m n : ℤ} (hm : 0 ≤ m) (h : m ≤ n) :
    fractionalSecond m ≤ fractionalSecond n := by
  have hm' : (0 : ℚ) ≤ m / 10 ^ 9 := by positivity
  have hread : roundNE 53 (m / 10 ^ 9 : ℚ) ≤ roundNE 53 (n / 10 ^ 9) :=
    roundNE_mono (by norm_num) hm' (by gcongr)
  have hread' : (0 : ℚ) ≤ roundNE 53 (m / 10 ^ 9 : ℚ) * 10 ^ 6 :=
    mul_nonneg (roundNE_nonneg 53 hm') (by norm_num)
  exact halfEven_mono (roundNE_mono (by norm_num) hread' (by gcongr))

theorem fractionalSecond_zero : fractionalSecond 0 = 0 := by decide +kernel

theorem fractionalSecond_second : fractionalSecond (10 ^ 9) = 10 ^ 6 := by decide +kernel

/-- **What is stored of times keeps their order.** -/
theorem DateTime.timestamptz_mono {s t : DateTime} (h : s ≤ t) :
    s.timestamptz ≤ t.timestamptz := by
  have hns : s.nanoseconds ≤ t.nanoseconds := h
  have hs := Int.emod_nonneg s.nanoseconds (by norm_num : (10 : ℤ) ^ 9 ≠ 0)
  have ht := Int.emod_nonneg t.nanoseconds (by norm_num : (10 : ℤ) ^ 9 ≠ 0)
  rcases (Int.ediv_le_ediv (by norm_num) hns : s.nanoseconds / 10 ^ 9 ≤ _).eq_or_lt with heq | hlt
  · -- within one second
    have hmod : s.nanoseconds % 10 ^ 9 ≤ t.nanoseconds % 10 ^ 9 := by omega
    have hfraction := fractionalSecond_mono hs hmod
    rw [timestamptz, timestamptz, heq]
    exact add_le_add_right hfraction _
  · -- a fraction is at most a second
    have hle : fractionalSecond (s.nanoseconds % 10 ^ 9) ≤ 10 ^ 6 :=
      (fractionalSecond_mono hs (Int.emod_lt_of_pos _ (by norm_num)).le).trans_eq
        fractionalSecond_second
    have hnonneg : 0 ≤ fractionalSecond (t.nanoseconds % 10 ^ 9) :=
      fractionalSecond_zero.symm.trans_le (fractionalSecond_mono le_rfl ht)
    calc s.timestamptz
        = s.nanoseconds / 10 ^ 9 * 10 ^ 6 + fractionalSecond (s.nanoseconds % 10 ^ 9) := rfl
      _ ≤ (s.nanoseconds / 10 ^ 9 + 1) * 10 ^ 6 := by linarith
      _ ≤ t.nanoseconds / 10 ^ 9 * 10 ^ 6 := by linarith
      _ ≤ t.nanoseconds / 10 ^ 9 * 10 ^ 6 + fractionalSecond (t.nanoseconds % 10 ^ 9) :=
        le_add_of_nonneg_right hnonneg
      _ = t.timestamptz := rfl

/-- A finite single-precision number: 24 significant bits, none below `2⁻¹⁴⁹`. -/
structure F32 where
  val : ℚ
  isSingle : roundAbove 24 (-149) val = val
deriving DecidableEq

/-- `x as f32`. -/
def F32.ofRat (q : ℚ) : F32 := ⟨roundAbove 24 (-149) q, roundAbove_roundAbove (by decide) _ q⟩

/-- `f32::max`. -/
def F32.max (a b : F32) : F32 := if a.val ≤ b.val then b else a

/-- Narrowing a single changes nothing. -/
@[simp] theorem F32.ofRat_val (a : F32) : (F32.ofRat a.val).val = a.val := a.isSingle

theorem F32.max_val (a b : F32) : (F32.max a b).val = Max.max a.val b.val := by
  unfold F32.max
  split_ifs with h
  · rw [max_eq_right h]
  · rw [max_eq_left (le_of_not_ge h)]

/-- A `DOUBLE PRECISION`: a number, or NaN at the top. -/
abbrev Float8 := WithTop ℚ

/-- `1.0 - x` in double precision. -/
def Float8.oneMinus (x : Float8) : Float8 := x.map fun q => roundNE 53 (1 - q)

/-- The bit pattern of an `f32`. -/
abbrev F32Bits := UInt32

inductive VectorNormalization where
  | none
  | l2
  | unitLength
deriving DecidableEq, Repr

/-- The columns that say which vectors may be compared. -/
structure ModelSpace where
  model : String
  modelVersion : String
  dimensions : UInt32
  normalization : VectorNormalization
deriving DecidableEq, Repr

structure EmbeddingPayload extends ModelSpace where
  values : List F32Bits
deriving DecidableEq, Repr

inductive MatchMode where
  | historicalPageSearch
  | reverseAlertStream
deriving DecidableEq, Repr

inductive MatchStatus where
  | pending
  | suppressed
  | approved
  | rejected
  | delivered
  | failed
deriving DecidableEq, Repr

/-- The `score_explanation` object.  The three optional members are written by
the reverse path only. -/
structure ScoreExplanation where
  matchMode : Option MatchMode
  semanticSimilarity : ℚ
  threshold : ℚ
  alertRuleRevisionId : Uuid
  pageRevisionId : Uuid
  space : ModelSpace
  canonicalUrl : String
  contentSha256 : String
  pageEmbeddingSha256 : Option String
  pageVectorPersisted : Option Bool
deriving DecidableEq

/-! ### Rows -/

/-- `eal_sources`. -/
structure SourceRow where
  id : Uuid
  tenantId : Uuid
  name : String
  rootUrl : String
  allowedHosts : List String
  allowedPathPrefixes : List String
  includeSubdomains : Bool
  discoveryModes : List String
  crawlIntervalSeconds : ℕ
  maxDepth : ℕ
  maxPagesPerRun : ℕ
  obeyRobots : Bool
  enabled : Bool
  createdAt : Timestamp
  updatedAt : Timestamp
deriving DecidableEq

/-- `eal_pages`. -/
structure PageRow where
  id : Uuid
  tenantId : Uuid
  sourceId : Uuid
  canonicalUrl : String
  firstSeenAt : Timestamp
  lastSeenAt : Timestamp
  latestRevisionId : Option Uuid
  createdAt : Timestamp
  updatedAt : Timestamp
deriving DecidableEq

/-- `eal_page_revisions`. -/
structure PageRevisionRow where
  id : Uuid
  tenantId : Uuid
  pageId : Uuid
  predecessorRevisionId : Option Uuid
  originalUrl : String
  finalUrl : String
  title : Option String
  contentText : String
  contentSha256 : String
  contentType : String
  httpStatus : UInt16
  publishedAt : Option Timestamp
  fetchedAt : Timestamp
  createdAt : Timestamp
deriving DecidableEq

/-- `eal_embeddings`. -/
structure EmbeddingRow where
  id : Uuid
  tenantId : Uuid
  revisionId : Uuid
  space : ModelSpace
  embedding : List F32Bits
  generatedAt : Timestamp
  createdAt : Timestamp
deriving DecidableEq

/-- `eal_alert_rules`. -/
structure AlertRuleRow where
  id : Uuid
  tenantId : Uuid
  ownerSubject : String
  activeRevisionId : Option Uuid
  createdAt : Timestamp
  updatedAt : Timestamp
deriving DecidableEq

/-- `eal_alert_rule_revisions`. -/
structure AlertRuleRevisionRow where
  id : Uuid
  tenantId : Uuid
  alertRuleId : Uuid
  revisionNumber : ℕ
  createdBySubject : String
  name : String
  queryText : String
  embeddingModel : String
  similarityThreshold : F32
  sourceFilters : List String
  deliveryChannels : List String
  enabled : Bool
  createdAt : Timestamp
deriving DecidableEq

/-- `eal_alert_rule_embeddings`. -/
structure AlertRuleEmbeddingRow where
  id : Uuid
  tenantId : Uuid
  alertRuleId : Uuid
  alertRuleRevisionId : Uuid
  space : ModelSpace
  embedding : List F32Bits
  embeddingSha256 : String
  generatedAt : Timestamp
  createdAt : Timestamp
deriving DecidableEq

/-- `eal_match_candidates`.  `pageEmbeddingSpace` are the four columns
`page_embedding_model`, `.._model_version`, `.._dimensions` and
`.._normalization`. -/
structure MatchCandidateRow where
  id : Uuid
  tenantId : Uuid
  alertRuleId : Uuid
  alertRuleRevisionId : Option Uuid
  revisionId : Uuid
  embeddingId : Option Uuid
  matchMode : MatchMode
  alertEmbeddingId : Option Uuid
  pageEmbeddingSha256 : Option String
  pageEmbeddingSpace : Option ModelSpace
  canonicalMatchKey : String
  similarity : ℚ
  threshold : ℚ
  status : MatchStatus
  scoreExplanation : ScoreExplanation
  createdAt : Timestamp
  updatedAt : Timestamp
deriving DecidableEq

/-- The tables. -/
structure Db where
  sources : List SourceRow
  pages : List PageRow
  pageRevisions : List PageRevisionRow
  embeddings : List EmbeddingRow
  alertRules : List AlertRuleRow
  alertRuleRevisions : List AlertRuleRevisionRow
  alertRuleEmbeddings : List AlertRuleEmbeddingRow
  matchCandidates : List MatchCandidateRow
deriving DecidableEq

/-- The store after the migrations. -/
def Db.empty : Db := ⟨[], [], [], [], [], [], [], []⟩

/-! ### Constraints -/

/-- `char_length(s) BETWEEN lo AND hi`. -/
def charLengthBetween (lo hi : ℕ) (s : String) : Bool := decide (lo ≤ s.length ∧ s.length ≤ hi)

/-- `dimensions BETWEEN 1 AND 65535`. -/
def dimensionsInRange (space : ModelSpace) : Bool :=
  decide (1 ≤ space.dimensions.toNat ∧ space.dimensions.toNat ≤ 65535)

/-- `unique (tenant_id, root_url)`. -/
def SourceRow.sameRoot (r s : SourceRow) : Bool :=
  decide (r.tenantId = s.tenantId ∧ r.rootUrl = s.rootUrl)

/-- `unique (tenant_id, source_id, canonical_url)`. -/
def PageRow.sameUrl (r s : PageRow) : Bool :=
  decide (r.tenantId = s.tenantId ∧ r.sourceId = s.sourceId ∧ r.canonicalUrl = s.canonicalUrl)

/-- `unique (tenant_id, page_id, content_sha256)`. -/
def PageRevisionRow.sameContent (r s : PageRevisionRow) : Bool :=
  decide (r.tenantId = s.tenantId ∧ r.pageId = s.pageId ∧ r.contentSha256 = s.contentSha256)

/-- `unique (tenant_id, revision_id, model, model_version, dimensions, normalization)`. -/
def EmbeddingRow.sameSpace (r s : EmbeddingRow) : Bool :=
  decide (r.tenantId = s.tenantId ∧ r.revisionId = s.revisionId ∧ r.space = s.space)

/-- `unique (tenant_id, alert_rule_id, revision_number)`. -/
def AlertRuleRevisionRow.sameNumber (r s : AlertRuleRevisionRow) : Bool :=
  decide (r.tenantId = s.tenantId ∧ r.alertRuleId = s.alertRuleId ∧
    r.revisionNumber = s.revisionNumber)

/-- `unique (tenant_id, alert_rule_revision_id, model, model_version, dimensions,
normalization)`. -/
def AlertRuleEmbeddingRow.sameSpace (r s : AlertRuleEmbeddingRow) : Bool :=
  decide (r.tenantId = s.tenantId ∧ r.alertRuleRevisionId = s.alertRuleRevisionId ∧
    r.space = s.space)

/-- `unique (tenant_id, canonical_match_key)`. -/
def MatchCandidateRow.sameMatchKey (r s : MatchCandidateRow) : Bool :=
  decide (r.tenantId = s.tenantId ∧ r.canonicalMatchKey = s.canonicalMatchKey)

def sourcesTable : Constraints Db SourceRow where
  check r := charLengthBetween 1 256 r.name
    && decide (1 ≤ r.allowedHosts.length ∧ r.allowedHosts.length ≤ 64)
    && decide (1 ≤ r.allowedPathPrefixes.length ∧ r.allowedPathPrefixes.length ≤ 128)
    && decide (1 ≤ r.discoveryModes.length)
    && decide (60 ≤ r.crawlIntervalSeconds ∧ r.crawlIntervalSeconds ≤ 604800)
    && decide (r.maxDepth ≤ 16)
    && decide (1 ≤ r.maxPagesPerRun ∧ r.maxPagesPerRun ≤ 10000)
    && r.obeyRobots
  sameKey r s := decide (r.id = s.id) || r.sameRoot s
  refs _ _ := true

def pagesTable : Constraints Db PageRow where
  check _ := true
  sameKey r s := decide (r.id = s.id) || r.sameUrl s
  refs db r := db.sources.any (fun s => decide (s.id = r.sourceId))
    && r.latestRevisionId.all fun v => db.pageRevisions.any fun s => decide (s.id = v)

def pageRevisionsTable : Constraints Db PageRevisionRow where
  check r := decide (200 ≤ r.httpStatus.toNat ∧ r.httpStatus.toNat ≤ 399)
  sameKey r s := decide (r.id = s.id) || r.sameContent s
  refs db r := db.pages.any (fun p => decide (p.id = r.pageId))
    && r.predecessorRevisionId.all fun v => db.pageRevisions.any fun s => decide (s.id = v)

def embeddingsTable : Constraints Db EmbeddingRow where
  check r := dimensionsInRange r.space
  sameKey r s := decide (r.id = s.id) || r.sameSpace s
  refs db r := db.pageRevisions.any fun s => decide (s.id = r.revisionId)

def alertRulesTable : Constraints Db AlertRuleRow where
  check r := charLengthBetween 1 256 r.ownerSubject
  sameKey r s := decide (r.id = s.id)
  refs db r := r.activeRevisionId.all fun v =>
    db.alertRuleRevisions.any fun s => decide (s.tenantId = r.tenantId ∧ s.id = v)

def alertRuleRevisionsTable : Constraints Db AlertRuleRevisionRow where
  check r := decide (0 < r.revisionNumber)
    && charLengthBetween 1 256 r.createdBySubject
    && charLengthBetween 1 256 r.name
    && charLengthBetween 3 700 r.queryText
    && charLengthBetween 1 160 r.embeddingModel
    && decide (0 ≤ r.similarityThreshold.val ∧ r.similarityThreshold.val ≤ 1)
    && decide (r.sourceFilters.length ≤ 128)
    && decide (r.deliveryChannels.length ≤ 32)
  sameKey r s := decide (r.id = s.id) || r.sameNumber s
  refs db r := db.alertRules.any fun s => decide (s.tenantId = r.tenantId ∧ s.id = r.alertRuleId)

def alertRuleEmbeddingsTable : Constraints Db AlertRuleEmbeddingRow where
  check r := charLengthBetween 1 256 r.space.model
    && charLengthBetween 1 256 r.space.modelVersion
    && dimensionsInRange r.space
  sameKey r s := decide (r.id = s.id) || r.sameSpace s
  refs db r :=
    db.alertRules.any (fun s => decide (s.tenantId = r.tenantId ∧ s.id = r.alertRuleId))
    && db.alertRuleRevisions.any fun s =>
      decide (s.tenantId = r.tenantId ∧ s.id = r.alertRuleRevisionId)

/-- `eal_match_candidates_embedding_evidence_shape`. -/
def MatchCandidateRow.evidenceShape (r : MatchCandidateRow) : Bool :=
  match r.matchMode with
  | .historicalPageSearch => r.embeddingId.isSome
  | .reverseAlertStream => r.alertEmbeddingId.isSome && r.pageEmbeddingSha256.isSome
    && r.pageEmbeddingSpace.any fun space =>
      charLengthBetween 1 256 space.model && charLengthBetween 1 256 space.modelVersion
        && dimensionsInRange space

def matchCandidatesTable : Constraints Db MatchCandidateRow where
  check r := decide (-1 ≤ r.similarity ∧ r.similarity ≤ 1)
    && decide (0 ≤ r.threshold ∧ r.threshold ≤ 1)
    && r.alertRuleRevisionId.isSome
    && r.evidenceShape
  sameKey r s := decide (r.id = s.id) || r.sameMatchKey s
  refs db r := db.pageRevisions.any (fun s => decide (s.id = r.revisionId))
    && r.embeddingId.all (fun v => db.embeddings.any fun s => decide (s.id = v))
    && db.alertRules.any (fun s => decide (s.tenantId = r.tenantId ∧ s.id = r.alertRuleId))
    && r.alertRuleRevisionId.all (fun v =>
      db.alertRuleRevisions.any fun s => decide (s.tenantId = r.tenantId ∧ s.id = v))
    && r.alertEmbeddingId.all fun v =>
      db.alertRuleEmbeddings.any fun s => decide (s.tenantId = r.tenantId ∧ s.id = v)

/-- Every declared constraint holds. -/
structure Db.Valid (db : Db) : Prop where
  sources : sourcesTable.Holds db db.sources
  pages : pagesTable.Holds db db.pages
  pageRevisions : pageRevisionsTable.Holds db db.pageRevisions
  embeddings : embeddingsTable.Holds db db.embeddings
  alertRules : alertRulesTable.Holds db db.alertRules
  alertRuleRevisions : alertRuleRevisionsTable.Holds db db.alertRuleRevisions
  alertRuleEmbeddings : alertRuleEmbeddingsTable.Holds db db.alertRuleEmbeddings
  matchCandidates : matchCandidatesTable.Holds db db.matchCandidates

theorem Db.valid_empty : Db.empty.Valid := by
  constructor <;> constructor <;> simp [Db.empty]

end EmbeddedAlerts
