import EmbeddedAlerts.Schema
import EmbeddedAlerts.Text.Encoding
import EmbeddedAlerts.Text.Words

/-!
# What the code stands on

The errors a request can end in, the request types of `eal-interfaces`, and
`Platform`: the functions the code calls that are not in this repository.

`Platform.Lawful` collects what the code relies on: pgvector's cosine distance
between two validated vectors of one model space is a number in `[0, 2]`, the
`validate` functions of `eal-interfaces` cover the embedding inside a request
and the status codes the schema accepts, and `Uuid::parse_str` reads back what
`Uuid` displays.  `Platform.CollisionFree` is kept apart, so that a result that
needs SHA-256 to be collision free says so.

Rows travel as JSON, and `serde_json` without its feature `float_roundtrip` may read
a double one unit off in the last place (`jsonDouble`).  What is relied on is that a
number within bounds stays within them, and that a similarity that has reached a
threshold, which is a single, still reaches it when both have been read.
-/

namespace EmbeddedAlerts

open Sql Text

/-- `error::HttpError`.  An internal error only logs its text; the client is
told that the request could not be completed. -/
inductive HttpError where
  | validation (message : String)
  | badRequest (message : String)
  | unauthorized (message : String)
  | forbidden (message : String)
  | notFound (message : String)
  | conflict (message : String)
  | internal (logged : String)
deriving DecidableEq, Repr

/-- `From<sea_orm::DbErr>`. -/
def HttpError.ofDbErr : DbErr → HttpError
  | .checkViolation => .internal "check_violation"
  | .uniqueViolation => .internal "unique_violation"
  | .foreignKeyViolation => .internal "foreign_key_violation"
  | .raised message => .internal message

/-- A request handler's view of the store. -/
abbrev Api (α : Type) : Type := Action Db HttpError α

/-- Run one statement; a database error is an internal error. -/
def execute {α : Type} (q : Statement Db α) : Api α := Action.statement HttpError.ofDbErr q

theorem execute_of_ok {α : Type} {q : Statement Db α} {db db' : Db} {a : α}
    (h : q db db = .ok (a, db')) : execute q db = (.ok a, db') :=
  Action.statement_of_ok h

theorem execute_of_error {α : Type} {q : Statement Db α} {db : Db} {e : DbErr}
    (h : q db db = .error e) : execute q db = (.error (HttpError.ofDbErr e), db) :=
  Action.statement_of_error h

theorem execute_eq_ok {α : Type} {q : Statement Db α} {db db' : Db} {a : α}
    (h : execute q db = (.ok a, db')) : q db db = .ok (a, db') :=
  Action.statement_eq_ok h

/-! ### Requests -/

structure PageIngestRequest where
  sourceId : Uuid
  url : String
  finalUrl : String
  title : Option String
  contentText : String
  contentType : String
  httpStatus : UInt16
  publishedAt : Option DateTime
  fetchedAt : DateTime
  embedding : EmbeddingPayload
deriving DecidableEq

structure SearchCursor where
  distance : ℚ
  embeddingId : Uuid
deriving DecidableEq

structure EmbeddingSearchRequest where
  embedding : EmbeddingPayload
  sourceIds : List Uuid
  minSimilarity : F32
  limit : ℕ
  cursor : Option SearchCursor
deriving DecidableEq

structure CreateSourcePolicy where
  name : String
  rootUrl : String
  allowedHosts : List String
  allowedPathPrefixes : List String
  includeSubdomains : Bool
  discoveryModes : List String
  crawlIntervalSeconds : ℕ
  maxDepth : ℕ
  maxPagesPerRun : ℕ
  obeyRobots : Bool
  enabled : Bool
deriving DecidableEq

/-- A source policy is read back from its row. -/
abbrev SourcePolicy := SourceRow

/-! ### The `url` crate -/

inductive Host where
  | domain (name : String)
  | ipv4 (address : String)
  | ipv6 (address : String)
deriving DecidableEq, Repr

structure Url where
  scheme : String
  cannotBeABase : Bool
  username : String
  password : Option String
  host : Option Host
  port : Option ℕ
  path : String
  query : Option String
  fragment : Option String
deriving DecidableEq, Repr

/-! ### The platform -/

/-- The functions of other crates and of pgvector that the code calls. -/
structure Platform where
  /-- `Sha256::digest`. -/
  sha256 : List UInt8 → List UInt8
  /-- pgvector's `<=>`. -/
  cosineDistance : List F32Bits → List F32Bits → Float8
  /-- What `serde_json` reads in the text that PostgreSQL writes of a double. -/
  jsonDouble : ℚ → ℚ
  /-- `Uuid::parse_str`. -/
  uuidParseStr : String → Option Uuid
  /-- `EmbeddingPayload::validate`. -/
  validateEmbedding : EmbeddingPayload → Except String Unit
  /-- `PageIngestRequest::validate`. -/
  validatePage : PageIngestRequest → Except String Unit
  /-- `EmbeddingSearchRequest::validate`. -/
  validateSearch : EmbeddingSearchRequest → Except String Unit
  /-- `CreateSourcePolicy::validate`. -/
  validateSource : CreateSourcePolicy → Except String Unit
  /-- `Url::parse`. -/
  urlParse : String → Except String Url
  /-- `Url::to_string`. -/
  urlToString : Url → String

/-- `Uuid`'s `Display`: lower-case hexadecimal, hyphenated 8-4-4-4-12. -/
def Uuid.chars (u : Uuid) : List Char :=
  let digits := hexFixed 32 u.val
  digits.take 8 ++ '-' :: ((digits.drop 8).take 4 ++ '-' :: ((digits.drop 12).take 4
    ++ '-' :: ((digits.drop 16).take 4 ++ '-' :: digits.drop 20)))

def Uuid.display (u : Uuid) : String := String.ofList (Uuid.chars u)

/-- What the code relies on. -/
structure Platform.Lawful (x : Platform) : Prop where
  /-- Two validated vectors of one model space have a distance, and it is in range. -/
  distance : ∀ a b : EmbeddingPayload, x.validateEmbedding a = .ok () →
    x.validateEmbedding b = .ok () → a.toModelSpace = b.toModelSpace →
    ∃ q : ℚ, x.cosineDistance a.values b.values = (q : Float8) ∧ 0 ≤ q ∧ q ≤ 2
  /-- What is read of a number in `[-1, 1]` is in `[-1, 1]`. -/
  jsonBounded : ∀ q, |q| ≤ 1 → |x.jsonDouble q| ≤ 1
  /-- What is read of a number that is not negative is not negative. -/
  jsonNonneg : ∀ q, 0 ≤ q → 0 ≤ x.jsonDouble q
  /-- A similarity that reaches a single still does when both have been read. -/
  jsonReaches : ∀ (t : F32) (a b : List F32Bits) (s : ℚ),
    (x.cosineDistance a b).oneMinus = (s : Float8) → t.val ≤ s →
    x.jsonDouble t.val ≤ x.jsonDouble s
  /-- A validated page has a validated embedding. -/
  pageEmbedding : ∀ r, x.validatePage r = .ok () → x.validateEmbedding r.embedding = .ok ()
  /-- A validated page has a status the schema accepts. -/
  pageStatus : ∀ r, x.validatePage r = .ok () →
    200 ≤ r.httpStatus.toNat ∧ r.httpStatus.toNat ≤ 399
  /-- A validated search has a validated embedding. -/
  searchEmbedding : ∀ r, x.validateSearch r = .ok () → x.validateEmbedding r.embedding = .ok ()
  /-- `Uuid::parse_str` inverts `Display`. -/
  parseDisplay : ∀ u, x.uuidParseStr (Uuid.display u) = some u

/-- Two validated vectors of one model space have a similarity, and it is in
range. -/
theorem Platform.Lawful.similarity {x : Platform} (hx : x.Lawful) {a b : EmbeddingPayload}
    (ha : x.validateEmbedding a = .ok ()) (hb : x.validateEmbedding b = .ok ())
    (hspace : a.toModelSpace = b.toModelSpace) :
    ∃ s : ℚ, (x.cosineDistance a.values b.values).oneMinus = (s : Float8) ∧ -1 ≤ s ∧ s ≤ 1 := by
  obtain ⟨q, hq, h0, h2⟩ := hx.distance a b ha hb hspace
  have habs : |Binary.roundNE 53 (1 - q)| ≤ 1 := by
    refine Binary.abs_roundNE_le_one (by decide) ?_
    rw [abs_le]
    constructor <;> linarith
  rw [abs_le] at habs
  refine ⟨Binary.roundNE 53 (1 - q), ?_, habs.1, habs.2⟩
  rw [hq]
  rfl

/-- SHA-256 has no collisions. -/
def Platform.CollisionFree (x : Platform) : Prop := Function.Injective x.sha256

/-! ### UUIDs as text -/

theorem hexDigit_ne_hyphen : ∀ d < 16, hexDigit d ≠ '-' := by decide

/-- Dropping the hyphens leaves the digits. -/
theorem Uuid.filter_chars (u : Uuid) :
    (Uuid.chars u).filter (fun c => decide (c ≠ '-')) = hexFixed 32 u.val := by
  have hkeep : ∀ l : List Char, (∀ c ∈ l, c ∈ hexFixed 32 u.val) →
      l.filter (fun c => decide (c ≠ '-')) = l := by
    intro l hl
    rw [List.filter_eq_self]
    intro c hc
    obtain ⟨d, hd, rfl⟩ := mem_hexFixed (hl c hc)
    exact decide_eq_true (hexDigit_ne_hyphen d hd)
  have hdash : ∀ l : List Char,
      ('-' :: l).filter (fun c => decide (c ≠ '-')) = l.filter fun c => decide (c ≠ '-') := by
    intro l
    simp
  have htake : ∀ i j : ℕ, ∀ c ∈ ((hexFixed 32 u.val).drop i).take j, c ∈ hexFixed 32 u.val :=
    fun i j c hc => List.drop_subset _ _ (List.take_subset _ _ hc)
  simp only [Uuid.chars, List.filter_append, hdash]
  rw [hkeep _ fun c hc => List.take_subset _ _ hc, hkeep _ (htake 8 4), hkeep _ (htake 12 4),
    hkeep _ (htake 16 4), hkeep _ fun c hc => List.drop_subset _ _ hc]
  have h1 : ∀ i j : ℕ, ((hexFixed 32 u.val).drop i).take j ++ (hexFixed 32 u.val).drop (i + j)
      = (hexFixed 32 u.val).drop i := by
    intro i j
    rw [← List.drop_drop]
    exact List.take_append_drop j _
  rw [h1 16 4, h1 12 4, h1 8 4, List.take_append_drop]

theorem Uuid.chars_inj {u v : Uuid} (h : Uuid.chars u = Uuid.chars v) : u = v := by
  have hf := congrArg (List.filter fun c => decide (c ≠ '-')) h
  rw [Uuid.filter_chars, Uuid.filter_chars] at hf
  exact Fin.ext (hexFixed_inj (lt_of_lt_of_eq u.isLt (by norm_num))
    (lt_of_lt_of_eq v.isLt (by norm_num)) hf)

end EmbeddedAlerts
