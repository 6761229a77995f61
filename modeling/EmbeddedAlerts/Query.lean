import EmbeddedAlerts.Schema
import EmbeddedAlerts.Text.Check
import EmbeddedAlerts.Text.Split

/-!
# Query analysis

`crates/query/src/lib.rs`: the texts that are embedded for a query.  These are the
query itself with its white space collapsed, its keywords, and its entities, which
are runs of words that look like names.

The classes of characters are those of the Rust standard library, and nothing here
depends on which characters they hold: `CharClasses` leaves them open.  Of
`eal-semantic-contracts` the code uses two bounds and `QueryTextViews::validate`,
which are in `Contracts`.
-/

namespace EmbeddedAlerts

namespace Query

open Text

/-- `char::is_alphanumeric`, `is_uppercase`, `is_lowercase` and `is_whitespace`. -/
structure CharClasses where
  isAlphanumeric : Char → Bool
  isUppercase : Char → Bool
  isLowercase : Char → Bool
  isWhitespace : Char → Bool

/-! ### Tokens -/

/-- `str::trim_matches`. -/
def trimMatches (p : Char → Bool) (s : List Char) : List Char :=
  ((s.dropWhile p).reverse.dropWhile p).reverse

variable (c : CharClasses)

/-- `str::split_whitespace`. -/
def splitWords (s : List Char) : List (List Char) :=
  (s.splitOnP c.isWhitespace).filter fun w => !w.isEmpty

/-- `clean_token`. -/
def cleanToken (value : List Char) : List Char :=
  trimMatches (fun ch => !c.isAlphanumeric ch && ch != '-' && ch != '_') value

/-- `tokens` and `raw_tokens`. -/
def tokens (value : List Char) : List (List Char) :=
  ((splitWords c value).map (cleanToken c)).filter fun token => !token.isEmpty

/-- `is_probable_entity_word`. -/
def isProbableEntityWord (value : List Char) : Bool :=
  match value with
  | [] => false
  | first :: rest =>
    c.isUppercase first && rest.any c.isLowercase && !value.all c.isUppercase

def instructionWords : List String :=
  ["alert", "email", "find", "let", "notify", "show", "tell", "track", "watch"]

/-- `is_instruction_word`. -/
def isInstructionWord (value : List Char) : Bool :=
  instructionWords.any fun word => word.toList == value

def stopwords : List String :=
  ["about", "after", "again", "against", "alert", "also", "among", "and", "are", "because",
    "been", "before", "being", "between", "could", "email", "find", "for", "from", "have",
    "into", "just", "more", "notify", "should", "that", "the", "their", "them", "then", "there",
    "these", "they", "this", "those", "through", "tools", "when", "where", "which", "while",
    "with", "would"]

/-- `is_stopword`. -/
def isStopword (value : List Char) : Bool := stopwords.any fun word => word.toList == value

/-! ### Keywords -/

def maxKeywords : ℕ := 24

/-- The loop of `extract_keywords`, with the set `seen` and the vector `output`. -/
def keywordLoop (seen output : List (List Char)) : List (List Char) → List (List Char)
  | [] => output
  | token :: rest =>
    let normalized := asciiLowercase token
    if normalized.length < 3 || isStopword normalized || seen.contains normalized then
      keywordLoop seen output rest
    else
      let output := output ++ [normalized]
      if output.length ≥ maxKeywords then output
      else keywordLoop (normalized :: seen) output rest

/-- `extract_keywords`. -/
def extractKeywords (query : List Char) : List (List Char) := keywordLoop [] [] (tokens c query)

/-! ### Entities -/

def maxEntities : ℕ := 12

/-- What the loop of `extract_entities` keeps. -/
structure EntityState where
  current : List (List Char)
  seen : List (List Char)
  output : List (List Char)

/-- `flush_entity`. -/
def flushEntity (s : EntityState) : EntityState :=
  if s.current.isEmpty || decide (s.output.length ≥ maxEntities) then { s with current := [] }
  else
    let entity := [' '].intercalate s.current
    let identity := asciiLowercase entity
    if s.seen.contains identity then { s with current := [] }
    else { current := [], seen := identity :: s.seen, output := s.output ++ [entity] }

/-- The loop of `extract_entities`, from the word with the given index on. -/
def entityLoop : ℕ → List (List Char) → EntityState → EntityState
  | _, [], s => s
  | index, word :: rest, s =>
    let normalized := asciiLowercase word
    let candidate :=
      isProbableEntityWord c word && !(index == 0 && isInstructionWord normalized)
    let s := if candidate then { s with current := s.current ++ [word] } else flushEntity s
    if s.output.length ≥ maxEntities then s else entityLoop (index + 1) rest s

/-- `extract_entities`. -/
def extractEntities (query : List Char) : List (List Char) :=
  (flushEntity (entityLoop c 0 (tokens c query) ⟨[], [], []⟩)).output.take maxEntities

/-! ### The views of a query -/

/-- The kinds that `analyze_query` gives its inputs. -/
inductive EmbeddingInputKind where
  | query
  | keyword
  | entity
deriving DecidableEq, Repr

structure EmbeddingInput where
  kind : EmbeddingInputKind
  ordinal : UInt16
  text : String
  weight : F32
deriving DecidableEq

structure QueryTextViews where
  queryText : String
  keywords : List String
  entities : List String
  embeddingInputs : List EmbeddingInput
deriving DecidableEq

/-- `QueryAnalysisError`, and the error of `QueryTextViews::validate`. -/
structure QueryAnalysisError where
  code : String
  message : String
deriving DecidableEq, Repr

/-- What the code uses of `eal-semantic-contracts`. -/
structure Contracts where
  /-- `MAX_EMBEDDING_INPUT_CHARS`. -/
  maxEmbeddingInputChars : ℕ
  /-- `MAX_EMBEDDING_INPUTS`. -/
  maxEmbeddingInputs : ℕ
  /-- `QueryTextViews::validate`. -/
  validate : QueryTextViews → Except QueryAnalysisError Unit

/-- `collapse_whitespace`. -/
def collapseWhitespace (value : String) : String :=
  String.ofList ([' '].intercalate (splitWhitespace value.toList))

/-- `u16::try_from`. -/
def u16TryFrom (n : ℕ) : Option UInt16 := if n < 2 ^ 16 then some (UInt16.ofNat n) else none

/-- `push_input`. -/
def pushInput (k : Contracts) (kind : EmbeddingInputKind) (weight : F32)
    (inputs : List EmbeddingInput) (text : String) :
    Except QueryAnalysisError (List EmbeddingInput) := do
  if inputs.length ≥ k.maxEmbeddingInputs then
    throw ⟨"too_many_embedding_inputs",
      "query analysis exceeded " ++ k.maxEmbeddingInputs.repr ++ " embedding inputs"⟩
  let ordinal ← okOr (u16TryFrom inputs.length) ⟨"too_many_embedding_inputs",
    "query analysis produced an unsupported number of inputs"⟩
  return inputs ++ [⟨kind, ordinal, text, weight⟩]

def queryWeight : F32 := F32.ofRat (12 / 10)
def keywordWeight : F32 := F32.ofRat (6 / 10)
def entityWeight : F32 := F32.ofRat (9 / 10)

/-- `analyze_query`. -/
def analyzeQuery (k : Contracts) (value : String) : Except QueryAnalysisError QueryTextViews := do
  let queryText := collapseWhitespace value
  if !decide (3 ≤ queryText.length ∧ queryText.length ≤ k.maxEmbeddingInputChars) then
    throw ⟨"invalid_query_text", "query text must contain 3 to "
      ++ k.maxEmbeddingInputChars.repr
      ++ " characters so the complete query remains one auditable embedding input"⟩
  let keywords := (extractKeywords c queryText.toList).map String.ofList
  let entities := (extractEntities c queryText.toList).map String.ofList
  let embeddingInputs ← pushInput k .query queryWeight [] queryText
  let embeddingInputs ← keywords.foldlM (pushInput k .keyword keywordWeight) embeddingInputs
  let embeddingInputs ← entities.foldlM (pushInput k .entity entityWeight) embeddingInputs
  let views : QueryTextViews := ⟨queryText, keywords, entities, embeddingInputs⟩
  k.validate views
  return views

end Query

end EmbeddedAlerts
