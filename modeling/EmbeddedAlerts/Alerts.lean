import EmbeddedAlerts.SourceScope

/-!
# Alert rules as the API takes and gives them

`src/alerts.rs`: `CreateAlertRule::normalized`, which every rule passes before
it is stored.  A JSON number that is too large for an `f32` becomes infinite
there and fails the range check; `F32` holds finite numbers only, so
`is_finite` has no case left to reject.
-/

namespace EmbeddedAlerts

open Text SourceScope

structure AlertRule where
  id : Uuid
  tenantId : Uuid
  ownerSubject : String
  revisionId : Uuid
  revisionNumber : ℕ
  createdAt : Timestamp
  updatedAt : Timestamp
  revisionCreatedAt : Timestamp
  name : String
  queryText : String
  embeddingModel : String
  similarityThreshold : F32
  sourceFilters : List String
  deliveryChannels : List String
  enabled : Bool
deriving DecidableEq

structure CreateAlertRule where
  name : String
  queryText : String
  embeddingModel : String
  similarityThreshold : F32
  sourceFilters : List String
  deliveryChannels : List String
  enabled : Bool
deriving DecidableEq

namespace Alerts

def maxNameBytes : ℕ := 256
def maxQueryChars : ℕ := 700
def maxModelBytes : ℕ := 160
def maxDeliveryChannels : ℕ := 32
def maxDeliveryChannelBytes : ℕ := 120

/-- `collapse_whitespace`. -/
def collapseWhitespace (input : String) : String :=
  String.ofList ([' '].intercalate (splitWhitespace input.toList))

def trimString (s : String) : String := String.ofList (trim s.toList)

/-- `validate_list`. -/
def validateList (values : List String) (maxItems maxBytes : ℕ) (name : String) :
    Except String Unit :=
  if values.length > maxItems then
    .error (name ++ " must contain at most " ++ maxItems.repr ++ " values")
  else if values.any fun value => value.isEmpty || decide (value.utf8ByteSize > maxBytes) then
    .error ("every " ++ name ++ " value must contain between 1 and " ++ maxBytes.repr ++ " bytes")
  else .ok ()

/-- `normalize_list`: trim, sort, drop duplicates, validate. -/
def normalizeList (values : List String) (maxItems maxBytes : ℕ) (name : String) :
    Except String (List String) :=
  let values := ((values.map trimString).insertionSort (· ≤ ·)).dedup
  (validateList values maxItems maxBytes name).map fun _ => values

/-- `validate_source_filters`, with the error as text. -/
def validateSourceFilters (x : Platform) (values : List String) : Except String Unit :=
  match parseSourceFilterIds x values with
  | .ok _ => .ok ()
  | .error e => .error e.message

/-- `CreateAlertRule::validate`. -/
def validate (x : Platform) (self : CreateAlertRule) : Except String Unit := do
  if self.name.isEmpty || decide (self.name.utf8ByteSize > maxNameBytes) then
    throw ("name must contain between 1 and " ++ maxNameBytes.repr ++ " bytes")
  if !decide (3 ≤ self.queryText.length ∧ self.queryText.length ≤ maxQueryChars) then
    throw ("query_text must contain between 3 and " ++ maxQueryChars.repr ++ " characters")
  if self.embeddingModel.isEmpty || decide (self.embeddingModel.utf8ByteSize > maxModelBytes) then
    throw ("embedding_model must contain between 1 and " ++ maxModelBytes.repr ++ " bytes")
  if !decide (0 ≤ self.similarityThreshold.val ∧ self.similarityThreshold.val ≤ 1) then
    throw "similarity_threshold must be finite and between 0 and 1"
  validateSourceFilters x self.sourceFilters
  validateList self.deliveryChannels maxDeliveryChannels maxDeliveryChannelBytes "delivery_channels"

/-- `CreateAlertRule::normalized`. -/
def normalized (x : Platform) (self : CreateAlertRule) : Except String CreateAlertRule := do
  let sourceFilters ← (normalizeSourceFilters x self.sourceFilters).mapError
    SourceScopeError.message
  let deliveryChannels ← normalizeList self.deliveryChannels maxDeliveryChannels
    maxDeliveryChannelBytes "delivery_channels"
  let self : CreateAlertRule := { self with
    name := trimString self.name
    queryText := collapseWhitespace self.queryText
    embeddingModel := trimString self.embeddingModel
    sourceFilters := sourceFilters
    deliveryChannels := deliveryChannels }
  validate x self
  return self

/-- **A normalized rule has canonical source filters**, at most a hundred. -/
theorem normalized_sourceFilters {x : Platform} {self out : CreateAlertRule}
    (h : normalized x self = .ok out) :
    ∃ ids : List Uuid, ids.length ≤ maxSourceFilters ∧
      out.sourceFilters = ids.map canonicalFilter := by
  rw [normalized] at h
  rcases hf : normalizeSourceFilters x self.sourceFilters with e | filters
  · rw [hf] at h
    cases h
  · rw [hf] at h
    simp only [Except.mapError, bind, Except.bind] at h
    split at h
    · cases h
    · split at h
      · cases h
      · obtain rfl := Except.ok.inj h
        exact normalizeSourceFilters_ok hf

end Alerts

end EmbeddedAlerts
