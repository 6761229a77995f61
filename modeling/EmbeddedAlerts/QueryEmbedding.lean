import EmbeddedAlerts.Query
import EmbeddedAlerts.Sql.Action
import EmbeddedAlerts.Sql.Keyset

/-!
# Embedding the inputs of a query

`src/query_embedding.rs`: the texts of a query are sent to a provider, which answers
with vectors in any order, each with the index of its text.  `embed_inputs` sorts
the items by index, compares their number with that of the inputs and each index
with its position, and takes the weighted centroid of the vectors.

What the code gets from outside is left open.  `post` is the provider, behind the
HTTP client.  `Floats` has the double-precision operations, `EmbeddingInput::validate`
and the `{:?}` of a text: which vectors are paired with which inputs does not depend
on any of them.

A stable sort, a count and a comparison by position accept **exactly the permutations
of the indices** (`pairVectors_ok_iff`), and what they hand on is the vector of index
`i` at position `i` (`getElem?_pairVectors`).  A response with distinct indices gives
one result in every order; a repeated index is an error in every order, though the
error is that of the item the sort puts first.
-/

namespace EmbeddedAlerts

namespace QueryEmbedding

open Query Sql Text

/-! ### The code -/

structure QueryEmbeddingError where
  code : String
  message : String
  retryable : Bool
deriving DecidableEq, Repr

/-- The `f64` operations the code uses, and what it takes from elsewhere. -/
structure Floats where
  F64 : Type
  /-- `f64::from(f32)`. -/
  ofF32 : F32Bits → F64
  /-- `f64::from` of a weight. -/
  ofWeight : F32 → F64
  /-- `0.0_f64`. -/
  zero : F64
  /-- What `Iterator::sum` starts from. -/
  sumZero : F64
  /-- `f64::EPSILON`. -/
  epsilon : F64
  add : F64 → F64 → F64
  mul : F64 → F64 → F64
  div : F64 → F64 → F64
  /-- `powi(2)`. -/
  square : F64 → F64
  sqrt : F64 → F64
  /-- `<=`. -/
  le : F64 → F64 → Bool
  /-- `as f32`. -/
  toF32 : F64 → F32Bits
  /-- `EmbeddingInput::validate`. -/
  validateInput : EmbeddingInput → Except QueryAnalysisError Unit
  /-- `{:?}` of a text. -/
  debugText : String → String

/-- `f32::is_finite`: the exponent is not all ones. -/
def isFinite (v : F32Bits) : Bool := v.toNat / 2 ^ 23 % 2 ^ 8 != 2 ^ 8 - 1

structure ProviderRequest where
  model : String
  input : List String
  dimensions : ℕ
  encodingFormat : String
deriving DecidableEq, Repr

structure ProviderEmbedding where
  index : ℕ
  embedding : List F32Bits
deriving DecidableEq, Repr

structure ProviderResponse where
  data : List ProviderEmbedding
  model : Option String
deriving DecidableEq, Repr

/-- A response of the provider: its status, and its body read as a text and as JSON. -/
structure HttpResponse where
  status : ℕ
  text : Option String
  json : Except String ProviderResponse

/-- Why no response came: the error, and whether it was a timeout or a failure to
connect. -/
structure SendError where
  error : String
  transient : Bool

structure QueryEmbeddingService where
  apiKey : Option String
  model : String
  dimensions : ℕ

variable (f : Floats)

/-- The square root of the sum of the squares. -/
def magnitude (values : List f.F64) : f.F64 :=
  f.sqrt ((values.map f.square).foldl f.add f.sumZero)

/-- `validate_vector`. -/
def validateVector (vector : List F32Bits) (expectedDimensions : ℕ) :
    Except QueryEmbeddingError (List F32Bits) :=
  if vector.length ≠ expectedDimensions then
    .error ⟨"embedding_dimension_mismatch", "embedding provider returned " ++ vector.length.repr
      ++ " dimensions; expected " ++ expectedDimensions.repr, false⟩
  else if vector.any (fun value => !isFinite value) = true then
    .error ⟨"invalid_embedding_values", "embedding provider returned non-finite values", false⟩
  else if f.le (magnitude f (vector.map f.ofF32)) f.epsilon = true then
    .error ⟨"zero_embedding_vector", "embedding provider returned a zero vector", false⟩
  else .ok vector

/-- The turn of the loop in `weighted_centroid` for one input and its vector. -/
def accumulate (dimensions : ℕ) (sum : List f.F64 × f.F64)
    (pair : EmbeddingInput × List F32Bits) : Except QueryEmbeddingError (List f.F64 × f.F64) :=
  if pair.2.length ≠ dimensions then
    .error ⟨"embedding_dimension_mismatch", "embedding vectors did not share one dimension", false⟩
  else
    let size := magnitude f (pair.2.map f.ofF32)
    if f.le size f.epsilon = true then
      .error ⟨"zero_embedding_vector", "embedding provider returned a zero vector", false⟩
    else
      let weight := f.ofWeight pair.1.weight
      .ok (List.zipWith (fun total value => f.add total (f.mul (f.div (f.ofF32 value) size) weight))
        sum.1 pair.2, f.add sum.2 weight)

/-- `weighted_centroid`. -/
def weightedCentroid (inputs : List EmbeddingInput) (vectors : List (List F32Bits))
    (dimensions : ℕ) : Except QueryEmbeddingError (List F32Bits) := do
  if inputs.length ≠ vectors.length ∨ dimensions = 0 then
    throw ⟨"invalid_embedding_aggregation",
      "embedding inputs and vectors must have matching non-zero dimensions", false⟩
  let sum ← (inputs.zip vectors).foldlM (accumulate f dimensions)
    (List.replicate dimensions f.zero, f.zero)
  if f.le sum.2 f.epsilon = true then
    throw ⟨"invalid_embedding_weight", "query embedding weights must have a positive sum", false⟩
  let aggregate := sum.1.map fun value => f.div value sum.2
  let size := magnitude f aggregate
  if f.le size f.epsilon = true then
    throw ⟨"zero_embedding_centroid", "weighted query embedding collapsed to a zero vector", false⟩
  return aggregate.map fun value => f.toF32 (f.div value size)

/-- The closure that takes an item at its position. -/
def takeVector (dimensions : ℕ) (item : ProviderEmbedding × ℕ) :
    Except QueryEmbeddingError (List F32Bits) :=
  if item.1.index ≠ item.2 then
    .error ⟨"embedding_index_mismatch", "embedding provider returned non-contiguous indices",
      false⟩
  else validateVector f item.1.embedding dimensions

/-- The pairing of a response with the inputs, from `sort_by_key` to `collect`. -/
def pairVectors (inputs : List EmbeddingInput) (dimensions : ℕ) (data : List ProviderEmbedding) :
    Except QueryEmbeddingError (List (List F32Bits)) :=
  let data := sorted ProviderEmbedding.index data
  if data.length ≠ inputs.length then
    .error ⟨"embedding_count_mismatch", "embedding provider returned " ++ data.length.repr
      ++ " vectors for " ++ inputs.length.repr ++ " inputs", false⟩
  else data.zipIdx.mapM (takeVector f dimensions)

/-- `provider_error_code`. -/
def providerErrorCode (status : ℕ) : String :=
  if status = 401 ∨ status = 403 then "embedding_provider_auth_failed"
  else if status = 429 then "embedding_provider_throttled"
  else if 500 ≤ status ∧ status ≤ 599 then "embedding_provider_unavailable"
  else "embedding_provider_rejected_request"

/-- `truncate`. -/
def truncate (value : String) (maxCharacters : ℕ) : String :=
  let output := String.ofList (value.toList.take maxCharacters)
  if value.length > maxCharacters then output ++ "…" else output

def maxProviderErrorChars : ℕ := 500

/-- `validate_provider_model`. -/
def validateProviderModel (returnedModel : Option String) (configuredModel : String) :
    Except QueryEmbeddingError Unit :=
  match returnedModel with
  | none => .ok ()
  | some returnedModel =>
    if returnedModel ≠ configuredModel then
      .error ⟨"embedding_model_mismatch", "embedding provider returned model "
        ++ f.debugText returnedModel ++ "; expected " ++ f.debugText configuredModel, false⟩
    else .ok ()

/-- The payload of the request. -/
def QueryEmbeddingService.payload (self : QueryEmbeddingService) (inputs : List EmbeddingInput) :
    ProviderRequest where
  model := self.model
  input := inputs.map EmbeddingInput.text
  dimensions := self.dimensions
  encodingFormat := "float"

/-- `QueryEmbeddingService::embed_inputs`; `post` sends the payload with the API key. -/
def embedInputs (post : ProviderRequest → Option String → Except SendError HttpResponse)
    (self : QueryEmbeddingService) (inputs : List EmbeddingInput) :
    Except QueryEmbeddingError (List F32Bits) := do
  if inputs.isEmpty then
    throw ⟨"empty_embedding_inputs", "at least one query embedding input is required", false⟩
  let _ ← inputs.mapM fun input =>
    (f.validateInput input).mapError fun error => ⟨error.code, error.message, false⟩
  let response ← (post (self.payload inputs) self.apiKey).mapError fun sent =>
    ⟨"embedding_provider_unreachable", "embedding provider request failed: " ++ sent.error,
      sent.transient⟩
  if ¬ (200 ≤ response.status ∧ response.status ≤ 299) then
    throw ⟨providerErrorCode response.status, "embedding provider returned HTTP "
      ++ response.status.repr ++ ": "
      ++ truncate (response.text.getD "") maxProviderErrorChars,
      decide (response.status = 429 ∨ (500 ≤ response.status ∧ response.status ≤ 599))⟩
  let providerResponse ← response.json.mapError fun error =>
    ⟨"invalid_embedding_provider_response", "embedding provider response was invalid JSON: "
      ++ error, false⟩
  validateProviderModel f providerResponse.model self.model
  let vectors ← pairVectors f inputs self.dimensions providerResponse.data
  weightedCentroid f inputs vectors self.dimensions

variable {f}

/-! ### The pairing -/

/-- The vector passes `validate_vector`. -/
def Passes (f : Floats) (dimensions : ℕ) (vector : List F32Bits) : Prop :=
  ∃ out, validateVector f vector dimensions = .ok out

/-- `validate_vector` gives the vector back. -/
theorem validateVector_ok_iff {vector out : List F32Bits} {dimensions : ℕ} :
    validateVector f vector dimensions = .ok out ↔ Passes f dimensions vector ∧ out = vector := by
  have hsame : ∀ w, validateVector f vector dimensions = .ok w → w = vector := by
    intro w hw
    rw [validateVector] at hw
    split_ifs at hw
    exact (Except.ok.inj hw).symm
  constructor
  · intro h
    exact ⟨⟨out, h⟩, hsame out h⟩
  · rintro ⟨⟨w, hw⟩, rfl⟩
    rwa [hsame w hw] at hw

theorem takeVector_ok_iff {item : ProviderEmbedding} {n dimensions : ℕ} {out : List F32Bits} :
    takeVector f dimensions (item, n) = .ok out ↔
      item.index = n ∧ Passes f dimensions item.embedding ∧ out = item.embedding := by
  rw [takeVector]
  by_cases hindex : item.index = n
  · rw [if_neg (not_not.mpr hindex), validateVector_ok_iff]
    exact ⟨fun h => ⟨hindex, h⟩, fun h => h.2⟩
  · rw [if_pos hindex]
    constructor
    · intro h
      cases h
    · rintro ⟨h, -⟩
      exact absurd h hindex

/-- The items are taken if the indices count up from the first position. -/
theorem mapM_takeVector_ok_iff {dimensions : ℕ} (l : List ProviderEmbedding) :
    ∀ {k : ℕ} {vectors : List (List F32Bits)},
      (l.zipIdx k).mapM (takeVector f dimensions) = .ok vectors ↔
        l.map ProviderEmbedding.index = List.range' k l.length ∧
          (∀ item ∈ l, Passes f dimensions item.embedding) ∧
          vectors = l.map ProviderEmbedding.embedding := by
  induction l with
  | nil =>
    intro k vectors
    rw [List.zipIdx_nil, List.mapM_nil, pure_ok_iff]
    simp [eq_comm]
  | cons item l ih =>
    intro k vectors
    rw [List.zipIdx_cons, List.mapM_cons, bind_ok_iff]
    simp only [bind_ok_iff, ih, takeVector_ok_iff, pure_ok_iff, List.map_cons, List.length_cons,
      List.range'_succ, List.cons.injEq, List.forall_mem_cons]
    constructor
    · rintro ⟨out, ⟨hindex, hpasses, rfl⟩, rest, ⟨hindices, hall, rfl⟩, rfl⟩
      exact ⟨⟨hindex, hindices⟩, ⟨hpasses, hall⟩, rfl⟩
    · rintro ⟨⟨hindex, hindices⟩, ⟨hpasses, hall⟩, rfl⟩
      exact ⟨_, ⟨hindex, hpasses, rfl⟩, _, ⟨hindices, hall, rfl⟩, rfl⟩

variable {inputs : List EmbeddingInput} {dimensions n : ℕ} {data data' : List ProviderEmbedding}
  {vectors : List (List F32Bits)}

theorem sorted_perm (data : List ProviderEmbedding) :
    (sorted ProviderEmbedding.index data).Perm data :=
  List.perm_insertionSort _ data

/-- **Sorting makes the indices count up exactly if they are a permutation.** -/
theorem map_index_sorted_iff : (sorted ProviderEmbedding.index data).map ProviderEmbedding.index
    = List.range n ↔ (data.map ProviderEmbedding.index).Perm (List.range n) := by
  have hperm := (sorted_perm data).map ProviderEmbedding.index
  constructor
  · intro h
    rw [← h]
    exact hperm.symm
  · intro h
    have : Std.Total fun a b : ProviderEmbedding => a.index ≤ b.index :=
      ⟨fun a b => le_total a.index b.index⟩
    have : IsTrans ProviderEmbedding fun a b => a.index ≤ b.index :=
      ⟨fun _ _ _ hab hbc => hab.trans hbc⟩
    have hsorted : ((sorted ProviderEmbedding.index data).map ProviderEmbedding.index).Pairwise
        (· ≤ ·) :=
      List.pairwise_map.mpr (List.pairwise_insertionSort _ data)
    exact (hperm.trans h).eq_of_pairwise (fun _ _ _ _ hab hba => le_antisymm hab hba) hsorted
      List.pairwise_le_range

/-- **The pairing accepts exactly the permutations of the indices**, with vectors that
all pass, and gives the vectors in the order of their indices. -/
theorem pairVectors_ok_iff : pairVectors f inputs dimensions data = .ok vectors ↔
    ((data.map ProviderEmbedding.index).Perm (List.range inputs.length) ∧
      ∀ item ∈ data, Passes f dimensions item.embedding) ∧
    vectors = (sorted ProviderEmbedding.index data).map ProviderEmbedding.embedding := by
  have hmem : (∀ item ∈ sorted ProviderEmbedding.index data, Passes f dimensions item.embedding) ↔
      ∀ item ∈ data, Passes f dimensions item.embedding := by
    simp only [mem_sorted]
  rw [pairVectors, length_sorted]
  by_cases hlen : data.length = inputs.length
  · rw [if_neg (not_not.mpr hlen), mapM_takeVector_ok_iff, hmem, length_sorted, hlen,
      ← List.range_eq_range', map_index_sorted_iff, and_assoc]
  · rw [if_pos hlen]
    constructor
    · intro h
      cases h
    · rintro ⟨⟨hperm, -⟩, -⟩
      have := hperm.length_eq
      rw [List.length_map, List.length_range] at this
      exact absurd this hlen

/-- **At position `i` stands the vector of index `i`.** -/
theorem getElem?_pairVectors (h : pairVectors f inputs dimensions data = .ok vectors) (i : ℕ)
    (v : List F32Bits) : vectors[i]? = some v ↔ (⟨i, v⟩ : ProviderEmbedding) ∈ data := by
  obtain ⟨⟨hperm, -⟩, rfl⟩ := pairVectors_ok_iff.mp h
  have hindices := map_index_sorted_iff.mpr hperm
  have hindex : ∀ (j : ℕ) (item : ProviderEmbedding),
      (sorted ProviderEmbedding.index data)[j]? = some item → item.index = j := by
    intro j item hj
    have hmap := congrArg (·[j]?) hindices
    simp only [List.getElem?_map, hj, Option.map_some] at hmap
    have hlt : j < inputs.length := by
      by_contra hge
      rw [List.getElem?_eq_none (by rw [List.length_range]; omega)] at hmap
      cases hmap
    rw [List.getElem?_range hlt] at hmap
    exact Option.some.inj hmap
  have hmem : ∀ item, item ∈ sorted ProviderEmbedding.index data ↔ item ∈ data :=
    fun _ => mem_sorted
  rw [List.getElem?_map, Option.map_eq_some_iff, ← hmem]
  constructor
  · rintro ⟨item, hitem, rfl⟩
    rw [← hindex i item hitem]
    exact List.mem_of_getElem? hitem
  · intro hitem
    obtain ⟨j, hj⟩ := List.mem_iff_getElem?.mp hitem
    obtain rfl : i = j := hindex j _ hj
    exact ⟨_, hj, rfl⟩

theorem distinct_of_perm_range
    (h : (data.map ProviderEmbedding.index).Perm (List.range n)) :
    Distinct ProviderEmbedding.index data := by
  have hnodup := h.nodup_iff.mpr List.nodup_range
  exact List.pairwise_map.mp hnodup

/-- With distinct indices the order of the response does not matter at all. -/
theorem pairVectors_of_perm (hdistinct : Distinct ProviderEmbedding.index data)
    (hperm : data'.Perm data) :
    pairVectors f inputs dimensions data' = pairVectors f inputs dimensions data := by
  have hdistinct' : Distinct ProviderEmbedding.index data' :=
    hperm.symm.pairwise hdistinct fun hab => hab.symm
  have hsame : sorted ProviderEmbedding.index data' = sorted ProviderEmbedding.index data :=
    (increasing_sorted hdistinct').ext (increasing_sorted hdistinct) fun a => by
      rw [mem_sorted, mem_sorted, hperm.mem_iff]
  rw [pairVectors, pairVectors, hsame]

/-- In any case the order of the response does not matter for success. -/
theorem pairVectors_ok_of_perm (hperm : data'.Perm data) :
    pairVectors f inputs dimensions data' = .ok vectors ↔
      pairVectors f inputs dimensions data = .ok vectors := by
  have hof : ∀ {l m : List ProviderEmbedding}, l.Perm m →
      pairVectors f inputs dimensions l = .ok vectors →
      pairVectors f inputs dimensions m = .ok vectors := by
    intro l m hlm hl
    have hdistinct := distinct_of_perm_range (pairVectors_ok_iff.mp hl).1.1
    rw [pairVectors_of_perm hdistinct hlm.symm]
    exact hl
  exact ⟨hof hperm, hof hperm.symm⟩

/-- An index that is missing, repeated or out of range. -/
def Misnumbered (n : ℕ) (data : List ProviderEmbedding) : Prop :=
  (∃ i < n, i ∉ data.map ProviderEmbedding.index) ∨
    ¬ (data.map ProviderEmbedding.index).Nodup ∨
    ∃ item ∈ data, n ≤ item.index

theorem not_perm_of_misnumbered (h : Misnumbered n data) :
    ¬ (data.map ProviderEmbedding.index).Perm (List.range n) := by
  intro hperm
  obtain ⟨i, hi, hmissing⟩ | hrepeated | ⟨item, hitem, hlarge⟩ := h
  · exact hmissing (hperm.mem_iff.mpr (List.mem_range.mpr hi))
  · exact hrepeated (hperm.nodup_iff.mpr List.nodup_range)
  · have := List.mem_range.mp (hperm.mem_iff.mp (List.mem_map_of_mem hitem))
    omega

/-! ### The request -/

variable {post post' : ProviderRequest → Option String → Except SendError HttpResponse}
  {self : QueryEmbeddingService}

/-- The provider answers the request for the inputs with these items. -/
def Answers (post : ProviderRequest → Option String → Except SendError HttpResponse)
    (self : QueryEmbeddingService) (inputs : List EmbeddingInput)
    (data : List ProviderEmbedding) : Prop :=
  ∃ response model, post (self.payload inputs) self.apiKey = .ok response ∧
    (200 ≤ response.status ∧ response.status ≤ 299) ∧ response.json = .ok ⟨data, model⟩ ∧
    (model = none ∨ model = some self.model)

theorem validateProviderModel_ok {model : Option String} {configured : String}
    (h : model = none ∨ model = some configured) :
    validateProviderModel f model configured = .ok () := by
  obtain rfl | rfl := h
  · rfl
  · exact if_neg (not_not.mpr rfl)

theorem mapM_validateInput (l : List EmbeddingInput)
    (h : ∀ input ∈ l, f.validateInput input = .ok ()) :
    ∃ units, (l.mapM fun input => (f.validateInput input).mapError fun error =>
      (⟨error.code, error.message, false⟩ : QueryEmbeddingError)) = .ok units := by
  induction l with
  | nil => exact ⟨[], rfl⟩
  | cons input l ih =>
    obtain ⟨hinput, hrest⟩ := List.forall_mem_cons.mp h
    obtain ⟨units, hunits⟩ := ih hrest
    refine ⟨() :: units, ?_⟩
    rw [List.mapM_cons, hinput, hunits]
    rfl

/-- **What `embed_inputs` does with an answer**: it pairs the vectors and takes the
centroid of what the pairing hands on. -/
theorem embedInputs_of_answers (hinputs : inputs ≠ [])
    (hvalid : ∀ input ∈ inputs, f.validateInput input = .ok ())
    (h : Answers post self inputs data) :
    embedInputs f post self inputs =
      (pairVectors f inputs self.dimensions data >>= fun vectors =>
        weightedCentroid f inputs vectors self.dimensions) := by
  obtain ⟨⟨status, text, json⟩, model, hpost, hstatus, hjson, hmodel⟩ := h
  obtain ⟨units, hunits⟩ := mapM_validateInput inputs hvalid
  have hfull : inputs.isEmpty = false := by
    rwa [List.isEmpty_eq_false_iff]
  dsimp only at hstatus hjson
  subst hjson
  rw [embedInputs, hfull, hunits, hpost]
  simp only [Bool.false_eq_true, if_false, not_true_eq_false, hstatus, and_self, Except.mapError,
    bind, Except.bind, validateProviderModel_ok hmodel]

/-- **The vectors of the provider are paired with the right inputs.** -/
theorem provider_vectors_paired (f : Floats) (self : QueryEmbeddingService)
    (inputs : List EmbeddingInput) (hinputs : inputs ≠ [])
    (hvalid : ∀ input ∈ inputs, f.validateInput input = .ok ()) (data : List ProviderEmbedding) :
    ((∃ vectors, pairVectors f inputs self.dimensions data = .ok vectors) ↔
      (data.map ProviderEmbedding.index).Perm (List.range inputs.length) ∧
        ∀ item ∈ data, Passes f self.dimensions item.embedding) ∧
    (∀ vectors, pairVectors f inputs self.dimensions data = .ok vectors →
      vectors.length = inputs.length ∧
        ∀ i v, vectors[i]? = some v ↔ (⟨i, v⟩ : ProviderEmbedding) ∈ data) ∧
    ∀ post, Answers post self inputs data →
      embedInputs f post self inputs =
        (pairVectors f inputs self.dimensions data >>= fun vectors =>
          weightedCentroid f inputs vectors self.dimensions) ∧
      (Misnumbered inputs.length data → ∃ error, embedInputs f post self inputs = .error error) ∧
      ∀ data' post', data'.Perm data → Answers post' self inputs data' →
        (∀ centroid, embedInputs f post' self inputs = .ok centroid ↔
          embedInputs f post self inputs = .ok centroid) ∧
        ((data.map ProviderEmbedding.index).Nodup →
          embedInputs f post' self inputs = embedInputs f post self inputs) := by
  refine ⟨?_, ?_, ?_⟩
  · constructor
    · rintro ⟨vectors, h⟩
      exact (pairVectors_ok_iff.mp h).1
    · intro h
      exact ⟨_, pairVectors_ok_iff.mpr ⟨h, rfl⟩⟩
  · intro vectors h
    refine ⟨?_, getElem?_pairVectors h⟩
    obtain ⟨⟨hperm, -⟩, rfl⟩ := pairVectors_ok_iff.mp h
    have hlength := hperm.length_eq
    rw [List.length_map, List.length_range] at hlength
    rw [List.length_map, length_sorted, hlength]
  · intro post hpost
    have hembed := embedInputs_of_answers hinputs hvalid hpost
    refine ⟨hembed, fun hbad => ?_, fun data' post' hperm hpost' => ?_⟩
    · rw [hembed]
      cases hpair : pairVectors f inputs self.dimensions data with
      | error error => exact ⟨error, rfl⟩
      | ok vectors =>
        exact absurd (pairVectors_ok_iff.mp hpair).1.1 (not_perm_of_misnumbered hbad)
    · rw [embedInputs_of_answers hinputs hvalid hpost', hembed]
      refine ⟨fun centroid => ?_, fun hnodup => ?_⟩
      · simp only [bind_ok_iff, pairVectors_ok_of_perm hperm]
      · rw [pairVectors_of_perm (List.pairwise_map.mp hnodup) hperm]

/-! ### A provider -/

/-- The operations on values for which they are exact. -/
def Floats.exact : Floats where
  F64 := ℚ
  ofF32 v := if v = 0 then 0 else
    (1 + ((v.toNat % 2 ^ 23 : ℕ) : ℚ) / 2 ^ 23) * 2 ^ (((v.toNat / 2 ^ 23 : ℕ) : ℤ) - 127)
  ofWeight := F32.val
  zero := 0
  sumZero := 0
  epsilon := 1 / 2 ^ 52
  add := (· + ·)
  mul := (· * ·)
  div := (· / ·)
  square q := q * q
  sqrt q := (q.num.toNat.sqrt : ℚ) / q.den.sqrt
  le a b := decide (a ≤ b)
  toF32 q := if q = 0 then 0 else UInt32.ofNat ((Int.log 2 q + 127).toNat * 2 ^ 23 +
    ((q / 2 ^ Int.log 2 q - 1) * 2 ^ 23).num.toNat)
  validateInput input :=
    if 1 ≤ input.text.length ∧ input.text.length ≤ 700 then .ok ()
    else .error ⟨"invalid_embedding_input", "embedding input text must have 1 to 700 characters"⟩
  debugText value := "\"" ++ value ++ "\""

def sampleService : QueryEmbeddingService := ⟨none, "sample", 2⟩

def sampleInputs : List EmbeddingInput :=
  [⟨.query, 0, "acme recall", queryWeight⟩, ⟨.keyword, 1, "recall", keywordWeight⟩]

/-- A provider that answers every request with these items. -/
def answering (data : List ProviderEmbedding) (_ : ProviderRequest) (_ : Option String) :
    Except SendError HttpResponse :=
  .ok ⟨200, none, .ok ⟨data, some "sample"⟩⟩

/-- The vectors `[1, 0]` and `[2, 0]`, the second one first. -/
def sampleData : List ProviderEmbedding := [⟨1, [0x40000000, 0]⟩, ⟨0, [0x3f800000, 0]⟩]

/-- One index twice, with `[1, 0]` and with a vector of one number. -/
def repeatedIndex : List ProviderEmbedding := [⟨0, [0x3f800000, 0]⟩, ⟨0, [0x3f800000]⟩]

theorem answers_answering (data : List ProviderEmbedding) :
    Answers (answering data) sampleService sampleInputs data :=
  ⟨_, _, rfl, ⟨by simp, by simp⟩, rfl, .inr rfl⟩

theorem sampleInputs_valid : ∀ input ∈ sampleInputs, Floats.exact.validateInput input = .ok () := by
  decide

theorem provider_vectors_paired_sample :
    embedInputs .exact (answering sampleData) sampleService sampleInputs =
      .ok [0x3f800000, 0] ∧
    embedInputs .exact (answering sampleData.reverse) sampleService sampleInputs =
      embedInputs .exact (answering sampleData) sampleService sampleInputs ∧
    ∃ error, embedInputs .exact (answering repeatedIndex) sampleService sampleInputs =
      .error error := by
  have hpaired := provider_vectors_paired .exact sampleService sampleInputs (by decide)
    sampleInputs_valid
  refine ⟨by decide +kernel, ?_, ?_⟩
  · exact (((hpaired sampleData).2.2 _ (answers_answering _)).2.2 _ _ (List.reverse_perm _)
      (answers_answering _)).2 (by decide)
  · exact ((hpaired repeatedIndex).2.2 _ (answers_answering _)).2.1 (.inr (.inl (by decide)))

/-- **With a repeated index the error depends on the order**: the pairing reports the
first item that it cannot take. -/
theorem repeated_index_first_error :
    sampleInputs ≠ [] ∧ (∀ input ∈ sampleInputs, Floats.exact.validateInput input = .ok ()) ∧
    repeatedIndex.reverse.Perm repeatedIndex ∧
    embedInputs .exact (answering repeatedIndex) sampleService sampleInputs =
      .error ⟨"embedding_index_mismatch", "embedding provider returned non-contiguous indices",
        false⟩ ∧
    embedInputs .exact (answering repeatedIndex.reverse) sampleService sampleInputs =
      .error ⟨"embedding_dimension_mismatch",
        "embedding provider returned 1 dimensions; expected 2", false⟩ := by
  refine ⟨by decide, sampleInputs_valid, List.reverse_perm _, ?_, ?_⟩
  · decide +kernel
  · decide

end QueryEmbedding

end EmbeddedAlerts
