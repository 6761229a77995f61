import EmbeddedAlerts.QueryViews
import EmbeddedAlerts.QueryEmbedding
import EmbeddedAlerts.Origins

/-!
# The semantic query probe

`src/bin/semantic_query_probe.rs` takes a query and an embedding space from its
environment, analyses the query, has the provider embed the texts and prints what it
found: the views of the query, and the number of dimensions and the norm of the
centroid, without its values.  `QueryEmbeddingService::from_env` decides where the
texts may be sent, and `crates/interfaces-compat` which embedding spaces there are.

The crates behind it are in `Crates`; the client with the network behind it is
`Network`.  A report is printed exactly for a query, a space, an endpoint and an
answer that are all in order, and the client is asked for one request at most, to
an endpoint that is trusted.
-/

namespace EmbeddedAlerts

/-- `Url::host_str`: an IPv6 address stands in brackets. -/
def Url.hostStr (u : Url) : Option String :=
  match u.host with
  | some (.domain name) => some name
  | some (.ipv4 address) => some address
  | some (.ipv6 address) => some ("[" ++ address ++ "]")
  | none => none

namespace Probe

open Query QueryEmbedding Text

/-! ### The embedding space -/

structure EmbeddingSpaceConfig where
  provider : String
  model : String
  modelVersion : String
  dimensions : UInt32
  normalization : VectorNormalization
deriving DecidableEq, Repr

structure RawEmbeddingSpaceConfig where
  provider : String
  model : String
  modelVersion : String
  dimensions : UInt32
  normalization : VectorNormalization
deriving DecidableEq, Repr

/-- The text is blank, or it has more bytes than there may be. -/
def Unfit (value : String) (bytes : ℕ) : Prop :=
  (Alerts.trimString value).isEmpty = true ∨ value.utf8ByteSize > bytes

instance decidableUnfit (value : String) (bytes : ℕ) : Decidable (Unfit value bytes) :=
  inferInstanceAs (Decidable (_ ∨ _))

/-- `EmbeddingSpaceConfig::validate`. -/
def EmbeddingSpaceConfig.validate (self : EmbeddingSpaceConfig) : Except String Unit := do
  rejectIf (Unfit self.provider 128) "embedding provider must contain between 1 and 128 bytes"
  rejectIf (Unfit self.model 256) "embedding model must contain between 1 and 256 bytes"
  rejectIf (Unfit self.modelVersion 256)
    "embedding model_version must contain between 1 and 256 bytes"
  rejectIf (¬ (1 ≤ self.dimensions.toNat ∧ self.dimensions.toNat ≤ 32768))
    "embedding dimensions must be between 1 and 32768"
  rejectIf (self.normalization = .none)
    "query embedding spaces must use l2 or unit_length normalization"

/-- What the probe calls of other crates. -/
structure Crates where
  chars : CharClasses
  contracts : Contracts
  floats : Floats
  platform : Platform
  /-- `RawEmbeddingSpaceConfig::deserialize`, of the value the text starts with. -/
  rawSpace : String → Except String RawEmbeddingSpaceConfig
  /-- `serde::de::Error::custom`. -/
  customError : String → String
  /-- `Deserializer::end`: nothing follows the value. -/
  atEnd : String → Except String Unit
  /-- `ClientBuilder::build`. -/
  buildClient : Except String Unit
  /-- `EmbeddingInputKind::wire_name`. -/
  wireName : EmbeddingInputKind → String

variable (x : Crates) (env : String → Option String)

/-- `EmbeddingSpaceConfig::deserialize`. -/
def EmbeddingSpaceConfig.deserialize (text : String) : Except String EmbeddingSpaceConfig := do
  let raw ← x.rawSpace text
  let config : EmbeddingSpaceConfig :=
    ⟨raw.provider, raw.model, raw.modelVersion, raw.dimensions, raw.normalization⟩
  config.validate.mapError x.customError
  return config

/-- `serde_json::from_str`. -/
def EmbeddingSpaceConfig.fromStr (text : String) : Except String EmbeddingSpaceConfig := do
  let config ← EmbeddingSpaceConfig.deserialize x text
  x.atEnd text
  return config

/-! ### The service -/

/-- `nonempty_env`. -/
def nonemptyEnv (name : String) : Option String :=
  ((env name).map Alerts.trimString).filter fun value => !value.isEmpty

/-- `required_env`. -/
def requiredEnv (name : String) : Except String String :=
  okOr (nonemptyEnv env name) (name ++ " is required")

/-- `validate_endpoint`. -/
def validateEndpoint (endpoint : Url) (environment : String) : Except QueryEmbeddingError Unit := do
  rejectIf (endpoint.username ≠ "" ∨ endpoint.password.isSome ∨ endpoint.query.isSome
      ∨ endpoint.fragment.isSome)
    ⟨"invalid_embedding_endpoint",
      "embedding endpoint must not contain credentials, a query string, or a fragment", false⟩
  let secure := endpoint.scheme == "https"
  let developmentLoopback := environment != "production" && endpoint.scheme == "http" &&
    (endpoint.hostStr == some "localhost" || endpoint.hostStr == some "127.0.0.1"
      || endpoint.hostStr == some "::1")
  rejectIf (secure = false ∧ developmentLoopback = false)
    ⟨"insecure_embedding_endpoint",
      "embedding endpoint must use HTTPS; development may use HTTP loopback only", false⟩

/-- `QueryEmbeddingService`, with its endpoint. -/
structure Service extends QueryEmbeddingService where
  endpoint : Url

/-- `QueryEmbeddingService::from_env`. -/
def Service.fromEnv (embeddingSpace : EmbeddingSpaceConfig) (environment : String) :
    Except QueryEmbeddingError (Option Service) :=
  match nonemptyEnv env "EAL_EMBEDDING_ENDPOINT" with
  | none => .ok none
  | some endpointValue => do
    let endpoint ← (x.platform.urlParse endpointValue).mapError fun error =>
      (⟨"invalid_embedding_endpoint", "EAL_EMBEDDING_ENDPOINT is invalid: " ++ error, false⟩ :
        QueryEmbeddingError)
    validateEndpoint endpoint environment
    x.buildClient.mapError fun error =>
      (⟨"embedding_client_build_failed", "could not build embedding HTTP client: " ++ error,
        false⟩ : QueryEmbeddingError)
    return some {
      apiKey := nonemptyEnv env "EAL_EMBEDDING_API_KEY"
      model := embeddingSpace.model
      dimensions := embeddingSpace.dimensions.toNat
      endpoint := endpoint }

/-! ### The probe -/

/-- The client: what becomes of a payload that is sent to an endpoint with a key. -/
abbrev Network : Type := Url → ProviderRequest → Option String → Except SendError HttpResponse

/-- `Display` of an error with a code and a message. -/
def displayError (code message : String) : String := code ++ ": " ++ message

structure InputReport where
  kind : String
  ordinal : UInt16
  characters : ℕ
  weight : F32
deriving DecidableEq

structure VectorReport (F64 : Type) where
  dimensions : ℕ
  l2Norm : F64
  valuesExposed : Bool

/-- What the probe prints. -/
structure Report (F64 : Type) where
  query : String
  keywords : List String
  entities : List String
  embeddingInputs : List InputReport
  vector : VectorReport F64

/-- The report of the views of a query and their centroid. -/
def report (views : QueryTextViews) (vector : List F32Bits) : Report x.floats.F64 where
  query := views.queryText
  keywords := views.keywords
  entities := views.entities
  embeddingInputs := views.embeddingInputs.map fun input =>
    ⟨x.wireName input.kind, input.ordinal, input.text.length, input.weight⟩
  vector := {
    dimensions := vector.length
    l2Norm := magnitude x.floats (vector.map x.floats.ofF32)
    valuesExposed := false }

/-- `main`, up to the request. -/
def prepare : Except String (QueryTextViews × Service) := do
  let query ← requiredEnv env "EAL_QUERY_TEXT"
  let embeddingSpaceJson ← requiredEnv env "EAL_EMBEDDING_SPACE_JSON"
  let embeddingSpace ← EmbeddingSpaceConfig.fromStr x embeddingSpaceJson
  let environment := (env "APP_ENV").getD "development"
  let views ← (analyzeQuery x.chars x.contracts query).mapError fun error =>
    displayError error.code error.message
  let service ← (Service.fromEnv x env embeddingSpace environment).mapError fun error =>
    displayError error.code error.message
  let service ← okOr service "EAL_EMBEDDING_ENDPOINT is required for semantic_query_probe"
  return (views, service)

/-- `main`. -/
def probe (network : Network) : Except String (Report x.floats.F64) := do
  let prepared ← prepare x env
  let vector ← (embedInputs x.floats (network prepared.2.endpoint)
    prepared.2.toQueryEmbeddingService prepared.1.embeddingInputs).mapError fun error =>
      displayError error.code error.message
  return report x prepared.1 vector

end Probe

namespace QueryEmbedding

open Query Sql Text

/-! ### The centroid -/

section Centroid

variable (f : Floats)

/-- The turn of the loop for a vector that passes. -/
def addVector (sum : List f.F64 × f.F64) (pair : EmbeddingInput × List F32Bits) :
    List f.F64 × f.F64 :=
  (List.zipWith (fun total value => f.add total
      (f.mul (f.div (f.ofF32 value) (magnitude f (pair.2.map f.ofF32))) (f.ofWeight pair.1.weight)))
    sum.1 pair.2, f.add sum.2 (f.ofWeight pair.1.weight))

/-- The weighted sum of the vectors, each one divided by its magnitude, and the sum of
the weights. -/
def weightedSum (dimensions : ℕ) (pairs : List (EmbeddingInput × List F32Bits)) :
    List f.F64 × f.F64 :=
  pairs.foldl (addVector f) (List.replicate dimensions f.zero, f.zero)

/-- The weighted mean. -/
def centroid (dimensions : ℕ) (pairs : List (EmbeddingInput × List F32Bits)) : List f.F64 :=
  (weightedSum f dimensions pairs).1.map fun value =>
    f.div value (weightedSum f dimensions pairs).2

/-- The vector is the mean of the pairs at unit length: there is some weight, and the
mean does not vanish. -/
structure Centered (dimensions : ℕ) (pairs : List (EmbeddingInput × List F32Bits))
    (vector : List F32Bits) : Prop where
  weight : f.le (weightedSum f dimensions pairs).2 f.epsilon = false
  size : f.le (magnitude f (centroid f dimensions pairs)) f.epsilon = false
  vector : vector = (centroid f dimensions pairs).map fun value =>
    f.toF32 (f.div value (magnitude f (centroid f dimensions pairs)))

variable {f} {dimensions : ℕ} {pairs : List (EmbeddingInput × List F32Bits)}
  {inputs : List EmbeddingInput} {vectors : List (List F32Bits)} {vector : List F32Bits}

theorem passes_iff : Passes f dimensions vector ↔ vector.length = dimensions ∧
    (∀ value ∈ vector, isFinite value = true) ∧
    f.le (magnitude f (vector.map f.ofF32)) f.epsilon = false := by
  rw [Passes, validateVector]
  by_cases hlength : vector.length = dimensions
  · rw [if_neg (not_not.mpr hlength)]
    by_cases hfinite : vector.any (fun value => !isFinite value) = true
    · rw [if_pos hfinite]
      simp only [List.any_eq_true, Bool.not_eq_true'] at hfinite
      obtain ⟨value, hmem, hvalue⟩ := hfinite
      constructor
      · rintro ⟨out, hout⟩
        cases hout
      · rintro ⟨-, hall, -⟩
        rw [hall value hmem] at hvalue
        cases hvalue
    · rw [if_neg hfinite]
      have hall : ∀ value ∈ vector, isFinite value = true := by
        intro value hmem
        by_contra hvalue
        exact hfinite (List.any_eq_true.mpr ⟨value, hmem, by simpa using hvalue⟩)
      by_cases hsize : f.le (magnitude f (vector.map f.ofF32)) f.epsilon = true
      · rw [if_pos hsize, hsize]
        simp
      · rw [if_neg hsize]
        exact ⟨fun _ => ⟨hlength, hall, Bool.not_eq_true _ ▸ hsize⟩, fun _ => ⟨vector, rfl⟩⟩
  · rw [if_pos hlength]
    constructor
    · rintro ⟨out, hout⟩
      cases hout
    · rintro ⟨h, -⟩
      exact absurd h hlength

/-- A vector that passes is added. -/
theorem accumulate_of_passes {sum : List f.F64 × f.F64} {pair : EmbeddingInput × List F32Bits}
    (h : Passes f dimensions pair.2) :
    accumulate f dimensions sum pair = .ok (addVector f sum pair) := by
  obtain ⟨hlength, -, hsize⟩ := passes_iff.mp h
  rw [accumulate, if_neg (not_not.mpr hlength)]
  dsimp only
  rw [if_neg (by rw [hsize]; exact Bool.false_ne_true)]
  rfl

theorem length_addVector {sum : List f.F64 × f.F64} {pair : EmbeddingInput × List F32Bits}
    (hsum : sum.1.length = dimensions) (hpair : pair.2.length = dimensions) :
    (addVector f sum pair).1.length = dimensions := by
  rw [addVector, List.length_zipWith, hsum, hpair]
  exact Nat.min_self dimensions

/-- The sum has the dimensions of the vectors. -/
theorem length_weightedSum (h : ∀ pair ∈ pairs, pair.2.length = dimensions) :
    (weightedSum f dimensions pairs).1.length = dimensions := by
  have hloop : ∀ (l : List (EmbeddingInput × List F32Bits)) (sum : List f.F64 × f.F64),
      (∀ pair ∈ l, pair.2.length = dimensions) → sum.1.length = dimensions →
      (l.foldl (addVector f) sum).1.length = dimensions := by
    intro l
    induction l with
    | nil =>
      intro sum _ hsum
      exact hsum
    | cons pair l ih =>
      intro sum hl hsum
      obtain ⟨hpair, hrest⟩ := List.forall_mem_cons.mp hl
      exact ih _ hrest (length_addVector hsum hpair)
  exact hloop pairs _ h List.length_replicate

theorem Centered.length (hv : Centered f dimensions pairs vector)
    (h : ∀ pair ∈ pairs, pair.2.length = dimensions) : vector.length = dimensions := by
  rw [hv.vector, List.length_map, centroid, List.length_map]
  exact length_weightedSum h

/-- **The centroid of vectors that pass** fails for no weight and for a mean that
vanishes, and for nothing else. -/
theorem weightedCentroid_ok_iff (hlength : inputs.length = vectors.length)
    (hpos : dimensions ≠ 0) (hpass : ∀ v ∈ vectors, Passes f dimensions v) :
    weightedCentroid f inputs vectors dimensions = .ok vector ↔
      Centered f dimensions (inputs.zip vectors) vector := by
  have hloop : (inputs.zip vectors).foldlM (accumulate f dimensions)
      (List.replicate dimensions f.zero, f.zero) =
      .ok (weightedSum f dimensions (inputs.zip vectors)) := by
    refine foldlM_of_ok fun pair hpair sum => ?_
    exact accumulate_of_passes (hpass _ (List.of_mem_zip hpair).2)
  have hstart : ¬ (inputs.length ≠ vectors.length ∨ dimensions = 0) := by
    rintro (h | h)
    · exact h hlength
    · exact hpos h
  rw [weightedCentroid, if_neg hstart, bind_ok_iff]
  constructor
  · rintro ⟨sum, hsum, h⟩
    obtain rfl := Except.ok.inj (hloop.symm.trans hsum)
    rw [ite_throw_ok_iff, ite_throw_ok_iff, Bool.not_eq_true, Bool.not_eq_true, pure_ok_iff] at h
    exact ⟨h.1, h.2.1, h.2.2.symm⟩
  · intro h
    refine ⟨_, hloop, ?_⟩
    rw [ite_throw_ok_iff, ite_throw_ok_iff, Bool.not_eq_true, Bool.not_eq_true, pure_ok_iff]
    exact ⟨h.weight, h.size, h.vector.symm⟩

end Centroid

/-! ### What the provider certifies -/

section Certified

/-- The inputs are valid, and the provider answers with a vector for each of them, whose
mean at unit length is `vector`. -/
structure Certified (f : Floats)
    (post : ProviderRequest → Option String → Except SendError HttpResponse)
    (self : QueryEmbeddingService) (inputs : List EmbeddingInput) (vector : List F32Bits) :
    Prop where
  valid : ∀ input ∈ inputs, f.validateInput input = .ok ()
  answer : ∃ data vectors, Answers post self inputs data ∧
    (data.map ProviderEmbedding.index).Perm (List.range inputs.length) ∧
    (∀ item ∈ data, Passes f self.dimensions item.embedding) ∧
    (∀ i v, vectors[i]? = some v ↔ (⟨i, v⟩ : ProviderEmbedding) ∈ data) ∧
    Centered f self.dimensions (inputs.zip vectors) vector

variable {f : Floats} {post post' : ProviderRequest → Option String → Except SendError HttpResponse}
  {self : QueryEmbeddingService} {inputs : List EmbeddingInput} {vector : List F32Bits}

theorem validateProviderModel_ok_iff {model : Option String} {configured : String} {u : Unit} :
    validateProviderModel f model configured = .ok u ↔
      model = none ∨ model = some configured := by
  constructor
  · intro h
    cases model with
    | none => exact .inl rfl
    | some returned =>
      by_cases hsame : returned = configured
      · exact .inr (congrArg some hsame)
      · rw [validateProviderModel, if_pos hsame] at h
        cases h
  · exact validateProviderModel_ok

theorem of_mapM_validateInput : ∀ (l : List EmbeddingInput) {units : List Unit},
    (l.mapM fun input => (f.validateInput input).mapError fun error =>
      (⟨error.code, error.message, false⟩ : QueryEmbeddingError)) = .ok units →
    ∀ input ∈ l, f.validateInput input = .ok () := by
  intro l
  induction l with
  | nil =>
    intro units _ input hinput
    exact absurd hinput List.not_mem_nil
  | cons first l ih =>
    intro units h
    rw [List.mapM_cons, bind_ok_iff] at h
    obtain ⟨u, hfirst, h⟩ := h
    obtain ⟨rest, hrest, -⟩ := bind_ok_iff.mp h
    exact List.forall_mem_cons.mpr ⟨mapError_ok_iff.mp hfirst, ih hrest⟩

/-- What has to hold for `embed_inputs` to get to the pairing. -/
theorem answers_of_embedInputs (h : embedInputs f post self inputs = .ok vector) :
    inputs ≠ [] ∧ (∀ input ∈ inputs, f.validateInput input = .ok ()) ∧
      ∃ data, Answers post self inputs data := by
  rw [embedInputs, ite_throw_ok_iff, bind_ok_iff] at h
  obtain ⟨hne, units, hunits, h⟩ := h
  obtain ⟨response, hpost, h⟩ := bind_ok_iff.mp h
  rw [ite_throw_ok_iff, not_not] at h
  obtain ⟨hstatus, h⟩ := h
  obtain ⟨answer, hjson, h⟩ := bind_ok_iff.mp h
  obtain ⟨u, hmodel, -⟩ := bind_ok_iff.mp h
  refine ⟨fun hnil => hne (List.isEmpty_iff.mpr hnil), of_mapM_validateInput inputs hunits, ?_⟩
  exact ⟨answer.data, response, answer.model, mapError_ok_iff.mp hpost, hstatus,
    mapError_ok_iff.mp hjson, validateProviderModel_ok_iff.mp hmodel⟩

/-- The vectors of a pairing have the dimensions that were asked for. -/
theorem length_of_pairVectors {data : List ProviderEmbedding} {vectors : List (List F32Bits)}
    {dimensions : ℕ} (h : pairVectors f inputs dimensions data = .ok vectors) :
    vectors.length = inputs.length ∧ ∀ v ∈ vectors, Passes f dimensions v := by
  obtain ⟨⟨hperm, hpass⟩, rfl⟩ := pairVectors_ok_iff.mp h
  constructor
  · have hlength := hperm.length_eq
    rw [List.length_map, List.length_range] at hlength
    rw [List.length_map, length_sorted, hlength]
  · intro v hv
    obtain ⟨item, hitem, rfl⟩ := List.mem_map.mp hv
    exact hpass item (mem_sorted.mp hitem)

/-- **`embed_inputs` succeeds exactly on what the provider certifies.** -/
theorem embedInputs_ok_iff (hpos : self.dimensions ≠ 0) (hne : inputs ≠ []) :
    embedInputs f post self inputs = .ok vector ↔ Certified f post self inputs vector := by
  constructor
  · intro h
    obtain ⟨-, hvalid, data, hdata⟩ := answers_of_embedInputs h
    rw [embedInputs_of_answers hne hvalid hdata, bind_ok_iff] at h
    obtain ⟨vectors, hpair, h⟩ := h
    obtain ⟨hlength, hpass⟩ := length_of_pairVectors hpair
    refine ⟨hvalid, data, vectors, hdata, (pairVectors_ok_iff.mp hpair).1.1,
      (pairVectors_ok_iff.mp hpair).1.2, getElem?_pairVectors hpair, ?_⟩
    exact (weightedCentroid_ok_iff hlength.symm hpos hpass).mp h
  · rintro ⟨hvalid, data, vectors, hdata, hperm, hall, hat, hcentered⟩
    have hpair := pairVectors_ok_iff.mpr ⟨⟨hperm, hall⟩, rfl⟩
    have hsame : vectors = (sorted ProviderEmbedding.index data).map
        ProviderEmbedding.embedding := by
      refine List.ext_getElem? fun i => Option.ext fun v => ?_
      rw [hat i v, getElem?_pairVectors hpair i v]
    rw [← hsame] at hpair
    obtain ⟨hlength, hpass⟩ := length_of_pairVectors hpair
    rw [embedInputs_of_answers hne hvalid hdata, bind_ok_iff]
    exact ⟨vectors, hpair, (weightedCentroid_ok_iff hlength.symm hpos hpass).mpr hcentered⟩

/-- The vector has the dimensions of the service. -/
theorem Certified.length (h : Certified f post self inputs vector) :
    vector.length = self.dimensions := by
  obtain ⟨-, data, vectors, -, -, hall, hat, hcentered⟩ := h
  refine hcentered.length fun pair hpair => ?_
  obtain ⟨i, hi⟩ := List.mem_iff_getElem?.mp (List.of_mem_zip hpair).2
  exact (passes_iff.mp (hall _ ((hat i pair.2).mp hi))).1

/-- `embed_inputs` asks the client for the one request. -/
theorem embedInputs_congr
    (h : post (self.payload inputs) self.apiKey = post' (self.payload inputs) self.apiKey) :
    embedInputs f post self inputs = embedInputs f post' self inputs := by
  rw [embedInputs, embedInputs, h]

end Certified

end QueryEmbedding

namespace Probe

open Query QueryEmbedding Text

/-! ### What the probe asks for -/

/-- There is a text, within the bytes there may be. -/
def Fits (value : String) (bytes : ℕ) : Prop :=
  Alerts.trimString value ≠ "" ∧ value.utf8ByteSize ≤ bytes

instance decidableFits (value : String) (bytes : ℕ) : Decidable (Fits value bytes) :=
  inferInstanceAs (Decidable (_ ∧ _))

theorem not_unfit_iff {value : String} {bytes : ℕ} : ¬ Unfit value bytes ↔ Fits value bytes := by
  rw [Unfit, Fits, not_or, not_lt, String.isEmpty_iff]

/-- An embedding space that a query can be embedded in. -/
structure EmbeddingSpaceConfig.Usable (space : EmbeddingSpaceConfig) : Prop where
  provider : Fits space.provider 128
  model : Fits space.model 256
  modelVersion : Fits space.modelVersion 256
  dimensions : 1 ≤ space.dimensions.toNat ∧ space.dimensions.toNat ≤ 32768
  normalization : space.normalization = .l2 ∨ space.normalization = .unitLength

/-- An endpoint that may be sent a query: there is nothing in it besides the address,
and the way there is encrypted or, outside of production, does not leave the machine.
The machine is named or has its IPv4 address; `::1` is in the source as well, but an IPv6
host is never without its brackets. -/
structure Trusted (endpoint : Url) (environment : String) : Prop where
  bare : endpoint.username = "" ∧ endpoint.password = none ∧ endpoint.query = none ∧
    endpoint.fragment = none
  secure : endpoint.scheme = "https" ∨
    (endpoint.scheme = "http" ∧ environment ≠ "production" ∧
      ∃ name, (endpoint.host = some (.domain name) ∨ endpoint.host = some (.ipv4 name)) ∧
        (name = "localhost" ∨ name = "127.0.0.1" ∨ name = "::1"))

/-- What the probe has found before it asks the provider. -/
structure Cleared (x : Crates) (env : String → Option String) (views : QueryTextViews)
    (service : Service) : Prop where
  query : ∃ query, nonemptyEnv env "EAL_QUERY_TEXT" = some query ∧
    3 ≤ (collapseWhitespace query).length ∧ (collapseWhitespace query).length ≤ 700 ∧
    views = plainViews x.chars (collapseWhitespace query)
  space : ∃ text raw, nonemptyEnv env "EAL_EMBEDDING_SPACE_JSON" = some text ∧
    x.rawSpace text = .ok raw ∧ x.atEnd text = .ok () ∧
    EmbeddingSpaceConfig.Usable
      ⟨raw.provider, raw.model, raw.modelVersion, raw.dimensions, raw.normalization⟩ ∧
    service.model = raw.model ∧ service.dimensions = raw.dimensions.toNat
  endpoint : ∃ text, nonemptyEnv env "EAL_EMBEDDING_ENDPOINT" = some text ∧
    x.platform.urlParse text = .ok service.endpoint ∧
    Trusted service.endpoint ((env "APP_ENV").getD "development")
  client : x.buildClient = .ok ()
  apiKey : service.apiKey = nonemptyEnv env "EAL_EMBEDDING_API_KEY"

theorem EmbeddingSpaceConfig.validate_ok_iff {self : EmbeddingSpaceConfig} {u : Unit} :
    self.validate = .ok u ↔ self.Usable := by
  have hnormal : self.normalization ≠ .none ↔
      self.normalization = .l2 ∨ self.normalization = .unitLength := by
    cases self.normalization <;> simp
  rw [EmbeddingSpaceConfig.validate, rejectIf_bind, rejectIf_bind, rejectIf_bind, rejectIf_bind,
    rejectIf_ok_iff, not_unfit_iff, not_unfit_iff, not_unfit_iff, not_not]
  constructor
  · rintro ⟨hprovider, hmodel, hversion, hdimensions, hnormalization⟩
    exact ⟨hprovider, hmodel, hversion, hdimensions, hnormal.mp hnormalization⟩
  · intro h
    exact ⟨h.provider, h.model, h.modelVersion, h.dimensions, hnormal.mpr h.normalization⟩

/-- A space is read from a text that holds it and nothing else. -/
theorem EmbeddingSpaceConfig.fromStr_ok_iff {x : Crates} {text : String}
    {space : EmbeddingSpaceConfig} : EmbeddingSpaceConfig.fromStr x text = .ok space ↔
      ∃ raw, x.rawSpace text = .ok raw ∧ x.atEnd text = .ok () ∧ space.Usable ∧
        space = ⟨raw.provider, raw.model, raw.modelVersion, raw.dimensions,
          raw.normalization⟩ := by
  rw [EmbeddingSpaceConfig.fromStr, bind_ok_iff]
  simp only [EmbeddingSpaceConfig.deserialize, bind_ok_iff, mapError_ok_iff, pure_ok_iff,
    EmbeddingSpaceConfig.validate_ok_iff]
  constructor
  · rintro ⟨config, ⟨raw, hraw, u, husable, rfl⟩, u', hend, rfl⟩
    exact ⟨raw, hraw, hend, husable, rfl⟩
  · rintro ⟨raw, hraw, hend, husable, rfl⟩
    exact ⟨_, ⟨raw, hraw, (), husable, rfl⟩, (), hend, rfl⟩

/-- A text that does not start with a bracket is the host of no IPv6 endpoint. -/
theorem hostStr_eq_some_iff {endpoint : Url} {text : String}
    (h : text.toList.head? ≠ some '[') : endpoint.hostStr = some text ↔
      endpoint.host = some (.domain text) ∨ endpoint.host = some (.ipv4 text) := by
  rw [Url.hostStr]
  cases hhost : endpoint.host with
  | none => simp
  | some host =>
    cases host with
    | domain name => simp
    | ipv4 address => simp
    | ipv6 address =>
      have hne : "[" ++ address ++ "]" ≠ text := by
        rintro rfl
        exact h (by simp)
      simp [hne]

theorem validateEndpoint_ok_iff {endpoint : Url} {environment : String} {u : Unit} :
    validateEndpoint endpoint environment = .ok u ↔ Trusted endpoint environment := by
  have hlocal := @hostStr_eq_some_iff endpoint "localhost" (by decide)
  have hfour := @hostStr_eq_some_iff endpoint "127.0.0.1" (by decide)
  have hsix := @hostStr_eq_some_iff endpoint "::1" (by decide)
  rw [validateEndpoint, rejectIf_bind, rejectIf_ok_iff]
  simp only [not_or, not_not, Bool.not_eq_true, Option.isSome_eq_false_iff, Option.isNone_iff_eq_none,
    not_and, beq_eq_false_iff_ne, Bool.and_eq_true, Bool.or_eq_true, beq_iff_eq, bne_iff_ne,
    Bool.not_eq_false, hlocal, hfour, hsix]
  constructor
  · rintro ⟨hbare, hsecure⟩
    refine ⟨hbare, ?_⟩
    by_cases hscheme : endpoint.scheme = "https"
    · exact .inl hscheme
    · obtain ⟨⟨henvironment, hplain⟩, hhost⟩ := hsecure hscheme
      refine .inr ⟨hplain, henvironment, ?_⟩
      obtain (h | h) | h := hhost
      · exact ⟨_, h, .inl rfl⟩
      · exact ⟨_, h, .inr (.inl rfl)⟩
      · exact ⟨_, h, .inr (.inr rfl)⟩
  · rintro ⟨hbare, hsecure⟩
    refine ⟨hbare, fun hscheme => ?_⟩
    obtain h | ⟨hplain, henvironment, name, hhost, rfl | rfl | rfl⟩ := hsecure
    · exact absurd h hscheme
    · exact ⟨⟨henvironment, hplain⟩, .inl (.inl hhost)⟩
    · exact ⟨⟨henvironment, hplain⟩, .inl (.inr hhost)⟩
    · exact ⟨⟨henvironment, hplain⟩, .inr hhost⟩

/-! ### The run of the probe -/

section Run

variable {x : Crates} {env : String → Option String} {network network' : Network}
  {views : QueryTextViews} {service : Service}

theorem requiredEnv_ok_iff {name value : String} :
    requiredEnv env name = .ok value ↔ nonemptyEnv env name = some value := by
  rw [requiredEnv, okOr_ok_iff]

/-- A query is analysed if it is neither too short nor too long. -/
theorem analyzeQuery_ok_iff (hwhite : x.chars.isWhitespace = isWhitespace)
    (hk : x.contracts.Lawful) {query : String} :
    analyzeQuery x.chars x.contracts query = .ok views ↔
      3 ≤ (collapseWhitespace query).length ∧ (collapseWhitespace query).length ≤ 700 ∧
        views = plainViews x.chars (collapseWhitespace query) := by
  constructor
  · intro h
    have hrange := h
    rw [analyzeQuery, ite_throw_ok_iff, Bool.not_eq_true, Bool.not_eq_false', decide_eq_true_eq,
      hk.chars] at hrange
    obtain ⟨⟨h3, h700⟩, -⟩ := hrange
    rw [analyzeQuery_eq hwhite hk h3 h700] at h
    exact ⟨h3, h700, (Except.ok.inj h).symm⟩
  · rintro ⟨h3, h700, rfl⟩
    exact analyzeQuery_eq hwhite hk h3 h700

/-- There is a service exactly for a trusted endpoint. -/
theorem fromEnv_ok_some_iff {space : EmbeddingSpaceConfig} {environment : String} :
    Service.fromEnv x env space environment = .ok (some service) ↔
      (∃ text, nonemptyEnv env "EAL_EMBEDDING_ENDPOINT" = some text ∧
        x.platform.urlParse text = .ok service.endpoint ∧
        Trusted service.endpoint environment) ∧
      x.buildClient = .ok () ∧ service.apiKey = nonemptyEnv env "EAL_EMBEDDING_API_KEY" ∧
      service.model = space.model ∧ service.dimensions = space.dimensions.toNat := by
  rw [Service.fromEnv]
  cases nonemptyEnv env "EAL_EMBEDDING_ENDPOINT" with
  | none =>
    constructor
    · intro h
      cases h
    · rintro ⟨⟨text, htext, -⟩, -⟩
      cases htext
  | some text =>
    simp only [bind_ok_iff, mapError_ok_iff, validateEndpoint_ok_iff, pure_ok_iff]
    constructor
    · rintro ⟨endpoint, hparse, u, htrusted, u', hclient, h⟩
      obtain rfl := Option.some.inj h
      exact ⟨⟨text, rfl, hparse, htrusted⟩, hclient, rfl, rfl, rfl⟩
    · rintro ⟨⟨text', htext, hparse, htrusted⟩, hclient, hkey, hmodel, hdimensions⟩
      obtain rfl := Option.some.inj htext
      refine ⟨service.endpoint, hparse, (), htrusted, (), hclient, ?_⟩
      rw [← hkey, ← hmodel, ← hdimensions]

theorem prepare_ok_iff (hwhite : x.chars.isWhitespace = isWhitespace) (hk : x.contracts.Lawful) :
    prepare x env = .ok (views, service) ↔ Cleared x env views service := by
  simp only [prepare, bind_ok_iff, mapError_ok_iff, okOr_ok_iff, pure_ok_iff, requiredEnv_ok_iff,
    EmbeddingSpaceConfig.fromStr_ok_iff, analyzeQuery_ok_iff hwhite hk]
  constructor
  · rintro ⟨query, hquery, text, htext, space, ⟨raw, hraw, hend, husable, rfl⟩, found,
      ⟨h3, h700, hfound⟩, made, hmade, made', rfl, h⟩
    obtain ⟨rfl, rfl⟩ := Prod.mk.inj h
    obtain ⟨hendpoint, hclient, hkey, hmodel, hdimensions⟩ := fromEnv_ok_some_iff.mp hmade
    exact {
      query := ⟨query, hquery, h3, h700, hfound⟩
      space := ⟨text, raw, htext, hraw, hend, husable, hmodel, hdimensions⟩
      endpoint := hendpoint
      client := hclient
      apiKey := hkey }
  · intro h
    obtain ⟨query, hquery, h3, h700, hfound⟩ := h.query
    obtain ⟨text, raw, htext, hraw, hend, husable, hmodel, hdimensions⟩ := h.space
    refine ⟨query, hquery, text, htext, _, ⟨raw, hraw, hend, husable, rfl⟩, views,
      ⟨h3, h700, hfound⟩, some service, ?_, service, rfl, rfl⟩
    exact fromEnv_ok_some_iff.mpr ⟨h.endpoint, h.client, h.apiKey, hmodel, hdimensions⟩

theorem Cleared.inputs_ne_nil (h : Cleared x env views service) : views.embeddingInputs ≠ [] := by
  obtain ⟨query, -, -, -, rfl⟩ := h.query
  exact plainViews_ne_nil x.chars _

theorem Cleared.dimensions_ne_zero (h : Cleared x env views service) : service.dimensions ≠ 0 := by
  obtain ⟨text, raw, -, -, -, husable, -, hdimensions⟩ := h.space
  have hpos := husable.dimensions.1
  rw [hdimensions]
  exact Nat.one_le_iff_ne_zero.mp hpos

/-- The texts that are sent are those of the views. -/
theorem Cleared.payload (h : Cleared x env views service) :
    service.payload views.embeddingInputs =
      ⟨service.model, views.queryText :: (views.keywords ++ views.entities), service.dimensions,
        "float"⟩ := by
  obtain ⟨query, -, -, -, rfl⟩ := h.query
  have htexts := congrArg (List.map Prod.snd)
    (plainViews_inputs x.chars (collapseWhitespace query))
  simp only [List.map_map, List.map_cons, List.map_append, Function.comp_def, List.map_id'] at htexts
  rw [QueryEmbeddingService.payload, ProviderRequest.mk.injEq]
  exact ⟨rfl, htexts, rfl, rfl⟩

/-- Once everything is prepared, the rest is up to the provider. -/
theorem probe_of_prepare (h : prepare x env = .ok (views, service)) (network : Network) :
    probe x env network =
      ((embedInputs x.floats (network service.endpoint) service.toQueryEmbeddingService
        views.embeddingInputs).mapError fun error => displayError error.code error.message) >>=
      fun vector => .ok (report x views vector) := by
  rw [probe, h]
  rfl

end Run

/-! ### A provider on the same machine -/

namespace Local

def endpointText : String := "http://127.0.0.1:8081/v1/embeddings"

def endpoint : Url where
  scheme := "http"
  cannotBeABase := false
  username := ""
  password := none
  host := some (.ipv4 "127.0.0.1")
  port := some 8081
  path := "/v1/embeddings"
  query := none
  fragment := none

def spaceText : String :=
  "\x7b\"provider\":\"local\",\"model\":\"sample\",\"model_version\":\"1\",\"dimensions\":2,\"normalization\":\"l2\"\x7d"

def crates : Crates where
  chars := .ascii
  contracts := .sample
  floats := .exact
  platform := { Platform.sample with
    urlParse := fun s => if s = endpointText then .ok endpoint else .error "invalid URL" }
  rawSpace text := if text = spaceText then .ok ⟨"local", "sample", "1", 2, .l2⟩
    else .error "expected value at line 1 column 1"
  customError message := message
  atEnd text := if text = spaceText then .ok ()
    else .error "trailing characters at line 1 column 1"
  buildClient := .ok ()
  wireName
    | .query => "query"
    | .keyword => "keyword"
    | .entity => "entity"

def env (name : String) : Option String :=
  List.lookup name [("EAL_QUERY_TEXT", " acme  recall "), ("EAL_EMBEDDING_SPACE_JSON", spaceText),
    ("EAL_EMBEDDING_ENDPOINT", endpointText)]

def views : QueryTextViews where
  queryText := "acme recall"
  keywords := ["acme", "recall"]
  entities := []
  embeddingInputs := [⟨.query, 0, "acme recall", queryWeight⟩,
    ⟨.keyword, 1, "acme", keywordWeight⟩, ⟨.keyword, 2, "recall", keywordWeight⟩]

def service : Service where
  apiKey := none
  model := "sample"
  dimensions := 2
  endpoint := endpoint

/-- `[1, 0]`, `[2, 0]` and `[1, 0]`, in another order. -/
def data : List ProviderEmbedding :=
  [⟨2, [0x3f800000, 0]⟩, ⟨0, [0x3f800000, 0]⟩, ⟨1, [0x40000000, 0]⟩]

/-- The provider answers at its endpoint; nothing else can be reached. -/
def network : Network := fun url request key =>
  if url = endpoint then answering data request key else .error ⟨"connection refused", true⟩

/-- The provider is not running. -/
def silent : Network := fun _ _ _ => .error ⟨"connection refused", true⟩

theorem plainViews_acme : plainViews .ascii "acme recall" = views := by
  decide +kernel

theorem cleared : Cleared crates env views service := by
  have hraw : crates.rawSpace spaceText = .ok ⟨"local", "sample", "1", 2, .l2⟩ := by
    dsimp only [crates]
    rw [if_pos rfl]
  have hend : crates.atEnd spaceText = .ok () := by
    dsimp only [crates]
    rw [if_pos rfl]
  have hparse : crates.platform.urlParse endpointText = .ok endpoint := by
    dsimp only [crates]
    rw [if_pos rfl]
  exact {
    query := ⟨"acme  recall", by decide +kernel, by decide, by decide, plainViews_acme.symm⟩
    space := ⟨spaceText, _, by decide +kernel, hraw, hend,
      ⟨by decide, by decide, by decide, by decide, .inl rfl⟩, rfl, rfl⟩
    endpoint := ⟨endpointText, by decide +kernel, hparse, ⟨rfl, rfl, rfl, rfl⟩,
      .inr ⟨rfl, by decide, _, .inr rfl, .inr (.inl rfl)⟩⟩
    client := rfl
    apiKey := by decide }

theorem embedInputs_network : embedInputs .exact (network service.endpoint)
    service.toQueryEmbeddingService views.embeddingInputs = .ok [0x3f800000, 0] := by
  decide +kernel

/-- On this machine the probe reports. -/
theorem probe_network : probe crates env network = .ok (report crates views [0x3f800000, 0]) := by
  rw [probe_of_prepare ((prepare_ok_iff rfl Contracts.sample_lawful).mpr cleared)]
  refine bind_ok_iff.mpr ⟨[0x3f800000, 0], mapError_ok_iff.mpr ?_, rfl⟩
  exact embedInputs_network

end Local

/-! ### What a run of the probe says and sends -/

section Main

variable {x : Crates} {env : String → Option String}

/-- **The probe reports exactly what is in order.**  Its query, its space and its endpoint
pass every check, and the provider certifies the views of the query; the report then
shows these views, and of the vector the dimensions of the space and the norm. -/
theorem probe_reports_iff (hwhite : x.chars.isWhitespace = isWhitespace)
    (hk : x.contracts.Lawful) (network : Network) (out : Report x.floats.F64) :
    probe x env network = .ok out ↔ ∃ views service vector,
      Cleared x env views service ∧
      Certified x.floats (network service.endpoint) service.toQueryEmbeddingService
        views.embeddingInputs vector ∧
      vector.length = service.dimensions ∧ out = report x views vector := by
  constructor
  · intro h
    rw [probe, bind_ok_iff] at h
    obtain ⟨⟨views, service⟩, hprepare, h⟩ := h
    have hcleared := (prepare_ok_iff hwhite hk).mp hprepare
    obtain ⟨vector, hvector, h⟩ := bind_ok_iff.mp h
    have hcertified := (embedInputs_ok_iff hcleared.dimensions_ne_zero
      hcleared.inputs_ne_nil).mp (mapError_ok_iff.mp hvector)
    exact ⟨views, service, vector, hcleared, hcertified, hcertified.length,
      (pure_ok_iff.mp h).symm⟩
  · rintro ⟨views, service, vector, hcleared, hcertified, -, rfl⟩
    rw [probe_of_prepare ((prepare_ok_iff hwhite hk).mpr hcleared)]
    refine bind_ok_iff.mpr ⟨vector, mapError_ok_iff.mpr ?_, rfl⟩
    exact (embedInputs_ok_iff hcleared.dimensions_ne_zero hcleared.inputs_ne_nil).mpr hcertified

theorem probe_reports_iff_local : ∃ views service vector,
    Cleared Local.crates Local.env views service ∧
    Certified Local.crates.floats (Local.network service.endpoint)
      service.toQueryEmbeddingService views.embeddingInputs vector ∧
    vector.length = service.dimensions ∧
    report Local.crates Local.views [0x3f800000, 0] = report Local.crates views vector :=
  (probe_reports_iff rfl Contracts.sample_lawful Local.network _).mp Local.probe_network

/-- **The probe asks for one request**, and only when everything else is in order: on
two networks it can differ only by what becomes of the texts of its query at the trusted
endpoint, sent with the key it was given. -/
theorem probe_asks_once (hwhite : x.chars.isWhitespace = isWhitespace)
    (hk : x.contracts.Lawful) (network network' : Network)
    (hdiffer : probe x env network ≠ probe x env network') :
    ∃ views service, Cleared x env views service ∧
      (∀ views' service', Cleared x env views' service' →
        views' = views ∧ service' = service) ∧
      network service.endpoint ⟨service.model,
          views.queryText :: (views.keywords ++ views.entities), service.dimensions, "float"⟩
          (nonemptyEnv env "EAL_EMBEDDING_API_KEY") ≠
        network' service.endpoint ⟨service.model,
          views.queryText :: (views.keywords ++ views.entities), service.dimensions, "float"⟩
          (nonemptyEnv env "EAL_EMBEDDING_API_KEY") := by
  cases hprepare : prepare x env with
  | error error =>
    rw [probe, probe, hprepare] at hdiffer
    exact absurd rfl hdiffer
  | ok prepared =>
    obtain ⟨views, service⟩ := prepared
    have hcleared := (prepare_ok_iff hwhite hk).mp hprepare
    refine ⟨views, service, hcleared, fun views' service' h => ?_, fun hsame => hdiffer ?_⟩
    · have hagain := (prepare_ok_iff hwhite hk).mpr h
      exact Prod.mk.inj (Except.ok.inj (hagain.symm.trans hprepare))
    · rw [← hcleared.apiKey, ← hcleared.payload] at hsame
      rw [probe_of_prepare hprepare, probe_of_prepare hprepare, embedInputs_congr hsame]

theorem probe_asks_once_local : ∃ views service, Cleared Local.crates Local.env views service ∧
    (∀ views' service', Cleared Local.crates Local.env views' service' →
      views' = views ∧ service' = service) ∧
    Local.network service.endpoint ⟨service.model,
        views.queryText :: (views.keywords ++ views.entities), service.dimensions, "float"⟩
        (nonemptyEnv Local.env "EAL_EMBEDDING_API_KEY") ≠
      Local.silent service.endpoint ⟨service.model,
        views.queryText :: (views.keywords ++ views.entities), service.dimensions, "float"⟩
        (nonemptyEnv Local.env "EAL_EMBEDDING_API_KEY") := by
  refine probe_asks_once rfl Contracts.sample_lawful Local.network Local.silent fun hsame => ?_
  rw [Local.probe_network, probe_of_prepare
    ((prepare_ok_iff rfl Contracts.sample_lawful).mpr Local.cleared)] at hsame
  obtain ⟨vector, hvector, -⟩ := bind_ok_iff.mp hsame.symm
  obtain ⟨-, -, data, response, model, hpost, -⟩ :=
    answers_of_embedInputs (mapError_ok_iff.mp hvector)
  cases hpost

end Main

end Probe

end EmbeddedAlerts
