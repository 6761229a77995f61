import EmbeddedAlerts.Extraction
import EmbeddedAlerts.Normalize
import Mathlib.Algebra.Order.BigOperators.Group.List

/-!
# The views of a query meet the contract

`analyze_query` makes one input of the query, one of each keyword and one of each
entity, and numbers them as it goes.  `analyzeQuery_contract` says what holds of
the result for every query of 3 to 700 characters: the inputs are these, in this
order and numbered by their positions, there are at most 37, no text is empty or
longer than the query, and no two of one kind are the same, so that **a row for each
input meets every CHECK and UNIQUE of `eal_semantic_inputs`** (`migrations/003`).

The length of an entity is the point that needs an argument: its words are cleaned
and need not be neighbours in the query.  But cleaning only shortens a word, the
words of an entity are among those of the query, and a joined text has one character
more for each of its words than the words have (`length_intercalate`), so whatever is
left out or shortened can only make it shorter (`length_intercalate_tokens_le`).
-/

namespace EmbeddedAlerts

open Sql Text Binary

/-! ### The table of semantic inputs -/

structure SemanticInputRow where
  id : Uuid
  tenantId : Uuid
  inputSetId : Uuid
  kind : String
  ordinal : ℕ
  inputText : String
  inputTextSha256 : String
  weight : F32
deriving DecidableEq

def semanticInputKinds : List String :=
  ["title", "heading", "summary", "sentence", "entity", "keyword", "url_signal", "document",
    "query"]

/-- `~ '^[0-9a-f]{64}$'`. -/
def isSha256Text (s : String) : Bool :=
  decide (s.toList.length = 64)
    && s.toList.all fun ch => decide ('0' ≤ ch ∧ ch ≤ '9') || decide ('a' ≤ ch ∧ ch ≤ 'f')

/-- `eal_semantic_inputs`, in a database that has the given input sets.  A `REAL` is
compared with the constant `0.1` in double precision. -/
def semanticInputsTable : Constraints (List Uuid) SemanticInputRow where
  check r := semanticInputKinds.contains r.kind
    && decide (r.ordinal ≤ 95)
    && charLengthBetween 1 700 r.inputText
    && isSha256Text r.inputTextSha256
    && decide (roundNE 53 (1 / 10) ≤ r.weight.val ∧ r.weight.val ≤ 2)
  sameKey r s := decide (r.id = s.id)
    || decide (r.inputSetId = s.inputSetId ∧ r.ordinal = s.ordinal)
    || decide (r.inputSetId = s.inputSetId ∧ r.kind = s.kind ∧
      r.inputTextSha256 = s.inputTextSha256)
  refs sets r := sets.contains r.inputSetId

namespace Query

/-- The kind as the column has it. -/
def EmbeddingInputKind.text : EmbeddingInputKind → String
  | .query => "query"
  | .keyword => "keyword"
  | .entity => "entity"

theorem EmbeddingInputKind.text_inj {a b : EmbeddingInputKind} (h : a.text = b.text) : a = b := by
  cases a <;> cases b <;> first | rfl | exact absurd h (by decide)

/-- The row of an input in a set; `ids` are the UUIDs drawn for the rows. -/
def semanticInputRow (sha256 : List UInt8 → List UInt8) (ids : ℕ → Uuid)
    (tenantId inputSetId : Uuid) (input : EmbeddingInput) : SemanticInputRow where
  id := ids input.ordinal.toNat
  tenantId := tenantId
  inputSetId := inputSetId
  kind := input.kind.text
  ordinal := input.ordinal.toNat
  inputText := input.text
  inputTextSha256 := String.ofList (hexEncode (sha256 (utf8 input.text.toList)))
  weight := input.weight

/-- Views within the bounds of the contract: 3 to 700 characters, at most 96 inputs of
at most 700 characters, none empty, in the order of their numbers. -/
structure QueryTextViews.WithinBounds (views : QueryTextViews) : Prop where
  queryChars : 3 ≤ views.queryText.length ∧ views.queryText.length ≤ 700
  inputs : views.embeddingInputs ≠ [] ∧ views.embeddingInputs.length ≤ 96
  chars : ∀ input ∈ views.embeddingInputs, input.text ≠ "" ∧ input.text.length ≤ 700
  ordinals : views.embeddingInputs.map (·.ordinal.toNat) =
    List.range views.embeddingInputs.length

/-- What the code relies on of `eal-semantic-contracts`. -/
structure Contracts.Lawful (k : Contracts) : Prop where
  chars : k.maxEmbeddingInputChars = 700
  inputs : k.maxEmbeddingInputs = 96
  accepts : ∀ views : QueryTextViews, views.WithinBounds → k.validate views = .ok ()

variable {c : CharClasses} {k : Contracts}

/-! ### Lengths -/

theorem length_intercalate {ws : List (List Char)} (h : ws ≠ []) :
    ([' '].intercalate ws).length + 1 = (ws.map fun w => w.length + 1).sum := by
  induction ws with
  | nil => exact absurd rfl h
  | cons w ws ih =>
    cases ws with
    | nil => simp
    | cons v ws =>
      have hrest := ih (List.cons_ne_nil v ws)
      rw [List.intercalate_cons_cons, List.map_cons, List.sum_cons, ← hrest]
      simp only [List.length_append, List.length_singleton]
      omega

theorem length_trimMatches_le (p : Char → Bool) (s : List Char) :
    (trimMatches p s).length ≤ s.length := by
  have h1 := (List.dropWhile_sublist p (l := s)).length_le
  have h2 := (List.dropWhile_sublist p (l := (s.dropWhile p).reverse)).length_le
  rw [trimMatches, List.length_reverse]
  rw [List.length_reverse] at h2
  omega

/-- **A text joined from tokens is no longer than the words they come from**, joined. -/
theorem length_intercalate_tokens_le {query : List Char} {r : List (List Char)}
    (hne : r ≠ []) (hr : r.Sublist (tokens c query)) :
    ([' '].intercalate r).length ≤ ([' '].intercalate (splitWords c query)).length := by
  have hwords : splitWords c query ≠ [] := by
    intro hnil
    rw [tokens, hnil] at hr
    exact hne (List.sublist_nil.mp hr)
  have hsub : (r.map fun w => w.length + 1).Sublist
      (((splitWords c query).map (cleanToken c)).map fun w => w.length + 1) :=
    (hr.trans List.filter_sublist).map _
  have hsum : (r.map fun w => w.length + 1).sum ≤
      ((splitWords c query).map fun w => w.length + 1).sum := by
    refine (hsub.sum_le_sum fun n _ => Nat.zero_le n).trans ?_
    rw [List.map_map]
    refine List.sum_le_sum fun w _ => ?_
    exact Nat.succ_le_succ (length_trimMatches_le _ w)
  have h1 := length_intercalate hne
  have h2 := length_intercalate hwords
  omega

theorem ne_nil_of_mem_tokens {query token : List Char} (h : token ∈ tokens c query) :
    token ≠ [] := by
  rw [tokens, List.mem_filter] at h
  simpa using h.2

/-! ### Keywords and entities -/

theorem length_asciiLowercase (s : List Char) : (asciiLowercase s).length = s.length :=
  List.length_map _

theorem keyword_spec {query keyword : List Char} (h : keyword ∈ extractKeywords c query) :
    keyword ≠ [] ∧ keyword.length ≤ ([' '].intercalate (splitWords c query)).length := by
  rw [extractKeywords_eq, plainKeywords] at h
  have hmem := List.mem_eraseDups.mp (List.mem_of_mem_take h)
  obtain ⟨token, htoken, rfl⟩ := List.mem_map.mp (List.mem_filter.mp hmem).1
  have hle := length_intercalate_tokens_le (List.cons_ne_nil token [])
    (List.singleton_sublist.mpr htoken)
  rw [List.intercalate_singleton] at hle
  rw [Ne, ← List.length_eq_zero_iff, length_asciiLowercase, List.length_eq_zero_iff]
  exact ⟨ne_nil_of_mem_tokens htoken, hle⟩

theorem withoutInstruction_sublist (words : List (List Char)) :
    (withoutInstruction words).Sublist words := by
  cases words with
  | nil => exact List.Sublist.refl _
  | cons word rest =>
    rw [withoutInstruction]
    split_ifs
    · exact List.sublist_cons_self word rest
    · exact List.Sublist.refl _

theorem entity_spec {query entity : List Char} (h : entity ∈ extractEntities c query) :
    entity ≠ [] ∧ entity.length ≤ ([' '].intercalate (splitWords c query)).length := by
  rw [extractEntities_eq, plainEntities] at h
  obtain ⟨r, hr, rfl⟩ := List.mem_map.mp (mem_of_mem_firstBy (List.mem_of_mem_take h))
  have hsub := (sublist_of_mem_runs hr).trans (withoutInstruction_sublist _)
  refine ⟨?_, length_intercalate_tokens_le (ne_nil_of_mem_runs hr) hsub⟩
  obtain ⟨w, r, rfl⟩ := List.exists_cons_of_ne_nil (ne_nil_of_mem_runs hr)
  have hw := ne_nil_of_mem_tokens (hsub.subset List.mem_cons_self)
  cases r with
  | nil => rwa [List.intercalate_singleton]
  | cons v r =>
    rw [List.intercalate_cons_cons, List.append_assoc]
    exact List.append_ne_nil_of_left_ne_nil hw _

theorem keywords_nodup (query : List Char) : (extractKeywords c query).Nodup := by
  rw [extractKeywords_eq, plainKeywords, ← firstBy_id]
  exact (pairwise_firstBy _).sublist (List.take_sublist _ _)

theorem entities_nodup (query : List Char) : (extractEntities c query).Nodup := by
  rw [extractEntities_eq, plainEntities]
  refine ((pairwise_firstBy _).sublist (List.take_sublist _ _)).imp ?_
  intro a b hkey hab
  exact hkey (congrArg asciiLowercase hab)

theorem keywords_length_le (query : List Char) : (extractKeywords c query).length ≤ 24 := by
  rw [extractKeywords_eq, plainKeywords]
  exact List.length_take_le _ _

theorem entities_length_le (query : List Char) : (extractEntities c query).length ≤ 12 := by
  rw [extractEntities_eq, plainEntities]
  exact List.length_take_le _ _

/-! ### The inputs -/

/-- Inputs of one kind, numbered from `n` on. -/
def numbered (kind : EmbeddingInputKind) (weight : F32) (n : ℕ) (texts : List String) :
    List EmbeddingInput :=
  (texts.zipIdx n).map fun t => ⟨kind, UInt16.ofNat t.2, t.1, weight⟩

theorem pushInput_ok (hk : k.Lawful) {kind : EmbeddingInputKind} {weight : F32}
    {inputs : List EmbeddingInput} {text : String} (h : inputs.length < 96) :
    pushInput k kind weight inputs text =
      .ok (inputs ++ [⟨kind, UInt16.ofNat inputs.length, text, weight⟩]) := by
  have hcap : ¬ inputs.length ≥ k.maxEmbeddingInputs := by
    rw [hk.inputs]
    omega
  have hfits : u16TryFrom inputs.length = some (UInt16.ofNat inputs.length) := by
    rw [u16TryFrom, if_pos (by omega)]
  rw [pushInput, if_neg hcap, hfits]
  rfl

/-- **Pushing never fails below the cap**, and numbers the inputs by position. -/
theorem foldlM_pushInput (hk : k.Lawful) (kind : EmbeddingInputKind) (weight : F32)
    (texts : List String) : ∀ inputs : List EmbeddingInput, inputs.length + texts.length ≤ 96 →
    texts.foldlM (pushInput k kind weight) inputs =
      .ok (inputs ++ numbered kind weight inputs.length texts) := by
  induction texts with
  | nil =>
    intro inputs _
    rw [List.foldlM_nil, numbered, List.zipIdx_nil, List.map_nil, List.append_nil]
    rfl
  | cons text texts ih =>
    intro inputs h
    rw [List.length_cons] at h
    have hrest := ih (inputs ++ [⟨kind, UInt16.ofNat inputs.length, text, weight⟩])
      (by rw [List.length_append, List.length_singleton]; omega)
    rw [List.foldlM_cons, pushInput_ok hk (by omega)]
    refine hrest.trans ?_
    rw [numbered, numbered, List.zipIdx_cons, List.map_cons, List.length_append,
      List.length_singleton, List.append_assoc, List.singleton_append]

theorem numbered_length (kind : EmbeddingInputKind) (weight : F32) (n : ℕ) (texts : List String) :
    (numbered kind weight n texts).length = texts.length := by
  rw [numbered, List.length_map, List.length_zipIdx]

theorem numbered_texts (kind : EmbeddingInputKind) (weight : F32) (n : ℕ) (texts : List String) :
    (numbered kind weight n texts).map (fun i => (i.kind, i.text)) = texts.map (Prod.mk kind) := by
  rw [numbered, List.map_map]
  conv_rhs => rw [← List.zipIdx_map_fst n texts, List.map_map]
  rfl

theorem numbered_ordinals (kind : EmbeddingInputKind) (weight : F32) {n : ℕ} {texts : List String}
    (h : n + texts.length ≤ 96) :
    (numbered kind weight n texts).map (·.ordinal.toNat) = List.range' n texts.length := by
  rw [numbered, List.map_map, ← List.zipIdx_map_snd n texts]
  refine List.map_congr_left fun t ht => ?_
  have hlt := (List.mem_zipIdx ht).2.1
  simp only [Function.comp_apply, UInt16.toNat_ofNat']
  omega

/-- The inputs of a query. -/
def plainInputs (queryText : String) (keywords entities : List String) : List EmbeddingInput :=
  numbered .query queryWeight 0 [queryText] ++ numbered .keyword keywordWeight 1 keywords
    ++ numbered .entity entityWeight (1 + keywords.length) entities

theorem plainInputs_length (queryText : String) (keywords entities : List String) :
    (plainInputs queryText keywords entities).length = 1 + keywords.length + entities.length := by
  simp only [plainInputs, List.length_append, numbered_length, List.length_singleton]

theorem plainInputs_texts (queryText : String) (keywords entities : List String) :
    (plainInputs queryText keywords entities).map (fun i => (i.kind, i.text)) =
      (.query, queryText) :: (keywords.map (Prod.mk .keyword) ++ entities.map (Prod.mk .entity)) := by
  simp only [plainInputs, List.map_append, numbered_texts, List.map_cons, List.map_nil,
    List.append_assoc, List.cons_append, List.nil_append]

theorem plainInputs_ordinals {queryText : String} {keywords entities : List String}
    (h : 1 + keywords.length + entities.length ≤ 96) :
    (plainInputs queryText keywords entities).map (·.ordinal.toNat) =
      List.range (plainInputs queryText keywords entities).length := by
  have hone : [queryText].length = 1 := rfl
  rw [plainInputs_length, plainInputs, List.map_append, List.map_append,
    numbered_ordinals .query queryWeight (by omega), numbered_ordinals .keyword _ (by omega),
    numbered_ordinals .entity _ h, hone, List.range_eq_range', ← List.range'_append_1,
    ← List.range'_append_1, Nat.zero_add, Nat.zero_add]

theorem weight_of_mem_plainInputs {queryText : String} {keywords entities : List String}
    {input : EmbeddingInput} (h : input ∈ plainInputs queryText keywords entities) :
    roundNE 53 (1 / 10) ≤ input.weight.val ∧ input.weight.val ≤ 2 := by
  have hweight : input.weight = queryWeight ∨ input.weight = keywordWeight ∨
      input.weight = entityWeight := by
    simp only [plainInputs, numbered, List.mem_append, List.mem_map] at h
    rcases h with (⟨t, -, rfl⟩ | ⟨t, -, rfl⟩) | ⟨t, -, rfl⟩
    · exact Or.inl rfl
    · exact Or.inr (Or.inl rfl)
    · exact Or.inr (Or.inr rfl)
  rcases hweight with hw | hw | hw
  · rw [hw]
    decide +kernel
  · rw [hw]
    decide +kernel
  · rw [hw]
    decide +kernel

/-! ### The rows of the inputs -/

theorem hexEncode_length (bytes : List UInt8) : (hexEncode bytes).length = 2 * bytes.length := by
  induction bytes with
  | nil => rfl
  | cons b bytes ih =>
    rw [hexEncode] at ih
    rw [hexEncode, List.flatMap_cons, List.length_append, hexFixed_length, List.length_cons, ih]
    omega

theorem isSha256Text_hexEncode {bytes : List UInt8} (h : bytes.length = 32) :
    isSha256Text (String.ofList (hexEncode bytes)) = true := by
  have hdigit : ∀ d < 16, (decide ('0' ≤ hexDigit d ∧ hexDigit d ≤ '9') ||
      decide ('a' ≤ hexDigit d ∧ hexDigit d ≤ 'f')) = true := by decide
  rw [isSha256Text, String.toList_ofList, Bool.and_eq_true, decide_eq_true_eq, hexEncode_length, h,
    List.all_eq_true]
  refine ⟨rfl, fun ch hch => ?_⟩
  obtain ⟨b, -, hb⟩ := List.mem_flatMap.mp hch
  obtain ⟨d, hd, rfl⟩ := mem_hexFixed hb
  exact hdigit d hd

/-- What `analyze_query` promises of the views of a query. -/
structure Analyzed (c : CharClasses) (k : Contracts) (value : String) (views : QueryTextViews) :
    Prop where
  queryText : views.queryText = collapseWhitespace value
  keywords : views.keywords = (extractKeywords c views.queryText.toList).map String.ofList
  entities : views.entities = (extractEntities c views.queryText.toList).map String.ofList
  /-- The query first, then the keywords, then the entities. -/
  inputs : views.embeddingInputs.map (fun i => (i.kind, i.text)) =
    (.query, views.queryText) ::
      (views.keywords.map (Prod.mk .keyword) ++ views.entities.map (Prod.mk .entity))
  ordinals : views.embeddingInputs.map (·.ordinal.toNat) =
    List.range views.embeddingInputs.length
  count : views.embeddingInputs.length ≤ 37
  texts : ∀ input ∈ views.embeddingInputs,
    input.text ≠ "" ∧ input.text.length ≤ views.queryText.length
  distinct : views.embeddingInputs.Pairwise fun a b => ¬ (a.kind = b.kind ∧ a.text = b.text)
  /-- The rows meet the constraints, if the digests of the texts do not collide. -/
  rows : ∀ (sha256 : List UInt8 → List UInt8) (ids : ℕ → Uuid) (tenantId inputSetId : Uuid),
    (∀ bytes, (sha256 bytes).length = 32) →
    (∀ a ∈ views.embeddingInputs, ∀ b ∈ views.embeddingInputs,
      sha256 (utf8 a.text.toList) = sha256 (utf8 b.text.toList) → a.text = b.text) →
    (∀ i < views.embeddingInputs.length, ∀ j < views.embeddingInputs.length,
      ids i = ids j → i = j) →
    semanticInputsTable.Holds [inputSetId]
      (views.embeddingInputs.map (semanticInputRow sha256 ids tenantId inputSetId))
  again : analyzeQuery c k views.queryText = .ok views

theorem ordinal_lt_of_mem {inputs : List EmbeddingInput} {input : EmbeddingInput}
    (hord : inputs.map (·.ordinal.toNat) = List.range inputs.length) (h : input ∈ inputs) :
    input.ordinal.toNat < inputs.length := by
  have hmem : input.ordinal.toNat ∈ inputs.map (·.ordinal.toNat) :=
    List.mem_map_of_mem (f := fun i : EmbeddingInput => i.ordinal.toNat) h
  rwa [hord, List.mem_range] at hmem

/-- **The rows of numbered, distinct inputs meet the constraints** of
`eal_semantic_inputs`. -/
theorem holds_semanticInputRows {inputs : List EmbeddingInput}
    (hord : inputs.map (·.ordinal.toNat) = List.range inputs.length) (hcount : inputs.length ≤ 96)
    (hchars : ∀ input ∈ inputs, input.text ≠ "" ∧ input.text.length ≤ 700)
    (hweights : ∀ input ∈ inputs, roundNE 53 (1 / 10) ≤ input.weight.val ∧ input.weight.val ≤ 2)
    (hdistinct : inputs.Pairwise fun a b => ¬ (a.kind = b.kind ∧ a.text = b.text))
    {sha256 : List UInt8 → List UInt8} {ids : ℕ → Uuid} {tenantId inputSetId : Uuid}
    (hsha : ∀ bytes, (sha256 bytes).length = 32)
    (hcollide : ∀ a ∈ inputs, ∀ b ∈ inputs,
      sha256 (utf8 a.text.toList) = sha256 (utf8 b.text.toList) → a.text = b.text)
    (hids : ∀ i < inputs.length, ∀ j < inputs.length, ids i = ids j → i = j) :
    semanticInputsTable.Holds [inputSetId]
      (inputs.map (semanticInputRow sha256 ids tenantId inputSetId)) := by
  refine ⟨fun row hrow => ?_, ?_, fun row hrow => ?_⟩
  · obtain ⟨input, hinput, rfl⟩ := List.mem_map.mp hrow
    have hkind : semanticInputKinds.contains input.kind.text = true := by
      cases input.kind <;> decide
    have hlt := ordinal_lt_of_mem hord hinput
    have hle : input.ordinal.toNat ≤ 95 := by omega
    have htext : charLengthBetween 1 700 input.text = true := by
      have hpos : input.text.length ≠ 0 := by
        rw [Ne, String.length_eq_zero_iff]
        exact (hchars input hinput).1
      have hlong := (hchars input hinput).2
      rw [charLengthBetween, decide_eq_true_eq]
      omega
    simp only [semanticInputsTable, semanticInputRow, hkind, htext, hle,
      isSha256Text_hexEncode (hsha _), hweights input hinput, and_self, decide_true, Bool.and_self]
  · rw [List.pairwise_map]
    have hnumbers : inputs.Pairwise fun a b => a.ordinal.toNat ≠ b.ordinal.toNat := by
      rw [← List.pairwise_map (f := fun i : EmbeddingInput => i.ordinal.toNat) (R := (· ≠ ·)), hord]
      exact List.nodup_range
    refine (hnumbers.and hdistinct).imp_of_mem fun {a b} ha hb hab => ?_
    have hid : ids a.ordinal.toNat ≠ ids b.ordinal.toNat := fun heq =>
      hab.1 (hids _ (ordinal_lt_of_mem hord ha) _ (ordinal_lt_of_mem hord hb) heq)
    have hkey : ¬ (a.kind.text = b.kind.text ∧
        String.ofList (hexEncode (sha256 (utf8 a.text.toList))) =
          String.ofList (hexEncode (sha256 (utf8 b.text.toList)))) := by
      rintro ⟨hkind, hhash⟩
      have hlist := congrArg String.toList hhash
      rw [String.toList_ofList, String.toList_ofList] at hlist
      exact hab.2 ⟨EmbeddingInputKind.text_inj hkind,
        hcollide a ha b hb (hexEncode_inj hlist)⟩
    simp only [semanticInputsTable, semanticInputRow, hid, hab.1, hkey, and_false, decide_false,
      Bool.or_self]
  · obtain ⟨input, -, rfl⟩ := List.mem_map.mp hrow
    simp [semanticInputsTable, semanticInputRow]

/-! ### The analysis -/

/-- The words of the collapsed query, joined, are the collapsed query. -/
theorem intercalate_splitWords (hwhite : c.isWhitespace = isWhitespace) (value : String) :
    [' '].intercalate (splitWords c (collapseWhitespace value).toList) =
      (collapseWhitespace value).toList := by
  have hwords : splitWords c (collapseWhitespace value).toList =
      splitWhitespace (collapseWhitespace value).toList := by
    rw [splitWords, hwhite, splitWhitespace]
  have hlist : (collapseWhitespace value).toList = collapse value.toList := by
    rw [collapseWhitespace, String.toList_ofList, collapse]
  rw [hwords, hlist]
  exact collapse_collapse value.toList

theorem collapseWhitespace_idem (value : String) :
    collapseWhitespace (collapseWhitespace value) = collapseWhitespace value :=
  Alerts.collapseWhitespace_collapseWhitespace value

/-- The views of a query with collapsed white space. -/
def plainViews (c : CharClasses) (queryText : String) : QueryTextViews where
  queryText := queryText
  keywords := (extractKeywords c queryText.toList).map String.ofList
  entities := (extractEntities c queryText.toList).map String.ofList
  embeddingInputs := plainInputs queryText
    ((extractKeywords c queryText.toList).map String.ofList)
    ((extractEntities c queryText.toList).map String.ofList)

theorem plainViews_count (c : CharClasses) (queryText : String) :
    1 + (plainViews c queryText).keywords.length + (plainViews c queryText).entities.length
      ≤ 37 := by
  have hk := keywords_length_le (c := c) queryText.toList
  have he := entities_length_le (c := c) queryText.toList
  simp only [plainViews, List.length_map]
  omega

theorem plainViews_texts (hwhite : c.isWhitespace = isWhitespace) {value : String}
    (h : 3 ≤ (collapseWhitespace value).length) :
    ∀ input ∈ (plainViews c (collapseWhitespace value)).embeddingInputs,
      input.text ≠ "" ∧ input.text.length ≤ (collapseWhitespace value).length := by
  intro input hinput
  have hjoined := congrArg List.length (intercalate_splitWords hwhite value)
  rw [String.length_toList] at hjoined
  have hshort : ∀ s : List Char, s ≠ [] ∧ s.length ≤
      ([' '].intercalate (splitWords c (collapseWhitespace value).toList)).length →
      String.ofList s ≠ "" ∧ (String.ofList s).length ≤ (collapseWhitespace value).length := by
    rintro s ⟨hne, hle⟩
    rw [String.length_ofList, Ne, ← String.length_eq_zero_iff, String.length_ofList,
      List.length_eq_zero_iff]
    exact ⟨hne, by omega⟩
  have hmem : (input.kind, input.text) ∈
      (plainViews c (collapseWhitespace value)).embeddingInputs.map fun i => (i.kind, i.text) :=
    List.mem_map_of_mem (f := fun i : EmbeddingInput => (i.kind, i.text)) hinput
  rw [plainViews, plainInputs_texts, List.mem_cons, List.mem_append] at hmem
  rcases hmem with hquery | hkeyword | hentity
  · rw [(Prod.mk.inj hquery).2, Ne, ← String.length_eq_zero_iff]
    omega
  · obtain ⟨text, htext, heq⟩ := List.mem_map.mp hkeyword
    obtain ⟨s, hs, rfl⟩ := List.mem_map.mp htext
    rw [← (Prod.mk.inj heq).2]
    exact hshort s (keyword_spec hs)
  · obtain ⟨text, htext, heq⟩ := List.mem_map.mp hentity
    obtain ⟨s, hs, rfl⟩ := List.mem_map.mp htext
    rw [← (Prod.mk.inj heq).2]
    exact hshort s (entity_spec hs)

theorem plainViews_distinct (c : CharClasses) (queryText : String) :
    (plainViews c queryText).embeddingInputs.Pairwise
      fun a b => ¬ (a.kind = b.kind ∧ a.text = b.text) := by
  have hofList : Function.Injective String.ofList := fun a b h => by
    have := congrArg String.toList h
    rwa [String.toList_ofList, String.toList_ofList] at this
  have hmk : ∀ kind : EmbeddingInputKind, Function.Injective (Prod.mk kind : String → _) :=
    fun kind a b h => (Prod.mk.inj h).2
  have hnodup : ((plainViews c queryText).embeddingInputs.map
      fun i => (i.kind, i.text)).Nodup := by
    rw [plainViews, plainInputs_texts, List.nodup_cons, List.nodup_append]
    refine ⟨?_, ((keywords_nodup _).map hofList).map (hmk _),
      ((entities_nodup _).map hofList).map (hmk _), ?_⟩
    · rw [List.mem_append]
      rintro (h | h)
      · obtain ⟨t, -, heq⟩ := List.mem_map.mp h
        cases (Prod.mk.inj heq).1
      · obtain ⟨t, -, heq⟩ := List.mem_map.mp h
        cases (Prod.mk.inj heq).1
    · rintro a ha b hb rfl
      obtain ⟨t, -, heq⟩ := List.mem_map.mp ha
      obtain ⟨t', -, heq'⟩ := List.mem_map.mp hb
      cases (Prod.mk.inj (heq.trans heq'.symm)).1
  refine (List.pairwise_map.mp hnodup).imp fun hab heq => hab ?_
  rw [heq.1, heq.2]

theorem plainViews_ordinals (c : CharClasses) (queryText : String) :
    (plainViews c queryText).embeddingInputs.map (·.ordinal.toNat) =
      List.range (plainViews c queryText).embeddingInputs.length := by
  have hcount := plainViews_count c queryText
  exact plainInputs_ordinals (by simp only [plainViews] at hcount; omega)

theorem plainViews_length (c : CharClasses) (queryText : String) :
    (plainViews c queryText).embeddingInputs.length ≤ 37 := by
  have hcount := plainViews_count c queryText
  have hlength : (plainViews c queryText).embeddingInputs.length =
      1 + (plainViews c queryText).keywords.length + (plainViews c queryText).entities.length :=
    plainInputs_length _ _ _
  omega

theorem plainViews_ne_nil (c : CharClasses) (queryText : String) :
    (plainViews c queryText).embeddingInputs ≠ [] := by
  have hlength : (plainViews c queryText).embeddingInputs.length =
      1 + (plainViews c queryText).keywords.length + (plainViews c queryText).entities.length :=
    plainInputs_length _ _ _
  exact List.ne_nil_of_length_pos (by omega)

theorem plainViews_inputs (c : CharClasses) (queryText : String) :
    (plainViews c queryText).embeddingInputs.map (fun i => (i.kind, i.text)) =
      (.query, queryText) :: ((plainViews c queryText).keywords.map (Prod.mk .keyword)
        ++ (plainViews c queryText).entities.map (Prod.mk .entity)) :=
  plainInputs_texts _ _ _

theorem plainViews_weights (c : CharClasses) (queryText : String) :
    ∀ input ∈ (plainViews c queryText).embeddingInputs,
      roundNE 53 (1 / 10) ≤ input.weight.val ∧ input.weight.val ≤ 2 :=
  fun _ hinput => weight_of_mem_plainInputs hinput

theorem plainViews_chars (hwhite : c.isWhitespace = isWhitespace) {value : String}
    (h3 : 3 ≤ (collapseWhitespace value).length) (h700 : (collapseWhitespace value).length ≤ 700) :
    ∀ input ∈ (plainViews c (collapseWhitespace value)).embeddingInputs,
      input.text ≠ "" ∧ input.text.length ≤ 700 := by
  intro input hinput
  obtain ⟨hne, hle⟩ := plainViews_texts hwhite h3 input hinput
  exact ⟨hne, hle.trans h700⟩

/-- **The pushes succeed**, one kind after the other. -/
theorem push_plainInputs (hk : k.Lawful) {queryText : String} {keywords entities : List String}
    (h : 1 + keywords.length + entities.length ≤ 96) :
    ∃ first second, pushInput k .query queryWeight [] queryText = .ok first ∧
      keywords.foldlM (pushInput k .keyword keywordWeight) first = .ok second ∧
      entities.foldlM (pushInput k .entity entityWeight) second =
        .ok (plainInputs queryText keywords entities) := by
  have hone : (numbered .query queryWeight 0 [queryText]).length = 1 := numbered_length _ _ _ _
  have htwo : (numbered .query queryWeight 0 [queryText] ++
      numbered .keyword keywordWeight 1 keywords).length = 1 + keywords.length := by
    rw [List.length_append, hone, numbered_length]
  refine ⟨_, _, pushInput_ok hk (by simp),
    foldlM_pushInput hk .keyword keywordWeight keywords
      (numbered .query queryWeight 0 [queryText]) (by omega), ?_⟩
  rw [hone, foldlM_pushInput hk .entity entityWeight entities _ (by omega), htwo, plainInputs]

theorem plainViews_withinBounds (hwhite : c.isWhitespace = isWhitespace) {value : String}
    (h3 : 3 ≤ (collapseWhitespace value).length) (h700 : (collapseWhitespace value).length ≤ 700) :
    (plainViews c (collapseWhitespace value)).WithinBounds where
  queryChars := ⟨h3, h700⟩
  inputs := ⟨plainViews_ne_nil c _, (plainViews_length c _).trans (by omega)⟩
  chars := plainViews_chars hwhite h3 h700
  ordinals := plainViews_ordinals c _

/-- **The analysis of a query that is neither too short nor too long succeeds.** -/
theorem analyzeQuery_eq (hwhite : c.isWhitespace = isWhitespace) (hk : k.Lawful) {value : String}
    (h3 : 3 ≤ (collapseWhitespace value).length) (h700 : (collapseWhitespace value).length ≤ 700) :
    analyzeQuery c k value = .ok (plainViews c (collapseWhitespace value)) := by
  have haccepts := hk.accepts _ (plainViews_withinBounds hwhite h3 h700)
  rw [analyzeQuery]
  generalize collapseWhitespace value = q at h3 h700 haccepts
  have hrange : ¬ (!decide (3 ≤ q.length ∧ q.length ≤ k.maxEmbeddingInputChars)) = true := by
    rw [hk.chars]
    simp [h3, h700]
  have hcount := (plainViews_count c q).trans (show 37 ≤ 96 by omega)
  obtain ⟨first, second, hfirst, hsecond, hthird⟩ := push_plainInputs hk hcount
  rw [if_neg hrange]
  exact bind_ok_iff.mpr ⟨first, hfirst, bind_ok_iff.mpr ⟨second, hsecond,
    bind_ok_iff.mpr ⟨_, hthird, bind_ok_iff.mpr ⟨(), haccepts, rfl⟩⟩⟩⟩

theorem analyzed (hwhite : c.isWhitespace = isWhitespace) (hk : k.Lawful) {value : String}
    (h3 : 3 ≤ (collapseWhitespace value).length) (h700 : (collapseWhitespace value).length ≤ 700) :
    Analyzed c k value (plainViews c (collapseWhitespace value)) := by
  have hidem := collapseWhitespace_idem value
  have hagain : analyzeQuery c k (collapseWhitespace value) =
      .ok (plainViews c (collapseWhitespace (collapseWhitespace value))) :=
    analyzeQuery_eq hwhite hk (by rwa [hidem]) (by rwa [hidem])
  rw [hidem] at hagain
  have htexts := plainViews_texts hwhite h3
  have hchars := plainViews_chars hwhite h3 h700
  generalize hq : collapseWhitespace value = q at hagain htexts hchars
  have hlength := plainViews_length c q
  exact {
    queryText := hq.symm
    keywords := rfl
    entities := rfl
    inputs := plainViews_inputs c q
    ordinals := plainViews_ordinals c q
    count := hlength
    texts := htexts
    distinct := plainViews_distinct c q
    rows := fun sha256 ids tenantId inputSetId hsha hcollide hids =>
      holds_semanticInputRows (plainViews_ordinals c q) (by omega) hchars
        (plainViews_weights c q) (plainViews_distinct c q) hsha hcollide hids
    again := hagain }

/-- **Query analysis meets the contract of semantic inputs**: on every text of 3 to 700
characters after collapsing, and so on every query that a rule can hold, whether
it is taken as it was sent or as it is stored. -/
theorem analyzeQuery_contract (hwhite : c.isWhitespace = isWhitespace) (hk : k.Lawful) :
    (∀ value, 3 ≤ (collapseWhitespace value).length → (collapseWhitespace value).length ≤ 700 →
      ∃ views, analyzeQuery c k value = .ok views ∧ Analyzed c k value views) ∧
    (∀ x r y, Alerts.normalized x r = .ok y →
      ∃ views, analyzeQuery c k r.queryText = .ok views ∧
        analyzeQuery c k y.queryText = .ok views ∧ Analyzed c k y.queryText views) := by
  refine ⟨fun value h3 h700 => ⟨_, analyzeQuery_eq hwhite hk h3 h700, analyzed hwhite hk h3 h700⟩,
    fun x r y h => ?_⟩
  have hform := Alerts.normalized_ok_iff.mp h
  have hquery : y.queryText = collapseWhitespace r.queryText := hform.query
  obtain ⟨h3, h700⟩ := hform.valid.query
  rw [hquery] at h3 h700
  have hidem := collapseWhitespace_idem r.queryText
  rw [hquery]
  refine ⟨_, analyzeQuery_eq hwhite hk h3 h700, ?_, ?_⟩
  · exact (analyzed hwhite hk h3 h700).again
  · have hstored : Analyzed c k (collapseWhitespace r.queryText)
        (plainViews c (collapseWhitespace (collapseWhitespace r.queryText))) :=
      analyzed hwhite hk (by rwa [hidem]) (by rwa [hidem])
    rwa [hidem] at hstored

/-- The classes on ASCII texts. -/
def CharClasses.ascii : CharClasses where
  isAlphanumeric := Char.isAlphanum
  isUppercase := Char.isUpper
  isLowercase := Char.isLower
  isWhitespace := Text.isWhitespace

/-- The bounds of the contract, with a check of the number of inputs. -/
def Contracts.sample : Contracts where
  maxEmbeddingInputChars := 700
  maxEmbeddingInputs := 96
  validate views :=
    if views.embeddingInputs.length ≤ 96 then .ok ()
    else .error ⟨"too_many_embedding_inputs", "too many embedding inputs"⟩

theorem Contracts.sample_lawful : Contracts.sample.Lawful where
  chars := rfl
  inputs := rfl
  accepts _ h := if_pos h.inputs.2

theorem analyzeQuery_contract_example :
    (∃ views, analyzeQuery .ascii .sample " Track  Acme\tLabs " = .ok views ∧
      Analyzed .ascii .sample " Track  Acme\tLabs " views) ∧
    ∃ views, analyzeQuery .ascii .sample Alerts.sentRule.queryText = .ok views ∧
      analyzeQuery .ascii .sample Alerts.normalRule.queryText = .ok views ∧
      Analyzed .ascii .sample Alerts.normalRule.queryText views := by
  have hcontract := analyzeQuery_contract (c := CharClasses.ascii) rfl Contracts.sample_lawful
  exact ⟨hcontract.1 " Track  Acme\tLabs " (by decide) (by decide),
    hcontract.2 Platform.sample Alerts.sentRule Alerts.normalRule Alerts.normalized_sentRule⟩

example : analyzeQuery .ascii .sample " Track  Acme\tLabs " =
    .ok (plainViews .ascii "Track Acme Labs") ∧
    (plainViews .ascii "Track Acme Labs").keywords = ["track", "acme", "labs"] ∧
    (plainViews .ascii "Track Acme Labs").entities = ["Acme Labs"] := by
  decide +kernel

end Query

end EmbeddedAlerts
