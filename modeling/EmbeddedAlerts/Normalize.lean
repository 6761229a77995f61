import EmbeddedAlerts.Sample
import EmbeddedAlerts.SearchScope
import EmbeddedAlerts.Text.Check
import EmbeddedAlerts.Text.Collapse
import EmbeddedAlerts.Text.Order

/-!
# The normal form of a rule

`CreateAlertRule::normalized` takes five fields to a normal form, each in its own
way: name and model are trimmed, the words of the query are joined by single
spaces, the source filters go through a set of UUIDs, and the delivery channels
are trimmed, sorted and freed of duplicates.  Some bounds are checked before
duplicates are gone and some after it, in bytes where the schema counts
characters.

`NormalForm x r y` says what each field of `y` is, in terms of what the fields of
`r` mean and not of how they are spelled, and `normalized_ok_iff` that the code
computes exactly it.  From there, one after the other: a normal form is its own
(`NormalForm.idem`), a rule spelled differently has the same one
(`NormalForm.respells`), its filters are in order (`increasing_map_canonicalFilter`),
and it meets every CHECK of `eal_alert_rule_revisions`
(`NormalForm.check_newAlertRuleRevision`), so that **`create_alert_rule` fails on a
CHECK only if the subject is not one the table of rules takes**
(`createAlertRule_checkViolation_iff`).
-/

namespace EmbeddedAlerts

open Sql Text

/-! ### UUIDs in order -/

theorem Uuid.chars_lt_iff {u v : Uuid} : Uuid.chars u < Uuid.chars v ↔ u < v := by
  have hu : u.val < 16 ^ 32 := lt_of_lt_of_eq u.isLt (by norm_num)
  have hv : v.val < 16 ^ 32 := lt_of_lt_of_eq v.isLt (by norm_num)
  have hlen : ∀ n : ℕ, (hexFixed 32 n).length = 32 := hexFixed_length 32
  -- the hyphens stand at the same places, so they can be taken out one by one
  have hjoin : ∀ n : ℕ, (hexFixed 32 n).take 8 ++ (((hexFixed 32 n).drop 8).take 4 ++
      (((hexFixed 32 n).drop 12).take 4 ++ (((hexFixed 32 n).drop 16).take 4 ++
        (hexFixed 32 n).drop 20))) = hexFixed 32 n := by
    intro n
    have h1 : ∀ i j : ℕ, ((hexFixed 32 n).drop i).take j ++ (hexFixed 32 n).drop (i + j)
        = (hexFixed 32 n).drop i := by
      intro i j
      rw [← List.drop_drop]
      exact List.take_append_drop j _
    rw [h1 16 4, h1 12 4, h1 8 4, List.take_append_drop]
  rw [Fin.lt_def, ← hexFixed_lt_iff hu hv, Uuid.chars, Uuid.chars]
  rw [insert_lt_insert_iff '-' (by simp [hlen]), ← List.append_assoc, ← List.append_assoc,
    insert_lt_insert_iff '-' (by simp [hlen]), ← List.append_assoc, ← List.append_assoc,
    insert_lt_insert_iff '-' (by simp [hlen]), ← List.append_assoc, ← List.append_assoc,
    insert_lt_insert_iff '-' (by simp [hlen])]
  simp only [List.append_assoc, hjoin]

namespace SourceScope

variable {x : Platform}

theorem canonicalFilter_lt_iff {u v : Uuid} : canonicalFilter u < canonicalFilter v ↔ u < v := by
  rw [canonicalFilter, canonicalFilter, String.lt_iff_toList_lt, String.toList_ofList,
    String.toList_ofList, append_lt_append_iff rfl, Uuid.chars_lt_iff]
  simp

theorem increasing_map_canonicalFilter {ids : List Uuid} (h : ids.Pairwise (· < ·)) :
    (ids.map canonicalFilter).Pairwise (· < ·) :=
  List.pairwise_map.mpr (h.imp fun huv => canonicalFilter_lt_iff.mpr huv)

/-! ### Spellings of a source -/

/-- The filter spells the source: a text that `Uuid::parse_str` reads as it, alone
or after `source:`, and white space around it. -/
def Spells (x : Platform) (value : String) (u : Uuid) : Prop :=
  ∃ text : List Char, x.uuidParseStr (String.ofList text) = some u ∧
    (trim value.toList = sourcePrefix ++ text ∨
      trim value.toList = text ∧ text ≠ [] ∧ ¬ sourcePrefix <+: text)

theorem parseSourceFilter_eq (x : Platform) (value : String) : parseSourceFilter x value =
    if (trim value.toList).isEmpty then .error .invalidRuleFilter
    else okOr (x.uuidParseStr (String.ofList
      (if sourcePrefix.isPrefixOf (trim value.toList) then
        (trim value.toList).drop sourcePrefix.length else trim value.toList)))
      .invalidRuleFilter := by
  rw [parseSourceFilter]
  split
  · rfl
  · simp only
    generalize x.uuidParseStr _ = parsed
    cases parsed with
    | none => rfl
    | some u => rfl

theorem parseSourceFilter_ok_iff {value : String} {u : Uuid} :
    parseSourceFilter x value = .ok u ↔ Spells x value u := by
  rw [parseSourceFilter_eq]
  by_cases hempty : (trim value.toList).isEmpty = true
  · rw [if_pos hempty]
    rw [List.isEmpty_iff] at hempty
    constructor
    · intro h
      cases h
    · rintro ⟨text, -, htext | ⟨htext, hne, -⟩⟩
      · rw [hempty] at htext
        exact absurd htext.symm (by simp [sourcePrefix])
      · exact absurd (htext.symm.trans hempty) hne
  · rw [if_neg hempty, okOr_ok_iff]
    rw [List.isEmpty_iff] at hempty
    by_cases hpre : sourcePrefix <+: trim value.toList
    · obtain ⟨text, htext⟩ := hpre
      rw [← htext, if_pos (by simp), List.drop_left]
      constructor
      · intro h
        exact ⟨text, h, Or.inl htext.symm⟩
      · rintro ⟨text', hparse, htext' | ⟨htext', -, hno⟩⟩
        · rwa [List.append_cancel_left (htext.trans htext')]
        · exact absurd ⟨text, htext.trans htext'⟩ hno
    · rw [if_neg (by simpa using hpre)]
      constructor
      · intro h
        exact ⟨_, h, Or.inr ⟨rfl, hempty, hpre⟩⟩
      · rintro ⟨text', hparse, htext' | ⟨htext', -, -⟩⟩
        · exact absurd ⟨text', htext'.symm⟩ hpre
        · rwa [htext']

/-- The canonical filter of a source spells it and no other. -/
theorem spells_canonicalFilter_iff (hparse : ∀ u, x.uuidParseStr (Uuid.display u) = some u)
    {u v : Uuid} : Spells x (canonicalFilter u) v ↔ v = u := by
  have htrim : trim (canonicalFilter u).toList = sourcePrefix ++ Uuid.chars u := by
    rw [canonicalFilter, String.toList_ofList]
    exact trim_of_ends (canonicalFilter_head u) (canonicalFilter_last u)
  rw [Spells, htrim]
  constructor
  · rintro ⟨text, htext, heq | ⟨heq, -, hno⟩⟩
    · obtain rfl := List.append_cancel_left heq
      exact Option.some.inj (htext.symm.trans (hparse u))
    · exact absurd ⟨_, heq⟩ hno
  · rintro rfl
    exact ⟨Uuid.chars v, hparse v, Or.inl rfl⟩

/-- The sources that a list of filters spells. -/
def Names (x : Platform) (values : List String) (u : Uuid) : Prop := ∃ v ∈ values, Spells x v u

/-- **`parse_source_filter_ids` gives the sources that the filters spell**, in order,
if they are at most a hundred and each spells one. -/
theorem parseSourceFilterIds_ok_iff {values : List String} {ids : List Uuid} :
    parseSourceFilterIds x values = .ok ids ↔
      values.length ≤ maxSourceFilters ∧ (∀ v ∈ values, ∃ u, Spells x v u) ∧
        ids.Pairwise (· < ·) ∧ ∀ u, u ∈ ids ↔ Names x values u := by
  have hnames : ∀ m : List Uuid, values.mapM (parseSourceFilter x) = .ok m →
      ∀ u, u ∈ btreeSet m ↔ Names x values u := by
    intro m hm u
    rw [mem_btreeSet]
    constructor
    · intro hu
      obtain ⟨v, hv, hvu⟩ := exists_of_mem_mapM hm hu
      exact ⟨v, hv, parseSourceFilter_ok_iff.mp hvu⟩
    · rintro ⟨v, hv, hvu⟩
      obtain ⟨w, hw, hvw⟩ := exists_mem_of_mapM hm hv
      rw [parseSourceFilter_ok_iff.mpr hvu] at hvw
      rwa [Except.ok.inj hvw]
  rw [parseSourceFilterIds]
  by_cases hlen : values.length > maxSourceFilters
  · rw [if_pos hlen]
    constructor
    · intro h
      cases h
    · rintro ⟨hle, -⟩
      omega
  · rw [if_neg hlen]
    constructor
    · intro h
      rcases hm : values.mapM (parseSourceFilter x) with e | m
      · rw [hm] at h
        cases h
      · rw [hm] at h
        obtain rfl : btreeSet m = ids := Except.ok.inj h
        refine ⟨by omega, fun v hv => ?_, increasing_btreeSet m, hnames m hm⟩
        obtain ⟨u, -, hvu⟩ := exists_mem_of_mapM hm hv
        exact ⟨u, parseSourceFilter_ok_iff.mp hvu⟩
    · rintro ⟨-, hall, hids, hmem⟩
      obtain ⟨m, hm⟩ := mapM_ok_of_forall fun v hv =>
        (hall v hv).imp fun u hu => parseSourceFilter_ok_iff.mpr hu
      have hsame : btreeSet m = ids :=
        (increasing_btreeSet m).eq_of_mem_iff hids fun u => (hnames m hm u).trans (hmem u).symm
      rw [hm, ← hsame]
      rfl

theorem names_map_canonicalFilter (hparse : ∀ u, x.uuidParseStr (Uuid.display u) = some u)
    {ids : List Uuid} {u : Uuid} : Names x (ids.map canonicalFilter) u ↔ u ∈ ids := by
  constructor
  · rintro ⟨v, hv, hvu⟩
    obtain ⟨w, hw, rfl⟩ := List.mem_map.mp hv
    rwa [(spells_canonicalFilter_iff hparse).mp hvu]
  · intro hu
    exact ⟨_, List.mem_map_of_mem hu, (spells_canonicalFilter_iff hparse).mpr rfl⟩

/-- **Canonical filters are read back** as the sources they were made from. -/
theorem parseSourceFilterIds_map_canonicalFilter
    (hparse : ∀ u, x.uuidParseStr (Uuid.display u) = some u) {values : List String}
    {ids : List Uuid} (h : parseSourceFilterIds x values = .ok ids) :
    parseSourceFilterIds x (ids.map canonicalFilter) = .ok ids := by
  obtain ⟨-, -, hids, -⟩ := parseSourceFilterIds_ok_iff.mp h
  refine parseSourceFilterIds_ok_iff.mpr ⟨?_, fun v hv => ?_, hids, fun u => ?_⟩
  · have hout : normalizeSourceFilters x values = .ok (ids.map canonicalFilter) := by
      rw [normalizeSourceFilters, h]
      rfl
    obtain ⟨ids', hlen', heq⟩ := normalizeSourceFilters_ok hout
    rw [heq, List.length_map]
    exact hlen'
  · obtain ⟨w, -, rfl⟩ := List.mem_map.mp hv
    exact ⟨w, (spells_canonicalFilter_iff hparse).mpr rfl⟩
  · exact (names_map_canonicalFilter hparse).symm

end SourceScope

namespace Alerts

open SourceScope

variable {x : Platform} {r r' y : CreateAlertRule}

/-! ### Lists of channels -/

theorem trimString_trimString (s : String) : trimString (trimString s) = trimString s := by
  rw [trimString, trimString, String.toList_ofList, trim_trim]

theorem collapseWhitespace_eq (s : String) :
    collapseWhitespace s = String.ofList (collapse s.toList) :=
  rfl

theorem collapseWhitespace_collapseWhitespace (s : String) :
    collapseWhitespace (collapseWhitespace s) = collapseWhitespace s := by
  rw [collapseWhitespace_eq, collapseWhitespace_eq, String.toList_ofList, collapse_collapse]

/-- One step of rewriting a list of texts: reordering it, repeating an entry, or
padding one with white space. -/
inductive Relisting : List String → List String → Prop
  | reorder {l m : List String} (h : l.Perm m) : Relisting l m
  | again {c : String} {l : List String} (h : c ∈ l) : Relisting (c :: l) l
  | pad {a b : List Char} (c : String) (l : List String)
      (ha : ∀ d ∈ a, isWhitespace d = true) (hb : ∀ d ∈ b, isWhitespace d = true) :
      Relisting (String.ofList (a ++ (c.toList ++ b)) :: l) (c :: l)

theorem mem_trimmed_of_relisting {l m : List String} (h : Relation.EqvGen Relisting l m) :
    ∀ c, c ∈ l.map trimString ↔ c ∈ m.map trimString := by
  induction h with
  | rel l m hlm =>
    intro c
    cases hlm with
    | reorder h => exact (h.map trimString).mem_iff
    | again h =>
      rw [List.map_cons, List.mem_cons]
      constructor
      · rintro (rfl | hc)
        · exact List.mem_map_of_mem h
        · exact hc
      · exact Or.inr
    | pad d l ha hb =>
      rw [List.map_cons, List.map_cons, trimString, String.toList_ofList, trim_pad ha hb]
      rfl
  | refl l => exact fun c => Iff.rfl
  | symm l m _ ih => exact fun c => (ih c).symm
  | trans l m n _ _ ih₁ ih₂ => exact fun c => (ih₁ c).trans (ih₂ c)

theorem validateList_ok_iff {values : List String} {maxItems maxBytes : ℕ} {name : String} :
    validateList values maxItems maxBytes name = .ok () ↔
      values.length ≤ maxItems ∧ ∀ v ∈ values, v ≠ "" ∧ v.utf8ByteSize ≤ maxBytes := by
  have hany : (values.any fun v => v.isEmpty || decide (v.utf8ByteSize > maxBytes)) = true ↔
      ¬ ∀ v ∈ values, v ≠ "" ∧ v.utf8ByteSize ≤ maxBytes := by
    simp [List.any_eq_true, imp_iff_not_or]
  rw [validateList]
  by_cases hlen : values.length > maxItems
  · rw [if_pos hlen]
    constructor
    · intro h
      cases h
    · rintro ⟨hle, -⟩
      omega
  · rw [if_neg hlen]
    by_cases hbad : (values.any fun v => v.isEmpty || decide (v.utf8ByteSize > maxBytes)) = true
    · rw [if_pos hbad]
      constructor
      · intro h
        cases h
      · rintro ⟨-, hall⟩
        exact absurd hall (hany.mp hbad)
    · rw [if_neg hbad]
      rw [hany, not_not] at hbad
      exact ⟨fun _ => ⟨by omega, hbad⟩, fun _ => rfl⟩

/-- **What `normalize_list` makes of a list**: the trimmed entries, each once and in
order, within the bounds. -/
structure NormalList (maxItems maxBytes : ℕ) (values out : List String) : Prop where
  increasing : out.Pairwise (· < ·)
  mem_iff : ∀ c, c ∈ out ↔ c ∈ values.map trimString
  length : out.length ≤ maxItems
  bytes : ∀ c ∈ out, c ≠ "" ∧ c.utf8ByteSize ≤ maxBytes

theorem normalizeList_ok_iff {values out : List String} {maxItems maxBytes : ℕ} {name : String} :
    normalizeList values maxItems maxBytes name = .ok out ↔
      NormalList maxItems maxBytes values out := by
  have hmem : ∀ c, c ∈ ((values.map trimString).insertionSort (· ≤ ·)).dedup ↔
      c ∈ values.map trimString := by
    intro c
    rw [List.mem_dedup, List.mem_insertionSort]
  rw [normalizeList]
  constructor
  · intro h
    obtain ⟨u, hu, rfl⟩ := map_ok_iff.mp h
    obtain ⟨hlen, hbytes⟩ := validateList_ok_iff.mp hu
    exact ⟨increasing_dedup _, hmem, hlen, hbytes⟩
  · intro h
    obtain rfl : ((values.map trimString).insertionSort (· ≤ ·)).dedup = out :=
      (increasing_dedup _).eq_of_mem_iff h.increasing fun c => (hmem c).trans (h.mem_iff c).symm
    exact map_ok_iff.mpr ⟨(), validateList_ok_iff.mpr ⟨h.length, h.bytes⟩, rfl⟩

theorem NormalList.idem {maxItems maxBytes : ℕ} {values out : List String}
    (h : NormalList maxItems maxBytes values out) : NormalList maxItems maxBytes out out where
  increasing := h.increasing
  length := h.length
  bytes := h.bytes
  mem_iff c := by
    have htrim : ∀ d ∈ out, trimString d = d := by
      intro d hd
      obtain ⟨v, -, rfl⟩ := List.mem_map.mp ((h.mem_iff d).mp hd)
      exact trimString_trimString v
    rw [List.map_congr_left htrim, List.map_id']

/-! ### Rules -/

/-- What `validate` asks of a rule. -/
structure Valid (x : Platform) (y : CreateAlertRule) : Prop where
  name : y.name ≠ "" ∧ y.name.utf8ByteSize ≤ maxNameBytes
  query : 3 ≤ y.queryText.length ∧ y.queryText.length ≤ maxQueryChars
  model : y.embeddingModel ≠ "" ∧ y.embeddingModel.utf8ByteSize ≤ maxModelBytes
  threshold : 0 ≤ y.similarityThreshold.val ∧ y.similarityThreshold.val ≤ 1
  filters : ∃ ids, parseSourceFilterIds x y.sourceFilters = .ok ids
  channels : y.deliveryChannels.length ≤ maxDeliveryChannels ∧
    ∀ c ∈ y.deliveryChannels, c ≠ "" ∧ c.utf8ByteSize ≤ maxDeliveryChannelBytes

theorem validateSourceFilters_ok_iff {values : List String} :
    validateSourceFilters x values = .ok () ↔ ∃ ids, parseSourceFilterIds x values = .ok ids := by
  rw [validateSourceFilters]
  cases parseSourceFilterIds x values with
  | error e => simp
  | ok ids => simp

theorem not_empty_or_long {s : String} {n : ℕ} :
    ¬ (s.isEmpty || decide (s.utf8ByteSize > n)) = true ↔ s ≠ "" ∧ s.utf8ByteSize ≤ n := by
  simp

theorem validate_ok_iff : validate x y = .ok () ↔ Valid x y := by
  rw [validate, ite_throw_ok_iff, ite_throw_ok_iff, ite_throw_ok_iff, ite_throw_ok_iff,
    bind_ok_iff, not_empty_or_long, not_empty_or_long, Bool.not_eq_true, Bool.not_eq_false',
    Bool.not_eq_true, Bool.not_eq_false', decide_eq_true_eq, decide_eq_true_eq]
  constructor
  · rintro ⟨hname, hquery, hmodel, hthreshold, _, hfilters, hchannels⟩
    exact ⟨hname, hquery, hmodel, hthreshold, validateSourceFilters_ok_iff.mp hfilters,
      validateList_ok_iff.mp hchannels⟩
  · intro h
    exact ⟨h.name, h.query, h.model, h.threshold, (), validateSourceFilters_ok_iff.mpr h.filters,
      validateList_ok_iff.mpr h.channels⟩

/-- **The normal form of a rule**: a valid rule whose fields are the normal forms of
its fields. -/
structure NormalForm (x : Platform) (r y : CreateAlertRule) : Prop where
  valid : Valid x y
  name : y.name = trimString r.name
  query : y.queryText = collapseWhitespace r.queryText
  model : y.embeddingModel = trimString r.embeddingModel
  threshold : y.similarityThreshold = r.similarityThreshold
  filters : ∃ ids, parseSourceFilterIds x r.sourceFilters = .ok ids ∧
    y.sourceFilters = ids.map canonicalFilter
  channels : NormalList maxDeliveryChannels maxDeliveryChannelBytes r.deliveryChannels
    y.deliveryChannels
  enabled : y.enabled = r.enabled

theorem normalizeSourceFilters_ok_iff {values out : List String} :
    normalizeSourceFilters x values = .ok out ↔
      ∃ ids, parseSourceFilterIds x values = .ok ids ∧ out = ids.map canonicalFilter := by
  rw [normalizeSourceFilters]
  constructor
  · intro h
    obtain ⟨ids, hids, rfl⟩ := map_ok_iff.mp h
    exact ⟨ids, hids, rfl⟩
  · rintro ⟨ids, hids, rfl⟩
    exact map_ok_iff.mpr ⟨ids, hids, rfl⟩

/-- **`normalized` computes the normal form**, and fails only if there is none. -/
theorem normalized_ok_iff : normalized x r = .ok y ↔ NormalForm x r y := by
  rw [normalized, bind_ok_iff]
  simp only [mapError_ok_iff, bind_ok_iff, normalizeSourceFilters_ok_iff, normalizeList_ok_iff,
    pure_ok_iff]
  constructor
  · rintro ⟨filters, hfilters, channels, hchannels, _, hvalid, rfl⟩
    exact ⟨validate_ok_iff.mp hvalid, rfl, rfl, rfl, rfl, hfilters, hchannels, rfl⟩
  · intro h
    refine ⟨y.sourceFilters, h.filters, y.deliveryChannels, h.channels, (), ?_⟩
    have hy : { r with
        name := trimString r.name
        queryText := collapseWhitespace r.queryText
        embeddingModel := trimString r.embeddingModel
        sourceFilters := y.sourceFilters
        deliveryChannels := y.deliveryChannels } = y := by
      rw [← h.name, ← h.query, ← h.model, ← h.threshold, ← h.enabled]
    rw [hy]
    exact ⟨validate_ok_iff.mpr h.valid, rfl⟩

theorem NormalForm.idem (hparse : ∀ u, x.uuidParseStr (Uuid.display u) = some u)
    (h : NormalForm x r y) : NormalForm x y y where
  valid := h.valid
  name := by rw [h.name, trimString_trimString]
  query := by rw [h.query, collapseWhitespace_collapseWhitespace]
  model := by rw [h.model, trimString_trimString]
  threshold := rfl
  filters := by
    obtain ⟨ids, hids, hout⟩ := h.filters
    refine ⟨ids, ?_, hout⟩
    rw [hout]
    exact parseSourceFilterIds_map_canonicalFilter hparse hids
  channels := h.channels.idem
  enabled := rfl

/-- The first rule is the second, spelled differently: its filters spell the same
sources, its channels are the same up to order, repetition and padding, its query
has other runs of white space, and name and model are padded. -/
structure Respells (x : Platform) (r' r : CreateAlertRule) : Prop where
  name : trimString r'.name = trimString r.name
  query : Relation.EqvGen Respacing r'.queryText.toList r.queryText.toList
  model : trimString r'.embeddingModel = trimString r.embeddingModel
  threshold : r'.similarityThreshold = r.similarityThreshold
  fewFilters : r'.sourceFilters.length ≤ maxSourceFilters
  spelled : ∀ v ∈ r'.sourceFilters, ∃ u, Spells x v u
  sources : ∀ u, Names x r'.sourceFilters u ↔ Names x r.sourceFilters u
  channels : Relation.EqvGen Relisting r'.deliveryChannels r.deliveryChannels
  enabled : r'.enabled = r.enabled

theorem NormalForm.respells (h : NormalForm x r y) (hr : Respells x r' r) :
    NormalForm x r' y where
  valid := h.valid
  name := h.name.trans hr.name.symm
  query := by
    rw [h.query, collapseWhitespace, collapseWhitespace, splitWhitespace_of_respacing hr.query]
  model := h.model.trans hr.model.symm
  threshold := h.threshold.trans hr.threshold.symm
  filters := by
    obtain ⟨ids, hids, hout⟩ := h.filters
    obtain ⟨-, -, hincreasing, hmem⟩ := parseSourceFilterIds_ok_iff.mp hids
    exact ⟨ids, parseSourceFilterIds_ok_iff.mpr ⟨hr.fewFilters, hr.spelled, hincreasing,
      fun u => (hmem u).trans (hr.sources u).symm⟩, hout⟩
  channels :=
    { increasing := h.channels.increasing
      mem_iff := fun c =>
        (h.channels.mem_iff c).trans (mem_trimmed_of_relisting hr.channels c).symm
      length := h.channels.length
      bytes := h.channels.bytes }
  enabled := h.enabled.trans hr.enabled.symm

/-! ### The constraints of the schema -/

theorem charLengthBetween_of_bytes {s : String} {n : ℕ} (h : s ≠ "" ∧ s.utf8ByteSize ≤ n) :
    charLengthBetween 1 n s = true := by
  have hpos : s.length ≠ 0 := by
    rw [Ne, String.length_eq_zero_iff]
    exact h.1
  have hle := length_le_utf8ByteSize s
  rw [charLengthBetween, decide_eq_true_eq]
  omega

/-- **A normal form meets every CHECK** of `eal_alert_rule_revisions`: what is left is
the one on the subject, which is not part of the rule. -/
theorem NormalForm.check_newAlertRuleRevision (h : NormalForm x r y) (now : Timestamp)
    (revisionId ruleId tenantId : Uuid) (subject : String) :
    alertRuleRevisionsTable.check
        (AlertStore.newAlertRuleRevision now revisionId ruleId tenantId subject y)
      = charLengthBetween 1 256 subject := by
  have hname := charLengthBetween_of_bytes h.valid.name
  have hmodel := charLengthBetween_of_bytes h.valid.model
  have hquery : charLengthBetween 3 700 y.queryText = true := decide_eq_true h.valid.query
  have hfilters : y.sourceFilters.length ≤ 128 := by
    obtain ⟨ids, hids⟩ := h.valid.filters
    have hlen := (parseSourceFilterIds_ok_iff.mp hids).1
    rw [maxSourceFilters] at hlen
    omega
  have hchannels : y.deliveryChannels.length ≤ 32 := h.valid.channels.1
  rw [maxNameBytes] at hname
  rw [maxModelBytes] at hmodel
  simp only [alertRuleRevisionsTable, AlertStore.newAlertRuleRevision, hname, hmodel, hquery,
    h.valid.threshold.1, h.valid.threshold.2, hfilters, hchannels]
  simp

end Alerts

/-! ### Creating a rule -/

namespace AlertStore

open Alerts

variable {x : Platform} {r y : CreateAlertRule} {now : Timestamp} {tenantId : Uuid}
  {subject : String} {db : Db} {e : DbErr}

/-- The rule is inserted without an active revision, so the trigger lets it pass. -/
theorem insertAlertRule_newAlertRule (ruleId : Uuid) :
    insertAlertRule (newAlertRule now ruleId tenantId subject) db db =
      alertRulesTable.insert db db.alertRules (newAlertRule now ruleId tenantId subject) >>=
        fun rows => .ok (1, { db with alertRules := rows }) :=
  rfl

theorem ofDbErr_ne_check_of_key (h : e = .uniqueViolation ∨ e = .foreignKeyViolation) :
    HttpError.ofDbErr e ≠ HttpError.ofDbErr .checkViolation := by
  rcases h with rfl | rfl
  · decide
  · decide

theorem bind_ok_error {α β : Type} {result : Except DbErr α} {f : α → β}
    (h : (result >>= fun a => .ok (f a)) = .error e) : result = .error e := by
  cases result with
  | error e' => exact congrArg Except.error (Except.error.inj h)
  | ok a => cases h

theorem enforceActiveAlertLimit_error {rules : List AlertRuleRow}
    {revisions : List AlertRuleRevisionRow} {new : AlertRuleRow}
    (h : enforceActiveAlertLimit rules revisions new = .error e) :
    e = .raised "an owner may have at most 10 enabled active embedded searches" := by
  unfold enforceActiveAlertLimit at h
  split_ifs at h
  exact (Except.error.inj h).symm

theorem activateAlertRule_error {ruleId revisionId : Uuid}
    (h : activateAlertRule now ruleId tenantId revisionId db db = .error e) :
    HttpError.ofDbErr e ≠ HttpError.ofDbErr .checkViolation := by
  unfold activateAlertRule at h
  split at h
  · cases h
  · next rule _ =>
    rcases hlimit : enforceActiveAlertLimit db.alertRules db.alertRuleRevisions
      (activated now revisionId rule) with e' | new
    · rw [hlimit] at h
      obtain rfl : e' = e := Except.error.inj h
      rw [enforceActiveAlertLimit_error hlimit]
      decide
    · rw [hlimit] at h
      by_cases hrefs : alertRulesTable.refs db new = false
      · simp only [bind, Except.bind, hrefs, if_true] at h
        exact ofDbErr_ne_check_of_key (Or.inr (Except.error.inj h).symm)
      · simp only [bind, Except.bind, hrefs] at h
        cases h

/-- **Creating a rule in normal form fails on a CHECK only because of the subject**,
and then on the CHECK of `eal_alert_rules`, before the revision is written. -/
theorem createAlertRule_checkViolation_iff (h : NormalForm x r y) (now : Timestamp)
    (ids : ℕ → Uuid) (tenantId : Uuid) (subject : String) (db : Db) :
    (createAlertRule now ids tenantId subject y db).1 =
        .error (HttpError.ofDbErr .checkViolation) ↔
      charLengthBetween 1 256 subject = false := by
  constructor
  · intro hfail
    by_contra hsubject
    rw [Bool.not_eq_false] at hsubject
    have hthrows : Action.Throws (· ≠ HttpError.ofDbErr .checkViolation)
        (createAlertRule now ids tenantId subject y) db := by
      refine Action.Throws.bind (Action.Throws.transaction ?_)
        fun _ _ _ => Action.Throws.okOr (by decide)
      refine Action.Throws.bind (Action.Throws.statement fun e he => ?_) fun n d1 _ => ?_
      · have hcheck : alertRulesTable.check (newAlertRule now (ids 0) tenantId subject) = true :=
          hsubject
        rw [insertAlertRule_newAlertRule] at he
        exact ofDbErr_ne_check_of_key
          (alertRulesTable.insert_error_of_check hcheck (bind_ok_error he))
      refine Action.Throws.ensure_bind (by decide) fun _ => ?_
      refine Action.Throws.bind (Action.Throws.statement fun e he => ?_) fun n d2 _ => ?_
      · have hcheck := h.check_newAlertRuleRevision now (ids 1) (ids 0) tenantId subject
        rw [hsubject] at hcheck
        exact ofDbErr_ne_check_of_key
          (alertRuleRevisionsTable.insert_error_of_check hcheck (bind_ok_error he))
      refine Action.Throws.ensure_bind (by decide) fun _ => ?_
      refine Action.Throws.bind (Action.Throws.statement fun e he => ?_) fun n d3 _ => ?_
      · exact activateAlertRule_error he
      exact Action.Throws.ensure_bind (by decide) fun _ => Action.Throws.query
    exact hthrows _ hfail rfl
  · intro hsubject
    have hinsert : insertAlertRule (newAlertRule now (ids 0) tenantId subject) db db
        = .error .checkViolation := by
      have hcheck : alertRulesTable.check (newAlertRule now (ids 0) tenantId subject) = false :=
        hsubject
      rw [insertAlertRule_newAlertRule, alertRulesTable.insert_of_check_false hcheck]
      rfl
    rw [createAlertRule, Action.bind_of_error (Action.transaction_of_error
      (Action.bind_of_error (execute_of_error hinsert)))]

end AlertStore

namespace Alerts

open SourceScope

/-- **Normalization gives a canonical form that the schema accepts.**  A normal form
is its own; every rule that spells the same one has it; its filters are in strictly
increasing order and are read back as the sources the rule named; and no CHECK of
`eal_alert_rule_revisions` can fail on it, so creating the rule fails on a CHECK
exactly if the subject has no length that the tables take. -/
theorem normalized_canonical {x : Platform}
    (hparse : ∀ u, x.uuidParseStr (Uuid.display u) = some u) {r y : CreateAlertRule}
    (h : normalized x r = .ok y) :
    normalized x y = .ok y ∧
    (∀ r', Respells x r' r → normalized x r' = .ok y) ∧
    (∃ ids, parseSourceFilterIds x r.sourceFilters = .ok ids ∧
      y.sourceFilters = ids.map canonicalFilter ∧ y.sourceFilters.Pairwise (· < ·) ∧
      parseSourceFilterIds x y.sourceFilters = .ok ids) ∧
    (∀ now revisionId ruleId tenantId subject,
      alertRuleRevisionsTable.check
          (AlertStore.newAlertRuleRevision now revisionId ruleId tenantId subject y)
        = charLengthBetween 1 256 subject) ∧
    (∀ now ids tenantId subject db,
      (AlertStore.createAlertRule now ids tenantId subject y db).1 =
          .error (HttpError.ofDbErr .checkViolation) ↔
        charLengthBetween 1 256 subject = false) := by
  have hform := normalized_ok_iff.mp h
  refine ⟨normalized_ok_iff.mpr (hform.idem hparse),
    fun r' hr => normalized_ok_iff.mpr (hform.respells hr), ?_,
    hform.check_newAlertRuleRevision, AlertStore.createAlertRule_checkViolation_iff hform⟩
  obtain ⟨ids, hids, hout⟩ := hform.filters
  have hincreasing := (parseSourceFilterIds_ok_iff.mp hids).2.2.1
  refine ⟨ids, hids, hout, ?_, ?_⟩
  · rw [hout]
    exact increasing_map_canonicalFilter hincreasing
  · rw [hout]
    exact parseSourceFilterIds_map_canonicalFilter hparse hids

/-- A rule as a client may send it. -/
def sentRule : CreateAlertRule where
  name := " tools "
  queryText := " new\tsolar  tools "
  embeddingModel := "m "
  similarityThreshold := F32.ofRat (1 / 2)
  sourceFilters := ["source:00000000000000000000000000000002",
    " 00000000-0000-0000-0000-000000000001 ", "source:00000000000000000000000000000002"]
  deliveryChannels := ["web", " in_app", "web "]
  enabled := true

/-- The same rule, with both lists in the opposite order and the query unpadded. -/
def resentRule : CreateAlertRule :=
  { sentRule with
    queryText := "new\tsolar  tools "
    sourceFilters := sentRule.sourceFilters.reverse
    deliveryChannels := sentRule.deliveryChannels.reverse }

def normalRule : CreateAlertRule where
  name := "tools"
  queryText := "new solar tools"
  embeddingModel := "m"
  similarityThreshold := F32.ofRat (1 / 2)
  sourceFilters := [canonicalFilter 1, canonicalFilter 2]
  deliveryChannels := ["in_app", "web"]
  enabled := true

theorem normalized_sentRule : normalized Platform.sample sentRule = .ok normalRule := by
  decide +kernel

theorem resentRule_respells : Respells Platform.sample resentRule sentRule where
  name := rfl
  query := by
    have hwhite : ∀ c ∈ [' '], isWhitespace c = true := List.forall_mem_singleton.mpr (by decide)
    have hlead := Respacing.lead resentRule.queryText.toList hwhite
    have hsent : [' '] ++ resentRule.queryText.toList = sentRule.queryText.toList := by
      decide
    rw [hsent] at hlead
    exact .symm _ _ (.rel _ _ hlead)
  model := rfl
  threshold := rfl
  fewFilters := by decide
  spelled := by
    obtain ⟨ids, hids, -⟩ := (normalized_ok_iff.mp normalized_sentRule).filters
    have hall := (parseSourceFilterIds_ok_iff.mp hids).2.1
    intro v hv
    exact hall v (List.mem_reverse.mp hv)
  sources := by
    intro u
    constructor
    · rintro ⟨v, hv, hvu⟩
      exact ⟨v, List.mem_reverse.mp hv, hvu⟩
    · rintro ⟨v, hv, hvu⟩
      exact ⟨v, List.mem_reverse.mpr hv, hvu⟩
  channels := .rel _ _ (.reorder (List.reverse_perm _))
  enabled := rfl

theorem normalized_canonical_resentRule :
    normalized Platform.sample resentRule = .ok normalRule ∧
      normalized Platform.sample normalRule = .ok normalRule ∧
      normalRule.sourceFilters.Pairwise (· < ·) := by
  obtain ⟨hidem, hrespelled, ⟨ids, -, -, hincreasing, -⟩, -⟩ :=
    normalized_canonical Platform.sample_lawful.parseDisplay normalized_sentRule
  exact ⟨hrespelled resentRule resentRule_respells, hidem, hincreasing⟩

end Alerts

end EmbeddedAlerts
