import Mathlib.Data.List.Sort
import EmbeddedAlerts.Platform

/-!
# Source scopes

`src/source_scope.rs`: the source filters of a rule, and how they bound the
sources a search may name.  A filter is a UUID or `source:` and a UUID.  A
`BTreeSet<Uuid>` is the strictly increasing list of its elements (`btreeSet`).

A filter in the form that `normalize_source_filters` writes reads back as the
source it names (`parseSourceFilter_canonical`), so the rule scope of a list of
such filters is exactly the sources it lists (`parseSourceFilterIds_canonical`).
-/

namespace EmbeddedAlerts

namespace SourceScope

open Text

def maxSourceFilters : ℕ := 100

def sourcePrefix : List Char := "source:".toList

inductive SourceScopeError where
  | tooManyRuleFilters
  | invalidRuleFilter
  | requestedSourceOutsideRuleScope
deriving DecidableEq, Repr

/-- `SourceScopeError`'s `Display`. -/
def SourceScopeError.message : SourceScopeError → String
  | .tooManyRuleFilters => "source_filters must contain at most 100 source IDs"
  | .invalidRuleFilter => "each source_filters value must be a UUID or source:<UUID>"
  | .requestedSourceOutsideRuleScope =>
    "requested source_ids must be a subset of the alert rule source_filters"

/-- Collecting into a `BTreeSet<Uuid>` and iterating over it. -/
def btreeSet (ids : List Uuid) : List Uuid := ids.dedup.insertionSort (· ≤ ·)

@[simp] theorem mem_btreeSet {ids : List Uuid} {u : Uuid} : u ∈ btreeSet ids ↔ u ∈ ids := by
  simp [btreeSet]

/-- `parse_source_filter`. -/
def parseSourceFilter (x : Platform) (value : String) : Except SourceScopeError Uuid :=
  let value := trim value.toList
  if value.isEmpty then .error .invalidRuleFilter
  else
    let uuid := if sourcePrefix.isPrefixOf value then value.drop sourcePrefix.length else value
    match x.uuidParseStr (String.ofList uuid) with
    | some u => .ok u
    | none => .error .invalidRuleFilter

/-- `parse_source_filter_ids`. -/
def parseSourceFilterIds (x : Platform) (values : List String) :
    Except SourceScopeError (List Uuid) :=
  if values.length > maxSourceFilters then .error .tooManyRuleFilters
  else (values.mapM (parseSourceFilter x)).map btreeSet

/-- `format!("{SOURCE_PREFIX}{source_id}")`. -/
def canonicalFilter (u : Uuid) : String := String.ofList (sourcePrefix ++ Uuid.chars u)

/-- `normalize_source_filters`. -/
def normalizeSourceFilters (x : Platform) (values : List String) :
    Except SourceScopeError (List String) :=
  (parseSourceFilterIds x values).map fun ids => ids.map canonicalFilter

/-- `constrain_search_sources`. -/
def constrainSearchSources (x : Platform) (ruleFilters : List String)
    (requestedSourceIds : List Uuid) : Except SourceScopeError (List Uuid) := do
  let ruleScope ← parseSourceFilterIds x ruleFilters
  let requested := btreeSet requestedSourceIds
  if ruleScope.isEmpty then
    return requested
  let ruleScope := btreeSet ruleScope
  if requested.isEmpty then
    return ruleScope
  if requested.any fun sourceId => !ruleScope.contains sourceId then
    throw .requestedSourceOutsideRuleScope
  return requested

/-! ### Canonical filters -/

theorem isWhitespace_hexDigit : ∀ d < 16, isWhitespace (hexDigit d) = false := by decide

theorem canonicalFilter_head (u : Uuid) :
    ∀ c ∈ (sourcePrefix ++ Uuid.chars u).head?, isWhitespace c = false := by
  intro c hc
  obtain rfl : 's' = c := by simpa [sourcePrefix] using hc
  decide

theorem canonicalFilter_last (u : Uuid) :
    ∀ c ∈ (sourcePrefix ++ Uuid.chars u).getLast?, isWhitespace c = false := by
  intro c hc
  have htail : ((hexFixed 32 u.val).drop 20).getLast? = some (hexDigit (u.val % 16)) := by
    rw [List.getLast?_drop]
    simp [hexFixed]
  have hlast : (sourcePrefix ++ Uuid.chars u).getLast? = some (hexDigit (u.val % 16)) := by
    simp only [Uuid.chars, List.getLast?_append, List.getLast?_cons, htail]
    simp
  rw [hlast] at hc
  obtain rfl := Option.some.inj hc
  exact isWhitespace_hexDigit _ (by omega)

/-- **A canonical filter reads back as the source it names.** -/
theorem parseSourceFilter_canonical {x : Platform} (hx : x.Lawful) (u : Uuid) :
    parseSourceFilter x (canonicalFilter u) = .ok u := by
  have htrim : trim (sourcePrefix ++ Uuid.chars u) = sourcePrefix ++ Uuid.chars u :=
    trim_of_ends (canonicalFilter_head u) (canonicalFilter_last u)
  have hne : (sourcePrefix ++ Uuid.chars u).isEmpty = false := by
    simp [sourcePrefix]
  have hpre : sourcePrefix.isPrefixOf (sourcePrefix ++ Uuid.chars u) = true := by simp
  have hparse : x.uuidParseStr (String.ofList (Uuid.chars u)) = some u := hx.parseDisplay u
  simp only [parseSourceFilter, canonicalFilter, String.toList_ofList, htrim, hne, hpre,
    Bool.false_eq_true, if_false, if_true, List.drop_left, hparse]

theorem mapM_parseSourceFilter_canonical {x : Platform} (hx : x.Lawful) (ids : List Uuid) :
    (ids.map canonicalFilter).mapM (parseSourceFilter x) = .ok ids := by
  induction ids with
  | nil => rfl
  | cons u ids ih =>
    rw [List.map_cons, List.mapM_cons, parseSourceFilter_canonical hx, ih]
    rfl

/-- **The rule scope of canonical filters is the sources they list.** -/
theorem parseSourceFilterIds_canonical {x : Platform} (hx : x.Lawful) {ids : List Uuid}
    (h : ids.length ≤ maxSourceFilters) :
    parseSourceFilterIds x (ids.map canonicalFilter) = .ok (btreeSet ids) := by
  have hlen : ¬ (ids.map canonicalFilter).length > maxSourceFilters := by
    rw [List.length_map]
    omega
  rw [parseSourceFilterIds, if_neg hlen, mapM_parseSourceFilter_canonical hx]
  rfl

theorem btreeSet_length_le (ids : List Uuid) : (btreeSet ids).length ≤ ids.length := by
  rw [btreeSet, List.length_insertionSort]
  exact (List.dedup_sublist ids).length_le

/-- What `normalize_source_filters` writes: at most a hundred canonical filters. -/
theorem normalizeSourceFilters_ok {x : Platform} {values out : List String}
    (h : normalizeSourceFilters x values = .ok out) :
    ∃ ids : List Uuid, ids.length ≤ maxSourceFilters ∧ out = ids.map canonicalFilter := by
  rw [normalizeSourceFilters, parseSourceFilterIds] at h
  by_cases hlen : values.length > maxSourceFilters
  · rw [if_pos hlen] at h
    cases h
  · rw [if_neg hlen] at h
    rcases hm : values.mapM (parseSourceFilter x) with e | ids
    · rw [hm] at h
      cases h
    · rw [hm] at h
      refine ⟨btreeSet ids, ?_, (Except.ok.inj h).symm⟩
      have h1 := btreeSet_length_le ids
      have h2 := (Sql.mapM_eq_ok_iff.mp hm).length_eq
      omega

/-- **The scope of a search stays inside the rule's scope**: whatever a search
is constrained to, if the rule has filters, is a nonempty list of sources the
filters name. -/
theorem constrainSearchSources_canonical {x : Platform} (hx : x.Lawful) {ids requested out : List Uuid}
    (hlen : ids.length ≤ maxSourceFilters) (hne : ids ≠ [])
    (h : constrainSearchSources x (ids.map canonicalFilter) requested = .ok out) :
    out ≠ [] ∧ ∀ u ∈ out, u ∈ ids := by
  rw [constrainSearchSources, parseSourceFilterIds_canonical hx hlen] at h
  have hscope : btreeSet ids ≠ [] := by
    obtain ⟨u, hu⟩ := List.exists_mem_of_ne_nil ids hne
    exact List.ne_nil_of_mem (mem_btreeSet.mpr hu)
  have hempty : (btreeSet ids).isEmpty = false := by
    rw [List.isEmpty_eq_false_iff]
    exact hscope
  simp only [bind, Except.bind, hempty, Bool.false_eq_true, if_false] at h
  by_cases hreq : (btreeSet requested).isEmpty = true
  · rw [if_pos hreq] at h
    obtain rfl : btreeSet (btreeSet ids) = out := Except.ok.inj h
    refine ⟨?_, fun u hu => by simpa using hu⟩
    obtain ⟨u, hu⟩ := List.exists_mem_of_ne_nil _ hscope
    exact List.ne_nil_of_mem (mem_btreeSet.mpr hu)
  · rw [if_neg hreq] at h
    by_cases hout : ((btreeSet requested).any fun s => !(btreeSet (btreeSet ids)).contains s) = true
    · rw [if_pos hout] at h
      cases h
    · rw [if_neg hout] at h
      obtain rfl : btreeSet requested = out := Except.ok.inj h
      refine ⟨by simpa using hreq, fun u hu => ?_⟩
      rw [Bool.not_eq_true, List.any_eq_false] at hout
      simpa using hout u hu

end SourceScope

end EmbeddedAlerts
