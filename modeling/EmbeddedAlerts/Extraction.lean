import EmbeddedAlerts.Query
import EmbeddedAlerts.Text.Collect

/-!
# What the extraction loops leave

The two loops of `Query` stop early, skip what they have seen and, for entities,
hold a run of words open that they close when it ends and once more after the last
word.  `plainKeywords` and `plainEntities` say what is meant, without any of this:
filter, join the maximal runs, keep the first of equals, cut off the rest.

Each loop is `addCapped` run over the elements the plain definition lists
(`keywordLoop_eq`, `entityLoop_eq`): the invariant is that `seen` holds the keys of
`output` and that an open run consists of candidates.  By `foldl_addCapped` stopping
early loses nothing, so **the loops compute their plain definitions**
(`extractKeywords_eq`, `extractEntities_eq`), for any classes of characters.
-/

namespace EmbeddedAlerts

namespace Query

open Text

variable {c : CharClasses}

/-! ### The plain definitions -/

/-- A keyword: three characters or more, and no stopword. -/
def isKeyword (token : List Char) : Bool := decide (3 ≤ token.length) && !isStopword token

/-- The first keywords of the lower-cased tokens, each once. -/
def plainKeywords (c : CharClasses) (query : List Char) : List (List Char) :=
  ((((tokens c query).map asciiLowercase).filter isKeyword).eraseDups).take maxKeywords

/-- The words without an instruction at their front. -/
def withoutInstruction : List (List Char) → List (List Char)
  | [] => []
  | word :: rest => if isInstructionWord (asciiLowercase word) then rest else word :: rest

/-- The maximal runs of words that look like names, joined by spaces. -/
def entityRuns (c : CharClasses) (query : List Char) : List (List Char) :=
  (runs (isProbableEntityWord c) (withoutInstruction (tokens c query))).map [' '].intercalate

/-- The first entities, each in its first spelling. -/
def plainEntities (c : CharClasses) (query : List Char) : List (List Char) :=
  (firstBy asciiLowercase (entityRuns c query)).take maxEntities

/-! ### Keywords -/

theorem keywordLoop_eq : ∀ (rest seen output : List (List Char)),
    (∀ k, k ∈ seen ↔ k ∈ output) → output.length < maxKeywords →
    keywordLoop seen output rest =
      ((rest.map asciiLowercase).filter isKeyword).foldl (addCapped id maxKeywords) output := by
  intro rest
  induction rest with
  | nil =>
    intro seen output _ _
    rfl
  | cons token rest ih =>
    intro seen output hseen hlen
    rw [keywordLoop, List.map_cons]
    by_cases hkeyword : isKeyword (asciiLowercase token) = true
    · have hskip : (decide ((asciiLowercase token).length < 3) || isStopword (asciiLowercase token))
          = false := by
        rw [isKeyword, Bool.and_eq_true, decide_eq_true_eq, Bool.not_eq_true'] at hkeyword
        rw [hkeyword.2, Bool.or_false, decide_eq_false_iff_not]
        omega
      rw [List.filter_cons, if_pos hkeyword, List.foldl_cons, addCapped,
        if_neg (Nat.not_le.mpr hlen), addNew, List.map_id, id_eq]
      by_cases hmem : asciiLowercase token ∈ output
      · -- a token seen before is passed over
        have hcontains : seen.contains (asciiLowercase token) = true :=
          List.contains_iff_mem.mpr ((hseen _).mpr hmem)
        simp only [hskip, hcontains, Bool.or_true, if_true, if_pos hmem]
        exact ih seen output hseen hlen
      · have hcontains : seen.contains (asciiLowercase token) = false := by
          rw [Bool.eq_false_iff]
          intro h
          exact hmem ((hseen _).mp (List.contains_iff_mem.mp h))
        simp only [hskip, hcontains, Bool.or_false, Bool.false_eq_true, if_false, if_neg hmem]
        have hlen' : (output ++ [asciiLowercase token]).length = output.length + 1 := by simp
        by_cases hfull : (output ++ [asciiLowercase token]).length ≥ maxKeywords
        · rw [if_pos hfull, foldl_addCapped_of_full hfull]
        · rw [if_neg hfull]
          refine ih _ _ (fun k => ?_) (by omega)
          rw [List.mem_cons, List.mem_append, List.mem_singleton, hseen]
          exact Or.comm
    · have hskip : (decide ((asciiLowercase token).length < 3) || isStopword (asciiLowercase token))
          = true := by
        rw [isKeyword, Bool.and_eq_true, decide_eq_true_eq, Bool.not_eq_true', not_and_or,
          Bool.not_eq_false] at hkeyword
        rw [Bool.or_eq_true, decide_eq_true_eq]
        exact hkeyword.imp Nat.not_le.mp fun h => h
      rw [List.filter_cons, if_neg hkeyword]
      simp only [hskip, Bool.true_or, if_true]
      exact ih seen output hseen hlen

theorem extractKeywords_eq (c : CharClasses) (query : List Char) :
    extractKeywords c query = plainKeywords c query := by
  rw [extractKeywords, keywordLoop_eq _ [] [] (fun _ => Iff.rfl) (by decide),
    foldl_addCapped _ [] (Nat.zero_le _), foldl_addNew, firstBy_id]
  rfl

/-! ### Entities -/

/-- `seen` holds the identities of `output`, and the open run consists of
candidates. -/
structure EntityState.Inv (c : CharClasses) (s : EntityState) : Prop where
  seen : ∀ k, k ∈ s.seen ↔ k ∈ s.output.map asciiLowercase
  current : ∀ w ∈ s.current, isProbableEntityWord c w = true

/-- The loop adds an entity at the end of a run. -/
def addEntity (output : List (List Char)) (entity : List Char) : List (List Char) :=
  addCapped asciiLowercase maxEntities output entity

theorem flushEntity_current (s : EntityState) : (flushEntity s).current = [] := by
  unfold flushEntity
  simp only
  split_ifs <;> rfl

theorem flushEntity_output {s : EntityState} (h : s.Inv c) : (flushEntity s).output =
    ((runs (isProbableEntityWord c) s.current).map [' '].intercalate).foldl addEntity s.output := by
  rw [runs_of_forall h.current]
  unfold flushEntity
  by_cases hnil : s.current = []
  · rw [if_pos hnil]
    simp [hnil]
  · have hempty : s.current.isEmpty = false := List.isEmpty_eq_false_iff.mpr hnil
    rw [if_neg hnil, List.map_singleton, List.foldl_cons, List.foldl_nil, addEntity, addCapped,
      addNew, hempty, Bool.false_or]
    by_cases hfull : s.output.length ≥ maxEntities
    · rw [if_pos (decide_eq_true hfull), if_pos hfull]
    · rw [if_neg (by simpa using hfull), if_neg hfull]
      by_cases hmem : asciiLowercase ([' '].intercalate s.current) ∈ s.output.map asciiLowercase
      · have hcontains := List.contains_iff_mem.mpr ((h.seen _).mpr hmem)
        simp only [hcontains, if_true, if_pos hmem]
      · have hcontains : s.seen.contains (asciiLowercase ([' '].intercalate s.current)) = false := by
          rw [Bool.eq_false_iff]
          intro h'
          exact hmem ((h.seen _).mp (List.contains_iff_mem.mp h'))
        simp only [hcontains, Bool.false_eq_true, if_false, if_neg hmem]

theorem EntityState.Inv.flush {s : EntityState} (h : s.Inv c) : (flushEntity s).Inv c := by
  refine ⟨fun k => ?_, fun w hw => ?_⟩
  · unfold flushEntity
    simp only
    split_ifs
    · exact h.seen k
    · exact h.seen k
    · rw [List.mem_cons, List.map_append, List.mem_append, h.seen, List.map_singleton,
        List.mem_singleton]
      exact Or.comm
  · rw [flushEntity_current] at hw
    cases hw

theorem EntityState.Inv.push {s : EntityState} (h : s.Inv c) {word : List Char}
    (hword : isProbableEntityWord c word = true) :
    EntityState.Inv c { s with current := s.current ++ [word] } := by
  refine ⟨h.seen, fun w hw => ?_⟩
  rcases List.mem_append.mp hw with hw | hw
  · exact h.current w hw
  · rw [List.mem_singleton.mp hw]
    exact hword

theorem foldl_addEntity_of_full {output : List (List Char)} (h : output.length ≥ maxEntities)
    (l : List (List Char)) : l.foldl addEntity output = output :=
  foldl_addCapped_of_full h l

/-- A flush after the loop has stopped at the cap adds nothing. -/
theorem flushEntity_output_of_full {s : EntityState} (h : s.output.length ≥ maxEntities) :
    (flushEntity s).output = s.output := by
  rw [flushEntity, if_pos (by simp [h])]

/-- **The loop and the flush after it** add the runs of the words that are left,
together with the run that is open.  Only the first word can be an instruction, and
that it is none is asked for where the loop is at it. -/
theorem entityLoop_eq : ∀ (rest : List (List Char)) (index : ℕ) (s : EntityState), s.Inv c →
    (index = 0 → ∀ w ∈ rest.head?, isInstructionWord (asciiLowercase w) = false) →
    (flushEntity (entityLoop c index rest s)).output =
      ((runs (isProbableEntityWord c) (s.current ++ rest)).map [' '].intercalate).foldl
        addEntity s.output := by
  intro rest
  induction rest with
  | nil =>
    intro index s h _
    rw [entityLoop, List.append_nil]
    exact flushEntity_output h
  | cons word rest ih =>
    intro index s h hfirst
    have hcandidate : (isProbableEntityWord c word &&
        !(index == 0 && isInstructionWord (asciiLowercase word))) = isProbableEntityWord c word := by
      by_cases hindex : index = 0
      · rw [hfirst hindex word rfl, Bool.and_false, Bool.not_false, Bool.and_true]
      · rw [beq_eq_false_iff_ne.mpr hindex, Bool.false_and, Bool.not_false, Bool.and_true]
    have hnext : ∀ s : EntityState, s.Inv c →
        (flushEntity (if s.output.length ≥ maxEntities then s
          else entityLoop c (index + 1) rest s)).output =
        ((runs (isProbableEntityWord c) (s.current ++ rest)).map [' '].intercalate).foldl
          addEntity s.output := by
      intro s hs
      by_cases hfull : s.output.length ≥ maxEntities
      · rw [if_pos hfull, flushEntity_output_of_full hfull, foldl_addEntity_of_full hfull]
      · rw [if_neg hfull]
        exact ih (index + 1) s hs (fun hzero => absurd hzero (Nat.succ_ne_zero index))
    rw [entityLoop]
    simp only [hcandidate]
    by_cases hword : isProbableEntityWord c word = true
    · rw [if_pos hword, hnext _ (h.push hword), List.append_assoc, List.singleton_append]
    · rw [if_neg hword, hnext _ h.flush, runs_append_cons (Bool.eq_false_iff.mpr hword),
        List.map_append, List.foldl_append, ← flushEntity_output h, flushEntity_current,
        List.nil_append]

theorem entityState_inv_nil : EntityState.Inv c ⟨[], [], []⟩ :=
  ⟨fun _ => Iff.rfl, fun _ hw => absurd hw List.not_mem_nil⟩

theorem entityLoop_withoutInstruction (words : List (List Char)) :
    (flushEntity (entityLoop c 0 words ⟨[], [], []⟩)).output =
      ((runs (isProbableEntityWord c) (withoutInstruction words)).map [' '].intercalate).foldl
        addEntity [] := by
  cases words with
  | nil => exact entityLoop_eq [] 0 _ entityState_inv_nil (fun _ w hw => by cases hw)
  | cons word rest =>
    by_cases hinstruction : isInstructionWord (asciiLowercase word) = true
    · -- an instruction closes the empty run and is passed over
      have hskip : entityLoop c 0 (word :: rest) ⟨[], [], []⟩
          = entityLoop c 1 rest ⟨[], [], []⟩ := by
        rw [entityLoop]
        simp only [hinstruction]
        simp [flushEntity, maxEntities]
      rw [hskip, withoutInstruction, if_pos hinstruction]
      exact entityLoop_eq rest 1 _ entityState_inv_nil fun h => absurd h (by decide)
    · rw [withoutInstruction, if_neg hinstruction]
      refine entityLoop_eq (word :: rest) 0 _ entityState_inv_nil fun _ w hw => ?_
      obtain rfl : word = w := by simpa using hw
      exact Bool.eq_false_iff.mpr hinstruction

theorem extractEntities_eq (c : CharClasses) (query : List Char) :
    extractEntities c query = plainEntities c query := by
  have hfold : ∀ l : List (List Char),
      l.foldl addEntity [] = (firstBy asciiLowercase l).take maxEntities := by
    intro l
    rw [← foldl_addNew]
    exact foldl_addCapped l [] (Nat.zero_le _)
  rw [extractEntities, entityLoop_withoutInstruction, hfold, List.take_take, min_self]
  rfl

/-- **The extraction loops compute their plain definitions**, on every query and for
any classes of characters. -/
theorem extraction_plain (c : CharClasses) (query : List Char) :
    extractKeywords c query = plainKeywords c query ∧
      extractEntities c query = plainEntities c query :=
  ⟨extractKeywords_eq c query, extractEntities_eq c query⟩

end Query

end EmbeddedAlerts
