import EmbeddedAlerts.Store
import EmbeddedAlerts.Sample
import EmbeddedAlerts.Sql.Placeholder

/-!
# The text of the search statement

`search_embeddings` writes its statement as text, with one placeholder for each source
of the request, three for a cursor and one for the limit, numbered by the length of
the list of values at the moment (`src/store.rs`).  `Store.lean` gives the meaning of
the statement directly, as `searchRows`.  Here is the text itself.

* `searchStatement` builds the text and the values as the code does.
* `SearchQuery` is a search statement with any numbers in its placeholders.  The text
  of one can be read in one way only (`SearchQuery.text_inj`), and `SearchQuery.rows`
  says what the statement selects under a list of values.
* `searchStatement_eq` finds the statement that the code writes.  Its placeholders
  count through the values, each stands for the value that its place in the text
  asks for, and it selects `searchRows`.
-/

namespace EmbeddedAlerts

namespace Store

open Sql

/-! ### The code -/

/-- The values that the statement binds. -/
inductive Value where
  | text (s : String)
  | int (n : ℤ)
  | bigInt (n : ℤ)
  | double (q : ℚ)
deriving DecidableEq, Repr

/-- How single-precision numbers are written, and how the database reads a text as a
UUID and as a vector. -/
structure Formats where
  /-- The `Display` of an `f32`. -/
  showF32 : F32Bits → String
  /-- `::uuid`. -/
  uuidIn : String → Option Uuid
  /-- `CAST(… AS vector)`. -/
  vectorIn : String → Option (List F32Bits)

/-- `as i32`. -/
def asI32 (n : UInt32) : ℤ := if n.toNat < 2 ^ 31 then n.toNat else n.toNat - 2 ^ 32

variable (fm : Formats)

/-- `vector_literal`. -/
def vectorLiteral (values : List F32Bits) : String :=
  (values.zipIdx.foldl (fun vector item =>
    (if item.2 > 0 then vector.push ',' else vector) ++ fm.showF32 item.1) "[").push ']'

def lines (l : List String) : List Char := l.flatMap fun line => line.toList ++ ['\n']

/-- The columns of `ranked` before the distance. -/
def rankedHead : List String :=
  ["",
   "        WITH ranked AS (",
   "            SELECT",
   "                embedding.id AS embedding_id,",
   "                revision.id AS revision_id,",
   "                page.id AS page_id,",
   "                page.source_id,",
   "                page.canonical_url,",
   "                revision.content_sha256,",
   "                revision.title,",
   "                left(revision.content_text, 600) AS excerpt,"]

/-- The columns of `ranked` after the distance, and its tables. -/
def rankedFrom : List String :=
  ["                embedding.model,",
   "                embedding.model_version,",
   "                embedding.dimensions,",
   "                embedding.normalization,",
   "                revision.fetched_at",
   "            FROM eal_embeddings AS embedding",
   "            JOIN eal_page_revisions AS revision",
   "              ON revision.id = embedding.revision_id",
   "             AND revision.tenant_id = embedding.tenant_id",
   "            JOIN eal_pages AS page",
   "              ON page.id = revision.page_id",
   "             AND page.tenant_id = revision.tenant_id"]

/-- The start of `filtered`. -/
def filteredHead : List String :=
  ["        ),",
   "        filtered AS (",
   "            SELECT *, 1.0 - distance AS similarity",
   "            FROM ranked"]

/-- What the statement returns of each row of `filtered`. -/
def selectHead : List String :=
  ["        )",
   "        SELECT json_build_object(",
   "            'embedding_id', embedding_id,",
   "            'revision_id', revision_id,",
   "            'page_id', page_id,",
   "            'source_id', source_id,",
   "            'canonical_url', canonical_url,",
   "            'content_sha256', content_sha256,",
   "            'title', title,",
   "            'excerpt', excerpt,",
   "            'similarity', similarity,",
   "            'distance', distance,",
   "            'model', model,",
   "            'model_version', model_version,",
   "            'dimensions', dimensions,",
   "            'normalization', normalization,",
   "            'fetched_at', fetched_at",
   "        )::text AS data",
   "        FROM filtered",
   "        WHERE true"]

/-- The `format!` of the statement. -/
def searchSql (sourceClause cursorClause : List Char) (limitPlaceholder : ℕ) : List Char :=
  lines (rankedHead
    ++ ["                embedding.embedding <=> CAST($6 AS vector) AS distance,"]
    ++ rankedFrom
    ++ ["            WHERE embedding.tenant_id = $1::uuid",
        "              AND embedding.model = $2",
        "              AND embedding.model_version = $3",
        "              AND embedding.dimensions = $4",
        "              AND embedding.normalization = $5"])
  ++ ("              ".toList ++ sourceClause ++ ['\n'])
  ++ lines (filteredHead
    ++ ["            WHERE 1.0 - distance >= $7"]
    ++ selectHead)
  ++ ("          ".toList ++ cursorClause ++ ['\n'])
  ++ lines ["        ORDER BY distance ASC, embedding_id ASC"]
  ++ ("        LIMIT ".toList ++ placeholder limitPlaceholder ++ ['\n'])
  ++ "        ".toList

/-- The values that every search binds. -/
def fixedValues (tenantId : Uuid) (request : EmbeddingSearchRequest) : List Value :=
  [.text tenantId.display,
   .text request.embedding.model,
   .text request.embedding.modelVersion,
   .int (asI32 request.embedding.dimensions),
   .text (normalizationName request.embedding.normalization),
   .text (vectorLiteral fm request.embedding.values),
   .double request.minSimilarity.val]

/-- One source of the loop. -/
def pushSource (state : List Value × List (List Char)) (sourceId : Uuid) :
    List Value × List (List Char) :=
  let values := state.1 ++ [.text sourceId.display]
  (values, state.2 ++ [placeholder values.length ++ "::uuid".toList])

/-- `source_clause`, with the values after it. -/
def sourceClause (values : List Value) (sourceIds : List Uuid) : List Value × List Char :=
  if sourceIds.isEmpty then (values, [])
  else
    let pushed := sourceIds.foldl pushSource (values, [])
    (pushed.1, "AND page.source_id IN (".toList ++ ", ".toList.intercalate pushed.2 ++ [')'])

/-- `cursor_clause`, with the values after it. -/
def cursorClause (values : List Value) : Option SearchCursor → List Value × List Char
  | none => (values, [])
  | some cursor =>
    let values := values ++ [.double cursor.distance]
    let distancePlaceholder := values.length
    let values := values ++ [.text cursor.embeddingId.display]
    let idPlaceholder := values.length
    (values, "AND (distance > ".toList ++ placeholder distancePlaceholder
      ++ " OR (distance = ".toList ++ placeholder distancePlaceholder
      ++ " AND embedding_id > ".toList ++ placeholder idPlaceholder ++ "::uuid))".toList)

/-- The text of the statement in `search_embeddings`, and the values it binds. -/
def searchStatement (tenantId : Uuid) (request : EmbeddingSearchRequest) :
    List Char × List Value :=
  let sources := sourceClause (fixedValues fm tenantId request) request.sourceIds
  let cursor := cursorClause sources.1 request.cursor
  let values := cursor.1 ++ [.bigInt (request.limit + 1)]
  (searchSql sources.2 cursor.2 values.length, values)

/-! ### Search statements -/

/-- A search statement, by the numbers of its placeholders. -/
structure SearchQuery where
  vector : ℕ
  tenant : ℕ
  model : ℕ
  modelVersion : ℕ
  dimensions : ℕ
  normalization : ℕ
  sources : List ℕ
  similarity : ℕ
  cursor : Option (ℕ × ℕ × ℕ)
  limit : ℕ
deriving DecidableEq, Repr

/-- From the sources to the bound on the similarity. -/
def toSimilarity : List Char :=
  '\n' :: (lines filteredHead ++ "            WHERE 1.0 - distance >= ".toList)

/-- From the bound on the similarity to the cursor. -/
def toCursor : List Char := '\n' :: (lines selectHead ++ "          ".toList)

/-- From the cursor to the limit. -/
def toLimit : List Char :=
  '\n' :: (lines ["        ORDER BY distance ASC, embedding_id ASC"] ++ "        LIMIT ".toList)

/-- The first source and the ones after it. -/
def sourceTail : ℕ → List ℕ → List (ℕ × List Char)
  | p, [] => [(p, "::uuid)".toList ++ toSimilarity)]
  | p, p' :: ps => (p, "::uuid, ".toList) :: sourceTail p' ps

/-- From the normalization to the bound on the similarity. -/
def normalizationTail (normalization : ℕ) : List ℕ → List (ℕ × List Char)
  | [] => [(normalization, "\n              ".toList ++ toSimilarity)]
  | p :: ps => (normalization, "\n              AND page.source_id IN (".toList) :: sourceTail p ps

/-- From the bound on the similarity to the end. -/
def similarityTail (similarity limit : ℕ) : Option (ℕ × ℕ × ℕ) → List (ℕ × List Char)
  | none => [(similarity, toCursor ++ toLimit), (limit, "\n        ".toList)]
  | some (greater, equal, id) =>
    [(similarity, toCursor ++ "AND (distance > ".toList),
     (greater, " OR (distance = ".toList),
     (equal, " AND embedding_id > ".toList),
     (id, "::uuid))".toList ++ toLimit),
     (limit, "\n        ".toList)]

def SearchQuery.template (q : SearchQuery) : Template where
  head := lines rankedHead ++ "                embedding.embedding <=> CAST(".toList
  tail :=
    (q.vector, " AS vector) AS distance,\n".toList ++ lines rankedFrom
      ++ "            WHERE embedding.tenant_id = ".toList) ::
    (q.tenant, "::uuid\n              AND embedding.model = ".toList) ::
    (q.model, "\n              AND embedding.model_version = ".toList) ::
    (q.modelVersion, "\n              AND embedding.dimensions = ".toList) ::
    (q.dimensions, "\n              AND embedding.normalization = ".toList) ::
    (normalizationTail q.normalization q.sources
      ++ similarityTail q.similarity q.limit q.cursor)

/-- The text of the statement. -/
def SearchQuery.text (q : SearchQuery) : List Char := q.template.render

/-! ### A text is read in one way -/

theorem lines_append (l m : List String) : lines (l ++ m) = lines l ++ lines m :=
  List.flatMap_append

/-- One line of text, as its characters. -/
theorem lines_cons (line : List Char) (rest : List String) :
    lines (String.ofList line :: rest) = line ++ '\n' :: lines rest := by
  rw [lines, List.flatMap_cons, String.toList_ofList, List.append_assoc]
  rfl

theorem quiet_lines_cons {line : List Char} {rest : List String}
    (hline : quiet .plain (line ++ ['\n']) = true) (hrest : quiet .plain (lines rest) = true) :
    quiet .plain (lines (String.ofList line :: rest)) = true := by
  rw [lines_cons, ← List.singleton_append, ← List.append_assoc]
  exact quiet_append _ _ hline hrest

/-- A line feed, some lines and the start of the next one. -/
theorem neutral_lines {l : List String} {text : List Char} (hl : quiet .plain (lines l) = true)
    (htext : quiet .plain text = true) : Neutral ('\n' :: (lines l ++ text)) :=
  ⟨quiet_append ['\n'] _ (by decide) (quiet_append _ _ hl htext), rfl⟩

-- The texts are read line by line.
theorem neutral_rankedHead : Neutral (lines rankedHead) := by
  refine ⟨?_, rfl⟩
  rw [rankedHead]
  repeat refine quiet_lines_cons (by decide) ?_
  rfl

theorem quiet_rankedFrom : quiet .plain (lines rankedFrom) = true := by
  rw [rankedFrom]
  repeat refine quiet_lines_cons (by decide) ?_
  rfl

theorem neutral_toSimilarity : Neutral toSimilarity := by
  refine neutral_lines ?_ (quiet_ofList (by decide))
  rw [filteredHead]
  repeat refine quiet_lines_cons (by decide) ?_
  rfl

theorem neutral_toCursor : Neutral toCursor := by
  refine neutral_lines ?_ (quiet_ofList (by decide))
  rw [selectHead]
  repeat refine quiet_lines_cons (by decide) ?_
  rfl

theorem neutral_toLimit : Neutral toLimit :=
  neutral_lines (quiet_lines_cons (by decide) rfl) (quiet_ofList (by decide))

theorem neutral_sourceTail (ps : List ℕ) :
    ∀ p, ∀ piece ∈ sourceTail p ps, Neutral piece.2 := by
  have hnext : Neutral "::uuid, ".toList := .ofList (by decide)
  have hlast : Neutral "::uuid)".toList := .ofList (by decide)
  induction ps with
  | nil =>
    intro p piece hpiece
    obtain rfl := List.mem_singleton.mp hpiece
    exact hlast.append neutral_toSimilarity.1
  | cons p' ps ih =>
    intro p piece hpiece
    obtain rfl | hrest := List.mem_cons.mp hpiece
    · exact hnext
    · exact ih p' piece hrest

theorem neutral_normalizationTail (normalization : ℕ) (ps : List ℕ) :
    ∀ piece ∈ normalizationTail normalization ps, Neutral piece.2 := by
  intro piece hpiece
  cases ps with
  | nil =>
    obtain rfl := List.mem_singleton.mp hpiece
    have hnone : Neutral "\n              ".toList := .ofList (by decide)
    exact hnone.append neutral_toSimilarity.1
  | cons p ps =>
    obtain rfl | hrest := List.mem_cons.mp hpiece
    · have hopen : Neutral "\n              AND page.source_id IN (".toList := .ofList (by decide)
      exact hopen
    · exact neutral_sourceTail ps p piece hrest

theorem neutral_similarityTail (similarity limit : ℕ) (cursor : Option (ℕ × ℕ × ℕ)) :
    ∀ piece ∈ similarityTail similarity limit cursor, Neutral piece.2 := by
  have hend : Neutral "\n        ".toList := .ofList (by decide)
  cases cursor with
  | none =>
    simp only [similarityTail, List.forall_mem_cons]
    exact ⟨neutral_toCursor.append neutral_toLimit.1, hend, fun _ h => nomatch h⟩
  | some numbers =>
    obtain ⟨greater, equal, id⟩ := numbers
    have hgreater : Neutral "AND (distance > ".toList := .ofList (by decide)
    have hid : Neutral "::uuid))".toList := .ofList (by decide)
    simp only [similarityTail, List.forall_mem_cons]
    exact ⟨neutral_toCursor.append hgreater.1, .ofList (by decide),
      .ofList (by decide),
      hid.append neutral_toLimit.1, hend, fun _ h => nomatch h⟩

theorem SearchQuery.neutral_template (q : SearchQuery) : q.template.Neutral := by
  have hcast : quiet .plain "                embedding.embedding <=> CAST(".toList = true :=
    quiet_ofList (by decide)
  have hvector : Neutral " AS vector) AS distance,\n".toList := .ofList (by decide)
  have hwhere : quiet .plain "            WHERE embedding.tenant_id = ".toList = true :=
    quiet_ofList (by decide)
  refine ⟨neutral_rankedHead.append hcast, ?_⟩
  simp only [SearchQuery.template, List.forall_mem_cons]
  refine ⟨(hvector.append quiet_rankedFrom).append hwhere, .ofList (by decide),
    .ofList (by decide), .ofList (by decide), .ofList (by decide),
    fun piece hpiece => ?_⟩
  obtain h | h := List.mem_append.mp hpiece
  · exact neutral_normalizationTail _ _ piece h
  · exact neutral_similarityTail _ _ _ piece h

theorem sourceTail_inj {rest rest' : List (ℕ × List Char)} (ps : List ℕ) :
    ∀ {p p' : ℕ} {ps' : List ℕ}, sourceTail p ps ++ rest = sourceTail p' ps' ++ rest' →
      p = p' ∧ ps = ps' ∧ rest = rest' := by
  have hdiffer : "::uuid, ".toList ≠ "::uuid)".toList ++ toSimilarity := by
    rw [String.toList_ofList, String.toList_ofList]
    decide
  induction ps with
  | nil =>
    intro p p' ps' h
    cases ps' with
    | nil =>
      simp only [sourceTail, List.cons_append, List.nil_append, List.cons.injEq,
        Prod.mk.injEq] at h
      exact ⟨h.1.1, rfl, h.2⟩
    | cons p'' ps' =>
      simp only [sourceTail, List.cons_append, List.cons.injEq, Prod.mk.injEq] at h
      exact absurd h.1.2.symm hdiffer
  | cons next ps ih =>
    intro p p' ps' h
    cases ps' with
    | nil =>
      simp only [sourceTail, List.cons_append, List.cons.injEq, Prod.mk.injEq] at h
      exact absurd h.1.2 hdiffer
    | cons next' ps' =>
      simp only [sourceTail, List.cons_append, List.cons.injEq, Prod.mk.injEq] at h
      obtain ⟨rfl, rfl, hrest⟩ := ih h.2
      exact ⟨h.1.1, rfl, hrest⟩

theorem normalizationTail_inj {rest rest' : List (ℕ × List Char)} {n n' : ℕ} {ps ps' : List ℕ}
    (h : normalizationTail n ps ++ rest = normalizationTail n' ps' ++ rest') :
    n = n' ∧ ps = ps' ∧ rest = rest' := by
  have hdiffer : "\n              ".toList ++ toSimilarity ≠
      "\n              AND page.source_id IN (".toList := by
    rw [String.toList_ofList, String.toList_ofList]
    decide
  cases ps with
  | nil =>
    cases ps' with
    | nil =>
      simp only [normalizationTail, List.cons_append, List.nil_append, List.cons.injEq,
        Prod.mk.injEq] at h
      exact ⟨h.1.1, rfl, h.2⟩
    | cons p' ps' =>
      simp only [normalizationTail, List.cons_append, List.cons.injEq, Prod.mk.injEq] at h
      exact absurd h.1.2 hdiffer
  | cons p ps =>
    cases ps' with
    | nil =>
      simp only [normalizationTail, List.cons_append, List.cons.injEq, Prod.mk.injEq] at h
      exact absurd h.1.2.symm hdiffer
    | cons p' ps' =>
      simp only [normalizationTail, List.cons_append, List.cons.injEq, Prod.mk.injEq] at h
      obtain ⟨rfl, rfl, hrest⟩ := sourceTail_inj ps h.2
      exact ⟨h.1.1, rfl, hrest⟩

theorem similarityTail_inj {s s' l l' : ℕ} {cursor cursor' : Option (ℕ × ℕ × ℕ)}
    (h : similarityTail s l cursor = similarityTail s' l' cursor') :
    s = s' ∧ l = l' ∧ cursor = cursor' := by
  cases cursor with
  | none =>
    cases cursor' with
    | none =>
      simp only [similarityTail, List.cons.injEq, Prod.mk.injEq, and_true] at h
      exact ⟨h.1, h.2, rfl⟩
    | some numbers' =>
      have := congrArg List.length h
      simp only [similarityTail, List.length_cons, List.length_nil] at this
      omega
  | some numbers =>
    cases cursor' with
    | none =>
      have := congrArg List.length h
      simp only [similarityTail, List.length_cons, List.length_nil] at this
      omega
    | some numbers' =>
      simp only [similarityTail, List.cons.injEq, Prod.mk.injEq, and_true] at h
      obtain ⟨hs, hgreater, hequal, hid, hl⟩ := h
      exact ⟨hs, hl, congrArg some (Prod.ext hgreater (Prod.ext hequal hid))⟩

/-- **The text of a search statement can be read in one way only.** -/
theorem SearchQuery.text_inj {q q' : SearchQuery} (h : q.text = q'.text) : q = q' := by
  have htemplate := Template.render_inj q.neutral_template q'.neutral_template h
  obtain ⟨-, htail⟩ := Template.mk.inj htemplate
  simp only [List.cons.injEq, Prod.mk.injEq, and_true] at htail
  obtain ⟨hvector, htenant, hmodel, hversion, hdimensions, htail⟩ := htail
  obtain ⟨hnormalization, hsources, htail⟩ := normalizationTail_inj htail
  obtain ⟨hsimilarity, hlimit, hcursor⟩ := similarityTail_inj htail
  cases q
  cases q'
  simp only [SearchQuery.mk.injEq]
  exact ⟨hvector, htenant, hmodel, hversion, hdimensions, hnormalization, hsources, hsimilarity,
    hcursor, hlimit⟩

/-- The placeholders of a search statement, in the order in which they stand. -/
theorem SearchQuery.placeholders_text (q : SearchQuery) : placeholders q.text =
    q.vector :: q.tenant :: q.model :: q.modelVersion :: q.dimensions :: q.normalization ::
      (q.sources ++ q.similarity :: (q.cursor.toList.flatMap fun n => [n.1, n.2.1, n.2.2])
        ++ [q.limit]) := by
  have hsource : ∀ (ps : List ℕ) (p : ℕ), (sourceTail p ps).map Prod.fst = p :: ps := by
    intro ps
    induction ps with
    | nil => intro p; rfl
    | cons p' ps ih => intro p; rw [sourceTail, List.map_cons, ih]
  have hnormalization : (normalizationTail q.normalization q.sources).map Prod.fst =
      q.normalization :: q.sources := by
    cases q.sources with
    | nil => rfl
    | cons p ps => rw [normalizationTail, List.map_cons, hsource]
  have hsimilarity : (similarityTail q.similarity q.limit q.cursor).map Prod.fst =
      q.similarity :: (q.cursor.toList.flatMap fun n => [n.1, n.2.1, n.2.2]) ++ [q.limit] := by
    cases q.cursor <;> rfl
  rw [SearchQuery.text, placeholders_render q.neutral_template, SearchQuery.template]
  simp only [List.map_cons, List.map_append, hnormalization, hsimilarity, List.cons_append,
    List.append_assoc]

/-! ### The statement that the code writes -/

/-- The clause for the sources with these numbers. -/
def sourceText (ps : List ℕ) : List Char :=
  if ps.isEmpty then []
  else "AND page.source_id IN (".toList
    ++ ", ".toList.intercalate (ps.map fun n => placeholder n ++ "::uuid".toList) ++ [')']

/-- The clause for a cursor with these numbers. -/
def cursorText : Option (ℕ × ℕ × ℕ) → List Char
  | none => []
  | some (greater, equal, id) =>
    "AND (distance > ".toList ++ placeholder greater ++ " OR (distance = ".toList
      ++ placeholder equal ++ " AND embedding_id > ".toList ++ placeholder id
      ++ "::uuid))".toList

theorem render_sourceTail (ps : List ℕ) : ∀ p,
    ((sourceTail p ps).flatMap fun piece => placeholder piece.1 ++ piece.2) =
      ", ".toList.intercalate ((p :: ps).map fun n => placeholder n ++ "::uuid".toList)
        ++ ([')'] ++ toSimilarity) := by
  have hlast : "::uuid)".toList = "::uuid".toList ++ [')'] := by decide
  have hnext : "::uuid, ".toList = "::uuid".toList ++ ", ".toList := by decide
  induction ps with
  | nil =>
    intro p
    rw [sourceTail, hlast, List.map_singleton, List.intercalate_singleton, List.flatMap_singleton,
      List.append_assoc, List.append_assoc]
  | cons p' ps ih =>
    intro p
    rw [sourceTail, hnext, List.flatMap_cons, ih p']
    simp only [-String.reduceToList, List.map_cons, List.intercalate_cons_cons,
      List.append_assoc]

theorem render_normalizationTail (n : ℕ) (ps : List ℕ) :
    ((normalizationTail n ps).flatMap fun piece => placeholder piece.1 ++ piece.2) =
      placeholder n ++ ("\n              ".toList ++ (sourceText ps ++ toSimilarity)) := by
  cases ps with
  | nil =>
    rw [normalizationTail, List.flatMap_singleton]
    rfl
  | cons p ps =>
    have hopen : "\n              AND page.source_id IN (".toList =
        "\n              ".toList ++ "AND page.source_id IN (".toList := by
      repeat rw [String.toList_ofList]
      rfl
    rw [normalizationTail, hopen, List.flatMap_cons, render_sourceTail, sourceText,
      if_neg (by simp)]
    simp only [List.append_assoc]

theorem render_similarityTail (s l : ℕ) (cursor : Option (ℕ × ℕ × ℕ)) :
    ((similarityTail s l cursor).flatMap fun piece => placeholder piece.1 ++ piece.2) =
      placeholder s ++ (toCursor ++ (cursorText cursor ++ (toLimit
        ++ (placeholder l ++ "\n        ".toList)))) := by
  unfold similarityTail cursorText
  generalize toCursor = c, toLimit = t
  cases cursor with
  | none =>
    simp only [List.flatMap_cons, List.flatMap_nil, List.append_assoc, List.nil_append,
      List.append_nil]
  | some numbers =>
    simp only [List.flatMap_cons, List.flatMap_nil, List.append_assoc, List.append_nil]

/-- The `format!` of the code, with the clauses for some numbers. -/
theorem searchSql_eq (sources : List ℕ) (cursor : Option (ℕ × ℕ × ℕ)) (limit : ℕ) :
    searchSql (sourceText sources) (cursorText cursor) limit =
      SearchQuery.text ⟨6, 1, 2, 3, 4, 5, sources, 7, cursor, limit⟩ := by
  have hassoc : ∀ a b s n f g c o l p e : List Char,
      a ++ (b ++ s ++ n) ++ f ++ (g ++ c ++ n) ++ o ++ (l ++ p ++ n) ++ e =
        (a ++ b) ++ (s ++ ((n ++ (f ++ g)) ++ (c ++ ((n ++ (o ++ l)) ++ (p ++ (n ++ e)))))) := by
    intro a b s n f g c o l p e
    simp only [List.append_assoc]
  have hdistance : lines
      ["                embedding.embedding <=> CAST($6 AS vector) AS distance,"] =
      "                embedding.embedding <=> CAST(".toList ++ (placeholder 6
        ++ " AS vector) AS distance,\n".toList) := by
    rw [lines_cons]
    repeat rw [String.toList_ofList]
    rfl
  have hspace : lines
      ["            WHERE embedding.tenant_id = $1::uuid",
       "              AND embedding.model = $2",
       "              AND embedding.model_version = $3",
       "              AND embedding.dimensions = $4",
       "              AND embedding.normalization = $5"] ++ "              ".toList =
      "            WHERE embedding.tenant_id = ".toList
        ++ (placeholder 1 ++ ("::uuid\n              AND embedding.model = ".toList
        ++ (placeholder 2 ++ ("\n              AND embedding.model_version = ".toList
        ++ (placeholder 3 ++ ("\n              AND embedding.dimensions = ".toList
        ++ (placeholder 4 ++ ("\n              AND embedding.normalization = ".toList
        ++ (placeholder 5 ++ "\n              ".toList))))))))) := by
    repeat rw [lines_cons]
    repeat rw [String.toList_ofList]
    decide +kernel
  have hsimilarity : lines ["            WHERE 1.0 - distance >= $7"] =
      "            WHERE 1.0 - distance >= ".toList ++ (placeholder 7 ++ ['\n']) := by
    rw [lines_cons, String.toList_ofList]
    rfl
  have hranked : lines (rankedHead
        ++ ["                embedding.embedding <=> CAST($6 AS vector) AS distance,"]
        ++ rankedFrom
        ++ ["            WHERE embedding.tenant_id = $1::uuid",
            "              AND embedding.model = $2",
            "              AND embedding.model_version = $3",
            "              AND embedding.dimensions = $4",
            "              AND embedding.normalization = $5"]) ++ "              ".toList =
      (lines rankedHead ++ "                embedding.embedding <=> CAST(".toList)
        ++ (placeholder 6 ++ ((" AS vector) AS distance,\n".toList ++ lines rankedFrom
          ++ "            WHERE embedding.tenant_id = ".toList)
        ++ (placeholder 1 ++ ("::uuid\n              AND embedding.model = ".toList
        ++ (placeholder 2 ++ ("\n              AND embedding.model_version = ".toList
        ++ (placeholder 3 ++ ("\n              AND embedding.dimensions = ".toList
        ++ (placeholder 4 ++ ("\n              AND embedding.normalization = ".toList
        ++ (placeholder 5 ++ "\n              ".toList))))))))))) := by
    rw [lines_append, lines_append, lines_append, hdistance, List.append_assoc, hspace]
    simp only [-String.reduceToList, List.append_assoc]
  have hfiltered : ['\n'] ++ (lines (filteredHead
        ++ ["            WHERE 1.0 - distance >= $7"] ++ selectHead) ++ "          ".toList) =
      toSimilarity ++ (placeholder 7 ++ toCursor) := by
    rw [lines_append, lines_append, hsimilarity, toSimilarity, toCursor]
    simp only [-String.reduceToList, List.append_assoc, List.cons_append, List.nil_append]
  have hend : ['\n'] ++ "        ".toList = "\n        ".toList := by
    rw [String.toList_ofList, String.toList_ofList]
    rfl
  rw [searchSql, hassoc, hranked, hfiltered, hend, SearchQuery.text, Template.render,
    SearchQuery.template]
  simp only [-String.reduceToList, List.flatMap_cons, List.flatMap_append,
    render_normalizationTail, render_similarityTail, List.append_assoc]
  rfl

variable {fm} {tenantId : Uuid} {request : EmbeddingSearchRequest}

/-- The loop over the sources: the numbers count on from the length of the values. -/
theorem foldl_pushSource (ids : List Uuid) : ∀ (values : List Value) (texts : List (List Char)),
    ids.foldl pushSource (values, texts) =
      (values ++ ids.map fun id => .text id.display,
        texts ++ (List.range' (values.length + 1) ids.length).map fun n =>
          placeholder n ++ "::uuid".toList) := by
  induction ids with
  | nil =>
    intro values texts
    simp
  | cons id ids ih =>
    intro values texts
    rw [List.foldl_cons, pushSource, ih]
    simp only [List.length_append, List.length_cons, List.length_nil, Nat.zero_add, List.map_cons,
      List.range'_succ, List.append_assoc, List.singleton_append]

theorem sourceClause_eq (values : List Value) (ids : List Uuid) :
    sourceClause values ids = (values ++ ids.map fun id => .text id.display,
      sourceText (List.range' (values.length + 1) ids.length)) := by
  cases ids with
  | nil => simp [sourceClause, sourceText]
  | cons id ids =>
    rw [sourceClause, if_neg (by simp), foldl_pushSource, sourceText, if_neg (by simp),
      List.nil_append]

/-- The values of a cursor. -/
def cursorValues : Option SearchCursor → List Value
  | none => []
  | some cursor => [.double cursor.distance, .text cursor.embeddingId.display]

theorem cursorClause_eq (values : List Value) (cursor : Option SearchCursor) :
    cursorClause values cursor = (values ++ cursorValues cursor,
      cursorText (cursor.map fun _ => (values.length + 1, values.length + 1, values.length + 2))) := by
  cases cursor with
  | none =>
    rw [cursorClause, cursorValues, List.append_nil]
    rfl
  | some cursor =>
    have hdistance : (values ++ [Value.double cursor.distance]).length = values.length + 1 :=
      List.length_append
    have hid : (values ++ [Value.double cursor.distance]
        ++ [Value.text cursor.embeddingId.display]).length = values.length + 2 := by
      rw [List.length_append, hdistance]
      rfl
    unfold cursorClause cursorText cursorValues
    dsimp only [Option.map_some]
    rw [hid, hdistance, List.append_assoc, List.singleton_append]

/-- The statement that the code writes. -/
def searchQuery (request : EmbeddingSearchRequest) : SearchQuery where
  vector := 6
  tenant := 1
  model := 2
  modelVersion := 3
  dimensions := 4
  normalization := 5
  sources := List.range' 8 request.sourceIds.length
  similarity := 7
  cursor := request.cursor.map fun _ =>
    (request.sourceIds.length + 8, request.sourceIds.length + 8, request.sourceIds.length + 9)
  limit := request.sourceIds.length + (cursorValues request.cursor).length + 8

/-- The values that it binds. -/
def boundValues (fm : Formats) (tenantId : Uuid) (request : EmbeddingSearchRequest) : List Value :=
  fixedValues fm tenantId request ++ (request.sourceIds.map fun id => .text id.display)
    ++ cursorValues request.cursor ++ [.bigInt (request.limit + 1)]

theorem length_boundValues : (boundValues fm tenantId request).length =
    request.sourceIds.length + (cursorValues request.cursor).length + 8 := by
  simp only [boundValues, fixedValues, List.length_append, List.length_cons, List.length_nil,
    List.length_map]
  omega

/-- **What the code writes and binds.** -/
theorem searchStatement_eq : searchStatement fm tenantId request =
    ((searchQuery request).text, boundValues fm tenantId request) := by
  have hfixed : (fixedValues fm tenantId request).length = 7 := rfl
  have hsources : (fixedValues fm tenantId request
      ++ request.sourceIds.map fun id => Value.text id.display).length =
        request.sourceIds.length + 7 := by
    rw [List.length_append, hfixed, List.length_map, Nat.add_comm]
  have hlength : (boundValues fm tenantId request).length = _ := length_boundValues
  rw [boundValues] at hlength
  rw [searchStatement, sourceClause_eq, cursorClause_eq, hfixed, hsources]
  dsimp only
  rw [searchSql_eq, hlength]
  rfl

/-- The placeholders of the statement are exactly the numbers of the values. -/
theorem mem_placeholders_searchQuery {k : ℕ} : k ∈ placeholders (searchQuery request).text ↔
    1 ≤ k ∧ k ≤ (boundValues fm tenantId request).length := by
  rw [SearchQuery.placeholders_text, length_boundValues, searchQuery]
  cases request.cursor with
  | none =>
    simp only [cursorValues, Option.map_none, Option.toList_none, List.flatMap_nil, List.mem_cons,
      List.mem_append, List.mem_range'_1, List.length_nil, List.not_mem_nil, or_false]
    omega
  | some cursor =>
    simp only [cursorValues, Option.map_some, Option.toList_some, List.flatMap_cons,
      List.flatMap_nil, List.append_nil, List.mem_cons, List.mem_append, List.mem_range'_1,
      List.length_cons, List.length_nil, List.not_mem_nil, or_false]
    omega

/-! ### What the placeholders stand for -/

/-- Every placeholder stands for the value that its place in the text asks for. -/
structure SearchQuery.Binds (fm : Formats) (tenantId : Uuid) (request : EmbeddingSearchRequest)
    (values : List Value) (q : SearchQuery) : Prop where
  tenant : bound values q.tenant = some (.text tenantId.display)
  model : bound values q.model = some (.text request.embedding.model)
  modelVersion : bound values q.modelVersion = some (.text request.embedding.modelVersion)
  dimensions : bound values q.dimensions = some (.int (asI32 request.embedding.dimensions))
  normalization : bound values q.normalization =
    some (.text (normalizationName request.embedding.normalization))
  vector : bound values q.vector = some (.text (vectorLiteral fm request.embedding.values))
  similarity : bound values q.similarity = some (.double request.minSimilarity.val)
  /-- The `k`-th placeholder of the clause stands for the `k`-th source. -/
  sources : q.sources.map (bound values) = request.sourceIds.map fun id => some (.text id.display)
  cursor : (q.cursor.map fun n => (bound values n.1, bound values n.2.1, bound values n.2.2)) =
    request.cursor.map fun c => (some (.double c.distance), some (.double c.distance),
      some (.text c.embeddingId.display))
  limit : bound values q.limit = some (.bigInt (request.limit + 1))

theorem bound_sources : (List.range' 8 request.sourceIds.length).map
    (bound (boundValues fm tenantId request)) =
      request.sourceIds.map fun id => some (.text id.display) := by
  have hpushed := map_bound_range' (fixedValues fm tenantId request)
    (request.sourceIds.map fun id => Value.text id.display)
    (cursorValues request.cursor ++ [.bigInt (request.limit + 1)])
  rw [List.length_map, List.map_map, ← List.append_assoc] at hpushed
  exact hpushed

/-- The sources come after the seven fixed values. -/
theorem length_sourceValues : (fixedValues fm tenantId request
    ++ request.sourceIds.map fun id => Value.text id.display).length =
      request.sourceIds.length + 7 := by
  rw [List.length_append, List.length_map, Nat.add_comm]
  rfl

theorem bound_cursor (fm : Formats) (tenantId : Uuid) {cursor : SearchCursor}
    (h : request.cursor = some cursor) :
    bound (boundValues fm tenantId request) (request.sourceIds.length + 8) =
      some (.double cursor.distance) ∧
    bound (boundValues fm tenantId request) (request.sourceIds.length + 9) =
      some (.text cursor.embeddingId.display) := by
  have hpushed := map_bound_range' (fixedValues fm tenantId request
      ++ request.sourceIds.map fun id => Value.text id.display)
    (cursorValues request.cursor) [.bigInt (request.limit + 1)]
  rw [length_sourceValues, ← boundValues, h] at hpushed
  simp only [cursorValues, List.length_cons, List.length_nil, List.range'_succ, List.range'_zero,
    List.map_cons, List.map_nil, List.cons.injEq, and_true] at hpushed
  exact hpushed

theorem bound_limit : bound (boundValues fm tenantId request) (searchQuery request).limit =
    some (.bigInt (request.limit + 1)) := by
  have hpushed := map_bound_range' (fixedValues fm tenantId request
      ++ (request.sourceIds.map fun id => Value.text id.display) ++ cursorValues request.cursor)
    [.bigInt (request.limit + 1)] []
  rw [List.append_nil, ← boundValues, List.length_append, length_sourceValues] at hpushed
  simp only [List.length_cons, List.length_nil, List.range'_succ, List.range'_zero, List.map_cons,
    List.map_nil, List.cons.injEq, and_true] at hpushed
  rw [← hpushed, searchQuery]
  congr 1
  dsimp only
  omega

/-- **The code binds every placeholder to the value meant for it.** -/
theorem searchQuery_binds :
    (searchQuery request).Binds fm tenantId request (boundValues fm tenantId request) where
  tenant := rfl
  model := rfl
  modelVersion := rfl
  dimensions := rfl
  normalization := rfl
  vector := rfl
  similarity := rfl
  sources := bound_sources
  cursor := by
    rw [searchQuery]
    cases hcursor : request.cursor with
    | none => rfl
    | some cursor =>
      obtain ⟨hdistance, hid⟩ := bound_cursor fm tenantId hcursor
      simp only [Option.map_some, hdistance, hid]
  limit := bound_limit

/-! ### What the statement selects -/

def textAt (values : List Value) (n : ℕ) : Option String :=
  match bound values n with
  | some (.text s) => some s
  | _ => none

def uuidAt (fm : Formats) (values : List Value) (n : ℕ) : Option Uuid :=
  (textAt values n).bind fm.uuidIn

def intAt (values : List Value) (n : ℕ) : Option ℤ :=
  match bound values n with
  | some (.int n) => some n
  | _ => none

def bigIntAt (values : List Value) (n : ℕ) : Option ℤ :=
  match bound values n with
  | some (.bigInt n) => some n
  | _ => none

def doubleAt (values : List Value) (n : ℕ) : Option ℚ :=
  match bound values n with
  | some (.double q) => some q
  | _ => none

/-- The distances and the UUID of the cursor clause. -/
def cursorAt (fm : Formats) (values : List Value) :
    Option (ℕ × ℕ × ℕ) → Option (Option (ℚ × ℚ × Uuid))
  | none => some none
  | some (greater, equal, id) => do
    let greater ← doubleAt values greater
    let equal ← doubleAt values equal
    let id ← uuidAt fm values id
    return some (greater, equal, id)

/-- `eal_embeddings` with its revisions and their pages. -/
def joined (db : Db) : List (EmbeddingRow × PageRevisionRow × PageRow) :=
  db.embeddings.flatMap fun e =>
    (db.pageRevisions.filter fun r =>
        decide (r.id = e.revisionId ∧ r.tenantId = e.tenantId)).flatMap fun r =>
      (db.pages.filter fun p => decide (p.id = r.pageId ∧ p.tenantId = r.tenantId)).map fun p =>
        (e, r, p)

/-- The columns of `filtered`. -/
def filteredRow (x : Platform) (vector : List F32Bits)
    (row : EmbeddingRow × PageRevisionRow × PageRow) : SearchWire :=
  let distance := x.cosineDistance row.1.embedding vector
  { embeddingId := row.1.id
    revisionId := row.2.1.id
    pageId := row.2.2.id
    sourceId := row.2.2.sourceId
    canonicalUrl := row.2.2.canonicalUrl
    contentSha256 := row.2.1.contentSha256
    title := row.2.1.title
    excerpt := String.ofList (row.2.1.contentText.toList.take 600)
    similarity := distance.oneMinus
    distance := distance
    space := row.1.space
    fetchedAt := row.2.1.fetchedAt }

/-- The rows that a search statement selects when it binds these values: nothing if a
value has not the type that its place asks for. -/
def SearchQuery.rows (fm : Formats) (x : Platform) (values : List Value) (q : SearchQuery)
    (db : Db) : Option (List SearchWire) := do
  let vector ← (textAt values q.vector).bind fm.vectorIn
  let tenant ← uuidAt fm values q.tenant
  let model ← textAt values q.model
  let modelVersion ← textAt values q.modelVersion
  let dimensions ← intAt values q.dimensions
  let normalization ← textAt values q.normalization
  let sources ← q.sources.mapM (uuidAt fm values)
  let similarity ← doubleAt values q.similarity
  let cursor ← cursorAt fm values q.cursor
  let limit ← bigIntAt values q.limit
  let selected := (joined db).filter fun row =>
    decide (row.1.tenantId = tenant ∧ row.1.space.model = model ∧
      row.1.space.modelVersion = modelVersion ∧ asI32 row.1.space.dimensions = dimensions ∧
      normalizationName row.1.space.normalization = normalization) &&
    (q.sources.isEmpty || sources.contains row.2.2.sourceId)
  let filtered := (selected.map (filteredRow x vector)).filter fun wire =>
    decide ((similarity : Float8) ≤ wire.similarity)
  let page := filtered.filter fun wire =>
    cursor.all fun c => decide ((c.1 : Float8) < wire.distance ∨
      (wire.distance = (c.2.1 : Float8) ∧ c.2.2 < wire.embeddingId))
  return (page.insertionSort nearestFirst).take limit.toNat

/-- The request with another vector. -/
def withVector (request : EmbeddingSearchRequest) (vector : List F32Bits) :
    EmbeddingSearchRequest :=
  { request with embedding := { request.embedding with values := vector } }

theorem asI32_inj {m n : UInt32} (h : asI32 m = asI32 n) : m = n := by
  have hm := m.toNat_lt
  have hn := n.toNat_lt
  have hnat : m.toNat = n.toNat := by
    unfold asI32 at h
    split_ifs at h <;> omega
  exact UInt32.toNat_inj.mp hnat

/-- The conditions on the columns of the model space. -/
theorem space_eq_iff {space : ModelSpace} : space = request.embedding.toModelSpace ↔
    space.model = request.embedding.model ∧ space.modelVersion = request.embedding.modelVersion ∧
      asI32 space.dimensions = asI32 request.embedding.dimensions ∧
      normalizationName space.normalization =
        normalizationName request.embedding.normalization := by
  constructor
  · rintro rfl
    exact ⟨rfl, rfl, rfl, rfl⟩
  · rintro ⟨hmodel, hversion, hdimensions, hnormalization⟩
    cases space
    exact ModelSpace.mk.injEq .. ▸ ⟨hmodel, hversion, asI32_inj hdimensions,
      normalizationName_inj hnormalization⟩

/-- A condition on the outer rows of a join may be checked first. -/
theorem flatMap_filter_eq {α β : Type} {a : α → Bool} {f g : α → List β} (l : List α)
    (hpos : ∀ e, a e = true → f e = g e) (hneg : ∀ e, a e = false → f e = []) :
    l.flatMap f = (l.filter a).flatMap g := by
  induction l with
  | nil => rfl
  | cons e l ih =>
    cases ha : a e with
    | true => rw [List.filter_cons_of_pos ha, List.flatMap_cons, List.flatMap_cons, hpos e ha, ih]
    | false =>
      rw [List.filter_cons_of_neg (by rw [ha]; decide), List.flatMap_cons, hneg e ha, ih,
        List.nil_append]

/-- `ranked` as a selection from the joined tables. -/
theorem ranked_eq (x : Platform) (tenantId : Uuid) (request : EmbeddingSearchRequest) (db : Db)
    (vector : List F32Bits) :
    (((joined db).filter fun row =>
      decide (row.1.tenantId = tenantId ∧ row.1.space.model = request.embedding.model ∧
        row.1.space.modelVersion = request.embedding.modelVersion ∧
        asI32 row.1.space.dimensions = asI32 request.embedding.dimensions ∧
        normalizationName row.1.space.normalization =
          normalizationName request.embedding.normalization) &&
      (request.sourceIds.isEmpty || request.sourceIds.contains row.2.2.sourceId)).map
        (filteredRow x vector)) = ranked x tenantId (withVector request vector) db := by
  simp only [← space_eq_iff]
  rw [joined, ranked, List.filter_flatMap, List.map_flatMap]
  refine flatMap_filter_eq _ (fun e he => ?_) fun e he => ?_
  · rw [List.filter_flatMap, List.map_flatMap]
    refine List.flatMap_congr fun r _ => ?_
    rw [List.filter_map, List.map_map, List.filter_filter]
    have hcond : ∀ p : PageRow, (decide (e.tenantId = tenantId ∧
        e.space = request.embedding.toModelSpace) &&
        (request.sourceIds.isEmpty || request.sourceIds.contains p.sourceId)) =
          (request.sourceIds.isEmpty || request.sourceIds.contains p.sourceId) := by
      intro p
      have hkeep : decide (e.tenantId = tenantId ∧
        e.space = request.embedding.toModelSpace) = true := he
      rw [hkeep, Bool.true_and]
    simp only [Function.comp_def, hcond, Bool.and_comm]
    rfl
  · rw [List.filter_flatMap, List.map_flatMap, List.flatMap_eq_nil_iff]
    intro r _
    rw [List.filter_map, List.map_map, List.map_eq_nil_iff, List.filter_eq_nil_iff]
    intro p _ hp
    have hdrop : decide (e.tenantId = tenantId ∧
        e.space = request.embedding.toModelSpace) = true := (Bool.and_eq_true_iff.mp hp).1
    exact Bool.false_ne_true (he.symm.trans hdrop)

theorem mapM_uuidAt {values : List Value} (huuid : ∀ u, fm.uuidIn (Uuid.display u) = some u)
    (ps : List ℕ) : ∀ ids : List Uuid,
      ps.map (bound values) = (ids.map fun id => some (Value.text id.display)) →
      ps.mapM (uuidAt fm values) = some ids := by
  induction ps with
  | nil =>
    intro ids h
    cases ids with
    | nil => rfl
    | cons id ids => cases h
  | cons p ps ih =>
    intro ids h
    cases ids with
    | nil => cases h
    | cons id ids =>
      obtain ⟨hp, hps⟩ := List.cons.inj h
      have hid : uuidAt fm values p = some id := by
        rw [uuidAt, textAt, hp]
        exact huuid id
      rw [List.mapM_cons, hid, ih ids hps]
      rfl

theorem cursorAt_eq {values : List Value} (huuid : ∀ u, fm.uuidIn (Uuid.display u) = some u)
    {numbers : Option (ℕ × ℕ × ℕ)} {cursor : Option SearchCursor}
    (h : (numbers.map fun n => (bound values n.1, bound values n.2.1, bound values n.2.2)) =
      cursor.map fun c => (some (.double c.distance), some (.double c.distance),
        some (.text c.embeddingId.display))) :
    cursorAt fm values numbers =
      some (cursor.map fun c => (c.distance, c.distance, c.embeddingId)) := by
  cases numbers with
  | none =>
    cases cursor with
    | none => rfl
    | some c => cases h
  | some numbers =>
    cases cursor with
    | none => cases h
    | some c =>
      obtain ⟨greater, equal, id⟩ := numbers
      simp only [Option.map_some, Option.some.injEq, Prod.mk.injEq] at h
      obtain ⟨hgreater, hequal, hid⟩ := h
      simp only [cursorAt, doubleAt, uuidAt, textAt, hgreater, hequal, hid, Option.bind_eq_bind,
        Option.bind_some, huuid]
      rfl

/-- **A statement that binds the values of a request selects the rows of the search**,
with the vector that the database reads off its text. -/
theorem SearchQuery.rows_of_binds {q : SearchQuery} {values : List Value}
    (huuid : ∀ u, fm.uuidIn (Uuid.display u) = some u) (h : q.Binds fm tenantId request values)
    (x : Platform) (db : Db) : q.rows fm x values db =
      (fm.vectorIn (vectorLiteral fm request.embedding.values)).map fun vector =>
        searchRows x tenantId (withVector request vector) db := by
  have hempty : q.sources.isEmpty = request.sourceIds.isEmpty := by
    have hlength := congrArg List.length h.sources
    rw [List.length_map, List.length_map] at hlength
    rw [Bool.eq_iff_iff, List.isEmpty_iff_length_eq_zero, List.isEmpty_iff_length_eq_zero, hlength]
  rw [SearchQuery.rows, mapM_uuidAt huuid q.sources request.sourceIds h.sources,
    cursorAt_eq huuid h.cursor, hempty]
  simp only [uuidAt, textAt, intAt, bigIntAt, doubleAt, h.tenant, h.model, h.modelVersion,
    h.dimensions, h.normalization, h.vector, h.similarity, h.limit, huuid, Option.bind_eq_bind,
    Option.bind_some]
  cases fm.vectorIn (vectorLiteral fm request.embedding.values) with
  | none => rfl
  | some vector =>
    have hlimit : ((request.limit : ℤ) + 1).toNat = request.limit + 1 := by omega
    have hcursor : ∀ wire : SearchWire,
        ((request.cursor.map fun c => (c.distance, c.distance, c.embeddingId)).all fun c =>
          decide ((c.1 : Float8) < wire.distance ∨
            (wire.distance = (c.2.1 : Float8) ∧ c.2.2 < wire.embeddingId))) =
          afterCursor request.cursor wire := by
      intro wire
      cases request.cursor <;> rfl
    simp only [Option.bind_some, Option.map_some, ranked_eq, hlimit, hcursor]
    rfl

/-- **The search statement binds every parameter.**  Its placeholders are `$1` to the
number of its values; its text is that of one search statement and no other; the
placeholders of this statement stand for the values of the request; and so it selects
the rows that the request asks for. -/
theorem search_statement_bound (fm : Formats) (huuid : ∀ u, fm.uuidIn (Uuid.display u) = some u)
    (tenantId : Uuid) (request : EmbeddingSearchRequest) :
    (∀ k, k ∈ placeholders (searchStatement fm tenantId request).1 ↔
      1 ≤ k ∧ k ≤ (searchStatement fm tenantId request).2.length) ∧
    ∃ q : SearchQuery, q.text = (searchStatement fm tenantId request).1 ∧
      (∀ q' : SearchQuery, q'.text = (searchStatement fm tenantId request).1 → q' = q) ∧
      [q.tenant, q.model, q.modelVersion, q.dimensions, q.normalization, q.vector, q.similarity]
        = [1, 2, 3, 4, 5, 6, 7] ∧
      q.Binds fm tenantId request (searchStatement fm tenantId request).2 ∧
      ∀ (x : Platform) (db : Db), q.rows fm x (searchStatement fm tenantId request).2 db =
        (fm.vectorIn (vectorLiteral fm request.embedding.values)).map fun vector =>
          searchRows x tenantId (withVector request vector) db := by
  rw [searchStatement_eq]
  refine ⟨fun k => mem_placeholders_searchQuery, searchQuery request, rfl, ?_, rfl,
    searchQuery_binds, fun x db => ?_⟩
  · intro q' h
    exact SearchQuery.text_inj h
  · exact SearchQuery.rows_of_binds huuid searchQuery_binds x db

/-- The formats on the numbers `0` and `1`. -/
def Formats.sample : Formats where
  showF32 v := if v = Scenario.one then "1" else "0"
  uuidIn := Scenario.uuidParseStr
  vectorIn s := ((s.toList.drop 1).dropLast.splitOn ',').mapM fun piece =>
    if piece = ['1'] then some Scenario.one
    else if piece = ['0'] then some 0
    else none

theorem Formats.sample_uuidIn (u : Uuid) : Formats.sample.uuidIn (Uuid.display u) = some u := by
  have hread : Formats.sample.uuidIn = Scenario.uuidParseStr := rfl
  rw [hread, Scenario.uuidParseStr_display]

/-- A second page of a search over two sources. -/
def sampleSearch : EmbeddingSearchRequest where
  embedding := ⟨Scenario.space, Scenario.axis⟩
  sourceIds := [21, 22]
  minSimilarity := F32.ofRat (1 / 2)
  limit := 10
  cursor := some ⟨1 / 4, 31⟩

theorem search_statement_bound_sample :
    placeholders (searchStatement .sample 1 sampleSearch).1 =
      [6, 1, 2, 3, 4, 5, 8, 9, 7, 10, 10, 11, 12] ∧
    ∃ q : SearchQuery, q.text = (searchStatement .sample 1 sampleSearch).1 ∧
      q.Binds .sample 1 sampleSearch (searchStatement .sample 1 sampleSearch).2 ∧
      ∀ db, q.rows .sample .sample (searchStatement .sample 1 sampleSearch).2 db =
        some (searchRows .sample 1 sampleSearch db) := by
  obtain ⟨-, q, htext, -, -, hbinds, hrows⟩ :=
    search_statement_bound .sample Formats.sample_uuidIn 1 sampleSearch
  refine ⟨?_, q, htext, hbinds, fun db => ?_⟩
  · rw [searchStatement_eq, SearchQuery.placeholders_text]
    rfl
  · have hvector : Formats.sample.vectorIn (vectorLiteral .sample sampleSearch.embedding.values) =
        some sampleSearch.embedding.values := by
      decide
    rw [hrows, hvector]
    rfl

end Store

end EmbeddedAlerts
