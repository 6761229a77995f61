import EmbeddedAlerts.Scores

/-!
# The threshold of an evaluation

An evaluation searches with its own threshold and answers with stored rows.  A row
that it adds was found, in PostgreSQL, at a similarity that reaches the threshold, and
records that similarity as it is read.  A row that was there before was found by the
evaluation that added it, which may have had another query vector and a lower
threshold: neither is part of the identity of a match, and a row is never written
twice.

`evaluation_thresholds` is what holds of a returned candidate, and
`evaluation_below_threshold` a candidate below the threshold of the call that
returned it.
-/

namespace EmbeddedAlerts

open Sql Binary

variable {x : Platform} {db : Db}

/-- The threshold of an evaluation is a single. -/
def SingleThreshold (_ : Db) (call : Call) : Prop :=
  ∀ input, call.request = .evaluateMatches input →
    (F32.ofRat input.threshold).val = input.threshold

namespace Store

variable {clock : ℕ → Timestamp} {ids : ℕ → Uuid} {T alertRuleId alertRuleRevisionId : Uuid}
  {threshold : ℚ}

/-- The row is for the rule revision and the record. -/
structure RowOf (T alertRuleId alertRuleRevisionId : Uuid) (record : SearchRecord)
    (row : MatchCandidateRow) : Prop where
  tenantId : row.tenantId = T
  alertRuleId : row.alertRuleId = alertRuleId
  alertRuleRevisionId : row.alertRuleRevisionId = some alertRuleRevisionId
  revisionId : row.revisionId = record.hit.revisionId
  embeddingId : row.embeddingId = some record.hit.embeddingId

/-- A turn of the loop answers with the stored row for its record. -/
theorem evaluateRecord_ok {record : SearchRecord} {n : ℕ} {candidate : MatchCandidate} {s : Db}
    (h : evaluateRecord x clock ids T alertRuleId alertRuleRevisionId threshold (record, n) db
      = (.ok candidate, s)) :
    ∃ row ∈ s.matchCandidates, candidate = matchCandidate x row ∧
      RowOf T alertRuleId alertRuleRevisionId record row := by
  obtain ⟨o, s1, hrow, h1⟩ := Action.bind_eq_ok h
  obtain ⟨⟨row, created⟩, s2, hsome, h2⟩ := Action.bind_eq_ok h1
  obtain ⟨hcandidate, rfl⟩ := Prod.mk.inj h2
  cases o with
  | none => cases hsome
  | some selected =>
    obtain ⟨hselected, rfl⟩ := Prod.mk.inj hsome
    obtain rfl := Except.ok.inj hselected
    have hread := (Except.ok.inj hcandidate).symm
    rcases upsertMatch_ok (execute_eq_ok hrow) with ⟨ho, rfl, -⟩ | ⟨ho, rfl, -⟩
    · -- the row was there
      obtain ⟨r, hfind, hr⟩ := Option.map_eq_some_iff.mp ho.symm
      obtain ⟨rfl, -⟩ := Prod.mk.inj hr
      have hsame := List.find?_some hfind
      obtain ⟨hT, hrule, hrevision, hpage, hembedding, -⟩ := of_decide_eq_true hsame
      exact ⟨r, List.mem_of_find?_eq_some hfind, hread, hT, hrule, hrevision, hpage, hembedding⟩
    · -- it was added
      obtain ⟨rfl, -⟩ := Prod.mk.inj (Option.some.inj ho)
      exact ⟨_, List.mem_append_right _ (List.mem_singleton_self _), hread, rfl, rfl, rfl, rfl, rfl⟩

theorem evaluateRecord_grows (record : SearchRecord × ℕ) (s : Db) :
    Action.Moves Grows
      (evaluateRecord x clock ids T alertRuleId alertRuleRevisionId threshold record) s := by
  refine Action.Moves.bind (Action.Moves.statement fun o d h => ?_) fun o d _ =>
    Action.Moves.okOr_bind fun _ _ => Action.Moves.of_same rfl
  rcases upsertMatch_ok h with ⟨-, rfl, -⟩ | ⟨-, rfl, -⟩
  · exact Grows.refl _
  · exact { Grows.refl _ with matchCandidates := List.prefix_append _ _ }

/-- **Every candidate is the stored row for a hit.** -/
theorem evaluateMatches_ok {search : EmbeddingSearchRequest} {candidates : List MatchCandidate}
    {s : Db} (h : evaluateMatches x clock ids T alertRuleId alertRuleRevisionId threshold search db
      = (.ok candidates, s)) :
    ∀ candidate ∈ candidates, ∃ row ∈ s.matchCandidates, candidate = matchCandidate x row ∧
      ∃ record, Hit x T { search with
        minSimilarity := F32.max search.minSimilarity (F32.ofRat threshold) } db record ∧
        RowOf T alertRuleId alertRuleRevisionId record row := by
  obtain ⟨page, s1, hpage, hloop⟩ := Action.bind_eq_ok h
  obtain ⟨rfl, -, hhits⟩ := searchEmbeddings_ok hpage
  have hall := Action.forEach_eq_ok (R := Grows)
    (fun record _ s' _ => evaluateRecord_grows record s') hloop
  intro candidate hcandidate
  obtain ⟨⟨record, n⟩, hrecord, s1, s2, -, hturn, hgrows⟩ :=
    exists_of_forall₂_right hall hcandidate
  obtain ⟨row, hrow, hread, hof⟩ := evaluateRecord_ok hturn
  exact ⟨row, hgrows.matchCandidates.subset hrow, hread, record,
    hhits record (List.fst_mem_of_mem_zipIdx hrecord), hof⟩

theorem RowOf.historical (hwf : Wf x db) {record : SearchRecord} {row : MatchCandidateRow}
    (h : RowOf T alertRuleId alertRuleRevisionId record row) (hrow : row ∈ db.matchCandidates) :
    row.matchMode = .historicalPageSearch := by
  obtain ⟨i, hi⟩ := hwf.candidate row hrow
  have hevidence := hi.evidence
  cases hmode : row.matchMode with
  | historicalPageSearch => rfl
  | reverseAlertStream =>
    rw [Evidence, hmode] at hevidence
    have hnone := h.embeddingId.symm.trans hevidence.1
    cases hnone

end Store

/-- A threshold that is a single is not changed by being narrowed, and nor is the
larger of it and the threshold of a rule. -/
theorem ofRat_max {requested : ℚ} (h : (F32.ofRat requested).val = requested) (rule : F32) :
    (F32.ofRat (max requested rule.val)).val = max requested rule.val := by
  rcases le_total requested rule.val with hle | hle
  · rw [max_eq_right hle, F32.ofRat_val]
  · rw [max_eq_left hle, h]

theorem evaluateMatches_exec {call : Call} {input : EvaluateMatchesRequest}
    (hrequest : call.request = .evaluateMatches input)
    {candidates : List Store.MatchCandidate} {s : Db}
    (hrun : call.exec x db = (.ok (.candidates candidates), s)) :
    ∃ rule threshold search, Routes.EvaluationFor x call.auth input db rule threshold search ∧
      Store.evaluateMatches x call.supply.clock call.supply.ids call.auth.tenantId
        input.alertRuleId rule.revisionId threshold search db = (.ok candidates, s) := by
  unfold Call.exec at hrun
  rw [hrequest] at hrun
  obtain ⟨candidates', s1, hroute, hreturn⟩ := Action.bind_eq_ok hrun
  obtain ⟨hresponse, rfl⟩ := Prod.mk.inj hreturn
  obtain rfl := Response.candidates.inj (Except.ok.inj hresponse)
  obtain ⟨⟨rule, threshold, search⟩, s2, hfor, hstore⟩ := Action.bind_eq_ok hroute
  obtain ⟨rfl, hfor⟩ := Routes.evaluationFor_ok hfor
  exact ⟨rule, threshold, search, hfor, hstore⟩

/-- An evaluation has recorded a threshold that is at least that of the rule revision,
and a similarity that is at least what is read of it. -/
def Recorded (x : Platform) (db : Db) (row : MatchCandidateRow) : Prop :=
  row.matchMode = .historicalPageSearch →
    x.jsonDouble row.threshold ≤ row.similarity ∧
      ∃ v ∈ db.alertRuleRevisions, row.alertRuleRevisionId = some v.id ∧
        v.similarityThreshold.val ≤ row.threshold

theorem Recorded.mono {db' : Db} {row : MatchCandidateRow} (hg : Grows db db')
    (h : Recorded x db row) : Recorded x db' row := by
  intro hmode
  obtain ⟨hle, v, hv, h⟩ := h hmode
  exact ⟨hle, v, hg.alertRuleRevisions hv, h⟩

/-- The threshold of an evaluation whose request has a single is a single, and at most
the minimum of its search. -/
theorem evaluation_single {auth : AuthContext} {input : EvaluateMatchesRequest}
    {rule : AlertRule} {threshold : ℚ} {search : EmbeddingSearchRequest}
    (hfor : Routes.EvaluationFor x auth input db rule threshold search)
    (hsingle : (F32.ofRat input.threshold).val = input.threshold) :
    (F32.ofRat threshold).val = threshold ∧
      (F32.ofRat threshold).val ≤ (F32.max search.minSimilarity (F32.ofRat threshold)).val := by
  rw [F32.max_val]
  refine ⟨?_, le_max_right _ _⟩
  rw [hfor.threshold]
  exact ofRat_max hsingle rule.similarityThreshold

theorem evaluateAllows_recorded (hx : x.Lawful) {call : Call} (hsingle : SingleThreshold db call) :
    EvaluateAllows x (Recorded x) call db := by
  intro input rule threshold search hrequest hfor d hg record hhit now id _
  obtain ⟨hthreshold, hmin⟩ := evaluation_single hfor (hsingle input hrequest)
  obtain ⟨r, -, v, hv, -, -, -, -, hrule⟩ := hfor.joined
  refine ⟨?_, v, hg.alertRuleRevisions hv, ?_, ?_⟩
  · have hreaches := hhit.reaches hx hmin
    rw [hthreshold] at hreaches
    exact hreaches
  · rw [hrule]
    rfl
  · have hle : rule.similarityThreshold.val ≤ threshold := by
      rw [hfor.threshold]
      exact le_max_right _ _
    rw [hrule] at hle
    exact hle

theorem Reaches.recorded (hx : x.Lawful) (h : Reaches x SingleThreshold db) :
    ∀ row ∈ db.matchCandidates, Recorded x db row := by
  refine h.candidates hx Recorded.mono (fun _ _ _ hsingle => evaluateAllows_recorded hx hsingle) ?_
  intro d call _ _ sourceId input _ d' d'' _ _ page wire _ _ _ now id url hmode
  cases hmode

/-- The row was in the store, or is the one that the evaluation offers for a hit. -/
def Offered (x : Platform) (db : Db) (T alertRuleId alertRuleRevisionId : Uuid) (threshold : ℚ)
    (search : EmbeddingSearchRequest) (_ : Db) (row : MatchCandidateRow) : Prop :=
  row ∈ db.matchCandidates ∨ ∃ now id record,
    Store.Hit x T { search with
      minSimilarity := F32.max search.minSimilarity (F32.ofRat threshold) } db record ∧
    row = Store.newCandidate x now id T alertRuleId alertRuleRevisionId threshold record

/-- A returned row was found by the search of the call, though one that was added may be
that of another hit. -/
theorem Offered.found {T alertRuleId alertRuleRevisionId : Uuid} {threshold : ℚ}
    {search : EmbeddingSearchRequest} {s : Db} {row : MatchCandidateRow}
    (h : Offered x db T alertRuleId alertRuleRevisionId threshold search s row)
    {record : Store.SearchRecord} (hhit : Store.Hit x T { search with
      minSimilarity := F32.max search.minSimilarity (F32.ofRat threshold) } db record)
    (hof : Store.RowOf T alertRuleId alertRuleRevisionId record row) :
    ∃ found, Store.Hit x T { search with
        minSimilarity := F32.max search.minSimilarity (F32.ofRat threshold) } db found ∧
      row.revisionId = found.hit.revisionId ∧ row.embeddingId = some found.hit.embeddingId ∧
      (row ∈ db.matchCandidates ∨
        row.threshold = threshold ∧ row.similarity = found.hit.similarity) := by
  rcases h with hold | ⟨now, id, found, hfound, rfl⟩
  · exact ⟨record, hhit, hof.revisionId, hof.embeddingId, Or.inl hold⟩
  · exact ⟨found, hfound, rfl, rfl, Or.inr ⟨rfl, rfl⟩⟩

theorem evaluateMatches_offered {auth : AuthContext} {input : EvaluateMatchesRequest}
    {rule : AlertRule} {threshold : ℚ} {search : EmbeddingSearchRequest} {clock : ℕ → Timestamp}
    {ids : ℕ → Uuid} {candidates : List Store.MatchCandidate} {s : Db} (hwf : Wf x db)
    (hfor : Routes.EvaluationFor x auth input db rule threshold search)
    (h : Store.evaluateMatches x clock ids auth.tenantId input.alertRuleId rule.revisionId
      threshold search db = (.ok candidates, s)) :
    Grows db s ∧ ∀ row ∈ s.matchCandidates,
      Offered x db auth.tenantId input.alertRuleId rule.revisionId threshold search s row := by
  have hmoves : Action.Moves (Steps x (Offered x db auth.tenantId input.alertRuleId
      rule.revisionId threshold search) auth.tenantId)
      (Store.evaluateMatches x clock ids auth.tenantId input.alertRuleId rule.revisionId
        threshold search) db :=
    Store.evaluateMatches_moves (hfor.owned hwf)
      fun d _ record hhit now id => Or.inr ⟨now, id, record, hhit, rfl⟩
  rw [Action.Moves, h] at hmoves
  exact ⟨hmoves.grows, hmoves.candidates (fun _ h => h) fun row hrow => Or.inl hrow⟩

/-- **What holds of a returned candidate.**  It is a stored row for the rule revision, as
it is read.  The search of the call has found the page revision of the row, in PostgreSQL,
at a similarity that reaches the threshold of the call.  The row has a threshold of at
least that of the rule revision, and a similarity of at least what is read of its
threshold.  Either it was in the store before the call, or its threshold is that of the
call and its similarity is read of the one that was found. -/
theorem evaluation_thresholds (hx : x.Lawful) (h : Reaches x SingleThreshold db) {call : Call}
    {input : EvaluateMatchesRequest} (hrequest : call.request = .evaluateMatches input)
    (hsingle : (F32.ofRat input.threshold).val = input.threshold)
    {candidates : List Store.MatchCandidate} {s : Db}
    (hrun : call.exec x db = (.ok (.candidates candidates), s)) :
    ∃ rule threshold search, Routes.EvaluationFor x call.auth input db rule threshold search ∧
      ∀ candidate ∈ candidates, ∃ row ∈ s.matchCandidates,
        candidate = Store.matchCandidate x row ∧ row.alertRuleId = input.alertRuleId ∧
        row.alertRuleRevisionId = some rule.revisionId ∧
        rule.similarityThreshold.val ≤ row.threshold ∧
        x.jsonDouble row.threshold ≤ row.similarity ∧
        ∃ record, Store.Hit x call.auth.tenantId search db record ∧
          row.revisionId = record.hit.revisionId ∧
          row.embeddingId = some record.hit.embeddingId ∧
          ∃ e ∈ db.embeddings, e.id = record.hit.embeddingId ∧ ∃ similarity : ℚ,
            (x.cosineDistance e.embedding search.embedding.values).oneMinus
              = (similarity : Float8) ∧
            max input.threshold rule.similarityThreshold.val ≤ similarity ∧
            (row ∈ db.matchCandidates ∨
              row.threshold = max input.threshold rule.similarityThreshold.val ∧
              row.similarity = x.jsonDouble similarity) := by
  have hwf := h.wf hx
  have hafter : Reaches x SingleThreshold s := by
    have hcall : SingleThreshold db call := by
      intro input' hrequest'
      obtain rfl := Request.evaluateMatches.inj (hrequest.symm.trans hrequest')
      exact hsingle
    have hreach := Reaches.call h call hcall
    rwa [Call.after, hrun] at hreach
  obtain ⟨rule, threshold, search, hfor, hstore⟩ := evaluateMatches_exec hrequest hrun
  obtain ⟨hthreshold, hmin⟩ := evaluation_single hfor hsingle
  rw [hthreshold] at hmin
  obtain ⟨hgrows, hoffered⟩ := evaluateMatches_offered hwf hfor hstore
  refine ⟨rule, threshold, search, hfor, fun candidate hcandidate => ?_⟩
  obtain ⟨row, hrow, hread, record, hhit, hof⟩ :=
    Store.evaluateMatches_ok hstore candidate hcandidate
  obtain ⟨hle, v, hv, hvid, hvle⟩ :=
    hafter.recorded hx row hrow (hof.historical (hafter.wf hx) hrow)
  have hrule : rule.similarityThreshold.val ≤ row.threshold := by
    obtain ⟨r, -, w, hw, -, -, -, -, rfl⟩ := hfor.joined
    obtain rfl := (hafter.wf hx).valid.alertRuleRevision_eq hv (hgrows.alertRuleRevisions hw)
      (Option.some.inj (hvid.symm.trans hof.alertRuleRevisionId))
    exact hvle
  obtain ⟨found, hfound, hrevision, hembedding, hkept⟩ := (hoffered row hrow).found hhit hof
  obtain ⟨e, he, hid, similarity, hsimilarity, hreached, hsame⟩ := hfound.similarity
  refine ⟨row, hrow, hread, hof.alertRuleId, hof.alertRuleRevisionId, hrule, hle, found,
    hfound.lower ?_, hrevision, hembedding, e, he, hid, similarity, hsimilarity, ?_, ?_⟩
  · rw [F32.max_val]
    exact le_max_left _ _
  · rw [← hfor.threshold]
    exact hmin.trans hreached
  · rw [← hsame, ← hfor.threshold]
    exact hkept

/-! ### A scenario -/

namespace Scenario

/-- An evaluation with the vector of the page itself, which is at similarity `1`. -/
def diagonalInput : EvaluateMatchesRequest :=
  ⟨20, 3 / 4, { search with embedding := ⟨space, diagonal⟩ }⟩

def evaluateDiagonal : Call := call 80 (.evaluateMatches diagonalInput)

theorem diagonalInput_single :
    (F32.ofRat diagonalInput.threshold).val = diagonalInput.threshold := by decide +kernel

/-- The store after an evaluation at threshold `1 / 4`, with the vector of the rule. -/
def evaluatedLow : Db :=
  (evaluate 70 (1 / 4)).after Platform.sample (EmbeddedAlerts.after Platform.sample setup Db.empty)

theorem reaches_evaluatedLow : Reaches Platform.sample SingleThreshold evaluatedLow := by
  refine Reaches.call (Reaches.call (Reaches.call (Reaches.call (Reaches.call (Reaches.call .refl
    createSource ?_) createRule ?_) embedRule ?_) (ingest 30) ?_) (ingest 40) ?_)
    (evaluate 70 (1 / 4)) ?_
  case refine_6 =>
    intro input hrequest
    have hinput : input = ⟨20, 1 / 4, search⟩ := by
      injection hrequest.symm
    rw [hinput]
    decide +kernel
  all_goals
    intro input hrequest
    cases hrequest

/-- The second evaluation answers with the row of the first. -/
theorem evaluateDiagonal_low : ∃ candidates s,
    evaluateDiagonal.exec Platform.sample evaluatedLow = (.ok (.candidates candidates), s) ∧
      ∃ candidate ∈ candidates, candidate.similarity = 1 / 2 := by
  have hlow : (match (evaluateDiagonal.exec Platform.sample evaluatedLow).1 with
      | .ok (.candidates candidates) => candidates.any fun c => decide (c.similarity = 1 / 2)
      | _ => false) = true := by decide +kernel
  rcases hrun : evaluateDiagonal.exec Platform.sample evaluatedLow with ⟨r, s⟩
  rw [hrun] at hlow
  split at hlow
  · next candidates heq =>
    obtain ⟨candidate, hcandidate, hsimilarity⟩ := List.any_eq_true.mp hlow
    exact ⟨candidates, s, Prod.ext heq rfl, candidate, hcandidate, of_decide_eq_true hsimilarity⟩
  · cases hlow

end Scenario

open Scenario in
/-- **A candidate below the threshold of the call that returned it**: it was added
by an evaluation with another query vector and a lower threshold. -/
theorem evaluation_below_threshold :
    ¬ ∀ (x : Platform), x.Lawful → x.CollisionFree → ∀ db, Reaches x SingleThreshold db →
      ∀ (call : Call) input, call.request = .evaluateMatches input →
        (F32.ofRat input.threshold).val = input.threshold →
        ∀ candidates s, call.exec x db = (.ok (.candidates candidates), s) →
        ∀ rule threshold search, Routes.EvaluationFor x call.auth input db rule threshold search →
        ∀ candidate ∈ candidates,
          max input.threshold rule.similarityThreshold.val ≤ candidate.similarity := by
  intro h
  obtain ⟨candidates, s, hrun, candidate, hcandidate, hsimilarity⟩ := evaluateDiagonal_low
  have hrequest : evaluateDiagonal.request = .evaluateMatches diagonalInput := rfl
  obtain ⟨rule, threshold, search, hfor, -⟩ := evaluateMatches_exec hrequest hrun
  have hle := h Platform.sample Platform.sample_lawful Platform.sample_collisionFree evaluatedLow
    reaches_evaluatedLow evaluateDiagonal diagonalInput hrequest diagonalInput_single candidates
    s hrun rule threshold search hfor candidate hcandidate
  have hmax : (3 / 4 : ℚ) ≤ candidate.similarity := (le_max_left _ _).trans hle
  rw [hsimilarity] at hmax
  norm_num at hmax

open Scenario in
theorem evaluation_thresholds_sample : ∃ candidates s,
    evaluateDiagonal.exec Platform.sample evaluatedLow = (.ok (.candidates candidates), s) ∧
      ∃ candidate ∈ candidates, candidate.similarity < 3 / 4 ∧
        candidate.threshold ≤ candidate.similarity := by
  obtain ⟨candidates, s, hrun, candidate, hcandidate, hsimilarity⟩ := evaluateDiagonal_low
  have hrequest : evaluateDiagonal.request = .evaluateMatches diagonalInput := rfl
  obtain ⟨rule, threshold, search, -, hall⟩ := evaluation_thresholds Platform.sample_lawful
    reaches_evaluatedLow hrequest diagonalInput_single hrun
  obtain ⟨row, -, rfl, -, -, -, hle, -⟩ := hall candidate hcandidate
  refine ⟨candidates, s, hrun, _, hcandidate, ?_, hle⟩
  rw [hsimilarity]
  norm_num

end EmbeddedAlerts
