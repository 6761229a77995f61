import EmbeddedAlerts.Requests

/-!
# Score evidence

A candidate stores the similarity it was found with and the threshold it had to
reach.  What is compared in the database is not always what is stored.

* An evaluation stores its threshold as it is, and the similarity as it is read from
  JSON.  The search compares the similarity with the larger of `min_similarity` and
  the threshold narrowed to single precision.
* The reverse path compares the similarity with the threshold of the rule, and stores
  both as they are read.

A run in which no evaluation and no reverse match loses anything by that
(`ThresholdCovered`) never stores a candidate below its threshold, nor a threshold
below that of the rule (`scores_consistent`), and one evaluation that does can
(`not_scores_consistent`).
-/

namespace EmbeddedAlerts

open Sql Binary

/-- The candidate reaches its threshold, and the threshold is at least that of its
rule revision. -/
def Scored (db : Db) (row : MatchCandidateRow) : Prop :=
  row.threshold ≤ row.similarity ∧
    ∃ v ∈ db.alertRuleRevisions, row.alertRuleRevisionId = some v.id ∧
      v.similarityThreshold.val ≤ row.threshold

/-- Neither narrowing nor JSON takes the evidence below its threshold: the threshold
of an evaluation is at most what is read of the minimum that its search compares
with, and the threshold of a rule that a page reaches is not read below itself. -/
structure ThresholdCovered (x : Platform) (db : Db) (call : Call) : Prop where
  evaluation : ∀ input, call.request = .evaluateMatches input →
    ∀ r ∈ db.alertRules, ∀ v ∈ db.alertRuleRevisions, r.tenantId = call.auth.tenantId →
      r.id = input.alertRuleId → r.activeRevisionId = some v.id →
      max input.threshold v.similarityThreshold.val ≤ x.jsonDouble (F32.max
        input.search.minSimilarity (F32.ofRat (max input.threshold v.similarityThreshold.val))).val
  reverse : ∀ sourceId input, call.request = .reverseMatchPage sourceId input →
    ∀ alert ∈ ReverseMatch.reachedAlerts x call.auth.tenantId sourceId input.embedding db,
      alert.threshold ≤ x.jsonDouble alert.threshold

theorem Scored.mono {db db' : Db} {row : MatchCandidateRow} (hg : Grows db db')
    (h : Scored db row) : Scored db' row := by
  obtain ⟨hle, v, hv, h⟩ := h
  exact ⟨hle, v, hg.alertRuleRevisions hv, h⟩

theorem evaluateAllows_scored {x : Platform} (hx : x.Lawful) {db : Db} {call : Call}
    (hcovered : ThresholdCovered x db call) : EvaluateAllows x Scored call db := by
  intro input rule threshold search hrequest hfor d hg record hhit now id
  obtain ⟨r, hr, v, hv, hrT, hrid, hactive, -, hrule⟩ := hfor.joined
  have hthreshold : threshold = max input.threshold v.similarityThreshold.val := by
    rw [hfor.threshold, hrule]
    rfl
  have hmin : search.minSimilarity = input.search.minSimilarity :=
    (congrArg EmbeddingSearchRequest.minSimilarity hfor.same).trans rfl
  have hcover := hcovered.evaluation input hrequest r hr v hv hrT hrid hactive
  rw [← hthreshold, ← hmin] at hcover
  refine Scored.mono hg ⟨?_, v, hv, ?_, ?_⟩
  · exact hcover.trans (hhit.reaches hx le_rfl)
  · rw [hrule]
    rfl
  · exact le_of_le_of_eq (le_max_right _ _) hthreshold.symm

theorem reverseAllows_scored {x : Platform} (hx : x.Lawful) {db : Db} {call : Call}
    (hcovered : ThresholdCovered x db call) : ReverseAllows x Scored call db := by
  intro sourceId input hrequest d d' hd hg page wire _ hfound hreached now id url
  obtain ⟨alert, halert, v, hv, hvid, hthreshold, hread⟩ := hfound.alert
  have hcover := hcovered.reverse sourceId input hrequest alert halert
  refine Scored.mono (hd.trans hg) ⟨?_, v, hv, ?_, ?_⟩
  · exact hreached.threshold_le hx
  · exact congrArg some hvid.symm
  · calc v.similarityThreshold.val = alert.threshold := hthreshold.symm
      _ ≤ x.jsonDouble alert.threshold := hcover
      _ = wire.threshold := hread.symm

/-- **In every run whose calls are covered, score evidence is consistent.** -/
theorem scores_consistent {x : Platform} (hx : x.Lawful) {db : Db}
    (h : Reaches x (ThresholdCovered x) db) : ∀ row ∈ db.matchCandidates, Scored db row :=
  h.candidates hx Scored.mono (fun _ _ _ hcovered => evaluateAllows_scored hx hcovered)
    (fun _ _ _ hcovered => reverseAllows_scored hx hcovered)

/-- A run reaches a store if every call in it meets `P`. -/
theorem Reaches.call {x : Platform} {P : Db → Call → Prop} {db : Db} (h : Reaches x P db)
    (call : Call) (hP : P db call) : Reaches x P (call.after x db) :=
  h.tail ⟨call, hP, rfl⟩

namespace Scenario

/-- A platform that reads every double exactly loses nothing on a reverse match, nor
on a request of another kind. -/
theorem covered {call : Call} (h : ∀ input, call.request ≠ .evaluateMatches input) (db : Db) :
    ThresholdCovered Platform.sample db call :=
  ⟨fun input hrequest => absurd hrequest (h input), fun _ _ _ _ _ => le_rfl⟩

theorem reaches_setup : Reaches Platform.sample (ThresholdCovered Platform.sample)
    (after Platform.sample setup Db.empty) := by
  refine Reaches.call (Reaches.call (Reaches.call (Reaches.call (Reaches.call .refl
    createSource (covered ?_ _)) createRule (covered ?_ _)) embedRule (covered ?_ _))
    (ingest 30) (covered ?_ _)) (ingest 40) (covered ?_ _)
  all_goals
    intro input hrequest
    cases hrequest

/-- The narrowed threshold is the threshold. -/
theorem covered_evaluate (db : Db) :
    ThresholdCovered Platform.sample db (evaluate 70 (1 / 2)) := by
  refine ⟨fun input hrequest r _ v _ _ _ _ => ?_, fun _ _ hrequest => by cases hrequest⟩
  have hinput : input = ⟨20, 1 / 2, search⟩ := by
    injection hrequest.symm
  rw [hinput, F32.max_val]
  refine le_max_of_le_right ?_
  rcases max_choice (1 / 2 : ℚ) v.similarityThreshold.val with hmax | hmax
  · have hnarrow : (F32.ofRat (1 / 2)).val = 1 / 2 := by decide +kernel
    rw [hmax, hnarrow]
  · rw [hmax, F32.ofRat_val]

end Scenario

open Scenario in
theorem scores_consistent_sample :
    (after Platform.sample (setup ++ [evaluate 70 (1 / 2)]) Db.empty).matchCandidates.length = 1 ∧
      (∀ row ∈ (after Platform.sample (setup ++ [evaluate 70 (1 / 2)]) Db.empty).matchCandidates,
        Scored (after Platform.sample (setup ++ [evaluate 70 (1 / 2)]) Db.empty) row) ∧
    (after Platform.sample (setup ++ [reverse 60 diagonal]) Db.empty).matchCandidates.length = 1 ∧
      ∀ row ∈ (after Platform.sample (setup ++ [reverse 60 diagonal]) Db.empty).matchCandidates,
        Scored (after Platform.sample (setup ++ [reverse 60 diagonal]) Db.empty) row := by
  refine ⟨by decide +kernel, scores_consistent Platform.sample_lawful
    (Reaches.call reaches_setup _ (covered_evaluate _)), by decide +kernel,
    scores_consistent Platform.sample_lawful (Reaches.call reaches_setup _ (covered ?_ _))⟩
  intro input hrequest
  cases hrequest

/-- **One evaluation is enough to store a candidate below its threshold**: the
page is at similarity `1 / 2`, the requested threshold is `1 / 2 + 2⁻⁴⁰`, and as
an `f32` that is `1 / 2`. -/
theorem not_scores_consistent :
    ¬ ∀ (x : Platform), x.Lawful → ∀ db, Reaches x (fun _ _ => True) db →
      ∀ row ∈ db.matchCandidates, Scored db row := by
  intro h
  have hall := h Platform.sample Platform.sample_lawful _
    (reaches_after (Scenario.setup ++ [Scenario.evaluate 70 (1 / 2 + 1 / 2 ^ 40)]))
  have hbad : ∃ row ∈ (after Platform.sample
      (Scenario.setup ++ [Scenario.evaluate 70 (1 / 2 + 1 / 2 ^ 40)]) Db.empty).matchCandidates,
      ¬ row.threshold ≤ row.similarity := by decide +kernel
  obtain ⟨row, hrow, hlt⟩ := hbad
  exact hlt (hall row hrow).1

end EmbeddedAlerts
