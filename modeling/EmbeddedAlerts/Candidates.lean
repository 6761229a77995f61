import EmbeddedAlerts.Requests
import EmbeddedAlerts.MatchKey

/-!
# What an offered candidate meets

Both paths offer a row for `eal_match_candidates` and fall back to a stored one.
In a well-formed store there are three outcomes.

* No row has its match key: the row is added.
* A row has its key and the evidence the path looks for: that row is the answer.
* A row has its key and other evidence: the path finds nothing and fails.

If match keys are injective, a stored row with the key of an offered one has its
identity, so it rests on the same page revision, the same rule revision and the
same model space (`identity_eq`).  Then the stored embedding is the same one
(`Identifies.embeddingId_eq`), and the embedding of the rule is
(`Identifies.alertEmbeddingId_eq`), by the unique constraints on the two
embedding tables.  What is left of "other evidence" is the mode, and on the
reverse path the fingerprint of the page vector.
-/

namespace EmbeddedAlerts

open Sql Binary

variable {x : Platform} {db : Db} {T : Uuid}

/-- UUIDs that no row has yet, and no two of which are the same. -/
structure FreshIds (db : Db) (ids : ℕ → Uuid) (n : ℕ) : Prop where
  distinct : ∀ i < n, ∀ j < n, ids i = ids j → i = j
  pages : ∀ i < n, ∀ p ∈ db.pages, p.id ≠ ids i
  pageRevisions : ∀ i < n, ∀ v ∈ db.pageRevisions, v.id ≠ ids i
  matchCandidates : ∀ i < n, ∀ r ∈ db.matchCandidates, r.id ≠ ids i

/-- The row is for this rule revision, page revision and model space. -/
structure MatchCandidateRow.For (r : MatchCandidateRow)
    (tenantId alertRuleRevisionId pageRevisionId : Uuid) (space : ModelSpace) : Prop where
  tenantId : r.tenantId = tenantId
  alertRuleRevisionId : r.alertRuleRevisionId = some alertRuleRevisionId
  revisionId : r.revisionId = pageRevisionId
  space : r.scoreExplanation.space = space

/-! ### Rows with one key -/

theorem sameMatchKey_iff {r s : MatchCandidateRow} :
    r.sameMatchKey s = true ↔
      r.tenantId = s.tenantId ∧ r.canonicalMatchKey = s.canonicalMatchKey := by
  simp [MatchCandidateRow.sameMatchKey]

/-- **Rows with one key have one identity.** -/
theorem identity_eq (hk : Function.Injective (Store.matchKey x)) {r s : MatchCandidateRow}
    {i j : MatchIdentity} (hi : Identifies x db r i) (hj : Identifies x db s j)
    (h : r.sameMatchKey s = true) : i = j := by
  obtain ⟨-, hkey⟩ := sameMatchKey_iff.mp h
  rw [hi.key, hj.key] at hkey
  exact hk hkey

theorem Identifies.embeddingId_eq (hwf : Wf x db) {r s : MatchCandidateRow} {i : MatchIdentity}
    (hi : Identifies x db r i) (hj : Identifies x db s i)
    (hr : r.matchMode = .historicalPageSearch) (hs : s.matchMode = .historicalPageSearch) :
    r.embeddingId = s.embeddingId := by
  have her := hi.evidence
  have hes := hj.evidence
  rw [Evidence, hr] at her
  rw [Evidence, hs] at hes
  obtain ⟨-, e, he, hre, heT, herev, hespace⟩ := her
  obtain ⟨-, f, hf, hsf, hfT, hfrev, hfspace⟩ := hes
  have hef : e = f := by
    refine hwf.valid.embedding_eq_of_space he hf (decide_eq_true ⟨?_, ?_, ?_⟩)
    · rw [heT, hfT, hi.tenantId, hj.tenantId]
    · rw [herev, hfrev, hi.revisionId, hj.revisionId]
    · rw [hespace, hfspace]
  rw [hre, hsf, hef]

theorem Identifies.alertEmbeddingId_eq (hwf : Wf x db) {r s : MatchCandidateRow}
    {i : MatchIdentity} (hi : Identifies x db r i) (hj : Identifies x db s i)
    (hr : r.matchMode = .reverseAlertStream) (hs : s.matchMode = .reverseAlertStream) :
    r.alertEmbeddingId = s.alertEmbeddingId := by
  have her := hi.evidence
  have hes := hj.evidence
  rw [Evidence, hr] at her
  rw [Evidence, hs] at hes
  obtain ⟨-, -, a, ha, hra, haT, -, harev, haspace⟩ := her
  obtain ⟨-, -, b, hb, hsb, hbT, -, hbrev, hbspace⟩ := hes
  have hab : a = b := by
    refine hwf.valid.alertRuleEmbedding_eq_of_space ha hb (decide_eq_true ⟨?_, ?_, ?_⟩)
    · rw [haT, hbT, hi.tenantId, hj.tenantId]
    · rw [hi.alertRuleRevisionId] at harev
      rw [hj.alertRuleRevisionId] at hbrev
      exact Option.some.inj (harev.symm.trans hbrev)
    · rw [haspace, hbspace]
  rw [hra, hsb, hab]

theorem Identifies.embeddingId_of_historical {r : MatchCandidateRow} {i : MatchIdentity}
    (hi : Identifies x db r i) (hr : r.matchMode = .historicalPageSearch) :
    r.embeddingId ≠ none := by
  have her := hi.evidence
  rw [Evidence, hr] at her
  obtain ⟨-, e, -, hre, -⟩ := her
  rw [hre]
  exact Option.some_ne_none _

theorem Identifies.embeddingId_of_reverse {r : MatchCandidateRow} {i : MatchIdentity}
    (hi : Identifies x db r i) (hr : r.matchMode = .reverseAlertStream) : r.embeddingId = none := by
  have her := hi.evidence
  rw [Evidence, hr] at her
  exact her.1

theorem Identifies.pageEmbeddingSpace_of_reverse {r : MatchCandidateRow} {i : MatchIdentity}
    (hi : Identifies x db r i) (hr : r.matchMode = .reverseAlertStream) :
    r.pageEmbeddingSpace = some i.toModelSpace := by
  have her := hi.evidence
  rw [Evidence, hr] at her
  exact her.2.1

section Offered

variable {s : Db} {row r : MatchCandidateRow} {i : MatchIdentity} (hwf : Wf x s)
  (hk : Function.Injective (Store.matchKey x)) (hi : Identifies x s row i)
  (hr : r ∈ s.matchCandidates) (hkey : row.sameMatchKey r = true)

include hwf hk hi hr hkey

/-- A stored row with the key of an offered one has its identity. -/
theorem stored_identifies : Identifies x s r i := by
  obtain ⟨j, hj⟩ := hwf.candidate r hr
  rw [identity_eq hk hi hj hkey]
  exact hj

omit hr hkey in
/-- **A stored row has the key of an offered one exactly if it is for the same
combination.**  The rule and the content follow from the two revisions. -/
theorem sameMatchKey_iff_for {r : MatchCandidateRow} (hr : r ∈ s.matchCandidates) :
    row.sameMatchKey r = true ↔
      r.For i.tenantId i.alertRuleRevisionId i.pageRevisionId i.toModelSpace := by
  constructor
  · intro hkey
    have hj := stored_identifies hwf hk hi hr hkey
    exact ⟨hj.tenantId, hj.alertRuleRevisionId, hj.revisionId, hj.explained⟩
  · intro hfor
    obtain ⟨j, hj⟩ := hwf.candidate r hr
    have htenant : j.tenantId = i.tenantId := hj.tenantId.symm.trans hfor.tenantId
    have hrevision : j.alertRuleRevisionId = i.alertRuleRevisionId :=
      Option.some.inj (hj.alertRuleRevisionId.symm.trans hfor.alertRuleRevisionId)
    have hpage : j.pageRevisionId = i.pageRevisionId := hj.revisionId.symm.trans hfor.revisionId
    have hspace : j.toModelSpace = i.toModelSpace := hj.explained.symm.trans hfor.space
    have hrule : j.alertRuleId = i.alertRuleId := by
      obtain ⟨v, hv, hvid, -, hvrule⟩ := hj.owned
      obtain ⟨w, hw, hwid, -, hwrule⟩ := hi.owned
      have hvw : v = w := hwf.valid.alertRuleRevision_eq hv hw (by rw [hvid, hwid, hrevision])
      rw [← hvrule, ← hwrule, hvw]
    have hcontent : j.contentSha256 = i.contentSha256 := by
      obtain ⟨v, hv, hvid, -, hvsha⟩ := hj.content
      obtain ⟨w, hw, hwid, -, hwsha⟩ := hi.content
      have hvw : v = w := hwf.valid.pageRevision_eq hv hw (by rw [hvid, hwid, hpage])
      rw [← hvsha, ← hwsha, hvw]
    have hij : j = i := by
      cases i
      cases j
      simp only at htenant hrevision hpage hspace hrule hcontent
      rw [htenant, hrevision, hpage, hspace, hrule, hcontent]
    rw [hij] at hj
    exact sameMatchKey_iff.mpr ⟨hi.tenantId.trans hj.tenantId.symm, hi.key.trans hj.key.symm⟩

/-- **The historical fallback finds the stored row exactly if it is historical.** -/
theorem find?_sameHistorical (hmode : row.matchMode = .historicalPageSearch) :
    s.matchCandidates.find? (Store.sameHistorical row)
      = if r.matchMode = .historicalPageSearch then some r else none := by
  have hj := stored_identifies hwf hk hi hr hkey
  have huniq : ∀ b ∈ s.matchCandidates, Store.sameHistorical row b = true → b = r := by
    intro b hb hsame
    obtain ⟨hT, -, -, -, -, hbkey⟩ := of_decide_eq_true hsame
    obtain ⟨hrT, hrkey⟩ := sameMatchKey_iff.mp hkey
    refine hwf.valid.candidate_eq_of_key hb hr (sameMatchKey_iff.mpr ⟨?_, ?_⟩)
    · rw [hT, hrT]
    · rw [hbkey, hrkey]
  rw [find?_eq_of_unique hr huniq]
  by_cases hmode' : r.matchMode = .historicalPageSearch
  · have hsame : Store.sameHistorical row r = true := by
      obtain ⟨hrT, hrkey⟩ := sameMatchKey_iff.mp hkey
      refine decide_eq_true ⟨hrT.symm, ?_, ?_, ?_, ?_, hrkey.symm⟩
      · rw [hj.alertRuleId, hi.alertRuleId]
      · rw [hj.alertRuleRevisionId, hi.alertRuleRevisionId]
      · rw [hj.revisionId, hi.revisionId]
      · exact hj.embeddingId_eq hwf hi hmode' hmode
    rw [if_pos hsame, if_pos hmode']
  · have hrev : r.matchMode = .reverseAlertStream := by
      cases hm : r.matchMode with
      | historicalPageSearch => exact absurd hm hmode'
      | reverseAlertStream => rfl
    have hsame : ¬ Store.sameHistorical row r = true := by
      intro hsame
      obtain ⟨-, -, -, -, hembedding, -⟩ := of_decide_eq_true hsame
      rw [hj.embeddingId_of_reverse hrev] at hembedding
      exact hi.embeddingId_of_historical hmode hembedding.symm
    rw [if_neg hsame, if_neg hmode']

/-- **The reverse fallback finds the stored row exactly if it is a reverse one for
the same page vector.** -/
theorem find?_sameEvidence (hmode : row.matchMode = .reverseAlertStream) :
    s.matchCandidates.find? (ReverseMatch.sameEvidence i.contentSha256 s row)
      = if r.matchMode = .reverseAlertStream ∧ r.pageEmbeddingSha256 = row.pageEmbeddingSha256
        then some r else none := by
  have hj := stored_identifies hwf hk hi hr hkey
  have huniq : ∀ b ∈ s.matchCandidates,
      ReverseMatch.sameEvidence i.contentSha256 s row b = true → b = r := by
    intro b hb hsame
    obtain ⟨hT, hbkey, -⟩ := of_decide_eq_true (Bool.and_eq_true _ _ ▸ hsame).1
    obtain ⟨hrT, hrkey⟩ := sameMatchKey_iff.mp hkey
    refine hwf.valid.candidate_eq_of_key hb hr (sameMatchKey_iff.mpr ⟨?_, ?_⟩)
    · rw [hT, hrT]
    · rw [hbkey, hrkey]
  rw [find?_eq_of_unique hr huniq]
  by_cases hmode' : r.matchMode = .reverseAlertStream ∧
      r.pageEmbeddingSha256 = row.pageEmbeddingSha256
  · have hsame : ReverseMatch.sameEvidence i.contentSha256 s row r = true := by
      obtain ⟨hrT, hrkey⟩ := sameMatchKey_iff.mp hkey
      rw [ReverseMatch.sameEvidence, Bool.and_eq_true]
      constructor
      · refine decide_eq_true ⟨hrT.symm, hrkey.symm, ?_, ?_, ?_, hmode'.1, ?_, hmode'.2, ?_⟩
        · rw [hj.alertRuleId, hi.alertRuleId]
        · rw [hj.alertRuleRevisionId, hi.alertRuleRevisionId]
        · rw [hj.revisionId, hi.revisionId]
        · exact hj.alertEmbeddingId_eq hwf hi hmode'.1 hmode
        · rw [hj.pageEmbeddingSpace_of_reverse hmode'.1, hi.pageEmbeddingSpace_of_reverse hmode]
      · obtain ⟨v, hv, hvid, hvT, hsha⟩ := hj.content
        refine List.any_eq_true.mpr ⟨v, hv, decide_eq_true ⟨?_, ?_, hsha⟩⟩
        · rw [hvT, hi.tenantId]
        · rw [hvid, hj.revisionId]
    rw [if_pos hsame, if_pos hmode']
  · have hsame : ¬ ReverseMatch.sameEvidence i.contentSha256 s row r = true := by
      intro hsame
      obtain ⟨-, -, -, -, -, hm, -, hsha, -⟩ := of_decide_eq_true (Bool.and_eq_true _ _ ▸ hsame).1
      exact hmode' ⟨hm, hsha⟩
    rw [if_neg hsame, if_neg hmode']

end Offered

/-- A row with an identity in the store has all its targets there. -/
theorem refs_of_identifies (hwf : Wf x db) {row : MatchCandidateRow} {i : MatchIdentity}
    (hi : Identifies x db row i) : matchCandidatesTable.refs db row = true := by
  obtain ⟨v, hv, hvid, hvT, -⟩ := hi.content
  obtain ⟨w, hw, hwid, hwT, hwrule⟩ := hi.owned
  have hpage : (db.pageRevisions.any fun t => decide (t.id = row.revisionId)) = true :=
    List.any_eq_true.mpr ⟨v, hv, by simp [hvid, hi.revisionId]⟩
  have hrule : (db.alertRules.any fun t =>
      decide (t.tenantId = row.tenantId ∧ t.id = row.alertRuleId)) = true := by
    have hrefs := hwf.valid.alertRuleRevisions.refs w hw
    simpa only [alertRuleRevisionsTable, hwT, hwrule, ← hi.tenantId, ← hi.alertRuleId] using hrefs
  have hrevision : (row.alertRuleRevisionId.all fun t => db.alertRuleRevisions.any fun u =>
      decide (u.tenantId = row.tenantId ∧ u.id = t)) = true := by
    rw [hi.alertRuleRevisionId]
    exact List.any_eq_true.mpr ⟨w, hw, by simp [hwid, hwT, hi.tenantId]⟩
  have hevidence := hi.evidence
  unfold Evidence at hevidence
  split at hevidence
  · obtain ⟨hnone, e, he, hre, -⟩ := hevidence
    simp only [matchCandidatesTable, hpage, hrule, hrevision, hnone, hre, Option.all_none,
      Option.all_some, Bool.and_true, Bool.true_and]
    exact List.any_eq_true.mpr ⟨e, he, by simp⟩
  · obtain ⟨hnone, -, a, ha, hra, haT, -⟩ := hevidence
    simp only [matchCandidatesTable, hpage, hrule, hrevision, hnone, hra, Option.all_none,
      Option.all_some, Bool.and_true, Bool.true_and]
    exact List.any_eq_true.mpr ⟨a, ha, by simp [haT]⟩

theorem admits_of_identifies (hwf : Wf x db) {row : MatchCandidateRow} {i : MatchIdentity}
    (hi : Identifies x db row i) (hcheck : matchCandidatesTable.check row = true)
    (hfresh : ∀ r ∈ db.matchCandidates, r.id ≠ row.id)
    (hnew : ∀ r ∈ db.matchCandidates, row.sameMatchKey r = false) :
    matchCandidatesTable.Admits db db.matchCandidates row := by
  refine ⟨hcheck, fun r hr => ?_, refs_of_identifies hwf hi⟩
  simp only [matchCandidatesTable, hnew r hr, Bool.or_false, decide_eq_false_iff_not]
  exact fun h => hfresh r hr h.symm

end EmbeddedAlerts
