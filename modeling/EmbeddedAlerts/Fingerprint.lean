import EmbeddedAlerts.Recrawl
import EmbeddedAlerts.WriteOnce

/-!
# The fingerprint of a vector

`reverse_match::embedding_sha256` feeds SHA-256 the four bytes of each number of a
vector, after `-0.0` has become `+0.0`, with no length before them.  Every number
takes four bytes, so the stream can be cut again and **nothing is lost but the sign of
zeros** (`ReverseMatch.embeddingSha256_eq_iff`).

Two places compare fingerprints.  `upsert_alert_rule_embedding` refuses a vector for a
model space that has another one, and `persist_reverse_candidate` takes a stored row
as its own if, with the rest of the evidence, the fingerprint of the page vector is
the same.
-/

namespace EmbeddedAlerts

open Sql

variable {x : Platform} {db s : Db}

namespace ReverseMatch

/-- The vectors agree place by place, once `-0.0` has become `+0.0`. -/
theorem sameVector_iff (u v : List F32Bits) :
    SameVector u v ↔ u.length = v.length ∧
      ∀ (i : ℕ) a b, u[i]? = some a → v[i]? = some b → canonicalBits a = canonicalBits b := by
  constructor
  · intro h
    have hlength := congrArg List.length h
    rw [List.length_map, List.length_map] at hlength
    refine ⟨hlength, fun i a b ha hb => ?_⟩
    have hi := congrArg (·[i]?) h
    simp only [List.getElem?_map, ha, hb, Option.map_some] at hi
    exact Option.some.inj hi
  · rintro ⟨hlength, hplaces⟩
    refine List.ext_getElem? fun i => ?_
    rw [List.getElem?_map, List.getElem?_map]
    by_cases hi : i < u.length
    · have hi' : i < v.length := hlength ▸ hi
      rw [List.getElem?_eq_getElem hi, List.getElem?_eq_getElem hi', Option.map_some,
        Option.map_some, hplaces i u[i] v[i] (List.getElem?_eq_getElem hi)
          (List.getElem?_eq_getElem hi')]
    · rw [List.getElem?_eq_none (by omega), List.getElem?_eq_none (by omega)]

instance (u v : List F32Bits) : Decidable (SameVector u v) := inferInstanceAs (Decidable (_ = _))

end ReverseMatch

/-! ### The two comparisons -/

theorem ReverseMatch.persistStatement_of_stored (contentSha256 : String)
    {row r : MatchCandidateRow} (hcheck : matchCandidatesTable.check row = true)
    (hr : r ∈ s.matchCandidates) (hmatch : row.sameMatchKey r = true) :
    persistStatement contentSha256 row s s =
      .ok ((s.matchCandidates.find? (sameEvidence contentSha256 s row)).map fun r => (r, false),
        s) := by
  rw [persistStatement, Constraints.insertOrSelect_of_conflict hcheck hr hmatch]
  rfl

open ReverseMatch in
/-- **The conflict test**: on its target, a call for a model space that has its row
succeeds exactly if it brings the vector of the row. -/
theorem AlertEmbed.exec_eq_sameVector (hx : x.Lawful) (hc : x.CollisionFree)
    {log : List (AlertEmbed × Db)} (hrun : AlertEmbed.Run x log db) {c : AlertEmbed}
    (hv : x.validateEmbedding c.request.embedding = .ok ()) (htarget : c.OnTarget db)
    {a : AlertRuleEmbeddingRow} (ha : a ∈ db.alertRuleEmbeddings) (hkey : a.key = c.key) :
    c.exec x db = (if SameVector a.embedding c.request.embedding.values then
        .ok (a.receipt false)
      else .error (.conflict
        "an immutable embedding already exists for this alert revision and model space"), db) := by
  have hinv := hrun.inv hx
  have hsame : a.embeddingSha256 = (c.offer x).embeddingSha256 ↔
      SameVector a.embedding c.request.embedding.values := by
    rw [hinv.fingerprint a ha]
    exact embeddingSha256_eq_iff hc _ _
  rw [AlertEmbed.exec_known hv hinv.wf htarget ha hkey]
  simp only [hsame]

open ReverseMatch in
/-- **The comparison of evidence**: a rule that a call has found, and whose match with
the page revision is stored as a reverse row, is answered with this row exactly if the
call brings the page vector of the row. -/
theorem ReverseIngest.turnAt_eq_sameVector (hx : x.Lawful) (hc : x.CollisionFree) (hwf : Wf x s)
    {c : ReverseIngest} {page : PageWire} {wire : CandidateWire} (n : ℕ)
    (hv : x.validateEmbedding c.request.embedding = .ok ())
    (hpage : PageOf c.tenantId c.sourceId page s)
    (hwire : Reached x c.tenantId c.sourceId c.request.embedding s wire)
    {r : MatchCandidateRow} (hr : r ∈ s.matchCandidates)
    (htenant : r.tenantId = c.tenantId) (hkey : r.canonicalMatchKey =
      matchKey x (matchIdentity c.tenantId page c.request.embedding.toModelSpace wire))
    (hmode : r.matchMode = .reverseAlertStream) {u : List F32Bits}
    (hvector : r.pageEmbeddingSha256 = some (embeddingSha256 x u)) :
    c.turnAt x page (wire, n) s =
      (if SameVector u c.request.embedding.values then .ok (candidateJson x r)
        else .error (.conflict "canonical match identity exists with different evidence"), s) := by
  have hk : Function.Injective (Store.matchKey x) := fun _ _ h => Store.matchKey_inj hc h
  have hident := hwire.identifies hpage c.now (c.ids (n + 2)) c.finalUrl
  have hmatch : (newCandidate x c.now (c.ids (n + 2)) c.tenantId page c.request.embedding
      c.finalUrl wire).sameMatchKey r = true := sameMatchKey_iff.mpr ⟨htenant.symm, hkey.symm⟩
  have hcheck : matchCandidatesTable.check (newCandidate x c.now (c.ids (n + 2)) c.tenantId page
      c.request.embedding c.finalUrl wire) = true := offer_check hx hwf hv page n hwire
  have hsame : r.matchMode = .reverseAlertStream ∧
      r.pageEmbeddingSha256 = some (embeddingSha256 x c.request.embedding.values) ↔
        SameVector u c.request.embedding.values := by
    rw [hvector, Option.some.injEq, embeddingSha256_eq_iff hc]
    exact ⟨fun h => h.2, fun h => ⟨hmode, h⟩⟩
  have hfind : s.matchCandidates.find? (sameEvidence page.contentSha256 s (newCandidate x c.now
      (c.ids (n + 2)) c.tenantId page c.request.embedding c.finalUrl wire)) =
      if SameVector u c.request.embedding.values then some r else none := by
    simp only [← hsame]
    exact find?_sameEvidence hwf hk hident hr hmatch rfl
  have hstatement := persistStatement_of_stored page.contentSha256 hcheck hr hmatch
  rw [hfind] at hstatement
  by_cases hvectors : SameVector u c.request.embedding.values
  · rw [if_pos hvectors] at hstatement ⊢
    exact turnAt_of_some (d := s) hstatement
  · rw [if_neg hvectors] at hstatement ⊢
    exact turnAt_of_none (d := s) hstatement

open ReverseMatch in
/-- **The fingerprint identifies vectors up to the sign of zero**, and so do the two
comparisons that rest on it. -/
theorem vector_fingerprint (x : Platform) (hc : x.CollisionFree) :
    (∀ u v, embeddingSha256 x u = embeddingSha256 x v ↔ SameVector u v) ∧
    (∀ u v, SameVector u v ↔ u.length = v.length ∧
      ∀ (i : ℕ) a b, u[i]? = some a → v[i]? = some b → canonicalBits a = canonicalBits b) ∧
    (x.Lawful → ∀ log db, AlertEmbed.Run x log db → ∀ c : AlertEmbed,
      x.validateEmbedding c.request.embedding = .ok () → c.OnTarget db →
      ∀ a ∈ db.alertRuleEmbeddings, a.key = c.key →
        c.exec x db = (if SameVector a.embedding c.request.embedding.values then
            .ok (a.receipt false)
          else .error (.conflict
            "an immutable embedding already exists for this alert revision and model space"),
          db)) ∧
    (x.Lawful → ∀ s, Wf x s → ∀ (c : ReverseIngest) (page : PageWire) (wire : CandidateWire) (n : ℕ),
      x.validateEmbedding c.request.embedding = .ok () → PageOf c.tenantId c.sourceId page s →
      Reached x c.tenantId c.sourceId c.request.embedding s wire →
      ∀ r ∈ s.matchCandidates, r.tenantId = c.tenantId → r.canonicalMatchKey =
        matchKey x (matchIdentity c.tenantId page c.request.embedding.toModelSpace wire) →
      r.matchMode = .reverseAlertStream → ∀ u, r.pageEmbeddingSha256 = some (embeddingSha256 x u) →
        persistReverseCandidate x c.now (c.ids (n + 2)) c.tenantId page c.request.embedding
            c.finalUrl wire s =
          (if SameVector u c.request.embedding.values then .ok (candidateJson x r)
            else .error (.conflict "canonical match identity exists with different evidence"),
          s)) := by
  refine ⟨embeddingSha256_eq_iff hc, sameVector_iff, ?_, ?_⟩
  · intro hx log db hrun c hv htarget a ha hkey
    exact AlertEmbed.exec_eq_sameVector hx hc hrun hv htarget ha hkey
  · intro hx s hwf c page wire n hv hpage hwire r hr htenant hkey hmode u hvector
    exact ReverseIngest.turnAt_eq_sameVector hx hc hwf n hv hpage hwire hr htenant hkey hmode hvector

/-! ### A scenario -/

namespace Scenario

/-- The vector `(1, -0, 0, 0)`. -/
def negatedAxis : List F32Bits := [one, 0x80000000, 0, 0]

/-- The page as it was stored by the first crawl. -/
def crawledPage : ReverseMatch.PageWire where
  pageId := 40
  pageRevisionId := 41
  contentSha256 := ReverseMatch.contentSha256 Platform.sample (page axis).contentText
  changed := false

/-- The rule, at the similarity of its own vector. -/
def foundRule : ReverseMatch.CandidateWire where
  alertRuleId := 20
  alertRuleRevisionId := 21
  alertEmbeddingId := 25
  similarity := 1
  threshold := 1 / 4

end Scenario

open Scenario in
/-- A rule is embedded again with a negated zero, and a page is crawled again with
another vector. -/
theorem vector_fingerprint_sample :
    ReverseMatch.embeddingSha256 Platform.sample axis =
      ReverseMatch.embeddingSha256 Platform.sample negatedAxis ∧
    (alertEmbed 26 negatedAxis).exec Platform.sample embeddedOnce =
      (.ok (embeddingRow.receipt false), embeddedOnce) ∧
    (reverseIngest 60 axis).turnAt Platform.sample crawledPage (foundRule, 0) crawled =
      (.error (.conflict "canonical match identity exists with different evidence"), crawled) := by
  obtain ⟨hsha, -, hembed, hpersist⟩ :=
    vector_fingerprint Platform.sample Platform.sample_collisionFree
  have hsame : ReverseMatch.SameVector axis negatedAxis := by decide
  refine ⟨(hsha _ _).mpr hsame, ?_, ?_⟩
  · have hfirst : (alertEmbed 25 axis).exec Platform.sample ruled
        = (.ok (embeddingRow.receipt true), embeddedOnce) := by decide +kernel
    have hrun : AlertEmbed.Run Platform.sample [(alertEmbed 25 axis, ruled)] embeddedOnce := by
      have hcall := AlertEmbed.Run.call run_ruled (alertEmbed 25 axis)
      rwa [AlertEmbed.after, hfirst] at hcall
    have htarget : (alertEmbed 26 negatedAxis).OnTarget embeddedOnce := by
      unfold AlertEmbed.OnTarget HasTarget
      decide +kernel
    have hexec := hembed Platform.sample_lawful _ _ hrun (alertEmbed 26 negatedAxis) rfl htarget
      embeddingRow List.mem_cons_self rfl
    have hvectors : ReverseMatch.SameVector embeddingRow.embedding
        (alertEmbed 26 negatedAxis).request.embedding.values := hsame
    rw [hexec, if_pos hvectors]
  · have hother : ¬ ReverseMatch.SameVector diagonal axis := by decide
    have hpage : ReverseMatch.PageOf 1 10 crawledPage crawled := by
      unfold ReverseMatch.PageOf
      decide +kernel
    have hfound : ReverseMatch.Reached Platform.sample 1 10 ⟨space, axis⟩ crawled foundRule := by
      obtain ⟨alert, halert, hwire⟩ : ∃ alert ∈ ReverseMatch.reachedAlerts Platform.sample 1 10
          ⟨space, axis⟩ crawled, alert.intoWire Platform.sample = .ok foundRule := by
        decide +kernel
      exact ReverseMatch.mem_reachedAlerts halert hwire
    obtain ⟨r, hr, htenant, hkey, hmode, hvector⟩ : ∃ r ∈ crawled.matchCandidates,
        r.tenantId = 1 ∧ r.canonicalMatchKey = ReverseMatch.matchKey Platform.sample
          (ReverseMatch.matchIdentity 1 crawledPage space foundRule) ∧
        r.matchMode = .reverseAlertStream ∧
        r.pageEmbeddingSha256 = some (ReverseMatch.embeddingSha256 Platform.sample diagonal) := by
      decide +kernel
    have hwf := (reverseRun_crawled.reverseOnly Platform.sample_lawful).1
    have hexec := hpersist Platform.sample_lawful crawled hwf (reverseIngest 60 axis) crawledPage
      foundRule 0 rfl hpage hfound r hr htenant hkey hmode diagonal hvector
    have hvectors : ¬ ReverseMatch.SameVector diagonal
        (reverseIngest 60 axis).request.embedding.values := hother
    rw [if_neg hvectors] at hexec
    exact hexec

end EmbeddedAlerts
