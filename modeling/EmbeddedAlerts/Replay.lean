import EmbeddedAlerts.Recrawl
import EmbeddedAlerts.Resend

/-!
# Replaying a page

A call of `ingest_and_reverse_match` that succeeded is repeated any number of times,
with rules being created and embedded and other pages being matched in between.

`Replaying` is the invariant of such a run: what has been returned so far is stored,
and the candidates of the page revision that were not there before the first call
have its page vector.  The candidate of a rule can be in the way of the next
repetition in one case only: it is a historical one, for a rule that had no embedding
when the page was sent first.

`replay_idempotent_iff`: **every repetition is answered as the first call was exactly
if none meets such a candidate.**  `replay_conflicts` is a run in which one does.
-/

namespace EmbeddedAlerts

open Sql Relation

variable {x : Platform} {db d d' s : Db} {c : ReverseIngest}

/-! ### Runs -/

/-- A repetition of the call, or what may come between two of them. -/
inductive ReplayStep where
  | replay (now : Timestamp) (ids : ℕ → Uuid)
  | createRecord (auth : AuthContext) (supply : Supply) (input : CreateAlertRule)
  | upsertAlertEmbedding (auth : AuthContext) (supply : Supply) (alertRuleId : Uuid)
      (input : ReverseMatch.AlertRuleEmbeddingUpsertRequest)
  | reverse (other : ReverseIngest)

namespace ReplayStep

def after (x : Platform) (c : ReverseIngest) : ReplayStep → Db → Db
  | .replay now ids, db => (c.again now ids).after x db
  | .createRecord auth supply input, db => Call.after x ⟨auth, supply, .createRecord input⟩ db
  | .upsertAlertEmbedding auth supply alertRuleId input, db =>
    Call.after x ⟨auth, supply, .upsertAlertEmbedding alertRuleId input⟩ db
  | .reverse other, db => other.after x db

/-- `P` holds of every step of the run and the store it meets. -/
def Along (x : Platform) (c : ReverseIngest) (P : Db → ReplayStep → Prop) :
    Db → List ReplayStep → Prop
  | _, [] => True
  | db, step :: steps => P db step ∧ Along x c P (step.after x c db) steps

/-- A repetition draws UUIDs nobody has; a call in between is for another page. -/
def Admissible (c : ReverseIngest) (db : Db) : ReplayStep → Prop
  | .replay _ ids => FreshIds db ids (c.request.maxCandidates.toNat + 2)
  | .reverse other => ¬ (other.tenantId = c.tenantId ∧ other.sourceId = c.sourceId ∧
      other.finalUrl = c.finalUrl)
  | _ => True

/-- A repetition finds no rule that has a historical candidate for the page
revision. -/
def Unobstructed (x : Platform) (c : ReverseIngest) (db : Db) : ReplayStep → Prop
  | .replay _ _ => c.Unobstructed x db
  | _ => True

end ReplayStep

/-- There is at most one candidate for a rule revision, a page revision and a model
space. -/
def OneCandidateEach (db : Db) : Prop :=
  ∀ T ruleRevision pageRevision space, ∀ r ∈ db.matchCandidates, ∀ s ∈ db.matchCandidates,
    r.For T ruleRevision pageRevision space → s.For T ruleRevision pageRevision space → r = s

/-- Every repetition in the run is answered like `first`.  `seen` is what has been
returned so far, and `untouched` says that nothing but repetitions has happened. -/
def Replays (x : Platform) (c : ReverseIngest) (first : ReverseMatch.ReverseAlertMatchResponse) :
    List ReverseMatch.ReverseAlertCandidate → Bool → Db → List ReplayStep → Prop
  | _, _, _, [] => True
  | seen, untouched, db, .replay now ids :: steps => ∃ result s,
      (c.again now ids).exec x db = (.ok result, s) ∧
      result.changed = false ∧
      result.pageId = first.pageId ∧ result.pageRevisionId = first.pageRevisionId ∧
      OneCandidateEach s ∧
      (∀ candidate ∈ result.candidates, ∀ earlier ∈ seen,
        candidate.alertRuleId = earlier.alertRuleId → candidate = earlier) ∧
      (untouched = true → result.candidates = first.candidates) ∧
      Replays x c first (seen ++ result.candidates) untouched s steps
  | seen, _, db, step :: steps => Replays x c first seen false (step.after x c db) steps

/-! ### The invariant -/

/-- What holds in the store `d` at any time after the call `c` was answered for the
rules `wires` with `first`. -/
structure Replaying (x : Platform) (db : Db) (c : ReverseIngest) (v : PageRevisionRow)
    (wires : List ReverseMatch.CandidateWire)
    (first : ReverseMatch.ReverseAlertMatchResponse)
    (seen : List ReverseMatch.ReverseAlertCandidate) (untouched : Bool) (d : Db) : Prop where
  wf : Wf x d
  kept : Kept db d
  recorded : c.Recorded x d v
  rows : ∀ r ∈ d.matchCandidates, r.revisionId = v.id →
    r ∈ db.matchCandidates ∨ c.NewRow x v.id r
  answered : List.Forall₂ (fun wire => c.RowFor x v.id d wire.alertRuleRevisionId) wires
    first.candidates
  returned : ∀ candidate ∈ seen, c.Returned x v.id d candidate
  found : untouched = true →
    (ReverseMatch.findAlertCandidates x c.tenantId c.sourceId c.request d).1 = .ok wires

namespace Replaying

variable {v : PageRevisionRow} {wires : List ReverseMatch.CandidateWire}
  {first : ReverseMatch.ReverseAlertMatchResponse}
  {seen : List ReverseMatch.ReverseAlertCandidate} {untouched : Bool}

theorem start (hx : x.Lawful) (hwf : Wf x db) (h : c.First x db v wires first s) :
    Replaying x db c v wires first first.candidates true s := by
  have hsteps : Steps x (fun _ _ => True) c.tenantId db (c.after x db) :=
    c.after_steps fun _ _ _ _ => trivial
  rw [ReverseIngest.after, h.run] at hsteps
  have hwf' := hwf.steps hsteps
  have happends := ReverseIngest.exec_appends hx h.run
  rw [← h.revisionId] at happends
  have hfound : (ReverseMatch.findAlertCandidates x c.tenantId c.sourceId c.request s).1
      = .ok wires := by
    rw [happends.findAlertCandidates, h.found]
  have hanswered := h.answered
  rw [← h.revisionId] at hanswered
  refine ⟨hwf', ⟨hsteps.grows, ?_⟩, h.recorded, fun r hr _ => happends.rows r hr, ?_, ?_,
    fun _ => hfound⟩
  · rw [happends.alertRules]
    exact List.Subset.refl _
  · refine hanswered.imp ?_
    rintro wire candidate ⟨row, hrow, hjson, hfor, -⟩
    exact ⟨row, hrow, hjson, hfor⟩
  · intro candidate hcandidate
    obtain ⟨wire, hwire, hanswer⟩ := exists_of_forall₂_right hanswered hcandidate
    have hreached := (ReverseMatch.findAlertCandidates_ok (Prod.ext hfound rfl)).2 wire hwire
    exact hanswer.returned hwf' hreached

variable (h : Replaying x db c v wires first seen untouched d)

include h

theorem later (hwf : Wf x d') (hkept : Kept d d')
    (hrows : ∀ r ∈ d'.matchCandidates, r.revisionId = v.id →
      r ∈ d.matchCandidates ∨ c.NewRow x v.id r) :
    Replaying x db c v wires first seen false d' where
  wf := hwf
  kept := h.kept.trans hkept
  recorded := h.recorded.mono hkept.grows
  rows r hr hid := by
    rcases hrows r hr hid with hr | hnew
    · exact h.rows r hr hid
    · exact Or.inr hnew
  answered := h.answered.imp fun _ _ hrow => hrow.mono hkept.grows
  returned candidate hcandidate := (h.returned candidate hcandidate).mono hkept
  found hfalse := by cases hfalse

theorem call (hx : x.Lawful) (call : Call) (he : ∀ input, call.request ≠ .evaluateMatches input)
    (hr : ∀ sourceId input, call.request ≠ .reverseMatchPage sourceId input)
    (hrules : RulesKept d (call.after x d)) :
    Replaying x db c v wires first seen false (call.after x d) := by
  have hsteps : Steps x (fun _ _ => False) call.auth.tenantId d (call.after x d) :=
    Call.after_steps_of_not_path hx h.wf he hr
  refine h.later (h.wf.steps hsteps) ⟨hsteps.grows, hrules⟩ fun r hr _ => ?_
  rw [hsteps.matchCandidates_eq] at hr
  exact Or.inl hr

theorem reverse (hx : x.Lawful) {other : ReverseIngest} (hother : ¬ (other.tenantId = c.tenantId ∧
      other.sourceId = c.sourceId ∧ other.finalUrl = c.finalUrl)) :
    Replaying x db c v wires first seen false (other.after x d) := by
  have hsteps : Steps x (fun _ _ => True) other.tenantId d (other.after x d) :=
    other.after_steps fun _ _ _ _ => trivial
  have hwf := h.wf.steps hsteps
  rcases hrun : other.exec x d with ⟨e | result, t⟩
  · have hsame : other.after x d = d := by
      rw [ReverseIngest.after, hrun]
      exact ReverseIngest.exec_failed hrun
    rw [hsame]
    exact h.later h.wf (Kept.refl d) fun r hr _ => Or.inl hr
  · rw [ReverseIngest.after, hrun] at hsteps hwf ⊢
    have happends := ReverseIngest.exec_appends hx hrun
    refine h.later hwf ⟨hsteps.grows, ?_⟩ fun r hr hid => ?_
    · rw [happends.alertRules]
      exact List.Subset.refl _
    · refine (happends.rows r hr).imp id fun hnew => ?_
      -- the revision of the other page is not the revision of this one
      obtain ⟨w, hrec, hwid, -⟩ := ReverseIngest.exec_recorded hx hrun
      have hrec' := h.recorded.mono hsteps.grows
      have hwv : w = v :=
        hwf.valid.pageRevision_eq hrec.mem hrec'.mem (hwid.trans (hnew.revisionId.symm.trans hid))
      obtain ⟨p, hp, hpid, hpT, hpsource, hpurl⟩ := hrec.page
      obtain ⟨q, hq, hqid, hqT, hqsource, hqurl⟩ := hrec'.page
      have hpq : p = q := hwf.valid.page_eq hp hq (by rw [hpid, hqid, hwv])
      refine absurd ⟨?_, ?_, ?_⟩ hother
      · rw [← hpT, ← hqT, hpq]
      · rw [← hpsource, ← hqsource, hpq]
      · rw [← hpurl, ← hqurl, hpq]

section Replay

variable (hx : x.Lawful) (hk : Function.Injective (Store.matchKey x)) (hwf : Wf x db)
  (hfirst : c.First x db v wires first s)

include hx hwf hfirst

/-- **Only a historical candidate is in the way.**  A reverse candidate from another
page vector was there before the first call, so its rule was embedded; if it is
found now, it was found then, and then the first call had failed. -/
theorem free (hfree : c.Unobstructed x d) {wires' : List ReverseMatch.CandidateWire}
    (hwires : ReverseMatch.findAlertCandidates x c.tenantId c.sourceId c.request d
      = (.ok wires', d)) : ∀ wire ∈ wires', ¬ c.Blocked x d wire := by
  rintro wire hwire ⟨w, hrec, r, hr, hfor, hother⟩
  obtain rfl := hrec.eq h.wf h.recorded
  obtain ⟨alert, halert, hrev⟩ := ReverseIngest.exists_alert hwires hwire
  rw [hrev] at hfor
  have hreverse : r.matchMode = .reverseAlertStream := by
    cases hm : r.matchMode with
    | historicalPageSearch => exact absurd hm (hfree alert halert w hrec r hr hfor)
    | reverseAlertStream => rfl
  rcases h.rows r hr hfor.revisionId with hold | hnew
  · obtain ⟨i, hi⟩ := hwf.candidate r hold
    have hevidence := hi.evidence
    rw [Evidence, hreverse] at hevidence
    obtain ⟨-, -, a, ha, -, haT, -, harev, haspace⟩ := hevidence
    have hranked := List.mem_of_mem_take halert
    rw [ranking, mem_sorted, mem_reachedAlerts_iff hx h.wf] at hranked
    obtain ⟨rule, revision, e, hq, rfl⟩ := hranked
    -- the embedding of the rule is the one the candidate was made from
    have hea : e = a := by
      refine h.wf.valid.alertRuleEmbedding_eq_of_space hq.embeddingMem
        (h.kept.grows.alertRuleEmbeddings ha) (decide_eq_true ⟨?_, ?_, ?_⟩)
      · rw [(embedding_own h.wf hq.embeddingMem hq.revisionMem hq.embedded).1,
          (active_own h.wf hq.mem hq.revisionMem hq.active).1, hq.tenantId, haT, hfor.tenantId]
      · rw [hfor.alertRuleRevisionId] at harev
        rw [hq.embedded]
        exact Option.some.inj harev
      · rw [hq.space, haspace, ← hi.explained, hfor.space]
    rw [← hea] at ha
    have hearlier := mem_take_ranking_earlier hx hwf h.wf h.kept hq ha halert
    obtain ⟨wire0, hwire0, hrev0⟩ := ReverseIngest.exists_wire hfirst.found hearlier
    -- the page revision was recorded before the first call, since it had a candidate
    obtain ⟨w0, hw0, hw0id, -⟩ := hi.content
    have hw0w : w0 = w := by
      refine h.wf.valid.pageRevision_eq (h.kept.grows.pageRevisions hw0) hrec.mem ?_
      rw [hw0id, ← hi.revisionId, hfor.revisionId]
    rw [hw0w] at hw0
    rw [← hrev0] at hfor
    exact hfirst.free wire0 hwire0
      ⟨w, hrec.earlier hwf h.wf h.kept.grows hw0, r, hold, hfor, hother⟩
  · exact hother ⟨hnew.matchMode, hnew.fingerprint⟩

include hk

/-- **A repetition that meets no historical candidate is answered as the first call
was**, and the invariant goes on. -/
theorem replay {now : Timestamp} {ids : ℕ → Uuid} (hvalid : c.Valid x db)
    (hids : FreshIds d ids (c.request.maxCandidates.toNat + 2)) (hfree : c.Unobstructed x d) :
    ∃ result t, (c.again now ids).exec x d = (.ok result, t) ∧
      result.changed = false ∧
      result.pageId = first.pageId ∧ result.pageRevisionId = first.pageRevisionId ∧
      OneCandidateEach t ∧
      (∀ candidate ∈ result.candidates, ∀ earlier ∈ seen,
        candidate.alertRuleId = earlier.alertRuleId → candidate = earlier) ∧
      (untouched = true → result.candidates = first.candidates) ∧
      Replaying x db c v wires first (seen ++ result.candidates) untouched t := by
  obtain ⟨source, hsource, hsourceId⟩ := hvalid.source
  have hv : (c.again now ids).Valid x d :=
    ⟨hvalid.request, ⟨source, h.kept.grows.sources hsource, hsourceId⟩, hids⟩
  have hrecorded : (c.again now ids).Recorded x d v :=
    ⟨h.recorded.mem, h.recorded.tenantId, h.recorded.content, h.recorded.page⟩
  obtain ⟨wires', hwires⟩ : ∃ wires', ReverseMatch.findAlertCandidates x c.tenantId c.sourceId
      c.request d = (.ok wires', d) :=
    ReverseIngest.findAlertCandidates_total (c := c.again now ids) hx h.wf hv
  have hunblocked : ∀ wire ∈ wires', ¬ (c.again now ids).Blocked x d wire := by
    rintro wire hwire ⟨w, hrec, hrow⟩
    exact h.free hx hwf hfirst hfree hwires wire hwire
      ⟨w, ⟨hrec.mem, hrec.tenantId, hrec.content, hrec.page⟩, hrow⟩
  obtain ⟨result, t, hrun, hall⟩ := ReverseIngest.exec_ok hx hk h.wf hv hwires hunblocked
  have hpage : result.pageId = v.pageId ∧ result.pageRevisionId = v.id ∧
      result.changed = false := by
    obtain ⟨page, _, _, _, hpage, -, -, rfl⟩ := ReverseIngest.exec_inv hx hrun
    exact ReverseIngest.upsertPageRevision_again h.wf hrecorded hpage
  obtain ⟨hpageId, hrevisionId, hchanged⟩ := hpage
  have hsteps : Steps x (fun _ _ => True) c.tenantId d ((c.again now ids).after x d) :=
    (c.again now ids).after_steps fun _ _ _ _ => trivial
  rw [ReverseIngest.after, hrun] at hsteps
  have hwf' := h.wf.steps hsteps
  have happends := ReverseIngest.exec_appends hx hrun
  have hkept : Kept d t := ⟨hsteps.grows, by rw [happends.alertRules]; exact List.Subset.refl _⟩
  rw [hrevisionId] at happends hall
  have hfound : (ReverseMatch.findAlertCandidates x c.tenantId c.sourceId c.request t).1
      = .ok wires' := by
    rw [happends.findAlertCandidates, hwires]
  have hreturned : ∀ candidate ∈ result.candidates, c.Returned x v.id t candidate := by
    intro candidate hcandidate
    obtain ⟨wire, hwire, hanswer⟩ := exists_of_forall₂_right hall hcandidate
    have hreached := (ReverseMatch.findAlertCandidates_ok (Prod.ext hfound rfl)).2 wire hwire
    exact hanswer.returned hwf' hreached
  refine ⟨result, t, hrun, hchanged, hpageId.trans hfirst.pageId,
    hrevisionId.trans hfirst.revisionId, ?_, ?_, fun huntouched => ?_, hwf',
    h.kept.trans hkept, h.recorded.mono hkept.grows, fun r hr hid => ?_, ?_, ?_, fun huntouched => ?_⟩
  · intro T ruleRevision pageRevision space r hr r' hr'
    exact combination_unique hk hwf' hr hr'
  · intro candidate hcandidate earlier hearlier hrule
    exact (hreturned candidate hcandidate).unique hk hwf'
      ((h.returned earlier hearlier).mono hkept) hrule
  · -- the same rules are found, and each has one candidate
    have hsame : wires' = wires := by
      have hwires' := h.found huntouched
      rw [hwires] at hwires'
      exact Except.ok.inj hwires'
    rw [hsame] at hall
    have hold := h.answered.imp fun _ _ hrow => hrow.mono hkept.grows
    refine List.right_unique_forall₂' (fun _ _ _ hrow hrow' => hrow.unique hk hwf' hrow')
      (hall.imp ?_) hold
    rintro wire candidate ⟨row, hrow, hjson, hfor, -⟩
    exact ⟨row, hrow, hjson, hfor⟩
  · rcases happends.rows r hr with hr | hnew
    · exact h.rows r hr hid
    · exact Or.inr ⟨hnew.revisionId, hnew.matchMode, hnew.fingerprint⟩
  · exact h.answered.imp fun _ _ hrow => hrow.mono hkept.grows
  · intro candidate hcandidate
    rcases List.mem_append.mp hcandidate with hold | hnew
    · exact (h.returned candidate hold).mono hkept
    · exact hreturned candidate hnew
  · rw [happends.findAlertCandidates]
    exact h.found huntouched

end Replay

end Replaying

/-! ### Runs of repetitions -/

theorem createRecord_rules (auth : AuthContext) (supply : Supply) (input : CreateAlertRule)
    (db : Db) : RulesKept db (Call.after x ⟨auth, supply, .createRecord input⟩ db) :=
  moves_return (Routes.moves_validated_bind fun _ _ => AlertStore.createAlertRule_rules db)

theorem upsertAlertEmbedding_rules (auth : AuthContext) (supply : Supply) (alertRuleId : Uuid)
    (input : ReverseMatch.AlertRuleEmbeddingUpsertRequest) (db : Db) :
    RulesKept db (Call.after x ⟨auth, supply, .upsertAlertEmbedding alertRuleId input⟩ db) :=
  moves_return (Routes.moves_validated_bind fun _ _ => ReverseMatch.upsertAlertRuleEmbedding_rules db)

/-- **Every repetition is answered as the first call was exactly if none meets a
historical candidate.** -/
theorem replays_iff_unobstructed (hx : x.Lawful) (hk : Function.Injective (Store.matchKey x))
    (hwf : Wf x db) (hvalid : c.Valid x db) {v : PageRevisionRow}
    {wires : List ReverseMatch.CandidateWire} {first : ReverseMatch.ReverseAlertMatchResponse}
    (hfirst : c.First x db v wires first s) (steps : List ReplayStep) :
    ∀ {seen : List ReverseMatch.ReverseAlertCandidate} {untouched : Bool} {d : Db},
      Replaying x db c v wires first seen untouched d →
      ReplayStep.Along x c (ReplayStep.Admissible c) d steps →
      (Replays x c first seen untouched d steps ↔
        ReplayStep.Along x c (ReplayStep.Unobstructed x c) d steps) := by
  induction steps with
  | nil =>
    intro _ _ _ _ _
    exact Iff.rfl
  | cons step steps ih =>
    intro seen untouched d h hsteps
    obtain ⟨hstep, hsteps⟩ := hsteps
    cases step with
    | replay now ids =>
      constructor
      · rintro ⟨result, t, hrun, -, -, -, -, -, -, hrest⟩
        obtain ⟨source, hsource, hsourceId⟩ := hvalid.source
        have hv : (c.again now ids).Valid x d :=
          ⟨hvalid.request, ⟨source, h.kept.grows.sources hsource, hsourceId⟩, hstep⟩
        have hfree : c.Unobstructed x d := by
          intro alert halert w hrec
          exact ReverseIngest.unobstructed_of_ok hx hk h.wf hv hrun alert halert w
            ⟨hrec.mem, hrec.tenantId, hrec.content, hrec.page⟩
        obtain ⟨result', t', hrun', -, -, -, -, -, -, hnext⟩ :=
          h.replay hx hk hwf hfirst hvalid hstep hfree
        obtain ⟨hresult, rfl⟩ := Prod.mk.inj (hrun'.symm.trans hrun)
        obtain rfl := Except.ok.inj hresult
        have hafter : ReplayStep.after x c (.replay now ids) d = t' := congrArg Prod.snd hrun
        rw [hafter] at hsteps
        refine ⟨hfree, ?_⟩
        rw [hafter]
        exact (ih hnext hsteps).mp hrest
      · rintro ⟨hfree, hrest⟩
        obtain ⟨result, t, hrun, h1, h2, h3, h4, h5, h6, hnext⟩ :=
          h.replay hx hk hwf hfirst hvalid hstep hfree
        have hafter : ReplayStep.after x c (.replay now ids) d = t := congrArg Prod.snd hrun
        rw [hafter] at hsteps hrest
        exact ⟨result, t, hrun, h1, h2, h3, h4, h5, h6, (ih hnext hsteps).mpr hrest⟩
    | createRecord auth supply input =>
      have hnext := h.call hx ⟨auth, supply, .createRecord input⟩ (fun _ h => by cases h)
        (fun _ _ h => by cases h) (createRecord_rules auth supply input d)
      exact (ih hnext hsteps).trans ⟨fun hrest => ⟨trivial, hrest⟩, fun hrest => hrest.2⟩
    | upsertAlertEmbedding auth supply alertRuleId input =>
      have hnext := h.call hx ⟨auth, supply, .upsertAlertEmbedding alertRuleId input⟩
        (fun _ h => by cases h) (fun _ _ h => by cases h)
        (upsertAlertEmbedding_rules auth supply alertRuleId input d)
      exact (ih hnext hsteps).trans ⟨fun hrest => ⟨trivial, hrest⟩, fun hrest => hrest.2⟩
    | reverse other =>
      have hnext := h.reverse hx hstep
      exact (ih hnext hsteps).trans ⟨fun hrest => ⟨trivial, hrest⟩, fun hrest => hrest.2⟩

/-- **Reverse matching can be repeated as long as no repetition finds a rule with a
historical candidate for the page**: it then returns `Ok`, with the same page and
revision, nothing changed and no second candidate for a combination; a rule that was
returned before is returned with the same candidate; and if nothing happened in
between, so is the whole list. -/
theorem replay_idempotent_iff (hx : x.Lawful) (hk : Function.Injective (Store.matchKey x))
    (hdb : Reachable x db) (hvalid : c.Valid x db)
    {first : ReverseMatch.ReverseAlertMatchResponse} (hfirst : c.exec x db = (.ok first, s))
    (steps : List ReplayStep) (hsteps : ReplayStep.Along x c (ReplayStep.Admissible c) s steps) :
    Replays x c first first.candidates true s steps ↔
      ReplayStep.Along x c (ReplayStep.Unobstructed x c) s steps := by
  have hwf := hdb.wf hx
  obtain ⟨v, wires, hfirst⟩ := ReverseIngest.exists_first hx hk hwf hvalid hfirst
  exact replays_iff_unobstructed hx hk hwf hvalid hfirst steps (Replaying.start hx hwf hfirst)
    hsteps

/-! ### A repetition that fails -/

namespace Scenario

/-- The store with the source, the page, the rule without its embedding, and the
historical candidate of the two. -/
def unembedded : Db := (evaluation 70).after Platform.sample
  (EmbeddedAlerts.after Platform.sample [createSource, createRule, ingest 30, ingest 40] Db.empty)

theorem reachable_unembedded : Reachable Platform.sample unembedded := by
  have hreach : Reachable Platform.sample
      (EmbeddedAlerts.after Platform.sample [createSource, createRule, ingest 30, ingest 40]
        Db.empty) := reachable_after _ .refl
  refine hreach.tail (.evaluate _ ?_)
  unfold Store.Owned
  decide +kernel

theorem ready_unembedded : Ready 50 unembedded := by decide +kernel

theorem reverseIngest_unembedded : (reverseIngest 50 diagonal).Valid Platform.sample unembedded :=
  ready_unembedded.reverseIngest_valid rfl (by norm_num)

/-- The request that embeds the rule. -/
def embedStep : ReplayStep := .upsertAlertEmbedding admin (supply 25) 20 ⟨21, ⟨space, axis⟩⟩

def replayStep (base : ℕ) : ReplayStep := .replay 0 (supply base).ids

end Scenario

open Scenario in
/-- **A repetition can fail**: the rule was evaluated historically, the page was sent
when the rule had no embedding, and the rule was embedded before the page was sent
again. -/
theorem replay_conflicts :
    ¬ ∀ x : Platform, x.Lawful → Function.Injective (Store.matchKey x) → ∀ db, Reachable x db →
      ∀ c : ReverseIngest, c.Valid x db → ∀ first s, c.exec x db = (.ok first, s) →
      ∀ steps, ReplayStep.Along x c (ReplayStep.Admissible c) s steps →
        Replays x c first first.candidates true s steps := by
  intro h
  have hspec : ((reverseIngest 50 diagonal).exec Platform.sample unembedded).1.toOption.isSome = true ∧
      Ready 80 (embedStep.after Platform.sample (reverseIngest 50 diagonal)
        ((reverseIngest 50 diagonal).after Platform.sample unembedded)) ∧
      (((reverseIngest 50 diagonal).again 0 (supply 80).ids).exec Platform.sample
        (embedStep.after Platform.sample (reverseIngest 50 diagonal)
          ((reverseIngest 50 diagonal).after Platform.sample unembedded))).1
        = .error (.conflict "canonical match identity exists with different evidence") := by
    decide +kernel
  obtain ⟨hok, hready, hconflict⟩ := hspec
  have hfresh := hready.freshIds (by norm_num) (Nat.le_refl 12)
  rcases hrun : (reverseIngest 50 diagonal).exec Platform.sample unembedded with ⟨e | first, s⟩
  · rw [hrun] at hok
    cases hok
  · have hafter : (reverseIngest 50 diagonal).after Platform.sample unembedded = s :=
      congrArg Prod.snd hrun
    rw [hafter] at hfresh hconflict
    obtain ⟨result, t, hreplay, -⟩ := h Platform.sample Platform.sample_lawful
      (fun _ _ => Store.matchKey_inj Platform.sample_collisionFree) unembedded reachable_unembedded
      (reverseIngest 50 diagonal) reverseIngest_unembedded first s hrun
      [embedStep, replayStep 80] ⟨trivial, hfresh, trivial⟩
    have hresult := congrArg Prod.fst hreplay
    rw [hconflict] at hresult
    cases hresult

open Scenario in
theorem replay_idempotent_sample : ∃ first s,
    (reverseIngest 60 diagonal).exec Platform.sample stored = (.ok first, s) ∧
    Replays Platform.sample (reverseIngest 60 diagonal) first first.candidates true s
      [replayStep 80] := by
  have hok : ((reverseIngest 60 diagonal).exec Platform.sample stored).1.toOption.isSome = true := by
    decide +kernel
  have hfresh : FreshIds reversed (supply 80).ids 12 :=
    reversed_spec.1.freshIds (by norm_num) le_rfl
  rcases hrun : (reverseIngest 60 diagonal).exec Platform.sample stored with ⟨e | first, s⟩
  · rw [hrun] at hok
    cases hok
  · obtain rfl : reversed = s := congrArg Prod.snd hrun
    refine ⟨first, reversed, rfl, (replay_idempotent_iff Platform.sample_lawful
      (fun _ _ => Store.matchKey_inj Platform.sample_collisionFree) reachable_stored
      reverseIngest_stored hrun [replayStep 80] ⟨hfresh, trivial⟩).mpr ⟨?_, trivial⟩⟩
    intro alert _ v _ r hr _
    exact (reversed_spec.2 r hr).1

end EmbeddedAlerts
