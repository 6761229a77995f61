import EmbeddedAlerts.Historical
import EmbeddedAlerts.Reverse

/-!
# The two paths to a candidate

Historical evaluation and reverse matching write to one table under one match
key, and each has its own fallback.

`Served` is anything the service does with the store: a request, or one of the
two paths called with arguments of its own.  `Reachable` is what any number of
these can reach, and it is all the results below ask of a store.

A `PathCall` is a call of one of the paths.  It is answered if it returns `Ok`
with a stored candidate for every pair it admits (`PathCall.Answered`), and it is
clear if none of these pairs was recorded by the other path
(`PathCall.Clear`).  `paths_answered_iff_clear`: **in every run of path calls, every
call is answered exactly if every call is clear.**  The two paths do block each
other, in both orders (`paths_block_each_other`).
-/

namespace EmbeddedAlerts

open Sql Relation

variable {x : Platform} {db db' : Db}

/-! ### What the service does with the store -/

/-- A request, or a call of one of the two paths. -/
inductive Served (x : Platform) (db : Db) : Db → Prop
  | request (call : Call) : Served x db (call.after x db)
  | evaluate (c : Evaluation)
      (owned : Store.Owned c.tenantId c.alertRuleId c.alertRuleRevisionId db) :
      Served x db (c.after x db)
  | reverse (c : ReverseIngest) : Served x db (c.after x db)

def Reachable (x : Platform) : Db → Prop := ReflTransGen (Served x) Db.empty

theorem ReverseIngest.after_steps {G : Db → MatchCandidateRow → Prop} (c : ReverseIngest)
    (hG : ∀ d page wire id, G d (ReverseMatch.newCandidate x c.now id c.tenantId page
      c.request.embedding c.finalUrl wire)) : Steps x G c.tenantId db (c.after x db) :=
  ReverseMatch.ingestAndReverseMatch_moves fun _ d' _ _ page wire _ _ _ id => hG d' page wire id

theorem Served.steps (hx : x.Lawful) (hwf : Wf x db) (h : Served x db db') :
    ∃ T, Steps x (fun _ _ => True) T db db' := by
  cases h with
  | request call => exact ⟨_, call.after_steps hx hwf⟩
  | evaluate c owned =>
    exact ⟨_, Store.evaluateMatches_moves owned fun _ _ _ _ _ _ => trivial⟩
  | reverse c => exact ⟨_, c.after_steps fun _ _ _ _ => trivial⟩

theorem Served.wf (hx : x.Lawful) (hwf : Wf x db) (h : Served x db db') : Wf x db' := by
  obtain ⟨T, hsteps⟩ := h.steps hx hwf
  exact hwf.steps hsteps

/-- Along any run the store stays well formed, and no row is lost. -/
theorem served_run (hx : x.Lawful) (hwf : Wf x db) (h : ReflTransGen (Served x) db db') :
    Wf x db' ∧ Grows db db' := by
  induction h with
  | refl => exact ⟨hwf, Grows.refl db⟩
  | tail _ hs ih =>
    obtain ⟨T, hsteps⟩ := hs.steps hx ih.1
    exact ⟨ih.1.steps hsteps, ih.2.trans hsteps.grows⟩

theorem Reachable.wf (hx : x.Lawful) (h : Reachable x db) : Wf x db :=
  (served_run hx (Wf.empty x) h).1

theorem reachable_after (calls : List Call) (h : Reachable x db) :
    Reachable x (after x calls db) := by
  induction calls generalizing db with
  | nil => exact h
  | cons call calls ih => exact ih (h.tail (.request call))

/-! ### Path calls -/

inductive PathCall where
  | evaluate (c : Evaluation)
  | reverse (c : ReverseIngest)

namespace PathCall

def after (x : Platform) : PathCall → Db → Db
  | .evaluate c, db => c.after x db
  | .reverse c, db => c.after x db

/-- The reverse rows that are stored for the page revision of the call and its
model space have the fingerprint of its page vector. -/
def SameVector (x : Platform) (db : Db) (c : ReverseIngest) : Prop :=
  ∀ v, c.Recorded x db v → ∀ r ∈ db.matchCandidates, r.tenantId = c.tenantId →
    r.revisionId = v.id → r.scoreExplanation.space = c.request.embedding.toModelSpace →
    r.matchMode = .reverseAlertStream → r.pageEmbeddingSha256 = some (c.fingerprint x)

def Valid (x : Platform) (db : Db) : PathCall → Prop
  | .evaluate c => c.Valid x db
  | .reverse c => c.Valid x db ∧ SameVector x db c

/-- The call returns `Ok`, with a stored candidate for every pair it admits. -/
def Answered (x : Platform) (db : Db) : PathCall → Prop
  | .evaluate c => ∃ page candidates s,
      Store.searchEmbeddings x c.tenantId c.narrowed db = (.ok page, db) ∧
      c.exec x db = (.ok candidates, s) ∧
      List.Forall₂ (fun record candidate => ∃ row ∈ s.matchCandidates,
        candidate = Store.matchCandidate x row ∧
        row.For c.tenantId c.alertRuleRevisionId record.hit.revisionId record.hit.space)
        page.records candidates
  | .reverse c => ∃ wires response s,
      ReverseMatch.findAlertCandidates x c.tenantId c.sourceId c.request db = (.ok wires, db) ∧
      c.exec x db = (.ok response, s) ∧
      List.Forall₂ (fun wire candidate => ∃ row ∈ s.matchCandidates,
        candidate = ReverseMatch.candidateJson x row ∧ row.For c.tenantId wire.alertRuleRevisionId
          response.pageRevisionId c.request.embedding.toModelSpace)
        wires response.candidates

/-- No pair the call admits is recorded by the other path: no record of the
search by a reverse row, no found rule, for the recorded revision of the page, by
a historical one. -/
def Clear (x : Platform) (db : Db) : PathCall → Prop
  | .evaluate c => ∀ page, Store.searchEmbeddings x c.tenantId c.narrowed db = (.ok page, db) →
      ∀ record ∈ page.records, ∀ r ∈ db.matchCandidates,
        r.For c.tenantId c.alertRuleRevisionId record.hit.revisionId record.hit.space →
        r.matchMode ≠ .reverseAlertStream
  | .reverse c => ∀ wires,
      ReverseMatch.findAlertCandidates x c.tenantId c.sourceId c.request db = (.ok wires, db) →
      ∀ wire ∈ wires, ∀ v, c.Recorded x db v → ∀ r ∈ db.matchCandidates,
        r.For c.tenantId wire.alertRuleRevisionId v.id c.request.embedding.toModelSpace →
        r.matchMode ≠ .historicalPageSearch

/-- `P` holds of every call of the run and the store it meets. -/
def Along (x : Platform) (P : Db → PathCall → Prop) : Db → List PathCall → Prop
  | _, [] => True
  | db, call :: calls => P db call ∧ Along x P (call.after x db) calls

/-! ### One call -/

section Call

variable (hx : x.Lawful) (hk : Function.Injective (Store.matchKey x)) (hwf : Wf x db)

include hx hk hwf

theorem evaluate_answered {c : Evaluation} (hv : c.Valid x db) :
    Answered x db (.evaluate c) ↔ Clear x db (.evaluate c) := by
  obtain ⟨page, hpage⟩ := Evaluation.searchEmbeddings_total hx hwf c.tenantId
    c.narrowed (hx.searchEmbedding c.search hv.search)
  constructor
  · rintro ⟨-, rows, s, -, hrun, -⟩ page' hpage' record hrecord r hr hfor hmode
    obtain ⟨s', herror⟩ := Evaluation.exec_error hx hk hwf hv hpage'
      ⟨record, hrecord, r, hr, hfor, hmode⟩
    rw [hrun] at herror
    cases herror
  · intro hclear
    have hfree : ∀ record ∈ page.records, ¬ c.Blocked db record := by
      rintro record hrecord ⟨r, hr, hfor, hmode⟩
      exact hclear page hpage record hrecord r hr hfor hmode
    obtain ⟨rows, s, hrun, hloop, hall⟩ := Evaluation.exec_ok hx hk hwf hv hpage hfree
    refine ⟨page, _, s, hpage, hrun, List.forall₂_map_right_iff.mpr ?_⟩
    refine hall.imp fun record row hanswered => ?_
    exact ⟨row, hanswered.stored, rfl,
      hanswered.for (Evaluation.offers_sound hx hk hwf hv) hk hloop⟩

theorem reverse_answered {c : ReverseIngest} (hv : c.Valid x db) (hsame : SameVector x db c) :
    Answered x db (.reverse c) ↔ Clear x db (.reverse c) := by
  obtain ⟨wires, hwires⟩ := ReverseIngest.findAlertCandidates_total hx hwf hv
  constructor
  · rintro ⟨-, response, s, -, hrun, -⟩ wires' hwires' wire hwire v hrec r hr hfor hmode
    have hother : ¬ (r.matchMode = .reverseAlertStream ∧
        r.pageEmbeddingSha256 = some (c.fingerprint x)) := by
      rw [hmode]
      rintro ⟨hmode', -⟩
      cases hmode'
    have herror := ReverseIngest.exec_conflict hx hk hwf hv hwires'
      ⟨wire, hwire, v, hrec, r, hr, hfor, hother⟩
    rw [hrun] at herror
    cases herror
  · intro hclear
    have hfree : ∀ wire ∈ wires, ¬ c.Blocked x db wire := by
      rintro wire hwire ⟨v, hrec, r, hr, hfor, hother⟩
      have hmode := hclear wires hwires wire hwire v hrec r hr hfor
      have hreverse : r.matchMode = .reverseAlertStream := by
        cases hm : r.matchMode with
        | historicalPageSearch => exact absurd hm hmode
        | reverseAlertStream => rfl
      exact hother ⟨hreverse,
        hsame v hrec r hr hfor.tenantId hfor.revisionId hfor.space hreverse⟩
    obtain ⟨response, s, hrun, hall⟩ := ReverseIngest.exec_ok hx hk hwf hv hwires hfree
    refine ⟨wires, response, s, hwires, hrun, hall.imp ?_⟩
    rintro wire candidate ⟨row, hrow, hjson, hfor, -⟩
    exact ⟨row, hrow, hjson, hfor⟩

/-- **A call is answered exactly if it is clear.** -/
theorem answered_iff_clear {call : PathCall} (hv : call.Valid x db) :
    call.Answered x db ↔ call.Clear x db := by
  cases call with
  | evaluate c => exact evaluate_answered hx hk hwf hv
  | reverse c => exact reverse_answered hx hk hwf hv.1 hv.2

end Call

theorem served {call : PathCall} (hv : call.Valid x db) : Served x db (call.after x db) := by
  cases call with
  | evaluate c => exact .evaluate c hv.owned
  | reverse c => exact .reverse c

end PathCall

/-! ### Runs -/

/-- **In every run of path calls, every call is answered exactly if every call is
clear.** -/
theorem paths_answered_iff_clear (hx : x.Lawful) (hc : x.CollisionFree) (hdb : Reachable x db)
    (calls : List PathCall) (hv : PathCall.Along x (PathCall.Valid x) db calls) :
    PathCall.Along x (PathCall.Answered x) db calls ↔
      PathCall.Along x (PathCall.Clear x) db calls := by
  have hk : Function.Injective (Store.matchKey x) := fun _ _ h => Store.matchKey_inj hc h
  induction calls generalizing db with
  | nil => exact Iff.rfl
  | cons call calls ih =>
    obtain ⟨hcall, hcalls⟩ := hv
    have hnext : Reachable x (call.after x db) := hdb.tail (PathCall.served hcall)
    exact and_congr (PathCall.answered_iff_clear hx hk (hdb.wf hx) hcall) (ih hnext hcalls)

/-! ### A scenario -/

namespace Scenario

/-- The store with the source, the rule, the page and their embeddings. -/
def stored : Db := EmbeddedAlerts.after Platform.sample setup Db.empty

def evaluation (base : ℕ) : Evaluation where
  tenantId := 1
  alertRuleId := 20
  alertRuleRevisionId := 21
  threshold := 1 / 4
  search := search
  clock := (supply base).clock
  ids := (supply base).ids

def reverseIngest (base : ℕ) (values : List F32Bits) : ReverseIngest where
  now := 0
  ids := (supply base).ids
  tenantId := 1
  sourceId := 10
  request := ⟨page values, 10⟩
  originalUrl := "https://example.com/a"
  finalUrl := "https://example.com/a"

theorem reachable_stored : Reachable Platform.sample stored := reachable_after setup .refl

/-- The store has the rule and the source of the scenario, and none of the twelve UUIDs
from `base` on. -/
def Ready (base : ℕ) (db : Db) : Prop :=
  (∃ v ∈ db.alertRuleRevisions, v.id = 21 ∧ v.tenantId = 1 ∧ v.alertRuleId = 20) ∧
  (∃ t ∈ db.sources, t.id = 10) ∧
  (∀ p ∈ db.pages, p.id.val < base ∨ base + 12 ≤ p.id.val) ∧
  (∀ v ∈ db.pageRevisions, v.id.val < base ∨ base + 12 ≤ v.id.val) ∧
  ∀ r ∈ db.matchCandidates, r.id.val < base ∨ base + 12 ≤ r.id.val

instance (base : ℕ) (db : Db) : Decidable (Ready base db) :=
  inferInstanceAs (Decidable (_ ∧ _ ∧ _ ∧ _ ∧ _))

theorem Ready.freshIds {base n : ℕ} (h : Ready base db) (hbase : base + 12 ≤ 2 ^ 128)
    (hn : n ≤ 12) : FreshIds db (supply base).ids n := by
  obtain ⟨-, -, hpages, hrevisions, hcandidates⟩ := h
  have hval : ∀ i < n, ((supply base).ids i).val = base + i := by
    intro i hi
    rw [supply, Fin.val_ofNat, Nat.mod_eq_of_lt (by omega)]
  have hother : ∀ i < n, ∀ id : Uuid, id.val < base ∨ base + 12 ≤ id.val →
      id ≠ (supply base).ids i := by
    intro i hi id hid heq
    have := hval i hi
    rw [← heq] at this
    omega
  refine ⟨fun i hi j hj hids => ?_, fun i hi p hp => hother i hi _ (hpages p hp),
    fun i hi v hv => hother i hi _ (hrevisions v hv),
    fun i hi r hr => hother i hi _ (hcandidates r hr)⟩
  have hids := congrArg Fin.val hids
  rw [hval i hi, hval j hj] at hids
  omega

theorem Ready.evaluation_valid {base : ℕ} (h : Ready base db)
    (hsearch : x.validateSearch search = .ok ()) (hbase : base + 12 ≤ 2 ^ 128) :
    (evaluation base).Valid x db where
  threshold := by constructor <;> norm_num [evaluation]
  search := hsearch
  owned := h.1
  fresh := h.freshIds hbase (show search.limit ≤ 12 by decide)

theorem Ready.reverseIngest_valid {base : ℕ} {values : List F32Bits} (h : Ready base db)
    (hrequest : (reverseIngest base values).request.validate Platform.sample = .ok ())
    (hbase : base + 12 ≤ 2 ^ 128) :
    (reverseIngest base values).Valid Platform.sample db where
  request := hrequest
  source := h.2.1
  fresh := h.freshIds hbase le_rfl

/-- The store with a reverse candidate, and the one with a historical one. -/
def reversed : Db := (reverseIngest 60 diagonal).after Platform.sample stored

def evaluated : Db := (evaluation 70).after Platform.sample stored

-- The facts about a store are one computation.
theorem stored_spec : Ready 60 stored ∧ Ready 70 stored ∧ stored.matchCandidates = [] := by
  decide +kernel

theorem reversed_spec : Ready 80 reversed ∧
    ∀ r ∈ reversed.matchCandidates, r.matchMode ≠ .historicalPageSearch ∧
      r.pageEmbeddingSha256 = some ((reverseIngest 80 diagonal).fingerprint Platform.sample) := by
  decide +kernel

theorem evaluated_spec : Ready 80 evaluated ∧ evaluated.matchCandidates.length = 1 ∧
    ∀ r ∈ evaluated.matchCandidates, r.matchMode = .historicalPageSearch ∧ r.tenantId = 1 ∧
      r.alertRuleRevisionId = some 21 ∧ r.revisionId = 41 ∧ r.scoreExplanation.space = space := by
  decide +kernel

theorem owned_stored : Store.Owned 1 20 21 stored := stored_spec.1.1

theorem reachable_evaluated : Reachable Platform.sample evaluated :=
  reachable_stored.tail (.evaluate (evaluation 70) owned_stored)

theorem evaluation_stored : (evaluation 70).Valid Platform.sample stored :=
  stored_spec.2.1.evaluation_valid rfl (by norm_num)

theorem evaluation_evaluated : (evaluation 80).Valid Platform.sample evaluated :=
  evaluated_spec.1.evaluation_valid rfl (by norm_num)

theorem reverseIngest_stored : (reverseIngest 60 diagonal).Valid Platform.sample stored :=
  stored_spec.1.reverseIngest_valid rfl (by norm_num)

end Scenario

open Scenario in
/-- **Each path blocks the other.**  The rule and the page of the scenario are at
similarity `1 / 2`, above the threshold of the rule, and both paths are given the
stored vector of the page. -/
theorem paths_block_each_other :
    Reachable Platform.sample stored ∧
    (PathCall.Along Platform.sample (PathCall.Valid Platform.sample) stored
        [.reverse (reverseIngest 60 diagonal), .evaluate (evaluation 80)] ∧
      ((evaluation 80).exec Platform.sample reversed).1
        = .error (.internal "match upsert returned no durable record") ∧
      ¬ PathCall.Along Platform.sample (PathCall.Answered Platform.sample) stored
        [.reverse (reverseIngest 60 diagonal), .evaluate (evaluation 80)]) ∧
    (PathCall.Along Platform.sample (PathCall.Valid Platform.sample) stored
        [.evaluate (evaluation 70), .reverse (reverseIngest 80 diagonal)] ∧
      ((reverseIngest 80 diagonal).exec Platform.sample evaluated).1
        = .error (.conflict "canonical match identity exists with different evidence") ∧
      ¬ PathCall.Along Platform.sample (PathCall.Answered Platform.sample) stored
        [.evaluate (evaluation 70), .reverse (reverseIngest 80 diagonal)]) := by
  have hinternal : ((evaluation 80).exec Platform.sample reversed).1
      = .error (.internal "match upsert returned no durable record") := by decide +kernel
  have hconflict : ((reverseIngest 80 diagonal).exec Platform.sample evaluated).1
      = .error (.conflict "canonical match identity exists with different evidence") := by
    decide +kernel
  refine ⟨reachable_stored, ⟨⟨⟨reverseIngest_stored, ?_⟩, ?_, trivial⟩, hinternal, ?_⟩,
    ⟨evaluation_stored, ⟨?_, ?_⟩, trivial⟩, hconflict, ?_⟩
  · intro v _ r hr
    rw [stored_spec.2.2] at hr
    cases hr
  · exact reversed_spec.1.evaluation_valid rfl (by norm_num)
  · rintro ⟨-, ⟨page, rows, s, -, hrun, -⟩, -⟩
    have hok : ((evaluation 80).exec Platform.sample reversed).1 = .ok rows := congrArg Prod.fst hrun
    rw [hinternal] at hok
    cases hok
  · exact evaluated_spec.1.reverseIngest_valid rfl (by norm_num)
  · intro v _ r hr _ _ _ hmode
    have hhistorical : r.matchMode = .historicalPageSearch := (evaluated_spec.2.2 r hr).1
    rw [hhistorical] at hmode
    cases hmode
  · rintro ⟨-, ⟨wires, response, s, -, hrun, -⟩, -⟩
    have hok : ((reverseIngest 80 diagonal).exec Platform.sample evaluated).1 = .ok response :=
      congrArg Prod.fst hrun
    rw [hconflict] at hok
    cases hok

open Scenario in
/-- A retry of reverse matching, with the same page vector, is answered. -/
theorem paths_answered_iff_clear_sample :
    PathCall.Along Platform.sample (PathCall.Answered Platform.sample) stored
      [.reverse (reverseIngest 60 diagonal), .reverse (reverseIngest 80 diagonal)] := by
  have hvalid : (reverseIngest 80 diagonal).Valid Platform.sample reversed :=
    reversed_spec.1.reverseIngest_valid rfl (by norm_num)
  have hv : PathCall.Along Platform.sample (PathCall.Valid Platform.sample) stored
      [.reverse (reverseIngest 60 diagonal), .reverse (reverseIngest 80 diagonal)] := by
    refine ⟨⟨reverseIngest_stored, ?_⟩, ⟨hvalid, ?_⟩, trivial⟩
    · intro v _ r hr
      rw [stored_spec.2.2] at hr
      cases hr
    · intro v _ r hr _ _ _ _
      exact (reversed_spec.2 r hr).2
  rw [paths_answered_iff_clear Platform.sample_lawful Platform.sample_collisionFree
    reachable_stored _ hv]
  refine ⟨?_, ?_, trivial⟩
  · intro wires _ wire _ v _ r hr
    rw [stored_spec.2.2] at hr
    cases hr
  · intro wires _ wire _ v _ r hr _
    exact (reversed_spec.2 r hr).1

end EmbeddedAlerts
