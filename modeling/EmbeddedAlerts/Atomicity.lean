import EmbeddedAlerts.Paths

/-!
# Failing in the middle of an evaluation

`store::evaluate_matches` searches, and then offers one row for every hit, each
with a statement that is committed on its own.  Nothing takes the rows of the
earlier hits back when a later hit fails.  `reverse_match::ingest_and_reverse_match`
opens a transaction for the same loop.

`Fault` is what can go wrong with one statement besides what the store itself
refuses: the statement fails and has no effect, or it is done and the row it
answers cannot be decoded.  `Evaluation.execUnder` is the call under a choice of
faults, one for every statement; without faults it is the call
(`Evaluation.execUnder_none`).

* `Evaluation.forEach_stops`: where the loop stops, and what it leaves.
* `evaluation_atomic_iff`: **a call that fails leaves the candidates as they were
  exactly if every hit before the failing one was recorded already**, and the
  failing one too if it is its answer that cannot be decoded.
-/

namespace EmbeddedAlerts

open Sql

/-- What goes wrong with a statement. -/
inductive Fault where
  /-- It fails, and has no effect. -/
  | statement (e : HttpError)
  /-- It is done, and its answer cannot be decoded. -/
  | decoding (e : HttpError)
deriving DecidableEq

/-- The action whose statement meets the fault. -/
def Fault.strike {α : Type} : Option Fault → Api α → Api α
  | none, action => action
  | some (.statement e), _ => Action.fail e
  | some (.decoding e), action => do
    let _ ← action
    Action.fail e

theorem Fault.strike_read {α : Type} {action : Api α} {db : Db} {a : α}
    (h : action db = (.ok a, db)) (fault : Fault) :
    ∃ e, Fault.strike (some fault) action db = (.error e, db) := by
  cases fault with
  | statement e => exact ⟨e, rfl⟩
  | decoding e => exact ⟨e, Action.bind_of_ok h⟩

namespace Evaluation

variable {x : Platform} {db s : Db} {c : Evaluation} {faults : ℕ → Option Fault}

/-- The turn of a hit; the statement of hit `n` is statement `n + 1`. -/
def turnUnder (x : Platform) (c : Evaluation) (faults : ℕ → Option Fault)
    (record : Store.SearchRecord × ℕ) : Api Store.MatchCandidate :=
  Fault.strike (faults (record.2 + 1)) (c.turnAt x record)

/-- `evaluate_matches` when statement `n` meets the fault `faults n`; the search is
statement `0`. -/
def execUnder (x : Platform) (c : Evaluation) (faults : ℕ → Option Fault) :
    Api (List Store.MatchCandidate) := do
  let page ← Fault.strike (faults 0) (Store.searchEmbeddings x c.tenantId c.narrowed)
  Action.forEach (c.turnUnder x faults) page.records.zipIdx

theorem execUnder_none : c.execUnder x (fun _ => none) = c.exec x := rfl

/-- The combination of the record is recorded. -/
def Known (db : Db) (c : Evaluation) (record : Store.SearchRecord) : Prop :=
  ∃ r ∈ db.matchCandidates, r.For c.tenantId c.alertRuleRevisionId record.hit.revisionId
    record.hit.space

/-- Hit `n` fails: its statement meets a fault, or a reverse row is recorded for
its combination. -/
def Fails (db : Db) (c : Evaluation) (faults : ℕ → Option Fault) (n : ℕ)
    (record : Store.SearchRecord) : Prop :=
  faults (n + 1) ≠ none ∨ c.Blocked db record

/-- Hit `k` is the first that fails. -/
structure StopsAt (db : Db) (c : Evaluation) (faults : ℕ → Option Fault)
    (records : List Store.SearchRecord) (k : ℕ) (record : Store.SearchRecord) : Prop where
  get : records[k]? = some record
  fails : c.Fails db faults k record
  first : ∀ j < k, ∀ r, records[j]? = some r → ¬ c.Fails db faults j r

/-- Nothing new is recorded before the loop stops. -/
def NothingNew (db : Db) (c : Evaluation) (faults : ℕ → Option Fault)
    (records : List Store.SearchRecord) : Prop :=
  ∀ k record, c.StopsAt db faults records k record →
    (∀ j < k, ∀ r, records[j]? = some r → c.Known db r) ∧
    ((∃ e, faults (k + 1) = some (.decoding e)) → c.Known db record)

theorem exists_stopsAt {records : List Store.SearchRecord} {n : ℕ} {record : Store.SearchRecord}
    (hget : records[n]? = some record) (hfails : c.Fails db faults n record) :
    ∃ k record, c.StopsAt db faults records k record := by
  induction n using Nat.strong_induction_on generalizing record with
  | _ n ih =>
    by_cases hearlier : ∃ j < n, ∃ r, records[j]? = some r ∧ c.Fails db faults j r
    · obtain ⟨j, hj, r, hr, hjfails⟩ := hearlier
      exact ih j hj hr hjfails
    · refine ⟨n, record, hget, hfails, fun j hj r hr hjfails => ?_⟩
      exact hearlier ⟨j, hj, r, hr, hjfails⟩

section Call

variable (hx : x.Lawful) (hk : Function.Injective (Store.matchKey x)) (hwf : Wf x db)
  (hv : c.Valid x db)

include hx hk hwf hv

theorem known_iff {record : Store.SearchRecord}
    (hhit : Store.Hit x c.tenantId c.narrowed db record) :
    (c.offers x db).Known db record ↔ c.Known db record := by
  have hident := (offers_sound hx hk hwf hv).identifies 0 record hhit
  refine exists_congr fun r => and_congr_right fun hr => ?_
  exact sameMatchKey_iff_for hwf hk hident hr

omit hx hk hwf hv in
theorem turnUnder_eq {fault : Option Fault} {n : ℕ} (hfault : faults (n + 1) = fault)
    (record : Store.SearchRecord) :
    c.turnUnder x faults (record, n) = Fault.strike fault (c.turnAt x (record, n)) := by
  rw [turnUnder, hfault]

/-- **The turn of a hit that fails.**  If the answer of its statement cannot be
decoded, its row has been added, unless there was one. -/
theorem turnUnder_fails {k : ℕ} (hkn : k < c.search.limit) {record : Store.SearchRecord}
    (hhit : Store.Hit x c.tenantId c.narrowed db record) (hfails : c.Fails db faults k record)
    (hloop : Offers.Loop x db (c.offers x db) k s) :
    ∃ e t, c.turnUnder x faults (record, k) s = (.error e, t) ∧
      (t.matchCandidates = db.matchCandidates ↔ s.matchCandidates = db.matchCandidates ∧
        ((∃ e, faults (k + 1) = some (.decoding e)) → c.Known db record)) := by
  have hsound := offers_sound hx hk hwf hv
  rw [← known_iff hx hk hwf hv hhit]
  by_cases hblocked : (c.offers x db).Blocked db record
  · have hturn : c.turnAt x (record, k) s
        = (.error (.internal "match upsert returned no durable record"), s) :=
      turnAt_of_none (Offers.turn_blocked hsound hkn hhit hblocked hloop)
    have hsame : s.matchCandidates = db.matchCandidates ↔ s.matchCandidates = db.matchCandidates ∧
        ((∃ e, faults (k + 1) = some (.decoding e)) → (c.offers x db).Known db record) :=
      ⟨fun h => ⟨h, fun _ => hblocked.known⟩, fun h => h.1⟩
    rcases hfault : faults (k + 1) with _ | e | e
    all_goals rw [turnUnder_eq hfault]; rw [hfault] at hsame
    · exact ⟨_, s, hturn, hsame⟩
    · exact ⟨e, s, rfl, hsame⟩
    · exact ⟨_, s, Action.bind_of_error hturn, hsame⟩
  · have hfault : faults (k + 1) ≠ none := by
      rcases hfails with hfault | hb
      · exact hfault
      · exact absurd ((blocked_iff hx hk hwf hv hhit).mpr hb) hblocked
    rcases hkind : faults (k + 1) with _ | e | e
    · exact absurd hkind hfault
    · refine ⟨e, s, by rw [turnUnder_eq hkind]; rfl, fun h => ⟨h, ?_⟩, fun h => h.1⟩
      rintro ⟨e', he'⟩
      cases he'
    · have hf : ∀ i n s r created s', (c.offers x db).statement (c.offer x n i) s s
          = .ok (some (r, created), s') →
            c.turnAt x (i, n) s = (.ok (Store.matchCandidate x r), s') :=
        fun _ _ _ _ _ _ h => turnAt_of_some h
      obtain ⟨r, t, hturn, hloop', hanswered, hgrows⟩ :=
        Offers.turn_ok hsound hf hk hkn hhit hblocked hloop
      refine ⟨e, t, ?_, ?_, ?_⟩
      · rw [turnUnder_eq hkind]
        exact Action.bind_of_ok hturn
      · intro hsame
        have hstored := hanswered.stored
        rw [hsame] at hgrows hstored
        exact ⟨List.IsPrefix.eq_of_length_le hgrows hloop.grows.matchCandidates.length_le,
          fun _ => ⟨r, hstored, hanswered.key⟩⟩
      · rintro ⟨hsame, hknown⟩
        obtain ⟨r', hknown'⟩ :=
          Offers.turn_known hsound hkn hhit (hknown ⟨e, rfl⟩) hblocked hloop
        have hread := hf record k s r' false s hknown'
        rw [hturn] at hread
        obtain rfl : t = s := congrArg Prod.snd hread
        exact hsame

variable {page : Store.SearchPage}
  (hpage : Store.searchEmbeddings x c.tenantId c.narrowed db = (.ok page, db))

include hpage

/-- Before the first hit that fails, the loop runs as it does without faults. -/
theorem forEach_take {k : ℕ} (hk' : k ≤ page.records.length)
    (hfirst : ∀ j < k, ∀ r, page.records[j]? = some r → ¬ c.Fails db faults j r) :
    ∃ rows s, Action.forEach (c.turnUnder x faults) (page.records.take k).zipIdx db = (.ok rows, s) ∧
      Offers.Loop x db (c.offers x db) k s ∧
      (s.matchCandidates = db.matchCandidates ↔ ∀ r ∈ page.records.take k, c.Known db r) := by
  obtain ⟨-, hlength, hhits⟩ := Store.searchEmbeddings_ok hpage
  have hsound := offers_sound hx hk hwf hv
  have hf : ∀ i n s r created s', (c.offers x db).statement (c.offer x n i) s s
      = .ok (some (r, created), s') → c.turnAt x (i, n) s = (.ok (Store.matchCandidate x r), s') :=
    fun _ _ _ _ _ _ h => turnAt_of_some h
  have htake : (page.records.take k).length = k := by
    rw [List.length_take]
    omega
  have hget : ∀ j r, (page.records.take k)[j]? = some r → j < k ∧ page.records[j]? = some r := by
    intro j r hr
    rw [List.getElem?_take] at hr
    split at hr
    · next hj => exact ⟨hj, hr⟩
    · cases hr
  have hitems : ∀ r ∈ page.records.take k, Store.Hit x c.tenantId c.narrowed db r :=
    fun r hr => hhits r (List.take_subset _ _ hr)
  have hfree : ∀ r ∈ page.records.take k, ¬ (c.offers x db).Blocked db r := by
    intro r hr hblocked
    obtain ⟨j, hj⟩ := List.mem_iff_getElem?.mp hr
    obtain ⟨hjk, hj⟩ := hget j r hj
    exact hfirst j hjk r hj (Or.inr ((blocked_iff hx hk hwf hv (hitems r hr)).mp hblocked))
  have hcongr : Action.forEach (c.turnUnder x faults) (page.records.take k).zipIdx
      = Action.forEach (c.turnAt x) (page.records.take k).zipIdx := by
    refine Action.forEach_congr ?_
    rintro ⟨r, j⟩ hr
    obtain ⟨hjk, hj⟩ := hget j r (List.mk_mem_zipIdx_iff_getElem?.mp hr)
    have hnone : faults (j + 1) = none := by
      by_contra hfault
      exact hfirst j hjk r hj (Or.inl hfault)
    rw [turnUnder_eq hnone]
    rfl
  have hlimit : (page.records.take k).length ≤ (c.offers x db).limit := by
    rw [htake]
    exact le_trans hk' hlength
  obtain ⟨rows, s, hrun, hloop, hall⟩ := Offers.forEach_ok hsound
    (f := c.turnAt x) (g := Store.matchCandidate x) hf hk hwf hitems hlimit hfree
  have hsame := Offers.forEach_unchanged hsound hf hwf hitems hlimit hfree hrun hall
  rw [htake] at hloop
  refine ⟨_, s, by rw [hcongr, hrun], hloop, hsame.trans ?_⟩
  exact forall₂_congr fun r hr => known_iff hx hk hwf hv (hitems r hr)

/-- **Where the loop stops, and what it leaves.** -/
theorem forEach_stops {k : ℕ} {record : Store.SearchRecord}
    (hstops : c.StopsAt db faults page.records k record) :
    ∃ e t, Action.forEach (c.turnUnder x faults) page.records.zipIdx db = (.error e, t) ∧
      (t.matchCandidates = db.matchCandidates ↔
        (∀ j < k, ∀ r, page.records[j]? = some r → c.Known db r) ∧
        ((∃ e, faults (k + 1) = some (.decoding e)) → c.Known db record)) := by
  obtain ⟨-, hlength, hhits⟩ := Store.searchEmbeddings_ok hpage
  obtain ⟨hklt, hrecord⟩ := List.getElem?_eq_some_iff.mp hstops.get
  obtain ⟨rows, s, hrun, hloop, hsame⟩ := forEach_take hx hk hwf hv hpage hklt.le hstops.first
  obtain ⟨e, t, hturn, hchanged⟩ := turnUnder_fails hx hk hwf hv (lt_of_lt_of_le hklt hlength)
    (hhits record (List.mem_of_getElem? hstops.get)) hstops.fails hloop
  have hsplit : page.records.zipIdx
      = (page.records.take k).zipIdx ++ (record, k) :: (page.records.drop (k + 1)).zipIdx (k + 1) := by
    have hlen : (page.records.take k).length = k := by
      rw [List.length_take]
      omega
    conv_lhs => rw [← List.take_append_drop k page.records, List.drop_eq_getElem_cons hklt, hrecord]
    rw [List.zipIdx_append, hlen, Nat.zero_add, List.zipIdx_cons]
  refine ⟨e, t, ?_, ?_⟩
  · rw [hsplit]
    exact Action.forEach_append_error hrun hturn
  · rw [hchanged, hsame]
    refine and_congr_left fun _ => ⟨fun h j hj r hr => h r ?_, fun h r hr => ?_⟩
    · refine List.mem_of_getElem? (i := j) ?_
      rw [List.getElem?_take, if_pos hj]
      exact hr
    · obtain ⟨j, hj⟩ := List.mem_iff_getElem?.mp hr
      rw [List.getElem?_take] at hj
      split at hj
      · next hjk => exact h j hjk r hj
      · cases hj

end Call

end Evaluation

/-- **A call that fails leaves the candidates as they were exactly if nothing new
was recorded before it stopped.** -/
theorem evaluation_atomic_iff {x : Platform} {db : Db} {c : Evaluation} (hx : x.Lawful)
    (hc : x.CollisionFree) (hdb : Reachable x db) (hv : c.Valid x db) (faults : ℕ → Option Fault) :
    (∀ e s, c.execUnder x faults db = (.error e, s) → s.matchCandidates = db.matchCandidates) ↔
      (faults 0 = none → ∀ page,
        Store.searchEmbeddings x c.tenantId c.narrowed db = (.ok page, db) →
        c.NothingNew db faults page.records) := by
  have hk : Function.Injective (Store.matchKey x) := fun _ _ h => Store.matchKey_inj hc h
  have hwf : Wf x db := hdb.wf hx
  obtain ⟨page, hpage⟩ := Evaluation.searchEmbeddings_total hx hwf c.tenantId
    c.narrowed (hx.searchEmbedding c.search hv.search)
  by_cases hsearch : faults 0 = none
  · have hexec : c.execUnder x faults db
        = Action.forEach (c.turnUnder x faults) page.records.zipIdx db := by
      rw [Evaluation.execUnder, hsearch]
      exact Action.bind_of_ok hpage
    rw [hexec]
    constructor
    · intro hatomic _ page' hpage' k record hstops
      obtain rfl : page = page' := by
        rw [hpage] at hpage'
        exact Except.ok.inj (congrArg Prod.fst hpage')
      obtain ⟨e, t, hrun, hsame⟩ := Evaluation.forEach_stops hx hk hwf hv hpage hstops
      exact hsame.mp (hatomic e t hrun)
    · intro hnothing e s hrun
      -- a loop that fails has stopped somewhere
      by_cases hfails : ∃ n record, page.records[n]? = some record ∧ c.Fails db faults n record
      · obtain ⟨n, record, hget, hfails⟩ := hfails
        obtain ⟨k, record, hstops⟩ := Evaluation.exists_stopsAt hget hfails
        obtain ⟨e', t, hrun', hsame⟩ := Evaluation.forEach_stops hx hk hwf hv hpage hstops
        rw [hrun] at hrun'
        obtain rfl : s = t := congrArg Prod.snd hrun'
        exact hsame.mpr (hnothing hsearch page hpage k record hstops)
      · obtain ⟨rows, t, hrun', -⟩ := Evaluation.forEach_take hx hk hwf hv hpage le_rfl
          fun j _ r hr hjfails => hfails ⟨j, r, hr, hjfails⟩
        rw [List.take_length, hrun] at hrun'
        cases hrun'
  · refine ⟨fun _ h => absurd h hsearch, fun _ e s hrun => ?_⟩
    obtain ⟨fault, hfault⟩ := Option.ne_none_iff_exists'.mp hsearch
    obtain ⟨e', hstruck⟩ := Fault.strike_read hpage fault
    rw [Evaluation.execUnder, hfault, Action.bind_of_error hstruck] at hrun
    obtain rfl : db = s := congrArg Prod.snd hrun
    rfl

/-! ### A scenario -/

namespace Scenario

/-- What is hashed for the rule and the root of the source. -/
def rootIdentity : MatchIdentity := { identity with pageRevisionId := 61 }

def twoPages : Platform := Platform.sampleWith [(Store.canonicalJson rootIdentity,
  digestBytes 0x8275181a5de8198efcf666dfd7d98bc485b71169c9ad6fa220fef8bc5041ab08)]

theorem twoPages_collisionFree : twoPages.CollisionFree :=
  hashBy_injective (by decide) (by decide)

/-- Two pages with stored embeddings, and a reverse row for the second. -/
def halfReversed : Db := EmbeddedAlerts.after twoPages
  (setup ++ [ingestRoot 50, ingestRoot 60, call 70 (.reverseMatchPage 10 ⟨rootPage, 100⟩)]) Db.empty

end Scenario

open Scenario in
/-- **An evaluation that fails leaves a row behind.**  The first hit is new, and its
row is added; the second was recorded by the reverse path, and the call fails there. -/
theorem evaluation_not_atomic :
    twoPages.Lawful ∧ twoPages.CollisionFree ∧ Reachable twoPages halfReversed ∧
    (evaluation 80).Valid twoPages halfReversed ∧
    ((evaluation 80).execUnder twoPages (fun _ => none) halfReversed).1
      = .error (.internal "match upsert returned no durable record") ∧
    halfReversed.matchCandidates.map MatchCandidateRow.revisionId = [61] ∧
    (((evaluation 80).execUnder twoPages (fun _ => none) halfReversed).2).matchCandidates.map
      MatchCandidateRow.revisionId = [61, 41] := by
  have hspec : Ready 80 halfReversed ∧
      ((evaluation 80).execUnder twoPages (fun _ => none) halfReversed).1
        = .error (.internal "match upsert returned no durable record") ∧
      halfReversed.matchCandidates.map MatchCandidateRow.revisionId = [61] ∧
      (((evaluation 80).execUnder twoPages (fun _ => none) halfReversed).2).matchCandidates.map
        MatchCandidateRow.revisionId = [61, 41] := by
    decide +kernel
  obtain ⟨hready, hrun⟩ := hspec
  have hvalid : (evaluation 80).Valid twoPages halfReversed :=
    hready.evaluation_valid rfl (by norm_num)
  exact ⟨Platform.sampleWith_lawful _, twoPages_collisionFree, reachable_after _ .refl, hvalid, hrun⟩

open Scenario in
/-- A repeated evaluation whose answer cannot be decoded leaves the candidates as they
were: its hit was recorded by the first. -/
theorem evaluation_atomic_iff_sample :
    (evaluation 80).Valid Platform.sample evaluated ∧
    ∀ e s, (evaluation 80).execUnder Platform.sample
        (fun n => if n = 1 then some (.decoding (.internal "EOF")) else none) evaluated
      = (.error e, s) → s.matchCandidates = evaluated.matchCandidates := by
  have hrow : ∃ r ∈ evaluated.matchCandidates, r.tenantId = 1 ∧ r.alertRuleRevisionId = some 21 ∧
      r.revisionId = 41 ∧ r.scoreExplanation.space = space := by
    obtain ⟨-, hlength, hrows⟩ := evaluated_spec
    obtain ⟨r, hr⟩ := List.exists_mem_of_length_pos (hlength ▸ Nat.one_pos)
    exact ⟨r, hr, (hrows r hr).2⟩
  have hrecords : ((Store.searchEmbeddings Platform.sample 1 (evaluation 80).narrowed evaluated).1.map
      fun page => page.records.map fun record => (record.hit.revisionId, record.hit.space))
      = .ok [(41, space)] := by decide +kernel
  refine ⟨evaluation_evaluated, ?_⟩
  rw [evaluation_atomic_iff Platform.sample_lawful Platform.sample_collisionFree
    reachable_evaluated evaluation_evaluated]
  intro _ page hpage
  have hknown : ∀ record ∈ page.records, (evaluation 80).Known evaluated record := by
    intro record hrecord
    have hpage' : Store.searchEmbeddings Platform.sample 1 (evaluation 80).narrowed evaluated
      = (.ok page, evaluated) := hpage
    rw [hpage'] at hrecords
    have hlist : page.records.map (fun record => (record.hit.revisionId, record.hit.space))
      = [(41, space)] := Except.ok.inj hrecords
    have hmem := List.mem_map_of_mem (f := fun record : Store.SearchRecord =>
      (record.hit.revisionId, record.hit.space)) hrecord
    rw [hlist, List.mem_singleton] at hmem
    obtain ⟨r, hr, htenant, hrevision, hpageRevision, hspace⟩ := hrow
    refine ⟨r, hr, htenant, hrevision, ?_, ?_⟩
    · exact hpageRevision.trans (congrArg Prod.fst hmem).symm
    · exact hspace.trans (congrArg Prod.snd hmem).symm
  intro k record hstops
  exact ⟨fun j _ r hr => hknown r (List.mem_of_getElem? hr),
    fun _ => hknown record (List.mem_of_getElem? hstops.get)⟩

end EmbeddedAlerts
