import EmbeddedAlerts.Paths

/-!
# Crawling a page again

Runs in which rules are created and embedded and pages are matched against them,
and nothing is evaluated historically.  All candidates are then reverse ones
(`ReverseRun.reverseOnly`), and what is left of "different evidence" is the page
vector: the vector of a page is not part of the match identity, but its
fingerprint is part of the evidence.

`recrawl_outcome`: **a call ends in a conflict exactly if a rule it finds has a
candidate for this page and content that was made from another page vector.**
The call is then undone as a whole; in every other case each rule it finds gets
its candidate.  `recrawl_conflicts` is a page that comes back with the same
content and another vector.
-/

namespace EmbeddedAlerts

open Sql Relation

variable {x : Platform} {db db' : Db}

/-- What happens to the store in such a run. -/
inductive ReverseServed (x : Platform) (db : Db) : Db → Prop
  | createSource (auth : AuthContext) (supply : Supply) (input : CreateSourcePolicy) :
      ReverseServed x db (Call.after x ⟨auth, supply, .createSource input⟩ db)
  | createRecord (auth : AuthContext) (supply : Supply) (input : CreateAlertRule) :
      ReverseServed x db (Call.after x ⟨auth, supply, .createRecord input⟩ db)
  | upsertAlertEmbedding (auth : AuthContext) (supply : Supply) (alertRuleId : Uuid)
      (input : ReverseMatch.AlertRuleEmbeddingUpsertRequest) :
      ReverseServed x db (Call.after x ⟨auth, supply, .upsertAlertEmbedding alertRuleId input⟩ db)
  | reverse (c : ReverseIngest) : ReverseServed x db (c.after x db)

def ReverseRun (x : Platform) : Db → Prop := ReflTransGen (ReverseServed x) Db.empty

/-- A request that is neither an evaluation nor a reverse match adds no
candidates. -/
theorem Call.after_steps_of_not_path {G : Db → MatchCandidateRow → Prop} (hx : x.Lawful)
    (hwf : Wf x db) {call : Call} (he : ∀ input, call.request ≠ .evaluateMatches input)
    (hr : ∀ sourceId input, call.request ≠ .reverseMatchPage sourceId input) :
    Steps x G call.auth.tenantId db (call.after x db) :=
  Call.moves hx hwf (fun input _ _ _ h => absurd h (he input))
    (fun sourceId input h => absurd h (hr sourceId input))

theorem ReverseServed.steps (hx : x.Lawful) (hwf : Wf x db) (h : ReverseServed x db db') :
    ∃ T, Steps x (fun _ r => r.matchMode = .reverseAlertStream) T db db' := by
  cases h with
  | createSource | createRecord | upsertAlertEmbedding =>
    refine ⟨_, Call.after_steps_of_not_path hx hwf (fun input h => ?_) fun sourceId input h => ?_⟩
    · cases h
    · cases h
  | reverse c => exact ⟨_, c.after_steps fun _ _ _ _ => rfl⟩

/-- **Every candidate is a reverse one.** -/
theorem ReverseRun.reverseOnly (hx : x.Lawful) (h : ReverseRun x db) :
    Wf x db ∧ ∀ r ∈ db.matchCandidates, r.matchMode = .reverseAlertStream := by
  induction h with
  | refl => exact ⟨Wf.empty x, by simp [Db.empty]⟩
  | tail _ hs ih =>
    obtain ⟨T, hsteps⟩ := hs.steps hx ih.1
    exact ⟨ih.1.steps hsteps, hsteps.candidates (fun _ h => h) ih.2⟩

/-- A rule the call finds has a candidate for the page and content of the call,
in the model space of the call, that was made from another page vector. -/
def ReverseIngest.OtherVector (x : Platform) (db : Db) (c : ReverseIngest) : Prop :=
  ∃ wires, ReverseMatch.findAlertCandidates x c.tenantId c.sourceId c.request db = (.ok wires, db) ∧
    ∃ wire ∈ wires, ∃ v, c.Recorded x db v ∧ ∃ r ∈ db.matchCandidates,
      r.For c.tenantId wire.alertRuleRevisionId v.id c.request.embedding.toModelSpace ∧
      r.pageEmbeddingSha256 ≠ some (c.fingerprint x)

/-- **The outcome of a call**: a conflict that changes nothing if a rule it finds
was matched with another vector of this page and content, and a candidate for
every rule it finds if not. -/
theorem recrawl_outcome (hx : x.Lawful) (hc : x.CollisionFree) (hdb : ReverseRun x db)
    {c : ReverseIngest} (hv : c.Valid x db) :
    (c.OtherVector x db → c.exec x db
      = (.error (.conflict "canonical match identity exists with different evidence"), db)) ∧
    (¬ c.OtherVector x db → ∃ wires response s,
      ReverseMatch.findAlertCandidates x c.tenantId c.sourceId c.request db = (.ok wires, db) ∧
      c.exec x db = (.ok response, s) ∧
      List.Forall₂ (c.Answered x response.pageRevisionId s) wires response.candidates) := by
  obtain ⟨hwf, hreverse⟩ := hdb.reverseOnly hx
  have hk : Function.Injective (Store.matchKey x) := fun _ _ h => Store.matchKey_inj hc h
  constructor
  · rintro ⟨wires, hwires, wire, hwire, v, hrec, r, hr, hfor, hvector⟩
    exact ReverseIngest.exec_conflict hx hk hwf hv hwires
      ⟨wire, hwire, v, hrec, r, hr, hfor, fun h => hvector h.2⟩
  · intro hsame
    obtain ⟨wires, hwires⟩ := ReverseIngest.findAlertCandidates_total hx hwf hv
    have hfree : ∀ wire ∈ wires, ¬ c.Blocked x db wire := by
      rintro wire hwire ⟨v, hrec, r, hr, hfor, hother⟩
      refine hsame ⟨wires, hwires, wire, hwire, v, hrec, r, hr, hfor, fun hvector => ?_⟩
      exact hother ⟨hreverse r hr, hvector⟩
    obtain ⟨response, s, hrun, hall⟩ := ReverseIngest.exec_ok hx hk hwf hv hwires hfree
    exact ⟨wires, response, s, hwires, hrun, hall⟩

/-! ### A page that comes back -/

namespace Scenario

/-- The store with the source, the rule and its embedding. -/
def embedded : Db := EmbeddedAlerts.after Platform.sample [createSource, createRule, embedRule] Db.empty

theorem reverseRun_embedded : ReverseRun Platform.sample embedded :=
  ((ReflTransGen.refl.tail (.createSource _ _ _)).tail (.createRecord _ _ _)).tail
    (.upsertAlertEmbedding _ _ _ _)

/-- The store after the page was crawled for the first time. -/
def crawled : Db := (reverseIngest 40 diagonal).after Platform.sample embedded

theorem reverseRun_crawled : ReverseRun Platform.sample crawled :=
  reverseRun_embedded.tail (.reverse _)

theorem ready_crawled : Ready 60 crawled := by decide +kernel

theorem recrawl_valid : (reverseIngest 60 axis).Valid Platform.sample crawled :=
  ready_crawled.reverseIngest_valid rfl (by norm_num)

/-- The rule is found with either vector. -/
theorem found_again {vector : List F32Bits} (h : vector = diagonal ∨ vector = axis) :
    ∃ wires, ReverseMatch.findAlertCandidates Platform.sample 1 10
        (reverseIngest 60 vector).request crawled = (.ok wires, crawled) ∧
      wires.map ReverseMatch.CandidateWire.alertRuleRevisionId = [21] := by
  have hwf := (reverseRun_crawled.reverseOnly Platform.sample_lawful).1
  have hv : (reverseIngest 60 vector).Valid Platform.sample crawled := by
    obtain rfl | rfl := h
    · exact ready_crawled.reverseIngest_valid rfl (by norm_num)
    · exact recrawl_valid
  have hids : (ReverseMatch.findAlertCandidates Platform.sample 1 10
      (reverseIngest 60 vector).request crawled).1.toOption.map
        (List.map ReverseMatch.CandidateWire.alertRuleRevisionId) = some [21] := by
    obtain rfl | rfl := h
    · decide +kernel
    · decide +kernel
  obtain ⟨wires, hwires⟩ := ReverseIngest.findAlertCandidates_total Platform.sample_lawful hwf hv
  have hfound : ReverseMatch.findAlertCandidates Platform.sample 1 10
      (reverseIngest 60 vector).request crawled = (.ok wires, crawled) := hwires
  rw [hfound] at hids
  exact ⟨wires, hfound, Option.some.inj hids⟩

end Scenario

open Scenario in
/-- **The same content with another vector is a conflict**, without any
collision. -/
theorem recrawl_conflicts :
    ¬ ∀ x : Platform, x.Lawful → x.CollisionFree → ∀ db, ReverseRun x db →
      ∀ c : ReverseIngest, c.Valid x db → (c.exec x db).1
        ≠ .error (.conflict "canonical match identity exists with different evidence") := by
  intro h
  refine h Platform.sample Platform.sample_lawful Platform.sample_collisionFree crawled
    reverseRun_crawled (reverseIngest 60 axis) recrawl_valid ?_
  decide +kernel

open Scenario in
/-- A page that was crawled comes back: with the same vector the rule gets its candidate, with
another one the call is a conflict. -/
theorem recrawl_outcome_sample :
    (∃ wires response s, ReverseMatch.findAlertCandidates Platform.sample 1 10
        (reverseIngest 60 diagonal).request crawled = (.ok wires, crawled) ∧
      wires.map ReverseMatch.CandidateWire.alertRuleRevisionId = [21] ∧
      (reverseIngest 60 diagonal).exec Platform.sample crawled = (.ok response, s) ∧
      List.Forall₂ ((reverseIngest 60 diagonal).Answered Platform.sample response.pageRevisionId s)
        wires response.candidates) ∧
    (reverseIngest 60 axis).exec Platform.sample crawled
      = (.error (.conflict "canonical match identity exists with different evidence"), crawled) := by
  constructor
  · have hv : (reverseIngest 60 diagonal).Valid Platform.sample crawled :=
      ready_crawled.reverseIngest_valid rfl (by norm_num)
    have hsame : ∀ r ∈ crawled.matchCandidates, r.pageEmbeddingSha256
        = some ((reverseIngest 60 diagonal).fingerprint Platform.sample) := by decide +kernel
    have hfree : ¬ (reverseIngest 60 diagonal).OtherVector Platform.sample crawled := by
      rintro ⟨_, _, _, _, _, _, r, hr, -, hother⟩
      exact hother (hsame r hr)
    obtain ⟨wires, response, s, hwires, hrun, hall⟩ := (recrawl_outcome Platform.sample_lawful
      Platform.sample_collisionFree reverseRun_crawled hv).2 hfree
    obtain ⟨wires', hwires', hids⟩ := found_again (Or.inl rfl)
    have hwires : ReverseMatch.findAlertCandidates Platform.sample 1 10
        (reverseIngest 60 diagonal).request crawled = (.ok wires, crawled) := hwires
    rw [hwires] at hwires'
    obtain rfl := Except.ok.inj (Prod.mk.inj hwires').1
    exact ⟨wires, response, s, hwires, hids, hrun, hall⟩
  · refine (recrawl_outcome Platform.sample_lawful Platform.sample_collisionFree
      reverseRun_crawled recrawl_valid).1 ?_
    obtain ⟨wires, hwires, hids⟩ := found_again (Or.inr rfl)
    obtain ⟨wire, hwire, hrule⟩ : ∃ wire ∈ wires, wire.alertRuleRevisionId = 21 := by
      rw [← List.mem_map, hids]
      exact List.mem_cons_self
    obtain ⟨v, hv, htenant, hcontent, hpage, r, hr, hfor, hother⟩ : ∃ v ∈ crawled.pageRevisions,
        v.tenantId = 1 ∧ v.contentSha256 = ReverseMatch.contentSha256 Platform.sample
          (reverseIngest 60 axis).request.contentText ∧
        (∃ p ∈ crawled.pages, p.id = v.pageId ∧ p.tenantId = 1 ∧ p.sourceId = 10 ∧
          p.canonicalUrl = (reverseIngest 60 axis).finalUrl) ∧
        ∃ r ∈ crawled.matchCandidates, (r.tenantId = 1 ∧ r.alertRuleRevisionId = some 21 ∧
          r.revisionId = v.id ∧ r.scoreExplanation.space = space) ∧
          r.pageEmbeddingSha256 ≠ some ((reverseIngest 60 axis).fingerprint Platform.sample) := by
      decide +kernel
    obtain ⟨htenant', hrevision, hpageRevision, hspace⟩ := hfor
    rw [← hrule] at hrevision
    exact ⟨wires, hwires, wire, hwire, v, ⟨hv, htenant, hcontent, hpage⟩, r, hr,
      ⟨htenant', hrevision, hpageRevision, hspace⟩, hother⟩

end EmbeddedAlerts
