import EmbeddedAlerts.Ranking

/-!
# Active rules

A rule is inserted without an active revision and is given one before its creation
commits, so in every store that is reached each rule has an active revision
(`Reachable.active`).  The trigger of `migrations/007` counts the rows of a join; since
a revision id occurs once, that is the number of rules whose active revision is their
own and enabled (`activeCount_eq`).
-/

namespace EmbeddedAlerts

open Sql Relation

variable {x : Platform} {db db' : Db}

/-! ### Counting -/

/-- The active revision of the rule is its own, and enabled. -/
def enabledActive (revisions : List AlertRuleRevisionRow) (rule : AlertRuleRow) : Bool :=
  revisions.any fun v => decide (v.tenantId = rule.tenantId ∧ some v.id = rule.activeRevisionId ∧
    v.alertRuleId = rule.id ∧ v.enabled = true)

/-- A join that finds one row or none has as many rows as there are matches. -/
theorem length_flatMap_of_le_one {α β : Type} {f : α → List β} {p : α → Bool} {l : List α}
    (h : ∀ a ∈ l, (f a).length = if p a then 1 else 0) :
    (l.flatMap f).length = (l.filter p).length := by
  induction l with
  | nil => rfl
  | cons a l ih =>
    have ha := h a List.mem_cons_self
    have hl := ih fun b hb => h b (List.mem_cons_of_mem _ hb)
    rw [List.flatMap_cons, List.length_append, ha, hl, List.filter_cons]
    split_ifs
    · rw [List.length_cons, Nat.add_comm]
    · rw [Nat.zero_add]

theorem length_enabledActiveRevisions {revisions : List AlertRuleRevisionRow}
    (hids : Distinct AlertRuleRevisionRow.id revisions) (rule : AlertRuleRow) :
    (AlertStore.enabledActiveRevisions revisions rule).length
      = if enabledActive revisions rule then 1 else 0 := by
  have hle : (AlertStore.enabledActiveRevisions revisions rule).length ≤ 1 := by
    have hpair : (AlertStore.enabledActiveRevisions revisions rule).Pairwise fun _ _ => False := by
      cases hactive : rule.activeRevisionId with
      | none =>
        have hnil : AlertStore.enabledActiveRevisions revisions rule = [] := by
          simp [AlertStore.enabledActiveRevisions, hactive]
        rw [hnil]
        exact List.Pairwise.nil
      | some id =>
        refine hids.pairwise_filter (c := id) fun v hv => ?_
        obtain ⟨-, hid, -⟩ := of_decide_eq_true hv
        rw [hactive] at hid
        exact Option.some.inj hid
    rcases hl : AlertStore.enabledActiveRevisions revisions rule with _ | ⟨v, _ | ⟨w, l⟩⟩
    · simp
    · simp
    · rw [hl] at hpair
      exact absurd ((List.pairwise_cons.mp hpair).1 w List.mem_cons_self) id
  by_cases hany : enabledActive revisions rule = true
  · rw [if_pos hany]
    obtain ⟨v, hv, hmatch⟩ := List.any_eq_true.mp hany
    have hmem : v ∈ AlertStore.enabledActiveRevisions revisions rule :=
      List.mem_filter.mpr ⟨hv, hmatch⟩
    have hpos := List.length_pos_of_mem hmem
    omega
  · rw [if_neg hany, List.length_eq_zero_iff]
    rw [Bool.not_eq_true, enabledActive, List.any_eq_false] at hany
    rw [AlertStore.enabledActiveRevisions, List.filter_eq_nil_iff]
    exact hany

/-- The other rules of the owner whose active revision is their own and enabled. -/
def activeOthers (rules : List AlertRuleRow) (revisions : List AlertRuleRevisionRow)
    (new : AlertRuleRow) : List AlertRuleRow :=
  (rules.filter fun rule => decide (rule.tenantId = new.tenantId ∧
    rule.ownerSubject = new.ownerSubject ∧ rule.id ≠ new.id)).filter (enabledActive revisions)

/-- **The trigger counts rules.** -/
theorem activeCount_eq {rules : List AlertRuleRow} {revisions : List AlertRuleRevisionRow}
    (hids : Distinct AlertRuleRevisionRow.id revisions) (new : AlertRuleRow) :
    AlertStore.activeCount rules revisions new = (activeOthers rules revisions new).length :=
  length_flatMap_of_le_one fun rule _ => length_enabledActiveRevisions hids rule

theorem Db.Valid.distinct_revisions (h : db.Valid) :
    Distinct AlertRuleRevisionRow.id db.alertRuleRevisions :=
  h.alertRuleRevisions.keys.imp fun h heq => by simp [alertRuleRevisionsTable, heq] at h

/-! ### Every rule is active -/

/-- Every rule has an active revision. -/
def AllActive (db : Db) : Prop :=
  ∀ r ∈ db.alertRules, ∃ v ∈ db.alertRuleRevisions, r.activeRevisionId = some v.id

/-- The rules stay as they are. -/
def SameRules (db db' : Db) : Prop := db'.alertRules = db.alertRules

instance : Std.Refl SameRules := ⟨fun _ => rfl⟩

instance : IsTrans Db SameRules := ⟨fun _ _ _ h h' => h'.trans h⟩

theorem createSource_sameRules {now : Timestamp} {id T : Uuid} {input : CreateSourcePolicy}
    {root : String} (db : Db) :
    Action.Moves SameRules (Store.createSource now id T input root) db := by
  refine Action.Moves.bind (Action.Moves.statement fun o d h => ?_) fun _ _ _ => Action.Moves.okOr
  obtain ⟨_, -, hrows⟩ := except_bind_eq_ok h
  obtain ⟨-, rfl⟩ := Prod.mk.inj (Except.ok.inj hrows)
  rfl

theorem upsertAlertRuleEmbedding_sameRules {now : Timestamp} {id T alertRuleId : Uuid}
    {request : ReverseMatch.AlertRuleEmbeddingUpsertRequest} (db : Db) :
    Action.Moves SameRules
      (ReverseMatch.upsertAlertRuleEmbedding x now id T alertRuleId request) db := by
  refine Action.Moves.ofExcept_bind fun _ _ => ?_
  refine Action.Moves.bind (Action.Moves.statement fun o d h => ?_) fun o d _ =>
    Action.Moves.okOr_bind fun _ _ => Action.Moves.ensure_bind fun _ => Action.Moves.of_same rfl
  unfold ReverseMatch.upsertAlertRuleEmbeddingStatement at h
  split at h
  · obtain ⟨-, rfl⟩ := Prod.mk.inj (Except.ok.inj h)
    rfl
  · obtain ⟨_, -, hrows⟩ := except_bind_eq_ok h
    obtain ⟨-, rfl⟩ := Prod.mk.inj (Except.ok.inj hrows)
    rfl

theorem ingestPageStatement_sameRules {now : Timestamp} {ids : ℕ → Uuid} {T sourceId : Uuid}
    {input : PageIngestRequest} {originalUrl finalUrl : String} {o : Option Store.PageRevision}
    (h : Store.ingestPageStatement x now ids T sourceId input originalUrl finalUrl db db
      = .ok (o, db')) : SameRules db db' := by
  obtain ⟨⟨page, pages⟩, -, h1⟩ := except_bind_eq_ok h
  obtain ⟨⟨revision, d1⟩, hrevision, h2⟩ := except_bind_eq_ok h1
  obtain ⟨⟨embedding, d2⟩, hembedding, h3⟩ := except_bind_eq_ok h2
  obtain ⟨⟨updated, d3⟩, hupdated, h4⟩ := except_bind_eq_ok h3
  obtain ⟨-, rfl⟩ := Prod.mk.inj (Except.ok.inj h4)
  rw [Store.updatedPage_ok] at hupdated
  obtain ⟨-, rfl⟩ := Prod.mk.inj (Except.ok.inj hupdated)
  have h1 : d1.alertRules = db.alertRules := by
    unfold Store.selectRevision at hrevision
    simp only at hrevision
    split at hrevision
    · obtain ⟨-, rfl⟩ := Prod.mk.inj (Except.ok.inj hrevision)
      rfl
    · obtain ⟨_, -, hrows⟩ := except_bind_eq_ok hrevision
      obtain ⟨-, rfl⟩ := Prod.mk.inj (Except.ok.inj hrows)
      rfl
  have h2 : d2.alertRules = d1.alertRules := by
    unfold Store.selectEmbedding at hembedding
    split at hembedding
    · obtain ⟨-, rfl⟩ := Prod.mk.inj (Except.ok.inj hembedding)
      rfl
    · obtain ⟨_, -, hrows⟩ := except_bind_eq_ok hembedding
      obtain ⟨-, rfl⟩ := Prod.mk.inj (Except.ok.inj hrows)
      rfl
  exact h2.trans h1

theorem evaluateMatches_sameRules (c : Evaluation) (db : Db) :
    Action.Moves SameRules (c.exec x) db := by
  refine Action.Moves.bind (Action.Moves.of_same (Store.searchEmbeddings_snd _ _ db))
    fun page d _ => Action.Moves.forEach _ d fun record _ s _ => ?_
  refine Action.Moves.bind (Action.Moves.statement fun o d h => ?_) fun o d _ =>
    Action.Moves.okOr_bind fun _ _ => Action.Moves.of_same rfl
  rcases Store.upsertMatch_ok h with ⟨-, rfl, -⟩ | ⟨-, rfl, -⟩
  · rfl
  · rfl

theorem reverse_sameRules (c : ReverseIngest) (db : Db) :
    Action.Moves SameRules (c.exec x) db := by
  refine Action.Moves.ofExcept_bind fun _ _ => Action.Moves.transaction ?_
  refine Action.Moves.bind ?_ fun page d _ => Action.Moves.bind
    (Action.Moves.of_same (ReverseMatch.findAlertCandidates_snd _ _ _ d)) fun wires d _ =>
      Action.Moves.bind (Action.Moves.forEach _ d fun turn _ s _ => ?_)
        fun _ _ _ => Action.Moves.of_same rfl
  · refine Action.Moves.bind (Action.Moves.statement fun o d h => ?_) fun o d _ =>
      Action.Moves.okOr_bind fun page _ => Action.Moves.bind (Action.Moves.statement fun u d' h => ?_)
        fun _ _ _ => Action.Moves.of_same rfl
    · obtain ⟨⟨p, pages⟩, -, hp⟩ := except_bind_eq_ok h
      obtain ⟨⟨revision, revisions⟩, -, hr⟩ := except_bind_eq_ok hp
      obtain ⟨-, rfl⟩ := Prod.mk.inj (Except.ok.inj hr)
      rfl
    · obtain ⟨f, -, rfl⟩ := ReverseMatch.setLatestRevision_ok h
      rfl
  · refine Action.Moves.bind (Action.Moves.statement fun o d h => ?_) fun o d _ =>
      Action.Moves.okOr_bind fun _ _ => Action.Moves.of_same rfl
    rcases ReverseMatch.persistStatement_ok h with ⟨-, rfl, -⟩ | ⟨-, rfl, -⟩
    · rfl
    · rfl

/-- What the creation of a rule does when it succeeds. -/
structure CreatesRule (now : Timestamp) (ids : ℕ → Uuid) (T : Uuid) (subject : String)
    (input : CreateAlertRule) (db db' : Db) : Prop where
  rule : alertRulesTable.Admits db db.alertRules (AlertStore.newAlertRule now (ids 0) T subject)
  revision : alertRuleRevisionsTable.Admits
    { db with alertRules := db.alertRules ++ [AlertStore.newAlertRule now (ids 0) T subject] }
    db.alertRuleRevisions (AlertStore.newAlertRuleRevision now (ids 1) (ids 0) T subject input)
  admitted : AlertStore.enforceActiveAlertLimit
    (db.alertRules ++ [AlertStore.newAlertRule now (ids 0) T subject])
    (db.alertRuleRevisions ++ [AlertStore.newAlertRuleRevision now (ids 1) (ids 0) T subject input])
    (AlertStore.activated now (ids 1) (AlertStore.newAlertRule now (ids 0) T subject))
      = .ok (AlertStore.activated now (ids 1) (AlertStore.newAlertRule now (ids 0) T subject))
  after : db' = { db with
    alertRules := db.alertRules
      ++ [AlertStore.activated now (ids 1) (AlertStore.newAlertRule now (ids 0) T subject)]
    alertRuleRevisions := db.alertRuleRevisions
      ++ [AlertStore.newAlertRuleRevision now (ids 1) (ids 0) T subject input] }

theorem activateAlertRule_new {now : Timestamp} {ruleId T revisionId : Uuid} {subject : String}
    {rules : List AlertRuleRow} {revisions : List AlertRuleRevisionRow}
    (hfresh : ∀ r ∈ rules, r.id ≠ ruleId)
    (h : AlertStore.activateAlertRule now ruleId T revisionId
      { db with
        alertRules := rules ++ [AlertStore.newAlertRule now ruleId T subject]
        alertRuleRevisions := revisions }
      { db with
        alertRules := rules ++ [AlertStore.newAlertRule now ruleId T subject]
        alertRuleRevisions := revisions } = .ok (1, db')) :
    AlertStore.enforceActiveAlertLimit (rules ++ [AlertStore.newAlertRule now ruleId T subject])
        revisions (AlertStore.activated now revisionId (AlertStore.newAlertRule now ruleId T subject))
      = .ok (AlertStore.activated now revisionId (AlertStore.newAlertRule now ruleId T subject)) ∧
    db' = { db with
      alertRules := rules
        ++ [AlertStore.activated now revisionId (AlertStore.newAlertRule now ruleId T subject)]
      alertRuleRevisions := revisions } := by
  have hold : ∀ r ∈ rules, AlertStore.isRule ruleId T r = false :=
    fun r hr => decide_eq_false fun his => hfresh r hr his.1
  have hnew : AlertStore.isRule ruleId T (AlertStore.newAlertRule now ruleId T subject) = true :=
    decide_eq_true ⟨rfl, rfl⟩
  have hfind : (rules ++ [AlertStore.newAlertRule now ruleId T subject]).find?
      (AlertStore.isRule ruleId T) = some (AlertStore.newAlertRule now ruleId T subject) := by
    rw [List.find?_append, List.find?_eq_none.mpr (by simpa using hold), List.find?_singleton,
      if_pos hnew, Option.none_or]
  unfold AlertStore.activateAlertRule at h
  rw [hfind] at h
  obtain ⟨new, hadmitted, h⟩ := except_bind_eq_ok h
  obtain rfl := AlertStore.enforceActiveAlertLimit_ok hadmitted
  refine ⟨hadmitted, ?_⟩
  split at h
  · cases h
  · obtain rfl := (Prod.mk.inj (Except.ok.inj h)).2
    have hmap : rules.map (fun r => if AlertStore.isRule ruleId T r then
        AlertStore.activated now revisionId r else r) = rules := by
      refine (List.map_congr_left fun r hr => ?_).trans (List.map_id' rules)
      rw [hold r hr]
      rfl
    rw [List.map_append, List.map_singleton, if_pos hnew, hmap]

/-- **The creation of a rule either does nothing or creates it, active.** -/
theorem createAlertRule_moves_of {R : Db → Db → Prop} [Std.Refl R] [IsTrans Db R] {now : Timestamp}
    {ids : ℕ → Uuid} {T : Uuid} {subject : String} {input : CreateAlertRule}
    (hR : ∀ d, CreatesRule now ids T subject input db d → R db d) :
    Action.Moves R (AlertStore.createAlertRule now ids T subject input) db := by
  refine Action.Moves.bind (Action.Moves.transaction_of_ok fun row d h => hR d ?_)
    fun _ _ _ => Action.Moves.okOr
  obtain ⟨n, s1, hinsert, h1⟩ := Action.bind_eq_ok h
  obtain ⟨hrule, rfl⟩ := AlertStore.insertAlertRule_ok (execute_eq_ok hinsert)
  obtain ⟨_, _, hensure1, h2⟩ := Action.bind_eq_ok h1
  obtain ⟨-, rfl⟩ := Routes.ensure_ok hensure1
  obtain ⟨n', s2, hinsert', h3⟩ := Action.bind_eq_ok h2
  obtain ⟨hrevision, rfl⟩ := AlertStore.insertAlertRuleRevision_ok (execute_eq_ok hinsert')
  obtain ⟨_, _, hensure2, h4⟩ := Action.bind_eq_ok h3
  obtain ⟨-, rfl⟩ := Routes.ensure_ok hensure2
  obtain ⟨n'', s3, hactivate, h5⟩ := Action.bind_eq_ok h4
  obtain ⟨_, _, hensure3, h6⟩ := Action.bind_eq_ok h5
  obtain ⟨rfl, rfl⟩ := Routes.ensure_ok hensure3
  obtain ⟨-, rfl⟩ := Prod.mk.inj h6
  have hfresh : ∀ r ∈ db.alertRules, r.id ≠ ids 0 := by
    intro r hr heq
    have hkey := hrule.fresh r hr
    simp [alertRulesTable, AlertStore.newAlertRule, heq] at hkey
  obtain ⟨hadmitted, rfl⟩ := activateAlertRule_new hfresh (execute_eq_ok hactivate)
  exact ⟨hrule, hrevision, hadmitted, rfl⟩

/-- Every rule goes on having an active revision. -/
def KeepsActive (db db' : Db) : Prop := AllActive db → AllActive db'

instance : Std.Refl KeepsActive := ⟨fun _ h => h⟩

instance : IsTrans Db KeepsActive := ⟨fun _ _ _ h h' ha => h' (h ha)⟩

theorem SameRules.keepsActive (h : SameRules db db') (hg : Grows db db') : KeepsActive db db' := by
  intro hactive r hr
  rw [h] at hr
  obtain ⟨v, hv, hid⟩ := hactive r hr
  exact ⟨v, hg.alertRuleRevisions hv, hid⟩

/-- **A rule that is created is active when its transaction commits.** -/
theorem createAlertRule_active {now : Timestamp} {ids : ℕ → Uuid} {T : Uuid} {subject : String}
    {input : CreateAlertRule} (db : Db) :
    Action.Moves KeepsActive (AlertStore.createAlertRule now ids T subject input) db := by
  refine createAlertRule_moves_of fun d h hactive r hr => ?_
  rw [h.after] at hr ⊢
  rcases List.mem_append.mp hr with hold | hnew
  · obtain ⟨v, hv, hid⟩ := hactive r hold
    exact ⟨v, List.mem_append_left _ hv, hid⟩
  · obtain rfl := List.mem_singleton.mp hnew
    exact ⟨_, List.mem_append_right _ (List.mem_singleton_self _), rfl⟩

theorem Call.keepsActive (hx : x.Lawful) (hwf : Wf x db) (call : Call) :
    KeepsActive db (call.after x db) := by
  have hgrows := (call.after_steps hx hwf).grows
  suffices h : KeepsActive db (call.after x db) ∨ SameRules db (call.after x db) by
    rcases h with h | h
    · exact h
    · exact h.keepsActive hgrows
  obtain ⟨auth, supply, request⟩ := call
  cases request with
  | createRecord input =>
    refine Or.inl (moves_return (R := KeepsActive) (Routes.moves_validated_bind fun _ _ => ?_))
    exact createAlertRule_active db
  | listRecords | listSources => exact Or.inr rfl
  | getRecord | getSource =>
    exact Or.inr (moves_return (R := SameRules) (Action.Moves.query_bind Action.Moves.okOr))
  | upsertAlertEmbedding alertRuleId input =>
    refine Or.inr (moves_return (R := SameRules) (Routes.moves_validated_bind fun _ _ => ?_))
    exact upsertAlertRuleEmbedding_sameRules db
  | createSource input =>
    refine Or.inr (moves_return (R := SameRules) (Action.Moves.ensure_bind fun _ => ?_))
    refine Routes.moves_validated_bind fun _ _ => Routes.moves_validated_bind fun _ _ => ?_
    exact createSource_sameRules db
  | ingestPage sourceId input =>
    refine Or.inr (moves_return (R := SameRules) (Routes.moves_validated_bind fun _ _ => ?_))
    refine Action.Moves.bind (Action.Moves.of_reads (Routes.admittedUrls_reads _ _ _ db))
      fun urls d _ => ?_
    refine Action.Moves.bind (Action.Moves.statement fun o d' h => ?_) fun _ _ _ =>
      Action.Moves.okOr
    exact ingestPageStatement_sameRules h
  | reverseMatchPage sourceId input =>
    refine Or.inr (moves_return (R := SameRules) (Routes.moves_validated_bind fun _ _ => ?_))
    refine Action.Moves.bind (Action.Moves.of_reads (Routes.admittedUrls_reads _ _ _ db))
      fun urls d _ => ?_
    exact reverse_sameRules ⟨_, _, _, _, _, _, _⟩ d
  | searchEmbeddings input =>
    refine Or.inr (moves_return (R := SameRules) (Routes.moves_validated_bind fun _ _ => ?_))
    exact Action.Moves.bind (Action.Moves.of_same (Store.searchEmbeddings_snd _ _ db))
      fun _ _ _ => Action.Moves.of_same rfl
  | evaluateMatches input =>
    refine Or.inr (moves_return (R := SameRules) ?_)
    refine Action.Moves.bind (Action.Moves.of_reads (Routes.evaluationFor_reads auth input db))
      fun evaluation d _ => ?_
    exact evaluateMatches_sameRules ⟨_, _, _, _, _, _, _⟩ d

/-- **Every rule of a store that is reached has an active revision.** -/
theorem Reachable.active (hx : x.Lawful) (h : Reachable x db) : AllActive db := by
  induction h with
  | refl =>
    intro r hr
    cases hr
  | tail hrun hs ih =>
    have hwf := Reachable.wf hx hrun
    obtain ⟨T, hsteps⟩ := hs.steps hx hwf
    cases hs with
    | request call => exact Call.keepsActive hx hwf call ih
    | evaluate c _ => exact SameRules.keepsActive (evaluateMatches_sameRules c _) hsteps.grows ih
    | reverse c => exact SameRules.keepsActive (reverse_sameRules c _) hsteps.grows ih

end EmbeddedAlerts
