import EmbeddedAlerts.ActiveRules
import EmbeddedAlerts.Isolation
import EmbeddedAlerts.Machine.Register

/-!
# Rules and sources as registers

What members can do with rules and with sources is to create them, to ask for one and to
list them.  To the members both are registers (`Register`): there is no route that changes
or removes a record, and none of the other routes touches one.

The rules of a store are spread over two tables, and a rule is what the join of its row
with its active revision makes of them (`Db.rules`).

* `Db.rules_of_creates`: the creation of a rule adds what it answers with.
* `rule_ledger`, `source_ledger`: **the answers with status 201 are the book.**  Whatever
  other requests come in between, what every later request for a rule or a source is
  answered with can be read off the answers of status 201 before it, and the caller.
-/

namespace EmbeddedAlerts

open Sql Text Relation

variable {x : Platform} {db db' : Db}

/-! ### The books -/

/-- The rules, as they are answered with. -/
def Db.rules (db : Db) : List AlertRule := db.alertRules.flatMap (AlertStore.joinActiveRevision db)

/-- A caller sees the rules of its tenant that it may access. -/
def AuthContext.seesRule (auth : AuthContext) (rule : AlertRule) : Bool :=
  decide (rule.tenantId = auth.tenantId) && auth.canAccessOwner rule.ownerSubject

/-- A caller sees the sources of its tenant. -/
def AuthContext.seesSource (auth : AuthContext) (source : SourcePolicy) : Bool :=
  decide (source.tenantId = auth.tenantId)

/-- A filter on what comes of the elements is one on the elements. -/
theorem filter_flatMap_of {α β : Type} {f : α → List β} {p : α → Bool} {q : β → Bool}
    (l : List α) (h : ∀ a, ∀ b ∈ f a, q b = p a) :
    (l.flatMap f).filter q = (l.filter p).flatMap f := by
  induction l with
  | nil => rfl
  | cons a l ih =>
    rw [List.flatMap_cons, List.filter_append, ih]
    cases hp : p a with
    | true =>
      rw [List.filter_cons_of_pos hp, List.flatMap_cons,
        List.filter_eq_self.mpr fun b hb => (h a b hb).trans hp]
    | false =>
      have hneg : ¬ p a = true := by
        rw [hp]
        exact Bool.false_ne_true
      rw [List.filter_cons_of_neg hneg, List.filter_eq_nil_iff.mpr, List.nil_append]
      intro b hb
      rw [h a b hb]
      exact hneg

theorem joinActiveRevision_row {row : AlertRuleRow} {rule : AlertRule}
    (h : rule ∈ AlertStore.joinActiveRevision db row) :
    rule.id = row.id ∧ rule.tenantId = row.tenantId ∧ rule.ownerSubject = row.ownerSubject := by
  obtain ⟨revision, -, rfl⟩ := List.mem_map.mp h
  exact ⟨rfl, rfl, rfl⟩

theorem seesRule_of_join {auth : AuthContext} {row : AlertRuleRow} {rule : AlertRule}
    (h : rule ∈ AlertStore.joinActiveRevision db row) :
    auth.seesRule rule = (decide (row.tenantId = auth.tenantId) &&
      AlertStore.mayRead auth.subject auth.isTenantAdmin row) := by
  obtain ⟨-, htenant, howner⟩ := joinActiveRevision_row h
  rw [AuthContext.seesRule, htenant, howner, AuthContext.canAccessOwner, AlertStore.mayRead]
  simp only [eq_comm]

/-- **`list_alert_rules` lists the book.** -/
theorem listRecords_apply (auth : AuthContext) (db : Db) : Routes.listRecords auth db
    = (.ok (Register.list auth.seesRule AlertStore.newestFirst 500 db.rules), db) := by
  rw [Register.list, Db.rules, filter_flatMap_of _ fun row rule h => seesRule_of_join h]
  rfl

/-- **`get_alert_rule` gets from the book.** -/
theorem getRecord_apply (auth : AuthContext) (id : Uuid) (db : Db) : Routes.getRecord auth id db
    = ((Register.get auth.seesRule AlertRule.id id db.rules).elim
        (.error (.notFound "alert rule was not found")) .ok, db) := by
  have hget : AlertStore.getAlertRule auth.tenantId id auth.subject auth.isTenantAdmin db
      = (.ok (Register.get auth.seesRule AlertRule.id id db.rules), db) := by
    rw [Register.get, ← List.head?_filter, Db.rules, filter_flatMap_of (p := fun row =>
      decide (row.tenantId = auth.tenantId ∧ row.id = id)
        && AlertStore.mayRead auth.subject auth.isTenantAdmin row)]
    · rfl
    · intro row rule h
      rw [seesRule_of_join h, (joinActiveRevision_row h).1]
      simp only [Bool.decide_and]
      rw [Bool.and_assoc, Bool.and_comm (AlertStore.mayRead _ _ _), ← Bool.and_assoc]
  rw [Routes.getRecord, Action.bind_of_ok hget]
  cases Register.get auth.seesRule AlertRule.id id db.rules with
  | none => rfl
  | some rule => rfl

theorem listSources_apply (auth : AuthContext) (db : Db) : Routes.listSources auth db
    = (.ok (Register.list auth.seesSource Store.newestFirst 500 db.sources), db) := rfl

theorem getSource_apply (auth : AuthContext) (id : Uuid) (db : Db) : Routes.getSource auth id db
    = ((Register.get auth.seesSource SourceRow.id id db.sources).elim
        (.error (.notFound "source policy was not found")) .ok, db) := by
  have hget : Store.getSource auth.tenantId id db
      = (.ok (Register.get auth.seesSource SourceRow.id id db.sources), db) := by
    simp only [Store.getSource, Register.get, AuthContext.seesSource, Action.query_apply,
      Bool.decide_and]
  rw [Routes.getSource, Action.bind_of_ok hget]
  cases Register.get auth.seesSource SourceRow.id id db.sources with
  | none => rfl
  | some source => rfl

/-! ### Creation -/

section Create

variable {now : Timestamp} {ids : ℕ → Uuid} {T : Uuid} {subject : String} {input : CreateAlertRule}

/-- The rule that `create_alert_rule` creates. -/
def createdRule (now : Timestamp) (ids : ℕ → Uuid) (T : Uuid) (subject : String)
    (input : CreateAlertRule) : AlertRule :=
  AlertStore.alertRuleJson
    (AlertStore.activated now (ids 1) (AlertStore.newAlertRule now (ids 0) T subject))
    (AlertStore.newAlertRuleRevision now (ids 1) (ids 0) T subject input)

theorem CreatesRule.fresh_rule (h : CreatesRule now ids T subject input db db') :
    ∀ row ∈ db.alertRules, row.id ≠ ids 0 := by
  intro row hrow heq
  have hkey := h.rule.fresh row hrow
  simp [alertRulesTable, AlertStore.newAlertRule, heq] at hkey

theorem CreatesRule.fresh_revision (h : CreatesRule now ids T subject input db db') :
    ∀ revision ∈ db.alertRuleRevisions, revision.id ≠ ids 1 := by
  intro revision hrevision heq
  have hkey := h.revision.fresh revision hrevision
  simp [alertRuleRevisionsTable, AlertStore.newAlertRuleRevision, heq] at hkey

/-- A revision that no rule points at adds nothing to the join. -/
theorem joinActiveRevision_append {row : AlertRuleRow} {revision : AlertRuleRevisionRow}
    (hdb : db'.alertRuleRevisions = db.alertRuleRevisions ++ [revision])
    (h : row.activeRevisionId ≠ some revision.id) :
    AlertStore.joinActiveRevision db' row = AlertStore.joinActiveRevision db row := by
  unfold AlertStore.joinActiveRevision
  rw [hdb, List.filter_append, List.filter_singleton, decide_eq_false fun hactive => ?_]
  · simp only [cond_false, List.append_nil]
  · exact h hactive.1.symm

/-- **The creation of a rule adds it to the book.** -/
theorem Db.rules_of_creates (hwf : Wf x db) (h : CreatesRule now ids T subject input db db') :
    db'.rules = db.rules ++ [createdRule now ids T subject input] := by
  have hrevisions : db'.alertRuleRevisions = db.alertRuleRevisions
      ++ [AlertStore.newAlertRuleRevision now (ids 1) (ids 0) T subject input] := by
    rw [h.after]
  have hold : ∀ row ∈ db.alertRules,
      AlertStore.joinActiveRevision db' row = AlertStore.joinActiveRevision db row := by
    intro row hrow
    refine joinActiveRevision_append hrevisions fun hactive => ?_
    obtain ⟨revision, hrevision, hid, -⟩ := hwf.active row hrow _ hactive
    exact h.fresh_revision revision hrevision hid
  have hnew : AlertStore.joinActiveRevision db'
      (AlertStore.activated now (ids 1) (AlertStore.newAlertRule now (ids 0) T subject))
      = [createdRule now ids T subject input] := by
    unfold AlertStore.joinActiveRevision
    rw [hrevisions, List.filter_append, List.filter_eq_nil_iff.mpr, List.nil_append,
      List.filter_singleton, decide_eq_true ⟨rfl, rfl⟩]
    · rfl
    · intro revision hrevision hmatch
      exact h.fresh_revision revision hrevision (Option.some.inj (of_decide_eq_true hmatch).1)
  have hrules : db'.alertRules = db.alertRules
      ++ [AlertStore.activated now (ids 1) (AlertStore.newAlertRule now (ids 0) T subject)] := by
    rw [h.after]
  rw [Db.rules, hrules, List.flatMap_append, List.flatMap_singleton, hnew, Db.rules]
  congr 1
  exact List.flatMap_congr hold

/-- What the transaction of `create_alert_rule` reads back. -/
theorem readback_of_creates (hwf : Wf x db) (h : CreatesRule now ids T subject input db db') :
    ((db'.alertRules.filter fun rule =>
      decide (rule.id = ids 0 ∧ rule.tenantId = T)).flatMap
        (AlertStore.joinActiveRevision db')).head? = some (createdRule now ids T subject input) := by
  have hjoin := filter_flatMap_of (f := AlertStore.joinActiveRevision db')
    (p := fun row => decide (row.id = ids 0 ∧ row.tenantId = T))
    (q := fun rule => decide (rule.id = ids 0 ∧ rule.tenantId = T)) db'.alertRules
    fun row rule hrule => by
      obtain ⟨hid, htenant, -⟩ := joinActiveRevision_row hrule
      rw [hid, htenant]
  rw [← hjoin]
  have hbook := Db.rules_of_creates hwf h
  rw [Db.rules] at hbook
  rw [hbook, List.head?_filter, List.find?_append, List.find?_eq_none.mpr, Option.none_or,
    List.find?_singleton, if_pos (decide_eq_true ⟨rfl, rfl⟩)]
  intro rule hrule hmatch
  obtain ⟨row, hrow, hmem⟩ := List.mem_flatMap.mp hrule
  exact h.fresh_rule row hrow ((joinActiveRevision_row hmem).1.symm.trans
    (of_decide_eq_true hmatch).1)

/-- **`create_alert_rule` fails and does nothing, or creates the rule and returns it.** -/
theorem createAlertRule_outcome (hwf : Wf x db) (now : Timestamp) (ids : ℕ → Uuid) (T : Uuid)
    (subject : String) (input : CreateAlertRule) :
    (∃ e, AlertStore.createAlertRule now ids T subject input db = (.error e, db)) ∨
    ∃ d, CreatesRule now ids T subject input db d ∧
      AlertStore.createAlertRule now ids T subject input db
        = (.ok (createdRule now ids T subject input), d) := by
  have houtcome : ∀ {body : Api (Option AlertRule)} {error : HttpError},
      (∀ row d, body db = (.ok row, d) → CreatesRule now ids T subject input db d ∧
        row = some (createdRule now ids T subject input)) →
      (∃ e, (Action.transaction body >>= fun row => Action.okOr error row) db = (.error e, db)) ∨
      ∃ d, CreatesRule now ids T subject input db d ∧
        (Action.transaction body >>= fun row => Action.okOr error row) db
          = (.ok (createdRule now ids T subject input), d) := by
    intro body error hbody
    rcases hrun : body db with ⟨e | row, d⟩
    · exact Or.inl ⟨e, Action.bind_of_error (Action.transaction_of_error hrun)⟩
    · obtain ⟨hcreates, rfl⟩ := hbody row d hrun
      exact Or.inr ⟨d, hcreates, Action.bind_of_ok (Action.transaction_of_ok hrun)⟩
  refine houtcome fun row d h => ?_
  obtain ⟨n, s1, hinsert, h1⟩ := Action.bind_eq_ok h
  obtain ⟨hrule, rfl⟩ := AlertStore.insertAlertRule_ok (execute_eq_ok hinsert)
  obtain ⟨_, _, hensure1, h2⟩ := Action.bind_eq_ok h1
  obtain ⟨-, rfl⟩ := Routes.ensure_ok hensure1
  obtain ⟨n', s2, hinsert', h3⟩ := Action.bind_eq_ok h2
  obtain ⟨hrevision, rfl⟩ := AlertStore.insertAlertRuleRevision_ok (execute_eq_ok hinsert')
  obtain ⟨_, _, hensure2, h4⟩ := Action.bind_eq_ok h3
  obtain ⟨-, rfl⟩ := Routes.ensure_ok hensure2
  obtain ⟨n'', s3, hactivate, h5⟩ := Action.bind_eq_ok h4
  obtain ⟨_, _, hensure3, h6⟩ := Action.bind_eq_ok h5
  obtain ⟨rfl, rfl⟩ := Routes.ensure_ok hensure3
  obtain ⟨hread, rfl⟩ := Prod.mk.inj h6
  have hfresh : ∀ r ∈ db.alertRules, r.id ≠ ids 0 := by
    intro r hr heq
    have hkey := hrule.fresh r hr
    simp [alertRulesTable, AlertStore.newAlertRule, heq] at hkey
  obtain ⟨hadmitted, hafter⟩ := activateAlertRule_new hfresh (execute_eq_ok hactivate)
  have hcreates : CreatesRule now ids T subject input db _ := ⟨hrule, hrevision, hadmitted, hafter⟩
  exact ⟨hcreates, (Except.ok.inj hread).symm.trans (readback_of_creates hwf hcreates)⟩

end Create

/-- **`create_source` fails and does nothing, or adds the source and returns it.**  It adds
none whose root the tenant has already. -/
theorem createSource_outcome (now : Timestamp) (id T : Uuid) (input : CreateSourcePolicy)
    (root : String) (db : Db) :
    (∃ e, Store.createSource now id T input root db = (.error e, db) ∧
      (e.reply.status = 409 → ∃ s ∈ db.sources, s.tenantId = T ∧ s.rootUrl = root)) ∨
    ((∀ s ∈ db.sources, ¬ (s.tenantId = T ∧ s.rootUrl = root)) ∧
      Store.createSource now id T input root db = (.ok (Store.newSource now id T input root),
        { db with sources := db.sources ++ [Store.newSource now id T input root] })) := by
  rcases hrun : Store.insertSource (Store.newSource now id T input root) db db with e | ⟨o, d⟩
  · refine Or.inl ⟨HttpError.ofDbErr e, Action.bind_of_error (execute_of_error hrun), ?_⟩
    have hinternal : (HttpError.ofDbErr e).reply.status = 500 := by
      cases e <;> rfl
    rw [hinternal]
    exact fun h => absurd h (by decide)
  · obtain ⟨⟨o', rows⟩, hinsert, h⟩ := except_bind_eq_ok hrun
    obtain ⟨rfl, rfl⟩ := Prod.mk.inj (Except.ok.inj h)
    have hstore := Action.bind_of_ok (f := fun row => Action.okOr
      (HttpError.conflict "a source with this canonical root URL already exists") row)
      (execute_of_ok hrun)
    rcases Constraints.insertOrNothing_cases hinsert with ⟨rfl, rfl, s, hs, hroot⟩ |
      ⟨rfl, rfl, -, hnew⟩
    · obtain ⟨htenant, hurl⟩ := of_decide_eq_true hroot
      exact Or.inl ⟨_, hstore, fun _ => ⟨s, hs, htenant.symm, hurl.symm⟩⟩
    · refine Or.inr ⟨fun s hs hroot => ?_, hstore⟩
      have hdiffers := of_decide_eq_false (hnew s hs)
      exact hdiffers ⟨hroot.1.symm, hroot.2.symm⟩

/-! ### The other requests -/

/-- The rules and the sources stay as they are. -/
structure SameCatalog (s t : Db) : Prop where
  sources : t.sources = s.sources
  alertRules : t.alertRules = s.alertRules
  alertRuleRevisions : t.alertRuleRevisions = s.alertRuleRevisions

instance sameCatalog_refl : Std.Refl SameCatalog := ⟨fun _ => ⟨rfl, rfl, rfl⟩⟩

instance sameCatalog_trans : IsTrans Db SameCatalog := ⟨fun _ _ _ h h' =>
  ⟨h'.sources.trans h.sources, h'.alertRules.trans h.alertRules,
    h'.alertRuleRevisions.trans h.alertRuleRevisions⟩⟩

theorem SameCatalog.rules (h : SameCatalog db db') : db'.rules = db.rules := by
  have hjoin : AlertStore.joinActiveRevision db' = AlertStore.joinActiveRevision db := by
    funext row
    rw [AlertStore.joinActiveRevision, h.alertRuleRevisions]
    rfl
  rw [Db.rules, h.alertRules, hjoin]
  rfl

theorem upsertAlertRuleEmbedding_catalog {now : Timestamp} {id T alertRuleId : Uuid}
    {request : ReverseMatch.AlertRuleEmbeddingUpsertRequest} (db : Db) :
    Action.Moves SameCatalog
      (ReverseMatch.upsertAlertRuleEmbedding x now id T alertRuleId request) db := by
  refine Action.Moves.ofExcept_bind fun _ _ => ?_
  refine Action.Moves.bind (Action.Moves.statement fun o d h => ?_) fun o d _ =>
    Action.Moves.okOr_bind fun _ _ => Action.Moves.ensure_bind fun _ => Action.Moves.of_same rfl
  unfold ReverseMatch.upsertAlertRuleEmbeddingStatement at h
  split at h
  · obtain ⟨-, rfl⟩ := Prod.mk.inj (Except.ok.inj h)
    exact ⟨rfl, rfl, rfl⟩
  · obtain ⟨_, -, hrows⟩ := except_bind_eq_ok h
    obtain ⟨-, rfl⟩ := Prod.mk.inj (Except.ok.inj hrows)
    exact ⟨rfl, rfl, rfl⟩

theorem ingestPageStatement_catalog {now : Timestamp} {ids : ℕ → Uuid} {T sourceId : Uuid}
    {input : PageIngestRequest} {originalUrl finalUrl : String} {o : Option Store.PageRevision}
    (h : Store.ingestPageStatement x now ids T sourceId input originalUrl finalUrl db db
      = .ok (o, db')) : SameCatalog db db' := by
  obtain ⟨⟨page, pages⟩, -, h1⟩ := except_bind_eq_ok h
  obtain ⟨⟨revision, d1⟩, hrevision, h2⟩ := except_bind_eq_ok h1
  obtain ⟨⟨embedding, d2⟩, hembedding, h3⟩ := except_bind_eq_ok h2
  obtain ⟨⟨updated, d3⟩, hupdated, h4⟩ := except_bind_eq_ok h3
  obtain ⟨-, rfl⟩ := Prod.mk.inj (Except.ok.inj h4)
  rw [Store.updatedPage_ok] at hupdated
  obtain ⟨-, rfl⟩ := Prod.mk.inj (Except.ok.inj hupdated)
  have hpages : SameCatalog db { db with pages := pages } := ⟨rfl, rfl, rfl⟩
  have hrevisions : SameCatalog { db with pages := pages } d1 := by
    unfold Store.selectRevision at hrevision
    simp only at hrevision
    split at hrevision
    · obtain ⟨-, rfl⟩ := Prod.mk.inj (Except.ok.inj hrevision)
      exact ⟨rfl, rfl, rfl⟩
    · obtain ⟨_, -, hrows⟩ := except_bind_eq_ok hrevision
      obtain ⟨-, rfl⟩ := Prod.mk.inj (Except.ok.inj hrows)
      exact ⟨rfl, rfl, rfl⟩
  have hembeddings : SameCatalog d1 d2 := by
    unfold Store.selectEmbedding at hembedding
    split at hembedding
    · obtain ⟨-, rfl⟩ := Prod.mk.inj (Except.ok.inj hembedding)
      exact ⟨rfl, rfl, rfl⟩
    · obtain ⟨_, -, hrows⟩ := except_bind_eq_ok hembedding
      obtain ⟨-, rfl⟩ := Prod.mk.inj (Except.ok.inj hrows)
      exact ⟨rfl, rfl, rfl⟩
  exact trans_of SameCatalog (trans_of SameCatalog hpages hrevisions) hembeddings

theorem evaluateMatches_catalog (c : Evaluation) (db : Db) :
    Action.Moves SameCatalog (c.exec x) db := by
  refine Action.Moves.bind (Action.Moves.of_same (Store.searchEmbeddings_snd _ _ db))
    fun page d _ => Action.Moves.forEach _ d fun record _ s _ => ?_
  refine Action.Moves.bind (Action.Moves.statement fun o d h => ?_) fun o d _ =>
    Action.Moves.okOr_bind fun _ _ => Action.Moves.of_same rfl
  rcases Store.upsertMatch_ok h with ⟨-, rfl, -⟩ | ⟨-, rfl, -⟩
  · exact ⟨rfl, rfl, rfl⟩
  · exact ⟨rfl, rfl, rfl⟩

theorem reverse_catalog (c : ReverseIngest) (db : Db) :
    Action.Moves SameCatalog (c.exec x) db := by
  refine Action.Moves.ofExcept_bind fun _ _ => Action.Moves.transaction ?_
  refine Action.Moves.bind ?_ fun page d _ => Action.Moves.bind
    (Action.Moves.of_same (ReverseMatch.findAlertCandidates_snd _ _ _ d)) fun wires d _ =>
      Action.Moves.bind (Action.Moves.forEach _ d fun turn _ s _ => ?_)
        fun _ _ _ => Action.Moves.of_same rfl
  · refine Action.Moves.bind (Action.Moves.statement fun o d h => ?_) fun o d _ =>
      Action.Moves.okOr_bind fun page _ => Action.Moves.bind (Action.Moves.statement fun u d' h => ?_)
        fun _ _ _ => Action.Moves.of_same rfl
    · obtain ⟨⟨p, pages⟩, -, hp⟩ := except_bind_eq_ok h
      obtain ⟨⟨revision, revisions⟩, -, hr⟩ := except_bind_eq_ok hp
      obtain ⟨-, rfl⟩ := Prod.mk.inj (Except.ok.inj hr)
      exact ⟨rfl, rfl, rfl⟩
    · obtain ⟨f, -, rfl⟩ := ReverseMatch.setLatestRevision_ok h
      exact ⟨rfl, rfl, rfl⟩
  · refine Action.Moves.bind (Action.Moves.statement fun o d h => ?_) fun o d _ =>
      Action.Moves.okOr_bind fun _ _ => Action.Moves.of_same rfl
    rcases ReverseMatch.persistStatement_ok h with ⟨-, rfl, -⟩ | ⟨-, rfl, -⟩
    · exact ⟨rfl, rfl, rfl⟩
    · exact ⟨rfl, rfl, rfl⟩

/-- The two routes that create a rule or a source. -/
def Request.creates : Request → Bool
  | createRecord _ => true
  | createSource _ => true
  | _ => false

/-- **No other request touches a rule or a source.** -/
theorem Call.after_catalog {call : Call} (h : call.request.creates = false) (db : Db) :
    SameCatalog db (call.after x db) := by
  obtain ⟨auth, supply, request⟩ := call
  cases request with
  | createRecord input => cases h
  | createSource input => cases h
  | listRecords | listSources => exact ⟨rfl, rfl, rfl⟩
  | getRecord | getSource =>
    exact moves_return (R := SameCatalog) (Action.Moves.query_bind Action.Moves.okOr)
  | upsertAlertEmbedding alertRuleId input =>
    refine moves_return (R := SameCatalog) (Routes.moves_validated_bind fun _ _ => ?_)
    exact upsertAlertRuleEmbedding_catalog db
  | ingestPage sourceId input =>
    refine moves_return (R := SameCatalog) (Routes.moves_validated_bind fun _ _ => ?_)
    refine Action.Moves.bind (Action.Moves.of_reads (Routes.admittedUrls_reads _ _ _ db))
      fun urls d _ => ?_
    refine Action.Moves.bind (Action.Moves.statement fun o d' h => ?_) fun _ _ _ =>
      Action.Moves.okOr
    exact ingestPageStatement_catalog h
  | reverseMatchPage sourceId input =>
    refine moves_return (R := SameCatalog) (Routes.moves_validated_bind fun _ _ => ?_)
    refine Action.Moves.bind (Action.Moves.of_reads (Routes.admittedUrls_reads _ _ _ db))
      fun urls d _ => ?_
    exact reverse_catalog ⟨_, _, _, _, _, _, _⟩ d
  | searchEmbeddings input =>
    refine moves_return (R := SameCatalog) (Routes.moves_validated_bind fun _ _ => ?_)
    exact Action.Moves.bind (Action.Moves.of_same (Store.searchEmbeddings_snd _ _ db))
      fun _ _ _ => Action.Moves.of_same rfl
  | evaluateMatches input =>
    refine moves_return (R := SameCatalog) ?_
    refine Action.Moves.bind (Action.Moves.of_reads (Routes.evaluationFor_reads auth input db))
      fun evaluation d _ => ?_
    exact evaluateMatches_catalog ⟨_, _, _, _, _, _, _⟩ d

/-! ### Answers -/

/-- The rule that an answer of status 201 is about. -/
def Reply.createdRule : Reply → Option AlertRule
  | .ok status (.rule rule) => if status = 201 then some rule else none
  | _ => none

/-- The source that an answer of status 201 is about. -/
def Reply.createdSource : Reply → Option SourcePolicy
  | .ok status (.source source) => if status = 201 then some source else none
  | _ => none

/-- The answer reports no creation. -/
structure Reply.Plain (reply : Reply) : Prop where
  rule : reply.createdRule = none
  source : reply.createdSource = none

theorem mapError_plain {ε α : Type} {r : Except ε α} {f : ε → Reply} {reply : Reply}
    (hf : ∀ e, (f e).Plain) (h : r.mapError f = .error reply) : reply.Plain := by
  cases r with
  | error e => exact Except.error.inj h ▸ hf e
  | ok a => cases h

section Handle

variable {server : Server} {request : HttpRequest} {call : Call} {reply : Reply} {s t : Db}

theorem Server.identify_plain (h : server.identify request = .error reply) : reply.Plain := by
  unfold Server.identify at h
  by_cases hworker : request.route.forWorkers = true
  · rw [if_pos hworker] at h
    rcases bind_error_iff.mp h with h | ⟨_, -, h⟩
    · exact mapError_plain (fun _ => ⟨rfl, rfl⟩) h
    · rcases bind_error_iff.mp h with h | ⟨_, -, h⟩
      · exact mapError_plain (fun _ => ⟨rfl, rfl⟩) h
      · rcases bind_error_iff.mp h with h | ⟨_, -, h⟩
        · exact mapError_plain (fun _ => ⟨rfl, rfl⟩) h
        · cases h
  · rw [if_neg hworker] at h
    rcases bind_error_iff.mp h with h | ⟨_, -, h⟩
    · exact mapError_plain (fun _ => ⟨rfl, rfl⟩) h
    · rcases bind_error_iff.mp h with h | ⟨_, -, h⟩
      · exact mapError_plain (fun _ => ⟨rfl, rfl⟩) h
      · cases h

/-- A request that is refused reports no creation. -/
theorem Server.accept_plain (h : server.accept request = .error reply) : reply.Plain := by
  rcases bind_error_iff.mp h with h | ⟨_, -, h⟩
  · exact Server.identify_plain h
  · rcases bind_error_iff.mp h with h | ⟨_, -, h⟩
    · exact mapError_plain (fun _ => ⟨rfl, rfl⟩) h
    · rcases bind_error_iff.mp h with h | ⟨_, -, h⟩
      · exact mapError_plain (fun _ => ⟨rfl, rfl⟩) h
      · cases h

/-- A request that creates nothing reports no creation. -/
theorem Call.answer_plain (h : call.request.creates = false) (db : Db) :
    (call.answer (call.publish x db).1).1.Plain := by
  rcases hrun : call.publish x db with ⟨e | ⟨response, events⟩, s⟩
  · exact ⟨rfl, rfl⟩
  · obtain ⟨auth, supply, request⟩ := call
    have hexec : (Call.mk auth supply request).exec x db = (.ok response, s) := by
      rw [Call.exec_eq_publish, hrun]
      rfl
    cases request with
    | createRecord input => cases h
    | createSource input => cases h
    | listRecords | getRecord _ | upsertAlertEmbedding _ _ | listSources | getSource _
    | ingestPage _ _ | reverseMatchPage _ _ | searchEmbeddings _ | evaluateMatches _ =>
      obtain ⟨r, s1, -, hreturn⟩ := Action.bind_eq_ok hexec
      obtain rfl := Except.ok.inj (Prod.mk.inj hreturn).1
      exact ⟨rfl, rfl⟩

/-- A call adds what its answer reports, and nothing else. -/
structure Call.Books (x : Platform) (call : Call) (db : Db) : Prop where
  rules : (call.publish x db).2.rules = db.rules
    ++ (call.answer (call.publish x db).1).1.createdRule.toList
  sources : (call.publish x db).2.sources = db.sources
    ++ (call.answer (call.publish x db).1).1.createdSource.toList

theorem Call.books_of_error {e : HttpError} (h : call.publish x db = (.error e, db)) :
    call.Books x db := by
  constructor
  · rw [h]
    exact (List.append_nil _).symm
  · rw [h]
    exact (List.append_nil _).symm

theorem Call.books_of_plain (h : call.request.creates = false) (db : Db) : call.Books x db := by
  have hcatalog := Call.after_catalog (x := x) h db
  have hplain := Call.answer_plain (x := x) h db
  rw [Call.after, Call.exec_eq_publish] at hcatalog
  constructor
  · rw [hplain.rule, hcatalog.rules]
    exact (List.append_nil _).symm
  · rw [hplain.source, hcatalog.sources]
    exact (List.append_nil _).symm

theorem publishRecord_books (hwf : Wf x db) (auth : AuthContext) (supply : Supply)
    (input : CreateAlertRule) : (Call.mk auth supply (.createRecord input)).Books x db := by
  cases hchecked : preflight x ⟨auth, supply, .createRecord input⟩ with
  | error e => exact Call.books_of_error (preflight_error hchecked)
  | ok u =>
    obtain ⟨normalized, hnormalized, -⟩ := bind_ok_iff.mp hchecked
    rcases createAlertRule_outcome hwf (supply.clock 0) supply.ids auth.tenantId auth.subject
      normalized with ⟨e, herror⟩ | ⟨d, hcreates, hok⟩
    · exact Call.books_of_error
        (Action.bind_of_error ((validated_bind_of_ok hnormalized).trans herror))
    · have hpublish : (Call.mk auth supply (.createRecord input)).publish x db = _ :=
        Action.bind_of_ok ((validated_bind_of_ok hnormalized).trans hok)
      constructor
      · rw [hpublish]
        exact Db.rules_of_creates hwf hcreates
      · rw [hpublish, hcreates.after]
        exact (List.append_nil _).symm

/-- The root of the request is one of the tenant's sources. -/
def RootTaken (x : Platform) (T : Uuid) (input : CreateSourcePolicy) (sources : List SourcePolicy) :
    Prop :=
  ∃ root, Indexing.canonicalizeSourceRoot x input = .ok root ∧
    ∃ s ∈ sources, s.tenantId = T ∧ s.rootUrl = root

/-- **A request for a source fails and does nothing, or adds the source.** -/
theorem Routes.createSource_outcome (supply : Supply) (auth : AuthContext)
    (input : CreateSourcePolicy) (db : Db) :
    (∃ e, Routes.createSource x supply auth input db = (.error e, db) ∧
      (e.reply.status = 409 → RootTaken x auth.tenantId input db.sources)) ∨
    (¬ RootTaken x auth.tenantId input db.sources ∧
      ∃ source, Routes.createSource x supply auth input db
        = (.ok source, { db with sources := db.sources ++ [source] })) := by
  have hvalidation : ∀ {α : Type} {r : Except String α} {e : HttpError},
      r.mapError HttpError.validation = .error e → e.reply.status = 422 := by
    intro α r e h
    cases r with
    | error message =>
      rw [← Except.error.inj h]
      rfl
    | ok a => cases h
  by_cases hadmin : auth.isTenantAdmin = true
  · rw [Routes.createSource, Routes.requireTenantAdmin, ensure_bind_of hadmin]
    cases hvalid : (x.validateSource input).mapError HttpError.validation with
    | error e =>
      refine Or.inl ⟨e, validated_bind_of_error hvalid, ?_⟩
      rw [hvalidation hvalid]
      exact fun h => absurd h (by decide)
    | ok u =>
      rw [validated_bind_of_ok hvalid]
      cases hroot : (Indexing.canonicalizeSourceRoot x input).mapError HttpError.validation with
      | error e =>
        refine Or.inl ⟨e, validated_bind_of_error hroot, ?_⟩
        rw [hvalidation hroot]
        exact fun h => absurd h (by decide)
      | ok root =>
        rw [validated_bind_of_ok hroot]
        have hcanonical := Routes.mapError_eq_ok hroot
        rcases EmbeddedAlerts.createSource_outcome (supply.clock 0) (supply.ids 0) auth.tenantId input
          root db with ⟨e, herror, htaken⟩ | ⟨hnew, hok⟩
        · exact Or.inl ⟨e, herror, fun h => ⟨root, hcanonical, htaken h⟩⟩
        · refine Or.inr ⟨?_, _, hok⟩
          rintro ⟨root', hroot', s, hs, hsame⟩
          obtain rfl := Except.ok.inj (hcanonical.symm.trans hroot')
          exact hnew s hs hsame
  · refine Or.inl ⟨.forbidden "this operation requires a tenant administrator role", ?_,
      fun h => absurd h (by decide)⟩
    exact Action.bind_of_error (Action.ensure_apply_of_not hadmin _ db)

theorem publishSource_books (auth : AuthContext) (supply : Supply) (input : CreateSourcePolicy)
    (db : Db) : (Call.mk auth supply (.createSource input)).Books x db := by
  rcases Routes.createSource_outcome (x := x) supply auth input db with ⟨e, herror, -⟩ |
    ⟨-, source, hok⟩
  · exact Call.books_of_error (Action.bind_of_error herror)
  · have hpublish : (Call.mk auth supply (.createSource input)).publish x db = _ :=
      Action.bind_of_ok hok
    constructor
    · rw [hpublish]
      exact (List.append_nil _).symm
    · rw [hpublish]
      rfl

theorem Call.books (hwf : Wf x db) (call : Call) : call.Books x db := by
  obtain ⟨auth, supply, request⟩ := call
  cases request with
  | createRecord input => exact publishRecord_books hwf auth supply input
  | createSource input => exact publishSource_books auth supply input db
  | listRecords | getRecord _ | upsertAlertEmbedding _ _ | listSources | getSource _
  | ingestPage _ _ | reverseMatchPage _ _ | searchEmbeddings _ | evaluateMatches _ =>
    exact Call.books_of_plain rfl db

/-- **A request adds to the books what its answer reports.** -/
theorem Server.handle_books (hwf : Wf server.x db) (request : HttpRequest) :
    (server.handle db request).2.rules
        = db.rules ++ (server.handle db request).1.1.createdRule.toList ∧
      (server.handle db request).2.sources
        = db.sources ++ (server.handle db request).1.1.createdSource.toList := by
  cases haccept : server.accept request with
  | error reply =>
    have hplain := Server.accept_plain haccept
    rw [Server.handle_refused haccept, hplain.rule, hplain.source]
    exact ⟨(List.append_nil _).symm, (List.append_nil _).symm⟩
  | ok call =>
    have hbooks := Call.books hwf call
    rw [Server.handle_of_ok haccept]
    exact ⟨hbooks.rules, hbooks.sources⟩

end Handle

/-! ### Identities and order -/

/-- No two rules have one id. -/
theorem Db.rules_ids (hvalid : db.Valid) : (db.rules.map AlertRule.id).Nodup := by
  have hrows : db.alertRules.Pairwise fun a b => a.id ≠ b.id :=
    hvalid.alertRules.keys.imp fun h heq => by simp [alertRulesTable, heq] at h
  refine List.pairwise_map.mpr (List.pairwise_flatMap.mpr ⟨fun row _ => ?_, ?_⟩)
  · -- a row has one active revision
    refine List.pairwise_map.mpr ?_
    have hfilter := hvalid.distinct_revisions.filter fun revision =>
      decide (some revision.id = row.activeRevisionId ∧ revision.tenantId = row.tenantId)
    refine hfilter.imp_of_mem fun {a b} ha hb hne _ => hne ?_
    have hactive := (of_decide_eq_true (List.mem_filter.mp ha).2).1
    have hactive' := (of_decide_eq_true (List.mem_filter.mp hb).2).1
    exact Option.some.inj (hactive.trans hactive'.symm)
  · refine hrows.imp fun {a b} hne rule hrule rule' hrule' heq => hne ?_
    rw [← (joinActiveRevision_row hrule).1, heq, (joinActiveRevision_row hrule').1]

theorem Db.sources_ids (hvalid : db.Valid) : (db.sources.map SourceRow.id).Nodup := by
  refine List.pairwise_map.mpr (hvalid.sources.keys.imp fun h heq => ?_)
  simp [sourcesTable, heq] at h

instance newestRecord_total : Std.Total AlertStore.newestFirst := ⟨fun a b => by
  rw [newestRecord_iff, newestRecord_iff]
  exact le_total _ _⟩

instance newestRecord_trans : IsTrans AlertRule AlertStore.newestFirst := ⟨fun a b c h h' => by
  rw [newestRecord_iff] at h h' ⊢
  exact h.trans h'⟩

instance newestSource_total : Std.Total Store.newestFirst := ⟨fun a b => by
  rw [newestSource_iff, newestSource_iff]
  exact le_total _ _⟩

instance newestSource_trans : IsTrans SourceRow Store.newestFirst := ⟨fun a b c h h' => by
  rw [newestSource_iff] at h h' ⊢
  exact h.trans h'⟩

/-! ### The ledgers -/

section Ledger

variable {server : Server} {request : HttpRequest} {call : Call} {s : Db}

/-- The rules that a run starts with, and those it reports. -/
def ruleBook (server : Server) (db : Db) (requests : List HttpRequest) : List AlertRule :=
  db.rules ++ (Machine.outputs server.handle (fun _ => true) db requests).filterMap
    fun output => output.1.createdRule

/-- The sources that a run starts with, and those it reports. -/
def sourceBook (server : Server) (db : Db) (requests : List HttpRequest) : List SourcePolicy :=
  db.sources ++ (Machine.outputs server.handle (fun _ => true) db requests).filterMap
    fun output => output.1.createdSource

/-- **The books of a store are those of its history.** -/
theorem books_final (hx : server.x.Lawful) (hdb : Reachable server.x db)
    (requests : List HttpRequest) :
    (Machine.final server.handle db requests).rules = ruleBook server db requests ∧
      (Machine.final server.handle db requests).sources = sourceBook server db requests := by
  have hstep : ∀ s request, Reachable server.x s → _ := fun s request hs =>
    Server.handle_books (hs.wf hx) request
  constructor
  · exact Register.book_final (I := Reachable server.x)
      (fun s request hs => ⟨Server.handle_reachable hs, (hstep s request hs).1⟩) requests hdb
  · exact Register.book_final (I := Reachable server.x)
      (fun s request hs => ⟨Server.handle_reachable hs, (hstep s request hs).2⟩) requests hdb

theorem final_reachable (hdb : Reachable server.x db) (requests : List HttpRequest) :
    Reachable server.x (Machine.final server.handle db requests) :=
  Machine.final_induct requests hdb fun _ hs _ _ => Server.handle_reachable hs

theorem handle_listRecords (hcall : server.accept request = .ok call)
    (hrequest : call.request = .listRecords) : (server.handle s request).1.1
      = .ok 200 (.rules (Register.list call.auth.seesRule AlertStore.newestFirst 500 s.rules)) := by
  obtain ⟨auth, supply, input⟩ := call
  obtain rfl : input = .listRecords := hrequest
  have hpublish : (Call.mk auth supply .listRecords).publish server.x s = _ :=
    Action.bind_of_ok (Action.bind_of_ok (listRecords_apply auth s))
  rw [Server.handle_of_ok hcall, hpublish]
  rfl

theorem handle_getRecord (hcall : server.accept request = .ok call) {id : Uuid}
    (hrequest : call.request = .getRecord id) : (server.handle s request).1.1
      = (Register.get call.auth.seesRule AlertRule.id id s.rules).elim
        (.error (HttpError.notFound "alert rule was not found").reply)
        fun rule => .ok 200 (.rule rule) := by
  obtain ⟨auth, supply, input⟩ := call
  obtain rfl : input = .getRecord id := hrequest
  have hget := getRecord_apply auth id s
  rw [Server.handle_of_ok hcall]
  cases hfound : Register.get auth.seesRule AlertRule.id id s.rules with
  | none =>
    rw [hfound] at hget
    have hpublish : (Call.mk auth supply (.getRecord id)).publish server.x s = _ :=
      Action.bind_of_error (Action.bind_of_error hget)
    rw [hpublish]
    rfl
  | some rule =>
    rw [hfound] at hget
    have hpublish : (Call.mk auth supply (.getRecord id)).publish server.x s = _ :=
      Action.bind_of_ok (Action.bind_of_ok hget)
    rw [hpublish]
    rfl

/-- **The rules are a register.**  After any run of requests of any callers, a list of the
rules and a request for one of them are answered from the rules that the run has reported
as created, as far as the caller may see them: a rule is answered with as it was reported,
whatever has happened since, and the two ways of asking agree. -/
theorem rule_ledger (hx : server.x.Lawful) (hdb : Reachable server.x db)
    (requests : List HttpRequest) (hs : Machine.final server.handle db requests = s)
    (hcall : server.accept request = .ok call) :
    (call.request = .listRecords → (server.handle s request).1.1 = .ok 200 (.rules
      (Register.list call.auth.seesRule AlertStore.newestFirst 500
        (ruleBook server db requests)))) ∧
    (∀ id, call.request = .getRecord id → (server.handle s request).1.1
      = (Register.get call.auth.seesRule AlertRule.id id (ruleBook server db requests)).elim
        (.error (HttpError.notFound "alert rule was not found").reply)
        fun rule => .ok 200 (.rule rule)) ∧
    Register.Views call.auth.seesRule AlertRule.id AlertStore.newestFirst 500
      (ruleBook server db requests) := by
  subst hs
  have hreachable := final_reachable hdb requests
  have hbook := (books_final hx hdb requests).1
  refine ⟨fun hrequest => ?_, fun id hrequest => ?_, ?_⟩
  · rw [handle_listRecords hcall hrequest, hbook]
  · rw [handle_getRecord hcall hrequest, hbook]
  · refine Register.views ?_
    rw [← hbook]
    exact Db.rules_ids (hreachable.wf hx).valid

theorem handle_listSources (hcall : server.accept request = .ok call)
    (hrequest : call.request = .listSources) : (server.handle s request).1.1
      = .ok 200 (.sources (Register.list call.auth.seesSource Store.newestFirst 500 s.sources)) := by
  obtain ⟨auth, supply, input⟩ := call
  obtain rfl : input = .listSources := hrequest
  have hpublish : (Call.mk auth supply .listSources).publish server.x s = _ :=
    Action.bind_of_ok (Action.bind_of_ok (listSources_apply auth s))
  rw [Server.handle_of_ok hcall, hpublish]
  rfl

theorem handle_getSource (hcall : server.accept request = .ok call) {id : Uuid}
    (hrequest : call.request = .getSource id) : (server.handle s request).1.1
      = (Register.get call.auth.seesSource SourceRow.id id s.sources).elim
        (.error (HttpError.notFound "source policy was not found").reply)
        fun source => .ok 200 (.source source) := by
  obtain ⟨auth, supply, input⟩ := call
  obtain rfl : input = .getSource id := hrequest
  have hget := getSource_apply auth id s
  rw [Server.handle_of_ok hcall]
  cases hfound : Register.get auth.seesSource SourceRow.id id s.sources with
  | none =>
    rw [hfound] at hget
    have hpublish : (Call.mk auth supply (.getSource id)).publish server.x s = _ :=
      Action.bind_of_error (Action.bind_of_error hget)
    rw [hpublish]
    rfl
  | some source =>
    rw [hfound] at hget
    have hpublish : (Call.mk auth supply (.getSource id)).publish server.x s = _ :=
      Action.bind_of_ok (Action.bind_of_ok hget)
    rw [hpublish]
    rfl

/-- A conflict is answered only if the root is taken, and a root that is taken is not taken
again. -/
theorem handle_createSource (hcall : server.accept request = .ok call) {input : CreateSourcePolicy}
    (hrequest : call.request = .createSource input) :
    (∀ error, (server.handle s request).1.1 = .error error → error.status = 409 →
      RootTaken server.x call.auth.tenantId input s.sources) ∧
    (RootTaken server.x call.auth.tenantId input s.sources →
      ∃ error, (server.handle s request).1.1 = .error error) := by
  obtain ⟨auth, supply, request'⟩ := call
  obtain rfl : request' = .createSource input := hrequest
  rw [Server.handle_of_ok hcall]
  rcases Routes.createSource_outcome (x := server.x) supply auth input s with ⟨e, herror, htaken⟩ |
    ⟨hnew, source, hok⟩
  · have hpublish : (Call.mk auth supply (.createSource input)).publish server.x s = _ :=
      Action.bind_of_error herror
    rw [hpublish]
    refine ⟨fun error h hconflict => htaken ?_, fun _ => ⟨e.reply, rfl⟩⟩
    rw [(Reply.error.inj h : e.reply = error)]
    exact hconflict
  · have hpublish : (Call.mk auth supply (.createSource input)).publish server.x s = _ :=
      Action.bind_of_ok hok
    rw [hpublish]
    exact ⟨fun error h => (by cases h), fun htaken => absurd htaken hnew⟩

/-- **The sources are a register with one source for each root.**  After any run of requests
of any callers, requests for the sources are answered from the sources that the run has
reported as created and that are of the caller's tenant; and a request to create one fails
if a source of the tenant that was reported has the canonical root of the request, and is
answered with a conflict only then. -/
theorem source_ledger (hx : server.x.Lawful) (hdb : Reachable server.x db)
    (requests : List HttpRequest) (hs : Machine.final server.handle db requests = s)
    (hcall : server.accept request = .ok call) :
    (call.request = .listSources → (server.handle s request).1.1 = .ok 200 (.sources
      (Register.list call.auth.seesSource Store.newestFirst 500
        (sourceBook server db requests)))) ∧
    (∀ id, call.request = .getSource id → (server.handle s request).1.1
      = (Register.get call.auth.seesSource SourceRow.id id (sourceBook server db requests)).elim
        (.error (HttpError.notFound "source policy was not found").reply)
        fun source => .ok 200 (.source source)) ∧
    Register.Views call.auth.seesSource SourceRow.id Store.newestFirst 500
      (sourceBook server db requests) ∧
    ∀ input, call.request = .createSource input →
      (∀ error, (server.handle s request).1.1 = .error error → error.status = 409 →
        RootTaken server.x call.auth.tenantId input (sourceBook server db requests)) ∧
      (RootTaken server.x call.auth.tenantId input (sourceBook server db requests) →
        ∃ error, (server.handle s request).1.1 = .error error) := by
  subst hs
  have hreachable := final_reachable hdb requests
  have hbook := (books_final hx hdb requests).2
  refine ⟨fun hrequest => ?_, fun id hrequest => ?_, ?_, fun input hrequest => ?_⟩
  · rw [handle_listSources hcall hrequest, hbook]
  · rw [handle_getSource hcall hrequest, hbook]
  · refine Register.views ?_
    rw [← hbook]
    exact Db.sources_ids (hreachable.wf hx).valid
  · rw [← hbook]
    exact handle_createSource hcall hrequest

end Ledger

namespace Office

/-- A request without a body, of the administrator of tenant 1. -/
def ask (request : Request) : HttpRequest where
  headers := mine.headers
  route := request.route
  input := .ok request
  routed := Deployment.routed_ok request
  now := 1950000000
  inClock := Deployment.inClock_now
  supply := Scenario.supply 0

theorem accept_ask (request : Request) (hmember : request.route.forWorkers = false)
    (hpreflight : preflight server.x ⟨memberContext (ada 1), Scenario.supply 0, request⟩ = .ok ()) :
    server.accept (ask request) = .ok ⟨memberContext (ada 1), Scenario.supply 0, request⟩ := by
  refine Server.accept_ok_iff.mpr ⟨?_, hpreflight, rfl, rfl⟩
  have hauth : server.state.auth.authenticateAt HeaderValue.toStr server.crates server.x
      mine.headers 1950000000 = .ok (ada 1) := by decide
  rw [Server.identify, if_neg (by rw [ask, hmember]; exact Bool.false_ne_true)]
  show (do
    let auth ← (server.state.auth.authenticateAt HeaderValue.toStr server.crates server.x
      mine.headers 1950000000).mapError _
    _) = _
  rw [hauth]
  rfl

def site : CreateSourcePolicy where
  name := "example"
  rootUrl := "https://example.com/"
  allowedHosts := ["example.com"]
  allowedPathPrefixes := ["/"]
  includeSubdomains := false
  discoveryModes := ["sitemap"]
  crawlIntervalSeconds := 3600
  maxDepth := 2
  maxPagesPerRun := 100
  obeyRobots := true
  enabled := true

def addSite : HttpRequest := ask (.createSource site)

end Office

open Office in
/-- The administrator lists the rule that it has created, and not that of the stranger. -/
theorem rule_ledger_office : (ruleBook server Db.empty [strange, mine]).length = 2 ∧
    ∃ rule, (server.handle (Machine.final server.handle Db.empty [strange, mine])
      (ask .listRecords)).1.1 = .ok 200 (.rules [rule]) := by
  have hbook : (ruleBook server Db.empty [strange, mine]).length = 2 ∧
      (Register.list (memberContext (ada 1)).seesRule AlertStore.newestFirst 500
        (ruleBook server Db.empty [strange, mine])).length = 1 := by decide +kernel
  obtain ⟨rule, hrule⟩ := List.length_eq_one_iff.mp hbook.2
  have hlist := (rule_ledger Deployment.platform_lawful .refl [strange, mine] rfl
    (accept_ask .listRecords rfl rfl)).1 rfl
  refine ⟨hbook.1, rule, ?_⟩
  rw [hlist]
  exact congrArg (fun rules => Reply.ok 200 (.rules rules)) hrule

open Office in
/-- The same source is not created twice. -/
theorem source_ledger_office : (sourceBook server Db.empty [addSite]).length = 1 ∧
    ∃ error, (server.handle (Machine.final server.handle Db.empty [addSite]) addSite).1.1
      = .error error := by
  have hbook : (sourceBook server Db.empty [addSite]).length = 1 ∧
      (sourceBook server Db.empty [addSite]).all (fun source => decide (source.tenantId = 1 ∧
        Indexing.canonicalizeSourceRoot server.x site = .ok source.rootUrl)) = true ∧
      preflight server.x ⟨memberContext (ada 1), Scenario.supply 0, .createSource site⟩ = .ok () := by
    decide +kernel
  obtain ⟨hone, hall, hpreflight⟩ := hbook
  obtain ⟨source, hsource⟩ := List.length_eq_one_iff.mp hone
  have hmem : source ∈ sourceBook server Db.empty [addSite] := by
    rw [hsource]
    exact List.mem_singleton_self source
  obtain ⟨htenant, hroot⟩ := of_decide_eq_true (List.all_eq_true.mp hall source hmem)
  have hledger := (source_ledger Deployment.platform_lawful .refl [addSite] rfl
    (accept_ask (.createSource site) rfl hpreflight)).2.2.2 site rfl
  exact ⟨hone, hledger.2 ⟨source.rootUrl, hroot, source, hmem, htenant, rfl⟩⟩

end EmbeddedAlerts
