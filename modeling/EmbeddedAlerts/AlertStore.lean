import EmbeddedAlerts.Alerts

/-!
# Alert rules in the store

`src/alert_store.rs`, with the trigger of `migrations/007` that it runs into.
The statements are those the code sends; row-level security is not applied to
them here, so `set_request_context`, which only feeds the policies, has nothing
to do.

`createAlertRule` inserts a rule without an active revision, inserts its first
revision and points the rule at it, all in one transaction.  The trigger sees
every insert and every update of `active_revision_id`
(`enforceActiveAlertLimit`); its `COUNT(*)` runs over the rows of a join.
-/

namespace EmbeddedAlerts

open Sql

namespace AlertStore

/-- `alert_rule_json`. -/
def alertRuleJson (rule : AlertRuleRow) (revision : AlertRuleRevisionRow) : AlertRule where
  id := rule.id
  tenantId := rule.tenantId
  ownerSubject := rule.ownerSubject
  revisionId := revision.id
  revisionNumber := revision.revisionNumber
  createdAt := rule.createdAt
  updatedAt := rule.updatedAt
  revisionCreatedAt := revision.createdAt
  name := revision.name
  queryText := revision.queryText
  embeddingModel := revision.embeddingModel
  similarityThreshold := revision.similarityThreshold
  sourceFilters := revision.sourceFilters
  deliveryChannels := revision.deliveryChannels
  enabled := revision.enabled

/-- `JOIN eal_alert_rule_revisions AS revision ON revision.id =
rule.active_revision_id AND revision.tenant_id = rule.tenant_id`. -/
def joinActiveRevision (db : Db) (rule : AlertRuleRow) : List AlertRule :=
  (db.alertRuleRevisions.filter fun revision =>
    decide (some revision.id = rule.activeRevisionId ∧ revision.tenantId = rule.tenantId)).map
      (alertRuleJson rule)

/-- `ORDER BY rule.updated_at DESC, rule.id ASC`. -/
def newestFirst (a b : AlertRule) : Prop :=
  b.updatedAt < a.updatedAt ∨ (a.updatedAt = b.updatedAt ∧ a.id ≤ b.id)

instance (a b : AlertRule) : Decidable (newestFirst a b) := by
  unfold newestFirst
  infer_instance

/-- `$2::boolean OR rule.owner_subject = $3`. -/
def mayRead (subject : String) (tenantAdmin : Bool) (rule : AlertRuleRow) : Bool :=
  tenantAdmin || decide (rule.ownerSubject = subject)

/-- `list_alert_rules`. -/
def listAlertRules (tenantId : Uuid) (subject : String) (tenantAdmin : Bool) :
    Api (List AlertRule) :=
  Action.query fun db =>
    (((db.alertRules.filter fun rule =>
      decide (rule.tenantId = tenantId) && mayRead subject tenantAdmin rule).flatMap
        (joinActiveRevision db)).insertionSort newestFirst).take 500

/-- `get_alert_rule`. -/
def getAlertRule (tenantId ruleId : Uuid) (subject : String) (tenantAdmin : Bool) :
    Api (Option AlertRule) :=
  Action.query fun db =>
    ((db.alertRules.filter fun rule =>
      decide (rule.tenantId = tenantId ∧ rule.id = ruleId)
        && mayRead subject tenantAdmin rule).flatMap (joinActiveRevision db)).head?

/-- `require_alert_rule`. -/
def requireAlertRule (tenantId ruleId : Uuid) (subject : String) (tenantAdmin : Bool) :
    Api AlertRule := do
  let rule ← getAlertRule tenantId ruleId subject tenantAdmin
  Action.okOr (.notFound "alert rule was not found") rule

/-! ### The activation trigger -/

/-- The trigger's `SELECT revision.enabled`. -/
def newRevisionEnabled (revisions : List AlertRuleRevisionRow) (new : AlertRuleRow) :
    Option Bool :=
  (revisions.find? fun revision =>
    decide (revision.tenantId = new.tenantId ∧ some revision.id = new.activeRevisionId ∧
      revision.alertRuleId = new.id)).map (·.enabled)

/-- The rows the trigger joins to a rule: its own active revision, if that is
enabled. -/
def enabledActiveRevisions (revisions : List AlertRuleRevisionRow) (rule : AlertRuleRow) :
    List AlertRuleRevisionRow :=
  revisions.filter fun revision =>
    decide (revision.tenantId = rule.tenantId ∧ some revision.id = rule.activeRevisionId ∧
      revision.alertRuleId = rule.id ∧ revision.enabled = true)

/-- The trigger's `SELECT COUNT(*)`. -/
def activeCount (rules : List AlertRuleRow) (revisions : List AlertRuleRevisionRow)
    (new : AlertRuleRow) : ℕ :=
  ((rules.filter fun rule =>
    decide (rule.tenantId = new.tenantId ∧ rule.ownerSubject = new.ownerSubject ∧
      rule.id ≠ new.id)).flatMap (enabledActiveRevisions revisions)).length

/-- `eal_enforce_active_alert_limit`, on the rules and revisions it sees. -/
def enforceActiveAlertLimit (rules : List AlertRuleRow) (revisions : List AlertRuleRevisionRow)
    (new : AlertRuleRow) : Except DbErr AlertRuleRow :=
  if new.activeRevisionId = none then .ok new
  else if newRevisionEnabled revisions new ≠ some true then .ok new
  else if 10 ≤ activeCount rules revisions new then
    .error (.raised "an owner may have at most 10 enabled active embedded searches")
  else .ok new

theorem enforceActiveAlertLimit_ok {rules : List AlertRuleRow}
    {revisions : List AlertRuleRevisionRow} {new out : AlertRuleRow}
    (h : enforceActiveAlertLimit rules revisions new = .ok out) : out = new := by
  unfold enforceActiveAlertLimit at h
  split_ifs at h
  all_goals exact (Except.ok.inj h).symm

/-! ### Creation -/

/-- `INSERT INTO eal_alert_rules`; the number of rows it affected. -/
def insertAlertRule (row : AlertRuleRow) : Statement Db ℕ := fun _ current => do
  let row ← enforceActiveAlertLimit current.alertRules current.alertRuleRevisions row
  let rows ← alertRulesTable.insert current current.alertRules row
  return (1, { current with alertRules := rows })

/-- `INSERT INTO eal_alert_rule_revisions`. -/
def insertAlertRuleRevision (row : AlertRuleRevisionRow) : Statement Db ℕ := fun _ current => do
  let rows ← alertRuleRevisionsTable.insert current current.alertRuleRevisions row
  return (1, { current with alertRuleRevisions := rows })

/-- `SET active_revision_id = .., updated_at = now()`. -/
def activated (now : Timestamp) (revisionId : Uuid) (rule : AlertRuleRow) : AlertRuleRow :=
  { rule with activeRevisionId := some revisionId, updatedAt := now }

/-- `WHERE id = .. AND tenant_id = ..`. -/
def isRule (ruleId tenantId : Uuid) (r : AlertRuleRow) : Bool :=
  decide (r.id = ruleId ∧ r.tenantId = tenantId)

/-- `UPDATE eal_alert_rules SET .. WHERE id = .. AND tenant_id = ..`.  The primary
key leaves at most one row; the trigger sees it before it is written. -/
def activateAlertRule (now : Timestamp) (ruleId tenantId revisionId : Uuid) : Statement Db ℕ :=
  fun _ current =>
    match current.alertRules.find? (isRule ruleId tenantId) with
    | none => .ok (0, current)
    | some rule => do
      let new ← enforceActiveAlertLimit current.alertRules current.alertRuleRevisions
        (activated now revisionId rule)
      if alertRulesTable.refs current new = false then
        throw .foreignKeyViolation
      return (1, { current with
        alertRules := current.alertRules.map fun r =>
          if isRule ruleId tenantId r then activated now revisionId r else r })

/-- The rule row `create_alert_rule` inserts. -/
def newAlertRule (now : Timestamp) (ruleId tenantId : Uuid) (subject : String) : AlertRuleRow where
  id := ruleId
  tenantId := tenantId
  ownerSubject := subject
  activeRevisionId := none
  createdAt := now
  updatedAt := now

/-- The revision row `create_alert_rule` inserts. -/
def newAlertRuleRevision (now : Timestamp) (revisionId ruleId tenantId : Uuid) (subject : String)
    (input : CreateAlertRule) : AlertRuleRevisionRow where
  id := revisionId
  tenantId := tenantId
  alertRuleId := ruleId
  revisionNumber := 1
  createdBySubject := subject
  name := input.name
  queryText := input.queryText
  embeddingModel := input.embeddingModel
  similarityThreshold := input.similarityThreshold
  sourceFilters := input.sourceFilters
  deliveryChannels := input.deliveryChannels
  enabled := input.enabled
  createdAt := now

/-- `create_alert_rule`; `ids 0` and `ids 1` are the two UUIDs it draws. -/
def createAlertRule (now : Timestamp) (ids : ℕ → Uuid) (tenantId : Uuid) (subject : String)
    (input : CreateAlertRule) : Api AlertRule := do
  let row ← Action.transaction do
    let insertedRule ← execute (insertAlertRule (newAlertRule now (ids 0) tenantId subject))
    Action.ensure (insertedRule = 1)
      (.internal "alert-rule identity insert did not affect exactly one row")
    let insertedRevision ← execute (insertAlertRuleRevision
      (newAlertRuleRevision now (ids 1) (ids 0) tenantId subject input))
    Action.ensure (insertedRevision = 1)
      (.internal "alert-rule revision insert did not affect exactly one row")
    let activatedRule ← execute (activateAlertRule now (ids 0) tenantId (ids 1))
    Action.ensure (activatedRule = 1)
      (.internal "alert-rule activation did not affect exactly one row")
    Action.query fun db =>
      ((db.alertRules.filter fun rule =>
        decide (rule.id = ids 0 ∧ rule.tenantId = tenantId)).flatMap
          (joinActiveRevision db)).head?
  Action.okOr (.internal "alert-rule creation returned no durable record") row

end AlertStore

end EmbeddedAlerts
