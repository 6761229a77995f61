import EmbeddedAlerts.ActiveRules
import EmbeddedAlerts.Sql.Security

/-!
# Row-level security of alert rules

`migrations/004` and `migrations/006` force row-level security on the rules, their
revisions and their embeddings.  The policies read three settings as text, and
`set_request_context` writes them.

`Settings.context` decodes the settings.  A setting that does not decode fails every
statement that reads it.  `Db.secured` is what a role sees that does not bypass the
policies: the policies of the revisions and of the embeddings look into the rules,
and see only the visible ones there.

The functions of `src/alert_store.rs` are here once more, as they run for such a role
(`RowSecurity`).  `create_alert_rule` has every statement checked: the trigger counts
visible rules, a new row has to pass the policy of its table, and the update reaches
visible rows only.  Foreign keys are not subject to the policies.

* `context_setRequestContext`: the context is read back as it was set.
* `listAlertRules_secured`, `getAlertRule_secured`, `createAlertRule_secured`: the
  policies change nothing.
* `authorization_layers_coincide`: **the two layers of authorization are one**, and
  without a context nothing can be seen.
-/

namespace EmbeddedAlerts

open Sql Text Relation

/-! ### The settings -/

/-- C's `isxdigit`. -/
def isXdigit (c : Char) : Bool :=
  decide ('0' ≤ c ∧ c ≤ '9') || decide ('a' ≤ c ∧ c ≤ 'f') || decide ('A' ≤ c ∧ c ≤ 'F')

/-- A hyphen may follow every second byte, but not the last. -/
def skipHyphen (left : ℕ) (src : List Char) : List Char :=
  if left % 2 = 0 ∧ left ≠ 0 ∧ src.head? = some '-' then src.tail else src

/-- The loop of `string_to_uuid`: the digits of the bytes that are left to read, and
the rest of the text. -/
def uuidDigits : ℕ → List Char → Option (List Char × List Char)
  | 0, src => some ([], src)
  | left + 1, a :: b :: src =>
    if isXdigit a && isXdigit b then
      (uuidDigits left (skipHyphen left src)).map fun (digits, rest) => (a :: b :: digits, rest)
    else none
  | _ + 1, _ => none

/-- `uuid_in`: sixteen bytes, perhaps in braces. -/
def castUuid (s : String) : Option Uuid :=
  let braces := decide (s.toList.head? = some '\x7b')
  match uuidDigits 16 (if braces then s.toList.tail else s.toList) with
  | none => none
  | some (digits, rest) =>
    if rest = (if braces then ['\x7d'] else []) then
      some (Fin.ofNat (2 ^ 128) (hexRead (digits.map Char.toLower)))
    else none

/-- What the policies make of the settings. -/
structure Context where
  /-- `NULLIF(current_setting('app.tenant_id', TRUE), '')::UUID`. -/
  tenantId : Option Uuid
  /-- `NULLIF(current_setting('app.subject', TRUE), '')`. -/
  subject : Option String
  /-- `COALESCE(NULLIF(current_setting('app.is_tenant_admin', TRUE), '')::BOOLEAN, FALSE)`. -/
  isTenantAdmin : Bool
deriving DecidableEq

/-- A cast of a setting that may be NULL. -/
def castSetting {α : Type} (cast : String → Option α) (setting : Option String) :
    Except DbErr (Option α) :=
  match setting with
  | none => .ok none
  | some s =>
    match cast s with
    | some a => .ok (some a)
    | none => .error (.raised "invalid input syntax")

/-- The settings, decoded. -/
def context (settings : Settings) : Except DbErr Context := do
  let tenantId ← castSetting castUuid (nullIf (settings "app.tenant_id") "")
  let isTenantAdmin ← castSetting castBoolean (nullIf (settings "app.is_tenant_admin") "")
  return {
    tenantId := tenantId
    subject := nullIf (settings "app.subject") ""
    isTenantAdmin := isTenantAdmin.getD false }

/-- `set_request_context`. -/
def setRequestContext (tenantId : Uuid) (subject : String) (tenantAdmin : Bool)
    (settings : Settings) : Settings :=
  ((settings.set "app.tenant_id" (Uuid.display tenantId)).set "app.subject" subject).set
    "app.is_tenant_admin" (toString tenantAdmin)

/-! ### The policies -/

/-- `owner_subject = .. OR COALESCE(.., FALSE)`. -/
def Context.mayAccess (c : Context) (ownerSubject : String) : Truth :=
  (Truth.equals (some ownerSubject) c.subject).or (.ofBool c.isTenantAdmin)

/-- `eal_alert_rules_tenant_isolation`. -/
def alertRulesPolicy (c : Context) : Policy AlertRuleRow := fun rule =>
  (Truth.equals (some rule.tenantId) c.tenantId).and (c.mayAccess rule.ownerSubject)

/-- `eal_alert_rule_revisions_tenant_isolation`, on the rules there are. -/
def alertRuleRevisionsPolicy (c : Context) (rules : List AlertRuleRow) :
    Policy AlertRuleRevisionRow := fun revision =>
  (Truth.equals (some revision.tenantId) c.tenantId).and
    (.ofBool (((alertRulesPolicy c).visible rules).any fun rule =>
      decide (rule.tenantId = revision.tenantId ∧ rule.id = revision.alertRuleId)))

/-- `eal_alert_rule_embeddings_tenant_isolation`, on the rules there are. -/
def alertRuleEmbeddingsPolicy (c : Context) (rules : List AlertRuleRow) :
    Policy AlertRuleEmbeddingRow := fun e =>
  (Truth.equals (some e.tenantId) c.tenantId).and
    (.ofBool (((alertRulesPolicy c).visible rules).any fun rule =>
      decide (rule.tenantId = e.tenantId ∧ rule.id = e.alertRuleId)
        && decide (c.mayAccess rule.ownerSubject = .true)))

/-- What can be seen of the store. -/
def Db.secured (c : Context) (db : Db) : Db :=
  { db with
    alertRules := (alertRulesPolicy c).visible db.alertRules
    alertRuleRevisions := (alertRuleRevisionsPolicy c db.alertRules).visible db.alertRuleRevisions
    alertRuleEmbeddings :=
      (alertRuleEmbeddingsPolicy c db.alertRules).visible db.alertRuleEmbeddings }

namespace RowSecurity

/-- A request that only reads, on what can be seen of the store. -/
def reading {α : Type} (settings : Settings) (a : Api α) : Api α := fun db =>
  match context settings with
  | .error e => (.error (.ofDbErr e), db)
  | .ok c => ((a (db.secured c)).1, db)

/-- A statement, in the context of the settings. -/
def execute {α : Type} (settings : Settings) (q : Context → Statement Db α) : Api α :=
  EmbeddedAlerts.execute fun snapshot current =>
    match context settings with
    | .error e => .error e
    | .ok c => q c snapshot current

/-- `list_alert_rules`. -/
def listAlertRules (session : Settings) (tenantId : Uuid) (subject : String) (tenantAdmin : Bool) :
    Api (List AlertRule) :=
  reading (setRequestContext tenantId subject tenantAdmin session)
    (AlertStore.listAlertRules tenantId subject tenantAdmin)

/-- `get_alert_rule`. -/
def getAlertRule (session : Settings) (tenantId ruleId : Uuid) (subject : String)
    (tenantAdmin : Bool) : Api (Option AlertRule) :=
  reading (setRequestContext tenantId subject tenantAdmin session)
    (AlertStore.getAlertRule tenantId ruleId subject tenantAdmin)

/-- The trigger, on the rules and revisions it can see. -/
def enforceActiveAlertLimit (c : Context) (db : Db) (new : AlertRuleRow) :
    Except DbErr AlertRuleRow :=
  AlertStore.enforceActiveAlertLimit (db.secured c).alertRules (db.secured c).alertRuleRevisions new

/-- `INSERT INTO eal_alert_rules`. -/
def insertAlertRule (row : AlertRuleRow) (c : Context) : Statement Db ℕ := fun _ current => do
  let row ← enforceActiveAlertLimit c current row
  (alertRulesPolicy c).withCheck "eal_alert_rules" row
  let rows ← alertRulesTable.insert current current.alertRules row
  return (1, { current with alertRules := rows })

/-- `INSERT INTO eal_alert_rule_revisions`. -/
def insertAlertRuleRevision (row : AlertRuleRevisionRow) (c : Context) : Statement Db ℕ :=
  fun snapshot current => do
    (alertRuleRevisionsPolicy c snapshot.alertRules).withCheck "eal_alert_rule_revisions" row
    let rows ← alertRuleRevisionsTable.insert current current.alertRuleRevisions row
    return (1, { current with alertRuleRevisions := rows })

/-- `UPDATE eal_alert_rules SET .. WHERE id = .. AND tenant_id = ..`. -/
def activateAlertRule (now : Timestamp) (ruleId tenantId revisionId : Uuid) (c : Context) :
    Statement Db ℕ := fun _ current =>
  match (current.secured c).alertRules.find? (AlertStore.isRule ruleId tenantId) with
  | none => .ok (0, current)
  | some rule => do
    let new ← enforceActiveAlertLimit c current (AlertStore.activated now revisionId rule)
    (alertRulesPolicy c).withCheck "eal_alert_rules" new
    if alertRulesTable.refs current new = false then
      throw .foreignKeyViolation
    return (1, { current with
      alertRules := current.alertRules.map fun r =>
        if decide (alertRulesPolicy c r = .true) && AlertStore.isRule ruleId tenantId r then
          AlertStore.activated now revisionId r
        else r })

/-- `create_alert_rule`. -/
def createAlertRule (session : Settings) (now : Timestamp) (ids : ℕ → Uuid) (tenantId : Uuid)
    (subject : String) (input : CreateAlertRule) : Api AlertRule := do
  let settings := setRequestContext tenantId subject false session
  let row ← Action.transaction do
    let insertedRule ← execute settings (insertAlertRule
      (AlertStore.newAlertRule now (ids 0) tenantId subject))
    Action.ensure (insertedRule = 1)
      (.internal "alert-rule identity insert did not affect exactly one row")
    let insertedRevision ← execute settings (insertAlertRuleRevision
      (AlertStore.newAlertRuleRevision now (ids 1) (ids 0) tenantId subject input))
    Action.ensure (insertedRevision = 1)
      (.internal "alert-rule revision insert did not affect exactly one row")
    let activatedRule ← execute settings (activateAlertRule now (ids 0) tenantId (ids 1))
    Action.ensure (activatedRule = 1)
      (.internal "alert-rule activation did not affect exactly one row")
    reading settings (Action.query fun db =>
      ((db.alertRules.filter fun rule =>
        decide (rule.id = ids 0 ∧ rule.tenantId = tenantId)).flatMap
          (AlertStore.joinActiveRevision db)).head?)
  Action.okOr (.internal "alert-rule creation returned no durable record") row

end RowSecurity

/-! ### The context is read back -/

theorem isXdigit_hexDigit : ∀ d < 16, isXdigit (hexDigit d) = true := by decide

theorem toLower_hexDigit : ∀ d < 16, (hexDigit d).toLower = hexDigit d := by decide

theorem isXdigit_of_mem {w n : ℕ} {c : Char} (h : c ∈ hexFixed w n) : isXdigit c = true := by
  obtain ⟨d, hd, rfl⟩ := mem_hexFixed h
  exact isXdigit_hexDigit d hd

theorem skipHyphen_cons {left : ℕ} {c : Char} (h : isXdigit c = true) (src : List Char) :
    skipHyphen left (c :: src) = c :: src := by
  have hc : c ≠ '-' := by
    rintro rfl
    exact absurd h (by decide)
  simp [skipHyphen, hc]

/-- Digits are read two by two, and a hyphen after them is passed over. -/
theorem uuidDigits_append (left m : ℕ) {ds : List Char} (rest : List Char)
    (hlen : ds.length = 2 * (m + 1)) (hhex : ∀ c ∈ ds, isXdigit c = true) :
    uuidDigits (left + m + 1) (ds ++ rest)
      = (uuidDigits left (skipHyphen left rest)).map fun (digits, r) => (ds ++ digits, r) := by
  induction m generalizing ds with
  | zero =>
    obtain ⟨a, b, rfl⟩ := List.length_eq_two.mp hlen
    have ha := hhex a (by simp)
    have hb := hhex b (by simp)
    simp [uuidDigits, ha, hb]
  | succ m ih =>
    obtain _ | ⟨a, _ | ⟨b, _ | ⟨c, ds⟩⟩⟩ := ds
    · simp at hlen
    · simp only [List.length_cons, List.length_nil] at hlen
      omega
    · simp only [List.length_cons, List.length_nil] at hlen
      omega
    · have ha := hhex a (by simp)
      have hb := hhex b (by simp)
      have hc := hhex c (by simp)
      have hlen : (c :: ds).length = 2 * (m + 1) := by
        simp only [List.length_cons] at hlen ⊢
        omega
      have hrest := ih hlen fun d hd => hhex d (by simp [List.mem_cons.mp hd])
      rw [List.cons_append, List.cons_append, uuidDigits]
      simp only [ha, hb, Bool.and_self, if_true]
      rw [List.cons_append, skipHyphen_cons hc, ← List.cons_append, ← Nat.add_assoc, hrest,
        Option.map_map]
      rfl

theorem uuidDigits_chars (u : Uuid) :
    uuidDigits 16 (Uuid.chars u) = some (hexFixed 32 u.val, []) := by
  have hlen := hexFixed_length 32 u.val
  have hhex : ∀ i j, ∀ c ∈ ((hexFixed 32 u.val).drop i).take j, isXdigit c = true :=
    fun i j c hc => isXdigit_of_mem (List.drop_subset _ _ (List.take_subset _ _ hc))
  have hsplit : ∀ i j, ((hexFixed 32 u.val).drop i).take j ++ (hexFixed 32 u.val).drop (i + j)
      = (hexFixed 32 u.val).drop i := by
    intro i j
    rw [← List.drop_drop]
    exact List.take_append_drop j _
  have hfirst : (hexFixed 32 u.val).take 8 = ((hexFixed 32 u.val).drop 0).take 8 := by
    rw [List.drop_zero]
  have hlast : (hexFixed 32 u.val).drop 20 = ((hexFixed 32 u.val).drop 20).take 12 ++ [] := by
    rw [List.append_nil, List.take_of_length_le]
    rw [List.length_drop, hlen]
  have hskip : ∀ left src, left % 2 = 0 → left ≠ 0 → skipHyphen left ('-' :: src) = src := by
    intro left src heven hne
    simp [skipHyphen, heven, hne]
  simp only [Uuid.chars]
  rw [hfirst, hlast, uuidDigits_append 12 3 _ (by simp) (hhex 0 8), hskip 12 _ rfl (by decide),
    uuidDigits_append 10 1 _ (by simp) (hhex 8 4), hskip 10 _ rfl (by decide),
    uuidDigits_append 8 1 _ (by simp) (hhex 12 4), hskip 8 _ rfl (by decide),
    uuidDigits_append 6 1 _ (by simp) (hhex 16 4), hskip 6 _ rfl (by decide),
    uuidDigits_append 0 5 _ (by simp) (hhex 20 12)]
  simp only [skipHyphen, uuidDigits, Option.map_some, ne_eq, not_true_eq_false, false_and,
    and_false, if_false, List.append_nil]
  have hall : (hexFixed 32 u.val).drop 0 = hexFixed 32 u.val := List.drop_zero
  have htail : ((hexFixed 32 u.val).drop 20).take 12 = (hexFixed 32 u.val).drop 20 := by
    rw [List.take_of_length_le]
    rw [List.length_drop, hlen]
  rw [htail, hsplit 16 4, hsplit 12 4, hsplit 8 4, hsplit 0 8, hall]

/-- **PostgreSQL reads a UUID as it is displayed.** -/
theorem castUuid_display (u : Uuid) : castUuid (Uuid.display u) = some u := by
  have hhead : (Uuid.chars u).head? ≠ some '\x7b' := by
    intro h
    have hmem := List.mem_of_mem_head? (Option.mem_def.mpr h)
    have hdigit : '\x7b' ∈ (Uuid.chars u).filter fun c => decide (c ≠ '-') :=
      List.mem_filter.mpr ⟨hmem, by decide⟩
    rw [Uuid.filter_chars] at hdigit
    exact absurd (isXdigit_of_mem hdigit) (by decide)
  have hlower : (hexFixed 32 u.val).map Char.toLower = hexFixed 32 u.val := by
    refine (List.map_congr_left fun c hc => ?_).trans (List.map_id _)
    obtain ⟨d, hd, rfl⟩ := mem_hexFixed hc
    exact toLower_hexDigit d hd
  have hlt : u.val < 16 ^ 32 := lt_of_lt_of_eq u.isLt (by norm_num)
  have hbraces : decide ((Uuid.display u).toList.head? = some '\x7b') = false := by
    rw [Uuid.display, String.toList_ofList]
    exact decide_eq_false hhead
  have hdigits : uuidDigits 16 (Uuid.display u).toList = some (hexFixed 32 u.val, []) := by
    rw [Uuid.display, String.toList_ofList]
    exact uuidDigits_chars u
  have hcast : castUuid (Uuid.display u)
      = some (Fin.ofNat (2 ^ 128) (hexRead ((hexFixed 32 u.val).map Char.toLower))) := by
    unfold castUuid
    simp only [hbraces, Bool.false_eq_true, if_false, hdigits, if_true]
  have hval : Fin.ofNat (2 ^ 128) u.val = u := Fin.ext (Nat.mod_eq_of_lt u.isLt)
  rw [hcast, hlower, hexRead_hexFixed hlt, hval]

theorem display_ne_empty (u : Uuid) : Uuid.display u ≠ "" := by
  intro h
  have hcast := castUuid_display u
  rw [h] at hcast
  cases hcast

/-- The context of a request. -/
def requestContext (tenantId : Uuid) (subject : String) (tenantAdmin : Bool) : Context :=
  ⟨some tenantId, some subject, tenantAdmin⟩

/-- **The context is read back as it was set.** -/
theorem context_setRequestContext (T : Uuid) {subject : String} (hsubject : subject ≠ "")
    (admin : Bool) (session : Settings) :
    context (setRequestContext T subject admin session) = .ok (requestContext T subject admin) := by
  have htenant : setRequestContext T subject admin session "app.tenant_id"
      = some (Uuid.display T) := by
    rw [setRequestContext, Settings.set_of_ne _ _ (by decide), Settings.set_of_ne _ _ (by decide),
      Settings.set_self]
  have hsubject' : setRequestContext T subject admin session "app.subject" = some subject := by
    rw [setRequestContext, Settings.set_of_ne _ _ (by decide), Settings.set_self]
  have hadmin : setRequestContext T subject admin session "app.is_tenant_admin"
      = some (toString admin) := by
    rw [setRequestContext, Settings.set_self]
  have hne : toString admin ≠ "" := by cases admin <;> decide
  rw [context, htenant, hsubject', hadmin, nullIf_some (display_ne_empty T), nullIf_some hsubject,
    nullIf_some hne, castSetting, castSetting, castUuid_display, castBoolean_toString]
  rfl

/-- Nothing was set, or what was set has been reset. -/
def NoContext (session : Settings) : Prop :=
  ∀ name ∈ ["app.tenant_id", "app.subject", "app.is_tenant_admin"],
    session name = none ∨ session name = some ""

theorem context_of_noContext {session : Settings} (h : NoContext session) :
    context session = .ok ⟨none, none, false⟩ := by
  rw [context, nullIf_eq_none (h _ (by simp)), nullIf_eq_none (h _ (by simp)),
    nullIf_eq_none (h _ (by simp))]
  rfl

/-! ### What can be seen -/

theorem alertRulesPolicy_iff {c : Context} {rule : AlertRuleRow} :
    alertRulesPolicy c rule = .true ↔ c.tenantId = some rule.tenantId ∧
      (c.subject = some rule.ownerSubject ∨ c.isTenantAdmin = true) := by
  simp [alertRulesPolicy, Context.mayAccess]

theorem alertRuleRevisionsPolicy_iff {c : Context} {rules : List AlertRuleRow}
    {revision : AlertRuleRevisionRow} :
    alertRuleRevisionsPolicy c rules revision = .true ↔ c.tenantId = some revision.tenantId ∧
      ∃ rule ∈ rules, alertRulesPolicy c rule = .true ∧ rule.tenantId = revision.tenantId ∧
        rule.id = revision.alertRuleId := by
  simp [alertRuleRevisionsPolicy, and_assoc]

theorem alertRuleEmbeddingsPolicy_iff {c : Context} {rules : List AlertRuleRow}
    {e : AlertRuleEmbeddingRow} :
    alertRuleEmbeddingsPolicy c rules e = .true ↔ c.tenantId = some e.tenantId ∧
      ∃ rule ∈ rules, alertRulesPolicy c rule = .true ∧ rule.tenantId = e.tenantId ∧
        rule.id = e.alertRuleId := by
  have haccess : ∀ rule : AlertRuleRow, alertRulesPolicy c rule = .true →
      c.mayAccess rule.ownerSubject = .true := by
    intro rule hrule
    exact (Truth.and_eq_true.mp hrule).2
  simp only [alertRuleEmbeddingsPolicy, Truth.and_eq_true, Truth.equals_some_eq_true,
    Truth.ofBool_eq_true, List.any_eq_true, Policy.mem_visible, Bool.and_eq_true,
    decide_eq_true_eq, and_assoc]
  refine and_congr_right fun _ => exists_congr fun rule => and_congr_right fun _ => ?_
  constructor
  · rintro ⟨hrule, hT, hid, -⟩
    exact ⟨hrule, hT, hid⟩
  · rintro ⟨hrule, hT, hid⟩
    exact ⟨hrule, hT, hid, haccess rule hrule⟩

/-- A revision of a visible rule is visible. -/
theorem alertRuleRevisionsPolicy_of_rule {c : Context} {rules : List AlertRuleRow}
    {rule : AlertRuleRow} {revision : AlertRuleRevisionRow} (hrule : rule ∈ rules)
    (hvisible : alertRulesPolicy c rule = .true) (hT : revision.tenantId = rule.tenantId)
    (hid : revision.alertRuleId = rule.id) :
    alertRuleRevisionsPolicy c rules revision = .true := by
  refine alertRuleRevisionsPolicy_iff.mpr ⟨?_, rule, hrule, hvisible, hT.symm, hid.symm⟩
  rw [hT]
  exact (alertRulesPolicy_iff.mp hvisible).1

section Visible

variable {T : Uuid} {subject : String} {admin : Bool}

theorem requestContext_rule {rule : AlertRuleRow} :
    alertRulesPolicy (requestContext T subject admin) rule = .true ↔
      rule.tenantId = T ∧ AlertStore.mayRead subject admin rule = true := by
  rw [alertRulesPolicy_iff, AlertStore.mayRead, Bool.or_eq_true, decide_eq_true_iff, or_comm]
  simp [requestContext, eq_comm]

/-- **Without a context nothing can be seen.** -/
theorem secured_of_noContext (db : Db) :
    (db.secured ⟨none, none, false⟩).alertRules = [] ∧
      (db.secured ⟨none, none, false⟩).alertRuleRevisions = [] ∧
      (db.secured ⟨none, none, false⟩).alertRuleEmbeddings = [] := by
  refine ⟨Policy.visible_eq_nil _ fun r _ h => ?_, Policy.visible_eq_nil _ fun r _ h => ?_,
    Policy.visible_eq_nil _ fun r _ h => ?_⟩
  · cases (alertRulesPolicy_iff.mp h).1
  · cases (alertRuleRevisionsPolicy_iff.mp h).1
  · cases (alertRuleEmbeddingsPolicy_iff.mp h).1

/-! ### Reading rules -/

variable {x : Platform} {db : Db}

/-- The active revision of the rule is its own. -/
def OwnActive (db : Db) (rule : AlertRuleRow) : Prop :=
  ∀ revision ∈ db.alertRuleRevisions, rule.activeRevisionId = some revision.id →
    revision.alertRuleId = rule.id

/-- A rule that can be seen is joined with the same revision: its active revision is
its own, and so can be seen too. -/
theorem joinActiveRevision_secured {c : Context} {rule : AlertRuleRow} (hown : OwnActive db rule)
    (hrule : rule ∈ db.alertRules) (hvisible : alertRulesPolicy c rule = .true) :
    AlertStore.joinActiveRevision (db.secured c) rule = AlertStore.joinActiveRevision db rule := by
  refine congrArg (List.map _) (Policy.filter_visible _ fun revision hrevision hjoin => ?_)
  obtain ⟨hactive, hT⟩ := of_decide_eq_true hjoin
  exact alertRuleRevisionsPolicy_of_rule hrule hvisible hT (hown revision hrevision hactive.symm)

/-- **A query of rules that asks for no more than the policy** finds the same. -/
theorem query_secured {c : Context} {q : AlertRuleRow → Bool}
    (hown : ∀ rule ∈ db.alertRules, q rule = true → OwnActive db rule)
    (hq : ∀ rule ∈ db.alertRules, q rule = true → alertRulesPolicy c rule = .true) :
    ((db.secured c).alertRules.filter q).flatMap (AlertStore.joinActiveRevision (db.secured c))
      = (db.alertRules.filter q).flatMap (AlertStore.joinActiveRevision db) := by
  have hfilter : (db.secured c).alertRules.filter q = db.alertRules.filter q :=
    Policy.filter_visible _ hq
  rw [hfilter]
  refine List.flatMap_congr fun rule hrule => ?_
  obtain ⟨hmem, hqr⟩ := List.mem_filter.mp hrule
  exact joinActiveRevision_secured (hown rule hmem hqr) hmem (hq rule hmem hqr)

theorem Wf.ownActive (hwf : Wf x db) {rule : AlertRuleRow} (hrule : rule ∈ db.alertRules) :
    OwnActive db rule :=
  fun _ hrevision hactive => (active_own hwf hrule hrevision hactive).2

theorem reading_of_context {α : Type} {settings : Settings} {c : Context}
    (h : context settings = .ok c) (a : Api α) (db : Db) :
    RowSecurity.reading settings a db = ((a (db.secured c)).1, db) := by
  rw [RowSecurity.reading, h]

variable (hwf : Wf x db) (hsubject : subject ≠ "") (session : Settings)

include hwf hsubject

theorem listAlertRules_secured :
    RowSecurity.listAlertRules session T subject admin db
      = AlertStore.listAlertRules T subject admin db := by
  rw [RowSecurity.listAlertRules, reading_of_context (context_setRequestContext T hsubject admin _),
    AlertStore.listAlertRules, Action.query_apply, Action.query_apply]
  rw [query_secured (fun rule hmem _ => hwf.ownActive hmem) fun rule _ hrule => ?_]
  rw [Bool.and_eq_true, decide_eq_true_iff] at hrule
  exact requestContext_rule.mpr hrule

theorem getAlertRule_secured (ruleId : Uuid) :
    RowSecurity.getAlertRule session T ruleId subject admin db
      = AlertStore.getAlertRule T ruleId subject admin db := by
  rw [RowSecurity.getAlertRule, reading_of_context (context_setRequestContext T hsubject admin _),
    AlertStore.getAlertRule, Action.query_apply, Action.query_apply]
  rw [query_secured (fun rule hmem _ => hwf.ownActive hmem) fun rule _ hrule => ?_]
  rw [Bool.and_eq_true, decide_eq_true_iff] at hrule
  exact requestContext_rule.mpr ⟨hrule.1.1, hrule.2⟩

end Visible

/-! ### Creating a rule -/

section Create

variable {T : Uuid} {subject : String} {db : Db}

theorem execute_of_context {α : Type} {settings : Settings} {c : Context}
    (h : context settings = .ok c) (q : Context → Statement Db α) :
    RowSecurity.execute settings q = execute (q c) := by
  rw [RowSecurity.execute, h]

theorem execute_congr {α : Type} {p q : Statement Db α} (h : p db db = q db db) :
    execute p db = execute q db := by
  rw [execute, execute, Action.statement, Action.statement, h]

/-- **The trigger counts every rule of the owner**, as if it saw everything. -/
theorem activeCount_secured {c : Context} {new : AlertRuleRow}
    (hvisible : alertRulesPolicy c new = .true) :
    AlertStore.activeCount (db.secured c).alertRules (db.secured c).alertRuleRevisions new
      = AlertStore.activeCount db.alertRules db.alertRuleRevisions new := by
  have hpolicy : ∀ rule : AlertRuleRow, rule.tenantId = new.tenantId →
      rule.ownerSubject = new.ownerSubject → alertRulesPolicy c rule = .true := by
    intro rule hT howner
    rw [alertRulesPolicy_iff] at hvisible ⊢
    rwa [hT, howner]
  have hfilter : (db.secured c).alertRules.filter (fun rule =>
      decide (rule.tenantId = new.tenantId ∧ rule.ownerSubject = new.ownerSubject ∧
        rule.id ≠ new.id))
      = db.alertRules.filter (fun rule =>
        decide (rule.tenantId = new.tenantId ∧ rule.ownerSubject = new.ownerSubject ∧
          rule.id ≠ new.id)) := by
    refine Policy.filter_visible _ fun rule _ hrule => ?_
    obtain ⟨hT, howner, -⟩ := of_decide_eq_true hrule
    exact hpolicy rule hT howner
  rw [AlertStore.activeCount, AlertStore.activeCount, hfilter]
  refine congrArg List.length (List.flatMap_congr fun rule hrule => ?_)
  obtain ⟨hmem, hrule⟩ := List.mem_filter.mp hrule
  obtain ⟨hT, howner, -⟩ := of_decide_eq_true hrule
  refine Policy.filter_visible _ fun revision _ hrevision => ?_
  obtain ⟨hvT, -, hid, -⟩ := of_decide_eq_true hrevision
  exact alertRuleRevisionsPolicy_of_rule hmem (hpolicy rule hT howner) hvT hid

/-- The trigger decides as if it saw everything. -/
theorem enforceActiveAlertLimit_secured {c : Context} {rule new : AlertRuleRow}
    (hrule : rule ∈ db.alertRules) (hT : new.tenantId = rule.tenantId) (hid : new.id = rule.id)
    (howner : new.ownerSubject = rule.ownerSubject)
    (hvisible : alertRulesPolicy c rule = .true) :
    RowSecurity.enforceActiveAlertLimit c db new
      = AlertStore.enforceActiveAlertLimit db.alertRules db.alertRuleRevisions new := by
  have hnew : alertRulesPolicy c new = .true := by
    rw [alertRulesPolicy_iff] at hvisible ⊢
    rwa [hT, howner]
  have henabled : AlertStore.newRevisionEnabled (db.secured c).alertRuleRevisions new
      = AlertStore.newRevisionEnabled db.alertRuleRevisions new := by
    refine congrArg (Option.map _) (Policy.find?_visible _ fun revision _ hrevision => ?_)
    obtain ⟨hvT, -, hvid⟩ := of_decide_eq_true hrevision
    exact alertRuleRevisionsPolicy_of_rule hrule hvisible (hvT.trans hT) (hvid.trans hid)
  rw [RowSecurity.enforceActiveAlertLimit, AlertStore.enforceActiveAlertLimit,
    AlertStore.enforceActiveAlertLimit, henabled, activeCount_secured hnew]

theorem insertAlertRule_secured (now : Timestamp) (id : Uuid) (snapshot : Db) :
    RowSecurity.insertAlertRule (AlertStore.newAlertRule now id T subject)
        (requestContext T subject false) snapshot db
      = AlertStore.insertAlertRule (AlertStore.newAlertRule now id T subject) snapshot db := by
  have htrigger : ∀ rules revisions, AlertStore.enforceActiveAlertLimit rules revisions
      (AlertStore.newAlertRule now id T subject) = .ok (AlertStore.newAlertRule now id T subject) :=
    fun _ _ => if_pos rfl
  have hcheck : (alertRulesPolicy (requestContext T subject false)).withCheck "eal_alert_rules"
      (AlertStore.newAlertRule now id T subject) = .ok () :=
    Policy.withCheck_of _ (requestContext_rule.mpr ⟨rfl, by simp [AlertStore.mayRead,
      AlertStore.newAlertRule]⟩)
  simp only [RowSecurity.insertAlertRule, RowSecurity.enforceActiveAlertLimit,
    AlertStore.insertAlertRule, htrigger]
  simp only [bind, Except.bind, hcheck]

theorem insertAlertRuleRevision_secured {c : Context} {rule : AlertRuleRow}
    {row : AlertRuleRevisionRow} {snapshot : Db} (hrule : rule ∈ snapshot.alertRules)
    (hvisible : alertRulesPolicy c rule = .true) (hT : row.tenantId = rule.tenantId)
    (hid : row.alertRuleId = rule.id) :
    RowSecurity.insertAlertRuleRevision row c snapshot db
      = AlertStore.insertAlertRuleRevision row snapshot db := by
  have hcheck : (alertRuleRevisionsPolicy c snapshot.alertRules).withCheck
      "eal_alert_rule_revisions" row = .ok () :=
    Policy.withCheck_of _ (alertRuleRevisionsPolicy_of_rule hrule hvisible hT hid)
  simp only [RowSecurity.insertAlertRuleRevision, AlertStore.insertAlertRuleRevision]
  simp only [bind, Except.bind, hcheck]

/-- The update reaches the same row, and the trigger decides alike. -/
theorem activateAlertRule_secured {c : Context} (now : Timestamp) {ruleId revisionId : Uuid}
    (snapshot : Db) (hvisible : ∀ r ∈ db.alertRules, AlertStore.isRule ruleId T r = true →
      alertRulesPolicy c r = .true) :
    RowSecurity.activateAlertRule now ruleId T revisionId c snapshot db
      = AlertStore.activateAlertRule now ruleId T revisionId snapshot db := by
  have hfind : (db.secured c).alertRules.find? (AlertStore.isRule ruleId T)
      = db.alertRules.find? (AlertStore.isRule ruleId T) :=
    Policy.find?_visible _ hvisible
  have hmap : (db.alertRules.map fun r =>
      if decide (alertRulesPolicy c r = .true) && AlertStore.isRule ruleId T r then
        AlertStore.activated now revisionId r else r)
      = db.alertRules.map fun r =>
        if AlertStore.isRule ruleId T r then AlertStore.activated now revisionId r else r := by
    refine List.map_congr_left fun r hr => ?_
    by_cases hrule : AlertStore.isRule ruleId T r = true
    · simp [hrule, hvisible r hr hrule]
    · simp [hrule]
  rw [RowSecurity.activateAlertRule, AlertStore.activateAlertRule, hfind, hmap]
  rcases hrule : db.alertRules.find? (AlertStore.isRule ruleId T) with _ | rule
  · rfl
  · have hmem := List.mem_of_find?_eq_some hrule
    have hpolicy := hvisible rule hmem (List.find?_some hrule)
    have htrigger := enforceActiveAlertLimit_secured (c := c) hmem
      (show (AlertStore.activated now revisionId rule).tenantId = rule.tenantId from rfl) rfl rfl
      hpolicy
    have hcheck : (alertRulesPolicy c).withCheck "eal_alert_rules"
        (AlertStore.activated now revisionId rule) = .ok () :=
      Policy.withCheck_of _ hpolicy
    simp only [htrigger]
    rcases henforce : AlertStore.enforceActiveAlertLimit db.alertRules db.alertRuleRevisions
      (AlertStore.activated now revisionId rule) with e | new
    · rfl
    · obtain rfl := AlertStore.enforceActiveAlertLimit_ok henforce
      simp only [bind, Except.bind, hcheck]

/-- The rule that was activated is the new one, and its active revision is the one
that was made for it. -/
theorem activated_own {now : Timestamp} {id revisionId : Uuid} {d : Db} {n : ℕ}
    (hrule : ∀ r ∈ db.alertRules, r.id = id → r = AlertStore.newAlertRule now id T subject)
    (hrevision : ∀ v ∈ db.alertRuleRevisions, v.id = revisionId → v.alertRuleId = id)
    (h : AlertStore.activateAlertRule now id T revisionId db db = .ok (n, d)) :
    ∀ r ∈ d.alertRules, r.id = id →
      r.tenantId = T ∧ r.ownerSubject = subject ∧ OwnActive d r := by
  intro r hr hid
  rcases AlertStore.activateAlertRule_ok h with rfl | rfl
  · obtain rfl := hrule r hr hid
    refine ⟨rfl, rfl, fun v _ hactive => ?_⟩
    cases hactive
  · obtain ⟨r0, hr0, rfl⟩ := List.mem_map.mp hr
    have hid0 : r0.id = id := by
      split_ifs at hid
      · exact hid
      · exact hid
    obtain rfl := hrule r0 hr0 hid0
    have his : AlertStore.isRule id T (AlertStore.newAlertRule now id T subject) = true :=
      decide_eq_true ⟨rfl, rfl⟩
    rw [if_pos his]
    refine ⟨rfl, rfl, fun v hv hactive => hrevision v hv ?_⟩
    exact (Option.some.inj hactive).symm

/-- **No statement of `create_alert_rule` is rejected or misses a row.** -/
theorem createAlertRule_secured (hsubject : subject ≠ "") (session : Settings) (now : Timestamp)
    (ids : ℕ → Uuid) (input : CreateAlertRule) (db : Db) :
    RowSecurity.createAlertRule session now ids T subject input db
      = AlertStore.createAlertRule now ids T subject input db := by
  have hcontext := context_setRequestContext T hsubject false session
  have hown : alertRulesPolicy (requestContext T subject false)
      (AlertStore.newAlertRule now (ids 0) T subject) = .true :=
    requestContext_rule.mpr ⟨rfl, by simp [AlertStore.mayRead, AlertStore.newAlertRule]⟩
  unfold RowSecurity.createAlertRule AlertStore.createAlertRule
  simp only [execute_of_context hcontext]
  refine Action.bind_congr (Action.transaction_congr ?_) fun _ _ _ => rfl
  refine Action.bind_congr (execute_congr (insertAlertRule_secured now (ids 0) db))
    fun n d1 h1 => ?_
  obtain ⟨hrule, rfl⟩ := AlertStore.insertAlertRule_ok (execute_eq_ok h1)
  refine Action.bind_congr rfl fun _ d2 h2 => ?_
  obtain ⟨-, rfl⟩ := Routes.ensure_ok h2
  refine Action.bind_congr (execute_congr (insertAlertRuleRevision_secured
    (List.mem_append_right _ (List.mem_singleton_self _)) hown rfl rfl)) fun n' d3 h3 => ?_
  obtain ⟨hrevision, rfl⟩ := AlertStore.insertAlertRuleRevision_ok (execute_eq_ok h3)
  refine Action.bind_congr rfl fun _ d4 h4 => ?_
  obtain ⟨-, rfl⟩ := Routes.ensure_ok h4
  -- the id that was drawn is that of the new rule only
  have hnew : ∀ r ∈ db.alertRules ++ [AlertStore.newAlertRule now (ids 0) T subject],
      r.id = ids 0 → r = AlertStore.newAlertRule now (ids 0) T subject := by
    intro r hr hid
    rcases List.mem_append.mp hr with hold | hr
    · have hfresh := hrule.fresh r hold
      simp [alertRulesTable, AlertStore.newAlertRule, hid] at hfresh
    · exact List.mem_singleton.mp hr
  have hnewRevision : ∀ v ∈ db.alertRuleRevisions
      ++ [AlertStore.newAlertRuleRevision now (ids 1) (ids 0) T subject input],
      v.id = ids 1 → v.alertRuleId = ids 0 := by
    intro v hv hid
    rcases List.mem_append.mp hv with hold | hv
    · have hfresh := hrevision.fresh v hold
      simp [alertRuleRevisionsTable, AlertStore.newAlertRuleRevision, hid] at hfresh
    · rw [List.mem_singleton.mp hv]
      rfl
  refine Action.bind_congr (execute_congr (activateAlertRule_secured now _ fun r hr his => ?_))
    fun n'' d5 h5 => ?_
  · rw [hnew r hr (of_decide_eq_true his).1]
    exact hown
  refine Action.bind_congr rfl fun _ d6 h6 => ?_
  obtain ⟨-, rfl⟩ := Routes.ensure_ok h6
  have hactivated := activated_own hnew hnewRevision (execute_eq_ok h5)
  rw [reading_of_context hcontext, Action.query_apply, Action.query_apply]
  rw [query_secured (fun r hr hq => ?_) fun r hr hq => ?_]
  · exact (hactivated r hr (of_decide_eq_true hq).1).2.2
  · obtain ⟨hT, howner, -⟩ := hactivated r hr (of_decide_eq_true hq).1
    exact requestContext_rule.mpr ⟨hT, by simp [AlertStore.mayRead, howner]⟩

end Create

/-! ### The two layers -/

/-- The rule is one of the tenant, of the subject unless that is an administrator,
and it is shown with its own active revision. -/
def Authorized (db : Db) (T : Uuid) (subject : String) (admin : Bool) (rule : AlertRule) : Prop :=
  ∃ r ∈ db.alertRules, r.tenantId = T ∧ (admin = true ∨ r.ownerSubject = subject) ∧
    ∃ v ∈ db.alertRuleRevisions, r.activeRevisionId = some v.id ∧ v.tenantId = T ∧
      v.alertRuleId = r.id ∧ rule = AlertStore.alertRuleJson r v

section Layers

variable {x : Platform} {db : Db} {T : Uuid} {subject : String} {admin : Bool}

theorem mem_query_iff (hwf : Wf x db) (T : Uuid) (subject : String) (admin : Bool)
    (p : AlertRuleRow → Prop) [DecidablePred p] (rule : AlertRule) :
    rule ∈ (db.alertRules.filter fun r => decide (r.tenantId = T ∧ p r)
        && AlertStore.mayRead subject admin r).flatMap (AlertStore.joinActiveRevision db) ↔
      ∃ r ∈ db.alertRules, p r ∧ r.tenantId = T ∧ (admin = true ∨ r.ownerSubject = subject) ∧
        ∃ v ∈ db.alertRuleRevisions, r.activeRevisionId = some v.id ∧ v.tenantId = T ∧
          v.alertRuleId = r.id ∧ rule = AlertStore.alertRuleJson r v := by
  simp only [AlertStore.joinActiveRevision, AlertStore.mayRead, List.mem_flatMap, List.mem_filter,
    List.mem_map, Bool.and_eq_true, Bool.or_eq_true, decide_eq_true_eq]
  constructor
  · rintro ⟨r, ⟨hr, ⟨hT, hp⟩, hmay⟩, v, ⟨hv, hactive, hvT⟩, rfl⟩
    exact ⟨r, hr, hp, hT, hmay, v, hv, hactive.symm, hvT.trans hT,
      hwf.ownActive hr v hv hactive.symm, rfl⟩
  · rintro ⟨r, hr, hp, hT, hmay, v, hv, hactive, hvT, -, rfl⟩
    exact ⟨r, ⟨hr, ⟨hT, hp⟩, hmay⟩, v, ⟨hv, hactive.symm, hvT.trans hT.symm⟩, rfl⟩

/-- The rows of `list_alert_rules`, before it is cut off. -/
theorem listAlertRules_eq (hwf : Wf x db) (hactive : AllActive db) :
    ∃ rules : List AlertRule, AlertStore.listAlertRules T subject admin db = (.ok (rules.take 500), db) ∧
      (∀ rule, rule ∈ rules ↔ Authorized db T subject admin rule) ∧
      ∀ r ∈ db.alertRules, r.tenantId = T → (admin = true ∨ r.ownerSubject = subject) →
        ∃ rule ∈ rules, rule.id = r.id := by
  have hmem : ∀ rule, rule ∈ ((db.alertRules.filter fun r => decide (r.tenantId = T)
      && AlertStore.mayRead subject admin r).flatMap
        (AlertStore.joinActiveRevision db)).insertionSort AlertStore.newestFirst ↔
      Authorized db T subject admin rule := by
    intro rule
    have hiff := mem_query_iff hwf T subject admin (fun _ => True) rule
    simpa only [and_true, true_and, List.mem_insertionSort, Authorized] using hiff
  refine ⟨_, rfl, hmem, fun r hr hT hmay => ?_⟩
  obtain ⟨v, hv, hid⟩ := hactive r hr
  obtain ⟨hvT, hvrule⟩ := active_own hwf hr hv hid
  exact ⟨AlertStore.alertRuleJson r v, (hmem _).mpr ⟨r, hr, hT, hmay, v, hv, hid, hvT.trans hT,
    hvrule, rfl⟩, rfl⟩

/-- `get_alert_rule` returns the rule with the id, if there is one the caller may
see. -/
theorem getAlertRule_eq (hwf : Wf x db) (ruleId : Uuid) :
    ∃ o, AlertStore.getAlertRule T ruleId subject admin db = (.ok o, db) ∧
      ∀ rule, o = some rule ↔ Authorized db T subject admin rule ∧ rule.id = ruleId := by
  refine ⟨_, rfl, fun rule => ?_⟩
  have hmem := mem_query_iff hwf T subject admin fun r => r.id = ruleId
  constructor
  · intro hhead
    obtain ⟨r, hr, hid, hT, hmay, v, hv, hactive, hvT, hvrule, rfl⟩ :=
      (hmem rule).mp (List.mem_of_mem_head? hhead)
    exact ⟨⟨r, hr, hT, hmay, v, hv, hactive, hvT, hvrule, rfl⟩, hid⟩
  · rintro ⟨⟨r, hr, hT, hmay, v, hv, hactive, hvT, hvrule, rfl⟩, hid⟩
    have hrule := (hmem _).mpr ⟨r, hr, hid, hT, hmay, v, hv, hactive, hvT, hvrule, rfl⟩
    obtain ⟨first, hfirst⟩ := Option.ne_none_iff_exists'.mp fun hnone =>
      List.ne_nil_of_mem hrule (List.head?_eq_none_iff.mp hnone)
    refine hfirst.trans ?_
    -- there is no other row to return
    obtain ⟨r', hr', hid', -, -, v', hv', hactive', -, -, rfl⟩ :=
      (hmem first).mp (List.mem_of_mem_head? hfirst)
    obtain rfl := hwf.valid.alertRule_eq hr' hr (hid'.trans hid.symm)
    obtain rfl := hwf.valid.alertRuleRevision_eq hv' hv
      (Option.some.inj (hactive'.symm.trans hactive))
    rfl

/-- **The two layers of authorization are one.**  With the policies in force,
`list_alert_rules` and `get_alert_rule` return what they return without: the rules of
the tenant that the subject created, or all of them for an administrator, each with
its own active revision.  `create_alert_rule` runs as it does without, and its trigger
counts exactly the enabled active rules of the owner.  Without a context nothing can
be seen. -/
theorem authorization_layers_coincide (hx : x.Lawful) (hdb : Reachable x db) (session : Settings)
    (T : Uuid) (hsubject : subject ≠ "") (admin : Bool) :
    (RowSecurity.listAlertRules session T subject admin db
        = AlertStore.listAlertRules T subject admin db ∧
      ∃ rules : List AlertRule,
        AlertStore.listAlertRules T subject admin db = (.ok (rules.take 500), db) ∧
        (∀ rule, rule ∈ rules ↔ Authorized db T subject admin rule) ∧
        ∀ r ∈ db.alertRules, r.tenantId = T → (admin = true ∨ r.ownerSubject = subject) →
          ∃ rule ∈ rules, rule.id = r.id) ∧
    (∀ ruleId, RowSecurity.getAlertRule session T ruleId subject admin db
        = AlertStore.getAlertRule T ruleId subject admin db ∧
      ∃ o, AlertStore.getAlertRule T ruleId subject admin db = (.ok o, db) ∧
        ∀ rule, o = some rule ↔ Authorized db T subject admin rule ∧ rule.id = ruleId) ∧
    (∀ now ids input, RowSecurity.createAlertRule session now ids T subject input db
      = AlertStore.createAlertRule now ids T subject input db) ∧
    (∀ (d : Db) (new : AlertRuleRow), d.Valid → new.tenantId = T → new.ownerSubject = subject →
      AlertStore.activeCount (d.secured (requestContext T subject false)).alertRules
          (d.secured (requestContext T subject false)).alertRuleRevisions new
        = (activeOthers d.alertRules d.alertRuleRevisions new).length) ∧
    ∀ settings, NoContext settings → ∃ c, context settings = .ok c ∧
      (db.secured c).alertRules = [] ∧ (db.secured c).alertRuleRevisions = [] ∧
      (db.secured c).alertRuleEmbeddings = [] := by
  have hwf := hdb.wf hx
  refine ⟨⟨listAlertRules_secured hwf hsubject session, listAlertRules_eq hwf (hdb.active hx)⟩,
    fun ruleId => ⟨getAlertRule_secured hwf hsubject session ruleId, getAlertRule_eq hwf ruleId⟩,
    fun now ids input => createAlertRule_secured hsubject session now ids input db, ?_, ?_⟩
  · intro d new hvalid hT howner
    have hvisible : alertRulesPolicy (requestContext T subject false) new = .true :=
      requestContext_rule.mpr ⟨hT, by simp [AlertStore.mayRead, howner]⟩
    rw [activeCount_secured hvisible, activeCount_eq hvalid.distinct_revisions]
  · intro settings hnone
    exact ⟨_, context_of_noContext hnone, secured_of_noContext db⟩

end Layers

open Scenario in
/-- The creator of the rule sees it, through both layers. -/
theorem authorization_layers_coincide_sample : ∃ rules : List AlertRule,
    RowSecurity.listAlertRules (fun _ => none) 1 "ada" false stored = (.ok rules, stored) ∧
      ∃ rule ∈ rules, rule.id = 20 := by
  have hlist : ∃ rules : List AlertRule,
      AlertStore.listAlertRules 1 "ada" false stored = (.ok rules, stored) ∧
        ∃ rule ∈ rules, rule.id = 20 := by
    refine ⟨_, rfl, ?_⟩
    decide +kernel
  have hada : "ada" ≠ "" := by decide
  have hlayers := (authorization_layers_coincide Platform.sample_lawful reachable_stored
    (fun _ => none) 1 hada false).1.1
  rw [hlayers]
  exact hlist

end EmbeddedAlerts
