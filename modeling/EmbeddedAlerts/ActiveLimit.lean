import EmbeddedAlerts.ActiveRules
import EmbeddedAlerts.Sql.Quota

/-!
# The limit of active rules under concurrency

Any number of transactions create rules and change `active_revision_id`, and the
trigger of `migrations/007` guards each change.  A `System` is the committed store with
the open transactions, and a `Step` is a single step of one of them: a statement, or
one of the statements of the trigger (`Phase`).  Each step reads what is committed at
that moment, and what the transaction itself has written (`Txn.view`).

* The row that a transaction writes is locked until it ends, and so is a key it has
  inserted: another transaction has to wait (`System.Free`).
* So is the advisory lock of the trigger.  Its key is a hash of tenant and owner, any
  function here: owners whose keys collide share a lock.
* A revision is inserted by a transaction that has written its rule, as
  `create_alert_rule` does it.  So a revision that the trigger does not find is not one
  that another transaction is about to commit.
* The trigger decides when it counts.  It raises, or the row is written after that
  (`Phase.refused`, `Phase.admitted`), and others may commit before it is.

For each owner the system is a quota in the sense of `Sql.Quota` (`Step.quota`), so
`ActiveLimit.Run.limit`: **no owner ever has more than ten committed rules whose active
revision is their own and enabled**, and by `Step.refused` **an activation is refused
only if there are ten others**.  `createAlertRule_run` says that the creation of a rule
in `AlertStore`, which runs alone, is a run of these steps.
-/

namespace EmbeddedAlerts

open Sql Relation

namespace ActiveLimit

/-- How far a transaction is with its update of `active_revision_id`. -/
inductive Phase where
  | idle
  /-- The row is locked, and the trigger waits for the advisory lock. -/
  | waiting (new : AlertRuleRow)
  | locked (new : AlertRuleRow)
  /-- The trigger has found the revision enabled. -/
  | enabled (new : AlertRuleRow)
  /-- The trigger has returned the row. -/
  | admitted (new : AlertRuleRow)
  /-- The trigger has raised its exception. -/
  | refused

/-- The row an update is about to write. -/
def Phase.new : Phase → Option AlertRuleRow
  | .idle => none
  | .waiting new => some new
  | .locked new => some new
  | .enabled new => some new
  | .admitted new => some new
  | .refused => none

/-- An open transaction: its versions of rules, the revisions it has inserted and the
advisory locks it holds. -/
structure Txn (K : Type) where
  rules : List AlertRuleRow
  revisions : List AlertRuleRevisionRow
  locks : List K
  phase : Phase

def Txn.start {K : Type} : Txn K := ⟨[], [], [], .idle⟩

/-- The committed store and the open transactions. -/
structure System (ι K : Type) where
  db : Db
  txns : ι → Option (Txn K)

variable {ι K : Type} {db : Db} {t u : Txn K} {s s' : System ι K}

/-- The store as the transaction sees it. -/
def Txn.view (db : Db) (t : Txn K) : Db :=
  { db with
    alertRules := overlay AlertRuleRow.id t.rules db.alertRules
    alertRuleRevisions := db.alertRuleRevisions ++ t.revisions }

/-- The transaction has the row lock of the rule. -/
def Txn.Locks (t : Txn K) (ruleId : Uuid) : Prop :=
  (∃ r ∈ t.rules, r.id = ruleId) ∨ ∃ new, t.phase.new = some new ∧ new.id = ruleId

/-- No other transaction has the row lock of the rule. -/
def System.Free (s : System ι K) (i : ι) (ruleId : Uuid) : Prop :=
  ∀ j u, j ≠ i → s.txns j = some u → ¬ u.Locks ruleId

/-- `SET active_revision_id = .., updated_at = ..`. -/
def withActive (now : Timestamp) (revisionId : Option Uuid) (rule : AlertRuleRow) : AlertRuleRow :=
  { rule with activeRevisionId := revisionId, updatedAt := now }

section Steps

variable [DecidableEq ι]

def System.set (s : System ι K) (i : ι) (o : Option (Txn K)) : System ι K :=
  { s with txns := Function.update s.txns i o }

/-- The steps.  `key` gives the advisory lock of tenant and owner. -/
inductive Step (key : Uuid → String → K) : System ι K → System ι K → Prop
  | begins {s : System ι K} (i : ι) (h : s.txns i = none) : Step key s (s.set i (some .start))
  /-- The rule `create_alert_rule` inserts has no active revision, and the trigger lets it
  pass. -/
  | insertRule {s : System ι K} (i : ι) {t : Txn K} (h : s.txns i = some t) (idle : t.phase = .idle)
      (now : Timestamp) (ruleId T : Uuid) (subject : String) (free : s.Free i ruleId)
      (admits : alertRulesTable.Admits (t.view s.db) (t.view s.db).alertRules
        (AlertStore.newAlertRule now ruleId T subject)) :
      Step key s (s.set i (some { t with
        rules := put AlertRuleRow.id t.rules (AlertStore.newAlertRule now ruleId T subject) }))
  | insertRevision {s : System ι K} (i : ι) {t : Txn K} (h : s.txns i = some t)
      (idle : t.phase = .idle) (now : Timestamp) (revisionId ruleId T : Uuid) (subject : String)
      (input : CreateAlertRule) (own : ∃ r ∈ t.rules, r.id = ruleId)
      (free : ∀ j u, j ≠ i → s.txns j = some u → ∀ v ∈ u.revisions, v.id ≠ revisionId)
      (admits : alertRuleRevisionsTable.Admits (t.view s.db) (t.view s.db).alertRuleRevisions
        (AlertStore.newAlertRuleRevision now revisionId ruleId T subject input)) :
      Step key s (s.set i (some { t with
        revisions := t.revisions
          ++ [AlertStore.newAlertRuleRevision now revisionId ruleId T subject input] }))
  /-- An update of `active_revision_id` locks the row and runs into the trigger, which
  returns at once if there is no revision. -/
  | update {s : System ι K} (i : ι) {t : Txn K} (h : s.txns i = some t) (idle : t.phase = .idle)
      {rule : AlertRuleRow} (mem : rule ∈ (t.view s.db).alertRules) (free : s.Free i rule.id)
      (now : Timestamp) (revisionId : Option Uuid) :
      Step key s (s.set i (some { t with
        phase := if revisionId = none then .admitted (withActive now revisionId rule)
          else .waiting (withActive now revisionId rule) }))
  /-- `pg_advisory_xact_lock`. -/
  | lock {s : System ι K} (i : ι) {t : Txn K} (h : s.txns i = some t) {new : AlertRuleRow}
      (waiting : t.phase = .waiting new)
      (free : ∀ j u, j ≠ i → s.txns j = some u → key new.tenantId new.ownerSubject ∉ u.locks) :
      Step key s (s.set i (some { t with
        locks := key new.tenantId new.ownerSubject :: t.locks, phase := .locked new }))
  /-- `SELECT revision.enabled`. -/
  | select {s : System ι K} (i : ι) {t : Txn K} (h : s.txns i = some t) {new : AlertRuleRow}
      (locked : t.phase = .locked new) :
      Step key s (s.set i (some { t with
        phase := if AlertStore.newRevisionEnabled (t.view s.db).alertRuleRevisions new ≠ some true
          then .admitted new else .enabled new }))
  /-- `SELECT COUNT(*)`, and the comparison with the limit. -/
  | count {s : System ι K} (i : ι) {t : Txn K} (h : s.txns i = some t) {new : AlertRuleRow}
      (enabled : t.phase = .enabled new) :
      Step key s (s.set i (some { t with
        phase := if 10 ≤ AlertStore.activeCount (t.view s.db).alertRules
          (t.view s.db).alertRuleRevisions new then .refused else .admitted new }))
  /-- The row is written, and its foreign key is checked. -/
  | write {s : System ι K} (i : ι) {t : Txn K} (h : s.txns i = some t) {new : AlertRuleRow}
      (admitted : t.phase = .admitted new) (refs : alertRulesTable.refs (t.view s.db) new = true) :
      Step key s (s.set i (some { t with
        rules := put AlertRuleRow.id t.rules new, phase := .idle }))
  | commit {s : System ι K} (i : ι) {t : Txn K} (h : s.txns i = some t) (idle : t.phase = .idle) :
      Step key s ⟨t.view s.db, Function.update s.txns i none⟩
  /-- A transaction may be rolled back at any time, and one with an error has to be. -/
  | rollback {s : System ι K} (i : ι) : Step key s (s.set i none)
  /-- The other tables change. -/
  | elsewhere {s : System ι K} (d : Db) (rules : d.alertRules = s.db.alertRules)
      (revisions : d.alertRuleRevisions = s.db.alertRuleRevisions) : Step key s { s with db := d }

/-- The runs from an empty store. -/
abbrev Run (key : Uuid → String → K) (s : System ι K) : Prop :=
  ReflTransGen (Step key) ⟨Db.empty, fun _ => none⟩ s

end Steps

/-! ### Counting the rules of an owner -/

/-- The rules of the owner whose active revision is their own and enabled. -/
def activeRules (T : Uuid) (owner : String) (rules : List AlertRuleRow)
    (revisions : List AlertRuleRevisionRow) : List AlertRuleRow :=
  rules.filter fun r => decide (r.tenantId = T ∧ r.ownerSubject = owner) && enabledActive revisions r

def activeIds (T : Uuid) (owner : String) (rules : List AlertRuleRow)
    (revisions : List AlertRuleRevisionRow) : Finset Uuid :=
  ((activeRules T owner rules revisions).map AlertRuleRow.id).toFinset

variable {T : Uuid} {owner : String} {rules : List AlertRuleRow}
  {revisions more : List AlertRuleRevisionRow} {new : AlertRuleRow}

theorem mem_activeIds {id : Uuid} : id ∈ activeIds T owner rules revisions ↔
    ∃ r ∈ rules, (r.tenantId = T ∧ r.ownerSubject = owner) ∧ enabledActive revisions r = true ∧
      r.id = id := by
  simp only [activeIds, activeRules, List.mem_toFinset, List.mem_map, List.mem_filter,
    Bool.and_eq_true, decide_eq_true_eq, and_assoc]

theorem card_activeIds (h : Distinct AlertRuleRow.id rules) :
    (activeIds T owner rules revisions).card = (activeRules T owner rules revisions).length := by
  have hnodup : ((activeRules T owner rules revisions).map AlertRuleRow.id).Nodup :=
    List.pairwise_map.mpr (h.sublist List.filter_sublist)
  rw [activeIds, List.toFinset_card_of_nodup hnodup, List.length_map]

theorem enabledActive_or (r : AlertRuleRow) :
    enabledActive (revisions ++ more) r = (enabledActive revisions r || enabledActive more r) :=
  List.any_append

/-- Revisions of other rules do not matter to a rule. -/
theorem enabledActive_append {r : AlertRuleRow} (h : ∀ v ∈ more, v.alertRuleId ≠ r.id) :
    enabledActive (revisions ++ more) r = enabledActive revisions r := by
  have hnone : enabledActive more r = false := by
    rw [enabledActive, List.any_eq_false]
    intro v hv hmatch
    exact h v hv (of_decide_eq_true hmatch).2.2.1
  rw [enabledActive_or, hnone, Bool.or_false]

theorem enabledActive_of_none {r : AlertRuleRow} (h : r.activeRevisionId = none) :
    enabledActive revisions r = false := by
  rw [enabledActive, List.any_eq_false]
  intro v _ hmatch
  obtain ⟨-, hid, -⟩ := of_decide_eq_true hmatch
  rw [h] at hid
  cases hid

/-- A new revision does not matter to a rule whose active revision exists. -/
theorem enabledActive_append_new {r : AlertRuleRow} {w : AlertRuleRevisionRow}
    (hactive : ∀ a, r.activeRevisionId = some a → ∃ v ∈ revisions, v.id = a)
    (hnew : ∀ v ∈ revisions, v.id ≠ w.id) :
    enabledActive (revisions ++ [w]) r = enabledActive revisions r := by
  have hnone : enabledActive [w] r = false := by
    rw [enabledActive, List.any_eq_false]
    intro v hv hmatch
    obtain rfl := List.mem_singleton.mp hv
    obtain ⟨-, hid, -⟩ := of_decide_eq_true hmatch
    obtain ⟨u, hu, huv⟩ := hactive v.id hid.symm
    exact hnew u hu huv
  rw [enabledActive_or, hnone, Bool.or_false]

theorem activeIds_congr {revisions' : List AlertRuleRevisionRow}
    (h : ∀ r ∈ rules, enabledActive revisions' r = enabledActive revisions r) :
    activeIds T owner rules revisions' = activeIds T owner rules revisions := by
  ext id
  rw [mem_activeIds, mem_activeIds]
  refine exists_congr fun r => and_congr_right fun hr => ?_
  rw [h r hr]

theorem ids_put : ((put AlertRuleRow.id rules new).map AlertRuleRow.id).toFinset
    = insert new.id (rules.map AlertRuleRow.id).toFinset := by
  ext id
  rw [Finset.mem_insert, List.mem_toFinset, List.mem_toFinset, List.mem_map, List.mem_map]
  constructor
  · rintro ⟨r, hr, rfl⟩
    rcases mem_put.mp hr with ⟨hr, -⟩ | rfl
    · exact Or.inr ⟨r, hr, rfl⟩
    · exact Or.inl rfl
  · rintro (rfl | ⟨r, hr, rfl⟩)
    · exact ⟨new, mem_put.mpr (Or.inr rfl), rfl⟩
    · by_cases hid : r.id = new.id
      · exact ⟨new, mem_put.mpr (Or.inr rfl), hid.symm⟩
      · exact ⟨r, mem_put.mpr (Or.inl ⟨hr, hid⟩), rfl⟩

/-- The active rules after a write of one. -/
theorem activeIds_put_active (howner : new.tenantId = T ∧ new.ownerSubject = owner)
    (hactive : enabledActive revisions new = true) :
    activeIds T owner (put AlertRuleRow.id rules new) revisions
      = insert new.id (activeIds T owner rules revisions) := by
  ext id
  rw [Finset.mem_insert, mem_activeIds, mem_activeIds]
  constructor
  · rintro ⟨r, hr, hr', hractive, rfl⟩
    rcases mem_put.mp hr with ⟨hr, -⟩ | rfl
    · exact Or.inr ⟨r, hr, hr', hractive, rfl⟩
    · exact Or.inl rfl
  · rintro (rfl | ⟨r, hr, hr', hractive, rfl⟩)
    · exact ⟨new, mem_put.mpr (Or.inr rfl), howner, hactive, rfl⟩
    · by_cases hid : r.id = new.id
      · exact ⟨new, mem_put.mpr (Or.inr rfl), howner, hactive, hid.symm⟩
      · exact ⟨r, mem_put.mpr (Or.inl ⟨hr, hid⟩), hr', hractive, rfl⟩

theorem activeIds_put (h : ¬ ((new.tenantId = T ∧ new.ownerSubject = owner) ∧
      enabledActive revisions new = true)) :
    activeIds T owner (put AlertRuleRow.id rules new) revisions
      = (activeIds T owner rules revisions).erase new.id := by
  ext id
  rw [Finset.mem_erase, mem_activeIds, mem_activeIds]
  constructor
  · rintro ⟨r, hr, hr', hractive, rfl⟩
    rcases mem_put.mp hr with ⟨hr, hid⟩ | rfl
    · exact ⟨hid, r, hr, hr', hractive, rfl⟩
    · exact absurd ⟨hr', hractive⟩ h
  · rintro ⟨hid, r, hr, hr', hractive, rfl⟩
    exact ⟨r, mem_put.mpr (Or.inl ⟨hr, hid⟩), hr', hractive, rfl⟩

/-- What the trigger reads of the new revision. -/
theorem enabledActive_of_newRevisionEnabled (hids : Distinct AlertRuleRevisionRow.id revisions)
    (h : AlertStore.newRevisionEnabled revisions new ≠ some true) :
    enabledActive revisions new = false := by
  by_contra hactive
  obtain ⟨v, hv, hmatch⟩ := List.any_eq_true.mp (Bool.not_eq_false _ |>.mp hactive)
  obtain ⟨hT, hid, hrule, henabled⟩ := of_decide_eq_true hmatch
  refine h ?_
  rw [AlertStore.newRevisionEnabled]
  rcases hfind : revisions.find? fun w => decide (w.tenantId = new.tenantId ∧
      some w.id = new.activeRevisionId ∧ w.alertRuleId = new.id) with _ | w
  · exact absurd (decide_eq_true ⟨hT, hid, hrule⟩) (List.find?_eq_none.mp hfind v hv)
  · have hw := List.find?_some hfind
    obtain ⟨-, hwid, -⟩ := of_decide_eq_true hw
    have hwv : w = v := hids.eq_of_key (List.mem_of_find?_eq_some hfind) hv
      (Option.some.inj (hwid.trans hid.symm))
    rw [hfind, hwv, Option.map_some, henabled]

theorem card_erase_le (hids : Distinct AlertRuleRevisionRow.id revisions) :
    ((activeIds new.tenantId new.ownerSubject rules revisions).erase new.id).card
      ≤ AlertStore.activeCount rules revisions new := by
  rw [activeCount_eq hids, ← List.length_map AlertRuleRow.id]
  refine le_trans (Finset.card_le_card fun id hid => ?_) (List.toFinset_card_le _)
  obtain ⟨hne, hid⟩ := Finset.mem_erase.mp hid
  obtain ⟨r, hr, ⟨hT, howner⟩, hactive, rfl⟩ := mem_activeIds.mp hid
  refine List.mem_toFinset.mpr (List.mem_map_of_mem (List.mem_filter.mpr ⟨?_, hactive⟩))
  exact List.mem_filter.mpr ⟨hr, decide_eq_true ⟨hT, howner, hne⟩⟩

/-! ### The invariant -/

theorem new_of_admits {d : Db} {w : AlertRuleRevisionRow}
    (h : alertRuleRevisionsTable.Admits d revisions w) : ∀ v ∈ revisions, v.id ≠ w.id := by
  intro v hv heq
  have hkey := h.fresh v hv
  simp [alertRuleRevisionsTable, heq] at hkey

/-- What is known of an open transaction, with the committed revisions. -/
structure Txn.Inv (key : Uuid → String → K) (committed : List AlertRuleRevisionRow) (t : Txn K) :
    Prop where
  rules : Distinct AlertRuleRow.id t.rules
  revisions : Distinct AlertRuleRevisionRow.id (committed ++ t.revisions)
  own : ∀ v ∈ t.revisions, ∃ r ∈ t.rules, r.id = v.alertRuleId
  refs : ∀ r ∈ t.rules, ∀ a, r.activeRevisionId = some a → ∃ v ∈ committed ++ t.revisions, v.id = a
  lock : ∀ new, t.phase = .locked new ∨ t.phase = .enabled new →
    key new.tenantId new.ownerSubject ∈ t.locks

structure System.Inv (key : Uuid → String → K) (s : System ι K) : Prop where
  rules : Distinct AlertRuleRow.id s.db.alertRules
  revisions : Distinct AlertRuleRevisionRow.id s.db.alertRuleRevisions
  txns : ∀ i t, s.txns i = some t → t.Inv key s.db.alertRuleRevisions
  /-- Row locks are exclusive. -/
  rows : ∀ i j t u, i ≠ j → s.txns i = some t → s.txns j = some u → ∀ id, t.Locks id → ¬ u.Locks id
  keys : ∀ i j t u, i ≠ j → s.txns i = some t → s.txns j = some u →
    ∀ v ∈ t.revisions, ∀ w ∈ u.revisions, v.id ≠ w.id

variable {key : Uuid → String → K}

theorem System.inv_of_closed {d : Db} (hrules : Distinct AlertRuleRow.id d.alertRules)
    (hrevisions : Distinct AlertRuleRevisionRow.id d.alertRuleRevisions) :
    (⟨d, fun _ => none⟩ : System ι K).Inv key where
  rules := hrules
  revisions := hrevisions
  txns _ _ h := by cases h
  rows _ _ _ _ _ h := by cases h
  keys _ _ _ _ _ h := by cases h

theorem System.Inv.free (h : s.Inv key) {i : ι} (hi : s.txns i = some t) {id : Uuid}
    (hlocks : t.Locks id) : s.Free i id :=
  fun j u hji hj => h.rows i j t u hji.symm hi hj id hlocks

theorem Txn.locks_put {phase : Phase} {id : Uuid}
    (h : (Txn.mk (put AlertRuleRow.id t.rules new) t.revisions t.locks phase).Locks id) :
    t.Locks id ∨ id = new.id ∨ ∃ row, phase.new = some row ∧ row.id = id := by
  rcases h with ⟨r, hr, rfl⟩ | hphase
  · rcases mem_put.mp hr with ⟨hr, -⟩ | rfl
    · exact Or.inl (Or.inl ⟨r, hr, rfl⟩)
    · exact Or.inr (Or.inl rfl)
  · exact Or.inr (Or.inr hphase)

theorem Txn.Inv.put (h : t.Inv key revisions)
    (hactive : ∀ a, new.activeRevisionId = some a → ∃ v ∈ revisions ++ t.revisions, v.id = a) :
    (Txn.mk (put AlertRuleRow.id t.rules new) t.revisions t.locks .idle).Inv key revisions where
  rules := distinct_put h.rules
  revisions := h.revisions
  own v hv := by
    obtain ⟨r, hr, hrule⟩ := h.own v hv
    by_cases hid : r.id = new.id
    · exact ⟨new, mem_put.mpr (Or.inr rfl), hid.symm.trans hrule⟩
    · exact ⟨r, mem_put.mpr (Or.inl ⟨hr, hid⟩), hrule⟩
  refs r hr := by
    rcases mem_put.mp hr with ⟨hr, -⟩ | rfl
    · exact h.refs r hr
    · exact hactive
  lock new h := by rcases h with h | h <;> cases h

theorem Txn.Inv.phase (h : t.Inv key revisions) {phase : Phase}
    (hlock : ∀ new, phase = .locked new ∨ phase = .enabled new →
      key new.tenantId new.ownerSubject ∈ t.locks) :
    ({ t with phase := phase } : Txn K).Inv key revisions where
  rules := h.rules
  revisions := h.revisions
  own := h.own
  refs := h.refs
  lock := hlock

section

variable [DecidableEq ι]

theorem System.Inv.set (h : s.Inv key) {i : ι} {o : Option (Txn K)}
    (ho : ∀ t, o = some t → t.Inv key s.db.alertRuleRevisions)
    (hrows : ∀ t, o = some t → ∀ id, t.Locks id → s.Free i id)
    (hkeys : ∀ t, o = some t → ∀ v ∈ t.revisions, ∀ j u, j ≠ i → s.txns j = some u →
      ∀ w ∈ u.revisions, w.id ≠ v.id) : (s.set i o).Inv key := by
  refine ⟨h.rules, h.revisions, fun j u hj => ?_, fun j k t u hjk hj hk id ht hu => ?_,
    fun j k t u hjk hj hk v hv w hw => ?_⟩
  · rcases update_eq_some hj with ⟨-, hu⟩ | ⟨-, hu⟩
    · exact ho u hu
    · exact h.txns j u hu
  · rcases update_eq_some hj with ⟨rfl, ht'⟩ | ⟨hji, ht'⟩
    · rcases update_eq_some hk with ⟨rfl, -⟩ | ⟨hkj, hu'⟩
      · exact hjk rfl
      · exact hrows t ht' id ht k u hkj hu' hu
    · rcases update_eq_some hk with ⟨rfl, hu'⟩ | ⟨-, hu'⟩
      · exact hrows u hu' id hu j t hji ht' ht
      · exact h.rows j k t u hjk ht' hu' id ht hu
  · rcases update_eq_some hj with ⟨rfl, ht'⟩ | ⟨hji, ht'⟩
    · rcases update_eq_some hk with ⟨rfl, -⟩ | ⟨hkj, hu'⟩
      · exact absurd rfl hjk
      · exact (hkeys t ht' v hv k u hkj hu' w hw).symm
    · rcases update_eq_some hk with ⟨rfl, hu'⟩ | ⟨-, hu'⟩
      · exact hkeys u hu' w hw j t hji ht' v hv
      · exact h.keys j k t u hjk ht' hu' v hv w hw

theorem System.Inv.set_of_revisions (h : s.Inv key) {i : ι} (hi : s.txns i = some t)
    (hu : u.Inv key s.db.alertRuleRevisions) (hrevisions : u.revisions = t.revisions)
    (hrows : ∀ id, u.Locks id → t.Locks id ∨ s.Free i id) : (s.set i (some u)).Inv key := by
  refine h.set (fun t' ht' => ?_) (fun t' ht' id hid => ?_) fun t' ht' v hv j w hji hj => ?_
  · obtain rfl := Option.some.inj ht'
    exact hu
  · obtain rfl := Option.some.inj ht'
    exact (hrows id hid).elim (h.free hi) fun hfree => hfree
  · obtain rfl := Option.some.inj ht'
    rw [hrevisions] at hv
    intro w' hw'
    exact h.keys j i w t hji hj hi w' hw' v hv

/-- The revisions another transaction commits are of rules that it has written. -/
theorem Txn.Inv.commit (h : u.Inv key revisions) (hids : Distinct AlertRuleRevisionRow.id
      (revisions ++ more)) (hkeys : ∀ v ∈ more, ∀ w ∈ u.revisions, v.id ≠ w.id) :
    u.Inv key (revisions ++ more) where
  rules := h.rules
  revisions := by
    obtain ⟨-, hu, hnew⟩ := distinct_append.mp h.revisions
    refine distinct_append.mpr ⟨hids, hu, fun v hv w hw => ?_⟩
    rcases List.mem_append.mp hv with hv | hv
    · exact hnew v hv w hw
    · exact hkeys v hv w hw
  own := h.own
  refs r hr a ha := by
    obtain ⟨v, hv, hid⟩ := h.refs r hr a ha
    refine ⟨v, ?_, hid⟩
    rw [List.append_assoc]
    rcases List.mem_append.mp hv with hv | hv
    · exact List.mem_append_left _ hv
    · exact List.mem_append_right _ (List.mem_append_right _ hv)
  lock := h.lock

theorem Step.inv (hs : Step key s s') (h : s.Inv key) : s'.Inv key := by
  cases hs with
  | begins i hi =>
    refine h.set (fun t ht => ?_) (fun t ht id hid => ?_) fun t ht v hv => ?_
    · obtain rfl := Option.some.inj ht
      refine ⟨List.Pairwise.nil, ?_, ?_, ?_, fun new h => ?_⟩
      · rw [Txn.start, List.append_nil]
        exact h.revisions
      · intro v hv
        cases hv
      · intro r hr
        cases hr
      · rcases h with h | h <;> cases h
    · obtain rfl := Option.some.inj ht
      rcases hid with ⟨r, hr, -⟩ | ⟨new, hnew, -⟩
      · cases hr
      · cases hnew
    · obtain rfl := Option.some.inj ht
      cases hv
  | @insertRule i t hi idle now ruleId T subject free admits =>
    have hput : (Txn.mk (put AlertRuleRow.id t.rules (AlertStore.newAlertRule now ruleId T subject))
        t.revisions t.locks .idle).Inv key s.db.alertRuleRevisions :=
      (h.txns i t hi).put fun a ha => by cases ha
    have hphase : (Txn.mk (put AlertRuleRow.id t.rules (AlertStore.newAlertRule now ruleId T subject))
        t.revisions t.locks t.phase).Inv key s.db.alertRuleRevisions := by
      rw [idle]
      exact hput
    refine h.set_of_revisions hi hphase rfl fun id hid => ?_
    rcases Txn.locks_put hid with hold | rfl | ⟨row, hrow, -⟩
    · exact Or.inl hold
    · exact Or.inr free
    · rw [idle] at hrow
      cases hrow
  | @insertRevision i t hi idle now revisionId ruleId T subject input own free admits =>
    have ht := h.txns i t hi
    refine h.set (fun t' ht' => ?_) (fun t' ht' id hid => ?_) fun t' ht' v hv j u hji hj w hw => ?_
    · obtain rfl := Option.some.inj ht'
      refine ⟨ht.rules, ?_, fun v hv => ?_, fun r hr a ha => ?_, ht.lock⟩
      · rw [← List.append_assoc]
        refine distinct_append.mpr ⟨ht.revisions, List.pairwise_singleton _ _, fun v hv w hw => ?_⟩
        obtain rfl := List.mem_singleton.mp hw
        exact new_of_admits admits v hv
      · rcases List.mem_append.mp hv with hv | hv
        · exact ht.own v hv
        · obtain rfl := List.mem_singleton.mp hv
          exact own
      · obtain ⟨v, hv, hid⟩ := ht.refs r hr a ha
        refine ⟨v, ?_, hid⟩
        rw [← List.append_assoc]
        exact List.mem_append_left _ hv
    · obtain rfl := Option.some.inj ht'
      exact h.free hi hid
    · obtain rfl := Option.some.inj ht'
      rcases List.mem_append.mp hv with hv | hv
      · exact h.keys j i u t hji hj hi w hw v hv
      · obtain rfl := List.mem_singleton.mp hv
        exact free j u hji hj w hw
  | @update i t hi idle rule mem free now revisionId =>
    refine h.set_of_revisions hi ((h.txns i t hi).phase fun new hnew => ?_) rfl fun id hid => ?_
    · rcases hnew with hnew | hnew
      · split_ifs at hnew
      · split_ifs at hnew
    · rcases hid with hold | ⟨new, hnew, rfl⟩
      · exact Or.inl (Or.inl hold)
      · have hrow : new.id = rule.id := by
          dsimp only at hnew
          split_ifs at hnew <;> obtain rfl := Option.some.inj hnew <;> rfl
        rw [hrow]
        exact Or.inr free
  | @lock i t hi new waiting free =>
    have ht := h.txns i t hi
    refine h.set_of_revisions hi ⟨ht.rules, ht.revisions, ht.own, ht.refs, fun row hrow => ?_⟩ rfl
      fun id hid => Or.inl ?_
    · rcases hrow with hrow | hrow
      · obtain rfl := Phase.locked.inj hrow
        exact List.mem_cons_self
      · cases hrow
    · rcases hid with hold | ⟨row, hrow, rfl⟩
      · exact Or.inl hold
      · exact Or.inr ⟨row, by rw [waiting]; exact hrow, rfl⟩
  | @select i t hi new locked =>
    have ht := h.txns i t hi
    refine h.set_of_revisions hi (ht.phase fun row hrow => ?_) rfl fun id hid => Or.inl ?_
    · refine ht.lock row (Or.inl ?_)
      rcases hrow with hrow | hrow
      · split_ifs at hrow
      · split_ifs at hrow
        rw [locked, Phase.enabled.inj hrow]
    · rcases hid with hold | ⟨row, hrow, rfl⟩
      · exact Or.inl hold
      · refine Or.inr ⟨row, ?_, rfl⟩
        dsimp only at hrow
        rw [locked]
        split_ifs at hrow
        · exact hrow
        · exact hrow
  | @count i t hi new enabled =>
    refine h.set_of_revisions hi ((h.txns i t hi).phase fun row hrow => ?_) rfl
      fun id hid => Or.inl ?_
    · rcases hrow with hrow | hrow
      · split_ifs at hrow
      · split_ifs at hrow
    · rcases hid with hold | ⟨row, hrow, rfl⟩
      · exact Or.inl hold
      · refine Or.inr ⟨row, ?_, rfl⟩
        dsimp only at hrow
        rw [enabled]
        split_ifs at hrow
        · cases hrow
        · exact hrow
  | @write i t hi new admitted refs =>
    have ht := h.txns i t hi
    have hactive : ∀ a, new.activeRevisionId = some a →
        ∃ v ∈ s.db.alertRuleRevisions ++ t.revisions, v.id = a := by
      intro a ha
      simp only [alertRulesTable, ha, Option.all_some, List.any_eq_true, decide_eq_true_eq] at refs
      obtain ⟨v, hv, -, hid⟩ := refs
      exact ⟨v, hv, hid⟩
    refine h.set_of_revisions hi (ht.put hactive) rfl fun id hid => Or.inl ?_
    rcases Txn.locks_put hid with hold | rfl | ⟨row, hrow, -⟩
    · exact hold
    · exact Or.inr ⟨new, by rw [admitted]; rfl, rfl⟩
    · cases hrow
  | @commit i t hi idle =>
    have ht := h.txns i t hi
    have htxn : ∀ j u, Function.update s.txns i none j = some u → j ≠ i ∧ s.txns j = some u := by
      intro j u hj
      rcases update_eq_some hj with ⟨-, hnone⟩ | hu
      · cases hnone
      · exact hu
    refine ⟨distinct_overlay h.rules ht.rules, ht.revisions, fun j u hj => ?_,
      fun j k t' u hjk hj hk => ?_, fun j k t' u hjk hj hk => ?_⟩
    · obtain ⟨hji, hu⟩ := htxn j u hj
      exact (h.txns j u hu).commit ht.revisions fun v hv w hw =>
        h.keys i j t u hji.symm hi hu v hv w hw
    · exact h.rows j k t' u hjk (htxn j t' hj).2 (htxn k u hk).2
    · exact h.keys j k t' u hjk (htxn j t' hj).2 (htxn k u hk).2
  | rollback i =>
    exact h.set (fun t ht => by cases ht) (fun t ht => by cases ht) (fun t ht => by cases ht)
  | elsewhere d hrules hrevisions =>
    refine ⟨?_, ?_, fun i t hi => ?_, h.rows, h.keys⟩
    · rw [hrules]
      exact h.rules
    · rw [hrevisions]
      exact h.revisions
    · rw [hrevisions]
      exact h.txns i t hi

theorem Run.inv (h : Run key s) : s.Inv key := by
  induction h with
  | refl => exact System.inv_of_closed List.Pairwise.nil List.Pairwise.nil
  | tail _ hs ih => exact hs.inv ih

end

/-! ### The quota of an owner -/

section Quota

variable [DecidableEq K]

/-- The row whose activation was admitted, if it is a rule of the owner. -/
def Phase.admittedFor (T : Uuid) (owner : String) (revisions : List AlertRuleRevisionRow) :
    Phase → Option Uuid
  | .admitted new =>
    if (new.tenantId = T ∧ new.ownerSubject = owner) ∧ enabledActive revisions new = true then
      some new.id
    else none
  | _ => none

/-- What the transaction does to the rules of the owner. -/
def Txn.quota (key : Uuid → String → K) (T : Uuid) (owner : String)
    (committed : List AlertRuleRevisionRow) (t : Txn K) : Quota.Txn Uuid where
  rows := (t.rules.map AlertRuleRow.id).toFinset
  active := activeIds T owner t.rules (committed ++ t.revisions)
  holds := decide (key T owner ∈ t.locks)
  admitted := t.phase.admittedFor T owner (committed ++ t.revisions)

/-- The system, as far as the rules of the owner go. -/
def System.quota (key : Uuid → String → K) (T : Uuid) (owner : String) (s : System ι K) :
    Quota ι Uuid where
  active := activeIds T owner s.db.alertRules s.db.alertRuleRevisions
  txns i := (s.txns i).map (Txn.quota key T owner s.db.alertRuleRevisions)

theorem admittedFor_of_not (h : enabledActive revisions new = false) :
    (Phase.admitted new).admittedFor T owner revisions = none := by
  rw [Phase.admittedFor, if_neg]
  rw [h]
  simp

theorem mem_rows {id : Uuid} :
    id ∈ (t.quota key T owner revisions).rows ↔ ∃ r ∈ t.rules, r.id = id := by
  simp [Txn.quota]

/-- **The transaction counts what it sees.** -/
theorem Txn.Inv.view_quota (h : t.Inv key s.db.alertRuleRevisions) :
    (s.quota key T owner).view (t.quota key T owner s.db.alertRuleRevisions)
      = activeIds T owner (t.view s.db).alertRules (t.view s.db).alertRuleRevisions := by
  have hcommitted : ∀ r, (∀ o ∈ t.rules, o.id ≠ r.id) →
      enabledActive (s.db.alertRuleRevisions ++ t.revisions) r
        = enabledActive s.db.alertRuleRevisions r := by
    intro r hr
    refine enabledActive_append fun v hv heq => ?_
    obtain ⟨o, ho, hrule⟩ := h.own v hv
    exact hr o ho (hrule.trans heq)
  ext id
  rw [Quota.view, Finset.mem_union, Finset.mem_sdiff, mem_rows]
  simp only [System.quota, Txn.quota, mem_activeIds, Txn.view, mem_overlay]
  constructor
  · rintro (⟨⟨r, hr, howner, hactive, rfl⟩, hfree⟩ | ⟨r, hr, howner, hactive, rfl⟩)
    · have hnone : ∀ o ∈ t.rules, o.id ≠ r.id := fun o ho heq => hfree ⟨o, ho, heq⟩
      exact ⟨r, Or.inl ⟨hr, hnone⟩, howner, (hcommitted r hnone).trans hactive, rfl⟩
    · exact ⟨r, Or.inr hr, howner, hactive, rfl⟩
  · rintro ⟨r, ⟨hr, hnone⟩ | hr, howner, hactive, rfl⟩
    · refine Or.inl ⟨⟨r, hr, howner, (hcommitted r hnone).symm.trans hactive, rfl⟩, ?_⟩
      rintro ⟨o, ho, heq⟩
      exact hnone o ho heq
    · exact Or.inr ⟨r, hr, howner, hactive, rfl⟩

theorem Txn.quota_put_active (howner : new.tenantId = T ∧ new.ownerSubject = owner)
    (hactive : enabledActive (revisions ++ t.revisions) new = true) :
    (Txn.mk (put AlertRuleRow.id t.rules new) t.revisions t.locks .idle).quota key T owner revisions
      = ⟨insert new.id (t.quota key T owner revisions).rows,
        insert new.id (t.quota key T owner revisions).active,
        (t.quota key T owner revisions).holds, none⟩ := by
  rw [Txn.quota, ids_put, activeIds_put_active howner hactive]
  rfl

theorem Txn.quota_put (h : ¬ ((new.tenantId = T ∧ new.ownerSubject = owner) ∧
      enabledActive (revisions ++ t.revisions) new = true)) :
    (Txn.mk (put AlertRuleRow.id t.rules new) t.revisions t.locks .idle).quota key T owner revisions
      = ⟨insert new.id (t.quota key T owner revisions).rows,
        (t.quota key T owner revisions).active.erase new.id,
        (t.quota key T owner revisions).holds, none⟩ := by
  rw [Txn.quota, ids_put, activeIds_put h]
  rfl

theorem Txn.quota_phase {phase : Phase} (h : t.phase.admittedFor T owner (revisions ++ t.revisions)
      = phase.admittedFor T owner (revisions ++ t.revisions)) :
    ({ t with phase := phase } : Txn K).quota key T owner revisions
      = t.quota key T owner revisions := by
  rw [Txn.quota, Txn.quota, h]

/-- What another transaction commits does not change what this one does. -/
theorem Txn.quota_commit (hown : ∀ v ∈ more, ¬ u.Locks v.alertRuleId) :
    u.quota key T owner (revisions ++ more) = u.quota key T owner revisions := by
  have hsame : ∀ r : AlertRuleRow, u.Locks r.id →
      enabledActive (revisions ++ more ++ u.revisions) r
        = enabledActive (revisions ++ u.revisions) r := by
    intro r hr
    have hmore : enabledActive (revisions ++ more) r = enabledActive revisions r :=
      enabledActive_append fun v hv heq => hown v hv (heq ▸ hr)
    have hor : enabledActive (revisions ++ more ++ u.revisions) r
        = (enabledActive (revisions ++ more) r || enabledActive u.revisions r) :=
      enabledActive_or r
    rw [hor, hmore, enabledActive_or]
  have hadmitted : u.phase.admittedFor T owner (revisions ++ more ++ u.revisions)
      = u.phase.admittedFor T owner (revisions ++ u.revisions) := by
    cases hphase : u.phase with
    | admitted new =>
      have hlocks : u.Locks new.id := Or.inr ⟨new, by rw [hphase]; rfl, rfl⟩
      rw [Phase.admittedFor, Phase.admittedFor, hsame new hlocks]
    | _ => rfl
  have hactive : activeIds T owner u.rules (revisions ++ more ++ u.revisions)
      = activeIds T owner u.rules (revisions ++ u.revisions) :=
    activeIds_congr fun r hr => hsame r (Or.inl ⟨r, hr, rfl⟩)
  rw [Txn.quota, Txn.quota, hadmitted, hactive]

theorem System.quota_txns {i : ι} (hi : s.txns i = some t) :
    (s.quota key T owner).txns i = some (t.quota key T owner s.db.alertRuleRevisions) :=
  congrArg (Option.map _) hi

variable [DecidableEq ι]

theorem System.quota_set (i : ι) (o : Option (Txn K)) :
    (s.set i o).quota key T owner
      = (s.quota key T owner).set i (o.map (Txn.quota key T owner s.db.alertRuleRevisions)) := by
  have htxns : ((s.set i o).quota key T owner).txns = Function.update (s.quota key T owner).txns i
      (o.map (Txn.quota key T owner s.db.alertRuleRevisions)) := by
    funext j
    by_cases hji : j = i
    · subst hji
      simp [System.quota, System.set]
    · simp [System.quota, System.set, Function.update_of_ne hji]
  rw [Quota.set, ← htxns]
  rfl

/-- A step of one transaction that does not matter to the owner. -/
theorem System.quota_same {i : ι} (hi : s.txns i = some t)
    (h : u.quota key T owner s.db.alertRuleRevisions
      = t.quota key T owner s.db.alertRuleRevisions) :
    ReflGen (Quota.Step 10) (s.quota key T owner) ((s.set i (some u)).quota key T owner) := by
  rw [System.quota_set, Option.map_some, h, Quota.set, ← System.quota_txns hi,
    Function.update_eq_self]

/-- **Every step is a step of the quota of each owner**, or does not matter to it. -/
theorem Step.quota (hs : Step key s s') (h : s.Inv key) (T : Uuid) (owner : String) :
    ReflGen (Quota.Step 10) (s.quota key T owner) (s'.quota key T owner) := by
  cases hs with
  | begins i hi =>
    rw [System.quota_set]
    refine .single (.begins i ?_)
    exact congrArg (Option.map _) hi
  | @insertRule i t hi idle now ruleId T' subject free admits =>
    have hnot : ¬ (((AlertStore.newAlertRule now ruleId T' subject).tenantId = T ∧
        (AlertStore.newAlertRule now ruleId T' subject).ownerSubject = owner) ∧
        enabledActive (s.db.alertRuleRevisions ++ t.revisions)
          (AlertStore.newAlertRule now ruleId T' subject) = true) := by
      rw [enabledActive_of_none rfl]
      simp
    rw [System.quota_set, Option.map_some, idle, Txn.quota_put hnot]
    exact .single (.deactivate i (System.quota_txns hi) _)
  | @insertRevision i t hi idle now revisionId ruleId T' subject input own free admits =>
    have ht := h.txns i t hi
    refine System.quota_same hi ?_
    rw [Txn.quota, Txn.quota, ← List.append_assoc,
      activeIds_congr fun r hr => enabledActive_append_new (ht.refs r hr) (new_of_admits admits), idle]
    rfl
  | @update i t hi idle rule mem free now revisionId =>
    refine System.quota_same hi (Txn.quota_phase ?_)
    rw [idle]
    by_cases hnone : revisionId = none
    · rw [if_pos hnone, admittedFor_of_not (enabledActive_of_none hnone)]
      rfl
    · rw [if_neg hnone]
      rfl
  | @lock i t hi new waiting free =>
    by_cases hkey : key T owner = key new.tenantId new.ownerSubject
    · rw [System.quota_set, Option.map_some]
      have hlock : Txn.quota key T owner s.db.alertRuleRevisions { t with
            locks := key new.tenantId new.ownerSubject :: t.locks, phase := .locked new }
          = { t.quota key T owner s.db.alertRuleRevisions with holds := true } := by
        rw [Txn.quota, Txn.quota, waiting, hkey, decide_eq_true List.mem_cons_self]
        rfl
      rw [hlock]
      refine .single (.lock i (System.quota_txns hi) fun j u hji hj => ?_)
      obtain ⟨u, hu, rfl⟩ := Option.map_eq_some_iff.mp hj
      refine decide_eq_false ?_
      rw [hkey]
      exact free j u hji hu
    · refine System.quota_same hi ?_
      rw [Txn.quota, Txn.quota, waiting]
      simp only [List.mem_cons, hkey, false_or]
      rfl
  | @select i t hi new locked =>
    refine System.quota_same hi (Txn.quota_phase ?_)
    rw [locked]
    by_cases henabled : AlertStore.newRevisionEnabled (t.view s.db).alertRuleRevisions new
        ≠ some true
    · have hactive := enabledActive_of_newRevisionEnabled (h.txns i t hi).revisions henabled
      rw [if_pos henabled, admittedFor_of_not hactive]
      rfl
    · rw [if_neg henabled]
      rfl
  | @count i t hi new enabled =>
    have ht := h.txns i t hi
    by_cases hfull : 10 ≤ AlertStore.activeCount (t.view s.db).alertRules
        (t.view s.db).alertRuleRevisions new
    · rw [if_pos hfull]
      refine System.quota_same hi (Txn.quota_phase ?_)
      rw [enabled]
      rfl
    · rw [if_neg hfull]
      by_cases hactive : (new.tenantId = T ∧ new.ownerSubject = owner) ∧
          enabledActive (s.db.alertRuleRevisions ++ t.revisions) new = true
      · -- The count was taken under the lock of the owner, and there is room.
        obtain ⟨⟨rfl, rfl⟩, hactive⟩ := hactive
        have hadmit : Txn.quota key new.tenantId new.ownerSubject s.db.alertRuleRevisions
              { t with phase := .admitted new }
            = { t.quota key new.tenantId new.ownerSubject s.db.alertRuleRevisions with
              admitted := some new.id } := by
          rw [Txn.quota, Txn.quota, Phase.admittedFor, if_pos ⟨⟨rfl, rfl⟩, hactive⟩]
        rw [System.quota_set, Option.map_some, hadmit]
        refine .single (.claim i (System.quota_txns hi) new.id ?_ ?_)
        · exact decide_eq_true (ht.lock new (Or.inr enabled))
        · rw [ht.view_quota]
          exact (card_erase_le ht.revisions).trans_lt (not_le.mp hfull)
      · refine System.quota_same hi (Txn.quota_phase ?_)
        rw [enabled, Phase.admittedFor, Phase.admittedFor, if_neg hactive]
        simp
  | @write i t hi new admitted refs =>
    rw [System.quota_set, Option.map_some]
    by_cases hactive : (new.tenantId = T ∧ new.ownerSubject = owner) ∧
        enabledActive (s.db.alertRuleRevisions ++ t.revisions) new = true
    · rw [Txn.quota_put_active hactive.1 hactive.2]
      refine .single (.activate i (System.quota_txns hi) ?_)
      rw [Txn.quota, admitted, Phase.admittedFor, if_pos hactive]
    · rw [Txn.quota_put hactive]
      exact .single (.deactivate i (System.quota_txns hi) _)
  | @commit i t hi idle =>
    have ht := h.txns i t hi
    have hcommit : (⟨t.view s.db, Function.update s.txns i none⟩ : System ι K).quota key T owner
        = ⟨(s.quota key T owner).view (t.quota key T owner s.db.alertRuleRevisions),
          Function.update (s.quota key T owner).txns i none⟩ := by
      rw [ht.view_quota, System.quota]
      refine congrArg (Quota.mk _) (funext fun j => ?_)
      dsimp only
      by_cases hji : j = i
      · subst hji
        rw [Function.update_self, Function.update_self]
        rfl
      · rw [Function.update_of_ne hji, Function.update_of_ne hji]
        refine Option.map_congr fun u hu => Txn.quota_commit fun v hv => ?_
        -- Its revisions are of rules that it has locked.
        obtain ⟨r, hr, hrule⟩ := ht.own v hv
        exact h.rows i j t u (Ne.symm hji) hi hu _ (Or.inl ⟨r, hr, hrule⟩)
    rw [hcommit]
    exact .single (.commit i (System.quota_txns hi))
  | rollback i =>
    rw [System.quota_set]
    exact .single (.rollback i)
  | elsewhere d hrules hrevisions =>
    have hsame : ({ s with db := d } : System ι K).quota key T owner = s.quota key T owner := by
      rw [System.quota, System.quota, hrules, hrevisions]
    rw [hsame]

/-- **No owner ever has more than ten committed rules that are enabled and active.** -/
theorem Run.length_le (h : Run key s) (T : Uuid) (owner : String) :
    (activeRules T owner s.db.alertRules s.db.alertRuleRevisions).length ≤ 10 := by
  have hquota : ReflTransGen (Quota.Step 10)
      ((⟨Db.empty, fun _ => none⟩ : System ι K).quota key T owner) (s.quota key T owner) := by
    induction h with
    | refl => exact .refl
    | tail hrun hs ih => exact ih.trans ((hs.quota (Run.inv hrun) T owner).to_reflTransGen)
  have hcard := Quota.Run.card_le hquota (fun _ => rfl) (Nat.zero_le _)
  rw [← card_activeIds (Run.inv h).rules]
  exact hcard

end Quota

/-! ### Refusals -/

section Refusals

variable [DecidableEq ι]

/-- Only the count refuses. -/
theorem Step.refused (hs : Step key s s') {i : ι} (hi : s.txns i = some t)
    (hphase : t.phase ≠ .refused) (hi' : s'.txns i = some u) (hrefused : u.phase = .refused) :
    ∃ new, t.phase = .enabled new ∧
      10 ≤ AlertStore.activeCount (t.view s.db).alertRules (t.view s.db).alertRuleRevisions new := by
  have hsame : ∀ {w : Txn K}, s.txns i = some w → w = t := fun hw => Option.some.inj (hw.symm.trans hi)
  have hother : s.txns i = some u → False := fun hu => hphase (hsame hu ▸ hrefused)
  cases hs with
  | begins j hj =>
    rcases update_eq_some hi' with ⟨rfl, -⟩ | ⟨-, hu⟩
    · rw [hj] at hi
      cases hi
    · exact (hother hu).elim
  | insertRule j hj | insertRevision j hj =>
    rcases update_eq_some hi' with ⟨rfl, hu⟩ | ⟨-, hu⟩
    · obtain rfl := Option.some.inj hu
      obtain rfl := hsame hj
      exact (hphase hrefused).elim
    · exact (hother hu).elim
  | update j hj | select j hj =>
    rcases update_eq_some hi' with ⟨rfl, hu⟩ | ⟨-, hu⟩
    · obtain rfl := Option.some.inj hu
      split_ifs at hrefused
    · exact (hother hu).elim
  | lock j hj | write j hj =>
    rcases update_eq_some hi' with ⟨rfl, hu⟩ | ⟨-, hu⟩
    · obtain rfl := Option.some.inj hu
      cases hrefused
    · exact (hother hu).elim
  | @count j t' hj new enabled =>
    rcases update_eq_some hi' with ⟨rfl, hu⟩ | ⟨-, hu⟩
    · obtain rfl := Option.some.inj hu
      obtain rfl := hsame hj
      refine ⟨new, enabled, ?_⟩
      by_contra hroom
      rw [if_neg hroom] at hrefused
      cases hrefused
    · exact (hother hu).elim
  | commit j hj | rollback j =>
    rcases update_eq_some hi' with ⟨-, hu⟩ | ⟨-, hu⟩
    · cases hu
    · exact (hother hu).elim
  | elsewhere d => exact (hother hi').elim

omit [DecidableEq ι] in
/-- The rules that are counted are committed, or made by the transaction itself. -/
theorem Txn.Inv.counted (h : t.Inv key s.db.alertRuleRevisions)
    {r : AlertRuleRow} (hr : r ∈ activeOthers (t.view s.db).alertRules
      (t.view s.db).alertRuleRevisions new) :
    r.tenantId = new.tenantId ∧ r.ownerSubject = new.ownerSubject ∧ r.id ≠ new.id ∧
      ((r ∈ s.db.alertRules ∧ enabledActive s.db.alertRuleRevisions r = true) ∨
        (r ∈ t.rules ∧ enabledActive (s.db.alertRuleRevisions ++ t.revisions) r = true)) := by
  obtain ⟨hr, hactive⟩ := List.mem_filter.mp hr
  obtain ⟨hr, hother⟩ := List.mem_filter.mp hr
  obtain ⟨hT, howner, hid⟩ := of_decide_eq_true hother
  refine ⟨hT, howner, hid, ?_⟩
  rcases mem_overlay.mp hr with ⟨hr, hnone⟩ | hr
  · refine Or.inl ⟨hr, ?_⟩
    rw [← hactive]
    refine (enabledActive_append fun v hv heq => ?_).symm
    obtain ⟨o, ho, hrule⟩ := h.own v hv
    exact hnone o ho (hrule.trans heq)
  · exact Or.inr ⟨hr, hactive⟩

end Refusals

/-! ### Creations that run alone -/

section Alone

variable [DecidableEq ι] {i : ι}

/-- The transaction `i` is the only one that is open. -/
def alone (db : Db) (i : ι) (t : Txn K) : System ι K := ⟨db, Function.update (fun _ => none) i (some t)⟩

theorem alone_db : (alone db i t).db = db := rfl

theorem alone_set : (alone db i t).set i (some u) = alone db i u := by
  rw [System.set, alone, alone, Function.update_idem]

theorem alone_txns : (alone db i t).txns i = some t := by
  simp [alone]

theorem alone_other {j : ι} (hji : j ≠ i) (hj : (alone db i t).txns j = some u) : False := by
  simp [alone, Function.update_of_ne hji] at hj

theorem Step.alone (h : (alone db i t).txns i = some t →
      Step key (alone db i t) ((alone db i t).set i (some u))) :
    Step key (alone db i t) (alone db i u) := by
  rw [← alone_set (t := t) (u := u)]
  exact h alone_txns

theorem alone_free (id : Uuid) : (alone db i t).Free i id := fun _ _ hji hj => (alone_other hji hj).elim

theorem Step.alone_commit {d : Db} (hidle : t.phase = .idle) (hview : t.view db = d) :
    Step key (ActiveLimit.alone db i t) ⟨d, fun _ => none⟩ := by
  have hclosed : Function.update (Function.update (fun _ => none) i (some t)) i none
      = (fun _ => none : ι → Option (Txn K)) := by
    rw [Function.update_idem, Function.update_eq_self_iff]
  rw [← hview, ← hclosed]
  exact .commit i alone_txns hidle

omit [DecidableEq ι] in
/-- What a transaction sees that has written new rules only. -/
theorem Txn.view_new (h : ∀ r ∈ db.alertRules, ∀ o ∈ t.rules, o.id ≠ r.id) :
    t.view db = { db with
      alertRules := db.alertRules ++ t.rules
      alertRuleRevisions := db.alertRuleRevisions ++ t.revisions } := by
  rw [Txn.view, overlay_of_new h]

theorem select_alone (key : Uuid → String → K) (db : Db) (i : ι) (t : Txn K) (new : AlertRuleRow) :
    ReflTransGen (Step key) (alone db i { t with phase := .waiting new })
      (alone db i { t with
        locks := key new.tenantId new.ownerSubject :: t.locks
        phase := if AlertStore.newRevisionEnabled (t.view db).alertRuleRevisions new ≠ some true
          then .admitted new else .enabled new }) := by
  have hlock : Step key (alone db i { t with phase := .waiting new })
      (alone db i { t with
        locks := key new.tenantId new.ownerSubject :: t.locks, phase := .locked new }) :=
    .alone fun h => .lock i h rfl fun j u hji hj => (alone_other hji hj).elim
  exact (ReflTransGen.single hlock).tail (.alone fun h => .select i h rfl)

theorem count_alone (key : Uuid → String → K) (db : Db) (i : ι) (t : Txn K) (locks : List K)
    (new : AlertRuleRow) :
    Step key (alone db i { t with locks := locks, phase := .enabled new })
      (alone db i { t with
        locks := locks
        phase := if 10 ≤ AlertStore.activeCount (t.view db).alertRules
          (t.view db).alertRuleRevisions new then .refused else .admitted new }) :=
  .alone fun h => .count i h rfl

/-- **The statements of the trigger do what `enforceActiveAlertLimit` does**, if nothing
happens between them. -/
theorem trigger_alone (key : Uuid → String → K) (i : ι) (hadmitted : AlertStore.enforceActiveAlertLimit
      (t.view db).alertRules (t.view db).alertRuleRevisions new = .ok new)
    (hactive : new.activeRevisionId ≠ none) :
    ReflTransGen (Step key) (alone db i { t with phase := .waiting new })
      (alone db i { t with
        locks := key new.tenantId new.ownerSubject :: t.locks, phase := .admitted new }) := by
  rw [AlertStore.enforceActiveAlertLimit, if_neg hactive] at hadmitted
  have hselect := select_alone key db i t new
  by_cases henabled : AlertStore.newRevisionEnabled (t.view db).alertRuleRevisions new ≠ some true
  · rw [if_pos henabled] at hselect
    exact hselect
  · rw [if_neg henabled] at hselect hadmitted
    have hroom : ¬ 10 ≤ AlertStore.activeCount (t.view db).alertRules
        (t.view db).alertRuleRevisions new := by
      intro hfull
      rw [if_pos hfull] at hadmitted
      cases hadmitted
    have hcount := count_alone key db i t (key new.tenantId new.ownerSubject :: t.locks) new
    rw [if_neg hroom] at hcount
    exact hselect.tail hcount

omit [DecidableEq ι] in
theorem new_of_admits_rule {d : Db} {r : AlertRuleRow} {rules : List AlertRuleRow}
    (h : alertRulesTable.Admits d rules r) : ∀ s ∈ rules, ∀ o ∈ [r], o.id ≠ s.id := by
  intro s hs o ho heq
  obtain rfl := List.mem_singleton.mp ho
  have hkey := h.fresh s hs
  simp [alertRulesTable, heq] at hkey

/-- What is committed goes from `db` to `d`, with nothing open before and after. -/
def CommitsTo (ι : Type) [DecidableEq ι] (key : Uuid → String → K) (db d : Db) : Prop :=
  ReflTransGen (Step key) (⟨db, fun _ => none⟩ : System ι K) ⟨d, fun _ => none⟩

instance : Std.Refl (CommitsTo ι key) := ⟨fun _ => .refl⟩

instance : IsTrans Db (CommitsTo ι key) := ⟨fun _ _ _ h h' => h.trans h'⟩

variable {now : Timestamp} {ids : ℕ → Uuid} {subject : String} {input : CreateAlertRule}

/-- A transaction inserts a rule and its revision, and updates the rule. -/
theorem creation_alone (ids : ℕ → Uuid)
    (hrule : alertRulesTable.Admits db db.alertRules (AlertStore.newAlertRule now (ids 0) T subject))
    (hrevision : alertRuleRevisionsTable.Admits
      { db with alertRules := db.alertRules ++ [AlertStore.newAlertRule now (ids 0) T subject] }
      db.alertRuleRevisions (AlertStore.newAlertRuleRevision now (ids 1) (ids 0) T subject input)) :
    ReflTransGen (Step key) (⟨db, fun _ => none⟩ : System ι K)
      (alone db i ⟨[AlertStore.newAlertRule now (ids 0) T subject],
        [AlertStore.newAlertRuleRevision now (ids 1) (ids 0) T subject input], [],
        .waiting (AlertStore.activated now (ids 1)
          (AlertStore.newAlertRule now (ids 0) T subject))⟩) := by
  have hbegins : Step key (⟨db, fun _ => none⟩ : System ι K) (alone db i .start) := .begins i rfl
  have hview : (Txn.start : Txn K).view db = db := by
    rw [Txn.view_new fun r _ o ho => by cases ho]
    simp [Txn.start]
  have hinsert : Step key (alone db i .start)
      (alone db i ⟨[AlertStore.newAlertRule now (ids 0) T subject], [], [], .idle⟩) := by
    refine .alone fun h => .insertRule i h rfl now (ids 0) T subject (alone_free _) ?_
    rw [alone_db, hview]
    exact hrule
  have hinsert' : Step key
      (alone db i ⟨[AlertStore.newAlertRule now (ids 0) T subject], [], [], .idle⟩)
      (alone db i ⟨[AlertStore.newAlertRule now (ids 0) T subject],
        [AlertStore.newAlertRuleRevision now (ids 1) (ids 0) T subject input], [], .idle⟩) := by
    refine .alone fun h => .insertRevision i h rfl now (ids 1) (ids 0) T subject input
      ⟨_, List.mem_singleton_self _, rfl⟩ (fun j u hji hj => (alone_other hji hj).elim) ?_
    rw [alone_db, Txn.view_new (new_of_admits_rule hrule), List.append_nil]
    exact hrevision
  have hupdate : Step key
      (alone db i ⟨[AlertStore.newAlertRule now (ids 0) T subject],
        [AlertStore.newAlertRuleRevision now (ids 1) (ids 0) T subject input], [], .idle⟩)
      (alone db i ⟨[AlertStore.newAlertRule now (ids 0) T subject],
        [AlertStore.newAlertRuleRevision now (ids 1) (ids 0) T subject input], [],
        .waiting (AlertStore.activated now (ids 1)
          (AlertStore.newAlertRule now (ids 0) T subject))⟩) :=
    .alone fun h => .update i h rfl (mem_overlay.mpr (Or.inr (List.mem_singleton_self _)))
      (alone_free _) now (some (ids 1))
  exact (((ReflTransGen.single hbegins).tail hinsert).tail hinsert').tail hupdate

/-- **The creation of a rule that runs alone is a run of the steps.** -/
theorem createAlertRule_run (i : ι) (key : Uuid → String → K) (db : Db) :
    Action.Moves (CommitsTo ι key) (AlertStore.createAlertRule now ids T subject input) db := by
  refine createAlertRule_moves_of fun d h => ?_
  have hnew := new_of_admits_rule h.rule
  have hadmitted : AlertStore.enforceActiveAlertLimit
      (Txn.view db (⟨[AlertStore.newAlertRule now (ids 0) T subject],
        [AlertStore.newAlertRuleRevision now (ids 1) (ids 0) T subject input], [],
        .idle⟩ : Txn K)).alertRules
      (Txn.view db (⟨[AlertStore.newAlertRule now (ids 0) T subject],
        [AlertStore.newAlertRuleRevision now (ids 1) (ids 0) T subject input], [],
        .idle⟩ : Txn K)).alertRuleRevisions
      (AlertStore.activated now (ids 1) (AlertStore.newAlertRule now (ids 0) T subject))
      = .ok (AlertStore.activated now (ids 1) (AlertStore.newAlertRule now (ids 0) T subject)) := by
    rw [Txn.view_new hnew]
    exact h.admitted
  have htrigger := trigger_alone key i hadmitted (Option.some_ne_none _)
  have hwrite : Step key
      (alone db i ⟨[AlertStore.newAlertRule now (ids 0) T subject],
        [AlertStore.newAlertRuleRevision now (ids 1) (ids 0) T subject input], [key T subject],
        .admitted (AlertStore.activated now (ids 1)
          (AlertStore.newAlertRule now (ids 0) T subject))⟩)
      (alone db i ⟨[AlertStore.activated now (ids 1) (AlertStore.newAlertRule now (ids 0) T subject)],
        [AlertStore.newAlertRuleRevision now (ids 1) (ids 0) T subject input], [key T subject],
        .idle⟩) := by
    have hput : put AlertRuleRow.id [AlertStore.newAlertRule now (ids 0) T subject]
        (AlertStore.activated now (ids 1) (AlertStore.newAlertRule now (ids 0) T subject))
        = [AlertStore.activated now (ids 1) (AlertStore.newAlertRule now (ids 0) T subject)] := by
      simp [put, AlertStore.activated]
    rw [← hput]
    refine .alone fun h => .write i h rfl ?_
    simp [alertRulesTable, AlertStore.activated, Txn.view, AlertStore.newAlertRule,
      AlertStore.newAlertRuleRevision]
  have hcommit : Step key
      (alone db i ⟨[AlertStore.activated now (ids 1) (AlertStore.newAlertRule now (ids 0) T subject)],
        [AlertStore.newAlertRuleRevision now (ids 1) (ids 0) T subject input], [key T subject],
        .idle⟩) (⟨d, fun _ => none⟩ : System ι K) := by
    refine .alone_commit rfl ?_
    rw [Txn.view_new, h.after]
    intro r hr o ho
    obtain rfl := List.mem_singleton.mp ho
    exact hnew r hr (AlertStore.newAlertRule now (ids 0) T subject) (List.mem_singleton_self _)
  exact ((creation_alone ids h.rule h.revision).trans htrigger).tail hwrite |>.tail hcommit

end Alone

/-! ### The limit -/

section Limit

variable [DecidableEq ι] [DecidableEq K]

/-- **No owner has more than ten committed rules that are enabled and active, whatever
the transactions and the order of their steps, and an activation is refused only if ten
other rules of the owner are enabled and active**, each of them committed or made by the
transaction itself. -/
theorem active_limit (h : Run key s) :
    (∀ T owner, (activeRules T owner s.db.alertRules s.db.alertRuleRevisions).length ≤ 10) ∧
    ∀ i t s' u, s.txns i = some t → t.phase ≠ .refused → Step key s s' → s'.txns i = some u →
      u.phase = .refused →
      ∃ new, t.phase = .enabled new ∧ ∃ others : List AlertRuleRow,
        Distinct AlertRuleRow.id others ∧ 10 ≤ others.length ∧ ∀ r ∈ others,
          r.tenantId = new.tenantId ∧ r.ownerSubject = new.ownerSubject ∧ r.id ≠ new.id ∧
          ((r ∈ s.db.alertRules ∧ enabledActive s.db.alertRuleRevisions r = true) ∨
            (r ∈ t.rules ∧ enabledActive (s.db.alertRuleRevisions ++ t.revisions) r = true)) := by
  refine ⟨h.length_le, fun i t s' u hi hphase hs hi' hrefused => ?_⟩
  have hinv := Run.inv h
  have ht := hinv.txns i t hi
  obtain ⟨new, henabled, hfull⟩ := hs.refused hi hphase hi' hrefused
  have hids : Distinct AlertRuleRevisionRow.id (t.view s.db).alertRuleRevisions := ht.revisions
  rw [activeCount_eq hids] at hfull
  refine ⟨new, henabled, _, ?_, hfull, fun r hr => ht.counted hr⟩
  have hdistinct := distinct_overlay hinv.rules ht.rules
  exact (hdistinct.sublist List.filter_sublist).sublist List.filter_sublist

end Limit

/-! ### A scenario -/

/-- Ten rules of one owner, and the eleventh. -/
def guarded : CreateAlertRule where
  name := "rule"
  queryText := "query"
  embeddingModel := "m"
  similarityThreshold := F32.ofRat (1 / 4)
  sourceFilters := []
  deliveryChannels := []
  enabled := true

def ruleIds (n k : ℕ) : Uuid := Fin.ofNat (2 ^ 128) (2 * n + k)

def crowded : Db := (List.range 10).foldl
  (fun db n => (AlertStore.createAlertRule 0 (ruleIds n) 1 "ada" guarded db).2) Db.empty

theorem run_crowded : Run Prod.mk (⟨crowded, fun _ => none⟩ : System Bool (Uuid × String)) := by
  have hfold : ∀ (l : List ℕ) (db : Db), CommitsTo Bool Prod.mk db (l.foldl
      (fun db n => (AlertStore.createAlertRule 0 (ruleIds n) 1 "ada" guarded db).2) db) := by
    intro l
    induction l with
    | nil => exact fun _ => .refl
    | cons n l ih => exact fun db => (createAlertRule_run true Prod.mk db).trans (ih _)
  exact hfold _ _

/-- The transaction that creates the eleventh. -/
def eleventh : Txn (Uuid × String) :=
  ⟨[AlertStore.newAlertRule 0 (ruleIds 10 0) 1 "ada"],
    [AlertStore.newAlertRuleRevision 0 (ruleIds 10 1) (ruleIds 10 0) 1 "ada" guarded], [], .idle⟩

def eleventhRow : AlertRuleRow :=
  AlertStore.activated 0 (ruleIds 10 1) (AlertStore.newAlertRule 0 (ruleIds 10 0) 1 "ada")

/-- The eleventh rule is refused, with ten others committed. -/
theorem active_limit_eleventh : ∃ s s' : System Bool (Uuid × String), Run Prod.mk s ∧
    Step Prod.mk s s' ∧ (∃ u, s'.txns true = some u ∧ u.phase = .refused) ∧
    (activeRules 1 "ada" s.db.alertRules s.db.alertRuleRevisions).length ≤ 10 ∧
    ∃ others : List AlertRuleRow, 10 ≤ others.length ∧
      ∀ r ∈ others, r.tenantId = 1 ∧ r.ownerSubject = "ada" := by
  have hcreate : ReflTransGen (Step Prod.mk) (⟨crowded, fun _ => none⟩ : System Bool _)
      (alone crowded true { eleventh with phase := .waiting eleventhRow }) := by
    refine creation_alone (ruleIds 10) ⟨?_, ?_, ?_⟩ ⟨?_, ?_, ?_⟩
    all_goals decide +kernel
  have henabled : ¬ AlertStore.newRevisionEnabled (eleventh.view crowded).alertRuleRevisions
      eleventhRow ≠ some true := by
    decide +kernel
  have hfull : 10 ≤ AlertStore.activeCount (eleventh.view crowded).alertRules
      (eleventh.view crowded).alertRuleRevisions eleventhRow := by
    decide +kernel
  have hselect := select_alone Prod.mk crowded true eleventh eleventhRow
  rw [if_neg henabled] at hselect
  have hcount := count_alone Prod.mk crowded true eleventh
    (Prod.mk eleventhRow.tenantId eleventhRow.ownerSubject :: eleventh.locks) eleventhRow
  rw [if_pos hfull] at hcount
  have hrun := (run_crowded.trans hcreate).trans hselect
  obtain ⟨hlength, hrefused⟩ := active_limit hrun
  obtain ⟨new, hnew, others, -, hten, hothers⟩ := hrefused true _ _ _ alone_txns (by simp) hcount
    alone_txns rfl
  obtain rfl := Phase.enabled.inj hnew
  exact ⟨_, _, hrun, hcount, ⟨_, alone_txns, rfl⟩, hlength 1 "ada", others, hten,
    fun r hr => ⟨(hothers r hr).1, (hothers r hr).2.1⟩⟩

end ActiveLimit

end EmbeddedAlerts
