import EmbeddedAlerts.Sql.Linked
import EmbeddedAlerts.WorkerSecurity
import EmbeddedAlerts.Convergence

/-!
# Embeddings of alert rules are written once

`reverse_match::upsert_alert_rule_embedding` inserts or selects, and then compares
the fingerprint of what it found with the fingerprint of what it was given.  An
`AlertEmbed` is a call of it.  `AlertEmbed.exec_cases` lists what a call can end in,
with the store it leaves.

`AlertEmbed.Run` is any run of such calls, with anything else the service does to the
other tables between them.

* `embeddingSha256_eq_iff`: a fingerprint tells vectors apart up to the sign of zeros.
* `AlertEmbed.Run.inv`: the rows of the table are those of the calls that succeeded.
* `alert_embeddings_written_once`: **in every run, what a call answers is settled by
  the first successful call for its model space.**
-/

namespace EmbeddedAlerts

open Sql Text

variable {x : Platform} {db db' : Db}

/-! ### Fingerprints -/

namespace ReverseMatch

theorem toBeBytes_inj : Function.Injective toBeBytes := by
  intro a b h
  simp only [toBeBytes, List.cons.injEq, and_true] at h
  obtain ⟨h1, h2, h3, h4⟩ := h
  have hbyte : ∀ {m n : ℕ}, UInt8.ofNat m = UInt8.ofNat n → m % 256 = n % 256 := by
    intro m n hmn
    have := congrArg UInt8.toNat hmn
    rwa [UInt8.toNat_ofNat', UInt8.toNat_ofNat'] at this
  have ha := a.toNat_lt
  have hb := b.toNat_lt
  have h1 := hbyte h1
  have h2 := hbyte h2
  have h3 := hbyte h3
  have h4 := hbyte h4
  refine UInt32.toNat_inj.mp ?_
  omega

/-- The vectors differ at most in the sign of zeros. -/
def SameVector (a b : List F32Bits) : Prop := a.map canonicalBits = b.map canonicalBits

/-- **A fingerprint tells vectors apart, up to the sign of zeros.** -/
theorem embeddingSha256_eq_iff (hc : x.CollisionFree) (a b : List F32Bits) :
    embeddingSha256 x a = embeddingSha256 x b ↔ SameVector a b := by
  have hbytes : ∀ v : List F32Bits,
      (v.flatMap fun w => toBeBytes (canonicalBits w)) = (v.map canonicalBits).flatMap toBeBytes := by
    intro v
    rw [List.flatMap_map]
  unfold embeddingSha256 SameVector
  rw [hbytes, hbytes]
  constructor
  · intro h
    have hlist := congrArg String.toList h
    rw [String.toList_ofList, String.toList_ofList] at hlist
    exact flatMap_inj_of_length (n := 4) (by omega) (fun _ => rfl) toBeBytes_inj
      (hc (hexEncode_inj hlist))
  · intro h
    rw [h]

end ReverseMatch

/-! ### One call -/

/-- A call of `upsert_alert_rule_embedding`, with the time and the UUID it draws. -/
structure AlertEmbed where
  now : Timestamp
  id : Uuid
  tenantId : Uuid
  alertRuleId : Uuid
  request : ReverseMatch.AlertRuleEmbeddingUpsertRequest

namespace AlertEmbed

def exec (x : Platform) (c : AlertEmbed) : Api ReverseMatch.AlertRuleEmbeddingReceipt :=
  ReverseMatch.upsertAlertRuleEmbedding x c.now c.id c.tenantId c.alertRuleId c.request

/-- The answer, and the store after it. -/
def result (x : Platform) (c : AlertEmbed) (db : Db) :
    Except HttpError ReverseMatch.AlertRuleEmbeddingReceipt := (c.exec x db).1

def after (x : Platform) (c : AlertEmbed) (db : Db) : Db := (c.exec x db).2

/-- `(tenant_id, alert_rule_revision_id, model, model_version, dimensions,
normalization)`. -/
def key (c : AlertEmbed) : Uuid × Uuid × ModelSpace :=
  (c.tenantId, c.request.alertRuleRevisionId, c.request.embedding.toModelSpace)

/-- The row it offers. -/
def offer (x : Platform) (c : AlertEmbed) : AlertRuleEmbeddingRow :=
  ReverseMatch.newAlertEmbedding x c.now c.id c.tenantId c.alertRuleId
    c.request.alertRuleRevisionId c.request.embedding

/-- It is for the enabled active revision of the rule, with the model of the
revision. -/
def OnTarget (c : AlertEmbed) (db : Db) : Prop := HasTarget db c.tenantId c.alertRuleId c.request

end AlertEmbed

/-- The key of a stored embedding. -/
def AlertRuleEmbeddingRow.key (a : AlertRuleEmbeddingRow) : Uuid × Uuid × ModelSpace :=
  (a.tenantId, a.alertRuleRevisionId, a.space)

/-- What a call that finds or adds the row answers. -/
def AlertRuleEmbeddingRow.receipt (a : AlertRuleEmbeddingRow) (created : Bool) :
    ReverseMatch.AlertRuleEmbeddingReceipt where
  id := a.id
  alertRuleId := a.alertRuleId
  alertRuleRevisionId := a.alertRuleRevisionId
  embeddingSha256 := a.embeddingSha256
  created := created

namespace AlertEmbed

variable {c : AlertEmbed}

theorem sameSpace_iff {a : AlertRuleEmbeddingRow} :
    (c.offer x).sameSpace a = true ↔ a.key = c.key := by
  rw [AlertRuleEmbeddingRow.sameSpace, decide_eq_true_iff, AlertRuleEmbeddingRow.key, key,
    Prod.mk.injEq, Prod.mk.injEq]
  exact ⟨fun h => ⟨h.1.symm, h.2.1.symm, h.2.2.symm⟩, fun h => ⟨h.1.symm, h.2.1.symm, h.2.2.symm⟩⟩

theorem statement_of_onTarget (h : c.OnTarget db) :
    ReverseMatch.upsertAlertRuleEmbeddingStatement x c.now c.id c.tenantId c.alertRuleId c.request
        db db
      = (alertRuleEmbeddingsTable.insertOrSelect AlertRuleEmbeddingRow.sameSpace
          (ReverseMatch.sameAlertEmbedding (c.offer x)) db db.alertRuleEmbeddings
          db.alertRuleEmbeddings (c.offer x)).map
        fun out => (out.1, { db with alertRuleEmbeddings := out.2 }) := by
  obtain ⟨⟨rule, revision⟩, htarget⟩ := target_isSome_iff.mpr h
  obtain ⟨-, -, hrule, -, -, -, -, hrevision, -⟩ := ReverseMatch.target_some htarget
  rw [ReverseMatch.upsertAlertRuleEmbeddingStatement, htarget]
  simp only [hrule, hrevision]
  rfl

theorem exec_invalid {message : String}
    (hv : x.validateEmbedding c.request.embedding = .error message) :
    c.exec x db = (.error (.validation message), db) := by
  rw [exec, ReverseMatch.upsertAlertRuleEmbedding, hv]
  rfl

section Valid

variable (hv : x.validateEmbedding c.request.embedding = .ok ())

include hv

theorem exec_offTarget (h : ¬ c.OnTarget db) :
    c.exec x db = (.error (.validation
      "alert embedding must target the enabled active rule revision and its configured model"),
      db) :=
  upsertAlertRuleEmbedding_of_not_target h hv

theorem exec_of_selected {a : AlertRuleEmbeddingRow} {created : Bool}
    (h : ReverseMatch.upsertAlertRuleEmbeddingStatement x c.now c.id c.tenantId c.alertRuleId
      c.request db db = .ok (some (a, created), db')) :
    c.exec x db
      = (if a.embeddingSha256 = (c.offer x).embeddingSha256 then .ok (a.receipt created)
          else .error (.conflict
            "an immutable embedding already exists for this alert revision and model space"),
        db') := by
  rw [exec, ReverseMatch.upsertAlertRuleEmbedding, hv, Action.bind_of_ok (validated_unit db),
    Action.bind_of_ok (execute_of_ok h), Action.okOr_some_bind_apply]
  dsimp only
  by_cases hsame : a.embeddingSha256 = (c.offer x).embeddingSha256
  · rw [if_pos hsame]
    exact Action.bind_of_ok (Action.ensure_apply_of hsame _ db')
  · rw [if_neg hsame]
    exact Action.bind_of_error (Action.ensure_apply_of_not hsame _ db')

theorem exec_known (hwf : Wf x db) (h : c.OnTarget db) {a : AlertRuleEmbeddingRow}
    (ha : a ∈ db.alertRuleEmbeddings) (hkey : a.key = c.key) :
    c.exec x db
      = (if a.embeddingSha256 = (c.offer x).embeddingSha256 then .ok (a.receipt false)
          else .error (.conflict
            "an immutable embedding already exists for this alert revision and model space"),
        db) := by
  have hspace : a.space = (c.offer x).space := congrArg (fun k => k.2.2) hkey
  have hcheck : alertRuleEmbeddingsTable.check (c.offer x) = true := by
    have hstored := hwf.valid.alertRuleEmbeddings.check a ha
    simp only [alertRuleEmbeddingsTable] at hstored ⊢
    rw [← hspace]
    exact hstored
  have hsame : ReverseMatch.sameAlertEmbedding (c.offer x) a = true := by
    obtain ⟨rule, -, -, -, v, hvmem, -, hvrule, -, hvid, -⟩ := h
    have hrevision : a.alertRuleRevisionId = v.id :=
      (congrArg (fun k => k.2.1) hkey).trans hvid.symm
    have hown := embedding_own hwf ha hvmem hrevision
    exact decide_eq_true ⟨congrArg (fun k => k.2.1) hkey, hown.2.trans hvrule,
      congrArg Prod.fst hkey, hspace⟩
  have huniq : ∀ b ∈ db.alertRuleEmbeddings,
      ReverseMatch.sameAlertEmbedding (c.offer x) b = true → b = a := by
    intro b hb hsameb
    obtain ⟨h1, -, h3, h4⟩ := of_decide_eq_true hsameb
    obtain ⟨h1', -, h3', h4'⟩ := of_decide_eq_true hsame
    refine hwf.valid.alertRuleEmbedding_eq_of_space hb ha (decide_eq_true ⟨?_, ?_, ?_⟩)
    · rw [h3, h3']
    · rw [h1, h1']
    · rw [h4, h4']
  refine exec_of_selected hv ?_
  rw [statement_of_onTarget h,
    Constraints.insertOrSelect_of_conflict hcheck ha (sameSpace_iff.mpr hkey),
    find?_eq_of_unique ha huniq, if_pos hsame]
  rfl

/-- **A call for a model space that has no row** adds it, unless the database
refuses. -/
theorem exec_new (h : c.OnTarget db) (hnone : ∀ a ∈ db.alertRuleEmbeddings, a.key ≠ c.key) :
    (∃ e, c.exec x db = (.error e, db)) ∨
      c.exec x db = (.ok ((c.offer x).receipt true),
        { db with alertRuleEmbeddings := db.alertRuleEmbeddings ++ [c.offer x] }) := by
  have hstatement := statement_of_onTarget (x := x) h
  rcases hinsert : alertRuleEmbeddingsTable.insertOrSelect AlertRuleEmbeddingRow.sameSpace
      (ReverseMatch.sameAlertEmbedding (c.offer x)) db db.alertRuleEmbeddings
      db.alertRuleEmbeddings (c.offer x) with e | ⟨o, rows⟩
  · rw [hinsert] at hstatement
    left
    refine ⟨HttpError.ofDbErr e, ?_⟩
    rw [exec, ReverseMatch.upsertAlertRuleEmbedding, hv, Action.bind_of_ok (validated_unit db)]
    exact Action.bind_of_error (execute_of_error hstatement)
  · rw [hinsert] at hstatement
    rcases Constraints.insertOrSelect_cases hinsert with ⟨-, -, a, ha, hspace⟩ | ⟨rfl, rfl, -⟩
    · exact absurd (sameSpace_iff.mp hspace) (hnone a ha)
    · right
      rw [exec_of_selected hv hstatement, if_pos rfl]

end Valid

theorem exec_cases (hwf : Wf x db) :
    (∃ e, c.exec x db = (.error e, db)) ∨
      (∃ a ∈ db.alertRuleEmbeddings, a.key = c.key ∧
        a.embeddingSha256 = (c.offer x).embeddingSha256 ∧
        c.exec x db = (.ok (a.receipt false), db)) ∨
      ((∀ a ∈ db.alertRuleEmbeddings, a.key ≠ c.key) ∧
        c.exec x db = (.ok ((c.offer x).receipt true),
          { db with alertRuleEmbeddings := db.alertRuleEmbeddings ++ [c.offer x] })) := by
  rcases hv : x.validateEmbedding c.request.embedding with message | u
  · exact Or.inl ⟨_, exec_invalid hv⟩
  · by_cases htarget : c.OnTarget db
    · by_cases hknown : ∃ a ∈ db.alertRuleEmbeddings, a.key = c.key
      · obtain ⟨a, ha, hkey⟩ := hknown
        have hexec := exec_known hv hwf htarget ha hkey
        by_cases hsame : a.embeddingSha256 = (c.offer x).embeddingSha256
        · rw [if_pos hsame] at hexec
          exact Or.inr (Or.inl ⟨a, ha, hkey, hsame, hexec⟩)
        · rw [if_neg hsame] at hexec
          exact Or.inl ⟨_, hexec⟩
      · have hnone : ∀ a ∈ db.alertRuleEmbeddings, a.key ≠ c.key :=
          fun a ha hkey => hknown ⟨a, ha, hkey⟩
        rcases exec_new hv htarget hnone with herror | hok
        · exact Or.inl herror
        · exact Or.inr (Or.inr ⟨hnone, hok⟩)
    · exact Or.inl ⟨_, exec_offTarget hv htarget⟩

/-! ### Runs -/

/-- A run of calls from the empty store, each with the store it met.  Between them
the service does anything that leaves the embeddings of rules alone. -/
inductive Run (x : Platform) : List (AlertEmbed × Db) → Db → Prop
  | start : Run x [] Db.empty
  | other {log : List (AlertEmbed × Db)} {db db' : Db} (h : Run x log db) (served : Served x db db')
      (same : db'.alertRuleEmbeddings = db.alertRuleEmbeddings) : Run x log db'
  | call {log : List (AlertEmbed × Db)} {db : Db} (h : Run x log db) (c : AlertEmbed) :
      Run x (log ++ [(c, db)]) (c.after x db)

variable {log : List (AlertEmbed × Db)}

theorem Run.split (h : Run x log db) : ∀ {before after : List (AlertEmbed × Db)} {c : AlertEmbed}
    {d : Db}, log = before ++ (c, d) :: after → Run x before d := by
  induction h with
  | start =>
    intro before after c d hlog
    simp at hlog
  | other _ _ _ ih => exact ih
  | call h _ ih =>
    intro before after c d hlog
    rcases snoc_eq_append_cons hlog with ⟨rfl, hlast, -⟩ | ⟨rest, -, hlog⟩
    · obtain ⟨-, rfl⟩ := Prod.mk.inj hlast
      exact h
    · exact ih hlog

/-- The rows of the table are those of the calls that succeeded, and each has the
fingerprint of its vector. -/
structure Inv (x : Platform) (log : List (AlertEmbed × Db)) (db : Db) : Prop where
  wf : Wf x db
  fingerprint : ∀ a ∈ db.alertRuleEmbeddings,
    a.embeddingSha256 = ReverseMatch.embeddingSha256 x a.embedding
  logged : ∀ a ∈ db.alertRuleEmbeddings, ∃ entry ∈ log, entry.1.key = a.key ∧
    ∃ created, entry.1.result x entry.2 = .ok (a.receipt created)
  stored : ∀ entry ∈ log, ∀ receipt, entry.1.result x entry.2 = .ok receipt →
    ∃ a ∈ db.alertRuleEmbeddings, a.key = entry.1.key ∧ receipt = a.receipt receipt.created

theorem Inv.call (h : Inv x log db) (c : AlertEmbed) :
    Inv x (log ++ [(c, db)]) (c.after x db) := by
  have hwf : Wf x (c.after x db) :=
    h.wf.steps (ReverseMatch.upsertAlertRuleEmbedding_moves (G := fun _ _ => True) c.now c.id
      c.alertRuleId c.request db)
  have hlogged : ∀ a ∈ db.alertRuleEmbeddings, ∃ entry ∈ log ++ [(c, db)], entry.1.key = a.key ∧
      ∃ created, entry.1.result x entry.2 = .ok (a.receipt created) := by
    intro a ha
    obtain ⟨entry, hentry, hrest⟩ := h.logged a ha
    exact ⟨entry, List.mem_append_left _ hentry, hrest⟩
  rcases exec_cases (c := c) h.wf with ⟨e, hexec⟩ | ⟨a, ha, hkey, -, hexec⟩ | ⟨-, hexec⟩
  · have hafter : c.after x db = db := congrArg Prod.snd hexec
    have hresult : c.result x db = .error e := congrArg Prod.fst hexec
    rw [hafter]
    refine ⟨h.wf, h.fingerprint, hlogged, ?_⟩
    refine forall_mem_append_singleton h.stored ?_
    intro receipt hok
    rw [hresult] at hok
    cases hok
  · have hafter : c.after x db = db := congrArg Prod.snd hexec
    have hresult : c.result x db = .ok (a.receipt false) := congrArg Prod.fst hexec
    rw [hafter]
    refine ⟨h.wf, h.fingerprint, hlogged, ?_⟩
    refine forall_mem_append_singleton h.stored ?_
    intro receipt hok
    rw [hresult] at hok
    obtain rfl := Except.ok.inj hok
    exact ⟨a, ha, hkey, rfl⟩
  · have hafter : c.after x db
        = { db with alertRuleEmbeddings := db.alertRuleEmbeddings ++ [c.offer x] } :=
      congrArg Prod.snd hexec
    have hresult : c.result x db = .ok ((c.offer x).receipt true) := congrArg Prod.fst hexec
    rw [hafter] at hwf ⊢
    refine ⟨hwf, ?_, ?_, ?_⟩
    · exact forall_mem_append_singleton h.fingerprint rfl
    · refine forall_mem_append_singleton hlogged ?_
      exact ⟨(c, db), List.mem_append_right _ (List.mem_singleton_self _), rfl, true, hresult⟩
    · refine forall_mem_append_singleton ?_ ?_
      · intro entry hentry receipt hok
        obtain ⟨a, ha, hrest⟩ := h.stored entry hentry receipt hok
        exact ⟨a, List.mem_append_left _ ha, hrest⟩
      · intro receipt hok
        rw [hresult] at hok
        obtain rfl := Except.ok.inj hok
        exact ⟨c.offer x, List.mem_append_right _ (List.mem_singleton_self _), rfl, rfl⟩

/-- **The invariant holds along every run.** -/
theorem Run.inv (hx : x.Lawful) (h : Run x log db) : Inv x log db := by
  induction h with
  | start => exact ⟨Wf.empty x, by simp [Db.empty], by simp [Db.empty], by simp⟩
  | other _ served same ih =>
    refine ⟨served.wf hx ih.wf, ?_, ?_, ?_⟩
    all_goals rw [same]
    · exact ih.fingerprint
    · exact ih.logged
    · exact ih.stored
  | call _ c ih => exact ih.call c

/-- A successful call created its row exactly if no earlier one for its model space
succeeded, and answers with the row of each that did. -/
theorem Inv.receipt (h : Inv x log db) {c : AlertEmbed}
    {receipt : ReverseMatch.AlertRuleEmbeddingReceipt} (hok : c.result x db = .ok receipt) :
    (receipt.created = true ↔
      ∀ entry ∈ log, entry.1.key = c.key → ∀ r, entry.1.result x entry.2 ≠ .ok r) ∧
    ∀ entry ∈ log, entry.1.key = c.key → ∀ r, entry.1.result x entry.2 = .ok r →
      receipt.id = r.id ∧ receipt.embeddingSha256 = r.embeddingSha256 := by
  rcases exec_cases (c := c) h.wf with ⟨e, hexec⟩ | ⟨a, ha, hkey, -, hexec⟩ | ⟨hnone, hexec⟩
  · have hresult : c.result x db = .error e := congrArg Prod.fst hexec
    rw [hresult] at hok
    cases hok
  · have hresult : c.result x db = .ok (a.receipt false) := congrArg Prod.fst hexec
    rw [hresult] at hok
    obtain rfl := Except.ok.inj hok
    refine ⟨⟨fun hcreated => ?_, fun hnone => ?_⟩, ?_⟩
    · cases hcreated
    · obtain ⟨entry, hentry, hkey', created, hok'⟩ := h.logged a ha
      exact absurd hok' (hnone entry hentry (hkey'.trans hkey) _)
    · intro entry hentry hkey' r hr
      obtain ⟨b, hb, hbkey, hbr⟩ := h.stored entry hentry r hr
      have hab : a.key = b.key := (hkey.trans hkey'.symm).trans hbkey.symm
      have hsame : a = b := h.wf.valid.alertRuleEmbedding_eq_of_space ha hb
        (decide_eq_true ⟨congrArg Prod.fst hab, congrArg (fun k => k.2.1) hab,
          congrArg (fun k => k.2.2) hab⟩)
      rw [hbr, hsame]
      exact ⟨rfl, rfl⟩
  · have hresult : c.result x db = .ok ((c.offer x).receipt true) := congrArg Prod.fst hexec
    rw [hresult] at hok
    obtain rfl := Except.ok.inj hok
    have hfirst : ∀ entry ∈ log, entry.1.key = c.key → ∀ r, entry.1.result x entry.2 ≠ .ok r := by
      intro entry hentry hkey r hr
      obtain ⟨b, hb, hbkey, -⟩ := h.stored entry hentry r hr
      exact hnone b hb (hbkey.trans hkey)
    exact ⟨⟨fun _ => hfirst, fun _ => rfl⟩,
      fun entry hentry hkey r hr => absurd hr (hfirst entry hentry hkey r)⟩

end AlertEmbed

open AlertEmbed in
/-- **Embeddings of alert rules are written once.**  For every call of every run:

* if it succeeds, it created the row exactly if no earlier call for its model space
  succeeded, and otherwise it answers with the id and the fingerprint of the first;
* off target it ends in the validation error;
* on target, with a vector other than the stored one, it ends in the conflict error,
  and with the stored one it succeeds;
* it changes no row, and if it fails it changes nothing. -/
theorem alert_embeddings_written_once (hx : x.Lawful) (hc : x.CollisionFree)
    {log before after : List (AlertEmbed × Db)} {c : AlertEmbed} {d : Db} (h : Run x log db)
    (hlog : log = before ++ (c, d) :: after) :
    (∀ receipt, c.result x d = .ok receipt →
      (receipt.created = true ↔
        ∀ entry ∈ before, entry.1.key = c.key → ∀ r, entry.1.result x entry.2 ≠ .ok r) ∧
      ∀ entry ∈ before, entry.1.key = c.key → ∀ r, entry.1.result x entry.2 = .ok r →
        receipt.id = r.id ∧ receipt.embeddingSha256 = r.embeddingSha256) ∧
    (∀ message, x.validateEmbedding c.request.embedding = .error message →
      c.result x d = .error (.validation message)) ∧
    (x.validateEmbedding c.request.embedding = .ok () →
      (¬ c.OnTarget d → c.result x d = .error (.validation
        "alert embedding must target the enabled active rule revision and its configured model")) ∧
      (c.OnTarget d → ∀ a ∈ d.alertRuleEmbeddings, a.key = c.key →
        (¬ ReverseMatch.SameVector a.embedding c.request.embedding.values →
          c.result x d = .error (.conflict
            "an immutable embedding already exists for this alert revision and model space")) ∧
        (ReverseMatch.SameVector a.embedding c.request.embedding.values →
          c.result x d = .ok (a.receipt false)))) ∧
    (∃ new, c.after x d = { d with alertRuleEmbeddings := d.alertRuleEmbeddings ++ new }) ∧
    (∀ e, c.result x d = .error e → c.after x d = d) := by
  have hinv : Inv x before d := (h.split hlog).inv hx
  refine ⟨fun receipt hok => hinv.receipt hok, fun message hv => ?_, fun hv => ⟨?_, ?_⟩, ?_, ?_⟩
  · exact congrArg Prod.fst (exec_invalid hv)
  · exact fun htarget => congrArg Prod.fst (exec_offTarget hv htarget)
  · intro htarget a ha hkey
    have hexec : c.result x d = _ := congrArg Prod.fst (exec_known hv hinv.wf htarget ha hkey)
    have hsame : a.embeddingSha256 = (c.offer x).embeddingSha256 ↔
        ReverseMatch.SameVector a.embedding c.request.embedding.values := by
      rw [hinv.fingerprint a ha]
      exact ReverseMatch.embeddingSha256_eq_iff hc _ _
    rw [hexec]
    exact ⟨fun hother => if_neg fun h => hother (hsame.mp h), fun h => if_pos (hsame.mpr h)⟩
  · rcases exec_cases (c := c) hinv.wf with ⟨e, hexec⟩ | ⟨a, -, -, -, hexec⟩ | ⟨-, hexec⟩
    · exact ⟨[], by rw [AlertEmbed.after, hexec, List.append_nil]⟩
    · exact ⟨[], by rw [AlertEmbed.after, hexec, List.append_nil]⟩
    · exact ⟨[c.offer x], congrArg Prod.snd hexec⟩
  · intro e herror
    rcases exec_cases (c := c) hinv.wf with ⟨e', hexec⟩ | ⟨a, -, -, -, hexec⟩ | ⟨-, hexec⟩
    · exact congrArg Prod.snd hexec
    · exact congrArg Prod.snd hexec
    · rw [AlertEmbed.result, hexec] at herror
      cases herror

/-! ### A scenario -/

namespace Scenario

/-- A call that embeds the rule, under the UUID `id`. -/
def alertEmbed (id : Uuid) (values : List F32Bits) : AlertEmbed where
  now := 0
  id := id
  tenantId := 1
  alertRuleId := 20
  request := ⟨21, ⟨space, values⟩⟩

theorem run_ruled : AlertEmbed.Run Platform.sample [] ruled := by
  have hsource : AlertEmbed.Run Platform.sample [] (createSource.after Platform.sample Db.empty) :=
    .other .start (.request createSource) (by decide)
  exact .other hsource (.request createRule) (by decide +kernel)

end Scenario

open Scenario in
/-- The second call for the rule answers with the row of the first, and a call with
another vector is refused. -/
theorem alert_embeddings_written_once_sample :
    (∀ receipt, (alertEmbed 26 axis).result Platform.sample embeddedOnce = .ok receipt →
      receipt.id = 25) ∧
    (alertEmbed 26 diagonal).result Platform.sample embeddedOnce = .error (.conflict
      "an immutable embedding already exists for this alert revision and model space") := by
  have hfirst : (alertEmbed 25 axis).exec Platform.sample ruled
      = (.ok (embeddingRow.receipt true), embeddedOnce) := by decide +kernel
  have hrun : AlertEmbed.Run Platform.sample [(alertEmbed 25 axis, ruled)] embeddedOnce := by
    have hcall := AlertEmbed.Run.call run_ruled (alertEmbed 25 axis)
    rwa [AlertEmbed.after, hfirst] at hcall
  have hlog : ∀ c : AlertEmbed, [(alertEmbed 25 axis, ruled)] ++ [(c, embeddedOnce)]
      = [(alertEmbed 25 axis, ruled)] ++ (c, embeddedOnce) :: [] := fun _ => rfl
  constructor
  · intro receipt hok
    have hwritten := alert_embeddings_written_once Platform.sample_lawful
      Platform.sample_collisionFree (hrun.call (alertEmbed 26 axis)) (hlog (alertEmbed 26 axis))
    exact ((hwritten.1 receipt hok).2 _ List.mem_cons_self rfl _ (congrArg Prod.fst hfirst)).1
  · have htarget : (alertEmbed 26 diagonal).OnTarget embeddedOnce := by
      unfold AlertEmbed.OnTarget HasTarget
      decide +kernel
    have hwritten := alert_embeddings_written_once Platform.sample_lawful
      Platform.sample_collisionFree (hrun.call (alertEmbed 26 diagonal))
      (hlog (alertEmbed 26 diagonal))
    have hother : ¬ ReverseMatch.SameVector embeddingRow.embedding diagonal := by
      unfold ReverseMatch.SameVector
      decide
    exact ((hwritten.2.2.1 rfl).2 htarget embeddingRow List.mem_cons_self rfl).1 hother

end EmbeddedAlerts
