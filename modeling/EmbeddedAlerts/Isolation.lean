import EmbeddedAlerts.Server

/-!
# Tenants across a whole run

What the requests of one tenant are answered, and which events they publish, does not
depend on the requests of the other tenants: they may be there or not, and come in any
order among the tenant's own.  `Machine.Unwinds` asks for two facts about one request.

* `Indistinct.own`: a request of `U` gives the same on two stores that agree on the rows of
  `U`, with the events it publishes (`Call.publish_twins`), and the stores agree after it.
* `Indistinct.other`: any other request is invisible to `U`.

The UUIDs that a request of `U` draws are assumed not to be those of rows of other tenants
(`Fresh`), which is what UUIDs are for.
-/

namespace EmbeddedAlerts

open Sql Relation

variable {x : Platform} {T U : Uuid} {ids : ℕ → Uuid} {rest rest' s t u : Db}

/-! ### Events on stores that agree -/

theorem Twins.publishing {α : Type} {a : Api α} {f : α → Response × List TenantEvent}
    (ha : Action.Alike (Twins T ids rest rest') a s t) :
    Action.Alike (Twins T ids rest rest') (do let r ← a; return f r) s t :=
  .bind ha fun _ _ _ _ _ h' => ⟨rfl, h'⟩

/-- **A request publishes the same events on twins**, and gives the same answer. -/
theorem Call.publish_twins {call : Call}
    (h : Twins call.auth.tenantId call.supply.ids rest rest' s t) :
    Action.Alike (Twins call.auth.tenantId call.supply.ids rest rest') (call.publish x) s t := by
  obtain ⟨⟨T, subject, admin⟩, supply, request⟩ := call
  cases request with
  | createRecord input => exact Twins.publishing (h.validated_bind fun _ => h.createAlertRule _)
  | createSource input =>
    refine Twins.publishing (.ensure_bind h fun _ => h.validated_bind fun _ => ?_)
    exact h.validated_bind fun root => h.createSource _ 0 _ _
  | ingestPage sourceId input =>
    refine Twins.publishing (h.validated_bind fun _ => ?_)
    refine .bind (h.admittedUrls sourceId input) fun urls s1 t1 hs ht _ => ?_
    obtain ⟨rfl, hs⟩ := Routes.admittedUrls_source hs
    obtain ⟨rfl, ht⟩ := Routes.admittedUrls_source ht
    exact h.ingestPage input _ _ hs ht
  | reverseMatchPage sourceId input =>
    refine Twins.publishing (h.validated_bind fun _ => ?_)
    refine .bind (h.admittedUrls sourceId input.toPageIngestRequest) fun urls s1 t1 hs ht _ => ?_
    obtain ⟨rfl, hs⟩ := Routes.admittedUrls_source hs
    obtain ⟨rfl, ht⟩ := Routes.admittedUrls_source ht
    exact h.ingestAndReverseMatch input _ _ hs ht
  | evaluateMatches input =>
    refine .bind (h.evaluationFor input) fun found s1 t1 _ _ h1 => ?_
    exact Twins.publishing (h1.evaluateMatches _ _ _ _)
  | listRecords | getRecord _ | upsertAlertEmbedding _ _ | listSources | getSource _
  | searchEmbeddings _ => exact Twins.publishing (Call.twins h)

/-! ### Stores that a tenant cannot tell apart -/

theorem agreeOn_trans {ρ : Type} {P : ρ → Prop} {l m n : List ρ} (h : AgreeOn P l m)
    (h' : AgreeOn P m n) : AgreeOn P l n := fun r hr => (h r hr).trans (h' r hr)

theorem Agree.trans (h : Agree T s t) (h' : Agree T t u) : Agree T s u where
  sources := agreeOn_trans h.sources h'.sources
  pages := agreeOn_trans h.pages h'.pages
  pageRevisions := agreeOn_trans h.pageRevisions h'.pageRevisions
  embeddings := agreeOn_trans h.embeddings h'.embeddings
  alertRules := agreeOn_trans h.alertRules h'.alertRules
  alertRuleRevisions := agreeOn_trans h.alertRuleRevisions h'.alertRuleRevisions
  alertRuleEmbeddings := agreeOn_trans h.alertRuleEmbeddings h'.alertRuleEmbeddings
  matchCandidates := agreeOn_trans h.matchCandidates h'.matchCandidates

theorem Agree.refl (T : Uuid) (db : Db) : Agree T db db :=
  ⟨.refl _, .refl _, .refl _, .refl _, .refl _, .refl _, .refl _, .refl _⟩

/-- A row that is kept keeps its UUID in use. -/
theorem unused_of_subset {ρ : Type} {id : ρ → Uuid} {tenant : ρ → Uuid} {l m : List ρ}
    (hkeep : ∀ r ∈ l, ∃ q ∈ m, id q = id r ∧ tenant q = tenant r)
    (h : ∀ q ∈ m.filter (fun q => decide (tenant q ≠ T)), ∀ n, id q ≠ ids n) :
    ∀ r ∈ l.filter (fun r => decide (tenant r ≠ T)), ∀ n, id r ≠ ids n := by
  intro r hr n
  obtain ⟨hmem, htenant⟩ := List.mem_filter.mp hr
  obtain ⟨q, hq, hid, hsame⟩ := hkeep r hmem
  rw [← hid]
  refine h q (List.mem_filter.mpr ⟨hq, ?_⟩) n
  rw [hsame]
  exact htenant

theorem Unused.of_grows (hg : Grows s t) (h : Unused ids (t.others T)) :
    Unused ids (s.others T) where
  sources := unused_of_subset (fun r hr => ⟨r, hg.sources hr, rfl, rfl⟩) h.sources
  pages := unused_of_subset (fun r hr => by
    obtain ⟨q, hq, hsame⟩ := hg.pages r hr
    exact ⟨q, hq, hsame.id, hsame.tenantId⟩) h.pages
  pageRevisions := unused_of_subset (fun r hr => ⟨r, hg.pageRevisions hr, rfl, rfl⟩) h.pageRevisions
  embeddings := unused_of_subset (fun r hr => ⟨r, hg.embeddings hr, rfl, rfl⟩) h.embeddings
  alertRules := unused_of_subset (fun r hr => by
    obtain ⟨q, hq, hsame⟩ := hg.alertRules r hr
    exact ⟨q, hq, hsame.id, hsame.tenantId⟩) h.alertRules
  alertRuleRevisions :=
    unused_of_subset (fun r hr => ⟨r, hg.alertRuleRevisions hr, rfl, rfl⟩) h.alertRuleRevisions
  alertRuleEmbeddings :=
    unused_of_subset (fun r hr => ⟨r, hg.alertRuleEmbeddings hr, rfl, rfl⟩) h.alertRuleEmbeddings
  matchCandidates :=
    unused_of_subset (fun r hr => ⟨r, hg.matchCandidates.subset hr, rfl, rfl⟩) h.matchCandidates

/-- Two stores that tenant `U` cannot tell apart, the second with fewer rows of others. -/
structure Indistinct (x : Platform) (U : Uuid) (s t : Db) : Prop where
  left : Reachable x s
  right : Reachable x t
  agree : Agree U s t
  unused : ∀ ids, Unused ids (s.others U) → Unused ids (t.others U)

/-! ### Requests -/

/-- The request is admitted as one of tenant `U`. -/
def Server.isFrom (server : Server) (U : Uuid) (request : HttpRequest) : Bool :=
  match server.accept request with
  | .ok call => decide (call.auth.tenantId = U)
  | .error _ => false

theorem Server.isFrom_iff {server : Server} {request : HttpRequest} :
    server.isFrom U request = true ↔
      ∃ call, server.accept request = .ok call ∧ call.auth.tenantId = U := by
  unfold isFrom
  cases server.accept request with
  | error reply => exact iff_of_false (fun h => nomatch h) fun ⟨_, h, _⟩ => nomatch h
  | ok call =>
    rw [decide_eq_true_eq]
    exact ⟨fun h => ⟨call, rfl, h⟩, fun ⟨_, hcall, h⟩ => Except.ok.inj hcall ▸ h⟩

/-- The UUIDs that a request of `U` draws are not those of rows of other tenants. -/
def Server.Fresh (server : Server) (U : Uuid) (db : Db) (request : HttpRequest) : Prop :=
  ∀ call, server.accept request = .ok call → call.auth.tenantId = U →
    Unused call.supply.ids (db.others U)

section Steps

variable {server : Server} {request : HttpRequest}

/-- A request of `U`. -/
theorem Indistinct.own (hx : server.x.Lawful) (h : Indistinct server.x U s t)
    (hmine : server.isFrom U request = true) (hfresh : server.Fresh U s request) :
    (server.handle s request).1 = (server.handle t request).1 ∧
      Indistinct server.x U (server.handle s request).2 (server.handle t request).2 := by
  obtain ⟨call, hcall, rfl⟩ := Server.isFrom_iff.mp hmine
  have hunused := hfresh call hcall rfl
  have htwins : Twins call.auth.tenantId call.supply.ids _ _ s t :=
    ⟨h.agree, ⟨(h.left.wf hx).valid, rfl, hunused⟩,
      ⟨(h.right.wf hx).valid, rfl, h.unused _ hunused⟩⟩
  obtain ⟨hsame, hafter⟩ := Call.publish_twins (x := server.x) htwins
  refine ⟨?_, Server.handle_reachable h.left, Server.handle_reachable h.right, ?_, ?_⟩
  · rw [Server.handle_of_ok hcall, Server.handle_of_ok hcall, hsame]
  · rw [Server.handle_of_ok hcall, Server.handle_of_ok hcall]
    exact hafter.agree
  · rw [Server.handle_of_ok hcall, Server.handle_of_ok hcall]
    intro ids
    rw [hafter.left.others, hafter.right.others]
    exact h.unused ids

/-- Any other request. -/
theorem Indistinct.other (hx : server.x.Lawful) (h : Indistinct server.x U s t)
    (hother : ¬ server.isFrom U request = true) :
    Indistinct server.x U (server.handle s request).2 t := by
  rcases server.handle_cases s request with ⟨reply, -, hrefused⟩ | ⟨call, hcall, hadmitted⟩
  · rw [hrefused]
    exact h
  · have hne : U ≠ call.auth.tenantId := by
      rintro rfl
      exact hother (Server.isFrom_iff.mpr ⟨call, hcall, rfl⟩)
    have hsteps := call.after_steps hx (h.left.wf hx)
    rw [hadmitted]
    exact {
      left := h.left.tail (.request call)
      right := h.right
      agree := (Agree.of_others hne hsteps.others_eq).trans h.agree
      unused := fun ids hids => h.unused ids (hids.of_grows hsteps.grows) }

theorem indistinct_unwinds (hx : server.x.Lawful) (U : Uuid) :
    Machine.Unwinds server.handle (server.isFrom U) (server.Fresh U)
      (Indistinct server.x U) where
  own _ _ _ hmine h hfresh := h.own hx hmine hfresh
  other _ _ _ hother h := h.other hx hother

end Steps

/-- **A tenant sees only itself.**  The replies to the requests of `U` in a run, and the
events they publish, are those of the run in which all other requests are left out, and the
rows of `U` are the same after both. -/
theorem tenant_sees_itself {server : Server} (hx : server.x.Lawful) {db : Db}
    (hdb : Reachable server.x db) (U : Uuid) (requests : List HttpRequest)
    (hfresh : Machine.Along server.handle (server.Fresh U) db requests) :
    Machine.outputs server.handle (server.isFrom U) db requests
      = Machine.outputs server.handle (server.isFrom U) db (requests.filter (server.isFrom U)) ∧
    Agree U (Machine.final server.handle db requests)
      (Machine.final server.handle db (requests.filter (server.isFrom U))) := by
  have hsame : Indistinct server.x U db db := ⟨hdb, hdb, Agree.refl U db, fun _ h => h⟩
  obtain ⟨houtputs, hfinal⟩ := (indistinct_unwinds hx U).outputs_eq requests hsame hfresh
  exact ⟨houtputs, hfinal.agree⟩

namespace Office

/-- A server in development that trusts headers. -/
def server : Server where
  x := Browser.platform
  crates := Auth.Token.crates
  env := fun _ => none
  state := {
    environment := .development
    db := some ⟨"postgres://localhost/eal"⟩
    schemaReady := true
    ingestAuthConfigured := false
    auth := .insecureHeaders
    allowedOrigins := []
    supabaseUrl := none }

/-- An administrator of a tenant asks for the rule of the scenario. -/
def create (tenant : String) (base : ℕ) : HttpRequest where
  headers := [("x-eal-tenant-id", ⟨Text.utf8 tenant.toList⟩),
    ("x-eal-subject-id", ⟨Text.utf8 "ada".toList⟩), ("x-eal-roles", ⟨Text.utf8 "admin".toList⟩)]
  route := .createRecord
  input := .ok Scenario.createRule.request
  routed := Deployment.routed_createRule
  now := 1950000000
  inClock := Deployment.inClock_now
  supply := ⟨fun _ => 0, fun n => (Scenario.supply base).ids (min n 3)⟩

def mine : HttpRequest := create "00000000-0000-0000-0000-000000000001" 50

def strange : HttpRequest := create "00000000-0000-0000-0000-000000000002" 100

/-- Who the headers name. -/
def ada (tenantId : Uuid) : Auth.AuthContext := ⟨tenantId, "ada", {"admin"}, true⟩

theorem preflight_rule (auth : AuthContext) (supply : Supply) :
    preflight server.x ⟨auth, supply, Scenario.createRule.request⟩ = .ok () := by
  have hanybody : preflight server.x Scenario.createRule = .ok () := by decide +kernel
  exact hanybody

theorem accept_create {tenant : String} {base : ℕ} {tenantId : Uuid}
    (h : server.state.auth.authenticateAt HeaderValue.toStr server.crates server.x
      (create tenant base).headers 1950000000 = .ok (ada tenantId)) :
    server.accept (create tenant base) = .ok ⟨memberContext (ada tenantId),
      (create tenant base).supply, Scenario.createRule.request⟩ := by
  refine Server.accept_ok_iff.mpr ⟨?_, preflight_rule _ _, rfl, rfl⟩
  rw [Server.identify, if_neg (fun h => nomatch h)]
  have hnow : (create tenant base).now = 1950000000 := rfl
  rw [hnow, h]
  rfl

theorem accept_mine : server.accept mine
    = .ok ⟨memberContext (ada 1), mine.supply, Scenario.createRule.request⟩ :=
  accept_create (by decide)

def strangeCall : Call := ⟨memberContext (ada 2), strange.supply, Scenario.createRule.request⟩

theorem accept_strange : server.accept strange = .ok strangeCall := accept_create (by decide)

/-- The store after the stranger. -/
def visited : Db := (server.handle Db.empty strange).2

theorem visited_eq : visited = strangeCall.after Browser.platform Db.empty :=
  Server.handle_admitted accept_strange

theorem isFrom_mine : server.isFrom 1 mine = true :=
  Server.isFrom_iff.mpr ⟨_, accept_mine, rfl⟩

theorem isFrom_strange : ¬ server.isFrom 1 strange = true := by
  intro h
  obtain ⟨call, hcall, hone⟩ := Server.isFrom_iff.mp h
  obtain rfl := Except.ok.inj (accept_strange.symm.trans hcall)
  exact absurd hone (by decide)

theorem unused_visited : Unused mine.supply.ids (visited.others 1) := by
  have hids : ∀ n, mine.supply.ids n ≠ 100 ∧ mine.supply.ids n ≠ 101 := by
    intro n
    have hmod : (50 + min n 3) % 2 ^ 128 = 50 + min n 3 := Nat.mod_eq_of_lt (by omega)
    constructor
    · intro heq
      have hval := congrArg Fin.val heq
      have hhundred : ((100 : Uuid) : ℕ) = 100 := rfl
      simp only [mine, create, Scenario.supply, Fin.val_ofNat, hmod, hhundred] at hval
      omega
    · intro heq
      have hval := congrArg Fin.val heq
      have hhundred : ((101 : Uuid) : ℕ) = 101 := rfl
      simp only [mine, create, Scenario.supply, Fin.val_ofNat, hmod, hhundred] at hval
      omega
  have hrows : (∀ r ∈ (visited.others 1).alertRules, r.id = 100) ∧
      (∀ r ∈ (visited.others 1).alertRuleRevisions, r.id = 101) ∧
      { visited.others 1 with alertRules := [], alertRuleRevisions := [] } = Db.empty := by
    rw [visited_eq]
    decide +kernel
  obtain ⟨hrules, hrevisions, hempty⟩ := hrows
  exact {
    sources := fun r hr => absurd (congrArg Db.sources hempty ▸ hr) List.not_mem_nil
    pages := fun r hr => absurd (congrArg Db.pages hempty ▸ hr) List.not_mem_nil
    pageRevisions := fun r hr => absurd (congrArg Db.pageRevisions hempty ▸ hr) List.not_mem_nil
    embeddings := fun r hr => absurd (congrArg Db.embeddings hempty ▸ hr) List.not_mem_nil
    alertRules := fun r hr n heq => (hids n).1 (heq.symm.trans (hrules r hr))
    alertRuleRevisions := fun r hr n heq => (hids n).2 (heq.symm.trans (hrevisions r hr))
    alertRuleEmbeddings := fun r hr =>
      absurd (congrArg Db.alertRuleEmbeddings hempty ▸ hr) List.not_mem_nil
    matchCandidates := fun r hr =>
      absurd (congrArg Db.matchCandidates hempty ▸ hr) List.not_mem_nil }

end Office

open Office in
/-- A rule of another tenant that is created first is not seen. -/
theorem tenant_sees_itself_office :
    visited.alertRules ≠ [] ∧
    Machine.outputs server.handle (server.isFrom 1) Db.empty [strange, mine]
      = Machine.outputs server.handle (server.isFrom 1) Db.empty [mine] := by
  constructor
  · rw [visited_eq]
    decide +kernel
  · have hfresh : Machine.Along server.handle (server.Fresh 1) Db.empty [strange, mine] := by
      refine ⟨fun call hcall hone => ?_, fun call hcall _ => ?_, trivial⟩
      · exact absurd (Server.isFrom_iff.mpr ⟨call, hcall, hone⟩) isFrom_strange
      · obtain rfl := Except.ok.inj (accept_mine.symm.trans hcall)
        exact unused_visited
    have hmain := (tenant_sees_itself Deployment.platform_lawful .refl 1 [strange, mine] hfresh).1
    rw [List.filter_cons_of_neg isFrom_strange, List.filter_cons_of_pos isFrom_mine,
      List.filter_nil] at hmain
    exact hmain

end EmbeddedAlerts
