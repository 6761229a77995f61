import EmbeddedAlerts.Ledger

/-!
# Failed requests

Most handlers do all their writes in one statement or in one transaction, and what they
check after it cannot fail once something was written: the rule that is read back is
there, the source that was inserted is returned, an embedding that was inserted has the
fingerprint that it is compared with.  So a request that is answered with an error has
done nothing (`Call.publish_clean`).  `ingest_page` and `evaluate_matches` are different:
the one reports an error for what it has written, the other writes its candidates one by
one.

* `failures_leave_no_trace`: **the failed requests of all other routes can be left out of a
  run**: every other request is answered as before, and the store is the same.
-/

namespace EmbeddedAlerts

open Sql Text Relation

variable {x : Platform} {db : Db}

/-! ### Handlers -/

theorem clean_return {α : Type} {a : Api α} {f : α → Response × List TenantEvent}
    (h : Action.Clean a db) : Action.Clean (do let r ← a; return f r) db :=
  h.bind_of_ok fun _ _ _ => ⟨_, rfl⟩

theorem clean_exec {α : Type} {a : Api α} {f : α → Response} (h : Action.Clean a db) :
    Action.Clean (do let r ← a; return f r) db :=
  h.bind_of_ok fun _ _ _ => ⟨_, rfl⟩

theorem clean_validated_bind {α β : Type} {r : Except String α} {f : α → Api β}
    (hf : ∀ a, Action.Clean (f a) db) : Action.Clean (Routes.validated r >>= f) db :=
  .reads_bind (Action.Moves.of_same rfl) fun a _ => hf a

theorem createRecord_clean (hwf : Wf x db) (supply : Supply) (auth : AuthContext)
    (input : CreateAlertRule) : Action.Clean (Routes.createRecord x supply auth input) db := by
  refine clean_validated_bind fun normalized e t h => ?_
  rcases createAlertRule_outcome hwf (supply.clock 0) supply.ids auth.tenantId auth.subject
    normalized with ⟨e', herror⟩ | ⟨d, -, hok⟩
  · exact (Prod.mk.inj (h.symm.trans herror)).2
  · cases h.symm.trans hok

theorem createSource_clean (supply : Supply) (auth : AuthContext) (input : CreateSourcePolicy)
    (db : Db) : Action.Clean (Routes.createSource x supply auth input) db := by
  intro e t h
  rcases Routes.createSource_outcome (x := x) supply auth input db with ⟨e', herror, -⟩ |
    ⟨-, source, hok⟩
  · exact (Prod.mk.inj (h.symm.trans herror)).2
  · cases h.symm.trans hok

/-- What the statement of `upsert_alert_rule_embedding` does: it writes nothing, or it
returns the row that it has written. -/
theorem upsertAlertRuleEmbeddingStatement_outcome {now : Timestamp} {id T alertRuleId : Uuid}
    {request : ReverseMatch.AlertRuleEmbeddingUpsertRequest}
    {o : Option (AlertRuleEmbeddingRow × Bool)} {d : Db}
    (h : ReverseMatch.upsertAlertRuleEmbeddingStatement x now id T alertRuleId request db db
      = .ok (o, d)) :
    d = db ∨ ∃ row, o = some (row, true) ∧
      row.embeddingSha256 = ReverseMatch.embeddingSha256 x request.embedding.values := by
  unfold ReverseMatch.upsertAlertRuleEmbeddingStatement at h
  split at h
  · exact Or.inl (Prod.mk.inj (Except.ok.inj h)).2.symm
  · obtain ⟨⟨selected, rows⟩, hselect, hreturn⟩ := except_bind_eq_ok h
    obtain ⟨rfl, rfl⟩ := Prod.mk.inj (Except.ok.inj hreturn)
    rcases Constraints.insertOrSelect_cases hselect with ⟨-, rfl, -⟩ | ⟨rfl, -, -, -⟩
    · exact Or.inl rfl
    · exact Or.inr ⟨_, rfl, rfl⟩

theorem upsertAlertRuleEmbedding_clean (now : Timestamp) (id T alertRuleId : Uuid)
    (request : ReverseMatch.AlertRuleEmbeddingUpsertRequest) (db : Db) :
    Action.Clean (ReverseMatch.upsertAlertRuleEmbedding x now id T alertRuleId request) db := by
  refine .reads_bind (Action.Moves.of_same rfl) fun _ _ => ?_
  intro e t h
  rcases hrun : ReverseMatch.upsertAlertRuleEmbeddingStatement x now id T alertRuleId request db db
    with e' | ⟨o, d⟩
  · rw [Action.bind_of_error (execute_of_error hrun)] at h
    exact (Prod.mk.inj h).2.symm
  · rw [Action.bind_of_ok (execute_of_ok hrun)] at h
    rcases upsertAlertRuleEmbeddingStatement_outcome hrun with rfl | ⟨row, rfl, hsha⟩
    · -- nothing after the statement writes
      exact Action.Clean.of_reads (Action.Moves.okOr_bind fun _ _ =>
        Action.Moves.ensure_bind fun _ => Action.Moves.of_same rfl) e t h
    · rw [Action.okOr_some_bind_apply] at h
      simp only at h
      rw [Action.bind_of_ok (Action.ensure_apply_of hsha _ d)] at h
      cases h

theorem reverseMatchPage_clean (supply : Supply) (T sourceId : Uuid)
    (input : ReverseMatch.ReverseAlertPageRequest) (db : Db) :
    Action.Clean (Routes.reverseMatchPage x supply T sourceId input) db := by
  refine clean_validated_bind fun _ => .reads_bind (Routes.admittedUrls_reads _ _ _ db) fun urls _ => ?_
  exact .reads_bind (Action.Moves.of_same rfl) fun _ _ => Action.Clean.transaction _ db

/-- The routes that may write and then fail. -/
def Route.mayLeave : Route → Bool
  | ingestPage => true
  | evaluateMatches => true
  | _ => false

/-- **A handler that fails has done nothing**, but for the two routes. -/
theorem Call.publish_clean (hwf : Wf x db) {call : Call}
    (h : call.request.route.mayLeave = false) : Action.Clean (call.publish x) db := by
  obtain ⟨auth, supply, request⟩ := call
  cases request with
  | ingestPage _ _ => cases h
  | evaluateMatches _ => cases h
  | createRecord input => exact clean_return (createRecord_clean hwf supply auth input)
  | createSource input => exact clean_return (createSource_clean supply auth input db)
  | reverseMatchPage sourceId input =>
    exact clean_return (reverseMatchPage_clean supply auth.tenantId sourceId input db)
  | upsertAlertEmbedding alertRuleId input =>
    refine clean_return (clean_exec (clean_validated_bind fun _ => ?_))
    exact upsertAlertRuleEmbedding_clean _ _ _ _ _ db
  | listRecords | listSources => exact clean_return (.of_reads rfl)
  | getRecord | getSource =>
    refine clean_return (clean_exec (.of_reads ?_))
    exact Action.Moves.query_bind Action.Moves.okOr
  | searchEmbeddings input =>
    refine clean_return (clean_exec (clean_validated_bind fun _ => .of_reads ?_))
    exact Action.Moves.bind (Action.Moves.of_same (Store.searchEmbeddings_snd _ _ db))
      fun _ _ _ => Action.Moves.of_same rfl

/-! ### Requests -/

/-- The answer is an error, or the request could not be read. -/
def Reply.isFailure : Reply → Bool
  | .ok _ _ => false
  | .error _ => true
  | .rejected _ => true

section Requests

variable {server : Server} {request : HttpRequest} {call : Call}

theorem Server.identify_route (h : server.identify request = .ok call) :
    call.request.route = request.route := by
  unfold Server.identify at h
  by_cases hworker : request.route.forWorkers = true
  · rw [if_pos hworker] at h
    simp only [bind_ok_iff, mapError_ok_iff, pure_ok_iff] at h
    obtain ⟨input, hinput, -, -, tenantId, -, rfl⟩ := h
    exact request.routed input hinput
  · rw [if_neg hworker] at h
    simp only [bind_ok_iff, mapError_ok_iff, pure_ok_iff] at h
    obtain ⟨auth, -, input, hinput, rfl⟩ := h
    exact request.routed input hinput

/-- A request that fails publishes nothing, and changes nothing unless it is one of the two
routes. -/
theorem Server.handle_failure (hwf : Wf server.x db)
    (h : (server.handle db request).1.1.isFailure = true) :
    (server.handle db request).1.2 = [] ∧
      (request.route.mayLeave = false → (server.handle db request).2 = db) := by
  cases haccept : server.accept request with
  | error reply =>
    rw [Server.handle_refused haccept]
    exact ⟨rfl, fun _ => rfl⟩
  | ok call =>
    have hroute := Server.identify_route (Server.accept_ok_iff.mp haccept).1
    rw [Server.handle_of_ok haccept] at h ⊢
    rcases hrun : call.publish server.x db with ⟨e | ⟨response, events⟩, d⟩
    · refine ⟨rfl, fun hleave => ?_⟩
      rw [← hroute] at hleave
      exact Call.publish_clean hwf hleave e d hrun
    · rw [hrun] at h
      cases h

/-- The request has an answer that is no failure, or is one of the two routes. -/
def countsInRun (step : HttpRequest × Reply × List TenantEvent) : Bool :=
  !step.2.1.isFailure || step.1.route.mayLeave

/-- **Failed requests leave no trace.**  In every run, the requests that fail on a route other
than `ingest_page` and `evaluate_matches` can be left out: the others are answered as they
were and publish the same events, and the store is the same in the end.  No failed request
of any route publishes an event. -/
theorem failures_leave_no_trace (hx : server.x.Lawful) (hdb : Reachable server.x db)
    (requests : List HttpRequest) :
    Machine.trace server.handle db
        (((Machine.trace server.handle db requests).filter countsInRun).map Prod.fst)
      = (Machine.trace server.handle db requests).filter countsInRun ∧
    Machine.final server.handle db
        (((Machine.trace server.handle db requests).filter countsInRun).map Prod.fst)
      = Machine.final server.handle db requests ∧
    ∀ output ∈ Machine.outputs server.handle (fun _ => true) db requests,
      output.1.isFailure = true → output.2 = [] := by
  have hleft : ∀ s request, Reachable server.x s → Reachable server.x (server.handle s request).2 ∧
      (countsInRun (request, (server.handle s request).1) = false →
        (server.handle s request).2 = s) := by
    intro s request hs
    refine ⟨Server.handle_reachable hs, fun hcounts => ?_⟩
    rw [countsInRun, Bool.or_eq_false_iff, Bool.not_eq_false'] at hcounts
    exact (Server.handle_failure (hs.wf hx) hcounts.1).2 hcounts.2
  obtain ⟨htrace, hfinal⟩ := Machine.trace_filter (I := Reachable server.x) hleft requests hdb
  refine ⟨htrace, hfinal, ?_⟩
  exact Machine.forall_outputs (I := Reachable server.x) requests hdb fun s hs request _ =>
    ⟨Server.handle_reachable hs, fun hfailed => (Server.handle_failure (hs.wf hx) hfailed).1⟩

end Requests

open Office in
/-- The second request for the same source fails and is left out. -/
theorem failures_leave_no_trace_office :
    (Machine.trace server.handle Db.empty [addSite, addSite]).map countsInRun = [true, false] ∧
    Machine.final server.handle Db.empty [addSite]
      = Machine.final server.handle Db.empty [addSite, addSite] := by
  have hcounts : (Machine.trace server.handle Db.empty [addSite, addSite]).map countsInRun
      = [true, false] := by decide +kernel
  obtain ⟨hfirst, hrest⟩ := List.cons.inj hcounts
  have hsecond := (List.cons.inj hrest).1
  have hx : server.x.Lawful := Deployment.platform_lawful
  have hfinal := (failures_leave_no_trace hx .refl [addSite, addSite]).2.1
  have htrace : Machine.trace server.handle Db.empty [addSite, addSite]
      = [(addSite, _), (addSite, _)] := rfl
  refine ⟨hcounts, ?_⟩
  rw [htrace, List.filter_cons_of_pos hfirst, List.filter_cons_of_neg (Bool.eq_false_iff.mp hsecond),
    List.filter_nil, List.map_cons, List.map_nil] at hfinal
  exact hfinal

end EmbeddedAlerts
