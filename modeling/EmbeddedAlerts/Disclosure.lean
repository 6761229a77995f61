import EmbeddedAlerts.Delivery

/-!
# Who is sent what

Two questions about the sockets of a run.  Which events does a caller get, compared with
the rules that `get_alert_rule` returns to it; and who are the callers, compared with the
headers of the requests that opened the sockets.

An event is built when the handler has done its database work, it waits, it is published
and it waits again, while other requests change the store.  `Confidential` is kept by all
of this, since what makes a rule readable is never undone.

* `socket_confidential`: **who has been sent an event can read every rule it names.**
* `socket_sealed`: **in production the events of a tenant are sent only to sockets that were
  opened with a token for it, from a page of an allowed origin.**
-/

namespace EmbeddedAlerts

open Sql Text Relation Broadcast
open Auth (TokenCrates)

variable {κ : Type} [DecidableEq κ] {c : Channel TenantEvent κ} {x : Platform} {db : Db}
  {s t : System c} {k : κ}

/-! ### Turns -/

/-- Opening, polling and closing sockets is nothing to the store and to the events. -/
structure Quiet (s t : System c) : Prop where
  db : t.db = s.db
  pending : t.pending = s.pending
  history : t.history = s.history

theorem System.connect_quiet (s : System c) (k : κ) (auth : AuthContext) :
    Quiet s (s.connect k auth) := by
  unfold System.connect
  split <;> exact ⟨rfl, rfl, rfl⟩

theorem System.poll_quiet (s : System c) (k : κ) (sent : Bool) : Quiet s (s.poll k sent) := by
  unfold System.poll
  split
  · exact ⟨rfl, rfl, rfl⟩
  · split_ifs
    · exact ⟨rfl, rfl, rfl⟩
    · split <;> exact ⟨rfl, rfl, rfl⟩

theorem System.close_quiet (s : System c) (k : κ) : Quiet s (s.close k) := by
  unfold System.close
  split <;> exact ⟨rfl, rfl, rfl⟩

theorem update_of_none {f : κ → Option Socket} {l : κ} {socket : Socket} (hl : f l = some socket)
    (hk : f k = none) (v : Option Socket) : Function.update f l v k = none := by
  have hne : k ≠ l := by
    rintro rfl
    rw [hk] at hl
    cases hl
  rw [Function.update_of_ne hne, hk]

theorem System.poll_none (h : s.sockets k = none) (l : κ) (sent : Bool) :
    (s.poll l sent).sockets k = none := by
  unfold System.poll
  cases hl : s.sockets l with
  | none => exact h
  | some socket =>
    by_cases hclosed : socket.isOpen = false
    · simp only [if_pos hclosed]
      exact h
    · simp only [if_neg hclosed]
      cases (c.recv s.channel l).1 with
      | none => exact h
      | some received => exact update_of_none hl h _

theorem System.close_none (h : s.sockets k = none) (l : κ) : (s.close l).sockets k = none := by
  unfold System.close
  cases hl : s.sockets l with
  | none => exact h
  | some socket => exact update_of_none hl h _

theorem System.connect_none (h : s.sockets k = none) {l : κ} (hne : k ≠ l) (auth : AuthContext) :
    (s.connect l auth).sockets k = none := by
  unfold System.connect
  cases s.sockets l with
  | some _ => exact h
  | none => exact (Function.update_of_ne hne _ _).trans h

/-- **A socket is an old one, or was opened in this turn.** -/
theorem System.step_socket {server : Server} {turn : Turn κ} {socket : Socket}
    (h : (s.step server turn).2.sockets k = some socket) :
    (∃ old, s.sockets k = some old ∧ old.auth = socket.auth) ∨
      ∃ request, turn = .connect k request ∧ server.upgrade request = .ok socket.auth := by
  by_cases hnone : s.sockets k = none
  · have hstill : ∀ {t : System c}, t.sockets k = none → ¬ t.sockets k = some socket := by
      intro t ht hsome
      rw [ht] at hsome
      cases hsome
    refine Or.inr ?_
    cases turn with
    | request request => exact absurd h (hstill hnone)
    | publish queue =>
      have hsame : (s.publish queue).sockets k = none := by
        unfold System.publish
        split <;> exact hnone
      exact absurd h (hstill hsame)
    | connect l request =>
      cases hup : server.upgrade request with
      | error reply =>
        rw [System.step_refused hup] at h
        exact absurd h (hstill hnone)
      | ok auth =>
        rw [System.step_connect hup] at h
        by_cases heq : k = l
        · subst heq
          obtain rfl := Option.some.inj ((System.connect_free hnone auth).1.symm.trans h)
          exact ⟨request, rfl, hup⟩
        · exact absurd h (hstill (System.connect_none hnone heq auth))
    | poll l sent => exact absurd h (hstill (System.poll_none hnone l sent))
    | close l => exact absurd h (hstill (System.close_none hnone l))
  · obtain ⟨old, hold⟩ := Option.ne_none_iff_exists'.mp hnone
    obtain ⟨socket', hsocket', hauth, -⟩ := (s.follows_step server turn).sockets k old hold
    obtain rfl := Option.some.inj (h.symm.trans hsocket')
    exact Or.inl ⟨old, hold, hauth.symm⟩

/-! ### Readers of the rules -/

/-- Whoever may see an event can read the rules it names. -/
theorem Addressed.canGet (hvalid : db.Valid) {event : TenantEvent} (h : Addressed db event)
    {auth : AuthContext} (hvisible : eventVisibleTo event auth = true) :
    event.tenantId = auth.tenantId ∧ ∀ id ∈ event.data.alertRuleIds, CanGet auth id db := by
  rw [eventVisibleTo_iff] at hvisible
  obtain ⟨hT, haudience⟩ := hvisible
  refine ⟨hT, fun id hid => ?_⟩
  cases h with
  | owner audience rules =>
    rw [audience] at haudience
    exact (canGet_iff hvalid (rules id hid)).mpr ⟨hT, haudience⟩
  | administrators audience rules several =>
    rw [audience] at haudience
    obtain ⟨owner, hread⟩ := rules id hid
    refine (canGet_iff hvalid hread).mpr ⟨hT, ?_⟩
    have hadmin : auth.isTenantAdmin = true := haudience
    rw [AuthContext.canAccessOwner, hadmin, Bool.true_or]

/-- All events, published or not, are addressed to readers of the rules they name, in the
store as it is now. -/
structure Confidential (x : Platform) (s : System c) : Prop where
  reachable : Reachable x s.db
  published : ∀ event ∈ s.history, Addressed s.db event
  pending : ∀ queue ∈ s.pending, ∀ event ∈ queue, Addressed s.db event

omit [DecidableEq κ] in
theorem Confidential.quiet (h : Confidential x s) (hquiet : Quiet s t) : Confidential x t where
  reachable := by
    rw [hquiet.db]
    exact h.reachable
  published := by
    rw [hquiet.db, hquiet.history]
    exact h.published
  pending := by
    rw [hquiet.db, hquiet.pending]
    exact h.pending

theorem Server.handle_addressed {server : Server} (hx : server.x.Lawful)
    (hdb : Reachable server.x db) (request : HttpRequest) :
    ∀ event ∈ (server.handle db request).1.2, Addressed (server.handle db request).2 event := by
  intro event hevent
  cases haccept : server.accept request with
  | error reply =>
    rw [Server.handle_refused haccept] at hevent
    cases hevent
  | ok call =>
    rw [Server.handle_of_ok haccept] at hevent ⊢
    rcases hrun : call.publish server.x db with ⟨e | ⟨response, events⟩, s⟩
    · rw [hrun] at hevent
      cases hevent
    · rw [hrun] at hevent
      exact Call.publish_addressed hx (hdb.wf hx) hrun event hevent

theorem Server.handle_readable {server : Server} (hx : server.x.Lawful)
    (hdb : Reachable server.x db) (request : HttpRequest) {T id : Uuid} {owner : String}
    (h : ReadableRule T id owner db) :
    ReadableRule T id owner (server.handle db request).2 := by
  rcases server.handle_cases db request with ⟨reply, -, hrefused⟩ | ⟨call, -, hadmitted⟩
  · rw [hrefused]
    exact h
  · rw [hadmitted]
    exact h.served hx (hdb.wf hx) (.single (.request call))

omit [DecidableEq κ] in
theorem Confidential.publish (h : Confidential x s) (queue : ℕ) :
    Confidential x (s.publish queue) := by
  unfold System.publish
  split
  · next event rest hqueue =>
    have hmem : event :: rest ∈ s.pending := List.mem_of_getElem? hqueue
    refine ⟨h.reachable, fun e he => ?_, fun q hq e he => ?_⟩
    · rcases List.mem_append.mp he with he | he
      · exact h.published e he
      · rw [List.mem_singleton.mp he]
        exact h.pending _ hmem event List.mem_cons_self
    · rcases List.mem_or_eq_of_mem_set hq with hq | rfl
      · exact h.pending q hq e he
      · exact h.pending _ hmem e (List.mem_cons_of_mem event he)
  · exact h

/-- **Every turn keeps the events confidential.** -/
theorem Confidential.step {server : Server} (hx : server.x.Lawful) (h : Confidential server.x s)
    (turn : Turn κ) : Confidential server.x (s.step server turn).2 := by
  cases turn with
  | request request =>
    have hmono : ∀ event, Addressed s.db event → Addressed (server.handle s.db request).2 event :=
      fun event hevent => hevent.mono fun _ _ _ => Server.handle_readable hx h.reachable request
    refine ⟨Server.handle_reachable h.reachable, fun event hevent => ?_, fun queue hqueue => ?_⟩
    · exact hmono event (h.published event hevent)
    · rcases List.mem_append.mp hqueue with hqueue | hqueue
      · exact fun event hevent => hmono event (h.pending queue hqueue event hevent)
      · rw [List.mem_singleton.mp hqueue]
        exact Server.handle_addressed hx h.reachable request
  | publish queue => exact h.publish queue
  | connect k request =>
    cases hup : server.upgrade request with
    | error reply =>
      rw [System.step_refused hup]
      exact h
    | ok auth =>
      rw [System.step_connect hup]
      exact h.quiet (s.connect_quiet k auth)
  | poll k sent => exact h.quiet (s.poll_quiet k sent)
  | close k => exact h.quiet (s.close_quiet k)

/-- What a socket was sent has been published, and its caller may see it. -/
theorem Delivers.visible {d : c.Documented eventCapacity} (h : Delivers d s) {socket : Socket}
    (hsocket : s.sockets k = some socket) {event : TenantEvent} (hevent : event ∈ socket.delivered) :
    event ∈ s.history ∧ eventVisibleTo event socket.auth = true := by
  have hinOrder := h.inOrder k socket hsocket
  rw [hinOrder.delivered] at hevent
  obtain ⟨hread, hvisible⟩ := List.mem_filter.mp hevent
  have hmem := (hinOrder.good.read_sublist s.history).subset hread
  exact ⟨List.mem_of_mem_drop hmem, hvisible⟩

/-- **A socket is sent no more than its caller can read.**  In every run, and however its
turns interleave, the events that a socket was sent are events of its caller's tenant, and
`get_alert_rule` returns every rule that they name to the caller, at any moment after. -/
theorem socket_confidential (d : c.Documented eventCapacity) {server : Server}
    (hx : server.x.Lawful) (hdb : Reachable server.x db) (turns : List (Turn κ))
    (hs : Machine.final (System.step server) (System.initial c db) turns = s)
    {socket : Socket} (hsocket : s.sockets k = some socket) {event : TenantEvent}
    (hevent : event ∈ socket.delivered) :
    event.tenantId = socket.auth.tenantId ∧
      ∀ id ∈ event.data.alertRuleIds, CanGet socket.auth id s.db := by
  have hdelivers : Delivers d s := by
    rw [← hs]
    exact (delivers_initial d db).run server turns
  have hconfidential : Confidential server.x s := by
    rw [← hs]
    refine Machine.final_induct turns ?_ fun _ h turn _ => h.step hx turn
    exact ⟨hdb, fun _ h => absurd h List.not_mem_nil, fun _ h => absurd h List.not_mem_nil⟩
  obtain ⟨hpublished, hvisible⟩ := hdelivers.visible hsocket hevent
  exact (hconfidential.published event hpublished).canGet
    (hconfidential.reachable.wf hx).valid hvisible

open Lobby in
/-- The administrator can read the rules it was told of. -/
theorem socket_confidential_lobby : ∃ socket, closing.sockets 0 = some socket ∧
    socket.delivered.length = 2 ∧ ∀ event ∈ socket.delivered, event.tenantId = 1 ∧
      ∀ id ∈ event.data.alertRuleIds, CanGet (memberContext (Office.ada 1)) id closing.db := by
  have hsent : (closing.sockets 0).map (fun socket => (socket.delivered.length, socket.auth))
      = some (2, memberContext (Office.ada 1)) := by decide +kernel
  have hclosing : Machine.final (System.step server) (System.initial channel Db.empty)
      (earlier ++ .connect 0 visit :: later) = closing := rfl
  cases hsocket : closing.sockets 0 with
  | none =>
    rw [hsocket] at hsent
    cases hsent
  | some socket =>
    rw [hsocket] at hsent
    obtain ⟨hlength, hauth⟩ := Prod.mk.inj (Option.some.inj hsent)
    refine ⟨socket, rfl, hlength, fun event hevent => ?_⟩
    have hmain := socket_confidential documented Deployment.platform_lawful .refl
      (earlier ++ .connect 0 visit :: later) hclosing hsocket hevent
    rw [hauth] at hmain
    exact hmain

/-! ### Callers -/

/-- A request for a socket carries a credential for tenant `T`, under the variables of the
process: a token that the configured verifier is to accept, and the origin of an item of
the configured list. -/
structure SocketCredential (x : Platform) (o : OriginCrates) (crates : TokenCrates)
    (env : String → Option String) (request : WsRequest) (T : Uuid) : Prop where
  token : ∃ verifier cookieName token auth, ConfiguredVerifier env verifier cookieName ∧
    Auth.Unanimous HeaderValue.toStr request.headers cookieName token ∧
    Auth.Accepts crates x verifier (String.ofList token) request.now auth ∧ auth.tenantId = T
  origin : ∃ raw, nonblank env "CORS_ALLOWED_ORIGINS" = some raw ∧ ∃ item ∈ Origins.items raw,
    ∃ origin, Origins.OriginOf x o item origin ∧ request.headers.get "origin" = some origin

/-- **Whoever opens a socket in production has a credential.** -/
theorem Server.upgrade_credential {server : Server} (hc : server.crates.Lawful)
    {o : OriginCrates} {services : Services}
    (hstart : start server.x o server.env services = .ok server.state)
    (hproduction : server.state.environment = .production) {request : WsRequest}
    {auth : AuthContext} (h : server.upgrade request = .ok auth) :
    SocketCredential server.x o server.crates server.env request auth.tenantId := by
  have hstarted := start_ok_iff.mp hstart
  obtain ⟨verifier, hmode, hverifier⟩ := hstarted.verifier (hstarted.policy hproduction).2.2.1
  simp only [Server.upgrade, bind_ok_iff, mapError_ok_iff, pure_ok_iff] at h
  obtain ⟨member, hmember, ⟨⟩, horigin, -, -, rfl⟩ := h
  constructor
  · obtain ⟨token, htoken, haccepts⟩ := (authenticateAt_jwt_iff hc hmode
      hverifier.leewaySeconds.2 request.inClock).mp hmember
    exact ⟨verifier, _, token, member, hverifier, htoken, haccepts, rfl⟩
  · have horigins := hstarted.allowedOrigins
    rw [decide_eq_true hproduction, configuredOrigins_production_iff] at horigins
    obtain ⟨raw, hraw, hparse⟩ := horigins
    obtain ⟨origin, hallowed, hheader⟩ := authorizeWebsocketOrigin_ok_iff.mp horigin
    obtain ⟨item, hitem, horiginOf⟩ := ((Origins.parseOrigins_ok_iff.mp hparse).2.2.2 origin).mp
      hallowed
    exact ⟨raw, hraw, item, hitem, origin, horiginOf, hheader⟩

theorem System.run_socket (server : Server) (db : Db) (turns : List (Turn κ)) {socket : Socket}
    (h : (Machine.final (System.step server) (System.initial c db) turns).sockets k
      = some socket) :
    ∃ request, Turn.connect k request ∈ turns ∧ server.upgrade request = .ok socket.auth := by
  have hopened : ∀ k socket, (Machine.final (System.step server) (System.initial c db)
      turns).sockets k = some socket → ∃ request, Turn.connect k request ∈ turns ∧
        server.upgrade request = .ok socket.auth := by
    refine Machine.final_induct (I := fun s : System c => ∀ k socket, s.sockets k = some socket →
      ∃ request, Turn.connect k request ∈ turns ∧ server.upgrade request = .ok socket.auth)
      turns (fun k socket h => nomatch h) fun s hs turn hturn k socket h => ?_
    rcases System.step_socket h with ⟨old, hold, hauth⟩ | ⟨request, rfl, hup⟩
    · obtain ⟨request, hmem, hup⟩ := hs k old hold
      exact ⟨request, hmem, hauth ▸ hup⟩
    · exact ⟨request, hturn, hup⟩
  exact hopened k socket h

/-- **In production the events of a tenant stay with its members.**  Whatever happens in a
run, in whatever order: if no request for a socket carries a token for `T` and an allowed
origin, no socket is sent an event of `T`. -/
theorem socket_sealed (d : c.Documented eventCapacity) {server : Server}
    (hc : server.crates.Lawful) {o : OriginCrates} {services : Services}
    (hstart : start server.x o server.env services = .ok server.state)
    (hproduction : server.state.environment = .production) (db : Db) (T : Uuid)
    (turns : List (Turn κ))
    (hnone : ∀ k request, Turn.connect k request ∈ turns →
      ¬ SocketCredential server.x o server.crates server.env request T) :
    ∀ k socket, (Machine.final (System.step server) (System.initial c db) turns).sockets k
        = some socket → ∀ event ∈ socket.delivered, event.tenantId ≠ T := by
  rintro k socket hsocket event hevent rfl
  obtain ⟨request, hmem, hup⟩ := System.run_socket server db turns hsocket
  have hvisible := (((delivers_initial d db).run server turns).visible hsocket hevent).2
  refine hnone k request hmem ?_
  rw [(eventVisibleTo_iff.mp hvisible).1]
  exact Server.upgrade_credential hc hstart hproduction hup

namespace Deployment

/-- A page of another origin opens a socket, with the token of an administrator. -/
def hijack : WsRequest where
  headers := [("origin", ⟨Text.utf8 "https://example.com.".toList⟩),
    ("authorization", ⟨Text.utf8 ("Bearer ".toList ++ Auth.Token.text.toList)⟩)]
  upgrade := .ok ()
  now := 1950000000
  inClock := inClock_now

theorem hijack_credential (T : Uuid) :
    ¬ SocketCredential server.x Browser.crates server.crates server.env hijack T := by
  rintro ⟨-, raw, hraw, item, hitem, origin, horiginOf, hheader⟩
  have htext : nonblank server.env "CORS_ALLOWED_ORIGINS" = some Browser.text := by decide
  obtain rfl := Option.some.inj (htext.symm.trans hraw)
  have hallowed : origin ∈ Browser.origins :=
    ((Origins.parseOrigins_ok_iff.mp Browser.parse_text).2.2.2 origin).mpr
      ⟨item, hitem, horiginOf⟩
  obtain rfl := Option.some.inj hheader
  exact absurd hallowed (by decide)

def hijacking : List (Turn ℕ) :=
  [.connect 0 hijack, .request (intrusion hijack.headers), .publish 0, .poll 0 true]

def hijacked : System Lobby.channel :=
  Machine.final (System.step server) (System.initial Lobby.channel Db.empty) hijacking

end Deployment

open Deployment in
/-- The page of another origin is told nothing of tenant 1. -/
theorem socket_sealed_deployment : ((hijacked.sockets 0).any fun socket =>
    socket.delivered.any fun event => decide (event.tenantId = 1)) = false := by
  have hnone : ∀ k request, Turn.connect k request ∈ hijacking →
      ¬ SocketCredential server.x Browser.crates server.crates server.env request 1 := by
    intro k request hmem
    simp only [hijacking, List.mem_cons, List.not_mem_nil, Turn.connect.injEq, reduceCtorEq,
      or_false] at hmem
    rw [hmem.2]
    exact hijack_credential 1
  have hlawful : server.crates.Lawful := Auth.Token.crates_lawful
  have hstart : start server.x Browser.crates server.env services = .ok server.state :=
    start_ok_iff.mpr started
  have hsealed := socket_sealed Lobby.documented hlawful hstart rfl Db.empty 1 hijacking hnone 0
  have hrun : Machine.final (System.step server) (System.initial Lobby.channel Db.empty) hijacking
      = hijacked := rfl
  rw [hrun] at hsealed
  cases hsocket : hijacked.sockets 0 with
  | none => rfl
  | some socket =>
    rw [Option.any_some, List.any_eq_false]
    intro event hevent heq
    exact hsealed socket hsocket event hevent (of_decide_eq_true heq)

end EmbeddedAlerts
