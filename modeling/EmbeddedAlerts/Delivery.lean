import EmbeddedAlerts.Isolation
import EmbeddedAlerts.Machine.Broadcast

/-!
# Sockets

`src/server_websocket.rs`: `ws_upgrade` authenticates a socket and checks its origin,
`websocket` subscribes it to the events and runs the loop that sends those it may see.
Events go through a broadcast channel of 512 places, which is another crate's
(`Broadcast.Channel`).

`System` is the server with its sockets.  A turn is the database work of a request, the
publication of one of the events it has left to publish, the opening of a socket, one turn
of a socket's loop or its end; they come in any order, for any number of requests and
sockets.  `history`, and the reader of a socket, are there for the theorems only.

* `Delivers`: every socket was served in order, and of the last 512 events before its
  cursor it has missed none.  Every turn keeps this.
* `Delivers.caught_up`: 513 turns of an open socket's loop take it to the end.
* `socket_deliveries`: **a socket is sent the events it may see, in the order of
  publication and each at most once**; none is missing unless the socket fell behind by more
  than the channel holds, and a socket that is polled gets to the end.
-/

namespace EmbeddedAlerts

open Sql Relation Broadcast
open Auth (HeaderMap)

/-! ### The system -/

/-- The places of `broadcast::channel`. -/
def eventCapacity : ℕ := 512

/-- A request to open a socket.  `upgrade` is what `WebSocketUpgrade` makes of it. -/
structure WsRequest where
  headers : HeaderMap HeaderValue
  upgrade : Except ℕ Unit
  now : ℤ
  inClock : Auth.InClock now

/-- `ws_upgrade`. -/
def Server.upgrade (server : Server) (request : WsRequest) : Except Reply AuthContext := do
  let auth ← (server.state.auth.authenticateAt HeaderValue.toStr server.crates server.x
    request.headers request.now).mapError fun e => Reply.error e.reply
  (authorizeWebsocketOrigin request.headers server.state.allowedOrigins).mapError
    fun e => Reply.error e.reply
  request.upgrade.mapError .rejected
  return memberContext auth

/-- A socket: its caller, and what it was sent. -/
structure Socket where
  auth : AuthContext
  isOpen : Bool
  delivered : List TenantEvent
  reader : Reader

/-- One turn of the loop of `websocket`; `sent` is whether the socket took the text. -/
def Socket.receive (socket : Socket) (sent : Bool) : Received TenantEvent → Socket
  | .value event =>
    if eventVisibleTo event socket.auth = true then
      if sent = true then
        { socket with delivered := socket.delivered ++ [event], reader := socket.reader.take }
      else { socket with isOpen := false }
    else { socket with reader := socket.reader.take }
  | .lagged skipped => { socket with reader := socket.reader.skip skipped }

section System

variable {κ : Type} [DecidableEq κ] {c : Channel TenantEvent κ}

/-- The server with its sockets.  `pending` are the events that each request has left to
publish. -/
structure System (c : Channel TenantEvent κ) where
  db : Db
  pending : List (List TenantEvent)
  channel : c.State
  history : List TenantEvent
  sockets : κ → Option Socket

def System.initial (c : Channel TenantEvent κ) (db : Db) : System c :=
  ⟨db, [], c.empty, [], fun _ => none⟩

inductive Turn (κ : Type) where
  | request (request : HttpRequest)
  | publish (queue : ℕ)
  | connect (k : κ) (request : WsRequest)
  | poll (k : κ) (sent : Bool)
  | close (k : κ)

/-- `publish_event`, for the next event of a request. -/
def System.publish (s : System c) (queue : ℕ) : System c :=
  match s.pending[queue]? with
  | some (event :: rest) =>
    { s with
      pending := s.pending.set queue rest
      channel := c.send s.channel event
      history := s.history ++ [event] }
  | _ => s

/-- `websocket`, up to its loop. -/
def System.connect (s : System c) (k : κ) (auth : AuthContext) : System c :=
  match s.sockets k with
  | some _ => s
  | none =>
    { s with
      channel := c.subscribe s.channel k
      sockets := Function.update s.sockets k
        (some ⟨auth, true, [], .begin s.history.length⟩) }

/-- One turn of the loop of `websocket`, with the receiver dropped when the loop ends. -/
def System.poll (s : System c) (k : κ) (sent : Bool) : System c :=
  match s.sockets k with
  | none => s
  | some socket =>
    if socket.isOpen = false then s
    else match (c.recv s.channel k).1 with
      | none => { s with channel := (c.recv s.channel k).2 }
      | some received =>
        { s with
          channel :=
            if (socket.receive sent received).isOpen = true then (c.recv s.channel k).2
            else c.drop (c.recv s.channel k).2 k
          sockets := Function.update s.sockets k (some (socket.receive sent received)) }

/-- The end of `websocket`. -/
def System.close (s : System c) (k : κ) : System c :=
  match s.sockets k with
  | none => s
  | some socket =>
    { s with
      channel := c.drop s.channel k
      sockets := Function.update s.sockets k (some { socket with isOpen := false }) }

/-- One turn, with the reply to a request. -/
def System.step (server : Server) (s : System c) : Turn κ → Option Reply × System c
  | .request request =>
    (some (server.handle s.db request).1.1,
      { s with
        db := (server.handle s.db request).2
        pending := s.pending ++ [(server.handle s.db request).1.2] })
  | .publish queue => (none, s.publish queue)
  | .connect k request =>
    match server.upgrade request with
    | .error reply => (some reply, s)
    | .ok auth => (none, s.connect k auth)
  | .poll k sent => (none, s.poll k sent)
  | .close k => (none, s.close k)

/-! ### What a socket was sent -/

/-- The events that a caller may see. -/
def visibleTo (auth : AuthContext) (events : List TenantEvent) : List TenantEvent :=
  events.filter fun event => eventVisibleTo event auth

theorem visibleTo_append {auth : AuthContext} {events : List TenantEvent} {event : TenantEvent}
    (h : eventVisibleTo event auth = true) :
    visibleTo auth (events ++ [event]) = visibleTo auth events ++ [event] := by
  rw [visibleTo, List.filter_append, List.filter_singleton, h]
  rfl

theorem visibleTo_append_of_not {auth : AuthContext} {events : List TenantEvent}
    {event : TenantEvent} (h : ¬ eventVisibleTo event auth = true) :
    visibleTo auth (events ++ [event]) = visibleTo auth events := by
  rw [visibleTo, List.filter_append, List.filter_singleton, Bool.eq_false_of_not_eq_true h]
  exact List.append_nil _

/-- A socket has received, in order, what its reader has read, and was sent what it may
see of it. -/
structure Socket.InOrder (history : List TenantEvent) (socket : Socket) : Prop where
  good : socket.reader.Good
  next_le : socket.reader.next ≤ history.length
  delivered : socket.delivered = visibleTo socket.auth (socket.reader.read history)
  recent : socket.reader.Since (history.length - eventCapacity)

variable {history : List TenantEvent} {socket : Socket}

theorem Socket.InOrder.append (h : socket.InOrder history) (event : TenantEvent) :
    socket.InOrder (history ++ [event]) where
  good := h.good
  next_le := by
    have hnext := h.next_le
    rw [List.length_append]
    omega
  delivered := by
    rw [h.good.read_append h.next_le]
    exact h.delivered
  recent := by
    refine h.recent.mono ?_
    rw [List.length_append]
    omega

theorem Socket.InOrder.closed (h : socket.InOrder history) :
    Socket.InOrder history { socket with isOpen := false } :=
  ⟨h.good, h.next_le, h.delivered, h.recent⟩

/-- A socket that stays open has moved on. -/
theorem Socket.receive_value_reader {sent : Bool} {event : TenantEvent}
    (h : (socket.receive sent (.value event)).isOpen = true) :
    (socket.receive sent (.value event)).reader = socket.reader.take := by
  by_cases hvisible : eventVisibleTo event socket.auth = true
  · cases sent with
    | true => rw [Socket.receive, if_pos hvisible, if_pos rfl]
    | false =>
      rw [Socket.receive, if_pos hvisible, if_neg Bool.false_ne_true] at h
      cases h
  · rw [Socket.receive, if_neg hvisible]

/-- The next value is received. -/
theorem Socket.InOrder.value (h : socket.InOrder history) {event : TenantEvent}
    (hget : history[socket.reader.next]? = some event) (sent : Bool) :
    (socket.receive sent (.value event)).InOrder history := by
  obtain ⟨hlt, -⟩ := List.getElem?_eq_some_iff.mp hget
  have hread := Reader.read_take hget
  by_cases hvisible : eventVisibleTo event socket.auth = true
  · cases sent with
    | true =>
      rw [Socket.receive, if_pos hvisible, if_pos rfl]
      refine ⟨h.good.take, hlt, ?_, h.recent.take⟩
      show socket.delivered ++ [event] = visibleTo socket.auth (socket.reader.take.read history)
      rw [hread, visibleTo_append hvisible, h.delivered]
    | false =>
      rw [Socket.receive, if_pos hvisible, if_neg Bool.false_ne_true]
      exact h.closed
  · rw [Socket.receive, if_neg hvisible]
    refine ⟨h.good.take, hlt, ?_, h.recent.take⟩
    show socket.delivered = visibleTo socket.auth (socket.reader.take.read history)
    rw [hread, visibleTo_append_of_not hvisible, h.delivered]

/-- Some values are missed. -/
theorem Socket.InOrder.lagged (h : socket.InOrder history) {skipped : ℕ}
    (hbehind : socket.reader.next + skipped + eventCapacity = history.length) (sent : Bool) :
    (socket.receive sent (.lagged skipped)).InOrder history where
  good := h.good.skip skipped
  next_le := by
    show socket.reader.next + skipped ≤ history.length
    omega
  delivered := h.delivered
  recent := Reader.since_skip (by omega)

/-! ### Turns -/

/-- The channel holds the history, and every socket was served in order. -/
structure Delivers (d : c.Documented eventCapacity) (s : System c) : Prop where
  sent : d.sent s.channel = s.history
  inOrder : ∀ k socket, s.sockets k = some socket → socket.InOrder s.history
  cursor : ∀ k socket, s.sockets k = some socket → socket.isOpen = true →
    d.cursor s.channel k = some socket.reader.next

variable {d : c.Documented eventCapacity} {s : System c} {k : κ}

theorem delivers_initial (d : c.Documented eventCapacity) (db : Db) :
    Delivers d (System.initial c db) where
  sent := d.sent_empty
  inOrder _ _ h := nomatch h
  cursor _ _ h := nomatch h

theorem Delivers.publish (h : Delivers d s) (queue : ℕ) : Delivers d (s.publish queue) := by
  unfold System.publish
  split
  · next event rest _ =>
    exact {
      sent := by
        rw [d.sent_send, h.sent]
      inOrder := fun k socket hk => (h.inOrder k socket hk).append event
      cursor := fun k socket hk hopen => by
        rw [d.cursor_send]
        exact h.cursor k socket hk hopen }
  · exact h

theorem Delivers.connect (h : Delivers d s) (k : κ) (auth : AuthContext) :
    Delivers d (s.connect k auth) := by
  unfold System.connect
  cases hsome : s.sockets k with
  | some _ => exact h
  | none =>
    have hnew : Socket.InOrder s.history ⟨auth, true, [], .begin s.history.length⟩ :=
      ⟨Reader.good_begin _, le_rfl, rfl, Reader.since_begin _ _⟩
    refine ⟨(d.sent_subscribe _ _).trans h.sent, fun l socket hl => ?_, fun l socket hl hopen => ?_⟩
    · simp only [Function.update_apply] at hl
      split_ifs at hl
      · obtain rfl := Option.some.inj hl
        exact hnew
      · exact h.inOrder l socket hl
    · rw [d.cursor_subscribe]
      simp only [Function.update_apply] at hl
      split_ifs at hl ⊢
      · obtain rfl := Option.some.inj hl
        rw [h.sent]
        rfl
      · exact h.cursor l socket hl hopen

theorem Delivers.close (h : Delivers d s) (k : κ) : Delivers d (s.close k) := by
  unfold System.close
  cases hsome : s.sockets k with
  | none => exact h
  | some socket =>
    refine ⟨(d.sent_drop _ _).trans h.sent, fun l other hl => ?_, fun l other hl hopen => ?_⟩
    · simp only [Function.update_apply] at hl
      split_ifs at hl
      · obtain rfl := Option.some.inj hl
        exact (h.inOrder k socket hsome).closed
      · exact h.inOrder l other hl
    · simp only [Function.update_apply] at hl
      split_ifs at hl with heq
      · obtain rfl := Option.some.inj hl
        cases hopen
      · rw [d.cursor_drop _ _ _ heq]
        exact h.cursor l other hl hopen

/-- A socket is served by what it receives, and its cursor moves on with its reader. -/
theorem Delivers.receive (h : Delivers d s) {socket : Socket} (hsocket : s.sockets k = some socket)
    (hopen : socket.isOpen = true) {received : Received TenantEvent}
    (hrecv : (c.recv s.channel k).1 = some received) (sent : Bool) :
    (socket.receive sent received).InOrder s.history ∧
      ((socket.receive sent received).isOpen = true →
        d.cursor (c.recv s.channel k).2 k = some (socket.receive sent received).reader.next) := by
  have hinOrder := h.inOrder k socket hsocket
  have hle : socket.reader.next ≤ (d.sent s.channel).length := by
    rw [h.sent]
    exact hinOrder.next_le
  rcases d.recv_cases (h.cursor k socket hsocket hopen) hle with ⟨event, -, hget, hvalue, hcursor⟩ |
    ⟨skipped, -, hbehind, hlagged, hcursor⟩ | ⟨-, hnone, -⟩
  · obtain rfl := Option.some.inj (hvalue.symm.trans hrecv)
    rw [h.sent] at hget
    refine ⟨hinOrder.value hget sent, fun hstill => ?_⟩
    rw [hcursor, Socket.receive_value_reader hstill]
    rfl
  · obtain rfl := Option.some.inj (hlagged.symm.trans hrecv)
    rw [h.sent] at hbehind
    exact ⟨hinOrder.lagged hbehind sent, fun _ => hcursor⟩
  · rw [hnone] at hrecv
    cases hrecv

theorem Delivers.poll (h : Delivers d s) (k : κ) (sent : Bool) : Delivers d (s.poll k sent) := by
  unfold System.poll
  cases hsome : s.sockets k with
  | none => exact h
  | some socket =>
    by_cases hclosed : socket.isOpen = false
    · simp only [if_pos hclosed]
      exact h
    · have hopen : socket.isOpen = true := Bool.not_eq_false _ ▸ hclosed
      simp only [if_neg hclosed]
      cases hrecv : (c.recv s.channel k).1 with
      | none =>
        have hinOrder := h.inOrder k socket hsome
        have hcursor : d.cursor (c.recv s.channel k).2 k = some socket.reader.next := by
          rcases d.recv_cases (h.cursor k socket hsome hopen) (by rw [h.sent]; exact hinOrder.next_le)
            with ⟨_, -, -, hvalue, -⟩ | ⟨_, -, -, hlagged, -⟩ | ⟨-, -, hcursor⟩
          · rw [hvalue] at hrecv
            cases hrecv
          · rw [hlagged] at hrecv
            cases hrecv
          · exact hcursor
        refine ⟨(d.sent_recv _ _).trans h.sent, h.inOrder, fun l other hl hother => ?_⟩
        by_cases heq : l = k
        · subst heq
          obtain rfl := Option.some.inj (hsome.symm.trans hl)
          exact hcursor
        · exact (d.cursor_recv _ _ _ heq).trans (h.cursor l other hl hother)
      | some received =>
        obtain ⟨hinOrder, hcursor⟩ := h.receive hsome hopen hrecv sent
        refine ⟨?_, fun l other hl => ?_, fun l other hl hother => ?_⟩
        · show d.sent (if _ then _ else _) = _
          split_ifs
          · exact (d.sent_recv _ _).trans h.sent
          · exact (d.sent_drop _ _).trans ((d.sent_recv _ _).trans h.sent)
        · simp only [Function.update_apply] at hl
          split_ifs at hl
          · obtain rfl := Option.some.inj hl
            exact hinOrder
          · exact h.inOrder l other hl
        · show d.cursor (if _ then _ else _) l = _
          simp only [Function.update_apply] at hl
          split_ifs at hl with heq
          · subst heq
            obtain rfl := Option.some.inj hl
            rw [if_pos hother]
            exact hcursor hother
          · have hsame : d.cursor (c.recv s.channel k).2 l = some other.reader.next :=
              (d.cursor_recv _ _ _ heq).trans (h.cursor l other hl hother)
            split_ifs
            · exact hsame
            · exact (d.cursor_drop _ _ _ heq).trans hsame

theorem System.step_refused {server : Server} {request : WsRequest} {reply : Reply}
    (h : server.upgrade request = .error reply) :
    s.step server (.connect k request) = (some reply, s) := by
  rw [System.step, h]

theorem System.step_connect {server : Server} {request : WsRequest} {auth : AuthContext}
    (h : server.upgrade request = .ok auth) :
    s.step server (.connect k request) = (none, s.connect k auth) := by
  rw [System.step, h]

/-- **Every turn serves the sockets in order.** -/
theorem Delivers.step (h : Delivers d s) (server : Server) (turn : Turn κ) :
    Delivers d (s.step server turn).2 := by
  cases turn with
  | request request => exact ⟨h.sent, h.inOrder, h.cursor⟩
  | publish queue => exact h.publish queue
  | connect k request =>
    cases hup : server.upgrade request with
    | error reply =>
      rw [System.step_refused hup]
      exact h
    | ok auth =>
      rw [System.step_connect hup]
      exact h.connect k auth
  | poll k sent => exact h.poll k sent
  | close k => exact h.close k

theorem Delivers.run (h : Delivers d s) (server : Server) (turns : List (Turn κ)) :
    Delivers d (Machine.final (System.step server) s turns) :=
  Machine.final_induct turns h fun _ hs turn _ => hs.step server turn

/-! ### What stays -/

/-- Events stay published, and sockets keep their caller and their beginning. -/
structure Follows (s t : System c) : Prop where
  history : s.history <+: t.history
  sockets : ∀ k socket, s.sockets k = some socket → ∃ socket', t.sockets k = some socket' ∧
    socket'.auth = socket.auth ∧ socket'.reader.start = socket.reader.start

variable {t u : System c}

omit [DecidableEq κ] in
theorem Follows.refl (s : System c) : Follows s s :=
  ⟨List.prefix_rfl, fun _ socket h => ⟨socket, h, rfl, rfl⟩⟩

omit [DecidableEq κ] in
theorem Follows.trans (h : Follows s t) (h' : Follows t u) : Follows s u where
  history := h.history.trans h'.history
  sockets k socket hk := by
    obtain ⟨socket', hk', hauth, hstart⟩ := h.sockets k socket hk
    obtain ⟨socket'', hk'', hauth', hstart'⟩ := h'.sockets k socket' hk'
    exact ⟨socket'', hk'', hauth'.trans hauth, hstart'.trans hstart⟩

/-- One socket changes. -/
theorem Follows.update {socket socket' : Socket} (hk : s.sockets k = some socket)
    (hhistory : t.history = s.history)
    (hsockets : t.sockets = Function.update s.sockets k (some socket'))
    (hauth : socket'.auth = socket.auth) (hstart : socket'.reader.start = socket.reader.start) :
    Follows s t where
  history := by rw [hhistory]
  sockets l other hl := by
    rw [hsockets, Function.update_apply]
    by_cases heq : l = k
    · subst heq
      obtain rfl := Option.some.inj (hk.symm.trans hl)
      exact ⟨socket', if_pos rfl, hauth, hstart⟩
    · exact ⟨other, (if_neg heq).trans hl, rfl, rfl⟩

theorem Socket.receive_auth (sent : Bool) (received : Received TenantEvent) :
    (socket.receive sent received).auth = socket.auth := by
  cases received with
  | value event =>
    simp only [Socket.receive]
    split_ifs <;> rfl
  | lagged skipped => rfl

theorem Socket.receive_start (sent : Bool) (received : Received TenantEvent) :
    (socket.receive sent received).reader.start = socket.reader.start := by
  cases received with
  | value event =>
    simp only [Socket.receive]
    split_ifs <;> rfl
  | lagged skipped => rfl

/-- A socket that takes what it is sent stays open. -/
theorem Socket.receive_isOpen (received : Received TenantEvent) :
    (socket.receive true received).isOpen = socket.isOpen := by
  cases received with
  | value event =>
    simp only [Socket.receive, if_true]
    split_ifs <;> rfl
  | lagged skipped => rfl

omit [DecidableEq κ] in
theorem System.follows_publish (s : System c) (queue : ℕ) : Follows s (s.publish queue) := by
  unfold System.publish
  split
  · exact ⟨List.prefix_append _ _, (Follows.refl s).sockets⟩
  · exact Follows.refl s

theorem System.follows_connect (s : System c) (k : κ) (auth : AuthContext) :
    Follows s (s.connect k auth) := by
  unfold System.connect
  cases hfree : s.sockets k with
  | some _ => exact Follows.refl s
  | none =>
    refine ⟨List.prefix_rfl, fun l socket hl => ⟨socket, ?_, rfl, rfl⟩⟩
    show Function.update s.sockets k _ l = some socket
    rw [Function.update_of_ne ?_, hl]
    rintro rfl
    rw [hfree] at hl
    cases hl

theorem System.follows_poll (s : System c) (k : κ) (sent : Bool) : Follows s (s.poll k sent) := by
  unfold System.poll
  cases hk : s.sockets k with
  | none => exact Follows.refl s
  | some socket =>
    by_cases hclosed : socket.isOpen = false
    · simp only [if_pos hclosed]
      exact Follows.refl s
    · simp only [if_neg hclosed]
      cases (c.recv s.channel k).1 with
      | none => exact ⟨List.prefix_rfl, (Follows.refl s).sockets⟩
      | some received =>
        exact Follows.update hk rfl rfl (Socket.receive_auth sent received)
          (Socket.receive_start sent received)

theorem System.follows_close (s : System c) (k : κ) : Follows s (s.close k) := by
  unfold System.close
  cases hk : s.sockets k with
  | none => exact Follows.refl s
  | some socket => exact Follows.update hk rfl rfl rfl rfl

theorem System.follows_step (server : Server) (s : System c) (turn : Turn κ) :
    Follows s (s.step server turn).2 := by
  cases turn with
  | request request => exact ⟨List.prefix_rfl, (Follows.refl s).sockets⟩
  | publish queue => exact s.follows_publish queue
  | connect k request =>
    cases hup : server.upgrade request with
    | error reply =>
      rw [System.step_refused hup]
      exact Follows.refl s
    | ok auth =>
      rw [System.step_connect hup]
      exact s.follows_connect k auth
  | poll k sent => exact s.follows_poll k sent
  | close k => exact s.follows_close k

theorem System.follows_run (server : Server) (s : System c) (turns : List (Turn κ)) :
    Follows s (Machine.final (System.step server) s turns) :=
  Machine.final_induct turns (Follows.refl s) fun t ht turn _ =>
    ht.trans (t.follows_step server turn)

/-! ### Catching up -/

/-- One turn of the loop, with a socket that takes what it is sent: nothing is left to
receive, or the next event is received, or the oldest one that is kept is the next. -/
theorem Delivers.poll_next (h : Delivers d s) (hsocket : s.sockets k = some socket)
    (hopen : socket.isOpen = true) : ∃ socket', (s.poll k true).sockets k = some socket' ∧
      socket'.isOpen = true ∧ (s.poll k true).history = s.history ∧
      s.history.length ≤ socket'.reader.next + eventCapacity ∧
      (s.history.length ≤ socket.reader.next + eventCapacity →
        s.history.length ≤ socket'.reader.next ∨
          socket'.reader.next = socket.reader.next + 1) := by
  have hreceived : ∀ received, (c.recv s.channel k).1 = some received →
      (s.poll k true).sockets k = some (socket.receive true received) ∧
        (socket.receive true received).isOpen = true ∧ (s.poll k true).history = s.history := by
    intro received hrecv
    refine ⟨?_, (Socket.receive_isOpen received).trans hopen, ?_⟩
    · simp only [System.poll, hsocket, hopen, hrecv, Bool.true_eq_false, if_false,
        Function.update_self]
    · simp only [System.poll, hsocket, hopen, hrecv, Bool.true_eq_false, if_false]
  have hle : socket.reader.next ≤ (d.sent s.channel).length := by
    rw [h.sent]
    exact (h.inOrder k socket hsocket).next_le
  rcases d.recv_cases (h.cursor k socket hsocket hopen) hle with
    ⟨event, hkept, -, hvalue, -⟩ | ⟨skipped, hpos, hbehind, hlagged, -⟩ | ⟨hend, hnone, -⟩
  · obtain ⟨hpoll, hstill, hhistory⟩ := hreceived _ hvalue
    rw [h.sent] at hkept
    have hnext : (socket.receive true (.value event)).reader.next = socket.reader.next + 1 := by
      rw [Socket.receive_value_reader hstill]
      rfl
    exact ⟨_, hpoll, hstill, hhistory, by omega, fun _ => Or.inr hnext⟩
  · obtain ⟨hpoll, hstill, hhistory⟩ := hreceived _ hlagged
    rw [h.sent] at hbehind
    have hnext : (socket.receive true (.lagged skipped)).reader.next
        = socket.reader.next + skipped := rfl
    exact ⟨_, hpoll, hstill, hhistory, by omega, fun hkept => by omega⟩
  · have hpoll : s.poll k true = { s with channel := (c.recv s.channel k).2 } := by
      simp only [System.poll, hsocket, hopen, hnone, Bool.true_eq_false, if_false]
    rw [h.sent] at hend
    rw [hpoll]
    exact ⟨socket, hsocket, hopen, rfl, by omega, fun _ => Or.inl (by omega)⟩

theorem System.final_poll (server : Server) (s : System c) (k : κ) (n : ℕ) :
    Machine.final (System.step server) s (List.replicate (n + 1) (.poll k true))
      = Machine.final (System.step server) (s.poll k true) (List.replicate n (.poll k true)) := by
  rw [List.replicate_succ, Machine.final_cons]
  rfl

/-- A socket that is not behind the channel receives the rest in as many turns. -/
theorem Delivers.poll_rest (server : Server) (n : ℕ) : ∀ {s : System c} {socket : Socket},
    Delivers d s → s.sockets k = some socket → socket.isOpen = true →
    s.history.length ≤ socket.reader.next + eventCapacity →
    s.history.length ≤ socket.reader.next + n →
    ∃ socket', (Machine.final (System.step server) s
        (List.replicate n (.poll k true))).sockets k = some socket' ∧
      (Machine.final (System.step server) s (List.replicate n (.poll k true))).history = s.history ∧
      socket'.reader.next = s.history.length := by
  induction n with
  | zero =>
    intro s socket h hsocket _ _ hrest
    have hle := (h.inOrder k socket hsocket).next_le
    exact ⟨socket, hsocket, rfl, by omega⟩
  | succ n ih =>
    intro s socket h hsocket hopen hkept hrest
    obtain ⟨socket', hsocket', hopen', hhistory, hkept', hnext⟩ := h.poll_next hsocket hopen
    rw [System.final_poll]
    have hafter : (s.poll k true).history.length ≤ socket'.reader.next + n := by
      rw [hhistory]
      have hcases := hnext hkept
      omega
    have hkept' : (s.poll k true).history.length ≤ socket'.reader.next + eventCapacity := by
      rw [hhistory]
      exact hkept'
    obtain ⟨socket'', hsocket'', hhistory'', hnext''⟩ :=
      ih (h.poll k true) hsocket' hopen' hkept' hafter
    exact ⟨socket'', hsocket'', hhistory''.trans hhistory, hnext''.trans (congrArg _ hhistory)⟩

/-- **One turn more than the channel has places, and a socket has caught up.** -/
theorem Delivers.caught_up (h : Delivers d s) (server : Server) (hsocket : s.sockets k = some socket)
    (hopen : socket.isOpen = true) : ∃ socket', (Machine.final (System.step server) s
        (List.replicate (eventCapacity + 1) (.poll k true))).sockets k = some socket' ∧
      (Machine.final (System.step server) s
        (List.replicate (eventCapacity + 1) (.poll k true))).history = s.history ∧
      socket'.reader.next = s.history.length := by
  obtain ⟨socket', hsocket', hopen', hhistory, hkept, -⟩ := h.poll_next hsocket hopen
  have hkept : (s.poll k true).history.length ≤ socket'.reader.next + eventCapacity := by
    rw [hhistory]
    exact hkept
  obtain ⟨socket'', hsocket'', hhistory'', hnext⟩ :=
    (h.poll k true).poll_rest server eventCapacity hsocket' hopen' hkept hkept
  rw [System.final_poll]
  exact ⟨socket'', hsocket'', hhistory''.trans hhistory, hnext.trans (congrArg _ hhistory)⟩

/-! ### What a socket was sent, over a run -/

/-- Sockets are sent a part of what was published since they were opened. -/
theorem Socket.InOrder.sublist {published before : List TenantEvent}
    (h : socket.InOrder (before ++ published)) (hstart : socket.reader.start = before.length) :
    socket.delivered.Sublist (visibleTo socket.auth published) := by
  have hread := h.good.read_sublist (before ++ published)
  rw [hstart, List.drop_left] at hread
  rw [h.delivered]
  exact hread.filter _

/-- While the channel can hold what was published since, nothing is left out. -/
theorem Socket.InOrder.begins {published before : List TenantEvent}
    (h : socket.InOrder (before ++ published)) (hstart : socket.reader.start = before.length)
    (hfew : published.length ≤ eventCapacity) :
    socket.delivered <+: visibleTo socket.auth published := by
  have hsince : socket.reader.Since socket.reader.start := by
    refine h.recent.mono ?_
    rw [List.length_append]
    omega
  rw [h.delivered, h.good.read_eq hsince h.next_le, hstart, List.drop_left]
  exact (List.take_prefix _ _).filter _

/-- A socket that has caught up has been sent the last events that it may see. -/
theorem Socket.InOrder.ends {published before : List TenantEvent}
    (h : socket.InOrder (before ++ published)) (hstart : socket.reader.start = before.length)
    (hend : socket.reader.next = (before ++ published).length) :
    visibleTo socket.auth (published.drop (published.length - eventCapacity)) <:+
      socket.delivered := by
  have hlength : (before ++ published).length = before.length + published.length :=
    List.length_append
  have hsince : socket.reader.Since (before.length + (published.length - eventCapacity)) :=
    h.recent.mono (by omega)
  have hread := h.good.read_from hsince (by omega) (by omega) h.next_le
  have hall : (before ++ published).drop (before.length + (published.length - eventCapacity))
      = published.drop (published.length - eventCapacity) := List.drop_length_add_append _
  rw [hall, List.take_of_length_le (by rw [List.length_drop]; omega)] at hread
  rw [h.delivered]
  exact hread.filter _

/-- A socket is opened. -/
theorem System.connect_free (hfree : s.sockets k = none) (auth : AuthContext) :
    (s.connect k auth).sockets k = some ⟨auth, true, [], .begin s.history.length⟩ ∧
      (s.connect k auth).history = s.history := by
  simp only [System.connect, hfree, Function.update_self, and_self]

/-- **A socket is sent the events that it may see, in order.**  In every run and however
the requests, the publications and the turns of the sockets interleave, a socket has been
sent some of the events that its caller may see among those published since it was
opened, in the order of publication and each at most once: the first ones of them, as long
as there are not more than the channel holds.  If it is open, then 513 turns of its loop
are enough for it to have been sent the last 512 events as far as its caller may see
them. -/
theorem socket_deliveries (d : c.Documented eventCapacity) (server : Server) (db : Db)
    {before after : List (Turn κ)} {request : WsRequest} {auth : AuthContext}
    (hs : Machine.final (System.step server) (System.initial c db) before = s)
    (hfree : s.sockets k = none) (hupgrade : server.upgrade request = .ok auth)
    (ht : Machine.final (System.step server) s (.connect k request :: after) = t) :
    ∃ socket published, t.sockets k = some socket ∧ socket.auth = auth ∧
      t.history = s.history ++ published ∧
      socket.delivered.Sublist (visibleTo auth published) ∧
      (published.length ≤ eventCapacity → socket.delivered <+: visibleTo auth published) ∧
      (socket.isOpen = true → ∃ caughtUp, (Machine.final (System.step server) t
          (List.replicate (eventCapacity + 1) (.poll k true))).sockets k = some caughtUp ∧
        caughtUp.delivered.Sublist (visibleTo auth published) ∧
        visibleTo auth (published.drop (published.length - eventCapacity)) <:+
          caughtUp.delivered) := by
  rw [Machine.final_cons, System.step_connect hupgrade] at ht
  obtain ⟨hnew, hsame⟩ := System.connect_free hfree auth
  have hdelivers : Delivers d t := by
    rw [← ht]
    refine Delivers.run (Delivers.connect ?_ k auth) server after
    rw [← hs]
    exact (delivers_initial d db).run server before
  have hfollows : Follows (s.connect k auth) t := by
    rw [← ht]
    exact System.follows_run server _ after
  obtain ⟨published, hhistory⟩ := hfollows.history
  rw [hsame] at hhistory
  obtain ⟨socket, hsocket, rfl, hstart⟩ := hfollows.sockets k _ hnew
  have hinOrder := hdelivers.inOrder k socket hsocket
  rw [← hhistory] at hinOrder
  refine ⟨socket, published, hsocket, rfl, hhistory.symm, hinOrder.sublist hstart,
    hinOrder.begins hstart, fun hopen => ?_⟩
  obtain ⟨caughtUp, hcaught, hquiet, hend⟩ := hdelivers.caught_up server hsocket hopen
  have hlater := (hdelivers.run server (List.replicate (eventCapacity + 1) (.poll k true))).inOrder
    k caughtUp hcaught
  obtain ⟨socket', hsocket', hauth, hbegin⟩ := (System.follows_run server t
    (List.replicate (eventCapacity + 1) (.poll k true))).sockets k socket hsocket
  obtain rfl := Option.some.inj (hcaught.symm.trans hsocket')
  rw [hquiet, ← hhistory] at hlater
  rw [← hhistory] at hend
  rw [← hauth]
  exact ⟨caughtUp, hcaught, hlater.sublist (hbegin.trans hstart),
    hlater.ends (hbegin.trans hstart) hend⟩

end System

namespace Lobby

/-- The office, with a page that opens sockets. -/
def server : Server :=
  { Office.server with
    state := { Office.server.state with
      allowedOrigins := [⟨Text.utf8 "http://localhost:8081".toList⟩] } }

def channel : Channel TenantEvent ℕ := Log.channel TenantEvent ℕ eventCapacity

def documented : channel.Documented eventCapacity := Log.documented TenantEvent ℕ eventCapacity

/-- The administrator opens a socket from the page. -/
def visit : WsRequest where
  headers := ("origin", ⟨Text.utf8 "http://localhost:8081".toList⟩) :: Office.mine.headers
  upgrade := .ok ()
  now := 1950000000
  inClock := Deployment.inClock_now

theorem upgrade_visit : server.upgrade visit = .ok (memberContext (Office.ada 1)) := by decide

/-- A rule is created and its event published before the socket is opened. -/
def earlier : List (Turn ℕ) := [.request Office.mine, .publish 0]

def opening : System channel :=
  Machine.final (System.step server) (System.initial channel Db.empty) earlier

/-- Two more rules of the tenant and one of a stranger, published in another order than they
were created, with the socket polled in between. -/
def later : List (Turn ℕ) :=
  [.request (Office.create "00000000-0000-0000-0000-000000000001" 60), .request Office.strange,
    .request (Office.create "00000000-0000-0000-0000-000000000001" 70), .publish 3, .poll 0 true,
    .publish 2, .publish 1, .poll 0 true, .poll 0 true]

def closing : System channel :=
  Machine.final (System.step server) opening (.connect 0 visit :: later)

end Lobby

open Lobby in
/-- An administrator is sent the events of its tenant that were published since the socket was
opened, in that order, and not the one of a stranger between them. -/
theorem socket_deliveries_lobby : ∃ socket first hidden last, closing.sockets 0 = some socket ∧
    closing.history = opening.history ++ [first, hidden, last] ∧ opening.history.length = 1 ∧
    hidden.tenantId = 2 ∧ first ≠ last ∧ socket.delivered = [first, last] := by
  have hrun : (opening.sockets 0).isNone = true ∧ opening.history.length = 1 ∧
      (closing.history.drop 1).map TenantEvent.tenantId = [1, 2, 1] ∧
      (closing.history.drop 1).Nodup ∧
      (closing.history.drop 1).map (eventVisibleTo · (memberContext (Office.ada 1)))
        = [true, false, true] ∧
      (closing.sockets 0).map (fun socket => socket.delivered.length) = some 2 := by
    decide +kernel
  obtain ⟨hnone, hbefore, htenants, hdistinct, hvisible, hcount⟩ := hrun
  have hfree : opening.sockets 0 = none := Option.isNone_iff_eq_none.mp hnone
  obtain ⟨socket, published, hsocket, -, hhistory, -, hbegins, -⟩ :=
    socket_deliveries (s := opening) (t := closing) documented server Db.empty rfl hfree
      upgrade_visit rfl
  rw [hhistory, ← hbefore, List.drop_left] at htenants hdistinct hvisible
  have hlength : published.length = 3 := by
    have h := congrArg List.length htenants
    rwa [List.length_map] at h
  obtain ⟨first, hidden, last, rfl⟩ := List.length_eq_three.mp hlength
  simp only [List.map_cons, List.map_nil, List.cons.injEq, and_true] at htenants hvisible
  obtain ⟨hfirst, hhidden, hlast⟩ := hvisible
  have hseen : visibleTo (memberContext (Office.ada 1)) [first, hidden, last] = [first, last] := by
    simp only [visibleTo, List.filter_cons, List.filter_nil, hfirst, hhidden, hlast, if_true,
      Bool.false_eq_true, if_false]
  have hdelivered := hbegins (by rw [hlength]; decide)
  rw [hsocket] at hcount
  rw [hseen] at hdelivered
  have hall : socket.delivered.length = [first, last].length := Option.some.inj hcount
  refine ⟨socket, first, hidden, last, hsocket, hhistory, hbefore, htenants.2.1, ?_,
    hdelivered.eq_of_length hall⟩
  intro hsame
  rw [hsame] at hdistinct
  exact (List.nodup_cons.mp hdistinct).1 (List.mem_cons_of_mem hidden List.mem_cons_self)

end EmbeddedAlerts
