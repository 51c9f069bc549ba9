import WispRelay.Relay.Tables

/-!
# The sockets of the clients

`ws_server_init` gives the HTTP server library a `close_fn`.  The library then leaves it to this
callback to close the socket of a session that ends, whatever ended it: the client, a CLOSE
frame, an error, the purge of the least recently used session, or `on_open` refusing it.
`on_close` frees what the relay keeps for the connection and does not close the socket.

* `httpdSessDelete`: how the library ends a session, with and without a `close_fn`.
* `sockets_card`: every socket that was ever passed to `on_open` is still open.
* `sockets_kept_iff`: no socket is leaked in a run exactly when no session ends in it and at
  most eight are opened.
-/

namespace WispRelay
namespace Relay

open Interference Runs Storage

/-! ## Sockets and sessions -/

/-- The relay with the sockets of its clients. -/
structure SocketWorld where
  relay : RelayState
  /-- The number of sockets passed to `on_open`. -/
  opened : Nat
  /-- The client sockets that are open. -/
  sockets : Finset Int32
  /-- The sessions whose `on_close` has returned. -/
  ended : List Nat
  /-- The sessions whose socket was closed, once for each `close`. -/
  closed : List Nat

namespace SocketWorld

/-- The number of the session that has the descriptor. -/
def sessionOf
    (s : SocketWorld)
    (fd : Int32) : List Nat :=
  ((s.relay.ws.sessions fd).map Session.number).toList

/-- `close(sockfd)`. -/
def closeSocket
    (s : SocketWorld)
    (fd : Int32) : SocketWorld :=
  { s with
    sockets := s.sockets.erase fd
    closed := s.closed ++ s.sessionOf fd }

/-- `on_close`: the disconnect callback, and the slot of the connection. -/
def onCloseFn
    (s : SocketWorld)
    (fd : Int32) : SocketWorld :=
  let relay := onWsDisconnect s.relay fd
  { s with relay := { relay with ws := onClose relay.ws fd } }

end SocketWorld

/-- The callback of `httpd_config_t` for a session that ends. -/
structure HttpdConfig where
  closeFn : Option (SocketWorld → Int32 → SocketWorld)

/-- What `ws_server_init` configures. -/
def wsServerConfig : HttpdConfig where
  closeFn := some SocketWorld.onCloseFn

/-- The library ends a session; without a `close_fn` it closes the socket itself. -/
def httpdSessDelete
    (config : HttpdConfig)
    (s : SocketWorld)
    (fd : Int32) : SocketWorld :=
  let left :=
    match config.closeFn with
    | some closeFn => closeFn s fd
    | none => s.closeSocket fd
  { left with
    relay := { left.relay with ws := endSession left.relay.ws fd }
    ended := left.ended ++ s.sessionOf fd }

/-- The library accepts a client and calls `on_open`. -/
def acceptClient
    (lib : Libnostr)
    (ctx : RelayCtx)
    (s : SocketWorld)
    (fd : Int32) : SocketWorld :=
  { s with
    relay := relayStep lib ctx s.relay (.opened fd)
    opened := s.opened + 1
    sockets := insert fd s.sockets }

/-- One event; a session that `on_open` refuses ends at once. -/
def socketStep
    (lib : Libnostr)
    (ctx : RelayCtx)
    (s : SocketWorld) : RelayEvent → SocketWorld
  | .opened fd =>
      if (onOpen s.relay.ws fd).1 then acceptClient lib ctx s fd
      else httpdSessDelete wsServerConfig (acceptClient lib ctx s fd) fd
  | .closed fd => httpdSessDelete wsServerConfig s fd
  | event => { s with relay := relayStep lib ctx s.relay event }

/-- The machine of the sockets. -/
def socketMachine
    (lib : Libnostr)
    (ctx : RelayCtx)
    (s : SocketWorld)
    (event : RelayEvent) : Unit × SocketWorld :=
  ((), socketStep lib ctx s event)

/-- The relay just started, without a client. -/
def noClients
    (storage : LoggedWorld) : SocketWorld where
  relay := startRelay storage
  opened := 0
  sockets := ∅
  ended := []
  closed := []

/-- What the library does, and no new socket gets the descriptor of an open one. -/
def SocketAllows
    (s : SocketWorld)
    (event : RelayEvent) : Prop :=
  HttpdAllows s.relay event ∧ ∀ fd, event = .opened fd → fd ∉ s.sockets

/-- The socket of an ended session was closed once; no more are open than there are sessions. -/
structure NoLeak
    (s : SocketWorld) : Prop where
  closedOnce : ∀ number ∈ s.ended, s.closed.count number = 1
  sockets_le : s.sockets.card ≤ s.opened - s.ended.length

/-- Whether the event opens a session. -/
def RelayEvent.isOpened : RelayEvent → Bool
  | .opened _ => true
  | _ => false

/-- Whether the event ends a session. -/
def RelayEvent.isClosed : RelayEvent → Bool
  | .closed _ => true
  | _ => false

/-- No session ends, and none has to be refused. -/
def NoSessionEnds
    (events : List RelayEvent) : Prop :=
  (∀ event ∈ events, event.isClosed = false) ∧
    events.countP RelayEvent.isOpened ≤ wsMaxConnections

theorem noSessionEnds_snoc
    {past : List RelayEvent}
    {event : RelayEvent} :
    NoSessionEnds (past ++ [event]) ↔
      NoSessionEnds past ∧ event.isClosed = false ∧
        (event.isOpened = true → past.countP RelayEvent.isOpened < wsMaxConnections) := by
  have hall : (∀ e ∈ past ++ [event], e.isClosed = false) ↔
      (∀ e ∈ past, e.isClosed = false) ∧ event.isClosed = false := by
    simp [or_imp, forall_and]
  rw [NoSessionEnds, NoSessionEnds, hall, List.countP_append, List.countP_singleton]
  by_cases hopened : event.isOpened = true
  · simp only [hopened, if_true, true_imp_iff]
    constructor
    · rintro ⟨⟨hpast, hevent⟩, hle⟩
      exact ⟨⟨hpast, by omega⟩, hevent, by omega⟩
    · rintro ⟨⟨hpast, -⟩, hevent, hlt⟩
      exact ⟨⟨hpast, hevent⟩, hlt⟩
  · simp only [hopened]
    constructor
    · rintro ⟨⟨hpast, hevent⟩, hle⟩
      exact ⟨⟨hpast, hle⟩, hevent, fun h => absurd h (by simp)⟩
    · rintro ⟨⟨hpast, hle⟩, hevent, -⟩
      exact ⟨⟨hpast, hevent⟩, hle⟩

/-! ## Frames leave the connections alone -/

theorem frame_connected
    (lib : Libnostr)
    (ctx : RelayCtx)
    (s : RelayState)
    (connFd : Int32)
    (len : Nat)
    (parsed : Option NostrClientMsg)
    (env : DispatchEnv) :
    (relayStep lib ctx s (.frame connFd len parsed env)).ws.connected = s.ws.connected := by
  have hkeep : ∀ (c : RelayCall) (h : Handling), True →
      h.state.ws.connected = s.ws.connected →
      (relayCall lib env c h).2.state.ws.connected = s.ws.connected := by
    intro c h _ hsame
    cases c with
    | wsSend fd message text =>
        have htables := wsServerSend_tables (h.turns 0).send h.state.ws fd message text
        rw [← hsame]
        simp only [relayCall, relayEffect, WsServer.connected, htables.1]
    | _ => exact hsame
  exact Prog.run_keeps (I := fun h : Handling => h.state.ws.connected = s.ws.connected)
    hkeep (Prog.Calls.unrestricted _) (s := arrived s connFd env) rfl

/-! ## What a run keeps -/

section Delete

variable
  (lib : Libnostr)
  (ctx : RelayCtx)
  (s : SocketWorld)
  (fd : Int32)

/-- `on_close` closes no socket. -/
@[simp] theorem httpdSessDelete_sockets :
    (httpdSessDelete wsServerConfig s fd).sockets = s.sockets := rfl

@[simp] theorem httpdSessDelete_closed :
    (httpdSessDelete wsServerConfig s fd).closed = s.closed := rfl

@[simp] theorem httpdSessDelete_opened :
    (httpdSessDelete wsServerConfig s fd).opened = s.opened := rfl

theorem httpdSessDelete_relay :
    (httpdSessDelete wsServerConfig s fd).relay = relayStep lib ctx s.relay (.closed fd) := rfl

/-- The session that ends is recorded. -/
theorem httpdSessDelete_ended
    (hsession : s.relay.ws.sessions fd ≠ none) :
    (httpdSessDelete wsServerConfig s fd).ended ≠ [] := by
  obtain ⟨session, hsome⟩ := Option.ne_none_iff_exists'.mp hsession
  simp [httpdSessDelete, SocketWorld.sessionOf, wsServerConfig, SocketWorld.onCloseFn, hsome]

end Delete

/-- What is known of the sockets after a run. -/
structure SocketInv
    (past : List RelayEvent)
    (s : SocketWorld) : Prop where
  agree : Agree s.relay
  closed : s.closed = []
  opened : s.opened = past.countP RelayEvent.isOpened
  sockets : s.sockets.card = s.opened
  ended_iff : s.ended = [] ↔ NoSessionEnds past
  connected : s.ended = [] → s.relay.ws.connected.card = s.opened

namespace SocketInv

variable
  {lib : Libnostr}
  {ctx : RelayCtx}
  {past : List RelayEvent}
  {s : SocketWorld}

theorem start
    (storage : LoggedWorld) :
    SocketInv [] (noClients storage) where
  agree := agree_startRelay storage
  closed := rfl
  opened := rfl
  sockets := rfl
  ended_iff := iff_of_true rfl ⟨by simp, Nat.zero_le _⟩
  connected := fun _ => rfl

/-- A session that has ended is a leak. -/
theorem noLeak_iff
    (h : SocketInv past s) :
    NoLeak s ↔ s.ended = [] := by
  constructor
  · intro hleak
    rw [List.eq_nil_iff_forall_not_mem]
    intro number hmem
    have honce := hleak.closedOnce number hmem
    rw [h.closed] at honce
    simp at honce
  · intro hnone
    constructor
    · rw [hnone]
      simp
    · rw [hnone, h.sockets]
      exact Nat.le_refl _

/-- An event that neither opens nor ends a session. -/
theorem other
    (h : SocketInv past s)
    {event : RelayEvent}
    (hopened : event.isOpened = false)
    (hclosed : event.isClosed = false)
    {relay : RelayState}
    (hagree : Agree relay)
    (hconnected : relay.ws.connected = s.relay.ws.connected) :
    SocketInv (past ++ [event]) { s with relay := relay } where
  agree := hagree
  closed := h.closed
  opened := by
    rw [List.countP_append, List.countP_singleton, hopened]
    exact h.opened
  sockets := h.sockets
  ended_iff := by
    rw [noSessionEnds_snoc, hopened, hclosed]
    exact h.ended_iff.trans ⟨fun hpast => ⟨hpast, rfl, by simp⟩, fun hpast => hpast.1⟩
  connected := by
    rw [hconnected]
    exact h.connected

/-- A session ends. -/
theorem finish
    (h : SocketInv past s)
    {fd : Int32}
    (hallowed : HttpdAllows s.relay (.closed fd)) :
    SocketInv (past ++ [.closed fd]) (httpdSessDelete wsServerConfig s fd) where
  agree := by
    rw [httpdSessDelete_relay (Sample.library []) startedCtx]
    exact relayStep_agree _ _ hallowed h.agree
  closed := h.closed
  opened := by
    rw [List.countP_append]
    exact h.opened
  sockets := h.sockets
  ended_iff := by
    refine iff_of_false (httpdSessDelete_ended s fd hallowed) ?_
    rw [noSessionEnds_snoc]
    rintro ⟨-, hclosed, -⟩
    cases hclosed
  connected := fun hnone => absurd hnone (httpdSessDelete_ended s fd hallowed)

/-- A client connects. -/
theorem accept
    (h : SocketInv past s)
    {fd : Int32}
    (hallowed : SocketAllows s (.opened fd)) :
    SocketInv (past ++ [.opened fd]) (socketStep lib ctx s (.opened fd)) := by
  obtain ⟨hsession, hfresh⟩ := hallowed
  have hnone : s.relay.ws.sessions fd = none := hsession
  have hnew : fd ∉ s.relay.ws.connected := by
    rw [h.agree.sessions]
    rintro ⟨session, hsome, -⟩
    rw [hnone] at hsome
    cases hsome
  have hagree := relayStep_agree lib ctx hsession h.agree
  have hcount : (past ++ [RelayEvent.opened fd]).countP RelayEvent.isOpened =
      past.countP RelayEvent.isOpened + 1 := by
    rw [List.countP_append]
    rfl
  have hcard : (insert fd s.sockets).card = s.opened + 1 := by
    rw [Finset.card_insert_of_notMem (hfresh fd rfl), h.sockets]
  obtain ⟨-, haccepts, -⟩ := onOpen_spec h.agree.connections hnew
  obtain ⟨-, hconnected, hsessions⟩ := openSession_spec h.agree.connections hnew
  change SocketInv _ (if (onOpen s.relay.ws fd).1 then acceptClient lib ctx s fd
    else httpdSessDelete wsServerConfig (acceptClient lib ctx s fd) fd)
  by_cases haccepted : (onOpen s.relay.ws fd).1 = true
  · rw [if_pos haccepted]
    rw [haccepted, if_pos rfl] at hconnected
    have hroom : s.relay.ws.connected.card < wsMaxConnections := by
      rw [haccepted] at haccepts
      exact of_decide_eq_true haccepts.symm
    refine ⟨hagree, h.closed, ?_, hcard, ?_, ?_⟩
    · rw [hcount, ← h.opened]
      rfl
    · rw [noSessionEnds_snoc, ← h.ended_iff]
      refine ⟨fun hempty => ⟨hempty, rfl, fun _ => ?_⟩, fun hpast => hpast.1⟩
      rw [← h.opened, ← h.connected hempty]
      exact hroom
    · intro hempty
      change (openSession s.relay.ws fd).connected.card = s.opened + 1
      rw [hconnected, Finset.card_insert_of_notMem hnew, h.connected hempty]
  · rw [if_neg haccepted]
    have hfull : ¬ s.relay.ws.connected.card < wsMaxConnections := by
      rw [Bool.not_eq_true] at haccepted
      rw [haccepted] at haccepts
      exact of_decide_eq_false haccepts.symm
    have hopen : (relayStep lib ctx s.relay (.opened fd)).ws.sessions fd ≠ none := by
      change (openSession s.relay.ws fd).sessions fd ≠ none
      rw [hsessions, Function.update_self]
      exact Option.some_ne_none _
    have hended := httpdSessDelete_ended (acceptClient lib ctx s fd) fd hopen
    refine ⟨?_, h.closed, ?_, hcard, ?_, fun hempty => absurd hempty hended⟩
    · rw [httpdSessDelete_relay lib ctx]
      exact relayStep_agree lib ctx hopen hagree
    · rw [hcount, ← h.opened]
      rfl
    · refine iff_of_false hended ?_
      rw [noSessionEnds_snoc]
      rintro ⟨hpast, -, hlt⟩
      rw [← h.opened, ← h.connected (h.ended_iff.mpr hpast)] at hlt
      exact hfull (hlt rfl)

/-- Every event. -/
theorem step
    (h : SocketInv past s)
    {event : RelayEvent}
    (hallowed : SocketAllows s event) :
    SocketInv (past ++ [event]) (socketStep lib ctx s event) := by
  have hagree := relayStep_agree lib ctx hallowed.1 h.agree
  cases event with
  | opened fd => exact h.accept hallowed
  | closed fd => exact h.finish hallowed.1
  | frame connFd len parsed env =>
      exact h.other rfl rfl hagree (frame_connected lib ctx s.relay connFd len parsed env)
  | work sendOk =>
      have htables := runQueued_tables sendOk s.relay.ws
      refine h.other rfl rfl hagree ?_
      change (runQueued sendOk s.relay.ws).connected = s.relay.ws.connected
      rw [WsServer.connected, htables.1]
      rfl
  | cleanup work => exact h.other rfl rfl hagree rfl

/-- Every run. -/
theorem run
    (lib : Libnostr)
    (ctx : RelayCtx)
    (storage : LoggedWorld)
    (events : List RelayEvent)
    (hallowed : Admits (socketMachine lib ctx) SocketAllows (noClients storage) events) :
    SocketInv events (finalState (socketMachine lib ctx) (noClients storage) events) :=
  run_invariant (Admits (socketMachine lib ctx) SocketAllows (noClients storage)) SocketInv
    (fun past event hadmits => hadmits.before (List.prefix_append past [event]))
    (start storage)
    (fun past event hadmits hinv => hinv.step (hadmits past event List.prefix_rfl))
    events hallowed

end SocketInv

/-- Every socket that was passed to `on_open` is still open. -/
theorem sockets_card
    (lib : Libnostr)
    (ctx : RelayCtx)
    (storage : LoggedWorld)
    (events : List RelayEvent)
    (hallowed : Admits (socketMachine lib ctx) SocketAllows (noClients storage) events) :
    (finalState (socketMachine lib ctx) (noClients storage) events).sockets.card =
      events.countP RelayEvent.isOpened := by
  have hinv := SocketInv.run lib ctx storage events hallowed
  rw [hinv.sockets, hinv.opened]

/--
**Sockets are leaked as soon as a session ends.**  In every run the sockets of the ended sessions
are closed, and no more are open than there are sessions, exactly when no session has ended and
no more than eight have been opened.
-/
theorem sockets_kept_iff
    (lib : Libnostr)
    (ctx : RelayCtx)
    (storage : LoggedWorld)
    (events : List RelayEvent)
    (hallowed : Admits (socketMachine lib ctx) SocketAllows (noClients storage) events) :
    NoLeak (finalState (socketMachine lib ctx) (noClients storage) events) ↔
      NoSessionEnds events := by
  have hinv := SocketInv.run lib ctx storage events hallowed
  exact hinv.noLeak_iff.trans hinv.ended_iff

/-- Two clients connect and one subscribes. -/
theorem sockets_kept_iff_two_clients :
    let lib := Sample.library []
    let storage := erasedFlash 1000 1814400 thousandSlots
    let events : List RelayEvent :=
      [ .opened 7, .opened 8,
        .frame 7 20 (some (.req (ascii "feed") [{}])) (DispatchEnv.undisturbed 1700000000) ]
    NoLeak (finalState (socketMachine lib startedCtx) (noClients storage) events) ↔
      NoSessionEnds events := by
  intro lib storage events
  refine sockets_kept_iff lib startedCtx storage events (Admits.of_get ?_)
  intro i
  fin_cases i
  · refine ⟨rfl, ?_⟩
    rintro fd ⟨⟩
    exact Finset.notMem_empty 7
  · refine ⟨rfl, ?_⟩
    rintro fd ⟨⟩
    decide +kernel
  · refine ⟨⟨⟨0, true⟩, by decide +kernel, rfl⟩, ?_⟩
    rintro fd ⟨⟩

/-- A client connects and leaves, and its socket is still open. -/
theorem ended_session_leaks_socket :
    let lib := Sample.library []
    let storage := erasedFlash 1000 1814400 thousandSlots
    let events : List RelayEvent := [.opened 7, .closed 7]
    Admits (socketMachine lib startedCtx) SocketAllows (noClients storage) events ∧
      (finalState (socketMachine lib startedCtx) (noClients storage) events).sockets = {7} ∧
      (finalState (socketMachine lib startedCtx) (noClients storage) events).ended = [0] ∧
      ¬ NoLeak (finalState (socketMachine lib startedCtx) (noClients storage) events) := by
  intro lib storage events
  refine ⟨Admits.of_get ?_, rfl, rfl, ?_⟩
  · intro i
    fin_cases i
    · refine ⟨rfl, ?_⟩
      rintro fd ⟨⟩
      exact Finset.notMem_empty 7
    · constructor
      · intro hnone
        revert hnone
        decide +kernel
      · rintro fd ⟨⟩
  · rintro ⟨honce, -⟩
    have hclosed : (0 : Nat) = 1 := honce 0 List.mem_cons_self
    cases hclosed

end Relay
end WispRelay
