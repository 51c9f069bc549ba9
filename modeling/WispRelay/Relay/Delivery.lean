import WispRelay.Relay.Tables

/-!
# Delivery

`ws_server_send` writes a message at once when it is for the connection whose request is being
handled.  Any other message is queued with the descriptor, and written when the server task
runs the queue, to the session that has the descriptor then.

* `relayStep_keeps`: what every step of the server keeps, every event keeps.
* `draining_writes`: a queued message is written once the queue is run.
* `delivered_to_owner_iff`: messages reach the sessions they were sent to exactly when no
  session is opened on a descriptor for which a message is queued.
-/

namespace WispRelay
namespace Relay

open Interference Runs Storage Subscriptions

/-! ## What the steps of the server do -/

section Server

variable
  (ws : WsServer)
  (fd : Int32)

/-- A call of `ws_server_send` is only logged, or also written, or also queued. -/
theorem wsServerSend_cases
    (env : SendEnv)
    (message : NostrRelayMsg)
    (text : CString) :
    let call := ws.nextCall fd message text
    (wsServerSend env ws fd message text).2 = ws.logCall call ∨
      (ws.currentReq = some fd ∧ env.httpdOk = true ∧
        (wsServerSend env ws fd message text).2 = (ws.logCall call).writeFrame call) ∨
      (ws.currentReq ≠ some fd ∧
        (wsServerSend env ws fd message text).2 = (ws.logCall call).enqueue call) := by
  intro call
  unfold wsServerSend
  dsimp only
  split_ifs with hcurrent hok hmem hok
  · exact .inr (.inl ⟨hcurrent, hok, rfl⟩)
  · exact .inl rfl
  · exact .inl rfl
  · exact .inr (.inr ⟨hcurrent, rfl⟩)
  · exact .inl rfl

/-- The first queued item is dropped or written. -/
theorem runQueued_cases
    (sendOk : Bool) :
    (ws.queue = [] ∧ runQueued sendOk ws = ws) ∨
      ∃ call rest, ws.queue = call :: rest ∧
        (runQueued sendOk ws = { ws with queue := rest } ∨
          sendOk = true ∧
            runQueued sendOk ws = WsServer.writeFrame { ws with queue := rest } call) := by
  unfold runQueued
  cases hqueue : ws.queue with
  | nil => exact .inl ⟨rfl, rfl⟩
  | cons call rest =>
      refine .inr ⟨call, rest, rfl, ?_⟩
      cases sendOk with
      | false => exact .inl rfl
      | true => exact .inr ⟨rfl, rfl⟩

theorem openSession_sessions :
    (openSession ws fd).sessions =
      Function.update ws.sessions fd
        (some { number := ws.nextSession, accepted := (onOpen ws fd).1 }) := by
  have hsame := (onOpen_frame ws fd).2.2.2.1
  have hnext := (onOpen_frame ws fd).2.2.2.2
  simp only [openSession, hsame, hnext]

/-- A new session leaves what was sent alone. -/
theorem openSession_frame :
    (openSession ws fd).calls = ws.calls ∧ (openSession ws fd).queue = ws.queue ∧
      (openSession ws fd).written = ws.written ∧
      (openSession ws fd).nextSession = ws.nextSession + 1 := by
  obtain ⟨hcalls, hqueue, hwritten, -, hnext⟩ := onOpen_frame ws fd
  exact ⟨hcalls, hqueue, hwritten, congrArg (· + 1) hnext⟩

/-- The end of a session leaves what was sent alone. -/
theorem closeSession_frame :
    (endSession (onClose ws fd) fd).calls = ws.calls ∧
      (endSession (onClose ws fd) fd).queue = ws.queue ∧
      (endSession (onClose ws fd) fd).written = ws.written ∧
      (endSession (onClose ws fd) fd).sessions = Function.update ws.sessions fd none ∧
      (endSession (onClose ws fd) fd).nextSession = ws.nextSession := by
  obtain ⟨hcalls, hqueue, hwritten, hsessions, hnext⟩ := onClose_frame ws fd
  refine ⟨hcalls, hqueue, hwritten, ?_, hnext⟩
  rw [endSession, hsessions]

/-- A session that is open after another one has ended was open before. -/
theorem closeSession_open
    {fd' : Int32}
    {session : Session}
    (hsession : (endSession (onClose ws fd) fd).sessions fd' = some session) :
    ws.sessions fd' = some session := by
  rw [(closeSession_frame ws fd).2.2.2.1] at hsession
  by_cases hfd : fd' = fd
  · rw [hfd, Function.update_self] at hsession
    cases hsession
  · rwa [Function.update_of_ne hfd] at hsession

/-- A session that is open after another one has opened is that one or was open before. -/
theorem openSession_open
    {fd' : Int32}
    {session : Session}
    (hsession : (openSession ws fd).sessions fd' = some session) :
    (fd' = fd ∧ session.number = ws.nextSession) ∨ ws.sessions fd' = some session := by
  rw [openSession_sessions] at hsession
  by_cases hfd : fd' = fd
  · rw [hfd, Function.update_self] at hsession
    exact .inl ⟨hfd, (congrArg Session.number (Option.some.inj hsession)).symm⟩
  · rw [Function.update_of_ne hfd] at hsession
    exact .inr hsession

end Server

/-! ## Invariants of the server -/

/-- A call may be made: a message to `fd` by the server, any other call always. -/
def SendsWhen
    (P : CallTurn → WsServer → Int32 → Prop)
    (c : RelayCall)
    (h : Handling) : Prop :=
  ∀ fd message text, c = .wsSend fd message text → P (h.turns 0) h.state.ws fd

/-- What sending keeps, every call keeps. -/
theorem relayCall_keeps
    {I : WsServer → Prop}
    {P : CallTurn → WsServer → Int32 → Prop}
    {lib : Libnostr}
    {env : DispatchEnv}
    (hsend : ∀ turn ws fd message text, P turn ws fd → I ws →
      I (wsServerSend turn.send ws fd message text).2)
    (c : RelayCall)
    (h : Handling)
    (hallowed : SendsWhen P c h)
    (hI : I h.state.ws) :
    I (relayCall lib env c h).2.state.ws := by
  cases c with
  | wsSend fd message text => exact hsend _ _ fd message text (hallowed fd message text rfl) hI
  | _ => exact hI

/-- The calls of an event may be made. -/
def EventSendsWhen
    (P : CallTurn → WsServer → Int32 → Prop)
    (lib : Libnostr)
    (ctx : RelayCtx)
    (s : RelayState) : RelayEvent → Prop
  | .frame connFd len parsed env =>
      ∀ x ∈ (onWsMessage lib ctx connFd len parsed).visited (relayCall lib env)
        (arrived s connFd env), SendsWhen P x.1 x.2
  | _ => True

/--
What the steps of the server keep, an event keeps.  The invariant does not look at the request
in progress.
-/
theorem relayStep_keeps
    {I : WsServer → Prop}
    {P : CallTurn → WsServer → Int32 → Prop}
    {lib : Libnostr}
    {ctx : RelayCtx}
    {s : RelayState}
    {event : RelayEvent}
    (hrequest : ∀ ws current, I ws → I { ws with currentReq := current })
    (hsend : ∀ turn ws fd message text, P turn ws fd → I ws →
      I (wsServerSend turn.send ws fd message text).2)
    (hwork : ∀ sendOk ws, I ws → I (runQueued sendOk ws))
    (hopen : ∀ fd, event = .opened fd → I s.ws → I (openSession s.ws fd))
    (hclose : ∀ fd ws, I ws → I (endSession (onClose ws fd) fd))
    (hsends : EventSendsWhen P lib ctx s event)
    (h : I s.ws) :
    I (relayStep lib ctx s event).ws := by
  cases event with
  | opened connFd => exact hopen connFd rfl h
  | closed connFd => exact hclose connFd s.ws h
  | frame connFd len parsed env =>
      exact hrequest _ none (Prog.run_keeps_visited (I := fun h' : Handling => I h'.state.ws)
        (Q := SendsWhen P) (relayCall_keeps hsend) hsends (hrequest s.ws (some connFd) h))
  | work sendOk => exact hwork sendOk s.ws h
  | cleanup work => exact h

/-- The numbers of sessions and calls are given out once. -/
structure Numbered
    (ws : WsServer) : Prop where
  open_lt : ∀ fd session, ws.sessions fd = some session → session.number < ws.nextSession
  distinct : ∀ fd fd' session session', ws.sessions fd = some session →
    ws.sessions fd' = some session' → session.number = session'.number → fd = fd'
  queued : ∀ call ∈ ws.queue, call.number < ws.calls.length ∧
    ∀ number, call.session = some number → number < ws.nextSession
  written : ∀ frame ∈ ws.written, frame.call.number < ws.calls.length ∧
    frame.session < ws.nextSession

namespace Numbered

variable
  {ws : WsServer}

theorem init : Numbered wsServerInit where
  open_lt := fun _ _ h => by cases h
  distinct := fun _ _ _ _ h => by cases h
  queued := fun _ h => by cases h
  written := fun _ h => by cases h

theorem request
    (h : Numbered ws)
    (current : Option Int32) :
    Numbered { ws with currentReq := current } :=
  ⟨h.open_lt, h.distinct, h.queued, h.written⟩

theorem nextCall_lt
    (h : Numbered ws)
    {fd : Int32}
    {message : NostrRelayMsg}
    {text : CString}
    {number : Nat}
    (hnumber : (ws.nextCall fd message text).session = some number) :
    number < ws.nextSession := by
  obtain ⟨session, hsession, rfl⟩ := Option.map_eq_some_iff.mp hnumber
  exact h.open_lt fd session hsession

theorem logCall
    (h : Numbered ws)
    (call : SendCall) :
    Numbered (ws.logCall call) := by
  have hlength : (ws.logCall call).calls.length = ws.calls.length + 1 := by
    simp
  refine ⟨h.open_lt, h.distinct, ?_, ?_⟩
  · intro call' hcall
    rw [hlength]
    exact ⟨Nat.lt_succ_of_lt (h.queued call' hcall).1, (h.queued call' hcall).2⟩
  · intro frame hframe
    rw [hlength]
    exact ⟨Nat.lt_succ_of_lt (h.written frame hframe).1, (h.written frame hframe).2⟩

theorem writeFrame
    (h : Numbered ws)
    {call : SendCall}
    (hcall : call.number < ws.calls.length) :
    Numbered (ws.writeFrame call) := by
  unfold WsServer.writeFrame
  cases hsession : ws.sessions call.connFd with
  | none => exact h
  | some session =>
      refine ⟨h.open_lt, h.distinct, h.queued, ?_⟩
      intro frame hframe
      rcases List.mem_append.mp hframe with hold | hnew
      · exact h.written frame hold
      · rw [List.mem_singleton.mp hnew]
        exact ⟨hcall, h.open_lt _ _ hsession⟩

theorem send
    (h : Numbered ws)
    (env : SendEnv)
    (fd : Int32)
    (message : NostrRelayMsg)
    (text : CString) :
    Numbered (wsServerSend env ws fd message text).2 := by
  have hlogged := h.logCall (ws.nextCall fd message text)
  have hnumber : (ws.nextCall fd message text).number <
      (ws.logCall (ws.nextCall fd message text)).calls.length := by
    simp [WsServer.nextCall]
  rcases wsServerSend_cases ws fd env message text with hlog | ⟨-, -, hwrite⟩ | ⟨-, hqueue⟩
  · rw [hlog]
    exact hlogged
  · rw [hwrite]
    exact hlogged.writeFrame hnumber
  · rw [hqueue]
    refine ⟨hlogged.open_lt, hlogged.distinct, ?_, hlogged.written⟩
    intro call hcall
    rcases List.mem_append.mp hcall with hold | hnew
    · exact hlogged.queued call hold
    · rw [List.mem_singleton.mp hnew]
      exact ⟨hnumber, fun number => h.nextCall_lt⟩

theorem dropFirst
    (h : Numbered ws)
    {call : SendCall}
    {rest : List SendCall}
    (hqueue : ws.queue = call :: rest) :
    Numbered { ws with queue := rest } := by
  refine ⟨h.open_lt, h.distinct, ?_, h.written⟩
  intro call' hcall
  exact h.queued call' (hqueue ▸ List.mem_cons_of_mem _ hcall)

theorem work
    (h : Numbered ws)
    (sendOk : Bool) :
    Numbered (runQueued sendOk ws) := by
  rcases runQueued_cases ws sendOk with ⟨-, hsame⟩ | ⟨call, rest, hqueue, hdrop | ⟨-, hwrite⟩⟩
  · rw [hsame]
    exact h
  · rw [hdrop]
    exact h.dropFirst hqueue
  · rw [hwrite]
    exact (h.dropFirst hqueue).writeFrame (h.queued call (hqueue ▸ List.mem_cons_self)).1

theorem opened
    (h : Numbered ws)
    (fd : Int32) :
    Numbered (openSession ws fd) := by
  obtain ⟨hcalls, hqueue, hwritten, hnext⟩ := openSession_frame ws fd
  refine ⟨?_, ?_, ?_, ?_⟩
  · intro fd' session hsession
    rw [hnext]
    rcases openSession_open ws fd hsession with ⟨-, hnumber⟩ | hold
    · omega
    · have := h.open_lt fd' session hold
      omega
  · intro a b session session' ha hb hsame
    rcases openSession_open ws fd ha with ⟨hfd, hnumber⟩ | hold <;>
      rcases openSession_open ws fd hb with ⟨hfd', hnumber'⟩ | hold'
    · rw [hfd, hfd']
    · have := h.open_lt b session' hold'
      omega
    · have := h.open_lt a session hold
      omega
    · exact h.distinct a b session session' hold hold' hsame
  · rw [hqueue, hcalls, hnext]
    exact fun call hcall => ⟨(h.queued call hcall).1,
      fun number hnumber => Nat.lt_succ_of_lt ((h.queued call hcall).2 number hnumber)⟩
  · rw [hwritten, hcalls, hnext]
    exact fun frame hframe =>
      ⟨(h.written frame hframe).1, Nat.lt_succ_of_lt (h.written frame hframe).2⟩

theorem closed
    (h : Numbered ws)
    (fd : Int32) :
    Numbered (endSession (onClose ws fd) fd) := by
  obtain ⟨hcalls, hqueue, hwritten, -, hnext⟩ := closeSession_frame ws fd
  refine ⟨?_, ?_, ?_, ?_⟩
  · rw [hnext]
    exact fun fd' session hopen => h.open_lt fd' session (closeSession_open ws fd hopen)
  · exact fun a b session session' ha hb =>
      h.distinct a b session session' (closeSession_open ws fd ha) (closeSession_open ws fd hb)
  · rw [hqueue, hcalls, hnext]
    exact h.queued
  · rw [hwritten, hcalls, hnext]
    exact h.written

/-- Numbers stay distinct in every run. -/
theorem run
    (lib : Libnostr)
    (ctx : RelayCtx)
    (storage : LoggedWorld)
    (events : List RelayEvent) :
    Numbered (afterEvents lib ctx (startRelay storage) events).ws := by
  induction events using List.reverseRecOn with
  | nil => exact Numbered.init
  | append_singleton past event ih =>
      rw [afterEvents_snoc]
      refine relayStep_keeps (P := fun _ _ _ => True) (fun ws current h => h.request current)
        (fun turn ws fd message text _ h => h.send turn.send fd message text)
        (fun sendOk ws h => h.work sendOk) (fun fd _ h => h.opened fd)
        (fun fd ws h => h.closed fd) ?_ ih
      cases event with
      | frame connFd len parsed env => exact fun _ _ _ _ _ _ => trivial
      | _ => trivial

end Numbered

/-! ## Running the queue -/

theorem afterEvents_append
    (lib : Libnostr)
    (ctx : RelayCtx)
    (s : RelayState)
    (xs ys : List RelayEvent) :
    afterEvents lib ctx s (xs ++ ys) = afterEvents lib ctx (afterEvents lib ctx s xs) ys :=
  finalState_append _ s xs ys

/-- The server task runs the first items of the queue, and every frame is written. -/
def draining
    (n : Nat) : List RelayEvent :=
  List.replicate n (.work true)

/-- A queued message is written to the session that has the descriptor. -/
theorem draining_writes
    (lib : Libnostr)
    (ctx : RelayCtx)
    {s : RelayState}
    {front rest : List SendCall}
    {call : SendCall}
    {session : Session}
    (hqueue : s.ws.queue = front ++ call :: rest)
    (hsession : s.ws.sessions call.connFd = some session) :
    ∃ extra, (afterEvents lib ctx s (draining (front.length + 1))).ws.written =
        s.ws.written ++ extra ∧
      { session := session.number, call := call } ∈ extra := by
  induction front generalizing s with
  | nil =>
      refine ⟨[{ session := session.number, call := call }], ?_, List.mem_singleton_self _⟩
      have hwork : runQueued true s.ws =
          WsServer.writeFrame { s.ws with queue := rest } call := by
        rw [runQueued, hqueue]
        rfl
      change (runQueued true s.ws).written = _
      rw [hwork, WsServer.writeFrame_written, hsession]
      rfl
  | cons first front ih =>
      have hwork : runQueued true s.ws =
          WsServer.writeFrame { s.ws with queue := front ++ call :: rest } first := by
        rw [runQueued, hqueue]
        rfl
      obtain ⟨extra, hextra, hmem⟩ := ih (s := relayStep lib ctx s (.work true))
        (by simp only [relayStep, hwork, WsServer.writeFrame_queue])
        (by simpa only [relayStep, hwork, WsServer.writeFrame_sessions] using hsession)
      have hfirst : ∃ written, (relayStep lib ctx s (.work true)).ws.written =
          s.ws.written ++ written :=
        ⟨_, by simp only [relayStep, hwork, WsServer.writeFrame_written]; rfl⟩
      obtain ⟨written, hwritten⟩ := hfirst
      refine ⟨written ++ extra, ?_, List.mem_append_right _ hmem⟩
      rw [hwritten, List.append_assoc] at hextra
      exact hextra

/-! ## To the session the message was sent to -/

/-- No message is queued for a descriptor when a session is opened on it. -/
def DescriptorClear
    (s : RelayState) : RelayEvent → Prop
  | .opened connFd => ∀ call ∈ s.ws.queue, call.connFd ≠ connFd
  | _ => True

/-- Messages went to the sessions they were sent to, and the next one is dropped if its has ended. -/
structure DeliveredToOwner
    (ws : WsServer) : Prop where
  written : ∀ frame ∈ ws.written, frame.call.session = some frame.session
  dropped : ∀ call rest, ws.queue = call :: rest →
    (∀ fd session, ws.sessions fd = some session → call.session ≠ some session.number) →
    ∀ sendOk, (runQueued sendOk ws).written = ws.written

/-- The messages written and queued belong to the sessions that have their descriptors. -/
structure ToOwner
    (ws : WsServer) : Prop where
  queued : ∀ call ∈ ws.queue, ∀ session, ws.sessions call.connFd = some session →
    call.session = some session.number
  written : ∀ frame ∈ ws.written, frame.call.session = some frame.session

namespace ToOwner

variable
  {ws : WsServer}

theorem init : ToOwner wsServerInit where
  queued := fun _ h => by cases h
  written := fun _ h => by cases h

theorem writeFrame
    (h : ToOwner ws)
    {call : SendCall}
    (hcall : ∀ session, ws.sessions call.connFd = some session →
      call.session = some session.number) :
    ToOwner (ws.writeFrame call) := by
  unfold WsServer.writeFrame
  cases hsession : ws.sessions call.connFd with
  | none => exact h
  | some session =>
      refine ⟨h.queued, ?_⟩
      intro frame hframe
      rcases List.mem_append.mp hframe with hold | hnew
      · exact h.written frame hold
      · rw [List.mem_singleton.mp hnew]
        exact hcall session hsession

theorem send
    (h : ToOwner ws)
    (env : SendEnv)
    (fd : Int32)
    (message : NostrRelayMsg)
    (text : CString) :
    ToOwner (wsServerSend env ws fd message text).2 := by
  have hlogged : ToOwner (ws.logCall (ws.nextCall fd message text)) := ⟨h.queued, h.written⟩
  have hown : ∀ session, ws.sessions fd = some session →
      (ws.nextCall fd message text).session = some session.number :=
    fun session hsession => congrArg (Option.map Session.number) hsession
  rcases wsServerSend_cases ws fd env message text with hlog | ⟨-, -, hwrite⟩ | ⟨-, hqueue⟩
  · rw [hlog]
    exact hlogged
  · rw [hwrite]
    exact hlogged.writeFrame hown
  · rw [hqueue]
    refine ⟨?_, h.written⟩
    intro call hcall
    rcases List.mem_append.mp hcall with hold | hnew
    · exact h.queued call hold
    · rw [List.mem_singleton.mp hnew]
      exact hown

theorem work
    (h : ToOwner ws)
    (sendOk : Bool) :
    ToOwner (runQueued sendOk ws) := by
  rcases runQueued_cases ws sendOk with ⟨-, hsame⟩ | ⟨call, rest, hqueue, hstep⟩
  · rw [hsame]
    exact h
  have hrest : ToOwner { ws with queue := rest } :=
    ⟨fun call' hcall => h.queued call' (hqueue ▸ List.mem_cons_of_mem _ hcall), h.written⟩
  rcases hstep with hdrop | ⟨-, hwrite⟩
  · rw [hdrop]
    exact hrest
  · rw [hwrite]
    exact hrest.writeFrame (h.queued call (hqueue ▸ List.mem_cons_self))

theorem opened
    (h : ToOwner ws)
    {fd : Int32}
    (hclear : ∀ call ∈ ws.queue, call.connFd ≠ fd) :
    ToOwner (openSession ws fd) := by
  obtain ⟨-, hqueue, hwritten, -⟩ := openSession_frame ws fd
  constructor
  · intro call hcall session hsession
    rw [hqueue] at hcall
    rcases openSession_open ws fd hsession with ⟨hfd, -⟩ | hold
    · exact absurd hfd (hclear call hcall)
    · exact h.queued call hcall session hold
  · rw [hwritten]
    exact h.written

theorem closed
    (h : ToOwner ws)
    (fd : Int32) :
    ToOwner (endSession (onClose ws fd) fd) := by
  obtain ⟨-, hqueue, hwritten, -, -⟩ := closeSession_frame ws fd
  constructor
  · rw [hqueue]
    exact fun call hcall session hsession =>
      h.queued call hcall session (closeSession_open ws fd hsession)
  · rw [hwritten]
    exact h.written

theorem step
    {lib : Libnostr}
    {ctx : RelayCtx}
    {s : RelayState}
    {event : RelayEvent}
    (hclear : DescriptorClear s event)
    (h : ToOwner s.ws) :
    ToOwner (relayStep lib ctx s event).ws := by
  refine relayStep_keeps (P := fun _ _ _ => True) (fun ws _ h => ⟨h.queued, h.written⟩)
    (fun turn ws fd message text _ h => h.send turn.send fd message text)
    (fun sendOk ws h => h.work sendOk) ?_ (fun fd ws h => h.closed fd) ?_ h
  · rintro fd rfl h
    exact h.opened hclear
  · cases event with
    | frame connFd len parsed env => exact fun _ _ _ _ _ _ => trivial
    | _ => trivial

theorem run
    {lib : Libnostr}
    {ctx : RelayCtx}
    {s : RelayState}
    {events : List RelayEvent}
    (h : ToOwner s.ws)
    (hclear : Admits (relayMachine lib ctx) DescriptorClear s events) :
    ToOwner (afterEvents lib ctx s events).ws :=
  hclear.invariant (fun s => ToOwner s.ws) h fun _ _ hclear h => h.step hclear

theorem deliveredToOwner
    (h : ToOwner ws) :
    DeliveredToOwner ws where
  written := h.written
  dropped := by
    intro call rest hqueue hended sendOk
    have hclosed : ws.sessions call.connFd = none := by
      cases hsession : ws.sessions call.connFd with
      | none => rfl
      | some session =>
          exact absurd (h.queued call (hqueue ▸ List.mem_cons_self) session hsession)
            (hended _ session hsession)
    cases sendOk with
    | false => simp only [runQueued, hqueue, Bool.false_eq_true, if_false]
    | true =>
        simp only [runQueued, hqueue, if_true, WsServer.writeFrame_written, hclosed]
        exact List.append_nil _

end ToOwner

/-- Running the queue is allowed whenever only opening a session and a frame are not. -/
theorem admits_draining
    {lib : Libnostr}
    {ctx : RelayCtx}
    {allowed : RelayState → RelayEvent → Prop}
    (hwork : ∀ s, allowed s (.work true))
    (s : RelayState)
    (n : Nat) :
    Admits (relayMachine lib ctx) allowed s (draining n) := by
  intro past event hpast
  have hevent : event ∈ draining n :=
    hpast.subset (List.mem_append_right _ (List.mem_singleton_self _))
  rw [List.eq_of_mem_replicate hevent]
  exact hwork _

/-- A message that is queued when its descriptor is given away reaches the new session. -/
theorem stale_message_is_written
    (lib : Libnostr)
    (ctx : RelayCtx)
    {s : RelayState}
    {call : SendCall}
    (hcall : call ∈ s.ws.queue) :
    ∃ n, { session := s.ws.nextSession, call := call } ∈
      (afterEvents lib ctx (relayStep lib ctx s (.opened call.connFd)) (draining n)).ws.written := by
  obtain ⟨front, rest, hqueue⟩ := List.append_of_mem hcall
  have hkept : (relayStep lib ctx s (.opened call.connFd)).ws.queue = front ++ call :: rest :=
    (openSession_frame s.ws call.connFd).2.1.trans hqueue
  have hnew : (relayStep lib ctx s (.opened call.connFd)).ws.sessions call.connFd =
      some { number := s.ws.nextSession, accepted := (onOpen s.ws call.connFd).1 } := by
    change (openSession s.ws call.connFd).sessions call.connFd = _
    rw [openSession_sessions, Function.update_self]
  obtain ⟨extra, hextra, hmem⟩ := draining_writes lib ctx hkept hnew
  refine ⟨front.length + 1, ?_⟩
  rw [hextra]
  exact List.mem_append_right _ hmem

/-- Connection 7 subscribes, connection 8 publishes a note, and connection 7 ends. -/
def publishedThenClosed : List RelayEvent :=
  let env := DispatchEnv.undisturbed 1700000000
  [ .opened 7, .opened 8,
    .frame 7 20 (some (.req (ascii "feed") [{}])) env,
    .frame 8 300 (some (.event (Sample.numbered 0))) env,
    .closed 7 ]

/-- These are things the HTTP server library does. -/
theorem publishedThenClosed_admits :
    let lib := Sample.library (Sample.notes 1)
    let storage := erasedFlash 1000 1814400 (by decide)
    Admits (relayMachine lib startedCtx) HttpdAllows (startRelay storage) publishedThenClosed := by
  intro lib storage
  refine Admits.of_get ?_
  intro i
  fin_cases i
  · exact rfl
  · exact rfl
  · exact ⟨⟨0, true⟩, by decide +kernel, rfl⟩
  · exact ⟨⟨1, true⟩, by decide +kernel, rfl⟩
  · intro hnone
    revert hnone
    decide +kernel

/--
**Messages reach the sessions they were sent to exactly when no session is opened on a
descriptor for which a message is queued.**  For every run: at each of its points, also when
any part of the queue is run then.
-/
theorem delivered_to_owner_iff
    (lib : Libnostr)
    (ctx : RelayCtx)
    (storage : LoggedWorld)
    (events : List RelayEvent) :
    Admits (relayMachine lib ctx) DescriptorClear (startRelay storage) events ↔
      ∀ past, past <+: events → ∀ n,
        DeliveredToOwner
          (afterEvents lib ctx (startRelay storage) (past ++ draining n)).ws := by
  constructor
  · intro hclear past hpast n
    have howned : ToOwner (afterEvents lib ctx (startRelay storage) past).ws :=
      ToOwner.init.run (hclear.before hpast)
    rw [afterEvents_append]
    exact (howned.run (admits_draining (fun _ => trivial) _ n)).deliveredToOwner
  · intro hdelivered past event hpast
    cases event with
    | opened connFd =>
        rintro call hcall rfl
        obtain ⟨n, hframe⟩ := stale_message_is_written lib ctx hcall
        have hbad := (hdelivered _ hpast n).written
        rw [afterEvents_append, afterEvents_snoc] at hbad
        have hnumber := ((Numbered.run lib ctx storage past).queued call hcall).2 _
          (hbad _ hframe)
        exact absurd hnumber (lt_irrefl _)
    | _ => trivial

/-- The note reaches the next client that gets descriptor 7. -/
theorem note_reaches_next_client :
    let lib := Sample.library (Sample.notes 1)
    let storage := erasedFlash 1000 1814400 (by decide)
    let events := publishedThenClosed ++ [.opened 7] ++ [.work true]
    Admits (relayMachine lib startedCtx) HttpdAllows (startRelay storage) events ∧
      ¬ DeliveredToOwner (afterEvents lib startedCtx (startRelay storage) events).ws := by
  intro lib storage events
  have hframe : ∃ frame ∈ (afterEvents lib startedCtx (startRelay storage) events).ws.written,
      frame.call.session = some 0 ∧ frame.session = 2 := by
    decide +kernel
  have hclosed : HttpdAllows
      (afterEvents lib startedCtx (startRelay storage) publishedThenClosed) (.opened 7) := by
    change _ = none
    decide +kernel
  refine ⟨(publishedThenClosed_admits.snoc hclosed).snoc (i := RelayEvent.work true) trivial, ?_⟩
  intro hdelivered
  obtain ⟨frame, hmem, hcall, hsession⟩ := hframe
  have howner := hdelivered.written frame hmem
  rw [hcall, hsession] at howner
  cases howner

end Relay
end WispRelay
