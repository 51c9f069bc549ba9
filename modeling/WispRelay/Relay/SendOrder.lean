import WispRelay.Relay.Delivery

/-!
# The order of messages

A message to the connection whose request is being handled is written at once, also when
other messages to it wait in the queue.

* `InOrder`: for each session, what is written comes before what is queued, and both are in
  the order of the calls.
* `written_in_order_iff`: messages reach a session in the order of the calls exactly when
  none is written at once while another to the connection is queued.
-/

namespace WispRelay
namespace Relay

open Interference Runs Storage Subscriptions

/-! ## In the order of the calls -/

/-- No message to the connection is queued when one is written to it at once. -/
def DirectClear
    (turn : CallTurn)
    (ws : WsServer)
    (fd : Int32) : Prop :=
  ws.currentReq = some fd → turn.send.httpdOk = true → ∀ call ∈ ws.queue, call.connFd ≠ fd

/-- The frames written to a session are in the order of the calls. -/
def WrittenInOrder
    (ws : WsServer) : Prop :=
  ws.written.Pairwise fun a b => a.session = b.session → a.call.number < b.call.number

/-- What is written and what is queued for a session is in the order of the calls. -/
structure InOrder
    (ws : WsServer) : Prop where
  numbered : Numbered ws
  queue : ws.queue.Pairwise fun a b => a.number < b.number
  before : ∀ frame ∈ ws.written, ∀ call ∈ ws.queue, ∀ session,
    ws.sessions call.connFd = some session → frame.session = session.number →
    frame.call.number < call.number
  written : WrittenInOrder ws

namespace InOrder

variable
  {ws : WsServer}

theorem init : InOrder wsServerInit where
  numbered := Numbered.init
  queue := List.Pairwise.nil
  before := fun _ h => by cases h
  written := List.Pairwise.nil

theorem logCall
    (h : InOrder ws)
    (call : SendCall) :
    InOrder (ws.logCall call) :=
  ⟨h.numbered.logCall call, h.queue, h.before, h.written⟩

/-- A frame whose call comes after those written and before those queued. -/
theorem writeFrame
    (h : InOrder ws)
    {call : SendCall}
    (hcall : call.number < ws.calls.length)
    (hafter : ∀ frame ∈ ws.written, ∀ session, ws.sessions call.connFd = some session →
      frame.session = session.number → frame.call.number < call.number)
    (hbefore : ∀ other ∈ ws.queue, other.connFd = call.connFd → call.number < other.number) :
    InOrder (ws.writeFrame call) := by
  have hnumbered := h.numbered.writeFrame hcall
  unfold WsServer.writeFrame at hnumbered ⊢
  cases hsession : ws.sessions call.connFd with
  | none => exact h
  | some session =>
      rw [hsession] at hnumbered
      refine ⟨hnumbered, h.queue, ?_, ?_⟩
      · intro frame hframe other hother session' hsession' hsame
        rcases List.mem_append.mp hframe with hold | hnew
        · exact h.before frame hold other hother session' hsession' hsame
        · rw [List.mem_singleton.mp hnew] at hsame ⊢
          exact hbefore other hother
            (h.numbered.distinct _ _ session' session hsession' hsession hsame.symm)
      · refine List.pairwise_append.mpr ⟨h.written, List.pairwise_singleton _ _, ?_⟩
        intro frame hframe new hnew hsame
        rw [List.mem_singleton.mp hnew] at hsame ⊢
        exact hafter frame hframe session hsession hsame

theorem send
    (h : InOrder ws)
    {turn : CallTurn}
    {fd : Int32}
    (hclear : DirectClear turn ws fd)
    (message : NostrRelayMsg)
    (text : CString) :
    InOrder (wsServerSend turn.send ws fd message text).2 := by
  have hlogged := h.logCall (ws.nextCall fd message text)
  have hlast : ∀ {number}, number < ws.calls.length →
      number < (ws.nextCall fd message text).number := fun hlt => hlt
  rcases wsServerSend_cases ws fd turn.send message text with
    hlog | ⟨hcurrent, hok, hwrite⟩ | ⟨-, hqueue⟩
  · rw [hlog]
    exact hlogged
  · rw [hwrite]
    refine hlogged.writeFrame (by simp [WsServer.nextCall]) ?_ ?_
    · exact fun frame hframe _ _ _ => hlast (h.numbered.written frame hframe).1
    · exact fun other hother hfd => absurd hfd (hclear hcurrent hok other hother)
  · have hnumbered := h.numbered.send turn.send fd message text
    rw [hqueue] at hnumbered ⊢
    refine ⟨hnumbered, ?_, ?_, h.written⟩
    · refine List.pairwise_append.mpr ⟨h.queue, List.pairwise_singleton _ _, ?_⟩
      intro call hcall new hnew
      rw [List.mem_singleton.mp hnew]
      exact hlast (h.numbered.queued call hcall).1
    · intro frame hframe call hcall session hsession hsame
      rcases List.mem_append.mp hcall with hold | hnew
      · exact h.before frame hframe call hold session hsession hsame
      · rw [List.mem_singleton.mp hnew]
        exact hlast (h.numbered.written frame hframe).1

theorem work
    (h : InOrder ws)
    (sendOk : Bool) :
    InOrder (runQueued sendOk ws) := by
  rcases runQueued_cases ws sendOk with ⟨-, hsame⟩ | ⟨call, rest, hqueue, hstep⟩
  · rw [hsame]
    exact h
  have hmem : ∀ other ∈ rest, other ∈ ws.queue :=
    fun other hother => hqueue ▸ List.mem_cons_of_mem _ hother
  have hsorted := h.queue
  rw [hqueue, List.pairwise_cons] at hsorted
  have hrest : InOrder { ws with queue := rest } :=
    ⟨h.numbered.dropFirst hqueue, hsorted.2,
      fun frame hframe other hother => h.before frame hframe other (hmem other hother), h.written⟩
  have hfirst : call ∈ ws.queue := hqueue ▸ List.mem_cons_self
  rcases hstep with hdrop | ⟨-, hwrite⟩
  · rw [hdrop]
    exact hrest
  · rw [hwrite]
    exact hrest.writeFrame (h.numbered.queued call hfirst).1
      (fun frame hframe => h.before frame hframe call hfirst) (fun other hother _ =>
        hsorted.1 other hother)

theorem opened
    (h : InOrder ws)
    (fd : Int32) :
    InOrder (openSession ws fd) := by
  obtain ⟨-, hqueue, hwritten, -⟩ := openSession_frame ws fd
  refine ⟨h.numbered.opened fd, ?_, ?_, ?_⟩
  · rw [hqueue]
    exact h.queue
  · intro frame hframe call hcall session hsession hsame
    rw [hwritten] at hframe
    rw [hqueue] at hcall
    rcases openSession_open ws fd hsession with ⟨-, hnew⟩ | hold
    · have hlt := (h.numbered.written frame hframe).2
      omega
    · exact h.before frame hframe call hcall session hold hsame
  · rw [WrittenInOrder, hwritten]
    exact h.written

theorem closed
    (h : InOrder ws)
    (fd : Int32) :
    InOrder (endSession (onClose ws fd) fd) := by
  obtain ⟨-, hqueue, hwritten, -, -⟩ := closeSession_frame ws fd
  refine ⟨h.numbered.closed fd, ?_, ?_, ?_⟩
  · rw [hqueue]
    exact h.queue
  · rw [hwritten, hqueue]
    exact fun frame hframe call hcall session hsession =>
      h.before frame hframe call hcall session (closeSession_open ws fd hsession)
  · rw [WrittenInOrder, hwritten]
    exact h.written

theorem step
    {lib : Libnostr}
    {ctx : RelayCtx}
    {s : RelayState}
    {event : RelayEvent}
    (hclear : EventSendsWhen DirectClear lib ctx s event)
    (h : InOrder s.ws) :
    InOrder (relayStep lib ctx s event).ws :=
  relayStep_keeps (P := DirectClear)
    (fun _ current h => ⟨h.numbered.request current, h.queue, h.before, h.written⟩)
    (fun _ _ _ message text hclear h => h.send hclear message text)
    (fun sendOk _ h => h.work sendOk) (fun fd _ h => h.opened fd) (fun fd _ h => h.closed fd)
    hclear h

theorem run
    {lib : Libnostr}
    {ctx : RelayCtx}
    {s : RelayState}
    {events : List RelayEvent}
    (h : InOrder s.ws)
    (hclear : Admits (relayMachine lib ctx) (EventSendsWhen DirectClear lib ctx) s events) :
    InOrder (afterEvents lib ctx s events).ws :=
  hclear.invariant (fun s => InOrder s.ws) h fun _ _ hclear h => h.step hclear

end InOrder

/-- Sending leaves the sessions and the request in progress alone. -/
theorem wsServerSend_same
    (env : SendEnv)
    (ws : WsServer)
    (fd : Int32)
    (message : NostrRelayMsg)
    (text : CString) :
    (wsServerSend env ws fd message text).2.sessions = ws.sessions ∧
      (wsServerSend env ws fd message text).2.currentReq = ws.currentReq := by
  refine ⟨(wsServerSend_tables env ws fd message text).2.2, ?_⟩
  rcases wsServerSend_cases ws fd env message text with hlog | ⟨-, -, hwrite⟩ | ⟨-, hqueue⟩
  · rw [hlog]
    rfl
  · rw [hwrite, WsServer.writeFrame]
    split <;> rfl
  · rw [hqueue]
    rfl

/-- What is written or queued stays so while a frame is handled. -/
theorem wsServerSend_keeps
    {turn : CallTurn}
    {ws : WsServer}
    {frame : Frame}
    {call : SendCall}
    {sessions : Int32 → Option Session}
    (fd : Int32)
    (message : NostrRelayMsg)
    (text : CString)
    (h : frame ∈ ws.written ∧ call ∈ ws.queue ∧ ws.sessions = sessions) :
    frame ∈ (wsServerSend turn.send ws fd message text).2.written ∧
      call ∈ (wsServerSend turn.send ws fd message text).2.queue ∧
      (wsServerSend turn.send ws fd message text).2.sessions = sessions := by
  obtain ⟨hframe, hcall, hsessions⟩ := h
  rcases wsServerSend_cases ws fd turn.send message text with
    hlog | ⟨-, -, hwrite⟩ | ⟨-, hqueue⟩
  · rw [hlog]
    exact ⟨hframe, hcall, hsessions⟩
  · rw [hwrite, WsServer.writeFrame_queue, WsServer.writeFrame_sessions,
      WsServer.writeFrame_written]
    exact ⟨List.mem_append_left _ hframe, hcall, hsessions⟩
  · rw [hqueue]
    exact ⟨hframe, List.mem_append_left _ hcall, hsessions⟩

section Overtaking

variable
  {lib : Libnostr}
  {ctx : RelayCtx}
  {s : RelayState}
  {connFd : Int32}
  {len : Nat}
  {parsed : Option NostrClientMsg}
  {env : DispatchEnv}

/-- What the server knows whenever a call is made while a frame is handled. -/
theorem frame_visited
    (hnumbered : Numbered s.ws)
    {x : RelayCall × Handling}
    (hx : x ∈ (onWsMessage lib ctx connFd len parsed).visited (relayCall lib env)
      (arrived s connFd env)) :
    Numbered x.2.state.ws ∧ x.2.state.ws.sessions = s.ws.sessions ∧
      x.2.state.ws.currentReq = some connFd := by
  have hsend : ∀ (turn : CallTurn) (ws : WsServer) (fd : Int32) (message : NostrRelayMsg)
      (text : CString), True →
      Numbered ws ∧ ws.sessions = s.ws.sessions ∧ ws.currentReq = some connFd →
      Numbered (wsServerSend turn.send ws fd message text).2 ∧
        (wsServerSend turn.send ws fd message text).2.sessions = s.ws.sessions ∧
        (wsServerSend turn.send ws fd message text).2.currentReq = some connFd := by
    intro turn ws fd message text _ ⟨hnumbered, hsessions, hcurrent⟩
    obtain ⟨hsessions', hcurrent'⟩ := wsServerSend_same turn.send ws fd message text
    exact ⟨hnumbered.send turn.send fd message text, hsessions'.trans hsessions,
      hcurrent'.trans hcurrent⟩
  exact (Prog.visited_keeps (P := fun _ => True)
    (I := fun h => Numbered h.state.ws ∧ h.state.ws.sessions = s.ws.sessions ∧
      h.state.ws.currentReq = some connFd)
    (fun c h _ hh => relayCall_keeps (P := fun _ _ _ => True)
      (I := fun ws => Numbered ws ∧ ws.sessions = s.ws.sessions ∧ ws.currentReq = some connFd)
      hsend c h (fun _ _ _ _ => trivial) hh)
    (Prog.Calls.unrestricted _) ⟨hnumbered.request (some connFd), rfl, rfl⟩ x hx).2

/-- What is written and queued after a call stays so until the frame is handled. -/
theorem frame_after
    {x : RelayCall × Handling}
    (hx : x ∈ (onWsMessage lib ctx connFd len parsed).visited (relayCall lib env)
      (arrived s connFd env))
    {frame : Frame}
    {call : SendCall}
    {sessions : Int32 → Option Session}
    (h : frame ∈ (relayCall lib env x.1 x.2).2.state.ws.written ∧
      call ∈ (relayCall lib env x.1 x.2).2.state.ws.queue ∧
      (relayCall lib env x.1 x.2).2.state.ws.sessions = sessions) :
    frame ∈ (relayStep lib ctx s (.frame connFd len parsed env)).ws.written ∧
      call ∈ (relayStep lib ctx s (.frame connFd len parsed env)).ws.queue ∧
      (relayStep lib ctx s (.frame connFd len parsed env)).ws.sessions = sessions :=
  Prog.run_keeps_after (I := fun h' : Handling => frame ∈ h'.state.ws.written ∧
    call ∈ h'.state.ws.queue ∧ h'.state.ws.sessions = sessions)
    (fun c h' _ hh => relayCall_keeps (P := fun _ _ _ => True)
      (I := fun ws => frame ∈ ws.written ∧ call ∈ ws.queue ∧ ws.sessions = sessions)
      (fun _ _ fd message text _ hh => wsServerSend_keeps fd message text hh)
      c h' (fun _ _ _ _ => trivial) hh) (Prog.Calls.unrestricted _) hx h

/-- A message written at once overtakes those queued for the connection. -/
theorem direct_message_overtakes
    (hnumbered : Numbered s.ws)
    {session : Session}
    (hsession : s.ws.sessions connFd = some session)
    {h : Handling}
    {fd : Int32}
    {message : NostrRelayMsg}
    {text : CString}
    (hmade : (.wsSend fd message text, h) ∈
      (onWsMessage lib ctx connFd len parsed).visited (relayCall lib env) (arrived s connFd env))
    (hunclear : ¬ DirectClear (h.turns 0) h.state.ws fd) :
    ∃ n, ¬ WrittenInOrder
      (afterEvents lib ctx (relayStep lib ctx s (.frame connFd len parsed env))
        (draining n)).ws := by
  unfold DirectClear at hunclear
  push Not at hunclear
  obtain ⟨hcurrent, hok, call, hcall, hfd⟩ := hunclear
  obtain ⟨hnumbered', hsessions, hrequest⟩ := frame_visited hnumbered hmade
  obtain rfl : connFd = fd := Option.some.inj (hrequest.symm.trans hcurrent)
  let direct := h.state.ws.nextCall connFd message text
  -- The frame is written while the older message stays in the queue.
  have hwrite : (wsServerSend (h.turns 0).send h.state.ws connFd message text).2 =
      (h.state.ws.logCall direct).writeFrame direct := by
    have hlogged : (h.state.ws.logCall direct).currentReq = some connFd := hcurrent
    unfold wsServerSend
    dsimp only
    rw [if_pos hlogged, if_pos hok]
  have hafter : { session := session.number, call := direct } ∈
        (wsServerSend (h.turns 0).send h.state.ws connFd message text).2.written ∧
      call ∈ (wsServerSend (h.turns 0).send h.state.ws connFd message text).2.queue ∧
      (wsServerSend (h.turns 0).send h.state.ws connFd message text).2.sessions =
        s.ws.sessions := by
    have hopen : (h.state.ws.logCall direct).sessions direct.connFd = some session :=
      (congrFun hsessions connFd).trans hsession
    rw [hwrite, WsServer.writeFrame_queue, WsServer.writeFrame_sessions,
      WsServer.writeFrame_written, hopen]
    exact ⟨List.mem_append_right _ (List.mem_singleton_self _), hcall, hsessions⟩
  obtain ⟨hframe, hqueued, hsame⟩ := frame_after hmade hafter
  obtain ⟨front, rest, hqueue⟩ := List.append_of_mem hqueued
  have hopen : (relayStep lib ctx s (.frame connFd len parsed env)).ws.sessions call.connFd =
      some session := (congrFun hsame call.connFd).trans (hfd ▸ hsession)
  obtain ⟨extra, hextra, hlate⟩ := draining_writes lib ctx hqueue hopen
  refine ⟨front.length + 1, fun horder => ?_⟩
  rw [WrittenInOrder, hextra, List.pairwise_append] at horder
  have hlt := horder.2.2 _ hframe _ hlate rfl
  exact absurd hlt (Nat.not_lt.mpr (Nat.le_of_lt (hnumbered'.queued call hcall).1))

end Overtaking

/-- Connection 7 subscribes, a note is published, and connection 7 ends its subscription. -/
def publishedThenUnsubscribed : List RelayEvent :=
  let env := DispatchEnv.undisturbed 1700000000
  [ .opened 7, .opened 8,
    .frame 7 20 (some (.req (ascii "feed") [{}])) env,
    .frame 8 300 (some (.event (Sample.numbered 0))) env,
    .frame 7 20 (some (.close (ascii "feed"))) env,
    .work true ]

/--
**Messages reach a session in the order of the calls exactly when none is written at once while
another to the connection is queued.**  For every run the HTTP server library allows: at each of
its points, also when any part of the queue is run then.
-/
theorem written_in_order_iff
    (lib : Libnostr)
    (ctx : RelayCtx)
    (storage : LoggedWorld)
    (events : List RelayEvent)
    (hallowed : Admits (relayMachine lib ctx) HttpdAllows (startRelay storage) events) :
    Admits (relayMachine lib ctx) (EventSendsWhen DirectClear lib ctx) (startRelay storage)
        events ↔
      ∀ past, past <+: events → ∀ n,
        WrittenInOrder (afterEvents lib ctx (startRelay storage) (past ++ draining n)).ws := by
  constructor
  · intro hclear past hpast n
    have horder : InOrder (afterEvents lib ctx (startRelay storage) past).ws :=
      InOrder.init.run (hclear.before hpast)
    rw [afterEvents_append]
    exact (horder.run (admits_draining (fun _ => trivial) _ n)).written
  · intro hordered past event hpast
    cases event with
    | frame connFd len parsed env =>
        rintro ⟨c, h⟩ hmade fd message text hc
        obtain rfl : c = .wsSend fd message text := hc
        by_contra hunclear
        obtain ⟨session, hsession, -⟩ := hallowed past _ hpast
        obtain ⟨n, hbad⟩ := direct_message_overtakes (Numbered.run lib ctx storage past)
          hsession hmade hunclear
        have hgood := hordered _ hpast n
        rw [afterEvents_append, afterEvents_snoc] at hgood
        exact hbad hgood
    | _ => trivial

/-- The order holds as long as connection 7 sends nothing while the note waits. -/
theorem written_in_order_iff_published :
    let lib := Sample.library (Sample.notes 1)
    let storage := erasedFlash 1000 1814400 (by decide)
    Admits (relayMachine lib startedCtx) (EventSendsWhen DirectClear lib startedCtx)
        (startRelay storage) publishedThenClosed ↔
      ∀ past, past <+: publishedThenClosed → ∀ n,
        WrittenInOrder
          (afterEvents lib startedCtx (startRelay storage) (past ++ draining n)).ws := by
  intro lib storage
  exact written_in_order_iff lib startedCtx storage publishedThenClosed publishedThenClosed_admits

/-- The note reaches connection 7 after the `CLOSED` that ended its subscription. -/
theorem note_follows_closed :
    let lib := Sample.library (Sample.notes 1)
    let storage := erasedFlash 1000 1814400 (by decide)
    Admits (relayMachine lib startedCtx) HttpdAllows (startRelay storage)
        publishedThenUnsubscribed ∧
      ¬ WrittenInOrder
          (afterEvents lib startedCtx (startRelay storage) publishedThenUnsubscribed).ws := by
  intro lib storage
  refine ⟨Admits.of_get ?_, ?_⟩
  · intro i
    fin_cases i
    · exact rfl
    · exact rfl
    · exact ⟨⟨0, true⟩, by decide +kernel, rfl⟩
    · exact ⟨⟨1, true⟩, by decide +kernel, rfl⟩
    · exact ⟨⟨0, true⟩, by decide +kernel, rfl⟩
    · trivial
  · unfold WrittenInOrder
    decide +kernel

end Relay
end WispRelay
