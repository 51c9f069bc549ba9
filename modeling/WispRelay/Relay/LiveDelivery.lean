import WispRelay.Relay.Delivery
import WispRelay.Relay.OnlySubscribed
import WispRelay.Relay.Fanout
import WispRelay.Relay.Verdict

/-!
# From the publisher to the subscriber

A subscription that was accepted lasts until its own client names it again or goes away: nothing
that other clients, the cleanup task or the server task do touches it.  While it lasts, each
matching event that a publisher is told was accepted is sent to it, and written to its socket when
the server task has run its queue.

* `Subscribed.later`: how long a subscription lasts.
* `sent_is_on_its_way`: what is sent in a frame is written or queued when the frame is handled.
* `published_event_is_written`: from the REQ of one client and the EVENT of another to the socket.
-/

namespace WispRelay
namespace Relay

open Interference Runs Storage Subscriptions

/-! ## How long a subscription lasts -/

/-- The client of a subscription names it in a REQ or a CLOSE, or goes away. -/
def Touches
    (key : SubKey) : RelayEvent → Prop
  | .closed connFd => connFd = key.1
  | .frame connFd _ (some (.req subId _)) _ => (connFd, subId.take routerMaxSubId) = key
  | .frame connFd _ (some (.close subId)) _ => (connFd, subId.take routerMaxSubId) = key
  | _ => False

/-- A call that is about another subscription, if it is about any. -/
def LeavesSub
    (key : SubKey) : RelayCall → Prop
  | .subAdd connFd subId _ => subId.length ≤ subMaxIdLen ∧ (connFd, subId) ≠ key
  | .subRemove connFd subId => (connFd, subId) ≠ key
  | _ => True

/-- The table is in order and has the subscription, with these filters. -/
structure Subscribed
    (key : SubKey)
    (filters : List NostrFilter)
    (mgr : SubManager) : Prop where
  inv : SubInv mgr
  lookup : mgr.contents.lookup key = some filters

/-- An add does not change another subscription, whatever it returns. -/
theorem addOutcome_lookup
    {m m' : SubMap}
    {key other : SubKey}
    {filters : List NostrFilter}
    {copied : Prop}
    {result : NostrRelayError}
    (h : AddOutcome m other filters copied result m')
    (hother : other ≠ key) :
    m'.lookup key = m.lookup key := by
  cases h with
  | replaced => exact Finmap.lookup_insert_of_ne _ hother.symm
  | emptied => exact Finmap.lookup_insert_of_ne _ hother.symm
  | tooMany => rfl
  | full => rfl
  | notCopied => rfl
  | added => exact Finmap.lookup_insert_of_ne _ hother.symm

section Lasts

variable
  (lib : Libnostr)
  (ctx : RelayCtx)
  {key : SubKey}
  {filters : List NostrFilter}

theorem Subscribed.relayEffect
    {s : RelayState}
    (h : Subscribed key filters s.subManager)
    (env : DispatchEnv)
    (turn : CallTurn)
    {c : RelayCall}
    (hc : LeavesSub key c) :
    Subscribed key filters (relayEffect lib env turn s c).2.subManager := by
  cases c with
  | subAdd connFd subId added =>
      obtain ⟨hinv, hadd⟩ :=
        @subManagerAdd_outcome s.subManager connFd subId h.inv env.copies added hc.1
      exact ⟨hinv, (addOutcome_lookup hadd hc.2).trans h.lookup⟩
  | subRemove connFd subId =>
      obtain ⟨hinv, hremove, -⟩ := subManagerRemove_outcome h.inv connFd subId
      refine ⟨hinv, ?_⟩
      change (subManagerRemove s.subManager connFd subId).2.contents.lookup key = some filters
      rw [hremove, Finmap.lookup_erase_ne (Ne.symm hc)]
      exact h.lookup
  | _ => exact h

variable
  {connFd : Int32}
  {len : Nat}
  {parsed : Option NostrClientMsg}
  {env : DispatchEnv}

/-- A frame makes no call about a subscription that it does not touch. -/
theorem onWsMessage_leaves
    (h : ¬ Touches key (.frame connFd len parsed env)) :
    (onWsMessage lib ctx connFd len parsed).Calls (LeavesSub key) := by
  unfold onWsMessage
  split
  · trivial
  cases parsed with
  | none => exact calls_sendNotice fun _ => trivial
  | some msg =>
    cases msg with
    | event event =>
        refine Prog.Calls.bind (calls_rateAllowed ctx connFd .event trivial) fun allowed => ?_
        split
        · exact calls_sendOk fun _ => trivial
        · refine Prog.Calls.bind ?_ fun _ => calls_sendOk fun _ => trivial
          exact calls_handleEvent event trivial trivial (fun _ => trivial) trivial
            fun _ _ _ => trivial
    | req subId added =>
        refine calls_dispatchReq trivial trivial added ?_ (fun _ _ => trivial) fun _ _ => trivial
        exact ⟨List.length_take_le _ _, h⟩
    | close subId =>
        refine Prog.Calls.bind ?_ fun _ => calls_sendClosed fun _ => trivial
        unfold handleClose
        split
        · exact Prog.Calls.perform h
        · trivial
    | auth => exact calls_sendNotice fun _ => trivial
    | other => exact calls_sendNotice fun _ => trivial

/-- While a frame is handled that does not touch it, the subscription lasts. -/
theorem Subscribed.handled
    (hleaves : ¬ Touches key (.frame connFd len parsed env))
    {h : Handling}
    (hsub : Subscribed key filters h.state.subManager) :
    Subscribed key filters
      ((onWsMessage lib ctx connFd len parsed).run (relayCall lib env) h).2.state.subManager := by
  refine Prog.run_keeps (I := fun h : Handling => Subscribed key filters h.state.subManager)
    (fun c h' hc h => ?_) (onWsMessage_leaves lib ctx hleaves) hsub
  exact h.relayEffect lib env (h'.turns 0) hc

theorem Subscribed.step
    {s : RelayState}
    (h : Subscribed key filters s.subManager)
    {event : RelayEvent}
    (hleaves : ¬ Touches key event) :
    Subscribed key filters (relayStep lib ctx s event).subManager := by
  cases event with
  | opened connFd => exact h
  | work sendOk => exact h
  | cleanup op => exact h
  | closed connFd =>
      obtain ⟨hinv, hcontents⟩ := subManagerRemoveAll_contents h.inv connFd
      refine ⟨hinv, ?_⟩
      change (subManagerRemoveAll s.subManager connFd).contents.lookup key = some filters
      rw [hcontents, SlotTable.lookup_filterKeys, if_pos (Ne.symm hleaves)]
      exact h.lookup
  | frame connFd len parsed env =>
      exact Subscribed.handled lib ctx hleaves (h := arrived s connFd env) h

/-- A subscription lasts until its client names it again or goes away. -/
theorem Subscribed.later
    {s : RelayState}
    (h : Subscribed key filters s.subManager)
    (later : List RelayEvent)
    (hleaves : ∀ event ∈ later, ¬ Touches key event) :
    Subscribed key filters (afterEvents lib ctx s later).subManager := by
  induction later generalizing s with
  | nil => exact h
  | cons event later ih =>
      refine ih (h.step lib ctx (hleaves event List.mem_cons_self)) fun e he => ?_
      exact hleaves e (List.mem_cons_of_mem _ he)

/-- A REQ that reaches `sub_manager_add` and is accepted there. -/
theorem handleReq_subscribes
    {h : Handling}
    (hinv : SubInv h.state.subManager)
    (hmgr : ctx.subManager = true)
    {subId : CString}
    (hid : subId.length ≤ subMaxIdLen)
    (hcount : filters.length ≤ subMaxFilters)
    (hok : (subManagerAdd env.copies h.state.subManager connFd subId filters).1 = .ok) :
    Subscribed (connFd, subId) filters
      ((handleReq lib ctx connFd subId filters).run (relayCall lib env) h).2.state.subManager := by
  obtain ⟨hinv', hadd⟩ :=
    @subManagerAdd_outcome h.state.subManager connFd subId hinv env.copies filters hid
  let added := (relayCall lib env (.subAdd connFd subId filters) h).2
  let answers : RelayProg Unit := do
    queryStored lib ctx connFd subId filters
    let _ ← routerSendEose lib connFd subId
    pure ()
  have hrun : (handleReq lib ctx connFd subId filters).run (relayCall lib env) h =
      answers.run (relayCall lib env) added := by
    have hsplit : (handleReq lib ctx connFd subId filters).run (relayCall lib env) h =
        Prog.run (relayCall lib env)
          (if (subManagerAdd env.copies h.state.subManager connFd subId filters).1 ≠ .ok then do
            let _ ← routerSendClosed lib connFd subId "error: too many subscriptions"
            pure ()
          else answers) added := by
      simp only [handleReq, hmgr]
      rfl
    rw [hsplit, if_neg (not_not_intro hok)]
  have hanswers : answers.Calls (QuietCall fun _ _ => True) :=
    Prog.Calls.bind (calls_queryStored trivial (fun _ _ => trivial) filters fun _ _ => trivial)
      fun _ => calls_sendEose fun _ => trivial
  have hquiet := run_quiet lib env hanswers added
  rw [hrun, hquiet.subManager]
  refine ⟨hinv', ?_⟩
  change (subManagerAdd env.copies h.state.subManager connFd subId filters).2.contents.lookup _ = _
  rw [hadd.eq_insert hok, Finmap.lookup_insert, List.take_of_length_le hcount]

/-- The subscription of an accepted REQ is in the table when the frame is handled. -/
theorem Subscribed.accepted
    {s : RelayState}
    (hinv : SubInv s.subManager)
    {subId : CString}
    (haccepted : acceptedReq ctx s (.frame connFd len (some (.req subId filters)) env) = some key) :
    Subscribed key filters
      (relayStep lib ctx s (.frame connFd len (some (.req subId filters)) env)).subManager := by
  simp only [acceptedReq] at haccepted
  split at haccepted
  next hpasses =>
    cases haccepted
    simp only [Bool.and_eq_true, decide_eq_true_eq] at hpasses
    obtain ⟨⟨⟨⟨hpos, hmax⟩, hmgr⟩, hpassed⟩, hok⟩ := hpasses
    have hlen : ¬ (len = 0 || wsMaxFrameSize < len) = true := by
      simp only [Bool.or_eq_true, decide_eq_true_eq]
      omega
    have hcount : filters.length ≤ subMaxFilters := by
      simp only [reqPasses, Bool.and_eq_true, decide_eq_true_eq] at hpassed
      exact hpassed.2
    change Subscribed _ _ ((onWsMessage lib ctx connFd len (some (.req subId filters))).run
      (relayCall lib env) (arrived s connFd env)).2.state.subManager
    unfold onWsMessage
    rw [if_neg hlen]
    dsimp only [routerParse]
    rw [(run_req_passed lib (h := arrived s connFd env) hpassed).1]
    obtain ⟨-, hsame, -⟩ := run_rateAllowed lib ctx env connFd .req (arrived s connFd env)
    refine handleReq_subscribes lib ctx ?_ hmgr (List.length_take_le _ _) hcount ?_
    · rw [hsame]
      exact hinv
    · rw [hsame]
      exact hok
  next => cases haccepted

end Lasts

/-! ## What an accepted event sends -/

/-- Every allocation and every transmission succeeds. -/
def Provides
    (turns : Nat → CallTurn) : Prop :=
  ∀ n, (turns n).mallocOk = true ∧
    (turns n).send = { argOk := true, dataOk := true, httpdOk := true }

/-- The broadcast of an accepted event has one message for each matching subscription. -/
theorem broadcast_count
    {lib : Libnostr}
    {mgr : SubManager}
    {key : SubKey}
    {filters : List NostrFilter}
    (hsub : Subscribed key filters mgr)
    {event : NostrEvent}
    (hmatches : lib.filtersMatch filters event = true)
    (hfits : fitsBuffer lib event key = true) :
    (((subManagerMatch lib mgr event).filter (fitsBuffer lib event)).map
      (fun key => eventMsg key.1 key.2 event)).count (eventMsg key.1 key.2 event) = 1 := by
  have hmem : key ∈ (subManagerMatch lib mgr event).filter (fitsBuffer lib event) :=
    List.mem_filter.mpr
      ⟨(mem_subManagerMatch hsub.inv lib event key).mpr ⟨filters, hsub.lookup, hmatches⟩, hfits⟩
  refine List.count_eq_one_of_mem (List.Nodup.map ?_ ?_) (List.mem_map_of_mem hmem)
  · intro k k' hsame
    simp only [eventMsg, Prod.mk.injEq, NostrRelayMsg.event.injEq, and_true] at hsame
    exact Prod.ext hsame.1 hsame.2
  · exact (subManagerMatch_nodup hsub.inv lib event).filter _

section Told

variable
  {lib : Libnostr}
  {ctx : RelayCtx}
  {env : DispatchEnv}
  {publisher : Int32}
  {event : NostrEvent}
  {h : Handling}

/-- The publisher is told that its event was accepted. -/
def ToldAccepted
    (lib : Libnostr)
    (ctx : RelayCtx)
    (env : DispatchEnv)
    (publisher : Int32)
    (len : Nat)
    (event : NostrEvent)
    (h : Handling) : Prop :=
  ∃ idHex text, (publisher, NostrRelayMsg.ok idHex true text) ∈
    sends ((onWsMessage lib ctx publisher len (some (.event event))).trace (relayCall lib env) h)

theorem mem_sends_ok
    {idHex : CString}
    {accepted : Bool}
    {text : String}
    {x : Int32 × NostrRelayMsg}
    (hx : x ∈ sends ((do
      let _ ← routerSendOk lib publisher idHex accepted text
      pure () : RelayProg Unit).trace (relayCall lib env) h)) :
    x = (publisher, .ok idHex accepted text) := by
  refine sends_mem_of_calls (Q := fun x => x = (publisher, .ok idHex accepted text))
    (calls_sendOk ?_) h x hx
  rintro json fd message text' heq
  cases heq
  rfl

/-- What is sent while an event is handled whose publisher is told that it was accepted. -/
theorem told_sends
    {len : Nat}
    (htold : ToldAccepted lib ctx env publisher len event h) :
    let h' := ((rateAllowed ctx publisher .event).run (relayCall lib env) h).2
    ((handleEvent lib ctx event).run (relayCall lib env) h').1 = .ok ∧
      ∃ replies, (∀ x ∈ replies, ∃ idHex text, x = (publisher, NostrRelayMsg.ok idHex true text)) ∧
        sends ((onWsMessage lib ctx publisher len (some (.event event))).trace
            (relayCall lib env) h) =
          sends ((handleEvent lib ctx event).trace (relayCall lib env) h') ++ replies := by
  intro h'
  obtain ⟨idHex, text, hmem⟩ := htold
  unfold onWsMessage at hmem ⊢
  split at hmem
  next => cases hmem
  next hlen =>
    rw [if_neg hlen]
    dsimp only [routerParse] at hmem ⊢
    unfold routerDispatch at hmem ⊢
    rw [Prog.trace_bind, sends_append, sends_rateAllowed, List.nil_append] at hmem ⊢
    split at hmem
    next =>
      -- the message is refused
      cases mem_sends_ok hmem
    next hallowed =>
      rw [if_neg hallowed]
      rw [Prog.trace_bind, sends_append] at hmem ⊢
      rcases List.mem_append.mp hmem with hsent | hreply
      · have hbefore : MayPrecede publisher (.event event) _ :=
          handleEvent_sends ctx event _ _ hsent
        obtain ⟨fd, subId, heq⟩ := hbefore
        cases heq
      · have heq := mem_sends_ok hreply
        simp only [Prod.mk.injEq, NostrRelayMsg.ok.injEq, true_and] at heq
        have hok := of_decide_eq_true heq.2.1.symm
        refine ⟨hok, _, fun x hx => ?_, rfl⟩
        have hx := mem_sends_ok hx
        rw [hok] at hx
        exact ⟨_, _, hx⟩

/-- What the environment provides to a program, it provides to what comes after it. -/
theorem provides_run
    {α : Type}
    (p : RelayProg α)
    (hprovides : Provides h.turns) :
    Provides (p.run (relayCall lib env) h).2.turns :=
  Prog.run_keeps (I := fun h : Handling => Provides h.turns) (fun _ _ _ hh n => hh (n + 1))
    (Prog.Calls.unrestricted p) hprovides

/-- An event that its publisher is told was accepted is sent once to a matching subscription. -/
theorem told_count
    {key : SubKey}
    {filters : List NostrFilter}
    (hsub : Subscribed key filters h.state.subManager)
    (hmgr : ctx.subManager = true)
    (hprovides : Provides h.turns)
    (hmatches : lib.filtersMatch filters event = true)
    (hfits : fitsBuffer lib event key = true)
    {len : Nat}
    (htold : ToldAccepted lib ctx env publisher len event h) :
    (sends ((onWsMessage lib ctx publisher len (some (.event event))).trace
      (relayCall lib env) h)).count (eventMsg key.1 key.2 event) = 1 := by
  obtain ⟨hok, replies, hreplies, hsends⟩ := told_sends htold
  obtain ⟨-, hsame, -⟩ := run_rateAllowed lib ctx env publisher .event h
  have hturns : Provides ((rateAllowed ctx publisher .event).run (relayCall lib env) h).2.turns :=
    provides_run _ hprovides
  have hnone : replies.count (eventMsg key.1 key.2 event) = 0 := by
    refine List.count_eq_zero.mpr fun hmem => ?_
    obtain ⟨idHex, text, heq⟩ := hreplies _ hmem
    cases heq
  rw [hsends, List.count_append, hnone, (handleEvent_accepted hok).sends_matching hmgr
    (mallocAnswers_undisturbed _ fun n => (hturns n).1), hsame]
  exact broadcast_count hsub hmatches hfits

end Told

/-! ## From the call to the socket -/

/-- A message that was sent to a session is queued or written; its call is no earlier than `first`. -/
def OnItsWay
    (connFd : Int32)
    (message : NostrRelayMsg)
    (session first : Nat)
    (ws : WsServer) : Prop :=
  ∃ call : SendCall, call.connFd = connFd ∧ call.message = message ∧ first ≤ call.number ∧
    (call ∈ ws.queue ∨ { session := session, call := call } ∈ ws.written)

/-- The session has the descriptor, and so many calls were made. -/
def OpenSince
    (connFd : Int32)
    (session : Session)
    (first : Nat)
    (ws : WsServer) : Prop :=
  ws.sessions connFd = some session ∧ first ≤ ws.calls.length

section Sent

variable
  {connFd : Int32}
  {message : NostrRelayMsg}
  {session : Session}
  {first : Nat}
  {ws : WsServer}

theorem OpenSince.send
    (h : OpenSince connFd session first ws)
    (env : SendEnv)
    (fd : Int32)
    (other : NostrRelayMsg)
    (text : CString) :
    OpenSince connFd session first (wsServerSend env ws fd other text).2 := by
  obtain ⟨hsession, hfirst⟩ := h
  have hgrows : first ≤ (ws.calls ++ [ws.nextCall fd other text]).length := by
    rw [List.length_append]
    omega
  refine ⟨?_, by rwa [wsServerSend_calls]⟩
  rcases wsServerSend_cases ws fd env other text with heq | ⟨-, -, heq⟩ | ⟨-, heq⟩ <;> rw [heq]
  · exact hsession
  · rwa [WsServer.writeFrame_sessions]
  · exact hsession

/-- Other messages do not stop a message. -/
theorem OnItsWay.send
    {number : Nat}
    (h : OnItsWay connFd message number first ws)
    (env : SendEnv)
    (fd : Int32)
    (other : NostrRelayMsg)
    (text : CString) :
    OnItsWay connFd message number first (wsServerSend env ws fd other text).2 := by
  obtain ⟨call, hfd, hmessage, hfirst, hplace⟩ := h
  refine ⟨call, hfd, hmessage, hfirst, ?_⟩
  rcases wsServerSend_cases ws fd env other text with heq | ⟨-, -, heq⟩ | ⟨-, heq⟩ <;> rw [heq]
  · exact hplace
  · rw [WsServer.writeFrame_queue, WsServer.writeFrame_written]
    exact hplace.imp id (List.mem_append_left _)
  · exact hplace.imp (List.mem_append_left _) id

/-- A message that is sent is written or queued. -/
theorem OpenSince.sent
    (h : OpenSince connFd session first ws)
    {env : SendEnv}
    (hok : env = { argOk := true, dataOk := true, httpdOk := true })
    (text : CString) :
    OnItsWay connFd message session.number first (wsServerSend env ws connFd message text).2 := by
  obtain ⟨hsession, hfirst⟩ := h
  subst hok
  refine ⟨ws.nextCall connFd message text, rfl, rfl, hfirst, ?_⟩
  unfold wsServerSend
  dsimp only
  split
  next =>
    refine Or.inr ?_
    rw [if_pos rfl, WsServer.writeFrame_written]
    simp [WsServer.nextCall, hsession]
  next => exact Or.inl (List.mem_append_right _ (List.mem_singleton_self _))

theorem OpenSince.relayCall
    {lib : Libnostr}
    {env : DispatchEnv}
    (c : RelayCall)
    (h : Handling)
    (hopen : OpenSince connFd session first h.state.ws) :
    OpenSince connFd session first (relayCall lib env c h).2.state.ws :=
  relayCall_keeps (I := OpenSince connFd session first) (P := fun _ _ _ => True)
    (fun turn _ fd other text _ hws => hws.send turn.send fd other text) c h
    (fun _ _ _ _ => trivial) hopen

theorem OpenSince.run
    (lib : Libnostr)
    (env : DispatchEnv)
    {α : Type}
    (p : RelayProg α)
    {h : Handling}
    (hopen : OpenSince connFd session first h.state.ws) :
    OpenSince connFd session first (p.run (Relay.relayCall lib env) h).2.state.ws :=
  Prog.run_keeps (I := fun h : Handling => OpenSince connFd session first h.state.ws)
    (fun c h _ hh => hh.relayCall c h) (Prog.Calls.unrestricted p) hopen

theorem OnItsWay.relayCall
    {lib : Libnostr}
    {env : DispatchEnv}
    {number : Nat}
    (c : RelayCall)
    (h : Handling)
    (hway : OnItsWay connFd message number first h.state.ws) :
    OnItsWay connFd message number first (relayCall lib env c h).2.state.ws :=
  relayCall_keeps (I := OnItsWay connFd message number first) (P := fun _ _ _ => True)
    (fun turn _ fd other text _ hws => hws.send turn.send fd other text) c h
    (fun _ _ _ _ => trivial) hway

/-- What is sent in a program is written or queued when it ends. -/
theorem sent_is_on_its_way
    {lib : Libnostr}
    {env : DispatchEnv}
    {α : Type}
    {p : RelayProg α}
    {h : Handling}
    (hprovides : Provides h.turns)
    (hopen : OpenSince connFd session first h.state.ws)
    (hsent : (connFd, message) ∈ sends (p.trace (relayCall lib env) h)) :
    OnItsWay connFd message session.number first (p.run (relayCall lib env) h).2.state.ws := by
  induction p generalizing h with
  | done result => cases hsent
  | call c next ih =>
      rcases List.mem_filterMap.mp hsent with ⟨x, hx, hmessage⟩
      rcases List.mem_cons.mp hx with rfl | hlater
      · -- this call
        have hnow : OnItsWay connFd message session.number first
            (relayCall lib env c h).2.state.ws := by
          cases c with
          | wsSend fd other text =>
              cases hmessage
              exact hopen.sent (hprovides 0).2 text
          | _ => cases hmessage
        exact Prog.run_keeps
          (I := fun h : Handling => OnItsWay connFd message session.number first h.state.ws)
          (fun c h _ hh => hh.relayCall c h)
          (Prog.Calls.unrestricted (next (relayCall lib env c h).1)) hnow
      · exact ih _ (fun n => hprovides (n + 1)) (hopen.relayCall c h)
          (List.mem_filterMap.mpr ⟨x, hlater, hmessage⟩)

/-- A queued or written message is written when the server task has run its queue. -/
theorem OnItsWay.written
    (lib : Libnostr)
    (ctx : RelayCtx)
    {s : RelayState}
    (h : OnItsWay connFd message session.number first s.ws)
    (hsession : s.ws.sessions connFd = some session) :
    ∃ n, ∃ frame ∈ (afterEvents lib ctx s (draining n)).ws.written,
      frame.session = session.number ∧ frame.call.message = message ∧
        first ≤ frame.call.number := by
  obtain ⟨call, rfl, hmessage, hfirst, hqueued | hwritten⟩ := h
  · obtain ⟨front, rest, hqueue⟩ := List.append_of_mem hqueued
    obtain ⟨extra, hextra, hmem⟩ := draining_writes lib ctx hqueue hsession
    refine ⟨front.length + 1, { session := session.number, call := call }, ?_, rfl, hmessage,
      hfirst⟩
    rw [hextra]
    exact List.mem_append_right _ hmem
  · exact ⟨0, { session := session.number, call := call }, hwritten, rfl, hmessage, hfirst⟩

end Sent

/-! ## From the publisher to the subscriber -/

/--
**Live delivery.**  A client whose REQ was accepted and who has not named the subscription again or
gone away since: each event that matches its filters, and that its publisher is told was accepted,
is sent to it exactly once, and written to its session when the queue has been run; whatever other
clients and the cleanup task have done since the REQ.
-/
theorem published_event_is_written
    (lib : Libnostr)
    (ctx : RelayCtx)
    (storage : LoggedWorld)
    (past later : List RelayEvent)
    (connFd : Int32)
    (reqLen : Nat)
    (subId : CString)
    (filters : List NostrFilter)
    (reqEnv : DispatchEnv)
    (haccepted : acceptedReq ctx (afterEvents lib ctx (startRelay storage) past)
      (.frame connFd reqLen (some (.req subId filters)) reqEnv) =
        some (connFd, subId.take routerMaxSubId))
    (hlasts : ∀ event ∈ later, ¬ Touches (connFd, subId.take routerMaxSubId) event)
    (session : Session)
    (publisher : Int32)
    (len : Nat)
    (event : NostrEvent)
    (env : DispatchEnv)
    (hmatches : lib.filtersMatch filters event = true)
    (hfits : fitsBuffer lib event (connFd, subId.take routerMaxSubId) = true)
    (hprovides : Provides env.turns) :
    let s := afterEvents lib ctx (startRelay storage)
      (past ++ .frame connFd reqLen (some (.req subId filters)) reqEnv :: later)
    s.ws.sessions connFd = some session →
    ToldAccepted lib ctx env publisher len event (arrived s publisher env) →
    (sends ((onWsMessage lib ctx publisher len (some (.event event))).trace (relayCall lib env)
        (arrived s publisher env))).count (eventMsg connFd (subId.take routerMaxSubId) event) = 1 ∧
      ∃ n, ∃ frame ∈ (afterEvents lib ctx
          (relayStep lib ctx s (.frame publisher len (some (.event event)) env))
          (draining n)).ws.written,
        frame.session = session.number ∧
          frame.call.message = .event (subId.take routerMaxSubId) event ∧
          s.ws.calls.length ≤ frame.call.number := by
  intro s hsession htold
  have hsub : Subscribed (connFd, subId.take routerMaxSubId) filters s.subManager := by
    have hinv := afterEvents_subInv lib ctx storage past
    have hstart := Subscribed.accepted lib ctx hinv haccepted
    have hlater := hstart.later lib ctx later hlasts
    simp only [s, afterEvents_append]
    exact hlater
  have hmgr : ctx.subManager = true := by
    simp only [acceptedReq] at haccepted
    split at haccepted
    next hpasses =>
      simp only [Bool.and_eq_true] at hpasses
      exact hpasses.1.1.2
    next => cases haccepted
  have hcount := told_count (h := arrived s publisher env) hsub hmgr hprovides hmatches hfits htold
  refine ⟨hcount, ?_⟩
  have hsent : eventMsg connFd (subId.take routerMaxSubId) event ∈
      sends ((onWsMessage lib ctx publisher len (some (.event event))).trace (relayCall lib env)
        (arrived s publisher env)) :=
    List.count_pos_iff.mp (by rw [hcount]; exact Nat.one_pos)
  have hopen : OpenSince connFd session s.ws.calls.length (arrived s publisher env).state.ws :=
    ⟨hsession, Nat.le_refl _⟩
  have hstays := hopen.run lib env (onWsMessage lib ctx publisher len (some (.event event)))
  exact OnItsWay.written lib ctx
    (s := relayStep lib ctx s (.frame publisher len (some (.event event)) env))
    (sent_is_on_its_way hprovides hopen hsent) hstays.1

/-- Connection 7 has subscribed, connection 8 comes and publishes a note, and 7 is sent it. -/
theorem published_event_is_written_note :
    let lib := Sample.library (Sample.notes 1)
    let env := DispatchEnv.undisturbed 1700000000
    let s := afterEvents lib startedCtx (startRelay (erasedFlash 1000 1814400 thousandSlots))
      [.opened 7, .frame 7 20 (some (.req (ascii "feed") [{ kinds := [1] }])) env, .opened 8]
    let note := NostrClientMsg.event (Sample.numbered 0)
    (sends ((onWsMessage lib startedCtx 8 300 (some note)).trace (relayCall lib env)
        (arrived s 8 env))).count (7, .event (ascii "feed") (Sample.numbered 0)) = 1 ∧
      ∃ n, ∃ frame ∈ (afterEvents lib startedCtx
          (relayStep lib startedCtx s (.frame 8 300 (some note) env)) (draining n)).ws.written,
        frame.session = 0 ∧ frame.call.message = .event (ascii "feed") (Sample.numbered 0) ∧
          s.ws.calls.length ≤ frame.call.number := by
  intro lib env s note
  have haccepted : acceptedReq startedCtx
      (afterEvents lib startedCtx (startRelay (erasedFlash 1000 1814400 thousandSlots)) [.opened 7])
      (.frame 7 20 (some (.req (ascii "feed") [{ kinds := [1] }])) env) =
        some (7, (ascii "feed").take routerMaxSubId) := by
    decide +kernel
  have htold : ToldAccepted lib startedCtx env 8 300 (Sample.numbered 0) (arrived s 8 env) :=
    ⟨Sample.hexOf (Sample.numbered 0).id.toList, "", by decide +kernel⟩
  exact published_event_is_written lib startedCtx (erasedFlash 1000 1814400 thousandSlots)
    [.opened 7] [.opened 8] 7 20 (ascii "feed") [{ kinds := [1] }] env haccepted
    (by simp [Touches]) { number := 0, accepted := true } 8 300 (Sample.numbered 0) env
    (by decide +kernel) (by decide +kernel) (fun _ => ⟨rfl, rfl⟩) (by decide +kernel) htold

end Relay
end WispRelay
