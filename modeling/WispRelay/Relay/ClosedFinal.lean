import WispRelay.Relay.HandlerCalls
import WispRelay.Relay.Server
import WispRelay.Subscriptions.BoundedMap

/-!
# CLOSED is final

A CLOSED tells the client that a subscription has ended.  Of the six places that send one,
four refuse a REQ, and refusing a REQ leaves a subscription of the same name alone.

* `Quiet`: a part of a handler that leaves the subscriptions alone and sends only certain
  messages; most of the relay is quiet.
* `SubStep`: what one event does to the subscriptions and which messages it sends.
* `closed_final_when`: while no REQ for a live subscription is refused, a CLOSED ends its
  subscription, and nothing is sent for it until a later REQ is accepted.
* `refused_req_leaves_subscription`: otherwise a CLOSED can leave the subscription live.
-/

namespace WispRelay
namespace Relay

open Interference Runs Storage Subscriptions

/-! ## Quiet programs -/

/-- The subscriptions are left alone, and every message sent satisfies `Q`. -/
structure Quiet
    (Q : Int32 → NostrRelayMsg → Prop)
    (s s' : RelayState) : Prop where
  subManager : s'.subManager = s.subManager
  calls : ∃ sent, s'.ws.calls = s.ws.calls ++ sent ∧ ∀ c ∈ sent, Q c.connFd c.message

namespace Quiet

variable {Q : Int32 → NostrRelayMsg → Prop} {s s' s'' : RelayState}

theorem refl : Quiet Q s s where
  subManager := rfl
  calls := ⟨[], by simp, by simp⟩

theorem trans
    (h : Quiet Q s s')
    (h' : Quiet Q s' s'') :
    Quiet Q s s'' where
  subManager := h'.subManager.trans h.subManager
  calls := by
    obtain ⟨sent, hcalls, hsent⟩ := h.calls
    obtain ⟨sent', hcalls', hsent'⟩ := h'.calls
    refine ⟨sent ++ sent', by rw [hcalls', hcalls, List.append_assoc], ?_⟩
    intro c hc
    rcases List.mem_append.mp hc with hc | hc
    · exact hsent c hc
    · exact hsent' c hc

end Quiet

/-- A call that leaves the subscriptions alone, and sends only what satisfies `Q`. -/
def QuietCall
    (Q : Int32 → NostrRelayMsg → Prop) : RelayCall → Prop
  | .subAdd _ _ _ => False
  | .subRemove _ _ => False
  | .wsSend connFd message _ => Q connFd message
  | _ => True

theorem wsServerSend_calls (env : SendEnv) (ws : WsServer) (fd : Int32)
    (message : NostrRelayMsg) (text : CString) :
    (wsServerSend env ws fd message text).2.calls =
      ws.calls ++ [ws.nextCall fd message text] := by
  unfold wsServerSend
  dsimp only
  split_ifs <;> simp

section Programs

variable
  {lib : Libnostr}
  {env : DispatchEnv}
  {Q : Int32 → NostrRelayMsg → Prop}

theorem relayEffect_quiet
    (turn : CallTurn)
    (s : RelayState)
    {c : RelayCall}
    (h : QuietCall Q c) :
    Quiet Q s (relayEffect lib env turn s c).2 := by
  cases c with
  | timestampNow => exact Quiet.refl
  | malloc => exact Quiet.refl
  | rateCheck connFd type => exact ⟨rfl, [], by simp [relayEffect], by simp⟩
  | subAdd connFd subId filters => exact h.elim
  | subRemove connFd subId => exact h.elim
  | subMatch event => exact Quiet.refl
  | storage call => exact ⟨rfl, [], by simp [relayEffect], by simp⟩
  | wsSend connFd message text =>
      refine ⟨rfl, _, wsServerSend_calls turn.send s.ws connFd message text, ?_⟩
      intro c hc
      rw [List.mem_singleton.mp hc]
      exact h

variable (lib env) in
/-- A program of quiet calls is quiet. -/
theorem run_quiet
    {α : Type}
    {p : RelayProg α}
    (hp : p.Calls (QuietCall Q))
    (h : Handling) :
    Quiet Q h.state (p.run (relayCall lib env) h).2.state := by
  refine Prog.run_keeps (I := fun h' : Handling => Quiet Q h.state h'.state) ?_ hp Quiet.refl
  intro c h' hc hquiet
  exact hquiet.trans (relayEffect_quiet (h'.turns 0) h'.state hc)

theorem sendClosed_calls
    {connFd : Int32}
    {subId : CString}
    {text : String}
    (h : Q connFd (.closed subId text)) :
    (do
      let _ ← routerSendClosed lib connFd subId text
      pure () : RelayProg Unit).Calls (QuietCall Q) :=
  calls_sendClosed fun _ => h

theorem sendNotice_calls
    {connFd : Int32}
    {text : String}
    (h : Q connFd (.notice text)) :
    (do
      let _ ← routerSendNotice lib connFd text
      pure () : RelayProg Unit).Calls (QuietCall Q) :=
  calls_sendNotice fun _ => h

/-! ## Broadcasting -/

/-- Started with these subscriptions, the program is quiet. -/
def QuietFrom
    (lib : Libnostr)
    (env : DispatchEnv)
    (Q : Int32 → NostrRelayMsg → Prop)
    (mgr : SubManager)
    {α : Type}
    (p : RelayProg α) : Prop :=
  ∀ h : Handling, h.state.subManager = mgr →
    Quiet Q h.state (p.run (relayCall lib env) h).2.state

theorem QuietFrom.of_calls
    {mgr : SubManager}
    {α : Type}
    {p : RelayProg α}
    (hp : p.Calls (QuietCall Q)) :
    QuietFrom lib env Q mgr p := by
  intro h _
  exact run_quiet lib env hp h

theorem QuietFrom.bind
    {mgr : SubManager}
    {α β : Type}
    {p : RelayProg α}
    {f : α → RelayProg β}
    (hp : QuietFrom lib env Q mgr p)
    (hf : ∀ a, QuietFrom lib env Q mgr (f a)) :
    QuietFrom lib env Q mgr (p >>= f) := by
  intro h hmgr
  rw [Prog.run_bind]
  have hfirst := hp h hmgr
  exact hfirst.trans (hf _ _ (hfirst.subManager.trans hmgr))

/-- An event goes to live subscriptions only. -/
theorem broadcasterFanout_quiet
    {mgr : SubManager}
    (hinv : SubInv mgr)
    (ctx : RelayCtx)
    {event : NostrEvent}
    (hlive : ∀ key ∈ mgr.contents, Q key.1 (.event key.2 event)) :
    QuietFrom lib env Q mgr (broadcasterFanout lib ctx event) := by
  intro h hmgr
  unfold broadcasterFanout
  split
  · exact Quiet.refl
  have hsends : (Prog.forEach (fun key => do
      let _ ← routerSendEvent lib key.1 key.2 event
      pure ()) (subManagerMatch lib h.state.subManager event)).Calls (QuietCall Q) := by
    refine Prog.Calls.forEach fun key hkey => ?_
    refine Prog.Calls.bind (calls_routerSendEvent trivial fun _ => hlive key ?_) (fun _ => trivial)
    rw [hmgr] at hkey
    obtain ⟨filters, hlookup, -⟩ := (mem_subManagerMatch hinv lib event key).mp hkey
    exact Finmap.mem_of_lookup_eq_some hlookup
  exact run_quiet lib env hsends (relayCall lib env (.subMatch event) h).2

theorem handleEvent_quiet
    {mgr : SubManager}
    (hinv : SubInv mgr)
    (ctx : RelayCtx)
    {event : NostrEvent}
    (hlive : ∀ key ∈ mgr.contents, Q key.1 (.event key.2 event)) :
    QuietFrom lib env Q mgr (handleEvent lib ctx event) := by
  have hread : QuietFrom lib env Q mgr Perform.timestampNow :=
    QuietFrom.of_calls (Prog.Calls.perform trivial)
  refine hread.bind fun validated => hread.bind fun aged => ?_
  dsimp only
  split
  · exact QuietFrom.of_calls trivial
  refine (QuietFrom.of_calls (calls_processDeletion trivial (fun _ => trivial)
    (fun _ _ => trivial) (fun _ => trivial) event)).bind fun _ => ?_
  refine (QuietFrom.of_calls (calls_storeEvent trivial)).bind fun stored => ?_
  split
  · exact QuietFrom.of_calls trivial
  · exact (broadcasterFanout_quiet hinv ctx hlive).bind fun _ => QuietFrom.of_calls trivial

end Programs

/-! ## What one event does -/

/-- The live subscriptions. -/
def RelayState.subs
    (s : RelayState) : SubMap :=
  s.subManager.contents

/-- The table is in order, no subscription has the empty name, and an unused table is empty. -/
structure ValidSubs
    (ctx : RelayCtx)
    (mgr : SubManager) : Prop where
  inv : SubInv mgr
  named : ∀ key ∈ mgr.contents, key.2 ≠ []
  used : ∀ key ∈ mgr.contents, ctx.subManager = true

/-- Fewer subscriptions. -/
theorem ValidSubs.mono
    {ctx : RelayCtx}
    {mgr mgr' : SubManager}
    (h : ValidSubs ctx mgr)
    (hinv : SubInv mgr')
    (hkeys : ∀ key ∈ mgr'.contents, key ∈ mgr.contents) :
    ValidSubs ctx mgr' where
  inv := hinv
  named := fun key hkey => h.named key (hkeys key hkey)
  used := fun key hkey => h.used key (hkeys key hkey)

/-- The rate limiter, when there is one, answers that the message is allowed. -/
def rateAllows
    (ctx : RelayCtx)
    (env : DispatchEnv)
    (s : RelayState)
    (connFd : Int32)
    (type : RateType) : Bool :=
  !ctx.rateLimiter ||
    (rateLimiterCheck env.opened env.checked s.rateLimiter connFd type).1

/-- A REQ reaches `sub_manager_add`. -/
def reqPasses
    (ctx : RelayCtx)
    (env : DispatchEnv)
    (s : RelayState)
    (connFd : Int32)
    (subId : CString)
    (filters : List NostrFilter) : Bool :=
  rateAllows ctx env s connFd .req && 0 < subId.length && subId.length ≤ routerMaxSubId &&
    filters.length ≤ routerMaxFilters

/-- The subscription of the REQ that is accepted in the event, if there is one. -/
def acceptedReq
    (ctx : RelayCtx)
    (s : RelayState) : RelayEvent → Option SubKey
  | .frame connFd len (some (.req subscriptionId filters)) env =>
      let subId := subscriptionId.take routerMaxSubId
      if 0 < len && len ≤ wsMaxFrameSize && ctx.subManager &&
          reqPasses ctx env s connFd subId filters &&
          (subManagerAdd env.copies s.subManager connFd subId filters).1 = .ok then
        some (connFd, subId)
      else
        none
  | _ => none

/-- What one event does to the subscriptions, and which messages it sends. -/
structure SubStep
    (ctx : RelayCtx)
    (s s' : RelayState)
    (accepted : Option SubKey) : Prop where
  valid : ValidSubs ctx s'.subManager
  keys : ∀ key ∈ s'.subs, key ∈ s.subs ∨ accepted = some key
  calls : ∃ sent, s'.ws.calls = s.ws.calls ++ sent ∧
    (∀ c ∈ sent, ∀ subId text, c.message = .closed subId text → (c.connFd, subId) ∉ s'.subs) ∧
    (∀ c ∈ sent, ∀ subId event, c.message = .event subId event →
      (c.connFd, subId) ∈ s.subs ∨ accepted = some (c.connFd, subId))

/-- Only the subscriptions and the calls of `ws_server_send` matter. -/
theorem SubStep.congr
    {ctx : RelayCtx}
    {s t s' t' : RelayState}
    {accepted : Option SubKey}
    (h : SubStep ctx s s' accepted)
    (hmgr : s.subManager = t.subManager)
    (hcalls : s.ws.calls = t.ws.calls)
    (hmgr' : s'.subManager = t'.subManager)
    (hcalls' : s'.ws.calls = t'.ws.calls) :
    SubStep ctx t t' accepted := by
  have hsubs : s.subs = t.subs := congrArg SubManager.contents hmgr
  have hsubs' : s'.subs = t'.subs := congrArg SubManager.contents hmgr'
  have hkeys := h.keys
  obtain ⟨sent, hsent, hclosed, hevent⟩ := h.calls
  rw [hsubs, hsubs'] at hkeys
  rw [hsubs'] at hclosed
  rw [hsubs] at hevent
  exact ⟨hmgr' ▸ h.valid, hkeys, sent, by rw [← hcalls', ← hcalls, hsent], hclosed, hevent⟩

/-- An event that first changes the subscriptions, and sends messages after that. -/
theorem SubStep.of_quiet
    {ctx : RelayCtx}
    {s m s' : RelayState}
    {accepted : Option SubKey}
    {Q : Int32 → NostrRelayMsg → Prop}
    (hcalls : m.ws.calls = s.ws.calls)
    (hvalid : ValidSubs ctx m.subManager)
    (hkeys : ∀ key ∈ m.subs, key ∈ s.subs ∨ accepted = some key)
    (hquiet : Quiet Q m s')
    (hclosed : ∀ fd subId text, Q fd (.closed subId text) → (fd, subId) ∉ m.subs)
    (hevent : ∀ fd subId event, Q fd (.event subId event) →
      (fd, subId) ∈ s.subs ∨ accepted = some (fd, subId)) :
    SubStep ctx s s' accepted := by
  have hsubs : s'.subs = m.subs := congrArg SubManager.contents hquiet.subManager
  obtain ⟨sent, hsent, hQ⟩ := hquiet.calls
  refine ⟨?_, ?_, sent, by rw [hsent, hcalls], ?_, ?_⟩
  · rw [hquiet.subManager]
    exact hvalid
  · rw [hsubs]
    exact hkeys
  · intro c hc subId text hmessage
    rw [hsubs]
    exact hclosed _ _ text (hmessage ▸ hQ c hc)
  · intro c hc subId event hmessage
    exact hevent _ _ event (hmessage ▸ hQ c hc)

/-- An event that leaves the subscriptions alone. -/
theorem SubStep.of_unchanged
    {ctx : RelayCtx}
    {s s' : RelayState}
    {accepted : Option SubKey}
    {Q : Int32 → NostrRelayMsg → Prop}
    (hvalid : ValidSubs ctx s.subManager)
    (hquiet : Quiet Q s s')
    (hclosed : ∀ fd subId text, Q fd (.closed subId text) → (fd, subId) ∉ s.subs)
    (hevent : ∀ fd subId event, Q fd (.event subId event) → (fd, subId) ∈ s.subs) :
    SubStep ctx s s' accepted :=
  SubStep.of_quiet rfl hvalid (fun _ h => Or.inl h) hquiet hclosed
    (fun fd subId event h => Or.inl (hevent fd subId event h))

/-- A REQ for a live subscription is not refused. -/
def KeepsLive
    (ctx : RelayCtx)
    (s : RelayState) : RelayEvent → Prop
  | .frame connFd len (some (.req subscriptionId filters)) env =>
      0 < len → len ≤ wsMaxFrameSize →
      (connFd, subscriptionId.take routerMaxSubId) ∈ s.subs →
      rateAllows ctx env s connFd .req = true ∧ filters.length ≤ routerMaxFilters ∧
        Copied env.copies filters
  | _ => True

section Dispatch

variable
  {lib : Libnostr}
  {ctx : RelayCtx}
  {env : DispatchEnv}
  {connFd : Int32}

variable (lib ctx env connFd) in
/-- The check of the rate limiter changes nothing but the rate limiter. -/
theorem run_rateAllowed
    (type : RateType)
    (h : Handling) :
    ((rateAllowed ctx connFd type).run (relayCall lib env) h).1 =
        rateAllows ctx env h.state connFd type ∧
      ((rateAllowed ctx connFd type).run (relayCall lib env) h).2.state.subManager =
        h.state.subManager ∧
      ((rateAllowed ctx connFd type).run (relayCall lib env) h).2.state.ws = h.state.ws := by
  unfold rateAllowed rateAllows
  cases ctx.rateLimiter with
  | false => exact ⟨rfl, rfl, rfl⟩
  | true => exact ⟨rfl, rfl, rfl⟩

/-- A message that only sends replies other than CLOSED and EVENT. -/
theorem subStep_of_reply
    {accepted : Option SubKey}
    {h : Handling}
    (hvalid : ValidSubs ctx h.state.subManager)
    {α : Type}
    {p : RelayProg α}
    (hp : p.Calls (QuietCall fun _ message =>
      (∀ subId text, message ≠ .closed subId text) ∧ ∀ subId event, message ≠ .event subId event)) :
    SubStep ctx h.state (p.run (relayCall lib env) h).2.state accepted :=
  SubStep.of_unchanged hvalid (run_quiet lib env hp h)
    (fun _ subId text hQ => absurd rfl (hQ.1 subId text))
    (fun _ subId event hQ => absurd rfl (hQ.2 subId event))

/-- An EVENT is broadcast to live subscriptions. -/
theorem dispatch_event_subStep
    {accepted : Option SubKey}
    {h : Handling}
    (hvalid : ValidSubs ctx h.state.subManager)
    (event : NostrEvent) :
    SubStep ctx h.state
      ((routerDispatch lib ctx connFd (.event event)).run (relayCall lib env) h).2.state
      accepted := by
  let Q : Int32 → NostrRelayMsg → Prop := fun fd message =>
    (∀ subId text, message ≠ .closed subId text) ∧
      ∀ subId event, message = .event subId event → (fd, subId) ∈ h.state.subs
  have hok : ∀ accepted text, QuietFrom lib env Q h.state.subManager (do
      let _ ← routerSendOk lib connFd (lib.bytesToHex event.id.toList) accepted text
      pure ()) := by
    intro accepted text
    refine QuietFrom.of_calls (calls_sendOk fun _ => ?_)
    exact ⟨by simp, by simp⟩
  have hquiet : QuietFrom lib env Q h.state.subManager
      (routerDispatch lib ctx connFd (.event event)) := by
    refine (QuietFrom.of_calls (calls_rateAllowed ctx connFd .event trivial)).bind fun allowed => ?_
    split
    · exact hok false _
    refine (handleEvent_quiet hvalid.inv ctx ?_).bind fun result => hok _ _
    intro key hkey
    refine ⟨by simp, ?_⟩
    rintro subId event ⟨⟩
    exact hkey
  exact SubStep.of_unchanged hvalid (hquiet h rfl)
    (fun _ subId text hQ => absurd rfl (hQ.1 subId text))
    (fun _ subId event hQ => hQ.2 subId event rfl)

/-- A CLOSE removes the subscription before the CLOSED is sent. -/
theorem dispatch_close_subStep
    {accepted : Option SubKey}
    {h : Handling}
    (hvalid : ValidSubs ctx h.state.subManager)
    (subId : CString) :
    SubStep ctx h.state
      ((routerDispatch lib ctx connFd (.close subId)).run (relayCall lib env) h).2.state
      accepted := by
  cases hmgr : ctx.subManager with
  | false =>
      refine SubStep.of_unchanged (s := h.state) hvalid ?_ ?_ ?_
        (Q := fun fd message => fd = connFd ∧ ∃ text, message = .closed subId text)
      · simp only [routerDispatch, handleClose, hmgr]
        exact run_quiet lib env (sendClosed_calls ⟨rfl, "", rfl⟩) h
      · intro fd subId text _ hlive
        rw [hvalid.used _ hlive] at hmgr
        cases hmgr
      · rintro fd subId event ⟨_, text, ⟨⟩⟩
  | true =>
      obtain ⟨hinv, hcontents, -⟩ :=
        subManagerRemove_outcome hvalid.inv connFd subId
      let removed := (relayCall lib env (.subRemove connFd subId) h).2
      have hsubs : removed.state.subs = h.state.subs.erase (connFd, subId) := hcontents
      have hfewer : ∀ key ∈ removed.state.subs, key ∈ h.state.subs := by
        intro key hkey
        rw [hsubs] at hkey
        exact (Finmap.mem_erase.mp hkey).2
      refine SubStep.of_quiet (m := removed.state)
        (Q := fun fd message => fd = connFd ∧ ∃ text, message = .closed subId text)
        rfl (hvalid.mono hinv hfewer) (fun key hkey => Or.inl (hfewer key hkey)) ?_ ?_ ?_
      · simp only [routerDispatch, handleClose, hmgr]
        exact run_quiet lib env (sendClosed_calls ⟨rfl, _, rfl⟩) removed
      · rintro fd subId text ⟨rfl, _, ⟨⟩⟩
        rw [hsubs]
        exact Finmap.notMem_erase_self
      · rintro fd subId event ⟨_, text, ⟨⟩⟩

/-- A REQ that reaches `sub_manager_add` is accepted there, or names no live subscription. -/
theorem handleReq_subStep
    {h : Handling}
    (hvalid : ValidSubs ctx h.state.subManager)
    {subId : CString}
    {filters : List NostrFilter}
    (hnamed : 0 < subId.length)
    (hid : subId.length ≤ subMaxIdLen)
    (hkeeps : (connFd, subId) ∈ h.state.subs → Copied env.copies filters) :
    SubStep ctx h.state
      ((handleReq lib ctx connFd subId filters).run (relayCall lib env) h).2.state
      (if ctx.subManager &&
          (subManagerAdd env.copies h.state.subManager connFd subId filters).1 = .ok then
        some (connFd, subId)
      else none) := by
  cases hmgr : ctx.subManager with
  | false =>
      simp only [handleReq, hmgr, Bool.not_false, if_true]
      refine subStep_of_reply hvalid (calls_sendEose fun _ => ?_)
      exact ⟨by simp, by simp⟩
  | true =>
      obtain ⟨hinv, houtcome⟩ :
          SubInv (subManagerAdd env.copies h.state.subManager connFd subId filters).2 ∧ _ :=
        subManagerAdd_outcome hvalid.inv env.copies filters hid
      let added := (relayCall lib env (.subAdd connFd subId filters) h).2
      have hrun : (handleReq lib ctx connFd subId filters).run (relayCall lib env) h =
          Prog.run (relayCall lib env)
            (if (subManagerAdd env.copies h.state.subManager connFd subId filters).1 ≠ .ok then do
              let _ ← routerSendClosed lib connFd subId "error: too many subscriptions"
              pure ()
            else do
              queryStored lib ctx connFd subId filters
              let _ ← routerSendEose lib connFd subId
              pure ()) added := by
        simp only [handleReq, hmgr]
        rfl
      rw [hrun]
      by_cases hok : (subManagerAdd env.copies h.state.subManager connFd subId filters).1 = .ok
      · have hsubs : added.state.subs = h.state.subs.insert (connFd, subId) _ :=
          houtcome.eq_insert hok
        have hkeys : ∀ key ∈ added.state.subs,
            key = (connFd, subId) ∨ key ∈ h.state.subs := by
          intro key hkey
          rw [hsubs] at hkey
          exact Finmap.mem_insert.mp hkey
        rw [if_neg (not_not_intro hok)]
        refine SubStep.of_quiet (m := added.state)
          (Q := fun fd message => fd = connFd ∧
            (message = .eose subId ∨ ∃ event, message = .event subId event))
          rfl ⟨hinv, ?_, fun _ _ => hmgr⟩ ?_
          (run_quiet lib env (Prog.Calls.bind
            (calls_queryStored trivial ?_ filters (fun _ _ => trivial))
            (fun _ => calls_sendEose fun _ => ?_)) added) ?_ ?_
        · intro key hkey
          rcases hkeys key hkey with rfl | hold
          · exact List.ne_nil_of_length_pos hnamed
          · exact hvalid.named key hold
        · intro key hkey
          rcases hkeys key hkey with rfl | hold
          · exact Or.inr (by simp [hok])
          · exact Or.inl hold
        · exact fun event _ => ⟨rfl, Or.inr ⟨event, rfl⟩⟩
        · exact ⟨rfl, Or.inl rfl⟩
        · rintro fd subId' text ⟨_, hmessage | ⟨_, hmessage⟩⟩ <;> cases hmessage
        · rintro fd subId' event ⟨rfl, hmessage | ⟨_, hmessage⟩⟩
          · cases hmessage
          · cases hmessage
            exact Or.inr (by simp [hok])
      · obtain ⟨hsame, habsent⟩ := houtcome.refused hok hkeeps
        have hsubs : added.state.subs = h.state.subs := hsame
        have hfewer : ∀ key ∈ added.state.subs, key ∈ h.state.subs := by
          intro key hkey
          rw [hsubs] at hkey
          exact hkey
        rw [if_pos hok]
        refine SubStep.of_quiet (m := added.state)
          (Q := fun fd message => fd = connFd ∧ ∃ text, message = .closed subId text)
          rfl (hvalid.mono hinv hfewer) (fun key hkey => Or.inl (hfewer key hkey))
          (run_quiet lib env (sendClosed_calls ⟨rfl, _, rfl⟩) added) ?_ ?_
        · rintro fd subId' text ⟨rfl, _, ⟨⟩⟩
          rw [hsubs]
          exact habsent
        · rintro fd subId' event ⟨_, _, ⟨⟩⟩

/-- A REQ that is refused before it reaches `sub_manager_add` gets a CLOSED. -/
theorem run_req_refused
    {h : Handling}
    {subId : CString}
    {filters : List NostrFilter}
    (hrefused : reqPasses ctx env h.state connFd subId filters = false) :
    Quiet (fun fd message => fd = connFd ∧ ∃ text, message = .closed subId text) h.state
      ((routerDispatch lib ctx connFd (.req subId filters)).run (relayCall lib env) h).2.state := by
  obtain ⟨hallowed, -, -⟩ := run_rateAllowed lib ctx env connFd .req h
  have hquiet := run_quiet lib env
    (Q := fun fd message => fd = connFd ∧ ∃ text, message = .closed subId text)
    (calls_rateAllowed ctx connFd .req trivial) h
  simp only [routerDispatch, Prog.run_bind]
  refine hquiet.trans ?_
  rw [hallowed]
  simp only [reqPasses, Bool.and_eq_false_iff, decide_eq_false_iff_not] at hrefused
  split_ifs with hrate hname hcount
  · exact run_quiet lib env (sendClosed_calls ⟨rfl, _, rfl⟩) _
  · exact run_quiet lib env (sendClosed_calls ⟨rfl, _, rfl⟩) _
  · exact run_quiet lib env (sendClosed_calls ⟨rfl, _, rfl⟩) _
  · exfalso
    simp only [Bool.not_eq_true, Bool.not_eq_false'] at hrate
    simp only [Bool.or_eq_true, decide_eq_true_eq, not_or, Nat.not_lt] at hname
    rcases hrefused with ((h | h) | h) | h
    · rw [hrate] at h
      cases h
    · omega
    · omega
    · omega

variable (lib ctx connFd) in
/-- A REQ that passes the checks is handled by `handle_req`. -/
theorem dispatch_req_eq
    (subId : CString)
    (filters : List NostrFilter) :
    ∃ next : Bool → RelayProg Unit,
      routerDispatch lib ctx connFd (.req subId filters) =
        (rateAllowed ctx connFd .req >>= next) ∧
      (0 < subId.length → subId.length ≤ routerMaxSubId → filters.length ≤ routerMaxFilters →
        next true = handleReq lib ctx connFd subId filters) := by
  refine ⟨_, rfl, ?_⟩
  intro hpos hid hcount
  rw [if_neg (by simp), if_neg, if_neg (Nat.not_lt.mpr hcount)]
  simp only [Bool.or_eq_true, decide_eq_true_eq, not_or, Nat.not_lt]
  exact ⟨Nat.pos_iff_ne_zero.mp hpos, hid⟩

variable (lib) in
/-- A REQ that is not refused reaches `sub_manager_add`. -/
theorem run_req_passed
    {h : Handling}
    {subId : CString}
    {filters : List NostrFilter}
    (hpasses : reqPasses ctx env h.state connFd subId filters = true) :
    let h' := ((rateAllowed ctx connFd .req).run (relayCall lib env) h).2
    let request := routerDispatch lib ctx connFd (.req subId filters)
    let handler := handleReq lib ctx connFd subId filters
    request.run (relayCall lib env) h = handler.run (relayCall lib env) h' ∧
      request.trace (relayCall lib env) h =
        (rateAllowed ctx connFd .req).trace (relayCall lib env) h ++
          handler.trace (relayCall lib env) h' := by
  obtain ⟨hallowed, -, -⟩ := run_rateAllowed lib ctx env connFd .req h
  simp only [reqPasses, Bool.and_eq_true, decide_eq_true_eq] at hpasses
  obtain ⟨⟨⟨hrate, hpos⟩, hid⟩, hcount⟩ := hpasses
  obtain ⟨next, hdispatch, hnext⟩ := dispatch_req_eq lib ctx connFd subId filters
  intro h' request handler
  have hrequest : request = (rateAllowed ctx connFd .req >>= next) := hdispatch
  rw [hrequest, Prog.run_bind, Prog.trace_bind, hallowed, hrate, hnext hpos hid hcount]
  exact ⟨rfl, rfl⟩

/-- A REQ is accepted, or names no live subscription. -/
theorem dispatch_req_subStep
    {h : Handling}
    (hvalid : ValidSubs ctx h.state.subManager)
    {subId : CString}
    {filters : List NostrFilter}
    (hid : subId.length ≤ routerMaxSubId)
    (hkeeps : (connFd, subId) ∈ h.state.subs →
      rateAllows ctx env h.state connFd .req = true ∧ filters.length ≤ routerMaxFilters ∧
        Copied env.copies filters) :
    SubStep ctx h.state
      ((routerDispatch lib ctx connFd (.req subId filters)).run (relayCall lib env) h).2.state
      (if ctx.subManager && reqPasses ctx env h.state connFd subId filters &&
          (subManagerAdd env.copies h.state.subManager connFd subId filters).1 = .ok then
        some (connFd, subId)
      else none) := by
  cases hpasses : reqPasses ctx env h.state connFd subId filters with
  | false =>
      have hnot : (connFd, subId) ∉ h.state.subs := by
        intro hlive
        obtain ⟨hrate, hcount, -⟩ := hkeeps hlive
        have hname := hvalid.named _ hlive
        simp only [reqPasses, hrate, hcount, hid] at hpasses
        simp at hpasses
        exact hname hpasses
      refine SubStep.of_unchanged hvalid (run_req_refused hpasses) ?_ ?_
      · rintro fd subId' text ⟨rfl, _, ⟨⟩⟩
        exact hnot
      · rintro fd subId' event ⟨_, _, ⟨⟩⟩
  | true =>
      have hpos : 0 < subId.length := by
        simp only [reqPasses, Bool.and_eq_true, decide_eq_true_eq] at hpasses
        exact hpasses.1.1.2
      obtain ⟨-, hmgr, hws⟩ := run_rateAllowed lib ctx env connFd .req h
      rw [(run_req_passed lib hpasses).1]
      let checked := ((rateAllowed ctx connFd .req).run (relayCall lib env) h).2
      have hsubs : checked.state.subs = h.state.subs := congrArg SubManager.contents hmgr
      have hkeeps' : (connFd, subId) ∈ checked.state.subs → Copied env.copies filters := by
        intro hlive
        rw [hsubs] at hlive
        exact (hkeeps hlive).2.2
      have hstep : SubStep ctx checked.state
          ((handleReq lib ctx connFd subId filters).run (relayCall lib env) checked).2.state _ :=
        handleReq_subStep (hmgr ▸ hvalid) hpos hid hkeeps'
      rw [hmgr] at hstep
      simp only [Bool.and_true]
      exact hstep.congr hmgr (congrArg WsServer.calls hws) rfl rfl

end Dispatch

/-! ## Runs -/

/-- **One event.**  While no REQ for a live subscription is refused. -/
theorem relayStep_subStep
    (lib : Libnostr)
    {ctx : RelayCtx}
    {s : RelayState}
    (hvalid : ValidSubs ctx s.subManager)
    {event : RelayEvent}
    (hkeeps : KeepsLive ctx s event) :
    SubStep ctx s (relayStep lib ctx s event) (acceptedReq ctx s event) := by
  cases event with
  | opened connFd =>
      have hcalls : (relayStep lib ctx s (.opened connFd)).ws.calls = s.ws.calls :=
        openSession_calls s.ws connFd
      exact SubStep.of_unchanged (Q := fun _ _ => False) hvalid ⟨rfl, [], by simp [hcalls], by simp⟩
        (fun _ _ _ h => h.elim) (fun _ _ _ h => h.elim)
  | closed connFd =>
      obtain ⟨hinv, hcontents⟩ := subManagerRemoveAll_contents hvalid.inv connFd
      have hfewer : ∀ key ∈ (subManagerRemoveAll s.subManager connFd).contents,
          key ∈ s.subManager.contents := by
        intro key hkey
        rw [hcontents, ← Finmap.mem_keys, SlotTable.keys_filterKeys, Finset.mem_filter,
          Finmap.mem_keys] at hkey
        exact hkey.1
      exact SubStep.of_quiet (m := relayStep lib ctx s (.closed connFd)) (Q := fun _ _ => False)
        (endSession_onClose_calls s.ws connFd) (hvalid.mono hinv hfewer)
        (fun key hkey => Or.inl (hfewer key hkey)) Quiet.refl
        (fun _ _ _ h => h.elim) (fun _ _ _ h => h.elim)
  | work sendOk =>
      have hcalls : (relayStep lib ctx s (.work sendOk)).ws.calls = s.ws.calls :=
        runQueued_calls s.ws sendOk
      exact SubStep.of_unchanged (Q := fun _ _ => False) hvalid ⟨rfl, [], by simp [hcalls], by simp⟩
        (fun _ _ _ h => h.elim) (fun _ _ _ h => h.elim)
  | cleanup work =>
      exact SubStep.of_unchanged (Q := fun _ _ => False) hvalid
        ⟨rfl, [], by simp [relayStep], by simp⟩
        (fun _ _ _ h => h.elim) (fun _ _ _ h => h.elim)
  | frame connFd len parsed env =>
      let requested : Handling :=
        { state := { s with ws := { s.ws with currentReq := some connFd } }, turns := env.turns }
      suffices hhandled : SubStep ctx requested.state
          ((onWsMessage lib ctx connFd len parsed).run (relayCall lib env) requested).2.state
          (acceptedReq ctx s (.frame connFd len parsed env)) from
        hhandled.congr rfl rfl rfl rfl
      unfold onWsMessage
      split
      · exact SubStep.of_unchanged (Q := fun _ _ => False) hvalid Quiet.refl
          (fun _ _ _ h => h.elim) (fun _ _ _ h => h.elim)
      rename_i hlen
      simp only [Bool.or_eq_true, decide_eq_true_eq, not_or, Nat.not_lt] at hlen
      have hpos : 0 < len := Nat.pos_iff_ne_zero.mpr hlen.1
      cases parsed with
      | none => exact subStep_of_reply hvalid (sendNotice_calls ⟨by simp, by simp⟩)
      | some msg =>
          cases msg with
          | event event => exact dispatch_event_subStep hvalid event
          | close subscriptionId => exact dispatch_close_subStep hvalid _
          | auth => exact subStep_of_reply hvalid (sendNotice_calls ⟨by simp, by simp⟩)
          | other => exact subStep_of_reply hvalid (sendNotice_calls ⟨by simp, by simp⟩)
          | req subscriptionId filters =>
              have hid : (subscriptionId.take routerMaxSubId).length ≤ routerMaxSubId :=
                List.length_take_le _ _
              have hstep : SubStep ctx requested.state
                  ((routerDispatch lib ctx connFd (.req (subscriptionId.take routerMaxSubId)
                    filters)).run (relayCall lib env) requested).2.state _ :=
                dispatch_req_subStep hvalid hid (hkeeps hpos hlen.2)
              simp only [acceptedReq, hpos, hlen.2, decide_true, Bool.true_and]
              exact hstep

/-- What is sent in an event. -/
def sentIn
    (lib : Libnostr)
    (ctx : RelayCtx)
    (s : RelayState)
    (event : RelayEvent) : List SendCall :=
  (relayStep lib ctx s event).ws.calls.drop s.ws.calls.length

/-- In the run a CLOSED ends its subscription until a REQ for it is accepted. -/
structure ClosedFinal
    (lib : Libnostr)
    (ctx : RelayCtx)
    (start : RelayState)
    (events : List RelayEvent) : Prop where
  /-- The subscription named in a CLOSED is not live afterwards. -/
  ended : ∀ past event, past ++ [event] <+: events →
    ∀ c ∈ sentIn lib ctx (afterEvents lib ctx start past) event, ∀ subId text,
      c.message = .closed subId text →
      (c.connFd, subId) ∉ (afterEvents lib ctx start (past ++ [event])).subs
  /-- No EVENT is sent for it while no later REQ is accepted. -/
  silent : ∀ past closing later event, past ++ [closing] ++ later ++ [event] <+: events →
    ∀ c ∈ sentIn lib ctx (afterEvents lib ctx start past) closing, ∀ subId text,
      c.message = .closed subId text →
      (∀ front e, front ++ [e] <+: later ++ [event] →
        acceptedReq ctx (afterEvents lib ctx start (past ++ [closing] ++ front)) e ≠
          some (c.connFd, subId)) →
      ∀ c' ∈ sentIn lib ctx (afterEvents lib ctx start (past ++ [closing] ++ later)) event,
        c'.connFd = c.connFd → ∀ note, c'.message ≠ .event subId note

/-- No REQ for a live subscription is refused in the run. -/
def KeepsLiveIn
    (lib : Libnostr)
    (ctx : RelayCtx)
    (start : RelayState)
    (events : List RelayEvent) : Prop :=
  ∀ past event, past ++ [event] <+: events →
    KeepsLive ctx (afterEvents lib ctx start past) event

section Run

variable
  {lib : Libnostr}
  {ctx : RelayCtx}
  {start : RelayState}
  {events : List RelayEvent}

theorem validSubs_of_run
    (hstart : ValidSubs ctx start.subManager)
    (hkeeps : KeepsLiveIn lib ctx start events) :
    ValidSubs ctx (afterEvents lib ctx start events).subManager := by
  have hadmits : Admits (relayMachine lib ctx) (KeepsLive ctx) start events := hkeeps
  exact hadmits.invariant (fun s => ValidSubs ctx s.subManager) hstart
    fun _ _ hlive hvalid => (relayStep_subStep lib hvalid hlive).valid

/-- Each event of the run does what `SubStep` says. -/
theorem subStep_of_run
    (hstart : ValidSubs ctx start.subManager)
    (hkeeps : KeepsLiveIn lib ctx start events)
    {past : List RelayEvent}
    {event : RelayEvent}
    (hupto : past ++ [event] <+: events) :
    SubStep ctx (afterEvents lib ctx start past) (afterEvents lib ctx start (past ++ [event]))
      (acceptedReq ctx (afterEvents lib ctx start past) event) := by
  rw [afterEvents_snoc]
  have hpast : KeepsLiveIn lib ctx start past :=
    Admits.before hkeeps ((List.prefix_append past [event]).trans hupto)
  exact relayStep_subStep lib (validSubs_of_run hstart hpast) (hkeeps past event hupto)

/-- The messages an event sends are those `SubStep` speaks of. -/
theorem SubStep.sentIn
    {s : RelayState}
    {event : RelayEvent}
    {accepted : Option SubKey}
    (h : SubStep ctx s (relayStep lib ctx s event) accepted)
    {c : SendCall}
    (hc : c ∈ sentIn lib ctx s event) :
    (∀ subId text, c.message = .closed subId text →
        (c.connFd, subId) ∉ (relayStep lib ctx s event).subs) ∧
      (∀ subId note, c.message = .event subId note →
        (c.connFd, subId) ∈ s.subs ∨ accepted = some (c.connFd, subId)) := by
  obtain ⟨sent, hsent, hclosed, hevent⟩ := h.calls
  rw [Relay.sentIn, hsent, List.drop_left] at hc
  exact ⟨hclosed c hc, hevent c hc⟩

/-- A subscription that is not live stays so until a REQ for it is accepted. -/
theorem not_live_of_not_accepted
    (hstart : ValidSubs ctx start.subManager)
    (hkeeps : KeepsLiveIn lib ctx start events)
    {past : List RelayEvent}
    {key : SubKey}
    (hgone : key ∉ (afterEvents lib ctx start past).subs) :
    ∀ {later : List RelayEvent}, past ++ later <+: events →
      (∀ front e, front ++ [e] <+: later →
        acceptedReq ctx (afterEvents lib ctx start (past ++ front)) e ≠ some key) →
      key ∉ (afterEvents lib ctx start (past ++ later)).subs := by
  intro later
  induction later using List.reverseRecOn with
  | nil =>
      intro _ _
      rw [List.append_nil]
      exact hgone
  | append_singleton later event ih =>
      intro hupto hrefused hlive
      rw [← List.append_assoc] at hupto hlive
      rcases (subStep_of_run hstart hkeeps hupto).keys key hlive with hold | haccepted
      · refine ih ((List.prefix_append _ _).trans hupto) ?_ hold
        intro front e hfront
        exact hrefused front e (hfront.trans (List.prefix_append _ _))
      · exact hrefused later event List.prefix_rfl haccepted

end Run

theorem validSubs_init
    (ctx : RelayCtx) :
    ValidSubs ctx subManagerInit where
  inv := SubInv.init
  named := by
    intro key hkey
    rw [contents_init] at hkey
    exact absurd hkey Finmap.notMem_empty
  used := by
    intro key hkey
    rw [contents_init] at hkey
    exact absurd hkey Finmap.notMem_empty

/--
**CLOSED is final**, in every run of the relay in which no REQ for a live subscription is
refused.
-/
theorem closed_final_when
    (lib : Libnostr)
    (ctx : RelayCtx)
    (storage : LoggedWorld)
    (events : List RelayEvent)
    (hkeeps : KeepsLiveIn lib ctx (startRelay storage) events) :
    ClosedFinal lib ctx (startRelay storage) events := by
  have hstart : ValidSubs ctx (startRelay storage).subManager := validSubs_init ctx
  have hended : ∀ past event, past ++ [event] <+: events →
      ∀ c ∈ sentIn lib ctx (afterEvents lib ctx (startRelay storage) past) event,
        ∀ subId text, c.message = .closed subId text →
        (c.connFd, subId) ∉ (afterEvents lib ctx (startRelay storage) (past ++ [event])).subs := by
    intro past event hupto c hc subId text hmessage
    have hstep := subStep_of_run hstart hkeeps hupto
    rw [afterEvents_snoc] at hstep ⊢
    exact (hstep.sentIn hc).1 subId text hmessage
  refine ⟨hended, ?_⟩
  intro past closing later event hupto c hc subId text hmessage hrefused c' hc' hfd note hnote
  have hclosing : past ++ [closing] <+: events := by
    rw [List.append_assoc] at hupto
    exact (List.prefix_append _ _).trans hupto
  have hlater : past ++ [closing] ++ later <+: events := (List.prefix_append _ _).trans hupto
  have hgone := not_live_of_not_accepted hstart hkeeps
    (hended past closing hclosing c hc subId text hmessage) hlater
    (fun front e hfront => hrefused front e (hfront.trans (List.prefix_append _ _)))
  have hstep := subStep_of_run hstart hkeeps hupto
  rw [afterEvents_snoc] at hstep
  rcases (hstep.sentIn hc').2 subId note hnote with hlive | haccepted
  · rw [hfd] at hlive
    exact hgone hlive
  · rw [hfd] at haccepted
    exact hrefused later event List.prefix_rfl haccepted

/-- The relay as it starts on an erased flash. -/
def freshRelay : RelayState :=
  startRelay (erasedFlash 1000 1814400 thousandSlots)

/-- A client message on connection 7, with nothing failing. -/
def frameOfSeven
    (msg : NostrClientMsg) : RelayEvent :=
  .frame 7 100 (some msg) (DispatchEnv.undisturbed 1700000000)

/-- A subscription is opened, replaced and closed. -/
def closedFeed : List RelayEvent :=
  [ .opened 7,
    frameOfSeven (.req (ascii "feed") [{}]),
    frameOfSeven (.req (ascii "feed") [{ kinds := [1] }]),
    frameOfSeven (.close (ascii "feed")) ]

theorem closed_final_when_feed :
    ClosedFinal (Sample.library []) startedCtx freshRelay closedFeed := by
  refine closed_final_when (Sample.library []) startedCtx _ closedFeed (Admits.of_get ?_)
  intro i
  fin_cases i
  · trivial
  · exact fun _ _ _ => by decide +kernel
  · exact fun _ _ _ => by decide +kernel
  · trivial

/-- A second REQ for a live subscription has one filter too many. -/
def refusedFeed : RelayEvent :=
  frameOfSeven (.req (ascii "feed") [{}, {}, {}, {}, {}])

/-- The client is told CLOSED, and its subscription stays live. -/
theorem refused_req_leaves_subscription :
    ¬ ClosedFinal (Sample.library []) startedCtx freshRelay
      ([.opened 7, frameOfSeven (.req (ascii "feed") [{}])] ++ [refusedFeed]) := by
  intro hfinal
  have hsent : ∃ c ∈ sentIn (Sample.library []) startedCtx
      (afterEvents (Sample.library []) startedCtx freshRelay
        [.opened 7, frameOfSeven (.req (ascii "feed") [{}])]) refusedFeed,
      c.connFd = 7 ∧ c.message = .closed (ascii "feed") "error: too many filters" := by
    decide +kernel
  obtain ⟨c, hc, hfd, hmessage⟩ := hsent
  have hgone := hfinal.ended _ refusedFeed List.prefix_rfl c hc _ _ hmessage
  rw [hfd] at hgone
  have hfind := subManagerFind_none.mpr hgone
  revert hfind
  decide +kernel

end Relay
end WispRelay
