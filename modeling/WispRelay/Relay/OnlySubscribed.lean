import WispRelay.Library.Contracts
import WispRelay.Relay.ClosedFinal
import WispRelay.Relay.StoredEvents
import WispRelay.Relay.Tables

/-!
# Clients get what they subscribed to

An EVENT message names a subscription.  `broadcaster_fanout` takes the names from
`sub_manager_match`, and `handle_req` sends what its queries find right after it has registered
the subscription.

* `AskedFor`: the subscription is live and one of its filters accepts the event.
* `meets_of_quiet`: while the subscriptions are left alone, what is asked for stays asked for.
* `events_sent_are_asked_for`: whenever an EVENT is handed to `ws_server_send`, its client has
  asked for it.
-/

namespace WispRelay

/-- What `nostr_filters_match` is for: some filter accepts the event. -/
def Libnostr.AnyFilterLaw
    (lib : Libnostr) : Prop :=
  ∀ filters event, lib.filtersMatch filters event = true →
    ∃ filter ∈ filters, lib.filterMatches filter event = true

namespace Relay

open Interference Runs Storage Subscriptions

/-- The subscription is live and one of its filters accepts the event. -/
def AskedFor
    (lib : Libnostr)
    (mgr : SubManager)
    (connFd : Int32)
    (subId : CString)
    (event : NostrEvent) : Prop :=
  ∃ filters, mgr.contents.lookup (connFd, subId) = some filters ∧
    ∃ filter ∈ filters, lib.filterMatches filter event = true

/-- A message that may be sent with these subscriptions. -/
def SendsAskedFor
    (lib : Libnostr)
    (mgr : SubManager)
    (connFd : Int32)
    (message : NostrRelayMsg) : Prop :=
  ∀ subId event, message = .event subId event → AskedFor lib mgr connFd subId event

/-- A call that may be made: an EVENT is sent to a client that has asked for it. -/
def AllowedSend
    (lib : Libnostr)
    (c : RelayCall)
    (h : Handling) : Prop :=
  ∀ connFd message text, c = .wsSend connFd message text →
    SendsAskedFor lib h.state.subManager connFd message

section Handlers

variable
  {lib : Libnostr}
  {ctx : RelayCtx}
  {env : DispatchEnv}
  {connFd : Int32}
  {subId : CString}

variable (env) in
/-- The contract of a part of a handler that ends with the subscriptions `mgr`. -/
abbrev SendsProperly
    {α : Type}
    (lib : Libnostr)
    (mgr : SubManager)
    (p : RelayProg α)
    (h : Handling) : Prop :=
  Prog.Meets (relayCall lib env) (AllowedSend lib) p (fun _ h' => h'.state.subManager = mgr) h

/-- While the subscriptions are left alone, what is asked for stays asked for. -/
theorem meets_of_quiet
    {mgr : SubManager}
    {α : Type}
    {p : RelayProg α}
    (hp : p.Calls (QuietCall (SendsAskedFor lib mgr)))
    {h : Handling}
    (hmgr : h.state.subManager = mgr) :
    SendsProperly env lib mgr p h := by
  refine Prog.Meets.of_calls (I := fun h' : Handling => h'.state.subManager = mgr) ?_ ?_ hp hmgr
  · rintro c h' hquiet rfl connFd message text rfl
    exact hquiet
  · intro c h' hquiet hsame
    exact (relayEffect_quiet (h'.turns 0) h'.state hquiet).subManager.trans hsame

/-- Replies that are no EVENT. -/
theorem sendsAskedFor_reply
    {mgr : SubManager}
    {message : NostrRelayMsg}
    (hreply : ∀ subId event, message ≠ .event subId event) :
    SendsAskedFor lib mgr connFd message :=
  fun subId event hmessage => absurd hmessage (hreply subId event)

theorem closed_properly
    {mgr : SubManager}
    {text : String}
    {h : Handling}
    (hmgr : h.state.subManager = mgr) :
    SendsProperly env lib mgr (do
      let _ ← routerSendClosed lib connFd subId text
      pure () : RelayProg Unit) h :=
  meets_of_quiet (calls_sendClosed fun _ => sendsAskedFor_reply (by simp)) hmgr

theorem eose_properly
    {mgr : SubManager}
    {h : Handling}
    (hmgr : h.state.subManager = mgr) :
    SendsProperly env lib mgr (do
      let _ ← routerSendEose lib connFd subId
      pure () : RelayProg Unit) h :=
  meets_of_quiet (calls_sendEose fun _ => sendsAskedFor_reply (by simp)) hmgr

theorem notice_properly
    {text : String}
    (h : Handling) :
    SendsProperly env lib h.state.subManager (do
      let _ ← routerSendNotice lib connFd text
      pure () : RelayProg Unit) h :=
  meets_of_quiet (calls_sendNotice fun _ => sendsAskedFor_reply (by simp)) rfl

theorem ok_properly
    {mgr : SubManager}
    {idHex : CString}
    {accepted : Bool}
    {text : String}
    {h : Handling}
    (hmgr : h.state.subManager = mgr) :
    SendsProperly env lib mgr (do
      let _ ← routerSendOk lib connFd idHex accepted text
      pure () : RelayProg Unit) h :=
  meets_of_quiet (calls_sendOk fun _ => sendsAskedFor_reply (by simp)) hmgr

/-! ## Broadcasts -/

/-- The subscriptions that match an event have asked for it. -/
theorem fanout_properly
    (hany : lib.AnyFilterLaw)
    {event : NostrEvent}
    {h : Handling}
    (hinv : SubInv h.state.subManager) :
    SendsProperly env lib h.state.subManager (broadcasterFanout lib ctx event) h := by
  unfold broadcasterFanout
  split
  · exact Prog.Meets.pure rfl
  refine Prog.Meets.perform_bind (fun _ _ _ hc => by cases hc) ?_
  refine meets_of_quiet (Prog.Calls.forEach fun key hkey => ?_) rfl
  refine Prog.Calls.bind (calls_routerSendEvent trivial fun text => ?_) fun _ => Prog.Calls.pure _
  rintro subId event' ⟨⟩
  obtain ⟨filters, hlookup, hmatches⟩ :=
    (mem_subManagerMatch hinv lib event key).mp hkey
  exact ⟨filters, hlookup, hany filters event hmatches⟩

/-- An event that is published. -/
theorem handleEvent_properly
    (hany : lib.AnyFilterLaw)
    {event : NostrEvent}
    {h : Handling}
    (hinv : SubInv h.state.subManager) :
    SendsProperly env lib h.state.subManager (handleEvent lib ctx event) h := by
  have hquiet : ∀ {α : Type} {p : RelayProg α}
      (_ : p.Calls (QuietCall (SendsAskedFor lib h.state.subManager))) {h' : Handling}
      (_ : h'.state.subManager = h.state.subManager),
      SendsProperly env lib h.state.subManager p h' :=
    fun hp _ hmgr => meets_of_quiet hp hmgr
  have hnow : Perform.timestampNow.Calls (QuietCall (SendsAskedFor lib h.state.subManager)) :=
    Prog.Calls.perform trivial
  refine (hquiet hnow rfl).bind fun validated h₁ hsame₁ => ?_
  refine (hquiet hnow hsame₁).bind fun aged h₂ hsame₂ => ?_
  dsimp only
  split
  · exact Prog.Meets.pure hsame₂
  refine (hquiet (calls_processDeletion trivial (fun _ => trivial) (fun _ _ => trivial)
    (fun _ => trivial) event) hsame₂).bind fun _ h₃ hsame₃ => ?_
  refine (hquiet (calls_storeEvent trivial) hsame₃).bind fun stored h₄ hsame₄ => ?_
  split
  · exact Prog.Meets.pure hsame₄
  have hfanout : SendsProperly env lib h₄.state.subManager (broadcasterFanout lib ctx event) h₄ :=
    fanout_properly hany (hsame₄ ▸ hinv)
  exact hfanout.bind fun _ h₅ hsame₅ => Prog.Meets.pure (hsame₅.trans hsame₄)

/-! ## Stored events -/

/-- What a query of the subscription finds its client has asked for. -/
theorem sendStored_properly
    {mgr : SubManager}
    {filters : List NostrFilter}
    (hlookup : mgr.contents.lookup (connFd, subId) = some filters)
    (rest : List NostrFilter) :
    ∀ (_ : ∀ filter ∈ rest, filter ∈ filters) (sent : Option (List Bytes32)) {h : Handling},
      h.state.subManager = mgr →
      SendsProperly env lib mgr (sendStored lib connFd subId rest sent) h := by
  induction rest with
  | nil =>
      intro _ sent h hmgr
      exact Prog.Meets.pure hmgr
  | cons filter rest ih =>
      intro hsubset sent h hmgr
      have hrest := ih fun f hf => hsubset f (List.mem_cons_of_mem _ hf)
      have hfound : ∀ event ∈
          (relayCall lib env (.storage (.query filter (reqLimit filter))) h).1.2,
          AskedFor lib mgr connFd subId event := by
        intro event hevent
        obtain ⟨e, -, hread⟩ := storageQueryEvents_source hevent
        exact ⟨filters, hlookup, filter, hsubset filter List.mem_cons_self, hread.filterMatches⟩
      let queried := (relayCall lib env (.storage (.query filter (reqLimit filter))) h).2
      have hqueried : queried.state.subManager = mgr := hmgr
      refine Prog.Meets.perform_bind (fun _ _ _ hc => by cases hc) ?_
      split
      · refine (meets_of_quiet (calls_sendEvents trivial _ ?_ sent) hqueried).bind
          fun sent' h' hsame => hrest sent' hsame
        rintro event hevent text subId' event' ⟨⟩
        exact hfound event hevent
      · exact hrest sent hqueried

theorem handleReq_properly
    {filters : List NostrFilter}
    (hcount : filters.length ≤ routerMaxFilters)
    (hid : subId.length ≤ subMaxIdLen)
    {h : Handling}
    (hinv : SubInv h.state.subManager) :
    Prog.Meets (relayCall lib env) (AllowedSend lib) (handleReq lib ctx connFd subId filters)
      (fun _ _ => True) h := by
  unfold handleReq
  split
  · exact (eose_properly rfl).mono fun _ _ _ => trivial
  have houtcome := (@subManagerAdd_outcome _ connFd subId hinv env.copies filters hid).2
  refine Prog.Meets.perform_bind (fun _ _ _ hc => by cases hc) ?_
  split
  · exact (closed_properly rfl).mono fun _ _ _ => trivial
  rename_i hok
  -- the subscription is registered with all its filters before anything is sent
  let mgr := (subManagerAdd env.copies h.state.subManager connFd subId filters).2
  have hlookup : mgr.contents.lookup (connFd, subId) = some filters := by
    have hcontents : mgr.contents =
        h.state.subManager.contents.insert (connFd, subId) (filters.take subMaxFilters) :=
      houtcome.eq_insert (not_not.mp hok)
    have hall : filters.take subMaxFilters = filters := List.take_of_length_le hcount
    rw [hcontents, Finmap.lookup_insert, hall]
  refine Prog.Meets.bind (Q := fun _ h' => h'.state.subManager = mgr) ?_
    fun _ h' hsame => (eose_properly hsame).mono fun _ _ _ => trivial
  unfold queryStored
  split
  · exact Prog.Meets.perform_bind (fun _ _ _ hc => by cases hc)
      (sendStored_properly hlookup filters (fun _ hf => hf) _ rfl)
  · exact Prog.Meets.pure rfl

/-! ## Every message -/

theorem routerDispatch_properly
    (hany : lib.AnyFilterLaw)
    {msg : RouterMsg}
    (hid : ∀ subId filters, msg = .req subId filters → subId.length ≤ subMaxIdLen)
    {h : Handling}
    (hinv : SubInv h.state.subManager) :
    Prog.Meets (relayCall lib env) (AllowedSend lib) (routerDispatch lib ctx connFd msg)
      (fun _ _ => True) h := by
  have hrate : ∀ type, SendsProperly env lib h.state.subManager (rateAllowed ctx connFd type) h :=
    fun type => meets_of_quiet (calls_rateAllowed ctx connFd type trivial) rfl
  cases msg with
  | event event =>
      refine (hrate .event).bind fun allowed h' hsame => ?_
      split
      · exact (ok_properly hsame).mono fun _ _ _ => trivial
      · exact (handleEvent_properly hany (hsame ▸ hinv)).bind fun result h'' hsame' =>
          (ok_properly hsame').mono fun _ _ _ => trivial
  | req subId filters =>
      refine (hrate .req).bind fun allowed h' hsame => ?_
      split_ifs with _ _ hcount
      · exact (closed_properly hsame).mono fun _ _ _ => trivial
      · exact (closed_properly hsame).mono fun _ _ _ => trivial
      · exact (closed_properly hsame).mono fun _ _ _ => trivial
      · exact handleReq_properly (Nat.not_lt.mp hcount) (hid subId filters rfl) (hsame ▸ hinv)
  | close subId =>
      have hclose : (handleClose ctx connFd subId).Calls
          (fun c => ∀ fd message text, c ≠ .wsSend fd message text) := by
        unfold handleClose
        split
        · exact Prog.Calls.perform (by simp)
        · trivial
      have hfirst : Prog.Meets (relayCall lib env) (AllowedSend lib) (handleClose ctx connFd subId)
          (fun _ _ => True) h :=
        Prog.Meets.of_calls (I := fun _ => True)
          (fun c h' hc _ fd message text hsend => absurd hsend (hc fd message text))
          (fun _ _ _ _ => trivial) hclose trivial
      exact hfirst.bind fun result h' _ => (closed_properly rfl).mono fun _ _ _ => trivial
  | auth => exact (notice_properly h).mono fun _ _ _ => trivial
  | unknown => exact (notice_properly h).mono fun _ _ _ => trivial
  | invalid => exact (notice_properly h).mono fun _ _ _ => trivial

end Handlers

/-! ## Runs -/

/-- What every callback keeps. -/
theorem relayStep_subInv
    (lib : Libnostr)
    (ctx : RelayCtx)
    {s : RelayState}
    (event : RelayEvent)
    (h : SubInv s.subManager) :
    SubInv (relayStep lib ctx s event).subManager := by
  cases event with
  | opened connFd => exact h
  | closed connFd => exact (subManagerRemoveAll_contents h connFd).1
  | work sendOk => exact h
  | cleanup work => exact h
  | frame connFd len parsed env =>
      have hkeep : ∀ (c : RelayCall) (h' : Handling), OwnCall connFd c →
          SubInv h'.state.subManager → SubInv (relayCall lib env c h').2.state.subManager := by
        intro c h' hc hinv
        cases c with
        | subAdd fd subId filters => exact (subManagerAdd_outcome hinv env.copies filters hc.2).1
        | subRemove fd subId => exact (subManagerRemove_outcome hinv fd subId).1
        | _ => exact hinv
      exact Prog.run_keeps (I := fun h' : Handling => SubInv h'.state.subManager) hkeep
        (onWsMessage_ownCalls lib ctx connFd len parsed) (s := arrived s connFd env) h

theorem afterEvents_subInv
    (lib : Libnostr)
    (ctx : RelayCtx)
    (storage : LoggedWorld)
    (events : List RelayEvent) :
    SubInv (afterEvents lib ctx (startRelay storage) events).subManager := by
  induction events using List.reverseRecOn with
  | nil => exact SubInv.init
  | append_singleton past event ih =>
      rw [afterEvents_snoc]
      exact relayStep_subInv lib ctx event ih

/--
**Clients get what they subscribed to.**  In every run, whatever fails, an EVENT message is handed
to `ws_server_send` only while its client has a live subscription of that name, one of whose
filters accepts the event.
-/
theorem events_sent_are_asked_for
    (lib : Libnostr)
    (hany : lib.AnyFilterLaw)
    (ctx : RelayCtx)
    (storage : LoggedWorld)
    (past : List RelayEvent)
    (connFd : Int32)
    (len : Nat)
    (parsed : Option NostrClientMsg)
    (env : DispatchEnv) :
    ∀ x ∈ (onWsMessage lib ctx connFd len parsed).visited (relayCall lib env)
        (arrived (afterEvents lib ctx (startRelay storage) past) connFd env),
      ∀ fd subId event text, x.1 = .wsSend fd (.event subId event) text →
        AskedFor lib x.2.state.subManager fd subId event := by
  have hinv := afterEvents_subInv lib ctx storage past
  have hmeets : Prog.Meets (relayCall lib env) (AllowedSend lib)
      (onWsMessage lib ctx connFd len parsed) (fun _ _ => True)
      (arrived (afterEvents lib ctx (startRelay storage) past) connFd env) := by
    unfold onWsMessage
    split
    · exact Prog.Meets.pure trivial
    split
    · exact (notice_properly _).mono fun _ _ _ => trivial
    rename_i msg
    refine routerDispatch_properly hany ?_ hinv
    intro subId filters hreq
    cases msg with
    | req subscriptionId filters' =>
        obtain ⟨rfl, -⟩ := RouterMsg.req.inj hreq
        exact (List.length_take_le _ _).trans (by decide)
    | _ => cases hreq
  intro x hx fd subId event text hsend
  exact hmeets.calls x hx fd _ text hsend subId event rfl

/-- Connection 7 has subscribed, and gets the note that connection 8 publishes. -/
theorem events_sent_are_asked_for_feed :
    let lib := Sample.library (Sample.notes 1)
    let env := DispatchEnv.undisturbed 1700000000
    let past : List RelayEvent :=
      [.opened 7, .opened 8, .frame 7 20 (some (.req (ascii "feed") [{ kinds := [1] }])) env]
    let s := afterEvents lib startedCtx (startRelay (erasedFlash 1000 1814400 thousandSlots)) past
    let note := NostrClientMsg.event (Sample.numbered 0)
    (7, .event (ascii "feed") (Sample.numbered 0)) ∈
        sends (frameTrace lib startedCtx s 8 300 (some note) env) ∧
      ∀ x ∈ (onWsMessage lib startedCtx 8 300 (some note)).visited (relayCall lib env)
          (arrived s 8 env),
        ∀ fd subId event text, x.1 = .wsSend fd (.event subId event) text →
          AskedFor lib x.2.state.subManager fd subId event := by
  intro lib env past s note
  refine ⟨by decide +kernel, ?_⟩
  refine events_sent_are_asked_for lib ?_ startedCtx _ past 8 300 (some note) env
  intro filters event hmatch
  exact List.any_eq_true.mp hmatch

end Relay
end WispRelay
