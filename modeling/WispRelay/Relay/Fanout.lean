import WispRelay.Relay.StoredEvents

/-!
# Accepted events reach the subscriptions

`broadcaster_fanout` sends an accepted event to every active subscription that matches it, in a
buffer of 16384 bytes for each message.  A frame may have 65536 bytes, and an ephemeral event is
not stored, so an event can be accepted that does not fit.

* `AcceptedEvent.sends_matching`: what `handle_event` sends when it accepts the event.
* `fanout_delivers_iff`: every matching subscription gets the event exactly when the message
  for each of them fits the buffer.
* `large_event_is_not_delivered`: an ephemeral event that is accepted and not delivered.
-/

namespace WispRelay
namespace Relay

open Interference Runs Storage Subscriptions

/-! ## The loop of the broadcaster -/

section Fanout

variable
  {lib : Libnostr}
  {σ : Type}
  (step : (c : RelayCall) → σ → c.Ret × σ)

/-- The message for a subscription fits the buffer. -/
def fitsBuffer
    (lib : Libnostr)
    (event : NostrEvent)
    (key : SubKey) : Bool :=
  (lib.relayMsgSerialize (.event key.2 event) routerEventBufSize).isSome

/-- The loop of `broadcaster_fanout`. -/
def sendToAll
    (lib : Libnostr)
    (event : NostrEvent)
    (keys : List SubKey) : RelayProg Unit :=
  Prog.forEach (fun key => do
    let _ ← routerSendEvent lib key.1 key.2 event
    pure ()) keys

/-- With memory for every buffer, the messages that fit are sent. -/
theorem sendToAll_sends
    (event : NostrEvent)
    (keys : List SubKey)
    (s : σ)
    (hmalloc : ∀ ok ∈ mallocAnswers ((sendToAll lib event keys).trace step s), ok = true) :
    sends ((sendToAll lib event keys).trace step s) =
      (keys.filter (fitsBuffer lib event)).map (fun key => eventMsg key.1 key.2 event) := by
  induction keys generalizing s with
  | nil => rfl
  | cons key rest ih =>
      have ht : (sendToAll lib event (key :: rest)).trace step s =
          (routerSendEvent lib key.1 key.2 event).trace step s ++
            (sendToAll lib event rest).trace step
              ((routerSendEvent lib key.1 key.2 event).run step s).2 := by
        simp only [sendToAll, Prog.forEach, Prog.trace_bind, Prog.run_bind, Prog.trace_pure,
          Prog.run_pure, List.append_nil]
      obtain ⟨ok, hanswer, hsends⟩ := routerSendEvent_trace step event s
      rw [ht, mallocAnswers_append, hanswer] at hmalloc
      obtain rfl : ok = true := hmalloc ok (List.mem_append_left _ List.mem_cons_self)
      have hrest := ih _ (fun ok hok => hmalloc ok (List.mem_append_right _ hok))
      rw [ht, sends_append, hsends, hrest, List.filter_cons]
      by_cases hfits : fitsBuffer lib event key = true
      · rw [if_pos hfits, if_pos ⟨rfl, hfits⟩]
        rfl
      · rw [if_neg hfits, if_neg (fun h => hfits h.2)]
        rfl

end Fanout

/-! ## Accepted events -/

section Accepted

variable
  {lib : Libnostr}
  {ctx : RelayCtx}
  {env : DispatchEnv}
  {h : Handling}
  {event : NostrEvent}

/-- The relay after the two readings of the clock. -/
def clockRead
    (lib : Libnostr)
    (env : DispatchEnv)
    (h : Handling) : Handling :=
  (relayCall lib env .timestampNow (relayCall lib env .timestampNow h).2).2

/-- The relay after the deletions of a deletion request. -/
def processed
    (lib : Libnostr)
    (ctx : RelayCtx)
    (env : DispatchEnv)
    (event : NostrEvent)
    (h : Handling) : Handling :=
  ((processDeletion lib ctx event).run (relayCall lib env) (clockRead lib env h)).2

/-- Whether the event is stored if it has to be, and the relay then. -/
def storedThen
    (lib : Libnostr)
    (ctx : RelayCtx)
    (env : DispatchEnv)
    (event : NostrEvent)
    (h : Handling) : Bool × Handling :=
  (storeEvent lib ctx event).run (relayCall lib env) (processed lib ctx env event h)

/-- How `handle_event` accepts an event. -/
structure AcceptedEvent
    (lib : Libnostr)
    (ctx : RelayCtx)
    (env : DispatchEnv)
    (event : NostrEvent)
    (h : Handling) : Prop where
  valid : validatorCheckEvent lib (validatorConfig ctx) (h.turns 0).now (h.turns 1).now event =
    .validationOk
  stored : (storedThen lib ctx env event h).1 = true
  state : ((handleEvent lib ctx event).run (relayCall lib env) h).2 =
    ((broadcasterFanout lib ctx event).run (relayCall lib env)
      (storedThen lib ctx env event h).2).2
  calls : (handleEvent lib ctx event).trace (relayCall lib env) h =
    [⟨.timestampNow, (h.turns 0).now⟩, ⟨.timestampNow, (h.turns 1).now⟩] ++
      (processDeletion lib ctx event).trace (relayCall lib env) (clockRead lib env h) ++
      (storeEvent lib ctx event).trace (relayCall lib env) (processed lib ctx env event h) ++
      (broadcasterFanout lib ctx event).trace (relayCall lib env)
        (storedThen lib ctx env event h).2

theorem handleEvent_accepted
    (hok : ((handleEvent lib ctx event).run (relayCall lib env) h).1 = .ok) :
    AcceptedEvent lib ctx env event h := by
  unfold handleEvent at hok
  simp only [Prog.run_bind] at hok
  split_ifs at hok with hinvalid
  · exact absurd (validatorResultToRelayError_eq_ok.mp hok) hinvalid
  simp only [Prog.run_bind] at hok
  split_ifs at hok with hunstored
  · cases hok
  have hstored := hunstored
  rw [Bool.not_eq_true, Bool.not_eq_false'] at hstored
  refine ⟨not_not.mp hinvalid, hstored, ?_, ?_⟩
  · unfold handleEvent
    simp only [Prog.run_bind]
    rw [if_neg hinvalid]
    simp only [Prog.run_bind]
    rw [if_neg hunstored]
    simp only [Prog.run_bind]
    rfl
  · unfold handleEvent
    simp only [Prog.trace_bind]
    rw [if_neg hinvalid]
    simp only [Prog.trace_bind]
    rw [if_neg hunstored]
    simp only [Prog.trace_bind, Prog.trace_pure, List.append_nil, List.append_assoc]
    rfl

/-- A valid event that is stored if it has to be is accepted. -/
theorem handleEvent_ok
    (hvalid : validatorCheckEvent lib (validatorConfig ctx) (h.turns 0).now (h.turns 1).now event =
      .validationOk)
    (hstored : (storedThen lib ctx env event h).1 = true) :
    ((handleEvent lib ctx event).run (relayCall lib env) h).1 = .ok := by
  unfold handleEvent
  simp only [Prog.run_bind]
  split_ifs with hinvalid
  · exact absurd hvalid hinvalid
  simp only [Prog.run_bind]
  split_ifs with hunstored
  · rw [Bool.not_eq_true'] at hunstored
    exact absurd (hunstored.symm.trans hstored) Bool.false_ne_true
  · simp only [Prog.run_bind, Prog.run_pure]

/-- How `handle_event` refuses an event: it is not valid, or it could not be stored. -/
inductive RefusedEvent
    (lib : Libnostr)
    (ctx : RelayCtx)
    (env : DispatchEnv)
    (event : NostrEvent)
    (h : Handling) : Prop
  | invalid
      (hinvalid : validatorCheckEvent lib (validatorConfig ctx) (h.turns 0).now (h.turns 1).now
        event ≠ .validationOk)
      (hstate : ((handleEvent lib ctx event).run (relayCall lib env) h).2 = clockRead lib env h)
      (hcalls : (handleEvent lib ctx event).trace (relayCall lib env) h =
        [⟨.timestampNow, (h.turns 0).now⟩, ⟨.timestampNow, (h.turns 1).now⟩])
  | notStored
      (hvalid : validatorCheckEvent lib (validatorConfig ctx) (h.turns 0).now (h.turns 1).now
        event = .validationOk)
      (hstored : (storedThen lib ctx env event h).1 = false)
      (hstate : ((handleEvent lib ctx event).run (relayCall lib env) h).2 =
        (storedThen lib ctx env event h).2)
      (hcalls : (handleEvent lib ctx event).trace (relayCall lib env) h =
        [⟨.timestampNow, (h.turns 0).now⟩, ⟨.timestampNow, (h.turns 1).now⟩] ++
          (processDeletion lib ctx event).trace (relayCall lib env) (clockRead lib env h) ++
          (storeEvent lib ctx event).trace (relayCall lib env) (processed lib ctx env event h))

theorem handleEvent_refused
    (hnot : ((handleEvent lib ctx event).run (relayCall lib env) h).1 ≠ .ok) :
    RefusedEvent lib ctx env event h := by
  unfold handleEvent at hnot
  simp only [Prog.run_bind] at hnot
  split_ifs at hnot with hinvalid
  · refine .invalid hinvalid ?_ ?_
    · unfold handleEvent
      simp only [Prog.run_bind]
      rw [if_pos hinvalid]
      rfl
    · unfold handleEvent
      simp only [Prog.trace_bind]
      rw [if_pos hinvalid]
      rfl
  simp only [Prog.run_bind] at hnot
  split_ifs at hnot with hunstored
  · have hstored := hunstored
    rw [Bool.not_eq_true'] at hstored
    refine .notStored (not_not.mp hinvalid) hstored ?_ ?_
    · unfold handleEvent
      simp only [Prog.run_bind]
      rw [if_neg hinvalid]
      simp only [Prog.run_bind]
      rw [if_pos hunstored]
      rfl
    · unfold handleEvent
      simp only [Prog.trace_bind]
      rw [if_neg hinvalid]
      simp only [Prog.trace_bind]
      rw [if_pos hunstored]
      simp only [Prog.trace_pure, List.append_nil, List.append_assoc]
      rfl
  · simp only [Prog.run_bind, Prog.run_pure] at hnot
    exact absurd rfl hnot

/-- What is done before the broadcast sends nothing and leaves the subscriptions alone. -/
theorem AcceptedEvent.sends_eq
    (haccepted : AcceptedEvent lib ctx env event h) :
    sends ((handleEvent lib ctx event).trace (relayCall lib env) h) =
        sends ((broadcasterFanout lib ctx event).trace (relayCall lib env)
          (storedThen lib ctx env event h).2) ∧
      (storedThen lib ctx env event h).2.state.subManager = h.state.subManager := by
  have hdeletion : ∀ {P : RelayCall → Prop}, P .malloc → (∀ call, P (.storage call)) →
      (processDeletion lib ctx event).Calls P :=
    fun hmalloc hstorage => calls_processDeletion hmalloc (fun _ => hstorage _)
      (fun _ _ => hstorage _) (fun _ => hstorage _) event
  have hstore : ∀ {P : RelayCall → Prop}, (∀ call, P (.storage call)) →
      (storeEvent lib ctx event).Calls P := fun hstorage => calls_storeEvent (hstorage _)
  constructor
  · rw [haccepted.calls, sends_append, sends_append, sends_append,
      sends_of_calls (hdeletion (by simp) (by simp)) _, sends_of_calls (hstore (by simp)) _]
    rfl
  · have hfirst := run_quiet lib env (Q := fun _ _ => False)
      (hdeletion trivial fun _ => trivial) (clockRead lib env h)
    have hsecond := run_quiet lib env (Q := fun _ _ => False)
      (hstore fun _ => trivial) (processed lib ctx env event h)
    exact hsecond.subManager.trans hfirst.subManager

/-- An accepted event is sent to the matching subscriptions whose messages fit. -/
theorem AcceptedEvent.sends_matching
    (haccepted : AcceptedEvent lib ctx env event h)
    (hmgr : ctx.subManager = true)
    (hmalloc : ∀ ok ∈ mallocAnswers ((handleEvent lib ctx event).trace (relayCall lib env) h),
      ok = true) :
    sends ((handleEvent lib ctx event).trace (relayCall lib env) h) =
      ((subManagerMatch lib h.state.subManager event).filter (fitsBuffer lib event)).map
        (fun key => eventMsg key.1 key.2 event) := by
  obtain ⟨hsends, hsame⟩ := haccepted.sends_eq
  let ready := (storedThen lib ctx env event h).2
  have ht : (broadcasterFanout lib ctx event).trace (relayCall lib env) ready =
      ⟨.subMatch event, subManagerMatch lib h.state.subManager event⟩ ::
        (sendToAll lib event (subManagerMatch lib h.state.subManager event)).trace
          (relayCall lib env) (relayCall lib env (.subMatch event) ready).2 := by
    rw [← hsame, broadcasterFanout, hmgr]
    rfl
  rw [haccepted.calls, mallocAnswers_append] at hmalloc
  have hfanout := fun ok hok => hmalloc ok (List.mem_append_right _ hok)
  rw [hsends]
  change sends ((broadcasterFanout lib ctx event).trace (relayCall lib env) ready) = _
  rw [ht] at hfanout ⊢
  exact sendToAll_sends (relayCall lib env) event _ _ hfanout

end Accepted

/-! ## Delivery -/

/-- The message of a slot about an event. -/
def slotMsg
    (event : NostrEvent)
    (sub : Subscription) : Int32 × NostrRelayMsg :=
  eventMsg sub.connFd sub.subId event

/-- The active subscriptions that match the event. -/
def matchingSubs
    (lib : Libnostr)
    (mgr : SubManager)
    (event : NostrEvent) : List Subscription :=
  mgr.subs.toList.filter (fun sub => sub.active && lib.filtersMatch sub.filters event)

/-- One message for each matching subscription, and no other. -/
def DeliveredOnce
    (lib : Libnostr)
    (mgr : SubManager)
    (event : NostrEvent)
    (sent : List (Int32 × NostrRelayMsg)) : Prop :=
  sent.Perm ((matchingSubs lib mgr event).map (slotMsg event))

theorem subManagerMatch_map
    (lib : Libnostr)
    (mgr : SubManager)
    (event : NostrEvent) :
    subManagerMatch lib mgr event =
      (matchingSubs lib mgr event).map (fun sub => (sub.connFd, sub.subId)) := by
  rw [subManagerMatch, matchingSubs]
  induction mgr.subs.toList with
  | nil => rfl
  | cons sub rest ih =>
      by_cases hmatch : (sub.active && lib.filtersMatch sub.filters event) = true
      · rw [List.filterMap_cons, if_pos hmatch, List.filter_cons, if_pos hmatch, List.map_cons, ih]
      · rw [List.filterMap_cons, if_neg hmatch, List.filter_cons, if_neg hmatch, ih]

/-- The messages that fit are all of them when the message fits for every subscription. -/
theorem deliveredOnce_iff
    {lib : Libnostr}
    {size : NostrRelayMsg → Nat}
    (hsize : lib.SerializeLaw size)
    {mgr : SubManager}
    {event : NostrEvent}
    {sent : List (Int32 × NostrRelayMsg)}
    (hsent : sent = ((subManagerMatch lib mgr event).filter (fitsBuffer lib event)).map
      (fun key => eventMsg key.1 key.2 event)) :
    DeliveredOnce lib mgr event sent ↔
      ∀ sub ∈ matchingSubs lib mgr event, size (.event sub.subId event) ≤ routerEventBufSize := by
  have hall : (matchingSubs lib mgr event).map (slotMsg event) =
      (subManagerMatch lib mgr event).map (fun key => eventMsg key.1 key.2 event) := by
    rw [subManagerMatch_map, List.map_map]
    rfl
  have hfits : ∀ sub : Subscription, fitsBuffer lib event (sub.connFd, sub.subId) = true ↔
      size (.event sub.subId event) ≤ routerEventBufSize :=
    fun sub => hsize _ _
  rw [DeliveredOnce, hsent, hall]
  constructor
  · intro hperm sub hsub
    have hlength := hperm.length_eq
    rw [List.length_map, List.length_map, List.length_filter_eq_length_iff] at hlength
    refine (hfits sub).mp (hlength _ ?_)
    rw [subManagerMatch_map]
    exact List.mem_map_of_mem hsub
  · intro hfit
    rw [List.filter_eq_self.mpr]
    intro key hkey
    rw [subManagerMatch_map] at hkey
    obtain ⟨sub, hsub, rfl⟩ := List.mem_map.mp hkey
    exact (hfits sub).mpr (hfit sub hsub)

/-! ## A large event -/

/-- The relay after connection 7 has subscribed to everything. -/
def subscribed
    (lib : Libnostr) : RelayState :=
  afterEvents lib startedCtx freshRelay [.opened 7, frameOfSeven (.req (ascii "feed") [{}])]

/-- An ephemeral event. -/
def ephemeral
    (content : CString) : NostrEvent :=
  { Sample.numbered 0 with
    kind := 20000
    content := content }

/-- The subscription of connection 7. -/
def feed : Subscription where
  subId := ascii "feed"
  connFd := 7
  filters := [{}]
  eventsSent := 0
  active := true

/-- An ephemeral event of any size is accepted. -/
theorem ephemeral_accepted
    (content : CString) :
    let lib := Sample.library []
    let env := DispatchEnv.undisturbed 1700000000
    let h := arrived (subscribed lib) 8 env
    ((handleEvent lib startedCtx (ephemeral content)).run (relayCall lib env) h).1 = .ok := by
  intro lib env h
  have hfull : lib.eventValidateFull (ephemeral content) startedCtx.maxFutureSec 1700000000 =
      .ok := by
    simp [lib, Sample.library, Sample.expiration, Sample.tagValue, ephemeral, Sample.numbered]
    decide
  have hage : checkEventAge (ephemeral content) startedCtx.maxEventAgeSec 1700000000 =
      .validationOk := by
    simp [checkEventAge, ephemeral, Sample.numbered]
    decide
  have hvalid : validatorCheckEvent lib (validatorConfig startedCtx) 1700000000 1700000000
      (ephemeral content) = .validationOk := by
    simp [validatorCheckEvent, hfull, hage, validatorCheckPow, validatorConfig, checkDuplicate]
  have hkind : lib.kindIsEphemeral (ephemeral content).kind = true := by
    simp [lib, Sample.library, ephemeral]
  have hstored : (storedThen lib startedCtx env (ephemeral content) h).1 = true := by
    rw [storedThen, storeEvent, hkind]
    simp
  exact handleEvent_ok hvalid hstored

/-- The JSON text has the content in it once. -/
theorem length_ephemeral
    (content : CString) :
    (Sample.eventJson (ephemeral content)).length =
      (Sample.eventJson (ephemeral [])).length + content.length := by
  simp only [Sample.eventJson, Sample.quoted, ephemeral, List.length_append, List.length_nil]
  omega

/-- An ephemeral event with up to 60000 bytes of content fits a frame. -/
theorem ephemeral_fits_frame
    {content : CString}
    (hsmall : content.length ≤ 60000) :
    (Sample.eventJson (ephemeral content)).length + 10 ≤ wsMaxFrameSize := by
  have hempty : (Sample.eventJson (ephemeral [])).length ≤ 1000 := by
    decide +kernel
  rw [length_ephemeral, wsMaxFrameSize]
  omega

theorem feed_matches
    (event : NostrEvent) :
    feed ∈ matchingSubs (Sample.library []) (subscribed (Sample.library [])).subManager event := by
  rw [matchingSubs, List.mem_filter]
  exact ⟨by decide +kernel, rfl⟩

/-- An ephemeral event that is longer than the buffer is not sent to connection 7. -/
theorem ephemeral_undelivered
    {content : CString}
    (hlarge : routerEventBufSize < content.length) :
    let lib := Sample.library []
    let env := DispatchEnv.undisturbed 1700000000
    let h := arrived (subscribed lib) 8 env
    ¬ DeliveredOnce lib h.state.subManager (ephemeral content)
        (sends ((handleEvent lib startedCtx (ephemeral content)).trace (relayCall lib env) h)) := by
  intro lib env h hdelivered
  have hsent := (handleEvent_accepted (ephemeral_accepted content)).sends_matching rfl
    (mallocAnswers_undisturbed _ fun _ => rfl)
  have hfits := (deliveredOnce_iff (Sample.library_messageSizes []).serialize hsent).mp hdelivered
    feed (feed_matches _)
  rw [Sample.relayMsgJson, List.length_append, List.length_append, length_ephemeral] at hfits
  omega

/-! ## Every matching subscription -/

/--
**An accepted event reaches every matching subscription exactly when its messages fit.**  For
every table of subscriptions and every event that `handle_event` accepts.
-/
theorem fanout_delivers_iff
    (lib : Libnostr)
    {size : NostrRelayMsg → Nat}
    (hsize : lib.SerializeLaw size)
    (ctx : RelayCtx)
    (hmgr : ctx.subManager = true)
    (event : NostrEvent)
    (env : DispatchEnv)
    {h : Handling}
    (hok : ((handleEvent lib ctx event).run (relayCall lib env) h).1 = .ok)
    (hmalloc : ∀ ok ∈ mallocAnswers ((handleEvent lib ctx event).trace (relayCall lib env) h),
      ok = true) :
    DeliveredOnce lib h.state.subManager event
        (sends ((handleEvent lib ctx event).trace (relayCall lib env) h)) ↔
      ∀ sub ∈ matchingSubs lib h.state.subManager event,
        size (.event sub.subId event) ≤ routerEventBufSize :=
  deliveredOnce_iff hsize ((handleEvent_accepted hok).sends_matching hmgr hmalloc)

/-- A note is published by another connection. -/
theorem fanout_delivers_iff_note :
    let lib := Sample.library (Sample.notes 1)
    let env := DispatchEnv.undisturbed 1700000000
    let h := arrived (subscribed lib) 8 env
    let event := Sample.numbered 0
    DeliveredOnce lib h.state.subManager event
        (sends ((handleEvent lib startedCtx event).trace (relayCall lib env) h)) ↔
      ∀ sub ∈ matchingSubs lib h.state.subManager event,
        (Sample.relayMsgJson (.event sub.subId event)).length ≤ routerEventBufSize := by
  intro lib env h event
  exact fanout_delivers_iff lib (Sample.library_messageSizes _).serialize startedCtx rfl event env
    (by decide +kernel) (mallocAnswers_undisturbed _ fun _ => rfl)

/-- An ephemeral event of 17000 bytes is accepted and not sent to connection 7. -/
theorem large_event_is_not_delivered :
    let lib := Sample.library []
    let env := DispatchEnv.undisturbed 1700000000
    let h := arrived (subscribed lib) 8 env
    let event := ephemeral (List.replicate 17000 0x61)
    (Sample.eventJson event).length + 10 ≤ wsMaxFrameSize ∧
      ((handleEvent lib startedCtx event).run (relayCall lib env) h).1 = .ok ∧
      (∀ ok ∈ mallocAnswers ((handleEvent lib startedCtx event).trace (relayCall lib env) h),
        ok = true) ∧
      feed ∈ matchingSubs lib h.state.subManager event ∧
      ¬ DeliveredOnce lib h.state.subManager event
          (sends ((handleEvent lib startedCtx event).trace (relayCall lib env) h)) := by
  have hlength : (List.replicate 17000 (0x61 : UInt8)).length = 17000 := List.length_replicate
  refine ⟨ephemeral_fits_frame ?_, ephemeral_accepted _, mallocAnswers_undisturbed _ fun _ => rfl,
    feed_matches _, ephemeral_undelivered ?_⟩
  · rw [hlength]
    decide
  · rw [hlength]
    decide

end Relay
end WispRelay
