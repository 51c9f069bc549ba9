import WispRelay.Library.BoundedDedup
import WispRelay.Relay.ClosedFinal

/-!
# Stored events for a REQ

`handle_req` asks the storage for the events of each filter and sends what it has not sent yet.
It remembers the first 64 identifiers sent, or none when it could not allocate their table.

* `Passed`: what a part of the loops sends, as a pass of `BoundedDedup` over the events found.
* `Answered`: how an accepted REQ is answered, whatever its calls return.
* `StoredIn`: what queries find was saved before, so its message fits the buffer.
* `stored_events_sent`: every event found is sent, nothing else, and the EOSE comes last.
-/

namespace WispRelay
namespace Relay

open BoundedDedup (emit tableAfter firstKeys record)
open Interference Runs Storage Subscriptions

/-! ## The loops -/

/-- The room in the table of identifiers; without memory there is none. -/
def sentCap
    (sent : Option (List Bytes32)) : Nat :=
  if sent.isSome then maxSentIds else 0

/-- The EVENT message of a subscription. -/
def eventMsg
    (connFd : Int32)
    (subId : CString)
    (event : NostrEvent) : Int32 × NostrRelayMsg :=
  (connFd, .event subId event)

/-- The EVENT message fits the buffer it is serialised to. -/
def FitsBuffer
    (lib : Libnostr)
    (subId : CString)
    (event : NostrEvent) : Prop :=
  (lib.relayMsgSerialize (.event subId event) routerEventBufSize).isSome = true

/-- The events the loops try to send, out of those found. -/
abbrev attempts
    (sent : Option (List Bytes32))
    (events : List NostrEvent) : List NostrEvent :=
  emit NostrEvent.id (sentCap sent) (sent.getD []) events

/--
What a part of the loops of `handle_req` does with the events found: it tries to send those
whose identifiers are not in the table, and each attempt succeeds when there is memory and the
message fits.
-/
structure Passed
    (lib : Libnostr)
    (connFd : Int32)
    (subId : CString)
    (sent sent' : Option (List Bytes32))
    (events : List NostrEvent)
    (t : RelayTrace) : Prop where
  cap : sentCap sent' = sentCap sent
  table : sent'.getD [] = tableAfter NostrEvent.id (sentCap sent) (sent.getD []) events
  sends : ∃ out : List NostrEvent, sends t = out.map (eventMsg connFd subId) ∧
    out.Sublist (attempts sent events) ∧
    ((∀ ok ∈ mallocAnswers t, ok = true) → (∀ event ∈ events, FitsBuffer lib subId event) →
      out = attempts sent events)

section Loops

variable
  {lib : Libnostr}
  {connFd : Int32}
  {subId : CString}
  {σ : Type}
  (step : (c : RelayCall) → σ → c.Ret × σ)

/-- A part that finds nothing and sends nothing. -/
theorem Passed.nothing
    (sent : Option (List Bytes32))
    {t : RelayTrace}
    (hsends : Relay.sends t = []) :
    Passed lib connFd subId sent sent [] t where
  cap := rfl
  table := rfl
  sends := ⟨[], hsends, List.Sublist.refl _, fun _ _ => rfl⟩

/-- A query before it sends nothing. -/
theorem Passed.cons_query
    {sent sent' : Option (List Bytes32)}
    {events : List NostrEvent}
    {t : RelayTrace}
    (h : Passed lib connFd subId sent sent' events t)
    {filter : NostrFilter}
    {limit : UInt16}
    {r : StorageError × List NostrEvent} :
    Passed lib connFd subId sent sent' events (⟨.storage (.query filter limit), r⟩ :: t) where
  cap := h.cap
  table := h.table
  sends := h.sends

/-- One part after another. -/
theorem Passed.append
    {sent sent' sent'' : Option (List Bytes32)}
    {xs ys : List NostrEvent}
    {t t' : RelayTrace}
    (h : Passed lib connFd subId sent sent' xs t)
    (h' : Passed lib connFd subId sent' sent'' ys t') :
    Passed lib connFd subId sent sent'' (xs ++ ys) (t ++ t') where
  cap := h'.cap.trans h.cap
  table := by
    rw [h'.table, h.cap, h.table, BoundedDedup.tableAfter_append]
  sends := by
    obtain ⟨out, hsends, hsub, hall⟩ := h.sends
    obtain ⟨out', hsends', hsub', hall'⟩ := h'.sends
    have hattempts : attempts sent (xs ++ ys) = attempts sent xs ++ attempts sent' ys := by
      simp only [attempts, BoundedDedup.emit_append, h.cap, h.table]
    refine ⟨out ++ out', ?_, ?_, ?_⟩
    · rw [sends_append, hsends, hsends', List.map_append]
    · rw [hattempts]
      exact hsub.append hsub'
    · intro hmalloc hfits
      rw [mallocAnswers_append] at hmalloc
      rw [hattempts, hall (fun ok hok => hmalloc ok (List.mem_append_left _ hok))
        (fun event he => hfits event (List.mem_append_left _ he)),
        hall' (fun ok hok => hmalloc ok (List.mem_append_right _ hok))
        (fun event he => hfits event (List.mem_append_right _ he))]

/-- An event whose identifier is in the table is skipped. -/
theorem Passed.skipped
    {sent : Option (List Bytes32)}
    {event : NostrEvent}
    (hmem : event.id ∈ sent.getD []) :
    Passed lib connFd subId sent sent [event] [] where
  cap := rfl
  table := by simp [tableAfter, hmem]
  sends := ⟨[], rfl, List.nil_sublist _, fun _ _ => by simp [attempts, emit, hmem]⟩

/-- `router_send_event` hands the message over when there is memory and it fits. -/
theorem routerSendEvent_trace
    (event : NostrEvent)
    (s : σ) :
    ∃ ok : Bool,
      mallocAnswers ((routerSendEvent lib connFd subId event).trace step s) = [ok] ∧
      Relay.sends ((routerSendEvent lib connFd subId event).trace step s) =
        if ok = true ∧
            (lib.relayMsgSerialize (.event subId event) routerEventBufSize).isSome = true
        then [eventMsg connFd subId event] else [] := by
  have ht : (routerSendEvent lib connFd subId event).trace step s =
      ⟨.malloc, (step .malloc s).1⟩ ::
      (if !(step .malloc s).1 then (pure .espErrNoMem : RelayProg EspErr)
        else sendSerialized lib routerEventBufSize connFd (.event subId event)).trace step
        (step .malloc s).2 := rfl
  rw [ht]
  obtain ⟨ok, s'⟩ := step .malloc s
  refine ⟨ok, ?_⟩
  cases ok with
  | false => exact ⟨rfl, rfl⟩
  | true =>
      have hsends := sends_sendSerialized lib connFd step routerEventBufSize
        (.event subId event) s'
      refine ⟨congrArg (List.cons true)
        (mallocAnswers_of_calls (calls_sendSerialized fun _ => by simp) _), ?_⟩
      simp only [true_and]
      exact hsends

/-- An event that is not in the table is sent if possible, and recorded. -/
theorem Passed.attempted
    {sent : Option (List Bytes32)}
    {event : NostrEvent}
    (hnew : event.id ∉ sent.getD [])
    (s : σ) :
    Passed lib connFd subId sent
      (sent.map fun ids => if ids.length < maxSentIds then ids ++ [event.id] else ids) [event]
      ((routerSendEvent lib connFd subId event).trace step s) where
  cap := by cases sent <;> rfl
  table := by
    simp only [tableAfter, if_neg hnew]
    cases sent <;> rfl
  sends := by
    obtain ⟨ok, hmalloc, hsends⟩ :=
      routerSendEvent_trace step event s
    have hattempts : attempts sent [event] = [event] := by
      simp [attempts, emit, hnew]
    rw [hmalloc, hsends, hattempts]
    split
    · exact ⟨[event], rfl, List.Sublist.refl _, fun _ _ => rfl⟩
    · rename_i hnot
      refine ⟨[], rfl, List.nil_sublist _, ?_⟩
      intro hok hfits
      exact absurd ⟨hok _ List.mem_cons_self, hfits event List.mem_cons_self⟩ hnot

variable (lib connFd subId) in
/-- The loop over the results of one query. -/
theorem sendEvents_passed
    (events : List NostrEvent) :
    ∀ (sent : Option (List Bytes32)) (s : σ),
      Passed lib connFd subId sent ((sendEvents lib connFd subId events sent).run step s).1
        events ((sendEvents lib connFd subId events sent).trace step s) := by
  induction events with
  | nil =>
      intro sent s
      exact Passed.nothing sent rfl
  | cons event rest ih =>
      intro sent s
      unfold sendEvents
      by_cases hmem : event.id ∈ sent.getD []
      · rw [if_pos (by simpa using hmem)]
        exact (Passed.skipped hmem).append (ih sent s)
      · rw [if_neg (by simpa using hmem), Prog.trace_bind, Prog.run_bind]
        exact (Passed.attempted step hmem s).append (ih _ _)

variable (lib connFd subId) in
/-- The loop over the filters. -/
theorem sendStored_passed
    (filters : List NostrFilter) :
    ∀ (sent : Option (List Bytes32)) (s : σ),
      ∃ sent', Passed lib connFd subId sent sent'
          (found ((sendStored lib connFd subId filters sent).trace step s))
          ((sendStored lib connFd subId filters sent).trace step s) ∧
        queries ((sendStored lib connFd subId filters sent).trace step s) =
          filters.map (fun filter => (filter, reqLimit filter)) := by
  induction filters with
  | nil =>
      intro sent s
      exact ⟨sent, Passed.nothing sent rfl, rfl⟩
  | cons filter rest ih =>
      intro sent s
      have ht : (sendStored lib connFd subId (filter :: rest) sent).trace step s =
          ⟨.storage (.query filter (reqLimit filter)),
            (step (.storage (.query filter (reqLimit filter))) s).1⟩ ::
          (if (step (.storage (.query filter (reqLimit filter))) s).1.1 = .storageOk then do
            let sent ← sendEvents lib connFd subId
              (step (.storage (.query filter (reqLimit filter))) s).1.2 sent
            sendStored lib connFd subId rest sent
          else sendStored lib connFd subId rest sent).trace step
            (step (.storage (.query filter (reqLimit filter))) s).2 := rfl
      rw [ht]
      obtain ⟨⟨result, events⟩, s'⟩ := step (.storage (.query filter (reqLimit filter))) s
      have hquery : ∀ t : RelayTrace, queries
          (⟨.storage (.query filter (reqLimit filter)), (result, events)⟩ :: t) =
            (filter, reqLimit filter) :: queries t := fun _ => rfl
      dsimp only
      by_cases hresult : result = .storageOk
      · have hfound : ∀ t : RelayTrace, found
            (⟨.storage (.query filter (reqLimit filter)), (result, events)⟩ :: t) =
              events ++ found t := by
          intro t
          rw [hresult]
          rfl
        have hsent := sendEvents_passed lib connFd subId step events sent s'
        have hcalls : (sendEvents lib connFd subId events sent).Calls
            (fun c => ∀ filter limit, c ≠ .storage (.query filter limit)) :=
          calls_sendEvents (by simp) events (by simp) sent
        obtain ⟨hnothing, hnone⟩ :
            found ((sendEvents lib connFd subId events sent).trace step s') = [] ∧
              queries ((sendEvents lib connFd subId events sent).trace step s') = [] :=
          found_of_calls hcalls s'
        obtain ⟨sent', hpassed, hqueries⟩ := ih
          ((sendEvents lib connFd subId events sent).run step s').1
          ((sendEvents lib connFd subId events sent).run step s').2
        refine ⟨sent', ?_, ?_⟩
        · rw [if_pos hresult, hfound, Prog.trace_bind, found_append, hnothing, List.nil_append]
          exact (hsent.append hpassed).cons_query
        · rw [if_pos hresult, hquery, Prog.trace_bind, queries_append, hnone, List.nil_append,
            hqueries, List.map_cons]
      · have hfound : ∀ t : RelayTrace, found
            (⟨.storage (.query filter (reqLimit filter)), (result, events)⟩ :: t) =
              found t := by
          intro t
          simp [found, hresult]
        obtain ⟨sent', hpassed, hqueries⟩ := ih sent s'
        refine ⟨sent', ?_, ?_⟩
        · rw [if_neg hresult, hfound]
          exact hpassed.cons_query
        · rw [if_neg hresult, hquery, hqueries, List.map_cons]

/-! ## A whole REQ -/

/-- The room `handle_req` has for identifiers. -/
def reqCap
    (t : RelayTrace) : Nat :=
  if (mallocAnswers t).head? = some true then maxSentIds else 0

/-- The EOSE, when it fits its buffer. -/
def eoseMsgs
    (lib : Libnostr)
    (connFd : Int32)
    (subId : CString) : List (Int32 × NostrRelayMsg) :=
  if (lib.relayMsgSerialize (.eose subId) routerSendBufSize).isSome = true then
    [(connFd, .eose subId)]
  else []

/-- How a REQ is answered: events found, then some last messages. -/
structure Answered
    (lib : Libnostr)
    (ctx : RelayCtx)
    (connFd : Int32)
    (subId : CString)
    (filters : List NostrFilter)
    (last : List (Int32 × NostrRelayMsg))
    (t : RelayTrace) : Prop where
  queries : queries t =
    if ctx.storage then filters.map (fun filter => (filter, reqLimit filter)) else []
  tried : mallocAnswers t = [] → found t = []
  sends : ∃ out : List NostrEvent,
    sends t = out.map (eventMsg connFd subId) ++ last ∧
    out.Sublist (emit NostrEvent.id (reqCap t) [] (found t)) ∧
    ((∀ ok ∈ (mallocAnswers t).tail, ok = true) →
      (∀ event ∈ found t, FitsBuffer lib subId event) →
      out = emit NostrEvent.id (reqCap t) [] (found t))

theorem queryStored_answered
    (ctx : RelayCtx)
    (filters : List NostrFilter)
    (s : σ) :
    Answered lib ctx connFd subId filters []
      ((queryStored lib ctx connFd subId filters).trace step s) := by
  unfold queryStored
  cases hstorage : ctx.storage with
  | false =>
      exact ⟨by simp [hstorage, Relay.queries], fun _ => rfl, [], rfl, List.nil_sublist _,
        fun _ _ => rfl⟩
  | true =>
      obtain ⟨ok, s', hstep⟩ : ∃ (ok : Bool) (s' : σ), step .malloc s = (ok, s') :=
        ⟨_, _, rfl⟩
      have ht : (do
          let sentOk ← Perform.malloc
          sendStored lib connFd subId filters (if sentOk then some [] else none) :
            RelayProg Unit).trace step s =
          ⟨.malloc, ok⟩ ::
            (sendStored lib connFd subId filters (if ok then some [] else none)).trace step s' :=
        Prog.trace_perform_bind step hstep _
      obtain ⟨sent', hpassed, hqueries⟩ := sendStored_passed lib connFd subId step filters
        (if ok then some [] else none) s'
      obtain ⟨out, hsends, hsub, hall⟩ := hpassed.sends
      rw [if_pos rfl, ht]
      have hcap : reqCap (⟨.malloc, ok⟩ :: (sendStored lib connFd subId filters
          (if ok then some [] else none)).trace step s') =
          sentCap (if ok then some [] else none) := by
        cases ok <;> rfl
      have htable : (if ok then some [] else none : Option (List Bytes32)).getD [] = [] := by
        cases ok <;> rfl
      simp only [attempts, htable] at hsub hall
      refine ⟨?_, ?_, out, ?_, ?_, ?_⟩
      · rw [hstorage, if_pos rfl]
        exact hqueries
      · rintro ⟨⟩
      · rw [List.append_nil]
        exact hsends
      · rw [hcap]
        exact hsub
      · rw [hcap]
        exact hall

/-- The last message of an accepted REQ. -/
theorem Answered.append
    {ctx : RelayCtx}
    {filters : List NostrFilter}
    {t t' : RelayTrace}
    (h : Answered lib ctx connFd subId filters [] t)
    (hmalloc : mallocAnswers t' = [])
    (hfound : found t' = [] ∧ Relay.queries t' = []) :
    Answered lib ctx connFd subId filters (Relay.sends t') (t ++ t') where
  queries := by
    rw [queries_append, hfound.2, List.append_nil, h.queries]
  tried := by
    rw [mallocAnswers_append, hmalloc, found_append, hfound.1, List.append_nil, List.append_nil]
    exact h.tried
  sends := by
    obtain ⟨out, hsends, hrest⟩ := h.sends
    have hcap : reqCap (t ++ t') = reqCap t := by
      simp [reqCap, hmalloc]
    refine ⟨out, by rw [sends_append, hsends, List.append_nil], ?_⟩
    rw [hcap, mallocAnswers_append, hmalloc, found_append, hfound.1, List.append_nil,
      List.append_nil]
    exact hrest

/-- Calls before the REQ that show nothing. -/
theorem Answered.after
    {ctx : RelayCtx}
    {filters : List NostrFilter}
    {last : List (Int32 × NostrRelayMsg)}
    {t t' : RelayTrace}
    (h : Answered lib ctx connFd subId filters last t')
    (hsends : Relay.sends t = [])
    (hmallocs : mallocAnswers t = [])
    (hfound : found t = [] ∧ Relay.queries t = []) :
    Answered lib ctx connFd subId filters last (t ++ t') where
  queries := by
    rw [queries_append, hfound.2, List.nil_append, h.queries]
  tried := by
    rw [mallocAnswers_append, hmallocs, found_append, hfound.1]
    exact h.tried
  sends := by
    rw [reqCap, sends_append, hsends, mallocAnswers_append, hmallocs, found_append, hfound.1]
    exact h.sends

/-- A REQ that `sub_manager_add` accepts. -/
theorem handleReq_answered
    {ctx : RelayCtx}
    (filters : List NostrFilter)
    (s : σ)
    (hmgr : ctx.subManager = true)
    (hadd : (step (.subAdd connFd subId filters) s).1 = NostrRelayError.ok) :
    Answered lib ctx connFd subId filters (eoseMsgs lib connFd subId)
      ((handleReq lib ctx connFd subId filters).trace step s) := by
  obtain ⟨err, s', hstep⟩ : ∃ (err : NostrRelayError) (s' : σ),
      step (.subAdd connFd subId filters) s = (err, s') := ⟨_, _, rfl⟩
  obtain rfl : err = .ok := by
    rw [hstep] at hadd
    exact hadd
  have ht : (handleReq lib ctx connFd subId filters).trace step s =
      ⟨.subAdd connFd subId filters, NostrRelayError.ok⟩ ::
      (do
        queryStored lib ctx connFd subId filters
        let _ ← routerSendEose lib connFd subId
        pure () : RelayProg Unit).trace step s' := by
    simp only [handleReq, hmgr, Bool.not_true, Bool.false_eq_true, if_false]
    exact Prog.trace_perform_bind step hstep _
  rw [ht]
  rw [Prog.trace_bind, Prog.trace_bind, Prog.trace_pure, List.append_nil, eoseMsgs,
    ← sends_sendSerialized lib connFd step routerSendBufSize (.eose subId)
      ((queryStored lib ctx connFd subId filters).run step s').2]
  let s'' := ((queryStored lib ctx connFd subId filters).run step s').2
  have hanswered : Answered lib ctx connFd subId filters _ (_ ++
      (sendSerialized lib routerSendBufSize connFd (.eose subId)).trace step s'') :=
    (queryStored_answered step ctx filters s').append
      (mallocAnswers_of_calls (calls_sendSerialized fun _ => by simp) s'')
      (found_of_calls (calls_sendSerialized fun _ => by simp) s'')
  exact ⟨hanswered.queries, hanswered.tried, hanswered.sends⟩

end Loops

/-! ## What is found -/

/-- The event was saved, and its record is live. -/
def StoredIn
    (lib : Libnostr)
    (w : LoggedWorld)
    (event : NostrEvent) : Prop :=
  ∃ e ∈ live w.world.engine.visible,
    w.owner e = some event ∧ Describes e event ∧
      (lib.eventSerialize event storageMaxEventSize).isSome = true

section Found

variable
  {lib : Libnostr}
  {w : LoggedWorld}

/-- An identifier is that of one stored event. -/
theorem StoredIn.eq_of_id
    (h : Attributed lib w)
    {event event' : NostrEvent}
    (hevent : StoredIn lib w event)
    (hevent' : StoredIn lib w event')
    (hid : event.id = event'.id) :
    event = event' := by
  obtain ⟨e, hlive, howner, hdescribes, -⟩ := hevent
  obtain ⟨e', hlive', howner', hdescribes', -⟩ := hevent'
  have hsame : e.eventId = e'.eventId := by
    rw [hdescribes.eventId, hdescribes'.eventId, hid]
  rw [h.index.eq_of_eventId hlive hlive' hsame, howner'] at howner
  exact (Option.some.inj howner).symm

section Quiet

variable
  {I : LoggedWorld → Prop}
  (hkeeps : ∀ (w : LoggedWorld) (op : StorageOp), (∀ event, op.call ≠ .save event) → I w →
    I (afterOp lib w op))
include hkeeps

/-- The cleanup task keeps what operations that do not save keep. -/
theorem quiet_afterCleanup
    {w' : LoggedWorld}
    (h : I w')
    (work : List CleanupOp) :
    I (afterCleanup lib w' work) := by
  induction work generalizing w' with
  | nil => exact h
  | cons cleanup rest ih =>
      have hquiet : ∀ event, cleanup.op.call ≠ .save event := by
        intro event
        rcases cleanup.op_call with hcall | hcall <;> rw [hcall] <;> simp
      exact ih (hkeeps w' cleanup.op hquiet h)

/-- So does a call of the relay that does not save. -/
theorem quiet_relayCall
    (env : DispatchEnv)
    {c : RelayCall}
    (hquiet : ∀ event, c ≠ .storage (.save event))
    {h : Handling}
    (hd : I h.state.storage) :
    I (relayCall lib env c h).2.state.storage := by
  cases c with
  | storage call =>
      refine hkeeps _ ⟨call, _⟩ ?_ (quiet_afterCleanup hkeeps hd _)
      intro event hcall
      exact hquiet event (congrArg RelayCall.storage hcall)
  | _ => exact hd

end Quiet

/-- The cleanup task saves nothing. -/
theorem Dwindled.afterCleanup
    {w' : LoggedWorld}
    (h : Dwindled lib w w')
    (work : List CleanupOp) :
    Dwindled lib w (afterCleanup lib w' work) :=
  quiet_afterCleanup (fun _ _ hquiet hd => hd.quiet hquiet) h work

/-- A call of the relay that does not save. -/
theorem Dwindled.relayCall
    (env : DispatchEnv)
    {c : RelayCall}
    (hquiet : ∀ event, c ≠ .storage (.save event))
    {h : Handling}
    (hd : Dwindled lib w h.state.storage) :
    Dwindled lib w (relayCall lib env c h).2.state.storage :=
  quiet_relayCall (fun _ _ hquiet hd => hd.quiet hquiet) env hquiet hd

/-- What a query finds is among its results. -/
theorem mem_of_found_query
    {filter : NostrFilter}
    {limit : UInt16}
    {r : StorageError × List NostrEvent}
    {event : NostrEvent}
    (h : event ∈ found [⟨.storage (.query filter limit), r⟩]) :
    event ∈ r.2 := by
  rw [found, List.flatMap_singleton] at h
  dsimp only at h
  split at h
  · exact h
  · cases h

variable
  (hlib : lib.StorageLaws)
  (hcut : lib.TruncationLaw)
include hlib hcut

/-- What is found while nothing is saved was stored at the beginning. -/
theorem found_storedIn
    (env : DispatchEnv)
    {α : Type}
    {p : RelayProg α}
    (hp : p.Calls (fun c => ∀ event, c ≠ .storage (.save event)))
    {h : Handling}
    (hd : Dwindled lib w h.state.storage)
    {event : NostrEvent}
    (hevent : event ∈ found (p.trace (relayCall lib env) h)) :
    StoredIn lib w event := by
  obtain ⟨x, hx, hmem⟩ := List.mem_flatMap.mp hevent
  refine Prog.Calls.trace_keeps (I := fun h' : Handling => Dwindled lib w h'.state.storage)
    (R := fun x => event ∈ found [x] → StoredIn lib w event) ?_ hp hd x hx ?_
  · intro c h' hquiet hd'
    refine ⟨?_, hd'.relayCall env hquiet⟩
    intro hfound
    cases c with
    | storage call =>
        cases call with
        | query filter limit =>
            have hmem := mem_of_found_query hfound
            obtain ⟨e, hlive, howner, hdescribes, -, -, hser, -⟩ :=
              (hd'.afterCleanup (h'.turns 0).cleanup).owned.of_query hlib hcut hmem
            refine ⟨e, (hd'.afterCleanup _).live_subset e hlive, ?_, hdescribes, hser⟩
            rw [← howner, LoggedWorld.owner, LoggedWorld.owner, (hd'.afterCleanup _).saved]
        | _ => cases hfound
    | _ => cases hfound
  · rw [found, List.flatMap_singleton]
    exact hmem

end Found

/-! ## Accepted REQs -/

/-- The calls made while a frame is handled. -/
def frameTrace
    (lib : Libnostr)
    (ctx : RelayCtx)
    (s : RelayState)
    (connFd : Int32)
    (len : Nat)
    (parsed : Option NostrClientMsg)
    (env : DispatchEnv) : RelayTrace :=
  (onWsMessage lib ctx connFd len parsed).trace (relayCall lib env) (arrived s connFd env)

/-- Messages of an undisturbed run are allocated. -/
theorem mallocAnswers_undisturbed
    {lib : Libnostr}
    {env : DispatchEnv}
    {α : Type}
    (p : RelayProg α)
    {h : Handling}
    (hturns : ∀ n, (h.turns n).mallocOk = true) :
    ∀ ok ∈ mallocAnswers (p.trace (relayCall lib env) h), ok = true := by
  intro ok hok
  obtain ⟨x, hx, hmalloc⟩ := List.mem_filterMap.mp hok
  refine Prog.Calls.trace_keeps (I := fun h' : Handling => ∀ n, (h'.turns n).mallocOk = true)
    (R := fun x => ∀ ok ∈ mallocAnswers [x], ok = true) ?_ (Prog.Calls.unrestricted p) hturns
    x hx ok ?_
  · intro c h' _ hturns'
    refine ⟨?_, fun n => hturns' (n + 1)⟩
    intro ok hok
    cases c with
    | malloc => exact (List.mem_singleton.mp hok).trans (hturns' 0)
    | _ => cases hok
  · exact List.mem_filterMap.mpr ⟨x, List.mem_singleton_self x, hmalloc⟩

section Accepted

variable
  {lib : Libnostr}
  {ctx : RelayCtx}
  {s : RelayState}
  {connFd : Int32}
  {len : Nat}
  {subscriptionId : CString}
  {filters : List NostrFilter}
  {env : DispatchEnv}
  {subId : CString}

variable (lib ctx connFd env) in
/-- The check of the rate limiter shows nothing. -/
theorem rateAllowed_trace
    (type : RateType)
    (h : Handling) :
    let t := (rateAllowed ctx connFd type).trace (relayCall lib env) h
    sends t = [] ∧ mallocAnswers t = [] ∧ found t = [] ∧ queries t = [] :=
  ⟨sends_of_calls (calls_rateAllowed ctx connFd type (by simp)) h,
    mallocAnswers_of_calls (calls_rateAllowed ctx connFd type (by simp)) h,
    found_of_calls (calls_rateAllowed ctx connFd type (by simp)) h⟩

/-- The frame of an accepted REQ. -/
theorem acceptedReq_answered
    (haccepted : acceptedReq ctx s (.frame connFd len (some (.req subscriptionId filters)) env) =
      some (connFd, subId)) :
    Answered lib ctx connFd subId filters (eoseMsgs lib connFd subId)
      (frameTrace lib ctx s connFd len (some (.req subscriptionId filters)) env) := by
  unfold acceptedReq at haccepted
  dsimp only at haccepted
  split at haccepted
  case isFalse => cases haccepted
  case isTrue hchecks =>
    obtain rfl : subscriptionId.take routerMaxSubId = subId := by simpa using haccepted
    simp only [Bool.and_eq_true, decide_eq_true_eq] at hchecks
    obtain ⟨⟨⟨⟨hpos, hlen⟩, hmgr⟩, hpasses⟩, hadd⟩ := hchecks
    let h := arrived s connFd env
    have hmessage : onWsMessage lib ctx connFd len (some (.req subscriptionId filters)) =
        routerDispatch lib ctx connFd (.req (subscriptionId.take routerMaxSubId) filters) := by
      rw [onWsMessage, if_neg]
      · rfl
      · simp only [Bool.or_eq_true, decide_eq_true_eq, not_or, Nat.not_lt]
        exact ⟨Nat.pos_iff_ne_zero.mp hpos, hlen⟩
    have hpassed : reqPasses ctx env h.state connFd (subscriptionId.take routerMaxSubId)
        filters = true := hpasses
    obtain ⟨-, htrace⟩ := run_req_passed lib hpassed
    rw [frameTrace, hmessage, htrace]
    obtain ⟨-, hsame, -⟩ := run_rateAllowed lib ctx env connFd .req h
    obtain ⟨hsends, hmallocs, hfound⟩ := rateAllowed_trace lib ctx connFd env .req h
    refine Answered.after ?_ hsends hmallocs hfound
    refine handleReq_answered _ filters _ hmgr ?_
    simp only [relayCall, relayEffect, hsame]
    exact hadd

/-- The subscription of an accepted REQ is the one it names. -/
theorem acceptedReq_subId
    (haccepted : acceptedReq ctx s (.frame connFd len (some (.req subscriptionId filters)) env) =
      some (connFd, subId)) :
    subId = subscriptionId.take routerMaxSubId := by
  unfold acceptedReq at haccepted
  dsimp only at haccepted
  split at haccepted
  · simpa using haccepted.symm
  · cases haccepted

/-- Whatever is found while a REQ is handled was stored before. -/
theorem frameTrace_storedIn
    (hlib : lib.StorageLaws)
    (hcut : lib.TruncationLaw)
    (h : Attributed lib s.storage)
    {event : NostrEvent}
    (hevent : event ∈
      found (frameTrace lib ctx s connFd len (some (.req subscriptionId filters)) env)) :
    StoredIn lib s.storage event := by
  refine found_storedIn hlib hcut env ?_ (h := arrived s connFd env) h.dwindled hevent
  unfold onWsMessage
  split
  · trivial
  · exact calls_dispatchReq (by simp) (by simp) filters (by simp) (by simp) (by simp)

/-- Messages about stored events fit their buffer. -/
theorem StoredIn.fitsBuffer
    (hlib : lib.StorageLaws)
    {size : NostrRelayMsg → Nat}
    (hsizes : lib.MessageSizes size)
    {w : LoggedWorld}
    {event : NostrEvent}
    (h : StoredIn lib w event)
    (hid : subId.length ≤ routerMaxSubId) :
    FitsBuffer lib subId event := by
  obtain ⟨e, -, -, -, hser⟩ := h
  obtain ⟨json, hjson⟩ := Option.isSome_iff_exists.mp hser
  have hlength := hlib.serialize_le event _ json hjson
  have hsize := hsizes.event_le event _ json subId hjson
  refine (hsizes.serialize _ _).mpr ?_
  simp only [storageMaxEventSize, routerMaxSubId, routerEventBufSize] at *
  omega

/-- The EOSE always fits. -/
theorem eoseMsgs_eq
    {size : NostrRelayMsg → Nat}
    (hsizes : lib.MessageSizes size)
    (connFd : Int32)
    (hid : subId.length ≤ routerMaxSubId) :
    eoseMsgs lib connFd subId = [(connFd, .eose subId)] := by
  have hsize := hsizes.eose_le subId
  refine if_pos ((hsizes.serialize _ _).mpr ?_)
  simp only [routerMaxSubId, routerSendBufSize] at *
  omega

end Accepted

/--
**No stored event is lost.**  From every state the storage can reach with no NVS call failing
before a restart, an accepted REQ is answered with an EVENT for every event its queries return, with
nothing else, and with the EOSE at the end, whether or not the table of identifiers could be
allocated.  (After such a failure two events under one identifier may be stored.)
-/
theorem stored_events_sent
    (lib : Libnostr)
    (hlib : lib.StorageLaws)
    (hcut : lib.TruncationLaw)
    {size : NostrRelayMsg → Nat}
    (hsizes : lib.MessageSizes size)
    (capacity : Nat)
    (ttl : UInt32)
    (hcapacity : capacity ≤ storageIndexEntries)
    (past : List FlashOp)
    (hdurable : Durable capacity past)
    (hsaves : flashSaves past < 2 ^ 32)
    (ctx : RelayCtx)
    {s : RelayState}
    (hstorage : s.storage = finalState (flashStep lib) (erasedFlash capacity ttl hcapacity) past)
    {connFd : Int32}
    {len : Nat}
    {subscriptionId subId : CString}
    {filters : List NostrFilter}
    {env : DispatchEnv}
    (haccepted : acceptedReq ctx s (.frame connFd len (some (.req subscriptionId filters)) env) =
      some (connFd, subId))
    (hmalloc : ∀ ok ∈
      (mallocAnswers (frameTrace lib ctx s connFd len (some (.req subscriptionId filters)) env)).tail,
      ok = true) :
    let t := frameTrace lib ctx s connFd len (some (.req subscriptionId filters)) env
    queries t = (if ctx.storage then filters.map (fun filter => (filter, reqLimit filter)) else []) ∧
      ∃ events : List NostrEvent,
        sends t = events.map (eventMsg connFd subId) ++ [(connFd, .eose subId)] ∧
        ∀ event, event ∈ events ↔ event ∈ found t := by
  intro t
  have hid : subId.length ≤ routerMaxSubId := by
    rw [acceptedReq_subId haccepted]
    exact List.length_take_le _ _
  have hattributed : Attributed lib s.storage := by
    rw [hstorage]
    exact attributed_of_run lib ttl hcapacity past hdurable hsaves
  have hstored : ∀ event ∈ found t, StoredIn lib s.storage event :=
    fun event hevent => frameTrace_storedIn hlib hcut hattributed hevent
  have hanswered : Answered lib ctx connFd subId filters _ t := acceptedReq_answered haccepted
  obtain ⟨out, hsends, -, hall⟩ := hanswered.sends
  have hout := hall hmalloc fun event hevent => (hstored event hevent).fitsBuffer hlib hsizes hid
  refine ⟨hanswered.queries, out, by rw [hsends, eoseMsgs_eq hsizes connFd hid], ?_⟩
  intro event
  rw [hout]
  constructor
  · exact fun hmem => (BoundedDedup.emit_sublist _ _ _ _).subset hmem
  · intro hmem
    -- an event that is dropped has the identifier of one that is sent
    rcases BoundedDedup.mem_emit_of_mem NostrEvent.id (reqCap t) [] (found t) hmem with
      htable | ⟨other, hother, hsame⟩
    · cases htable
    · have hfound := (BoundedDedup.emit_sublist _ _ _ _).subset hother
      rw [(hstored event hmem).eq_of_id hattributed (hstored other hfound) hsame.symm]
      exact hother

/-- The table of identifiers cannot be allocated: the third call of a frame with a REQ fails. -/
def withoutTable : DispatchEnv :=
  { DispatchEnv.undisturbed 1700000001 with
    turns := fun n =>
      { (DispatchEnv.undisturbed 1700000001).turns n with mallocOk := decide (n ≠ 2) } }

/-- Two notes and two filters that both match them, without a table of identifiers. -/
theorem stored_events_sent_overlapping :
    let lib := Sample.library (Sample.notes 2)
    let past : List FlashOp := [saveNote 0, saveNote 1]
    let filters : List NostrFilter := [{}, { kinds := [1] }]
    let s := startRelay
      (finalState (flashStep lib) (erasedFlash 1000 1814400 (by decide)) past)
    let t := frameTrace lib startedCtx s 7 20 (some (.req (ascii "feed") filters)) withoutTable
    (mallocAnswers t).head? = some false ∧ (found t).length = 4 ∧
      queries t = filters.map (fun filter => (filter, 100)) ∧
      ∃ events : List NostrEvent,
        sends t = events.map (eventMsg 7 (ascii "feed")) ++ [(7, .eose (ascii "feed"))] ∧
        ∀ event, event ∈ events ↔ event ∈ found t := by
  intro lib past filters s t
  have hids := Sample.notes_ids_nodup (n := 2) (by decide)
  have haccepted : acceptedReq startedCtx s (.frame 7 20 (some (.req (ascii "feed") filters))
      withoutTable) = some (7, ascii "feed") := by
    decide +kernel
  have hmalloc : ∀ ok ∈ (mallocAnswers t).tail, ok = true := by
    decide +kernel
  obtain ⟨hqueries, hsent⟩ := stored_events_sent lib (Sample.library_storageLaws hids)
    (Sample.library_truncationLaw hids) (Sample.library_messageSizes _) 1000 1814400 (by decide)
    past (durable_of_runs 1000 (by simp [past, saveNote, FlashOp.isRestart])) (by decide) startedCtx
    (by rfl) haccepted hmalloc
  exact ⟨by decide +kernel, by decide +kernel, hqueries.trans rfl, hsent⟩

end Relay
end WispRelay
