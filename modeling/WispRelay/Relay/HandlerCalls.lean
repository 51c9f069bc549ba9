import WispRelay.Relay.Router

/-!
# The calls of the handlers

Which calls each program of the relay can make, whatever they return: it is enough to check a
predicate on them.  A trace lists the calls made; `sends`, `queries`, `found` and
`mallocAnswers` are what it shows of the messages, the queries with their results and the
allocations.
-/

namespace WispRelay
namespace Relay

open Interference Storage Subscriptions

variable
  {P : RelayCall → Prop}
  {lib : Libnostr}
  {ctx : RelayCtx}
  {connFd : Int32}
  {subId : CString}

/-! ## Sending -/

theorem calls_sendSerialized
    {bufSize : Nat}
    {message : NostrRelayMsg}
    (hsend : ∀ text, P (.wsSend connFd message text)) :
    (sendSerialized lib bufSize connFd message).Calls P := by
  unfold sendSerialized
  cases lib.relayMsgSerialize message bufSize with
  | none => trivial
  | some text => exact Prog.Calls.perform (hsend text)

theorem calls_routerSendEvent
    {event : NostrEvent}
    (hmalloc : P .malloc)
    (hsend : ∀ text, P (.wsSend connFd (.event subId event) text)) :
    (routerSendEvent lib connFd subId event).Calls P := by
  refine ⟨hmalloc, fun bufOk => ?_⟩
  cases bufOk with
  | false => trivial
  | true => exact calls_sendSerialized hsend

/-- `router_send_closed`, with what it returns ignored. -/
theorem calls_sendClosed
    {text : String}
    (hsend : ∀ json, P (.wsSend connFd (.closed subId text) json)) :
    (do
      let _ ← routerSendClosed lib connFd subId text
      pure () : RelayProg Unit).Calls P :=
  Prog.Calls.bind (calls_sendSerialized hsend) (fun _ => trivial)

/-- `router_send_eose`, with what it returns ignored. -/
theorem calls_sendEose
    (hsend : ∀ json, P (.wsSend connFd (.eose subId) json)) :
    (do
      let _ ← routerSendEose lib connFd subId
      pure () : RelayProg Unit).Calls P :=
  Prog.Calls.bind (calls_sendSerialized hsend) (fun _ => trivial)

/-- `router_send_notice`, with what it returns ignored. -/
theorem calls_sendNotice
    {text : String}
    (hsend : ∀ json, P (.wsSend connFd (.notice text) json)) :
    (do
      let _ ← routerSendNotice lib connFd text
      pure () : RelayProg Unit).Calls P :=
  Prog.Calls.bind (calls_sendSerialized hsend) (fun _ => trivial)

/-- `router_send_ok`, with what it returns ignored. -/
theorem calls_sendOk
    {eventIdHex : CString}
    {accepted : Bool}
    {text : String}
    (hsend : ∀ json, P (.wsSend connFd (.ok eventIdHex accepted text) json)) :
    (do
      let _ ← routerSendOk lib connFd eventIdHex accepted text
      pure () : RelayProg Unit).Calls P :=
  Prog.Calls.bind (calls_sendSerialized hsend) (fun _ => trivial)

/-! ## Deletion requests -/

section Deletion

variable
  {Q : DeletionCall → Prop}
  (hmalloc : Q .malloc)
  (hquery : ∀ filter limit, Q (.storage (.query filter limit)))
  (hdelete : ∀ eventId, Q (.storage (.delete eventId)))
include hmalloc hquery hdelete

omit hmalloc hquery in
theorem calls_deleteEventId
    (hget : ∀ eventId, Q (.storage (.get eventId)))
    (request : NostrDeletionRequest)
    (hex : CString) :
    (deleteEventId lib request hex).Calls Q := by
  unfold deleteEventId
  cases lib.hexToBytes hex 64 with
  | none => trivial
  | some bytes =>
      refine Prog.Calls.bind (Prog.Calls.perform (hget _)) fun target => ?_
      cases target with
      | none => trivial
      | some target =>
          dsimp only
          split
          · exact ⟨hdelete _, fun _ => trivial⟩
          · trivial

theorem calls_deleteAddress
    (request : NostrDeletionRequest)
    (deleteBefore : Int64)
    (addr : CString) :
    (deleteAddress lib request deleteBefore addr).Calls Q := by
  have hevent : ∀ eventId, (deleteEvent eventId).Calls Q :=
    fun eventId => ⟨hdelete eventId, fun _ => trivial⟩
  unfold deleteAddress
  cases scanAddress addr with
  | none => trivial
  | some parts =>
      obtain ⟨kind, author, dTag⟩ := parts
      dsimp only
      split
      · trivial
      refine Prog.Calls.bind (Prog.Calls.perform hmalloc) fun kindsOk => ?_
      refine Prog.Calls.bind (Prog.Calls.perform hmalloc) fun authorsOk => ?_
      split
      · trivial
      refine Prog.Calls.bind (Prog.Calls.perform (hquery _ _)) fun r => ?_
      obtain ⟨result, events⟩ := r
      dsimp only
      split
      · refine Prog.Calls.total fun event _ => ?_
        split
        · exact hevent event.id
        · trivial
      · trivial

theorem calls_deleteKind
    (deletion : NostrEvent)
    (kind : Int32) :
    (deleteKind lib deletion kind).Calls Q := by
  have hevent : ∀ eventId, (deleteEvent eventId).Calls Q :=
    fun eventId => ⟨hdelete eventId, fun _ => trivial⟩
  refine Prog.Calls.bind (Prog.Calls.perform hmalloc) fun authorsOk => ?_
  split
  · trivial
  refine Prog.Calls.bind (Prog.Calls.perform (hquery _ _)) fun r => ?_
  obtain ⟨result, events⟩ := r
  dsimp only
  split
  · exact Prog.Calls.total fun event _ => hevent event.id
  · trivial

/-- A deletion request is processed by look-ups and deletions. -/
theorem calls_deletionProcess
    (hget : ∀ eventId, Q (.storage (.get eventId)))
    (deletion : NostrEvent) :
    (deletionProcess lib deletion).Calls Q := by
  unfold deletionProcess
  split
  · trivial
  cases lib.deletionParse deletion with
  | none => trivial
  | some request =>
      refine Prog.Calls.bind (Prog.Calls.total fun hex _ =>
        calls_deleteEventId hdelete hget request hex) fun _ => ?_
      refine Prog.Calls.bind (Prog.Calls.total fun addr _ =>
        calls_deleteAddress hmalloc hquery hdelete request _ addr) fun _ => ?_
      exact Prog.Calls.bind (Prog.Calls.total fun kind _ =>
        calls_deleteKind hmalloc hquery hdelete deletion kind) fun _ => trivial

end Deletion

/-- What the relay does for a deletion request. -/
theorem calls_processDeletion
    (hmalloc : P .malloc)
    (hget : ∀ eventId, P (.storage (.get eventId)))
    (hquery : ∀ filter limit, P (.storage (.query filter limit)))
    (hdelete : ∀ eventId, P (.storage (.delete eventId)))
    (event : NostrEvent) :
    (processDeletion lib ctx event).Calls P := by
  unfold processDeletion
  split
  case isFalse => trivial
  refine Prog.Calls.bind ?_ (fun _ => trivial)
  have hcalls : (deletionProcess lib event).Calls (fun c => (ofDeletionCall c).Calls P) :=
    calls_deletionProcess (Prog.Calls.perform hmalloc) (fun _ _ => Prog.Calls.perform (hquery _ _))
      (fun _ => Prog.Calls.perform (hdelete _)) (fun _ => Prog.Calls.perform (hget _)) event
  exact Prog.Calls.interpret (fun _ => id) hcalls

/-! ## Events and subscriptions -/

theorem calls_rateAllowed
    (ctx : RelayCtx)
    (connFd : Int32)
    (type : RateType)
    (hcheck : P (.rateCheck connFd type)) :
    (rateAllowed ctx connFd type).Calls P := by
  unfold rateAllowed
  split
  · exact Prog.Calls.perform hcheck
  · trivial

theorem calls_storeEvent
    {event : NostrEvent}
    (hsave : P (.storage (.save event))) :
    (storeEvent lib ctx event).Calls P := by
  unfold storeEvent
  split
  · exact ⟨hsave, fun _ => trivial⟩
  · trivial

section Stored

variable
  (hmalloc : P .malloc)
include hmalloc

theorem calls_sendEvents
    (events : List NostrEvent)
    (hsend : ∀ event ∈ events, ∀ text, P (.wsSend connFd (.event subId event) text)) :
    ∀ sent, (sendEvents lib connFd subId events sent).Calls P := by
  induction events with
  | nil =>
      intro sent
      trivial
  | cons event rest ih =>
      intro sent
      have hrest := ih (fun e he => hsend e (List.mem_cons_of_mem _ he))
      unfold sendEvents
      split
      · exact hrest sent
      · exact Prog.Calls.bind
          (calls_routerSendEvent hmalloc (hsend event List.mem_cons_self)) (fun _ => hrest _)

theorem calls_sendStored
    (hsend : ∀ event text, P (.wsSend connFd (.event subId event) text))
    (filters : List NostrFilter)
    (hquery : ∀ filter ∈ filters, P (.storage (.query filter (reqLimit filter)))) :
    ∀ sent, (sendStored lib connFd subId filters sent).Calls P := by
  induction filters with
  | nil =>
      intro sent
      trivial
  | cons filter rest ih =>
      intro sent
      have hrest := ih (fun f hf => hquery f (List.mem_cons_of_mem _ hf))
      refine Prog.Calls.bind (Prog.Calls.perform (hquery filter List.mem_cons_self))
        (fun found => ?_)
      split
      · exact Prog.Calls.bind
          (calls_sendEvents hmalloc found.2 (fun event _ => hsend event) sent) (fun _ => hrest _)
      · exact hrest sent

theorem calls_queryStored
    (hsend : ∀ event text, P (.wsSend connFd (.event subId event) text))
    (filters : List NostrFilter)
    (hquery : ∀ filter ∈ filters, P (.storage (.query filter (reqLimit filter)))) :
    (queryStored lib ctx connFd subId filters).Calls P := by
  unfold queryStored
  split
  · exact ⟨hmalloc, fun _ => calls_sendStored hmalloc hsend filters hquery _⟩
  · trivial

theorem calls_handleReq
    (filters : List NostrFilter)
    (hadd : P (.subAdd connFd subId filters))
    (hsend : ∀ message text, P (.wsSend connFd message text))
    (hquery : ∀ filter ∈ filters, P (.storage (.query filter (reqLimit filter)))) :
    (handleReq lib ctx connFd subId filters).Calls P := by
  unfold handleReq
  split
  · exact calls_sendEose (hsend _)
  refine Prog.Calls.bind (Prog.Calls.perform hadd) fun err => ?_
  split
  · exact calls_sendClosed (hsend _)
  · exact Prog.Calls.bind
      (calls_queryStored hmalloc (fun event => hsend (.event subId event)) filters hquery)
      fun _ => calls_sendEose (hsend _)

/-- A REQ, whether it is accepted or refused. -/
theorem calls_dispatchReq
    (hrate : P (.rateCheck connFd .req))
    (filters : List NostrFilter)
    (hadd : P (.subAdd connFd subId filters))
    (hsend : ∀ message text, P (.wsSend connFd message text))
    (hquery : ∀ filter ∈ filters, P (.storage (.query filter (reqLimit filter)))) :
    (routerDispatch lib ctx connFd (.req subId filters)).Calls P := by
  refine Prog.Calls.bind (calls_rateAllowed ctx connFd .req hrate) fun allowed => ?_
  split
  · exact calls_sendClosed (hsend _)
  split
  · exact calls_sendClosed (hsend _)
  split
  · exact calls_sendClosed (hsend _)
  exact calls_handleReq hmalloc filters hadd hsend hquery

end Stored

/-! ## Every message -/

theorem calls_broadcasterFanout
    (event : NostrEvent)
    (hmalloc : P .malloc)
    (hmatch : P (.subMatch event))
    (hsend : ∀ fd subId text, P (.wsSend fd (.event subId event) text)) :
    (broadcasterFanout lib ctx event).Calls P := by
  unfold broadcasterFanout
  split
  · trivial
  refine Prog.Calls.bind (Prog.Calls.perform hmatch) fun found => ?_
  refine Prog.Calls.forEach fun key _ => ?_
  exact Prog.Calls.bind (calls_routerSendEvent hmalloc (hsend _ _)) fun _ => trivial

theorem calls_handleEvent
    (event : NostrEvent)
    (hnow : P .timestampNow)
    (hmalloc : P .malloc)
    (hstorage : ∀ call, P (.storage call))
    (hmatch : P (.subMatch event))
    (hsend : ∀ fd subId text, P (.wsSend fd (.event subId event) text)) :
    (handleEvent lib ctx event).Calls P := by
  refine Prog.Calls.bind (Prog.Calls.perform hnow) fun validated => ?_
  refine Prog.Calls.bind (Prog.Calls.perform hnow) fun aged => ?_
  dsimp only
  split
  · trivial
  refine Prog.Calls.bind (calls_processDeletion hmalloc (fun _ => hstorage _)
    (fun _ _ => hstorage _) (fun _ => hstorage _) event) fun _ => ?_
  refine Prog.Calls.bind (calls_storeEvent (hstorage _)) fun stored => ?_
  split
  · trivial
  · exact Prog.Calls.bind (calls_broadcasterFanout event hmalloc hmatch hsend) fun _ => trivial

/-- A message may make every call, but checks and subscribes its own connection only. -/
theorem calls_routerDispatch
    (msg : RouterMsg)
    (hnow : P .timestampNow)
    (hmalloc : P .malloc)
    (hstorage : ∀ call, P (.storage call))
    (hmatch : ∀ event, P (.subMatch event))
    (hsend : ∀ fd message text, P (.wsSend fd message text))
    (hrate : ∀ type, P (.rateCheck connFd type))
    (hadd : ∀ subId filters, msg = .req subId filters → P (.subAdd connFd subId filters))
    (hremove : ∀ subId, P (.subRemove connFd subId)) :
    (routerDispatch lib ctx connFd msg).Calls P := by
  cases msg with
  | event event =>
      refine Prog.Calls.bind (calls_rateAllowed ctx connFd .event (hrate _)) fun allowed => ?_
      split
      · exact calls_sendOk (hsend _ _)
      · exact Prog.Calls.bind
          (calls_handleEvent event hnow hmalloc hstorage (hmatch event)
            fun fd subId => hsend fd (.event subId event))
          fun _ => calls_sendOk (hsend _ _)
  | req subId filters =>
      exact calls_dispatchReq hmalloc (hrate _) filters (hadd subId filters rfl) (hsend _)
        (fun _ _ => hstorage _)
  | close subId =>
      refine Prog.Calls.bind ?_ fun _ => calls_sendClosed (hsend _ _)
      unfold handleClose
      split
      · exact Prog.Calls.perform (hremove subId)
      · trivial
  | auth => exact calls_sendNotice (hsend _ _)
  | unknown => exact calls_sendNotice (hsend _ _)
  | invalid => exact calls_sendNotice (hsend _ _)

/-! ## What a trace shows -/

/-- The calls made, with what they returned. -/
abbrev RelayTrace := List ((c : RelayCall) × c.Ret)

/-- The messages handed to `ws_server_send`. -/
def sends
    (t : RelayTrace) : List (Int32 × NostrRelayMsg) :=
  t.filterMap fun x =>
    match x with
    | ⟨.wsSend connFd message _, _⟩ => some (connFd, message)
    | _ => none

/-- The queries made. -/
def queries
    (t : RelayTrace) : List (NostrFilter × UInt16) :=
  t.filterMap fun x =>
    match x with
    | ⟨.storage (.query filter limit), _⟩ => some (filter, limit)
    | _ => none

/-- The results of the queries that succeeded. -/
def found
    (t : RelayTrace) : List NostrEvent :=
  t.flatMap fun x =>
    match x with
    | ⟨.storage (.query _ _), (result, events)⟩ => if result = .storageOk then events else []
    | _ => []

/-- The answers of `malloc`. -/
def mallocAnswers
    (t : RelayTrace) : List Bool :=
  t.filterMap fun x =>
    match x with
    | ⟨.malloc, ok⟩ => some ok
    | _ => none

section Trace

variable (t t' : RelayTrace)

@[simp] theorem sends_append : sends (t ++ t') = sends t ++ sends t' :=
  List.filterMap_append

@[simp] theorem queries_append : queries (t ++ t') = queries t ++ queries t' :=
  List.filterMap_append

@[simp] theorem found_append : found (t ++ t') = found t ++ found t' :=
  List.flatMap_append

@[simp] theorem mallocAnswers_append :
    mallocAnswers (t ++ t') = mallocAnswers t ++ mallocAnswers t' :=
  List.filterMap_append

variable
  {α : Type}
  {σ : Type}
  {step : (c : RelayCall) → σ → c.Ret × σ}
  {p : RelayProg α}

theorem sends_of_calls
    (hp : p.Calls (fun c => ∀ connFd message text, c ≠ .wsSend connFd message text))
    (s : σ) :
    sends (p.trace step s) = [] := by
  refine List.filterMap_eq_nil_iff.mpr ?_
  rintro ⟨c, r⟩ hx
  have hcall := hp.of_trace hx
  cases c with
  | wsSend connFd message text => exact absurd rfl (hcall connFd message text)
  | _ => rfl

/-- What is sent is what the calls allow. -/
theorem sends_mem_of_calls
    {Q : Int32 × NostrRelayMsg → Prop}
    (hp : p.Calls (fun c => ∀ connFd message text, c = .wsSend connFd message text →
      Q (connFd, message)))
    (s : σ) :
    ∀ x ∈ sends (p.trace step s), Q x := by
  intro x hx
  obtain ⟨⟨c, r⟩, hmem, hsent⟩ := List.mem_filterMap.mp hx
  have hcall := hp.of_trace hmem
  cases c with
  | wsSend connFd message text =>
      obtain rfl := Option.some.inj hsent
      exact hcall connFd message text rfl
  | _ => cases hsent

theorem mallocAnswers_of_calls
    (hp : p.Calls (fun c => c ≠ .malloc))
    (s : σ) :
    mallocAnswers (p.trace step s) = [] := by
  refine List.filterMap_eq_nil_iff.mpr ?_
  rintro ⟨c, r⟩ hx
  have hcall := hp.of_trace hx
  cases c with
  | malloc => exact absurd rfl hcall
  | _ => rfl

/-- A program that does not query finds nothing. -/
theorem found_of_calls
    (hp : p.Calls (fun c => ∀ filter limit, c ≠ .storage (.query filter limit)))
    (s : σ) :
    found (p.trace step s) = [] ∧ queries (p.trace step s) = [] := by
  refine ⟨List.flatMap_eq_nil_iff.mpr ?_, List.filterMap_eq_nil_iff.mpr ?_⟩
  all_goals
    rintro ⟨c, r⟩ hx
    have hcall := hp.of_trace hx
    cases c with
    | storage call =>
        cases call with
        | query filter limit => exact absurd rfl (hcall filter limit)
        | _ => rfl
    | _ => rfl

variable (lib connFd step)

/-- A message is handed over exactly when it fits the buffer. -/
theorem sends_sendSerialized
    (bufSize : Nat)
    (message : NostrRelayMsg)
    (s : σ) :
    sends ((sendSerialized lib bufSize connFd message).trace step s) =
      if (lib.relayMsgSerialize message bufSize).isSome then [(connFd, message)] else [] := by
  unfold sendSerialized
  cases lib.relayMsgSerialize message bufSize with
  | none => rfl
  | some text => rfl

end Trace

end Relay
end WispRelay
