import WispRelay.Library.Execution
import WispRelay.Relay.Deletion
import WispRelay.Relay.RateLimiter
import WispRelay.Relay.Validator
import WispRelay.Subscriptions.SubManager

/-!
# Dispatching client messages

`router_dispatch` with the handlers and the broadcaster: the programs of `router.c`,
`handlers_stub.c` and `broadcaster.c`.  Their calls (`RelayCall`) are the operations of the
subscription manager, the rate limiter and the storage engine, the allocations, the clock and
`ws_server_send`; a later module says what each call does.

A message is serialised by the library into a buffer of fixed size and handed to
`ws_server_send` when it fits.  `RelayCall.wsSend` carries the message next to its text.
-/

namespace WispRelay
namespace Relay

open Interference Storage Subscriptions

/-! ## Messages and the context -/

/-- `router_msg_t`. -/
inductive RouterMsg where
  | event (event : NostrEvent)
  | req (subId : CString) (filters : List NostrFilter)
  | close (subId : CString)
  | auth
  | unknown
  | invalid
deriving DecidableEq

/-- `nostr_client_msg_t`, as the library parses it. -/
inductive NostrClientMsg where
  | event (event : NostrEvent)
  | req (subscriptionId : CString) (filters : List NostrFilter)
  | close (subscriptionId : CString)
  | auth
  | other

/-- `ROUTER_MAX_SUB_ID`. -/
def routerMaxSubId : Nat := 64

/-- `ROUTER_MAX_FILTERS`. -/
def routerMaxFilters : Nat := 4

/-- `router_parse` of what the library parsed; it copies at most `ROUTER_MAX_SUB_ID` bytes. -/
def routerParse : NostrClientMsg → RouterMsg
  | .event event => .event event
  | .req subscriptionId filters => .req (subscriptionId.take routerMaxSubId) filters
  | .close subscriptionId => .close (subscriptionId.take routerMaxSubId)
  | .auth => .auth
  | .other => .unknown

/-- `relay_ctx_t`: which components there are, and the limits the handlers read. -/
structure RelayCtx where
  subManager : Bool
  storage : Bool
  rateLimiter : Bool
  maxEventAgeSec : UInt32
  maxFutureSec : Int64

/-- The context `start_relay_server` sets up. -/
def startedCtx : RelayCtx where
  subManager := true
  storage := true
  rateLimiter := true
  maxEventAgeSec := 21 * 24 * 60 * 60
  maxFutureSec := 900

/-- `esp_err_t`, the codes `ws_server.c` and `router.c` return. -/
inductive EspErr where
  | espOk
  | espFail
  | espErrNoMem
  | espErrInvalidState
deriving DecidableEq

/-! ## The calls -/

/-- The calls the handlers make. -/
inductive RelayCall where
  | timestampNow
  | malloc
  | rateCheck (connFd : Int32) (type : RateType)
  | subAdd (connFd : Int32) (subId : CString) (filters : List NostrFilter)
  | subRemove (connFd : Int32) (subId : CString)
  | subMatch (event : NostrEvent)
  | storage (call : StorageCall)
  | wsSend (connFd : Int32) (message : NostrRelayMsg) (text : CString)

/-- What a call returns; `malloc` returns whether there was memory. -/
def RelayCall.Ret : RelayCall → Type
  | .timestampNow => Int64
  | .malloc => Bool
  | .rateCheck _ _ => Bool
  | .subAdd _ _ _ => NostrRelayError
  | .subRemove _ _ => NostrRelayError
  | .subMatch _ => List SubKey
  | .storage call => call.Ret
  | .wsSend _ _ _ => EspErr

/-- A program of such calls. -/
abbrev RelayProg := Prog RelayCall RelayCall.Ret

namespace Perform

/-- `nostr_timestamp_now`. -/
def timestampNow : RelayProg Int64 :=
  Prog.perform RelayCall.timestampNow

/-- `malloc`. -/
def malloc : RelayProg Bool :=
  Prog.perform RelayCall.malloc

/-- `rate_limiter_check`. -/
def rateLimiterCheck
    (connFd : Int32)
    (type : RateType) : RelayProg Bool :=
  Prog.perform (RelayCall.rateCheck connFd type)

/-- `sub_manager_add`. -/
def subManagerAdd
    (connFd : Int32)
    (subId : CString)
    (filters : List NostrFilter) : RelayProg NostrRelayError :=
  Prog.perform (RelayCall.subAdd connFd subId filters)

/-- `sub_manager_remove`. -/
def subManagerRemove
    (connFd : Int32)
    (subId : CString) : RelayProg NostrRelayError :=
  Prog.perform (RelayCall.subRemove connFd subId)

/-- `sub_manager_match`. -/
def subManagerMatch
    (event : NostrEvent) : RelayProg (List SubKey) :=
  Prog.perform (RelayCall.subMatch event)

/-- `storage_save_event`. -/
def storageSaveEvent
    (event : NostrEvent) : RelayProg StorageError :=
  Prog.perform (RelayCall.storage (.save event))

/-- `storage_query_events`. -/
def storageQueryEvents
    (filter : NostrFilter)
    (limit : UInt16) : RelayProg (StorageError × List NostrEvent) :=
  Prog.perform (RelayCall.storage (.query filter limit))

/-- `ws_server_send`. -/
def wsServerSend
    (connFd : Int32)
    (message : NostrRelayMsg)
    (text : CString) : RelayProg EspErr :=
  Prog.perform (RelayCall.wsSend connFd message text)

end Perform

/-- The calls of `deletion.c`, made by the relay. -/
def ofDeletionCall : (c : DeletionCall) → RelayProg c.Ret
  | .malloc => Prog.perform RelayCall.malloc
  | .storage call => Prog.perform (RelayCall.storage call)

/-! ## Sending -/

/-- `ROUTER_SEND_BUF_SIZE`. -/
def routerSendBufSize : Nat := 512

/-- `ROUTER_EVENT_BUF_SIZE`. -/
def routerEventBufSize : Nat := 16384

/-- Serialise into a buffer and send what was written, if the message fits. -/
def sendSerialized
    (lib : Libnostr)
    (bufSize : Nat)
    (connFd : Int32)
    (message : NostrRelayMsg) : RelayProg EspErr :=
  match lib.relayMsgSerialize message bufSize with
  | none => pure .espErrNoMem
  | some text => Perform.wsServerSend connFd message text

/-- `send_relay_msg`. -/
def sendRelayMsg
    (lib : Libnostr)
    (connFd : Int32)
    (message : NostrRelayMsg) : RelayProg EspErr :=
  sendSerialized lib routerSendBufSize connFd message

/-- `router_send_notice`. -/
def routerSendNotice
    (lib : Libnostr)
    (connFd : Int32)
    (message : String) : RelayProg EspErr :=
  sendRelayMsg lib connFd (.notice message)

/-- `router_send_ok`. -/
def routerSendOk
    (lib : Libnostr)
    (connFd : Int32)
    (eventIdHex : CString)
    (accepted : Bool)
    (message : String) : RelayProg EspErr :=
  sendRelayMsg lib connFd (.ok eventIdHex accepted message)

/-- `router_send_eose`. -/
def routerSendEose
    (lib : Libnostr)
    (connFd : Int32)
    (subId : CString) : RelayProg EspErr :=
  sendRelayMsg lib connFd (.eose subId)

/-- `router_send_closed`. -/
def routerSendClosed
    (lib : Libnostr)
    (connFd : Int32)
    (subId : CString)
    (message : String) : RelayProg EspErr :=
  sendRelayMsg lib connFd (.closed subId message)

/-- `router_send_event`. -/
def routerSendEvent
    (lib : Libnostr)
    (connFd : Int32)
    (subId : CString)
    (event : NostrEvent) : RelayProg EspErr := do
  let bufOk ← Perform.malloc
  if !bufOk then
    pure .espErrNoMem
  else
    sendSerialized lib routerEventBufSize connFd (.event subId event)

/-- `broadcaster_fanout`. -/
def broadcasterFanout
    (lib : Libnostr)
    (ctx : RelayCtx)
    (event : NostrEvent) : RelayProg Unit :=
  if !ctx.subManager then
    pure ()
  else do
    let found ← Perform.subManagerMatch event
    Prog.forEach (fun key => do
      let _ ← routerSendEvent lib key.1 key.2 event
      pure ()) found

/-! ## The handlers -/

/-- The part of `handle_event` that processes a deletion request. -/
def processDeletion
    (lib : Libnostr)
    (ctx : RelayCtx)
    (event : NostrEvent) : RelayProg Unit :=
  if event.kind = nostrKindDeletion && ctx.storage then do
    let _ ← (deletionProcess lib event).interpret ofDeletionCall
    pure ()
  else
    pure ()

/-- The part of `handle_event` that saves the event: whether it goes on. -/
def storeEvent
    (lib : Libnostr)
    (ctx : RelayCtx)
    (event : NostrEvent) : RelayProg Bool :=
  if !lib.kindIsEphemeral event.kind && ctx.storage then do
    let stored ← Perform.storageSaveEvent event
    pure (stored = .storageOk || stored = .duplicate)
  else
    pure true

/-- The configuration `handle_event` validates with. -/
def validatorConfig
    (ctx : RelayCtx) : ValidatorConfig where
  maxEventAgeSec := ctx.maxEventAgeSec
  maxFutureSec := ctx.maxFutureSec
  minPowDifficulty := 0
  checkDuplicates := true

/-- `handle_event`. -/
def handleEvent
    (lib : Libnostr)
    (ctx : RelayCtx)
    (event : NostrEvent) : RelayProg NostrRelayError := do
  let validated ← Perform.timestampNow
  let aged ← Perform.timestampNow
  let result := validatorCheckEvent lib (validatorConfig ctx) validated aged event
  if result ≠ .validationOk then
    pure (validatorResultToRelayError result)
  else do
    processDeletion lib ctx event
    let stored ← storeEvent lib ctx event
    if !stored then
      pure .errStorage
    else do
      broadcasterFanout lib ctx event
      pure .ok

/-- `MAX_SENT_IDS`. -/
def maxSentIds : Nat := 64

/--
The loop of `handle_req` over the results of one query.  `sent` is the table of identifiers
sent so far, if it could be allocated.
-/
def sendEvents
    (lib : Libnostr)
    (connFd : Int32)
    (subId : CString) :
    List NostrEvent → Option (List Bytes32) → RelayProg (Option (List Bytes32))
  | [], sent => pure sent
  | event :: rest, sent =>
      if (sent.getD []).contains event.id then
        sendEvents lib connFd subId rest sent
      else do
        let _ ← routerSendEvent lib connFd subId event
        let sent := sent.map fun ids => if ids.length < maxSentIds then ids ++ [event.id] else ids
        sendEvents lib connFd subId rest sent

/-- The limit of the query for a filter. -/
def reqLimit
    (filter : NostrFilter) : UInt16 :=
  if 0 < filter.limit then filter.limit.toUInt32.toUInt16 else 100

/-- The loop of `handle_req` over the filters. -/
def sendStored
    (lib : Libnostr)
    (connFd : Int32)
    (subId : CString) :
    List NostrFilter → Option (List Bytes32) → RelayProg Unit
  | [], _ => pure ()
  | filter :: rest, sent => do
      let found ← Perform.storageQueryEvents filter (reqLimit filter)
      if found.1 = .storageOk then
        let sent ← sendEvents lib connFd subId found.2 sent
        sendStored lib connFd subId rest sent
      else
        sendStored lib connFd subId rest sent

/-- The part of `handle_req` that sends stored events. -/
def queryStored
    (lib : Libnostr)
    (ctx : RelayCtx)
    (connFd : Int32)
    (subId : CString)
    (filters : List NostrFilter) : RelayProg Unit :=
  if ctx.storage then do
    let sentOk ← Perform.malloc
    sendStored lib connFd subId filters (if sentOk then some [] else none)
  else
    pure ()

/-- `handle_req`. -/
def handleReq
    (lib : Libnostr)
    (ctx : RelayCtx)
    (connFd : Int32)
    (subId : CString)
    (filters : List NostrFilter) : RelayProg Unit :=
  if !ctx.subManager then do
    let _ ← routerSendEose lib connFd subId
    pure ()
  else do
    let err ← Perform.subManagerAdd connFd subId filters
    if err ≠ .ok then
      let _ ← routerSendClosed lib connFd subId "error: too many subscriptions"
      pure ()
    else do
      queryStored lib ctx connFd subId filters
      let _ ← routerSendEose lib connFd subId
      pure ()

/-- `handle_close`. -/
def handleClose
    (ctx : RelayCtx)
    (connFd : Int32)
    (subId : CString) : RelayProg NostrRelayError :=
  if ctx.subManager then
    Perform.subManagerRemove connFd subId
  else
    pure .ok

/-! ## Dispatch -/

/-- `NOSTR_OK_PREFIX_INVALID`. -/
def nostrOkPrefixInvalid : String := "invalid:"

/-- `NOSTR_OK_PREFIX_ERROR`. -/
def nostrOkPrefixError : String := "error:"

/-- `get_event_rejection_message`. -/
def getEventRejectionMessage : NostrRelayError → String
  | .errInvalidSig | .errSigMismatch => nostrOkPrefixInvalid ++ "bad signature"
  | .errInvalidId | .errIdMismatch => nostrOkPrefixInvalid ++ "bad event id"
  | .errFutureEvent => nostrOkPrefixInvalid ++ "event too far in future"
  | .errExpiredEvent => nostrOkPrefixInvalid ++ "event expired"
  | .errStorage => nostrOkPrefixError ++ "could not save event"
  | _ => nostrOkPrefixError ++ "internal error"

/-- `ctx->rate_limiter && !rate_limiter_check(...)`, negated. -/
def rateAllowed
    (ctx : RelayCtx)
    (connFd : Int32)
    (type : RateType) : RelayProg Bool :=
  if ctx.rateLimiter then
    Perform.rateLimiterCheck connFd type
  else
    pure true

/-- `router_dispatch`. -/
def routerDispatch
    (lib : Libnostr)
    (ctx : RelayCtx)
    (connFd : Int32) : RouterMsg → RelayProg Unit
  | .event event => do
      let idHex := lib.bytesToHex event.id.toList
      let allowed ← rateAllowed ctx connFd .event
      if !allowed then
        let _ ← routerSendOk lib connFd idHex false "rate-limited:"
        pure ()
      else do
        let result ← handleEvent lib ctx event
        let message := if result = .ok then "" else getEventRejectionMessage result
        let _ ← routerSendOk lib connFd idHex (result = .ok) message
        pure ()
  | .req subId filters => do
      let allowed ← rateAllowed ctx connFd .req
      if !allowed then
        let _ ← routerSendClosed lib connFd subId "rate-limited:"
        pure ()
      else if subId.length = 0 || routerMaxSubId < subId.length then
        let _ ← routerSendClosed lib connFd subId "error: invalid subscription id"
        pure ()
      else if routerMaxFilters < filters.length then
        let _ ← routerSendClosed lib connFd subId "error: too many filters"
        pure ()
      else
        handleReq lib ctx connFd subId filters
  | .close subId => do
      let result ← handleClose ctx connFd subId
      let message := if result = .ok then "" else "no such subscription"
      let _ ← routerSendClosed lib connFd subId message
      pure ()
  | .auth => do
      let _ ← routerSendNotice lib connFd "AUTH not implemented"
      pure ()
  | .unknown => do
      let _ ← routerSendNotice lib connFd "unknown message type"
      pure ()
  | .invalid => do
      let _ ← routerSendNotice lib connFd "invalid message format"
      pure ()

end Relay
end WispRelay
