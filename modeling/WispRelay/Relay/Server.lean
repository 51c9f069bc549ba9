import WispRelay.Relay.AuthorOnly
import WispRelay.Relay.WsServer

/-!
# The relay

The whole relay as a machine: its tables and the storage engine, the calls of the handlers on
them, and the events that reach it: a session is opened or closed, a frame arrives, a queued
message is sent, the cleanup task works.

A frame is handled to its end before the next event.  What the environment decides meanwhile
is a `DispatchEnv`: the readings of the timer, the allocations of `sub_manager_add`, and a
`CallTurn` for each call; before a call to the storage engine the cleanup task may have run.
-/

namespace WispRelay
namespace Relay

open Interference Runs Storage Subscriptions

/-! ## State and environment -/

/-- The relay: what the global context of `main.c` points to. -/
structure RelayState where
  ws : WsServer
  subManager : SubManager
  rateLimiter : RateLimiter
  storage : LoggedWorld

/-- The relay when `start_relay_server` is done. -/
def startRelay
    (storage : LoggedWorld) : RelayState where
  ws := wsServerInit
  subManager := subManagerInit
  rateLimiter := rateLimiterInit (some { eventsPerMinute := 30, reqsPerMinute := 60 })
  storage := storage

/-- The work of the cleanup task: a purge or a compaction. -/
structure CleanupOp where
  compact : Bool
  env : CallEnv

/-- The operation of the storage engine. -/
def CleanupOp.op
    (cleanup : CleanupOp) : StorageOp where
  call := if cleanup.compact then .compact else .purge
  env := cleanup.env

theorem CleanupOp.op_call
    (cleanup : CleanupOp) :
    cleanup.op.call = .purge ∨ cleanup.op.call = .compact := by
  cases hcompact : cleanup.compact with
  | false => exact .inl (by simp [op, hcompact])
  | true => exact .inr (by simp [op, hcompact])

/-- The storage after the cleanup task has worked. -/
def afterCleanup
    (lib : Libnostr)
    (w : LoggedWorld)
    (work : List CleanupOp) : LoggedWorld :=
  work.foldl (fun w cleanup => afterOp lib w cleanup.op) w

/-- What the environment decides in one call. -/
structure CallTurn where
  /-- What the cleanup task does before the call. -/
  cleanup : List CleanupOp
  storage : CallEnv
  /-- `nostr_timestamp_now`. -/
  now : Int64
  mallocOk : Bool
  send : SendEnv

/-- What the environment decides while a frame is handled. -/
structure DispatchEnv where
  /-- The readings of `esp_timer_get_time() / 1000000` by the rate limiter. -/
  opened : UInt32
  checked : UInt32
  /-- The answers to the allocations of `sub_manager_add`. -/
  copies : List Bool
  turns : Nat → CallTurn

/-- Nothing fails and the cleanup task does not work, at one time of the clock. -/
def CallTurn.undisturbed
    (now : Int64) : CallTurn where
  cleanup := []
  storage := CallEnv.undisturbed (uint32OfInt64 now)
  now := now
  mallocOk := true
  send := { argOk := true, dataOk := true, httpdOk := true }

/-- Every call is undisturbed. -/
def DispatchEnv.undisturbed
    (now : Int64) : DispatchEnv where
  opened := 0
  checked := 0
  copies := []
  turns := fun _ => CallTurn.undisturbed now

/-! ## The calls of the handlers -/

/-- What a call does. -/
def relayEffect
    (lib : Libnostr)
    (env : DispatchEnv)
    (turn : CallTurn)
    (s : RelayState) : (c : RelayCall) → c.Ret × RelayState
  | .timestampNow => (turn.now, s)
  | .malloc => (turn.mallocOk, s)
  | .rateCheck connFd type =>
      let r := rateLimiterCheck env.opened env.checked s.rateLimiter connFd type
      (r.1, { s with rateLimiter := r.2 })
  | .subAdd connFd subId filters =>
      let r := subManagerAdd env.copies s.subManager connFd subId filters
      (r.1, { s with subManager := r.2 })
  | .subRemove connFd subId =>
      let r := subManagerRemove s.subManager connFd subId
      (r.1, { s with subManager := r.2 })
  | .subMatch event => (subManagerMatch lib s.subManager event, s)
  | .storage call =>
      let w := afterCleanup lib s.storage turn.cleanup
      ((storageCall lib turn.storage w.world call).1,
        { s with storage := afterOp lib w ⟨call, turn.storage⟩ })
  | .wsSend connFd message text =>
      let r := wsServerSend turn.send s.ws connFd message text
      (r.1, { s with ws := r.2 })

/-- The relay while a frame is handled, with the turns still to come. -/
structure Handling where
  state : RelayState
  turns : Nat → CallTurn

/-- One call of a handler. -/
def relayCall
    (lib : Libnostr)
    (env : DispatchEnv)
    (c : RelayCall)
    (h : Handling) : c.Ret × Handling :=
  let r := relayEffect lib env (h.turns 0) h.state c
  (r.1, { state := r.2, turns := fun n => h.turns (n + 1) })

/-- Run a program of the relay to its end. -/
def handle
    {α : Type}
    (lib : Libnostr)
    (env : DispatchEnv)
    (p : RelayProg α)
    (s : RelayState) : α × RelayState :=
  let r := p.run (relayCall lib env) { state := s, turns := env.turns }
  (r.1, r.2.state)

/-! ## Events -/

/-- `on_ws_message`, with what the library parses the text to. -/
def onWsMessage
    (lib : Libnostr)
    (ctx : RelayCtx)
    (connFd : Int32)
    (len : Nat)
    (parsed : Option NostrClientMsg) : RelayProg Unit :=
  if len = 0 || wsMaxFrameSize < len then
    pure ()
  else
    match parsed with
    | none => do
        let _ ← routerSendNotice lib connFd "error: failed to parse message"
        pure ()
    | some msg => routerDispatch lib ctx connFd (routerParse msg)

/-- The relay when a frame arrives. -/
def arrived
    (s : RelayState)
    (connFd : Int32)
    (env : DispatchEnv) : Handling where
  state := { s with ws := { s.ws with currentReq := some connFd } }
  turns := env.turns

/-- `on_ws_disconnect`. -/
def onWsDisconnect
    (s : RelayState)
    (fd : Int32) : RelayState :=
  { s with
    subManager := subManagerRemoveAll s.subManager fd
    rateLimiter := rateLimiterReset s.rateLimiter fd }

/-- What reaches the relay. -/
inductive RelayEvent where
  | opened (connFd : Int32)
  | closed (connFd : Int32)
  | frame (connFd : Int32) (len : Nat) (parsed : Option NostrClientMsg) (env : DispatchEnv)
  | work (sendOk : Bool)
  | cleanup (work : CleanupOp)

/-- The relay after an event. -/
def relayStep
    (lib : Libnostr)
    (ctx : RelayCtx)
    (s : RelayState) : RelayEvent → RelayState
  | .opened connFd => { s with ws := openSession s.ws connFd }
  | .closed connFd =>
      let s := onWsDisconnect s connFd
      { s with ws := endSession (onClose s.ws connFd) connFd }
  | .frame connFd len parsed env =>
      let requested := { s with ws := { s.ws with currentReq := some connFd } }
      let s := (handle lib env (onWsMessage lib ctx connFd len parsed) requested).2
      { s with ws := { s.ws with currentReq := none } }
  | .work sendOk => { s with ws := runQueued sendOk s.ws }
  | .cleanup work => { s with storage := afterOp lib s.storage work.op }

/-- The relay as a machine that returns nothing. -/
def relayMachine
    (lib : Libnostr)
    (ctx : RelayCtx)
    (s : RelayState)
    (event : RelayEvent) : Unit × RelayState :=
  ((), relayStep lib ctx s event)

/-- The relay after a list of events. -/
def afterEvents
    (lib : Libnostr)
    (ctx : RelayCtx)
    (s : RelayState)
    (events : List RelayEvent) : RelayState :=
  finalState (relayMachine lib ctx) s events

@[simp] theorem afterEvents_nil (lib : Libnostr) (ctx : RelayCtx) (s : RelayState) :
    afterEvents lib ctx s [] = s := rfl

@[simp] theorem afterEvents_snoc (lib : Libnostr) (ctx : RelayCtx) (s : RelayState)
    (events : List RelayEvent) (event : RelayEvent) :
    afterEvents lib ctx s (events ++ [event]) =
      relayStep lib ctx (afterEvents lib ctx s events) event :=
  finalState_snoc _ _ _ _

end Relay
end WispRelay
