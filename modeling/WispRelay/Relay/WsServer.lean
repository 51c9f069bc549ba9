import Mathlib.Logic.Function.Basic
import WispRelay.Library.SlotTable
import WispRelay.Relay.Router

/-!
# The web socket server

The connection table and the two ways of sending of `ws_server.c`, over what the HTTP server
library is documented to do: it gives every session a descriptor no other open session has,
runs queued work in order and one item at a time, and writes to the session that has the
descriptor.

Sessions carry a number that no other session of the run has, since descriptors are used
again.  `calls` lists the calls of `ws_server_send` and `written` the frames written, both in
order; a call carries its number in `calls` and the session that had the descriptor.

The times and the remote address in the connection table are only logged and left out.
-/

namespace WispRelay
namespace Relay

open SlotTable (findSlot?)

/-- `WS_MAX_CONNECTIONS`. -/
def wsMaxConnections : Nat := 8

/-- `WS_MAX_FRAME_SIZE`. -/
def wsMaxFrameSize : Nat := 65536

/-- `ws_connection_t`. -/
structure WsConnection where
  fd : Int32
  active : Bool
deriving DecidableEq

/-- A connection as `memset` leaves it. -/
def WsConnection.zero : WsConnection where
  fd := 0
  active := false

/-- A session of the HTTP server, and whether `on_open` accepted it. -/
structure Session where
  number : Nat
  accepted : Bool
deriving DecidableEq

/-- A call of `ws_server_send`. -/
structure SendCall where
  number : Nat
  connFd : Int32
  session : Option Nat
  message : NostrRelayMsg
  text : CString
deriving DecidableEq

/-- A frame written to a session. -/
structure Frame where
  session : Nat
  call : SendCall
deriving DecidableEq

/-- `ws_server_t` with the server library, and what was sent so far. -/
structure WsServer where
  connections : Vector WsConnection wsMaxConnections
  connectionCount : UInt8
  /-- The descriptor of `g_current_req`. -/
  currentReq : Option Int32
  sessions : Int32 → Option Session
  nextSession : Nat
  queue : List SendCall
  calls : List SendCall
  written : List Frame

/-- The server after `ws_server_init`. -/
def wsServerInit : WsServer where
  connections := Vector.replicate wsMaxConnections WsConnection.zero
  connectionCount := 0
  currentReq := none
  sessions := fun _ => none
  nextSession := 0
  queue := []
  calls := []
  written := []

/-! ## Connections -/

/-- The connection has the descriptor. -/
def WsConnection.ofFd
    (fd : Int32)
    (conn : WsConnection) : Bool :=
  conn.active && conn.fd == fd

/-- `on_open`: the connection gets a slot, unless it is refused. -/
def onOpen
    (ws : WsServer)
    (fd : Int32) : Bool × WsServer :=
  if UInt8.ofNat wsMaxConnections ≤ ws.connectionCount then (false, ws)
  else
    match findSlot? ws.connections (fun conn => !conn.active) with
    | none => (false, ws)
    | some i =>
        (true,
          { ws with
            connections := ws.connections.set i { fd := fd, active := true }
            connectionCount := ws.connectionCount + 1 })

/-- The part of `on_close` after the disconnect callback. -/
def onClose
    (ws : WsServer)
    (fd : Int32) : WsServer :=
  match findSlot? ws.connections (WsConnection.ofFd fd) with
  | none => ws
  | some i =>
      { ws with
        connections := ws.connections.set i WsConnection.zero
        connectionCount := ws.connectionCount - 1 }

/-- The library opens a session and asks `on_open` about it. -/
def openSession
    (ws : WsServer)
    (fd : Int32) : WsServer :=
  let (accepted, ws) := onOpen ws fd
  { ws with
    sessions :=
      Function.update ws.sessions fd (some { number := ws.nextSession, accepted := accepted })
    nextSession := ws.nextSession + 1 }

/-- The library ends a session after `on_close`. -/
def endSession
    (ws : WsServer)
    (fd : Int32) : WsServer :=
  { ws with sessions := Function.update ws.sessions fd none }

/-! ## Sending -/

/-- What the environment decides in a call of `ws_server_send`. -/
structure SendEnv where
  /-- The two allocations of the queued path. -/
  argOk : Bool
  dataOk : Bool
  /-- `httpd_ws_send_frame` or `httpd_queue_work`. -/
  httpdOk : Bool

namespace WsServer

/-- The call that is made next. -/
def nextCall
    (ws : WsServer)
    (fd : Int32)
    (message : NostrRelayMsg)
    (text : CString) : SendCall where
  number := ws.calls.length
  connFd := fd
  session := (ws.sessions fd).map Session.number
  message := message
  text := text

/-- The call is made. -/
def logCall
    (ws : WsServer)
    (call : SendCall) : WsServer :=
  { ws with calls := ws.calls ++ [call] }

/-- `httpd_queue_work`. -/
def enqueue
    (ws : WsServer)
    (call : SendCall) : WsServer :=
  { ws with queue := ws.queue ++ [call] }

/-- Write a frame to the session that has the descriptor, if there is one. -/
def writeFrame
    (ws : WsServer)
    (call : SendCall) : WsServer :=
  match ws.sessions call.connFd with
  | none => ws
  | some session =>
      { ws with written := ws.written ++ [{ session := session.number, call := call }] }

section Fields

variable (ws : WsServer) (call : SendCall)

@[simp] theorem logCall_calls : (ws.logCall call).calls = ws.calls ++ [call] := rfl

@[simp] theorem logCall_sessions : (ws.logCall call).sessions = ws.sessions := rfl

@[simp] theorem logCall_queue : (ws.logCall call).queue = ws.queue := rfl

@[simp] theorem logCall_written : (ws.logCall call).written = ws.written := rfl

@[simp] theorem enqueue_calls : (ws.enqueue call).calls = ws.calls := rfl

@[simp] theorem enqueue_sessions : (ws.enqueue call).sessions = ws.sessions := rfl

@[simp] theorem enqueue_queue : (ws.enqueue call).queue = ws.queue ++ [call] := rfl

@[simp] theorem enqueue_written : (ws.enqueue call).written = ws.written := rfl

@[simp] theorem writeFrame_calls : (ws.writeFrame call).calls = ws.calls := by
  unfold writeFrame
  split <;> rfl

@[simp] theorem writeFrame_sessions : (ws.writeFrame call).sessions = ws.sessions := by
  unfold writeFrame
  split <;> rfl

@[simp] theorem writeFrame_queue : (ws.writeFrame call).queue = ws.queue := by
  unfold writeFrame
  split <;> rfl

theorem writeFrame_written :
    (ws.writeFrame call).written =
      ws.written ++ ((ws.sessions call.connFd).map (fun session =>
        { session := session.number, call := call })).toList := by
  unfold writeFrame
  split <;> rename_i h <;> simp [h]

end Fields

end WsServer

/--
`ws_server_send`: a message to the connection whose request is being handled is written at
once, any other one is queued.
-/
def wsServerSend
    (env : SendEnv)
    (ws : WsServer)
    (fd : Int32)
    (message : NostrRelayMsg)
    (text : CString) : EspErr × WsServer :=
  let call := ws.nextCall fd message text
  let ws := ws.logCall call
  if ws.currentReq = some fd then
    if env.httpdOk then (.espOk, ws.writeFrame call) else (.espFail, ws)
  else if !env.argOk || !env.dataOk then (.espErrNoMem, ws)
  else if env.httpdOk then (.espOk, ws.enqueue call)
  else (.espFail, ws)

/-- The server task runs the first queued item, `ws_async_send`. -/
def runQueued
    (sendOk : Bool)
    (ws : WsServer) : WsServer :=
  match ws.queue with
  | [] => ws
  | call :: rest =>
      let ws := { ws with queue := rest }
      if sendOk then ws.writeFrame call else ws

/-! ## What each step leaves alone -/

section Frame

variable (ws : WsServer) (fd : Int32)

theorem onOpen_frame :
    (onOpen ws fd).2.calls = ws.calls ∧ (onOpen ws fd).2.queue = ws.queue ∧
      (onOpen ws fd).2.written = ws.written ∧ (onOpen ws fd).2.sessions = ws.sessions ∧
      (onOpen ws fd).2.nextSession = ws.nextSession := by
  unfold onOpen
  split
  · exact ⟨rfl, rfl, rfl, rfl, rfl⟩
  · split <;> exact ⟨rfl, rfl, rfl, rfl, rfl⟩

theorem onClose_frame :
    (onClose ws fd).calls = ws.calls ∧ (onClose ws fd).queue = ws.queue ∧
      (onClose ws fd).written = ws.written ∧ (onClose ws fd).sessions = ws.sessions ∧
      (onClose ws fd).nextSession = ws.nextSession := by
  unfold onClose
  split <;> exact ⟨rfl, rfl, rfl, rfl, rfl⟩

theorem openSession_calls : (openSession ws fd).calls = ws.calls :=
  (onOpen_frame ws fd).1

theorem endSession_onClose_calls : (endSession (onClose ws fd) fd).calls = ws.calls :=
  (onClose_frame ws fd).1

theorem runQueued_calls (sendOk : Bool) : (runQueued sendOk ws).calls = ws.calls := by
  unfold runQueued
  split
  · rfl
  · split <;> simp

end Frame

end Relay
end WispRelay
