import WispRelay.Library.BlockHeap
import WispRelay.Relay.Server

/-!
# The memory of the web socket server

A frame is received into a block of its own, and a message to another connection than the one that
is served is copied into two blocks, which the server task frees when it has sent the message.
`Server` has the queue as a list of messages; here it is a list of pointers.

* `wsServerSend`, `wsAsyncSend`, `wsHandler`: the functions of `ws_server.c`, on a heap where it
  is an error to use a block that is not allocated, to read or write behind its end, and to read
  what is not written.
* `Represents`: the relay of `Server` that a state stands for.
* `memory_run`: no run makes such an error, every run is one of the relay of `Server`, and in each
  state only the queued messages take memory.
-/

namespace WispRelay
namespace Relay
namespace SocketMemory

open BlockHeap Interference Runs
open SlotTable (findSlot?)

/-! ## The heap -/

/-- `async_send_arg_t`, for the one server there is. -/
structure AsyncSendArg where
  fd : Int32
  data : Block
  len : Nat
deriving DecidableEq

/-- What is in a block; a byte, or the structure, may not be written yet. -/
inductive Object where
  | bytes (cells : List (Option UInt8))
  | sendArg (arg : Option AsyncSendArg)
deriving DecidableEq

/-- `malloc(len)`, for bytes. -/
def mallocBytes
    (heap : Heap Object)
    (len : Nat) : Block × Heap Object :=
  heap.alloc (.bytes (List.replicate len none))

/-- `malloc(sizeof(async_send_arg_t))`. -/
def mallocArg
    (heap : Heap Object) : Block × Heap Object :=
  heap.alloc (.sendArg none)

/-- Write bytes from an index on. -/
def writeBytes
    (heap : Heap Object)
    (b : Block)
    (index : Nat)
    (text : CString) : Option (Heap Object) :=
  match heap.load b with
  | some (.bytes cells) =>
      if index + text.length ≤ cells.length then
        heap.store b (.bytes
          (cells.take index ++ text.map some ++ cells.drop (index + text.length)))
      else none
  | _ => none

/-- Read the first bytes. -/
def readBytes
    (heap : Heap Object)
    (b : Block)
    (len : Nat) : Option CString :=
  match heap.load b with
  | some (.bytes cells) => if len ≤ cells.length then (cells.take len).mapM id else none
  | _ => none

/-- Read the structure. -/
def readArg
    (heap : Heap Object)
    (b : Block) : Option AsyncSendArg :=
  match heap.load b with
  | some (.sendArg arg) => arg
  | _ => none

section Heap

variable
  {heap : Heap Object}
  {owned : Multiset (Block × Object)}
  {b : Block}

theorem writeBytes_yields
    {cells : List (Option UInt8)}
    (h : Holds heap ((b, .bytes cells) ::ₘ owned))
    {index : Nat}
    {text : CString}
    (hroom : index + text.length ≤ cells.length) :
    Yields (writeBytes heap b index text) fun heap' =>
      Holds heap' ((b, .bytes
        (cells.take index ++ text.map some ++ cells.drop (index + text.length))) ::ₘ owned) := by
  unfold writeBytes
  rw [h.load (Multiset.mem_cons_self _ _)]
  simp only [hroom, if_true]
  exact h.store _

theorem mapM_written
    (text : CString) :
    (text.map some).mapM (id : Option UInt8 → Option UInt8) = some text := by
  induction text with
  | nil => rfl
  | cons c text ih =>
      rw [List.map_cons, List.mapM_cons, ih]
      rfl

/-- What was written is read. -/
theorem readBytes_written
    (h : Holds heap owned)
    {text : CString}
    {rest : List (Option UInt8)}
    (hb : (b, .bytes (text.map some ++ rest)) ∈ owned) :
    readBytes heap b text.length = some text := by
  have htake : (text.map some ++ rest).take text.length = text.map some := by
    rw [List.take_append_of_le_length (by simp), List.take_of_length_le (by simp)]
  unfold readBytes
  rw [h.load hb]
  simp only [List.length_append, List.length_map, Nat.le_add_right, if_true, htake]
  exact mapM_written text

theorem readBytes_all
    (h : Holds heap owned)
    {text : CString}
    (hb : (b, .bytes (text.map some)) ∈ owned) :
    readBytes heap b text.length = some text := by
  refine readBytes_written h (show (b, Object.bytes (text.map some ++ [])) ∈ owned from ?_)
  rwa [List.append_nil]

theorem readArg_written
    (h : Holds heap owned)
    {arg : AsyncSendArg}
    (hb : (b, .sendArg (some arg)) ∈ owned) :
    readArg heap b = some arg := by
  unfold readArg
  rw [h.load hb]

end Heap

/-! ## The server -/

/-- `httpd_ws_type_t`. -/
inductive WsType where
  | continuation
  | text
  | binary
  | close
  | ping
  | pong
deriving DecidableEq

/-- A frame that was written to a session. -/
structure SentFrame where
  session : Nat
  type : WsType
  payload : CString
deriving DecidableEq

/-- The relay, with the queue of the server library as pointers. -/
structure SocketState where
  /-- All the rest; its queue and its logs stay empty. -/
  relay : RelayState
  heap : Heap Object
  queue : List Block
  sent : List SentFrame

namespace SocketState

/-- Write a frame to the session that has the descriptor, if there is one. -/
def writeFrame
    (m : SocketState)
    (fd : Int32)
    (type : WsType)
    (payload : CString) : SocketState :=
  match m.relay.ws.sessions fd with
  | none => m
  | some session =>
      { m with sent := m.sent ++ [{ session := session.number, type := type, payload := payload }] }

/-- Set `g_current_req`. -/
def setCurrentReq
    (m : SocketState)
    (req : Option Int32) : SocketState :=
  { m with relay := { m.relay with ws := { m.relay.ws with currentReq := req } } }

end SocketState

/-- `ws_server_send`. -/
def wsServerSend
    (env : SendEnv)
    (m : SocketState)
    (fd : Int32)
    (data : CString) : Option (EspErr × SocketState) :=
  if m.relay.ws.currentReq = some fd then
    some (if env.httpdOk then (.espOk, m.writeFrame fd .text data) else (.espFail, m))
  else if !env.argOk then some (.espErrNoMem, m)
  else do
    let (arg, heap) := mallocArg m.heap
    if !env.dataOk then do
      let heap ← heap.free arg
      some (.espErrNoMem, { m with heap := heap })
    else do
      let (copy, heap) := mallocBytes heap data.length
      let heap ← writeBytes heap copy 0 data
      let heap ← heap.store arg (.sendArg (some { fd := fd, data := copy, len := data.length }))
      -- `httpd_queue_work`
      if env.httpdOk then some (.espOk, { m with heap := heap, queue := m.queue ++ [arg] })
      else do
        let a ← readArg heap arg
        let heap ← heap.free a.data
        let heap ← heap.free arg
        some (.espFail, { m with heap := heap })

/-- `ws_async_send`. -/
def wsAsyncSend
    (sendOk : Bool)
    (arg : Block)
    (m : SocketState) : Option SocketState := do
  let a ← readArg m.heap arg
  let payload ← readBytes m.heap a.data a.len
  let m := if sendOk then m.writeFrame a.fd .text payload else m
  let heap ← m.heap.free a.data
  let heap ← heap.free arg
  some { m with heap := heap }

/-- The server task runs the first queued item. -/
def runQueue
    (sendOk : Bool)
    (m : SocketState) : Option SocketState :=
  match m.queue with
  | [] => some m
  | arg :: rest => wsAsyncSend sendOk arg { m with queue := rest }

/-! ## The handlers -/

/-- The relay while a frame is handled, with the turns still to come. -/
structure MemoryHandling where
  state : SocketState
  turns : Nat → CallTurn

/-- One call of a handler. -/
def memoryCall
    (lib : Libnostr)
    (env : DispatchEnv)
    (c : RelayCall)
    (h : MemoryHandling) : Option (c.Ret × MemoryHandling) :=
  match c with
  | .wsSend connFd _ text => do
      let r ← wsServerSend (h.turns 0).send h.state connFd text
      some (r.1, { state := r.2, turns := fun n => h.turns (n + 1) })
  | c =>
      let r := relayEffect lib env (h.turns 0) h.state.relay c
      some (r.1, { state := { h.state with relay := r.2 }, turns := fun n => h.turns (n + 1) })

/-- The library's parser, of the bytes of a message. -/
abbrev Parser := CString → Option NostrClientMsg

/-- `on_ws_message`. -/
def onWsMessage
    (lib : Libnostr)
    (ctx : RelayCtx)
    (parse : Parser)
    (env : DispatchEnv)
    (m : SocketState)
    (fd : Int32)
    (data : Block)
    (len : Nat) : Option SocketState :=
  if len = 0 || wsMaxFrameSize < len then some m
  else do
    let text ← readBytes m.heap data len
    let r ← runOrFail (memoryCall lib env) (Relay.onWsMessage lib ctx fd len (parse text))
      { state := m, turns := env.turns }
    some r.2.state

/-- What reaches `ws_handler`, with what the server library and `malloc` answer. -/
inductive WsRequest where
  /-- A `GET` request: its header `Upgrade`, and what `nip11_handler` would return. -/
  | get (upgrade : Option CString) (nip11 : EspErr)
  /-- A frame: its type and length, its bytes, and whether a frame can be sent back. -/
  | frame (header : Except EspErr (WsType × Nat)) (mallocOk : Bool)
      (received : Except EspErr (Nat → UInt8)) (env : DispatchEnv) (sendOk : Bool)

/-- The bytes of a frame. -/
def payloadOf
    (bytes : Nat → UInt8)
    (len : Nat) : CString :=
  (List.range len).map bytes

/-- Lower case, for `strcasecmp`. -/
def asciiLower
    (c : UInt8) : UInt8 :=
  if 65 ≤ c && c ≤ 90 then c + 32 else c

/-- The part of `ws_handler` after the frame is received. -/
def wsFrame
    (lib : Libnostr)
    (ctx : RelayCtx)
    (parse : Parser)
    (m : SocketState)
    (fd : Int32)
    (type : WsType)
    (payload : Block)
    (len : Nat)
    (env : DispatchEnv)
    (sendOk : Bool) : Option (EspErr × SocketState) :=
  match type with
  | .text => do
      let m ← onWsMessage lib ctx parse env (m.setCurrentReq (some fd)) fd payload len
      let m := m.setCurrentReq none
      let heap ← m.heap.free payload
      some (.espOk, { m with heap := heap })
  | .ping => do
      let echo ← readBytes m.heap payload len
      let m := if sendOk then m.writeFrame fd .pong echo else m
      let heap ← m.heap.free payload
      some (if sendOk then .espOk else .espFail, { m with heap := heap })
  | .close => do
      let heap ← m.heap.free payload
      let m := { m with heap := heap }
      some (.espFail, if sendOk then m.writeFrame fd .close [] else m)
  | _ => do
      let heap ← m.heap.free payload
      some (.espOk, { m with heap := heap })

/-- `ws_handler`. -/
def wsHandler
    (lib : Libnostr)
    (ctx : RelayCtx)
    (parse : Parser)
    (m : SocketState)
    (fd : Int32) : WsRequest → Option (EspErr × SocketState)
  | .get upgrade nip11 =>
      some (if upgrade.map (List.map asciiLower) = some (ascii "websocket") then .espOk else nip11,
        m)
  | .frame (.error err) _ _ _ _ => some (err, m)
  | .frame (.ok (type, len)) mallocOk received env sendOk =>
      if len = 0 then some (.espOk, m)
      else if wsMaxFrameSize < len then some (.espFail, m)
      else if !mallocOk then some (.espErrNoMem, m)
      else do
        let (payload, heap) := mallocBytes m.heap (len + 1)
        match received with
        | .error err => do
            let heap ← heap.free payload
            some (err, { m with heap := heap })
        | .ok bytes => do
            let heap ← writeBytes heap payload 0 (payloadOf bytes len)
            let heap ← writeBytes heap payload len [0]
            wsFrame lib ctx parse { m with heap := heap } fd type payload len env sendOk

/-! ## Events -/

/-- What reaches the relay. -/
inductive MemoryEvent where
  | opened (connFd : Int32)
  | closed (connFd : Int32)
  | request (connFd : Int32) (r : WsRequest)
  | work (sendOk : Bool)
  | cleanup (work : CleanupOp)

/-- The relay after an event. -/
def memoryStep
    (lib : Libnostr)
    (ctx : RelayCtx)
    (parse : Parser)
    (m : SocketState) : MemoryEvent → Option SocketState
  | .opened connFd => some { m with relay := relayStep lib ctx m.relay (.opened connFd) }
  | .closed connFd => some { m with relay := relayStep lib ctx m.relay (.closed connFd) }
  | .request connFd r => (wsHandler lib ctx parse m connFd r).map Prod.snd
  | .work sendOk => runQueue sendOk m
  | .cleanup work => some { m with relay := relayStep lib ctx m.relay (.cleanup work) }

/-- The relay when `start_relay_server` is done. -/
def startMemory
    (storage : Storage.LoggedWorld) : SocketState where
  relay := startRelay storage
  heap := Heap.empty
  queue := []
  sent := []

/-- The event of `Server`, if there is one: only a text frame that is received reaches the relay. -/
def MemoryEvent.relayEvent
    (parse : Parser) : MemoryEvent → Option RelayEvent
  | .opened connFd => some (.opened connFd)
  | .closed connFd => some (.closed connFd)
  | .request connFd (.frame (.ok (.text, len)) true (.ok bytes) env _) =>
      if len = 0 || wsMaxFrameSize < len then none
      else some (.frame connFd len (parse (payloadOf bytes len)) env)
  | .request _ _ => none
  | .work sendOk => some (.work sendOk)
  | .cleanup op => some (.cleanup op)

/-! ## What a state stands for -/

/-- A queued message, and the two blocks it takes. -/
structure QueuedWork where
  arg : Block
  data : Block
  call : SendCall

/-- The blocks with their contents. -/
def QueuedWork.blocks
    (w : QueuedWork) : Multiset (Block × Object) :=
  (w.arg, .sendArg (some { fd := w.call.connFd, data := w.data, len := w.call.text.length })) ::ₘ
    (w.data, .bytes (w.call.text.map some)) ::ₘ 0

/-- The blocks of the queue. -/
def queuedBlocks
    (works : List QueuedWork) : Multiset (Block × Object) :=
  (works.map QueuedWork.blocks).sum

/-- The server without its queue and its logs. -/
def quietWs
    (ws : WsServer) : WsServer :=
  { ws with queue := [], calls := [], written := [] }

/-- The relay without them. -/
def quiet
    (s : RelayState) : RelayState :=
  { s with ws := quietWs s.ws }

/-- A text frame, as `Server` has it. -/
def SentFrame.text?
    (f : SentFrame) : Option (Nat × CString) :=
  if f.type = .text then some (f.session, f.payload) else none

/-- The state stands for this relay, and besides the queue only `extra` takes memory. -/
structure Represents
    (extra : Multiset (Block × Object))
    (m : SocketState)
    (s : RelayState) : Prop where
  relay : m.relay = quiet s
  held : ∃ works : List QueuedWork,
    m.queue = works.map QueuedWork.arg ∧ s.ws.queue = works.map QueuedWork.call ∧
      Holds m.heap (queuedBlocks works + extra)
  sent : m.sent.filterMap SentFrame.text? = s.ws.written.map fun f => (f.session, f.call.text)

section Sending

variable
  {extra : Multiset (Block × Object)}
  {m : SocketState}
  {s : RelayState}

theorem Represents.sessions
    (h : Represents extra m s) :
    m.relay.ws.sessions = s.ws.sessions := by
  rw [h.relay]
  rfl

theorem Represents.currentReq
    (h : Represents extra m s) :
    m.relay.ws.currentReq = s.ws.currentReq := by
  rw [h.relay]
  rfl

theorem Represents.logCall
    (h : Represents extra m s)
    (call : SendCall) :
    Represents extra m { s with ws := s.ws.logCall call } :=
  ⟨h.relay, h.held, h.sent⟩

theorem Represents.writeFrame
    (h : Represents extra m s)
    (call : SendCall) :
    Represents extra (m.writeFrame call.connFd .text call.text)
      { s with ws := s.ws.writeFrame call } := by
  unfold SocketState.writeFrame WsServer.writeFrame
  rw [h.sessions]
  cases s.ws.sessions call.connFd with
  | none => exact h
  | some session =>
      refine ⟨h.relay, h.held, ?_⟩
      simp [h.sent, SentFrame.text?]

theorem Represents.writeIf
    (h : Represents extra m s)
    (sendOk : Bool)
    (call : SendCall) :
    Represents extra (if sendOk then m.writeFrame call.connFd .text call.text else m)
      { s with ws := if sendOk then s.ws.writeFrame call else s.ws } := by
  cases sendOk with
  | false => exact h
  | true => exact h.writeFrame call

/-- A frame that is no text is not in the log. -/
theorem Represents.writeOther
    (h : Represents extra m s)
    (fd : Int32)
    {type : WsType}
    (htype : type ≠ .text)
    (payload : CString) :
    Represents extra (m.writeFrame fd type payload) s := by
  unfold SocketState.writeFrame
  split
  next => exact h
  next =>
    refine ⟨h.relay, h.held, ?_⟩
    simp [h.sent, SentFrame.text?, htype]

theorem mem_queuedBlocks
    {works : List QueuedWork}
    {x : Block × Object} :
    x ∈ queuedBlocks works ↔ ∃ w ∈ works, x ∈ w.blocks := by
  induction works with
  | nil => simp [queuedBlocks]
  | cons w works ih =>
      have hcons : queuedBlocks (w :: works) = w.blocks + queuedBlocks works := by
        simp [queuedBlocks]
      simp [hcons, ih]

theorem QueuedWork.blocks_add
    (w : QueuedWork)
    (owned : Multiset (Block × Object)) :
    w.blocks + owned =
      (w.arg,
        .sendArg (some { fd := w.call.connFd, data := w.data, len := w.call.text.length })) ::ₘ
        (w.data, .bytes (w.call.text.map some)) ::ₘ owned := by
  simp only [blocks, Multiset.cons_add, zero_add]

theorem queuedBlocks_snoc
    (works : List QueuedWork)
    (w : QueuedWork) :
    queuedBlocks (works ++ [w]) = w.blocks + queuedBlocks works := by
  simp [queuedBlocks, add_comm]

/-- A message is queued with its two blocks. -/
theorem Represents.enqueue
    (h : Represents extra m s)
    (w : QueuedWork)
    {works : List QueuedWork}
    (hqueue : m.queue = works.map QueuedWork.arg)
    (hcalls : s.ws.queue = works.map QueuedWork.call)
    {heap : Heap Object}
    (hheap : Holds heap (w.blocks + (queuedBlocks works + extra))) :
    Represents extra { m with heap := heap, queue := m.queue ++ [w.arg] }
      { s with ws := s.ws.enqueue w.call } := by
  refine ⟨h.relay, ⟨works ++ [w], ?_, ?_, ?_⟩, h.sent⟩
  · simp [hqueue]
  · simp [hcalls]
  · rw [queuedBlocks_snoc, add_assoc]
    exact hheap

/-- Sending a message does what it does in `Server`, whichever step fails. -/
theorem wsServerSend_yields
    (h : Represents extra m s)
    (env : SendEnv)
    (fd : Int32)
    (message : NostrRelayMsg)
    (data : CString) :
    Yields (wsServerSend env m fd data) fun r =>
      r.1 = (Relay.wsServerSend env s.ws fd message data).1 ∧
        Represents extra r.2 { s with ws := (Relay.wsServerSend env s.ws fd message data).2 } := by
  have hlogged := h.logCall (s.ws.nextCall fd message data)
  have hsame : (s.ws.logCall (s.ws.nextCall fd message data)).currentReq = s.ws.currentReq := rfl
  obtain ⟨argOk, dataOk, httpdOk⟩ := env
  unfold wsServerSend Relay.wsServerSend
  rw [h.currentReq]
  dsimp only
  rw [hsame]
  by_cases hreq : s.ws.currentReq = some fd
  · rw [if_pos hreq, if_pos hreq]
    cases httpdOk with
    | false => exact Yields.intro ⟨rfl, hlogged⟩
    | true => exact Yields.intro ⟨rfl, hlogged.writeFrame (s.ws.nextCall fd message data)⟩
  · rw [if_neg hreq, if_neg hreq]
    obtain ⟨hrelay, ⟨works, hqueue, hcalls, hheld⟩, hsent⟩ := id hlogged
    cases argOk with
    | false => exact Yields.intro ⟨rfl, hlogged⟩
    | true =>
      have harg := hheld.alloc (.sendArg none)
      cases dataOk with
      | false =>
          refine Yields.bind harg.free fun heap hheap => ?_
          exact Yields.intro ⟨rfl, hrelay, ⟨works, hqueue, hcalls, hheap⟩, hsent⟩
      | true =>
          have hcopy := harg.alloc (.bytes (List.replicate data.length none))
          refine Yields.bind (writeBytes_yields hcopy (by simp)) fun heap hwritten => ?_
          rw [Multiset.cons_swap] at hwritten
          refine Yields.bind (hwritten.store _) fun heap hstored => ?_
          simp only [zero_add, List.take_zero, List.nil_append,
            List.drop_replicate, Nat.sub_self, List.replicate_zero, List.append_nil] at hstored
          cases httpdOk with
          | true =>
              refine Yields.intro ⟨rfl, ?_⟩
              let w : QueuedWork :=
                { arg := (mallocArg m.heap).1
                  data := (mallocBytes (mallocArg m.heap).2 data.length).1
                  call := s.ws.nextCall fd message data }
              refine hlogged.enqueue w hqueue hcalls ?_
              rw [QueuedWork.blocks_add]
              exact hstored
          | false =>
              refine Yields.bind ⟨_, readArg_written hstored (Multiset.mem_cons_self _ _), rfl⟩ ?_
              rintro _ rfl
              rw [Multiset.cons_swap] at hstored
              refine Yields.bind hstored.free fun heap hfreed => ?_
              refine Yields.bind hfreed.free fun heap hheap => ?_
              exact Yields.intro ⟨rfl, hrelay, ⟨works, hqueue, hcalls, hheap⟩, hsent⟩

/-- A block that is not the queue's is released. -/
theorem Represents.free
    {b : Block}
    {v : Object}
    (h : Represents ((b, v) ::ₘ extra) m s) :
    Yields (m.heap.free b) fun heap => Represents extra { m with heap := heap } s := by
  obtain ⟨hrelay, ⟨works, hqueue, hcalls, hheld⟩, hsent⟩ := h
  rw [Multiset.add_cons] at hheld
  exact hheld.free.mono fun heap hheap => ⟨hrelay, ⟨works, hqueue, hcalls, hheap⟩, hsent⟩

theorem Represents.load
    (h : Represents extra m s)
    {text : CString}
    {rest : List (Option UInt8)}
    {b : Block}
    (hb : (b, .bytes (text.map some ++ rest)) ∈ extra) :
    readBytes m.heap b text.length = some text := by
  obtain ⟨works, -, -, hheld⟩ := h.held
  exact readBytes_written hheld (Multiset.mem_add.mpr (Or.inr hb))

/-- The server task sends the first message and frees its blocks. -/
theorem runQueue_yields
    (h : Represents extra m s)
    (sendOk : Bool) :
    Yields (runQueue sendOk m) fun m' =>
      Represents extra m' { s with ws := runQueued sendOk s.ws } := by
  obtain ⟨hrelay, ⟨works, hqueue, hcalls, hheld⟩, hsent⟩ := id h
  unfold runQueue runQueued
  cases works with
  | nil =>
      rw [hqueue, hcalls]
      exact Yields.intro h
  | cons w works =>
      rw [hqueue, hcalls]
      have hblocks :
          queuedBlocks (w :: works) + extra = queuedBlocks works + (w.blocks + extra) := by
        simp only [queuedBlocks, List.map_cons, List.sum_cons]
        abel
      rw [hblocks] at hheld
      have htaken : Represents (w.blocks + extra) { m with queue := works.map QueuedWork.arg }
          { s with ws := { s.ws with queue := works.map QueuedWork.call } } :=
        ⟨hrelay, ⟨works, rfl, rfl, hheld⟩, hsent⟩
      rw [QueuedWork.blocks_add] at htaken hheld
      have harg := readArg_written hheld
        (Multiset.mem_add.mpr (Or.inr (Multiset.mem_cons_self _ _)))
      refine Yields.bind ⟨_, harg, rfl⟩ ?_
      rintro _ rfl
      have hread := readBytes_all hheld
        (Multiset.mem_add.mpr (Or.inr (Multiset.mem_cons_of_mem (Multiset.mem_cons_self _ _))))
      refine Yields.bind ⟨_, hread, rfl⟩ ?_
      rintro _ rfl
      have hsent := htaken.writeIf sendOk w.call
      rw [Multiset.cons_swap] at hsent
      refine Yields.bind hsent.free fun heap hfreed => ?_
      refine Yields.bind hfreed.free fun heap hheap => ?_
      exact Yields.intro hheap

end Sending

/-! ## Handling a frame -/

section Handling

variable
  {extra : Multiset (Block × Object)}
  {m : SocketState}
  {s : RelayState}
  (lib : Libnostr)
  (ctx : RelayCtx)
  (parse : Parser)
  (env : DispatchEnv)

/-- A call that does not send leaves the queue and the logs alone and does not depend on them. -/
theorem Represents.otherCall
    (h : Represents extra m s)
    (turn : CallTurn)
    (c : RelayCall)
    (hc : ∀ fd message text, c ≠ .wsSend fd message text) :
    (relayEffect lib env turn m.relay c).1 = (relayEffect lib env turn s c).1 ∧
      Represents extra { m with relay := (relayEffect lib env turn m.relay c).2 }
        (relayEffect lib env turn s c).2 := by
  obtain ⟨hrelay, hheld, hsent⟩ := h
  rw [hrelay]
  cases c with
  | timestampNow => exact ⟨rfl, rfl, hheld, hsent⟩
  | malloc => exact ⟨rfl, rfl, hheld, hsent⟩
  | rateCheck connFd type => exact ⟨rfl, rfl, hheld, hsent⟩
  | subAdd connFd subId filters => exact ⟨rfl, rfl, hheld, hsent⟩
  | subRemove connFd subId => exact ⟨rfl, rfl, hheld, hsent⟩
  | subMatch event => exact ⟨rfl, rfl, hheld, hsent⟩
  | storage call => exact ⟨rfl, rfl, hheld, hsent⟩
  | wsSend fd message text => exact absurd rfl (hc fd message text)

/-- The relay is in a state that stands for the one of `Server`, at the same turn. -/
def AtSameTurn
    (extra : Multiset (Block × Object))
    (h : MemoryHandling)
    (k : Handling) : Prop :=
  Represents extra h.state k.state ∧ h.turns = k.turns

theorem memoryCall_yields
    (c : RelayCall)
    (h : MemoryHandling)
    (k : Handling)
    (hk : AtSameTurn extra h k) :
    Yields (memoryCall lib env c h) fun r =>
      r.1 = (relayCall lib env c k).1 ∧ AtSameTurn extra r.2 (relayCall lib env c k).2 := by
  obtain ⟨m, turns⟩ := h
  obtain ⟨s, turns'⟩ := k
  obtain ⟨hrep, heq⟩ := hk
  change turns = turns' at heq
  subst heq
  by_cases hsend : ∃ fd message text, c = .wsSend fd message text
  · obtain ⟨fd, message, text, rfl⟩ := hsend
    refine Yields.bind (wsServerSend_yields hrep (turns 0).send fd message text) ?_
    rintro ⟨err, m'⟩ ⟨rfl, hrep'⟩
    exact Yields.intro ⟨rfl, hrep', rfl⟩
  · have hother := hrep.otherCall lib env (turns 0) c fun fd message text heq =>
      hsend ⟨fd, message, text, heq⟩
    cases c with
    | wsSend fd message text => exact absurd ⟨fd, message, text, rfl⟩ hsend
    | _ => exact Yields.intro ⟨hother.1, hother.2, rfl⟩

theorem Represents.setCurrentReq
    (h : Represents extra m s)
    (req : Option Int32) :
    Represents extra (m.setCurrentReq req) { s with ws := { s.ws with currentReq := req } } := by
  obtain ⟨hrelay, hheld, hsent⟩ := h
  refine ⟨?_, hheld, hsent⟩
  unfold SocketState.setCurrentReq
  rw [hrelay]
  rfl

/-- The callback works on the bytes of the block, and leaves the block alone. -/
theorem onWsMessage_yields
    {payload : Block}
    {text : CString}
    {rest : List (Option UInt8)}
    (h : Represents ((payload, .bytes (text.map some ++ rest)) ::ₘ extra) m s)
    (fd : Int32) :
    Yields (onWsMessage lib ctx parse env m fd payload text.length) fun m' =>
      Represents ((payload, .bytes (text.map some ++ rest)) ::ₘ extra) m'
        (handle lib env (Relay.onWsMessage lib ctx fd text.length (parse text)) s).2 := by
  unfold onWsMessage
  split
  next hlen =>
    unfold Relay.onWsMessage
    rw [if_pos hlen]
    exact Yields.intro h
  next =>
    refine Yields.bind ⟨_, h.load (Multiset.mem_cons_self _ _), rfl⟩ ?_
    rintro _ rfl
    have hrun := Yields.runOrFail (memoryCall_yields lib env)
      (Relay.onWsMessage lib ctx fd text.length (parse text))
      (show AtSameTurn _ { state := m, turns := env.turns } { state := s, turns := env.turns } from
        ⟨h, rfl⟩)
    exact hrun.bind fun r hr => Yields.intro hr.2.1

/-- A frame is handled and its block freed, whatever its type. -/
theorem wsFrame_yields
    {payload : Block}
    {text : CString}
    {rest : List (Option UInt8)}
    (h : Represents ((payload, .bytes (text.map some ++ rest)) ::ₘ extra) m s)
    (fd : Int32)
    (type : WsType)
    (sendOk : Bool) :
    Yields (wsFrame lib ctx parse m fd type payload text.length env sendOk) fun r =>
      Represents extra r.2
        (if type = .text then relayStep lib ctx s (.frame fd text.length (parse text) env)
          else s) := by
  have hread := h.load (Multiset.mem_cons_self _ _)
  cases type with
  | text =>
      refine Yields.bind
        (onWsMessage_yields lib ctx parse env (h.setCurrentReq (some fd)) fd) fun m' hm' => ?_
      exact Yields.bind (hm'.setCurrentReq none).free fun heap hfreed => Yields.intro hfreed
  | ping =>
      refine Yields.bind ⟨_, hread, rfl⟩ ?_
      rintro _ rfl
      cases sendOk with
      | false => exact Yields.bind h.free fun heap hfreed => Yields.intro hfreed
      | true =>
          have hsent := h.writeOther fd (show WsType.pong ≠ .text by decide) text
          exact Yields.bind hsent.free fun heap hfreed => Yields.intro hfreed
  | close =>
      refine Yields.bind h.free fun heap hfreed => ?_
      cases sendOk with
      | false => exact Yields.intro hfreed
      | true => exact Yields.intro (hfreed.writeOther fd (by decide) [])
  | continuation => exact Yields.bind h.free fun heap hfreed => Yields.intro hfreed
  | binary => exact Yields.bind h.free fun heap hfreed => Yields.intro hfreed
  | pong => exact Yields.bind h.free fun heap hfreed => Yields.intro hfreed

theorem Represents.writeBytes
    {b : Block}
    {cells : List (Option UInt8)}
    (h : Represents ((b, .bytes cells) ::ₘ extra) m s)
    {index : Nat}
    {text : CString}
    (hroom : index + text.length ≤ cells.length) :
    Yields (writeBytes m.heap b index text) fun heap =>
      Represents ((b, .bytes
        (cells.take index ++ text.map some ++ cells.drop (index + text.length))) ::ₘ extra)
        { m with heap := heap } s := by
  obtain ⟨hrelay, ⟨works, hqueue, hcalls, hheld⟩, hsent⟩ := h
  rw [Multiset.add_cons] at hheld
  refine (writeBytes_yields hheld hroom).mono fun heap hheap => ?_
  refine ⟨hrelay, ⟨works, hqueue, hcalls, ?_⟩, hsent⟩
  rw [Multiset.add_cons]
  exact hheap

theorem Represents.alloc
    (h : Represents extra m s)
    (v : Object) :
    Represents (((m.heap.alloc v).1, v) ::ₘ extra) { m with heap := (m.heap.alloc v).2 } s := by
  obtain ⟨hrelay, ⟨works, hqueue, hcalls, hheld⟩, hsent⟩ := h
  refine ⟨hrelay, ⟨works, hqueue, hcalls, ?_⟩, hsent⟩
  rw [Multiset.add_cons]
  exact hheld.alloc v

/-- A frame that is received reaches the relay if it is a text. -/
theorem relayEvent_received
    (fd : Int32)
    (type : WsType)
    {len : Nat}
    (hlen : ¬ (len = 0 ∨ wsMaxFrameSize < len))
    (bytes : Nat → UInt8)
    (sendOk : Bool) :
    (MemoryEvent.request fd (.frame (.ok (type, len)) true (.ok bytes) env sendOk)).relayEvent
        parse =
      if type = .text then some (.frame fd len (parse (payloadOf bytes len)) env) else none := by
  cases type <;> simp [MemoryEvent.relayEvent, hlen]

/-- A frame that is empty, too long or not received does not. -/
theorem relayEvent_dropped
    (fd : Int32)
    (type : WsType)
    {len : Nat}
    {mallocOk : Bool}
    {received : Except EspErr (Nat → UInt8)}
    (hdropped : len = 0 ∨ wsMaxFrameSize < len ∨ mallocOk = false ∨ ∃ err, received = .error err)
    (sendOk : Bool) :
    (MemoryEvent.request fd (.frame (.ok (type, len)) mallocOk received env sendOk)).relayEvent
      parse = none := by
  unfold MemoryEvent.relayEvent
  split
  all_goals grind

/-- What is in the block of a frame: its bytes and a NUL. -/
theorem received_cells
    (text : CString) :
    let cells := List.take 0 (List.replicate (text.length + 1) (none : Option UInt8)) ++
      text.map some ++ List.drop text.length (List.replicate (text.length + 1) none)
    cells.take text.length ++ [(0 : UInt8)].map some ++
        cells.drop (text.length + [(0 : UInt8)].length) =
      text.map some ++ [some 0] := by
  have hdrop : List.drop text.length (List.replicate (text.length + 1) (none : Option UInt8)) =
      [none] := by
    simp
  simp [hdrop]

/-- Every path through the handler frees what it allocated. -/
theorem wsHandler_yields
    (h : Represents extra m s)
    (fd : Int32)
    (r : WsRequest) :
    Yields (wsHandler lib ctx parse m fd r) fun out =>
      Represents extra out.2 (finalState (relayMachine lib ctx) s
        ((MemoryEvent.request fd r).relayEvent parse).toList) := by
  cases r with
  | get upgrade nip11 => exact Yields.intro h
  | frame header mallocOk received env sendOk =>
    cases header with
    | error err => exact Yields.intro h
    | ok header =>
      obtain ⟨type, len⟩ := header
      unfold wsHandler
      dsimp only
      by_cases hzero : len = 0
      · rw [relayEvent_dropped parse env fd type (.inl hzero), if_pos hzero]
        exact Yields.intro h
      rw [if_neg hzero]
      by_cases hmax : wsMaxFrameSize < len
      · rw [relayEvent_dropped parse env fd type (.inr (.inl hmax)), if_pos hmax]
        exact Yields.intro h
      rw [if_neg hmax]
      cases mallocOk with
      | false =>
          rw [relayEvent_dropped parse env fd type (.inr (.inr (.inl rfl)))]
          exact Yields.intro h
      | true =>
        have hpayload := h.alloc (.bytes (List.replicate (len + 1) none))
        cases received with
        | error err =>
            rw [relayEvent_dropped parse env fd type (.inr (.inr (.inr ⟨err, rfl⟩)))]
            exact Yields.bind hpayload.free fun heap hfreed => Yields.intro hfreed
        | ok bytes =>
            rw [relayEvent_received parse env fd type (not_or.mpr ⟨hzero, hmax⟩)]
            have hlength : (payloadOf bytes len).length = len := by simp [payloadOf]
            refine Yields.bind (hpayload.writeBytes (by simp [hlength])) fun heap hwritten => ?_
            refine Yields.bind (hwritten.writeBytes (by simp [hlength])) fun heap hreceived => ?_
            have hcells := received_cells (payloadOf bytes len)
            rw [hlength] at hcells
            rw [hlength, zero_add, hcells] at hreceived
            have hframe := wsFrame_yields lib ctx parse env hreceived fd type sendOk
            rw [hlength] at hframe
            refine hframe.mono fun out hout => ?_
            split at hout
            next htext =>
              rw [if_pos htext]
              exact hout
            next htext =>
              rw [if_neg htext]
              exact hout

end Handling

/-! ## Runs -/

section Sessions

variable
  (ws : WsServer)
  (fd : Int32)

theorem onOpen_quiet :
    onOpen (quietWs ws) fd = ((onOpen ws fd).1, quietWs (onOpen ws fd).2) := by
  unfold onOpen
  by_cases hfull : UInt8.ofNat wsMaxConnections ≤ ws.connectionCount
  · rw [if_pos hfull]
    exact if_pos hfull
  · rw [if_neg hfull, if_neg (show ¬ _ ≤ (quietWs ws).connectionCount from hfull)]
    cases hslot : findSlot? ws.connections (fun conn => !conn.active) <;> simp only [quietWs, hslot]

theorem openSession_quiet :
    openSession (quietWs ws) fd = quietWs (openSession ws fd) := by
  unfold openSession
  rw [onOpen_quiet]
  rfl

theorem onClose_quiet :
    onClose (quietWs ws) fd = quietWs (onClose ws fd) := by
  simp only [onClose, quietWs]
  split <;> rfl

end Sessions

section Events

variable
  {extra : Multiset (Block × Object)}
  {m : SocketState}
  {s : RelayState}
  (lib : Libnostr)
  (ctx : RelayCtx)
  (parse : Parser)

theorem Represents.opened
    (h : Represents extra m s)
    (fd : Int32) :
    Represents extra { m with relay := relayStep lib ctx m.relay (.opened fd) }
      (relayStep lib ctx s (.opened fd)) := by
  obtain ⟨hrelay, ⟨works, hqueue, hcalls, hheld⟩, hsent⟩ := h
  obtain ⟨-, hframe, hwritten, -⟩ := onOpen_frame s.ws fd
  refine ⟨?_, ⟨works, hqueue, hframe.trans hcalls, hheld⟩, ?_⟩
  · rw [hrelay]
    exact congrArg (fun ws => { s with ws := ws }) (openSession_quiet s.ws fd)
  · exact hsent.trans (congrArg (List.map _) hwritten.symm)

theorem Represents.closed
    (h : Represents extra m s)
    (fd : Int32) :
    Represents extra { m with relay := relayStep lib ctx m.relay (.closed fd) }
      (relayStep lib ctx s (.closed fd)) := by
  obtain ⟨hrelay, ⟨works, hqueue, hcalls, hheld⟩, hsent⟩ := h
  obtain ⟨-, hframe, hwritten, -⟩ := onClose_frame s.ws fd
  refine ⟨?_, ⟨works, hqueue, hframe.trans hcalls, hheld⟩, ?_⟩
  · rw [hrelay]
    exact congrArg (fun ws => { onWsDisconnect s fd with ws := endSession ws fd })
      (onClose_quiet s.ws fd)
  · exact hsent.trans (congrArg (List.map _) hwritten.symm)

theorem Represents.cleanup
    (h : Represents extra m s)
    (op : CleanupOp) :
    Represents extra { m with relay := relayStep lib ctx m.relay (.cleanup op) }
      (relayStep lib ctx s (.cleanup op)) := by
  obtain ⟨hrelay, hheld, hsent⟩ := h
  refine ⟨?_, hheld, hsent⟩
  rw [hrelay]
  rfl

/-- One event. -/
theorem memoryStep_yields
    (h : Represents extra m s)
    (event : MemoryEvent) :
    Yields (memoryStep lib ctx parse m event) fun m' =>
      Represents extra m'
        (finalState (relayMachine lib ctx) s (event.relayEvent parse).toList) := by
  cases event with
  | opened fd => exact Yields.intro (h.opened lib ctx fd)
  | closed fd => exact Yields.intro (h.closed lib ctx fd)
  | request fd r =>
      obtain ⟨out, heq, hout⟩ := wsHandler_yields lib ctx parse h fd r
      exact ⟨out.2, by simp [memoryStep, heq], hout⟩
  | work sendOk => exact runQueue_yields h sendOk
  | cleanup op => exact Yields.intro (h.cleanup lib ctx op)

end Events

/-- Only the queued messages take memory. -/
def OnlyQueued
    (m : SocketState) : Prop :=
  ∀ b, (m.heap.load b).isSome ↔
    b ∈ m.queue ∨ ∃ arg ∈ m.queue, (readArg m.heap arg).map AsyncSendArg.data = some b

theorem Represents.start
    (storage : Storage.LoggedWorld) :
    Represents 0 (startMemory storage) (startRelay storage) :=
  ⟨rfl, ⟨[], rfl, rfl, Holds.empty⟩, rfl⟩

theorem Represents.onlyQueued
    {m : SocketState}
    {s : RelayState}
    (h : Represents 0 m s) :
    OnlyQueued m := by
  obtain ⟨works, hqueue, -, hheld⟩ := h.held
  rw [add_zero] at hheld
  have harg : ∀ w ∈ works, readArg m.heap w.arg =
      some { fd := w.call.connFd, data := w.data, len := w.call.text.length } := fun w hw =>
    readArg_written hheld (mem_queuedBlocks.mpr ⟨w, hw, by simp [QueuedWork.blocks]⟩)
  intro b
  rw [hqueue]
  constructor
  · intro hsome
    obtain ⟨v, hv⟩ := Option.isSome_iff_exists.mp hsome
    obtain ⟨w, hw, hblock⟩ := mem_queuedBlocks.mp ((hheld.cells b v).mp hv)
    simp only [QueuedWork.blocks, Multiset.mem_cons, Prod.mk.injEq, Multiset.notMem_zero,
      or_false] at hblock
    rcases hblock with ⟨rfl, -⟩ | ⟨rfl, -⟩
    · exact .inl (List.mem_map_of_mem hw)
    · exact .inr ⟨w.arg, List.mem_map_of_mem hw, by rw [harg w hw]; rfl⟩
  · rintro (hb | ⟨arg, ha, hb⟩)
    · obtain ⟨w, hw, rfl⟩ := List.mem_map.mp hb
      rw [hheld.load (mem_queuedBlocks.mpr ⟨w, hw, Multiset.mem_cons_self _ _⟩)]
      rfl
    · obtain ⟨w, hw, rfl⟩ := List.mem_map.mp ha
      rw [harg w hw] at hb
      cases hb
      have hdata : (w.data, Object.bytes (w.call.text.map some)) ∈ queuedBlocks works :=
        mem_queuedBlocks.mpr ⟨w, hw, Multiset.mem_cons_of_mem (Multiset.mem_cons_self _ _)⟩
      rw [hheld.load hdata]
      rfl

/--
**Memory safety.**  Whatever reaches the relay, and whichever allocation, reception or transmission
fails: no block is used after it is freed or freed twice, nothing is read or written outside a block
and nothing is read that is not written; the relay does what the one of `Server` does with the text
frames that are received, and writes the same frames; and after every event only the queued messages
take memory.
-/
theorem memory_run
    (lib : Libnostr)
    (ctx : RelayCtx)
    (parse : Parser)
    (storage : Storage.LoggedWorld)
    (events : List MemoryEvent) :
    ∃ m, events.foldlM (memoryStep lib ctx parse) (startMemory storage) = some m ∧
      Represents 0 m (afterEvents lib ctx (startRelay storage)
        (events.filterMap (MemoryEvent.relayEvent parse))) ∧
      OnlyQueued m := by
  have hrun := Yields.foldlM (R := Represents 0)
    (fun _ _ event h => memoryStep_yields lib ctx parse h event) events (Represents.start storage)
  exact hrun.mono fun m hm => ⟨hm, hm.onlyQueued⟩

end SocketMemory
end Relay
end WispRelay
