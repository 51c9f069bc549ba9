import WispRelay.Relay.Server
import WispRelay.Storage.Concurrency

/-!
# The relay beside the cleanup task

`relayStep` handles a frame in one step, in which the cleanup task works between the calls to the
storage engine.  On the device there are two tasks: the one of the web server, which has the tables
and the sockets for itself, and the cleanup task.  They share the engine and its lock, and the
scheduler switches between their single accesses.

* `serve`: the task of the web server, as a program of storage calls.
* `handled`, `served`: how a frame, and a list of events, is handled in a run of the two tasks.
* `concurrent_relay_refines`: every run of the two tasks is a run of `relayStep`, for what the
  cleanup task did meanwhile; so that what is proved of the runs of `relayStep` holds of it.
-/

namespace WispRelay
namespace Relay

open Interference CriticalSections Runs Storage Subscriptions

/-! ## The two tasks -/

/-- A program of storage calls. -/
abbrev StorageProg := Prog StorageCall StorageCall.Ret

/-- The turn of this call is over. -/
def Handling.shift
    (h : Handling) : Handling :=
  { h with turns := fun n => h.turns (n + 1) }

/-- A call of a handler: the storage engine is shared, the rest is the task's own. -/
def ownCall
    (lib : Libnostr)
    (env : DispatchEnv)
    (h : Handling) : (c : RelayCall) → StorageProg (c.Ret × Handling)
  | .storage call => .call call fun result => .done (result, h.shift)
  | .timestampNow => .done (relayCall lib env .timestampNow h)
  | .malloc => .done (relayCall lib env .malloc h)
  | .rateCheck connFd type => .done (relayCall lib env (.rateCheck connFd type) h)
  | .subAdd connFd subId filters => .done (relayCall lib env (.subAdd connFd subId filters) h)
  | .subRemove connFd subId => .done (relayCall lib env (.subRemove connFd subId) h)
  | .subMatch event => .done (relayCall lib env (.subMatch event) h)
  | .wsSend connFd message text => .done (relayCall lib env (.wsSend connFd message text) h)

/-- A program of the relay, on the task's own copy of the state. -/
def ownRun
    {α : Type}
    (lib : Libnostr)
    (env : DispatchEnv) : RelayProg α → Handling → StorageProg (α × Handling)
  | .done a, h => .done (a, h)
  | .call c next, h => (ownCall lib env h c).bind fun r => ownRun lib env (next r.1) r.2

/-- No request is handled any more. -/
def withoutRequest
    (s : RelayState) : RelayState :=
  { s with ws := { s.ws with currentReq := none } }

/-- The task of the web server: it handles what reaches the relay, one after the other. -/
def serve
    (lib : Libnostr)
    (ctx : RelayCtx) : List RelayEvent → RelayState → StorageProg RelayState
  | [], s => .done s
  | .frame connFd len parsed env :: rest, s =>
      (ownRun lib env (onWsMessage lib ctx connFd len parsed) (arrived s connFd env)).bind fun r =>
        serve lib ctx rest (withoutRequest r.2.state)
  | event :: rest, s => serve lib ctx rest (relayStep lib ctx s event)

/-- The cleanup task: purges, and compactions where the list says so. -/
def cleaning : List Bool → StorageProg (Option RelayState)
  | [] => .done none
  | compact :: rest => .call (if compact then .compact else .purge) fun _ => cleaning rest

/-- The two tasks. -/
def relayTasks
    (lib : Libnostr)
    (ctx : RelayCtx)
    (s : RelayState)
    (events : List RelayEvent)
    (cleanup : List Bool) : Bool → StorageProg (Option RelayState)
  | true => (serve lib ctx events s).bind fun s => .done (some s)
  | false => cleaning cleanup

/-! ## What the two descriptions have in common -/

/-- The state with other storage. -/
def RelayState.withStorage
    (s : RelayState)
    (w : LoggedWorld) : RelayState :=
  { s with storage := w }

/-- The turns differ only in what the storage engine does. -/
structure SameTurn
    (turn turn' : CallTurn) : Prop where
  now : turn'.now = turn.now
  mallocOk : turn'.mallocOk = turn.mallocOk
  send : turn'.send = turn.send

/-- The events are the same but for what the storage engine does. -/
inductive SameEvent : RelayEvent → RelayEvent → Prop
  | opened (connFd : Int32) : SameEvent (.opened connFd) (.opened connFd)
  | closed (connFd : Int32) : SameEvent (.closed connFd) (.closed connFd)
  | work (sendOk : Bool) : SameEvent (.work sendOk) (.work sendOk)
  | frame
      (connFd : Int32)
      (len : Nat)
      (parsed : Option NostrClientMsg)
      (env : DispatchEnv)
      (turns : Nat → CallTurn)
      (hturns : ∀ n, SameTurn (env.turns n) (turns n)) :
      SameEvent (.frame connFd len parsed env) (.frame connFd len parsed { env with turns := turns })

/-- A turn, then others. -/
def thenTurns
    (turn : CallTurn)
    (later : Nat → CallTurn) : Nat → CallTurn
  | 0 => turn
  | n + 1 => later n

theorem sameTurn_thenTurns
    {turns later : Nat → CallTurn}
    {turn : CallTurn}
    (hturn : SameTurn (turns 0) turn)
    (hlater : ∀ n, SameTurn (turns (n + 1)) (later n))
    (n : Nat) :
    SameTurn (turns n) (thenTurns turn later n) := by
  cases n with
  | zero => exact hturn
  | succ n => exact hlater n

section Own

variable
  {lib : Libnostr}
  {env : DispatchEnv}

/-- A call that does not concern the storage engine. -/
def IsOwn
    (c : RelayCall) : Prop :=
  ∀ call, c ≠ .storage call

theorem ownCall_own
    {c : RelayCall}
    (hown : IsOwn c)
    (h : Handling) :
    ownCall lib env h c = .done (relayCall lib env c h) := by
  cases c with
  | storage call => exact absurd rfl (hown call)
  | _ => rfl

variable (lib env) in
/-- Such a call neither reads nor changes the storage. -/
theorem relayCall_own
    {c : RelayCall}
    (hown : IsOwn c)
    (h : Handling)
    (w : LoggedWorld)
    (later : Nat → CallTurn) :
    relayCall lib env c { state := h.state.withStorage w, turns := thenTurns (h.turns 0) later } =
      ((relayCall lib env c h).1,
        { state := (relayCall lib env c h).2.state.withStorage w, turns := later }) := by
  cases c with
  | storage call => exact absurd rfl (hown call)
  | _ => rfl

theorem afterCleanup_snoc
    (w : LoggedWorld)
    (work : List CleanupOp)
    (op : CleanupOp) :
    afterCleanup lib w (work ++ [op]) = afterOp lib (afterCleanup lib w work) op.op := by
  simp [afterCleanup]

end Own

/-! ## Runs of the two tasks -/

section Runs

variable
  {lib : Libnostr}
  {ctx : RelayCtx}
  {progs now : Bool → StorageProg (Option RelayState)}
  {past : List (Completed Bool)}
  {lw : LoggedWorld}
  {w' : StorageWorld}
  {pending : List CleanupOp}
  {cleanup : List Bool}

/-- Before the server's next call the cleanup task works. -/
theorem next_call
    {call : StorageCall}
    {next : call.Ret → StorageProg (Option RelayState)}
    {result : Option RelayState}
    (hrun : CallRun lib progs (afterCleanup lib lw pending).world past now w')
    (hserver : progs true = .call call next)
    (hcleaner : progs false = cleaning cleanup)
    (hended : now true = .done result) :
    ∃ pending' env cleanup' rest progs',
      progs' true =
          next (storageCall lib env (afterCleanup lib lw pending').world call).1 ∧
        progs' false = cleaning cleanup' ∧
        CallRun lib progs'
          (afterOp lib (afterCleanup lib lw pending') ⟨call, env⟩).world rest now w' := by
  induction past generalizing progs pending cleanup with
  | nil =>
      obtain ⟨rfl, -⟩ := hrun.eq_of_nil
      rw [hserver] at hended
      cases hended
  | cons first past ih =>
      obtain ⟨task, op, env, value⟩ := first
      obtain ⟨next', hcalls, rfl, hrest⟩ := hrun.uncons
      cases task with
      | true =>
          rw [hserver] at hcalls
          cases hcalls
          exact ⟨pending, env, cleanup, past, _, Function.update_self .., by
            rw [Function.update_of_ne (by decide), hcleaner], hrest⟩
      | false =>
          rw [hcleaner] at hcalls
          cases cleanup with
          | nil => cases hcalls
          | cons compact cleanup =>
              cases hcalls
              have hworked : CallRun lib (Function.update progs false (cleaning cleanup))
                  (afterCleanup lib lw (pending ++ [⟨compact, env⟩])).world past now w' := by
                rw [afterCleanup_snoc]
                exact hrest
              exact ih hworked (by rw [Function.update_of_ne (by decide), hserver])
                (Function.update_self ..)

/-- When the server makes no more calls, what is left is the work of the cleanup task. -/
theorem only_cleanup
    {result : Option RelayState}
    (hrun : CallRun lib progs (afterCleanup lib lw pending).world past now w')
    (hserver : progs true = .done result)
    (hcleaner : progs false = cleaning cleanup) :
    now true = .done result ∧ ∃ pending', w' = (afterCleanup lib lw pending').world := by
  induction past generalizing progs pending cleanup with
  | nil =>
      obtain ⟨rfl, rfl⟩ := hrun.eq_of_nil
      exact ⟨hserver, pending, rfl⟩
  | cons first past ih =>
      obtain ⟨task, op, env, value⟩ := first
      obtain ⟨next', hcalls, rfl, hrest⟩ := hrun.uncons
      cases task with
      | true =>
          rw [hserver] at hcalls
          cases hcalls
      | false =>
          rw [hcleaner] at hcalls
          cases cleanup with
          | nil => cases hcalls
          | cons compact cleanup =>
              cases hcalls
              have hworked : CallRun lib (Function.update progs false (cleaning cleanup))
                  (afterCleanup lib lw (pending ++ [⟨compact, env⟩])).world past now w' := by
                rw [afterCleanup_snoc]
                exact hrest
              exact ih hworked (by rw [Function.update_of_ne (by decide), hserver])
                (Function.update_self ..)

/--
A program of the relay runs as `handle` has it, for the turns in which the cleanup task has worked;
`h` is the state of the task with its own copy of the storage.
-/
theorem handled
    {α : Type}
    {env : DispatchEnv}
    {result : Option RelayState}
    {k : α × Handling → StorageProg (Option RelayState)}
    (p : RelayProg α)
    (h : Handling)
    (hrun : CallRun lib progs (afterCleanup lib lw pending).world past now w')
    (hserver : progs true = (ownRun lib env p h).bind k)
    (hcleaner : progs false = cleaning cleanup)
    (hended : now true = .done result) :
    ∃ turns, (∀ n, SameTurn (h.turns n) (turns n)) ∧
      ∃ h' pending' cleanup' rest progs',
        let r := p.run (relayCall lib env) { state := h.state.withStorage lw, turns := turns }
        progs' true = k (r.1, h') ∧ h'.state.withStorage r.2.state.storage = r.2.state ∧
          progs' false = cleaning cleanup' ∧
          CallRun lib progs' (afterCleanup lib r.2.state.storage pending').world rest now w' := by
  induction p generalizing progs past lw pending cleanup h with
  | done a =>
      exact ⟨h.turns, fun n => ⟨rfl, rfl, rfl⟩, h, pending, cleanup, past, progs, hserver, rfl,
        hcleaner, hrun⟩
  | call c next ih =>
      by_cases hown : IsOwn c
      · -- the task's own state: the call is made at once
        have hnext : progs true = (ownRun lib env (next (relayCall lib env c h).1)
            (relayCall lib env c h).2).bind k := by
          rw [hserver, ownRun, ownCall_own hown]
          rfl
        obtain ⟨turns, hturns, h', pending', cleanup', rest, progs', hdone, hstate, hcleaner',
          hrest⟩ := ih _ _ hrun hnext hcleaner
        have hrunCall := relayCall_own lib env hown h lw turns
        refine ⟨thenTurns (h.turns 0) turns, sameTurn_thenTurns ⟨rfl, rfl, rfl⟩ hturns, h',
          pending', cleanup', rest, progs', ?_⟩
        simp only [Prog.run, hrunCall]
        exact ⟨hdone, hstate, hcleaner', hrest⟩
      · -- a storage call: the cleanup task may have worked since the last one
        obtain ⟨call, rfl⟩ : ∃ call, c = .storage call := by
          simpa [IsOwn] using hown
        have hcalls : progs true =
            .call call fun result => (ownRun lib env (next result) h.shift).bind k := hserver
        obtain ⟨worked, storage, cleanup₁, rest₁, progs₁, hserver₁, hcleaner₁, hrest₁⟩ :=
          next_call hrun hcalls hcleaner hended
        have hfrom : CallRun lib progs₁ (afterCleanup lib
            (afterOp lib (afterCleanup lib lw worked) ⟨call, storage⟩) []).world rest₁ now w' :=
          hrest₁
        obtain ⟨turns, hturns, h', pending', cleanup', rest, progs', hdone, hstate, hcleaner',
          hrest⟩ := ih _ h.shift hfrom hserver₁ hcleaner₁
        exact ⟨thenTurns { h.turns 0 with cleanup := worked, storage := storage } turns,
          sameTurn_thenTurns ⟨rfl, rfl, rfl⟩ hturns, h', pending', cleanup', rest, progs', hdone,
          hstate, hcleaner', hrest⟩

/-- The calls depend on the environment but for its turns. -/
theorem relayCall_turns
    (env : DispatchEnv)
    (turns : Nat → CallTurn) :
    relayCall lib { env with turns := turns } = relayCall lib env := by
  funext c h
  cases c <;> rfl

theorem afterEvents_cons
    (s : RelayState)
    (event : RelayEvent)
    (events : List RelayEvent) :
    afterEvents lib ctx s (event :: events) =
      afterEvents lib ctx (relayStep lib ctx s event) events := rfl

/-- The work of the cleanup task after the last event. -/
theorem afterEvents_cleanup
    (s : RelayState)
    (work : List CleanupOp) :
    afterEvents lib ctx s (work.map .cleanup) =
      s.withStorage (afterCleanup lib s.storage work) := by
  induction work generalizing s with
  | nil => rfl
  | cons op work ih => exact ih (relayStep lib ctx s (.cleanup op))

/-- A list of events is handled as `relayStep` has it. -/
theorem served
    {result : Option RelayState}
    (events : List RelayEvent)
    (s : RelayState)
    (hevents : ∀ event ∈ events, ∀ work, event ≠ .cleanup work)
    (hrun : CallRun lib progs (afterCleanup lib lw pending).world past now w')
    (hserver : progs true = (serve lib ctx events s).bind fun s => .done (some s))
    (hcleaner : progs false = cleaning cleanup)
    (hended : now true = .done result) :
    ∃ t, result = some t ∧ ∃ events', List.Forall₂ SameEvent events events' ∧
      ∃ pending',
        let s' := afterEvents lib ctx (s.withStorage lw) events'
        t.withStorage s'.storage = s' ∧ w' = (afterCleanup lib s'.storage pending').world := by
  induction events generalizing progs past lw pending cleanup s with
  | nil =>
      have hdone : progs true = .done (some s) := hserver
      obtain ⟨hnow, pending', hw⟩ := only_cleanup hrun hdone hcleaner
      rw [hended] at hnow
      cases hnow
      exact ⟨s, rfl, [], List.Forall₂.nil, pending', rfl, hw⟩
  | cons event events ih =>
      have hrest := fun event hmem => hevents event (List.mem_cons_of_mem _ hmem)
      cases event with
      | cleanup work => exact absurd rfl (hevents _ (List.mem_cons_self ..) work)
      | opened connFd =>
          obtain ⟨t, hresult, events', hsame, pending', ht, hw⟩ :=
            ih _ hrest hrun hserver hcleaner
          exact ⟨t, hresult, .opened connFd :: events', hsame.cons (.opened connFd), pending', ht, hw⟩
      | closed connFd =>
          obtain ⟨t, hresult, events', hsame, pending', ht, hw⟩ :=
            ih _ hrest hrun hserver hcleaner
          exact ⟨t, hresult, .closed connFd :: events', hsame.cons (.closed connFd), pending', ht, hw⟩
      | work sendOk =>
          obtain ⟨t, hresult, events', hsame, pending', ht, hw⟩ :=
            ih _ hrest hrun hserver hcleaner
          exact ⟨t, hresult, .work sendOk :: events', hsame.cons (.work sendOk), pending', ht, hw⟩
      | frame connFd len parsed env =>
          have hframe : progs true =
              (ownRun lib env (onWsMessage lib ctx connFd len parsed) (arrived s connFd env)).bind
                fun r => (serve lib ctx events (withoutRequest r.2.state)).bind
                  fun s => .done (some s) := by
            rw [hserver, serve, Prog.bind_assoc]
          obtain ⟨turns, hturns, h', worked, cleanup₁, rest, progs₁, hserver₁, hstate, hcleaner₁,
            hrest₁⟩ := handled _ _ hrun hframe hcleaner hended
          obtain ⟨t, hresult, events', hsame, pending', ht, hw⟩ :=
            ih _ hrest hrest₁ hserver₁ hcleaner₁
          refine ⟨t, hresult, .frame connFd len parsed { env with turns := turns } :: events',
            hsame.cons (.frame connFd len parsed env turns hturns), pending', ?_⟩
          -- the next state of the relay is the task's copy with the storage put in its place
          have hnext : relayStep lib ctx (s.withStorage lw)
              (.frame connFd len parsed { env with turns := turns }) =
                withoutRequest ((onWsMessage lib ctx connFd len parsed).run (relayCall lib env)
                  { state := (arrived s connFd env).state.withStorage lw, turns := turns }).2.state :=
            by
              simp only [relayStep, handle, relayCall_turns]
              rfl
          have hcopy := congrArg withoutRequest hstate
          dsimp only
          rw [afterEvents_cons, hnext, ← hcopy]
          exact ⟨ht, hw⟩

end Runs

/--
**The relay with its cleanup task refines the relay that handles one event after the other.**  Take
any events, and any number of purges and compactions by the cleanup task; let the scheduler switch
between any two accesses of the two tasks to the engine.  When the server has handled the events
and the lock is free, the tables and the sockets, and the engine and its flash, are what `relayStep`
makes of the same events: only what the storage engine met in each call, and when the cleanup task
worked, is for the run to say.
-/
theorem concurrent_relay_refines
    (lib : Libnostr)
    (ctx : RelayCtx)
    (s : RelayState)
    (hinit : s.storage.world.engine.initialized = true)
    (events : List RelayEvent)
    (hevents : ∀ event ∈ events, ∀ work, event ≠ .cleanup work)
    (cleanup : List Bool)
    (past : List (Completed Bool))
    (sys : EngineSystem Bool (Option RelayState))
    (hrun : EngineRun lib (relayTasks lib ctx s events cleanup) s.storage.world past sys)
    (hended : sys.Ended true)
    (hfree : sys.owner = none) :
    ∃ (t : RelayState) (events' : List RelayEvent) (work : List CleanupOp),
      sys.tasks true = .outside (.done (some t)) ∧ List.Forall₂ SameEvent events events' ∧
        let s' := afterEvents lib ctx s (events' ++ work.map .cleanup)
        t.withStorage s'.storage = s' ∧ sys.shared = s'.storage.world.memory := by
  obtain ⟨w', hcalls, h⟩ := hrun.corresponds (storageBody_implements lib) ⟨rfl, hinit⟩
  obtain ⟨result, htask⟩ := hended
  have hnow : sys.programs true = .done result := by
    rw [System.programs, htask, Task.program]
  have hstart : CallRun lib (relayTasks lib ctx s events cleanup)
      (afterCleanup lib s.storage []).world past sys.programs w' := hcalls
  obtain ⟨t, rfl, events', hsame, work, ht, hw⟩ := served events s hevents hstart rfl rfl hnow
  refine ⟨t, events', work, htask, hsame, ?_⟩
  have hlast : afterEvents lib ctx s (events' ++ work.map .cleanup) =
      (afterEvents lib ctx s events').withStorage
        (afterCleanup lib (afterEvents lib ctx s events').storage work) := by
    rw [afterEvents, finalState_append]
    exact afterEvents_cleanup _ work
  dsimp only
  rw [hlast]
  refine ⟨?_, ?_⟩
  · have hcopy := congrArg (fun u : RelayState => u.withStorage
      (afterCleanup lib (afterEvents lib ctx s events').storage work)) ht
    exact hcopy
  · rw [(h.free hfree).1, hw]
    rfl

/-- A note is published while the cleanup task has purged once. -/
theorem concurrent_relay_refines_note :
    let lib := Sample.library (Sample.notes 1)
    let s := startRelay (erasedFlash 1000 1814400 thousandSlots)
    let events : List RelayEvent :=
      [.opened 5, .frame 5 100 (some (.event (Sample.numbered 0))) (.undisturbed 1700000000)]
    ∃ (past : List (Completed Bool)) (sys : EngineSystem Bool (Option RelayState))
      (t : RelayState) (events' work : List RelayEvent),
      EngineRun lib (relayTasks lib startedCtx s events [false]) s.storage.world past sys ∧
        past ≠ [] ∧ List.Forall₂ SameEvent events events' ∧
        t.withStorage (afterEvents lib startedCtx s (events' ++ work)).storage =
          afterEvents lib startedCtx s (events' ++ work) := by
  intro lib s events
  have hstart : EngineRun lib (relayTasks lib startedCtx s events [false]) s.storage.world []
      (System.started (relayTasks lib startedCtx s events [false]) s.storage.world.memory) := Run.start
  have hbody := storageBody_implements lib
  obtain ⟨m, hm, hpurge⟩ := hstart.can_call (i := false) (t := s.storage.world) hbody ⟨rfl, rfl⟩ rfl
    rfl (CallEnv.undisturbed 1700000000)
  have : Nonempty CallEnv := ⟨CallEnv.undisturbed 0⟩
  obtain ⟨later, result, m', w', -, hrun⟩ := hpurge.can_end (i := true) hbody hm rfl rfl
  obtain ⟨t, events', work, -, hsame, ht, -⟩ := concurrent_relay_refines lib startedCtx s rfl events
    (by simp [events]) [false] _ _ hrun ⟨result, by simp only [System.returned, Function.update_self]⟩
    rfl
  exact ⟨_, _, t, events', _, hrun, by simp, hsame, ht⟩

end Relay
end WispRelay
