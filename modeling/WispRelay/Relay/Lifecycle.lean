import WispRelay.Library.Ownership
import WispRelay.Relay.Router

/-!
# Starting the relay

Every time the station gets an address `start_relay_server` is tried: it initialises the
subscription manager, the storage engine with its cleanup task, the rate limiter and the web
server, and when one of them fails it takes back what it has done, so that the next address is a
new try.

What counts here are the mutexes, the index, the mounted file system, the task and the HTTP server;
what the tables and the flash hold is elsewhere.

* `wifiEventHandler` and the functions it calls, over the globals of `main.c` and `ws_server.c`.
* `Off`, `Running`: the two situations an attempt leaves.
* `attempts_settle`: whatever fails, whenever it fails, nothing is released twice or used when it is
  released, and after every event either nothing is held or the relay runs and holds one of each.
* `relay_recovers`: an address at which nothing is refused gets the relay running for good.
-/

namespace WispRelay
namespace Relay
namespace Lifecycle

open Interference Ownership

/-! ## Globals -/

/-- What is acquired and released. -/
inductive Kind where
  | mutex
  | index
  | fileSystem
  | task
  | httpd
deriving DecidableEq

/-- A pointer or a handle. -/
abbrev Handle := Resource Kind

/-- `storage_engine_t`, as far as it holds something. -/
structure StorageHandles where
  lock : Option Handle
  index : Option Handle
  cleanupTask : Option Handle
  initialized : Bool

/-- `storage_engine_t` as `memset` leaves it. -/
def StorageHandles.zero : StorageHandles where
  lock := none
  index := none
  cleanupTask := none
  initialized := false

/-- `ws_server_t` and the static variables of `ws_server.c`. -/
structure WsHandles where
  server : Option Handle
  lock : Option Handle
  gServer : Bool
  messageCallback : Bool
  disconnectCallback : Bool

/-- The static variables of `main.c`; the pointers of the context are set or `NULL`. -/
structure Globals where
  ctxSubManager : Bool
  ctxStorage : Bool
  ctxRateLimiter : Bool
  subManagerLock : Option Handle
  storage : StorageHandles
  /-- What is mounted under the label of the partition. -/
  mounted : Option Handle
  rateLimiterLock : Option Handle
  ws : WsHandles
  sntpInitialized : Bool

/-- The static variables when the device starts. -/
def Globals.zero : Globals where
  ctxSubManager := false
  ctxStorage := false
  ctxRateLimiter := false
  subManagerLock := none
  storage := StorageHandles.zero
  mounted := none
  rateLimiterLock := none
  ws := ⟨none, none, false, false, false⟩
  sntpInitialized := false

/-! ## Calls -/

/-- The calls that neither acquire nor release. -/
inductive DeviceCall where
  /-- The directories of the event files. -/
  | mkdir (fs : Handle)
  | loadIndexFromNvs (index : Handle)
  | saveIndexToNvs (index : Handle)
  | registerUriHandler (server : Handle)
  | wifiConnect
  | sntpInit

/-- What they return. -/
def DeviceCall.Ret : DeviceCall → Type
  | .registerUriHandler _ => Bool
  | _ => Unit

/-- What has to be there for them. -/
def Needs : DeviceCall → Multiset Handle → Prop
  | .mkdir fs, live => fs ∈ live
  | .loadIndexFromNvs index, live => index ∈ live
  | .saveIndexToNvs index, live => index ∈ live
  | .registerUriHandler server, live => server ∈ live
  | .wifiConnect, _ => True
  | .sntpInit, _ => True

/-- A program of the device. -/
abbrev DeviceProg := ResourceProg Kind DeviceCall DeviceCall.Ret

/-- Make such a call. -/
abbrev DeviceCall.perform
    (c : DeviceCall) : DeviceProg c.Ret :=
  Ownership.perform c

/-! ## Initialisation and release -/

/-- `sub_manager_init`. -/
def subManagerInit
    (g : Globals) : DeviceProg (EspErr × Globals) := do
  let lock ← acquire .mutex
  pure (if lock.isSome then .espOk else .espErrNoMem, { g with subManagerLock := lock })

/-- `sub_manager_destroy`. -/
def subManagerDestroy
    (g : Globals) : DeviceProg Globals := do
  releaseIfSet g.subManagerLock
  pure { g with subManagerLock := none }

/-- The part of `storage_init` after the allocation of the index. -/
def mountAndLoad
    (g : Globals)
    (lock index : Handle) : DeviceProg (EspErr × Globals) := do
  match ← acquire .fileSystem with
  | none => do
      release index
      release lock
      pure (.espFail,
        { g with
          storage := { StorageHandles.zero with lock := some lock, index := some index } })
  | some fs => do
      (DeviceCall.mkdir fs).perform
      (DeviceCall.loadIndexFromNvs index).perform
      pure (.espOk,
        { g with
          storage :=
            { lock := some lock
              index := some index
              cleanupTask := none
              initialized := true }
          mounted := some fs })

/-- `storage_init`: on an error the pointers stay as they are, but `initialized` is not set. -/
def storageInit
    (g : Globals) : DeviceProg (EspErr × Globals) := do
  match ← acquire .mutex with
  | none => pure (.espErrNoMem, { g with storage := StorageHandles.zero })
  | some lock =>
    -- external memory, or else 1000 entries in internal memory
    match ← acquire .index with
    | some index => mountAndLoad g lock index
    | none =>
      match ← acquire .index with
      | some index => mountAndLoad g lock index
      | none => do
          release lock
          pure (.espErrNoMem,
            { g with storage := { StorageHandles.zero with lock := some lock } })

/-- `storage_start_cleanup_task`. -/
def storageStartCleanupTask
    (g : Globals) : DeviceProg (EspErr × Globals) := do
  let task ← acquire .task
  pure (if task.isSome then .espOk else .espErrNoMem,
    { g with storage := { g.storage with cleanupTask := task } })

/-- `storage_destroy`: it waits for the end of the task, saves the index and releases the rest. -/
def storageDestroy
    (g : Globals) : DeviceProg Globals :=
  if !g.storage.initialized then pure g
  else do
    releaseIfSet g.storage.cleanupTask
    match g.storage.index with
    | none => pure ()
    | some index => (DeviceCall.saveIndexToNvs index).perform
    releaseIfSet g.mounted
    releaseIfSet g.storage.index
    releaseIfSet g.storage.lock
    pure { g with storage := StorageHandles.zero, mounted := none }

/-- `rate_limiter_init`, which does not look at the mutex it got. -/
def rateLimiterInit
    (g : Globals) : DeviceProg Globals := do
  let lock ← acquire .mutex
  pure { g with rateLimiterLock := lock }

/-- `rate_limiter_destroy`. -/
def rateLimiterDestroy
    (g : Globals) : DeviceProg Globals := do
  releaseIfSet g.rateLimiterLock
  pure { g with rateLimiterLock := none }

/-- `cleanup_server_init`. -/
def cleanupServerInit
    (g : Globals)
    (stopHttpd : Bool) : DeviceProg Globals := do
  if stopHttpd then
    releaseIfSet g.ws.server
  releaseIfSet g.ws.lock
  pure { g with
    ws :=
      { g.ws with
        server := if stopHttpd then none else g.ws.server
        lock := none
        gServer := false
        messageCallback := false } }

/-- `ws_server_init`. -/
def wsServerInit
    (g : Globals) : DeviceProg (EspErr × Globals) :=
  if g.ws.server.isSome then pure (.espErrInvalidState, g)
  else do
    match ← acquire .mutex with
    | none => pure (.espErrNoMem, { g with ws := { g.ws with server := none, lock := none } })
    | some lock =>
      let g := { g with
        ws := { g.ws with lock := some lock, gServer := true, messageCallback := true } }
      match ← acquire .httpd with
      | none => do
          let g ← cleanupServerInit g false
          pure (.espFail, g)
      | some server => do
          let g := { g with ws := { g.ws with server := some server } }
          let registered ← (DeviceCall.registerUriHandler server).perform
          if !registered then do
            let g ← cleanupServerInit g true
            pure (.espFail, g)
          else do
            -- the second handler may be missing
            let _ ← (DeviceCall.registerUriHandler server).perform
            pure (.espOk, g)

/-- `cleanup_relay_resources`. -/
def cleanupRelayResources
    (g : Globals)
    (cleanupRateLimiter cleanupStorage cleanupSubManager : Bool) : DeviceProg Globals := do
  let g ← if cleanupRateLimiter && g.ctxRateLimiter then do
      let g ← rateLimiterDestroy g
      pure { g with ctxRateLimiter := false }
    else pure g
  let g ← if cleanupStorage && g.ctxStorage then do
      let g ← storageDestroy g
      pure { g with ctxStorage := false }
    else pure g
  if cleanupSubManager && g.ctxSubManager then do
    let g ← subManagerDestroy g
    pure { g with ctxSubManager := false }
  else pure g

/-- `start_relay_server`. -/
def startRelayServer
    (g : Globals) : DeviceProg Globals :=
  if g.ws.server.isSome then pure g
  else do
    let (err, g) ← subManagerInit g
    if err ≠ .espOk then pure g
    else do
      let g := { g with ctxSubManager := true }
      let (err, g) ← storageInit g
      if err ≠ .espOk then cleanupRelayResources g false false true
      else do
        let g := { g with ctxStorage := true }
        let (err, g) ← storageStartCleanupTask g
        if err ≠ .espOk then cleanupRelayResources g false true true
        else do
          let g ← rateLimiterInit g
          let g := { g with ctxRateLimiter := true }
          let (err, g) ← wsServerInit g
          if err ≠ .espOk then cleanupRelayResources g true true true
          else pure { g with ws := { g.ws with disconnectCallback := true } }

/-- The events `wifi_event_handler` is registered for. -/
inductive WifiEvent where
  | staStart
  | staDisconnected
  | staGotIp
  | otherWifiEvent
deriving DecidableEq

/-- `init_sntp`. -/
def initSntp
    (g : Globals) : DeviceProg Globals :=
  if g.sntpInitialized then pure g
  else do
    DeviceCall.sntpInit.perform
    pure { g with sntpInitialized := true }

/-- `wifi_event_handler`. -/
def wifiEventHandler
    (g : Globals) : WifiEvent → DeviceProg Globals
  | .staDisconnected => do
      DeviceCall.wifiConnect.perform
      pure g
  | .staStart => do
      DeviceCall.wifiConnect.perform
      pure g
  | .staGotIp => do
      let g ← initSntp g
      startRelayServer g
  | .otherWifiEvent => pure g

/-! ## What each function does with what it holds -/

/-- Something is refused from a request on. -/
def Refused
    (answers : Answers Kind DeviceCall DeviceCall.Ret)
    (k : Nat) : Prop :=
  ∃ n, k ≤ n ∧ ((∃ kind, answers.granted n kind = false) ∨
    ∃ server, answers.other n (.registerUriHandler server) = false)

section Functions

variable
  {answers : Answers Kind DeviceCall DeviceCall.Ret}
  {k : Nat}
  (g : Globals)
  (live : Multiset Handle)

theorem subManagerInit_uses :
    Uses answers k Needs (subManagerInit g) live fun r live' =>
      (∃ n, r = (.espOk, { g with subManagerLock := some (.mutex, n) }) ∧
        live' = (.mutex, n) ::ₘ live) ∨
      (Refused answers k ∧ r = (.espErrNoMem, { g with subManagerLock := none }) ∧
        live' = live) := by
  unfold subManagerInit
  refine Uses.acquire_bind (fun n => ?_) fun n hn hno => ?_
  · exact Uses.pure (Or.inl ⟨n, rfl, rfl⟩)
  · exact Uses.pure (Or.inr ⟨⟨n, hn, Or.inl ⟨_, hno⟩⟩, rfl, rfl⟩)

theorem subManagerDestroy_uses :
    Uses answers k Needs (subManagerDestroy g) (Multiset.ofList g.subManagerLock.toList + live)
      fun g' live' => g' = { g with subManagerLock := none } ∧ live' = live := by
  unfold subManagerDestroy
  exact Uses.releaseIfSet_bind _ (Uses.pure ⟨rfl, rfl⟩)

/-- The engine, when `storage_init` has succeeded. -/
def startedStorage
    (lock index : Nat)
    (task : Option Handle) : StorageHandles where
  lock := some (.mutex, lock)
  index := some (.index, index)
  cleanupTask := task
  initialized := true

/-- The engine is started, or nothing is held of it. -/
def StorageOutcome
    (answers : Answers Kind DeviceCall DeviceCall.Ret)
    (k : Nat)
    (r : EspErr × Globals)
    (live' : Multiset Handle) : Prop :=
  (∃ lock index fs,
    r = (.espOk,
      { g with storage := startedStorage lock index none, mounted := some (.fileSystem, fs) }) ∧
    live' = (.fileSystem, fs) ::ₘ (.index, index) ::ₘ (.mutex, lock) ::ₘ live) ∨
  (Refused answers k ∧
    ∃ err storage, r = (err, { g with storage := storage }) ∧ err ≠ .espOk ∧ live' = live)

theorem mountAndLoad_uses
    (lock index : Nat) :
    Uses answers k Needs (mountAndLoad g (.mutex, lock) (.index, index))
      ((.index, index) ::ₘ (.mutex, lock) ::ₘ live) (StorageOutcome g live answers k) := by
  unfold mountAndLoad
  refine Uses.acquire_bind (fun fs => ?_) fun n hn hno => ?_
  · refine Uses.perform_bind (Multiset.mem_cons_self _ _) fun _ _ => ?_
    refine Uses.perform_bind (Multiset.mem_cons_of_mem (Multiset.mem_cons_self _ _)) fun _ _ => ?_
    exact Uses.pure (Or.inl ⟨lock, index, fs, rfl, rfl⟩)
  · refine Uses.release_bind (Uses.release_bind ?_)
    exact Uses.pure (Or.inr ⟨⟨n, hn, Or.inl ⟨_, hno⟩⟩, _, _, rfl, by decide, rfl⟩)

theorem storageInit_uses :
    Uses answers k Needs (storageInit g) live (StorageOutcome g live answers k) := by
  unfold storageInit
  refine Uses.acquire_bind (fun lock => ?_) fun n hn hno => ?_
  · refine Uses.acquire_bind (fun index => mountAndLoad_uses g live lock index) fun _ _ _ => ?_
    refine Uses.acquire_bind (fun index => mountAndLoad_uses g live lock index) fun n hn hno => ?_
    refine Uses.release_bind (Uses.pure (Or.inr ?_))
    exact ⟨⟨n, hn, Or.inl ⟨_, hno⟩⟩, _, _, rfl, by decide, rfl⟩
  · exact Uses.pure (Or.inr ⟨⟨n, hn, Or.inl ⟨_, hno⟩⟩, _, _, rfl, by decide, rfl⟩)

/-- All of a started engine is released, the task first. -/
theorem storageDestroy_uses
    (lock index fs : Nat)
    (task : Option Handle)
    (hstorage : g.storage = startedStorage lock index task)
    (hmounted : g.mounted = some (.fileSystem, fs)) :
    Uses answers k Needs (storageDestroy g)
      (Multiset.ofList task.toList +
        (.fileSystem, fs) ::ₘ (.index, index) ::ₘ (.mutex, lock) ::ₘ live)
      fun g' live' =>
        g' = { g with storage := StorageHandles.zero, mounted := none } ∧ live' = live := by
  unfold storageDestroy
  rw [hstorage, hmounted]
  refine Uses.releaseIfSet_bind task ?_
  refine Uses.perform_bind (Multiset.mem_cons_of_mem (Multiset.mem_cons_self _ _)) fun _ _ => ?_
  exact Uses.release_bind (Uses.release_bind (Uses.release_bind (Uses.pure ⟨rfl, rfl⟩)))

theorem storageStartCleanupTask_uses :
    Uses answers k Needs (storageStartCleanupTask g) live fun r live' =>
      (∃ n, r = (.espOk, { g with storage := { g.storage with cleanupTask := some (.task, n) } }) ∧
        live' = (.task, n) ::ₘ live) ∨
      (Refused answers k ∧
        r = (.espErrNoMem, { g with storage := { g.storage with cleanupTask := none } }) ∧
        live' = live) := by
  unfold storageStartCleanupTask
  refine Uses.acquire_bind (fun n => ?_) fun n hn hno => ?_
  · exact Uses.pure (Or.inl ⟨n, rfl, rfl⟩)
  · exact Uses.pure (Or.inr ⟨⟨n, hn, Or.inl ⟨_, hno⟩⟩, rfl, rfl⟩)

/-- The rate limiter may be left without its mutex. -/
theorem rateLimiterInit_uses :
    Uses answers k Needs (rateLimiterInit g) live fun g' live' =>
      ∃ lock : Option Nat,
        g' = { g with rateLimiterLock := lock.map (Prod.mk .mutex) } ∧
          live' = Multiset.ofList (lock.map (Prod.mk Kind.mutex)).toList + live := by
  unfold rateLimiterInit
  refine Uses.acquire_bind (fun n => ?_) fun _ _ _ => ?_
  · exact Uses.pure ⟨some n, rfl, rfl⟩
  · exact Uses.pure ⟨none, rfl, by simp⟩

theorem rateLimiterDestroy_uses :
    Uses answers k Needs (rateLimiterDestroy g) (Multiset.ofList g.rateLimiterLock.toList + live)
      fun g' live' => g' = { g with rateLimiterLock := none } ∧ live' = live := by
  unfold rateLimiterDestroy
  exact Uses.releaseIfSet_bind _ (Uses.pure ⟨rfl, rfl⟩)

/-- The web server listens, or nothing is held of it. -/
theorem wsServerInit_uses
    (hserver : g.ws.server = none)
    (hquiet : g.ws.gServer = false ∧ g.ws.messageCallback = false) :
    Uses answers k Needs (wsServerInit g) live fun r live' =>
      (∃ lock server, r = (.espOk,
          { g with
            ws :=
              { g.ws with
                server := some (.httpd, server)
                lock := some (.mutex, lock)
                gServer := true
                messageCallback := true } }) ∧
        live' = (.httpd, server) ::ₘ (.mutex, lock) ::ₘ live) ∨
      (Refused answers k ∧
        ∃ err, r = (err, { g with ws := { g.ws with lock := none } }) ∧ err ≠ .espOk ∧
          live' = live) := by
  obtain ⟨_, _, _, _, _, _, _, ⟨_, _, _, _, _⟩, _⟩ := g
  obtain ⟨rfl, rfl⟩ := hquiet
  subst hserver
  refine Uses.acquire_bind (fun lock => ?_) fun n hn hno => ?_
  · refine Uses.acquire_bind (fun server => ?_) fun n hn hno => ?_
    · refine Uses.perform_bind (Multiset.mem_cons_self _ _) fun n hn => ?_
      cases hregistered : answers.other n (.registerUriHandler (.httpd, server)) with
      | true =>
          refine Uses.perform_bind (Multiset.mem_cons_self _ _) fun _ _ => ?_
          exact Uses.pure (Or.inl ⟨lock, server, rfl, rfl⟩)
      | false =>
          refine Uses.release_bind (Uses.release_bind (Uses.pure (Or.inr ?_)))
          exact ⟨⟨n, hn, Or.inr ⟨_, hregistered⟩⟩, .espFail, rfl, by decide, rfl⟩
    · refine Uses.release_bind (Uses.pure (Or.inr ?_))
      exact ⟨⟨n, hn, Or.inl ⟨_, hno⟩⟩, .espFail, rfl, by decide, rfl⟩
  · exact Uses.pure (Or.inr ⟨⟨n, hn, Or.inl ⟨_, hno⟩⟩, .espErrNoMem, rfl, by decide, rfl⟩)

/-- `cleanup_relay_resources(false, false, true)`. -/
theorem undoSubManager_uses
    (hctx : g.ctxSubManager = true)
    (lock : Nat)
    (hlock : g.subManagerLock = some (.mutex, lock)) :
    Uses answers k Needs (cleanupRelayResources g false false true) ((.mutex, lock) ::ₘ live)
      fun g' live' =>
        g' = { g with subManagerLock := none, ctxSubManager := false } ∧ live' = live := by
  have hdestroy := @subManagerDestroy_uses answers k g live
  rw [hlock] at hdestroy
  have hrun : cleanupRelayResources g false false true =
      subManagerDestroy g >>= fun g => pure { g with ctxSubManager := false } := by
    simp [cleanupRelayResources, hctx]
  rw [hrun]
  refine hdestroy.bind ?_
  rintro g' _ ⟨rfl, rfl⟩
  exact Uses.pure ⟨rfl, rfl⟩

/-- `cleanup_relay_resources(false, true, true)`. -/
theorem undoStorage_uses
    (hctx : g.ctxSubManager = true ∧ g.ctxStorage = true)
    (subManager lock index fs : Nat)
    (task : Option Handle)
    (hlock : g.subManagerLock = some (.mutex, subManager))
    (hstorage : g.storage = startedStorage lock index task)
    (hmounted : g.mounted = some (.fileSystem, fs)) :
    Uses answers k Needs (cleanupRelayResources g false true true)
      (Multiset.ofList task.toList + (.fileSystem, fs) ::ₘ (.index, index) ::ₘ (.mutex, lock) ::ₘ
        (.mutex, subManager) ::ₘ live)
      fun g' live' =>
        g' = { g with
          storage := StorageHandles.zero
          mounted := none
          ctxStorage := false
          subManagerLock := none
          ctxSubManager := false } ∧ live' = live := by
  have hrun : cleanupRelayResources g false true true =
      storageDestroy g >>= fun g =>
        cleanupRelayResources { g with ctxStorage := false } false false true := by
    simp [cleanupRelayResources, hctx.2]
  rw [hrun]
  refine (storageDestroy_uses g _ lock index fs task hstorage hmounted).bind ?_
  rintro g' _ ⟨rfl, rfl⟩
  refine undoSubManager_uses _ live ?_ subManager ?_
  · exact hctx.1
  · exact hlock

/-- `cleanup_relay_resources(true, true, true)`. -/
theorem undoAll_uses
    (hctx : g.ctxSubManager = true ∧ g.ctxStorage = true ∧ g.ctxRateLimiter = true)
    (subManager lock index fs : Nat)
    (task : Option Handle)
    (hlock : g.subManagerLock = some (.mutex, subManager))
    (hstorage : g.storage = startedStorage lock index task)
    (hmounted : g.mounted = some (.fileSystem, fs)) :
    Uses answers k Needs (cleanupRelayResources g true true true)
      (Multiset.ofList g.rateLimiterLock.toList + (Multiset.ofList task.toList +
        (.fileSystem, fs) ::ₘ (.index, index) ::ₘ (.mutex, lock) ::ₘ
          (.mutex, subManager) ::ₘ live))
      fun g' live' =>
        g' = { g with
          rateLimiterLock := none
          ctxRateLimiter := false
          storage := StorageHandles.zero
          mounted := none
          ctxStorage := false
          subManagerLock := none
          ctxSubManager := false } ∧ live' = live := by
  have hrun : cleanupRelayResources g true true true =
      rateLimiterDestroy g >>= fun g =>
        cleanupRelayResources { g with ctxRateLimiter := false } false true true := by
    simp [cleanupRelayResources, hctx.2.2]
  rw [hrun]
  refine (rateLimiterDestroy_uses g _).bind ?_
  rintro g' _ ⟨rfl, rfl⟩
  refine undoStorage_uses _ live ?_ subManager lock index fs task ?_ ?_ ?_
  · exact ⟨hctx.1, hctx.2.1⟩
  · exact hlock
  · exact hstorage
  · exact hmounted

end Functions

/-! ## Attempts -/

/-- Nothing is held, and the pointers through which the rest of the program works are `NULL`. -/
structure Off
    (g : Globals)
    (live : Multiset Handle) : Prop where
  live_eq : live = 0
  mounted : g.mounted = none
  subManager : g.ctxSubManager = false
  storage : g.ctxStorage = false
  rateLimiter : g.ctxRateLimiter = false
  server : g.ws.server = none
  gServer : g.ws.gServer = false
  messageCallback : g.ws.messageCallback = false

/-- The relay runs with one of each; only the mutex of the rate limiter may be missing. -/
structure Running
    (g : Globals)
    (live : Multiset Handle) : Prop where
  subManager : g.ctxSubManager = true
  storage : g.ctxStorage = true
  rateLimiter : g.ctxRateLimiter = true
  initialized : g.storage.initialized = true
  gServer : g.ws.gServer = true
  messageCallback : g.ws.messageCallback = true
  disconnectCallback : g.ws.disconnectCallback = true
  sntp : g.sntpInitialized = true
  held : ∃ subManager lock index fs task wsLock server : Nat, ∃ limiter : Option Nat,
    g.subManagerLock = some (.mutex, subManager) ∧
      g.storage.lock = some (.mutex, lock) ∧ g.storage.index = some (.index, index) ∧
      g.mounted = some (.fileSystem, fs) ∧ g.storage.cleanupTask = some (.task, task) ∧
      g.rateLimiterLock = limiter.map (Prod.mk .mutex) ∧
      g.ws.lock = some (.mutex, wsLock) ∧ g.ws.server = some (.httpd, server) ∧
      live = (.httpd, server) ::ₘ (.mutex, wsLock) ::ₘ
        (Multiset.ofList (limiter.map (Prod.mk Kind.mutex)).toList +
          (.task, task) ::ₘ (.fileSystem, fs) ::ₘ (.index, index) ::ₘ (.mutex, lock) ::ₘ
            (.mutex, subManager) ::ₘ 0)

theorem Off.start : Off Globals.zero 0 :=
  ⟨rfl, rfl, rfl, rfl, rfl, rfl, rfl, rfl⟩

section Attempts

variable
  {answers : Answers Kind DeviceCall DeviceCall.Ret}
  {k : Nat}

/-- One attempt, when the relay is off: it succeeds unless something is refused. -/
theorem startRelayServer_uses
    (g : Globals)
    (live : Multiset Handle)
    (hoff : Off g live)
    (hsntp : g.sntpInitialized = true) :
    Uses answers k Needs (startRelayServer g) live fun g' live' =>
      (Off g' live' ∧ Refused answers k) ∨ Running g' live' := by
  obtain ⟨rfl, hmounted, hsub, hstorage, hlimiter, hserver, hgServer, hcallback⟩ := hoff
  unfold startRelayServer
  rw [hserver]
  refine (subManagerInit_uses g 0).bind ?_
  rintro ⟨err, g₁⟩ _ (⟨subManager, heq, rfl⟩ | ⟨hrefused, heq, rfl⟩) <;> cases heq
  · refine (storageInit_uses _ _).bind ?_
    rintro ⟨err, g₂⟩ _ (⟨lock, index, fs, heq, rfl⟩ |
      ⟨hrefused, err, storage, heq, herr, rfl⟩) <;> cases heq
    · refine (storageStartCleanupTask_uses _ _).bind ?_
      rintro ⟨err, g₃⟩ _ (⟨task, heq, rfl⟩ | ⟨hrefused, heq, rfl⟩) <;> cases heq
      · refine (rateLimiterInit_uses _ _).bind ?_
        rintro g₄ _ ⟨limiter, rfl, rfl⟩
        refine Uses.bind (wsServerInit_uses _ _ ?_ ?_) ?_
        · exact hserver
        · exact ⟨hgServer, hcallback⟩
        rintro ⟨err, g₅⟩ _ (⟨wsLock, server, heq, rfl⟩ |
          ⟨hrefused, err, heq, herr, rfl⟩) <;> cases heq
        · exact Uses.pure (Or.inr ⟨rfl, rfl, rfl, rfl, rfl, rfl, rfl, hsntp, subManager, lock,
            index, fs, task, wsLock, server, limiter, rfl, rfl, rfl, rfl, rfl, rfl, rfl, rfl, rfl⟩)
        · -- the web server fails: everything is taken back
          dsimp only
          rw [if_pos herr]
          refine Uses.mono
            (undoAll_uses _ 0 ?_ subManager lock index fs (some (.task, task)) ?_ ?_ ?_) ?_
          · exact ⟨rfl, rfl, rfl⟩
          · rfl
          · rfl
          · rfl
          · rintro g' _ ⟨rfl, rfl⟩
            exact Or.inl ⟨⟨rfl, rfl, rfl, rfl, rfl, hserver, hgServer, hcallback⟩, hrefused⟩
      · -- the cleanup task fails: there is none to wait for
        refine (undoStorage_uses _ 0 ?_ subManager lock index fs none ?_ ?_ ?_).mono ?_
        · exact ⟨rfl, rfl⟩
        · rfl
        · rfl
        · rfl
        · rintro g' _ ⟨rfl, rfl⟩
          exact Or.inl ⟨⟨rfl, rfl, rfl, rfl, hlimiter, hserver, hgServer, hcallback⟩, hrefused⟩
    · -- the storage engine fails, and has taken back what it did
      dsimp only
      rw [if_pos herr]
      refine (undoSubManager_uses _ 0 ?_ subManager ?_).mono ?_
      · rfl
      · rfl
      · rintro g' _ ⟨rfl, rfl⟩
        refine Or.inl ⟨?_, hrefused⟩
        exact ⟨rfl, hmounted, rfl, hstorage, hlimiter, hserver, hgServer, hcallback⟩
  · refine Uses.pure (Or.inl ⟨?_, hrefused⟩)
    exact ⟨rfl, hmounted, hsub, hstorage, hlimiter, hserver, hgServer, hcallback⟩

/-- Nothing happens to a relay that runs. -/
theorem wifiEventHandler_running
    {g : Globals}
    {live : Multiset Handle}
    (h : Running g live)
    (event : WifiEvent) :
    Uses answers k Needs (wifiEventHandler g event) live fun g' live' => g' = g ∧ live' = live := by
  cases event with
  | staStart => exact Uses.perform_bind trivial fun _ _ => Uses.pure ⟨rfl, rfl⟩
  | staDisconnected => exact Uses.perform_bind trivial fun _ _ => Uses.pure ⟨rfl, rfl⟩
  | staGotIp =>
      obtain ⟨_, _, _, _, _, _, server, _, -, -, -, -, -, -, -, hserver, -⟩ := h.held
      simp only [wifiEventHandler, initSntp, h.sntp, if_true, startRelayServer, Prog.pure_bind',
        hserver, Option.isSome_some]
      exact Uses.pure ⟨rfl, rfl⟩
  | otherWifiEvent => exact Uses.pure ⟨rfl, rfl⟩

/-- An address gets the relay running, unless something is refused. -/
theorem gotIp_uses
    {g : Globals}
    {live : Multiset Handle}
    (hoff : Off g live) :
    Uses answers k Needs (wifiEventHandler g .staGotIp) live fun g' live' =>
      (Off g' live' ∧ Refused answers k) ∨ Running g' live' := by
  simp only [wifiEventHandler, initSntp]
  split
  next hsntp => exact startRelayServer_uses g live hoff hsntp
  next =>
    refine Uses.perform_bind trivial fun _ _ => ?_
    obtain ⟨hlive, hmounted, hsub, hstorage, hlimiter, hserver, hgServer, hcallback⟩ := hoff
    exact startRelayServer_uses _ live
      ⟨hlive, hmounted, hsub, hstorage, hlimiter, hserver, hgServer, hcallback⟩ rfl

/-- One event leaves the relay off or running. -/
theorem wifiEventHandler_uses
    (g : Globals)
    (event : WifiEvent)
    (live : Multiset Handle)
    (h : Off g live ∨ Running g live) :
    Uses answers k Needs (wifiEventHandler g event) live fun g' live' =>
      Off g' live' ∨ Running g' live' := by
  rcases h with hoff | hrunning
  · cases event with
    | staStart => exact Uses.perform_bind trivial fun _ _ => Uses.pure (Or.inl hoff)
    | staDisconnected => exact Uses.perform_bind trivial fun _ _ => Uses.pure (Or.inl hoff)
    | staGotIp => exact (gotIp_uses hoff).mono fun _ _ h => h.imp And.left id
    | otherWifiEvent => exact Uses.pure (Or.inl hoff)
  · refine (wifiEventHandler_running hrunning event).mono ?_
    rintro g' _ ⟨rfl, rfl⟩
    exact Or.inr hrunning

end Attempts

/-- The globals and what is held, after some events. -/
def afterWifi
    (answers : Answers Kind DeviceCall DeviceCall.Ret)
    (events : List WifiEvent) : Globals × Pool Kind :=
  (fold wifiEventHandler Globals.zero events).run (serve answers) ⟨0, 0⟩

theorem attempts_uses
    (answers : Answers Kind DeviceCall DeviceCall.Ret)
    (events : List WifiEvent) :
    Uses answers 0 Needs (fold wifiEventHandler Globals.zero events) 0 fun g live =>
      Off g live ∨ Running g live :=
  Uses.fold wifiEventHandler_uses (Or.inl Off.start) events

/--
**Starting is safe.**  Whatever events come, and whatever fails in whichever attempt: nothing is
released that is not held, so nothing twice, and nothing is used that is released; and after
every event either nothing is held, or the relay runs and holds exactly one of each, the mutex of
the rate limiter excepted.
-/
theorem attempts_settle
    (events : List WifiEvent)
    (answers : Answers Kind DeviceCall DeviceCall.Ret) :
    (∀ x ∈ (fold wifiEventHandler Globals.zero events).visited (serve answers) ⟨0, 0⟩,
      Proper Needs x.1 x.2) ∧
    (Off (afterWifi answers events).1 (afterWifi answers events).2.live ∨
      Running (afterWifi answers events).1 (afterWifi answers events).2.live) := by
  have h := attempts_uses answers events 0 (Nat.le_refl 0)
  exact ⟨h.calls, h.ends.2⟩

theorem afterWifi_append
    (answers : Answers Kind DeviceCall DeviceCall.Ret)
    (before later : List WifiEvent) :
    afterWifi answers (before ++ later) =
      (fold wifiEventHandler (afterWifi answers before).1 later).run (serve answers)
        (afterWifi answers before).2 := by
  unfold afterWifi
  rw [fold_append, Prog.run_bind]

/-- There is no memory for an index at first. -/
def noIndexAtFirst : Answers Kind DeviceCall DeviceCall.Ret where
  granted n kind := decide (kind ≠ .index ∨ 6 ≤ n)
  other _ c :=
    match c with
    | .registerUriHandler _ => true
    | .mkdir _ => ()
    | .loadIndexFromNvs _ => ()
    | .saveIndexToNvs _ => ()
    | .wifiConnect => ()
    | .sntpInit => ()

theorem noIndexAtFirst_granted : ¬ Refused noIndexAtFirst 8 := by
  rintro ⟨n, hn, ⟨kind, hno⟩ | ⟨_, hno⟩⟩
  · have hlate : 6 ≤ n := by omega
    simp [noIndexAtFirst, hlate] at hno
  · simp [noIndexAtFirst] at hno

/--
**The relay recovers.**  Whatever failed in the attempts before: an address from which on nothing
is refused gets the relay running, and no event after it changes anything.
-/
theorem relay_recovers
    (answers : Answers Kind DeviceCall DeviceCall.Ret)
    (before later : List WifiEvent)
    (hgranted : ¬ Refused answers (afterWifi answers before).2.next) :
    Running (afterWifi answers (before ++ [.staGotIp])).1
      (afterWifi answers (before ++ [.staGotIp])).2.live ∧
    (afterWifi answers (before ++ .staGotIp :: later)).1 =
      (afterWifi answers (before ++ [.staGotIp])).1 ∧
    (afterWifi answers (before ++ .staGotIp :: later)).2.live =
      (afterWifi answers (before ++ [.staGotIp])).2.live := by
  have hsettled := (attempts_uses answers before 0 (Nat.le_refl 0)).ends.2
  have hfirst : Uses answers (afterWifi answers before).2.next Needs
      (fold wifiEventHandler (afterWifi answers before).1 [.staGotIp])
      (afterWifi answers before).2.live Running := by
    refine Uses.bind ?_ fun g' live' (h : Running g' live') => Uses.pure h
    rcases hsettled with hoff | hrunning
    · refine (gotIp_uses hoff).mono ?_
      rintro g' live' (⟨-, hrefused⟩ | h)
      · exact absurd hrefused hgranted
      · exact h
    · refine (wifiEventHandler_running hrunning _).mono ?_
      rintro g' live' ⟨rfl, rfl⟩
      exact hrunning
  have hrunning : Running (afterWifi answers (before ++ [.staGotIp])).1
      (afterWifi answers (before ++ [.staGotIp])).2.live := by
    rw [afterWifi_append]
    exact (hfirst _ (Nat.le_refl _)).ends.2
  generalize hg : afterWifi answers (before ++ [.staGotIp]) = reached at hrunning ⊢
  have hlater : Uses answers 0 Needs (fold wifiEventHandler reached.1 later) reached.2.live
      fun g live => g = reached.1 ∧ live = reached.2.live := by
    refine Uses.fold ?_ ⟨rfl, rfl⟩ later
    rintro _ event _ ⟨rfl, rfl⟩
    exact wifiEventHandler_running hrunning event
  have hend := (hlater reached.2.next (Nat.zero_le _)).ends.2
  rw [show before ++ WifiEvent.staGotIp :: later = before ++ [.staGotIp] ++ later by simp,
    afterWifi_append, hg]
  exact ⟨hrunning, hend⟩

theorem relay_recovers_memory :
    (afterWifi noIndexAtFirst [.staStart, .staGotIp]).2.live.card = 0 ∧
      Running (afterWifi noIndexAtFirst [.staStart, .staGotIp, .staGotIp]).1
        (afterWifi noIndexAtFirst [.staStart, .staGotIp, .staGotIp]).2.live := by
  have hnext : (afterWifi noIndexAtFirst [.staStart, .staGotIp]).2.next = 8 := by decide
  have hgranted :
      ¬ Refused noIndexAtFirst (afterWifi noIndexAtFirst [.staStart, .staGotIp]).2.next := by
    rw [hnext]
    exact noIndexAtFirst_granted
  exact ⟨by decide,
    (relay_recovers noIndexAtFirst [.staStart, .staGotIp] [.staDisconnected] hgranted).1⟩

end Lifecycle
end Relay
end WispRelay
