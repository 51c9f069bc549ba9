import WispRelay.Library.Runs
import WispRelay.Storage.Capacity

/-!
# The cleanup task

`storage_cleanup_task` sleeps for sixty seconds, purges what has expired, compacts the index
after every tenth purge, and starts again, until `cleanup_stop` is set.  `storage_destroy` sets
the flag, waits until the task has cleared its handle, and only then releases the engine, which
it does without the lock.

* `EngineTasks`: the task, a call of `storage_destroy` and the engine, step by step.
* `CallsEnd`: no other task calls the engine once its release has begun.
* `teardown_safe`: then the cleanup task does not touch it any more either, and all that is left of
  the engine is what `storageDestroy` says.
* `destroy_wait_ends`: four more steps of the task end the wait.
* `Schedule`: purges and compactions go by the seconds the task has slept.
-/

namespace WispRelay
namespace Storage

open Runs

/-! ## The tasks -/

/-- Where `storage_cleanup_task` is. -/
inductive CleanupPc where
  /-- `while (!engine->cleanup_stop)`. -/
  | test
  /-- `for (int i = 0; i < 60 && !engine->cleanup_stop; i++)`, each turn of it a second long. -/
  | delay (i : Nat)
  /-- `if (engine->cleanup_stop) break`. -/
  | check
  | purge
  | compact
  /-- `engine->cleanup_task = NULL`. -/
  | clear
  | deleted
deriving DecidableEq

/-- Where `storage_destroy` is. -/
inductive DestroyPc where
  | notCalled
  /-- `if (engine->cleanup_task)`. -/
  | stop
  /-- `while (engine->cleanup_task != NULL)`. -/
  | wait
  | persist
  | unregister
  | free
  | deleteLock
  | clearFlag
  | returned
deriving DecidableEq

/-- `storage_destroy` has started to release the engine. -/
def DestroyPc.releases : DestroyPc → Bool
  | .notCalled | .stop | .wait => false
  | _ => true

/--
The engine, its cleanup task and a call of `storage_destroy`.  The last three fields count what
the task has done.
-/
structure EngineTasks where
  world : StorageWorld
  cleanupStop : Bool
  /-- `cleanup_task` is not `NULL`. -/
  cleanupTask : Bool
  pc : CleanupPc
  cyclesSinceCompact : Nat
  destroy : DestroyPc
  seconds : Nat
  purges : Nat
  compactions : Nat

/-- After `storage_start_cleanup_task`, which may fail to create the task. -/
def storageStartCleanupTask
    (created : Bool)
    (world : StorageWorld) : EngineTasks where
  world := world
  cleanupStop := false
  cleanupTask := created
  pc := if created then .test else .deleted
  cyclesSinceCompact := 0
  destroy := .notCalled
  seconds := 0
  purges := 0
  compactions := 0

/-- One step of `storage_cleanup_task`. -/
def storageCleanupTask
    (lib : Libnostr)
    (env : CallEnv)
    (s : EngineTasks) : EngineTasks :=
  match s.pc with
  | .test => { s with pc := if s.cleanupStop then .clear else .delay 0 }
  | .delay i =>
      if i < 60 && !s.cleanupStop then { s with pc := .delay (i + 1), seconds := s.seconds + 1 }
      else { s with pc := .check }
  | .check => { s with pc := if s.cleanupStop then .clear else .purge }
  | .purge =>
      { s with
        world := (storagePurgeExpired lib env s.world).2
        pc := if 10 ≤ s.cyclesSinceCompact + 1 then .compact else .test
        cyclesSinceCompact := s.cyclesSinceCompact + 1
        purges := s.purges + 1 }
  | .compact =>
      { s with
        world := (storageCompactIndex env s.world).2
        pc := .test
        cyclesSinceCompact := 0
        compactions := s.compactions + 1 }
  | .clear => { s with pc := .deleted, cleanupTask := false }
  | .deleted => s

/-- The world with the array of the index freed. -/
def freeIndex
    (world : StorageWorld) : StorageWorld :=
  { world with
    engine :=
      { freshEngine 0 world.engine.defaultTtlSec (Nat.zero_le _) with initialized := true } }

/-- One step of `storage_destroy`. -/
def destroyStep
    (env : CallEnv)
    (s : EngineTasks) : EngineTasks :=
  match s.destroy with
  | .notCalled => { s with destroy := if s.world.engine.initialized then .stop else .returned }
  | .stop =>
      if s.cleanupTask then { s with cleanupStop := true, destroy := .wait }
      else { s with destroy := .persist }
  | .wait => { s with destroy := if s.cleanupTask then .wait else .persist }
  | .persist => { s with world := persist env s.world, destroy := .unregister }
  | .unregister => { s with destroy := .free }
  | .free => { s with world := freeIndex s.world, destroy := .deleteLock }
  | .deleteLock => { s with destroy := .clearFlag }
  | .clearFlag =>
      { s with
        world :=
          { s.world with
            engine := freshEngine 0 s.world.engine.defaultTtlSec (Nat.zero_le _) }
        destroy := .returned }
  | .returned => s

/-- What happens: a call by another task, or a step of one of the two. -/
inductive TaskEvent where
  | call (op : StorageOp)
  | cleanup (env : CallEnv)
  | destroy (env : CallEnv)

/-- The machine of the tasks; a call by another task is one step of the engine. -/
def tasksStep
    (lib : Libnostr)
    (s : EngineTasks) : TaskEvent → EngineTasks
  | .call op => { s with world := (storageStep lib s.world op).2 }
  | .cleanup env => storageCleanupTask lib env s
  | .destroy env => destroyStep env s

/-- The tasks after some events. -/
def afterTasks
    (lib : Libnostr)
    (s : EngineTasks)
    (events : List TaskEvent) : EngineTasks :=
  finalState (fun s event => ((), tasksStep lib s event)) s events

section Runs

variable
  {lib : Libnostr}

@[simp] theorem afterTasks_snoc
    (s : EngineTasks)
    (events : List TaskEvent)
    (event : TaskEvent) :
    afterTasks lib s (events ++ [event]) = tasksStep lib (afterTasks lib s events) event :=
  finalState_snoc _ s events event

theorem afterTasks_append
    (s : EngineTasks)
    (events later : List TaskEvent) :
    afterTasks lib s (events ++ later) = afterTasks lib (afterTasks lib s events) later :=
  finalState_append _ s events later

variable (lib) in
/--
The other tasks make no call once the release of the engine has begun.  The storage functions do not
check it: `storage_destroy` is called where the web server, whose task makes the calls, has not
started.
-/
def CallsEnd
    (start : EngineTasks)
    (events : List TaskEvent) : Prop :=
  ∀ front op rest, events = front ++ .call op :: rest →
    (afterTasks lib start front).destroy.releases = false

theorem CallsEnd.before
    {start : EngineTasks}
    {events : List TaskEvent}
    {event : TaskEvent}
    (h : CallsEnd lib start (events ++ [event])) :
    CallsEnd lib start events := by
  rintro front op rest rfl
  exact h front op (rest ++ [event]) (by simp)

theorem CallsEnd.last
    {start : EngineTasks}
    {events : List TaskEvent}
    {op : StorageOp}
    (h : CallsEnd lib start (events ++ [.call op])) :
    (afterTasks lib start events).destroy.releases = false :=
  h events op [] rfl

/-- A call before anything else. -/
theorem CallsEnd.of_first
    {start : EngineTasks}
    (hstart : start.destroy.releases = false)
    (op : StorageOp)
    {rest : List TaskEvent}
    (hnone : ∀ op, TaskEvent.call op ∉ rest) :
    CallsEnd lib start (.call op :: rest) := by
  intro front op' later hevents
  cases front with
  | nil => exact hstart
  | cons event front =>
      rw [List.cons_append, List.cons.injEq] at hevents
      exact absurd (hevents.2 ▸ List.mem_append_right _ List.mem_cons_self) (hnone op')

end Runs

/-! ## Teardown -/

section Teardown

variable
  {lib : Libnostr}
  {s : EngineTasks}

/-- The handle says whether the task is there, and nothing is released while it is. -/
structure TasksInv
    (s : EngineTasks) : Prop where
  handle : s.cleanupTask = false ↔ s.pc = .deleted
  gone : s.destroy.releases = true → s.cleanupTask = false
  initialized : s.destroy ≠ .returned → s.world.engine.initialized = true
  stopping : s.destroy = .wait → s.cleanupStop = true

theorem TasksInv.start
    {w : StorageWorld}
    (hinit : w.engine.initialized = true)
    (created : Bool) :
    TasksInv (storageStartCleanupTask created w) where
  handle := by cases created <;> simp [storageStartCleanupTask]
  gone := nofun
  initialized := fun _ => hinit
  stopping := nofun

/-- A task that is gone takes no step. -/
theorem storageCleanupTask_deleted
    (env : CallEnv)
    (hpc : s.pc = .deleted) :
    storageCleanupTask lib env s = s := by
  unfold storageCleanupTask
  rw [hpc]

theorem storageCleanupTask_destroy
    (env : CallEnv) :
    (storageCleanupTask lib env s).destroy = s.destroy := by
  unfold storageCleanupTask
  split
  all_goals first | rfl | (split <;> rfl)

theorem storageCleanupTask_cleanupStop
    (env : CallEnv) :
    (storageCleanupTask lib env s).cleanupStop = s.cleanupStop := by
  unfold storageCleanupTask
  split
  all_goals first | rfl | (split <;> rfl)

/-- The task does not stop the engine. -/
theorem storageCleanupTask_initialized
    (env : CallEnv) :
    (storageCleanupTask lib env s).world.engine.initialized = s.world.engine.initialized := by
  unfold storageCleanupTask
  split
  · rfl
  · split <;> rfl
  · rfl
  · exact (storageCall_config lib env s.world .purge).1
  · exact (storageCall_config lib env s.world .compact).1
  · rfl
  · rfl

/-- The handle is cleared by the last step of the task only. -/
theorem storageCleanupTask_handle
    (env : CallEnv)
    (h : s.cleanupTask = false ↔ s.pc = .deleted) :
    (storageCleanupTask lib env s).cleanupTask = false ↔
      (storageCleanupTask lib env s).pc = .deleted := by
  unfold storageCleanupTask
  split <;> rename_i hpc
  · rw [h, hpc]
    split <;> simp
  · split
    · rw [h, hpc]
      simp
    · rw [h, hpc]
      simp
  · rw [h, hpc]
    split <;> simp
  · rw [h, hpc]
    split <;> simp
  · rw [h, hpc]
    simp
  · simp
  · exact h

theorem TasksInv.step
    (h : TasksInv s)
    (event : TaskEvent) :
    TasksInv (tasksStep lib s event) := by
  cases event with
  | call op =>
      exact ⟨h.handle, h.gone, fun hreturned =>
        (storageCall_config lib op.env s.world op.call).1.trans (h.initialized hreturned),
        h.stopping⟩
  | cleanup env =>
      refine ⟨storageCleanupTask_handle env h.handle, ?_, ?_, ?_⟩
      · intro hreleases
        simp only [tasksStep, storageCleanupTask_destroy] at hreleases
        have hgone := h.gone hreleases
        simp only [tasksStep, storageCleanupTask_deleted env (h.handle.mp hgone)]
        exact hgone
      · intro hreturned
        simp only [tasksStep, storageCleanupTask_destroy] at hreturned
        exact (storageCleanupTask_initialized env).trans (h.initialized hreturned)
      · intro hwait
        simp only [tasksStep, storageCleanupTask_destroy] at hwait
        exact (storageCleanupTask_cleanupStop env).trans (h.stopping hwait)
  | destroy env =>
      obtain ⟨hhandle, hgone, hinit, hstopping⟩ := h
      simp only [tasksStep, destroyStep]
      cases hpc : s.destroy with
      | notCalled =>
          have hstarted := hinit (by simp [hpc])
          simp only [hstarted, if_true]
          exact ⟨hhandle, by simp [DestroyPc.releases], fun _ => hstarted, by simp⟩
      | stop =>
          have hstarted := hinit (by simp [hpc])
          cases htask : s.cleanupTask with
          | true =>
              exact ⟨by simpa [htask] using hhandle, by simp [DestroyPc.releases], fun _ => hstarted,
                fun _ => rfl⟩
          | false =>
              exact ⟨by simpa [htask] using hhandle, fun _ => rfl, fun _ => hstarted, by simp⟩
      | wait =>
          have hstarted := hinit (by simp [hpc])
          cases htask : s.cleanupTask with
          | true =>
              exact ⟨by simpa [htask] using hhandle, by simp [DestroyPc.releases], fun _ => hstarted,
                fun _ => hstopping hpc⟩
          | false =>
              exact ⟨by simpa [htask] using hhandle, fun _ => rfl, fun _ => hstarted, by simp⟩
      | free =>
          rw [hpc] at hgone
          exact ⟨hhandle, fun _ => hgone rfl, fun _ => rfl, by simp⟩
      | clearFlag =>
          rw [hpc] at hgone
          exact ⟨hhandle, fun _ => hgone rfl, fun h => absurd rfl h, by simp⟩
      | returned =>
          rw [hpc] at hgone
          exact ⟨hhandle, fun _ => hgone rfl, fun h => absurd hpc h, fun h => by simp [hpc] at h⟩
      | _ =>
          rw [hpc] at hgone
          exact ⟨hhandle, fun _ => hgone rfl, fun _ => hinit (by simp [hpc]), by simp⟩

/-- The cleanup task leaves an engine that is being released alone. -/
theorem tasksStep_released
    (h : TasksInv s)
    (hreleases : s.destroy.releases = true)
    (env : CallEnv) :
    tasksStep lib s (.cleanup env) = s :=
  storageCleanupTask_deleted env (h.handle.mp (h.gone hreleases))

variable (lib) in
/-- What `storage_destroy` has made of the world it found when the wait was over. -/
def Released
    (start : EngineTasks)
    (events : List TaskEvent)
    (s : EngineTasks) : Prop :=
  ∃ front env rest, events = front ++ .destroy env :: rest ∧
    (afterTasks lib start front).destroy = .persist ∧
      match s.destroy with
      | .unregister | .free => s.world = persist env (afterTasks lib start front).world
      | .deleteLock | .clearFlag =>
          s.world = freeIndex (persist env (afterTasks lib start front).world)
      | .returned => s.world = storageDestroy env (afterTasks lib start front).world
      | _ => False

/-- The release of the engine begins with the index. -/
theorem destroy_persist_of_releases
    (h : TasksInv s)
    (hbefore : s.destroy.releases = false)
    {event : TaskEvent}
    (hreleases : (tasksStep lib s event).destroy.releases = true) :
    (tasksStep lib s event).destroy = .persist := by
  cases event with
  | call op =>
      simp only [tasksStep, hbefore] at hreleases
      cases hreleases
  | cleanup env =>
      simp only [tasksStep, storageCleanupTask_destroy, hbefore] at hreleases
      cases hreleases
  | destroy env =>
      simp only [tasksStep, destroyStep] at hreleases ⊢
      cases hpc : s.destroy with
      | notCalled =>
          have hstarted := h.initialized (by simp [hpc])
          simp [hpc, hstarted, DestroyPc.releases] at hreleases
      | stop => cases htask : s.cleanupTask <;> simp_all [DestroyPc.releases]
      | wait => cases htask : s.cleanupTask <;> simp_all [DestroyPc.releases]
      | _ =>
          rw [hpc] at hbefore
          cases hbefore

/-- More events that leave the state alone. -/
theorem Released.later
    {start : EngineTasks}
    {events : List TaskEvent}
    (h : Released lib start events s)
    (event : TaskEvent) :
    Released lib start (events ++ [event]) s := by
  obtain ⟨front, env, rest, rfl, hpersist, hworld⟩ := h
  exact ⟨front, env, rest ++ [event], by simp, hpersist, hworld⟩

/-- A step of `storage_destroy` takes what it has made one step further. -/
theorem Released.destroy
    {start : EngineTasks}
    {events : List TaskEvent}
    (hstart : ∀ front, TasksInv (afterTasks lib start front))
    (hs : s = afterTasks lib start events)
    (hreleases : s.destroy.releases = true)
    (h : s.destroy ≠ .persist → Released lib start events s)
    (env : CallEnv) :
    Released lib start (events ++ [.destroy env]) (destroyStep env s) := by
  cases hpc : s.destroy with
  | notCalled | stop | wait =>
      rw [hpc] at hreleases
      cases hreleases
  | persist =>
      -- the wait is over: this step is the first that changes the world
      refine ⟨events, env, [], rfl, hs ▸ hpc, ?_⟩
      simp [destroyStep, hpc, ← hs]
  | returned =>
      have heq : destroyStep env s = s := by
        unfold destroyStep
        rw [hpc]
      rw [heq]
      exact (h (by rw [hpc]; nofun)).later _
  | unregister =>
      obtain ⟨front, at', rest, hevents, hpersist, hworld⟩ := h (by rw [hpc]; nofun)
      refine ⟨front, at', rest ++ [.destroy env], by simp [hevents], hpersist, ?_⟩
      simpa [destroyStep, hpc] using hworld
  | free =>
      obtain ⟨front, at', rest, hevents, hpersist, hworld⟩ := h (by rw [hpc]; nofun)
      refine ⟨front, at', rest ++ [.destroy env], by simp [hevents], hpersist, ?_⟩
      simp only [hpc] at hworld
      simp [destroyStep, hpc, hworld]
  | deleteLock =>
      obtain ⟨front, at', rest, hevents, hpersist, hworld⟩ := h (by rw [hpc]; nofun)
      refine ⟨front, at', rest ++ [.destroy env], by simp [hevents], hpersist, ?_⟩
      simp only [hpc] at hworld
      simp [destroyStep, hpc, hworld]
  | clearFlag =>
      obtain ⟨front, at', rest, hevents, hpersist, hworld⟩ := h (by rw [hpc]; nofun)
      refine ⟨front, at', rest ++ [.destroy env], by simp [hevents], hpersist, ?_⟩
      have hinit : (afterTasks lib start front).world.engine.initialized = true :=
        (hstart front).initialized (by rw [hpersist]; nofun)
      simp only [hpc] at hworld
      simp [destroyStep, hpc, hworld, storageDestroy, hinit, freeIndex, freshEngine, persist]

variable (lib) in
theorem tasksInv_after
    {w : StorageWorld}
    (hinit : w.engine.initialized = true)
    (created : Bool)
    (events : List TaskEvent) :
    TasksInv (afterTasks lib (storageStartCleanupTask created w) events) := by
  induction events using List.reverseRecOn with
  | nil => exact TasksInv.start hinit created
  | append_singleton events event ih =>
      rw [afterTasks_snoc]
      exact ih.step event

/-- From the first step that persists the index on, the world is what `storage_destroy` made. -/
theorem released
    {w : StorageWorld}
    (hinit : w.engine.initialized = true)
    (created : Bool)
    (events : List TaskEvent) :
    let start := storageStartCleanupTask created w
    let s := afterTasks lib start events
    CallsEnd lib start events → s.destroy.releases = true → s.destroy ≠ .persist →
      Released lib start events s := by
  induction events using List.reverseRecOn with
  | nil => exact fun _ => nofun
  | append_singleton events event ih =>
      intro start s hcalls
      have hs : s = tasksStep lib (afterTasks lib start events) event :=
        afterTasks_snoc start events event
      have hinv := tasksInv_after lib hinit created
      rw [hs]
      cases hbefore : (afterTasks lib start events).destroy.releases with
      | false =>
        intro hreleases hpersist
        exact absurd (destroy_persist_of_releases (hinv events) hbefore hreleases) hpersist
      | true =>
        cases event with
        | destroy env =>
            intro _ _
            exact Released.destroy hinv rfl hbefore (ih hcalls.before hbefore) env
        | call op =>
            rw [hcalls.last] at hbefore
            cases hbefore
        | cleanup env =>
            have hsame : tasksStep lib (afterTasks lib start events) (.cleanup env) =
                afterTasks lib start events :=
              tasksStep_released (hinv events) hbefore env
            rw [hsame]
            intro hreleases hpersist
            exact (ih hcalls.before hreleases hpersist).later _

end Teardown

/--
When the other tasks make no call once the release of the engine has begun: from then on the cleanup
task is gone and its steps change nothing, and when `storage_destroy` returns, the world is what
`storageDestroy` makes of the one found when the wait was over.
-/
theorem teardown_safe
    (lib : Libnostr)
    {w : StorageWorld}
    (hinit : w.engine.initialized = true)
    (created : Bool)
    (events : List TaskEvent)
    (hcalls : CallsEnd lib (storageStartCleanupTask created w) events)
    (hreleases : (afterTasks lib (storageStartCleanupTask created w) events).destroy.releases =
      true) :
    let start := storageStartCleanupTask created w
    let s := afterTasks lib start events
    s.cleanupTask = false ∧
      (∀ env, tasksStep lib s (.cleanup env) = s) ∧
      (s.destroy = .returned →
        ∃ front env rest, events = front ++ .destroy env :: rest ∧
          (afterTasks lib start front).destroy = .persist ∧
          s.world = storageDestroy env (afterTasks lib start front).world) := by
  intro start s
  have hinv : TasksInv s := tasksInv_after lib hinit created events
  refine ⟨hinv.gone hreleases, fun env => tasksStep_released hinv hreleases env, ?_⟩
  intro hreturned
  obtain ⟨front, env, rest, hevents, hpersist, hworld⟩ := released hinit created events hcalls
    hreleases (by rw [show s.destroy = _ from hreturned]; nofun)
  refine ⟨front, env, rest, hevents, hpersist, ?_⟩
  rw [show (afterTasks lib start events).destroy = _ from hreturned] at hworld
  exact hworld

/-- A note is saved; the task is stopped in its first second, and the engine released. -/
theorem teardown_safe_first_second :
    let lib := Sample.library (Sample.notes 1)
    let w := (erasedFlash 1000 1814400 thousandSlots).world
    let save := TaskEvent.call ⟨.save (Sample.numbered 0), CallEnv.undisturbed 1700000000⟩
    let cleanup := TaskEvent.cleanup (CallEnv.undisturbed 1700000000)
    let destroy := TaskEvent.destroy (CallEnv.undisturbed 1700000000)
    let s := afterTasks lib (storageStartCleanupTask true w)
      (save :: ([cleanup, destroy, destroy, cleanup, cleanup, cleanup, cleanup] ++
        List.replicate 6 destroy))
    s.cleanupTask = false ∧ tasksStep lib s cleanup = s ∧ s.destroy = .returned ∧
      ∃ env w', s.world = storageDestroy env w' := by
  intro lib w save cleanup destroy s
  have hcalls : CallsEnd lib (storageStartCleanupTask true w) (save ::
      ([cleanup, destroy, destroy, cleanup, cleanup, cleanup, cleanup] ++
        List.replicate 6 destroy)) :=
    CallsEnd.of_first rfl _ (by simp [cleanup, destroy])
  obtain ⟨hgone, hstill, hreturned⟩ := teardown_safe lib (w := w) rfl true _ hcalls
    (by decide +kernel)
  have hended : s.destroy = .returned := by decide +kernel
  obtain ⟨front, env, rest, -, -, hworld⟩ := hreturned hended
  exact ⟨hgone, hstill _, hended, env, _, hworld⟩

/-! ## The wait -/

/-- How many steps the task has left at most, once `cleanup_stop` is set. -/
def CleanupPc.left : CleanupPc → Nat
  | .purge => 4
  | .delay _ | .compact => 3
  | .test | .check => 2
  | .clear => 1
  | .deleted => 0

/-- The event is a step of the task. -/
def TaskEvent.isCleanup : TaskEvent → Bool
  | .cleanup _ => true
  | _ => false

section Wait

variable
  {lib : Libnostr}
  {s : EngineTasks}

variable (lib) in
/-- A step of a task that was told to stop. -/
theorem storageCleanupTask_left
    (env : CallEnv)
    (hstop : s.cleanupStop = true) :
    (storageCleanupTask lib env s).pc.left ≤ s.pc.left - 1 := by
  unfold storageCleanupTask
  cases hpc : s.pc with
  | purge =>
      dsimp only
      split <;> simp [CleanupPc.left]
  | _ => simp [hstop, hpc, CleanupPc.left]

/-- `storage_destroy` never takes the stop back, and leaves the task alone. -/
theorem destroyStep_stopping
    (env : CallEnv)
    (hstop : s.cleanupStop = true) :
    (destroyStep env s).cleanupStop = true ∧ (destroyStep env s).pc = s.pc := by
  unfold destroyStep
  split
  all_goals first | exact ⟨hstop, rfl⟩ | (split <;> exact ⟨by first | rfl | exact hstop, rfl⟩)

variable (lib) in
/-- A task that was told to stop, and what is left for it to do after some events. -/
theorem left_after
    (hstop : s.cleanupStop = true)
    (later : List TaskEvent) :
    (afterTasks lib s later).cleanupStop = true ∧
      (afterTasks lib s later).pc.left ≤ s.pc.left - later.countP TaskEvent.isCleanup := by
  induction later using List.reverseRecOn with
  | nil => exact ⟨hstop, Nat.le_refl _⟩
  | append_singleton later event ih =>
      obtain ⟨hset, hleft⟩ := ih
      rw [afterTasks_snoc]
      cases event with
      | call op => exact ⟨hset, by simpa [tasksStep, TaskEvent.isCleanup] using hleft⟩
      | cleanup env =>
          refine ⟨(storageCleanupTask_cleanupStop env).trans hset, ?_⟩
          have hone := storageCleanupTask_left lib env hset
          simp only [tasksStep, List.countP_append, List.countP_singleton, TaskEvent.isCleanup,
            if_true]
          omega
      | destroy env =>
          obtain ⟨hset', hpc⟩ := destroyStep_stopping env hset
          refine ⟨hset', ?_⟩
          simpa [tasksStep, hpc, TaskEvent.isCleanup] using hleft

variable (lib) in
/-- A call of `storage_destroy` that waits goes on waiting or starts to release the engine. -/
theorem tasksStep_waits
    (event : TaskEvent)
    (h : s.destroy = .wait ∨ s.destroy.releases = true) :
    (tasksStep lib s event).destroy = .wait ∨
      (tasksStep lib s event).destroy.releases = true := by
  cases event with
  | call op => exact h
  | cleanup env =>
      simp only [tasksStep, storageCleanupTask_destroy]
      exact h
  | destroy env =>
      simp only [tasksStep, destroyStep]
      cases hpc : s.destroy with
      | notCalled | stop =>
          rw [hpc] at h
          rcases h with h | h <;> cases h
      | wait => cases htask : s.cleanupTask <;> simp [DestroyPc.releases]
      | returned => exact Or.inr (by rw [hpc]; rfl)
      | _ => exact Or.inr rfl

variable (lib) in
theorem waits_after
    (later : List TaskEvent)
    (h : s.destroy = .wait ∨ s.destroy.releases = true) :
    (afterTasks lib s later).destroy = .wait ∨
      (afterTasks lib s later).destroy.releases = true := by
  induction later using List.reverseRecOn with
  | nil => exact h
  | append_singleton later event ih =>
      rw [afterTasks_snoc]
      exact tasksStep_waits lib event ih

/-- The engine is released by the next step of a call of `storage_destroy` that need not wait. -/
theorem releases_of_gone
    (env : CallEnv)
    (hgone : s.cleanupTask = false)
    (h : s.destroy = .wait ∨ s.destroy.releases = true) :
    (tasksStep lib s (.destroy env)).destroy.releases = true := by
  rcases h with hwait | hreleases
  · simp [tasksStep, destroyStep, hwait, hgone, DestroyPc.releases]
  · rcases tasksStep_waits lib (.destroy env) (Or.inr hreleases) with h | h
    · simp only [tasksStep, destroyStep] at h
      cases hpc : s.destroy <;> simp_all [DestroyPc.releases]
    · exact h

end Wait

/--
`storage_destroy` does not wait for ever: whatever the task was doing when it was told to stop,
and however its steps mix with others, four more of them clear the handle, and the next look at
it ends the wait.
-/
theorem destroy_wait_ends
    (lib : Libnostr)
    {w : StorageWorld}
    (hinit : w.engine.initialized = true)
    (created : Bool)
    (events later : List TaskEvent)
    (hwait : (afterTasks lib (storageStartCleanupTask created w) events).destroy = .wait)
    (hsteps : 4 ≤ later.countP TaskEvent.isCleanup)
    (env : CallEnv) :
    let s := afterTasks lib (storageStartCleanupTask created w) (events ++ later)
    s.cleanupTask = false ∧ (tasksStep lib s (.destroy env)).destroy.releases = true := by
  intro s
  have hinv := tasksInv_after lib hinit created
  have hs : s = afterTasks lib (afterTasks lib (storageStartCleanupTask created w) events) later :=
    afterTasks_append _ events later
  obtain ⟨-, hleft⟩ := left_after lib ((hinv events).stopping hwait) later
  have hdeleted : s.pc = .deleted := by
    have hfour : (afterTasks lib (storageStartCleanupTask created w) events).pc.left ≤ 4 := by
      cases (afterTasks lib (storageStartCleanupTask created w) events).pc <;>
        simp [CleanupPc.left]
    have hzero : s.pc.left = 0 := by
      rw [hs]
      omega
    cases hpc : s.pc <;> simp [hpc, CleanupPc.left] at hzero
    rfl
  have hgone : s.cleanupTask = false := (hinv (events ++ later)).handle.mpr hdeleted
  refine ⟨hgone, releases_of_gone env hgone ?_⟩
  rw [hs]
  exact waits_after lib later (Or.inl hwait)

/-- A task that was asleep when it was told to stop. -/
theorem destroy_wait_ends_asleep :
    let lib := Sample.library []
    let w := (erasedFlash 1000 1814400 thousandSlots).world
    let cleanup := TaskEvent.cleanup (CallEnv.undisturbed 1700000000)
    let destroy := TaskEvent.destroy (CallEnv.undisturbed 1700000000)
    (afterTasks lib (storageStartCleanupTask true w)
      ([cleanup, destroy, destroy] ++ List.replicate 4 cleanup)).cleanupTask = false := by
  intro lib w cleanup destroy
  exact (destroy_wait_ends lib (w := w) rfl true [cleanup, destroy, destroy]
    (List.replicate 4 cleanup) rfl (by decide) (CallEnv.undisturbed 1700000000)).1

/-! ## The schedule -/

/-- The seconds slept since the last purge. -/
def CleanupPc.slept : CleanupPc → Nat
  | .delay i => i
  | .check | .purge => 60
  | _ => 0

/--
Until the task is told to stop there is a purge for every sixty seconds it has slept, and a
compaction after every tenth purge.
-/
structure Schedule
    (s : EngineTasks) : Prop where
  minutes : s.cleanupStop = false → s.seconds = 60 * s.purges + s.pc.slept
  slept_le : s.pc.slept ≤ 60
  stopped : s.pc = .clear → s.cleanupStop = true
  tens : s.purges = 10 * s.compactions + s.cyclesSinceCompact
  cycles_lt : s.pc ≠ .compact → s.cyclesSinceCompact < 10
  cycles_eq : s.pc = .compact → s.cyclesSinceCompact = 10

namespace Schedule

variable
  {lib : Libnostr}
  {s : EngineTasks}

theorem start
    (created : Bool)
    (w : StorageWorld) :
    Schedule (storageStartCleanupTask created w) where
  minutes := by cases created <;> simp [storageStartCleanupTask, CleanupPc.slept]
  slept_le := by cases created <;> simp [storageStartCleanupTask, CleanupPc.slept]
  stopped := by cases created <;> simp [storageStartCleanupTask]
  tens := rfl
  cycles_lt := fun _ => by simp [storageStartCleanupTask]
  cycles_eq := by cases created <;> simp [storageStartCleanupTask]

theorem cleanup
    (h : Schedule s)
    (env : CallEnv) :
    Schedule (storageCleanupTask lib env s) := by
  obtain ⟨hminutes, hslept, hstopped, htens, hlt, heq⟩ := h
  cases hpc : s.pc with
  | test =>
      have hcycles := hlt (by rw [hpc]; nofun)
      cases hstop : s.cleanupStop <;>
        constructor <;> simp_all [storageCleanupTask, CleanupPc.slept]
  | delay i =>
      have hcycles := hlt (by rw [hpc]; nofun)
      simp only [hpc, CleanupPc.slept] at hminutes hslept
      by_cases hturn : (decide (i < 60) && !s.cleanupStop) = true
      · simp only [Bool.and_eq_true, decide_eq_true_eq, Bool.not_eq_true'] at hturn
        constructor
        case minutes => simp_all [storageCleanupTask, CleanupPc.slept]; omega
        all_goals simp_all [storageCleanupTask, CleanupPc.slept]
      · -- the loop ends after sixty turns, unless the task was told to stop
        have hsixty : s.cleanupStop = false → i = 60 := by
          intro hstop
          simp [hstop] at hturn
          omega
        have hend : storageCleanupTask lib env s = { s with pc := .check } := by
          simp only [storageCleanupTask, hpc]
          rw [if_neg hturn]
        rw [hend]
        refine ⟨fun hstop => ?_, Nat.le_refl _, nofun, htens, fun _ => hcycles, nofun⟩
        simpa [CleanupPc.slept, hsixty hstop] using hminutes hstop
  | check =>
      have hcycles := hlt (by rw [hpc]; nofun)
      cases hstop : s.cleanupStop <;>
        constructor <;> simp_all [storageCleanupTask, CleanupPc.slept]
  | purge =>
      have hcycles := hlt (by rw [hpc]; nofun)
      simp only [hpc, CleanupPc.slept] at hminutes
      by_cases hten : 10 ≤ s.cyclesSinceCompact + 1
      · constructor <;> simp [storageCleanupTask, hpc, hten, CleanupPc.slept] <;> omega
      · constructor <;> simp [storageCleanupTask, hpc, hten, CleanupPc.slept] <;> omega
  | compact =>
      have hcycles := heq hpc
      simp only [hpc, CleanupPc.slept] at hminutes
      constructor <;> simp [storageCleanupTask, hpc, CleanupPc.slept] <;> omega
  | clear =>
      have hstop := hstopped hpc
      have hcycles := hlt (by rw [hpc]; nofun)
      constructor <;> simp [storageCleanupTask, hpc, hstop, CleanupPc.slept] <;> omega
  | deleted =>
      rw [storageCleanupTask_deleted env hpc]
      exact ⟨hminutes, hslept, hstopped, htens, hlt, heq⟩

theorem step
    (h : Schedule s)
    {event : TaskEvent}
    (hevent : ∀ env, event ≠ .destroy env) :
    Schedule (tasksStep lib s event) := by
  cases event with
  | call op => exact ⟨h.minutes, h.slept_le, h.stopped, h.tens, h.cycles_lt, h.cycles_eq⟩
  | cleanup env => exact h.cleanup env
  | destroy env => exact absurd rfl (hevent env)

/-- Ten purges and a compaction after one of them take at most 601 seconds of sleep. -/
theorem compacted
    {s₀ : EngineTasks}
    (h₀ : Schedule s₀)
    (h : Schedule s)
    (hrunning₀ : s₀.cleanupStop = false)
    (hrunning : s.cleanupStop = false)
    (hslept : s₀.seconds + 601 ≤ s.seconds) :
    s₀.purges < 10 * s.compactions := by
  have hbefore := h₀.minutes hrunning₀
  have hafter := h.minutes hrunning
  have htens := h.tens
  have hle := h.slept_le
  by_cases hpc : s.pc = .compact
  · have hcycles := h.cycles_eq hpc
    rw [hpc] at hafter
    simp only [CleanupPc.slept] at hafter
    omega
  · have hcycles := h.cycles_lt hpc
    omega

end Schedule

end Storage
end WispRelay
