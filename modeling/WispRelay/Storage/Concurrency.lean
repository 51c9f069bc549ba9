import WispRelay.Library.CriticalSections
import WispRelay.Storage.AccessContracts

/-!
# Tasks that share the storage engine

The server task and the cleanup task call the storage functions at the same time.  Here any number
of tasks do so: they call `xSemaphoreTake` and `xSemaphoreGive` where the functions do, and the
scheduler may switch between any two accesses, with or without the lock.

* `EngineRun`: the runs of the tasks, access by access.
* `storage_calls_linearize`: every run does what the calls do one after the other, in the order in
  which they are completed; so that what is proved of the runs of `storageStep` holds of it.
* `accesses_in_bounds`: no access leaves the array, and but for the test of `initialized` only the
  owner of the lock touches the engine.
* `tasks_can_finish`: the tasks never block each other for good.
-/

namespace WispRelay
namespace Storage

open Interference CriticalSections Runs

/-- A completed operation. -/
abbrev Completed (ι : Type) := Completion ι StorageCall CallEnv StorageCall.Ret

/-- The tasks, the lock and the memory. -/
abbrev EngineSystem (ι α : Type) :=
  System ι StorageCall CallEnv StorageCall.Ret MemoryAccess MemoryAccess.Ret α Memory

/-- The operation as an input of `storageStep`. -/
def Completed.storageOp
    {ι : Type}
    (c : Completed ι) : StorageOp :=
  ⟨c.op, c.env⟩

/-- What it returned. -/
def Completed.storageResult
    {ι : Type}
    (c : Completed ι) : StorageResult :=
  ⟨c.op, c.result⟩

section Tasks

variable
  {ι α : Type}
  [DecidableEq ι]

/-- A run of tasks that start with an engine at rest. -/
abbrev EngineRun
    (lib : Libnostr)
    (progs : ι → Prog StorageCall StorageCall.Ret α)
    (w : StorageWorld) :
    List (Completed ι) → EngineSystem ι α → Prop :=
  Run (storageBody lib) memoryStep (System.started progs w.memory)

/-- A run of the same tasks with each operation one step of `storageCall`. -/
abbrev CallRun
    (lib : Libnostr)
    (progs : ι → Prog StorageCall StorageCall.Ret α)
    (w : StorageWorld) :
    List (Completed ι) → (ι → Prog StorageCall StorageCall.Ret α) → StorageWorld → Prop :=
  AtomicRun (fun call env w => storageCall lib env w call) progs w

omit [DecidableEq ι] in
/-- The functions implement the operations. -/
theorem storageBody_implements
    (lib : Libnostr) :
    Implements (storageBody lib) memoryStep (fun call env w => storageCall lib env w call)
      engineDiscipline HeldBy where
  steady := by
    rintro m w ⟨rfl, hinit⟩
    exact hinit
  performs := fun call env => storageBody_implementing lib call env

/-- A run of single steps is a run of the engine as a machine. -/
theorem CallRun.machine
    {lib : Libnostr}
    {progs now : ι → Prog StorageCall StorageCall.Ret α}
    {w w' : StorageWorld}
    {past : List (Completed ι)}
    (h : CallRun lib progs w past now w') :
    w' = finalState (storageStep lib) w (past.map Completed.storageOp) ∧
      trace (storageStep lib) w (past.map Completed.storageOp) =
        past.map (fun c => (c.storageOp, c.storageResult)) := by
  induction h with
  | start => exact ⟨rfl, rfl⟩
  | @step past now w' i call next env hrun hnow ih =>
      obtain ⟨rfl, htrace⟩ := ih
      rw [List.map_append, List.map_append, List.map_singleton, List.map_singleton,
        finalState_snoc, trace_snoc, htrace]
      exact ⟨rfl, rfl⟩

/--
**The storage calls are linearizable.**  However the tasks are scheduled, the operations they have
completed returned what the machine `storageStep` returns when it is given them in the order in
which they were completed: an operation is completed when it gives the lock back, or when it returns
without having taken it.  Every task is where it is after its own operations with these results, and
while no one holds the lock the memory is that of the machine.
-/
theorem storage_calls_linearize
    (lib : Libnostr)
    (progs : ι → Prog StorageCall StorageCall.Ret α)
    (w : StorageWorld)
    (hinit : w.engine.initialized = true)
    (past : List (Completed ι))
    (s : EngineSystem ι α)
    (hrun : EngineRun lib progs w past s) :
    let ops := past.map Completed.storageOp
    trace (storageStep lib) w ops = past.map (fun c => (c.storageOp, c.storageResult)) ∧
      CallRun lib progs w past s.programs (finalState (storageStep lib) w ops) ∧
      (s.owner = none → s.shared = (finalState (storageStep lib) w ops).memory) := by
  obtain ⟨w', hcalls, h⟩ := hrun.corresponds (storageBody_implements lib) ⟨rfl, hinit⟩
  obtain ⟨rfl, htrace⟩ := CallRun.machine hcalls
  exact ⟨htrace, hcalls, fun hfree => (h.free hfree).1⟩

/-- Two tasks: one saves a note, the other asks for it. -/
def savingTasks : Bool → Prog StorageCall StorageCall.Ret Unit
  | true => .call (.save (Sample.numbered 0)) fun _ => .done ()
  | false => .call (.eventExists (Sample.numbered 0).id) fun _ => .done ()

/-- The first gets the lock first; the machine returns what the two tasks got. -/
theorem storage_calls_linearize_two_tasks :
    let lib := Sample.library (Sample.notes 1)
    let w := (erasedFlash 1000 1814400 thousandSlots).world
    let env := CallEnv.undisturbed 1700000000
    let ops : List StorageOp :=
      [⟨.save (Sample.numbered 0), env⟩, ⟨.eventExists (Sample.numbered 0).id, env⟩]
    ∃ past s, EngineRun lib savingTasks w past s ∧ past.map Completed.storageOp = ops ∧
      trace (storageStep lib) w ops = past.map (fun c => (c.storageOp, c.storageResult)) := by
  intro lib w env ops
  have hbody := storageBody_implements lib
  have hstart : EngineRun lib savingTasks w [] (System.started savingTasks w.memory) := Run.start
  obtain ⟨m₁, hm₁, hsave⟩ :=
    hstart.can_call (i := true) (t := w) hbody ⟨rfl, rfl⟩ rfl rfl env
  obtain ⟨m₂, -, hask⟩ := hsave.can_call (i := false) hbody hm₁ rfl rfl env
  exact ⟨_, _, hask, rfl, (storage_calls_linearize lib savingTasks w rfl _ _ hask).1⟩

/--
**Memory safety and mutual exclusion.**  However the tasks are scheduled, every access stays inside
the array of records, and every access but the test of `initialized` is made by the task that holds
the lock.
-/
theorem accesses_in_bounds
    (lib : Libnostr)
    (progs : ι → Prog StorageCall StorageCall.Ret α)
    (w : StorageWorld)
    (hinit : w.engine.initialized = true)
    (past : List (Completed ι))
    (s : EngineSystem ι α)
    (hrun : EngineRun lib progs w past s)
    (i : ι)
    (call : StorageCall)
    (env : CallEnv)
    (c : MemoryAccess)
    (rest : c.Ret → EngineBody call.Ret)
    (next : call.Ret → Prog StorageCall StorageCall.Ret α)
    (htask : s.tasks i = .inside call env (.access c) rest next) :
    InBounds c s.shared ∧ (c ≠ .initialized → s.owner = some i) := by
  obtain ⟨hbounds, howner⟩ :=
    hrun.access_guarded (storageBody_implements lib) ⟨rfl, hinit⟩ htask
  exact ⟨hbounds, fun hlocked => howner.resolve_right hlocked⟩

/-- An engine with one record. -/
def oneRecord : StorageWorld where
  engine :=
    { index := [StorageIndexEntry.zero]
      indexCount := 1
      nextFileIndex := 1
      initialized := true
      defaultTtlSec := 1814400
      indexCount_le := by decide
      capacity_le := by decide }
  files := fun _ => none
  nvs := NvsStore.erased

/-- The second task looks for its event, and comes to the record. -/
theorem accesses_in_bounds_lookup :
    let lib := Sample.library (Sample.notes 1)
    ∃ s, EngineRun lib savingTasks oneRecord [] s ∧ s.owner = some false ∧
      InBounds (.slot 0) s.shared := by
  intro lib
  let env := CallEnv.undisturbed 1700000000
  have hstart : EngineRun lib savingTasks oneRecord []
      (System.started savingTasks oneRecord.memory) := Run.start
  have hcall := hstart.step (.call (i := false) env rfl)
  have htest := hcall.step (.access (i := false) rfl)
  have htake := htest.step (.take (i := false) rfl rfl)
  have hcount := htake.step (.access (i := false) rfl)
  obtain ⟨hbounds, howner⟩ := accesses_in_bounds lib savingTasks oneRecord rfl _ _ hcount false
    (.eventExists (Sample.numbered 0).id) env (.slot 0) _ _ rfl
  exact ⟨_, hcount, howner (fun h => by cases h), hbounds⟩

/--
**No deadlock.**  Wherever the scheduler has led finitely many tasks, it can lead them on until all
of them have ended and the lock is free: no path through a storage function keeps it.
-/
theorem tasks_can_finish
    [Finite ι]
    (lib : Libnostr)
    (progs : ι → Prog StorageCall StorageCall.Ret α)
    (w : StorageWorld)
    (hinit : w.engine.initialized = true)
    (past : List (Completed ι))
    (s : EngineSystem ι α)
    (hrun : EngineRun lib progs w past s) :
    ∃ later s', EngineRun lib progs w (past ++ later) s' ∧ s'.owner = none ∧
      ∀ i, s'.Ended i := by
  have : Nonempty CallEnv := ⟨CallEnv.undisturbed 0⟩
  exact hrun.can_finish (storageBody_implements lib) ⟨rfl, hinit⟩

/-- One task holds the lock, the other is on its way to it; both can end. -/
theorem tasks_can_finish_locked :
    let lib := Sample.library (Sample.notes 1)
    let w := (erasedFlash 1000 1814400 thousandSlots).world
    ∃ s, EngineRun lib savingTasks w [] s ∧ s.owner = some true ∧
      ∃ later s', EngineRun lib savingTasks w later s' ∧ s'.owner = none ∧ ∀ i, s'.Ended i := by
  intro lib w
  have hstart : EngineRun lib savingTasks w [] (System.started savingTasks w.memory) := Run.start
  have hcall := hstart.step (.call (i := true) (CallEnv.undisturbed 1700000000) rfl)
  have hother := hcall.step (.call (i := false) (CallEnv.undisturbed 1700000000) rfl)
  have htest := hother.step (.access (i := true) rfl)
  have hwaits := htest.step (.access (i := false) rfl)
  have htake := hwaits.step (.take (i := true) rfl rfl)
  exact ⟨_, htake, rfl, tasks_can_finish lib savingTasks w rfl _ _ htake⟩

end Tasks

end Storage
end WispRelay
