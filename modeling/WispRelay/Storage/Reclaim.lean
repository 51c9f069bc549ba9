import WispRelay.Storage.CleanupTask

/-!
# Reclaimed records

A record that was deleted or has expired stays in the index until the cleanup task has purged it
and then compacted the index.

* `tasks_run`: until `storage_destroy` is called, the tasks run the engine as `flashStep` does, so
  that its invariants hold beside the cleanup task.
* `due_records_leave`: after 601 more seconds of sleep no record that was due is left.
* `reclaimed_room`: the records in use are then at most those that were not due and the new ones.
-/

namespace WispRelay
namespace Storage

open Runs

/-! ## The tasks as runs of the engine -/

/-- The event is a save. -/
def TaskEvent.isSave : TaskEvent → Bool
  | .call op => (FlashOp.run op).isSave
  | _ => false

/-- `storage_destroy` is not called. -/
def Running
    (events : List TaskEvent) : Prop :=
  ∀ env, TaskEvent.destroy env ∉ events

theorem Running.before
    {events later : List TaskEvent}
    (h : Running (events ++ later)) :
    Running events :=
  fun env hmem => h env (List.mem_append_left _ hmem)

theorem Running.last
    {events : List TaskEvent}
    {event : TaskEvent}
    (h : Running (events ++ [event]))
    (env : CallEnv) :
    event ≠ .destroy env := by
  rintro rfl
  exact h env (by simp)

section Engine

variable
  {lib : Libnostr}
  {s : EngineTasks}

variable (lib) in
/-- What an event makes of the world is what at most one call makes of it. -/
theorem tasksStep_world
    {event : TaskEvent}
    (hevent : ∀ env, event ≠ .destroy env) :
    (tasksStep lib s event).world = s.world ∨
      ∃ op : StorageOp, (FlashOp.run op).isSave = event.isSave ∧
        (tasksStep lib s event).world = (storageStep lib s.world op).2 := by
  cases event with
  | call op => exact Or.inr ⟨op, rfl, rfl⟩
  | cleanup env =>
      simp only [tasksStep, storageCleanupTask]
      split
      · exact Or.inl rfl
      · split <;> exact Or.inl rfl
      · exact Or.inl rfl
      · exact Or.inr ⟨⟨.purge, env⟩, rfl, rfl⟩
      · exact Or.inr ⟨⟨.compact, env⟩, rfl, rfl⟩
      · exact Or.inl rfl
      · exact Or.inl rfl
  | destroy env => exact absurd rfl (hevent env)

variable (lib) in
/-- Nothing calls off the task while `storage_destroy` is not called. -/
theorem tasksStep_running
    {event : TaskEvent}
    (hevent : ∀ env, event ≠ .destroy env) :
    (tasksStep lib s event).cleanupStop = s.cleanupStop ∧
      (tasksStep lib s event).destroy = s.destroy := by
  cases event with
  | call op => exact ⟨rfl, rfl⟩
  | cleanup env => exact ⟨storageCleanupTask_cleanupStop env, storageCleanupTask_destroy env⟩
  | destroy env => exact absurd rfl (hevent env)

/-- Runs of the engine after a history with restarts. -/
theorem Durable.runs
    {capacity : Nat}
    {past : List FlashOp}
    (h : Durable capacity past)
    (ops : List StorageOp) :
    Durable capacity (past ++ ops.map FlashOp.run) := by
  intro front stop env ttl later hsplit
  rcases List.append_eq_append_iff.mp hsplit with ⟨middle, hfront, hrest⟩ | ⟨middle, hpast, hrest⟩
  · -- no restart is among the runs
    have hmem : FlashOp.restart stop env ttl ∈ ops.map FlashOp.run := by
      rw [hrest]
      simp
    obtain ⟨op, -, hop⟩ := List.mem_map.mp hmem
    cases hop
  · cases middle with
    | nil =>
        have hmem : FlashOp.restart stop env ttl ∈ ops.map FlashOp.run := by
          rw [List.nil_append] at hrest
          rw [← hrest]
          simp
        obtain ⟨op, -, hop⟩ := List.mem_map.mp hmem
        cases hop
    | cons op middle =>
        rw [List.cons_append, List.cons.injEq] at hrest
        exact h front stop env ttl middle (hrest.1 ▸ hpast)

end Engine

/--
The cleanup task and the calls of the others, until `storage_destroy` is called, are a run of the
engine with a save for each save.
-/
theorem tasks_run
    (lib : Libnostr)
    (w : LoggedWorld)
    (events : List TaskEvent)
    (hrunning : Running events) :
    let s := afterTasks lib (storageStartCleanupTask true w.world) events
    Schedule s ∧ s.cleanupStop = false ∧ s.destroy = .notCalled ∧
      ∃ ops : List StorageOp,
        s.world = (finalState (flashStep lib) w (ops.map FlashOp.run)).world ∧
          flashSaves (ops.map FlashOp.run) ≤ events.countP TaskEvent.isSave := by
  induction events using List.reverseRecOn with
  | nil => exact ⟨Schedule.start true w.world, rfl, rfl, [], rfl, Nat.le_refl 0⟩
  | append_singleton events event ih =>
      obtain ⟨hschedule, hstop, hcalled, ops, hworld, hsaves⟩ := ih hrunning.before
      intro s
      have hs : s = tasksStep lib _ event := afterTasks_snoc _ events event
      have hevent := hrunning.last
      obtain ⟨hstop', hcalled'⟩ := tasksStep_running lib hevent
      rw [hs]
      refine ⟨hschedule.step hevent, hstop'.trans hstop, hcalled'.trans hcalled, ?_⟩
      rcases tasksStep_world lib hevent with hsame | ⟨op, hsave, hstep⟩
      · refine ⟨ops, hsame.trans hworld, hsaves.trans ?_⟩
        rw [List.countP_append]
        omega
      · refine ⟨ops ++ [op], ?_, ?_⟩
        · rw [hstep, hworld, List.map_append, List.map_singleton, finalState_snoc]
          rfl
        · rw [List.countP_append, List.countP_singleton, List.map_append, List.map_singleton,
            flashSaves, List.countP_append, List.countP_singleton, ← hsave]
          exact Nat.add_le_add_right hsaves _

/-! ## Records that are due -/

/-- The record is deleted, or has expired at a time. -/
def Due
    (t : UInt32)
    (e : StorageIndexEntry) : Prop :=
  e.isDeleted = true ∨ e.isExpired t = true

instance (t : UInt32) (e : StorageIndexEntry) : Decidable (Due t e) :=
  inferInstanceAs (Decidable (_ ∨ _))

/-- The running number is that of a record of the engine that is due. -/
def NumberDue
    (t : UInt32)
    (engine : StorageEngine)
    (fileIndex : UInt32) : Prop :=
  ∃ e ∈ engine.visible, Due t e ∧ e.fileIndex = fileIndex

section Effects

variable
  {lib : Libnostr}
  {env : CallEnv}
  {world world' : StorageWorld}
  {call : StorageCall}
  {saved : Option NostrEvent}

/-- A record in use after a call was in use before, perhaps live, or is the one just saved. -/
theorem StorageEffect.origin
    (heffect : StorageEffect lib env world call saved world')
    {e' : StorageIndexEntry}
    (hmem : e' ∈ world'.engine.visible) :
    (∃ e ∈ world.engine.visible, e' = e ∨ e' = e.markDeleted) ∨
      (saved.isSome = true ∧ e'.fileIndex = world.engine.nextFileIndex) := by
  have hsweep : ∀ {Q : StorageIndexEntry → Prop} {entries : List StorageIndexEntry}
      {files files' : Files},
      Swept lib env Q world.engine.visible entries files files' → e' ∈ entries →
      ∃ e ∈ world.engine.visible, e' = e ∨ e' = e.markDeleted := by
    intro Q entries files files' hswept hentry
    obtain ⟨i, hi⟩ := List.mem_iff_getElem?.mp hentry
    have hbound : i < world.engine.visible.length := by
      rw [← hswept.length_eq]
      exact (List.getElem?_eq_some_iff.mp hi).1
    obtain ⟨e, he, hmark⟩ := hswept.getElem? (List.getElem?_eq_getElem hbound)
    rw [hi, Option.some.injEq] at he
    subst he
    refine ⟨_, List.getElem_mem hbound, ?_⟩
    rcases hmark with hsame | ⟨-, -, hmarked⟩
    · exact Or.inl hsame
    · exact Or.inr hmarked
  cases heffect with
  | idle => exact Or.inl ⟨e', hmem, Or.inl rfl⟩
  | discard event leftover hgone => exact Or.inl ⟨e', hmem, Or.inl rfl⟩
  | append event json hroom hfresh hjson =>
      rw [persistEveryTenth_engine] at hmem
      simp only [appendWorld, visible_append, List.mem_append, List.mem_singleton] at hmem
      rcases hmem with hold | hnew
      · exact Or.inl ⟨e', hold, Or.inl rfl⟩
      · exact Or.inr ⟨rfl, by rw [hnew]; rfl⟩
  | expire filter limit entries files hlen hswept =>
      exact Or.inl (hsweep hswept (by simpa [sweepWorld] using hmem))
  | sweep Q entries files hlen hswept =>
      exact Or.inl (hsweep hswept (by simpa [sweepWorld] using hmem))
  | compact =>
      rw [persist_engine, visible_compact] at hmem
      exact Or.inl ⟨e', (mem_live.mp hmem).1, Or.inl rfl⟩

/-- The running number goes up with a save only. -/
theorem StorageEffect.nextFileIndex
    (heffect : StorageEffect lib env world call saved world') :
    world'.engine.nextFileIndex =
      if saved.isSome then world.engine.nextFileIndex + 1 else world.engine.nextFileIndex := by
  cases heffect with
  | append event json hroom hfresh hjson =>
      rw [persistEveryTenth_engine]
      rfl
  | _ => rfl

end Effects

/-- A purge marks whatever is due by its clock. -/
theorem deleted_of_due_storagePurgeExpired
    (lib : Libnostr)
    {env : CallEnv}
    {world : StorageWorld}
    (hinit : world.engine.initialized = true)
    {t : UInt32}
    (hclock : t ≤ env.now)
    {e : StorageIndexEntry}
    (hmem : e ∈ (storagePurgeExpired lib env world).2.engine.visible)
    (hdue : Due t e) :
    e.isDeleted = true := by
  by_contra halive
  rw [Bool.not_eq_true] at halive
  have hlive : e ∈ live (storagePurgeExpired lib env world).2.engine.visible :=
    mem_live.mpr ⟨hmem, halive⟩
  rw [live_storagePurgeExpired lib env hinit, List.mem_filter, Bool.not_eq_true'] at hlive
  have hunexpired := StorageIndexEntry.unexpired_before hclock hlive.2
  rcases hdue with hdeleted | hexpired
  · rw [halive] at hdeleted
    cases hdeleted
  · rw [hunexpired] at hexpired
    cases hexpired

/-- A compaction leaves live records only. -/
theorem live_of_mem_storageCompactIndex
    {env : CallEnv}
    {world : StorageWorld}
    (hinit : world.engine.initialized = true)
    {e : StorageIndexEntry}
    (hmem : e ∈ (storageCompactIndex env world).2.engine.visible) :
    e ∈ live world.engine.visible := by
  simp only [storageCompactIndex, hinit, Bool.not_true, Bool.false_eq_true, if_false,
    compactLoop_eq] at hmem
  split at hmem
  next =>
    rwa [persist_engine, visible_compact] at hmem
  next hnone =>
    -- nothing to drop: every record in use is live
    have hle := (live_sublist world.engine.visible).length_le
    rw [StorageEngine.visible_length] at hle
    have hall : live world.engine.visible = world.engine.visible :=
      (live_sublist _).eq_of_length (by rw [StorageEngine.visible_length]; omega)
    rwa [hall]

/--
What has become of the records of `s₀` by the time of `s`: those that were due are still due, are
marked after a purge, and are gone after the compaction that follows a purge.
-/
structure Reclaiming
    (t : UInt32)
    (s₀ s : EngineTasks) : Prop where
  next_le : s₀.world.engine.nextFileIndex.toNat ≤ s.world.engine.nextFileIndex.toNat
  known : ∀ e ∈ s.world.engine.visible,
    (∃ e₀ ∈ s₀.world.engine.visible, e₀.fileIndex = e.fileIndex) ∨
      s₀.world.engine.nextFileIndex.toNat ≤ e.fileIndex.toNat
  due : ∀ e ∈ s.world.engine.visible, NumberDue t s₀.world.engine e.fileIndex → Due t e
  marked : s₀.purges < s.purges → ∀ e ∈ s.world.engine.visible,
    NumberDue t s₀.world.engine e.fileIndex → e.isDeleted = true
  dropped : s₀.purges < 10 * s.compactions → ∀ e ∈ s.world.engine.visible,
    ¬ NumberDue t s₀.world.engine e.fileIndex

section Reclaiming

variable
  {lib : Libnostr}
  {t : UInt32}
  {s₀ s : EngineTasks}

/-- A record that is due at the start has a running number of its own. -/
theorem Reclaiming.start
    (hindex : WellIndexed s₀.world.engine.visible s₀.world.engine.nextFileIndex)
    (hschedule : Schedule s₀) :
    Reclaiming t s₀ s₀ where
  next_le := Nat.le_refl _
  known := fun e hmem => Or.inl ⟨e, hmem, rfl⟩
  due := by
    rintro e hmem ⟨e₀, hmem₀, hdue, hnumber⟩
    have hsame : e₀ = e :=
      List.inj_on_of_nodup_map hindex.nodup_fileIndex hmem₀ hmem hnumber
    rwa [← hsame]
  marked := fun hlt => absurd hlt (Nat.lt_irrefl _)
  dropped := by
    intro hlt
    have htens := hschedule.tens
    omega

/-- A new record does not have the running number of one that was due. -/
theorem not_numberDue_of_new
    (hindex : WellIndexed s₀.world.engine.visible s₀.world.engine.nextFileIndex)
    {fileIndex : UInt32}
    (hnew : s₀.world.engine.nextFileIndex.toNat ≤ fileIndex.toNat) :
    ¬ NumberDue t s₀.world.engine fileIndex := by
  rintro ⟨e₀, hmem₀, -, rfl⟩
  have hbelow := hindex.below e₀ hmem₀
  omega

/-- One call, whoever makes it. -/
theorem Reclaiming.call
    (hindex₀ : WellIndexed s₀.world.engine.visible s₀.world.engine.nextFileIndex)
    (hindex : WellIndexed s.world.engine.visible s.world.engine.nextFileIndex)
    (h : Reclaiming t s₀ s)
    (op : StorageOp)
    (hroom : (FlashOp.run op).isSave = true →
      s.world.engine.nextFileIndex.toNat + 1 < 2 ^ 32)
    {s' : EngineTasks}
    (hworld : s'.world = (storageStep lib s.world op).2)
    (hpurges : s'.purges = s.purges)
    (hcompactions : s'.compactions = s.compactions) :
    Reclaiming t s₀ s' := by
  have heffect := storageCall_effect lib op.env hindex.nodup_fileIndex op.call
  -- what holds of the numbers and survives a mark holds after the call
  have hkeep : ∀ {P : StorageIndexEntry → Prop},
      (∀ e, P e → P e.markDeleted) →
      (∀ e ∈ s.world.engine.visible, NumberDue t s₀.world.engine e.fileIndex → P e) →
      ∀ e ∈ s'.world.engine.visible, NumberDue t s₀.world.engine e.fileIndex → P e := by
    intro P hmarked hbefore e hmem hnumber
    rw [hworld] at hmem
    rcases heffect.origin hmem with ⟨e₁, hmem₁, rfl | rfl⟩ | ⟨-, hnew⟩
    · exact hbefore e hmem₁ hnumber
    · exact hmarked e₁ (hbefore e₁ hmem₁ hnumber)
    · exact absurd hnumber (not_numberDue_of_new hindex₀ (hnew ▸ h.next_le))
  refine ⟨?_, ?_, ?_, ?_, ?_⟩
  · have hnext := heffect.nextFileIndex
    rw [hworld]
    simp only [storageStep]
    rw [hnext]
    split
    next hsaved =>
      have hsave : (FlashOp.run op).isSave = true := by
        obtain ⟨call, env⟩ := op
        cases call <;> first | rfl | simp [savedEvent] at hsaved
      have hle := h.next_le
      have hlt := hroom hsave
      rw [UInt32.toNat_add, UInt32.toNat_one, Nat.mod_eq_of_lt hlt]
      exact hle.trans (Nat.le_add_right _ _)
    next => exact h.next_le
  · intro e hmem
    rw [hworld] at hmem
    rcases heffect.origin hmem with ⟨e₁, hmem₁, rfl | rfl⟩ | ⟨-, hnew⟩
    · exact h.known e hmem₁
    · exact h.known e₁ hmem₁
    · exact Or.inr (hnew ▸ h.next_le)
  · exact hkeep (fun e _ => Or.inl (StorageIndexEntry.isDeleted_markDeleted e)) h.due
  · rw [hpurges]
    intro hlt
    exact hkeep (fun e _ => StorageIndexEntry.isDeleted_markDeleted e) (h.marked hlt)
  · rw [hcompactions]
    intro hlt
    exact hkeep (fun _ => id) fun e hmem hnumber => absurd hnumber (h.dropped hlt e hmem)

/-- One step of the task. -/
theorem Reclaiming.cleanup
    (hindex₀ : WellIndexed s₀.world.engine.visible s₀.world.engine.nextFileIndex)
    (hindex : WellIndexed s.world.engine.visible s.world.engine.nextFileIndex)
    (hinit : s.world.engine.initialized = true)
    (hschedule : Schedule s)
    (h : Reclaiming t s₀ s)
    {env : CallEnv}
    (hclock : t ≤ env.now) :
    Reclaiming t s₀ (storageCleanupTask lib env s) := by
  have hidle : ∀ {s' : EngineTasks}, s'.world = s.world → s'.purges = s.purges →
      s'.compactions = s.compactions → Reclaiming t s₀ s' := by
    intro s' hworld hpurges hcompactions
    refine ⟨?_, ?_, ?_, ?_, ?_⟩
    · rw [hworld]
      exact h.next_le
    · rw [hworld]
      exact h.known
    · rw [hworld]
      exact h.due
    · rw [hworld, hpurges]
      exact h.marked
    · rw [hworld, hcompactions]
      exact h.dropped
  cases hpc : s.pc with
  | purge =>
      have hcalled : Reclaiming t s₀ { s with world := (storagePurgeExpired lib env s.world).2 } :=
        @Reclaiming.call lib t s₀ s hindex₀ hindex h ⟨.purge, env⟩
          (by simp [FlashOp.isSave]) _ rfl rfl rfl
      obtain ⟨hnext, hknown, hdue, -, hdropped⟩ := hcalled
      simp only [storageCleanupTask, hpc]
      refine ⟨hnext, hknown, hdue, ?_, hdropped⟩
      intro _ e hmem hnumber
      exact deleted_of_due_storagePurgeExpired lib hinit hclock hmem (hdue e hmem hnumber)
  | compact =>
      have hcalled : Reclaiming t s₀ { s with world := (storageCompactIndex env s.world).2 } :=
        @Reclaiming.call lib t s₀ s hindex₀ hindex h ⟨.compact, env⟩
          (by simp [FlashOp.isSave]) _ rfl rfl rfl
      obtain ⟨hnext, hknown, hdue, hmarked, -⟩ := hcalled
      simp only [storageCleanupTask, hpc]
      refine ⟨hnext, hknown, hdue, hmarked, ?_⟩
      -- this compaction follows the purge of the same minute
      intro hlt e hmem hnumber
      change s₀.purges < 10 * (s.compactions + 1) at hlt
      have htens := hschedule.tens
      have hten := hschedule.cycles_eq hpc
      have hlive := mem_live.mp (live_of_mem_storageCompactIndex hinit hmem)
      have hdeleted := h.marked (by omega) e hlive.1 hnumber
      rw [hlive.2] at hdeleted
      cases hdeleted
  | test | check | clear | deleted =>
      exact hidle (by simp [storageCleanupTask, hpc]) (by simp [storageCleanupTask, hpc])
        (by simp [storageCleanupTask, hpc])
  | delay i =>
      simp only [storageCleanupTask, hpc]
      split <;> exact hidle rfl rfl rfl

end Reclaiming

/-! ## After a history -/

section Histories

variable
  (lib : Libnostr)
  {capacity : Nat}
  (ttl : UInt32)
  (hcapacity : capacity ≤ storageIndexEntries)
  (past : List FlashOp)

/-- The cleanup task started after a history, and some events. -/
def tasksAfter
    (events : List TaskEvent) : EngineTasks :=
  afterTasks lib
    (storageStartCleanupTask true
      (finalState (flashStep lib) (erasedFlash capacity ttl hcapacity) past).world)
    events

variable
  {past}

variable (past) in
/-- The task keeps its schedule. -/
theorem schedule_tasksAfter
    {events : List TaskEvent}
    (hrunning : Running events) :
    let s := tasksAfter lib ttl hcapacity past events
    Schedule s ∧ s.cleanupStop = false ∧ s.destroy = .notCalled := by
  obtain ⟨hschedule, hstop, hcalled, -⟩ := tasks_run lib
    (finalState (flashStep lib) (erasedFlash capacity ttl hcapacity) past) events hrunning
  exact ⟨hschedule, hstop, hcalled⟩

/-- The invariants of the engine hold beside the task. -/
theorem flashInv_tasksAfter
    (hdurable : Durable capacity past)
    {events : List TaskEvent}
    (hrunning : Running events)
    (hsaves : flashSaves past + events.countP TaskEvent.isSave < 2 ^ 32) :
    let s := tasksAfter lib ttl hcapacity past events
    s.world.engine.initialized = true ∧
      WellIndexed s.world.engine.visible s.world.engine.nextFileIndex ∧
      s.world.engine.nextFileIndex.toNat ≤ flashSaves past + events.countP TaskEvent.isSave := by
  intro s
  obtain ⟨-, -, -, ops, hworld, hcount⟩ := tasks_run lib
    (finalState (flashStep lib) (erasedFlash capacity ttl hcapacity) past) events hrunning
  rw [← finalState_append] at hworld
  have hall : flashSaves (past ++ ops.map FlashOp.run) ≤
      flashSaves past + events.countP TaskEvent.isSave := by
    rw [flashSaves, List.countP_append]
    exact Nat.add_le_add_left hcount _
  have hinv := flashInv_run lib ttl hcapacity (past ++ ops.map FlashOp.run)
    (hdurable.runs ops) (by omega)
  rw [show s.world = _ from hworld]
  exact ⟨hinv.initialized, hinv.index, hinv.next_le.trans hall⟩

/-- What has become of the records in use before the last events. -/
theorem reclaiming_tasksAfter
    (hdurable : Durable capacity past)
    (before later : List TaskEvent)
    (hrunning : Running (before ++ later))
    (hsaves : flashSaves past + (before ++ later).countP TaskEvent.isSave < 2 ^ 32)
    {t : UInt32}
    (hclock : ∀ env, TaskEvent.cleanup env ∈ later → t ≤ env.now) :
    Reclaiming t (tasksAfter lib ttl hcapacity past before)
      (tasksAfter lib ttl hcapacity past (before ++ later)) := by
  have hindex₀ := (flashInv_tasksAfter lib ttl hcapacity hdurable hrunning.before
    (by rw [List.countP_append] at hsaves; omega)).2.1
  have hschedule₀ := (schedule_tasksAfter lib ttl hcapacity past hrunning.before).1
  induction later using List.reverseRecOn with
  | nil =>
      rw [List.append_nil]
      exact Reclaiming.start hindex₀ hschedule₀
  | append_singleton later event ih =>
      rw [← List.append_assoc] at hrunning hsaves ⊢
      rw [List.countP_append, List.countP_singleton] at hsaves
      have hbefore := ih hrunning.before (by omega)
        fun env hmem => hclock env (List.mem_append_left _ hmem)
      obtain ⟨hinit, hindex, hnext⟩ := flashInv_tasksAfter lib ttl hcapacity hdurable
        hrunning.before (by omega)
      obtain ⟨hschedule, -, hcalled⟩ :=
        schedule_tasksAfter lib ttl hcapacity past hrunning.before
      have hstep : tasksAfter lib ttl hcapacity past (before ++ later ++ [event]) =
          tasksStep lib (tasksAfter lib ttl hcapacity past (before ++ later)) event :=
        afterTasks_snoc _ (before ++ later) event
      rw [hstep]
      cases event with
      | call op =>
          refine hbefore.call hindex₀ hindex op ?_ rfl rfl rfl
          intro hsave
          rw [if_pos (show (TaskEvent.call op).isSave = true from hsave)] at hsaves
          omega
      | cleanup env =>
          exact hbefore.cleanup hindex₀ hindex hinit hschedule (hclock env (by simp))
      | destroy env => exact absurd rfl (hrunning.last env)

/--
Whatever is deleted or expired is gone after the cleanup task has slept 601 more seconds: no
record in use then has the running number of one that was due.
-/
theorem due_records_leave
    (hdurable : Durable capacity past)
    (before later : List TaskEvent)
    (hrunning : Running (before ++ later))
    (hsaves : flashSaves past + (before ++ later).countP TaskEvent.isSave < 2 ^ 32)
    {t : UInt32}
    (hclock : ∀ env, TaskEvent.cleanup env ∈ later → t ≤ env.now) :
    let s₀ := tasksAfter lib ttl hcapacity past before
    let s := tasksAfter lib ttl hcapacity past (before ++ later)
    s₀.seconds + 601 ≤ s.seconds →
      ∀ e₀ ∈ s₀.world.engine.visible, Due t e₀ →
        ∀ e ∈ s.world.engine.visible, e.fileIndex ≠ e₀.fileIndex := by
  intro s₀ s hslept e₀ hmem₀ hdue e hmem hnumber
  have h := reclaiming_tasksAfter lib ttl hcapacity hdurable before later hrunning hsaves hclock
  obtain ⟨hschedule₀, hstop₀, -⟩ :=
    schedule_tasksAfter lib ttl hcapacity past hrunning.before
  obtain ⟨hschedule, hstop, -⟩ := schedule_tasksAfter lib ttl hcapacity past hrunning
  exact h.dropped (hschedule₀.compacted hschedule hstop₀ hstop hslept) e hmem
    ⟨e₀, hmem₀, hdue, hnumber.symm⟩

/-- Steps of the task at one time. -/
theorem cleanup_alone
    (n : Nat)
    (t : UInt32) :
    Running ([] ++ List.replicate n (TaskEvent.cleanup (CallEnv.undisturbed t))) ∧
      ∀ env, TaskEvent.cleanup env ∈ List.replicate n (.cleanup (CallEnv.undisturbed t)) →
        t ≤ env.now := by
  refine ⟨fun env hmem => ?_, fun env hmem => ?_⟩
  · cases List.eq_of_mem_replicate hmem
  · cases List.eq_of_mem_replicate hmem
    exact UInt32.le_refl _

/-- A note that has expired is gone after 650 steps of the task. -/
theorem due_records_leave_note :
    let lib := Sample.library (Sample.notes 1)
    let later := List.replicate 650 (TaskEvent.cleanup (CallEnv.undisturbed 1800000000))
    ∃ e₀ ∈ (tasksAfter lib 1814400 thousandSlots [saveNote 0] []).world.engine.visible,
      ∀ e ∈ (tasksAfter lib 1814400 thousandSlots [saveNote 0]
        ([] ++ later)).world.engine.visible, e.fileIndex ≠ e₀.fileIndex := by
  intro lib later
  have hdue : 0 < (tasksAfter lib 1814400 thousandSlots [saveNote 0] []).world.engine.visible.countP
      fun e => decide (Due 1800000000 e) := by
    decide +kernel
  obtain ⟨e₀, hmem₀, hdue₀⟩ := List.countP_pos_iff.mp hdue
  obtain ⟨hrunning, hclock⟩ := cleanup_alone 650 1800000000
  have hdurable : Durable 1000 [saveNote 0] :=
    durable_of_runs 1000 (by simp [saveNote, FlashOp.isRestart])
  exact ⟨e₀, hmem₀, due_records_leave lib 1814400 thousandSlots hdurable [] later hrunning
    (by decide +kernel) hclock (by decide +kernel) e₀ hmem₀ (of_decide_eq_true hdue₀)⟩

/--
The slots of due records come back: after 601 more seconds of sleep the records in use are at most
those that were not due and those saved since, which the running number counts.
-/
theorem reclaimed_room
    (hdurable : Durable capacity past)
    (before later : List TaskEvent)
    (hrunning : Running (before ++ later))
    (hsaves : flashSaves past + (before ++ later).countP TaskEvent.isSave < 2 ^ 32)
    {t : UInt32}
    (hclock : ∀ env, TaskEvent.cleanup env ∈ later → t ≤ env.now) :
    let s₀ := tasksAfter lib ttl hcapacity past before
    let s := tasksAfter lib ttl hcapacity past (before ++ later)
    s₀.seconds + 601 ≤ s.seconds →
      s.world.engine.indexCount ≤
        s₀.world.engine.visible.countP (fun e => !decide (Due t e)) +
          (s.world.engine.nextFileIndex.toNat - s₀.world.engine.nextFileIndex.toNat) := by
  intro s₀ s hslept
  have h : Reclaiming t s₀ s :=
    reclaiming_tasksAfter lib ttl hcapacity hdurable before later hrunning hsaves hclock
  obtain ⟨hschedule₀, hstop₀, -⟩ :=
    schedule_tasksAfter lib ttl hcapacity past hrunning.before
  obtain ⟨hschedule, hstop, -⟩ := schedule_tasksAfter lib ttl hcapacity past hrunning
  have hdropped := h.dropped (hschedule₀.compacted hschedule hstop₀ hstop hslept)
  have hindex : WellIndexed s.world.engine.visible s.world.engine.nextFileIndex :=
    (flashInv_tasksAfter lib ttl hcapacity hdurable hrunning hsaves).2.1
  -- the numbers in use are those of records that were not due, or new
  have hsubset : s.world.engine.visible.map (·.fileIndex.toNat) ⊆
      (s₀.world.engine.visible.filter (fun e => !decide (Due t e))).map (·.fileIndex.toNat) ++
        List.range' s₀.world.engine.nextFileIndex.toNat
          (s.world.engine.nextFileIndex.toNat - s₀.world.engine.nextFileIndex.toNat) := by
    intro n hn
    obtain ⟨e, hmem, rfl⟩ := List.mem_map.mp hn
    rw [List.mem_append, List.mem_map, List.mem_range'_1]
    rcases h.known e hmem with ⟨e₀, hmem₀, hnumber⟩ | hnew
    · refine Or.inl ⟨e₀, List.mem_filter.mpr ⟨hmem₀, ?_⟩, by rw [hnumber]⟩
      have hnot : ¬ Due t e₀ := fun hdue => hdropped e hmem ⟨e₀, hmem₀, hdue, hnumber⟩
      simpa using hnot
    · have hbelow := hindex.below e hmem
      exact Or.inr ⟨hnew, by omega⟩
  have hnodup : (s.world.engine.visible.map (·.fileIndex.toNat)).Nodup :=
    (List.pairwise_map.mpr hindex.increasing).imp fun hlt => Nat.ne_of_lt hlt
  have hlength := (hnodup.subperm hsubset).length_le
  rw [List.length_map, StorageEngine.visible_length, List.length_append, List.length_map,
    List.length_range', ← List.countP_eq_length_filter] at hlength
  exact hlength

/-- Its slot is free. -/
theorem reclaimed_room_note :
    let lib := Sample.library (Sample.notes 1)
    let later := List.replicate 650 (TaskEvent.cleanup (CallEnv.undisturbed 1800000000))
    (tasksAfter lib 1814400 thousandSlots [saveNote 0] ([] ++ later)).world.engine.indexCount ≤
      0 := by
  intro lib later
  obtain ⟨hrunning, hclock⟩ := cleanup_alone 650 1800000000
  have hdurable : Durable 1000 [saveNote 0] :=
    durable_of_runs 1000 (by simp [saveNote, FlashOp.isRestart])
  refine (reclaimed_room lib 1814400 thousandSlots hdurable [] later hrunning
    (by decide +kernel) hclock (by decide +kernel)).trans ?_
  decide +kernel

end Histories

end Storage
end WispRelay
