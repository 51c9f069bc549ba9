import WispRelay.Library.LockedPrograms

/-!
# Critical sections

Several tasks share a state and a lock.  A task is a program of operations; it carries one out by
running the operation's body, a program of accesses and calls to the lock.  The scheduler may run
any task that can go on, between any two of these.

* `Step`, `Run`: the tasks as they are scheduled, with the operations in the order in which they
  are completed: at the last call of their bodies.
* `AtomicRun`: the same tasks when each operation is one step of a more abstract state.
* `Implements`: what has to be shown of every body on its own.
* `Run.corresponds`: then a run does what the atomic run with the same operations does.
* `Run.access_guarded`: every access is made where it is allowed, and by the owner of the lock
  unless it needs none.
* `Run.can_finish`: from wherever the scheduler has led, all tasks can end.
-/

namespace WispRelay
namespace CriticalSections

open Interference

universe u u' v w

/-- A task, between its operations or inside one of them. -/
inductive Task
    (Op : Type u)
    (Env : Type w)
    (Res : Op → Type v)
    (Access : Type u')
    (Ret : Access → Type v)
    (α : Type v) : Type (max u u' v w)
  | outside (rest : Prog Op Res α)
  /-- The next call of the body, what is left of the body then, and what follows the operation. -/
  | inside
      (op : Op)
      (env : Env)
      (c : LockCall Access)
      (rest : LockCall.Ret Ret c → LockProg Access Ret (Res op))
      (next : Res op → Prog Op Res α)

/-- A completed operation, with what it returned. -/
structure Completion
    (ι : Type)
    (Op : Type u)
    (Env : Type w)
    (Res : Op → Type v) where
  task : ι
  op : Op
  env : Env
  result : Res op

section Systems

variable
  {ι : Type}
  {Op : Type u}
  {Env : Type w}
  {Res : Op → Type v}
  {Access : Type u'}
  {Ret : Access → Type v}
  {α : Type v}
  {σ τ : Type w}

/-- The operations the task has not completed, with the one it is in. -/
def Task.program : Task Op Env Res Access Ret α → Prog Op Res α
  | .outside rest => rest
  | .inside op _ _ _ next => .call op next

/-- The task goes on with the body, or the operation returns when nothing is left of it. -/
def Task.resume
    (op : Op)
    (env : Env)
    (next : Res op → Prog Op Res α) :
    LockProg Access Ret (Res op) → Task Op Env Res Access Ret α
  | .done result => .outside (next result)
  | .call c rest => .inside op env c rest next

/-- The operation, when nothing is left of its body. -/
def Completion.ofBody
    (i : ι)
    (op : Op)
    (env : Env) : LockProg Access Ret (Res op) → Option (Completion ι Op Env Res)
  | .done result => some ⟨i, op, env, result⟩
  | .call _ _ => none

variable (ι Op Env Res Access Ret α σ) in
/-- The tasks, the owner of the lock and what they share. -/
structure System where
  tasks : ι → Task Op Env Res Access Ret α
  owner : Option ι
  shared : σ

/-- The system before any task has done anything. -/
def System.started
    (progs : ι → Prog Op Res α)
    (shared : σ) : System ι Op Env Res Access Ret α σ where
  tasks := fun i => .outside (progs i)
  owner := none
  shared := shared

/-- What every task has not completed. -/
def System.programs
    (s : System ι Op Env Res Access Ret α σ)
    (i : ι) : Prog Op Res α :=
  (s.tasks i).program

end Systems

section Runs

variable
  {ι : Type}
  [DecidableEq ι]
  {Op : Type u}
  {Env : Type w}
  {Res : Op → Type v}
  {Access : Type u'}
  {Ret : Access → Type v}
  {α : Type v}
  {σ τ : Type w}

/-- One task goes on with its body. -/
def System.resume
    (s : System ι Op Env Res Access Ret α σ)
    (i : ι)
    (op : Op)
    (env : Env)
    (next : Res op → Prog Op Res α)
    (body : LockProg Access Ret (Res op)) : System ι Op Env Res Access Ret α σ :=
  { s with tasks := Function.update s.tasks i (Task.resume op env next body) }

/-! ## The tasks and the atomic machine -/

variable
  (body : (op : Op) → Env → LockProg Access Ret (Res op))
  (step : (c : Access) → σ → Ret c × σ)
  (sem : (op : Op) → Env → τ → Res op × τ)

/--
One step of one task, and the operation it completes.  Any task may make an access; the lock is
taken when no one has it, and given back by its owner.
-/
inductive Step :
    System ι Op Env Res Access Ret α σ → Option (Completion ι Op Env Res) →
      System ι Op Env Res Access Ret α σ → Prop
  | call
      {s : System ι Op Env Res Access Ret α σ}
      {i : ι}
      {op : Op}
      {next : Res op → Prog Op Res α}
      (env : Env) :
      s.tasks i = .outside (.call op next) →
      Step s (Completion.ofBody i op env (body op env)) (s.resume i op env next (body op env))
  | access
      {s : System ι Op Env Res Access Ret α σ}
      {i : ι}
      {op : Op}
      {env : Env}
      {c : Access}
      {rest : Ret c → LockProg Access Ret (Res op)}
      {next : Res op → Prog Op Res α} :
      s.tasks i = .inside op env (.access c) rest next →
      Step s (Completion.ofBody i op env (rest (step c s.shared).1))
        { s.resume i op env next (rest (step c s.shared).1) with shared := (step c s.shared).2 }
  | take
      {s : System ι Op Env Res Access Ret α σ}
      {i : ι}
      {op : Op}
      {env : Env}
      {rest : PUnit → LockProg Access Ret (Res op)}
      {next : Res op → Prog Op Res α} :
      s.tasks i = .inside op env .take rest next → s.owner = none →
      Step s (Completion.ofBody i op env (rest ⟨⟩))
        { s.resume i op env next (rest ⟨⟩) with owner := some i }
  | give
      {s : System ι Op Env Res Access Ret α σ}
      {i : ι}
      {op : Op}
      {env : Env}
      {rest : PUnit → LockProg Access Ret (Res op)}
      {next : Res op → Prog Op Res α} :
      s.tasks i = .inside op env .give rest next → s.owner = some i →
      Step s (Completion.ofBody i op env (rest ⟨⟩))
        { s.resume i op env next (rest ⟨⟩) with owner := none }

/-- A run, with the operations that were completed. -/
inductive Run
    (init : System ι Op Env Res Access Ret α σ) :
    List (Completion ι Op Env Res) → System ι Op Env Res Access Ret α σ → Prop
  | start : Run init [] init
  | step
      {past : List (Completion ι Op Env Res)}
      {s s' : System ι Op Env Res Access Ret α σ}
      {completed : Option (Completion ι Op Env Res)} :
      Run init past s → Step body step s completed s' →
      Run init (past ++ completed.toList) s'

/-- A run in which every operation is one step. -/
inductive AtomicRun
    (progs : ι → Prog Op Res α)
    (init : τ) :
    List (Completion ι Op Env Res) → (ι → Prog Op Res α) → τ → Prop
  | start : AtomicRun progs init [] progs init
  | step
      {past : List (Completion ι Op Env Res)}
      {now : ι → Prog Op Res α}
      {t : τ}
      {i : ι}
      {op : Op}
      {next : Res op → Prog Op Res α}
      (env : Env) :
      AtomicRun progs init past now t → now i = .call op next →
      AtomicRun progs init (past ++ [⟨i, op, env, (sem op env t).1⟩])
        (Function.update now i (next (sem op env t).1)) (sem op env t).2

variable
  {body}
  {step}
  {sem}

/-- An atomic run in which nothing is completed. -/
theorem AtomicRun.eq_of_nil
    {progs now : ι → Prog Op Res α}
    {init t : τ}
    (h : AtomicRun sem progs init [] now t) :
    now = progs ∧ t = init := by
  generalize hpast : ([] : List (Completion ι Op Env Res)) = past at h
  cases h with
  | start => exact ⟨rfl, rfl⟩
  | step env hrun hnow => exact absurd hpast.symm (List.append_ne_nil_of_right_ne_nil _ (by simp))

/-- The first operation of an atomic run, and the run that is left. -/
theorem AtomicRun.uncons
    {progs now : ι → Prog Op Res α}
    {init t : τ}
    {i : ι}
    {op : Op}
    {env : Env}
    {result : Res op}
    {later : List (Completion ι Op Env Res)}
    (h : AtomicRun sem progs init (⟨i, op, env, result⟩ :: later) now t) :
    ∃ next, progs i = .call op next ∧ result = (sem op env init).1 ∧
      AtomicRun sem (Function.update progs i (next result)) (sem op env init).2 later now t := by
  generalize hpast : ⟨i, op, env, result⟩ :: later = past at h
  induction h generalizing later with
  | start => cases hpast
  | @step past now t j op' next' env' hrun hnow ih =>
      cases past with
      | nil =>
          obtain ⟨rfl, rfl⟩ := hrun.eq_of_nil
          rw [List.nil_append, List.cons.injEq] at hpast
          obtain ⟨hfirst, rfl⟩ := hpast
          cases hfirst
          exact ⟨next', hnow, rfl, AtomicRun.start⟩
      | cons first past =>
          rw [List.cons_append, List.cons.injEq] at hpast
          obtain ⟨rfl, rfl⟩ := hpast
          obtain ⟨next, hfirst, hresult, hrest⟩ := ih rfl
          exact ⟨next, hfirst, hresult, hrest.step env' hnow⟩


/-! ## The tasks do what the atomic machine does -/

variable
  (body)
  (step)
  (sem)

/-- Every body keeps to the discipline and does what `sem` says, on its own. -/
structure Implements
    (D : LockProg.Discipline step)
    (R : σ → τ → Prop) : Prop where
  steady : ∀ s t, R s t → D.steady s
  performs : ∀ op env, LockProg.Performs D R (sem op env) (body op env)

/--
While the lock is free the shared state stands for the abstract one.  A task without the lock has
still to take it, if it is inside an operation at all; what the owner of the lock has left to do
meets the contract of its operation.
-/
structure Corresponds
    (D : LockProg.Discipline step)
    (R : σ → τ → Prop)
    (s : System ι Op Env Res Access Ret α σ)
    (t : τ) : Prop where
  steady : D.steady s.shared
  related : ∃ shared, R shared t
  free : s.owner = none → R s.shared t
  waits : ∀ i op env c rest next, s.owner ≠ some i → s.tasks i = .inside op env c rest next →
    LockProg.Performs D R (sem op env) (.call c rest)
  held : ∀ i, s.owner = some i → ∃ op env c rest next, s.tasks i = .inside op env c rest next ∧
    LockProg.Held step D.allowed (.call c rest)
      (fun a s' => a = (sem op env t).1 ∧ R s' (sem op env t).2) s.shared

variable
  {body}
  {step}
  {sem}
  {D : LockProg.Discipline step}
  {R : σ → τ → Prop}

omit [DecidableEq ι] in
theorem Corresponds.started
    (hbody : Implements body step sem D R)
    {progs : ι → Prog Op Res α}
    {shared : σ}
    {t : τ}
    (hR : R shared t) :
    Corresponds step sem D R
      (System.started progs shared : System ι Op Env Res Access Ret α σ) t where
  steady := hbody.steady shared t hR
  related := ⟨shared, hR⟩
  free := fun _ => hR
  waits := fun _ _ _ _ _ _ _ htask => by cases htask
  held := fun _ howner => by cases howner

section Tasks

variable
  {s : System ι Op Env Res Access Ret α σ}
  {t : τ}
  {i : ι}
  {op : Op}
  {env : Env}
  {rest : LockProg Access Ret (Res op)}
  {next : Res op → Prog Op Res α}

omit [DecidableEq ι] in
/-- A task between its operations does not own the lock. -/
theorem Corresponds.not_owner
    (h : Corresponds step sem D R s t)
    {p : Prog Op Res α}
    (htask : s.tasks i = .outside p) :
    s.owner ≠ some i := by
  intro howner
  obtain ⟨op, env, c, rest, next, hinside, -⟩ := h.held i howner
  rw [htask] at hinside
  cases hinside

omit [DecidableEq ι] in
/-- What the owner of the lock has left to do meets the contract of its operation. -/
theorem Corresponds.inside
    (h : Corresponds step sem D R s t)
    (howner : s.owner = some i)
    {c : LockCall Access}
    {rest : LockCall.Ret Ret c → LockProg Access Ret (Res op)}
    (htask : s.tasks i = .inside op env c rest next) :
    LockProg.Held step D.allowed (.call c rest)
      (fun a s' => a = (sem op env t).1 ∧ R s' (sem op env t).2) s.shared := by
  obtain ⟨op', env', c', rest', next', htask', hheld⟩ := h.held i howner
  rw [htask] at htask'
  cases htask'
  exact hheld

omit [DecidableEq ι] in
theorem System.programs_of_inside
    {c : LockCall Access}
    {rest : LockCall.Ret Ret c → LockProg Access Ret (Res op)}
    (htask : s.tasks i = .inside op env c rest next) :
    s.programs i = .call op next := by
  rw [System.programs, htask, Task.program]

theorem System.resume_programs
    (s : System ι Op Env Res Access Ret α σ)
    (i : ι)
    (op : Op)
    (env : Env)
    (next : Res op → Prog Op Res α)
    (rest : LockProg Access Ret (Res op)) :
    (s.resume i op env next rest).programs =
      Function.update s.programs i (Task.resume op env next rest).program := by
  funext j
  by_cases hj : j = i
  · subst hj
    simp only [System.programs, System.resume, Function.update_self]
  · simp only [System.programs, System.resume, Function.update_of_ne hj]

/-- While something is left of the body, nothing is completed. -/
theorem AtomicRun.resume_call
    {progs : ι → Prog Op Res α}
    {init : τ}
    {past : List (Completion ι Op Env Res)}
    (hrun : AtomicRun sem progs init past s.programs t)
    (hprog : s.programs i = .call op next)
    (c : LockCall Access)
    (rest : LockCall.Ret Ret c → LockProg Access Ret (Res op)) :
    AtomicRun sem progs init (past ++ (Completion.ofBody i op env (.call c rest)).toList)
      (s.resume i op env next (.call c rest)).programs t := by
  rw [System.resume_programs, Task.resume, Task.program, ← hprog, Function.update_eq_self,
    Completion.ofBody, Option.toList_none, List.append_nil]
  exact hrun

/-- The operation is completed. -/
theorem AtomicRun.resume_done
    {progs : ι → Prog Op Res α}
    {init t' : τ}
    {past : List (Completion ι Op Env Res)}
    (hrun : AtomicRun sem progs init past s.programs t)
    (hprog : s.programs i = .call op next)
    {a : Res op}
    (hresult : a = (sem op env t).1)
    (hstate : t' = (sem op env t).2) :
    AtomicRun sem progs init (past ++ (Completion.ofBody i op env
        (.done a : LockProg Access Ret (Res op))).toList)
      (s.resume i op env next (.done a)).programs t' := by
  subst hresult hstate
  rw [System.resume_programs, Task.resume, Task.program]
  exact hrun.step env hprog

/-- A task without the lock goes on; the others stay where they are. -/
theorem Corresponds.resume
    (h : Corresponds step sem D R s t)
    (howner : s.owner ≠ some i)
    (hrest : LockProg.Performs D R (sem op env) rest) :
    Corresponds step sem D R (s.resume i op env next rest) t where
  steady := h.steady
  related := h.related
  free := h.free
  waits := by
    intro j op' env' c' rest' next' hj htask
    by_cases hji : j = i
    · subst hji
      simp only [System.resume, Function.update_self] at htask
      cases rest with
      | done a => cases htask
      | call c rest =>
          cases htask
          exact hrest
    · simp only [System.resume, Function.update_of_ne hji] at htask
      exact h.waits j op' env' c' rest' next' hj htask
  held := by
    intro j hj
    have hji : j ≠ i := fun heq => howner (heq ▸ hj)
    simp only [System.resume, Function.update_of_ne hji]
    exact h.held j hj

/-- Such a step is none of the atomic run, or one that returns what is there. -/
theorem Corresponds.resume_run
    {progs : ι → Prog Op Res α}
    {init : τ}
    {past : List (Completion ι Op Env Res)}
    (h : Corresponds step sem D R s t)
    (hrun : AtomicRun sem progs init past s.programs t)
    (hprog : s.programs i = .call op next)
    (hrest : LockProg.Performs D R (sem op env) rest) :
    AtomicRun sem progs init (past ++ (Completion.ofBody i op env rest).toList)
      (s.resume i op env next rest).programs t := by
  cases rest with
  | call c rest => exact hrun.resume_call hprog c rest
  | done a =>
      obtain ⟨shared, hR⟩ := h.related
      have hsem := hrest shared t hR
      exact hrun.resume_done hprog (by rw [hsem]) (by rw [hsem])

/-- The owner of the lock has a call left, and the others are as they were. -/
theorem Corresponds.hold
    (h : Corresponds step sem D R s t)
    (next : Res op → Prog Op Res α)
    {shared : σ}
    (hothers : ∀ j, s.owner = some j → j = i)
    (hsteady : D.steady shared)
    (hheld : LockProg.Held step D.allowed rest
      (fun a s' => a = (sem op env t).1 ∧ R s' (sem op env t).2) shared) :
    Corresponds step sem D R
      { s.resume i op env next rest with owner := some i, shared := shared } t where
  steady := hsteady
  related := h.related
  free := fun hfree => by cases hfree
  waits := by
    intro j op' env' c' rest' next' hj htask
    have hji : j ≠ i := fun heq => hj (by rw [heq])
    simp only [System.resume, Function.update_of_ne hji] at htask
    exact h.waits j op' env' c' rest' next' (fun howner => hji (hothers j howner)) htask
  held := by
    intro j hj
    obtain rfl : i = j := Option.some.inj hj
    obtain ⟨c, rest, rfl⟩ := hheld.call
    exact ⟨op, env, c, rest, next, Function.update_self .., hheld⟩

end Tasks

/-- One step of a task: none of the atomic run, or the operation that is completed. -/
theorem Corresponds.after
    (hbody : Implements body step sem D R)
    {progs : ι → Prog Op Res α}
    {init t : τ}
    {past : List (Completion ι Op Env Res)}
    {s s' : System ι Op Env Res Access Ret α σ}
    {completed : Option (Completion ι Op Env Res)}
    (hrun : AtomicRun sem progs init past s.programs t)
    (h : Corresponds step sem D R s t)
    (hstep : Step body step s completed s') :
    ∃ t', AtomicRun sem progs init (past ++ completed.toList) s'.programs t' ∧
      Corresponds step sem D R s' t' := by
  cases hstep with
  | @call i op next env htask =>
      have hprog : s.programs i = .call op next := by rw [System.programs, htask, Task.program]
      have hperforms := hbody.performs op env
      exact ⟨t, h.resume_run hrun hprog hperforms, h.resume (h.not_owner htask) hperforms⟩
  | @access i op env c rest next htask =>
      have hprog := System.programs_of_inside htask
      by_cases howner : s.owner = some i
      · have hheld := h.inside howner htask
        obtain ⟨c', rest', hcall⟩ := hheld.2.call
        have hothers : ∀ j, s.owner = some j → j = i :=
          fun j hj => Option.some.inj (hj.symm.trans howner)
        have hnext := h.hold next hothers (D.steady_step c _ h.steady hheld.1) hheld.2
        rw [← howner] at hnext
        refine ⟨t, ?_, hnext⟩
        rw [hcall]
        exact hrun.resume_call hprog c' rest'
      · -- without the lock the access only reads
        obtain ⟨hbare, hrest⟩ := h.waits i op env _ _ next howner htask
        have hperforms := hrest s.shared h.steady
        rw [D.bare_reads c s.shared hbare]
        exact ⟨t, h.resume_run hrun hprog hperforms, h.resume howner hperforms⟩
  | @take i op env rest next htask hfree =>
      have hprog := System.programs_of_inside htask
      have hperforms := h.waits i op env _ _ next
        (by rw [hfree]; exact (Option.some_ne_none i).symm) htask
      have hheld := hperforms s.shared t (h.free hfree)
      obtain ⟨c', rest', hcall⟩ := hheld.call
      have hothers : ∀ j, s.owner = some j → j = i := fun j hj => by rw [hfree] at hj; cases hj
      refine ⟨t, ?_, h.hold next hothers h.steady hheld⟩
      rw [hcall]
      exact hrun.resume_call hprog c' rest'
  | @give i op env rest next htask howner =>
      have hprog := System.programs_of_inside htask
      obtain ⟨a, hend, hresult, hshared⟩ := h.inside howner htask
      rw [hend]
      refine ⟨_, hrun.resume_done hprog hresult rfl, h.steady, ⟨s.shared, hshared⟩,
        fun _ => hshared, ?_, fun j hj => by cases hj⟩
      intro j op' env' c' rest' next' _ htask'
      by_cases hji : j = i
      · subst hji
        simp only [System.resume, Function.update_self] at htask'
        cases htask'
      · simp only [System.resume, Function.update_of_ne hji] at htask'
        exact h.waits j op' env' c' rest' next'
          (fun hother => hji (Option.some.inj (hother.symm.trans howner))) htask'

/--
**Critical sections are atomic.**  Whatever the scheduler does, the operations completed so far
are those of an atomic run, in this order, with the same results; every task has left to do what it
has left there, with the operation it is in.
-/
theorem Run.corresponds
    (hbody : Implements body step sem D R)
    {progs : ι → Prog Op Res α}
    {shared : σ}
    {init : τ}
    (hR : R shared init)
    {past : List (Completion ι Op Env Res)}
    {s : System ι Op Env Res Access Ret α σ}
    (hrun : Run body step (System.started progs shared) past s) :
    ∃ t, AtomicRun sem progs init past s.programs t ∧ Corresponds step sem D R s t := by
  induction hrun with
  | start => exact ⟨init, AtomicRun.start, Corresponds.started hbody hR⟩
  | step _ hstep ih =>
      obtain ⟨t, hatomic, h⟩ := ih
      exact h.after hbody hatomic hstep

/--
**Mutual exclusion**: an access is made where it is allowed, and only the owner of the lock makes
one that is not allowed without it.
-/
theorem Run.access_guarded
    (hbody : Implements body step sem D R)
    {progs : ι → Prog Op Res α}
    {shared : σ}
    {init : τ}
    (hR : R shared init)
    {past : List (Completion ι Op Env Res)}
    {s : System ι Op Env Res Access Ret α σ}
    (hrun : Run body step (System.started progs shared) past s)
    {i : ι}
    {op : Op}
    {env : Env}
    {c : Access}
    {rest : Ret c → LockProg Access Ret (Res op)}
    {next : Res op → Prog Op Res α}
    (htask : s.tasks i = .inside op env (.access c) rest next) :
    D.allowed c s.shared ∧ (s.owner = some i ∨ D.bare c) := by
  obtain ⟨t, -, h⟩ := hrun.corresponds hbody hR
  by_cases howner : s.owner = some i
  · exact ⟨(h.inside howner htask).1, Or.inl howner⟩
  · obtain ⟨hbare, -⟩ := h.waits i op env _ _ next howner htask
    exact ⟨D.bare_allowed c s.shared hbare h.steady, Or.inr hbare⟩

/-! ## Progress -/

section Progress

variable
  {init s : System ι Op Env Res Access Ret α σ}
  {past : List (Completion ι Op Env Res)}
  {i : ι}
  {op : Op}
  {env : Env}
  {next : Res op → Prog Op Res α}

/-- The system when the task has returned and the lock is free. -/
def System.returned
    (s : System ι Op Env Res Access Ret α σ)
    (i : ι)
    (p : Prog Op Res α)
    (shared : σ) : System ι Op Env Res Access Ret α σ where
  tasks := Function.update s.tasks i (.outside p)
  owner := none
  shared := shared

theorem System.returned_of_update
    {s' : System ι Op Env Res Access Ret α σ}
    {task : Task Op Env Res Access Ret α}
    (htasks : s'.tasks = Function.update s.tasks i task)
    (p : Prog Op Res α)
    (shared : σ) :
    s'.returned i p shared = s.returned i p shared := by
  simp only [System.returned, htasks, Function.update_idem]

/-- The owner of the lock can complete its operation without any other task. -/
theorem Run.can_leave
    {rest : LockProg Access Ret (Res op)}
    {post : Res op → σ → Prop}
    (hrun : Run body step init past s)
    (htask : s.tasks i = Task.resume op env next rest)
    (howner : s.owner = some i)
    (hheld : LockProg.Held step D.allowed rest post s.shared) :
    ∃ a shared, post a shared ∧
      Run body step init (past ++ [⟨i, op, env, a⟩]) (s.returned i (next a) shared) := by
  induction rest generalizing s with
  | done result => exact absurd hheld id
  | call c rest ih =>
      cases c with
      | take => exact absurd hheld id
      | give =>
          obtain ⟨a, hend, hpost⟩ := hheld
          have hgive := hrun.step (.give htask howner)
          rw [hend] at hgive
          exact ⟨a, s.shared, hpost, hgive⟩
      | access c =>
          obtain ⟨-, hrest⟩ := hheld
          obtain ⟨c', rest', hcall⟩ := hrest.call
          have haccess := hrun.step (.access htask)
          rw [hcall, Completion.ofBody, Option.toList_none, List.append_nil, ← hcall] at haccess
          obtain ⟨a, shared, hpost, hleft⟩ :=
            ih _ haccess (Function.update_self ..) howner hrest
          rw [System.returned_of_update rfl] at hleft
          exact ⟨a, shared, hpost, hleft⟩

/--
While the lock is free, a task inside an operation can complete it, and with it the operation does
what `sem` says.  The run is given up to the step that leaves `rest`.
-/
theorem Run.can_return
    {rest : LockProg Access Ret (Res op)}
    {t : τ}
    (hbody : Implements body step sem D R)
    (hR : R s.shared t)
    (hfree : s.owner = none)
    (hperforms : LockProg.Performs D R (sem op env) rest)
    (hrun : Run body step init (past ++ (Completion.ofBody i op env rest).toList)
      (s.resume i op env next rest)) :
    ∃ shared, R shared (sem op env t).2 ∧
      Run body step init (past ++ [⟨i, op, env, (sem op env t).1⟩])
        (s.returned i (next (sem op env t).1) shared) := by
  induction rest with
  | done a =>
      have hsem := hperforms s.shared t hR
      have hend : s.resume i op env next (.done a) = s.returned i (next a) s.shared := by
        simp only [System.returned, System.resume, Task.resume, hfree]
      rw [hend] at hrun
      rw [hsem]
      exact ⟨s.shared, hR, hrun⟩
  | call c rest ih =>
      rw [Completion.ofBody, Option.toList_none, List.append_nil] at hrun
      have htask : (s.resume i op env next (.call c rest)).tasks i =
          .inside op env c rest next := Function.update_self ..
      cases c with
      | give => exact absurd hperforms id
      | take =>
          have hheld := hperforms s.shared t hR
          obtain ⟨c', rest', hcall⟩ := hheld.call
          have htake := hrun.step (.take htask hfree)
          rw [hcall, Completion.ofBody, Option.toList_none, List.append_nil, ← hcall] at htake
          obtain ⟨a, shared, ⟨rfl, hshared⟩, hleft⟩ :=
            htake.can_leave (Function.update_self ..) rfl hheld
          rw [System.returned_of_update rfl, System.returned_of_update rfl] at hleft
          exact ⟨shared, hshared, hleft⟩
      | access c =>
          obtain ⟨hbare, hrest⟩ := hperforms
          have haccess := hrun.step (.access htask)
          have hsame : ({ (s.resume i op env next (.call (.access c) rest)).resume i op env next
                (rest (step c s.shared).1) with shared := (step c s.shared).2 } :
                System ι Op Env Res Access Ret α σ) =
              s.resume i op env next (rest (step c s.shared).1) := by
            simp only [System.resume, Function.update_idem, D.bare_reads c s.shared hbare]
          change Run body step init _ { (s.resume i op env next (.call (.access c) rest)).resume i op
            env next (rest (step c s.shared).1) with shared := (step c s.shared).2 } at haccess
          rw [hsame] at haccess
          exact ih _ (hrest s.shared (hbody.steady _ _ hR)) haccess

/-- While the lock is free, a task can carry out its next operation. -/
theorem Run.can_call
    {t : τ}
    (hbody : Implements body step sem D R)
    (hR : R s.shared t)
    (hrun : Run body step init past s)
    (hfree : s.owner = none)
    (htask : s.tasks i = .outside (.call op next))
    (env : Env) :
    ∃ shared, R shared (sem op env t).2 ∧
      Run body step init (past ++ [⟨i, op, env, (sem op env t).1⟩])
        (s.returned i (next (sem op env t).1) shared) :=
  Run.can_return hbody hR hfree (hbody.performs op env) (hrun.step (.call env htask))

/-- While the lock is free, a task can end without any other. -/
theorem Run.can_end
    [Nonempty Env]
    {t : τ}
    {p : Prog Op Res α}
    (hbody : Implements body step sem D R)
    (hR : R s.shared t)
    (hrun : Run body step init past s)
    (hfree : s.owner = none)
    (htask : s.tasks i = .outside p) :
    ∃ later a shared t', R shared t' ∧
      Run body step init (past ++ later) (s.returned i (.done a) shared) := by
  induction p generalizing s t past with
  | done a =>
      have hend : s.returned i (.done a) s.shared = s := by
        simp only [System.returned, ← htask, ← hfree, Function.update_eq_self]
      exact ⟨[], a, s.shared, t, hR, by rwa [hend, List.append_nil]⟩
  | call op next ih =>
      obtain ⟨env⟩ := ‹Nonempty Env›
      obtain ⟨shared, hshared, hcall⟩ := hrun.can_call hbody hR hfree htask env
      obtain ⟨later, a, shared', t', hshared', hend⟩ :=
        ih _ hshared hcall rfl (Function.update_self ..)
      rw [System.returned_of_update rfl, List.append_assoc] at hend
      exact ⟨_, a, shared', t', hshared', hend⟩

/-- The task has nothing left to do. -/
def System.Ended
    (s : System ι Op Env Res Access Ret α σ)
    (i : ι) : Prop :=
  ∃ a, s.tasks i = .outside (.done a)

theorem System.Ended.returned
    {s : System ι Op Env Res Access Ret α σ}
    {j : ι}
    (h : s.Ended j)
    (i : ι)
    (a : α)
    (shared : σ) :
    (s.returned i (.done a) shared).Ended j := by
  by_cases hj : j = i
  · subst hj
    exact ⟨a, Function.update_self ..⟩
  · obtain ⟨b, hb⟩ := h
    exact ⟨b, (Function.update_of_ne hj ..).trans hb⟩

end Progress

section Finish

variable
  {progs : ι → Prog Op Res α}
  {shared : σ}
  {init : τ}
  {past : List (Completion ι Op Env Res)}
  {s : System ι Op Env Res Access Ret α σ}

/-- While the lock is free, any task of a run can end. -/
theorem Run.one_can_end
    [Nonempty Env]
    (hbody : Implements body step sem D R)
    (hR : R shared init)
    (hrun : Run body step (System.started progs shared) past s)
    (hfree : s.owner = none)
    (i : ι) :
    ∃ later a shared', Run body step (System.started progs shared) (past ++ later)
      (s.returned i (.done a) shared') := by
  obtain ⟨t, -, h⟩ := hrun.corresponds hbody hR
  have hshared := h.free hfree
  cases htask : s.tasks i with
  | outside p =>
      obtain ⟨later, a, shared', -, -, hend⟩ := hrun.can_end hbody hshared hfree htask
      exact ⟨later, a, shared', hend⟩
  | inside op env c rest next =>
      -- the operation the task is in is completed first
      have hperforms := h.waits i op env c rest next
        (by rw [hfree]; exact (Option.some_ne_none i).symm) htask
      have hsame : s.resume i op env next (.call c rest) = s := by
        simp only [System.resume, Task.resume, ← htask, Function.update_eq_self]
      have hhere : Run body step (System.started progs shared)
          (past ++ (Completion.ofBody i op env (.call c rest)).toList)
          (s.resume i op env next (.call c rest)) := by
        rwa [hsame, Completion.ofBody, Option.toList_none, List.append_nil]
      obtain ⟨shared₁, hshared₁, hcall⟩ := Run.can_return hbody hshared hfree hperforms hhere
      obtain ⟨later, a, shared', -, -, hend⟩ :=
        hcall.can_end hbody hshared₁ rfl (Function.update_self ..)
      rw [System.returned_of_update rfl, List.append_assoc] at hend
      exact ⟨_, a, shared', hend⟩

/-- While the lock is free, the tasks of a run can end, one after the other. -/
theorem Run.all_can_end
    [Nonempty Env]
    (hbody : Implements body step sem D R)
    (hR : R shared init)
    (tasks : List ι)
    (hrun : Run body step (System.started progs shared) past s)
    (hfree : s.owner = none) :
    ∃ later s', Run body step (System.started progs shared) (past ++ later) s' ∧
      s'.owner = none ∧ (∀ i, s.Ended i → s'.Ended i) ∧ ∀ i ∈ tasks, s'.Ended i := by
  induction tasks generalizing s past with
  | nil => exact ⟨[], s, by simpa using hrun, hfree, fun _ h => h, fun _ h => by cases h⟩
  | cons i tasks ih =>
      obtain ⟨later, a, shared', hend⟩ := hrun.one_can_end hbody hR hfree i
      obtain ⟨later', s', hrun', hfree', hkept, hended⟩ := ih hend rfl
      refine ⟨later ++ later', s', by rw [← List.append_assoc]; exact hrun', hfree', ?_, ?_⟩
      · exact fun j hj => hkept j (hj.returned i a shared')
      · intro j hj
        rcases List.mem_cons.mp hj with rfl | hj
        · exact hkept j ⟨a, Function.update_self ..⟩
        · exact hended j hj

/-- **No deadlock**: wherever the scheduler has led, all tasks can end. -/
theorem Run.can_finish
    [Finite ι]
    [Nonempty Env]
    (hbody : Implements body step sem D R)
    (hR : R shared init)
    (hrun : Run body step (System.started progs shared) past s) :
    ∃ later s', Run body step (System.started progs shared) (past ++ later) s' ∧
      s'.owner = none ∧ ∀ i, s'.Ended i := by
  have := Fintype.ofFinite ι
  -- the owner of the lock completes its operation first
  obtain ⟨first, s₁, hrun₁, hfree₁⟩ : ∃ first s₁,
      Run body step (System.started progs shared) (past ++ first) s₁ ∧ s₁.owner = none := by
    cases howner : s.owner with
    | none => exact ⟨[], s, by simpa using hrun, howner⟩
    | some i =>
        obtain ⟨t, -, h⟩ := hrun.corresponds hbody hR
        obtain ⟨op, env, c, rest, next, htask, hheld⟩ := h.held i howner
        obtain ⟨a, shared', -, hleft⟩ := hrun.can_leave htask howner hheld
        exact ⟨_, _, hleft, rfl⟩
  obtain ⟨later, s', hrun', hfree', -, hended⟩ :=
    hrun₁.all_can_end hbody hR Finset.univ.toList hfree₁
  refine ⟨first ++ later, s', by rw [← List.append_assoc]; exact hrun', hfree', fun i => ?_⟩
  exact hended i (Finset.mem_toList.mpr (Finset.mem_univ i))

end Finish
end Runs

end CriticalSections
end WispRelay
