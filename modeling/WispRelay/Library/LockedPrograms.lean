import WispRelay.Library.Contracts

/-!
# Programs that use a lock

A program makes accesses to a shared state and, in between, takes a lock and gives it back.  Nothing
in its form says that it does so in time: it may touch the state without the lock, forget to give
it back, or return while it holds it.  The contracts below say that it does none of these.

* `LockProg`: the programs, and `LockProg.accessing`: accesses in a row, as a part of one.
* `Held`: with the lock taken, every access is allowed where it is made, and whatever happens the
  lock is given back once and the program ends.
* `Discipline`: which accesses may be made without the lock, and what holds while others hold it.
* `Performs`: before it takes the lock the program keeps to these accesses; from there on it is
  `Held` and does what an operation on a more abstract state says.
-/

namespace WispRelay
namespace CriticalSections

open Interference

universe u v w

/-- A call of a program: to the lock, or an access to what is shared. -/
inductive LockCall
    (Access : Type u) : Type u
  | take
  | give
  | access (c : Access)

/-- What the call returns. -/
def LockCall.Ret
    {Access : Type u}
    (Ret : Access → Type v) : LockCall Access → Type v
  | .take => PUnit
  | .give => PUnit
  | .access c => Ret c

/-- A program of accesses and calls to the lock. -/
abbrev LockProg
    (Access : Type u)
    (Ret : Access → Type v) : Type v → Type (max u v) :=
  Prog (LockCall Access) (LockCall.Ret Ret)

namespace LockProg

variable
  {Access : Type u}
  {Ret : Access → Type v}
  {α β : Type v}
  {σ τ : Type w}

def take : LockProg Access Ret PUnit :=
  Prog.perform LockCall.take

def give : LockProg Access Ret PUnit :=
  Prog.perform LockCall.give

def access
    (c : Access) : LockProg Access Ret (Ret c) :=
  Prog.perform (LockCall.access c)

/-- The accesses of a program, one after the other. -/
def accessing
    (p : Prog Access Ret α) : LockProg Access Ret α :=
  p.interpret access

/-! ## With the lock -/

variable
  (step : (c : Access) → σ → Ret c × σ)

/--
Every access is allowed where it is made; the lock is given back once, where the postcondition
holds, and with it the program ends.
-/
def Held
    (allowed : Access → σ → Prop) : LockProg Access Ret α → (α → σ → Prop) → σ → Prop
  | .done _, _, _ => False
  | .call .take _, _, _ => False
  | .call .give rest, post, s => ∃ a, rest ⟨⟩ = .done a ∧ post a s
  | .call (.access c) rest, post, s =>
      allowed c s ∧ Held allowed (rest (step c s).1) post (step c s).2

variable
  {step}
  {allowed : Access → σ → Prop}

/-- **Rule of the end**: the lock is given back and the program returns. -/
theorem Held.give
    {a : α}
    {post : α → σ → Prop}
    {s : σ}
    (h : post a s) :
    Held step allowed (do give; pure a) post s :=
  ⟨a, rfl, h⟩

/-- **Rule of composition**, for accesses in a row. -/
theorem Held.accessing
    {p : Prog Access Ret α}
    {f : α → LockProg Access Ret β}
    {Q : α → σ → Prop}
    {post : β → σ → Prop}
    {s : σ}
    (h : Prog.Meets step allowed p Q s)
    (hf : ∀ a s', Q a s' → Held step allowed (f a) post s') :
    Held step allowed (accessing p >>= f) post s := by
  induction p generalizing s with
  | done a => exact hf a s h.ends
  | call c next ih => exact ⟨h.of_call.1, ih _ h.of_call.2⟩

theorem Held.mono
    {p : LockProg Access Ret α}
    {post post' : α → σ → Prop}
    (himp : ∀ a s', post a s' → post' a s')
    {s : σ}
    (h : Held step allowed p post s) :
    Held step allowed p post' s := by
  induction p generalizing s with
  | done a => exact h
  | call c rest ih =>
      cases c with
      | take => exact h
      | give =>
          obtain ⟨a, hend, hpost⟩ := h
          exact ⟨a, hend, himp a s hpost⟩
      | access c => exact ⟨h.1, ih _ h.2⟩

/-- A program that holds the lock has not ended. -/
theorem Held.call
    {p : LockProg Access Ret α}
    {post : α → σ → Prop}
    {s : σ}
    (h : Held step allowed p post s) :
    ∃ c rest, p = .call c rest := by
  cases p with
  | done a => exact absurd h id
  | call c rest => exact ⟨c, rest, rfl⟩

/-! ## Before the lock -/

variable (step) in
/-- How programs use what they share. -/
structure Discipline where
  /-- Where an access may be made. -/
  allowed : Access → σ → Prop
  /-- The accesses that need no lock. -/
  bare : Access → Prop
  /-- What holds at every moment, also while the lock is held. -/
  steady : σ → Prop
  steady_step : ∀ c s, steady s → allowed c s → steady (step c s).2
  bare_allowed : ∀ c s, bare c → steady s → allowed c s
  bare_reads : ∀ c s, bare c → (step c s).2 = s

/--
The program does what `sem` says.  As long as it has not taken the lock it only makes accesses that
need none, and counts on nothing but what always holds; where it returns without the lock, `sem`
returns the same and changes nothing.
-/
def Performs
    (D : Discipline step)
    (R : σ → τ → Prop)
    (sem : τ → α × τ) : LockProg Access Ret α → Prop
  | .done a => ∀ s t, R s t → sem t = (a, t)
  | .call .take rest => ∀ s t, R s t →
      Held step D.allowed (rest ⟨⟩) (fun a s' => a = (sem t).1 ∧ R s' (sem t).2) s
  | .call .give _ => False
  | .call (.access c) rest => D.bare c ∧ ∀ s, D.steady s → Performs D R sem (rest (step c s).1)

end LockProg

end CriticalSections
end WispRelay
