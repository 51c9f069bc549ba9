import Mathlib.Data.Multiset.AddSub
import WispRelay.Library.Contracts

/-!
# Resources that are acquired and released

A program acquires resources of some kinds, which may be refused, releases them, and makes other
calls, each of which may need some of them.  What is granted and what the other calls return is up
to the environment.

* `Uses answers k needs p owned post`: a program that owns `owned` when it starts releases nothing
  that it does not own, makes no call without what the call needs, and ends with a result and
  resources that satisfy `post`; its requests have numbers from `k` on.
* `Uses.acquire_bind`, `Uses.release_bind`, `Uses.perform_bind`, `Uses.bind`: its rules.
* `fold`, `Uses.fold`: one program after the other, as events come, and its invariant rule.
-/

namespace WispRelay
namespace Ownership

open Interference

variable
  {R C : Type}
  {ret : C → Type}

/-- A resource: its kind, and a number that no other one has. -/
abbrev Resource (R : Type) := R × Nat

/-- What a program can ask for. -/
inductive Request (R C : Type) where
  | acquire (kind : R)
  | release (r : Resource R)
  | other (c : C)

/-- What it is answered; a resource may be refused. -/
def Request.Ret
    (ret : C → Type) : Request R C → Type
  | .acquire _ => Option (Resource R)
  | .release _ => Unit
  | .other c => ret c

/-- A program of such requests. -/
abbrev ResourceProg (R C : Type) (ret : C → Type) := Prog (Request R C) (Request.Ret (R := R) ret)

/-- Acquire a resource of a kind. -/
def acquire
    (kind : R) : ResourceProg R C ret (Option (Resource R)) :=
  .call (.acquire kind) .done

/-- Release a resource. -/
def release
    (r : Resource R) : ResourceProg R C ret Unit :=
  .call (.release r) .done

/-- Release a resource, if there is one. -/
def releaseIfSet : Option (Resource R) → ResourceProg R C ret Unit
  | none => pure ()
  | some r => release r

/-- Make another call. -/
def perform
    (c : C) : ResourceProg R C ret (ret c) :=
  .call (.other c) .done

/-- What the environment decides, by the number of the request. -/
structure Answers (R C : Type) (ret : C → Type) where
  granted : Nat → R → Bool
  other : Nat → (c : C) → ret c

/-- The resources that are in use, and the number of the next request. -/
structure Pool (R : Type) where
  next : Nat
  live : Multiset (Resource R)

variable
  [DecidableEq R]

/-- One request. -/
def serve
    (answers : Answers R C ret) : (q : Request R C) → Pool R → q.Ret ret × Pool R
  | .acquire kind, pool =>
      if answers.granted pool.next kind then
        (some (kind, pool.next), ⟨pool.next + 1, (kind, pool.next) ::ₘ pool.live⟩)
      else (none, ⟨pool.next + 1, pool.live⟩)
  | .release r, pool => ((), ⟨pool.next + 1, pool.live.erase r⟩)
  | .other c, pool => (answers.other pool.next c, ⟨pool.next + 1, pool.live⟩)

/-- Only what is in use is released, and a call has what it needs. -/
def Proper
    (needs : C → Multiset (Resource R) → Prop) : Request R C → Pool R → Prop
  | .acquire _, _ => True
  | .release r, pool => r ∈ pool.live
  | .other c, pool => needs c pool.live

/--
From the request with number `k` on, the program makes proper requests only and ends as `post`
says.
-/
def Uses
    {α : Type}
    (answers : Answers R C ret)
    (k : Nat)
    (needs : C → Multiset (Resource R) → Prop)
    (p : ResourceProg R C ret α)
    (owned : Multiset (Resource R))
    (post : α → Multiset (Resource R) → Prop) : Prop :=
  ∀ next, k ≤ next → Prog.Meets (serve answers) (Proper needs) p
    (fun a pool => k ≤ pool.next ∧ post a pool.live) ⟨next, owned⟩

namespace Uses

variable
  {α β : Type}
  {answers : Answers R C ret}
  {k : Nat}
  {needs : C → Multiset (Resource R) → Prop}
  {owned : Multiset (Resource R)}
  {post : α → Multiset (Resource R) → Prop}

theorem pure
    {a : α}
    (h : post a owned) :
    Uses answers k needs (pure a : ResourceProg R C ret α) owned post :=
  fun _ hnext => Prog.Meets.pure ⟨hnext, h⟩

/-- A resource is granted, or it is not. -/
theorem acquire_bind
    {kind : R}
    {f : Option (Resource R) → ResourceProg R C ret α}
    (hgranted : ∀ n, Uses answers k needs (f (some (kind, n))) ((kind, n) ::ₘ owned) post)
    (hrefused : ∀ n, k ≤ n → answers.granted n kind = false →
      Uses answers k needs (f none) owned post) :
    Uses answers k needs (acquire kind >>= f) owned post := by
  intro n hn
  refine Prog.Meets.perform_bind trivial ?_
  simp only [serve]
  split
  next => exact hgranted n (n + 1) (by omega)
  next hno => exact hrefused n hn (by simpa using hno) (n + 1) (by omega)

/-- A resource that is owned is released. -/
theorem release_bind
    {r : Resource R}
    {f : Unit → ResourceProg R C ret α}
    (h : Uses answers k needs (f ()) owned post) :
    Uses answers k needs (release r >>= f) (r ::ₘ owned) post := by
  intro n hn
  refine Prog.Meets.perform_bind (Multiset.mem_cons_self r owned) ?_
  simp only [serve, Multiset.erase_cons_head]
  exact h (n + 1) (by omega)

/-- What a pointer points to is owned and released. -/
theorem releaseIfSet_bind
    (r : Option (Resource R))
    {f : Unit → ResourceProg R C ret α}
    (h : Uses answers k needs (f ()) owned post) :
    Uses answers k needs (releaseIfSet r >>= f) (Multiset.ofList r.toList + owned) post := by
  cases r with
  | none =>
      rw [Option.toList_none, Multiset.coe_nil, zero_add]
      exact h
  | some r => exact release_bind h

/-- Any other call has what it needs, and returns what it is answered. -/
theorem perform_bind
    {c : C}
    {f : ret c → ResourceProg R C ret α}
    (hneeds : needs c owned)
    (h : ∀ n, k ≤ n → Uses answers k needs (f (answers.other n c)) owned post) :
    Uses answers k needs (perform c >>= f) owned post :=
  fun n hn => Prog.Meets.perform_bind hneeds (h n hn (n + 1) (by omega))

/-- What one program leaves is what the next one starts with. -/
theorem bind
    {p : ResourceProg R C ret α}
    {f : α → ResourceProg R C ret β}
    {Q : α → Multiset (Resource R) → Prop}
    {post : β → Multiset (Resource R) → Prop}
    (hp : Uses answers k needs p owned Q)
    (hf : ∀ a owned', Q a owned' → Uses answers k needs (f a) owned' post) :
    Uses answers k needs (p >>= f) owned post :=
  fun n hn => (hp n hn).bind fun a pool hQ => hf a pool.live hQ.2 pool.next hQ.1

theorem mono
    {p : ResourceProg R C ret α}
    {Q : α → Multiset (Resource R) → Prop}
    (h : Uses answers k needs p owned Q)
    (hpost : ∀ a owned', Q a owned' → post a owned') :
    Uses answers k needs p owned post :=
  fun n hn => (h n hn).mono fun a pool hQ => ⟨hQ.1, hpost a pool.live hQ.2⟩

end Uses

/-! ## One program after the other -/

/-- Handle events in order, each with the state the one before left. -/
def fold
    {σ ε : Type}
    (body : σ → ε → ResourceProg R C ret σ) : σ → List ε → ResourceProg R C ret σ
  | s, [] => pure s
  | s, event :: events => do
      let s ← body s event
      fold body s events

omit [DecidableEq R] in
theorem fold_append
    {σ ε : Type}
    (body : σ → ε → ResourceProg R C ret σ)
    (s : σ)
    (before later : List ε) :
    fold body s (before ++ later) = fold body s before >>= fun s => fold body s later := by
  induction before generalizing s with
  | nil => rfl
  | cons event before ih =>
      simp only [List.cons_append, fold, ih]
      exact (Prog.bind_assoc _ _ _).symm

/-- **Invariant rule.** -/
theorem Uses.fold
    {σ ε : Type}
    {answers : Answers R C ret}
    {k : Nat}
    {needs : C → Multiset (Resource R) → Prop}
    {body : σ → ε → ResourceProg R C ret σ}
    {Inv : σ → Multiset (Resource R) → Prop}
    (hstep : ∀ s event owned, Inv s owned → Uses answers k needs (body s event) owned Inv)
    {s : σ}
    {owned : Multiset (Resource R)}
    (hinit : Inv s owned)
    (events : List ε) :
    Uses answers k needs (Ownership.fold body s events) owned Inv := by
  induction events generalizing s owned with
  | nil => exact Uses.pure hinit
  | cons event events ih => exact (hstep s event owned hinit).bind fun _ _ h => ih h

end Ownership
end WispRelay
