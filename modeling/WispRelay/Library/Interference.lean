import Mathlib.Logic.Relation
import Mathlib.Tactic

/-!
# Sequential programs under interference

A program makes calls one after the other; each call is atomic, and between two calls other
parties may take steps of a relation `rely`.  What a call does is a relation `sem` between the
state, the value returned and the next state.

* `Reaches`: the programs and states reached in some interleaving.
* `Safe`: every call is made in a state that allows it, whatever happens in between, and the
  program ends in a state that satisfies a postcondition.
* `Safe.reaches`: what a safe program reaches is safe; so every call it makes is allowed.
* `Safe.invariant`: what allowed calls and the other parties keep, the program keeps.

The rules are `Safe.call` for one call, with an assertion that interference keeps, `Safe.bind`
for composition and `Safe.total` for a loop with an invariant.
-/

namespace WispRelay
namespace Interference

open Relation

universe u v w

/-- A sequential program: it ends, or makes a call and goes on with what the call returns. -/
inductive Prog
    (Call : Type u)
    (Ret : Call → Type v)
    (α : Type v) : Type (max u v)
  | done (result : α)
  | call (c : Call) (next : Ret c → Prog Call Ret α)

namespace Prog

variable
  {Call : Type u}
  {Ret : Call → Type v}
  {α β : Type v}

/-- Run one program, then another one with its result. -/
def bind : Prog Call Ret α → (α → Prog Call Ret β) → Prog Call Ret β
  | done result, f => f result
  | call c next, f => call c (fun r => bind (next r) f)

instance : Monad (Prog Call Ret) where
  pure := done
  bind := bind

/-- Make one call. -/
def perform
    (c : Call) : Prog Call Ret (Ret c) :=
  call c done

@[simp] theorem pure_bind'
    (a : α)
    (f : α → Prog Call Ret β) :
    ((pure a : Prog Call Ret α) >>= f) = f a := rfl

@[simp] theorem perform_bind
    (c : Call)
    (f : Ret c → Prog Call Ret β) :
    ((perform c : Prog Call Ret (Ret c)) >>= f) = call c f := rfl

/-- A loop over a list that adds up what its body returns. -/
def total
    {Ret : Call → Type}
    {ι : Type w}
    (body : ι → Prog Call Ret Nat) : List ι → Prog Call Ret Nat
  | [] => pure 0
  | x :: rest => do
      let n ← body x
      let m ← total body rest
      pure (n + m)

end Prog

section Semantics

variable
  {Call : Type u}
  {Ret : Call → Type v}
  {α β : Type v}
  {σ : Type w}
  (sem : (c : Call) → σ → Ret c → σ → Prop)
  (rely : σ → σ → Prop)

/-- What a program reaches in some interleaving with steps of the other parties. -/
inductive Reaches
    (start : Prog Call Ret α)
    (init : σ) : Prog Call Ret α → σ → Prop
  | refl : Reaches start init start init
  | own
      {c : Call}
      {next : Ret c → Prog Call Ret α}
      {s s' : σ}
      {r : Ret c} :
      Reaches start init (Prog.call c next) s → sem c s r s' →
      Reaches start init (next r) s'
  | other
      {p : Prog Call Ret α}
      {s s' : σ} :
      Reaches start init p s → rely s s' → Reaches start init p s'

/-- Every call is allowed when it is made, and the program ends with the postcondition. -/
def Safe
    (allowed : Call → σ → Prop) :
    Prog Call Ret α → (α → σ → Prop) → σ → Prop
  | Prog.done result, post, s => post result s
  | Prog.call c next, post, s =>
      ∀ s', ReflTransGen rely s s' →
        allowed c s' ∧ ∀ r s'', sem c s' r s'' → Safe allowed (next r) post s''

namespace Safe

variable
  {sem : (c : Call) → σ → Ret c → σ → Prop}
  {rely : σ → σ → Prop}
  {allowed : Call → σ → Prop}

/-- Interference does not make a program unsafe, when it keeps the postcondition. -/
theorem interfere
    {p : Prog Call Ret α}
    {post : α → σ → Prop}
    (hpost : ∀ a s s', post a s → rely s s' → post a s')
    {s s' : σ}
    (h : Safe sem rely allowed p post s)
    (hstep : rely s s') :
    Safe sem rely allowed p post s' := by
  cases p with
  | done result => exact hpost result s s' h hstep
  | call c next =>
      intro later hlater
      exact h later (ReflTransGen.head hstep hlater)

/-- A call a safe program is about to make is allowed. -/
theorem allowed_of_call
    {c : Call}
    {next : Ret c → Prog Call Ret α}
    {post : α → σ → Prop}
    {s : σ}
    (h : Safe sem rely allowed (Prog.call c next) post s) :
    allowed c s :=
  (h s ReflTransGen.refl).1

/-- What a safe program reaches is safe. -/
theorem reaches
    {start p : Prog Call Ret α}
    {post : α → σ → Prop}
    (hpost : ∀ a s s', post a s → rely s s' → post a s')
    {init s : σ}
    (h : Safe sem rely allowed start post init)
    (hreach : Reaches sem rely start init p s) :
    Safe sem rely allowed p post s := by
  induction hreach with
  | refl => exact h
  | own _ hcall ih => exact (ih _ ReflTransGen.refl).2 _ _ hcall
  | other _ hstep ih => exact ih.interfere hpost hstep

/-- What interference and allowed calls keep holds in every state that is reached. -/
theorem invariant
    {start p : Prog Call Ret α}
    {post : α → σ → Prop}
    (hpost : ∀ a s s', post a s → rely s s' → post a s')
    {init s : σ}
    (h : Safe sem rely allowed start post init)
    {I : σ → Prop}
    (hinit : I init)
    (hown : ∀ c s r s', I s → allowed c s → sem c s r s' → I s')
    (hrely : ∀ s s', I s → rely s s' → I s')
    (hreach : Reaches sem rely start init p s) :
    I s := by
  induction hreach with
  | refl => exact hinit
  | own hbefore hcall ih =>
      exact hown _ _ _ _ ih (h.reaches hpost hbefore).allowed_of_call hcall
  | other _ hstep ih => exact hrely _ _ ih hstep

/-- **Rule of the call**, with an assertion that interference keeps. -/
theorem call
    {I : σ → Prop}
    (hstable : ∀ s s', I s → rely s s' → I s')
    {c : Call}
    {next : Ret c → Prog Call Ret α}
    {post : α → σ → Prop}
    (hcall : ∀ s, I s →
      allowed c s ∧ ∀ r s', sem c s r s' → Safe sem rely allowed (next r) post s')
    {s : σ}
    (h : I s) :
    Safe sem rely allowed (Prog.call c next) post s := by
  intro s' hlater
  have hnow : I s' := by
    induction hlater with
    | refl => exact h
    | tail _ hstep ih => exact hstable _ _ ih hstep
  exact hcall s' hnow

theorem mono
    {p : Prog Call Ret α}
    {post post' : α → σ → Prop}
    (himp : ∀ a s, post a s → post' a s) :
    ∀ {s : σ}, Safe sem rely allowed p post s → Safe sem rely allowed p post' s := by
  induction p with
  | done result =>
      intro s h
      exact himp result s h
  | call c next ih =>
      intro s h s' hlater
      obtain ⟨hallowed, hnext⟩ := h s' hlater
      exact ⟨hallowed, fun r s'' hcall => ih r (hnext r s'' hcall)⟩

/-- **Rule of composition.** -/
theorem bind
    {p : Prog Call Ret α}
    {f : α → Prog Call Ret β}
    {post : β → σ → Prop} :
    ∀ {s : σ}, Safe sem rely allowed p (fun a => Safe sem rely allowed (f a) post) s →
      Safe sem rely allowed (p >>= f) post s := by
  induction p with
  | done result =>
      intro s h
      exact h
  | call c next ih =>
      intro s h s' hlater
      obtain ⟨hallowed, hnext⟩ := h s' hlater
      exact ⟨hallowed, fun r s'' hcall => ih r (hnext r s'' hcall)⟩

/-- **Rule of the loop**, with an invariant of the body. -/
theorem total
    {Ret : Call → Type}
    {sem : (c : Call) → σ → Ret c → σ → Prop}
    {I : σ → Prop}
    {ι : Type w}
    {body : ι → Prog Call Ret Nat}
    {xs : List ι}
    (hbody : ∀ x ∈ xs, ∀ s, I s → Safe sem rely allowed (body x) (fun _ => I) s) :
    ∀ {s : σ}, I s → Safe sem rely allowed (Prog.total body xs) (fun _ => I) s := by
  induction xs with
  | nil =>
      intro s h
      exact h
  | cons x rest ih =>
      intro s h
      refine Safe.bind ((hbody x List.mem_cons_self s h).mono ?_)
      intro n s' h'
      refine Safe.bind ((ih (fun y hy => hbody y (List.mem_cons_of_mem _ hy)) h').mono ?_)
      intro m s'' h''
      exact h''

end Safe

end Semantics

end Interference
end WispRelay
