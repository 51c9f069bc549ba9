import Mathlib.Data.Multiset.AddSub
import WispRelay.Library.Execution
import WispRelay.Library.Runs

/-!
# Blocks with contents, and programs that may go wrong

A heap of blocks, each with a value.  To free, read or write a block that is not in use is an error,
and a computation that makes one has no result.

* `Yields p post`: the computation `p` makes no error and returns what satisfies `post`.
* `runOrFail`, `Yields.runOrFail`: a program whose calls may go wrong, and its simulation rule.
* `Yields.foldlM`: the simulation rule for steps that may go wrong.
* `Holds heap owned`: the blocks in use and their contents are `owned`, with the rules for each
  operation.
-/

namespace WispRelay
namespace BlockHeap

open Interference Runs

/-! ## Computations that may go wrong -/

section Errors

variable
  {α β σ τ ε : Type}

/-- There is a result, and it is as `post` says. -/
def Yields
    (p : Option α)
    (post : α → Prop) : Prop :=
  ∃ a, p = some a ∧ post a

theorem Yields.intro
    {a : α}
    {post : α → Prop}
    (h : post a) :
    Yields (some a) post :=
  ⟨a, rfl, h⟩

/-- **Rule of composition.** -/
theorem Yields.bind
    {p : Option α}
    {f : α → Option β}
    {mid : α → Prop}
    {post : β → Prop}
    (hp : Yields p mid)
    (hf : ∀ a, mid a → Yields (f a) post) :
    Yields (p >>= f) post := by
  obtain ⟨a, rfl, hmid⟩ := hp
  exact hf a hmid

theorem Yields.mono
    {p : Option α}
    {mid post : α → Prop}
    (hp : Yields p mid)
    (hpost : ∀ a, mid a → post a) :
    Yields p post := by
  obtain ⟨a, heq, hmid⟩ := hp
  exact ⟨a, heq, hpost a hmid⟩

/-- Execute a program whose calls may go wrong. -/
def runOrFail
    {Call : Type}
    {Ret : Call → Type}
    (step : (c : Call) → σ → Option (Ret c × σ)) : Prog Call Ret α → σ → Option (α × σ)
  | .done result, s => some (result, s)
  | .call c next, s => do
      let r ← step c s
      runOrFail step (next r.1) r.2

/-- **Simulation rule for programs.**  Each call returns what the other one returns. -/
theorem Yields.runOrFail
    {Call : Type}
    {Ret : Call → Type}
    {step : (c : Call) → σ → Option (Ret c × σ)}
    {other : (c : Call) → τ → Ret c × τ}
    {R : σ → τ → Prop}
    (hstep : ∀ c s t, R s t →
      Yields (step c s) fun r => r.1 = (other c t).1 ∧ R r.2 (other c t).2)
    (p : Prog Call Ret α)
    {s : σ}
    {t : τ}
    (h : R s t) :
    Yields (BlockHeap.runOrFail step p s) fun r =>
      r.1 = (p.run other t).1 ∧ R r.2 (p.run other t).2 := by
  induction p generalizing s t with
  | done result => exact Yields.intro ⟨rfl, h⟩
  | call c next ih =>
      refine (hstep c s t h).bind ?_
      rintro ⟨result, s'⟩ ⟨rfl, h'⟩
      exact ih _ h'

/-- **Simulation rule for steps**, some of which may stand for no step of the machine. -/
theorem Yields.foldlM
    {δ ο : Type}
    {step : σ → ε → Option σ}
    {machine : τ → δ → ο × τ}
    {event : ε → Option δ}
    {R : σ → τ → Prop}
    (hstep : ∀ s t e, R s t →
      Yields (step s e) fun s' => R s' (finalState machine t (event e).toList))
    (events : List ε)
    {s : σ}
    {t : τ}
    (h : R s t) :
    Yields (events.foldlM step s) fun s' =>
      R s' (finalState machine t (events.filterMap event)) := by
  induction events generalizing s t with
  | nil => exact Yields.intro h
  | cons e events ih =>
      have hevents : (e :: events).filterMap event =
          (event e).toList ++ events.filterMap event := by
        cases hevent : event e with
        | none => rw [List.filterMap_cons_none hevent, Option.toList_none, List.nil_append]
        | some d => rw [List.filterMap_cons_some hevent, Option.toList_some, List.singleton_append]
      rw [List.foldlM_cons, hevents, finalState_append]
      exact (hstep s t e h).bind fun s' h' => ih h'

end Errors

/-! ## The heap -/

/-- A block, by its number. -/
abbrev Block := Nat

/-- The number of the next block, and what is in the blocks in use. -/
structure Heap (V : Type) where
  next : Block
  cells : Block → Option V

variable {V : Type}

namespace Heap

/-- No block is in use. -/
def empty : Heap V where
  next := 0
  cells := fun _ => none

/-- A new block. -/
def alloc
    (heap : Heap V)
    (v : V) : Block × Heap V :=
  (heap.next, ⟨heap.next + 1, Function.update heap.cells heap.next (some v)⟩)

/-- What is in a block. -/
def load
    (heap : Heap V)
    (b : Block) : Option V :=
  heap.cells b

/-- Replace what is in a block. -/
def store
    (heap : Heap V)
    (b : Block)
    (v : V) : Option (Heap V) := do
  let _ ← heap.cells b
  some { heap with cells := Function.update heap.cells b (some v) }

/-- The block is not in use any more. -/
def free
    (heap : Heap V)
    (b : Block) : Option (Heap V) := do
  let _ ← heap.cells b
  some { heap with cells := Function.update heap.cells b none }

end Heap

/-- The blocks in use, with their contents. -/
structure Holds
    (heap : Heap V)
    (owned : Multiset (Block × V)) : Prop where
  nodup : owned.Nodup
  fresh : ∀ x ∈ owned, x.1 < heap.next
  cells : ∀ b v, heap.cells b = some v ↔ (b, v) ∈ owned

namespace Holds

variable
  {heap : Heap V}
  {owned : Multiset (Block × V)}
  {b : Block}
  {v : V}

theorem empty : Holds (Heap.empty : Heap V) 0 where
  nodup := Multiset.nodup_zero
  fresh := fun _ hx => absurd hx (Multiset.notMem_zero _)
  cells := fun b v => by simp [Heap.empty]

/-- A block has one contents. -/
theorem other_block
    (h : Holds heap ((b, v) ::ₘ owned))
    {x : Block}
    {w : V}
    (hx : (x, w) ∈ owned) :
    x ≠ b := by
  rintro rfl
  have hw := (h.cells x w).mpr (Multiset.mem_cons_of_mem hx)
  have hv := (h.cells x v).mpr (Multiset.mem_cons_self _ _)
  have hvw : w = v := Option.some_injective _ (hw.symm.trans hv)
  exact (Multiset.nodup_cons.mp h.nodup).1 (hvw ▸ hx)

theorem alloc
    (h : Holds heap owned)
    (v : V) :
    Holds (heap.alloc v).2 (((heap.alloc v).1, v) ::ₘ owned) := by
  have hnew : ∀ w, (heap.next, w) ∉ owned := fun w hw => absurd (h.fresh _ hw) (Nat.lt_irrefl _)
  constructor
  · exact Multiset.nodup_cons.mpr ⟨hnew v, h.nodup⟩
  · intro x hx
    rcases Multiset.mem_cons.mp hx with rfl | hx
    · exact Nat.lt_succ_self _
    · exact Nat.lt_succ_of_lt (h.fresh x hx)
  · intro x w
    by_cases hxb : x = heap.next
    · subst hxb
      simp [Heap.alloc, hnew, eq_comm]
    · simp [Heap.alloc, hxb, h.cells]

theorem load
    (h : Holds heap owned)
    (hb : (b, v) ∈ owned) :
    heap.load b = some v :=
  (h.cells b v).mpr hb

theorem free
    (h : Holds heap ((b, v) ::ₘ owned)) :
    Yields (heap.free b) fun heap' => Holds heap' owned := by
  refine ⟨_, by rw [Heap.free, (h.cells b v).mpr (Multiset.mem_cons_self _ _)]; rfl, ?_⟩
  constructor
  · exact (Multiset.nodup_cons.mp h.nodup).2
  · exact fun x hx => h.fresh x (Multiset.mem_cons_of_mem hx)
  · intro x w
    by_cases hxb : x = b
    · subst hxb
      simpa using fun hx => h.other_block hx rfl
    · simp [hxb, h.cells]

theorem store
    (h : Holds heap ((b, v) ::ₘ owned))
    (w : V) :
    Yields (heap.store b w) fun heap' => Holds heap' ((b, w) ::ₘ owned) := by
  have hb : ∀ u, (b, u) ∉ owned := fun u hu => h.other_block hu rfl
  refine ⟨_, by rw [Heap.store, (h.cells b v).mpr (Multiset.mem_cons_self _ _)]; rfl, ?_⟩
  constructor
  · exact Multiset.nodup_cons.mpr ⟨hb w, (Multiset.nodup_cons.mp h.nodup).2⟩
  · intro x hx
    rcases Multiset.mem_cons.mp hx with rfl | hx
    · exact h.fresh (b, v) (Multiset.mem_cons_self _ _)
    · exact h.fresh x (Multiset.mem_cons_of_mem hx)
  · intro x u
    by_cases hxb : x = b
    · subst hxb
      simp [hb, eq_comm]
    · simp [hxb, h.cells]

end Holds

end BlockHeap
end WispRelay
