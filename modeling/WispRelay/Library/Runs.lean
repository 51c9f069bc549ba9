import Mathlib.Data.List.Basic
import Mathlib.Tactic

/-!
# Runs of a deterministic machine

A machine is a function `step : σ → ι → ο × σ`; everything its environment decides is part of
the input.  A run is the list of its inputs.

* `run_invariant`: an assertion about the inputs so far and the state holds after every run
  of an admissible list of inputs, when one step preserves it.  Admissibility must be closed
  under prefixes.
* `Admits`: every input is allowed in the state it comes in.
* `AbstractRun`: the runs of a labelled transition system that is to be compared with the
  machine, and `AbstractRun.snoc` to extend one by a step.
-/

namespace WispRelay
namespace Runs

universe u v w x

variable {σ : Type u} {ι : Type v} {ο : Type w} {β : Type x}

/-- The state after the inputs, in order. -/
def finalState (step : σ → ι → ο × σ) : σ → List ι → σ
  | s, [] => s
  | s, i :: rest => finalState step (step s i).2 rest

/-- Each input with the output the machine gave to it. -/
def trace (step : σ → ι → ο × σ) : σ → List ι → List (ι × ο)
  | _, [] => []
  | s, i :: rest => (i, (step s i).1) :: trace step (step s i).2 rest

section Append

variable (step : σ → ι → ο × σ)

@[simp] theorem finalState_nil (s : σ) : finalState step s [] = s := rfl

@[simp] theorem trace_nil (s : σ) : trace step s [] = [] := rfl

theorem finalState_append (s : σ) (xs ys : List ι) :
    finalState step s (xs ++ ys) = finalState step (finalState step s xs) ys := by
  induction xs generalizing s with
  | nil => rfl
  | cons i xs ih => simpa [finalState] using ih (step s i).2

@[simp] theorem finalState_snoc (s : σ) (xs : List ι) (i : ι) :
    finalState step s (xs ++ [i]) = (step (finalState step s xs) i).2 := by
  rw [finalState_append]
  rfl

theorem trace_append (s : σ) (xs ys : List ι) :
    trace step s (xs ++ ys) =
      trace step s xs ++ trace step (finalState step s xs) ys := by
  induction xs generalizing s with
  | nil => rfl
  | cons i xs ih => simpa [trace, finalState] using ih (step s i).2

@[simp] theorem trace_snoc (s : σ) (xs : List ι) (i : ι) :
    trace step s (xs ++ [i]) =
      trace step s xs ++ [(i, (step (finalState step s xs) i).1)] := by
  rw [trace_append]
  rfl

end Append

/--
**Invariant rule.**  `admissible` says which lists of inputs are allowed and is closed under
prefixes; `Inv` speaks of the inputs so far and the state reached.
-/
theorem run_invariant {step : σ → ι → ο × σ} {s₀ : σ}
    (admissible : List ι → Prop) (Inv : List ι → σ → Prop)
    (hclosed : ∀ past i, admissible (past ++ [i]) → admissible past)
    (hinit : Inv [] s₀)
    (hstep : ∀ past i, admissible (past ++ [i]) →
      Inv past (finalState step s₀ past) →
      Inv (past ++ [i]) (step (finalState step s₀ past) i).2) :
    ∀ inputs, admissible inputs → Inv inputs (finalState step s₀ inputs) := by
  intro inputs
  induction inputs using List.reverseRecOn with
  | nil =>
      intro _
      exact hinit
  | append_singleton past i ih =>
      intro hadm
      rw [finalState_snoc]
      exact hstep past i hadm (ih (hclosed past i hadm))

/-- Every input is allowed in the state it comes in. -/
def Admits
    (step : σ → ι → ο × σ)
    (allowed : σ → ι → Prop)
    (s₀ : σ)
    (inputs : List ι) : Prop :=
  ∀ past i, past ++ [i] <+: inputs → allowed (finalState step s₀ past) i

namespace Admits

variable
  {step : σ → ι → ο × σ}
  {allowed : σ → ι → Prop}
  {s₀ : σ}
  {inputs : List ι}

theorem before
    {front : List ι}
    (h : Admits step allowed s₀ inputs)
    (hfront : front <+: inputs) :
    Admits step allowed s₀ front :=
  fun past i hpast => h past i (hpast.trans hfront)

theorem snoc
    {i : ι}
    (h : Admits step allowed s₀ inputs)
    (hi : allowed (finalState step s₀ inputs) i) :
    Admits step allowed s₀ (inputs ++ [i]) := by
  intro past j hpast
  rcases List.prefix_concat_iff.mp hpast with heq | hfront
  · obtain ⟨rfl, hlast⟩ := List.append_inj' heq rfl
    obtain rfl : j = i := List.singleton_inj.mp hlast
    exact hi
  · exact h past j hfront

/-- It is enough to look at each position of the run. -/
theorem of_get
    (h : ∀ i : Fin inputs.length, allowed (finalState step s₀ (inputs.take i)) inputs[i]) :
    Admits step allowed s₀ inputs := by
  rintro past i ⟨rest, rfl⟩
  have hi : past.length < (past ++ [i] ++ rest).length := by
    simp
  simpa using h ⟨past.length, hi⟩

/-- **Invariant rule** for allowed inputs. -/
theorem invariant
    (Inv : σ → Prop)
    (hinit : Inv s₀)
    (hstep : ∀ s i, allowed s i → Inv s → Inv (step s i).2)
    (h : Admits step allowed s₀ inputs) :
    Inv (finalState step s₀ inputs) := by
  refine run_invariant (Admits step allowed s₀) (fun _ => Inv) ?_ hinit ?_ inputs h
  · exact fun past i hadmits => hadmits.before (List.prefix_append past [i])
  · exact fun past i hadmits => hstep _ i (hadmits past i List.prefix_rfl)

end Admits

/-- Runs of a labelled transition system, with the labels in order. -/
inductive AbstractRun (step : β → ι → ο → β → Prop) :
    β → List (ι × ο) → β → Prop
  | nil (a : β) : AbstractRun step a [] a
  | cons {a b c : β} {i : ι} {o : ο} {labels : List (ι × ο)} :
      step a i o b → AbstractRun step b labels c →
      AbstractRun step a ((i, o) :: labels) c

/-- A run can be extended at its end. -/
theorem AbstractRun.snoc {step : β → ι → ο → β → Prop} {a b c : β}
    {labels : List (ι × ο)} {i : ι} {o : ο}
    (hrun : AbstractRun step a labels b) (hstep : step b i o c) :
    AbstractRun step a (labels ++ [(i, o)]) c := by
  induction hrun with
  | nil a => exact AbstractRun.cons hstep (AbstractRun.nil c)
  | cons hfirst _ ih => exact AbstractRun.cons hfirst (ih hstep)

end Runs
end WispRelay
