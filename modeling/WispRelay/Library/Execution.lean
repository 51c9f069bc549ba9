import WispRelay.Library.Interference

/-!
# Executing sequential programs

`Prog.run` executes a program call by call, when each call is a function of the state; what
an environment decides is part of the state.  `Prog.trace` lists the calls it makes, with what
they return, and `Prog.visited` with the states they are made in.

* `Prog.interpret` carries out each call of a program by a program of other calls, as when a
  subsystem is used by a larger one.
* `Prog.Calls P` says that every call the program can make satisfies `P`, whatever is
  returned; `run_keeps` is the invariant rule that goes with it.
* `Prog.Visits` says that an execution makes a call with some property; `Visits.reaches` is
  the interleaving that shows it.
* `Safe.total_establishes` is the rule of a loop whose body reaches a goal for one element.
-/

namespace WispRelay
namespace Interference
namespace Prog

universe u u' v w

variable
  {Call : Type u}
  {Ret : Call → Type v}
  {Call' : Type u'}
  {Ret' : Call' → Type v}
  {α β : Type v}
  {σ : Type w}

/-- Carry out each call by a program of other calls. -/
def interpret
    (handler : (c : Call) → Prog Call' Ret' (Ret c)) :
    Prog Call Ret α → Prog Call' Ret' α
  | done result => done result
  | call c next => (handler c).bind (fun r => interpret handler (next r))

/-- Execute a program. -/
def run
    (step : (c : Call) → σ → Ret c × σ) :
    Prog Call Ret α → σ → α × σ
  | done result, s => (result, s)
  | call c next, s => run step (next (step c s).1) (step c s).2

/-- The calls an execution makes, in order, with what they return. -/
def trace
    (step : (c : Call) → σ → Ret c × σ) :
    Prog Call Ret α → σ → List ((c : Call) × Ret c)
  | done _, _ => []
  | call c next, s => ⟨c, (step c s).1⟩ :: trace step (next (step c s).1) (step c s).2

/-- The calls an execution makes, in order, with the states they are made in. -/
def visited
    (step : (c : Call) → σ → Ret c × σ) :
    Prog Call Ret α → σ → List (Call × σ)
  | done _, _ => []
  | call c next, s => (c, s) :: visited step (next (step c s).1) (step c s).2

/-- Every call the program can make satisfies `P`. -/
def Calls
    (P : Call → Prop) :
    Prog Call Ret α → Prop
  | done _ => True
  | call c next => P c ∧ ∀ r, Calls P (next r)

/-- A loop over a list. -/
def forEach
    {Ret : Call → Type}
    {ι : Type w}
    (body : ι → Prog Call Ret Unit) : List ι → Prog Call Ret Unit
  | [] => pure ()
  | x :: rest => do
      body x
      forEach body rest

theorem bind_assoc
    {γ : Type v}
    (p : Prog Call Ret α)
    (f : α → Prog Call Ret β)
    (g : β → Prog Call Ret γ) :
    (p.bind f).bind g = p.bind fun a => (f a).bind g := by
  induction p with
  | done result => rfl
  | call c next ih => exact congrArg (call c) (funext ih)

section Run

variable (step : (c : Call) → σ → Ret c × σ)

@[simp] theorem run_pure
    (a : α)
    (s : σ) :
    run step (pure a) s = (a, s) := rfl

@[simp] theorem run_perform
    (c : Call)
    (s : σ) :
    run step (perform c) s = step c s := rfl

@[simp] theorem run_bind
    (p : Prog Call Ret α)
    (f : α → Prog Call Ret β)
    (s : σ) :
    run step (p >>= f) s = run step (f (run step p s).1) (run step p s).2 := by
  induction p generalizing s with
  | done result => rfl
  | call c next ih => exact ih (step c s).1 (step c s).2

/-- A program interpreted by programs runs as if each of them were one call. -/
theorem run_interpret
    {Call : Type u}
    {Ret : Call → Type v}
    {Call' : Type u'}
    {Ret' : Call' → Type v}
    (handler : (c : Call) → Prog Call' Ret' (Ret c))
    (step : (c : Call') → σ → Ret' c × σ)
    (p : Prog Call Ret α)
    (s : σ) :
    run step (interpret handler p) s = run (fun c s => run step (handler c) s) p s := by
  induction p generalizing s with
  | done result => rfl
  | call c next ih =>
      change run step (handler c >>= fun r => interpret handler (next r)) s = _
      rw [run_bind]
      exact ih _ _

@[simp] theorem trace_pure
    (a : α)
    (s : σ) :
    trace step (pure a : Prog Call Ret α) s = [] := rfl

@[simp] theorem trace_perform
    (c : Call)
    (s : σ) :
    trace step (perform c) s = [⟨c, (step c s).1⟩] := rfl

@[simp] theorem trace_bind
    (p : Prog Call Ret α)
    (f : α → Prog Call Ret β)
    (s : σ) :
    trace step (p >>= f) s =
      trace step p s ++ trace step (f (run step p s).1) (run step p s).2 := by
  induction p generalizing s with
  | done result => rfl
  | call c next ih => exact congrArg (List.cons _) (ih (step c s).1 (step c s).2)

/-- The first call of a program, when its outcome is known. -/
theorem trace_perform_bind
    {c : Call}
    {s s' : σ}
    {r : Ret c}
    (hstep : step c s = (r, s'))
    (f : Ret c → Prog Call Ret β) :
    trace step (perform c >>= f) s = ⟨c, r⟩ :: trace step (f r) s' := by
  rw [trace_bind, trace_perform, run_perform, hstep]
  rfl

end Run

namespace Calls

variable {P Q : Call → Prop}

theorem pure
    (a : α) :
    Calls P (pure a : Prog Call Ret α) := trivial

/-- Nothing is asked of the calls. -/
theorem unrestricted
    (p : Prog Call Ret α) :
    p.Calls (fun _ => True) := by
  induction p with
  | done result => trivial
  | call c next ih => exact ⟨trivial, ih⟩

theorem perform
    {c : Call}
    (h : P c) :
    Calls P (perform c : Prog Call Ret (Ret c)) :=
  ⟨h, fun _ => trivial⟩

theorem bind
    {p : Prog Call Ret α}
    {f : α → Prog Call Ret β}
    (hp : p.Calls P)
    (hf : ∀ a, (f a).Calls P) :
    (p >>= f).Calls P := by
  induction p with
  | done result => exact hf result
  | call c next ih => exact ⟨hp.1, fun r => ih r (hp.2 r)⟩

theorem mono
    {p : Prog Call Ret α}
    (himp : ∀ c, P c → Q c)
    (h : p.Calls P) :
    p.Calls Q := by
  induction p with
  | done result => trivial
  | call c next ih => exact ⟨himp c h.1, fun r => ih r (h.2 r)⟩

theorem forEach
    {Ret : Call → Type}
    {ι : Type w}
    {body : ι → Prog Call Ret Unit}
    {xs : List ι}
    (hbody : ∀ x ∈ xs, (body x).Calls P) :
    (forEach body xs).Calls P := by
  induction xs with
  | nil => trivial
  | cons x rest ih =>
      exact (hbody x List.mem_cons_self).bind
        (fun _ => ih (fun y hy => hbody y (List.mem_cons_of_mem _ hy)))

theorem total
    {Ret : Call → Type}
    {ι : Type w}
    {body : ι → Prog Call Ret Nat}
    {xs : List ι}
    (hbody : ∀ x ∈ xs, (body x).Calls P) :
    (total body xs).Calls P := by
  induction xs with
  | nil => trivial
  | cons x rest ih =>
      have hrest := ih (fun y hy => hbody y (List.mem_cons_of_mem _ hy))
      exact (hbody x List.mem_cons_self).bind (fun _ => hrest.bind (fun _ => trivial))

/-- The calls of an interpreted program are those its handler makes. -/
theorem interpret
    {handler : (c : Call) → Prog Call' Ret' (Ret c)}
    {P' : Call' → Prop}
    (hhandler : ∀ c, P c → (handler c).Calls P')
    {p : Prog Call Ret α}
    (hp : p.Calls P) :
    (p.interpret handler).Calls P' := by
  induction p with
  | done result => trivial
  | call c next ih => exact Calls.bind (hhandler c hp.1) (fun r => ih r (hp.2 r))

/--
**Trace rule.**  What holds of every call made where the invariant holds, and of what it
returns, holds of the whole trace.
-/
theorem trace_keeps
    {step : (c : Call) → σ → Ret c × σ}
    {I : σ → Prop}
    {R : (c : Call) × Ret c → Prop}
    (hstep : ∀ c s, P c → I s → R ⟨c, (step c s).1⟩ ∧ I (step c s).2)
    {p : Prog Call Ret α}
    (hp : p.Calls P)
    {s : σ}
    (h : I s) :
    ∀ x ∈ p.trace step s, R x := by
  induction p generalizing s with
  | done result =>
      intro x hx
      cases hx
  | call c next ih =>
      intro x hx
      obtain ⟨hcall, hnext⟩ := hstep c s hp.1 h
      rcases List.mem_cons.mp hx with rfl | hrest
      · exact hcall
      · exact ih _ (hp.2 _) hnext x hrest

/-- The calls an execution makes are among them. -/
theorem of_trace
    {step : (c : Call) → σ → Ret c × σ}
    {p : Prog Call Ret α}
    (h : p.Calls P)
    {s : σ}
    {x : (c : Call) × Ret c}
    (hx : x ∈ p.trace step s) :
    P x.1 :=
  trace_keeps (I := fun _ => True) (R := fun x => P x.1) (fun _ _ hc _ => ⟨hc, trivial⟩) h
    trivial x hx

end Calls

/-- **Invariant rule.**  What every call of the program keeps, the program keeps. -/
theorem run_keeps
    {step : (c : Call) → σ → Ret c × σ}
    {P : Call → Prop}
    {I : σ → Prop}
    (hstep : ∀ c s, P c → I s → I (step c s).2)
    {p : Prog Call Ret α}
    (hcalls : p.Calls P)
    {s : σ}
    (h : I s) :
    I (p.run step s).2 := by
  induction p generalizing s with
  | done result => exact h
  | call c next ih => exact ih _ (hcalls.2 _) (hstep c s hcalls.1 h)

/-- What every call of the program keeps holds whenever a call is made. -/
theorem visited_keeps
    {step : (c : Call) → σ → Ret c × σ}
    {P : Call → Prop}
    {I : σ → Prop}
    (hstep : ∀ c s, P c → I s → I (step c s).2)
    {p : Prog Call Ret α}
    (hcalls : p.Calls P)
    {s : σ}
    (h : I s) :
    ∀ x ∈ p.visited step s, P x.1 ∧ I x.2 := by
  induction p generalizing s with
  | done result =>
      intro x hx
      cases hx
  | call c next ih =>
      intro x hx
      rcases List.mem_cons.mp hx with rfl | hrest
      · exact ⟨hcalls.1, h⟩
      · exact ih _ (hcalls.2 _) (hstep c s hcalls.1 h) x hrest

/-- **Invariant rule** for the calls that are made, each in the state it is made in. -/
theorem run_keeps_visited
    {step : (c : Call) → σ → Ret c × σ}
    {I : σ → Prop}
    {Q : Call → σ → Prop}
    (hstep : ∀ c s, Q c s → I s → I (step c s).2)
    {p : Prog Call Ret α}
    {s : σ}
    (hvisited : ∀ x ∈ p.visited step s, Q x.1 x.2)
    (h : I s) :
    I (p.run step s).2 := by
  induction p generalizing s with
  | done result => exact h
  | call c next ih =>
      have hfirst : Q c s := hvisited (c, s) List.mem_cons_self
      exact ih _ (fun x hx => hvisited x (List.mem_cons_of_mem _ hx)) (hstep c s hfirst h)

/-- What holds after a call that is made, and every call of the program keeps, holds at the end. -/
theorem run_keeps_after
    {step : (c : Call) → σ → Ret c × σ}
    {P : Call → Prop}
    {I : σ → Prop}
    (hstep : ∀ c s, P c → I s → I (step c s).2)
    {p : Prog Call Ret α}
    (hcalls : p.Calls P)
    {s : σ}
    {x : Call × σ}
    (hx : x ∈ p.visited step s)
    (h : I (step x.1 x.2).2) :
    I (p.run step s).2 := by
  induction p generalizing s with
  | done result => cases hx
  | call c next ih =>
      rcases List.mem_cons.mp hx with rfl | hrest
      · exact run_keeps hstep (hcalls.2 (step c s).1) h
      · exact ih _ (hcalls.2 _) hrest

/-! ## Calls that cannot be avoided -/

/-- Some call with the property `B` is made in a state with the property `I`. -/
def Visits
    (step : (c : Call) → σ → Ret c × σ)
    (B : Call → Prop)
    (I : σ → Prop)
    (p : Prog Call Ret α)
    (s : σ) : Prop :=
  ∃ x ∈ p.visited step s, B x.1 ∧ I x.2

theorem visited_bind
    (step : (c : Call) → σ → Ret c × σ)
    (p : Prog Call Ret α)
    (f : α → Prog Call Ret β)
    (s : σ) :
    (p >>= f).visited step s =
      p.visited step s ++ (f (p.run step s).1).visited step (p.run step s).2 := by
  induction p generalizing s with
  | done result => rfl
  | call c next ih => exact congrArg (List.cons _) (ih (step c s).1 (step c s).2)

namespace Visits

variable
  {step : (c : Call) → σ → Ret c × σ}
  {P B : Call → Prop}
  {I : σ → Prop}

theorem call
    {c : Call}
    {next : Ret c → Prog Call Ret α}
    {s : σ}
    (hc : B c)
    (h : I s) :
    Visits step B I (Prog.call c next) s :=
  ⟨(c, s), List.mem_cons_self, hc, h⟩

theorem bind
    {p : Prog Call Ret α}
    {s : σ}
    (h : Visits step B I p s)
    (f : α → Prog Call Ret β) :
    Visits step B I (p >>= f) s := by
  obtain ⟨x, hx, hB⟩ := h
  refine ⟨x, ?_, hB⟩
  rw [visited_bind]
  exact List.mem_append_left _ hx

/-- A call that cannot be avoided after the first one, whose outcome is known. -/
theorem perform_bind
    {c : Call}
    {s s' : σ}
    {r : Ret c}
    (hstep : step c s = (r, s'))
    {f : Ret c → Prog Call Ret β}
    (h : Visits step B I (f r) s') :
    Visits step B I (perform c >>= f) s := by
  obtain ⟨x, hx, hB⟩ := h
  refine ⟨x, ?_, hB⟩
  rw [visited_bind]
  refine List.mem_append_right _ ?_
  rw [run_perform, hstep]
  exact hx

/-- What every other call keeps holds at the end, unless such a call is made. -/
theorem or_keeps
    (hstep : ∀ c s, P c → I s → B c ∨ I (step c s).2)
    {p : Prog Call Ret α}
    (hp : p.Calls P)
    {s : σ}
    (h : I s) :
    Visits step B I p s ∨ I (p.run step s).2 := by
  induction p generalizing s with
  | done result => exact .inr h
  | call c next ih =>
      rcases hstep c s hp.1 h with hc | hnext
      · exact .inl (Visits.call hc h)
      · refine (ih _ (hp.2 _) hnext).imp_left ?_
        rintro ⟨x, hx, hB⟩
        exact ⟨x, List.mem_cons_of_mem _ hx, hB⟩

/-- A call that the second program cannot avoid. -/
theorem bind_right
    (hstep : ∀ c s, P c → I s → B c ∨ I (step c s).2)
    {p : Prog Call Ret α}
    (hp : p.Calls P)
    {f : α → Prog Call Ret β}
    {s : σ}
    (h : I s)
    (hf : ∀ r s', I s' → Visits step B I (f r) s') :
    Visits step B I (p >>= f) s := by
  rcases or_keeps hstep hp h with hfirst | hend
  · exact hfirst.bind f
  · obtain ⟨x, hx, hB⟩ := hf (p.run step s).1 _ hend
    refine ⟨x, ?_, hB⟩
    rw [visited_bind]
    exact List.mem_append_right _ hx

/-- A call that the body of a loop cannot avoid for one of the elements. -/
theorem total
    {Ret : Call → Type}
    {step : (c : Call) → σ → Ret c × σ}
    (hstep : ∀ c s, P c → I s → B c ∨ I (step c s).2)
    {ι : Type w}
    {body : ι → Prog Call Ret Nat}
    {xs : List ι}
    (hcalls : ∀ x ∈ xs, (body x).Calls P)
    {y : ι}
    (hy : y ∈ xs)
    (hbody : ∀ s, I s → Visits step B I (body y) s)
    {s : σ}
    (h : I s) :
    Visits step B I (Prog.total body xs) s := by
  induction xs generalizing s with
  | nil => cases hy
  | cons x rest ih =>
      have hrest : ∀ z ∈ rest, (body z).Calls P :=
        fun z hz => hcalls z (List.mem_cons_of_mem _ hz)
      rcases List.mem_cons.mp hy with rfl | hlater
      · exact (hbody s h).bind _
      · exact bind_right hstep (hcalls x List.mem_cons_self) h
          fun _ _ h' => (ih hrest hlater h').bind _

/-- A call that is made is reached. -/
theorem reaches
    {sem : (c : Call) → σ → Ret c → σ → Prop}
    (rely : σ → σ → Prop)
    (hsem : ∀ c s, sem c s (step c s).1 (step c s).2)
    {p : Prog Call Ret α}
    {s : σ}
    (h : Visits step B I p s) :
    ∃ c next s', Reaches sem rely p s (Prog.call c next) s' ∧ B c ∧ I s' := by
  obtain ⟨x, hx, hB, hI⟩ := h
  suffices hreach : ∀ (q : Prog Call Ret α) (t : σ), Reaches sem rely p s q t →
      x ∈ q.visited step t → ∃ next, Reaches sem rely p s (Prog.call x.1 next) x.2 by
    obtain ⟨next, hnext⟩ := hreach p s Reaches.refl hx
    exact ⟨x.1, next, x.2, hnext, hB, hI⟩
  intro q
  induction q with
  | done result =>
      intro t _ hmem
      cases hmem
  | call c next ih =>
      intro t hq hmem
      rcases List.mem_cons.mp hmem with rfl | hrest
      · exact ⟨next, hq⟩
      · exact ih _ _ (Reaches.own hq (hsem c t)) hrest

end Visits

/-- The end of an execution is reached. -/
theorem run_reaches
    {step : (c : Call) → σ → Ret c × σ}
    {sem : (c : Call) → σ → Ret c → σ → Prop}
    (rely : σ → σ → Prop)
    (hsem : ∀ c s, sem c s (step c s).1 (step c s).2)
    (p : Prog Call Ret α)
    (s : σ) :
    Reaches sem rely p s (done (p.run step s).1) (p.run step s).2 := by
  suffices hreach : ∀ (q : Prog Call Ret α) (t : σ), Reaches sem rely p s q t →
      Reaches sem rely p s (done (q.run step t).1) (q.run step t).2 from hreach p s Reaches.refl
  intro q
  induction q with
  | done result =>
      intro t hq
      exact hq
  | call c next ih =>
      intro t hq
      exact ih _ _ (Reaches.own hq (hsem c t))

end Prog

namespace Safe

variable
  {Call : Type u}
  {Ret : Call → Type v}
  {α : Type v}
  {σ : Type w}
  {sem : (c : Call) → σ → Ret c → σ → Prop}
  {rely : σ → σ → Prop}
  {allowed : Call → σ → Prop}

/-- What every call of a program and the other parties keep holds at the end. -/
theorem of_calls
    {P : Call → Prop}
    {I : σ → Prop}
    (hallowed : ∀ c s, P c → I s → allowed c s)
    (hstable : ∀ s s', I s → rely s s' → I s')
    (hcall : ∀ c s r s', P c → I s → sem c s r s' → I s')
    {p : Prog Call Ret α}
    (hp : p.Calls P)
    {s : σ}
    (h : I s) :
    Safe sem rely allowed p (fun _ => I) s := by
  induction p generalizing s with
  | done result => exact h
  | call c next ih =>
      refine Safe.call hstable ?_ h
      intro t ht
      exact ⟨hallowed c t hp.1 ht, fun r t' hstep => ih r (hp.2 r) (hcall c t r t' hp.1 ht hstep)⟩

/-- **Rule of the loop** for what the body establishes for one of the elements. -/
theorem total_establishes
    {Ret : Call → Type}
    {sem : (c : Call) → σ → Ret c → σ → Prop}
    {I Q : σ → Prop}
    {ι : Type w}
    {body : ι → Prog Call Ret Nat}
    {xs : List ι}
    (hkeeps : ∀ x ∈ xs, ∀ s, I s → Safe sem rely allowed (body x) (fun _ => I) s)
    (hremains : ∀ x ∈ xs, ∀ s, Q s → Safe sem rely allowed (body x) (fun _ => Q) s)
    {y : ι}
    (hy : y ∈ xs)
    (hbody : ∀ s, I s → Safe sem rely allowed (body y) (fun _ => Q) s) :
    ∀ {s : σ}, I s → Safe sem rely allowed (Prog.total body xs) (fun _ => Q) s := by
  induction xs with
  | nil => cases hy
  | cons x rest ih =>
      intro s h
      rcases List.mem_cons.mp hy with rfl | hlater
      · refine Safe.bind ((hbody s h).mono ?_)
        intro n s' h'
        have hrest := Safe.total (fun z hz => hremains z (List.mem_cons_of_mem _ hz)) h'
        exact Safe.bind (hrest.mono fun _ _ h'' => h'')
      · refine Safe.bind ((hkeeps x List.mem_cons_self s h).mono ?_)
        intro n s' h'
        have hrest := ih (fun z hz => hkeeps z (List.mem_cons_of_mem _ hz))
          (fun z hz => hremains z (List.mem_cons_of_mem _ hz)) hlater h'
        exact Safe.bind (hrest.mono fun _ _ h'' => h'')

end Safe

end Interference
end WispRelay
