import WispRelay.Library.Execution

/-!
# Contracts for executions

A contract says which calls may be made in which states, and what holds at the end.  An
execution meets it (`Prog.Meets`) when every call it makes is allowed where it is made and the
program ends with the postcondition.

The rules are `Meets.call` for one call with what it returns, `Meets.bind` for composition,
`Meets.counted` for a loop with a 16-bit counter and an invariant, and `Meets.of_calls` for a
program of which only the calls matter.
-/

namespace WispRelay
namespace Interference
namespace Prog

universe u v w

variable
  {Call : Type u}
  {Ret : Call → Type v}
  {α β : Type v}
  {σ : Type w}

/-- Every call is allowed where it is made, and the program ends with the postcondition. -/
structure Meets
    (step : (c : Call) → σ → Ret c × σ)
    (allowed : Call → σ → Prop)
    (p : Prog Call Ret α)
    (post : α → σ → Prop)
    (s : σ) : Prop where
  calls : ∀ x ∈ p.visited step s, allowed x.1 x.2
  ends : post (p.run step s).1 (p.run step s).2

namespace Meets

variable
  {step : (c : Call) → σ → Ret c × σ}
  {allowed : Call → σ → Prop}

theorem pure
    {a : α}
    {post : α → σ → Prop}
    {s : σ}
    (h : post a s) :
    Meets step allowed (pure a : Prog Call Ret α) post s where
  calls := fun x hx => by cases hx
  ends := h

/-- **Rule of the call.** -/
theorem call
    {c : Call}
    {next : Ret c → Prog Call Ret α}
    {post : α → σ → Prop}
    {s : σ}
    (hallowed : allowed c s)
    (hnext : Meets step allowed (next (step c s).1) post (step c s).2) :
    Meets step allowed (Prog.call c next) post s where
  calls := by
    intro x hx
    rcases List.mem_cons.mp hx with rfl | hrest
    · exact hallowed
    · exact hnext.calls x hrest
  ends := hnext.ends

/-- One call, and what follows with its result. -/
theorem perform_bind
    {c : Call}
    {f : Ret c → Prog Call Ret α}
    {post : α → σ → Prop}
    {s : σ}
    (hallowed : allowed c s)
    (hnext : Meets step allowed (f (step c s).1) post (step c s).2) :
    Meets step allowed (Prog.perform c >>= f) post s :=
  Meets.call hallowed hnext

/-- **Rule of composition.** -/
theorem bind
    {p : Prog Call Ret α}
    {f : α → Prog Call Ret β}
    {Q : α → σ → Prop}
    {post : β → σ → Prop}
    {s : σ}
    (h : Meets step allowed p Q s)
    (hf : ∀ a s', Q a s' → Meets step allowed (f a) post s') :
    Meets step allowed (p >>= f) post s where
  calls := by
    intro x hx
    rw [visited_bind] at hx
    rcases List.mem_append.mp hx with hfirst | hrest
    · exact h.calls x hfirst
    · exact (hf _ _ h.ends).calls x hrest
  ends := by
    rw [run_bind]
    exact (hf _ _ h.ends).ends

theorem mono
    {p : Prog Call Ret α}
    {post post' : α → σ → Prop}
    (himp : ∀ a s', post a s' → post' a s')
    {s : σ}
    (h : Meets step allowed p post s) :
    Meets step allowed p post' s where
  calls := h.calls
  ends := himp _ _ h.ends

/-- Calls that are allowed wherever an invariant holds that they keep. -/
theorem of_calls
    {P : Call → Prop}
    {I : σ → Prop}
    (hallowed : ∀ c s, P c → I s → allowed c s)
    (hstep : ∀ c s, P c → I s → I (step c s).2)
    {p : Prog Call Ret α}
    (hp : p.Calls P)
    {s : σ}
    (h : I s) :
    Meets step allowed p (fun _ => I) s where
  calls := by
    intro x hx
    obtain ⟨hcall, hstate⟩ := visited_keeps hstep hp h x hx
    exact hallowed x.1 x.2 hcall hstate
  ends := run_keeps hstep hp h

/-- A call that may be made leaves a program that meets the rest of the contract. -/
theorem of_call
    {c : Call}
    {next : Ret c → Prog Call Ret α}
    {post : α → σ → Prop}
    {s : σ}
    (h : Meets step allowed (Prog.call c next) post s) :
    allowed c s ∧ Meets step allowed (next (step c s).1) post (step c s).2 where
  left := h.calls (c, s) List.mem_cons_self
  right := ⟨fun x hx => h.calls x (List.mem_cons_of_mem _ hx), h.ends⟩

end Meets

/-! ## Loops with a counter -/

/-- How a turn of a loop ends: it goes on with its local variables, or is left. -/
inductive Turn
    (β γ : Type)
  | goOn (locals : β)
  | leave (result : γ)

section Counted

variable
  {Ret : Call → Type}
  {β γ : Type}

/--
`for (uint16_t i = start; i < bound; i += stride)`.  The bound is read before every turn, and
`fuel` is the largest number of turns.
-/
def counted
    (bound : Prog Call Ret UInt16)
    (stride : UInt16)
    (body : UInt16 → β → Prog Call Ret (Turn β γ)) :
    Nat → UInt16 → β → Prog Call Ret (Turn β γ)
  | 0, _, locals => pure (.goOn locals)
  | fuel + 1, i, locals => do
      let n ← bound
      if i < n then
        match ← body i locals with
        | .goOn locals' => counted bound stride body fuel (i + stride) locals'
        | .leave result => pure (.leave result)
      else
        pure (.goOn locals)

/-- What a turn must establish: the invariant at the next value of the counter, or the end. -/
def TurnEnds
    (I : β → σ → Prop)
    (post : Turn β γ → σ → Prop) : Turn β γ → σ → Prop
  | .goOn locals, s => I locals s
  | .leave result, s => post (.leave result) s

/--
**Rule of the counted loop**, with an invariant that speaks of the counter.  The counter does
not wrap, and `2 ^ 16` turns are enough.
-/
theorem Meets.counted
    {step : (c : Call) → σ → Ret c × σ}
    {allowed : Call → σ → Prop}
    {bound : Prog Call Ret UInt16}
    {stride : UInt16}
    {body : UInt16 → β → Prog Call Ret (Turn β γ)}
    {n : Nat}
    {I : Nat → β → σ → Prop}
    {post : Turn β γ → σ → Prop}
    (hstride : 0 < stride.toNat)
    (hrange : n + stride.toNat ≤ 2 ^ 16)
    (hbound : ∀ j locals s, I j locals s →
      Meets step allowed bound (fun m s' => m.toNat = n ∧ s' = s) s)
    (hbody : ∀ i : UInt16, ∀ locals s, i.toNat < n → I i.toNat locals s →
      Meets step allowed (body i locals) (TurnEnds (I (i.toNat + stride.toNat)) post) s)
    (hexit : ∀ j locals s, n ≤ j → I j locals s → post (.goOn locals) s)
    {fuel : Nat} :
    ∀ {i : UInt16} {locals : β} {s : σ}, n ≤ i.toNat + fuel → I i.toNat locals s →
      Meets step allowed (Prog.counted bound stride body fuel i locals) post s := by
  induction fuel with
  | zero =>
      intro i locals s hfuel h
      exact Meets.pure (hexit _ _ _ hfuel h)
  | succ fuel ih =>
      intro i locals s hfuel h
      refine (hbound _ _ _ h).bind ?_
      rintro m s' ⟨hm, rfl⟩
      by_cases hlt : i < m
      · have hi : i.toNat < n := by
          rw [← hm]
          exact UInt16.lt_iff_toNat_lt.mp hlt
        have hnext : (i + stride).toNat = i.toNat + stride.toNat := by
          rw [UInt16.toNat_add]
          omega
        rw [if_pos hlt]
        refine (hbody i locals s' hi h).bind ?_
        intro turn s'' hturn
        cases turn with
        | goOn locals' =>
            refine ih (by omega) ?_
            rw [hnext]
            exact hturn
        | leave result => exact Meets.pure hturn
      · have hi : n ≤ i.toNat := by
          rw [← hm]
          exact UInt16.le_iff_toNat_le.mp (UInt16.not_lt.mp hlt)
        rw [if_neg hlt]
        exact Meets.pure (hexit _ _ _ hi h)

end Counted

end Prog
end Interference
end WispRelay
