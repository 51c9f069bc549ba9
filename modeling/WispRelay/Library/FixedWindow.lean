import Mathlib.Data.List.Basic
import Mathlib.Tactic

/-!
# Windows of a fixed length that start late

A limiter admits a number of things within a window.  A window is over `len` after its start,
but the next one starts only at the first use after that, so that windows are not aligned with
anything.  The log of what was admitted has the start of the window and the time of each thing.

* `WindowLog`: what admitting and starting windows keeps true of the log.
* `WindowLog.snoc` and `WindowLog.renew`: the two steps.
* `WindowLog.sliding`: in any interval of length `len` at most twice the number of one window is
  admitted, since no three windows meet such an interval.
-/

namespace WispRelay
namespace FixedWindow

variable
  {len limit start : Nat}
  {log : List (Nat × Nat)}

/-- The things admitted in the window that started at `w`. -/
def inWindow
    (w : Nat)
    (log : List (Nat × Nat)) : Nat :=
  log.countP (fun e => e.1 = w)

/-- The things admitted from `a` until before `b`. -/
def between
    (a b : Nat)
    (log : List (Nat × Nat)) : Nat :=
  log.countP (fun e => a ≤ e.2 ∧ e.2 < b)

/-- A log of window starts and times, and the start of the current window. -/
structure WindowLog
    (len limit start : Nat)
    (log : List (Nat × Nat)) : Prop where
  within : ∀ e ∈ log, e.1 ≤ e.2 ∧ e.2 < e.1 + len
  ended : ∀ e ∈ log, e.1 = start ∨ e.1 + len ≤ start
  apart : ∀ e ∈ log, ∀ e' ∈ log, e.1 < e'.1 → e.1 + len ≤ e'.1
  full : ∀ w, inWindow w log ≤ limit

@[simp] theorem inWindow_nil
    (w : Nat) :
    inWindow w [] = 0 := rfl

theorem inWindow_snoc
    (w : Nat)
    (e : Nat × Nat) :
    inWindow w (log ++ [e]) = inWindow w log + if e.1 = w then 1 else 0 := by
  rw [inWindow, List.countP_append, List.countP_singleton, inWindow]
  simp

namespace WindowLog

/-- A limiter that has admitted nothing. -/
theorem nil : WindowLog len limit start [] where
  within := by simp
  ended := by simp
  apart := by simp
  full := by simp

/-- One more thing in the current window. -/
theorem snoc
    (h : WindowLog len limit start log)
    {now : Nat}
    (hstarted : start ≤ now)
    (hnot : now < start + len)
    (hroom : inWindow start log < limit) :
    WindowLog len limit start (log ++ [(start, now)]) where
  within := by
    intro e he
    rcases List.mem_append.mp he with hold | hnew
    · exact h.within e hold
    · obtain rfl := List.mem_singleton.mp hnew
      exact ⟨hstarted, hnot⟩
  ended := by
    intro e he
    rcases List.mem_append.mp he with hold | hnew
    · exact h.ended e hold
    · obtain rfl := List.mem_singleton.mp hnew
      exact Or.inl rfl
  apart := by
    intro e he e' he' hlt
    rcases List.mem_append.mp he with hold | hnew <;>
      rcases List.mem_append.mp he' with hold' | hnew'
    · exact h.apart e hold e' hold' hlt
    · obtain rfl := List.mem_singleton.mp hnew'
      rcases h.ended e hold with hsame | hover
      · exact absurd hlt (by rw [hsame]; exact Nat.lt_irrefl _)
      · exact hover
    · obtain rfl := List.mem_singleton.mp hnew
      rcases h.ended e' hold' with hsame | hover
      · exact absurd hlt (by rw [hsame]; exact Nat.lt_irrefl _)
      · exact absurd hlt (by simp only; omega)
    · obtain rfl := List.mem_singleton.mp hnew
      obtain rfl := List.mem_singleton.mp hnew'
      exact absurd hlt (Nat.lt_irrefl _)
  full := by
    intro w
    rw [inWindow_snoc]
    by_cases hw : start = w
    · subst hw
      rw [if_pos rfl]
      exact hroom
    · rw [if_neg hw]
      exact h.full w

/-- A window starts after the current one is over. -/
theorem renew
    (h : WindowLog len limit start log)
    {now : Nat}
    (hover : start + len ≤ now) :
    WindowLog len limit now log where
  within := h.within
  ended := by
    intro e he
    rcases h.ended e he with hsame | hbefore <;> omega
  apart := h.apart
  full := h.full

/-- Nothing has been admitted in a window that starts later. -/
theorem inWindow_renewed
    (h : WindowLog len limit start log)
    {now : Nat}
    (hover : start + len ≤ now)
    (hlen : 0 < len) :
    inWindow now log = 0 := by
  rw [inWindow, List.countP_eq_zero]
  intro e he
  rcases h.ended e he with hsame | hbefore <;> simp <;> omega

/-- Windows that start less than `len` apart are the same. -/
theorem eq_of_close
    (h : WindowLog len limit start log)
    {e e' : Nat × Nat}
    (he : e ∈ log)
    (he' : e' ∈ log)
    (hclose : e.1 < e'.1 + len)
    (hclose' : e'.1 < e.1 + len) :
    e.1 = e'.1 := by
  rcases Nat.lt_trichotomy e.1 e'.1 with hlt | heq | hgt
  · have hfar := h.apart e he e' he' hlt
    omega
  · exact heq
  · have hfar := h.apart e' he' e he hgt
    omega

/-- Things of one window are no more than the limit. -/
theorem countP_le
    (h : WindowLog len limit start log)
    {p : Nat × Nat → Bool}
    (hsame : ∀ e ∈ log, ∀ e' ∈ log, p e = true → p e' = true → e.1 = e'.1) :
    log.countP p ≤ limit := by
  by_cases hsome : ∃ e ∈ log, p e = true
  · obtain ⟨e, he, hpe⟩ := hsome
    calc log.countP p
        ≤ log.countP (fun e' => e'.1 = e.1) :=
          List.countP_mono_left fun e' he' hpe' => by simpa using hsame e' he' e he hpe' hpe
      _ ≤ limit := h.full e.1
  · push Not at hsome
    rw [List.countP_eq_zero.mpr fun e he => hsome e he]
    exact Nat.zero_le _

/--
**Sliding bound.**  The windows that meet an interval of length `len` start before its end, and
all that start by its begin are one window, as are all that start later.
-/
theorem sliding
    (h : WindowLog len limit start log)
    (a : Nat) :
    between a (a + len) log ≤ 2 * limit := by
  have hearly : log.countP (fun e => (a ≤ e.2 ∧ e.2 < a + len) ∧ e.1 ≤ a) ≤ limit := by
    refine h.countP_le fun e he e' he' hp hp' => ?_
    have hw := h.within e he
    have hw' := h.within e' he'
    simp only [decide_eq_true_eq] at hp hp'
    exact h.eq_of_close he he' (by omega) (by omega)
  have hlate : log.countP (fun e => (a ≤ e.2 ∧ e.2 < a + len) ∧ ¬ e.1 ≤ a) ≤ limit := by
    refine h.countP_le fun e he e' he' hp hp' => ?_
    have hw := h.within e he
    have hw' := h.within e' he'
    simp only [decide_eq_true_eq] at hp hp'
    exact h.eq_of_close he he' (by omega) (by omega)
  have hsplit : between a (a + len) log =
      log.countP (fun e => (a ≤ e.2 ∧ e.2 < a + len) ∧ e.1 ≤ a) +
        log.countP (fun e => (a ≤ e.2 ∧ e.2 < a + len) ∧ ¬ e.1 ≤ a) := by
    rw [between, List.countP_eq_length_filter,
      List.length_eq_countP_add_countP (fun e : Nat × Nat => decide (e.1 ≤ a)),
      List.countP_filter, List.countP_filter]
    congr 1 <;> refine List.countP_congr fun e _ => ?_ <;> simp [and_comm]
  omega

end WindowLog

end FixedWindow
end WispRelay
