import Mathlib.Data.List.Basic
import Mathlib.Tactic

/-!
# Filtering the front of an array in place

The usual two-counter loop that compacts the first `count` slots of an array: the read
counter visits every slot, and each slot to be kept is copied down to the write counter.
Slots at or above the final write counter keep whatever the loop left there.

The result of the loop is described by `inPlaceFilter_spec`: the front of the array becomes
the filtered front, and all later slots are unchanged.
-/

namespace WispRelay
namespace InPlaceFilter

universe u

variable {α : Type u}

/--
The compaction loop.  The first argument after the array is the number of slots still to be
read; `read` and `write` are the two counters.  The write counter is returned.
-/
def inPlaceFilter (keep : α → Bool) :
    List α → Nat → Nat → Nat → List α × Nat
  | xs, 0, _, write => (xs, write)
  | xs, remaining + 1, read, write =>
      match xs[read]? with
      | none => (xs, write)
      | some x =>
          if keep x then
            inPlaceFilter keep (if write ≠ read then xs.set write x else xs)
              remaining (read + 1) (write + 1)
          else
            inPlaceFilter keep xs remaining (read + 1) write

/-- Copying a slot onto itself changes nothing, so the copy may be made unconditionally. -/
theorem copyDown_eq (xs : List α) {read : Nat} (write : Nat) {x : α}
    (hread : xs[read]? = some x) :
    (if write ≠ read then xs.set write x else xs) = xs.set write x := by
  by_cases h : write = read
  · subst h
    obtain ⟨hlt, hx⟩ := List.getElem?_eq_some_iff.mp hread
    rw [if_neg (by simp), ← hx, List.set_getElem_self]
  · rw [if_pos h]

/--
Loop invariant.  When the slots below `write` are the kept ones among those already read,
the loop appends the kept ones among the `remaining` slots from `read` on, and changes no
slot above the final write counter.
-/
theorem inPlaceFilter_loop (keep : α → Bool) (remaining : Nat) :
    ∀ (xs : List α) (read write : Nat),
      write ≤ read → read + remaining ≤ xs.length →
      ∃ kept : List α,
        kept = ((xs.drop read).take remaining).filter keep ∧
        inPlaceFilter keep xs remaining read write =
          (xs.take write ++ kept ++ xs.drop (write + kept.length), write + kept.length) := by
  induction remaining with
  | zero =>
      intro xs read write _ _
      exact ⟨[], by simp, by simp [inPlaceFilter]⟩
  | succ remaining ih =>
      intro xs read write hle hlen
      have hlt : read < xs.length := by omega
      have hget : xs[read]? = some xs[read] := List.getElem?_eq_getElem hlt
      have htake : (xs.drop read).take (remaining + 1) =
          xs[read] :: (xs.drop (read + 1)).take remaining := by
        rw [List.drop_eq_getElem_cons hlt, List.take_succ_cons]
      unfold inPlaceFilter
      rw [hget]
      by_cases hkeep : keep xs[read]
      · -- the slot is kept: it is copied down, and nothing at or above `read + 1` moves
        simp only [hkeep, if_true, copyDown_eq xs write hget]
        obtain ⟨kept, hkept, hrun⟩ :=
          ih (xs.set write xs[read]) (read + 1) (write + 1) (by omega)
            (by rw [List.length_set]; omega)
        rw [List.drop_set_of_lt (by omega)] at hkept
        refine ⟨xs[read] :: kept, ?_, ?_⟩
        · rw [htake, List.filter_cons_of_pos hkeep, hkept]
        · rw [hrun]
          have hfront : (xs.set write xs[read]).take (write + 1) =
              xs.take write ++ [xs[read]] := by
            rw [List.take_set, List.take_add_one, List.getElem?_eq_getElem (by omega)]
            rw [List.set_append_right _ _ (by simp)]
            simp [Nat.min_eq_left (by omega : write ≤ xs.length)]
          have hback : (xs.set write xs[read]).drop (write + 1 + kept.length) =
              xs.drop (write + (kept.length + 1)) := by
            rw [List.drop_set_of_lt (by omega)]
            congr 1
            omega
          rw [hfront, hback]
          simp
          omega
      · simp only [hkeep, Bool.false_eq_true, if_false]
        obtain ⟨kept, hkept, hrun⟩ := ih xs (read + 1) write (by omega) (by omega)
        refine ⟨kept, ?_, hrun⟩
        rw [htake, List.filter_cons_of_neg hkeep, hkept]

/-- **The loop filters the first `count` slots** and leaves the slots above them alone. -/
theorem inPlaceFilter_spec (keep : α → Bool) (xs : List α) {count : Nat}
    (hcount : count ≤ xs.length) :
    inPlaceFilter keep xs count 0 0 =
      ((xs.take count).filter keep ++ xs.drop ((xs.take count).filter keep).length,
        ((xs.take count).filter keep).length) := by
  obtain ⟨kept, hkept, hrun⟩ := inPlaceFilter_loop keep count xs 0 0 le_rfl (by omega)
  rw [List.drop_zero] at hkept
  rw [hrun, ← hkept]
  simp

end InPlaceFilter
end WispRelay
