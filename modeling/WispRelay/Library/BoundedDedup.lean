import Mathlib.Data.List.Dedup
import Mathlib.Tactic

/-!
# Dropping duplicates with a table of bounded size

A pass over a list emits each element whose key is not in a table, and records the keys it
emits while the table has room.

* `emit` and `tableAfter`: what the pass emits, and the table it leaves.
* `mem_emit_of_mem`: no key is lost.
* `nodup_emit_iff`: no key is emitted twice exactly when every key that comes twice is among
  the first ones the table has room for (`Suffices`).
-/

namespace WispRelay
namespace BoundedDedup

universe u v

variable
  {α : Type u}
  {κ : Type v}
  [DecidableEq κ]
  (key : α → κ)
  (cap : Nat)

/-- Record a key while there is room. -/
def record
    (table : List κ)
    (k : κ) : List κ :=
  if table.length < cap then table ++ [k] else table

/-- What the pass emits. -/
def emit : List κ → List α → List α
  | _, [] => []
  | table, x :: rest =>
      if key x ∈ table then emit table rest
      else x :: emit (record cap table (key x)) rest

/-- The table after the pass. -/
def tableAfter : List κ → List α → List κ
  | table, [] => table
  | table, x :: rest =>
      if key x ∈ table then tableAfter table rest
      else tableAfter (record cap table (key x)) rest

/-- The keys of a list, each once, in the order in which they come first. -/
def firstKeys
    (xs : List α) : List κ :=
  (xs.map key).reverse.dedup.reverse

section Append

variable
  (table : List κ)
  (xs ys : List α)

theorem tableAfter_append :
    tableAfter key cap table (xs ++ ys) =
      tableAfter key cap (tableAfter key cap table xs) ys := by
  induction xs generalizing table with
  | nil => rfl
  | cons x rest ih =>
      simp only [List.cons_append, tableAfter]
      split
      · exact ih table
      · exact ih _

theorem emit_append :
    emit key cap table (xs ++ ys) =
      emit key cap table xs ++ emit key cap (tableAfter key cap table xs) ys := by
  induction xs generalizing table with
  | nil => rfl
  | cons x rest ih =>
      simp only [List.cons_append, emit, tableAfter]
      split
      · exact ih table
      · rw [ih, List.cons_append]

/-- The pass over one more element. -/
theorem emit_snoc
    (x : α) :
    emit key cap table (xs ++ [x]) =
      emit key cap table xs ++
        if key x ∈ tableAfter key cap table xs then [] else [x] := by
  rw [emit_append, emit, emit]
  split <;> rfl

theorem tableAfter_snoc
    (x : α) :
    tableAfter key cap table (xs ++ [x]) =
      if key x ∈ tableAfter key cap table xs then tableAfter key cap table xs
      else record cap (tableAfter key cap table xs) (key x) := by
  rw [tableAfter_append, tableAfter, tableAfter]
  split <;> rfl

theorem firstKeys_snoc
    (x : α) :
    firstKeys key (xs ++ [x]) =
      if key x ∈ xs.map key then firstKeys key xs else firstKeys key xs ++ [key x] := by
  simp only [firstKeys, List.map_append, List.map_singleton, List.reverse_append,
    List.reverse_singleton, List.singleton_append]
  split
  · rename_i hmem
    rw [List.dedup_cons_of_mem (List.mem_reverse.mpr hmem)]
  · rename_i hnew
    rw [List.dedup_cons_of_notMem (by rwa [List.mem_reverse]), List.reverse_cons]

theorem mem_firstKeys
    {k : κ} :
    k ∈ firstKeys key xs ↔ k ∈ xs.map key := by
  simp only [firstKeys, List.mem_reverse, List.mem_dedup]

/-- Only elements of the list are emitted. -/
theorem emit_sublist :
    (emit key cap table xs).Sublist xs := by
  induction xs generalizing table with
  | nil => exact List.Sublist.refl _
  | cons x rest ih =>
      simp only [emit]
      split
      · exact (ih table).cons x
      · exact (ih _).cons_cons x

/-- No key is lost. -/
theorem mem_emit_of_mem
    {x : α}
    (hmem : x ∈ xs) :
    key x ∈ table ∨ ∃ y ∈ emit key cap table xs, key y = key x := by
  induction xs generalizing table with
  | nil => cases hmem
  | cons z rest ih =>
      simp only [emit]
      by_cases hz : key z ∈ table
      · rw [if_pos hz]
        rcases List.mem_cons.mp hmem with rfl | hrest
        · exact Or.inl hz
        · exact ih table hrest
      · rw [if_neg hz]
        rcases List.mem_cons.mp hmem with rfl | hrest
        · exact Or.inr ⟨x, List.mem_cons_self, rfl⟩
        · rcases ih (record cap table (key z)) hrest with htable | ⟨y, hy, hkey⟩
          · rw [record] at htable
            split at htable
            · rcases List.mem_append.mp htable with hold | hnew
              · exact Or.inl hold
              · exact Or.inr ⟨z, List.mem_cons_self, (List.mem_singleton.mp hnew).symm⟩
            · exact Or.inl htable
          · exact Or.inr ⟨y, List.mem_cons_of_mem _ hy, hkey⟩

end Append

/-! ## Passes that start with an empty table -/

/-- What is known of a pass: the table, and how often each key was emitted. -/
structure PassInv
    (xs : List α) : Prop where
  table : tableAfter key cap [] xs = (firstKeys key xs).take cap
  emitted : ((emit key cap [] xs).map key).take cap = (firstKeys key xs).take cap
  count : ∀ k, ((emit key cap [] xs).map key).count k =
    if k ∈ (firstKeys key xs).take cap then 1 else (xs.map key).count k

omit [DecidableEq κ] in
/-- The front of a list is a table that records its elements. -/
theorem take_snoc
    (ks : List κ)
    (k : κ) :
    (ks ++ [k]).take cap = record cap (ks.take cap) k := by
  rw [record]
  by_cases hroom : ks.length < cap
  · rw [List.take_of_length_le (by simpa using hroom), List.take_of_length_le hroom.le,
      if_pos hroom]
  · have hfull : (ks.take cap).length = cap := by
      rw [List.length_take]
      omega
    rw [List.take_append_of_le_length (by omega), if_neg (by omega)]

/-- A key that came before is in the table, unless the table is full. -/
theorem firstKeys_take_snoc
    (xs : List α)
    (x : α) :
    (firstKeys key (xs ++ [x])).take cap =
      if key x ∈ (firstKeys key xs).take cap then (firstKeys key xs).take cap
      else record cap ((firstKeys key xs).take cap) (key x) := by
  rw [firstKeys_snoc]
  by_cases hseen : key x ∈ xs.map key
  · rw [if_pos hseen]
    split
    · rfl
    · rename_i hout
      have hfull : ¬ (firstKeys key xs).length < cap := by
        intro hroom
        rw [List.take_of_length_le hroom.le, mem_firstKeys] at hout
        exact hout hseen
      rw [record, if_neg]
      rw [List.length_take]
      omega
  · have hout : key x ∉ (firstKeys key xs).take cap :=
      fun h => hseen ((mem_firstKeys key xs).mp (List.mem_of_mem_take h))
    rw [if_neg hseen, if_neg hout, take_snoc]

theorem passInv
    (xs : List α) :
    PassInv key cap xs := by
  induction xs using List.reverseRecOn with
  | nil =>
      exact ⟨by simp [tableAfter, firstKeys], by simp [emit, firstKeys], by simp [emit, firstKeys]⟩
  | append_singleton xs x ih =>
      have hfirst := firstKeys_take_snoc key cap xs x
      have htable : tableAfter key cap [] (xs ++ [x]) =
          (firstKeys key (xs ++ [x])).take cap := by
        rw [tableAfter_snoc, ih.table, hfirst]
      by_cases hin : key x ∈ (firstKeys key xs).take cap
      · -- the key is in the table, so nothing is emitted
        rw [if_pos hin] at hfirst
        have hemit : emit key cap [] (xs ++ [x]) = emit key cap [] xs := by
          rw [emit_snoc, ih.table, if_pos hin, List.append_nil]
        refine ⟨htable, ?_, ?_⟩
        · rw [hemit, hfirst, ih.emitted]
        · intro k
          rw [hemit, hfirst, ih.count, List.map_append, List.count_append]
          split
          · rfl
          · rename_i hk
            have hne : key x ≠ k := fun h => hk (h ▸ hin)
            simp [hne]
      · rw [if_neg hin] at hfirst
        have hemit : (emit key cap [] (xs ++ [x])).map key =
            (emit key cap [] xs).map key ++ [key x] := by
          rw [emit_snoc, ih.table, if_neg hin, List.map_append, List.map_singleton]
        refine ⟨htable, ?_, ?_⟩
        · rw [hemit, hfirst, take_snoc, ih.emitted]
        · intro k
          rw [hemit, hfirst, List.count_append, ih.count, List.map_append, List.map_singleton,
            List.count_append]
          by_cases hk : k = key x
          · subst hk
            rw [if_neg hin, record]
            by_cases hroom : ((firstKeys key xs).take cap).length < cap
            · -- while there is room, a key that is not in the table is new
              have hall : (firstKeys key xs).take cap = firstKeys key xs := by
                rw [List.length_take] at hroom
                exact List.take_of_length_le (by omega)
              have hnew : key x ∉ xs.map key := by
                rw [← mem_firstKeys, ← hall]
                exact hin
              rw [if_pos hroom, if_pos (List.mem_append_right _ (List.mem_singleton_self _)),
                List.count_eq_zero_of_not_mem hnew]
              simp
            · rw [if_neg hroom, if_neg hin]
          · have hrecord : k ∈ record cap ((firstKeys key xs).take cap) (key x) ↔
                k ∈ (firstKeys key xs).take cap := by
              rw [record]
              split
              · simp [hk]
              · exact Iff.rfl
            have hnone : [key x].count k = 0 := by
              simp [Ne.symm hk]
            simp only [hrecord, hnone, Nat.add_zero]

/-- Every key that comes twice is among the first ones the table has room for. -/
def Suffices
    (xs : List α) : Prop :=
  ∀ k, k ∉ (firstKeys key xs).take cap → (xs.map key).count k ≤ 1

/-- No key is emitted twice exactly when the table suffices. -/
theorem nodup_emit_iff
    (xs : List α) :
    ((emit key cap [] xs).map key).Nodup ↔ Suffices key cap xs := by
  rw [List.nodup_iff_count_le_one]
  refine forall_congr' fun k => ?_
  rw [(passInv key cap xs).count k]
  split
  · rename_i hk
    exact iff_of_true (Nat.le_refl 1) (fun hnot => absurd hk hnot)
  · rename_i hk
    exact (imp_iff_right hk).symm

/-- Everything is emitted twice when it comes twice and does not fit the table. -/
theorem not_suffices_of_twice
    {xs : List α}
    (hnodup : (xs.map key).Nodup)
    (hfull : cap < xs.length) :
    ¬ Suffices key cap (xs ++ xs) := by
  intro h
  obtain ⟨k, hk, hout⟩ : ∃ k ∈ xs.map key, k ∉ (firstKeys key (xs ++ xs)).take cap := by
    by_contra hnone
    push Not at hnone
    have hle := (List.subperm_of_subset hnodup hnone).length_le
    rw [List.length_map, List.length_take] at hle
    omega
  have hcount := h k hout
  have hpos := List.count_pos_iff.mpr hk
  rw [List.map_append, List.count_append] at hcount
  omega

end BoundedDedup
end WispRelay
