import Mathlib

/-!
# Blocks that are allocated and released

A heap is known by the answers it will give, by the number of the next block and by the log of
the blocks released.  Blocks are numbered in the order in which they are allocated, so a routine
that starts at block `b` and allocates `k` blocks allocates those of `List.range' b k`.

* `Copier`: a routine that either returns a value which owns all it allocated, or nothing after
  releasing all it allocated; it says when each happens.
* `Releaser`: a routine that releases some blocks, each once.
* `copyArray_copier`: an array is copied element by element, and undone at the first failure.
-/

namespace WispRelay
namespace AllocationLog

/-- A block, by its number. -/
abbrev Block := Nat

/-- A heap, with a history of events of its user. -/
structure Heap (ε : Type) where
  answers : List Bool
  next : Block
  freed : List Block
  history : List ε

/-- A routine that uses the heap. -/
abbrev HeapM (ε : Type) := StateM (Heap ε)

variable {ε : Type} {α β : Type}

/-- Allocate a block; those after the last answer are granted. -/
def malloc : HeapM ε (Option Block) := fun heap =>
  match heap.answers with
  | [] => (some heap.next, { heap with next := heap.next + 1 })
  | true :: rest => (some heap.next, { heap with answers := rest, next := heap.next + 1 })
  | false :: rest => (none, { heap with answers := rest })

/-- Release a block. -/
def free
    (block : Block) : HeapM ε Unit := fun heap =>
  ((), { heap with freed := heap.freed ++ [block] })

/-- Add an event to the history. -/
def note
    (event : ε) : HeapM ε Unit := fun heap =>
  ((), { heap with history := heap.history ++ [event] })

/-- The next `n` answers are successes. -/
def Grants
    (n : Nat)
    (answers : List Bool) : Prop :=
  ∀ answer ∈ answers.take n, answer = true

instance (n : Nat) (answers : List Bool) : Decidable (Grants n answers) :=
  inferInstanceAs (Decidable (∀ answer ∈ answers.take n, answer = true))

theorem grants_zero
    (answers : List Bool) :
    Grants 0 answers := by
  intro answer hanswer
  rw [List.take_zero] at hanswer
  cases hanswer

/-- Answers are given in turn. -/
theorem grants_add
    {m n : Nat}
    {answers : List Bool} :
    Grants (m + n) answers ↔ Grants m answers ∧ Grants n (answers.drop m) := by
  unfold Grants
  rw [List.take_add]
  simp only [List.mem_append, or_imp, forall_and]

/-! ## Routines that release -/

/-- The routine releases these blocks, each once, and does nothing else. -/
def Releaser
    (routine : HeapM ε Unit)
    (blocks : List Block) : Prop :=
  ∀ heap : Heap ε, ∃ freed,
    routine heap = ((), { heap with freed := heap.freed ++ freed }) ∧ freed.Perm blocks

namespace Releaser

theorem pure :
    Releaser (pure () : HeapM ε Unit) [] := by
  intro heap
  refine ⟨[], ?_, List.Perm.refl _⟩
  rw [List.append_nil]
  rfl

theorem free
    (block : Block) :
    Releaser (free block : HeapM ε Unit) [block] := by
  intro heap
  exact ⟨[block], rfl, List.Perm.refl _⟩

theorem perm
    {routine : HeapM ε Unit}
    {blocks blocks' : List Block}
    (h : Releaser routine blocks)
    (hperm : blocks.Perm blocks') :
    Releaser routine blocks' := by
  intro heap
  obtain ⟨freed, hrun, hfreed⟩ := h heap
  exact ⟨freed, hrun, hfreed.trans hperm⟩

theorem andThen
    {first second : HeapM ε Unit}
    {blocks blocks' : List Block}
    (hfirst : Releaser first blocks)
    (hsecond : Releaser second blocks') :
    Releaser (do first; second) (blocks ++ blocks') := by
  intro heap
  obtain ⟨freed, hrun, hfreed⟩ := hfirst heap
  obtain ⟨freed', hrun', hfreed'⟩ := hsecond { heap with freed := heap.freed ++ freed }
  refine ⟨freed ++ freed', ?_, hfreed.append hfreed'⟩
  simp only [Bind.bind, StateT.bind, hrun]
  rw [hrun', List.append_assoc]

/-- A loop releases what the turns of its body release. -/
theorem forM
    {release : α → HeapM ε Unit}
    {owned : α → List Block}
    (h : ∀ a, Releaser (release a) (owned a))
    (as : List α) :
    Releaser (as.forM release) (as.flatMap owned) := by
  induction as with
  | nil => exact Releaser.pure
  | cons a as ih => exact (h a).andThen ih

end Releaser

/-! ## Routines that copy -/

/--
How a copying routine that needs `n` blocks ends on a heap: with a value that owns all the blocks
allocated, if copying is possible and the heap grants them; else with nothing, all the blocks
allocated being released, each once.
-/
inductive Attempt
    (heap : Heap ε)
    (n : Nat)
    (possible : Prop)
    (owned : β → List Block)
    (good : β → Prop) :
    Option β × Heap ε → Prop
  | copied
      (b : β)
      (hpossible : possible)
      (hgrants : Grants n heap.answers)
      (howned : owned b = List.range' heap.next n)
      (hgood : good b) :
      Attempt heap n possible owned good
        (some b, { heap with answers := heap.answers.drop n, next := heap.next + n })
  | undone
      (k : Nat)
      (answers : List Bool)
      (freed : List Block)
      (hnot : ¬ (possible ∧ Grants n heap.answers))
      (hfreed : freed.Perm (List.range' heap.next k)) :
      Attempt heap n possible owned good
        (none, { heap with
          answers := answers, next := heap.next + k, freed := heap.freed ++ freed })

/-- The routine copies, or undoes what it did, on every heap. -/
def Copier
    (routine : HeapM ε (Option β))
    (n : Nat)
    (possible : Prop)
    (owned : β → List Block)
    (good : β → Prop) : Prop :=
  ∀ heap, Attempt heap n possible owned good (routine heap)

/-- The heap after `n` blocks were granted. -/
abbrev Heap.granted
    (heap : Heap ε)
    (n : Nat) : Heap ε :=
  { heap with answers := heap.answers.drop n, next := heap.next + n }

/-- A routine that cannot copy and allocates nothing. -/
theorem Attempt.nothing
    {heap : Heap ε}
    {n : Nat}
    {possible : Prop}
    {owned : β → List Block}
    {good : β → Prop}
    {answers : List Bool}
    (hnot : ¬ (possible ∧ Grants n heap.answers)) :
    Attempt heap n possible owned good (none, { heap with answers := answers }) := by
  have hundone : Attempt heap n possible owned good
      (none, { heap with
        answers := answers, next := heap.next + 0, freed := heap.freed ++ [] }) :=
    Attempt.undone 0 answers [] hnot (List.Perm.refl _)
  rwa [List.append_nil, Nat.add_zero] at hundone

theorem malloc_copier :
    Copier (malloc : HeapM ε (Option Block)) 1 True (fun block => [block]) (fun _ => True) := by
  rintro ⟨answers, next, freed, history⟩
  cases answers with
  | nil =>
      refine Attempt.copied next trivial ?_ rfl trivial
      simp [Grants]
  | cons answer rest =>
      cases answer with
      | true =>
          refine Attempt.copied next trivial ?_ rfl trivial
          simp [Grants]
      | false => exact Attempt.nothing (by simp [Grants])

section Arrays

variable
  (copy : α → HeapM ε (Option β))
  (release : β → HeapM ε Unit)

/-- The loop that copies the elements of an array after those already copied. -/
def copyRest
    (dst : Block)
    (copied : List β) : List α → HeapM ε (Option (Block × List β))
  | [] => pure (some (dst, copied))
  | a :: rest => do
      match ← copy a with
      | none => do
          copied.forM release
          free dst
          pure none
      | some b => copyRest dst (copied ++ [b]) rest

/-- Copy an array: nothing when it is empty, and nothing when a copy fails. -/
def copyArray
    (as : List α) : HeapM ε (Option (Block × List β)) :=
  if as.isEmpty then
    pure none
  else do
    match ← malloc with
    | none => pure none
    | some dst => copyRest copy release dst [] as

/-- The blocks of an array and its elements. -/
def arrayBlocks
    (owned : β → List Block)
    (array : Block × List β) : List Block :=
  array.1 :: array.2.flatMap owned

variable {copy release}
variable
  {count : α → Nat}
  {possible : α → Prop}
  {owned : β → List Block}
  {good : α → β → Prop}

/-- What is copied so far, on a heap that granted it, is completed or undone. -/
theorem copyRest_attempt
    (hcopy : ∀ a, Copier (copy a) (count a) (possible a) owned (good a))
    (hrelease : ∀ b, Releaser (release b) (owned b))
    (heap : Heap ε)
    (dst : Block)
    (rest : List α) :
    ∀ (before : List α) (copied : List β) (n : Nat),
      (∀ a ∈ before, possible a) →
      Grants n heap.answers →
      arrayBlocks owned (dst, copied) = List.range' heap.next n →
      List.Forall₂ good before copied →
      Attempt heap (n + (rest.map count).sum) (∀ a ∈ before ++ rest, possible a)
        (arrayBlocks owned) (fun array => List.Forall₂ good (before ++ rest) array.2)
        (copyRest copy release dst copied rest (heap.granted n)) := by
  induction rest with
  | nil =>
      intro before copied n hbefore hgrants howned hgood
      rw [List.append_nil, List.map_nil, List.sum_nil, Nat.add_zero]
      exact Attempt.copied (dst, copied) hbefore hgrants howned hgood
  | cons a rest ih =>
      intro before copied n hbefore hgrants howned hgood
      have hattempt := hcopy a (heap.granted n)
      have hsum : n + ((a :: rest).map count).sum = n + count a + (rest.map count).sum := by
        rw [List.map_cons, List.sum_cons, Nat.add_assoc]
      have hrun : copyRest copy release dst copied (a :: rest) (heap.granted n) =
          match copy a (heap.granted n) with
          | (none, heap') => (do
              copied.forM release
              free dst
              pure none : HeapM ε (Option (Block × List β))) heap'
          | (some b, heap') => copyRest copy release dst (copied ++ [b]) rest heap' := by
        simp only [copyRest, Bind.bind, StateT.bind]
        rcases copy a (heap.granted n) with ⟨_ | b, heap'⟩ <;> rfl
      rw [hsum, hrun, List.append_cons]
      generalize copy a (heap.granted n) = result at hattempt
      cases hattempt with
      | copied b hpossible hgranted hblocks hb =>
          have hnext := ih (before ++ [a]) (copied ++ [b]) (n + count a)
            (by
              intro a' ha'
              rcases List.mem_append.mp ha' with hmem | hmem
              · exact hbefore a' hmem
              · obtain rfl := List.mem_singleton.mp hmem
                exact hpossible)
            (grants_add.mpr ⟨hgrants, hgranted⟩)
            (by
              have hall : arrayBlocks owned (dst, copied ++ [b]) =
                  arrayBlocks owned (dst, copied) ++ owned b := by
                simp [arrayBlocks]
              rw [hall, howned, hblocks, List.range'_append_1])
            (List.rel_append hgood (List.Forall₂.cons hb List.Forall₂.nil))
          have hheap : (heap.granted (n + count a)) = (heap.granted n).granted (count a) := by
            simp only [Heap.granted, List.drop_drop, Nat.add_assoc]
          rw [hheap] at hnext
          exact hnext
      | undone k answers freed hnot hfreed =>
          -- the elements copied before this one are released, then the array
          obtain ⟨freed', hrun', hfreed'⟩ := Releaser.forM hrelease copied
            { heap.granted n with
              answers := answers
              next := heap.next + n + k
              freed := heap.freed ++ freed }
          suffices hundone : Attempt heap (n + count a + (rest.map count).sum)
              (∀ a' ∈ before ++ [a] ++ rest, possible a') (arrayBlocks owned)
              (fun array => List.Forall₂ good (before ++ [a] ++ rest) array.2)
              (none, { heap with
                answers := answers
                next := heap.next + (n + k)
                freed := heap.freed ++ (freed ++ (freed' ++ [dst])) }) by
            simp only [Bind.bind, StateT.bind, hrun', free, Pure.pure, StateT.pure]
            simpa only [Nat.add_assoc, List.append_assoc] using hundone
          refine Attempt.undone (n + k) answers (freed ++ (freed' ++ [dst])) ?_ ?_
          · rintro ⟨hall, hgrants'⟩
            refine hnot ⟨hall a (by simp), ?_⟩
            rw [Nat.add_assoc, grants_add, grants_add] at hgrants'
            exact hgrants'.2.1
          · have hblocks : (freed' ++ [dst]).Perm (List.range' heap.next n) := by
              rw [← howned]
              exact (List.perm_append_singleton dst freed').trans (hfreed'.cons dst)
            rw [← List.range'_append_1]
            exact List.perm_append_comm.trans (hblocks.append hfreed)

/-- An array that is not empty is copied, or undone. -/
theorem copyArray_copier
    (hcopy : ∀ a, Copier (copy a) (count a) (possible a) owned (good a))
    (hrelease : ∀ b, Releaser (release b) (owned b))
    {as : List α}
    (has : as ≠ []) :
    Copier (copyArray copy release as) (1 + (as.map count).sum) (∀ a ∈ as, possible a)
      (arrayBlocks owned) (fun array => List.Forall₂ good as array.2) := by
  intro heap
  have hmalloc := malloc_copier heap
  have hempty : as.isEmpty = false := List.isEmpty_eq_false_iff.mpr has
  have hrun : copyArray copy release as heap =
      match malloc heap with
      | (none, heap') => (none, heap')
      | (some dst, heap') => copyRest copy release dst [] as heap' := by
    simp only [copyArray, hempty, Bool.false_eq_true, if_false, Bind.bind, StateT.bind]
    rcases malloc heap with ⟨_ | dst, heap'⟩ <;> rfl
  rw [hrun]
  generalize malloc heap = result at hmalloc
  cases hmalloc with
  | copied dst _ hgranted howned _ =>
      exact copyRest_attempt hcopy hrelease heap dst as [] [] 1 (by simp) hgranted
        (by simpa [arrayBlocks] using howned) List.Forall₂.nil
  | undone k answers freed hnot hfreed =>
      refine Attempt.undone k answers freed ?_ hfreed
      rw [grants_add]
      exact fun hall => hnot ⟨trivial, hall.2.1⟩

end Arrays

end AllocationLog
end WispRelay
