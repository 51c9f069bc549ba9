import WispRelay.Library.AllocationLog
import WispRelay.Library.Runs
import WispRelay.Subscriptions.SubManager

/-!
# The memory of copied filters

The copying of filters in `sub_manager.c` once more, now with the blocks of the arrays and the
counts that are kept beside the pointers, and `nostr_filter_free` of `test_sub_manager.c`.

`filter_copy` writes a count before it allocates the array.  When a copy fails it hands the
filter to `nostr_filter_free`, whose loops run up to the counts.

* `FilterPtrs.Present`: every array with a positive count is there.
* `filterCopy_ends`: a copy is complete, or all its blocks are released, each once; then
  `nostr_filter_free` was given a filter with a missing array.
* `SlotOp`: what the subscription manager does to the filters of a slot.
* `filter_copies_clean_iff`: when all of them were copied and freed as they should.
-/

namespace WispRelay
namespace FilterMemory

open AllocationLog Runs

/-! ## Filters with their pointers -/

/-- `char *`, to a string. -/
structure CharPtr where
  block : Block
  text : CString

/--
A pointer to an array, and the count kept beside it.  The count of a missing array can be
anything.
-/
inductive CountedArray (α : Type) where
  | null (count : Nat)
  | array (block : Block) (items : List α)

namespace CountedArray

variable {α : Type}

/-- The count. -/
def count : CountedArray α → Nat
  | null count => count
  | array _ items => items.length

/-- The elements that are there. -/
def items : CountedArray α → List α
  | null _ => []
  | array _ items => items

/-- The pointer is not `NULL`, or there is nothing to point to. -/
def Present : CountedArray α → Prop
  | null count => count = 0
  | array _ _ => True

/-- What a count and the result of an allocation make. -/
def ofPointer
    (count : Nat) : Option (Block × List α) → CountedArray α
  | none => null count
  | some (block, items) => array block items

/-- The blocks of the array and of its elements. -/
def blocks
    (owned : α → List Block) : CountedArray α → List Block
  | null _ => []
  | array block items => arrayBlocks owned (block, items)

@[simp] theorem blocks_null
    (owned : α → List Block)
    (count : Nat) :
    (null count).blocks owned = [] := rfl

/-- The blocks that a copy of the array needs. -/
def allocations
    (each : α → Nat)
    (a : CountedArray α) : Nat :=
  if a.items.isEmpty then 0 else 1 + (a.items.map each).sum

end CountedArray

/-- `nostr_generic_tag_filter_t`. -/
structure GenericTagPtrs where
  tagName : UInt8
  values : CountedArray CharPtr

/-- `nostr_filter_t`. -/
structure FilterPtrs where
  ids : CountedArray CharPtr := .null 0
  authors : CountedArray CharPtr := .null 0
  kinds : CountedArray Int32 := .null 0
  eTags : CountedArray CharPtr := .null 0
  pTags : CountedArray CharPtr := .null 0
  genericTags : CountedArray GenericTagPtrs := .null 0
  since : Int64 := 0
  until_ : Int64 := 0
  limit : Int32 := 0

/-- The block of a string. -/
def CharPtr.blocks
    (s : CharPtr) : List Block :=
  [s.block]

/-- The blocks of a tag. -/
def GenericTagPtrs.blocks
    (tag : GenericTagPtrs) : List Block :=
  tag.values.blocks CharPtr.blocks

/-- What the tag says. -/
def GenericTagPtrs.tag
    (tag : GenericTagPtrs) : NostrGenericTagFilter where
  tagName := tag.tagName
  values := tag.values.items.map (·.text)

namespace FilterPtrs

/-- Every array whose count is positive is there. -/
structure Present (filter : FilterPtrs) : Prop where
  ids : filter.ids.Present
  authors : filter.authors.Present
  kinds : filter.kinds.Present
  eTags : filter.eTags.Present
  pTags : filter.pTags.Present
  genericTags : filter.genericTags.Present
  values : ∀ tag ∈ filter.genericTags.items, tag.values.Present

/-- What the filter says, field by field. -/
def fields
    (filter : FilterPtrs) : NostrFilter where
  ids := filter.ids.items.map (·.text)
  authors := filter.authors.items.map (·.text)
  kinds := filter.kinds.items
  eTags := filter.eTags.items.map (·.text)
  pTags := filter.pTags.items.map (·.text)
  genericTags := filter.genericTags.items.map GenericTagPtrs.tag
  since := filter.since
  until_ := filter.until_
  limit := filter.limit

/-- All the blocks of the filter. -/
def blocks
    (filter : FilterPtrs) : List Block :=
  filter.ids.blocks CharPtr.blocks ++ (filter.authors.blocks CharPtr.blocks ++
    (filter.kinds.blocks (fun _ => []) ++ (filter.eTags.blocks CharPtr.blocks ++
      (filter.pTags.blocks CharPtr.blocks ++
        filter.genericTags.blocks GenericTagPtrs.blocks))))

/-- The blocks that a copy of the filter needs. -/
def allocations
    (filter : FilterPtrs) : Nat :=
  filter.ids.allocations (fun _ => 1) + (filter.authors.allocations (fun _ => 1) +
    (filter.kinds.allocations (fun _ => 0) + (filter.eTags.allocations (fun _ => 1) +
      (filter.pTags.allocations (fun _ => 1) +
        filter.genericTags.allocations (fun tag => tag.values.allocations (fun _ => 1))))))

end FilterPtrs

/-! ## Freeing and copying -/

/-- A call of `filter_copy`, with the blocks it allocated and those it released. -/
structure CopyCall where
  src : FilterPtrs
  ok : Bool
  dst : FilterPtrs
  allocated : List Block
  freed : List Block

/-- The calls of interest. -/
inductive FilterEvent where
  | filterCopy (call : CopyCall)
  | nostrFilterFree (filter : FilterPtrs)

/--
The loop over an array of strings in `nostr_filter_free`, with the `free` after it.  Over a
missing array the C loop reads through `NULL` when its count is positive; here it releases
nothing.
-/
def freeStrings : CountedArray CharPtr → HeapM FilterEvent Unit
  | .null _ => pure ()
  | .array block strings => do
      strings.forM fun s => free s.block
      free block

/-- `free(f->kinds)`. -/
def freeInts : CountedArray Int32 → HeapM FilterEvent Unit
  | .null _ => pure ()
  | .array block _ => free block

/-- The block under `if (f->generic_tags)`. -/
def freeGenericTags : CountedArray GenericTagPtrs → HeapM FilterEvent Unit
  | .null _ => pure ()
  | .array block tags => do
      tags.forM fun tag => freeStrings tag.values
      free block

/-- The arrays of a filter are released one after another. -/
def freeArrays
    (f : FilterPtrs) : HeapM FilterEvent Unit := do
  freeStrings f.ids
  freeStrings f.authors
  freeInts f.kinds
  freeStrings f.eTags
  freeStrings f.pTags
  freeGenericTags f.genericTags

/-- `nostr_filter_free` of `test_sub_manager.c`. -/
def nostrFilterFree
    (f : FilterPtrs) : HeapM FilterEvent FilterPtrs := do
  note (.nostrFilterFree f)
  freeArrays f
  return {}

/-- `strdup`. -/
def strdup
    (s : CharPtr) : HeapM FilterEvent (Option CharPtr) := do
  match ← malloc with
  | none => return none
  | some block => return some { block := block, text := s.text }

/-- `copy_string_array`. -/
def copyStringArray : CountedArray CharPtr → HeapM FilterEvent (Option (Block × List CharPtr))
  | .null _ => return none
  | .array _ strings => copyArray strdup (fun s => free s.block) strings

/-- `copy_int_array`. -/
def copyIntArray
    (src : CountedArray Int32) : HeapM FilterEvent (Option (Block × List Int32)) :=
  if src.items.isEmpty then
    return none
  else do
    match ← malloc with
    | none => return none
    | some dst => return some (dst, src.items)

/--
Copy the array of a field whose count is set: nothing when there is something to copy and the
pointer is `NULL`.
-/
def copyField
    {α : Type}
    (count : Nat)
    (copy : HeapM FilterEvent (Option (Block × List α))) :
    HeapM FilterEvent (Option (CountedArray α)) := do
  let pointer ← copy
  if 0 < count && pointer.isNone then
    return none
  else
    return some (CountedArray.ofPointer count pointer)

/-- The body of the loop of `copy_generic_tags`. -/
def copyGenericTag
    (src : GenericTagPtrs) : HeapM FilterEvent (Option GenericTagPtrs) := do
  match ← copyField src.values.count (copyStringArray src.values) with
  | none => return none
  | some values => return some { tagName := src.tagName, values := values }

/-- `copy_generic_tags`. -/
def copyGenericTags :
    CountedArray GenericTagPtrs → HeapM FilterEvent (Option (Block × List GenericTagPtrs))
  | .null _ => return none
  | .array _ tags => copyArray copyGenericTag (fun tag => freeStrings tag.values) tags

/-- The label `fail` of `filter_copy`. -/
def fail
    (dst : FilterPtrs) : HeapM FilterEvent (Bool × FilterPtrs) := do
  let dst ← nostrFilterFree dst
  return (false, dst)

/-- A field that could not be copied sends `filter_copy` to `fail`, with `bad` in `dst`. -/
def orFail
    {α : Type}
    (copy : HeapM FilterEvent (Option (CountedArray α)))
    (bad : FilterPtrs)
    (next : CountedArray α → HeapM FilterEvent (Bool × FilterPtrs)) :
    HeapM FilterEvent (Bool × FilterPtrs) := do
  match ← copy with
  | none => fail bad
  | some field => next field

/-- `filter_copy`. -/
def filterCopy
    (src : FilterPtrs) : HeapM FilterEvent (Bool × FilterPtrs) :=
  let dst : FilterPtrs := {}
  orFail (copyField src.ids.count (copyStringArray src.ids))
    { dst with ids := .null src.ids.count } fun ids =>
  let dst := { dst with ids := ids }
  orFail (copyField src.authors.count (copyStringArray src.authors))
    { dst with authors := .null src.authors.count } fun authors =>
  let dst := { dst with authors := authors }
  orFail (copyField src.kinds.count (copyIntArray src.kinds))
    { dst with kinds := .null src.kinds.count } fun kinds =>
  let dst := { dst with kinds := kinds }
  orFail (copyField src.eTags.count (copyStringArray src.eTags))
    { dst with eTags := .null src.eTags.count } fun eTags =>
  let dst := { dst with eTags := eTags }
  orFail (copyField src.pTags.count (copyStringArray src.pTags))
    { dst with pTags := .null src.pTags.count } fun pTags =>
  let dst := { dst with pTags := pTags }
  orFail (copyField src.genericTags.count (copyGenericTags src.genericTags))
    { dst with genericTags := .null src.genericTags.count } fun genericTags =>
  let dst := { dst with genericTags := genericTags }
  return (true, { dst with since := src.since, until_ := src.until_, limit := src.limit })

/-! ## What freeing releases -/

theorem freeStrings_releaser
    (a : CountedArray CharPtr) :
    Releaser (freeStrings a) (a.blocks CharPtr.blocks) := by
  cases a with
  | null count => exact Releaser.pure
  | array block strings =>
      refine ((Releaser.forM (fun s => Releaser.free s.block) strings).andThen
        (Releaser.free block)).perm ?_
      exact List.perm_append_singleton block _

theorem freeInts_releaser
    (a : CountedArray Int32) :
    Releaser (freeInts a) (a.blocks (fun _ => [])) := by
  cases a with
  | null count => exact Releaser.pure
  | array block ints =>
      refine (Releaser.free block).perm ?_
      simp [CountedArray.blocks, arrayBlocks]

theorem freeGenericTags_releaser
    (a : CountedArray GenericTagPtrs) :
    Releaser (freeGenericTags a) (a.blocks GenericTagPtrs.blocks) := by
  cases a with
  | null count => exact Releaser.pure
  | array block tags =>
      refine ((Releaser.forM (fun tag => freeStrings_releaser tag.values) tags).andThen
        (Releaser.free block)).perm ?_
      exact List.perm_append_singleton block _

/-- A filter is freed with all its blocks. -/
theorem freeArrays_releaser
    (f : FilterPtrs) :
    Releaser (freeArrays f) f.blocks :=
  (freeStrings_releaser f.ids).andThen <|
    (freeStrings_releaser f.authors).andThen <|
      (freeInts_releaser f.kinds).andThen <|
        (freeStrings_releaser f.eTags).andThen <|
          (freeStrings_releaser f.pTags).andThen <|
            freeGenericTags_releaser f.genericTags

/-- `nostr_filter_free` clears the filter. -/
theorem nostrFilterFree_run
    (f : FilterPtrs)
    (heap : Heap FilterEvent) :
    ∃ freed, freed.Perm f.blocks ∧
      nostrFilterFree f heap =
        ({}, { heap with
          freed := heap.freed ++ freed
          history := heap.history ++ [.nostrFilterFree f] }) := by
  obtain ⟨freed, hrun, hfreed⟩ := freeArrays_releaser f
    { heap with history := heap.history ++ [.nostrFilterFree f] }
  refine ⟨freed, hfreed, ?_⟩
  simp only [nostrFilterFree, note, Bind.bind, StateT.bind, hrun]
  rfl

/-! ## What copying does -/

theorem strdup_copier
    (s : CharPtr) :
    Copier (strdup s) 1 True CharPtr.blocks (fun copy => copy.text = s.text) := by
  intro heap
  have hmalloc := malloc_copier heap
  have hrun : strdup s heap =
      match malloc heap with
      | (none, heap') => (none, heap')
      | (some block, heap') => (some { block := block, text := s.text }, heap') := by
    simp only [strdup, Bind.bind, StateT.bind]
    rcases malloc heap with ⟨_ | block, heap'⟩ <;> rfl
  rw [hrun]
  generalize malloc heap = result at hmalloc
  cases hmalloc with
  | copied block hpossible hgrants howned _ =>
      exact Attempt.copied _ hpossible hgrants howned rfl
  | undone k answers freed hnot hfreed => exact Attempt.undone k answers freed hnot hfreed

/-- What a field of the copy has to be. -/
structure CopyOf
    {α : Type}
    (same : α → α → Prop)
    (src dst : CountedArray α) : Prop where
  present : dst.Present
  items : List.Forall₂ same src.items dst.items

/-- A field is copied when its array is there and can be copied. -/
theorem copyField_copier
    {α : Type}
    {src : CountedArray α}
    {copy : HeapM FilterEvent (Option (Block × List α))}
    {each : α → Nat}
    {possible : α → Prop}
    {owned : α → List Block}
    {same : α → α → Prop}
    (hcopy : src.items ≠ [] →
      Copier copy (1 + (src.items.map each).sum) (∀ a ∈ src.items, possible a)
        (arrayBlocks owned) (fun array => List.Forall₂ same src.items array.2))
    (hnothing : src.items = [] → ∀ heap, copy heap = (none, heap)) :
    Copier (copyField src.count copy) (src.allocations each)
      (src.Present ∧ ∀ a ∈ src.items, possible a) (CountedArray.blocks owned)
      (CopyOf same src) := by
  intro heap
  have hrun : copyField src.count copy heap =
      match copy heap with
      | (pointer, heap') =>
          (if 0 < src.count && pointer.isNone then none
            else some (CountedArray.ofPointer src.count pointer), heap') := by
    simp only [copyField, Bind.bind, StateT.bind]
    rcases copy heap with ⟨pointer, heap'⟩
    dsimp only
    split_ifs <;> rfl
  rw [hrun]
  cases src with
  | null count =>
      rw [hnothing rfl]
      cases count with
      | zero =>
          change Attempt heap 0 _ _ _ (some (CountedArray.null 0), heap.granted 0)
          refine Attempt.copied _ ⟨rfl, ?_⟩ (grants_zero _) rfl ⟨rfl, List.Forall₂.nil⟩
          exact List.forall_mem_nil _
      | succ count => exact Attempt.nothing fun h => Nat.succ_ne_zero count h.1.1
  | array block items =>
      by_cases hitems : items = []
      · subst hitems
        rw [hnothing rfl]
        change Attempt heap 0 _ _ _ (some (CountedArray.null 0), heap.granted 0)
        refine Attempt.copied _ ⟨trivial, ?_⟩ (grants_zero _) rfl ⟨rfl, List.Forall₂.nil⟩
        exact List.forall_mem_nil _
      · have hneeds : (CountedArray.array block items).allocations each =
            1 + (items.map each).sum := by
          simp [CountedArray.allocations, CountedArray.items, hitems]
        have hcount : 0 < (CountedArray.array block items).count :=
          List.length_pos_of_ne_nil hitems
        have hattempt := hcopy hitems heap
        rw [hneeds]
        generalize copy heap = result at hattempt
        cases hattempt with
        | copied array hpossible hgrants howned hgood =>
            simp only [Option.isNone_some, Bool.and_false, Bool.false_eq_true, if_false]
            exact Attempt.copied _ ⟨trivial, hpossible⟩ hgrants howned ⟨trivial, hgood⟩
        | undone k answers freed hnot hfreed =>
            simp only [hcount, decide_true, Option.isNone_none, Bool.and_true, if_true]
            exact Attempt.undone k answers freed (fun h => hnot ⟨h.1.2, h.2⟩) hfreed

theorem copyStringArray_copier
    (src : CountedArray CharPtr) :
    Copier (copyField src.count (copyStringArray src)) (src.allocations fun _ => 1)
      (src.Present ∧ ∀ s ∈ src.items, True) (CountedArray.blocks CharPtr.blocks)
      (CopyOf (fun s copy => copy.text = s.text) src) := by
  refine copyField_copier ?_ ?_
  · intro hitems
    cases src with
    | null count => exact absurd rfl hitems
    | array block strings =>
        exact copyArray_copier strdup_copier (fun s => Releaser.free s.block) hitems
  · intro hitems heap
    cases src with
    | null count => rfl
    | array block strings =>
        obtain rfl : strings = [] := hitems
        rfl

theorem copyIntArray_copier
    (src : CountedArray Int32) :
    Copier (copyField src.count (copyIntArray src)) (src.allocations fun _ => 0)
      (src.Present ∧ ∀ i ∈ src.items, True) (CountedArray.blocks fun _ => [])
      (CopyOf (fun i copy => copy = i) src) := by
  refine copyField_copier ?_ ?_
  · intro hitems heap
    have hmalloc := malloc_copier heap
    have hempty : src.items.isEmpty = false := List.isEmpty_eq_false_iff.mpr hitems
    have hrun : copyIntArray src heap =
        match malloc heap with
        | (none, heap') => (none, heap')
        | (some dst, heap') => (some (dst, src.items), heap') := by
      simp only [copyIntArray, hempty, Bool.false_eq_true, if_false, Bind.bind, StateT.bind]
      rcases malloc heap with ⟨_ | dst, heap'⟩ <;> rfl
    have hneeds : 1 + (src.items.map fun _ => 0).sum = 1 := by simp
    rw [hrun, hneeds]
    generalize malloc heap = result at hmalloc
    cases hmalloc with
    | copied dst _ hgrants howned _ =>
        refine Attempt.copied (dst, src.items) (fun _ _ => trivial) hgrants ?_ ?_
        · simpa [arrayBlocks] using howned
        · exact List.forall₂_same.mpr fun _ _ => rfl
    | undone k answers freed hnot hfreed =>
        exact Attempt.undone k answers freed (fun h => hnot ⟨trivial, h.2⟩) hfreed
  · intro hitems heap
    simp only [copyIntArray, hitems, List.isEmpty_nil, if_true]
    rfl

/-- A copied tag has the name and the values of the tag. -/
structure SameTag (src dst : GenericTagPtrs) : Prop where
  tagName : dst.tagName = src.tagName
  values : CopyOf (fun s copy => copy.text = s.text) src.values dst.values

theorem copyGenericTag_copier
    (src : GenericTagPtrs) :
    Copier (copyGenericTag src) (src.values.allocations fun _ => 1)
      (src.values.Present ∧ ∀ s ∈ src.values.items, True) GenericTagPtrs.blocks
      (SameTag src) := by
  intro heap
  have hvalues := copyStringArray_copier src.values heap
  have hrun : copyGenericTag src heap =
      match copyField src.values.count (copyStringArray src.values) heap with
      | (none, heap') => (none, heap')
      | (some values, heap') => (some { tagName := src.tagName, values := values }, heap') := by
    simp only [copyGenericTag, Bind.bind, StateT.bind]
    rcases copyField src.values.count (copyStringArray src.values) heap with ⟨_ | values, heap'⟩ <;>
      rfl
  rw [hrun]
  generalize copyField src.values.count (copyStringArray src.values) heap = result at hvalues
  cases hvalues with
  | copied values hpossible hgrants howned hgood =>
      exact Attempt.copied _ hpossible hgrants howned ⟨rfl, hgood⟩
  | undone k answers freed hnot hfreed => exact Attempt.undone k answers freed hnot hfreed

theorem copyGenericTags_copier
    (src : CountedArray GenericTagPtrs) :
    Copier (copyField src.count (copyGenericTags src))
      (src.allocations fun tag => tag.values.allocations fun _ => 1)
      (src.Present ∧ ∀ tag ∈ src.items, tag.values.Present ∧ ∀ s ∈ tag.values.items, True)
      (CountedArray.blocks GenericTagPtrs.blocks) (CopyOf SameTag src) := by
  refine copyField_copier ?_ ?_
  · intro hitems
    cases src with
    | null count => exact absurd rfl hitems
    | array block tags =>
        exact copyArray_copier copyGenericTag_copier
          (fun tag => freeStrings_releaser tag.values) hitems
  · intro hitems heap
    cases src with
    | null count => rfl
    | array block tags =>
        obtain rfl : tags = [] := hitems
        rfl

/--
How the rest of `filter_copy` ends when it is on a heap that has granted `m` blocks to the fields
before: with a copy of the filter, or after freeing a filter with a missing array, and with it all
the blocks allocated.
-/
inductive Ends
    (src : FilterPtrs)
    (heap : Heap FilterEvent)
    (m n : Nat)
    (possible : Prop) :
    (Bool × FilterPtrs) × Heap FilterEvent → Prop
  | copied
      (dst : FilterPtrs)
      (hpossible : possible)
      (hgrants : Grants n (heap.granted m).answers)
      (hpresent : dst.Present)
      (hfields : dst.fields = src.fields) :
      Ends src heap m n possible ((true, dst), heap.granted (m + n))
  | undone
      (bad : FilterPtrs)
      (k : Nat)
      (answers : List Bool)
      (freed : List Block)
      (hnot : ¬ (possible ∧ Grants n (heap.granted m).answers))
      (hbad : ¬ bad.Present)
      (hfreed : freed.Perm (List.range' heap.next k)) :
      Ends src heap m n possible
        ((false, {}), { heap with
          answers := answers
          next := heap.next + k
          freed := heap.freed ++ freed
          history := heap.history ++ [.nostrFilterFree bad] })

theorem Ends.congr
    {src : FilterPtrs}
    {heap : Heap FilterEvent}
    {m n : Nat}
    {possible possible' : Prop}
    {result : (Bool × FilterPtrs) × Heap FilterEvent}
    (h : Ends src heap m n possible result)
    (hiff : possible ↔ possible') :
    Ends src heap m n possible' result := by
  rwa [← propext hiff]

/-- One field more. -/
theorem Ends.field
    {src bad : FilterPtrs}
    {heap : Heap FilterEvent}
    {m n n' : Nat}
    {possible possible' : Prop}
    {α : Type}
    {copy : HeapM FilterEvent (Option (CountedArray α))}
    {next : CountedArray α → HeapM FilterEvent (Bool × FilterPtrs)}
    {owned : CountedArray α → List Block}
    {good : CountedArray α → Prop}
    (dst : FilterPtrs)
    (hcopy : Copier copy n possible owned good)
    (hdst : dst.blocks = List.range' heap.next m)
    (hblocks : bad.blocks = dst.blocks)
    (hbad : ¬ (possible ∧ Grants n (heap.granted m).answers) → ¬ bad.Present)
    (hnext : ∀ field, good field → dst.blocks ++ owned field = List.range' heap.next (m + n) →
      Ends src heap (m + n) n' possible' (next field (heap.granted (m + n)))) :
    Ends src heap m (n + n') (possible ∧ possible')
      (orFail copy bad next (heap.granted m)) := by
  have hattempt := hcopy (heap.granted m)
  have hrun : orFail copy bad next (heap.granted m) =
      match copy (heap.granted m) with
      | (none, heap') => fail bad heap'
      | (some field, heap') => next field heap' := by
    simp only [orFail, Bind.bind, StateT.bind]
    rcases copy (heap.granted m) with ⟨_ | field, heap'⟩ <;> rfl
  rw [hrun]
  generalize copy (heap.granted m) = result at hattempt
  cases hattempt with
  | copied field hpossible hgrants howned hgood =>
      have hend := hnext field hgood (by rw [hdst, howned, List.range'_append_1])
      have hheap : heap.granted (m + n) = (heap.granted m).granted n := by
        simp only [Heap.granted, List.drop_drop, Nat.add_assoc]
      rw [hheap] at hend
      change Ends src heap m (n + n') _ (next field ((heap.granted m).granted n))
      generalize next field ((heap.granted m).granted n) = result at hend
      cases hend with
      | copied dst' hpossible' hgrants' hpresent hfields =>
          rw [Nat.add_assoc]
          refine Ends.copied dst' ⟨hpossible, hpossible'⟩ ?_ hpresent hfields
          rw [hheap] at hgrants'
          exact grants_add.mpr ⟨hgrants, hgrants'⟩
      | undone bad' k answers freed hnot hbad' hfreed =>
          refine Ends.undone bad' k answers freed (fun h => hnot ⟨h.1.2, ?_⟩) hbad' hfreed
          rw [hheap]
          exact (grants_add.mp h.2).2
  | undone k answers freed hnot hfreed =>
      obtain ⟨freed', hperm, hfree⟩ := nostrFilterFree_run bad
        { heap.granted m with
          answers := answers
          next := heap.next + m + k
          freed := heap.freed ++ freed }
      suffices hundone : Ends src heap m (n + n') (possible ∧ possible')
          ((false, {}), { heap with
            answers := answers
            next := heap.next + (m + k)
            freed := heap.freed ++ (freed ++ freed')
            history := heap.history ++ [.nostrFilterFree bad] }) by
        simp only [fail, Bind.bind, StateT.bind, hfree, Pure.pure, StateT.pure]
        simpa only [Nat.add_assoc, List.append_assoc] using hundone
      refine Ends.undone bad (m + k) answers (freed ++ freed') ?_ (hbad hnot) ?_
      · exact fun h => hnot ⟨h.1.1, (grants_add.mp h.2).1⟩
      · rw [hblocks, hdst] at hperm
        rw [← List.range'_append_1]
        exact List.perm_append_comm.trans (hperm.append hfreed)

/-- What cannot be copied is not empty. -/
theorem CountedArray.count_ne_zero
    {α : Type}
    {src : CountedArray α}
    {each : α → Nat}
    {possible : α → Prop}
    {answers : List Bool}
    (hnot : ¬ ((src.Present ∧ ∀ a ∈ src.items, possible a) ∧
      Grants (src.allocations each) answers)) :
    src.count ≠ 0 := by
  intro hcount
  apply hnot
  cases src with
  | null count => exact ⟨⟨hcount, List.forall_mem_nil _⟩, grants_zero _⟩
  | array block items =>
      obtain rfl : items = [] := List.length_eq_zero_iff.mp hcount
      exact ⟨⟨trivial, List.forall_mem_nil _⟩, grants_zero _⟩

/-- Copied strings have the texts of the strings. -/
theorem CopyOf.texts
    {src dst : CountedArray CharPtr}
    (h : CopyOf (fun s copy => copy.text = s.text) src dst) :
    dst.items.map (·.text) = src.items.map (·.text) := by
  rw [← List.forall₂_eq_eq_eq, List.forall₂_map_left_iff, List.forall₂_map_right_iff]
  exact (List.Forall₂.flip h.items).imp fun _ _ hsame => hsame

/-- Copied integers are the integers. -/
theorem CopyOf.ints
    {src dst : CountedArray Int32}
    (h : CopyOf (fun i copy => copy = i) src dst) :
    dst.items = src.items := by
  rw [← List.forall₂_eq_eq_eq]
  exact (List.Forall₂.flip h.items).imp fun _ _ hsame => hsame

/-- Copied tags say what the tags say. -/
theorem CopyOf.tags
    {src dst : CountedArray GenericTagPtrs}
    (h : CopyOf SameTag src dst) :
    dst.items.map GenericTagPtrs.tag = src.items.map GenericTagPtrs.tag := by
  rw [← List.forall₂_eq_eq_eq, List.forall₂_map_left_iff, List.forall₂_map_right_iff]
  refine (List.Forall₂.flip h.items).imp fun copy tag hsame => ?_
  rw [GenericTagPtrs.tag, GenericTagPtrs.tag, hsame.tagName, hsame.values.texts]

/-- The values of copied tags are there. -/
theorem CopyOf.values
    {src dst : CountedArray GenericTagPtrs}
    (h : CopyOf SameTag src dst) :
    ∀ tag ∈ dst.items, tag.values.Present := by
  have hitems := h.items
  generalize src.items = tags at hitems
  generalize dst.items = copies at hitems ⊢
  induction hitems with
  | nil => exact List.forall_mem_nil _
  | cons hhead _ ih => exact List.forall_mem_cons.mpr ⟨hhead.values.present, ih⟩

/-- `filter_copy` copies the filter, or frees one with a missing array. -/
theorem filterCopy_ends
    (src : FilterPtrs)
    (heap : Heap FilterEvent) :
    Ends src heap 0 src.allocations src.Present (filterCopy src heap) := by
  have hends : Ends src heap 0 (src.allocations + 0)
      ((src.ids.Present ∧ ∀ s ∈ src.ids.items, True) ∧
        (src.authors.Present ∧ ∀ s ∈ src.authors.items, True) ∧
        (src.kinds.Present ∧ ∀ i ∈ src.kinds.items, True) ∧
        (src.eTags.Present ∧ ∀ s ∈ src.eTags.items, True) ∧
        (src.pTags.Present ∧ ∀ s ∈ src.pTags.items, True) ∧
        (src.genericTags.Present ∧ ∀ tag ∈ src.genericTags.items,
          tag.values.Present ∧ ∀ s ∈ tag.values.items, True) ∧ True)
      (filterCopy src (heap.granted 0)) := by
    unfold filterCopy FilterPtrs.allocations
    simp only [Nat.add_assoc]
    refine Ends.field {} (copyStringArray_copier src.ids) rfl rfl
      (fun hnot h => CountedArray.count_ne_zero hnot h.ids) fun ids hids hblocks => ?_
    refine Ends.field { ids := ids } (copyStringArray_copier src.authors)
      (by simpa [FilterPtrs.blocks] using hblocks) rfl
      (fun hnot h => CountedArray.count_ne_zero hnot h.authors) fun authors hauthors hblocks => ?_
    refine Ends.field { ids := ids, authors := authors } (copyIntArray_copier src.kinds)
      (by simpa [FilterPtrs.blocks] using hblocks) rfl
      (fun hnot h => CountedArray.count_ne_zero hnot h.kinds) fun kinds hkinds hblocks => ?_
    refine Ends.field { ids := ids, authors := authors, kinds := kinds }
      (copyStringArray_copier src.eTags)
      (by simpa [FilterPtrs.blocks] using hblocks) rfl
      (fun hnot h => CountedArray.count_ne_zero hnot h.eTags) fun eTags heTags hblocks => ?_
    refine Ends.field { ids := ids, authors := authors, kinds := kinds, eTags := eTags }
      (copyStringArray_copier src.pTags)
      (by simpa [FilterPtrs.blocks] using hblocks) rfl
      (fun hnot h => CountedArray.count_ne_zero hnot h.pTags) fun pTags hpTags hblocks => ?_
    refine Ends.field
      { ids := ids, authors := authors, kinds := kinds, eTags := eTags, pTags := pTags }
      (copyGenericTags_copier src.genericTags)
      (by simpa [FilterPtrs.blocks] using hblocks) rfl
      (fun hnot h => CountedArray.count_ne_zero hnot h.genericTags) fun genericTags hgeneric _ => ?_
    refine Ends.copied (n := 0) _ trivial (grants_zero _) ?_ ?_
    · exact
        { ids := hids.present
          authors := hauthors.present
          kinds := hkinds.present
          eTags := heTags.present
          pTags := hpTags.present
          genericTags := hgeneric.present
          values := hgeneric.values }
    · simp only [FilterPtrs.fields, hids.texts, hauthors.texts, hkinds.ints, heTags.texts,
        hpTags.texts, hgeneric.tags]
  rw [Nat.add_zero] at hends
  refine hends.congr ?_
  constructor
  · rintro ⟨⟨hids, _⟩, ⟨hauthors, _⟩, ⟨hkinds, _⟩, ⟨heTags, _⟩, ⟨hpTags, _⟩, ⟨htags, hvalues⟩, _⟩
    exact ⟨hids, hauthors, hkinds, heTags, hpTags, htags, fun tag htag => (hvalues tag htag).1⟩
  · intro h
    simp only [h.ids, h.authors, h.kinds, h.eTags, h.pTags, h.genericTags, true_and, and_true,
      imp_true_iff]
    exact h.values

/-! ## The copies of the subscription manager -/

section Agrees

open Subscriptions (Malloc)

variable {α β : Type}

/-- The routine needs `n` allocations and returns `a`. -/
def Takes
    (routine : Malloc α)
    (n : Nat)
    (a : α) : Prop :=
  ∀ answers, routine answers = if Grants n answers then some (a, answers.drop n) else none

namespace Takes

theorem pure
    (a : α) :
    Takes (pure a) 0 a := by
  intro answers
  rw [if_pos (grants_zero answers)]
  rfl

theorem malloc :
    Takes Subscriptions.malloc 1 () := by
  intro answers
  match answers with
  | [] => rfl
  | true :: rest => rfl
  | false :: rest => rfl

theorem bind
    {first : Malloc α}
    {next : α → Malloc β}
    {m n k : Nat}
    {a : α}
    {b : β}
    (hfirst : Takes first m a)
    (hnext : Takes (next a) n b)
    (hcount : m + n = k) :
    Takes (first >>= next) k b := by
  intro answers
  subst hcount
  simp only [Bind.bind, StateT.bind, hfirst answers, grants_add]
  by_cases hm : Grants m answers
  · simp only [hm, if_true, true_and, Option.bind_some, hnext (answers.drop m), List.drop_drop]
  · simp only [hm, if_false, false_and, Option.bind_none]

theorem mapM
    {copy : β → Malloc β}
    {f : α → β}
    {count : α → Nat}
    (hcopy : ∀ a, Takes (copy (f a)) (count a) (f a))
    (as : List α) :
    Takes ((as.map f).mapM copy) (as.map count).sum (as.map f) := by
  induction as with
  | nil => exact Takes.pure []
  | cons a as ih =>
      rw [List.map_cons, List.mapM_cons, List.map_cons, List.sum_cons]
      exact (hcopy a).bind (ih.bind (Takes.pure (f a :: as.map f)) rfl) rfl

end Takes

theorem strdup_takes
    (s : CharPtr) :
    Takes (Subscriptions.strdup s.text) 1 s.text :=
  Takes.malloc.bind (Takes.pure s.text) rfl

theorem copyStringArray_takes
    (src : CountedArray CharPtr) :
    Takes (Subscriptions.copyStringArray (src.items.map (·.text)))
      (src.allocations fun _ => 1) (src.items.map (·.text)) := by
  unfold CountedArray.allocations
  cases src.items with
  | nil => exact Takes.pure []
  | cons s rest => exact Takes.malloc.bind (Takes.mapM strdup_takes (s :: rest)) rfl

theorem copyIntArray_takes
    (src : CountedArray Int32) :
    Takes (Subscriptions.copyIntArray src.items) (src.allocations fun _ => 0) src.items := by
  unfold CountedArray.allocations
  cases src.items with
  | nil => exact Takes.pure []
  | cons i rest => exact Takes.malloc.bind (Takes.pure (i :: rest)) (by simp)

theorem copyGenericTag_takes
    (src : GenericTagPtrs) :
    Takes (Subscriptions.copyGenericTag src.tag) (src.values.allocations fun _ => 1) src.tag :=
  (copyStringArray_takes src.values).bind (Takes.pure src.tag) rfl

theorem copyGenericTags_takes
    (src : CountedArray GenericTagPtrs) :
    Takes (Subscriptions.copyGenericTags (src.items.map GenericTagPtrs.tag))
      (src.allocations fun tag => tag.values.allocations fun _ => 1)
      (src.items.map GenericTagPtrs.tag) := by
  unfold CountedArray.allocations
  cases src.items with
  | nil => exact Takes.pure []
  | cons tag rest => exact Takes.malloc.bind (Takes.mapM copyGenericTag_takes (tag :: rest)) rfl

/-- The manager's own `filter_copy` makes the same allocations. -/
theorem filterCopy_takes
    (src : FilterPtrs) :
    Takes (Subscriptions.filterCopy src.fields) src.allocations src.fields := by
  refine (copyStringArray_takes src.ids).bind ?_ rfl
  refine (copyStringArray_takes src.authors).bind ?_ rfl
  refine (copyIntArray_takes src.kinds).bind ?_ rfl
  refine (copyStringArray_takes src.eTags).bind ?_ rfl
  refine (copyStringArray_takes src.pTags).bind ?_ rfl
  exact (copyGenericTags_takes src.genericTags).bind (Takes.pure src.fields) rfl

/-- A copy of a whole filter succeeds here when it succeeds there, with the same fields. -/
theorem filterCopy_agrees
    (src : FilterPtrs)
    (hsrc : src.Present)
    (heap : Heap FilterEvent) :
    let r := filterCopy src heap
    Subscriptions.filterCopy src.fields heap.answers =
      if r.1.1 then some (r.1.2.fields, r.2.answers) else none := by
  have hends := filterCopy_ends src heap
  have htakes := filterCopy_takes src heap.answers
  generalize filterCopy src heap = result at hends
  cases hends with
  | copied dst hpossible hgrants hpresent hfields =>
      rw [htakes.trans (if_pos hgrants), Nat.zero_add]
      dsimp only
      rw [hfields]
      rfl
  | undone bad k answers freed hnot hbad hfreed =>
      exact htakes.trans (if_neg fun hgrants => hnot ⟨hsrc, hgrants⟩)

end Agrees

/-! ## The filters of a slot -/

/-- `filter_copy`, with the call put on record. -/
def recordedCopy
    (src : FilterPtrs) : HeapM FilterEvent (Bool × FilterPtrs) := fun heap =>
  let r := filterCopy src heap
  let call : CopyCall :=
    { src := src
      ok := r.1.1
      dst := r.1.2
      allocated := List.range' heap.next (r.2.next - heap.next)
      freed := r.2.freed.drop heap.freed.length }
  (r.1, { r.2 with history := r.2.history ++ [.filterCopy call] })

/-- `for (...) nostr_filter_free(...)`. -/
def freeAll
    (filters : List FilterPtrs) : HeapM FilterEvent Unit :=
  filters.forM fun filter => do
    let _ ← nostrFilterFree filter
    return ()

/-- The loop of `copy_filters_to_slot`, after the filters already copied. -/
def copyFiltersFrom
    (copied : List FilterPtrs) : List FilterPtrs → HeapM FilterEvent (Bool × List FilterPtrs)
  | [] => return (true, copied)
  | src :: rest => do
      let (ok, dst) ← recordedCopy src
      if ok then
        copyFiltersFrom (copied ++ [dst]) rest
      else do
        freeAll copied
        return (false, [])

/--
`copy_filters_to_slot`.  The filters of a slot are those below its `filter_count`, which is zero
whenever this is called.
-/
def copyFiltersToSlot
    (filters : List FilterPtrs) : HeapM FilterEvent (Bool × List FilterPtrs) :=
  copyFiltersFrom [] filters

/-- `free_filters`. -/
def freeFilters
    (slot : List FilterPtrs) : HeapM FilterEvent (List FilterPtrs) := do
  freeAll slot
  return []

/-- What the manager does to the filters of a slot. -/
inductive SlotOp where
  /-- `sub_manager_add` chose this slot. -/
  | add (answers : List Bool) (filters : List FilterPtrs)
  /-- `clear_subscription`. -/
  | clear

/-- Run one operation on a slot. -/
def slotOp
    (state : List FilterPtrs × Heap FilterEvent) :
    SlotOp → Bool × List FilterPtrs × Heap FilterEvent
  | .add answers filters =>
      let (_, heap) := freeFilters state.1 state.2
      let ((ok, slot), heap) :=
        copyFiltersToSlot (filters.take Subscriptions.subMaxFilters)
          { heap with answers := answers }
      (ok, slot, heap)
  | .clear => (true, freeFilters state.1 state.2)

/-- A slot as `memset` leaves it, before anything is allocated. -/
def unusedSlot : List FilterPtrs × Heap FilterEvent :=
  ([], { answers := [], next := 0, freed := [], history := [] })

/-- The calls of a run of operations. -/
def historyOf
    (ops : List SlotOp) : List FilterEvent :=
  (finalState slotOp unusedSlot ops).2.history

/-! ## Copies that are complete or undone -/

/-- The copy equals the source, field by field. -/
structure SameFilter (dst src : FilterPtrs) : Prop where
  source : src.Present
  copy : dst.Present
  fields : dst.fields = src.fields

/-- The copy is complete, or every block it allocated is released, each once. -/
def CopyCall.CompleteOrUndone
    (call : CopyCall) : Prop :=
  (call.ok = true ∧ SameFilter call.dst call.src) ∨
    (call.ok = false ∧ call.freed.Perm call.allocated)

/-- The calls were as they should be. -/
structure Clean (history : List FilterEvent) : Prop where
  copies : ∀ call, .filterCopy call ∈ history → call.CompleteOrUndone
  frees : ∀ filter, .nostrFilterFree filter ∈ history → filter.Present

/-- The arrays of the filters are there, and the allocations that their copies need succeed. -/
def SlotOp.Copyable : SlotOp → Prop
  | .add answers filters =>
      (∀ filter ∈ filters.take Subscriptions.subMaxFilters, filter.Present) ∧
        Grants ((filters.take Subscriptions.subMaxFilters).map (·.allocations)).sum answers
  | .clear => True

/--
The history goes on from one to the other, no copy being left half done; the filters freed on the
way were whole exactly when this was possible.
-/
def Goes
    (history history' : List FilterEvent)
    (possible : Prop) : Prop :=
  ∃ events, history' = history ++ events ∧
    (∀ call, .filterCopy call ∈ events → call.CompleteOrUndone) ∧
    ((∀ filter, .nostrFilterFree filter ∈ events → filter.Present) ↔ possible)

namespace Goes

variable
  {history history' history'' : List FilterEvent}
  {possible possible' : Prop}

theorem refl
    (history : List FilterEvent) :
    Goes history history True :=
  ⟨[], (List.append_nil history).symm, by simp, by simp⟩

theorem trans
    (h : Goes history history' possible)
    (h' : Goes history' history'' possible') :
    Goes history history'' (possible ∧ possible') := by
  obtain ⟨events, rfl, hcopies, hfrees⟩ := h
  obtain ⟨events', rfl, hcopies', hfrees'⟩ := h'
  refine ⟨events ++ events', List.append_assoc _ _ _, ?_, ?_⟩
  · intro call hcall
    exact (List.mem_append.mp hcall).elim (hcopies call) (hcopies' call)
  · simp only [List.mem_append, or_imp, forall_and, hfrees, hfrees']

theorem congr
    (h : Goes history history' possible)
    (hiff : possible ↔ possible') :
    Goes history history' possible' := by
  rwa [← propext hiff]

/-- A filter is freed. -/
theorem free
    (history : List FilterEvent)
    (filter : FilterPtrs) :
    Goes history (history ++ [.nostrFilterFree filter]) filter.Present :=
  ⟨[.nostrFilterFree filter], rfl, by simp, by simp⟩

/-- A copy is put on record. -/
theorem copy
    (history : List FilterEvent)
    {call : CopyCall}
    (hcall : call.CompleteOrUndone) :
    Goes history (history ++ [.filterCopy call]) True := by
  refine ⟨[.filterCopy call], rfl, ?_, by simp⟩
  rintro call' hcall'
  cases List.mem_singleton.mp hcall'
  exact hcall

end Goes

/-- What a recorded copy does. -/
theorem recordedCopy_goes
    (src : FilterPtrs)
    (heap : Heap FilterEvent) :
    let r := recordedCopy src heap
    let possible := src.Present ∧ Grants src.allocations heap.answers
    Goes heap.history r.2.history possible ∧
      ((r.1.1 = true ∧ possible ∧ r.1.2.Present ∧
          r.2.answers = heap.answers.drop src.allocations) ∨
        (r.1.1 = false ∧ ¬ possible)) := by
  have hends := filterCopy_ends src heap
  unfold recordedCopy
  generalize filterCopy src heap = result at hends
  cases hends with
  | copied dst hpossible hgrants hpresent hfields =>
      rw [Nat.zero_add]
      have hcan : src.Present ∧ Grants src.allocations heap.answers := ⟨hpossible, hgrants⟩
      refine ⟨?_, Or.inl ⟨rfl, hcan, hpresent, rfl⟩⟩
      refine (Goes.copy heap.history ?_).congr (iff_of_true trivial hcan)
      exact Or.inl ⟨rfl, ⟨hpossible, hpresent, hfields⟩⟩
  | undone bad k answers freed hnot hbad hfreed =>
      refine ⟨?_, Or.inr ⟨rfl, hnot⟩⟩
      refine ((Goes.free heap.history bad).trans (Goes.copy _ (Or.inr ⟨rfl, ?_⟩))).congr
        (iff_of_false (fun h => hbad h.1) hnot)
      simpa using hfreed

/-- Freeing whole filters. -/
theorem freeAll_goes
    (filters : List FilterPtrs) :
    ∀ heap : Heap FilterEvent, (∀ filter ∈ filters, filter.Present) →
      Goes heap.history (freeAll filters heap).2.history True := by
  induction filters with
  | nil => exact fun heap _ => Goes.refl _
  | cons filter filters ih =>
      intro heap hpresent
      obtain ⟨freed, -, hrun⟩ := nostrFilterFree_run filter heap
      rw [List.forall_mem_cons] at hpresent
      have hrest := ih
        { heap with
          freed := heap.freed ++ freed
          history := heap.history ++ [.nostrFilterFree filter] } hpresent.2
      have hall : freeAll (filter :: filters) heap =
          freeAll filters (nostrFilterFree filter heap).2 := rfl
      rw [hall, hrun]
      exact ((Goes.free _ filter).trans hrest).congr (by simp [hpresent.1])

/-- The loop of `copy_filters_to_slot` leaves whole filters in the slot. -/
theorem copyFiltersFrom_goes
    (rest : List FilterPtrs) :
    ∀ (copied : List FilterPtrs) (heap : Heap FilterEvent),
      (∀ filter ∈ copied, filter.Present) →
      let r := copyFiltersFrom copied rest heap
      Goes heap.history r.2.history
          ((∀ filter ∈ rest, filter.Present) ∧
            Grants (rest.map (·.allocations)).sum heap.answers) ∧
        ∀ filter ∈ r.1.2, filter.Present := by
  induction rest with
  | nil =>
      intro copied heap hcopied
      refine ⟨(Goes.refl _).congr ?_, hcopied⟩
      exact iff_of_true trivial ⟨List.forall_mem_nil _, grants_zero _⟩
  | cons src rest ih =>
      intro copied heap hcopied
      have hcopy := recordedCopy_goes src heap
      have hrun : copyFiltersFrom copied (src :: rest) heap =
          match recordedCopy src heap with
          | ((ok, dst), heap') =>
              if ok then
                copyFiltersFrom (copied ++ [dst]) rest heap'
              else
                ((false, []), (freeAll copied heap').2) := by
        simp only [copyFiltersFrom, Bind.bind, StateT.bind]
        rcases recordedCopy src heap with ⟨⟨_ | _, dst⟩, heap'⟩ <;> rfl
      rw [hrun]
      generalize recordedCopy src heap = result at hcopy
      obtain ⟨⟨ok, dst⟩, heap'⟩ := result
      obtain ⟨hgoes, ⟨rfl, hcan, hpresent, hanswers⟩ | ⟨rfl, hcannot⟩⟩ := hcopy
      · obtain ⟨hrest, hslot⟩ := ih (copied ++ [dst]) heap'
          (List.forall_mem_append.mpr ⟨hcopied, by simpa using hpresent⟩)
        refine ⟨(hgoes.trans hrest).congr ?_, hslot⟩
        rw [hanswers, List.map_cons, List.sum_cons, grants_add, List.forall_mem_cons]
        tauto
      · refine ⟨(hgoes.trans (freeAll_goes copied heap' hcopied)).congr ?_, List.forall_mem_nil _⟩
        rw [List.map_cons, List.sum_cons, grants_add, List.forall_mem_cons]
        tauto

/-- What one operation on a slot of whole filters does. -/
theorem slotOp_goes
    (slot : List FilterPtrs)
    (heap : Heap FilterEvent)
    (hslot : ∀ filter ∈ slot, filter.Present)
    (op : SlotOp) :
    let r := slotOp (slot, heap) op
    Goes heap.history r.2.2.history op.Copyable ∧ ∀ filter ∈ r.2.1, filter.Present := by
  have hfree := freeAll_goes slot heap hslot
  cases op with
  | add answers filters =>
      obtain ⟨hcopy, hcopied⟩ :=
        copyFiltersFrom_goes (filters.take Subscriptions.subMaxFilters) []
          { (freeAll slot heap).2 with answers := answers } (List.forall_mem_nil _)
      exact ⟨(hfree.trans hcopy).congr (by rw [true_and]; rfl), hcopied⟩
  | clear => exact ⟨hfree, List.forall_mem_nil _⟩

/-- What a run of operations does. -/
theorem run_goes
    (ops : List SlotOp) :
    Goes [] (historyOf ops) (∀ op ∈ ops, op.Copyable) ∧
      ∀ filter ∈ (finalState slotOp unusedSlot ops).1, filter.Present := by
  induction ops using List.reverseRecOn with
  | nil =>
      refine ⟨(Goes.refl _).congr ?_, List.forall_mem_nil _⟩
      exact iff_of_true trivial (List.forall_mem_nil _)
  | append_singleton ops op ih =>
      obtain ⟨hgoes, hslot⟩ := ih
      obtain ⟨hop, hslot'⟩ := slotOp_goes _ (finalState slotOp unusedSlot ops).2 hslot op
      rw [historyOf, finalState_snoc]
      refine ⟨(hgoes.trans hop).congr ?_, hslot'⟩
      rw [List.forall_mem_append, List.forall_mem_singleton]

/--
**Filter copies are complete or cleanly undone, and only whole filters are freed, exactly when
every copy succeeds.**  For every run of operations on a slot, all source filters and all answers
of the allocator: `filter_copy` sets a count before it has the array, so any failure hands
`nostr_filter_free` a positive count over a missing array.
-/
theorem filter_copies_clean_iff
    (ops : List SlotOp) :
    Clean (historyOf ops) ↔ ∀ op ∈ ops, op.Copyable := by
  obtain ⟨⟨events, hevents, hcopies, hfrees⟩, -⟩ := run_goes ops
  rw [List.nil_append] at hevents
  rw [hevents, ← hfrees]
  constructor
  · exact fun h => h.frees
  · exact fun h => { copies := hcopies, frees := h }

/-- A filter with one id. -/
def oneIdFilter : FilterPtrs :=
  { ids := .array 0 [{ block := 1, text := [48] }] }

/-- When there is no memory for the array of the ids, the copy is freed with a count of one. -/
theorem filter_freed_without_ids :
    ¬ Clean (historyOf [.add [false] [oneIdFilter]]) := by
  intro h
  have hwhole := h.frees { ids := .null 1 } (List.mem_cons_self ..)
  exact Nat.one_ne_zero hwhole.ids

end FilterMemory
end WispRelay
