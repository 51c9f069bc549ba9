import WispRelay.Library.SlotTable
import WispRelay.Nostr.Libnostr

/-!
# The subscription manager

The operations of `sub_manager.c` over its table of `SUB_MAX_TOTAL` slots.  Taking and giving
the mutex around each operation makes an operation one step.

An array with its count is a list, so a slot holds the list of its first `filter_count`
filters.  Copying filters is a sequence of allocations that is given up at the first one
refused (`Malloc`).

`SubCall` lists the operations; `subCall` runs one of them.
-/

namespace WispRelay
namespace Subscriptions

/-- `SUB_MAX_TOTAL`. -/
def subMaxTotal : Nat := 64

/-- `SUB_MAX_PER_CONN`. -/
def subMaxPerConn : UInt8 := 8

/-- `SUB_MAX_FILTERS`. -/
def subMaxFilters : Nat := 4

/-- `SUB_MAX_ID_LEN`. -/
def subMaxIdLen : Nat := 64

/-- `subscription_t`. -/
structure Subscription where
  subId : CString
  connFd : Int32
  filters : List NostrFilter
  eventsSent : UInt16
  active : Bool
deriving DecidableEq

/-- A slot as `memset` leaves it. -/
def Subscription.zero : Subscription where
  subId := []
  connFd := 0
  filters := []
  eventsSent := 0
  active := false

/-- `sub_manager_t`. -/
structure SubManager where
  subs : Vector Subscription subMaxTotal
  activeCount : UInt16
deriving DecidableEq

/-! ## Copying filters -/

/--
A routine that allocates and gives up at the first refusal.  The state holds the answers to
its next allocations; those after the last answer are granted.
-/
abbrev Malloc := StateT (List Bool) Option

/-- `malloc`, `calloc` and the allocation of `strdup`. -/
def malloc : Malloc Unit
  | [] => some ((), [])
  | true :: rest => some ((), rest)
  | false :: _ => none

/-- `strdup`. -/
def strdup
    (s : CString) : Malloc CString := do
  malloc
  return s

/-- `copy_string_array`. -/
def copyStringArray
    (src : List CString) : Malloc (List CString) :=
  if src.isEmpty then
    return []
  else do
    malloc
    src.mapM strdup

/-- `copy_int_array`. -/
def copyIntArray
    (src : List Int32) : Malloc (List Int32) :=
  if src.isEmpty then
    return []
  else do
    malloc
    return src

/-- The body of the loop of `copy_generic_tags`. -/
def copyGenericTag
    (src : NostrGenericTagFilter) : Malloc NostrGenericTagFilter := do
  let values ← copyStringArray src.values
  return { tagName := src.tagName, values := values }

/-- `copy_generic_tags`. -/
def copyGenericTags
    (src : List NostrGenericTagFilter) : Malloc (List NostrGenericTagFilter) :=
  if src.isEmpty then
    return []
  else do
    malloc
    src.mapM copyGenericTag

/-- `filter_copy`. -/
def filterCopy
    (src : NostrFilter) : Malloc NostrFilter := do
  let ids ← copyStringArray src.ids
  let authors ← copyStringArray src.authors
  let kinds ← copyIntArray src.kinds
  let eTags ← copyStringArray src.eTags
  let pTags ← copyStringArray src.pTags
  let genericTags ← copyGenericTags src.genericTags
  return {
    ids := ids
    authors := authors
    kinds := kinds
    eTags := eTags
    pTags := pTags
    genericTags := genericTags
    since := src.since
    until_ := src.until_
    limit := src.limit }

/-- `copy_filters_to_slot`. -/
def copyFiltersToSlot
    (slot : Subscription)
    (filters : List NostrFilter) : Malloc Subscription := do
  let copies ← filters.mapM filterCopy
  return { slot with filters := copies }

/-! ## The operations -/

/-- `free_filters`. -/
def freeFilters
    (sub : Subscription) : Subscription :=
  { sub with filters := [] }

/-- `clear_subscription`. -/
def clearSubscription
    (_sub : Subscription) : Subscription :=
  Subscription.zero

/-- `sub_manager_init`, when the mutex could be created. -/
def subManagerInit : SubManager where
  subs := Vector.replicate subMaxTotal Subscription.zero
  activeCount := 0

/-- The slot is in use by the connection. -/
def Subscription.ofConn
    (connFd : Int32)
    (sub : Subscription) : Bool :=
  sub.active && sub.connFd == connFd

/-- The slot with a number. -/
def SubManager.slot
    (mgr : SubManager)
    (i : Fin subMaxTotal) : Subscription :=
  mgr.subs[i]

/-- `sub_manager_find`. -/
def subManagerFind
    (mgr : SubManager)
    (connFd : Int32)
    (subId : CString) : Option (Fin subMaxTotal) :=
  SlotTable.findSlot? mgr.subs (fun sub => sub.ofConn connFd && sub.subId == subId)

/-- `find_free_slot`. -/
def findFreeSlot
    (mgr : SubManager) : Option (Fin subMaxTotal) :=
  SlotTable.findSlot? mgr.subs (fun sub => !sub.active)

/-- `sub_manager_count`; `sub_manager_add` counts in the same way. -/
def subManagerCount
    (mgr : SubManager)
    (connFd : Int32) : UInt8 :=
  UInt8.ofNat (mgr.subs.countP (Subscription.ofConn connFd))

/-- `sub_manager_add`, with the answers to its allocations. -/
def subManagerAdd
    (answers : List Bool)
    (mgr : SubManager)
    (connFd : Int32)
    (subId : CString)
    (filters : List NostrFilter) : NostrRelayError × SubManager :=
  let filters := filters.take subMaxFilters
  match subManagerFind mgr connFd subId with
  | some i =>
      let existing := { freeFilters mgr.subs[i] with eventsSent := 0 }
      match copyFiltersToSlot existing filters answers with
      | none => (.errMemory, { mgr with subs := mgr.subs.set i existing })
      | some (slot, _) => (.ok, { mgr with subs := mgr.subs.set i slot })
  | none =>
      if subMaxPerConn ≤ subManagerCount mgr connFd then (.errTooManyFilters, mgr)
      else
        match findFreeSlot mgr with
        | none => (.errMemory, mgr)
        | some i =>
            -- `strncpy` stops after `SUB_MAX_ID_LEN` bytes
            let slot :=
              { Subscription.zero with subId := subId.take subMaxIdLen, connFd := connFd }
            match copyFiltersToSlot slot filters answers with
            | none =>
                (.errMemory, { mgr with subs := mgr.subs.set i (clearSubscription slot) })
            | some (slot, _) =>
                (.ok,
                  { subs := mgr.subs.set i { slot with active := true }
                    activeCount := mgr.activeCount + 1 })

/-- `sub_manager_remove`. -/
def subManagerRemove
    (mgr : SubManager)
    (connFd : Int32)
    (subId : CString) : NostrRelayError × SubManager :=
  match subManagerFind mgr connFd subId with
  | none => (.errInvalidSubscriptionId, mgr)
  | some i =>
      (.ok,
        { subs := mgr.subs.set i (clearSubscription mgr.subs[i])
          activeCount := mgr.activeCount - 1 })

/-- `sub_manager_remove_all`: the counter goes down once for every slot cleared. -/
def subManagerRemoveAll
    (mgr : SubManager)
    (connFd : Int32) : SubManager where
  subs := mgr.subs.map (fun sub => if sub.ofConn connFd then clearSubscription sub else sub)
  activeCount :=
    mgr.activeCount - UInt16.ofNat (mgr.subs.countP (Subscription.ofConn connFd))

/-- A connection and a subscription id, as in `sub_match_entry_t`. -/
abbrev SubKey := Int32 × CString

/-- `sub_manager_match`: the first `count` entries of the result. -/
def subManagerMatch
    (lib : Libnostr)
    (mgr : SubManager)
    (event : NostrEvent) : List SubKey :=
  mgr.subs.toList.filterMap (fun sub =>
    if sub.active && lib.filtersMatch sub.filters event then
      some (sub.connFd, sub.subId)
    else
      none)

/-- A call of one of the operations. -/
inductive SubCall where
  | add (answers : List Bool) (connFd : Int32) (subId : CString) (filters : List NostrFilter)
  | remove (connFd : Int32) (subId : CString)
  | removeAll (connFd : Int32)
  | count (connFd : Int32)
  | matching (event : NostrEvent)

/-- What a call returns. -/
inductive SubResult where
  | error (result : NostrRelayError)
  | done
  | count (count : UInt8)
  | matching (found : List SubKey)
deriving DecidableEq

/-- Run one operation. -/
def subCall
    (lib : Libnostr)
    (mgr : SubManager) : SubCall → SubResult × SubManager
  | .add answers connFd subId filters =>
      let (result, mgr') := subManagerAdd answers mgr connFd subId filters
      (.error result, mgr')
  | .remove connFd subId =>
      let (result, mgr') := subManagerRemove mgr connFd subId
      (.error result, mgr')
  | .removeAll connFd => (.done, subManagerRemoveAll mgr connFd)
  | .count connFd => (.count (subManagerCount mgr connFd), mgr)
  | .matching event => (.matching (subManagerMatch lib mgr event), mgr)

/-! ## Copies -/

/-- Every answer is a success. -/
def Granted
    (answers : List Bool) : Prop :=
  ∀ answer ∈ answers, answer = true

instance (answers : List Bool) : Decidable (Granted answers) :=
  inferInstanceAs (Decidable (∀ answer ∈ answers, answer = true))

/-- The routine can only return `a`, and does so when every allocation succeeds. -/
structure Yields {α : Type} (routine : Malloc α) (a : α) : Prop where
  result : ∀ answers r, routine answers = some r → r.1 = a
  total : ∀ answers, Granted answers → ∃ rest, routine answers = some (a, rest) ∧ Granted rest

namespace Yields

variable {α β : Type}

theorem pure (a : α) : Yields (pure a : Malloc α) a where
  result := by
    intro answers r h
    cases h
    rfl
  total := by
    intro answers hgranted
    exact ⟨answers, rfl, hgranted⟩

theorem malloc : Yields malloc () where
  result := by
    intro answers r _
    rfl
  total := by
    intro answers hgranted
    match answers, hgranted with
    | [], _ => exact ⟨[], rfl, by simp [Granted]⟩
    | true :: rest, hgranted => exact ⟨rest, rfl, fun b hb => hgranted b (by simp [hb])⟩
    | false :: rest, hgranted => simp [Granted] at hgranted

theorem bind {routine : Malloc α} {next : α → Malloc β} {a : α} {b : β}
    (hfirst : Yields routine a) (hnext : Yields (next a) b) :
    Yields (routine >>= next) b where
  result := by
    intro answers r h
    simp only [Bind.bind, StateT.bind, Option.bind_eq_some_iff] at h
    obtain ⟨⟨a', rest⟩, hrun, hr⟩ := h
    obtain rfl := hfirst.result answers _ hrun
    exact hnext.result rest r hr
  total := by
    intro answers hgranted
    obtain ⟨rest, hrun, hrest⟩ := hfirst.total answers hgranted
    obtain ⟨rest', hrun', hrest'⟩ := hnext.total rest hrest
    refine ⟨rest', ?_, hrest'⟩
    simp only [Bind.bind, StateT.bind, hrun, Option.bind_some, hrun']

/-- Copying the elements one by one copies the list. -/
theorem mapM {copy : α → Malloc α} (hcopy : ∀ a, Yields (copy a) a) (as : List α) :
    Yields (as.mapM copy) as := by
  induction as with
  | nil => exact pure []
  | cons a rest ih =>
      rw [List.mapM_cons]
      exact bind (hcopy a) (bind ih (pure (a :: rest)))

end Yields

theorem strdup_yields (s : CString) : Yields (strdup s) s :=
  Yields.malloc.bind (Yields.pure s)

theorem copyStringArray_yields (src : List CString) : Yields (copyStringArray src) src := by
  cases src with
  | nil => exact Yields.pure []
  | cons s rest => exact Yields.malloc.bind (Yields.mapM strdup_yields (s :: rest))

theorem copyIntArray_yields (src : List Int32) : Yields (copyIntArray src) src := by
  cases src with
  | nil => exact Yields.pure []
  | cons x rest => exact Yields.malloc.bind (Yields.pure (x :: rest))

theorem copyGenericTag_yields (src : NostrGenericTagFilter) : Yields (copyGenericTag src) src :=
  (copyStringArray_yields src.values).bind (Yields.pure src)

theorem copyGenericTags_yields (src : List NostrGenericTagFilter) :
    Yields (copyGenericTags src) src := by
  cases src with
  | nil => exact Yields.pure []
  | cons t rest => exact Yields.malloc.bind (Yields.mapM copyGenericTag_yields (t :: rest))

/-- A filter that was copied is equal to its source. -/
theorem filterCopy_yields (src : NostrFilter) : Yields (filterCopy src) src :=
  (copyStringArray_yields src.ids).bind <|
  (copyStringArray_yields src.authors).bind <|
  (copyIntArray_yields src.kinds).bind <|
  (copyStringArray_yields src.eTags).bind <|
  (copyStringArray_yields src.pTags).bind <|
  (copyGenericTags_yields src.genericTags).bind <|
  Yields.pure src

theorem copyFiltersToSlot_yields (slot : Subscription) (filters : List NostrFilter) :
    Yields (copyFiltersToSlot slot filters) { slot with filters := filters } :=
  (Yields.mapM filterCopy_yields filters).bind (Yields.pure _)

end Subscriptions
end WispRelay
