import WispRelay.Library.Runs
import WispRelay.Nostr.SampleLibrary
import WispRelay.Subscriptions.SubManager

/-!
# The subscription manager refines a bounded map

What the subscription manager is for, without slots, counters or copies: a finite map from
(connection, subscription id) to the filters of the latest add, with at most
`SUB_MAX_PER_CONN` keys of one connection and `SUB_MAX_TOTAL` keys in all.

* `SubManager.contents` is the map the slots stand for; `SubInv` says that no two slots in
  use have the same key and that `active_count` counts the slots in use.
* `subManagerAdd_outcome`, `subManagerRemove_outcome` and `subManagerRemoveAll_contents` say
  what each operation does to the map, whether or not its allocations succeed.
* `MapStep` is one operation of the bounded map; `sub_manager_refines_map` is about every
  run from `sub_manager_init`.
-/

namespace WispRelay
namespace Subscriptions

open Runs
open SlotTable (entries contents UniqueKeys findSlot?_some)

/-- The bounded map. -/
abbrev SubMap := Finmap (fun _ : SubKey => List NostrFilter)

/-- The number of keys of a connection. -/
def SubMap.countOf
    (m : SubMap)
    (connFd : Int32) : Nat :=
  (m.keys.filter (fun key => key.1 = connFd)).card

/-- The key and the filters in a slot in use. -/
def Subscription.read
    (sub : Subscription) : Option (SubKey × List NostrFilter) :=
  if sub.active then some ((sub.connFd, sub.subId), sub.filters) else none

/-- The map the slots stand for. -/
def SubManager.contents
    (mgr : SubManager) : SubMap :=
  SlotTable.contents Subscription.read mgr.subs

/-- No two slots in use have the same key, and `active_count` counts the slots in use. -/
structure SubInv
    (mgr : SubManager) : Prop where
  unique : UniqueKeys Subscription.read mgr.subs
  count : mgr.activeCount.toNat = (entries Subscription.read mgr.subs).length

/-! ## Reading slots -/

namespace Subscription

variable {sub : Subscription}

theorem read_eq_some {key : SubKey} {filters : List NostrFilter} :
    sub.read = some (key, filters) ↔
      sub.active = true ∧ key = (sub.connFd, sub.subId) ∧ filters = sub.filters := by
  unfold read
  split
  · rename_i h
    simp only [h, Option.some.injEq, Prod.mk.injEq, true_and]
    constructor <;> rintro ⟨rfl, rfl⟩ <;> exact ⟨rfl, rfl⟩
  · rename_i h
    simp [h]

theorem read_eq_none :
    sub.read = none ↔ sub.active = false := by
  simp [read]

@[simp] theorem read_zero : zero.read = none := rfl

/-- The slots of a connection are those whose key is. -/
theorem ofConn_eq (connFd : Int32) (sub : Subscription) :
    sub.ofConn connFd = sub.read.any (fun e => decide (e.1.1 = connFd)) := by
  cases h : sub.active with
  | false => simp [ofConn, read, h]
  | true => simp [ofConn, read, h, beq_eq_decide]

/-- The slot of a key is the one that reads it. -/
theorem ofKey_eq (connFd : Int32) (subId : CString) (sub : Subscription) :
    (sub.ofConn connFd && sub.subId == subId) =
      sub.read.any (fun e => decide (e.1 = (connFd, subId))) := by
  cases h : sub.active with
  | false => simp [ofConn, read, h]
  | true => simp [ofConn, read, h, beq_eq_decide, Prod.mk.injEq]

/-- A slot is free when nothing is read from it. -/
theorem free_eq (sub : Subscription) :
    (!sub.active) = sub.read.isNone := by
  cases h : sub.active <;> simp [read, h]

end Subscription

section Lookup

variable {mgr : SubManager} {connFd : Int32} {subId : CString}

theorem subManagerFind_some {i : Fin subMaxTotal}
    (h : subManagerFind mgr connFd subId = some i) :
    (mgr.slot i).read = some ((connFd, subId), (mgr.slot i).filters) := by
  obtain ⟨filters, hread⟩ := SlotTable.findSlot?_key_some (Subscription.ofKey_eq connFd subId) h
  exact hread.trans (by rw [(Subscription.read_eq_some.mp hread).2.2, SubManager.slot])

/-- The slot of a key is found when the map has the key. -/
theorem subManagerFind_none :
    subManagerFind mgr connFd subId = none ↔ (connFd, subId) ∉ mgr.contents :=
  SlotTable.findSlot?_key_none (Subscription.ofKey_eq connFd subId)

/-- The loop over the slots counts the keys of the connection. -/
theorem countP_ofConn (hinv : SubInv mgr) (connFd : Int32) :
    mgr.subs.countP (Subscription.ofConn connFd) = mgr.contents.countOf connFd := by
  rw [SlotTable.countP_slots (q := fun key : SubKey => key.1 = connFd)
      (Subscription.ofConn_eq connFd),
    SubMap.countOf, SubManager.contents, SlotTable.card_filter_keys hinv.unique]

theorem subManagerCount_toNat (hinv : SubInv mgr) (connFd : Int32) :
    (subManagerCount mgr connFd).toNat = mgr.contents.countOf connFd := by
  rw [← countP_ofConn hinv, subManagerCount, UInt8.toNat_ofNat']
  have hle : mgr.subs.countP (Subscription.ofConn connFd) ≤ 64 := Vector.countP_le_size
  exact Nat.mod_eq_of_lt (by omega)

theorem card_keys (hinv : SubInv mgr) :
    mgr.contents.keys.card = mgr.activeCount.toNat := by
  rw [hinv.count]
  exact SlotTable.card_keys hinv.unique

theorem SubInv.activeCount_le (hinv : SubInv mgr) :
    mgr.activeCount.toNat ≤ 64 := by
  rw [hinv.count]
  exact SlotTable.length_entries_le mgr.subs

/-- There is a free slot unless the map has `SUB_MAX_TOTAL` keys. -/
theorem findFreeSlot_none (hinv : SubInv mgr) :
    findFreeSlot mgr = none ↔ subMaxTotal ≤ mgr.contents.keys.card := by
  have hle : (entries Subscription.read mgr.subs).length ≤ subMaxTotal :=
    SlotTable.length_entries_le mgr.subs
  rw [findFreeSlot, SlotTable.findSlot?_free_none Subscription.free_eq, card_keys hinv, hinv.count]
  exact ⟨fun h => h.ge, fun h => le_antisymm hle h⟩

end Lookup

/-! ## The operations on the map -/

/-- The copies of an add succeed. -/
def Copied
    (answers : List Bool)
    (filters : List NostrFilter) : Prop :=
  ((filters.take subMaxFilters).mapM filterCopy answers).isSome

instance (answers : List Bool) (filters : List NostrFilter) :
    Decidable (Copied answers filters) :=
  inferInstanceAs
    (Decidable (((filters.take subMaxFilters).mapM filterCopy answers).isSome = true))

/-- What an add returns, and the map it leaves. -/
inductive AddOutcome
    (m : SubMap)
    (key : SubKey)
    (filters : List NostrFilter)
    (copied : Prop) : NostrRelayError → SubMap → Prop
  | replaced :
      key ∈ m → copied →
      AddOutcome m key filters copied .ok (m.insert key filters)
  | emptied :
      key ∈ m → ¬ copied →
      AddOutcome m key filters copied .errMemory (m.insert key [])
  | tooMany :
      key ∉ m → subMaxPerConn.toNat ≤ m.countOf key.1 →
      AddOutcome m key filters copied .errTooManyFilters m
  | full :
      key ∉ m → m.countOf key.1 < subMaxPerConn.toNat → subMaxTotal ≤ m.keys.card →
      AddOutcome m key filters copied .errMemory m
  | notCopied :
      key ∉ m → m.countOf key.1 < subMaxPerConn.toNat → m.keys.card < subMaxTotal → ¬ copied →
      AddOutcome m key filters copied .errMemory m
  | added :
      key ∉ m → m.countOf key.1 < subMaxPerConn.toNat → m.keys.card < subMaxTotal → copied →
      AddOutcome m key filters copied .ok (m.insert key filters)

namespace AddOutcome

variable
  {m m' : SubMap}
  {key : SubKey}
  {filters : List NostrFilter}
  {copied : Prop}
  {result : NostrRelayError}

/-- An accepted add writes the key. -/
theorem eq_insert
    (h : AddOutcome m key filters copied result m')
    (hok : result = .ok) :
    m' = m.insert key filters := by
  cases h with
  | replaced | added => rfl
  | emptied | tooMany | full | notCopied => cases hok

/-- A refused add changes nothing and names no key of the map, unless its copies failed. -/
theorem refused
    (h : AddOutcome m key filters copied result m')
    (herror : result ≠ .ok)
    (hcopied : key ∈ m → copied) :
    m' = m ∧ key ∉ m := by
  cases h with
  | replaced | added => exact absurd rfl herror
  | emptied hkey hnot => exact absurd (hcopied hkey) hnot
  | tooMany hkey | full hkey | notCopied hkey => exact ⟨rfl, hkey⟩

end AddOutcome

section Operations

variable {mgr : SubManager} {connFd : Int32} {subId : CString}

theorem copyFiltersToSlot_none {slot : Subscription} {filters : List NostrFilter}
    {answers : List Bool} :
    copyFiltersToSlot slot (filters.take subMaxFilters) answers = none ↔
      ¬ Copied answers filters := by
  simp only [copyFiltersToSlot, Copied, Bind.bind, StateT.bind, Option.bind_eq_none_iff]
  cases h : (filters.take subMaxFilters).mapM filterCopy answers with
  | none => simp
  | some r =>
      refine iff_of_false (fun hnone => ?_) (by simp)
      exact Option.some_ne_none _ (hnone r rfl)

theorem copyFiltersToSlot_some {slot slot' : Subscription} {filters : List NostrFilter}
    {answers rest : List Bool}
    (h : copyFiltersToSlot slot (filters.take subMaxFilters) answers = some (slot', rest)) :
    Copied answers filters ∧ slot' = { slot with filters := filters.take subMaxFilters } := by
  refine ⟨?_, (copyFiltersToSlot_yields slot _).result answers _ h⟩
  by_contra hcopied
  rw [copyFiltersToSlot_none.mpr hcopied] at h
  cases h

/-- Rewriting the slot of a key. -/
theorem SubInv.replace (hinv : SubInv mgr) {i : Fin subMaxTotal} (sub : Subscription)
    (hfind : subManagerFind mgr connFd subId = some i)
    (hactive : sub.active = (mgr.slot i).active)
    (hfd : sub.connFd = (mgr.slot i).connFd)
    (hid : sub.subId = (mgr.slot i).subId) :
    SubInv { mgr with subs := mgr.subs.set i sub i.isLt } ∧
      SubManager.contents { mgr with subs := mgr.subs.set i sub i.isLt } =
        mgr.contents.insert (connFd, subId) sub.filters := by
  have hold := subManagerFind_some hfind
  have hnew : sub.read = some ((connFd, subId), sub.filters) := by
    rw [Subscription.read_eq_some] at hold ⊢
    rw [hactive, hfd, hid]
    exact ⟨hold.1, hold.2.1, rfl⟩
  obtain ⟨hunique, hcontents, hlength⟩ := hinv.unique.replace hold hnew
  exact ⟨⟨hunique, by rw [hlength]; exact hinv.count⟩, hcontents⟩

/-- Taking a free slot for a new key. -/
theorem SubInv.take (hinv : SubInv mgr) {i : Fin subMaxTotal} (sub : Subscription)
    (hold : (mgr.slot i).read = none)
    (hactive : sub.active = true)
    (hfresh : (sub.connFd, sub.subId) ∉ mgr.contents)
    (hroom : mgr.contents.keys.card < subMaxTotal) :
    SubInv { subs := mgr.subs.set i sub i.isLt, activeCount := mgr.activeCount + 1 } ∧
      SubManager.contents { subs := mgr.subs.set i sub i.isLt, activeCount := mgr.activeCount + 1 } =
        mgr.contents.insert (sub.connFd, sub.subId) sub.filters := by
  have hnew : sub.read = some ((sub.connFd, sub.subId), sub.filters) :=
    Subscription.read_eq_some.mpr ⟨hactive, rfl, rfl⟩
  obtain ⟨hunique, hcontents, hlength⟩ := hinv.unique.take hold hnew hfresh
  refine ⟨⟨hunique, ?_⟩, hcontents⟩
  rw [card_keys hinv] at hroom
  have hsmall : mgr.activeCount.toNat < 64 := hroom
  rw [hlength, ← hinv.count, UInt16.toNat_add]
  exact Nat.mod_eq_of_lt (by simp; omega)

/-- Clearing a free slot. -/
theorem SubInv.clear_free (hinv : SubInv mgr) {i : Fin subMaxTotal}
    (hold : (mgr.slot i).read = none) :
    SubInv { mgr with subs := mgr.subs.set i Subscription.zero i.isLt } ∧
      SubManager.contents { mgr with subs := mgr.subs.set i Subscription.zero i.isLt } =
        mgr.contents := by
  have hentries := SlotTable.entries_set_of_read_eq (Subscription.read_zero.trans hold.symm)
  refine ⟨⟨?_, ?_⟩, ?_⟩
  · rw [UniqueKeys, hentries]
    exact hinv.unique
  · rw [hentries]
    exact hinv.count
  · rw [SubManager.contents, SlotTable.contents, hentries]
    rfl

/-- Clearing the slot of a key. -/
theorem SubInv.release (hinv : SubInv mgr) {i : Fin subMaxTotal}
    (hfind : subManagerFind mgr connFd subId = some i) :
    SubInv
        { subs := mgr.subs.set i Subscription.zero i.isLt
          activeCount := mgr.activeCount - 1 } ∧
      SubManager.contents
          { subs := mgr.subs.set i Subscription.zero i.isLt
            activeCount := mgr.activeCount - 1 } =
        mgr.contents.erase (connFd, subId) := by
  obtain ⟨hunique, hcontents, hlength⟩ :=
    hinv.unique.release (subManagerFind_some hfind) Subscription.read_zero
  refine ⟨⟨hunique, ?_⟩, hcontents⟩
  have hcount := hinv.count
  have hpos : 1 ≤ mgr.activeCount := by
    rw [UInt16.le_iff_toNat_le]
    simp
    omega
  rw [UInt16.toNat_sub_of_le _ _ hpos]
  simp
  omega

theorem subManagerAdd_present (hinv : SubInv mgr) (answers : List Bool)
    (filters : List NostrFilter) (hkey : (connFd, subId) ∈ mgr.contents) :
    SubInv (subManagerAdd answers mgr connFd subId filters).2 ∧
      AddOutcome mgr.contents (connFd, subId) (filters.take subMaxFilters)
        (Copied answers filters)
        (subManagerAdd answers mgr connFd subId filters).1
        (subManagerAdd answers mgr connFd subId filters).2.contents := by
  cases hfind : subManagerFind mgr connFd subId with
  | none => exact absurd hkey (subManagerFind_none.mp hfind)
  | some i =>
      cases hcopy : copyFiltersToSlot { freeFilters mgr.subs[i] with eventsSent := 0 }
          (filters.take subMaxFilters) answers with
      | none =>
          simp only [subManagerAdd, hfind, hcopy]
          obtain ⟨hinv', hcontents⟩ := hinv.replace
            { freeFilters mgr.subs[i] with eventsSent := 0 } hfind rfl rfl rfl
          rw [hcontents]
          exact ⟨hinv', AddOutcome.emptied hkey (copyFiltersToSlot_none.mp hcopy)⟩
      | some r =>
          obtain ⟨slot, rest⟩ := r
          obtain ⟨hcopied, hslot⟩ := copyFiltersToSlot_some hcopy
          simp only [subManagerAdd, hfind, hcopy]
          obtain ⟨hinv', hcontents⟩ := hinv.replace slot hfind
            (by rw [hslot]; rfl) (by rw [hslot]; rfl) (by rw [hslot]; rfl)
          have hfilters : slot.filters = filters.take subMaxFilters := by rw [hslot]
          rw [hcontents, hfilters]
          exact ⟨hinv', AddOutcome.replaced hkey hcopied⟩

theorem subManagerAdd_new (hinv : SubInv mgr) (answers : List Bool)
    (filters : List NostrFilter) (hid : subId.length ≤ subMaxIdLen)
    (hkey : (connFd, subId) ∉ mgr.contents) :
    SubInv (subManagerAdd answers mgr connFd subId filters).2 ∧
      AddOutcome mgr.contents (connFd, subId) (filters.take subMaxFilters)
        (Copied answers filters)
        (subManagerAdd answers mgr connFd subId filters).1
        (subManagerAdd answers mgr connFd subId filters).2.contents := by
  have hfind := subManagerFind_none.mpr hkey
  by_cases hconn : subMaxPerConn ≤ subManagerCount mgr connFd
  · simp only [subManagerAdd, hfind, if_pos hconn]
    refine ⟨hinv, AddOutcome.tooMany hkey ?_⟩
    rw [← subManagerCount_toNat hinv]
    exact hconn
  have hroom : mgr.contents.countOf connFd < subMaxPerConn.toNat := by
    rw [← subManagerCount_toNat hinv]
    exact Nat.lt_of_not_le hconn
  cases hfree : findFreeSlot mgr with
  | none =>
      simp only [subManagerAdd, hfind, if_neg hconn, hfree]
      exact ⟨hinv, AddOutcome.full hkey hroom ((findFreeSlot_none hinv).mp hfree)⟩
  | some i =>
      have hslots : mgr.contents.keys.card < subMaxTotal := by
        by_contra h
        rw [(findFreeSlot_none hinv).mpr (by omega)] at hfree
        cases hfree
      have hold : (mgr.slot i).read = none := by
        have hinactive : (!(mgr.slot i).active) = true := findSlot?_some hfree
        exact Subscription.read_eq_none.mpr (by simpa using hinactive)
      cases hcopy : copyFiltersToSlot
          { Subscription.zero with subId := subId.take subMaxIdLen, connFd := connFd }
          (filters.take subMaxFilters) answers with
      | none =>
          simp only [subManagerAdd, hfind, if_neg hconn, hfree, hcopy, clearSubscription]
          obtain ⟨hinv', hcontents⟩ := hinv.clear_free hold
          rw [hcontents]
          exact ⟨hinv', AddOutcome.notCopied hkey hroom hslots (copyFiltersToSlot_none.mp hcopy)⟩
      | some r =>
          obtain ⟨slot, rest⟩ := r
          obtain ⟨hcopied, rfl⟩ := copyFiltersToSlot_some hcopy
          simp only [subManagerAdd, hfind, if_neg hconn, hfree, hcopy]
          rw [List.take_of_length_le hid]
          obtain ⟨hinv', hcontents⟩ := hinv.take
            { subId := subId
              connFd := connFd
              filters := filters.take subMaxFilters
              eventsSent := 0
              active := true } hold rfl hkey hslots
          simp only [Subscription.zero, hcontents]
          exact ⟨hinv', AddOutcome.added hkey hroom hslots hcopied⟩

/-- An add keeps the invariant and has one of the outcomes. -/
theorem subManagerAdd_outcome (hinv : SubInv mgr) (answers : List Bool)
    (filters : List NostrFilter) (hid : subId.length ≤ subMaxIdLen) :
    SubInv (subManagerAdd answers mgr connFd subId filters).2 ∧
      AddOutcome mgr.contents (connFd, subId) (filters.take subMaxFilters)
        (Copied answers filters)
        (subManagerAdd answers mgr connFd subId filters).1
        (subManagerAdd answers mgr connFd subId filters).2.contents := by
  by_cases hkey : (connFd, subId) ∈ mgr.contents
  · exact subManagerAdd_present hinv answers filters hkey
  · exact subManagerAdd_new hinv answers filters hid hkey

/-- A remove erases the key, or fails because the map does not have it. -/
theorem subManagerRemove_outcome (hinv : SubInv mgr) (connFd : Int32) (subId : CString) :
    SubInv (subManagerRemove mgr connFd subId).2 ∧
      (subManagerRemove mgr connFd subId).2.contents = mgr.contents.erase (connFd, subId) ∧
      (subManagerRemove mgr connFd subId).1 =
        if (connFd, subId) ∈ mgr.contents then .ok else .errInvalidSubscriptionId := by
  cases hfind : subManagerFind mgr connFd subId with
  | none =>
      have hkey := subManagerFind_none.mp hfind
      simp only [subManagerRemove, hfind, if_neg hkey]
      exact ⟨hinv, (SlotTable.erase_of_notMem hkey).symm, trivial⟩
  | some i =>
      have hkey : (connFd, subId) ∈ mgr.contents := by
        by_contra h
        rw [subManagerFind_none.mpr h] at hfind
        cases hfind
      simp only [subManagerRemove, hfind, if_pos hkey, clearSubscription]
      obtain ⟨hinv', hcontents⟩ := hinv.release hfind
      exact ⟨hinv', hcontents, trivial⟩

/-- Removing a connection leaves the keys of the others. -/
theorem subManagerRemoveAll_contents (hinv : SubInv mgr) (connFd : Int32) :
    SubInv (subManagerRemoveAll mgr connFd) ∧
      (subManagerRemoveAll mgr connFd).contents =
        SlotTable.filterKeys (fun key => key.1 ≠ connFd) mgr.contents := by
  have hread : ∀ sub : Subscription,
      (if sub.ofConn connFd then clearSubscription sub else sub).read =
        sub.read.filter (fun e => decide (e.1.1 ≠ connFd)) := by
    intro sub
    have hof := Subscription.ofConn_eq connFd sub
    cases h : sub.read with
    | none =>
        rw [h, Option.any_none] at hof
        simp [hof, h]
    | some e =>
        rw [h, Option.any_some] at hof
        by_cases he : e.1.1 = connFd
        · simp [hof, he, clearSubscription, Option.filter]
        · simp [hof, he, h, Option.filter]
  have hlength := SlotTable.length_releaseAll mgr.subs
    (fun key : SubKey => key.1 ≠ connFd) hread
  obtain ⟨hunique, hcontents⟩ :=
    hinv.unique.releaseAll (fun key : SubKey => key.1 ≠ connFd) hread
  have hcleared : mgr.subs.countP (Subscription.ofConn connFd) =
      (entries Subscription.read mgr.subs).countP (fun e => decide ¬ e.1.1 ≠ connFd) := by
    rw [SlotTable.countP_slots (q := fun key : SubKey => key.1 = connFd)
      (Subscription.ofConn_eq connFd)]
    simp
  refine ⟨⟨hunique, ?_⟩, ?_⟩
  · have hcount := hinv.count
    have hle := hinv.activeCount_le
    have hnumber : (UInt16.ofNat (mgr.subs.countP (Subscription.ofConn connFd))).toNat =
        mgr.subs.countP (Subscription.ofConn connFd) := by
      rw [UInt16.toNat_ofNat']
      exact Nat.mod_eq_of_lt (by omega)
    have hsub : UInt16.ofNat (mgr.subs.countP (Subscription.ofConn connFd)) ≤
        mgr.activeCount := by
      rw [UInt16.le_iff_toNat_le, hnumber]
      omega
    simp only [subManagerRemoveAll]
    rw [UInt16.toNat_sub_of_le _ _ hsub, hnumber]
    omega
  · exact hcontents

/-- Every key whose filters match the event, in slot order. -/
theorem subManagerMatch_eq (lib : Libnostr) (mgr : SubManager) (event : NostrEvent) :
    subManagerMatch lib mgr event =
      ((entries Subscription.read mgr.subs).filter
        (fun e => lib.filtersMatch e.2 event)).map Prod.fst := by
  rw [subManagerMatch, entries, List.filter_filterMap, List.map_filterMap]
  congr 1
  funext sub
  cases h : sub.active with
  | false => simp [Subscription.read, h]
  | true => cases hm : lib.filtersMatch sub.filters event <;> simp [Subscription.read, h, hm]

theorem subManagerMatch_nodup (hinv : SubInv mgr) (lib : Libnostr) (event : NostrEvent) :
    (subManagerMatch lib mgr event).Nodup := by
  rw [subManagerMatch_eq]
  exact List.Nodup.sublist (List.filter_sublist.map _) hinv.unique

theorem mem_subManagerMatch (hinv : SubInv mgr) (lib : Libnostr) (event : NostrEvent)
    (key : SubKey) :
    key ∈ subManagerMatch lib mgr event ↔
      ∃ filters, mgr.contents.lookup key = some filters ∧
        lib.filtersMatch filters event = true := by
  simp only [subManagerMatch_eq, SubManager.contents, SlotTable.lookup_contents hinv.unique]
  simp

end Operations

/-! ## The bounded map -/

/-- The quotas of the map. -/
structure SubMap.Bounded
    (m : SubMap) : Prop where
  total : m.keys.card ≤ subMaxTotal
  perConn : ∀ connFd, m.countOf connFd ≤ subMaxPerConn.toNat

/-- One operation of the bounded map, with its result. -/
inductive MapStep
    (lib : Libnostr) : SubMap → SubCall → SubResult → SubMap → Prop
  | addPresent {m answers connFd subId filters} :
      (connFd, subId) ∈ m →
      MapStep lib m (.add answers connFd subId filters) (.error .ok)
        (m.insert (connFd, subId) (filters.take subMaxFilters))
  | addNew {m answers connFd subId filters} :
      (connFd, subId) ∉ m →
      m.countOf connFd < subMaxPerConn.toNat →
      m.keys.card < subMaxTotal →
      MapStep lib m (.add answers connFd subId filters) (.error .ok)
        (m.insert (connFd, subId) (filters.take subMaxFilters))
  | addTooMany {m answers connFd subId filters} :
      (connFd, subId) ∉ m →
      subMaxPerConn.toNat ≤ m.countOf connFd →
      MapStep lib m (.add answers connFd subId filters) (.error .errTooManyFilters) m
  | addFull {m answers connFd subId filters} :
      (connFd, subId) ∉ m →
      m.countOf connFd < subMaxPerConn.toNat →
      subMaxTotal ≤ m.keys.card →
      MapStep lib m (.add answers connFd subId filters) (.error .errMemory) m
  | remove {m connFd subId} :
      (connFd, subId) ∈ m →
      MapStep lib m (.remove connFd subId) (.error .ok) (m.erase (connFd, subId))
  | removeAbsent {m connFd subId} :
      (connFd, subId) ∉ m →
      MapStep lib m (.remove connFd subId) (.error .errInvalidSubscriptionId) m
  | removeAll {m connFd} :
      MapStep lib m (.removeAll connFd) .done
        (SlotTable.filterKeys (fun key => key.1 ≠ connFd) m)
  | count {m connFd n} :
      n.toNat = m.countOf connFd →
      MapStep lib m (.count connFd) (.count n) m
  | matching {m event found} :
      found.Nodup →
      (∀ key, key ∈ found ↔
        ∃ filters, m.lookup key = some filters ∧ lib.filtersMatch filters event = true) →
      MapStep lib m (.matching event) (.matching found) m

namespace SubMap

variable {m : SubMap}

theorem Bounded.empty : Bounded ∅ where
  total := by simp
  perConn := by simp [countOf]

/-- Fewer keys break no quota. -/
theorem Bounded.mono {m' : SubMap} (h : m.Bounded) (hkeys : m'.keys ⊆ m.keys) :
    m'.Bounded where
  total := (Finset.card_le_card hkeys).trans h.total
  perConn := by
    intro connFd
    exact (Finset.card_le_card (Finset.filter_subset_filter _ hkeys)).trans (h.perConn connFd)

theorem Bounded.insert_new (h : m.Bounded) {key : SubKey} {filters : List NostrFilter}
    (hconn : m.countOf key.1 < subMaxPerConn.toNat) (htotal : m.keys.card < subMaxTotal) :
    Bounded (m.insert key filters) where
  total := by
    rw [SlotTable.keys_insert]
    exact (Finset.card_insert_le _ _).trans htotal
  perConn := by
    intro connFd
    rw [countOf, SlotTable.keys_insert, Finset.filter_insert]
    split
    · rename_i hfd
      subst hfd
      exact (Finset.card_insert_le _ _).trans hconn
    · exact h.perConn connFd

end SubMap

namespace AddOutcome

variable
  {m m' : SubMap}
  {key : SubKey}
  {filters : List NostrFilter}
  {copied : Prop}
  {result : NostrRelayError}

/-- An add makes no key but its own. -/
theorem keys
    (h : AddOutcome m key filters copied result m')
    {key' : SubKey}
    (hmem : key' ∈ m') :
    key' = key ∨ key' ∈ m := by
  cases h with
  | replaced | emptied | added => exact Finmap.mem_insert.mp hmem
  | tooMany | full | notCopied => exact Or.inr hmem

/-- An add keeps the quotas, whether or not its copies succeed. -/
theorem bounded
    (h : AddOutcome m key filters copied result m')
    (hm : m.Bounded) :
    m'.Bounded := by
  cases h with
  | replaced hkey | emptied hkey =>
      refine hm.mono ?_
      rw [SlotTable.keys_insert, Finset.insert_eq_of_mem (Finmap.mem_keys.mpr hkey)]
  | added _ hconn htotal => exact hm.insert_new hconn htotal
  | tooMany | full | notCopied => exact hm

end AddOutcome

/-- No operation breaks a quota. -/
theorem MapStep.bounded {lib : Libnostr} {m m' : SubMap} {call : SubCall} {result : SubResult}
    (hstep : MapStep lib m call result m') (h : m.Bounded) : m'.Bounded := by
  cases hstep with
  | addPresent hkey =>
      refine h.mono ?_
      rw [SlotTable.keys_insert, Finset.insert_eq_of_mem (Finmap.mem_keys.mpr hkey)]
  | addNew _ hconn htotal => exact h.insert_new hconn htotal
  | addTooMany => exact h
  | addFull => exact h
  | remove =>
      refine h.mono ?_
      rw [Finmap.keys_erase]
      exact Finset.erase_subset _ _
  | removeAbsent => exact h
  | removeAll =>
      refine h.mono ?_
      rw [SlotTable.keys_filterKeys]
      exact Finset.filter_subset _ _
  | count => exact h
  | matching => exact h

/-! ## Runs -/

namespace SubCall

/-- The subscription id fits the slot, as the ids `router_parse` hands on do. -/
def IdFits : SubCall → Prop
  | .add _ _ subId _ => subId.length ≤ subMaxIdLen
  | .remove _ subId => subId.length ≤ subMaxIdLen
  | _ => True

/-- No allocation of the call is refused. -/
def AllocOk : SubCall → Prop
  | .add answers _ _ _ => Granted answers
  | _ => True

instance : DecidablePred IdFits := by
  intro call
  unfold IdFits
  split <;> infer_instance

instance : DecidablePred AllocOk := by
  intro call
  unfold AllocOk
  split <;> infer_instance

end SubCall

/-- No two slots in use have the same connection and subscription id. -/
def OneSlotPerKey
    (mgr : SubManager) : Prop :=
  ∀ i j : Fin subMaxTotal,
    (mgr.slot i).active = true → (mgr.slot j).active = true →
    (mgr.slot i).connFd = (mgr.slot j).connFd → (mgr.slot i).subId = (mgr.slot j).subId →
    i = j

namespace SubInv

variable {mgr : SubManager}

theorem entries_init : entries Subscription.read subManagerInit.subs = [] := by
  rw [entries, subManagerInit, Vector.toList_replicate]
  exact List.filterMap_replicate_of_none Subscription.read_zero

theorem init : SubInv subManagerInit where
  unique := by
    simp [UniqueKeys, entries_init]
  count := by
    rw [entries_init]
    rfl

theorem oneSlotPerKey (hinv : SubInv mgr) : OneSlotPerKey mgr := by
  intro i j hi hj hfd hid
  refine hinv.unique.eq_of_key (Subscription.read_eq_some.mpr ⟨hi, rfl, rfl⟩)
    (Subscription.read_eq_some.mpr ⟨hj, ?_, rfl⟩)
  exact Prod.ext hfd hid

theorem activeCount_eq (hinv : SubInv mgr) :
    mgr.activeCount.toNat = mgr.subs.countP (fun sub => sub.active) := by
  have hactive : ∀ sub : Subscription,
      sub.active = sub.read.any (fun _ => decide True) := by
    intro sub
    cases h : sub.active <;> simp [Subscription.read, h]
  rw [hinv.count, SlotTable.countP_slots (q := fun _ : SubKey => True) hactive]
  simp

end SubInv

theorem copied_of_granted {answers : List Bool} (h : Granted answers)
    (filters : List NostrFilter) : Copied answers filters := by
  obtain ⟨rest, hrun, -⟩ :=
    (Yields.mapM filterCopy_yields (filters.take subMaxFilters)).total answers h
  rw [Copied, hrun]
  rfl

/-- An add whose copies succeed is the add of the bounded map. -/
theorem AddOutcome.mapStep {lib : Libnostr} {m m' : SubMap} {answers : List Bool}
    {connFd : Int32} {subId : CString} {filters : List NostrFilter} {copied : Prop}
    {result : NostrRelayError}
    (h : AddOutcome m (connFd, subId) (filters.take subMaxFilters) copied result m')
    (hcopied : copied) :
    MapStep lib m (.add answers connFd subId filters) (.error result) m' := by
  cases h with
  | replaced hkey _ => exact MapStep.addPresent hkey
  | emptied _ hnot => exact absurd hcopied hnot
  | tooMany hkey hconn => exact MapStep.addTooMany hkey hconn
  | full hkey hconn htotal => exact MapStep.addFull hkey hconn htotal
  | notCopied _ _ _ hnot => exact absurd hcopied hnot
  | added hkey hconn htotal _ => exact MapStep.addNew hkey hconn htotal

/-- **One operation.**  It keeps the invariant and is the operation of the bounded map. -/
theorem subCall_simulates {mgr : SubManager} (hinv : SubInv mgr) (lib : Libnostr)
    (call : SubCall) (hid : call.IdFits) (halloc : call.AllocOk) :
    SubInv (subCall lib mgr call).2 ∧
      MapStep lib mgr.contents call (subCall lib mgr call).1
        (subCall lib mgr call).2.contents := by
  cases call with
  | add answers connFd subId filters =>
      obtain ⟨hinv', houtcome⟩ := subManagerAdd_outcome hinv answers filters hid
      exact ⟨hinv', houtcome.mapStep (copied_of_granted halloc filters)⟩
  | remove connFd subId =>
      obtain ⟨hinv', hcontents, hresult⟩ := subManagerRemove_outcome hinv connFd subId
      refine ⟨hinv', ?_⟩
      simp only [subCall]
      rw [hcontents, hresult]
      by_cases hkey : (connFd, subId) ∈ mgr.contents
      · rw [if_pos hkey]
        exact MapStep.remove hkey
      · rw [if_neg hkey, SlotTable.erase_of_notMem hkey]
        exact MapStep.removeAbsent hkey
  | removeAll connFd =>
      obtain ⟨hinv', hcontents⟩ := subManagerRemoveAll_contents hinv connFd
      refine ⟨hinv', ?_⟩
      simp only [subCall]
      rw [hcontents]
      exact MapStep.removeAll
  | count connFd =>
      exact ⟨hinv, MapStep.count (subManagerCount_toNat hinv connFd)⟩
  | matching event =>
      exact ⟨hinv, MapStep.matching (subManagerMatch_nodup hinv lib event)
        (mem_subManagerMatch hinv lib event)⟩

theorem contents_init : subManagerInit.contents = ∅ := by
  rw [SubManager.contents, SlotTable.contents, SubInv.entries_init]
  rfl

/-- After every run the manager stands for the map the bounded map has reached. -/
structure MapRun
    (lib : Libnostr)
    (past : List SubCall)
    (mgr : SubManager) : Prop where
  inv : SubInv mgr
  run : AbstractRun (MapStep lib) ∅ (trace (subCall lib) subManagerInit past) mgr.contents
  bounded : mgr.contents.Bounded

theorem mapRun_of_calls (lib : Libnostr) :
    ∀ calls : List SubCall, (∀ call ∈ calls, call.IdFits ∧ call.AllocOk) →
      MapRun lib calls (finalState (subCall lib) subManagerInit calls) := by
  refine run_invariant (fun calls => ∀ call ∈ calls, call.IdFits ∧ call.AllocOk) (MapRun lib)
    ?_ ?_ ?_
  · intro past call hall c hc
    exact hall c (List.mem_append_left _ hc)
  · refine ⟨SubInv.init, ?_, ?_⟩
    · rw [contents_init]
      exact AbstractRun.nil ∅
    · rw [contents_init]
      exact SubMap.Bounded.empty
  · intro past call hall hrun
    obtain ⟨hid, halloc⟩ := hall call (by simp)
    obtain ⟨hinv, hstep⟩ := subCall_simulates hrun.inv lib call hid halloc
    refine ⟨hinv, ?_, hstep.bounded hrun.bounded⟩
    rw [trace_snoc]
    exact hrun.run.snoc hstep

/--
**The subscription manager refines the bounded map.**  In every run from `sub_manager_init`
every result is the one of the bounded map, the map keeps its quotas, `active_count` is the
number of slots in use, and no two of them have the same key.
-/
theorem sub_manager_refines_map
    (lib : Libnostr)
    (calls : List SubCall)
    (hids : ∀ call ∈ calls, call.IdFits)
    (halloc : ∀ call ∈ calls, call.AllocOk) :
    let mgr := finalState (subCall lib) subManagerInit calls
    AbstractRun (MapStep lib) ∅ (trace (subCall lib) subManagerInit calls) mgr.contents ∧
      mgr.contents.Bounded ∧
      mgr.activeCount.toNat = mgr.subs.countP (fun sub => sub.active) ∧
      OneSlotPerKey mgr := by
  have hrun := mapRun_of_calls lib calls (fun call hcall => ⟨hids call hcall, halloc call hcall⟩)
  exact ⟨hrun.run, hrun.bounded, hrun.inv.activeCount_eq, hrun.inv.oneSlotPerKey⟩

/-- A subscription is added, replaced by one with five filters, and closed. -/
def replacedFeed : List SubCall :=
  [ .add [] 7 (ascii "feed") [{ kinds := [1] }],
    .add [true, true] 7 (ascii "feed") [{ kinds := [1] }, {}, {}, {}, { kinds := [7] }],
    .count 7,
    .remove 7 (ascii "news"),
    .remove 7 (ascii "feed") ]

theorem sub_manager_refines_map_feed :
    let lib := Sample.library []
    let mgr := finalState (subCall lib) subManagerInit replacedFeed
    AbstractRun (MapStep lib) ∅ (trace (subCall lib) subManagerInit replacedFeed) mgr.contents ∧
      mgr.contents.Bounded ∧
      mgr.activeCount.toNat = mgr.subs.countP (fun sub => sub.active) ∧
      OneSlotPerKey mgr :=
  sub_manager_refines_map (Sample.library []) replacedFeed (by decide) (by decide)

end Subscriptions
end WispRelay
