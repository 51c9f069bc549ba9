import WispRelay.Library.Runs
import WispRelay.Storage.Engine

/-!
# The store as an insertion-ordered list

What the storage engine is for, without flags, slots or files: a list of events in the order
they were saved, each with the two timestamps recorded at save.

* `Item`: an event with its recorded `created_at` and `expires_at`.
* `AbstractStore`: the items, and the number of slots taken since the last compaction, which
  only the return value of a compaction and the refusal of a save may depend on.
* `AbstractStep`: one operation with its result.  When a save may be accepted and when it may
  be refused as `FULL` are parameters.
-/

namespace WispRelay
namespace Storage

/-- A saved event with the timestamps recorded at save. -/
structure Item where
  event : NostrEvent
  createdAt : UInt32
  expiresAt : UInt32
deriving DecidableEq

namespace Item

/-- The fields of an index record that an item determines. -/
def record
    (item : Item) : StorageIndexEntry where
  eventId := item.event.id
  createdAt := item.createdAt
  expiresAt := item.expiresAt
  fileIndex := 0
  kind := item.event.kind
  pubkeyPrefix := bytesVector 4 (item.event.pubkey.toList.take 4)
  flags := 0
  reserved := 0

/-- The deadline has passed. -/
def isExpired
    (item : Item)
    (now : UInt32) : Bool :=
  item.record.isExpired now

/-- Both `index_matches_filter` and `nostr_filter_matches` accept the item. -/
def passes
    (lib : Libnostr)
    (filter : NostrFilter)
    (item : Item) : Bool :=
  indexMatchesFilter lib item.record filter && lib.filterMatches filter item.event

end Item

/-- The abstract store. -/
structure AbstractStore where
  items : List Item
  slots : Nat

namespace AbstractStore

/-- No item, no slot taken. -/
def empty : AbstractStore := ⟨[], 0⟩

/-- The item with an identifier. -/
def lookup
    (store : AbstractStore)
    (eventId : Bytes32) : Option Item :=
  store.items.find? (fun item => item.event.id == eventId)

/-- Drop the items that do not satisfy `keep`. -/
def retain
    (store : AbstractStore)
    (keep : Item → Bool) : AbstractStore :=
  { store with items := store.items.filter keep }

end AbstractStore

/--
The scan of a query over items from the newest on: the first `limit` unexpired items that pass,
and the items left, of which the expired ones passed over are dropped.
-/
def scanItems
    (lib : Libnostr)
    (now : UInt32)
    (filter : NostrFilter) :
    Nat → List Item → List NostrEvent × List Item
  | 0, items => ([], items)
  | _ + 1, [] => ([], [])
  | limit + 1, item :: older =>
      if item.isExpired now then scanItems lib now filter (limit + 1) older
      else if item.passes lib filter then
        let rest := scanItems lib now filter limit older
        (item.event :: rest.1, item :: rest.2)
      else
        let rest := scanItems lib now filter (limit + 1) older
        (rest.1, item :: rest.2)

section Scan

variable
  (lib : Libnostr)
  (now : UInt32)
  (filter : NostrFilter)

section Step

variable
  {lib now filter}
  {limit : Nat}
  (hroom : 0 < limit)
  {item : Item}
  (older : List Item)
include hroom

/-- An expired item is dropped. -/
theorem scanItems_expired
    (hexpired : item.isExpired now = true) :
    scanItems lib now filter limit (item :: older) = scanItems lib now filter limit older := by
  obtain ⟨n, rfl⟩ := Nat.exists_eq_succ_of_ne_zero hroom.ne'
  rw [scanItems, if_pos hexpired]

/-- An item that passes is a result. -/
theorem scanItems_result
    (hunexpired : item.isExpired now = false)
    (hpasses : item.passes lib filter = true) :
    scanItems lib now filter limit (item :: older) =
      (item.event :: (scanItems lib now filter (limit - 1) older).1,
        item :: (scanItems lib now filter (limit - 1) older).2) := by
  obtain ⟨n, rfl⟩ := Nat.exists_eq_succ_of_ne_zero hroom.ne'
  simp only [scanItems, hunexpired, hpasses, Bool.false_eq_true, if_false, if_true]
  rfl

/-- Any other item is passed over. -/
theorem scanItems_rejected
    (hunexpired : item.isExpired now = false)
    (hrejected : item.passes lib filter = false) :
    scanItems lib now filter limit (item :: older) =
      ((scanItems lib now filter limit older).1,
        item :: (scanItems lib now filter limit older).2) := by
  obtain ⟨n, rfl⟩ := Nat.exists_eq_succ_of_ne_zero hroom.ne'
  simp only [scanItems, hunexpired, hrejected, Bool.false_eq_true, if_false]

end Step

/-- The results of a scan are the first `limit` unexpired items that pass. -/
theorem scanItems_events
    (limit : Nat)
    (items : List Item) :
    (scanItems lib now filter limit items).1 =
      ((items.filter (fun item => !item.isExpired now && item.passes lib filter)).take
        limit).map Item.event := by
  induction items generalizing limit with
  | nil =>
      cases limit <;> rfl
  | cons item older ih =>
      cases limit with
      | zero => simp [scanItems]
      | succ limit =>
          unfold scanItems
          split_ifs with hexpired hpasses
          · rw [ih, List.filter_cons_of_neg (by simp [hexpired])]
          · dsimp only
            rw [ih, List.filter_cons_of_pos (by simp [hexpired, hpasses])]
            rfl
          · dsimp only
            rw [ih, List.filter_cons_of_neg (by simp [hpasses])]

/-- A scan drops nothing but expired items. -/
theorem scanItems_unexpired
    (limit : Nat)
    (items : List Item) :
    (scanItems lib now filter limit items).2.Sublist items ∧
      (scanItems lib now filter limit items).2.filter (fun item => !item.isExpired now) =
        items.filter (fun item => !item.isExpired now) := by
  induction items generalizing limit with
  | nil =>
      cases limit <;> simp [scanItems]
  | cons item older ih =>
      cases limit with
      | zero => simp [scanItems]
      | succ limit =>
          unfold scanItems
          split_ifs with hexpired hpasses
          · obtain ⟨hsub, hkept⟩ := ih (limit + 1)
            refine ⟨hsub.cons item, ?_⟩
            rw [hkept, List.filter_cons_of_neg (by simp [hexpired])]
          · obtain ⟨hsub, hkept⟩ := ih limit
            refine ⟨hsub.cons_cons item, ?_⟩
            dsimp only
            rw [List.filter_cons, List.filter_cons, hkept]
          · obtain ⟨hsub, hkept⟩ := ih (limit + 1)
            refine ⟨hsub.cons_cons item, ?_⟩
            dsimp only
            rw [List.filter_cons, List.filter_cons, hkept]

end Scan

/-- The statistics of a list of items. -/
def itemStats
    (env : CallEnv)
    (items : List Item) : StorageStats :=
  let unexpired := items.filter (fun item => !item.isExpired env.now)
  { totalEvents := unexpired.length
    totalBytes := env.fsTotal
    freeBytes := env.fsTotal - env.fsUsed
    oldestEventTs :=
      if unexpired.length = 0 then 0
      else
        unexpired.foldl
          (fun oldest item => if item.createdAt < oldest then item.createdAt else oldest)
          0xFFFFFFFF
    newestEventTs :=
      unexpired.foldl
        (fun newest item => if newest < item.createdAt then item.createdAt else newest)
        0 }

/-- The item a save at `env.now` appends. -/
def newItem
    (lib : Libnostr)
    (env : CallEnv)
    (ttl : UInt32)
    (event : NostrEvent) : Item where
  event := event
  createdAt := uint32OfInt64 event.createdAt
  expiresAt := recordedExpiry env.now ttl (lib.eventGetExpiration event)

/-- One operation on the list, with its result. -/
inductive AbstractStep
    (lib : Libnostr)
    (ttl : UInt32)
    (mayAccept mayRefuse : AbstractStore → Prop) :
    AbstractStore → StorageOp → StorageResult → AbstractStore → Prop
  | saveOk
      {store : AbstractStore}
      {event : NostrEvent}
      {env : CallEnv}
      (hfresh : store.lookup event.id = none)
      (haccept : mayAccept store) :
      AbstractStep lib ttl mayAccept mayRefuse store ⟨.save event, env⟩
        ⟨.save event, .storageOk⟩
        ⟨store.items ++ [newItem lib env ttl event], store.slots + 1⟩
  | saveDuplicate
      {store : AbstractStore}
      {event : NostrEvent}
      {env : CallEnv}
      (hlisted : (store.lookup event.id).isSome = true) :
      AbstractStep lib ttl mayAccept mayRefuse store ⟨.save event, env⟩
        ⟨.save event, .duplicate⟩ store
  | saveFull
      {store : AbstractStore}
      {event : NostrEvent}
      {env : CallEnv}
      (hfresh : store.lookup event.id = none)
      (hrefuse : mayRefuse store) :
      AbstractStep lib ttl mayAccept mayRefuse store ⟨.save event, env⟩
        ⟨.save event, .full⟩ store
  | deleteOk
      {store : AbstractStore}
      {eventId : Bytes32}
      {env : CallEnv}
      (hlisted : (store.lookup eventId).isSome = true) :
      AbstractStep lib ttl mayAccept mayRefuse store ⟨.delete eventId, env⟩
        ⟨.delete eventId, .storageOk⟩
        (store.retain fun item => item.event.id != eventId)
  | deleteNotFound
      {store : AbstractStore}
      {eventId : Bytes32}
      {env : CallEnv}
      (hnone : store.lookup eventId = none) :
      AbstractStep lib ttl mayAccept mayRefuse store ⟨.delete eventId, env⟩
        ⟨.delete eventId, .notFound⟩ store
  | get
      {store : AbstractStore}
      {eventId : Bytes32}
      {env : CallEnv} :
      AbstractStep lib ttl mayAccept mayRefuse store ⟨.get eventId, env⟩
        ⟨.get eventId, (store.lookup eventId).map Item.event⟩ store
  | eventExists
      {store : AbstractStore}
      {eventId : Bytes32}
      {env : CallEnv} :
      AbstractStep lib ttl mayAccept mayRefuse store ⟨.eventExists eventId, env⟩
        ⟨.eventExists eventId, (store.lookup eventId).isSome⟩ store
  | query
      {store : AbstractStore}
      {filter : NostrFilter}
      {limit : UInt16}
      {env : CallEnv} :
      AbstractStep lib ttl mayAccept mayRefuse store ⟨.query filter limit, env⟩
        ⟨.query filter limit,
          (.storageOk,
            (scanItems lib env.now filter (queryLimit limit) store.items.reverse).1)⟩
        { store with
          items :=
            (scanItems lib env.now filter (queryLimit limit)
              store.items.reverse).2.reverse }
  | purge
      {store : AbstractStore}
      {env : CallEnv} :
      AbstractStep lib ttl mayAccept mayRefuse store ⟨.purge, env⟩
        ⟨.purge, store.items.countP (fun item => item.isExpired env.now)⟩
        (store.retain fun item => !item.isExpired env.now)
  | compact
      {store : AbstractStore}
      {env : CallEnv} :
      AbstractStep lib ttl mayAccept mayRefuse store ⟨.compact, env⟩
        ⟨.compact, store.slots - store.items.length⟩
        { store with slots := store.items.length }
  | stats
      {store : AbstractStore}
      {env : CallEnv} :
      AbstractStep lib ttl mayAccept mayRefuse store ⟨.stats, env⟩
        ⟨.stats, itemStats env store.items⟩ store

end Storage
end WispRelay
