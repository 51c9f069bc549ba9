import WispRelay.Library.InPlaceFilter
import WispRelay.Storage.Nvs

/-!
# The storage engine

The operations of `storage_engine.c` over the index, the event files and the NVS store.
Everything the environment decides in one call (the clock, whether an allocation, a file
operation or an NVS call succeeds) is collected in a `CallEnv`.

A file is the list of its bytes, found by its path; only event files are ever created, so the
domain of `Files` is the content of `/littlefs/events`.  Taking and giving the mutex around
each operation makes an operation one step.

`StorageCall` lists the operations; `storageCall` runs one of them.
-/

namespace WispRelay
namespace Storage

/-- `storage_error_t`. -/
inductive StorageError where
  | storageOk
  | notInitialized
  | full
  | duplicate
  | notFound
  | io
  | noMem
  | serialize
deriving DecidableEq, Repr

/-- What the environment decides in one call. -/
structure CallEnv where
  /-- `(uint32_t)time(NULL)`. -/
  now : UInt32
  /-- The allocation the call makes succeeds. -/
  mallocOk : Bool
  /-- `nostr_event_serialize` does not run out of memory. -/
  serializeOk : Bool
  /-- The first `fopen(path, "wb")`, and the one after `mkdir`. -/
  fopenOk : Bool
  fopenRetryOk : Bool
  /-- The number of bytes `fwrite` reports, when not all of them. -/
  fwriteShort : Option Nat
  /-- The number of bytes that reach the flash, when `fclose` fails to flush. -/
  fcloseShort : Option Nat
  unlinkOk : CString → Bool
  /-- Opening, allocating for and reading the file at a path succeed. -/
  readOk : CString → Bool
  nvs : NvsCall → NvsOutcome
  /-- `esp_littlefs_info`. -/
  fsTotal : UInt32
  fsUsed : UInt32

/-- The event files, by path. -/
abbrev Files := CString → Option (List UInt8)

/-- The engine with the flash it works on. -/
structure StorageWorld where
  engine : StorageEngine
  files : Files
  nvs : NvsStore

/-- `unlink`. -/
def unlink (env : CallEnv) (files : Files) (path : CString) : Files :=
  if env.unlinkOk path then Function.update files path none else files

/-- `save_index_to_nvs`, with the result ignored as all its callers do. -/
def persist (env : CallEnv) (world : StorageWorld) : StorageWorld :=
  { world with nvs := (saveIndexToNvs env.nvs world.engine world.nvs).2 }

/-! ## Saving -/

/-- A cast to `uint32_t`. -/
def uint32OfInt64 (x : Int64) : UInt32 := x.toUInt64.toUInt32

/-- The value of `entry->expires_at` after a save at `now`. -/
def recordedExpiry (now ttl : UInt32) (nip40Exp : Int64) : UInt32 :=
  if 0 < nip40Exp && uint32OfInt64 nip40Exp < now + ttl then
    uint32OfInt64 nip40Exp
  else
    now + ttl

/-- The record `storage_save_event` fills in; `reserved` keeps what the slot held. -/
def newEntry (lib : Libnostr) (now : UInt32) (engine : StorageEngine)
    (event : NostrEvent) : StorageIndexEntry where
  eventId := event.id
  createdAt := uint32OfInt64 event.createdAt
  expiresAt := recordedExpiry now engine.defaultTtlSec (lib.eventGetExpiration event)
  fileIndex := engine.nextFileIndex
  kind := event.kind
  pubkeyPrefix := bytesVector 4 (event.pubkey.toList.take 4)
  flags := 0
  reserved := (engine.index.getD engine.indexCount StorageIndexEntry.zero).reserved

/-- Fill in the slot at `index_count` and advance both counters. -/
def StorageEngine.append (engine : StorageEngine) (entry : StorageIndexEntry)
    (hroom : engine.indexCount < engine.maxIndexEntries) : StorageEngine :=
  { engine with
    index := engine.index.set engine.indexCount entry
    indexCount := engine.indexCount + 1
    nextFileIndex := engine.nextFileIndex + 1
    indexCount_le := by
      rw [List.length_set]
      exact hroom
    capacity_le := by
      rw [List.length_set]
      exact engine.capacity_le }

/-- `storage_save_event`. -/
def storageSaveEvent (lib : Libnostr) (env : CallEnv) (world : StorageWorld)
    (event : NostrEvent) : StorageError × StorageWorld :=
  if !world.engine.initialized then (.notInitialized, world)
  else if (findIndexEntry world.engine event.id).isSome then (.duplicate, world)
  else if hroom : world.engine.indexCount < world.engine.maxIndexEntries then
    if !env.mallocOk then (.noMem, world)
    else
      match if env.serializeOk then lib.eventSerialize event storageMaxEventSize else none with
      | none => (.serialize, world)
      | some json =>
        let path := getEventPath lib event.id world.engine.nextFileIndex
        if !env.fopenOk && !env.fopenRetryOk then (.io, world)
        else
          let written := min (env.fwriteShort.getD json.length) json.length
          let onFlash := json.take (min (env.fcloseShort.getD written) written)
          let files := Function.update world.files path (some onFlash)
          if written ≠ json.length then
            (.io, { world with files := unlink env files path })
          else
            let entry := newEntry lib env.now world.engine event
            let saved : StorageWorld :=
              { world with engine := world.engine.append entry hroom, files := files }
            (.storageOk,
              if saved.engine.indexCount % 10 = 0 then persist env saved else saved)
  else (.full, world)

/-! ## Lookups -/

/-- `storage_event_exists`. -/
def storageEventExists (world : StorageWorld) (eventId : Bytes32) : Bool :=
  world.engine.initialized && (findIndexEntry world.engine eventId).isSome

/-- `load_event_from_file`. -/
def loadEventFromFile (lib : Libnostr) (env : CallEnv) (files : Files)
    (path : CString) : Option NostrEvent :=
  match if env.readOk path then files path else none with
  | none => none
  | some json =>
      if json.length = 0 ∨ storageMaxEventSize < json.length then none
      else lib.eventParse json

/-- `storage_get_event`. -/
def storageGetEvent (lib : Libnostr) (env : CallEnv) (world : StorageWorld)
    (eventId : Bytes32) : Option NostrEvent :=
  if !world.engine.initialized then none
  else
    match foundEntry world.engine eventId with
    | none => none
    | some entry => loadEventFromFile lib env world.files (entry.path lib)

/-! ## Querying -/

/-- `index_matches_filter`. -/
def indexMatchesFilter (lib : Libnostr) (entry : StorageIndexEntry)
    (filter : NostrFilter) : Bool :=
  if 0 < filter.since && entry.createdAt < uint32OfInt64 filter.since then false
  else if 0 < filter.until_ && uint32OfInt64 filter.until_ < entry.createdAt then false
  else if !filter.kinds.isEmpty &&
      !filter.kinds.any (fun kind => kind.toInt == (entry.kind.toNat : Int)) then false
  else if !filter.ids.isEmpty &&
      !filter.ids.any (fun id =>
        lib.hexToBytes id 64 == some entry.eventId.toList) then false
  else if !filter.authors.isEmpty &&
      !filter.authors.any (fun author =>
        8 ≤ author.length &&
          lib.hexToBytes author 8 == some entry.pubkeyPrefix.toList) then false
  else true

/-- What the scan of `storage_query_events` leaves: records, files and results. -/
structure QueryScan where
  entries : List StorageIndexEntry
  files : Files
  events : List NostrEvent

/--
The scan of `storage_query_events` over the records from the newest on, with the results
found so far.  It stops as soon as `limit` results are found; `mark_entry_expired` unlinks the
file of an expired record and sets its deleted flag.
-/
def queryScan (lib : Libnostr) (env : CallEnv) (filter : NostrFilter) (limit : Nat) :
    List StorageIndexEntry → Files → List NostrEvent → QueryScan
  | [], files, events => ⟨[], files, events⟩
  | entry :: older, files, events =>
      if limit ≤ events.length then ⟨entry :: older, files, events⟩
      else if entry.isDeleted then
        let rest := queryScan lib env filter limit older files events
        { rest with entries := entry :: rest.entries }
      else if entry.isExpired env.now then
        let rest := queryScan lib env filter limit older
          (unlink env files (entry.path lib)) events
        { rest with entries := entry.markDeleted :: rest.entries }
      else if !indexMatchesFilter lib entry filter then
        let rest := queryScan lib env filter limit older files events
        { rest with entries := entry :: rest.entries }
      else
        match loadEventFromFile lib env files (entry.path lib) with
        | none =>
            let rest := queryScan lib env filter limit older files events
            { rest with entries := entry :: rest.entries }
        | some event =>
            let rest := queryScan lib env filter limit older files
              (if lib.filterMatches filter event then events ++ [event] else events)
            { rest with entries := entry :: rest.entries }

@[simp] theorem queryScan_entries_length (lib : Libnostr) (env : CallEnv)
    (filter : NostrFilter) (limit : Nat) (entries : List StorageIndexEntry) :
    ∀ (files : Files) (events : List NostrEvent),
      (queryScan lib env filter limit entries files events).entries.length =
        entries.length := by
  induction entries with
  | nil =>
      intro files events
      rfl
  | cons entry older ih =>
      intro files events
      unfold queryScan
      split_ifs
      · rfl
      · simp [ih]
      · simp [ih]
      · simp [ih]
      · cases loadEventFromFile lib env files (entry.path lib) <;> simp [ih]

/-- The largest number of results of one query. -/
def queryLimit (limit : UInt16) : Nat := min limit.toNat 500

/-- `storage_query_events`. -/
def storageQueryEvents (lib : Libnostr) (env : CallEnv) (world : StorageWorld)
    (filter : NostrFilter) (limit : UInt16) :
    (StorageError × List NostrEvent) × StorageWorld :=
  if !world.engine.initialized then ((.notInitialized, []), world)
  else if !env.mallocOk then ((.noMem, []), world)
  else
    let scan := queryScan lib env filter (queryLimit limit)
      world.engine.visible.reverse world.files []
    ((.storageOk, scan.events),
      { world with
        engine := world.engine.withVisible scan.entries.reverse (by simp [scan])
        files := scan.files })

/-! ## Expiry, compaction and deletion -/

/-- The loop of `storage_purge_expired`: records, files and the number purged. -/
def purgeLoop (lib : Libnostr) (env : CallEnv) :
    List StorageIndexEntry → Files → List StorageIndexEntry × Files × Nat
  | [], files => ([], files, 0)
  | entry :: rest, files =>
      if entry.isDeleted then
        let r := purgeLoop lib env rest files
        (entry :: r.1, r.2.1, r.2.2)
      else if entry.isExpired env.now then
        let r := purgeLoop lib env rest (unlink env files (entry.path lib))
        (entry.markDeleted :: r.1, r.2.1, r.2.2 + 1)
      else
        let r := purgeLoop lib env rest files
        (entry :: r.1, r.2.1, r.2.2)

@[simp] theorem purgeLoop_length (lib : Libnostr) (env : CallEnv)
    (entries : List StorageIndexEntry) :
    ∀ files : Files, (purgeLoop lib env entries files).1.length = entries.length := by
  induction entries with
  | nil =>
      intro files
      rfl
  | cons entry rest ih =>
      intro files
      unfold purgeLoop
      split_ifs <;> simp [ih]

/-- `storage_purge_expired`. -/
def storagePurgeExpired (lib : Libnostr) (env : CallEnv) (world : StorageWorld) :
    Nat × StorageWorld :=
  if !world.engine.initialized then (0, world)
  else
    let r := purgeLoop lib env world.engine.visible world.files
    let purged : StorageWorld :=
      { world with
        engine := world.engine.withVisible r.1 (by simp [r])
        files := r.2.1 }
    (r.2.2, if 0 < r.2.2 then persist env purged else purged)

/-- The array and the counter the loop of `storage_compact_index` leaves. -/
def compactLoop (engine : StorageEngine) : List StorageIndexEntry × Nat :=
  InPlaceFilter.inPlaceFilter (fun entry => !entry.isDeleted)
    engine.index engine.indexCount 0 0

theorem compactLoop_eq (engine : StorageEngine) :
    compactLoop engine =
      (live engine.visible ++ engine.index.drop (live engine.visible).length,
        (live engine.visible).length) :=
  InPlaceFilter.inPlaceFilter_spec _ _ engine.indexCount_le

/-- The engine with the compacted array. -/
def StorageEngine.compact (engine : StorageEngine) : StorageEngine :=
  { engine with
    index := (compactLoop engine).1
    indexCount := (compactLoop engine).2
    indexCount_le := by simp [compactLoop_eq]
    capacity_le := by
      have hlive := (live_sublist engine.visible).length_le
      have hcount := engine.indexCount_le
      have hcap := engine.capacity_le
      simp only [compactLoop_eq, StorageEngine.visible_length, List.length_append,
        List.length_drop] at hlive ⊢
      omega }

/--
`storage_compact_index`.  Each record read either advances the write counter or is counted as
dropped; when none is dropped every copy is of a record onto itself.
-/
def storageCompactIndex (env : CallEnv) (world : StorageWorld) : Nat × StorageWorld :=
  if !world.engine.initialized then (0, world)
  else
    let compacted := world.engine.indexCount - (compactLoop world.engine).2
    (compacted,
      if 0 < compacted then persist env { world with engine := world.engine.compact }
      else world)

/-- `storage_delete_event`. -/
def storageDeleteEvent (lib : Libnostr) (env : CallEnv) (world : StorageWorld)
    (eventId : Bytes32) : StorageError × StorageWorld :=
  if !world.engine.initialized then (.notInitialized, world)
  else
    match findIndexEntry world.engine eventId with
    | none => (.notFound, world)
    | some i =>
        let entry := world.engine.visible.getD i StorageIndexEntry.zero
        (.storageOk,
          persist env
            { world with
              engine := world.engine.withVisible
                (world.engine.visible.modify i StorageIndexEntry.markDeleted) (by simp)
              files := unlink env world.files (entry.path lib) })

/-- `storage_stats_t`. -/
structure StorageStats where
  totalEvents : Nat
  totalBytes : UInt32
  freeBytes : UInt32
  oldestEventTs : UInt32
  newestEventTs : UInt32
deriving DecidableEq

/-- The loop of `storage_get_stats`: count, smallest and largest timestamp. -/
def statsLoop (now : UInt32) :
    List StorageIndexEntry → Nat → UInt32 → UInt32 → Nat × UInt32 × UInt32
  | [], total, oldest, newest => (total, oldest, newest)
  | entry :: rest, total, oldest, newest =>
      if entry.isDeleted || entry.isExpired now then statsLoop now rest total oldest newest
      else
        statsLoop now rest (total + 1)
          (if entry.createdAt < oldest then entry.createdAt else oldest)
          (if newest < entry.createdAt then entry.createdAt else newest)

/-- `storage_get_stats`. -/
def storageGetStats (env : CallEnv) (world : StorageWorld) : StorageStats :=
  if !world.engine.initialized then
    ⟨0, 0, 0, 0, 0⟩
  else
    let r := statsLoop env.now world.engine.visible 0 0xFFFFFFFF 0
    { totalEvents := r.1
      totalBytes := env.fsTotal
      freeBytes := env.fsTotal - env.fsUsed
      oldestEventTs := if r.1 = 0 then 0 else r.2.1
      newestEventTs := r.2.2 }

/-! ## Start and stop -/

/-- What mounting the file system does; a mount that fails may format instead. -/
inductive MountOutcome where
  | mounted
  | formatted
  | failed
deriving DecidableEq

/-- What the environment decides in `storage_init`. -/
structure InitEnv where
  mutexOk : Bool
  /-- The index fits into the external memory. -/
  spiramOk : Bool
  callocOk : Bool
  mount : MountOutcome
  read : NvsRead → Bool

/-- How `storage_init` ends. -/
inductive InitResult where
  | espOk
  | espErrNoMem
  | mountError
deriving DecidableEq

/-- The engine before the index is loaded, with `n` zeroed slots. -/
def freshEngine (n : Nat) (ttl : UInt32) (hn : n ≤ storageIndexEntries) :
    StorageEngine where
  index := List.replicate n StorageIndexEntry.zero
  indexCount := 0
  nextFileIndex := 0
  initialized := false
  defaultTtlSec := ttl
  indexCount_le := Nat.zero_le _
  capacity_le := by simpa using hn

/-- `max_index_entries`: all slots in external memory, else 1000 in internal memory. -/
def initCapacity (env : InitEnv) : Nat :=
  if env.spiramOk then storageIndexEntries else 1000

theorem initCapacity_le (env : InitEnv) : initCapacity env ≤ storageIndexEntries := by
  unfold initCapacity storageIndexEntries
  split <;> omega

/-- `storage_init`, with the files and the NVS store found on the flash. -/
def storageInit (env : InitEnv) (ttl : UInt32) (files : Files) (nvs : NvsStore) :
    InitResult × StorageWorld :=
  let unallocated : StorageEngine := freshEngine 0 ttl (Nat.zero_le _)
  if !env.mutexOk then (.espErrNoMem, ⟨unallocated, files, nvs⟩)
  else if !env.spiramOk && !env.callocOk then (.espErrNoMem, ⟨unallocated, files, nvs⟩)
  else
    let fresh := freshEngine (initCapacity env) ttl (initCapacity_le env)
    match env.mount with
    | .failed => (.mountError, ⟨unallocated, files, nvs⟩)
    | mount =>
      let found : Files := if mount = .formatted then fun _ => none else files
      let loaded := loadIndexFromNvs env.read fresh nvs
      let started : StorageEngine :=
        if loaded.1 then loaded.2
        else
          { loaded.2 with
            indexCount := 0
            nextFileIndex := 0
            indexCount_le := Nat.zero_le _ }
      (.espOk, ⟨{ started with initialized := true }, found, nvs⟩)

/-- `storage_destroy`: the index is persisted and released. -/
def storageDestroy (env : CallEnv) (world : StorageWorld) : StorageWorld :=
  if !world.engine.initialized then world
  else
    { persist env world with
      engine := freshEngine 0 world.engine.defaultTtlSec (Nat.zero_le _) }

/-! ## One step of the engine -/

/-- The operations of the engine. -/
inductive StorageCall where
  | save (event : NostrEvent)
  | delete (eventId : Bytes32)
  | get (eventId : Bytes32)
  | eventExists (eventId : Bytes32)
  | query (filter : NostrFilter) (limit : UInt16)
  | purge
  | compact
  | stats
deriving DecidableEq

/-- The type of what an operation returns. -/
def StorageCall.Ret : StorageCall → Type
  | .save _ => StorageError
  | .delete _ => StorageError
  | .get _ => Option NostrEvent
  | .eventExists _ => Bool
  | .query _ _ => StorageError × List NostrEvent
  | .purge => Nat
  | .compact => Nat
  | .stats => StorageStats

/-- Run one operation. -/
def storageCall (lib : Libnostr) (env : CallEnv) (world : StorageWorld) :
    (call : StorageCall) → call.Ret × StorageWorld
  | .save event => storageSaveEvent lib env world event
  | .delete eventId => storageDeleteEvent lib env world eventId
  | .get eventId => (storageGetEvent lib env world eventId, world)
  | .eventExists eventId => (storageEventExists world eventId, world)
  | .query filter limit => storageQueryEvents lib env world filter limit
  | .purge => storagePurgeExpired lib env world
  | .compact => storageCompactIndex env world
  | .stats => (storageGetStats env world, world)

/-- An operation with its environment. -/
structure StorageOp where
  call : StorageCall
  env : CallEnv

/-- An operation with what it returned. -/
abbrev StorageResult := (call : StorageCall) × call.Ret

/-- The event of a save that returned `STORAGE_OK`. -/
def savedEvent : StorageResult → Option NostrEvent
  | ⟨.save event, .storageOk⟩ => some event
  | _ => none

/-- The engine as a machine. -/
def storageStep (lib : Libnostr) (world : StorageWorld) (op : StorageOp) :
    StorageResult × StorageWorld :=
  (⟨op.call, (storageCall lib op.env world op.call).1⟩,
    (storageCall lib op.env world op.call).2)

end Storage
end WispRelay
