import WispRelay.Library.LockedPrograms
import WispRelay.Storage.Engine

/-!
# The storage engine, access by access

The storage functions as programs whose calls are `xSemaphoreTake`, `xSemaphoreGive` and single
accesses to the engine, to a file or to the NVS partition.  The engine is plain memory here: the
array may be indexed anywhere, the counters are 16 bits wide, and an access may be made without the
lock, as that to `initialized` is.

* `Memory`, `MemoryAccess`, `memoryStep`: the memory and what one access does to it.
* `InBounds`: an access does not leave the array.
* `storageBody`: the body of every operation, statement by statement.

The log calls are left out.  `ESP_LOGD` at the end of `storage_save_event` reads the new record
after the lock has been given back; it is compiled out at the log level of `sdkconfig.defaults`.
-/

namespace WispRelay
namespace Storage

open Interference CriticalSections

/-- `storage_engine_t` without the lock, and the flash. -/
structure Memory where
  /-- The array `index` points to, of `max_index_entries` slots. -/
  index : List StorageIndexEntry
  indexCount : UInt16
  nextFileIndex : UInt32
  defaultTtlSec : UInt32
  initialized : Bool
  files : Files
  nvs : NvsStore

/-- An access to the engine, to a file or to the NVS partition. -/
inductive MemoryAccess where
  | indexCount
  | maxIndexEntries
  | nextFileIndex
  | defaultTtlSec
  | initialized
  | setIndexCount (count : UInt16)
  | setNextFileIndex (next : UInt32)
  /-- A read of `engine->index[i]`. -/
  | slot (i : UInt16)
  /-- A write to some fields of `engine->index[i]`. -/
  | writeSlot (i : UInt16) (write : StorageIndexEntry → StorageIndexEntry)
  | readFile (path : CString)
  /-- `fopen(path, "wb")`, which leaves an empty file. -/
  | createFile (path : CString)
  /-- What the file holds after `fclose`. -/
  | closeFile (path : CString) (bytes : List UInt8)
  | unlink (path : CString)
  | nvsOpen
  | nvsSetCount (count : UInt16)
  | nvsSetNextIdx (next : UInt32)
  | nvsSetBlob (chunk : Nat) (blob : List UInt8)
  /-- Whether there was such a key is returned. -/
  | nvsEraseKey (chunk : Nat)

/-- What an access returns. -/
def MemoryAccess.Ret : MemoryAccess → Type
  | indexCount | maxIndexEntries => UInt16
  | nextFileIndex | defaultTtlSec => UInt32
  | initialized => Bool
  | slot _ => StorageIndexEntry
  | readFile _ => Option (List UInt8)
  | nvsEraseKey _ => Bool
  | setIndexCount _ | setNextFileIndex _ | writeSlot _ _ => Unit
  | createFile _ | closeFile _ _ | unlink _ => Unit
  | nvsOpen | nvsSetCount _ | nvsSetNextIdx _ | nvsSetBlob _ _ => Unit

/-- Make one access. -/
def memoryStep : (c : MemoryAccess) → Memory → c.Ret × Memory
  | .indexCount, m => (m.indexCount, m)
  | .maxIndexEntries, m => (UInt16.ofNat m.index.length, m)
  | .nextFileIndex, m => (m.nextFileIndex, m)
  | .defaultTtlSec, m => (m.defaultTtlSec, m)
  | .initialized, m => (m.initialized, m)
  | .setIndexCount count, m => ((), { m with indexCount := count })
  | .setNextFileIndex next, m => ((), { m with nextFileIndex := next })
  | .slot i, m => (m.index.getD i.toNat StorageIndexEntry.zero, m)
  | .writeSlot i write, m => ((), { m with index := m.index.modify i.toNat write })
  | .readFile path, m => (m.files path, m)
  | .createFile path, m => ((), { m with files := Function.update m.files path (some []) })
  | .closeFile path bytes, m =>
      ((), { m with files := Function.update m.files path (some bytes) })
  | .unlink path, m => ((), { m with files := Function.update m.files path none })
  | .nvsOpen, m => ((), { m with nvs := { m.nvs with created := true } })
  | .nvsSetCount count, m => ((), { m with nvs := { m.nvs with count := some count } })
  | .nvsSetNextIdx next, m => ((), { m with nvs := { m.nvs with nextIdx := some next } })
  | .nvsSetBlob chunk blob, m => ((), { m with nvs := m.nvs.setBlob chunk blob })
  | .nvsEraseKey chunk, m => ((m.nvs.idx chunk).isSome, { m with nvs := m.nvs.eraseIdx chunk })

/-- The access does not leave the array, and the counter stays inside it. -/
def InBounds : MemoryAccess → Memory → Prop
  | .slot i, m => i.toNat < m.index.length
  | .writeSlot i _, m => i.toNat < m.index.length
  | .setIndexCount count, m => count.toNat ≤ m.index.length
  | _, _ => True

/-- Accesses in a row, as a storage function makes them inside the lock. -/
abbrev EngineProg := Prog MemoryAccess MemoryAccess.Ret

/-- A storage function, with its calls to the lock of the engine. -/
abbrev EngineBody := LockProg MemoryAccess MemoryAccess.Ret

namespace Accesses

open LockProg

def indexCount : EngineProg UInt16 :=
  Prog.perform MemoryAccess.indexCount

def maxIndexEntries : EngineProg UInt16 :=
  Prog.perform MemoryAccess.maxIndexEntries

def nextFileIndex : EngineProg UInt32 :=
  Prog.perform MemoryAccess.nextFileIndex

def defaultTtlSec : EngineProg UInt32 :=
  Prog.perform MemoryAccess.defaultTtlSec

def slot
    (i : UInt16) : EngineProg StorageIndexEntry :=
  Prog.perform (MemoryAccess.slot i)

def writeSlot
    (i : UInt16)
    (write : StorageIndexEntry → StorageIndexEntry) : EngineProg Unit :=
  Prog.perform (MemoryAccess.writeSlot i write)

/-- `if (!engine->initialized) return other;`, without the lock. -/
def ifInitialized
    {α : Type}
    (other : α)
    (body : EngineBody α) : EngineBody α := do
  let started : Bool ← access MemoryAccess.initialized
  if !started then pure other else body

/-- `xSemaphoreGive(engine->lock); return result;`. -/
def giveAndReturn
    {α : Type}
    (result : α) : EngineBody α := do
  give
  pure result

/-- `unlink`, which may fail. -/
def unlink
    (env : CallEnv)
    (path : CString) : EngineProg Unit :=
  if env.unlinkOk path then Prog.perform (MemoryAccess.unlink path) else pure ()

/-- `for (uint16_t i = 0; i < engine->index_count; i++)`. -/
def forSlots
    {β γ : Type}
    (body : UInt16 → β → EngineProg (Prog.Turn β γ))
    (locals : β) : EngineProg (Prog.Turn β γ) :=
  Prog.counted indexCount 1 body (2 ^ 16) 0 locals

/-! ## Finding, loading and marking -/

/-- One turn of the loop of `find_index_entry`. -/
def findTurn
    (eventId : Bytes32)
    (i : UInt16)
    (_ : Unit) : EngineProg (Prog.Turn Unit UInt16) := do
  let entry ← slot i
  if entry.eventId == eventId then
    let entry ← slot i
    if !entry.isDeleted then pure (.leave i) else pure (.goOn ())
  else
    pure (.goOn ())

/-- `find_index_entry`. -/
def findIndexEntry
    (eventId : Bytes32) : EngineProg (Option UInt16) := do
  match ← forSlots (findTurn eventId) () with
  | .leave i => pure (some i)
  | .goOn () => pure none

/-- `load_event_from_file`. -/
def loadEventFromFile
    (lib : Libnostr)
    (env : CallEnv)
    (path : CString) : EngineProg (Option NostrEvent) := do
  if env.readOk path then
    let found : Option (List UInt8) ← Prog.perform (MemoryAccess.readFile path)
    match found with
    | none => pure none
    | some json =>
        if json.length = 0 ∨ storageMaxEventSize < json.length then pure none
        else pure (lib.eventParse json)
  else
    pure none

/-- `mark_entry_expired`. -/
def markEntryExpired
    (lib : Libnostr)
    (env : CallEnv)
    (i : UInt16) : EngineProg Unit := do
  let entry ← slot i
  unlink env (entry.path lib)
  writeSlot i StorageIndexEntry.markDeleted

/-! ## Persisting the index -/

/-- The records a blob is made of, read one after the other. -/
def readSlots
    (first : UInt16) : Nat → EngineProg (List StorageIndexEntry)
  | 0 => pure []
  | n + 1 => do
      let entries ← readSlots first n
      let entry ← slot (first + UInt16.ofNat n)
      pure (entries ++ [entry])

/-- One turn of the loop that writes the blobs. -/
def chunkTurn
    (outcome : NvsCall → NvsOutcome)
    (i : UInt16)
    (_ : Unit) : EngineProg (Prog.Turn Unit SaveIndexResult) := do
  let chunk := i.toNat / chunkSize
  let count ← indexCount
  let entries ← readSlots i (min (count.toNat - i.toNat) chunkSize)
  match (outcome (.setBlob chunk)).stop with
  | some result => pure (.leave result)
  | none => do
      Prog.perform (MemoryAccess.nvsSetBlob chunk (encodeEntries entries))
      pure (.goOn ())

/-- One turn of the loop that erases stale blobs; a missing key ends it. -/
def eraseTurn
    (outcome : NvsCall → NvsOutcome)
    (chunk : UInt16)
    (_ : Unit) : EngineProg (Prog.Turn Unit (Option SaveIndexResult)) := do
  match outcome (.eraseKey chunk.toNat) with
  | .cut => pure (.leave (some .powerCut))
  | .fail => pure (.goOn ())
  | .ok => do
      let found : Bool ← Prog.perform (MemoryAccess.nvsEraseKey chunk.toNat)
      if found then pure (.goOn ()) else pure (.leave none)

/-- The end of `save_index_to_nvs`, after the blobs. -/
def eraseAndCommit
    (outcome : NvsCall → NvsOutcome)
    (chunks : UInt16) : EngineProg SaveIndexResult := do
  match ← Prog.counted (pure 100) 1 (eraseTurn outcome) (2 ^ 16) chunks () with
  | .leave (some result) => pure result
  | _ => pure ((outcome .commit).stop.getD .storageOk)

/-- `save_index_to_nvs`. -/
def saveIndexToNvs
    (outcome : NvsCall → NvsOutcome) : EngineProg SaveIndexResult := do
  match (outcome .open).stop with
  | some result => pure result
  | none =>
    Prog.perform MemoryAccess.nvsOpen
    let count ← indexCount
    match (outcome .setCount).stop with
    | some result => pure result
    | none =>
      Prog.perform (MemoryAccess.nvsSetCount count)
      let next ← nextFileIndex
      match (outcome .setNextIdx).stop with
      | some result => pure result
      | none =>
        Prog.perform (MemoryAccess.nvsSetNextIdx next)
        let count ← indexCount
        match ← Prog.counted indexCount 50 (chunkTurn outcome) (2 ^ 16) 0 () with
        | .leave result => pure result
        | .goOn () => eraseAndCommit outcome (UInt16.ofNat (numChunks count.toNat))

/-! ## Saving -/

/-- The assignments to the fields of the new record. -/
def fillSlot
    (lib : Libnostr)
    (env : CallEnv)
    (event : NostrEvent) : EngineProg Unit := do
  let i ← indexCount
  writeSlot i fun entry => { entry with eventId := event.id }
  writeSlot i fun entry => { entry with createdAt := uint32OfInt64 event.createdAt }
  writeSlot i fun entry => { entry with kind := event.kind }
  writeSlot i fun entry =>
    { entry with pubkeyPrefix := bytesVector 4 (event.pubkey.toList.take 4) }
  let fileIndex ← nextFileIndex
  writeSlot i fun entry => { entry with fileIndex := fileIndex }
  writeSlot i fun entry => { entry with flags := 0 }
  let ttl ← defaultTtlSec
  writeSlot i fun entry => { entry with expiresAt := env.now + ttl }
  let nip40Exp := lib.eventGetExpiration event
  if 0 < nip40Exp then
    let entry ← slot i
    if uint32OfInt64 nip40Exp < entry.expiresAt then
      writeSlot i fun entry => { entry with expiresAt := uint32OfInt64 nip40Exp }
    else
      pure ()
  else
    pure ()

/-- The new record is counted, and every tenth time the index is persisted. -/
def countSlot
    (env : CallEnv) : EngineProg Unit := do
  let count ← indexCount
  Prog.perform (MemoryAccess.setIndexCount (count + 1))
  let next ← nextFileIndex
  Prog.perform (MemoryAccess.setNextFileIndex (next + 1))
  let count ← indexCount
  if count % 10 = 0 then
    let _ ← saveIndexToNvs env.nvs
    pure ()
  else
    pure ()

/-- The file is written, then the record. -/
def writeEvent
    (lib : Libnostr)
    (env : CallEnv)
    (event : NostrEvent)
    (json : List UInt8) : EngineBody StorageError := do
  let fileIndex ← accessing nextFileIndex
  let path := getEventPath lib event.id fileIndex
  if !env.fopenOk && !env.fopenRetryOk then giveAndReturn .io
  else
    access (MemoryAccess.createFile path)
    let written := min (env.fwriteShort.getD json.length) json.length
    access (MemoryAccess.closeFile path (json.take (min (env.fcloseShort.getD written) written)))
    if written ≠ json.length then
      accessing (unlink env path)
      giveAndReturn .io
    else
      accessing (fillSlot lib env event)
      accessing (countSlot env)
      giveAndReturn .storageOk

/-- `storage_save_event`. -/
def storageSaveEvent
    (lib : Libnostr)
    (env : CallEnv)
    (event : NostrEvent) : EngineBody StorageError :=
  ifInitialized .notInitialized do
    take
    match ← accessing (findIndexEntry event.id) with
    | some _ => giveAndReturn .duplicate
    | none =>
      let count ← accessing indexCount
      let capacity ← accessing maxIndexEntries
      if capacity ≤ count then giveAndReturn .full
      else if !env.mallocOk then giveAndReturn .noMem
      else
        match if env.serializeOk then lib.eventSerialize event storageMaxEventSize else none with
        | none => giveAndReturn .serialize
        | some json => writeEvent lib env event json

/-! ## Queries -/

/-- One turn of the scan of `storage_query_events`, with the results found so far. -/
def queryTurn
    (lib : Libnostr)
    (env : CallEnv)
    (filter : NostrFilter)
    (i : UInt16)
    (events : List NostrEvent) : EngineProg (List NostrEvent) := do
  let entry ← slot i
  if entry.isDeleted then pure events
  else
    let entry ← slot i
    if entry.isExpired env.now then
      markEntryExpired lib env i
      pure events
    else
      let entry ← slot i
      if !indexMatchesFilter lib entry filter then pure events
      else
        let entry ← slot i
        match ← loadEventFromFile lib env (entry.path lib) with
        | none => pure events
        | some event =>
            pure (if lib.filterMatches filter event then events ++ [event] else events)

/-- `for (int i = remaining - 1; i >= 0 && *count < limit; i--)`. -/
def queryLoop
    (lib : Libnostr)
    (env : CallEnv)
    (filter : NostrFilter)
    (limit : Nat) : Nat → List NostrEvent → EngineProg (List NostrEvent)
  | 0, events => pure events
  | i + 1, events => do
      if limit ≤ events.length then pure events
      else
        let events ← queryTurn lib env filter (UInt16.ofNat i) events
        queryLoop lib env filter limit i events

/-- `storage_query_events`; the results are allocated before the lock is taken. -/
def storageQueryEvents
    (lib : Libnostr)
    (env : CallEnv)
    (filter : NostrFilter)
    (limit : UInt16) : EngineBody (StorageError × List NostrEvent) :=
  ifInitialized (.notInitialized, []) do
    if !env.mallocOk then pure (.noMem, [])
    else
      take
      let count ← accessing indexCount
      let events ← accessing (queryLoop lib env filter (queryLimit limit) count.toNat [])
      giveAndReturn (.storageOk, events)

/-- `storage_event_exists`. -/
def storageEventExists
    (eventId : Bytes32) : EngineBody Bool :=
  ifInitialized false do
    take
    let found ← accessing (findIndexEntry eventId)
    giveAndReturn found.isSome

/-- `storage_get_event`. -/
def storageGetEvent
    (lib : Libnostr)
    (env : CallEnv)
    (eventId : Bytes32) : EngineBody (Option NostrEvent) :=
  ifInitialized none do
    take
    match ← accessing (findIndexEntry eventId) with
    | none => giveAndReturn none
    | some i =>
      let entry ← accessing (slot i)
      let event ← accessing (loadEventFromFile lib env (entry.path lib))
      giveAndReturn event

/-- One turn of the loop of `storage_get_stats`: count, smallest and largest timestamp. -/
def statsTurn
    (env : CallEnv)
    (i : UInt16)
    (stats : Nat × UInt32 × UInt32) :
    EngineProg (Prog.Turn (Nat × UInt32 × UInt32) Empty) := do
  let entry ← slot i
  if entry.isDeleted then pure (.goOn stats)
  else
    let entry ← slot i
    if entry.isExpired env.now then pure (.goOn stats)
    else
      let entry ← slot i
      let oldest := if entry.createdAt < stats.2.1 then entry.createdAt else stats.2.1
      let entry ← slot i
      let newest := if stats.2.2 < entry.createdAt then entry.createdAt else stats.2.2
      pure (.goOn (stats.1 + 1, oldest, newest))

/-- `storage_get_stats`. -/
def storageGetStats
    (env : CallEnv) : EngineBody StorageStats :=
  ifInitialized ⟨0, 0, 0, 0, 0⟩ do
    take
    match ← accessing (forSlots (statsTurn env) (0, 0xFFFFFFFF, 0)) with
    | .leave never => nomatch never
    | .goOn (total, oldest, newest) =>
      giveAndReturn
        { totalEvents := total
          totalBytes := env.fsTotal
          freeBytes := env.fsTotal - env.fsUsed
          oldestEventTs := if total = 0 then 0 else oldest
          newestEventTs := newest }

/-! ## Expiry, compaction and deletion -/

/-- One turn of the loop of `storage_purge_expired`. -/
def purgeTurn
    (lib : Libnostr)
    (env : CallEnv)
    (i : UInt16)
    (purged : Nat) : EngineProg (Prog.Turn Nat Empty) := do
  let entry ← slot i
  if entry.isDeleted then pure (.goOn purged)
  else
    let entry ← slot i
    if entry.isExpired env.now then
      markEntryExpired lib env i
      pure (.goOn (purged + 1))
    else
      pure (.goOn purged)

/-- `storage_purge_expired`. -/
def storagePurgeExpired
    (lib : Libnostr)
    (env : CallEnv) : EngineBody Nat :=
  ifInitialized 0 do
    take
    match ← accessing (forSlots (purgeTurn lib env) 0) with
    | .leave never => nomatch never
    | .goOn purged =>
      if 0 < purged then
        let _ ← accessing (saveIndexToNvs env.nvs)
        giveAndReturn purged
      else
        giveAndReturn purged

/-- One turn of the loop of `storage_compact_index`: write counter and records dropped. -/
def compactTurn
    (readIdx : UInt16)
    (locals : UInt16 × Nat) : EngineProg (Prog.Turn (UInt16 × Nat) Empty) := do
  let entry ← slot readIdx
  if !entry.isDeleted then
    if locals.1 ≠ readIdx then
      let entry ← slot readIdx
      writeSlot locals.1 fun _ => entry
      pure (.goOn (locals.1 + 1, locals.2))
    else
      pure (.goOn (locals.1 + 1, locals.2))
  else
    pure (.goOn (locals.1, locals.2 + 1))

/-- `storage_compact_index`. -/
def storageCompactIndex
    (env : CallEnv) : EngineBody Nat :=
  ifInitialized 0 do
    take
    match ← accessing (forSlots compactTurn (0, 0)) with
    | .leave never => nomatch never
    | .goOn (writeIdx, compacted) =>
      if 0 < compacted then
        access (MemoryAccess.setIndexCount writeIdx)
        let _ ← accessing (saveIndexToNvs env.nvs)
        giveAndReturn compacted
      else
        giveAndReturn compacted

/-- `storage_delete_event`. -/
def storageDeleteEvent
    (lib : Libnostr)
    (env : CallEnv)
    (eventId : Bytes32) : EngineBody StorageError :=
  ifInitialized .notInitialized do
    take
    match ← accessing (findIndexEntry eventId) with
    | none => giveAndReturn .notFound
    | some i =>
      let entry ← accessing (slot i)
      accessing (unlink env (entry.path lib))
      accessing (writeSlot i StorageIndexEntry.markDeleted)
      let _ ← accessing (saveIndexToNvs env.nvs)
      giveAndReturn .storageOk

end Accesses

/-- The function an operation calls. -/
def storageBody
    (lib : Libnostr) : (call : StorageCall) → CallEnv → EngineBody call.Ret
  | .save event, env => Accesses.storageSaveEvent lib env event
  | .delete eventId, env => Accesses.storageDeleteEvent lib env eventId
  | .get eventId, env => Accesses.storageGetEvent lib env eventId
  | .eventExists eventId, _ => Accesses.storageEventExists eventId
  | .query filter limit, env => Accesses.storageQueryEvents lib env filter limit
  | .purge, env => Accesses.storagePurgeExpired lib env
  | .compact, env => Accesses.storageCompactIndex env
  | .stats, env => Accesses.storageGetStats env

end Storage
end WispRelay
