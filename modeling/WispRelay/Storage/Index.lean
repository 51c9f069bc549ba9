import WispRelay.Library.FixedWidth
import WispRelay.Nostr.Libnostr

/-!
# The event index

The engine keeps an array of `max_index_entries` packed records, of which the first
`index_count` are in use, and one file per event.  A record is removed by setting its deleted
flag; only compaction makes the array shorter.

`StorageEngine` carries the two facts every loop over the array relies on: the used part lies
inside the array, and the array is no longer than `STORAGE_INDEX_ENTRIES`, so that the 16-bit
loop counters of the code never wrap.

`visible` is the used part and `live` its records without the deleted flag; later modules
speak of these two lists and not of the array.
-/

namespace WispRelay
namespace Storage

/-- `STORAGE_MAX_EVENT_SIZE`. -/
def storageMaxEventSize : Nat := 8192

/-- `STORAGE_INDEX_ENTRIES`. -/
def storageIndexEntries : Nat := 5000

/-- `STORAGE_FLAG_DELETED`. -/
def storageFlagDeleted : UInt8 := 0x01

/-- `storage_index_entry_t`. -/
structure StorageIndexEntry where
  eventId : Bytes32
  createdAt : UInt32
  expiresAt : UInt32
  fileIndex : UInt32
  kind : UInt16
  pubkeyPrefix : Vector UInt8 4
  flags : UInt8
  reserved : UInt8
deriving DecidableEq

namespace StorageIndexEntry

/-- A slot as `calloc` leaves it. -/
def zero : StorageIndexEntry where
  eventId := Vector.replicate 32 0
  createdAt := 0
  expiresAt := 0
  fileIndex := 0
  kind := 0
  pubkeyPrefix := Vector.replicate 4 0
  flags := 0
  reserved := 0

/-- `entry->flags & STORAGE_FLAG_DELETED`. -/
def isDeleted (entry : StorageIndexEntry) : Bool :=
  entry.flags &&& storageFlagDeleted != 0

/-- `entry->flags |= STORAGE_FLAG_DELETED`. -/
def markDeleted (entry : StorageIndexEntry) : StorageIndexEntry :=
  { entry with flags := entry.flags ||| storageFlagDeleted }

/-- `entry->expires_at > 0 && entry->expires_at < now`. -/
def isExpired (entry : StorageIndexEntry) (now : UInt32) : Bool :=
  0 < entry.expiresAt && entry.expiresAt < now

@[simp] theorem markDeleted_eventId (entry : StorageIndexEntry) :
    entry.markDeleted.eventId = entry.eventId := rfl

@[simp] theorem markDeleted_fileIndex (entry : StorageIndexEntry) :
    entry.markDeleted.fileIndex = entry.fileIndex := rfl

@[simp] theorem markDeleted_expiresAt (entry : StorageIndexEntry) :
    entry.markDeleted.expiresAt = entry.expiresAt := rfl

@[simp] theorem isDeleted_markDeleted (entry : StorageIndexEntry) :
    entry.markDeleted.isDeleted = true := by
  have hbit : (entry.flags ||| 1) &&& 1 = (1 : UInt8) := by
    apply UInt8.toBitVec_inj.mp
    ext i hi
    simp only [UInt8.toBitVec_or, UInt8.toBitVec_and, BitVec.getElem_and, BitVec.getElem_or]
    cases h : (UInt8.toBitVec 1)[i] <;> simp
  simp [isDeleted, markDeleted, storageFlagDeleted, hbit]

/-- Once expired, a record stays expired as the clock advances. -/
theorem isExpired_mono {entry : StorageIndexEntry} {t now : UInt32} (hle : t ≤ now)
    (h : entry.isExpired t = true) : entry.isExpired now = true := by
  simp only [isExpired, Bool.and_eq_true, decide_eq_true_eq] at h ⊢
  refine ⟨h.1, ?_⟩
  have h2 := UInt32.lt_iff_toNat_lt.mp h.2
  have h3 := UInt32.le_iff_toNat_le.mp hle
  exact UInt32.lt_iff_toNat_lt.mpr (by omega)

/-- What has not expired had not expired before. -/
theorem unexpired_before {entry : StorageIndexEntry} {t now : UInt32} (hle : t ≤ now)
    (h : entry.isExpired now = false) : entry.isExpired t = false := by
  by_contra hexpired
  rw [isExpired_mono hle (by simpa using hexpired)] at h
  cases h

end StorageIndexEntry

/-- `storage_engine_t`, without the lock, the cleanup task and the mount point. -/
structure StorageEngine where
  index : List StorageIndexEntry
  indexCount : Nat
  nextFileIndex : UInt32
  initialized : Bool
  defaultTtlSec : UInt32
  indexCount_le : indexCount ≤ index.length
  capacity_le : index.length ≤ storageIndexEntries

namespace StorageEngine

/-- `max_index_entries`: the length of the allocated array. -/
def maxIndexEntries (engine : StorageEngine) : Nat := engine.index.length

/-- The records in use, oldest first. -/
def visible (engine : StorageEngine) : List StorageIndexEntry :=
  engine.index.take engine.indexCount

@[simp] theorem visible_length (engine : StorageEngine) :
    engine.visible.length = engine.indexCount := by
  simp [visible, engine.indexCount_le]

/-- Overwrite the records in use by as many others. -/
def withVisible (engine : StorageEngine) (entries : List StorageIndexEntry)
    (hlen : entries.length = engine.indexCount) : StorageEngine :=
  { engine with
    index := entries ++ engine.index.drop engine.indexCount
    indexCount_le := by simp [hlen]
    capacity_le := by
      have hcount := engine.indexCount_le
      have hcap := engine.capacity_le
      simp only [List.length_append, List.length_drop, hlen]
      omega }

@[simp] theorem visible_withVisible (engine : StorageEngine)
    (entries : List StorageIndexEntry) (hlen : entries.length = engine.indexCount) :
    (engine.withVisible entries hlen).visible = entries := by
  simp [withVisible, visible, ← hlen]

/-- Overwriting the records in use by themselves. -/
theorem withVisible_visible (engine : StorageEngine)
    (hlen : engine.visible.length = engine.indexCount) :
    engine.withVisible engine.visible hlen = engine := by
  have hindex : engine.visible ++ engine.index.drop engine.indexCount = engine.index :=
    List.take_append_drop _ _
  simp only [withVisible, hindex]

@[simp] theorem withVisible_maxIndexEntries (engine : StorageEngine)
    (entries : List StorageIndexEntry) (hlen : entries.length = engine.indexCount) :
    (engine.withVisible entries hlen).maxIndexEntries = engine.maxIndexEntries := by
  have hcount := engine.indexCount_le
  simp only [withVisible, maxIndexEntries, List.length_append, List.length_drop, hlen]
  omega

@[simp] theorem withVisible_indexCount (engine : StorageEngine)
    (entries : List StorageIndexEntry) (hlen : entries.length = engine.indexCount) :
    (engine.withVisible entries hlen).indexCount = engine.indexCount := rfl

@[simp] theorem withVisible_nextFileIndex (engine : StorageEngine)
    (entries : List StorageIndexEntry) (hlen : entries.length = engine.indexCount) :
    (engine.withVisible entries hlen).nextFileIndex = engine.nextFileIndex := rfl

/-- The 16-bit counters of the loops over the index stay below `2 ^ 16`. -/
theorem indexCount_add_chunk_lt (engine : StorageEngine) :
    engine.indexCount + 50 < 2 ^ 16 := by
  have hcount := engine.indexCount_le
  have hcap := engine.capacity_le
  simp only [storageIndexEntries] at hcap
  omega

end StorageEngine

/-- The records without the deleted flag. -/
def live (entries : List StorageIndexEntry) : List StorageIndexEntry :=
  entries.filter (fun entry => !entry.isDeleted)

section Live

@[simp] theorem live_nil : live [] = [] := rfl

@[simp] theorem live_append (xs ys : List StorageIndexEntry) :
    live (xs ++ ys) = live xs ++ live ys := by
  simp [live]

theorem live_cons (entry : StorageIndexEntry) (entries : List StorageIndexEntry) :
    live (entry :: entries) =
      if entry.isDeleted then live entries else entry :: live entries := by
  by_cases h : entry.isDeleted <;> simp [live, h]

@[simp] theorem live_reverse (entries : List StorageIndexEntry) :
    live entries.reverse = (live entries).reverse := by
  simp [live, List.filter_reverse]

@[simp] theorem live_live (entries : List StorageIndexEntry) :
    live (live entries) = live entries := by
  simp [live]

theorem mem_live {entry : StorageIndexEntry} {entries : List StorageIndexEntry} :
    entry ∈ live entries ↔ entry ∈ entries ∧ entry.isDeleted = false := by
  simp [live]

theorem live_sublist (entries : List StorageIndexEntry) :
    (live entries).Sublist entries :=
  List.filter_sublist

end Live

/-- `EVENTS_DIR`. -/
def eventsDir : CString := ascii "/littlefs/events"

/-- `get_event_path`. -/
def getEventPath (lib : Libnostr) (eventId : Bytes32) (fileIndex : UInt32) : CString :=
  eventsDir ++ ascii "/" ++ FixedWidth.hexFixed 2 eventId[0].toNat ++ ascii "/" ++
    lib.bytesToHex (eventId.toList.take 16) ++ ascii "_" ++
    FixedWidth.hexFixed 8 fileIndex.toNat ++ ascii ".bin"

/-- The running number can be read off a path, whatever the identifiers are. -/
theorem getEventPath_fileIndex {lib : Libnostr} {id id' : Bytes32} {n n' : UInt32}
    (h : getEventPath lib id n = getEventPath lib id' n') : n = n' := by
  unfold getEventPath at h
  have hpre := List.append_cancel_right h
  have hdigits := (List.append_inj' hpre (by simp)).2
  exact FixedWidth.hexFixed_uint32_injective hdigits

/-- The path of the file of a record. -/
def StorageIndexEntry.path (lib : Libnostr) (entry : StorageIndexEntry) : CString :=
  getEventPath lib entry.eventId entry.fileIndex

@[simp] theorem StorageIndexEntry.path_markDeleted (lib : Libnostr)
    (entry : StorageIndexEntry) : entry.markDeleted.path lib = entry.path lib := rfl

/-- `find_index_entry`: the position of the first live record with the identifier. -/
def findIndexEntry (engine : StorageEngine) (eventId : Bytes32) : Option Nat :=
  engine.visible.findIdx? (fun entry => entry.eventId == eventId && !entry.isDeleted)

/-- The record at the position `findIndexEntry` returns. -/
def foundEntry (engine : StorageEngine) (eventId : Bytes32) : Option StorageIndexEntry :=
  engine.visible.find? (fun entry => entry.eventId == eventId && !entry.isDeleted)

/-- The first live record with an identifier, read from the list of live records. -/
theorem foundEntry_eq_find_live (engine : StorageEngine) (eventId : Bytes32) :
    foundEntry engine eventId =
      (live engine.visible).find? (fun entry => entry.eventId == eventId) := by
  unfold foundEntry live
  rw [List.find?_filter]
  congr 1
  funext entry
  rw [Bool.and_comm, Bool.decide_and, Bool.decide_eq_true, Bool.decide_eq_true]

/-- The pointer `find_index_entry` returns points at the record `foundEntry`. -/
theorem findIndexEntry_eq (engine : StorageEngine) (eventId : Bytes32) :
    (findIndexEntry engine eventId).bind (engine.visible[·]?) =
      foundEntry engine eventId := by
  unfold findIndexEntry foundEntry
  cases hidx : engine.visible.findIdx?
      (fun entry => entry.eventId == eventId && !entry.isDeleted) with
  | none =>
      rw [List.findIdx?_eq_none_iff] at hidx
      simp only [Option.bind_none]
      symm
      rw [List.find?_eq_none]
      intro entry hmem
      rw [hidx entry hmem]
      decide
  | some i =>
      obtain ⟨hlt, hp, hmin⟩ := List.findIdx?_eq_some_iff_getElem.mp hidx
      simp only [Option.bind_some, List.getElem?_eq_getElem hlt]
      symm
      rw [List.find?_eq_some_iff_getElem]
      refine ⟨hp, i, hlt, rfl, ?_⟩
      intro j hj
      rw [Bool.not_eq_true', ← Bool.not_eq_true]
      exact hmin j hj

theorem findIndexEntry_isSome (engine : StorageEngine) (eventId : Bytes32) :
    (findIndexEntry engine eventId).isSome = (foundEntry engine eventId).isSome := by
  rw [findIndexEntry, foundEntry, List.findIdx?_isSome, Bool.eq_iff_iff,
    List.find?_isSome, List.any_eq_true]

end Storage
end WispRelay
