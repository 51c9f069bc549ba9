import WispRelay.Storage.Index

/-!
# The persisted index

`save_index_to_nvs` writes the record count, the next running number and the records in blobs
of 50 (`idx_0`, `idx_1`, ...), then erases blobs of an earlier, longer index and commits;
`load_index_from_nvs` reads the same keys back and refuses a blob of the wrong length.

Every NVS call is one step with an outcome of its own: it succeeds, it fails, or power is cut
before it takes effect.  A call that succeeded is durable, with or without the final commit.
-/

namespace WispRelay
namespace Storage

/-! ## The memory image of a record -/

/-- `sizeof(storage_index_entry_t)`: the record is packed. -/
def entrySize : Nat := 52

/-- The bytes of a record in memory. -/
def encodeEntry (entry : StorageIndexEntry) : List UInt8 :=
  entry.eventId.toList ++ (FixedWidth.leBytes 4 entry.createdAt.toNat ++
    (FixedWidth.leBytes 4 entry.expiresAt.toNat ++
      (FixedWidth.leBytes 4 entry.fileIndex.toNat ++
        (FixedWidth.leBytes 2 entry.kind.toNat ++
          (entry.pubkeyPrefix.toList ++ ([entry.flags] ++ [entry.reserved]))))))

/-- The record held by `entrySize` bytes of memory. -/
def decodeEntry (bytes : List UInt8) : StorageIndexEntry :=
  let afterId := bytes.drop 32
  let afterCreated := afterId.drop 4
  let afterExpires := afterCreated.drop 4
  let afterFile := afterExpires.drop 4
  let afterKind := afterFile.drop 2
  let afterPrefix := afterKind.drop 4
  { eventId := bytesVector 32 (bytes.take 32)
    createdAt := UInt32.ofNat (FixedWidth.leValue (afterId.take 4))
    expiresAt := UInt32.ofNat (FixedWidth.leValue (afterCreated.take 4))
    fileIndex := UInt32.ofNat (FixedWidth.leValue (afterExpires.take 4))
    kind := UInt16.ofNat (FixedWidth.leValue (afterFile.take 2))
    pubkeyPrefix := bytesVector 4 (afterKind.take 4)
    flags := afterPrefix.headD 0
    reserved := (afterPrefix.drop 1).headD 0 }

@[simp] theorem encodeEntry_length (entry : StorageIndexEntry) :
    (encodeEntry entry).length = entrySize := by
  simp [encodeEntry, entrySize]

theorem uint32_leBytes (x : UInt32) :
    UInt32.ofNat (FixedWidth.leValue (FixedWidth.leBytes 4 x.toNat)) = x := by
  rw [FixedWidth.leValue_leBytes, Nat.mod_eq_of_lt (by simpa using x.toNat_lt)]
  exact UInt32.ofNat_toNat

theorem uint16_leBytes (x : UInt16) :
    UInt16.ofNat (FixedWidth.leValue (FixedWidth.leBytes 2 x.toNat)) = x := by
  rw [FixedWidth.leValue_leBytes, Nat.mod_eq_of_lt (by simpa using x.toNat_lt)]
  exact UInt16.ofNat_toNat

/-- A record is read back from its memory image. -/
@[simp] theorem decodeEntry_encodeEntry (entry : StorageIndexEntry) :
    decodeEntry (encodeEntry entry) = entry := by
  simp [decodeEntry, encodeEntry, List.take_left', List.drop_left', uint32_leBytes,
    uint16_leBytes]

/-- The bytes of consecutive records. -/
def encodeEntries (entries : List StorageIndexEntry) : List UInt8 :=
  entries.flatMap encodeEntry

/-- The first `n` records held by a byte array. -/
def decodeEntries : Nat → List UInt8 → List StorageIndexEntry
  | 0, _ => []
  | n + 1, bytes =>
      decodeEntry (bytes.take entrySize) :: decodeEntries n (bytes.drop entrySize)

@[simp] theorem decodeEntries_length (n : Nat) (bytes : List UInt8) :
    (decodeEntries n bytes).length = n := by
  induction n generalizing bytes with
  | zero => rfl
  | succ n ih => simp [decodeEntries, ih]

@[simp] theorem encodeEntries_length (entries : List StorageIndexEntry) :
    (encodeEntries entries).length = entries.length * entrySize := by
  induction entries with
  | nil => rfl
  | cons entry rest ih =>
      simp only [encodeEntries, List.flatMap_cons, List.length_append] at ih ⊢
      rw [ih, encodeEntry_length, List.length_cons, Nat.succ_mul, Nat.add_comm]

/-- Consecutive records are read back from their memory image. -/
@[simp] theorem decodeEntries_encodeEntries (entries : List StorageIndexEntry) :
    decodeEntries entries.length (encodeEntries entries) = entries := by
  induction entries with
  | nil => rfl
  | cons entry rest ih =>
      have hsplit : encodeEntries (entry :: rest) =
          encodeEntry entry ++ encodeEntries rest := by
        simp [encodeEntries]
      rw [hsplit, List.length_cons, decodeEntries,
        List.take_left' (encodeEntry_length entry),
        List.drop_left' (encodeEntry_length entry), decodeEntry_encodeEntry, ih]

/-! ## The store -/

/-- The keys of the namespace `nostr_idx`; `idx n` is the key `idx_n`. -/
structure NvsStore where
  /-- Whether the namespace exists: a read-only open of a missing one reports not found. -/
  created : Bool
  count : Option UInt16
  nextIdx : Option UInt32
  idx : Nat → Option (List UInt8)

namespace NvsStore

/-- A store without the namespace. -/
def erased : NvsStore where
  created := false
  count := none
  nextIdx := none
  idx := fun _ => none

/-- `nvs_set_blob` on `idx_chunk`. -/
def setBlob (nvs : NvsStore) (chunk : Nat) (blob : List UInt8) : NvsStore :=
  { nvs with idx := Function.update nvs.idx chunk (some blob) }

/-- `nvs_erase_key` on `idx_chunk`. -/
def eraseIdx (nvs : NvsStore) (chunk : Nat) : NvsStore :=
  { nvs with idx := Function.update nvs.idx chunk none }

end NvsStore

/-- The NVS calls `save_index_to_nvs` makes. -/
inductive NvsCall where
  | open
  | setCount
  | setNextIdx
  | setBlob (chunk : Nat)
  | eraseKey (chunk : Nat)
  | commit
deriving DecidableEq

/-- What becomes of an NVS call. -/
inductive NvsOutcome where
  | ok
  | fail
  | cut
deriving DecidableEq

/-- How `save_index_to_nvs` ends. -/
inductive SaveIndexResult where
  | storageOk
  | storageErrIo
  | powerCut
deriving DecidableEq, Repr

/-- How the function ends early because of the outcome of a call that is checked. -/
def NvsOutcome.stop : NvsOutcome → Option SaveIndexResult
  | .ok => none
  | .fail => some .storageErrIo
  | .cut => some .powerCut

/-- `chunk_size`. -/
def chunkSize : Nat := 50

/-- `num_chunks`. -/
def numChunks (count : Nat) : Nat := (count + chunkSize - 1) / chunkSize

/-- The records of one blob: at most `chunkSize` from position `chunk * chunkSize`. -/
def chunkOf (entries : List StorageIndexEntry) (chunk : Nat) : List StorageIndexEntry :=
  (entries.drop (chunkSize * chunk)).take chunkSize

/-- The loop that writes the blobs, with the number of blobs still to write. -/
def writeChunks (outcome : NvsCall → NvsOutcome) (entries : List StorageIndexEntry) :
    Nat → Nat → NvsStore → Option SaveIndexResult × NvsStore
  | 0, _, nvs => (none, nvs)
  | remaining + 1, chunk, nvs =>
      match (outcome (.setBlob chunk)).stop with
      | some result => (some result, nvs)
      | none =>
          writeChunks outcome entries remaining (chunk + 1)
            (nvs.setBlob chunk (encodeEntries (chunkOf entries chunk)))

/--
The loop that erases the blobs of a longer index.  It ends at the first missing key; a failed
erase is only logged.
-/
def eraseStale (outcome : NvsCall → NvsOutcome) :
    Nat → Nat → NvsStore → Option SaveIndexResult × NvsStore
  | 0, _, nvs => (none, nvs)
  | remaining + 1, chunk, nvs =>
      match outcome (.eraseKey chunk) with
      | .cut => (some .powerCut, nvs)
      | .fail => eraseStale outcome remaining (chunk + 1) nvs
      | .ok =>
          if (nvs.idx chunk).isNone then (none, nvs)
          else eraseStale outcome remaining (chunk + 1) (nvs.eraseIdx chunk)

/-- `save_index_to_nvs`. -/
def saveIndexToNvs (outcome : NvsCall → NvsOutcome) (engine : StorageEngine)
    (nvs : NvsStore) : SaveIndexResult × NvsStore :=
  match (outcome .open).stop with
  | some result => (result, nvs)
  | none =>
    let opened := { nvs with created := true }
    match (outcome .setCount).stop with
    | some result => (result, opened)
    | none =>
      let counted := { opened with count := some (UInt16.ofNat engine.indexCount) }
      match (outcome .setNextIdx).stop with
      | some result => (result, counted)
      | none =>
        let numbered := { counted with nextIdx := some engine.nextFileIndex }
        match writeChunks outcome engine.visible (numChunks engine.indexCount) 0 numbered with
        | (some result, written) => (result, written)
        | (none, written) =>
          match eraseStale outcome (100 - numChunks engine.indexCount)
              (numChunks engine.indexCount) written with
          | (some result, trimmed) => (result, trimmed)
          | (none, trimmed) =>
            match (outcome .commit).stop with
            | some result => (result, trimmed)
            | none => (.storageOk, trimmed)

/-- The NVS calls `load_index_from_nvs` makes. -/
inductive NvsRead where
  | open
  | count
  | nextIdx
  | blob (chunk : Nat)
deriving DecidableEq

/-- The number of records the loader expects in a blob. -/
def chunkEntries (count chunk : Nat) : Nat := min chunkSize (count - chunkSize * chunk)

/--
The loop that reads the blobs, with the number of blobs still to read and the records read so
far.  `nvs_get_blob` refuses a blob longer than the buffer and the loader refuses a shorter
one, so that a blob is accepted exactly when its length is the expected one.  A shorter blob is
dropped whole: by then `nvs_get_blob` has copied its bytes into the slots, but `storage_init` takes
these out of use, and a save sets every field of a slot but `reserved`, which nothing reads.
-/
def readChunks (readOk : NvsRead → Bool) (nvs : NvsStore) (count : Nat) :
    Nat → Nat → List StorageIndexEntry → Bool × List StorageIndexEntry
  | 0, _, entries => (true, entries)
  | remaining + 1, chunk, entries =>
      match if readOk (.blob chunk) then nvs.idx chunk else none with
      | none => (false, entries)
      | some blob =>
          if blob.length = chunkEntries count chunk * entrySize then
            readChunks readOk nvs count remaining (chunk + 1)
              (entries ++ decodeEntries (chunkEntries count chunk) blob)
          else
            (false, entries)

/-- The records read never go past the count. -/
theorem readChunks_length_le (readOk : NvsRead → Bool) (nvs : NvsStore) (count : Nat) :
    ∀ (remaining chunk : Nat) (entries : List StorageIndexEntry),
      entries.length ≤ min count (chunkSize * chunk) →
      (readChunks readOk nvs count remaining chunk entries).2.length ≤ count := by
  intro remaining
  induction remaining with
  | zero =>
      intro chunk entries hlen
      simp only [readChunks]
      omega
  | succ remaining ih =>
      intro chunk entries hlen
      unfold readChunks
      split
      · simp only
        omega
      · split
        · apply ih
          simp only [List.length_append, decodeEntries_length, chunkEntries, chunkSize,
            Nat.mul_succ] at hlen ⊢
          omega
        · simp only
          omega

/-- `load_index_from_nvs`: whether it returned `STORAGE_OK`, and the engine it leaves. -/
def loadIndexFromNvs (readOk : NvsRead → Bool) (engine : StorageEngine)
    (nvs : NvsStore) : Bool × StorageEngine :=
  if !readOk .open then (false, engine)
  else if !nvs.created then (true, engine)
  else
    match if readOk .count then nvs.count else none with
    | none => (false, engine)
    | some stored =>
      let count := min stored.toNat engine.maxIndexEntries
      let counted : StorageEngine :=
        { engine with
          indexCount := count
          indexCount_le := Nat.min_le_right _ _ }
      match if readOk .nextIdx then nvs.nextIdx else none with
      | none => (false, counted)
      | some next =>
        let read := readChunks readOk nvs count (numChunks count) 0 []
        have hread : read.2.length ≤ count :=
          readChunks_length_le readOk nvs count (numChunks count) 0 [] (by simp)
        have hcount : count ≤ engine.index.length := Nat.min_le_right _ _
        (read.1,
          { engine with
            index := read.2 ++ engine.index.drop read.2.length
            indexCount := count
            nextFileIndex := next
            indexCount_le := by
              simp only [List.length_append, List.length_drop]
              omega
            capacity_le := by
              have hcap := engine.capacity_le
              simp only [List.length_append, List.length_drop]
              omega })

end Storage
end WispRelay
