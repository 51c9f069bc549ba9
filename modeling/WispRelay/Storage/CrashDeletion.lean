import WispRelay.Storage.AtomicSave
import WispRelay.Storage.QueryResults
import WispRelay.Storage.Refinement
import WispRelay.Storage.Restart

/-!
# A deletion that power interrupts

`storage_delete_event` unlinks the file first and then saves the index with the deleted flag
set.  The save rewrites the count, the running number and the blobs before the one that holds
the record, all with what they held already; the flag reaches the flash with that one blob.
Between the two the flash holds a record whose file is gone.

* `image_deletion`: what the flash holds then, and what it holds before.
* `deletion_crash_atomic_iff`: when the event is wholly present or wholly absent afterwards.
* `half_deleted_event_blocks_resave`: power is cut after the file was unlinked.
-/

namespace WispRelay
namespace Storage

open Runs

/-! ## The flash after an interrupted deletion -/

/-- Marking a record changes its own blob only. -/
theorem chunkOf_modify
    (entries : List StorageIndexEntry)
    {position chunk : Nat}
    (hne : chunk ≠ position / chunkSize) :
    chunkOf (entries.modify position StorageIndexEntry.markDeleted) chunk =
      chunkOf entries chunk := by
  apply List.ext_getElem?
  intro i
  simp only [chunkOf, List.getElem?_take, List.getElem?_drop]
  split
  · rename_i hi
    have hother : position ≠ chunkSize * chunk + i := by
      rintro rfl
      apply hne
      simp only [chunkSize] at hi ⊢
      omega
    simp [hother]
  · rfl

/-- The index with the flag, if its blob was written, else the index without it. -/
def indexOnFlash
    (outcome : NvsCall → NvsOutcome)
    (entries : List StorageIndexEntry)
    (position : Nat) : List StorageIndexEntry :=
  if BlobWritten outcome (position / chunkSize) then
    entries.modify position StorageIndexEntry.markDeleted
  else entries

/-- The save of the index with one more flag leaves the index with it or without it. -/
theorem image_deletion
    (outcome : NvsCall → NvsOutcome)
    (engine : StorageEngine)
    {nvs : NvsStore}
    {entries : List StorageIndexEntry}
    (himage : Image nvs entries engine.nextFileIndex)
    {position : Nat}
    (hmarked : engine.visible = entries.modify position StorageIndexEntry.markDeleted) :
    Image (saveIndexToNvs outcome engine nvs).2 (indexOnFlash outcome entries position)
      engine.nextFileIndex := by
  have hlen : engine.indexCount = entries.length := by
    rw [← StorageEngine.visible_length, hmarked, List.length_modify]
  have hindex : (indexOnFlash outcome entries position).length = entries.length := by
    unfold indexOnFlash
    split <;> simp
  have hheader : (saveIndexToNvs outcome engine nvs).2.created = true ∧
      (saveIndexToNvs outcome engine nvs).2.count = some (UInt16.ofNat entries.length) ∧
      (saveIndexToNvs outcome engine nvs).2.nextIdx = some engine.nextFileIndex := by
    have hwrites := (saveIndexToNvs_writes outcome engine nvs).1
    generalize (saveIndexToNvs outcome engine nvs).2 = after at hwrites ⊢
    rw [← hlen]
    have hcount := himage.count
    rw [← hlen] at hcount
    cases hwrites with
    | untouched => exact ⟨himage.created, hcount, himage.nextIdx⟩
    | opened => exact ⟨rfl, hcount, himage.nextIdx⟩
    | counted => exact ⟨rfl, rfl, himage.nextIdx⟩
    | chunks _ _ hcreated hcounted hnext _ _ => exact ⟨hcreated, hcounted, hnext⟩
  refine ⟨hheader.1, by rw [hindex]; exact hheader.2.1, hheader.2.2, fun chunk hchunk => ?_⟩
  rw [hindex] at hchunk
  rw [saveIndexToNvs_idx outcome engine nvs (by rwa [hlen]), himage.blobs chunk hchunk, hmarked]
  by_cases heq : chunk = position / chunkSize
  · subst heq
    unfold indexOnFlash
    split <;> rfl
  · -- this blob holds the same records in both indexes
    have hsame : chunkOf (indexOnFlash outcome entries position) chunk =
        chunkOf entries chunk := by
      unfold indexOnFlash
      split
      · exact chunkOf_modify entries heq
      · rfl
    rw [hsame, chunkOf_modify entries heq, ite_self]

/-- The flash when power is cut: before the unlink, or with what the calls after it did. -/
def cutDeletion
    (lib : Libnostr)
    (world : StorageWorld)
    (eventId : Bytes32) : Option CallEnv → StorageWorld
  | none => world
  | some env => (storageDeleteEvent lib env world eventId).2

/-- The relay after the reboot. -/
def rebooted
    (start : InitEnv)
    (ttl : UInt32)
    (off : StorageWorld) : StorageWorld :=
  (storageInit start ttl off.files off.nvs).2

/-- Arrays in internal and in external memory end where a blob ends. -/
theorem chunkSize_dvd_initCapacity
    (start : InitEnv) :
    chunkSize ∣ initCapacity start := by
  unfold initCapacity
  split
  · exact ⟨100, rfl⟩
  · exact ⟨20, rfl⟩

theorem StorageEngine.visible_length_lt
    (engine : StorageEngine) :
    engine.visible.length < 2 ^ 16 := by
  have hcount := engine.indexCount_add_chunk_lt
  rw [StorageEngine.visible_length]
  omega

/-- A stored index is found again as far as there are slots. -/
theorem rebooted_of_image
    {start : InitEnv}
    (hstart : start.Succeeds)
    (ttl : UInt32)
    {off : StorageWorld}
    {entries : List StorageIndexEntry}
    {next : UInt32}
    (himage : Image off.nvs entries next)
    (hsmall : entries.length < 2 ^ 16) :
    (rebooted start ttl off).engine.initialized = true ∧
      (rebooted start ttl off).engine.visible = entries.take (initCapacity start) ∧
      (rebooted start ttl off).engine.maxIndexEntries = initCapacity start ∧
      (rebooted start ttl off).files = off.files := by
  have hfresh : (freshEngine (initCapacity start) ttl (initCapacity_le start)).maxIndexEntries =
      initCapacity start := by
    simp [freshEngine, StorageEngine.maxIndexEntries]
  obtain ⟨htrue, hvisible, -⟩ := load_image himage hsmall hstart.readOk
    (freshEngine (initCapacity start) ttl (initCapacity_le start))
    (Or.inr (hfresh.symm ▸ chunkSize_dvd_initCapacity start))
  rw [hfresh] at hvisible
  unfold rebooted
  rw [storageInit_eq hstart]
  refine ⟨rfl, ?_, ?_, rfl⟩
  · simp [htrue, hvisible]
  · rw [startedEngine_maxIndexEntries, loadIndexFromNvs_maxIndexEntries, hfresh]

/-! ## Present or absent -/

/-- The event is found and read back. -/
structure WhollyPresent
    (lib : Libnostr)
    (env : CallEnv)
    (world : StorageWorld)
    (event : NostrEvent) : Prop where
  found : storageEventExists world event.id = true
  retrieved : storageGetEvent lib env world event.id = some event

/-- The event is not found, and can be saved again. -/
structure WhollyAbsent
    (lib : Libnostr)
    (env : CallEnv)
    (world : StorageWorld)
    (event : NostrEvent) : Prop where
  notFound : storageEventExists world event.id = false
  notRetrieved : storageGetEvent lib env world event.id = none
  savedAgain : (storageSaveEvent lib env world event).1 = .storageOk

section Presence

variable
  {lib : Libnostr}
  {env : CallEnv}
  (henv : env.Succeeds)
  {world : StorageWorld}
  (hinit : world.engine.initialized = true)
  {event : NostrEvent}

include hinit

theorem storageEventExists_eq
    (eventId : Bytes32) :
    storageEventExists world eventId = (foundEntry world.engine eventId).isSome := by
  rw [storageEventExists, hinit, Bool.true_and, findIndexEntry_isSome]

/-- Without a live record the event is absent as long as there is room for it. -/
theorem whollyAbsent_iff
    (henv : env.Succeeds)
    (hnone : foundEntry world.engine event.id = none)
    {json : CString}
    (hjson : lib.eventSerialize event storageMaxEventSize = some json) :
    (WhollyPresent lib env world event ∨ WhollyAbsent lib env world event) ↔
      world.engine.indexCount < world.engine.maxIndexEntries := by
  have hexists : storageEventExists world event.id = false := by
    rw [storageEventExists_eq hinit, hnone]
    rfl
  have hsave := storageSaveEvent_eq henv hinit hjson
  rw [findIndexEntry_isSome, hnone] at hsave
  constructor
  · rintro (hpresent | habsent)
    · rw [hpresent.found] at hexists
      cases hexists
    · have hok := habsent.savedAgain
      rw [hsave] at hok
      by_contra hfull
      simp [hfull] at hok
  · intro hroom
    refine Or.inr ⟨hexists, ?_, ?_⟩
    · simp [storageGetEvent, hinit, hnone]
    · rw [hsave]
      simp [hroom]

/-- With a live record the event is present as long as its file can be read. -/
theorem whollyPresent_iff
    (henv : env.Succeeds)
    {e : StorageIndexEntry}
    (hfound : foundEntry world.engine event.id = some e) :
    (WhollyPresent lib env world event ∨ WhollyAbsent lib env world event) ↔
      ParsesTo lib world.files (e.path lib) event := by
  have hexists : storageEventExists world event.id = true := by
    rw [storageEventExists_eq hinit, hfound]
    rfl
  have hget : storageGetEvent lib env world event.id =
      loadEventFromFile lib env world.files (e.path lib) := by
    simp [storageGetEvent, hinit, hfound]
  constructor
  · rintro (hpresent | habsent)
    · exact parsesTo_of_load (hget ▸ hpresent.retrieved)
    · have hmissing := habsent.notFound
      rw [hexists] at hmissing
      cases hmissing
  · intro hreads
    exact Or.inl ⟨hexists, hget.trans (hreads.load (henv.readOk _))⟩

end Presence

/-! ## The points at which a cut is harmless -/

/-- An event with a live record, in a store whose index is on the flash. -/
structure StoredEvent
    (lib : Libnostr)
    (world : StorageWorld)
    (event : NostrEvent) : Prop where
  initialized : world.engine.initialized = true
  persisted : Image world.nvs world.engine.visible world.engine.nextFileIndex
  found : (foundEntry world.engine event.id).isSome = true
  serializes : (lib.eventSerialize event storageMaxEventSize).isSome = true

/-- The position of the record that is deleted. -/
def recordPosition
    (engine : StorageEngine)
    (eventId : Bytes32) : Nat :=
  (findIndexEntry engine eventId).getD 0

/-- The file that is unlinked. -/
def deletedPath
    (lib : Libnostr)
    (engine : StorageEngine)
    (eventId : Bytes32) : CString :=
  ((foundEntry engine eventId).getD StorageIndexEntry.zero).path lib

/-- The live record with the identifier that comes next, in an array with `slots` slots. -/
def laterRecord
    (slots : Nat)
    (engine : StorageEngine)
    (eventId : Bytes32) : Option StorageIndexEntry :=
  ((engine.visible.take slots).drop (recordPosition engine eventId + 1)).find?
    (fun entry => entry.eventId == eventId && !entry.isDeleted)

/--
A cut before the unlink is harmless when the record is among those found again and its file
can be read.  After it the flag must have been written, and there must be a slot for the event
to be saved again; without the flag the unlink must have failed.  Where a second live record
has the identifier (a compaction that power cut may leave it twice), the flag makes the event
reappear under that record, whose file must then still be there.
-/
def SafeCut
    (lib : Libnostr)
    (slots : Nat)
    (world : StorageWorld)
    (event : NostrEvent) : Option CallEnv → Prop
  | none =>
      recordPosition world.engine event.id < slots ∧
        ParsesTo lib world.files (deletedPath lib world.engine event.id) event
  | some env =>
      if BlobWritten env.nvs (recordPosition world.engine event.id / chunkSize) then
        match laterRecord slots world.engine event.id with
        | none => world.engine.indexCount < slots
        | some e =>
            ParsesTo lib (unlink env world.files (deletedPath lib world.engine event.id))
              (e.path lib) event
      else
        recordPosition world.engine event.id < slots ∧
          ParsesTo lib (unlink env world.files (deletedPath lib world.engine event.id))
            (deletedPath lib world.engine event.id) event

/-! ### The first live record after the cut -/

section Located

variable
  {engine : StorageEngine}
  {eventId : Bytes32}
  {e : StorageIndexEntry}
  (hfound : foundEntry engine eventId = some e)

include hfound

/-- The records before the one that is found, and those behind it. -/
theorem found_split :
    ∃ before behind : List StorageIndexEntry,
      engine.visible = before ++ e :: behind ∧
        before.length = recordPosition engine eventId ∧
        findIndexEntry engine eventId = some before.length ∧
        (e.eventId == eventId && !e.isDeleted) = true ∧
        ∀ entry ∈ before, ¬ (entry.eventId == eventId && !entry.isDeleted) = true := by
  obtain ⟨hit, before, behind, hvisible, hmiss⟩ := List.find?_eq_some_iff_append.mp hfound
  have hnone : ∀ entry ∈ before, ¬ (entry.eventId == eventId && !entry.isDeleted) = true := by
    intro entry hmem hentry
    have hnot := hmiss entry hmem
    rw [hentry] at hnot
    cases hnot
  have hposition : findIndexEntry engine eventId = some before.length := by
    rw [findIndexEntry, hvisible, List.findIdx?_append,
      List.findIdx?_eq_none_iff.mpr fun entry hmem => by simpa using hnone entry hmem,
      List.findIdx?_cons, if_pos hit]
    simp
  refine ⟨before, behind, hvisible, ?_, hposition, hit, hnone⟩
  rw [recordPosition, hposition]
  rfl

/-- Without the flag the record is found again when it is among the slots. -/
theorem find_take_visible
    (slots : Nat) :
    (engine.visible.take slots).find?
        (fun entry => entry.eventId == eventId && !entry.isDeleted) =
      if recordPosition engine eventId < slots then some e else none := by
  obtain ⟨before, behind, hvisible, hposition, -, hit, hmiss⟩ := found_split hfound
  have hbefore : ∀ n, (before.take n).find?
      (fun entry => entry.eventId == eventId && !entry.isDeleted) = none := fun n =>
    List.find?_eq_none.mpr fun entry hmem => hmiss entry (List.mem_of_mem_take hmem)
  rw [hvisible, List.take_append, List.find?_append, hbefore, Option.none_or, ← hposition]
  split
  · rename_i hreached
    obtain ⟨k, hk⟩ := Nat.exists_eq_add_of_lt hreached
    rw [show slots - before.length = k + 1 by omega, List.take_succ_cons, List.find?_cons,
      hit]
  · rw [Nat.sub_eq_zero_of_le (by omega), List.take_zero, List.find?_nil]

/-- With the flag the next live record is found. -/
theorem find_take_marked
    (slots : Nat) :
    ((engine.visible.modify (recordPosition engine eventId)
          StorageIndexEntry.markDeleted).take slots).find?
        (fun entry => entry.eventId == eventId && !entry.isDeleted) =
      laterRecord slots engine eventId := by
  obtain ⟨before, behind, hvisible, hposition, -, -, hmiss⟩ := found_split hfound
  have hbefore : ∀ n, (before.take n).find?
      (fun entry => entry.eventId == eventId && !entry.isDeleted) = none := fun n =>
    List.find?_eq_none.mpr fun entry hmem => hmiss entry (List.mem_of_mem_take hmem)
  have hmarked : (before ++ e :: behind).modify before.length StorageIndexEntry.markDeleted =
      before ++ e.markDeleted :: behind := by
    simp [List.modify_eq_set_getElem?]
  have hbehind : (before ++ e :: behind).drop (before.length + 1) = behind := by
    simp
  rw [laterRecord, ← hposition, hvisible, hmarked, List.drop_take, hbehind, List.take_append,
    List.find?_append, hbefore, Option.none_or]
  rcases Nat.lt_or_ge before.length slots with hreached | hbeyond
  · rw [show slots - before.length = slots - (before.length + 1) + 1 by omega,
      List.take_succ_cons, List.find?_cons]
    simp
  · rw [Nat.sub_eq_zero_of_le hbeyond, Nat.sub_eq_zero_of_le (by omega)]
    simp

end Located

section Cut

variable
  {lib : Libnostr}
  {world : StorageWorld}
  {event : NostrEvent}
  {start : InitEnv}
  (hstart : start.Succeeds)
  (ttl : UInt32)
  {env : CallEnv}
  (henv : env.Succeeds)

include hstart henv

/-- What becomes of an event is read off the first live record found after the reboot. -/
theorem atomic_iff_found
    {off : StorageWorld}
    {entries : List StorageIndexEntry}
    {next : UInt32}
    (himage : Image off.nvs entries next)
    (hsmall : entries.length < 2 ^ 16)
    (hjson : (lib.eventSerialize event storageMaxEventSize).isSome = true) :
    (WhollyPresent lib env (rebooted start ttl off) event ∨
        WhollyAbsent lib env (rebooted start ttl off) event) ↔
      match (entries.take (initCapacity start)).find?
        (fun entry => entry.eventId == event.id && !entry.isDeleted) with
      | none => entries.length < initCapacity start
      | some e => ParsesTo lib off.files (e.path lib) event := by
  obtain ⟨hinit, hvisible, hmax, hfiles⟩ := rebooted_of_image hstart ttl himage hsmall
  have hfound : foundEntry (rebooted start ttl off).engine event.id =
      (entries.take (initCapacity start)).find?
        (fun entry => entry.eventId == event.id && !entry.isDeleted) := by
    rw [foundEntry, hvisible]
  rw [← hfound]
  cases hentry : foundEntry (rebooted start ttl off).engine event.id with
  | some e => rw [whollyPresent_iff hinit henv hentry, hfiles]
  | none =>
      obtain ⟨json, hjson⟩ := Option.isSome_iff_exists.mp hjson
      have hcount := StorageEngine.visible_length (rebooted start ttl off).engine
      rw [hvisible, List.length_take] at hcount
      rw [whollyAbsent_iff hinit henv hentry hjson, hmax]
      dsimp only
      omega

variable
  (hstored : StoredEvent lib world event)
include hstored

/-- What becomes of the event when the flag is not on the flash. -/
theorem safe_without_flag
    {off : StorageWorld}
    (himage : Image off.nvs world.engine.visible world.engine.nextFileIndex) :
    (WhollyPresent lib env (rebooted start ttl off) event ∨
        WhollyAbsent lib env (rebooted start ttl off) event) ↔
      recordPosition world.engine event.id < initCapacity start ∧
        ParsesTo lib off.files (deletedPath lib world.engine event.id) event := by
  obtain ⟨e, hfound⟩ := Option.isSome_iff_exists.mp hstored.found
  rw [atomic_iff_found hstart ttl henv himage world.engine.visible_length_lt
    hstored.serializes, find_take_visible hfound, deletedPath, hfound, Option.getD_some]
  by_cases hreached : recordPosition world.engine event.id < initCapacity start
  · rw [if_pos hreached]
    exact (and_iff_right hreached).symm
  · -- the record lies beyond the slots, which are all in use
    obtain ⟨before, behind, hvisible, hposition, -⟩ := found_split hfound
    have hlength := congrArg List.length hvisible
    rw [List.length_append, List.length_cons] at hlength
    rw [if_neg hreached]
    dsimp only
    constructor
    · intro hroom
      omega
    · rintro ⟨hlt, -⟩
      exact absurd hlt hreached

/-- What becomes of the event when the flag is on the flash. -/
theorem safe_with_flag
    {off : StorageWorld}
    (himage : Image off.nvs
      (world.engine.visible.modify (recordPosition world.engine event.id)
        StorageIndexEntry.markDeleted)
      world.engine.nextFileIndex) :
    (WhollyPresent lib env (rebooted start ttl off) event ∨
        WhollyAbsent lib env (rebooted start ttl off) event) ↔
      match laterRecord (initCapacity start) world.engine event.id with
      | none => world.engine.indexCount < initCapacity start
      | some e => ParsesTo lib off.files (e.path lib) event := by
  obtain ⟨e, hfound⟩ := Option.isSome_iff_exists.mp hstored.found
  rw [atomic_iff_found hstart ttl henv himage
    (by rw [List.length_modify]; exact world.engine.visible_length_lt) hstored.serializes,
    find_take_marked hfound, List.length_modify, StorageEngine.visible_length]

end Cut

/-- In a run in which nothing is lost, live records that have not expired are stored so. -/
theorem storedEvent_of_run
    (lib : Libnostr)
    {capacity : Nat}
    (ttl : UInt32)
    (hcapacity : capacity ≤ storageIndexEntries)
    (ops : List FlashOp)
    (hdurable : Durable capacity ops)
    (hcalm : Calm ops)
    (hsaves : flashSaves ops < 2 ^ 32)
    {world : StorageWorld}
    (hworld : (finalState (flashStep lib) (erasedFlash capacity ttl hcapacity) ops).world = world)
    (hpersisted : Image world.nvs world.engine.visible world.engine.nextFileIndex)
    {e : StorageIndexEntry}
    (hmem : e ∈ live world.engine.visible)
    (hunexpired : e.isExpired (lastTime ops) = false) :
    ∃ event, e.eventId = event.id ∧ StoredEvent lib world event ∧
      Holds lib world.files (deletedPath lib world.engine event.id) event := by
  have hinv := flashInv_run lib ttl hcapacity ops hdurable hsaves
  subst hworld
  obtain ⟨event, -, hdescribes, -, hlost | hholds⟩ := hinv.owned e hmem
  · rcases hlost with hwild | hexpired
    · exact absurd hcalm hwild
    · rw [hunexpired] at hexpired
      cases hexpired
  · have hfound : foundEntry _ event.id = some e :=
      foundEntry_eq_some hmem hdescribes.eventId fun e' hmem' hid' =>
        hinv.index.eq_of_eventId hmem' hmem (hid'.trans hdescribes.eventId.symm)
    obtain ⟨json, hjson, hfile⟩ := hholds
    refine ⟨event, hdescribes.eventId,
      ⟨hinv.initialized, hpersisted, by rw [hfound]; rfl, by rw [hjson]; rfl⟩,
      json, hjson, ?_⟩
    rw [deletedPath, hfound]
    exact hfile

/-- The deletion of a record that is found. -/
theorem storageDeleteEvent_found
    (lib : Libnostr)
    (env : CallEnv)
    {world : StorageWorld}
    (hinit : world.engine.initialized = true)
    {eventId : Bytes32}
    {i : Nat}
    {e : StorageIndexEntry}
    (hfound : findIndexEntry world.engine eventId = some i)
    (hget : world.engine.visible[i]? = some e) :
    (storageDeleteEvent lib env world eventId).2 =
      persist env
        { world with
          engine := world.engine.withVisible
            (world.engine.visible.modify i StorageIndexEntry.markDeleted) (by simp)
          files := unlink env world.files (e.path lib) } := by
  have hentry : world.engine.visible.getD i StorageIndexEntry.zero = e := by
    rw [List.getD_eq_getElem?_getD, hget]
    rfl
  unfold storageDeleteEvent
  rw [hinit, hfound]
  simp only [Bool.not_true, Bool.false_eq_true, if_false, hentry]

/--
**A deletion survives a power cut exactly at the safe points.**  For every store whose index is
on the flash, every event with a live record, every point of the cut, all outcomes of the NVS
calls before it and every reboot in which nothing fails: the event is wholly present or wholly
absent.
-/
theorem deletion_crash_atomic_iff
    {lib : Libnostr}
    {world : StorageWorld}
    {event : NostrEvent}
    (hstored : StoredEvent lib world event)
    (cut : Option CallEnv)
    {start : InitEnv}
    (hstart : start.Succeeds)
    (ttl : UInt32)
    {env : CallEnv}
    (henv : env.Succeeds) :
    (WhollyPresent lib env (rebooted start ttl (cutDeletion lib world event.id cut)) event ∨
        WhollyAbsent lib env (rebooted start ttl (cutDeletion lib world event.id cut)) event) ↔
      SafeCut lib (initCapacity start) world event cut := by
  obtain ⟨e, hfound⟩ := Option.isSome_iff_exists.mp hstored.found
  obtain ⟨before, behind, hvisible, hposition, hindex, -, -⟩ := found_split hfound
  cases cut with
  | none =>
      rw [cutDeletion, SafeCut]
      exact safe_without_flag hstart ttl henv hstored hstored.persisted
  | some during =>
      have hpath : deletedPath lib world.engine event.id = e.path lib := by
        rw [deletedPath, hfound]
        rfl
      have hoff := storageDeleteEvent_found lib during hstored.initialized hindex
        (by rw [hvisible]; simp : world.engine.visible[before.length]? = some e)
      have himage := image_deletion during.nvs
        (world.engine.withVisible
          (world.engine.visible.modify (recordPosition world.engine event.id)
            StorageIndexEntry.markDeleted) (by simp))
        hstored.persisted (StorageEngine.visible_withVisible _ _ _)
      rw [hposition] at hoff
      simp only [cutDeletion, hoff, SafeCut, hpath]
      by_cases hflag : BlobWritten during.nvs
          (recordPosition world.engine event.id / chunkSize)
      · rw [indexOnFlash, if_pos hflag] at himage
        rw [if_pos hflag]
        exact safe_with_flag hstart ttl henv hstored himage
      · rw [indexOnFlash, if_neg hflag] at himage
        rw [if_neg hflag, safe_without_flag hstart ttl henv hstored himage, hpath]
        rfl

/-- A note is saved and the relay is switched off and on again. -/
def oneNoteStored : StorageWorld :=
  (finalState (flashStep (Sample.library (Sample.notes 1)))
    (erasedFlash 1000 1814400 thousandSlots)
    [.run ⟨.save (Sample.numbered 0), CallEnv.undisturbed 1700000000⟩,
      .restart (some (CallEnv.undisturbed 1700000001)) internalStart 1814400]).world

/-- Power is cut at one of the NVS calls, after the file was unlinked. -/
def cutAt
    (call : NvsCall) : CallEnv :=
  { CallEnv.undisturbed 1700000002 with nvs := fun c => if c = call then .cut else .ok }

theorem oneNoteStored_reads :
    (oneNoteStored.engine.visible = [noteRecord 0] ∧ oneNoteStored.engine.nextFileIndex = 1 ∧
        oneNoteStored.files ((noteRecord 0).path (Sample.library (Sample.notes 1))) =
          some (Sample.eventJson (Sample.numbered 0))) ∧
      oneNoteStored.nvs.created = true ∧ oneNoteStored.nvs.count = some 1 ∧
      oneNoteStored.nvs.nextIdx = some 1 ∧
      oneNoteStored.nvs.idx 0 = some (encodeEntries [noteRecord 0]) := by
  decide +kernel

theorem oneNoteStored_storedEvent :
    StoredEvent (Sample.library (Sample.notes 1)) oneNoteStored (Sample.numbered 0) := by
  obtain ⟨⟨hvisible, hnext, -⟩, hcreated, hcount, hnextIdx, hblob⟩ := oneNoteStored_reads
  refine ⟨rfl, ?_, ?_, ?_⟩
  · rw [hvisible, hnext]
    refine ⟨hcreated, hcount, hnextIdx, fun chunk hchunk => ?_⟩
    obtain rfl : chunk = 0 := Nat.lt_one_iff.mp hchunk
    exact hblob
  · rw [foundEntry, hvisible]
    decide +kernel
  · decide +kernel

/-- The note is wholly there or wholly gone after a cut in its deletion. -/
def NoteAtomic
    (cut : Option CallEnv) : Prop :=
  WhollyPresent (Sample.library (Sample.notes 1)) (CallEnv.undisturbed 1700000003)
      (rebooted internalStart 1814400 (cutDeletion (Sample.library (Sample.notes 1))
        oneNoteStored (Sample.numbered 0).id cut)) (Sample.numbered 0) ∨
    WhollyAbsent (Sample.library (Sample.notes 1)) (CallEnv.undisturbed 1700000003)
      (rebooted internalStart 1814400 (cutDeletion (Sample.library (Sample.notes 1))
        oneNoteStored (Sample.numbered 0).id cut)) (Sample.numbered 0)

theorem oneNoteStored_deletedPath :
    deletedPath (Sample.library (Sample.notes 1)) oneNoteStored.engine (Sample.numbered 0).id =
      (noteRecord 0).path (Sample.library (Sample.notes 1)) := by
  rw [deletedPath, foundEntry, oneNoteStored_reads.1.1]
  decide +kernel

/-- Cut before the unlink the note is kept, cut after the blob was written it is gone. -/
theorem deletion_crash_atomic_iff_one_note :
    NoteAtomic none ∧ NoteAtomic (some (cutAt (.eraseKey 1))) := by
  have hatomic := fun cut => (deletion_crash_atomic_iff oneNoteStored_storedEvent cut
    internalStart_succeeds 1814400 (CallEnv.undisturbed_succeeds 1700000003)).mpr
  have hflag : BlobWritten (cutAt (.eraseKey 1)).nvs
      (recordPosition oneNoteStored.engine (Sample.numbered 0).id / chunkSize) := by
    decide +kernel
  have hlater : laterRecord (initCapacity internalStart) oneNoteStored.engine
      (Sample.numbered 0).id = none := by
    rw [laterRecord, oneNoteStored_reads.1.1]
    decide +kernel
  refine ⟨hatomic none ⟨by decide +kernel, ?_⟩, hatomic (some (cutAt (.eraseKey 1))) ?_⟩
  · rw [oneNoteStored_deletedPath]
    exact ⟨_, oneNoteStored_reads.1.2.2, by decide +kernel⟩
  · rw [SafeCut, if_pos hflag, hlater]
    decide +kernel

/-- The note after power was cut between the unlink and the first NVS call. -/
def halfDeleted : StorageWorld :=
  rebooted internalStart 1814400 (cutDeletion (Sample.library (Sample.notes 1)) oneNoteStored
    (Sample.numbered 0).id (some (cutAt .open)))

/-- A live note that has not expired is found, cannot be read and cannot be saved again. -/
theorem half_deleted_event_blocks_resave :
    (StoredEvent (Sample.library (Sample.notes 1)) oneNoteStored (Sample.numbered 0) ∧
      oneNoteStored.engine.visible = [noteRecord 0] ∧
      (noteRecord 0).isExpired 1700000002 = false) ∧
    (storageEventExists halfDeleted (Sample.numbered 0).id = true ∧
      storageGetEvent (Sample.library (Sample.notes 1)) (CallEnv.undisturbed 1700000003)
        halfDeleted (Sample.numbered 0).id = none ∧
      (storageSaveEvent (Sample.library (Sample.notes 1)) (CallEnv.undisturbed 1700000003)
        halfDeleted (Sample.numbered 0)).1 = .duplicate) ∧
    ¬ (WhollyPresent (Sample.library (Sample.notes 1)) (CallEnv.undisturbed 1700000003)
          halfDeleted (Sample.numbered 0) ∨
        WhollyAbsent (Sample.library (Sample.notes 1)) (CallEnv.undisturbed 1700000003)
          halfDeleted (Sample.numbered 0)) := by
  have hblocked : storageEventExists halfDeleted (Sample.numbered 0).id = true ∧
      storageGetEvent (Sample.library (Sample.notes 1)) (CallEnv.undisturbed 1700000003)
        halfDeleted (Sample.numbered 0).id = none ∧
      (storageSaveEvent (Sample.library (Sample.notes 1)) (CallEnv.undisturbed 1700000003)
        halfDeleted (Sample.numbered 0)).1 = .duplicate := by
    decide +kernel
  refine ⟨⟨oneNoteStored_storedEvent, oneNoteStored_reads.1.1, rfl⟩, hblocked, ?_⟩
  rintro (hpresent | habsent)
  · have hread := hpresent.retrieved
    rw [hblocked.2.1] at hread
    cases hread
  · have hmissing := habsent.notFound
    rw [hblocked.1] at hmissing
    cases hmissing

end Storage
end WispRelay
