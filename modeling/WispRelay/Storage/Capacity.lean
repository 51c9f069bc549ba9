import WispRelay.Nostr.SampleLibrary
import WispRelay.Storage.Restart

/-!
# Room in the index

`storage_save_event` compares the number of records in use with the size of the array.  Records
stay in use when they are deleted or expire, until a compaction drops them, so a store can be
full of records that are no longer live.

* `HasRoom`: a slot was never used since the last compaction, or there is nothing to drop.
* `save_ok_iff_room`: with fewer live records than slots a save succeeds exactly then.
* `hasRoom_compact`: there is room after every compaction.
* `full_of_deleted`: after a deletion from a full store the next save fails.
-/

namespace WispRelay
namespace Storage

open Runs

/-- The calls a save depends on succeed. -/
structure CallEnv.Saves
    (env : CallEnv) : Prop where
  mallocOk : env.mallocOk = true
  serializeOk : env.serializeOk = true
  fopenOk : env.fopenOk = true ∨ env.fopenRetryOk = true
  fwriteOk : env.fwriteShort = none

theorem CallEnv.Succeeds.saves
    {env : CallEnv}
    (henv : env.Succeeds) :
    env.Saves where
  mallocOk := henv.mallocOk
  serializeOk := henv.serializeOk
  fopenOk := Or.inl henv.fopenOk
  fwriteOk := henv.fwriteOk

/-- There is a slot that no record uses, or every record in use is live. -/
def HasRoom
    (engine : StorageEngine) : Prop :=
  engine.indexCount < engine.maxIndexEntries ∨
    (live engine.visible).length = engine.indexCount

/-- A save of an event that is not live, when nothing it depends on fails. -/
theorem storageSaveEvent_of_saves
    {lib : Libnostr}
    {env : CallEnv}
    (henv : env.Saves)
    {world : StorageWorld}
    (hinit : world.engine.initialized = true)
    {event : NostrEvent}
    {json : CString}
    (hjson : lib.eventSerialize event storageMaxEventSize = some json)
    (hfresh : findIndexEntry world.engine event.id = none) :
    (storageSaveEvent lib env world event).1 =
      if world.engine.indexCount < world.engine.maxIndexEntries then .storageOk else .full := by
  have hopen : (!env.fopenOk && !env.fopenRetryOk) = false := by
    rcases henv.fopenOk with h | h <;> simp [h]
  unfold storageSaveEvent
  simp only [hinit, hfresh, henv.mallocOk, henv.serializeOk, henv.fwriteOk, hopen, hjson,
    Bool.not_true, Bool.false_eq_true, if_true, if_false, Option.isSome_none, Option.getD_none,
    min_self, ne_eq, not_true_eq_false]
  split <;> rfl

/-- No call changes the size of the array, or starts or stops the engine. -/
theorem storageCall_config
    (lib : Libnostr)
    (env : CallEnv)
    (world : StorageWorld)
    (call : StorageCall) :
    (storageCall lib env world call).2.engine.initialized = world.engine.initialized ∧
      (storageCall lib env world call).2.engine.maxIndexEntries =
        world.engine.maxIndexEntries := by
  cases call with
  | save event =>
      simp only [storageCall]
      rcases storageSaveEvent_cases lib env world event with
        ⟨-, hsame | ⟨leftover, -, hsame⟩⟩ | ⟨json, hroom, -, -, -, hrun⟩
      · rw [hsame]
        exact ⟨rfl, rfl⟩
      · rw [hsame]
        exact ⟨rfl, rfl⟩
      · rw [hrun, persistEveryTenth_engine]
        exact ⟨rfl, append_maxIndexEntries _ _ hroom⟩
  | delete eventId =>
      simp only [storageCall, storageDeleteEvent]
      split_ifs
      · exact ⟨rfl, rfl⟩
      cases findIndexEntry world.engine eventId with
      | none => exact ⟨rfl, rfl⟩
      | some i => exact ⟨rfl, StorageEngine.withVisible_maxIndexEntries _ _ (by simp)⟩
  | get eventId => exact ⟨rfl, rfl⟩
  | eventExists eventId => exact ⟨rfl, rfl⟩
  | query filter limit =>
      simp only [storageCall, storageQueryEvents]
      split_ifs
      · exact ⟨rfl, rfl⟩
      · exact ⟨rfl, rfl⟩
      · exact ⟨rfl, StorageEngine.withVisible_maxIndexEntries _ _ (by simp)⟩
  | purge =>
      simp only [storageCall, storagePurgeExpired]
      split_ifs
      · exact ⟨rfl, rfl⟩
      · exact ⟨rfl, StorageEngine.withVisible_maxIndexEntries _ _ (by simp)⟩
      · exact ⟨rfl, StorageEngine.withVisible_maxIndexEntries _ _ (by simp)⟩
  | compact =>
      simp only [storageCall, storageCompactIndex]
      split_ifs
      · exact ⟨rfl, rfl⟩
      · exact ⟨rfl, compact_maxIndexEntries _⟩
      · exact ⟨rfl, rfl⟩
  | stats => exact ⟨rfl, rfl⟩

/-- The engine is started, or has no array at all. -/
def Usable
    (engine : StorageEngine) : Prop :=
  engine.initialized = true ∨ engine.maxIndexEntries = 0

theorem usable_storageInit
    (env : InitEnv)
    (ttl : UInt32)
    (files : Files)
    (nvs : NvsStore) :
    Usable (storageInit env ttl files nvs).2.engine := by
  unfold storageInit
  split_ifs
  · exact Or.inr rfl
  · exact Or.inr rfl
  · cases env.mount with
    | failed => exact Or.inr rfl
    | mounted => exact Or.inl rfl
    | formatted => exact Or.inl rfl

/-- Every reachable engine is started, or has no array at all. -/
theorem usable_of_run
    (lib : Libnostr)
    {capacity : Nat}
    (ttl : UInt32)
    (hcapacity : capacity ≤ storageIndexEntries)
    (past : List FlashOp) :
    Usable (finalState (flashStep lib) (erasedFlash capacity ttl hcapacity)
      past).world.engine := by
  induction past using List.reverseRecOn with
  | nil => exact Or.inl rfl
  | append_singleton past op ih =>
      rw [finalState_snoc]
      cases op with
      | run op =>
          obtain ⟨hinit, hmax⟩ := storageCall_config lib op.env
            (finalState (flashStep lib) (erasedFlash capacity ttl hcapacity) past).world op.call
          rw [Usable, ← hinit, ← hmax] at ih
          exact ih
      | restart stop env ttl => exact usable_storageInit _ _ _ _

/--
**A store with fewer live records than slots takes a save exactly when it has room.**  After any
run, for an event that is not live and when nothing the save depends on fails.
-/
theorem save_ok_iff_room
    {lib : Libnostr}
    {capacity : Nat}
    (ttl : UInt32)
    (hcapacity : capacity ≤ storageIndexEntries)
    (past : List FlashOp)
    {env : CallEnv}
    (henv : env.Saves)
    {event : NostrEvent}
    (hser : (lib.eventSerialize event storageMaxEventSize).isSome = true) :
    let world := (finalState (flashStep lib) (erasedFlash capacity ttl hcapacity) past).world
    findIndexEntry world.engine event.id = none →
      (((live world.engine.visible).length < world.engine.maxIndexEntries →
          (storageSaveEvent lib env world event).1 = .storageOk) ↔
        HasRoom world.engine) := by
  intro world hfresh
  obtain ⟨json, hjson⟩ := Option.isSome_iff_exists.mp hser
  have hlive : (live world.engine.visible).length ≤ world.engine.indexCount := by
    rw [← StorageEngine.visible_length]
    exact (live_sublist _).length_le
  have hcount : world.engine.indexCount ≤ world.engine.maxIndexEntries :=
    world.engine.indexCount_le
  have husable : Usable world.engine := usable_of_run lib ttl hcapacity past
  rcases husable with hinit | hnone
  · rw [storageSaveEvent_of_saves henv hinit hjson hfresh]
    constructor
    · intro hok
      by_cases hspare : (live world.engine.visible).length < world.engine.maxIndexEntries
      · have hresult := hok hspare
        split at hresult
        · rename_i hroom
          exact Or.inl hroom
        · cases hresult
      · exact Or.inr (by omega)
    · intro hroom hspare
      rw [if_pos]
      rcases hroom with hslot | hall <;> omega
  · exact ⟨fun _ => Or.inr (by omega), fun _ hspare => by omega⟩

/-- A compaction makes room. -/
theorem hasRoom_compact
    (engine : StorageEngine) :
    HasRoom engine.compact := by
  right
  rw [visible_compact, live_live, compact_indexCount]

/-- A deletion from a full store takes the room away, until the next compaction. -/
theorem not_hasRoom_of_deleted
    {engine : StorageEngine}
    (hfull : engine.indexCount = engine.maxIndexEntries)
    {e : StorageIndexEntry}
    (hmem : e ∈ engine.visible)
    (hdeleted : e.isDeleted = true) :
    ¬ HasRoom engine := by
  rintro (hslot | hall)
  · omega
  · rw [← StorageEngine.visible_length, live, List.length_filter_eq_length_iff] at hall
    simpa [hdeleted] using hall e hmem

/-! ## A full store -/

section Notes

variable (lib : Libnostr)

/-- Save one note. -/
def saveNote
    (n : Nat) : FlashOp :=
  .run ⟨.save (Sample.numbered n), CallEnv.undisturbed 1700000000⟩

/-- The store of 1000 slots after `n` notes. -/
def noteStore
    (n : Nat) : LoggedWorld :=
  finalState (flashStep lib) (erasedFlash 1000 1814400 thousandSlots) ((List.range n).map saveNote)

/-- What is known of the engine after `n` notes. -/
structure HoldsNotes
    (n : Nat)
    (engine : StorageEngine) : Prop where
  initialized : engine.initialized = true
  maxIndexEntries : engine.maxIndexEntries = 1000
  ids : engine.visible.map (·.eventId) = (Sample.notes n).map (·.id)
  allLive : live engine.visible = engine.visible

theorem HoldsNotes.indexCount
    {n : Nat}
    {engine : StorageEngine}
    (h : HoldsNotes n engine) :
    engine.indexCount = n := by
  have hlength := congrArg List.length h.ids
  simpa [Sample.notes] using hlength

/-- The next note is not in the store. -/
theorem HoldsNotes.fresh
    {n : Nat}
    (hn : n ≤ 1000)
    {engine : StorageEngine}
    (h : HoldsNotes n engine) :
    findIndexEntry engine (Sample.numbered n).id = none := by
  rw [findIndexEntry, List.findIdx?_eq_none_iff]
  intro e he
  have hid : e.eventId ∈ (Sample.notes n).map (·.id) := by
    rw [← h.ids]
    exact List.mem_map_of_mem he
  simp only [Sample.notes, List.map_map, List.mem_map, List.mem_range, Function.comp_apply] at hid
  obtain ⟨i, hi, hid⟩ := hid
  have hne : (Sample.numbered i).id ≠ (Sample.numbered n).id := by
    intro hsame
    have := Sample.numbered_id_injective (by omega) (by omega) hsame
    omega
  simp [← hid, hne]

/-- All thousand slots can be filled. -/
theorem holdsNotes_noteStore
    {n : Nat}
    (hn : n ≤ 1000)
    (hser : ∀ i < n, (lib.eventSerialize (Sample.numbered i) storageMaxEventSize).isSome = true) :
    HoldsNotes n (noteStore lib n).world.engine := by
  induction n with
  | zero => exact ⟨rfl, List.length_replicate, rfl, rfl⟩
  | succ n ih =>
      have hbefore := ih (by omega) (fun i hi => hser i (by omega))
      obtain ⟨json, hjson⟩ := Option.isSome_iff_exists.mp (hser n (by omega))
      have hroom : (noteStore lib n).world.engine.indexCount <
          (noteStore lib n).world.engine.maxIndexEntries := by
        rw [hbefore.indexCount, hbefore.maxIndexEntries]
        omega
      have hsave := storageSaveEvent_eq (CallEnv.undisturbed_succeeds 1700000000)
        hbefore.initialized hjson
      rw [hbefore.fresh (by omega), if_neg (by simp), dif_pos hroom] at hsave
      have hstep : (noteStore lib (n + 1)).world.engine =
          (noteStore lib n).world.engine.append
            (newEntry lib 1700000000 (noteStore lib n).world.engine (Sample.numbered n))
            hroom := by
        rw [noteStore, List.range_succ, List.map_append, List.map_singleton, finalState_snoc]
        simp only [saveNote, flashStep, storageStep, storageCall]
        rw [← noteStore, hsave, persistEveryTenth_engine]
        rfl
      rw [hstep]
      refine ⟨hbefore.initialized, ?_, ?_, ?_⟩
      · rw [append_maxIndexEntries, hbefore.maxIndexEntries]
      · rw [visible_append, List.map_append, hbefore.ids]
        simp [Sample.notes, List.range_succ, newEntry]
      · rw [visible_append, live_append, hbefore.allLive]
        simp [live]

end Notes

/-- The store of 1000 slots after `n` notes, of which the first is deleted again. -/
def noteDeleted
    (lib : Libnostr)
    (n : Nat) : LoggedWorld :=
  finalState (flashStep lib) (erasedFlash 1000 1814400 thousandSlots)
    ((List.range n).map saveNote ++
      [.run ⟨.delete (Sample.numbered 0).id, CallEnv.undisturbed 1700000000⟩])

/-- A deletion marks one record and leaves the rest of the index as it is. -/
theorem storageDeleteEvent_engine
    (lib : Libnostr)
    (env : CallEnv)
    {world : StorageWorld}
    (hinit : world.engine.initialized = true)
    {eventId : Bytes32}
    {i : Nat}
    (hfound : findIndexEntry world.engine eventId = some i) :
    (storageDeleteEvent lib env world eventId).2.engine =
      world.engine.withVisible
        (world.engine.visible.modify i StorageIndexEntry.markDeleted) (by simp) := by
  simp only [storageDeleteEvent, hinit, hfound, Bool.not_true, Bool.false_eq_true, if_false]
  rfl

/-- One of the `n` records in use is deleted, and the next note is not in the store. -/
theorem noteDeleted_engine
    {lib : Libnostr}
    {n : Nat}
    (hpos : 0 < n)
    (hn : n ≤ 1000)
    (hser : ∀ i < n, (lib.eventSerialize (Sample.numbered i) storageMaxEventSize).isSome = true) :
    (noteDeleted lib n).world.engine.initialized = true ∧
      (noteDeleted lib n).world.engine.maxIndexEntries = 1000 ∧
      (noteDeleted lib n).world.engine.indexCount = n ∧
      (∃ e ∈ (noteDeleted lib n).world.engine.visible, e.isDeleted = true) ∧
      findIndexEntry (noteDeleted lib n).world.engine (Sample.numbered n).id = none := by
  have hfull := holdsNotes_noteStore lib hn hser
  have hfresh := hfull.fresh hn
  obtain ⟨i, hfound⟩ : ∃ i, findIndexEntry (noteStore lib n).world.engine
      (Sample.numbered 0).id = some i := by
    rw [← Option.isSome_iff_exists, findIndexEntry, List.findIdx?_isSome, List.any_eq_true]
    have hid : (Sample.numbered 0).id ∈
        (noteStore lib n).world.engine.visible.map (·.eventId) := by
      rw [hfull.ids]
      exact List.mem_map_of_mem (Sample.numbered_mem_notes hpos)
    obtain ⟨e, he, hid⟩ := List.mem_map.mp hid
    have hlive : e ∈ live (noteStore lib n).world.engine.visible := by
      rw [hfull.allLive]
      exact he
    exact ⟨e, he, by simp [hid, (mem_live.mp hlive).2]⟩
  have hengine : (noteDeleted lib n).world.engine =
      (noteStore lib n).world.engine.withVisible
        ((noteStore lib n).world.engine.visible.modify i StorageIndexEntry.markDeleted)
        (by simp) := by
    rw [noteDeleted, finalState_snoc]
    exact storageDeleteEvent_engine lib _ hfull.initialized hfound
  obtain ⟨hlt, -, -⟩ := List.findIdx?_eq_some_iff_getElem.mp hfound
  rw [hengine]
  refine ⟨hfull.initialized, ?_, ?_, ?_, ?_⟩
  · rw [StorageEngine.withVisible_maxIndexEntries, hfull.maxIndexEntries]
  · rw [StorageEngine.withVisible_indexCount, hfull.indexCount]
  · rw [StorageEngine.visible_withVisible]
    refine ⟨(noteStore lib n).world.engine.visible[i].markDeleted, ?_, by simp⟩
    refine List.mem_of_getElem? (i := i) ?_
    rw [List.getElem?_modify, List.getElem?_eq_getElem hlt]
    simp
  · rw [findIndexEntry, List.findIdx?_eq_none_iff] at hfresh ⊢
    rw [StorageEngine.visible_withVisible]
    intro e he
    obtain ⟨j, hj, rfl⟩ := List.mem_iff_getElem.mp he
    rw [List.length_modify] at hj
    have hbefore := hfresh _ (List.getElem_mem hj)
    rw [List.getElem_modify]
    split
    · simp
    · exact hbefore

/-- The next note finds no room. -/
theorem noteDeleted_full
    {lib : Libnostr}
    {n : Nat}
    (hn : n = 1000)
    (hser : ∀ i < n + 1, (lib.eventSerialize (Sample.numbered i) storageMaxEventSize).isSome = true) :
    (live (noteDeleted lib n).world.engine.visible).length <
        (noteDeleted lib n).world.engine.maxIndexEntries ∧
      findIndexEntry (noteDeleted lib n).world.engine (Sample.numbered n).id = none ∧
      (storageSaveEvent lib (CallEnv.undisturbed 1700000000) (noteDeleted lib n).world
        (Sample.numbered n)).1 = .full := by
  obtain ⟨hinit, hmax, hcount, ⟨e, he, hdeleted⟩, hfresh⟩ :=
    noteDeleted_engine (n := n) (by omega) (by omega) (fun i hi => hser i (by omega))
  obtain ⟨json, hjson⟩ := Option.isSome_iff_exists.mp (hser n (by omega))
  refine ⟨?_, hfresh, ?_⟩
  · have hspare : (live (noteDeleted lib n).world.engine.visible).length <
        (noteDeleted lib n).world.engine.visible.length :=
      List.length_filter_lt_length_iff_exists.mpr ⟨e, he, by simp [hdeleted]⟩
    rw [StorageEngine.visible_length] at hspare
    omega
  · rw [storageSaveEvent_of_saves (CallEnv.undisturbed_succeeds _).saves hinit hjson hfresh]
    exact if_neg (by omega)

theorem serialize_notes
    {n : Nat} :
    ∀ i < n, ((Sample.library (Sample.notes n)).eventSerialize (Sample.numbered i)
      storageMaxEventSize).isSome = true :=
  fun _ hi => Sample.serialize_note (Sample.numbered_mem_notes hi)

/-- A note is deleted from a full store, and the next save finds no room. -/
theorem full_of_deleted :
    let lib := Sample.library (Sample.notes 1001)
    let world := (noteDeleted lib 1000).world
    (lib.eventSerialize (Sample.numbered 1000) storageMaxEventSize).isSome = true ∧
      (live world.engine.visible).length < world.engine.maxIndexEntries ∧
      findIndexEntry world.engine (Sample.numbered 1000).id = none ∧
      (storageSaveEvent lib (CallEnv.undisturbed 1700000000) world
        (Sample.numbered 1000)).1 = .full :=
  ⟨serialize_notes 1000 (by omega), noteDeleted_full rfl serialize_notes⟩

/-- There is room beside a note and one that was deleted. -/
theorem save_ok_iff_room_deleted :
    let lib := Sample.library (Sample.notes 3)
    let world := (noteDeleted lib 2).world
    world.engine.indexCount = 2 ∧ (live world.engine.visible).length = 1 ∧
      (((live world.engine.visible).length < world.engine.maxIndexEntries →
          (storageSaveEvent lib (CallEnv.undisturbed 1700000000) world
            (Sample.numbered 2)).1 = .storageOk) ↔
        HasRoom world.engine) := by
  intro lib world
  refine ⟨by decide +kernel, by decide +kernel, ?_⟩
  exact save_ok_iff_room 1814400 thousandSlots _ (CallEnv.undisturbed_succeeds 1700000000).saves
    (Sample.serialize_note (Sample.numbered_mem_notes (by decide))) (by decide +kernel)

end Storage
end WispRelay
