import WispRelay.Storage.AbstractList
import WispRelay.Storage.FileBijection

/-!
# The engine refines the insertion-ordered list

A live record *represents* an item when it carries its data and its file holds the event; the
live records represent the items in order (`Refines`).  Each operation is simulated by one
`AbstractStep` with the same result, so every run of the engine is a run of the abstract store
(`storage_refines_list`).

A save is accepted only while fewer items are listed than the index has slots, and refused only
when that many slots are taken.  Without the refusal the engine is not a list:
`full_list_refuses_save`.
-/

namespace WispRelay
namespace Storage

open Runs

/-- The record carries the data of the item, and its file holds the event. -/
structure Represents
    (lib : Libnostr)
    (files : Files)
    (entry : StorageIndexEntry)
    (item : Item) : Prop where
  describes : Describes entry item.event
  createdAt : entry.createdAt = item.createdAt
  expiresAt : entry.expiresAt = item.expiresAt
  file : Holds lib files (entry.path lib) item.event

/-- The live records represent the items, in order. -/
structure Refines
    (lib : Libnostr)
    (capacity : Nat)
    (ttl : UInt32)
    (world : StorageWorld)
    (store : AbstractStore) : Prop where
  initialized : world.engine.initialized = true
  capacity_eq : world.engine.maxIndexEntries = capacity
  ttl_eq : world.engine.defaultTtlSec = ttl
  items : List.Forall₂ (Represents lib world.files) (live world.engine.visible) store.items
  slots : store.slots = world.engine.indexCount

/-! ## Lists in correspondence -/

section Correspondence

variable
  {lib : Libnostr}
  {files files' : Files}
  {entries : List StorageIndexEntry}
  {items : List Item}

/-- Searches by a shared property find corresponding elements. -/
theorem forall₂_find?
    {R : StorageIndexEntry → Item → Prop}
    {p : StorageIndexEntry → Bool}
    {q : Item → Bool}
    (hrel : List.Forall₂ R entries items)
    (hpq : ∀ e item, R e item → p e = q item) :
    Option.Rel R (entries.find? p) (items.find? q) := by
  induction hrel with
  | nil => exact Option.Rel.none
  | @cons e item entries items hhead _ ih =>
      rw [List.find?_cons, List.find?_cons, hpq e item hhead]
      cases q item with
      | true => exact Option.Rel.some hhead
      | false => exact ih

/-- The files of the records may change elsewhere. -/
theorem represents_frame
    (hrel : List.Forall₂ (Represents lib files) entries items)
    (hfiles : ∀ e ∈ entries, files' (e.path lib) = files (e.path lib)) :
    List.Forall₂ (Represents lib files') entries items := by
  have hboth := (List.forall₂_and_left entries items).mpr ⟨hfiles, hrel⟩
  refine hboth.imp ?_
  rintro e item ⟨hsame, hrep⟩
  obtain ⟨json, hjson, hcontent⟩ := hrep.file
  exact { hrep with file := ⟨json, hjson, hsame.trans hcontent⟩ }

/-- A file that is still there was there before another was unlinked. -/
theorem Represents.of_unlinked
    {path : CString}
    {e : StorageIndexEntry}
    {item : Item}
    (hrep : Represents lib (Function.update files path none) e item) :
    Represents lib files e item := by
  obtain ⟨json, hjson, hcontent⟩ := hrep.file
  refine { hrep with file := ⟨json, hjson, ?_⟩ }
  by_cases hpath : e.path lib = path
  · rw [hpath, Function.update_self] at hcontent
    cases hcontent
  · rwa [Function.update_of_ne hpath] at hcontent

end Correspondence

section Represents

variable
  {lib : Libnostr}
  {files : Files}
  {e : StorageIndexEntry}
  {item : Item}

theorem Represents.eventId_beq
    (hrep : Represents lib files e item)
    (eventId : Bytes32) :
    (e.eventId == eventId) = (item.event.id == eventId) := by
  rw [hrep.describes.eventId]

theorem Represents.isExpired_eq
    (hrep : Represents lib files e item)
    (now : UInt32) :
    e.isExpired now = item.isExpired now := by
  unfold Item.isExpired StorageIndexEntry.isExpired
  rw [hrep.expiresAt]
  rfl

theorem Represents.indexMatchesFilter_eq
    (hrep : Represents lib files e item)
    (filter : NostrFilter) :
    indexMatchesFilter lib e filter = indexMatchesFilter lib item.record filter := by
  unfold indexMatchesFilter
  rw [hrep.createdAt, hrep.describes.eventId, hrep.describes.kind,
    hrep.describes.pubkeyPrefix]
  rfl

/-- The file of a record reads back as its event. -/
theorem load_of_holds
    (hlib : lib.StorageLaws)
    {env : CallEnv}
    (hread : ∀ path, env.readOk path = true)
    {path : CString}
    {event : NostrEvent}
    (hfile : Holds lib files path event) :
    loadEventFromFile lib env files path = some event := by
  obtain ⟨json, hjson, hcontent⟩ := hfile
  have hpos := hlib.serialize_pos event storageMaxEventSize json hjson
  have hle := hlib.serialize_le event storageMaxEventSize json hjson
  have hsize : ¬ (json.length = 0 ∨ storageMaxEventSize < json.length) := by omega
  simp only [loadEventFromFile, hread, if_true, hcontent, if_neg hsize]
  exact hlib.parse_serialize event storageMaxEventSize json hjson

end Represents

/-- Records and items that have not expired correspond. -/
theorem forall₂_unexpired
    {lib : Libnostr}
    {files : Files}
    {entries : List StorageIndexEntry}
    {items : List Item}
    (hrel : List.Forall₂ (Represents lib files) entries items)
    (now : UInt32) :
    List.Forall₂ (Represents lib files) (entries.filter fun e => !e.isExpired now)
      (items.filter fun item => !item.isExpired now) := by
  refine List.rel_filter ?_ hrel
  intro e item hrep
  simp only [hrep.isExpired_eq]

/-! ## The loops -/

section Loops

variable
  {lib : Libnostr}
  {env : CallEnv}

/--
The scan of `storage_query_events` is the scan of the items.  The induction is over the
records; `files` are the files when the scan reaches the first of them.
-/
theorem queryScan_scanItems
    (hlib : lib.StorageLaws)
    (henv : env.Succeeds)
    (filter : NostrFilter)
    (limit : Nat)
    (entries : List StorageIndexEntry) :
    ∀ (files : Files) (events : List NostrEvent) (items : List Item),
      (entries.map (·.fileIndex)).Nodup →
      List.Forall₂ (Represents lib files) (live entries) items →
      (queryScan lib env filter limit entries files events).events =
          events ++ (scanItems lib env.now filter (limit - events.length) items).1 ∧
        List.Forall₂ (Represents lib files)
          (live (queryScan lib env filter limit entries files events).entries)
          (scanItems lib env.now filter (limit - events.length) items).2 := by
  induction entries with
  | nil =>
      intro files events items _ hrel
      cases hrel
      cases limit - events.length <;> simp [queryScan, scanItems]
  | cons entry older ih =>
      intro files events items hnodup hrel
      rw [List.map_cons, List.nodup_cons] at hnodup
      unfold queryScan
      split_ifs with hfull hdeleted hexpired hskip
      · -- the limit is reached
        have hzero : limit - events.length = 0 := by omega
        simpa [hzero, scanItems] using hrel
      all_goals have hroom : 0 < limit - events.length := by omega
      · rw [live_cons, if_pos hdeleted] at hrel
        obtain ⟨hevents, hentries⟩ := ih files events items hnodup.2 hrel
        refine ⟨hevents, ?_⟩
        rw [live_cons, if_pos hdeleted]
        exact hentries
      · -- an expired record: its item is dropped
        rw [live_cons, if_neg hdeleted] at hrel
        obtain ⟨item, items, hrep, hrest, rfl⟩ := List.forall₂_cons_left_iff.mp hrel
        rw [hrep.isExpired_eq] at hexpired
        have hother : List.Forall₂
            (Represents lib (Function.update files (entry.path lib) none)) (live older)
            items := by
          refine represents_frame hrest ?_
          intro e hmem
          refine Function.update_of_ne ?_ _ _
          intro hpath
          have hindex : e.fileIndex = entry.fileIndex := getEventPath_fileIndex hpath
          exact hnodup.1 (hindex ▸ List.mem_map_of_mem (mem_live.mp hmem).1)
        obtain ⟨hevents, hentries⟩ := ih _ events items hnodup.2 hother
        rw [unlink_eq henv.toKeepsFiles, scanItems_expired hroom items hexpired]
        refine ⟨hevents, ?_⟩
        rw [live_cons, if_pos (StorageIndexEntry.isDeleted_markDeleted entry)]
        exact hentries.imp fun _ _ h => h.of_unlinked
      · -- a record that `index_matches_filter` rejects
        rw [live_cons, if_neg hdeleted] at hrel
        obtain ⟨item, items, hrep, hrest, rfl⟩ := List.forall₂_cons_left_iff.mp hrel
        rw [hrep.isExpired_eq, Bool.not_eq_true] at hexpired
        rw [hrep.indexMatchesFilter_eq, Bool.not_eq_true'] at hskip
        have hrejected : item.passes lib filter = false := by
          rw [Item.passes, hskip, Bool.false_and]
        obtain ⟨hevents, hentries⟩ := ih files events items hnodup.2 hrest
        rw [scanItems_rejected hroom items hexpired hrejected, live_cons, if_neg hdeleted]
        exact ⟨hevents, List.Forall₂.cons hrep hentries⟩
      · rw [live_cons, if_neg hdeleted] at hrel
        obtain ⟨item, items, hrep, hrest, rfl⟩ := List.forall₂_cons_left_iff.mp hrel
        rw [load_of_holds hlib henv.readOk hrep.file]
        rw [hrep.isExpired_eq, Bool.not_eq_true] at hexpired
        rw [hrep.indexMatchesFilter_eq] at hskip
        simp only [Bool.not_eq_true', Bool.not_eq_false] at hskip
        have hpass : item.passes lib filter = lib.filterMatches filter item.event := by
          rw [Item.passes, hskip, Bool.true_and]
        dsimp only
        by_cases hpasses : lib.filterMatches filter item.event = true
        · -- a result
          obtain ⟨hevents, hentries⟩ :=
            ih files (events ++ [item.event]) items hnodup.2 hrest
          have hone : limit - (events ++ [item.event]).length = limit - events.length - 1 := by
            rw [List.length_append, List.length_singleton]
            omega
          rw [hone] at hevents hentries
          rw [if_pos hpasses, scanItems_result hroom items hexpired (hpass.trans hpasses)]
          constructor
          · rw [hevents, List.append_assoc]
            rfl
          · rw [live_cons, if_neg hdeleted]
            exact List.Forall₂.cons hrep hentries
        · obtain ⟨hevents, hentries⟩ := ih files events items hnodup.2 hrest
          have hrejected := hpass.trans (Bool.eq_false_iff.mpr hpasses)
          rw [if_neg hpasses, scanItems_rejected hroom items hexpired hrejected, live_cons,
            if_neg hdeleted]
          exact ⟨hevents, List.Forall₂.cons hrep hentries⟩

/-- `storage_delete_event` keeps the live records with other identifiers. -/
theorem live_modify
    {entries : List StorageIndexEntry}
    {i : Nat}
    {entry : StorageIndexEntry}
    (hget : entries[i]? = some entry)
    (hlive : entry.isDeleted = false)
    (hunique : ((live entries).map (·.eventId)).Nodup) :
    live (entries.modify i StorageIndexEntry.markDeleted) =
      (live entries).filter (fun e => e.eventId != entry.eventId) := by
  induction entries generalizing i with
  | nil => simp at hget
  | cons head rest ih =>
      cases i with
      | zero =>
          rw [List.getElem?_cons_zero, Option.some.injEq] at hget
          subst hget
          rw [live_cons, hlive] at hunique
          simp only [Bool.false_eq_true, if_false, List.map_cons, List.nodup_cons] at hunique
          rw [List.modify_zero_cons, live_cons, live_cons, hlive]
          simp only [StorageIndexEntry.isDeleted_markDeleted, if_true, Bool.false_eq_true,
            if_false]
          rw [List.filter_cons_of_neg (by simp)]
          symm
          rw [List.filter_eq_self]
          intro e hmem
          have hne : e.eventId ≠ head.eventId := by
            intro heq
            exact hunique.1 (heq ▸ List.mem_map_of_mem hmem)
          simpa using hne
      | succ i =>
          rw [List.getElem?_cons_succ] at hget
          rw [List.modify_succ_cons, live_cons, live_cons]
          rw [live_cons] at hunique
          by_cases hhead : head.isDeleted = true
          · rw [if_pos hhead] at hunique
            rw [if_pos hhead, if_pos hhead]
            exact ih hget hunique
          · rw [if_neg hhead, List.map_cons, List.nodup_cons] at hunique
            rw [if_neg hhead, if_neg hhead]
            have hmem : entry ∈ live rest :=
              mem_live.mpr ⟨List.mem_of_getElem? hget, hlive⟩
            have hne : head.eventId ≠ entry.eventId := by
              intro heq
              exact hunique.1 (heq ▸ List.mem_map_of_mem hmem)
            rw [List.filter_cons_of_pos (by simpa using hne), ih hget hunique.2]

/-- The loop of `storage_get_stats` runs over the live records that have not expired. -/
theorem statsLoop_eq
    (now : UInt32)
    (entries : List StorageIndexEntry) :
    ∀ (total : Nat) (oldest newest : UInt32),
      statsLoop now entries total oldest newest =
        (total + ((live entries).filter fun e => !e.isExpired now).length,
          ((live entries).filter fun e => !e.isExpired now).foldl
            (fun oldest e => if e.createdAt < oldest then e.createdAt else oldest) oldest,
          ((live entries).filter fun e => !e.isExpired now).foldl
            (fun newest e => if newest < e.createdAt then e.createdAt else newest)
            newest) := by
  induction entries with
  | nil =>
      intro total oldest newest
      rfl
  | cons entry rest ih =>
      intro total oldest newest
      unfold statsLoop
      by_cases hdeleted : entry.isDeleted = true
      · rw [if_pos (by simp [hdeleted]), ih, live_cons, if_pos hdeleted]
      · rw [live_cons, if_neg hdeleted]
        by_cases hexpired : entry.isExpired now = true
        · rw [if_pos (by simp [hexpired]), ih, List.filter_cons_of_neg (by simp [hexpired])]
        · rw [if_neg (by simp [hdeleted, hexpired]), ih,
            List.filter_cons_of_pos (by simp [hexpired]), List.length_cons,
            List.foldl_cons, List.foldl_cons]
          congr 1
          omega

end Loops

/-! ## One operation -/

section Simulation

variable
  {lib : Libnostr}
  {capacity : Nat}
  {ttl : UInt32}
  {world : StorageWorld}
  {store : AbstractStore}
  {past : List StorageResult}
  {env : CallEnv}

/-- An identifier is listed when `find_index_entry` finds it. -/
theorem Refines.lookup_rel
    (h : Refines lib capacity ttl world store)
    (eventId : Bytes32) :
    Option.Rel (Represents lib world.files) (foundEntry world.engine eventId)
      (store.lookup eventId) := by
  rw [foundEntry_eq_find_live]
  exact forall₂_find? h.items fun e item hrep => hrep.eventId_beq eventId

theorem Refines.isSome_lookup
    (h : Refines lib capacity ttl world store)
    (eventId : Bytes32) :
    (findIndexEntry world.engine eventId).isSome = (store.lookup eventId).isSome := by
  rw [findIndexEntry_isSome]
  have hrel := h.lookup_rel eventId
  generalize foundEntry world.engine eventId = found at hrel ⊢
  generalize store.lookup eventId = item at hrel ⊢
  cases hrel with
  | some _ => rfl
  | none => rfl

/-- The live records after a sweep still represent the items they did. -/
theorem Refines.swept
    (h : Refines lib capacity ttl world store)
    (hinv : StoreInv lib past world)
    {Q : StorageIndexEntry → Prop}
    {entries : List StorageIndexEntry}
    {files : Files}
    (hlen : entries.length = world.engine.indexCount)
    (hswept : Swept lib env Q world.engine.visible entries world.files files)
    {items : List Item}
    (hitems : List.Forall₂ (Represents lib world.files) (live entries) items) :
    Refines lib capacity ttl (sweepWorld world entries hlen files)
      { store with items := items } where
  initialized := h.initialized
  capacity_eq := by
    rw [← h.capacity_eq]
    exact StorageEngine.withVisible_maxIndexEntries _ _ hlen
  ttl_eq := h.ttl_eq
  items := by
    simp only [sweepWorld, StorageEngine.visible_withVisible]
    refine represents_frame hitems ?_
    intro e hmem
    obtain ⟨hafter, hlive⟩ := mem_live.mp hmem
    exact hswept.file_eq hinv.index.nodup_fileIndex hafter hlive
  slots := h.slots

theorem Refines.persist
    (h : Refines lib capacity ttl world store) :
    Refines lib capacity ttl (persist env world) store where
  initialized := h.initialized
  capacity_eq := h.capacity_eq
  ttl_eq := h.ttl_eq
  items := h.items
  slots := h.slots

/-- A save that the engine accepts appends the item. -/
theorem Refines.append
    (h : Refines lib capacity ttl world store)
    (hinv : StoreInv lib past world)
    (henv : env.KeepsFiles)
    {event : NostrEvent}
    {json : CString}
    (hroom : world.engine.indexCount < world.engine.maxIndexEntries)
    (hjson : lib.eventSerialize event storageMaxEventSize = some json) :
    Refines lib capacity ttl (appendWorld lib env world event json hroom)
      ⟨store.items ++ [newItem lib env ttl event], store.slots + 1⟩ where
  initialized := h.initialized
  capacity_eq := by
    rw [← h.capacity_eq]
    exact append_maxIndexEntries _ _ hroom
  ttl_eq := h.ttl_eq
  items := by
    simp only [appendWorld, visible_append]
    rw [live_snoc (newEntry_isDeleted lib env.now world.engine event)]
    refine List.rel_append ?_ (List.Forall₂.cons ?_ List.Forall₂.nil)
    · refine represents_frame h.items ?_
      intro e hmem
      have hne : e.path lib ≠ getEventPath lib event.id world.engine.nextFileIndex :=
        hinv.index.path_ne (mem_live.mp hmem).1 le_rfl
      exact Function.update_of_ne hne _ _
    · refine ⟨describes_newEntry lib env.now world.engine event, rfl, ?_, json, hjson, ?_⟩
      · simp only [newEntry, newItem, h.ttl_eq]
      · simp [henv.onFlash_eq]
  slots := by
    simp only [appendWorld, append_indexCount, h.slots]

theorem Refines.length_le
    (h : Refines lib capacity ttl world store) :
    store.items.length ≤ store.slots := by
  rw [← h.items.length_eq, h.slots, ← StorageEngine.visible_length]
  exact (live_sublist _).length_le

/-- A save may be accepted while fewer items are listed than there are slots. -/
def hasRoom
    (capacity : Nat)
    (store : AbstractStore) : Prop :=
  store.items.length < capacity

/-- A save may be refused when as many slots are taken as there are. -/
def mayBeFull
    (capacity : Nat)
    (store : AbstractStore) : Prop :=
  capacity ≤ store.slots

/-- The step of the abstract store that simulates one operation. -/
def Simulated
    (lib : Libnostr)
    (capacity : Nat)
    (ttl : UInt32)
    (world : StorageWorld)
    (store : AbstractStore)
    (op : StorageOp) : Prop :=
  ∃ store',
    AbstractStep lib ttl (hasRoom capacity) (mayBeFull capacity) store op
      (storageStep lib world op).1 store' ∧
    Refines lib capacity ttl (storageStep lib world op).2 store'

theorem simulated_save
    (h : Refines lib capacity ttl world store)
    (hinv : StoreInv lib past world)
    (henv : env.Succeeds)
    {event : NostrEvent}
    (hser : (lib.eventSerialize event storageMaxEventSize).isSome = true) :
    Simulated lib capacity ttl world store ⟨.save event, env⟩ := by
  obtain ⟨json, hjson⟩ := Option.isSome_iff_exists.mp hser
  have hrun := storageSaveEvent_eq henv h.initialized hjson
  have hlookup := h.isSome_lookup event.id
  simp only [Simulated, storageStep, storageCall, hrun]
  by_cases hfound : (findIndexEntry world.engine event.id).isSome = true
  · rw [if_pos hfound]
    rw [hfound] at hlookup
    exact ⟨store, AbstractStep.saveDuplicate hlookup.symm, h⟩
  · rw [if_neg hfound]
    have hnone : store.lookup event.id = none := by
      rw [hlookup] at hfound
      simpa using hfound
    by_cases hroom : world.engine.indexCount < world.engine.maxIndexEntries
    · rw [dif_pos hroom]
      refine ⟨_, AbstractStep.saveOk hnone ?_, ?_⟩
      · have hle := h.length_le
        rw [h.slots] at hle
        rw [h.capacity_eq] at hroom
        exact lt_of_le_of_lt hle hroom
      · have happend := h.append hinv henv.toKeepsFiles hroom hjson
        unfold persistEveryTenth
        split
        · exact happend.persist
        · exact happend
    · rw [dif_neg hroom]
      refine ⟨store, AbstractStep.saveFull hnone ?_, h⟩
      rw [mayBeFull, h.slots, ← h.capacity_eq]
      exact Nat.not_lt.mp hroom

theorem simulated_delete
    (h : Refines lib capacity ttl world store)
    (hinv : StoreInv lib past world)
    (eventId : Bytes32) :
    Simulated lib capacity ttl world store ⟨.delete eventId, env⟩ := by
  have hlookup := h.lookup_rel eventId
  rcases storageDeleteEvent_cases lib env hinv.index.nodup_fileIndex eventId with
    ⟨hsame, _, hnotFound⟩ | ⟨i, entry, files, hlen, hget, hfound, hswept, hrun⟩
  · obtain ⟨hresult, hnone⟩ := hnotFound h.initialized
    rw [hnone] at hlookup
    refine ⟨store, ?_, ?_⟩
    · simp only [storageStep, storageCall, hresult]
      refine AbstractStep.deleteNotFound ?_
      generalize store.lookup eventId = item at hlookup
      cases hlookup
      rfl
    · simpa only [storageStep, storageCall, hsame] using h
  · rw [hfound] at hlookup
    have hlisted : (store.lookup eventId).isSome = true := by
      generalize store.lookup eventId = item at hlookup
      cases hlookup
      rfl
    obtain ⟨hlive, hid⟩ := live_of_foundEntry hfound
    simp only [Simulated, storageStep, storageCall, hrun]
    refine ⟨_, AbstractStep.deleteOk hlisted, Refines.persist ?_⟩
    refine h.swept hinv hlen hswept ?_
    rw [live_modify hget (mem_live.mp hlive).2 hinv.index.uniqueIds, hid]
    refine List.rel_filter ?_ h.items
    intro e item hrep
    simp only [bne, hrep.eventId_beq]

theorem simulated_get
    (hlib : lib.StorageLaws)
    (h : Refines lib capacity ttl world store)
    (henv : env.Succeeds)
    (eventId : Bytes32) :
    Simulated lib capacity ttl world store ⟨.get eventId, env⟩ := by
  have hresult : storageGetEvent lib env world eventId =
      (store.lookup eventId).map Item.event := by
    have hlookup := h.lookup_rel eventId
    unfold storageGetEvent
    simp only [h.initialized, Bool.not_true, Bool.false_eq_true, if_false]
    generalize foundEntry world.engine eventId = found at hlookup
    generalize store.lookup eventId = item at hlookup
    cases hlookup with
    | none => rfl
    | some hrep => exact load_of_holds hlib henv.readOk hrep.file
  simp only [Simulated, storageStep, storageCall, hresult]
  exact ⟨store, AbstractStep.get, h⟩

theorem simulated_query
    (hlib : lib.StorageLaws)
    (h : Refines lib capacity ttl world store)
    (hinv : StoreInv lib past world)
    (henv : env.Succeeds)
    (filter : NostrFilter)
    (limit : UInt16) :
    Simulated lib capacity ttl world store ⟨.query filter limit, env⟩ := by
  have hnodup : (world.engine.visible.reverse.map (·.fileIndex)).Nodup := by
    rw [List.map_reverse]
    exact List.nodup_reverse.mpr hinv.index.nodup_fileIndex
  have hrel : List.Forall₂ (Represents lib world.files)
      (live world.engine.visible.reverse) store.items.reverse := by
    rw [live_reverse]
    exact List.rel_reverse h.items
  obtain ⟨hevents, hentries⟩ :=
    queryScan_scanItems hlib henv filter (queryLimit limit) _ _ [] _ hnodup hrel
  have hswept := (queryScan_swept lib env filter (queryLimit limit) _
    world.files [] hnodup).reverse
  rw [List.reverse_reverse] at hswept
  simp only [List.nil_append, List.length_nil, Nat.sub_zero] at hevents hentries
  simp only [Simulated, storageStep, storageCall, storageQueryEvents, h.initialized,
    henv.mallocOk, Bool.not_true, Bool.false_eq_true, if_false, hevents]
  refine ⟨_, AbstractStep.query, h.swept hinv _ hswept ?_⟩
  rw [live_reverse]
  exact List.rel_reverse hentries

theorem simulated_purge
    (h : Refines lib capacity ttl world store)
    (hinv : StoreInv lib past world) :
    Simulated lib capacity ttl world store ⟨.purge, env⟩ := by
  obtain ⟨hlive, hcount⟩ := live_purgeLoop lib env world.engine.visible world.files
  have hswept := purgeLoop_swept lib env world.engine.visible world.files
    hinv.index.nodup_fileIndex
  have hitems := forall₂_unexpired h.items env.now
  rw [← hlive] at hitems
  have hpurged : (live world.engine.visible).countP (fun e => e.isExpired env.now) =
      store.items.countP (fun item => item.isExpired env.now) := by
    rw [List.countP_eq_length_filter, List.countP_eq_length_filter]
    refine List.Forall₂.length_eq (List.rel_filter ?_ h.items)
    intro e item hrep
    simp only [hrep.isExpired_eq]
  have hafter := h.swept hinv (by simp) hswept hitems
  simp only [Simulated, storageStep, storageCall, storagePurgeExpired, h.initialized,
    Bool.not_true, Bool.false_eq_true, if_false, hcount, hpurged]
  refine ⟨_, AbstractStep.purge, ?_⟩
  split
  · exact hafter.persist
  · exact hafter

theorem simulated_compact
    (h : Refines lib capacity ttl world store) :
    Simulated lib capacity ttl world store ⟨.compact, env⟩ := by
  have hlength : (compactLoop world.engine).2 = store.items.length := by
    rw [compactLoop_eq]
    exact h.items.length_eq
  have hcompacted : Refines lib capacity ttl { world with engine := world.engine.compact }
      { store with slots := store.items.length } := by
    refine ⟨h.initialized, ?_, h.ttl_eq, ?_, ?_⟩
    · rw [← h.capacity_eq]
      exact compact_maxIndexEntries world.engine
    · simpa using h.items
    · simpa using h.items.length_eq.symm
  simp only [Simulated, storageStep, storageCall, storageCompactIndex, h.initialized,
    Bool.not_true, Bool.false_eq_true, if_false, hlength, ← h.slots]
  refine ⟨_, AbstractStep.compact, ?_⟩
  split
  · exact hcompacted.persist
  · have hle := h.length_le
    have hall : store.slots = store.items.length := by omega
    rw [← hall]
    exact h

theorem simulated_stats
    (h : Refines lib capacity ttl world store) :
    Simulated lib capacity ttl world store ⟨.stats, env⟩ := by
  have hunexpired := forall₂_unexpired h.items env.now
  have hstats : storageGetStats env world = itemStats env store.items := by
    simp only [storageGetStats, h.initialized, Bool.not_true, Bool.false_eq_true, if_false,
      statsLoop_eq, Nat.zero_add, hunexpired.length_eq, itemStats]
    congr 1
    · congr 1
      refine List.rel_foldl ?_ rfl hunexpired
      rintro oldest _ rfl e item hrep
      dsimp only
      rw [hrep.createdAt]
    · refine List.rel_foldl ?_ rfl hunexpired
      rintro newest _ rfl e item hrep
      dsimp only
      rw [hrep.createdAt]
  simp only [Simulated, storageStep, storageCall, hstats]
  exact ⟨store, AbstractStep.stats, h⟩

/-- Every operation is simulated by one step of the abstract store. -/
theorem simulated
    (hlib : lib.StorageLaws)
    (h : Refines lib capacity ttl world store)
    (hinv : StoreInv lib past world)
    {op : StorageOp}
    (henv : op.env.Succeeds)
    (hser : ∀ event, op.call = .save event →
      (lib.eventSerialize event storageMaxEventSize).isSome = true) :
    Simulated lib capacity ttl world store op := by
  obtain ⟨call, env⟩ := op
  cases call with
  | save event => exact simulated_save h hinv henv (hser event rfl)
  | delete eventId => exact simulated_delete h hinv eventId
  | get eventId => exact simulated_get hlib h henv eventId
  | eventExists eventId =>
      have hresult : storageEventExists world eventId = (store.lookup eventId).isSome := by
        rw [← h.isSome_lookup]
        simp [storageEventExists, h.initialized]
      simp only [Simulated, storageStep, storageCall, hresult]
      exact ⟨store, AbstractStep.eventExists, h⟩
  | query filter limit => exact simulated_query hlib h hinv henv filter limit
  | purge => exact simulated_purge h hinv
  | compact => exact simulated_compact h
  | stats => exact simulated_stats h

end Simulation

/-! ## Runs -/

/--
**The engine refines the insertion-ordered list.**  The results of every run from an empty
engine are those of a run of the abstract store.
-/
theorem storage_refines_list
    {lib : Libnostr}
    (hlib : lib.StorageLaws)
    (capacity : Nat)
    (ttl : UInt32)
    (nvs : NvsStore)
    (hcapacity : capacity ≤ storageIndexEntries)
    (ops : List StorageOp)
    (henv : ∀ op ∈ ops, op.env.Succeeds)
    (hser : ∀ op ∈ ops, ∀ event, op.call = .save event →
      (lib.eventSerialize event storageMaxEventSize).isSome = true)
    (hsaves : saveCount ops < 2 ^ 32) :
    ∃ store,
      AbstractRun (AbstractStep lib ttl (hasRoom capacity) (mayBeFull capacity))
        AbstractStore.empty
        (trace (storageStep lib) (emptyWorld capacity ttl nvs hcapacity) ops) store := by
  have hrun : ∃ store,
      AbstractRun (AbstractStep lib ttl (hasRoom capacity) (mayBeFull capacity))
        AbstractStore.empty
        (trace (storageStep lib) (emptyWorld capacity ttl nvs hcapacity) ops) store ∧
      Refines lib capacity ttl
        (finalState (storageStep lib) (emptyWorld capacity ttl nvs hcapacity) ops) store := by
    induction ops using List.reverseRecOn with
    | nil =>
        refine ⟨AbstractStore.empty, AbstractRun.nil _, rfl, ?_, rfl, ?_, rfl⟩
        · simp [emptyWorld, freshEngine, StorageEngine.maxIndexEntries]
        · exact List.Forall₂.nil
    | append_singleton past op ih =>
        have hmono := lt_of_le_of_lt (saveCount_snoc past op).1 hsaves
        have hpast : ∀ o ∈ past, o ∈ past ++ [op] := fun o ho => List.mem_append_left _ ho
        obtain ⟨store, habs, href⟩ :=
          ih (fun o ho => henv o (hpast o ho)) (fun o ho => hser o (hpast o ho)) hmono
        have hinv := storeInv_run lib ttl nvs hcapacity past
          (fun o ho => (henv o (hpast o ho)).toKeepsFiles) hmono
        obtain ⟨store', hstep, href'⟩ :=
          simulated hlib href hinv (henv op (by simp)) (hser op (by simp))
        refine ⟨store', ?_, ?_⟩
        · rw [trace_snoc]
          exact habs.snoc hstep
        · rw [finalState_snoc]
          exact href'
  obtain ⟨store, habs, _⟩ := hrun
  exact ⟨store, habs⟩

/-- A note is saved, found again and deleted. -/
theorem storage_refines_list_one_note :
    let lib := Sample.library (Sample.notes 1)
    let ops : List StorageOp :=
      [⟨.save (Sample.numbered 0), CallEnv.undisturbed 1700000000⟩,
        ⟨.query {} 10, CallEnv.undisturbed 1700000001⟩,
        ⟨.delete (Sample.numbered 0).id, CallEnv.undisturbed 1700000002⟩]
    ∃ store,
      AbstractRun (AbstractStep lib 1814400 (hasRoom 1000) (mayBeFull 1000))
        AbstractStore.empty
        (trace (storageStep lib) (emptyWorld 1000 1814400 NvsStore.erased (by decide)) ops)
        store := by
  intro lib ops
  refine storage_refines_list (Sample.library_storageLaws ?_) 1000 1814400 NvsStore.erased
    (by decide) ops ?_ ?_ (by decide)
  · exact Sample.notes_ids_nodup (by decide)
  · intro op hop
    simp only [ops, List.mem_cons, List.not_mem_nil, or_false] at hop
    rcases hop with rfl | rfl | rfl
    · exact CallEnv.undisturbed_succeeds _
    · exact CallEnv.undisturbed_succeeds _
    · exact CallEnv.undisturbed_succeeds _
  · intro op hop event hcall
    simp only [ops, List.mem_cons, List.not_mem_nil, or_false] at hop
    rcases hop with rfl | rfl | rfl
    · cases hcall
      exact Sample.serialize_note (by decide)
    · cases hcall
    · cases hcall

/-! ## A full index -/

section Full

variable
  {lib : Libnostr}

/-- A save of an event at a given time, nothing failing. -/
def saveOp
    (now : UInt32)
    (event : NostrEvent) : StorageOp :=
  ⟨.save event, CallEnv.undisturbed now⟩

/-- A successful save takes one slot and leaves the number of slots alone. -/
theorem indexCount_of_saved
    {env : CallEnv}
    {world : StorageWorld}
    {event : NostrEvent}
    (hok : (storageSaveEvent lib env world event).1 = .storageOk) :
    (storageSaveEvent lib env world event).2.engine.indexCount =
        world.engine.indexCount + 1 ∧
      (storageSaveEvent lib env world event).2.engine.maxIndexEntries =
        world.engine.maxIndexEntries := by
  rcases storageSaveEvent_cases lib env world event with
    ⟨herror, _⟩ | ⟨json, hroom, _, _, _, hrun⟩
  · exact absurd hok herror
  · rw [hrun, persistEveryTenth_engine]
    exact ⟨rfl, append_maxIndexEntries _ _ hroom⟩

/-- In a run of saves that are never refused, every save of a new identifier takes a slot. -/
theorem indexCount_of_unrefused_run
    {ttl now : UInt32}
    (events : List NostrEvent) :
    ∀ (world : StorageWorld) (store store' : AbstractStore),
      (events.map (·.id)).Nodup →
      (∀ event ∈ events, store.lookup event.id = none) →
      AbstractRun (AbstractStep lib ttl (fun _ => True) (fun _ => False)) store
        (trace (storageStep lib) world (events.map (saveOp now))) store' →
      (finalState (storageStep lib) world (events.map (saveOp now))).engine.indexCount =
          world.engine.indexCount + events.length ∧
        (finalState (storageStep lib) world
            (events.map (saveOp now))).engine.maxIndexEntries =
          world.engine.maxIndexEntries := by
  induction events with
  | nil =>
      intro world store store' _ _ _
      exact ⟨rfl, rfl⟩
  | cons event rest ih =>
      intro world store store' hids hnew hrun
      rw [List.map_cons, List.nodup_cons] at hids
      rw [List.map_cons, trace] at hrun
      generalize hresult : (storageStep lib world (saveOp now event)).1 = result at hrun
      cases hrun with
      | cons hstep hrest =>
          cases hstep with
          | saveOk hfresh _ =>
              have hok : (storageSaveEvent lib (CallEnv.undisturbed now) world event).1 =
                  .storageOk :=
                eq_of_heq (Sigma.mk.inj_iff.mp hresult).2
              obtain ⟨hcount, hmax⟩ := indexCount_of_saved hok
              have hlater : ∀ later ∈ rest, AbstractStore.lookup
                  ⟨store.items ++ [newItem lib (CallEnv.undisturbed now) ttl event],
                    store.slots + 1⟩ later.id = none := by
                intro later hlater
                have hold := hnew later (List.mem_cons_of_mem _ hlater)
                have hne : event.id ≠ later.id := by
                  intro heq
                  exact hids.1 (heq ▸ List.mem_map_of_mem hlater)
                simp only [AbstractStore.lookup, List.find?_append] at hold ⊢
                simp [hold, newItem, hne]
              obtain ⟨hcount', hmax'⟩ := ih _ _ _ hids.2 hlater hrest
              refine ⟨?_, hmax'.trans hmax⟩
              rw [List.length_cons, Nat.add_comm rest.length 1, ← Nat.add_assoc, ← hcount]
              exact hcount'
          | saveDuplicate hlisted =>
              rw [hnew event List.mem_cons_self] at hlisted
              cases hlisted
          | saveFull _ hrefuse => exact hrefuse.elim

/-- A run of saves of distinct events that is never refused fits the index. -/
theorem length_le_capacity
    {capacity : Nat}
    {ttl now : UInt32}
    {nvs : NvsStore}
    (hcapacity : capacity ≤ storageIndexEntries)
    {events : List NostrEvent}
    (hids : (events.map (·.id)).Nodup)
    {store : AbstractStore}
    (hrun : AbstractRun (AbstractStep lib ttl (fun _ => True) (fun _ => False))
      AbstractStore.empty
      (trace (storageStep lib) (emptyWorld capacity ttl nvs hcapacity)
        (events.map (saveOp now))) store) :
    events.length ≤ capacity := by
  obtain ⟨hcount, hmax⟩ := indexCount_of_unrefused_run events
    (emptyWorld capacity ttl nvs hcapacity) AbstractStore.empty store hids (fun _ _ => rfl)
    hrun
  have hle := (finalState (storageStep lib) (emptyWorld capacity ttl nvs hcapacity)
    (events.map (saveOp now))).engine.indexCount_le
  have hstart : (emptyWorld capacity ttl nvs hcapacity).engine.maxIndexEntries = capacity := by
    simp [emptyWorld, freshEngine, StorageEngine.maxIndexEntries]
  rw [hstart] at hmax
  rw [hcount] at hle
  exact le_trans (Nat.le_add_left _ _) (le_trans hle (le_of_eq hmax))

end Full

/--
The list without the refusal is not refined: after 1000 saves of distinct notes an index with
1000 slots refuses the next one, although every call succeeds.
-/
theorem full_list_refuses_save :
    let lib := Sample.library (Sample.notes 1001)
    let ops := (Sample.notes 1001).map (saveOp 1700000000)
    (∀ op ∈ ops, op.env.Succeeds) ∧
      (∀ op ∈ ops, ∀ event, op.call = .save event →
        (lib.eventSerialize event storageMaxEventSize).isSome = true) ∧
      saveCount ops < 2 ^ 32 ∧
      ¬ ∃ store,
        AbstractRun (AbstractStep lib 1814400 (fun _ => True) (fun _ => False))
          AbstractStore.empty
          (trace (storageStep lib) (emptyWorld 1000 1814400 NvsStore.erased (by decide))
            ops)
          store := by
  intro lib ops
  have hsaveOps : ∀ op ∈ ops, ∃ i < 1001, op = saveOp 1700000000 (Sample.numbered i) := by
    intro op hop
    obtain ⟨event, hevent, rfl⟩ := List.mem_map.mp hop
    obtain ⟨i, hi, rfl⟩ := List.mem_map.mp hevent
    exact ⟨i, List.mem_range.mp hi, rfl⟩
  refine ⟨?_, ?_, ?_, ?_⟩
  · intro op hop
    obtain ⟨i, _, rfl⟩ := hsaveOps op hop
    exact CallEnv.undisturbed_succeeds _
  · intro op hop event hcall
    obtain ⟨i, hi, rfl⟩ := hsaveOps op hop
    obtain rfl : Sample.numbered i = event := StorageCall.save.inj hcall
    exact Sample.serialize_note (Sample.numbered_mem_notes hi)
  · have hle : saveCount ops ≤ ops.length := List.countP_le_length
    have hlength : ops.length = 1001 := by simp [ops, Sample.notes]
    omega
  · rintro ⟨store, hrun⟩
    have hids : ((Sample.notes 1001).map (·.id)).Nodup :=
      Sample.notes_ids_nodup (by norm_num)
    have hle := length_le_capacity (by decide) hids hrun
    rw [Sample.notes, List.length_map, List.length_range] at hle
    omega

end Storage
end WispRelay
