import WispRelay.Storage.Effects

/-!
# Invariants of the index and of the event files

Three facts about a list of records, its files and the next running number:

* `WellIndexed`: running numbers increase along the index and stay below the next one, and
  live records have distinct identifiers;
* `Owned`: every live record describes the event it was made for, what its file holds was
  written for that event, and it is the whole serialisation unless the record is stale;
* `NoOrphans`: every file belongs to a live record.

Which event a record was made for (`owner`) and which records may have lost their file
(`stale`) are parameters: without a restart no record is stale, while a restart can bring back
records whose file is gone because they had expired.

Each fact has one lemma for each kind of update.
-/

namespace WispRelay
namespace Storage

/-- Running numbers increase and identifiers of live records are unique. -/
structure WellIndexed
    (entries : List StorageIndexEntry)
    (next : UInt32) : Prop where
  increasing : entries.Pairwise (fun e e' => e.fileIndex.toNat < e'.fileIndex.toNat)
  below : ∀ e ∈ entries, e.fileIndex.toNat < next.toNat
  uniqueIds : ((live entries).map (·.eventId)).Nodup

/-- The record carries the data of the event. -/
structure Describes
    (entry : StorageIndexEntry)
    (event : NostrEvent) : Prop where
  eventId : entry.eventId = event.id
  createdAt : entry.createdAt = uint32OfInt64 event.createdAt
  kind : entry.kind = event.kind
  pubkeyPrefix : entry.pubkeyPrefix = bytesVector 4 (event.pubkey.toList.take 4)

/-- The file at a path holds the whole serialisation of an event. -/
def Holds
    (lib : Libnostr)
    (files : Files)
    (path : CString)
    (event : NostrEvent) : Prop :=
  ∃ json, lib.eventSerialize event storageMaxEventSize = some json ∧ files path = some json

/-- What is at a path, if anything, is the front of the serialisation of an event. -/
def WrittenFor
    (lib : Libnostr)
    (event : NostrEvent)
    (content : Option (List UInt8)) : Prop :=
  ∀ stored, content = some stored →
    ∃ json, lib.eventSerialize event storageMaxEventSize = some json ∧ stored <+: json

/-- Live records describe their events, and their files hold them unless stale. -/
def Owned
    (lib : Libnostr)
    (stale : StorageIndexEntry → Prop)
    (owner : StorageIndexEntry → Option NostrEvent)
    (entries : List StorageIndexEntry)
    (files : Files) : Prop :=
  ∀ e ∈ live entries, ∃ event,
    owner e = some event ∧ Describes e event ∧
    WrittenFor lib event (files (e.path lib)) ∧
    (stale e ∨ Holds lib files (e.path lib) event)

/-- Every file belongs to a live record. -/
def NoOrphans
    (lib : Libnostr)
    (entries : List StorageIndexEntry)
    (files : Files) : Prop :=
  ∀ path, files path ≠ none → ∃ e ∈ live entries, e.path lib = path

theorem describes_newEntry
    (lib : Libnostr)
    (now : UInt32)
    (engine : StorageEngine)
    (event : NostrEvent) :
    Describes (newEntry lib now engine event) event where
  eventId := rfl
  createdAt := rfl
  kind := rfl
  pubkeyPrefix := rfl

@[simp] theorem newEntry_isDeleted
    (lib : Libnostr)
    (now : UInt32)
    (engine : StorageEngine)
    (event : NostrEvent) :
    (newEntry lib now engine event).isDeleted = false := by
  simp [newEntry, StorageIndexEntry.isDeleted]

@[simp] theorem newEntry_path
    (lib : Libnostr)
    (now : UInt32)
    (engine : StorageEngine)
    (event : NostrEvent) :
    (newEntry lib now engine event).path lib =
      getEventPath lib event.id engine.nextFileIndex := by
  rfl

/-- What a save leaves in a file was written for its event. -/
theorem writtenFor_onFlash
    {lib : Libnostr}
    (env : CallEnv)
    {event : NostrEvent}
    {json : CString}
    (hjson : lib.eventSerialize event storageMaxEventSize = some json)
    {content : Option (List UInt8)}
    (hcontent : content = some (env.onFlash json)) :
    WrittenFor lib event content := by
  intro stored hstored
  obtain rfl : env.onFlash json = stored := Option.some.inj (hcontent.symm.trans hstored)
  exact ⟨json, hjson, List.take_prefix _ _⟩

theorem live_snoc
    {entries : List StorageIndexEntry}
    {e : StorageIndexEntry}
    (hlive : e.isDeleted = false) :
    live (entries ++ [e]) = live entries ++ [e] := by
  simp [live, hlive]

/-- What `find_index_entry` finds is a live record with the identifier. -/
theorem live_of_foundEntry
    {engine : StorageEngine}
    {eventId : Bytes32}
    {e : StorageIndexEntry}
    (hfound : foundEntry engine eventId = some e) :
    e ∈ live engine.visible ∧ e.eventId = eventId := by
  rw [foundEntry_eq_find_live] at hfound
  exact ⟨List.mem_of_find?_eq_some hfound, by simpa using List.find?_some hfound⟩

/-- No live record has an identifier that `find_index_entry` does not find. -/
theorem ne_of_foundEntry_eq_none
    {engine : StorageEngine}
    {eventId : Bytes32}
    (hnone : foundEntry engine eventId = none)
    {e : StorageIndexEntry}
    (hmem : e ∈ live engine.visible) :
    e.eventId ≠ eventId := by
  rw [foundEntry_eq_find_live, List.find?_eq_none] at hnone
  simpa using hnone e hmem

/-- The only live record with an identifier is found. -/
theorem foundEntry_eq_some
    {engine : StorageEngine}
    {eventId : Bytes32}
    {e : StorageIndexEntry}
    (hmem : e ∈ live engine.visible)
    (hid : e.eventId = eventId)
    (honly : ∀ e' ∈ live engine.visible, e'.eventId = eventId → e' = e) :
    foundEntry engine eventId = some e := by
  cases hfound : foundEntry engine eventId with
  | none => exact absurd hid (ne_of_foundEntry_eq_none hfound hmem)
  | some e' =>
      obtain ⟨hmem', hid'⟩ := live_of_foundEntry hfound
      rw [honly e' hmem' hid']

theorem foundEntry_eq_none
    {engine : StorageEngine}
    {eventId : Bytes32}
    (hnone : ∀ e ∈ live engine.visible, e.eventId ≠ eventId) :
    foundEntry engine eventId = none := by
  cases hfound : foundEntry engine eventId with
  | none => rfl
  | some e =>
      obtain ⟨hmem, hid⟩ := live_of_foundEntry hfound
      exact absurd hid (hnone e hmem)

/-! ## Running numbers and identifiers -/

namespace WellIndexed

variable
  {entries : List StorageIndexEntry}
  {next : UInt32}

theorem nil : WellIndexed [] next where
  increasing := List.Pairwise.nil
  below := by simp
  uniqueIds := by simp

theorem nodup_fileIndex
    (h : WellIndexed entries next) :
    (entries.map (·.fileIndex)).Nodup := by
  unfold List.Nodup
  rw [List.pairwise_map]
  refine h.increasing.imp ?_
  intro e e' hlt heq
  rw [heq] at hlt
  exact Nat.lt_irrefl _ hlt

/-- No record has the path of a file that is still to be created. -/
theorem path_ne
    (h : WellIndexed entries next)
    {lib : Libnostr}
    {e : StorageIndexEntry}
    (hmem : e ∈ entries)
    {eventId : Bytes32}
    {index : UInt32}
    (hindex : next.toNat ≤ index.toNat) :
    e.path lib ≠ getEventPath lib eventId index := by
  intro hpath
  have hlt := h.below e hmem
  rw [getEventPath_fileIndex hpath] at hlt
  omega

/-- The records in use after a sweep. -/
theorem swept
    {lib : Libnostr}
    {env : CallEnv}
    {Q : StorageIndexEntry → Prop}
    {after : List StorageIndexEntry}
    {files files' : Files}
    (h : WellIndexed entries next)
    (hswept : Swept lib env Q entries after files files') :
    WellIndexed after next where
  increasing := by
    have hinc : (entries.map (·.fileIndex)).Pairwise (fun a b => a.toNat < b.toNat) :=
      List.pairwise_map.mpr h.increasing
    rw [← hswept.map_fileIndex] at hinc
    rwa [List.pairwise_map] at hinc
  below := by
    intro e hmem
    have hindex : e.fileIndex ∈ entries.map (·.fileIndex) := by
      rw [← hswept.map_fileIndex]
      exact List.mem_map_of_mem hmem
    obtain ⟨e', hmem', heq⟩ := List.mem_map.mp hindex
    rw [← heq]
    exact h.below e' hmem'
  uniqueIds := h.uniqueIds.sublist (hswept.live_sublist_live.map _)

/-- The records in use after a compaction. -/
theorem compact
    (h : WellIndexed entries next) :
    WellIndexed (live entries) next where
  increasing := h.increasing.sublist (live_sublist entries)
  below := fun e hmem => h.below e ((live_sublist entries).subset hmem)
  uniqueIds := by simpa using h.uniqueIds

/-- The records in use after a save. -/
theorem append
    (h : WellIndexed entries next)
    {e : StorageIndexEntry}
    (hindex : e.fileIndex = next)
    (hroom : next.toNat + 1 < 2 ^ 32)
    (hfresh : ∀ e' ∈ live entries, e'.eventId ≠ e.eventId) :
    WellIndexed (entries ++ [e]) (next + 1) := by
  have hnext : (next + 1).toNat = next.toNat + 1 := FixedWidth.toNat_succ hroom
  refine ⟨?_, ?_, ?_⟩
  · rw [List.pairwise_append]
    refine ⟨h.increasing, List.pairwise_singleton _ _, ?_⟩
    intro e' hmem' e'' hmem''
    rw [List.mem_singleton.mp hmem'', hindex]
    exact h.below e' hmem'
  · intro e' hmem'
    rw [hnext]
    rcases List.mem_append.mp hmem' with hold | hnew
    · have hlt := h.below e' hold
      omega
    · rw [List.mem_singleton.mp hnew, hindex]
      omega
  · by_cases hlive : e.isDeleted = false
    · rw [live_snoc hlive, List.map_append, List.nodup_append]
      refine ⟨h.uniqueIds, by simp, ?_⟩
      intro id hid id' hid'
      obtain ⟨e', hmem', rfl⟩ := List.mem_map.mp hid
      rw [List.map_singleton, List.mem_singleton] at hid'
      rw [hid']
      exact hfresh e' hmem'
    · rw [live_append, live_cons, if_pos (by simpa using hlive)]
      simpa using h.uniqueIds

/-- At most one live record has an identifier. -/
theorem eq_of_eventId
    (h : WellIndexed entries next)
    {e e' : StorageIndexEntry}
    (hmem : e ∈ live entries)
    (hmem' : e' ∈ live entries)
    (hid : e.eventId = e'.eventId) :
    e = e' :=
  List.inj_on_of_nodup_map h.uniqueIds hmem hmem' hid

end WellIndexed

/-! ## The files of live records -/

namespace Owned

variable
  {lib : Libnostr}
  {stale : StorageIndexEntry → Prop}
  {owner : StorageIndexEntry → Option NostrEvent}
  {entries : List StorageIndexEntry}
  {files : Files}

theorem nil : Owned lib stale owner [] files := by
  intro e hmem
  simp at hmem

/-- Staleness can grow, and the file of a record that is stale now can be lost. -/
theorem frame
    (h : Owned lib stale owner entries files)
    {stale' : StorageIndexEntry → Prop}
    {owner' : StorageIndexEntry → Option NostrEvent}
    {files' : Files}
    (hstale : ∀ e ∈ live entries, stale e → stale' e)
    (howner : ∀ e ∈ live entries, owner' e = owner e)
    (hfiles : ∀ e ∈ live entries, files' (e.path lib) = files (e.path lib) ∨
      (stale' e ∧ files' (e.path lib) = none)) :
    Owned lib stale' owner' entries files' := by
  intro e hmem
  obtain ⟨event, hevent, hdescribes, hwritten, hfile⟩ := h e hmem
  refine ⟨event, (howner e hmem).trans hevent, hdescribes, ?_⟩
  rcases hfiles e hmem with hsame | ⟨hnow, hlost⟩
  · refine ⟨hsame.symm ▸ hwritten, hfile.imp (hstale e hmem) ?_⟩
    rintro ⟨json, hjson, hcontent⟩
    exact ⟨json, hjson, hsame.trans hcontent⟩
  · refine ⟨?_, Or.inl hnow⟩
    intro stored hstored
    rw [hlost] at hstored
    cases hstored

/-- The records in use after a sweep. -/
theorem swept
    {next : UInt32}
    (h : Owned lib stale owner entries files)
    (hindex : WellIndexed entries next)
    {env : CallEnv}
    {Q : StorageIndexEntry → Prop}
    {after : List StorageIndexEntry}
    {files' : Files}
    (hswept : Swept lib env Q entries after files files') :
    Owned lib stale owner after files' := by
  intro e hmem
  obtain ⟨hafter, hlive⟩ := mem_live.mp hmem
  obtain ⟨event, hevent, hdescribes, hwritten, hfile⟩ :=
    h e (mem_live.mpr ⟨hswept.mem_of_live hafter hlive, hlive⟩)
  have hsame := hswept.file_eq hindex.nodup_fileIndex hafter hlive
  refine ⟨event, hevent, hdescribes, hsame.symm ▸ hwritten, hfile.imp_right ?_⟩
  rintro ⟨json, hjson, hcontent⟩
  exact ⟨json, hjson, hsame.trans hcontent⟩

/-- The records in use after a compaction. -/
theorem compact
    (h : Owned lib stale owner entries files) :
    Owned lib stale owner (live entries) files := by
  intro e hmem
  rw [live_live] at hmem
  exact h e hmem

/-- The records in use after a save. -/
theorem append
    (h : Owned lib stale owner entries files)
    {e : StorageIndexEntry}
    {event : NostrEvent}
    (hlive : e.isDeleted = false)
    (hevent : owner e = some event)
    (hdescribes : Describes e event)
    (hwritten : WrittenFor lib event (files (e.path lib)))
    (hfile : stale e ∨ Holds lib files (e.path lib) event) :
    Owned lib stale owner (entries ++ [e]) files := by
  intro e' hmem
  rw [live_snoc hlive] at hmem
  rcases List.mem_append.mp hmem with hold | hnew
  · exact h e' hold
  · rw [List.mem_singleton.mp hnew]
    exact ⟨event, hevent, hdescribes, hwritten, hfile⟩

end Owned

/-! ## One call -/

/--
Every call keeps the two facts.  Owners and staleness may change with the call: owners of
listed records stay, a new record gets its event, and it is stale unless its file is complete.
-/
theorem StorageEffect.keeps
    {lib : Libnostr}
    {env : CallEnv}
    {world world' : StorageWorld}
    {call : StorageCall}
    {saved : Option NostrEvent}
    (heffect : StorageEffect lib env world call saved world')
    (hindex : WellIndexed world.engine.visible world.engine.nextFileIndex)
    (hroom : saved.isSome = true → world.engine.nextFileIndex.toNat + 1 < 2 ^ 32)
    {stale stale' : StorageIndexEntry → Prop}
    {owner owner' : StorageIndexEntry → Option NostrEvent}
    (howned : Owned lib stale owner world.engine.visible world.files)
    (hstale : ∀ e, stale e → stale' e)
    (howner : ∀ e ∈ live world.engine.visible,
      (∀ event, saved = some event → e.eventId ≠ event.id) → owner' e = owner e)
    (hnew : ∀ event, saved = some event →
      owner' (newEntry lib env.now world.engine event) = some event ∧
        (stale' (newEntry lib env.now world.engine event) ∨ env.fcloseShort = none)) :
    WellIndexed world'.engine.visible world'.engine.nextFileIndex ∧
      Owned lib stale' owner' world'.engine.visible world'.files := by
  have hkept : ∀ e ∈ live world.engine.visible, saved = none → owner' e = owner e := by
    intro e hmem hnone
    refine howner e hmem ?_
    intro event hevent
    rw [hnone] at hevent
    cases hevent
  have hpath : ∀ (e : StorageIndexEntry) (eventId : Bytes32),
      e ∈ live world.engine.visible →
      e.path lib ≠ getEventPath lib eventId world.engine.nextFileIndex := by
    intro e eventId hmem
    exact hindex.path_ne (mem_live.mp hmem).1 le_rfl
  cases heffect with
  | idle =>
      refine ⟨hindex, howned.frame (fun e _ => hstale e) (fun e he => hkept e he rfl) ?_⟩
      intro e _
      exact Or.inl rfl
  | discard event leftover hgone =>
      refine ⟨hindex, howned.frame (fun e _ => hstale e) (fun e he => hkept e he rfl) ?_⟩
      intro e hmem
      exact Or.inl (Function.update_of_ne (hpath e event.id hmem) _ _)
  | append event json hcapacity hfresh hjson =>
      have hids : ∀ e ∈ live world.engine.visible, e.eventId ≠ event.id :=
        fun e hmem => ne_of_foundEntry_eq_none hfresh hmem
      obtain ⟨hevent, hcomplete⟩ := hnew event rfl
      simp only [persistEveryTenth_engine, persistEveryTenth_files, appendWorld,
        visible_append, append_nextFileIndex]
      refine ⟨hindex.append rfl (hroom rfl) hids, Owned.append ?_
        (newEntry_isDeleted lib env.now world.engine event) hevent
        (describes_newEntry lib env.now world.engine event)
        (writtenFor_onFlash env hjson (by simp)) (hcomplete.imp_right ?_)⟩
      · refine howned.frame (fun e _ => hstale e) ?_ ?_
        · intro e hmem
          refine howner e hmem ?_
          intro event' hevent'
          exact Option.some.inj hevent' ▸ hids e hmem
        · intro e hmem
          exact Or.inl (Function.update_of_ne (hpath e event.id hmem) _ _)
      · intro hflushed
        exact ⟨json, hjson, by simp [CallEnv.onFlash, hflushed]⟩
  | expire filter limit entries files hlen hswept =>
      simp only [sweepWorld, StorageEngine.visible_withVisible,
        StorageEngine.withVisible_nextFileIndex]
      refine ⟨hindex.swept hswept, (howned.frame (fun e _ => hstale e)
        (fun e he => hkept e he rfl) ?_).swept hindex hswept⟩
      intro e _
      exact Or.inl rfl
  | sweep Q entries files hlen hswept =>
      simp only [persist_engine, persist_files, sweepWorld, StorageEngine.visible_withVisible,
        StorageEngine.withVisible_nextFileIndex]
      refine ⟨hindex.swept hswept, (howned.frame (fun e _ => hstale e)
        (fun e he => hkept e he rfl) ?_).swept hindex hswept⟩
      intro e _
      exact Or.inl rfl
  | compact =>
      simp only [persist_engine, persist_files, visible_compact, compact_nextFileIndex]
      refine ⟨hindex.compact, (howned.frame (fun e _ => hstale e)
        (fun e he => hkept e he rfl) ?_).compact⟩
      intro e _
      exact Or.inl rfl

/-! ## Files without a record -/

namespace NoOrphans

variable
  {lib : Libnostr}
  {entries : List StorageIndexEntry}
  {files : Files}

/-- Creating or removing the file of a path without a record. -/
theorem remove
    (h : NoOrphans lib entries files)
    (path : CString) :
    NoOrphans lib entries (Function.update files path none) := by
  intro p hp
  by_cases hpath : p = path
  · subst hpath
    simp at hp
  · rw [Function.update_of_ne hpath] at hp
    exact h p hp

theorem swept
    (h : NoOrphans lib entries files)
    {env : CallEnv}
    (hunlink : ∀ path, env.unlinkOk path = true)
    {Q : StorageIndexEntry → Prop}
    {after : List StorageIndexEntry}
    {files' : Files}
    (hswept : Swept lib env Q entries after files files') :
    NoOrphans lib after files' := by
  intro p hp
  by_cases hgone : ∃ e ∈ entries, e.isDeleted = false ∧ e ∉ after ∧ e.path lib = p
  · obtain ⟨e, hmem, hlive, hnot, rfl⟩ := hgone
    exact absurd (hswept.removed e hmem hlive hnot (hunlink _)) hp
  · push Not at hgone
    rw [hswept.untouched p hgone] at hp
    obtain ⟨e, hmem, hpath⟩ := h p hp
    obtain ⟨hbefore, hlive⟩ := mem_live.mp hmem
    by_cases hafter : e ∈ after
    · exact ⟨e, mem_live.mpr ⟨hafter, hlive⟩, hpath⟩
    · exact absurd hpath (hgone e hbefore hlive hafter)

theorem compact
    (h : NoOrphans lib entries files) :
    NoOrphans lib (live entries) files := by
  intro p hp
  rw [live_live]
  exact h p hp

theorem append
    (h : NoOrphans lib entries files)
    {e : StorageIndexEntry}
    (hlive : e.isDeleted = false)
    (content : Option (List UInt8)) :
    NoOrphans lib (entries ++ [e]) (Function.update files (e.path lib) content) := by
  intro p hp
  rw [live_snoc hlive]
  by_cases hpath : p = e.path lib
  · exact ⟨e, by simp, hpath.symm⟩
  · rw [Function.update_of_ne hpath] at hp
    obtain ⟨e', hmem, hpath'⟩ := h p hp
    exact ⟨e', List.mem_append_left _ hmem, hpath'⟩

end NoOrphans

end Storage
end WispRelay
