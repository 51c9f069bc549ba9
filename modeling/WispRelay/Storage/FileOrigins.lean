import WispRelay.Storage.QueryResults
import WispRelay.Storage.Restart

/-!
# Where the contents of files come from

A file is created only by a save, at the path of the event that is saved, and then it holds the
front of its text, whatever fails.  Everything else that happens to files removes them.  So a
property of all the events that are ever saved, and of the paths they are saved at, is one of
everything that is ever read, through failures, restarts and power cuts, and whatever becomes of
the index.

* `FilesOf`: every file was written for an event with the property.
* `storageCall_filesOf` and `storageInit_filesOf`: what keeps it.
* `FilesOf.of_query`: what a query returns has the property.
-/

namespace WispRelay
namespace Storage

/-- Every file was written for an event with the property, which may speak of the path. -/
def FilesOf
    (lib : Libnostr)
    (P : CString → NostrEvent → Prop)
    (files : Files) : Prop :=
  ∀ path content, files path = some content →
    ∃ event, P path event ∧ WrittenFor lib event (some content)

namespace FilesOf

variable
  {lib : Libnostr}
  {P P' : CString → NostrEvent → Prop}
  {files files' : Files}

theorem none : FilesOf lib P (fun _ => none) := by
  rintro path content ⟨⟩

theorem mono
    (h : FilesOf lib P files)
    (himp : ∀ path event, P path event → P' path event) :
    FilesOf lib P' files := by
  intro path content hcontent
  obtain ⟨event, hP, hwritten⟩ := h path content hcontent
  exact ⟨event, himp path event hP, hwritten⟩

/-- Files may be removed, and written for an event with the property. -/
theorem change
    (h : FilesOf lib P files)
    (hfiles : ∀ path content, files' path = some content →
      files path = some content ∨
        ∃ event, P path event ∧ WrittenFor lib event (some content)) :
    FilesOf lib P files' := by
  intro path content hcontent
  rcases hfiles path content hcontent with hold | hnew
  · exact h path content hold
  · exact hnew

theorem shrunk
    (h : FilesOf lib P files)
    (hfiles : ∀ path, files' path = files path ∨ files' path = Option.none) :
    FilesOf lib P files' := by
  refine h.change fun path content hcontent => .inl ?_
  rcases hfiles path with hsame | hgone
  · rw [← hsame, hcontent]
  · rw [hgone] at hcontent
    cases hcontent

end FilesOf

/-! ## What a call does to the files -/

section Files

variable
  (lib : Libnostr)
  (env : CallEnv)

/-- Removing one file more. -/
theorem shrunk_trans_unlink
    {files files' : Files}
    {path : CString}
    (h : ∀ p, files' p = unlink env files path p ∨ files' p = none) :
    ∀ p, files' p = files p ∨ files' p = none := by
  intro p
  rcases h p with hsame | hgone
  · rw [hsame]
    exact unlink_shrunk env files path p
  · exact .inr hgone

theorem purgeLoop_shrunk
    (entries : List StorageIndexEntry) :
    ∀ (files : Files) (p : CString),
      (purgeLoop lib env entries files).2.1 p = files p ∨
        (purgeLoop lib env entries files).2.1 p = none := by
  induction entries with
  | nil =>
      intro files p
      exact .inl rfl
  | cons entry rest ih =>
      intro files
      unfold purgeLoop
      split_ifs
      · exact ih files
      · exact shrunk_trans_unlink env (ih _)
      · exact ih files

theorem queryScan_shrunk
    (filter : NostrFilter)
    (limit : Nat)
    (entries : List StorageIndexEntry) :
    ∀ (files : Files) (events : List NostrEvent) (p : CString),
      (queryScan lib env filter limit entries files events).files p = files p ∨
        (queryScan lib env filter limit entries files events).files p = none := by
  induction entries with
  | nil =>
      intro files events p
      exact .inl rfl
  | cons entry older ih =>
      intro files events
      unfold queryScan
      split_ifs
      · exact fun p => .inl rfl
      · exact ih files events
      · exact shrunk_trans_unlink env (ih _ events)
      · exact ih files events
      · cases loadEventFromFile lib env files (entry.path lib) with
        | none => exact ih files events
        | some event => exact ih files _

/-- What a save leaves in a file was there before, or is the front of the text of its event. -/
theorem storageSaveEvent_files
    (world : StorageWorld)
    (event : NostrEvent)
    (path content : CString)
    (hcontent : (storageSaveEvent lib env world event).2.files path = some content) :
    world.files path = some content ∨
      path = getEventPath lib event.id world.engine.nextFileIndex ∧
        WrittenFor lib event (some content) := by
  -- removing a file and writing the front of a text
  have hupdate : ∀ json, lib.eventSerialize event storageMaxEventSize = some json → ∀ n,
      Function.update world.files (getEventPath lib event.id world.engine.nextFileIndex)
          (some (json.take n)) path = some content →
        world.files path = some content ∨
          path = getEventPath lib event.id world.engine.nextFileIndex ∧
            WrittenFor lib event (some content) := by
    intro json hjson n hnew
    by_cases hpath : path = getEventPath lib event.id world.engine.nextFileIndex
    · subst hpath
      rw [Function.update_self] at hnew
      refine .inr ⟨rfl, fun stored hstored => ⟨json, hjson, ?_⟩⟩
      rw [← Option.some.inj (hnew.trans hstored)]
      exact List.take_prefix n json
    · rw [Function.update_of_ne hpath] at hnew
      exact .inl hnew
  unfold storageSaveEvent at hcontent
  split at hcontent
  · exact .inl hcontent
  split at hcontent
  · exact .inl hcontent
  split at hcontent
  case isFalse => exact .inl hcontent
  split at hcontent
  · exact .inl hcontent
  split at hcontent
  · exact .inl hcontent
  rename_i json hserialize
  have hjson : lib.eventSerialize event storageMaxEventSize = some json := by
    split at hserialize
    · exact hserialize
    · cases hserialize
  dsimp only at hcontent
  split at hcontent
  · exact .inl hcontent
  split at hcontent
  · rcases unlink_shrunk env _ _ path with hkept | hgone
    · exact hupdate json hjson _ (hkept.symm.trans hcontent)
    · cases hgone.symm.trans hcontent
  · split at hcontent <;> exact hupdate json hjson _ hcontent

/-- A call that does not save only removes files. -/
theorem storageCall_shrunk
    (world : StorageWorld)
    (call : StorageCall)
    (hquiet : ∀ event, call ≠ .save event)
    (p : CString) :
    (storageCall lib env world call).2.files p = world.files p ∨
      (storageCall lib env world call).2.files p = none := by
  cases call with
  | save event => exact absurd rfl (hquiet event)
  | delete eventId =>
      change (storageDeleteEvent lib env world eventId).2.files p = _ ∨
        (storageDeleteEvent lib env world eventId).2.files p = none
      unfold storageDeleteEvent
      split
      · exact .inl rfl
      · split
        · exact .inl rfl
        · exact unlink_shrunk env _ _ p
  | get eventId => exact .inl rfl
  | eventExists eventId => exact .inl rfl
  | query filter limit =>
      unfold storageCall storageQueryEvents
      split_ifs
      · exact .inl rfl
      · exact .inl rfl
      · exact queryScan_shrunk lib env filter _ _ _ _ p
  | purge =>
      unfold storageCall storagePurgeExpired
      dsimp only
      split_ifs
      · exact .inl rfl
      · exact purgeLoop_shrunk lib env _ _ p
      · exact purgeLoop_shrunk lib env _ _ p
  | compact =>
      unfold storageCall storageCompactIndex
      dsimp only
      split_ifs <;> exact .inl rfl
  | stats => exact .inl rfl

/-- Every call keeps a property of all events that are saved. -/
theorem storageCall_filesOf
    {P : CString → NostrEvent → Prop}
    {world : StorageWorld}
    (h : FilesOf lib P world.files)
    {call : StorageCall}
    (hsave : ∀ event, call = .save event →
      P (getEventPath lib event.id world.engine.nextFileIndex) event) :
    FilesOf lib P (storageCall lib env world call).2.files := by
  by_cases hquiet : ∀ event, call ≠ .save event
  · exact h.shrunk (storageCall_shrunk lib env world call hquiet)
  · push Not at hquiet
    obtain ⟨event, rfl⟩ := hquiet
    refine h.change fun path content hcontent => ?_
    refine (storageSaveEvent_files lib env world event path content hcontent).imp_right ?_
    rintro ⟨rfl, hwritten⟩
    exact ⟨event, hsave event rfl, hwritten⟩

end Files

/-- So does a start, which at most formats the flash. -/
theorem storageInit_filesOf
    {lib : Libnostr}
    {P : CString → NostrEvent → Prop}
    {files : Files}
    (h : FilesOf lib P files)
    (env : InitEnv)
    (ttl : UInt32)
    (nvs : NvsStore) :
    FilesOf lib P (storageInit env ttl files nvs).2.files := by
  unfold storageInit
  dsimp only
  split
  · exact h
  split
  · exact h
  · cases env.mount with
    | mounted => exact h
    | formatted => exact FilesOf.none
    | failed => exact h

/-- And a stop and a start. -/
theorem restart_filesOf
    {lib : Libnostr}
    {P : CString → NostrEvent → Prop}
    {w : LoggedWorld}
    (h : FilesOf lib P w.world.files)
    (stop : Option CallEnv)
    (env : InitEnv)
    (ttl : UInt32) :
    FilesOf lib P (flashStep lib w (.restart stop env ttl)).2.world.files := by
  refine storageInit_filesOf ?_ env ttl _
  cases stop with
  | none => exact h
  | some stopEnv =>
      unfold stopped storageDestroy
      dsimp only
      split_ifs <;> exact h

/-! ## What is read -/

section Reading

variable
  {lib : Libnostr}
  (hlib : lib.StorageLaws)
  (hcut : lib.TruncationLaw)
  {P : CString → NostrEvent → Prop}
include hlib hcut

/-- What can be read has the property. -/
theorem FilesOf.of_load
    {files : Files}
    (h : FilesOf lib P files)
    {env : CallEnv}
    {path : CString}
    {event : NostrEvent}
    (hload : loadEventFromFile lib env files path = some event) :
    P path event := by
  obtain ⟨json, hjson, -⟩ := parsesTo_of_load hload
  obtain ⟨written, hP, hwritten⟩ := h path json hjson
  rw [← hjson] at hwritten
  rw [hwritten.eq_of_load hlib hcut hload]
  exact hP

/-- What a query returns has the property. -/
theorem FilesOf.of_query
    {world : StorageWorld}
    (h : FilesOf lib P world.files)
    {env : CallEnv}
    {filter : NostrFilter}
    {limit : UInt16}
    {event : NostrEvent}
    (hmem : event ∈ (storageQueryEvents lib env world filter limit).1.2) :
    (∃ path, P path event) ∧ lib.filterMatches filter event = true := by
  obtain ⟨e, -, hread⟩ := storageQueryEvents_source hmem
  obtain ⟨files', hshrunk, hload⟩ := hread.loaded
  exact ⟨⟨_, (h.shrunk hshrunk).of_load hlib hcut hload⟩, hread.filterMatches⟩

end Reading

end Storage
end WispRelay
