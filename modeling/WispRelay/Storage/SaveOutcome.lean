import WispRelay.Storage.Restart

/-!
# What a save leaves when a call fails

A save can fail at six steps before anything is written, and then leaves everything alone.  A
short `fwrite` is noticed and the file removed.  But `fwrite` may only have buffered the text,
and what `fclose` returns is not looked at: when it cannot flush, the save succeeds and the file
is cut short.

* `ReachesWrite`: the save has opened the new file.
* `storageSaveEvent_of_reachesWrite`, `storageSaveEvent_refused`: what it does then, and before.
* `save_all_or_nothing_iff`: a save is all or nothing exactly when `fclose` loses no byte of a
  text that was written whole (and nothing was in the way of a file that has to be removed).
-/

namespace WispRelay
namespace Storage

/-- Everything before `fwrite` succeeds; `json` is the text to write. -/
structure ReachesWrite
    (lib : Libnostr)
    (env : CallEnv)
    (world : StorageWorld)
    (event : NostrEvent)
    (json : CString) : Prop where
  initialized : world.engine.initialized = true
  fresh : foundEntry world.engine event.id = none
  room : world.engine.indexCount < world.engine.maxIndexEntries
  mallocOk : env.mallocOk = true
  serializeOk : env.serializeOk = true
  serialized : lib.eventSerialize event storageMaxEventSize = some json
  opened : env.fopenOk = true ∨ env.fopenRetryOk = true

/-- `fwrite` reports the whole text as written. -/
def CallEnv.WritesAll
    (env : CallEnv)
    (json : CString) : Prop :=
  json.length ≤ env.fwriteShort.getD json.length

/-- `fclose` brings the whole text to the flash. -/
def CallEnv.FlushesAll
    (env : CallEnv)
    (json : CString) : Prop :=
  json.length ≤ env.fcloseShort.getD json.length

instance (env : CallEnv) (json : CString) : Decidable (env.WritesAll json) :=
  inferInstanceAs (Decidable (_ ≤ _))

instance (env : CallEnv) (json : CString) : Decidable (env.FlushesAll json) :=
  inferInstanceAs (Decidable (_ ≤ _))

/-- The path of the file a save creates. -/
def newPath
    (lib : Libnostr)
    (world : StorageWorld)
    (event : NostrEvent) : CString :=
  getEventPath lib event.id world.engine.nextFileIndex

/-- A save that returned `STORAGE_OK` has one more live record, with the whole text in its file. -/
structure SavedWhole
    (lib : Libnostr)
    (event : NostrEvent)
    (before after : StorageWorld) : Prop where
  record : ∃ e json, e.eventId = event.id ∧
    live after.engine.visible = live before.engine.visible ++ [e] ∧
    lib.eventSerialize event storageMaxEventSize = some json ∧
    after.files (e.path lib) = some json

/-- A save that returned an error has changed nothing. -/
structure SavedNothing
    (lib : Libnostr)
    (before after : StorageWorld) : Prop where
  index : after.engine.visible = before.engine.visible
  nextFileIndex : after.engine.nextFileIndex = before.engine.nextFileIndex
  liveFiles : ∀ e ∈ live before.engine.visible,
    after.files (e.path lib) = before.files (e.path lib)
  eventFiles : ∀ path, after.files path = none ↔ before.files path = none

/-- All or nothing. -/
def AllOrNothing
    (lib : Libnostr)
    (event : NostrEvent)
    (before : StorageWorld)
    (result : StorageError × StorageWorld) : Prop :=
  (result.1 = .storageOk → SavedWhole lib event before result.2) ∧
    (result.1 ≠ .storageOk → SavedNothing lib before result.2)

theorem SavedNothing.refl
    (lib : Libnostr)
    (world : StorageWorld) :
    SavedNothing lib world world where
  index := rfl
  nextFileIndex := rfl
  liveFiles := fun _ _ => rfl
  eventFiles := fun _ => Iff.rfl

section Outcome

variable
  {lib : Libnostr}
  {env : CallEnv}
  {world : StorageWorld}
  {event : NostrEvent}
  {json : CString}

/-- A save that does not get as far as `fwrite` fails and changes nothing. -/
theorem storageSaveEvent_refused
    (hrefused : ∀ json, ¬ ReachesWrite lib env world event json) :
    (storageSaveEvent lib env world event).1 ≠ .storageOk ∧
      (storageSaveEvent lib env world event).2 = world := by
  unfold storageSaveEvent
  by_cases hinit : world.engine.initialized = true
  case neg => simp [hinit]
  by_cases hfresh : foundEntry world.engine event.id = none
  case neg => simp [hinit, findIndexEntry_isSome, Option.isSome_iff_ne_none.mpr hfresh]
  by_cases hroom : world.engine.indexCount < world.engine.maxIndexEntries
  case neg => simp [hinit, findIndexEntry_isSome, hfresh, hroom]
  by_cases hmalloc : env.mallocOk = true
  case neg => simp [hinit, findIndexEntry_isSome, hfresh, hroom, hmalloc]
  by_cases hserialize : env.serializeOk = true
  case neg => simp [hinit, findIndexEntry_isSome, hfresh, hroom, hmalloc, hserialize]
  cases hjson : lib.eventSerialize event storageMaxEventSize with
  | none => simp [hinit, findIndexEntry_isSome, hfresh, hroom, hmalloc, hserialize]
  | some json =>
      by_cases hopened : env.fopenOk = true ∨ env.fopenRetryOk = true
      · exact absurd ⟨hinit, hfresh, hroom, hmalloc, hserialize, hjson, hopened⟩ (hrefused json)
      · rw [not_or, Bool.not_eq_true, Bool.not_eq_true] at hopened
        simp [hinit, findIndexEntry_isSome, hfresh, hroom, hmalloc, hserialize, hopened]

/-- A save that gets as far as `fwrite` appends the record, or removes the file again. -/
theorem storageSaveEvent_of_reachesWrite
    (h : ReachesWrite lib env world event json) :
    (env.WritesAll json ∧
      storageSaveEvent lib env world event =
        (.storageOk, persistEveryTenth env (appendWorld lib env world event json h.room))) ∨
    (¬ env.WritesAll json ∧
      ∃ content, storageSaveEvent lib env world event =
        (.io, { world with
          files := unlink env
            (Function.update world.files (newPath lib world event) (some content))
            (newPath lib world event) })) := by
  obtain ⟨hinit, hfresh, hroom, hmalloc, hserialize, hjson, hopened⟩ := h
  have hopen : (!env.fopenOk && !env.fopenRetryOk) = false := by
    rcases hopened with hok | hok <;> simp [hok]
  unfold storageSaveEvent
  simp only [hinit, findIndexEntry_isSome, hfresh, hroom, hmalloc, hserialize, hjson, hopen,
    Bool.not_true, Bool.false_eq_true, if_false, if_true, dif_pos, Option.isSome_none]
  by_cases hall : env.WritesAll json
  · refine Or.inl ⟨hall, ?_⟩
    have hwritten : min (env.fwriteShort.getD json.length) json.length = json.length :=
      min_eq_right hall
    rw [hwritten, if_neg (not_not_intro rfl)]
    rfl
  · have hwritten : min (env.fwriteShort.getD json.length) json.length ≠ json.length := by
      intro hmin
      exact hall (by unfold CallEnv.WritesAll; omega)
    rw [if_pos hwritten]
    exact Or.inr ⟨hall, _, rfl⟩

/-- A text written whole is saved whole when `fclose` loses none of it. -/
theorem savedWhole_append_iff
    (hroom : world.engine.indexCount < world.engine.maxIndexEntries)
    (hjson : lib.eventSerialize event storageMaxEventSize = some json) :
    SavedWhole lib event world
        (persistEveryTenth env (appendWorld lib env world event json hroom)) ↔
      env.FlushesAll json := by
  have hlive : live (appendWorld lib env world event json hroom).engine.visible =
      live world.engine.visible ++ [newEntry lib env.now world.engine event] := by
    rw [appendWorld, visible_append]
    exact live_snoc (newEntry_isDeleted lib env.now world.engine event)
  have hfile : (appendWorld lib env world event json hroom).files (newPath lib world event) =
      some (env.onFlash json) :=
    Function.update_self _ _ _
  have hflush : env.onFlash json = json ↔ env.FlushesAll json := by
    rw [CallEnv.onFlash, List.take_eq_self_iff, CallEnv.FlushesAll, le_min_iff]
    exact and_iff_left le_rfl
  constructor
  · rintro ⟨e, json', -, hlast, hjson', hcontent⟩
    rw [persistEveryTenth_engine, hlive] at hlast
    obtain rfl := List.singleton_injective (List.append_cancel_left hlast)
    obtain rfl : json = json' := Option.some.inj (hjson.symm.trans hjson')
    rw [persistEveryTenth_files, newEntry_path] at hcontent
    exact hflush.mp (Option.some.inj (hfile.symm.trans hcontent))
  · intro hflushes
    refine ⟨newEntry lib env.now world.engine event, json, rfl, ?_, hjson, ?_⟩
    · rw [persistEveryTenth_engine]
      exact hlive
    · rw [persistEveryTenth_files, newEntry_path]
      rw [hflush.mpr hflushes] at hfile
      exact hfile

/-- A removed file leaves everything as it was when nothing was at its path before. -/
theorem savedNothing_unlink_iff
    (lib : Libnostr)
    (world : StorageWorld)
    (hunlink : ∀ path, env.unlinkOk path = true)
    (path : CString)
    (content : List UInt8) :
    SavedNothing lib world
        { world with files := unlink env (Function.update world.files path (some content)) path } ↔
      world.files path = none := by
  rw [unlink_update, if_pos (hunlink path)]
  constructor
  · intro h
    exact (h.eventFiles path).mp (Function.update_self _ _ _)
  · intro hfree
    have hsame : Function.update world.files path none = world.files := by
      rw [← hfree]
      exact Function.update_eq_self path world.files
    rw [hsame]
    exact SavedNothing.refl lib world

end Outcome

/--
**A save is all or nothing exactly when `fclose` loses nothing.**  For every state and event and
all outcomes of the calls but `unlink`: a text written whole has to be flushed whole, and a file
that is removed after a short write must not have replaced one.
-/
theorem save_all_or_nothing_iff
    (lib : Libnostr)
    (env : CallEnv)
    (hunlink : ∀ path, env.unlinkOk path = true)
    (world : StorageWorld)
    (event : NostrEvent) :
    AllOrNothing lib event world (storageSaveEvent lib env world event) ↔
      ∀ json, ReachesWrite lib env world event json →
        if env.WritesAll json then env.FlushesAll json
        else world.files (newPath lib world event) = none := by
  by_cases hreach : ∃ json, ReachesWrite lib env world event json
  case neg =>
    rw [not_exists] at hreach
    obtain ⟨herror, hsame⟩ := storageSaveEvent_refused hreach
    refine iff_of_true ⟨fun hok => absurd hok herror, fun _ => ?_⟩ ?_
    · rw [hsame]
      exact SavedNothing.refl lib world
    · exact fun json h => absurd h (hreach json)
  obtain ⟨json, hjson⟩ := hreach
  have hunique : ∀ json', ReachesWrite lib env world event json' → json' = json := by
    intro json' h
    exact Option.some.inj (h.serialized.symm.trans hjson.serialized)
  rcases storageSaveEvent_of_reachesWrite hjson with ⟨hall, hsaved⟩ | ⟨hshort, content, hsaved⟩
  · rw [hsaved]
    calc AllOrNothing lib event world
          (.storageOk, persistEveryTenth env (appendWorld lib env world event json hjson.room))
        ↔ SavedWhole lib event world
            (persistEveryTenth env (appendWorld lib env world event json hjson.room)) :=
          ⟨fun h => h.1 rfl, fun h => ⟨fun _ => h, fun herror => absurd rfl herror⟩⟩
      _ ↔ env.FlushesAll json := savedWhole_append_iff hjson.room hjson.serialized
      _ ↔ _ := by
          constructor
          · intro hflush json' h
            rw [hunique json' h, if_pos hall]
            exact hflush
          · intro h
            have hflush := h json hjson
            rwa [if_pos hall] at hflush
  · rw [hsaved]
    have hremoved := savedNothing_unlink_iff lib world hunlink
      (newPath lib world event) content
    constructor
    · rintro ⟨-, hnothing⟩ json' h
      rw [hunique json' h, if_neg hshort]
      exact hremoved.mp (hnothing (by simp))
    · intro h
      have hfree := h json hjson
      rw [if_neg hshort] at hfree
      exact ⟨fun hok => by simp at hok, fun _ => hremoved.mpr hfree⟩

/-- A note is saved on an empty store and only ten of its bytes are written. -/
theorem save_all_or_nothing_iff_short_write :
    let lib := Sample.library (Sample.notes 1)
    let env := { CallEnv.undisturbed 1700000000 with fwriteShort := some 10 }
    let world := emptyWorld 1000 1814400 NvsStore.erased thousandSlots
    let event := Sample.numbered 0
    AllOrNothing lib event world (storageSaveEvent lib env world event) ↔
      ∀ json, ReachesWrite lib env world event json →
        if env.WritesAll json then env.FlushesAll json
        else world.files (newPath lib world event) = none := by
  intro lib env world event
  exact save_all_or_nothing_iff lib env (fun _ => rfl) world event

/-- `fwrite` only buffers the text, and `fclose` cannot write it. -/
def onlyBuffered : CallEnv :=
  { CallEnv.undisturbed 1700000000 with fcloseShort := some 0 }

/-- The store after a note was saved and its file left empty. -/
def unflushed : StorageError × StorageWorld :=
  storageSaveEvent (Sample.library (Sample.notes 1)) onlyBuffered
    (emptyWorld 1000 1814400 NvsStore.erased thousandSlots) (Sample.numbered 0)

/-- The save succeeds, the file is empty. -/
theorem unflushed_save_succeeds :
    unflushed.1 = .storageOk ∧
      ¬ AllOrNothing (Sample.library (Sample.notes 1)) (Sample.numbered 0)
          (emptyWorld 1000 1814400 NvsStore.erased thousandSlots) unflushed := by
  have hrun : unflushed.1 = .storageOk ∧
      (live unflushed.2.engine.visible).map
          (fun e => unflushed.2.files (e.path (Sample.library (Sample.notes 1)))) = [some []] ∧
      (Sample.library (Sample.notes 1)).eventSerialize (Sample.numbered 0) storageMaxEventSize ≠
        some [] := by
    decide +kernel
  obtain ⟨hok, hempty, hjson⟩ := hrun
  refine ⟨hok, ?_⟩
  rintro ⟨hwhole, -⟩
  obtain ⟨e, json, -, hlast, hserialized, hcontent⟩ := (hwhole hok).record
  have hlive : live unflushed.2.engine.visible = [e] := hlast
  rw [hlive] at hempty
  have hnothing : some json = some [] := hcontent.symm.trans (List.singleton_injective hempty)
  rw [hnothing] at hserialized
  exact hjson hserialized

end Storage
end WispRelay
