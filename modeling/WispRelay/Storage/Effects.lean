import WispRelay.Storage.Engine

/-!
# What one call does

Every operation of the engine does one of six things to the index and the files: nothing; it
discards the file of a save that failed; it appends a record with its file; it sets the deleted
flag of some live records and unlinks their files, with or without persisting the index; or it
drops the deleted records and persists.

`StorageEffect` lists these cases and `storageCall_effect` proves that there is no other,
whatever fails.  The invariants of later modules are proved once for each case and never by
unfolding an operation.
-/

namespace WispRelay
namespace Storage

/-- `unlink` succeeds, and what `fwrite` accepted reaches the flash when the file is closed. -/
structure CallEnv.KeepsFiles (env : CallEnv) : Prop where
  unlinkOk : ∀ path, env.unlinkOk path = true
  fcloseOk : env.fcloseShort = none

/-- Every call to the allocator, the file system and the NVS store succeeds. -/
structure CallEnv.Succeeds
    (env : CallEnv) : Prop extends env.KeepsFiles where
  mallocOk : env.mallocOk = true
  serializeOk : env.serializeOk = true
  fopenOk : env.fopenOk = true
  fwriteOk : env.fwriteShort = none
  readOk : ∀ path, env.readOk path = true
  nvsOk : ∀ call, env.nvs call = .ok

/-- A call at a given time in which nothing fails. -/
def CallEnv.undisturbed
    (now : UInt32) : CallEnv where
  now := now
  mallocOk := true
  serializeOk := true
  fopenOk := true
  fopenRetryOk := true
  fwriteShort := none
  fcloseShort := none
  unlinkOk := fun _ => true
  readOk := fun _ => true
  nvs := fun _ => .ok
  fsTotal := 0x500000
  fsUsed := 0

theorem CallEnv.undisturbed_succeeds
    (now : UInt32) :
    (CallEnv.undisturbed now).Succeeds where
  unlinkOk := fun _ => rfl
  fcloseOk := rfl
  mallocOk := rfl
  serializeOk := rfl
  fopenOk := rfl
  fwriteOk := rfl
  readOk := fun _ => rfl
  nvsOk := fun _ => rfl

theorem unlink_eq
    {env : CallEnv}
    (henv : env.KeepsFiles)
    (files : Files)
    (path : CString) :
    unlink env files path = Function.update files path none := by
  simp [unlink, henv.unlinkOk]

theorem unlink_of_ne
    (env : CallEnv)
    (files : Files)
    {path p : CString}
    (hne : p ≠ path) :
    unlink env files path p = files p := by
  unfold unlink
  split
  · exact Function.update_of_ne hne _ _
  · rfl

/-- Unlinking the file just written. -/
theorem unlink_update
    (env : CallEnv)
    (files : Files)
    (path : CString)
    (content : Option (List UInt8)) :
    unlink env (Function.update files path content) path =
      Function.update files path (if env.unlinkOk path then none else content) := by
  unfold unlink
  split
  · exact Function.update_idem _ _ _
  · rfl

theorem unlink_shrunk
    (env : CallEnv)
    (files : Files)
    (path p : CString) :
    unlink env files path p = files p ∨ unlink env files path p = none := by
  by_cases hp : p = path
  · subst hp
    unfold unlink
    split
    · exact Or.inr (Function.update_self _ _ _)
    · exact Or.inl rfl
  · exact Or.inl (unlink_of_ne env files hp)

/-! ## Records in use after an update of the engine -/

section Visible

variable (engine : StorageEngine)

@[simp] theorem visible_append
    (entry : StorageIndexEntry)
    (hroom : engine.indexCount < engine.maxIndexEntries) :
    (engine.append entry hroom).visible = engine.visible ++ [entry] := by
  have hlt : engine.indexCount < engine.index.length := hroom
  simp only [StorageEngine.append, StorageEngine.visible]
  rw [List.take_add_one, List.getElem?_set_self hlt, List.take_set,
    List.set_eq_of_length_le (by simp)]
  rfl

@[simp] theorem append_indexCount
    (entry : StorageIndexEntry)
    (hroom : engine.indexCount < engine.maxIndexEntries) :
    (engine.append entry hroom).indexCount = engine.indexCount + 1 := rfl

@[simp] theorem append_nextFileIndex
    (entry : StorageIndexEntry)
    (hroom : engine.indexCount < engine.maxIndexEntries) :
    (engine.append entry hroom).nextFileIndex = engine.nextFileIndex + 1 := rfl

@[simp] theorem append_maxIndexEntries
    (entry : StorageIndexEntry)
    (hroom : engine.indexCount < engine.maxIndexEntries) :
    (engine.append entry hroom).maxIndexEntries = engine.maxIndexEntries := by
  simp [StorageEngine.append, StorageEngine.maxIndexEntries]

@[simp] theorem visible_compact :
    engine.compact.visible = live engine.visible := by
  simp [StorageEngine.compact, StorageEngine.visible, compactLoop_eq]

@[simp] theorem compact_indexCount :
    engine.compact.indexCount = (live engine.visible).length := by
  simp [StorageEngine.compact, compactLoop_eq]

@[simp] theorem compact_nextFileIndex :
    engine.compact.nextFileIndex = engine.nextFileIndex := rfl

@[simp] theorem compact_maxIndexEntries :
    engine.compact.maxIndexEntries = engine.maxIndexEntries := by
  have hlive := (live_sublist engine.visible).length_le
  have hcount := engine.indexCount_le
  simp only [StorageEngine.compact, StorageEngine.maxIndexEntries, compactLoop_eq,
    StorageEngine.visible_length, List.length_append, List.length_drop] at hlive ⊢
  omega

@[simp] theorem persist_engine
    (env : CallEnv)
    (world : StorageWorld) :
    (persist env world).engine = world.engine := rfl

@[simp] theorem persist_files
    (env : CallEnv)
    (world : StorageWorld) :
    (persist env world).files = world.files := rfl

end Visible

/-! ## Setting deleted flags and unlinking files -/

/-- `marked` is `entry` with the deleted flag set, for a reason `Q`. -/
def MarkedBy
    (Q : StorageIndexEntry → Prop)
    (entry marked : StorageIndexEntry) : Prop :=
  entry.isDeleted = false ∧ Q entry ∧ marked = entry.markDeleted

/--
`after` is `before` with some live records marked for the reason `Q`; their files are gone,
unless `unlink` failed, and no other file is touched.
-/
structure Swept
    (lib : Libnostr)
    (env : CallEnv)
    (Q : StorageIndexEntry → Prop)
    (before after : List StorageIndexEntry)
    (files files' : Files) : Prop where
  marks : List.Forall₂ (fun e e' => e' = e ∨ MarkedBy Q e e') before after
  removed : ∀ e ∈ before, e.isDeleted = false → e ∉ after →
    env.unlinkOk (e.path lib) = true → files' (e.path lib) = none
  untouched : ∀ p,
    (∀ e ∈ before, e.isDeleted = false → e ∉ after → e.path lib ≠ p) →
    files' p = files p
  shrunk : ∀ p, files' p = files p ∨ files' p = none

namespace Swept

variable
  {lib : Libnostr}
  {env : CallEnv}
  {Q : StorageIndexEntry → Prop}
  {before after : List StorageIndexEntry}
  {files files' : Files}

/-- A sweep that marks nothing. -/
theorem refl
    (entries : List StorageIndexEntry) :
    Swept lib env Q entries entries files files where
  marks := List.forall₂_same.mpr (fun _ _ => Or.inl rfl)
  removed := by
    intro e hmem _ hgone
    exact absurd hmem hgone
  untouched := fun _ _ => rfl
  shrunk := fun _ => Or.inl rfl

theorem length_eq
    (h : Swept lib env Q before after files files') :
    after.length = before.length :=
  h.marks.length_eq.symm

theorem reverse
    (h : Swept lib env Q before after files files') :
    Swept lib env Q before.reverse after.reverse files files' where
  marks := List.forall₂_reverse_iff.mpr h.marks
  removed := by simpa using h.removed
  untouched := by simpa using h.untouched
  shrunk := h.shrunk

/-- Running numbers survive. -/
theorem map_fileIndex
    (h : Swept lib env Q before after files files') :
    after.map (·.fileIndex) = before.map (·.fileIndex) := by
  have hmarks := h.marks
  clear h
  induction hmarks with
  | nil => rfl
  | cons hhead _ ih =>
      rcases hhead with rfl | ⟨_, _, rfl⟩
      · simp [ih]
      · simp [ih]

/-- A live record of the result was there before. -/
theorem mem_of_live
    (h : Swept lib env Q before after files files')
    {e : StorageIndexEntry}
    (hmem : e ∈ after)
    (hlive : e.isDeleted = false) :
    e ∈ before := by
  have hmarks := h.marks
  clear h
  induction hmarks with
  | nil => simp at hmem
  | cons hhead _ ih =>
      rcases List.mem_cons.mp hmem with rfl | htail
      · rcases hhead with rfl | ⟨_, _, rfl⟩
        · exact List.mem_cons_self
        · simp at hlive
      · exact List.mem_cons_of_mem _ (ih htail)

/-- A record that is no longer there was marked for the reason `Q`. -/
theorem reason
    (h : Swept lib env Q before after files files')
    {e : StorageIndexEntry}
    (hmem : e ∈ before)
    (hgone : e ∉ after) :
    Q e := by
  have hmarks := h.marks
  clear h
  induction hmarks with
  | nil => simp at hmem
  | cons hhead _ ih =>
      simp only [List.mem_cons, not_or] at hgone
      rcases List.mem_cons.mp hmem with rfl | htail
      · rcases hhead with rfl | ⟨_, hQ, _⟩
        · exact absurd rfl hgone.1
        · exact hQ
      · exact ih htail hgone.2

/-- What becomes of the record at a position. -/
theorem getElem?
    (h : Swept lib env Q before after files files')
    {i : Nat}
    {e : StorageIndexEntry}
    (hget : before[i]? = some e) :
    ∃ e', after[i]? = some e' ∧ (e' = e ∨ MarkedBy Q e e') := by
  obtain ⟨hlt, rfl⟩ := List.getElem?_eq_some_iff.mp hget
  have hlt' : i < after.length := h.length_eq.symm ▸ hlt
  exact ⟨after[i], List.getElem?_eq_getElem hlt',
    (List.forall₂_iff_get.mp h.marks).2 i hlt hlt'⟩

/-- A marked record is no longer there, when running numbers are unique. -/
theorem not_mem_of_marked
    (h : Swept lib env Q before after files files')
    (hnodup : (before.map (·.fileIndex)).Nodup)
    {i : Nat}
    {e e' : StorageIndexEntry}
    (hget' : after[i]? = some e')
    (hmark : MarkedBy Q e e') :
    e ∉ after := by
  intro hmem
  obtain ⟨hlive, _, rfl⟩ := hmark
  rw [← h.map_fileIndex] at hnodup
  have hsame : e = e.markDeleted :=
    List.inj_on_of_nodup_map hnodup hmem (List.mem_of_getElem? hget') rfl
  rw [hsame] at hlive
  simp at hlive

theorem live_sublist_live
    (h : Swept lib env Q before after files files') :
    (live after).Sublist (live before) := by
  have hmarks := h.marks
  clear h
  induction hmarks with
  | nil => exact List.Sublist.refl _
  | @cons e e' before after hhead _ ih =>
      rcases hhead with rfl | ⟨hlive, _, rfl⟩
      · rw [live_cons, live_cons]
        split_ifs
        · exact ih
        · exact ih.cons_cons _
      · rw [live_cons, live_cons, hlive]
        simpa using ih.cons e

/-- The file of a record that stays live stays as it is, when running numbers are unique. -/
theorem file_eq
    (h : Swept lib env Q before after files files')
    (hnodup : (before.map (·.fileIndex)).Nodup)
    {e : StorageIndexEntry}
    (hmem : e ∈ after)
    (hlive : e.isDeleted = false) :
    files' (e.path lib) = files (e.path lib) := by
  apply h.untouched
  intro other hother _ hgone hpath
  have hindex : other.fileIndex = e.fileIndex := getEventPath_fileIndex hpath
  have hsame : other = e :=
    List.inj_on_of_nodup_map hnodup hother (h.mem_of_live hmem hlive) hindex
  exact hgone (hsame ▸ hmem)

/-- Prepend a record that is left alone. -/
theorem keep
    (h : Swept lib env Q before after files files')
    {e : StorageIndexEntry}
    (hnew : e.fileIndex ∉ before.map (·.fileIndex)) :
    Swept lib env Q (e :: before) (e :: after) files files' where
  marks := List.Forall₂.cons (Or.inl rfl) h.marks
  removed := by
    intro other hother hlive hgone
    simp only [List.mem_cons, not_or] at hgone
    rcases List.mem_cons.mp hother with rfl | hother
    · exact absurd rfl hgone.1
    · exact h.removed other hother hlive hgone.2
  untouched := by
    intro p hp
    apply h.untouched
    intro other hother hlive hgone
    refine hp other (List.mem_cons_of_mem _ hother) hlive ?_
    rintro (_ | ⟨_, hmem⟩)
    · exact hnew (List.mem_map_of_mem hother)
    · exact hgone hmem
  shrunk := h.shrunk

/-- Prepend a live record that is marked, its file unlinked first. -/
theorem mark
    {e : StorageIndexEntry}
    (h : Swept lib env Q before after (unlink env files (e.path lib)) files')
    (hlive : e.isDeleted = false)
    (hQ : Q e)
    (hnew : e.fileIndex ∉ before.map (·.fileIndex)) :
    Swept lib env Q (e :: before) (e.markDeleted :: after) files files' where
  marks := List.Forall₂.cons (Or.inr ⟨hlive, hQ, rfl⟩) h.marks
  removed := by
    intro other hother hotherLive hgone
    simp only [List.mem_cons, not_or] at hgone
    rcases List.mem_cons.mp hother with rfl | hother
    · -- its own file was unlinked first, and no later record has that path
      intro hunlink
      rw [h.untouched, unlink, if_pos hunlink, Function.update_self]
      intro third hthird _ _ hpath
      have hindex : third.fileIndex = other.fileIndex := getEventPath_fileIndex hpath
      exact hnew (hindex ▸ List.mem_map_of_mem hthird)
    · exact h.removed other hother hotherLive hgone.2
  untouched := by
    intro p hp
    have hnotMem : e ∉ e.markDeleted :: after := by
      intro hmem
      rcases List.mem_cons.mp hmem with heq | hmem
      · rw [heq] at hlive
        simp at hlive
      · have hbefore := h.mem_of_live hmem hlive
        exact hnew (List.mem_map_of_mem hbefore)
    have hne : e.path lib ≠ p := hp e List.mem_cons_self hlive hnotMem
    rw [h.untouched, unlink_of_ne env files (Ne.symm hne)]
    intro other hother hotherLive hgone
    refine hp other (List.mem_cons_of_mem _ hother) hotherLive ?_
    rintro (_ | ⟨_, hmem⟩)
    · simp at hotherLive
    · exact hgone hmem
  shrunk := by
    intro p
    rcases h.shrunk p with hsame | hnone
    · rw [hsame]
      exact unlink_shrunk env files (e.path lib) p
    · exact Or.inr hnone

end Swept

/-! ## The loops sweep -/

section Loops

variable
  (lib : Libnostr)
  (env : CallEnv)

theorem purgeLoop_swept
    (entries : List StorageIndexEntry) :
    ∀ files : Files,
      (entries.map (·.fileIndex)).Nodup →
      Swept lib env (fun e => e.isExpired env.now) entries
        (purgeLoop lib env entries files).1 files (purgeLoop lib env entries files).2.1 := by
  induction entries with
  | nil =>
      intro files _
      exact Swept.refl []
  | cons entry rest ih =>
      intro files hnodup
      rw [List.map_cons, List.nodup_cons] at hnodup
      unfold purgeLoop
      split_ifs with hdeleted hexpired
      · exact (ih files hnodup.2).keep hnodup.1
      · exact (ih _ hnodup.2).mark (by simpa using hdeleted) hexpired hnodup.1
      · exact (ih files hnodup.2).keep hnodup.1

/-- A purge that finds nothing expired changes nothing. -/
theorem purgeLoop_zero
    (entries : List StorageIndexEntry) :
    ∀ files : Files,
      (purgeLoop lib env entries files).2.2 = 0 →
      (purgeLoop lib env entries files).1 = entries ∧
        (purgeLoop lib env entries files).2.1 = files := by
  induction entries with
  | nil =>
      intro files _
      exact ⟨rfl, rfl⟩
  | cons entry rest ih =>
      intro files hzero
      by_cases hdeleted : entry.isDeleted = true
      · simp only [purgeLoop, hdeleted, if_true] at hzero ⊢
        obtain ⟨hsame, hfiles⟩ := ih files hzero
        exact ⟨congrArg (entry :: ·) hsame, hfiles⟩
      · by_cases hexpired : entry.isExpired env.now = true
        · simp [purgeLoop, hdeleted, hexpired] at hzero
        · simp only [purgeLoop, hdeleted, hexpired, Bool.false_eq_true, if_false] at hzero ⊢
          obtain ⟨hsame, hfiles⟩ := ih files hzero
          exact ⟨congrArg (entry :: ·) hsame, hfiles⟩

/-- `storage_purge_expired` keeps the live records that have not expired. -/
theorem live_purgeLoop
    (entries : List StorageIndexEntry) :
    ∀ files : Files,
      live (purgeLoop lib env entries files).1 =
          (live entries).filter (fun e => !e.isExpired env.now) ∧
        (purgeLoop lib env entries files).2.2 =
          (live entries).countP (fun e => e.isExpired env.now) := by
  induction entries with
  | nil =>
      intro files
      exact ⟨rfl, rfl⟩
  | cons entry rest ih =>
      intro files
      unfold purgeLoop
      split_ifs with hdeleted hexpired
      · obtain ⟨hlive, hcount⟩ := ih files
        simp only [live_cons, hdeleted, if_true]
        exact ⟨hlive, hcount⟩
      · obtain ⟨hlive, hcount⟩ := ih (unlink env files (entry.path lib))
        simp only [live_cons, StorageIndexEntry.isDeleted_markDeleted, hdeleted, if_true,
          Bool.false_eq_true, if_false]
        rw [List.filter_cons_of_neg (by simp [hexpired]), List.countP_cons, if_pos hexpired]
        exact ⟨hlive, congrArg (· + 1) hcount⟩
      · obtain ⟨hlive, hcount⟩ := ih files
        simp only [live_cons, hdeleted, Bool.false_eq_true, if_false]
        rw [List.filter_cons_of_pos (by simp [hexpired]), List.countP_cons, if_neg hexpired]
        exact ⟨congrArg (entry :: ·) hlive, hcount⟩

theorem queryScan_swept
    (filter : NostrFilter)
    (limit : Nat)
    (entries : List StorageIndexEntry) :
    ∀ (files : Files) (events : List NostrEvent),
      (entries.map (·.fileIndex)).Nodup →
      Swept lib env (fun e => e.isExpired env.now) entries
        (queryScan lib env filter limit entries files events).entries files
        (queryScan lib env filter limit entries files events).files := by
  induction entries with
  | nil =>
      intro files events _
      exact Swept.refl []
  | cons entry older ih =>
      intro files events hnodup
      have hall := hnodup
      rw [List.map_cons, List.nodup_cons] at hnodup
      unfold queryScan
      split_ifs with hfull hdeleted hexpired hskip
      · exact Swept.refl _
      · exact (ih files events hnodup.2).keep hnodup.1
      · exact (ih _ events hnodup.2).mark (by simpa using hdeleted) hexpired hnodup.1
      · exact (ih files events hnodup.2).keep hnodup.1
      · cases loadEventFromFile lib env files (entry.path lib) with
        | none => exact (ih files events hnodup.2).keep hnodup.1
        | some event => exact (ih files _ hnodup.2).keep hnodup.1

end Loops

/-- Marking the record at one position, its file unlinked, is a sweep. -/
theorem swept_modify
    {lib : Libnostr}
    (env : CallEnv)
    {Q : StorageIndexEntry → Prop}
    {entries : List StorageIndexEntry}
    {i : Nat}
    {entry : StorageIndexEntry}
    (hnodup : (entries.map (·.fileIndex)).Nodup)
    (hget : entries[i]? = some entry)
    (hlive : entry.isDeleted = false)
    (hQ : Q entry)
    (files : Files) :
    Swept lib env Q entries (entries.modify i StorageIndexEntry.markDeleted) files
      (unlink env files (entry.path lib)) := by
  induction entries generalizing i with
  | nil => simp at hget
  | cons head rest ih =>
      rw [List.map_cons, List.nodup_cons] at hnodup
      cases i with
      | zero =>
          rw [List.getElem?_cons_zero, Option.some.injEq] at hget
          subst hget
          rw [List.modify_zero_cons]
          exact (Swept.refl rest).mark hlive hQ hnodup.1
      | succ i =>
          rw [List.getElem?_cons_succ] at hget
          rw [List.modify_succ_cons]
          exact (ih hnodup.2 hget).keep hnodup.1

/-- After a purge the live records are those that have not expired. -/
theorem live_storagePurgeExpired
    (lib : Libnostr)
    (env : CallEnv)
    {world : StorageWorld}
    (hinit : world.engine.initialized = true) :
    live (storagePurgeExpired lib env world).2.engine.visible =
      (live world.engine.visible).filter (fun e => !e.isExpired env.now) := by
  unfold storagePurgeExpired
  rw [hinit, ← (live_purgeLoop lib env world.engine.visible world.files).1]
  simp only [Bool.not_true, Bool.false_eq_true, if_false]
  split
  · rw [persist_engine, StorageEngine.visible_withVisible]
  · rw [StorageEngine.visible_withVisible]

/-- A query leaves a record that has not expired live. -/
theorem live_storageQueryEvents
    (lib : Libnostr)
    (env : CallEnv)
    {world : StorageWorld}
    (hnodup : (world.engine.visible.map (·.fileIndex)).Nodup)
    (filter : NostrFilter)
    (limit : UInt16)
    {e : StorageIndexEntry}
    (hmem : e ∈ live world.engine.visible)
    (hunexpired : e.isExpired env.now = false) :
    e ∈ live (storageQueryEvents lib env world filter limit).2.engine.visible := by
  unfold storageQueryEvents
  split_ifs
  · exact hmem
  · exact hmem
  · simp only [StorageEngine.visible_withVisible, live_reverse, List.mem_reverse]
    have hrev : (world.engine.visible.reverse.map (·.fileIndex)).Nodup := by
      rw [List.map_reverse]
      exact List.nodup_reverse.mpr hnodup
    have hswept := queryScan_swept lib env filter (queryLimit limit)
      world.engine.visible.reverse world.files [] hrev
    obtain ⟨hbefore, hlive⟩ := mem_live.mp hmem
    refine mem_live.mpr ⟨?_, hlive⟩
    by_contra hgone
    have hexpired := hswept.reason (List.mem_reverse.mpr hbefore) hgone
    rw [hunexpired] at hexpired
    cases hexpired

/-! ## One call -/

/-- What reaches the flash of a file written in full. -/
def CallEnv.onFlash
    (env : CallEnv)
    (json : CString) : CString :=
  json.take (min (env.fcloseShort.getD json.length) json.length)

theorem CallEnv.KeepsFiles.onFlash_eq
    {env : CallEnv}
    (henv : env.KeepsFiles)
    (json : CString) :
    env.onFlash json = json := by
  simp [CallEnv.onFlash, henv.fcloseOk]

/-- The world after a successful save, before the index may be persisted. -/
def appendWorld
    (lib : Libnostr)
    (env : CallEnv)
    (world : StorageWorld)
    (event : NostrEvent)
    (json : CString)
    (hroom : world.engine.indexCount < world.engine.maxIndexEntries) : StorageWorld :=
  { world with
    engine := world.engine.append (newEntry lib env.now world.engine event) hroom
    files := Function.update world.files
      (getEventPath lib event.id world.engine.nextFileIndex) (some (env.onFlash json)) }

/-- The index is persisted when the number of records in use is a multiple of ten. -/
def persistEveryTenth
    (env : CallEnv)
    (world : StorageWorld) : StorageWorld :=
  if world.engine.indexCount % 10 = 0 then persist env world else world

@[simp] theorem persistEveryTenth_engine
    (env : CallEnv)
    (world : StorageWorld) :
    (persistEveryTenth env world).engine = world.engine := by
  unfold persistEveryTenth
  split <;> rfl

@[simp] theorem persistEveryTenth_files
    (env : CallEnv)
    (world : StorageWorld) :
    (persistEveryTenth env world).files = world.files := by
  unfold persistEveryTenth
  split <;> rfl

theorem savedEvent_eq_none
    {event : NostrEvent}
    {result : StorageError}
    (herror : result ≠ .storageOk) :
    savedEvent ⟨.save event, result⟩ = none := by
  cases result <;> first | rfl | exact absurd rfl herror

/-- The world with other records in use and other files. -/
def sweepWorld
    (world : StorageWorld)
    (entries : List StorageIndexEntry)
    (hlen : entries.length = world.engine.indexCount)
    (files : Files) : StorageWorld :=
  { world with
    engine := world.engine.withVisible entries hlen
    files := files }

/-- The six things a call can do, with the event it saved, if any. -/
inductive StorageEffect
    (lib : Libnostr)
    (env : CallEnv)
    (world : StorageWorld) : StorageCall → Option NostrEvent → StorageWorld → Prop
  | idle {call : StorageCall} : StorageEffect lib env world call none world
  | discard
      (event : NostrEvent)
      (leftover : Option (List UInt8))
      (hgone : (∀ path, env.unlinkOk path = true) → leftover = none) :
      StorageEffect lib env world (.save event) none
        { world with
          files := Function.update world.files
            (getEventPath lib event.id world.engine.nextFileIndex) leftover }
  | append
      (event : NostrEvent)
      (json : CString)
      (hroom : world.engine.indexCount < world.engine.maxIndexEntries)
      (hfresh : foundEntry world.engine event.id = none)
      (hjson : lib.eventSerialize event storageMaxEventSize = some json) :
      StorageEffect lib env world (.save event) (some event)
        (persistEveryTenth env (appendWorld lib env world event json hroom))
  | expire
      (filter : NostrFilter)
      (limit : UInt16)
      (entries : List StorageIndexEntry)
      (files : Files)
      (hlen : entries.length = world.engine.indexCount)
      (hswept : Swept lib env (fun e => e.isExpired env.now) world.engine.visible entries
        world.files files) :
      StorageEffect lib env world (.query filter limit) none
        (sweepWorld world entries hlen files)
  | sweep
      {call : StorageCall}
      (Q : StorageIndexEntry → Prop)
      (entries : List StorageIndexEntry)
      (files : Files)
      (hlen : entries.length = world.engine.indexCount)
      (hswept : Swept lib env Q world.engine.visible entries world.files files) :
      StorageEffect lib env world call none
        (persist env (sweepWorld world entries hlen files))
  | compact :
      StorageEffect lib env world .compact none
        (persist env { world with engine := world.engine.compact })

/-- How a save ends: with one of the errors and no new record, or with the record appended. -/
theorem storageSaveEvent_cases
    (lib : Libnostr)
    (env : CallEnv)
    (world : StorageWorld)
    (event : NostrEvent) :
    ((storageSaveEvent lib env world event).1 ≠ .storageOk ∧
      ((storageSaveEvent lib env world event).2 = world ∨
        ∃ leftover : Option (List UInt8),
          ((∀ path, env.unlinkOk path = true) → leftover = none) ∧
          (storageSaveEvent lib env world event).2 =
            { world with
              files := Function.update world.files
                (getEventPath lib event.id world.engine.nextFileIndex) leftover })) ∨
    (∃ (json : CString) (hroom : world.engine.indexCount < world.engine.maxIndexEntries),
      world.engine.initialized = true ∧
      foundEntry world.engine event.id = none ∧
      lib.eventSerialize event storageMaxEventSize = some json ∧
      storageSaveEvent lib env world event =
        (.storageOk,
          persistEveryTenth env (appendWorld lib env world event json hroom))) := by
  unfold storageSaveEvent
  by_cases hinit : world.engine.initialized = true
  case neg => exact Or.inl (by simp [hinit])
  by_cases hdup : foundEntry world.engine event.id = none
  case neg =>
    have hsome := Option.isSome_iff_ne_none.mpr hdup
    exact Or.inl (by simp [hinit, findIndexEntry_isSome, hsome])
  by_cases hroom : world.engine.indexCount < world.engine.maxIndexEntries
  case neg => exact Or.inl (by simp [hinit, findIndexEntry_isSome, hdup, hroom])
  by_cases hmalloc : env.mallocOk = true
  case neg => exact Or.inl (by simp [hinit, findIndexEntry_isSome, hdup, hroom, hmalloc])
  simp only [hinit, findIndexEntry_isSome, hdup, hroom, hmalloc, Bool.not_true,
    Bool.false_eq_true, if_false, dif_pos, Option.isSome_none]
  cases hser : (if env.serializeOk then lib.eventSerialize event storageMaxEventSize
      else none) with
  | none => exact Or.inl (by simp)
  | some json =>
      have hjson : lib.eventSerialize event storageMaxEventSize = some json := by
        split at hser
        · exact hser
        · cases hser
      by_cases hopen : (!env.fopenOk && !env.fopenRetryOk) = true
      case pos => exact Or.inl (by simp [hopen])
      simp only [hopen]
      by_cases hshort : min (env.fwriteShort.getD json.length) json.length = json.length
      case neg =>
        left
        rw [if_pos hshort]
        simp only [Bool.false_eq_true, if_false, unlink_update]
        refine ⟨by simp, Or.inr ⟨_, fun hunlink => ?_, rfl⟩⟩
        rw [if_pos (hunlink _)]
      -- the whole serialisation was written
      right
      refine ⟨json, True.intro, True.intro, True.intro, hjson, ?_⟩
      simp only [hshort, ne_eq, not_true_eq_false, if_false]
      rfl

/-- `storage_save_event` with every call succeeding. -/
theorem storageSaveEvent_eq
    {lib : Libnostr}
    {env : CallEnv}
    (henv : env.Succeeds)
    {world : StorageWorld}
    (hinit : world.engine.initialized = true)
    {event : NostrEvent}
    {json : CString}
    (hjson : lib.eventSerialize event storageMaxEventSize = some json) :
    storageSaveEvent lib env world event =
      if (findIndexEntry world.engine event.id).isSome then (.duplicate, world)
      else if hroom : world.engine.indexCount < world.engine.maxIndexEntries then
        (.storageOk, persistEveryTenth env (appendWorld lib env world event json hroom))
      else (.full, world) := by
  unfold storageSaveEvent
  simp only [hinit, henv.mallocOk, henv.serializeOk, henv.fopenOk, henv.fwriteOk,
    henv.fcloseOk, hjson, Bool.not_true, Bool.false_and, Bool.false_eq_true, if_true, if_false,
    Option.getD_none, min_self, List.take_length, ne_eq, not_true_eq_false, appendWorld,
    henv.onFlash_eq]
  rfl

/-- How a deletion ends: not found, or the record found is marked and its file is gone. -/
theorem storageDeleteEvent_cases
    (lib : Libnostr)
    (env : CallEnv)
    {world : StorageWorld}
    (hnodup : (world.engine.visible.map (·.fileIndex)).Nodup)
    (eventId : Bytes32) :
    ((storageDeleteEvent lib env world eventId).2 = world ∧
      (storageDeleteEvent lib env world eventId).1 ≠ .storageOk ∧
      (world.engine.initialized = true →
        (storageDeleteEvent lib env world eventId).1 = .notFound ∧
        foundEntry world.engine eventId = none)) ∨
    (∃ (i : Nat) (entry : StorageIndexEntry) (files : Files)
        (hlen : (world.engine.visible.modify i StorageIndexEntry.markDeleted).length =
          world.engine.indexCount),
      world.engine.visible[i]? = some entry ∧
      foundEntry world.engine eventId = some entry ∧
      Swept lib env (fun e => e.eventId = eventId) world.engine.visible
        (world.engine.visible.modify i StorageIndexEntry.markDeleted) world.files files ∧
      storageDeleteEvent lib env world eventId =
        (.storageOk,
          persist env (sweepWorld world
            (world.engine.visible.modify i StorageIndexEntry.markDeleted) hlen files))) := by
  unfold storageDeleteEvent
  split_ifs with hinit
  · exact Or.inl ⟨rfl, by simp, by simpa using hinit⟩
  · cases hidx : findIndexEntry world.engine eventId with
    | none =>
        left
        refine ⟨rfl, by simp, fun _ => ⟨rfl, ?_⟩⟩
        have hfound := findIndexEntry_eq world.engine eventId
        rw [hidx] at hfound
        exact hfound.symm
    | some i =>
        right
        obtain ⟨hlt, hp, _⟩ := List.findIdx?_eq_some_iff_getElem.mp hidx
        simp only [Bool.and_eq_true, beq_iff_eq, Bool.not_eq_true'] at hp
        have hget : world.engine.visible[i]? = some world.engine.visible[i] :=
          List.getElem?_eq_getElem hlt
        have hfound : foundEntry world.engine eventId = some world.engine.visible[i] := by
          rw [← findIndexEntry_eq, hidx]
          exact hget
        refine ⟨i, world.engine.visible[i], _, by simp, hget, hfound,
          swept_modify env hnodup hget hp.2 hp.1 world.files, ?_⟩
        simp only [List.getD_eq_getElem?_getD, hget, Option.getD_some]
        rfl

namespace StorageEffect

variable
  {lib : Libnostr}
  {env : CallEnv}
  {world world' : StorageWorld}
  {call : StorageCall}
  {saved : Option NostrEvent}

/-- No call changes the configuration of the engine. -/
theorem config_eq
    (h : StorageEffect lib env world call saved world') :
    world'.engine.initialized = world.engine.initialized ∧
      world'.engine.maxIndexEntries = world.engine.maxIndexEntries ∧
      world'.engine.defaultTtlSec = world.engine.defaultTtlSec := by
  cases h with
  | idle => exact ⟨rfl, rfl, rfl⟩
  | discard event leftover hgone => exact ⟨rfl, rfl, rfl⟩
  | append event json hroom hfresh hjson =>
      rw [persistEveryTenth_engine]
      exact ⟨rfl, append_maxIndexEntries _ _ hroom, rfl⟩
  | expire filter limit entries files hlen hswept =>
      exact ⟨rfl, StorageEngine.withVisible_maxIndexEntries _ _ hlen, rfl⟩
  | sweep Q entries files hlen hswept =>
      exact ⟨rfl, StorageEngine.withVisible_maxIndexEntries _ _ hlen, rfl⟩
  | compact => exact ⟨rfl, compact_maxIndexEntries _, rfl⟩

/-- A live record was live before or is the new one. -/
theorem live_or_new
    (h : StorageEffect lib env world call saved world')
    {e : StorageIndexEntry}
    (hmem : e ∈ live world'.engine.visible) :
    e ∈ live world.engine.visible ∨
      ∃ event, saved = some event ∧ e = newEntry lib env.now world.engine event := by
  cases h with
  | idle => exact Or.inl hmem
  | discard event leftover hgone => exact Or.inl hmem
  | append event json hroom hfresh hjson =>
      simp only [persistEveryTenth_engine, appendWorld, visible_append, live_append,
        List.mem_append] at hmem
      rcases hmem with hold | hnew
      · exact Or.inl hold
      · have hsingle := (live_sublist _).subset hnew
        exact Or.inr ⟨event, rfl, List.mem_singleton.mp hsingle⟩
  | expire filter limit entries files hlen hswept =>
      simp only [sweepWorld, StorageEngine.visible_withVisible] at hmem
      exact Or.inl (hswept.live_sublist_live.subset hmem)
  | sweep Q entries files hlen hswept =>
      simp only [persist_engine, sweepWorld, StorageEngine.visible_withVisible] at hmem
      exact Or.inl (hswept.live_sublist_live.subset hmem)
  | compact =>
      simp only [persist_engine, visible_compact, live_live] at hmem
      exact Or.inl hmem

/-- Unless the call is a save, the files of the records that stay live stay as they are. -/
theorem file_eq
    (h : StorageEffect lib env world call saved world')
    (hquiet : ∀ event, call ≠ .save event)
    (hnodup : (world.engine.visible.map (·.fileIndex)).Nodup)
    {e : StorageIndexEntry}
    (hmem : e ∈ live world'.engine.visible) :
    world'.files (e.path lib) = world.files (e.path lib) := by
  cases h with
  | idle => rfl
  | discard event leftover hgone => exact absurd rfl (hquiet event)
  | append event json hroom hfresh hjson => exact absurd rfl (hquiet event)
  | expire filter limit entries files hlen hswept =>
      simp only [sweepWorld, StorageEngine.visible_withVisible] at hmem
      exact hswept.file_eq hnodup (mem_live.mp hmem).1 (mem_live.mp hmem).2
  | sweep Q entries files hlen hswept =>
      simp only [persist_engine, sweepWorld, StorageEngine.visible_withVisible] at hmem
      exact hswept.file_eq hnodup (mem_live.mp hmem).1 (mem_live.mp hmem).2
  | compact => rfl

/-- Only a save that succeeds advances the running number. -/
theorem nextFileIndex_eq
    (h : StorageEffect lib env world call saved world') :
    world'.engine.nextFileIndex =
      if saved.isSome then world.engine.nextFileIndex + 1
      else world.engine.nextFileIndex := by
  cases h with
  | append event json hroom hfresh hjson =>
      rw [persistEveryTenth_engine]
      rfl
  | _ => rfl

end StorageEffect

/-- **Every call does one of the six things.** -/
theorem storageCall_effect
    (lib : Libnostr)
    (env : CallEnv)
    {world : StorageWorld}
    (hnodup : (world.engine.visible.map (·.fileIndex)).Nodup)
    (call : StorageCall) :
    StorageEffect lib env world call
      (savedEvent ⟨call, (storageCall lib env world call).1⟩)
      (storageCall lib env world call).2 := by
  cases call with
  | save event =>
      simp only [storageCall]
      rcases storageSaveEvent_cases lib env world event with
        ⟨herror, hsame⟩ | ⟨json, hroom, _, hfresh, hjson, hrun⟩
      · rw [savedEvent_eq_none herror]
        rcases hsame with hsame | ⟨leftover, hgone, hsame⟩
        · rw [hsame]
          exact StorageEffect.idle
        · rw [hsame]
          exact StorageEffect.discard event leftover hgone
      · rw [hrun]
        exact StorageEffect.append event json hroom hfresh hjson
  | delete eventId =>
      simp only [storageCall]
      rcases storageDeleteEvent_cases lib env hnodup eventId with
        ⟨hsame, _⟩ | ⟨i, entry, files, hlen, _, _, hswept, hrun⟩
      · rw [hsame]
        exact StorageEffect.idle
      · rw [hrun]
        exact StorageEffect.sweep _ _ files hlen hswept
  | get eventId => exact StorageEffect.idle
  | eventExists eventId => exact StorageEffect.idle
  | query filter limit =>
      simp only [storageCall, storageQueryEvents]
      split_ifs
      · exact StorageEffect.idle
      · exact StorageEffect.idle
      · refine StorageEffect.expire filter limit _ _ (by simp) ?_
        have hrev : (world.engine.visible.reverse.map (·.fileIndex)).Nodup := by
          rw [List.map_reverse]
          exact List.nodup_reverse.mpr hnodup
        have hswept := (queryScan_swept lib env filter (queryLimit limit)
          world.engine.visible.reverse world.files [] hrev).reverse
        rwa [List.reverse_reverse] at hswept
  | purge =>
      simp only [storageCall, storagePurgeExpired]
      have hswept := purgeLoop_swept lib env world.engine.visible world.files hnodup
      split_ifs with _ hpurged
      · exact StorageEffect.idle
      · exact StorageEffect.sweep _ _ _ (by simp) hswept
      · obtain ⟨hsame, hfiles⟩ := purgeLoop_zero lib env world.engine.visible world.files
          (Nat.eq_zero_of_not_pos hpurged)
        simp only [hsame, hfiles, StorageEngine.withVisible_visible]
        exact StorageEffect.idle
  | compact =>
      simp only [storageCall, storageCompactIndex]
      split_ifs
      · exact StorageEffect.idle
      · exact StorageEffect.compact
      · exact StorageEffect.idle
  | stats => exact StorageEffect.idle

/-- A live record that has not expired stays live, unless it is deleted by its identifier. -/
theorem live_kept
    (lib : Libnostr)
    (env : CallEnv)
    {world : StorageWorld}
    (hnodup : (world.engine.visible.map (·.fileIndex)).Nodup)
    (call : StorageCall)
    {e : StorageIndexEntry}
    (hmem : e ∈ live world.engine.visible)
    (hunexpired : e.isExpired env.now = false)
    (hother : ∀ eventId, call = .delete eventId → e.eventId ≠ eventId) :
    e ∈ live (storageCall lib env world call).2.engine.visible := by
  cases call with
  | save event =>
      rcases storageSaveEvent_cases lib env world event with
        ⟨_, hsame | ⟨leftover, _, hsame⟩⟩ | ⟨json, hroom, _, _, _, hrun⟩
      · simpa only [storageCall, hsame] using hmem
      · simpa only [storageCall, hsame] using hmem
      · simp only [storageCall, hrun, persistEveryTenth_engine, appendWorld, visible_append,
          live_append]
        exact List.mem_append_left _ hmem
  | delete eventId =>
      rcases storageDeleteEvent_cases lib env hnodup eventId with
        ⟨hsame, _⟩ | ⟨i, entry, files, hlen, _, _, hswept, hrun⟩
      · simpa only [storageCall, hsame] using hmem
      · simp only [storageCall, hrun, persist_engine, sweepWorld,
          StorageEngine.visible_withVisible]
        obtain ⟨hbefore, hlive⟩ := mem_live.mp hmem
        refine mem_live.mpr ⟨?_, hlive⟩
        by_contra hgone
        exact hother eventId rfl (hswept.reason hbefore hgone)
  | get eventId => exact hmem
  | eventExists eventId => exact hmem
  | query filter limit => exact live_storageQueryEvents lib env hnodup filter limit hmem hunexpired
  | purge =>
      by_cases hinit : world.engine.initialized = true
      · simp only [storageCall, live_storagePurgeExpired lib env hinit, List.mem_filter,
          hunexpired]
        exact ⟨hmem, rfl⟩
      · simpa [storageCall, storagePurgeExpired, hinit] using hmem
  | compact =>
      simp only [storageCall, storageCompactIndex]
      split_ifs
      · exact hmem
      · rw [persist_engine, visible_compact, live_live]
        exact hmem
      · exact hmem
  | stats => exact hmem

/-- A call leaves the store alone or ends with a save of the index. -/
theorem storageCall_nvs
    (lib : Libnostr)
    (env : CallEnv)
    (world : StorageWorld)
    (call : StorageCall) :
    (storageCall lib env world call).2.nvs = world.nvs ∨
      (storageCall lib env world call).2.nvs =
        (saveIndexToNvs env.nvs (storageCall lib env world call).2.engine world.nvs).2 := by
  cases call with
  | save event =>
      simp only [storageCall]
      rcases storageSaveEvent_cases lib env world event with
        ⟨-, hsame | ⟨leftover, -, hsame⟩⟩ | ⟨json, hroom, -, -, -, hrun⟩
      · exact Or.inl (by rw [hsame])
      · exact Or.inl (by rw [hsame])
      · rw [hrun, persistEveryTenth]
        split
        · exact Or.inr rfl
        · exact Or.inl rfl
  | delete eventId =>
      simp only [storageCall, storageDeleteEvent]
      split
      · exact Or.inl rfl
      · cases findIndexEntry world.engine eventId with
        | none => exact Or.inl rfl
        | some i => exact Or.inr rfl
  | get eventId => exact Or.inl rfl
  | eventExists eventId => exact Or.inl rfl
  | query filter limit =>
      simp only [storageCall, storageQueryEvents]
      split_ifs
      · exact Or.inl rfl
      · exact Or.inl rfl
      · exact Or.inl rfl
  | purge =>
      simp only [storageCall, storagePurgeExpired]
      split_ifs
      · exact Or.inl rfl
      · exact Or.inr rfl
      · exact Or.inl rfl
  | compact =>
      simp only [storageCall, storageCompactIndex]
      split_ifs
      · exact Or.inl rfl
      · exact Or.inr rfl
      · exact Or.inl rfl
  | stats => exact Or.inl rfl

end Storage
end WispRelay
