import WispRelay.Storage.Persistence
import WispRelay.Storage.QueryResults

/-!
# A storage with some records deleted

`storage_delete_event` marks a record, removes its file and writes the whole index to the NVS
store.  When nothing fails, deleting one record after the other leaves what depends on the set
of the records only.

* `savedStore` and `savedStore_savedStore`: a later save of an index of the same length leaves
  nothing of an earlier one.
* `deletedWorld`: the storage after the deletion of a set of records.
* `storageDeleteEvent_deletedWorld`: the deletion of one more record.
-/

namespace WispRelay
namespace Storage

/-! ## Writing the index twice -/

/-- What the erasing loop leaves of the blobs. -/
def trimmed : Nat → Nat → (Nat → Option (List UInt8)) → Nat → Option (List UInt8)
  | 0, _, idx => idx
  | remaining + 1, chunk, idx =>
      if (idx chunk).isNone then idx
      else trimmed remaining (chunk + 1) (Function.update idx chunk none)

theorem trimmed_below
    (remaining : Nat) :
    ∀ (chunk : Nat) (idx : Nat → Option (List UInt8)), ∀ c < chunk,
      trimmed remaining chunk idx c = idx c := by
  induction remaining with
  | zero =>
      intro chunk idx c _
      rfl
  | succ remaining ih =>
      intro chunk idx c hc
      unfold trimmed
      split
      · rfl
      · rw [ih (chunk + 1) _ c (by omega)]
        exact Function.update_of_ne (by omega) _ _

/-- The loop looks at the blobs from `chunk` on only. -/
theorem trimmed_congr
    (remaining : Nat) :
    ∀ (chunk : Nat) (idx idx' : Nat → Option (List UInt8)),
      (∀ c, chunk ≤ c → idx c = idx' c) →
      ∀ c, chunk ≤ c → trimmed remaining chunk idx c = trimmed remaining chunk idx' c := by
  induction remaining with
  | zero =>
      intro chunk idx idx' hsame c hc
      exact hsame c hc
  | succ remaining ih =>
      intro chunk idx idx' hsame c hc
      unfold trimmed
      rw [hsame chunk le_rfl]
      split
      · exact hsame c hc
      · by_cases hfirst : c = chunk
        · subst hfirst
          rw [trimmed_below remaining _ _ _ (by omega), trimmed_below remaining _ _ _ (by omega)]
          simp
        · refine ih (chunk + 1) _ _ ?_ c (by omega)
          intro c' hc'
          rw [Function.update_of_ne (by omega), Function.update_of_ne (by omega),
            hsame c' (by omega)]

/-- What was erased once is not erased again. -/
theorem trimmed_trimmed
    (remaining : Nat)
    (chunk : Nat)
    (idx : Nat → Option (List UInt8)) :
    trimmed remaining chunk (trimmed remaining chunk idx) = trimmed remaining chunk idx := by
  cases remaining with
  | zero => rfl
  | succ remaining =>
      have hfirst : (trimmed (remaining + 1) chunk idx chunk).isNone = true := by
        unfold trimmed
        split
        · assumption
        · rw [trimmed_below remaining _ _ _ (by omega)]
          simp
      conv_lhs => unfold trimmed
      rw [if_pos hfirst]

theorem eraseStale_trimmed
    {outcome : NvsCall → NvsOutcome}
    (hok : ∀ call, outcome call = .ok)
    (remaining : Nat) :
    ∀ (chunk : Nat) (nvs : NvsStore),
      (eraseStale outcome remaining chunk nvs).2 =
        { nvs with idx := trimmed remaining chunk nvs.idx } := by
  induction remaining with
  | zero =>
      intro chunk nvs
      rfl
  | succ remaining ih =>
      intro chunk nvs
      simp only [eraseStale, hok, trimmed]
      split
      · rfl
      · exact ih (chunk + 1) _

/-- The store after a save in which no call fails. -/
def savedStore
    (engine : StorageEngine)
    (nvs : NvsStore) : NvsStore where
  created := true
  count := some (UInt16.ofNat engine.indexCount)
  nextIdx := some engine.nextFileIndex
  idx := fun chunk =>
    if chunk < numChunks engine.indexCount then
      some (encodeEntries (chunkOf engine.visible chunk))
    else
      trimmed (100 - numChunks engine.indexCount) (numChunks engine.indexCount) nvs.idx chunk

theorem saveIndexToNvs_savedStore
    {outcome : NvsCall → NvsOutcome}
    (hok : ∀ call, outcome call = .ok)
    (engine : StorageEngine)
    (nvs : NvsStore) :
    (saveIndexToNvs outcome engine nvs).2 = savedStore engine nvs := by
  rw [saveIndexToNvs_eq outcome engine nvs hok, eraseStale_trimmed hok]
  have hidx : trimmed (100 - numChunks engine.indexCount) (numChunks engine.indexCount)
      ((nvs.withHeader engine).withChunks engine.visible 0 (numChunks engine.indexCount)).idx =
      (savedStore engine nvs).idx := by
    funext chunk
    simp only [savedStore]
    split
    · rename_i hlt
      rw [trimmed_below _ _ _ _ hlt]
      simp [NvsStore.withChunks, hlt]
    · rename_i hge
      refine trimmed_congr _ _ _ _ ?_ chunk (by omega)
      intro c hc
      have hbeyond : ¬ c < numChunks engine.indexCount := by omega
      simp [NvsStore.withChunks, NvsStore.withHeader, hbeyond]
  rw [hidx]
  rfl

/-- A save leaves nothing of an earlier save of an index of the same length. -/
theorem savedStore_savedStore
    {earlier later : StorageEngine}
    (hcount : earlier.indexCount = later.indexCount)
    (nvs : NvsStore) :
    savedStore later (savedStore earlier nvs) = savedStore later nvs := by
  have hidx : (savedStore later (savedStore earlier nvs)).idx = (savedStore later nvs).idx := by
    funext chunk
    simp only [savedStore, hcount]
    split
    · rfl
    · rename_i hge
      have hsame := trimmed_congr (100 - numChunks later.indexCount)
        (numChunks later.indexCount)
        (fun chunk =>
          if chunk < numChunks later.indexCount then
            some (encodeEntries (chunkOf earlier.visible chunk))
          else trimmed (100 - numChunks later.indexCount) (numChunks later.indexCount)
            nvs.idx chunk)
        (trimmed (100 - numChunks later.indexCount) (numChunks later.indexCount) nvs.idx)
        (fun c hc => if_neg (by omega)) chunk (by omega)
      rw [hsame, trimmed_trimmed]
  unfold savedStore at hidx ⊢
  exact congrArg (fun idx => NvsStore.mk true _ _ idx) hidx

/-! ## Records deleted together -/

theorem StorageEngine.withVisible_congr
    (engine : StorageEngine)
    {entries entries' : List StorageIndexEntry}
    (hsame : entries = entries')
    (hlen : entries.length = engine.indexCount)
    (hlen' : entries'.length = engine.indexCount) :
    engine.withVisible entries hlen = engine.withVisible entries' hlen' := by
  subst hsame
  rfl

/-- Records that are overwritten twice. -/
theorem StorageEngine.withVisible_withVisible
    (engine : StorageEngine)
    {entries entries' : List StorageIndexEntry}
    (hlen : entries.length = engine.indexCount)
    (hlen' : entries'.length = engine.indexCount) :
    (engine.withVisible entries hlen).withVisible entries' hlen' =
      engine.withVisible entries' hlen' := by
  have hindex : (entries ++ engine.index.drop engine.indexCount).drop engine.indexCount =
      engine.index.drop engine.indexCount :=
    List.drop_left' hlen
  simp only [StorageEngine.withVisible, hindex]

/-- A target with the deleted flag, and any other record as it is. -/
def markTarget
    (target : StorageIndexEntry → Bool)
    (e : StorageIndexEntry) : StorageIndexEntry :=
  if target e then e.markDeleted else e

/-- The engine in which the targets are marked. -/
def markTargets
    (target : StorageIndexEntry → Bool)
    (engine : StorageEngine) : StorageEngine :=
  engine.withVisible (engine.visible.map (markTarget target)) (by simp)

/--
The storage after the deletion of the targets: they are marked, their files are gone, and the
index has been saved if there was a target.
-/
def deletedWorld
    (lib : Libnostr)
    (target : StorageIndexEntry → Bool)
    (world : StorageWorld) : StorageWorld where
  engine := markTargets target world.engine
  files := fun path =>
    if world.engine.visible.any (fun e => target e && e.path lib == path) then none
    else world.files path
  nvs :=
    if world.engine.visible.any target then savedStore (markTargets target world.engine) world.nvs
    else world.nvs

section Targets

variable
  {lib : Libnostr}
  {target target' : StorageIndexEntry → Bool}
  {world : StorageWorld}

@[simp] theorem deletedWorld_visible :
    (deletedWorld lib target world).engine.visible =
      world.engine.visible.map (markTarget target) :=
  StorageEngine.visible_withVisible _ _ (by simp)

@[simp] theorem deletedWorld_initialized :
    (deletedWorld lib target world).engine.initialized = world.engine.initialized := rfl

@[simp] theorem deletedWorld_indexCount :
    (deletedWorld lib target world).engine.indexCount = world.engine.indexCount := rfl

/-- The targets among the records in use decide. -/
theorem deletedWorld_congr
    (hsame : ∀ e ∈ world.engine.visible, target e = target' e) :
    deletedWorld lib target world = deletedWorld lib target' world := by
  have hentries : world.engine.visible.map (markTarget target) =
      world.engine.visible.map (markTarget target') := by
    refine List.map_congr_left fun e hmem => ?_
    rw [markTarget, markTarget, hsame e hmem]
  have hengine : markTargets target world.engine = markTargets target' world.engine :=
    world.engine.withVisible_congr hentries _ _
  have hany : world.engine.visible.any target = world.engine.visible.any target' := by
    rw [Bool.eq_iff_iff, List.any_eq_true, List.any_eq_true]
    exact exists_congr fun e => and_congr_right fun hmem => by rw [hsame e hmem]
  have hpaths : ∀ path, world.engine.visible.any (fun e => target e && e.path lib == path) =
      world.engine.visible.any (fun e => target' e && e.path lib == path) := by
    intro path
    rw [Bool.eq_iff_iff, List.any_eq_true, List.any_eq_true]
    exact exists_congr fun e => and_congr_right fun hmem => by rw [hsame e hmem]
  simp only [deletedWorld, hengine, hany, hpaths]

/-- Without a target nothing is changed. -/
theorem deletedWorld_none
    (hnone : ∀ e ∈ world.engine.visible, target e = false) :
    deletedWorld lib target world = world := by
  have hentries : world.engine.visible.map (markTarget target) = world.engine.visible := by
    refine (List.map_congr_left fun e hmem => ?_).trans (List.map_id _)
    rw [markTarget, hnone e hmem]
    rfl
  have hengine : markTargets target world.engine = world.engine :=
    (world.engine.withVisible_congr hentries _ (by simp)).trans
      (world.engine.withVisible_visible (by simp))
  have hany : world.engine.visible.any target = false := by
    rw [List.any_eq_false]
    exact fun e hmem => by simp [hnone e hmem]
  have hpaths : ∀ path, world.engine.visible.any (fun e => target e && e.path lib == path) =
      false := by
    intro path
    rw [List.any_eq_false]
    exact fun e hmem => by simp [hnone e hmem]
  simp only [deletedWorld, hengine, hany, hpaths, Bool.false_eq_true, if_false]

/-- The live records are those that are no target. -/
theorem mem_live_deletedWorld
    {e : StorageIndexEntry} :
    e ∈ live (deletedWorld lib target world).engine.visible ↔
      e ∈ live world.engine.visible ∧ target e = false := by
  rw [deletedWorld_visible, mem_live, mem_live, List.mem_map]
  constructor
  · rintro ⟨⟨e', hmem, rfl⟩, hlive⟩
    unfold markTarget at hlive ⊢
    split at hlive
    · rw [StorageIndexEntry.isDeleted_markDeleted] at hlive
      cases hlive
    · rename_i htarget
      rw [if_neg htarget]
      exact ⟨⟨hmem, hlive⟩, by simpa using htarget⟩
  · rintro ⟨⟨hmem, hlive⟩, htarget⟩
    refine ⟨⟨e, hmem, ?_⟩, hlive⟩
    rw [markTarget, htarget]
    rfl

variable
  {next : UInt32}
  (hindex : WellIndexed world.engine.visible next)
include hindex

/-- The file of a record that is no target is as before. -/
theorem deletedWorld_files
    {e : StorageIndexEntry}
    (hmem : e ∈ world.engine.visible)
    (hother : target e = false) :
    (deletedWorld lib target world).files (e.path lib) = world.files (e.path lib) := by
  refine if_neg ?_
  rw [Bool.not_eq_true, List.any_eq_false]
  intro e' hmem' htarget
  rw [Bool.and_eq_true, beq_iff_eq] at htarget
  obtain rfl : e' = e := List.inj_on_of_nodup_map hindex.nodup_fileIndex hmem' hmem
    (getEventPath_fileIndex htarget.2)
  rw [hother] at htarget
  cases htarget.1

/-! ## One more record -/

variable
  {env : CallEnv}
  (henv : env.Succeeds)
  (hinit : world.engine.initialized = true)
  {e : StorageIndexEntry}
  (hmem : e ∈ live world.engine.visible)
  (hother : target e = false)
  (hmore : ∀ e' ∈ world.engine.visible, target' e' = true ↔ target e' = true ∨ e' = e)
include hmem hother hmore

/-- Marking the record at its position adds it to the targets. -/
theorem modify_markTarget
    {i : Nat}
    (hget : world.engine.visible[i]? = some e) :
    (world.engine.visible.map (markTarget target)).modify i StorageIndexEntry.markDeleted =
      world.engine.visible.map (markTarget target') := by
  have hnodup : world.engine.visible.Nodup := List.Nodup.of_map _ hindex.nodup_fileIndex
  apply List.ext_getElem?
  intro j
  rw [List.getElem?_modify, List.getElem?_map, List.getElem?_map]
  cases hentry : world.engine.visible[j]? with
  | none => rfl
  | some e' =>
      have hvisible : e' ∈ world.engine.visible := List.mem_of_getElem? hentry
      have hadded := hmore e' hvisible
      by_cases hij : i = j
      · subst hij
        obtain rfl : e = e' := Option.some.inj (hget.symm.trans hentry)
        simp [markTarget, hother, hadded.mpr (Or.inr rfl)]
      · have hne : e' ≠ e := by
          rintro rfl
          obtain ⟨hi, hgeti⟩ := List.getElem?_eq_some_iff.mp hget
          obtain ⟨hj, hgetj⟩ := List.getElem?_eq_some_iff.mp hentry
          exact hij (hnodup.getElem_inj_iff.mp (hgeti.trans hgetj.symm))
        have hsame : target' e' = target e' := by
          rw [Bool.eq_iff_iff, hadded]
          exact or_iff_left hne
        simp [markTarget, hij, hsame]

omit hindex hother in
/-- Its file is removed. -/
theorem unlink_deletedWorld
    (henv : env.Succeeds) :
    unlink env (deletedWorld lib target world).files (e.path lib) =
      (deletedWorld lib target' world).files := by
  funext path
  rw [unlink, if_pos (henv.unlinkOk _)]
  by_cases hpath : path = e.path lib
  · subst hpath
    rw [Function.update_self]
    refine (if_pos ?_).symm
    rw [List.any_eq_true]
    exact ⟨e, (mem_live.mp hmem).1, by simp [(hmore e (mem_live.mp hmem).1).mpr (Or.inr rfl)]⟩
  · rw [Function.update_of_ne hpath]
    have hany : world.engine.visible.any (fun e => target e && e.path lib == path) =
        world.engine.visible.any (fun e => target' e && e.path lib == path) := by
      rw [Bool.eq_iff_iff, List.any_eq_true, List.any_eq_true]
      refine exists_congr fun e' => and_congr_right fun hvisible => ?_
      rw [Bool.and_eq_true, Bool.and_eq_true, beq_iff_eq, hmore e' hvisible]
      constructor
      · exact fun h => ⟨Or.inl h.1, h.2⟩
      · rintro ⟨htarget | rfl, hsame⟩
        · exact ⟨htarget, hsame⟩
        · exact absurd hsame.symm hpath
    simp only [deletedWorld, hany]

include henv hinit

/-- **The deletion of one more record.** -/
theorem storageDeleteEvent_deletedWorld :
    storageDeleteEvent lib env (deletedWorld lib target world) e.eventId =
      (.storageOk, deletedWorld lib target' world) := by
  have hfound : foundEntry (deletedWorld lib target world).engine e.eventId = some e := by
    refine foundEntry_eq_some (mem_live_deletedWorld.mpr ⟨hmem, hother⟩) rfl ?_
    intro e' hmem' hid
    exact hindex.eq_of_eventId (mem_live_deletedWorld.mp hmem').1 hmem hid
  rw [← findIndexEntry_eq] at hfound
  obtain ⟨i, hidx, hmarked⟩ := Option.bind_eq_some_iff.mp hfound
  -- the record found is not marked, so it is the one at this position
  have hget : world.engine.visible[i]? = some e := by
    have hsome := hmarked
    rw [deletedWorld_visible, List.getElem?_map, Option.map_eq_some_iff] at hsome
    obtain ⟨e', hget, hmark⟩ := hsome
    unfold markTarget at hmark
    split at hmark
    · rename_i htarget
      have hlive := (mem_live.mp hmem).2
      rw [← hmark, StorageIndexEntry.isDeleted_markDeleted] at hlive
      cases hlive
    · rw [hget, hmark]
  have hentry : (deletedWorld lib target world).engine.visible.getD i StorageIndexEntry.zero =
      e := by
    rw [List.getD_eq_getElem?_getD, hmarked]
    rfl
  have hengine : (deletedWorld lib target world).engine.withVisible
      ((deletedWorld lib target world).engine.visible.modify i StorageIndexEntry.markDeleted)
      (by simp) = (deletedWorld lib target' world).engine := by
    have hentries : (deletedWorld lib target world).engine.visible.modify i
        StorageIndexEntry.markDeleted = world.engine.visible.map (markTarget target') := by
      rw [deletedWorld_visible]
      exact modify_markTarget hindex hmem hother hmore hget
    have hlen : (world.engine.visible.map (markTarget target)).length =
        world.engine.indexCount := by
      simp
    exact (world.engine.withVisible_withVisible hlen _).trans
      (world.engine.withVisible_congr hentries _ (by simp))
  have hfiles : unlink env (deletedWorld lib target world).files (e.path lib) =
      (deletedWorld lib target' world).files :=
    unlink_deletedWorld hmem hmore henv
  have hnvs : savedStore (deletedWorld lib target' world).engine
      (deletedWorld lib target world).nvs = (deletedWorld lib target' world).nvs := by
    have hsome : world.engine.visible.any target' = true :=
      List.any_eq_true.mpr ⟨e, (mem_live.mp hmem).1,
        (hmore e (mem_live.mp hmem).1).mpr (Or.inr rfl)⟩
    simp only [deletedWorld, hsome, if_true]
    split
    · have hcount : (markTargets target world.engine).indexCount =
          (markTargets target' world.engine).indexCount := rfl
      exact savedStore_savedStore hcount world.nvs
    · rfl
  simp only [storageDeleteEvent, deletedWorld_initialized, hinit, hidx, Bool.not_true,
    Bool.false_eq_true, if_false, hentry, persist, hengine, hfiles,
    saveIndexToNvs_savedStore henv.nvsOk, hnvs]

end Targets

end Storage
end WispRelay
