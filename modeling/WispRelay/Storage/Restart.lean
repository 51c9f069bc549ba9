import WispRelay.Storage.FileBijection
import WispRelay.Storage.Persistence

/-!
# Runs with restarts

The relay runs, stops, with `storage_destroy` or by a power cut between two operations, and
starts again from what the flash holds.  Two things are recorded beside the storage: which
event was saved under which identifier and running number, and which records a query found
expired.

`Trails` compares the stored index with the records in use: it is a prefix that lacks at most
the records since the last multiple of ten, and a record may lack the deleted flag.

`FlashInv` is the invariant of such runs, `FlashInv.run` and `FlashInv.restart` its
preservation.  A running number given up by a power cut is used again; what keeps the stored
records apart from the new ones is that stored running numbers are below the stored next one.
-/

namespace WispRelay
namespace Storage

open Runs

/-! ## The machine -/

/-- An operation, or a stop and a start. -/
inductive FlashOp where
  | run (op : StorageOp)
  /-- Without a `stop` the relay loses power; else `storage_destroy` runs first. -/
  | restart (stop : Option CallEnv) (env : InitEnv) (ttl : UInt32)

/-- The storage, with what was saved and which records a query found expired. -/
structure LoggedWorld where
  world : StorageWorld
  saved : Bytes32 → UInt32 → Option NostrEvent
  foundExpired : List StorageIndexEntry

/-- Record a successful save under its identifier and running number. -/
def logSave
    (saved : Bytes32 → UInt32 → Option NostrEvent)
    (next : UInt32) :
    Option NostrEvent → Bytes32 → UInt32 → Option NostrEvent
  | none => saved
  | some event => fun eventId fileIndex =>
      if eventId = event.id ∧ fileIndex = next then some event
      else saved eventId fileIndex

/-- The records a query found expired and marked. -/
def newlyExpired
    (op : StorageOp)
    (before after : StorageEngine) : List StorageIndexEntry :=
  match op.call with
  | .query _ _ =>
      (live before.visible).filter fun e =>
        e.isExpired op.env.now && decide (e ∉ after.visible)
  | _ => []

/-- The flash when the relay is off. -/
def stopped
    (stop : Option CallEnv)
    (world : StorageWorld) : StorageWorld :=
  match stop with
  | none => world
  | some env => storageDestroy env world

/-- The machine of runs with restarts. -/
def flashStep
    (lib : Libnostr)
    (w : LoggedWorld) : FlashOp → Option StorageResult × LoggedWorld
  | .run op =>
      let done := storageStep lib w.world op
      (some done.1,
        { world := done.2
          saved := logSave w.saved w.world.engine.nextFileIndex (savedEvent done.1)
          foundExpired :=
            w.foundExpired ++ newlyExpired op w.world.engine done.2.engine })
  | .restart stop env ttl =>
      let off := stopped stop w.world
      (none, { w with world := (storageInit env ttl off.files off.nvs).2 })

/-- The relay started for the first time, on an erased flash. -/
def erasedFlash
    (capacity : Nat)
    (ttl : UInt32)
    (hcapacity : capacity ≤ storageIndexEntries) : LoggedWorld where
  world := emptyWorld capacity ttl NvsStore.erased hcapacity
  saved := fun _ _ => none
  foundExpired := []

/-- An engine without PSRAM has 1000 slots. -/
theorem thousandSlots : 1000 ≤ storageIndexEntries := by
  decide

/-- The event a record was made for. -/
def LoggedWorld.owner
    (w : LoggedWorld)
    (e : StorageIndexEntry) : Option NostrEvent :=
  w.saved e.eventId e.fileIndex

/-! ## What a run may do -/

/-- No NVS call fails. -/
def FlashOp.Persists : FlashOp → Prop
  | .run op => ∀ call, op.env.nvs call = .ok
  | .restart stop _ _ => ∀ env, stop = some env → ∀ call, env.nvs call = .ok

/-- A start in which nothing fails, with the same number of slots as ever. -/
def FlashOp.Starts
    (capacity : Nat) : FlashOp → Prop
  | .run _ => True
  | .restart _ env _ => env.Succeeds ∧ initCapacity env = capacity

/-- `unlink` and `fclose` succeed. -/
def FlashOp.KeepsFiles : FlashOp → Prop
  | .run op => op.env.KeepsFiles
  | .restart _ _ _ => True

/-- The clock of an operation. -/
def FlashOp.time : FlashOp → Option UInt32
  | .run op => some op.env.now
  | .restart _ _ _ => none

/-- Whether an operation is a save. -/
def FlashOp.isSave : FlashOp → Bool
  | .run ⟨.save _, _⟩ => true
  | _ => false

/-- The clock readings of a run. -/
def times
    (ops : List FlashOp) : List UInt32 :=
  ops.filterMap FlashOp.time

/-- The last clock reading. -/
def lastTime
    (ops : List FlashOp) : UInt32 :=
  (times ops).getLastD 0

/-- The number of saves of a run. -/
def flashSaves
    (ops : List FlashOp) : Nat :=
  ops.countP FlashOp.isSave

/-- No file is lost or cut short, and the clock does not go back. -/
structure Calm
    (ops : List FlashOp) : Prop where
  keepsFiles : ∀ op ∈ ops, op.KeepsFiles
  monotone : (times ops).Pairwise (· ≤ ·)

/-- Whether an operation is a stop and a start. -/
def FlashOp.isRestart : FlashOp → Bool
  | .run _ => false
  | .restart _ _ _ => true

/--
Every start succeeds, and no NVS call failed before it.  Runs in which the relay restarts after
a failed or interrupted save of the index are left out; without a restart any call may fail.
-/
def Durable
    (capacity : Nat)
    (ops : List FlashOp) : Prop :=
  ∀ past stop env ttl later, ops = past ++ .restart stop env ttl :: later →
    (∀ op ∈ past ++ [.restart stop env ttl], op.Persists) ∧
      (FlashOp.restart stop env ttl).Starts capacity

section Histories

variable
  {past : List FlashOp}
  {op : FlashOp}

@[simp] theorem times_snoc :
    times (past ++ [op]) = times past ++ op.time.toList := by
  cases h : op.time <;> simp [times, h]

@[simp] theorem lastTime_run
    (op : StorageOp) :
    lastTime (past ++ [FlashOp.run op]) = op.env.now := by
  simp [lastTime, FlashOp.time]

@[simp] theorem lastTime_restart
    (stop : Option CallEnv)
    (env : InitEnv)
    (ttl : UInt32) :
    lastTime (past ++ [FlashOp.restart stop env ttl]) = lastTime past := by
  simp [lastTime, FlashOp.time]

theorem flashSaves_le
    (past : List FlashOp)
    (op : FlashOp) :
    flashSaves past ≤ flashSaves (past ++ [op]) := by
  simp [flashSaves]

theorem flashSaves_save
    (hsave : op.isSave = true) :
    flashSaves (past ++ [op]) = flashSaves past + 1 := by
  simp [flashSaves, hsave]

theorem Calm.init
    (h : Calm (past ++ [op])) :
    Calm past where
  keepsFiles := fun o ho => h.keepsFiles o (List.mem_append_left _ ho)
  monotone := by
    have hall := h.monotone
    rw [times_snoc] at hall
    exact (List.pairwise_append.mp hall).1

theorem Durable.init
    {capacity : Nat}
    (h : Durable capacity (past ++ [op])) :
    Durable capacity past := by
  rintro earlier stop env ttl later rfl
  exact h earlier stop env ttl (later ++ [op]) (by simp)

/-- Without a restart nothing depends on the NVS calls. -/
theorem durable_of_runs
    (capacity : Nat)
    {ops : List FlashOp}
    (hruns : ∀ op ∈ ops, op.isRestart = false) :
    Durable capacity ops := by
  rintro past stop env ttl later rfl
  have hrun := hruns (.restart stop env ttl) (by simp)
  cases hrun

/-- When every start succeeds and no NVS call ever fails, restarts keep the index. -/
theorem durable_of_persists
    {capacity : Nat}
    {ops : List FlashOp}
    (hops : ∀ op ∈ ops, op.Persists ∧ op.Starts capacity) :
    Durable capacity ops := by
  rintro past stop env ttl later rfl
  refine ⟨fun op hop => (hops op ?_).1, (hops _ (by simp)).2⟩
  rcases List.mem_append.mp hop with hpast | hlast
  · exact List.mem_append_left _ hpast
  · exact List.mem_append_right _ (List.mem_singleton.mp hlast ▸ List.mem_cons_self)

/-- When the clock does not go back no reading exceeds a later one. -/
theorem lastTime_le_of_monotone
    {op : StorageOp}
    (h : (times (past ++ [FlashOp.run op])).Pairwise (· ≤ ·)) :
    lastTime past ≤ op.env.now := by
  rw [times_snoc] at h
  rcases List.eq_nil_or_concat (times past) with hnil | ⟨front, last, hlast⟩
  · rw [lastTime, hnil]
    exact UInt32.zero_le
  · rw [lastTime, hlast, List.concat_eq_append, List.getLastD_concat]
    refine (List.pairwise_append.mp h).2.2 last ?_ _ ?_
    · simp [hlast]
    · simp [FlashOp.time]

end Histories

/-- The file of a record may be lost: the run was not calm, or the record has expired. -/
def MayBeLost
    (past : List FlashOp)
    (e : StorageIndexEntry) : Prop :=
  ¬ Calm past ∨ e.isExpired (lastTime past) = true

theorem MayBeLost.run
    {past : List FlashOp}
    {e : StorageIndexEntry}
    (h : MayBeLost past e)
    (op : StorageOp) :
    MayBeLost (past ++ [FlashOp.run op]) e := by
  by_cases hcalm : Calm (past ++ [FlashOp.run op])
  · right
    rw [lastTime_run]
    rcases h with hwild | hexpired
    · exact absurd hcalm.init hwild
    · exact StorageIndexEntry.isExpired_mono (lastTime_le_of_monotone hcalm.monotone) hexpired
  · exact Or.inl hcalm

theorem MayBeLost.restart
    {past : List FlashOp}
    {e : StorageIndexEntry}
    (h : MayBeLost past e)
    (stop : Option CallEnv)
    (env : InitEnv)
    (ttl : UInt32) :
    MayBeLost (past ++ [FlashOp.restart stop env ttl]) e := by
  rcases h with hwild | hexpired
  · exact Or.inl fun hcalm => hwild hcalm.init
  · right
    rw [lastTime_restart]
    exact hexpired

/-! ## The stored index and the records in use -/

/--
`stored` is the front of `entries`, but for the records added since the last multiple of ten
and for deleted flags that were set for the reason `lost`.
-/
structure Trails
    (lost : StorageIndexEntry → Prop)
    (entries stored : List StorageIndexEntry) : Prop where
  length_le : stored.length ≤ entries.length
  missing : entries.length ≤ stored.length + entries.length % 10
  agree : ∀ (i : Nat) (e : StorageIndexEntry), stored[i]? = some e →
    ∃ e', entries[i]? = some e' ∧ (e' = e ∨ MarkedBy lost e e')

namespace Trails

variable
  {lost : StorageIndexEntry → Prop}
  {entries stored : List StorageIndexEntry}

theorem refl :
    Trails lost entries entries where
  length_le := Nat.le_refl _
  missing := Nat.le_add_right _ _
  agree := fun _ e he => ⟨e, he, Or.inl rfl⟩

/-- A record added to an index that is not persisted now. -/
theorem append
    (h : Trails lost entries stored)
    (e : StorageIndexEntry)
    (hunsaved : (entries ++ [e]).length % 10 ≠ 0) :
    Trails lost (entries ++ [e]) stored where
  length_le := by
    rw [List.length_append]
    exact Nat.le_add_right_of_le h.length_le
  missing := by
    have hle := h.missing
    rw [List.length_append, List.length_singleton] at hunsaved ⊢
    omega
  agree := by
    intro i e' he'
    obtain ⟨e'', he'', hrel⟩ := h.agree i e' he'
    have hlt : i < entries.length := (List.getElem?_eq_some_iff.mp he'').1
    refine ⟨e'', ?_, hrel⟩
    rw [List.getElem?_append_left hlt]
    exact he''

theorem weaken
    (h : Trails lost entries stored)
    {lost' : StorageIndexEntry → Prop}
    (hlost : ∀ e, lost e → lost' e) :
    Trails lost' entries stored where
  length_le := h.length_le
  missing := h.missing
  agree := by
    intro i e he
    obtain ⟨e', he', hrel⟩ := h.agree i e he
    exact ⟨e', he', hrel.imp_right fun hm => ⟨hm.1, hlost e hm.2.1, hm.2.2⟩⟩

/-- A record that is stored live and listed with its running number is listed as it is. -/
theorem listed
    {next : UInt32}
    (h : Trails lost entries stored)
    (hindex : WellIndexed entries next)
    {e e' : StorageIndexEntry}
    (hstored : e ∈ stored)
    (hmem : e' ∈ live entries)
    (heq : e'.fileIndex = e.fileIndex) :
    e' = e := by
  obtain ⟨i, hi⟩ := List.mem_iff_getElem?.mp hstored
  obtain ⟨m, hm, hrel⟩ := h.agree i e hi
  have hindexEq : m.fileIndex = e.fileIndex := by
    rcases hrel with rfl | ⟨_, _, rfl⟩
    · rfl
    · rfl
  obtain rfl : e' = m :=
    List.inj_on_of_nodup_map hindex.nodup_fileIndex (mem_live.mp hmem).1
      (List.mem_of_getElem? hm) (heq.trans hindexEq.symm)
  rcases hrel with hsame | ⟨_, _, hmarked⟩
  · exact hsame
  · have hlive := (mem_live.mp hmem).2
    rw [hmarked] at hlive
    simp at hlive

/-- The records in use are swept; the stored ones keep their flags. -/
theorem swept
    {lib : Libnostr}
    {env : CallEnv}
    {Q : StorageIndexEntry → Prop}
    {after : List StorageIndexEntry}
    {files files' : Files}
    (h : Trails lost entries stored)
    (hnodup : (entries.map (·.fileIndex)).Nodup)
    (hswept : Swept lib env Q entries after files files')
    {lost' : StorageIndexEntry → Prop}
    (hlost : ∀ e, lost e → lost' e)
    (hnew : ∀ e ∈ live entries, Q e → e ∉ after → lost' e) :
    Trails lost' after stored where
  length_le := by
    rw [hswept.length_eq]
    exact h.length_le
  missing := by
    rw [hswept.length_eq]
    exact h.missing
  agree := by
    intro i e he
    obtain ⟨m, hm, hrel⟩ := h.agree i e he
    obtain ⟨m', hm', hstep⟩ := hswept.getElem? hm
    refine ⟨m', hm', ?_⟩
    rcases hstep with rfl | hmark
    · exact hrel.imp_right fun hmarked => ⟨hmarked.1, hlost e hmarked.2.1, hmarked.2.2⟩
    · right
      rcases hrel with rfl | ⟨_, _, hdeleted⟩
      · have hmem : m ∈ entries := List.mem_of_getElem? hm
        have hgone : m ∉ after := hswept.not_mem_of_marked hnodup hm' hmark
        exact ⟨hmark.1, hnew m (mem_live.mpr ⟨hmem, hmark.1⟩) hmark.2.1 hgone, hmark.2.2⟩
      · have hlive := hmark.1
        rw [hdeleted] at hlive
        simp at hlive

end Trails

/-- The contents of the store are those of a completed save, or it was never written. -/
def HoldsIndex
    (nvs : NvsStore)
    (entries : List StorageIndexEntry)
    (next : UInt32) : Prop :=
  Image nvs entries next ∨ nvs.created = false ∧ entries = [] ∧ next = 0

/-- What the flash holds next to the records in use. -/
structure Stored
    (lib : Libnostr)
    (past : List FlashOp)
    (w : LoggedWorld)
    (entries : List StorageIndexEntry)
    (next : UInt32) : Prop where
  holds : HoldsIndex w.world.nvs entries next
  trails : Trails (fun e => e ∈ w.foundExpired) w.world.engine.visible entries
  index : WellIndexed entries next
  next_le : next.toNat ≤ w.world.engine.nextFileIndex.toNat
  owned : Owned lib (MayBeLost past) w.owner entries w.world.files

/--
The invariant of runs with restarts.  `inUse` and `kept` are what is to be known of the live
records in use and of the live records on the flash.
-/
structure FlashInv
    (lib : Libnostr)
    (capacity : Nat)
    (inUse kept : StorageIndexEntry → Prop)
    (past : List FlashOp)
    (w : LoggedWorld) : Prop where
  initialized : w.world.engine.initialized = true
  capacity_eq : w.world.engine.maxIndexEntries = capacity
  index : WellIndexed w.world.engine.visible w.world.engine.nextFileIndex
  owned : Owned lib (MayBeLost past) w.owner w.world.engine.visible w.world.files
  next_le : w.world.engine.nextFileIndex.toNat ≤ flashSaves past
  known : ∀ e ∈ live w.world.engine.visible, inUse e
  stored : (∀ op ∈ past, op.Persists) →
    ∃ entries next, Stored lib past w entries next ∧ ∀ e ∈ live entries, kept e

/-- A save of the index in which no call fails. -/
theorem image_persist
    {env : CallEnv}
    (hok : ∀ call, env.nvs call = .ok)
    (world : StorageWorld) :
    Image (persist env world).nvs world.engine.visible world.engine.nextFileIndex :=
  (saveIndexToNvs_writes env.nvs world.engine world.nvs).2
    (congrArg Prod.fst (saveIndexToNvs_eq env.nvs world.engine world.nvs hok))

/-- A store without the namespace is loaded as the empty index. -/
theorem loads_uncreated
    {env : InitEnv}
    (henv : env.Succeeds)
    (ttl : UInt32)
    (files : Files)
    {nvs : NvsStore}
    (hcreated : nvs.created = false) :
    Loads env ttl files nvs [] 0 := by
  have hload : loadIndexFromNvs env.read
      (freshEngine (initCapacity env) ttl (initCapacity_le env)) nvs =
        (true, freshEngine (initCapacity env) ttl (initCapacity_le env)) := by
    simp [loadIndexFromNvs, henv.readOk, hcreated]
  unfold Loads
  rw [storageInit_eq henv, hload]
  refine ⟨?_, rfl⟩
  rw [startedEngine_visible, if_pos rfl]
  simp [freshEngine, StorageEngine.visible]

/-- What the flash holds is what the relay starts with. -/
theorem HoldsIndex.loads
    {nvs : NvsStore}
    {entries : List StorageIndexEntry}
    {next : UInt32}
    (h : HoldsIndex nvs entries next)
    {env : InitEnv}
    (henv : env.Succeeds)
    (hfits : entries.length ≤ initCapacity env)
    (ttl : UInt32)
    (files : Files) :
    Loads env ttl files nvs entries next := by
  rcases h with himage | ⟨hcreated, rfl, rfl⟩
  · exact loads_image henv ttl files himage hfits
  · exact loads_uncreated henv ttl files hcreated

/-! ## One operation -/

section Run

variable
  {lib : Libnostr}
  {past : List FlashOp}
  {w : LoggedWorld}

/-- The owner of a record that is not the new one. -/
theorem owner_of_ne
    (saved : Option NostrEvent)
    {e : StorageIndexEntry}
    (hne : ∀ event, saved = some event →
      e.eventId ≠ event.id ∨ e.fileIndex ≠ w.world.engine.nextFileIndex) :
    logSave w.saved w.world.engine.nextFileIndex saved e.eventId e.fileIndex = w.owner e := by
  cases saved with
  | none => rfl
  | some event =>
      have hnot : ¬ (e.eventId = event.id ∧ e.fileIndex = w.world.engine.nextFileIndex) := by
        rintro ⟨hid, hindex⟩
        exact (hne event rfl).elim (fun h => h hid) (fun h => h hindex)
      simp only [logSave, hnot, if_false]
      rfl

/-- Stored records when the store is not written and no file of theirs is touched. -/
theorem Stored.frame
    {entries : List StorageIndexEntry}
    {next : UInt32}
    (h : Stored lib past w entries next)
    {op : StorageOp}
    {w' : LoggedWorld}
    (hnvs : w'.world.nvs = w.world.nvs)
    (htrails : Trails (fun e => e ∈ w'.foundExpired) w'.world.engine.visible entries)
    (hnext : w.world.engine.nextFileIndex.toNat ≤ w'.world.engine.nextFileIndex.toNat)
    (howner : ∀ e ∈ live entries, w'.owner e = w.owner e)
    (hfiles : ∀ e ∈ live entries,
      w'.world.files (e.path lib) = w.world.files (e.path lib) ∨
        (MayBeLost (past ++ [FlashOp.run op]) e ∧ w'.world.files (e.path lib) = none)) :
    Stored lib (past ++ [FlashOp.run op]) w' entries next where
  holds := hnvs.symm ▸ h.holds
  trails := htrails
  index := h.index
  next_le := Nat.le_trans h.next_le hnext
  owned := h.owned.frame (fun _ _ hlost => hlost.run op) howner hfiles

/-- Right after the index was persisted the flash holds the records in use. -/
theorem stored_of_persist
    {w' : LoggedWorld}
    {env : CallEnv}
    {world : StorageWorld}
    (hok : ∀ call, env.nvs call = .ok)
    (hworld : w'.world = persist env world)
    (hindex : WellIndexed w'.world.engine.visible w'.world.engine.nextFileIndex)
    (howned : Owned lib (MayBeLost past) w'.owner w'.world.engine.visible w'.world.files) :
    Stored lib past w' w'.world.engine.visible w'.world.engine.nextFileIndex where
  holds := by
    rw [hworld]
    exact Or.inl (image_persist hok world)
  trails := Trails.refl
  index := hindex
  next_le := Nat.le_refl _
  owned := howned

/-- A file that was not there before belongs to no stored record. -/
theorem Stored.path_ne
    {entries : List StorageIndexEntry}
    {next : UInt32}
    (h : Stored lib past w entries next)
    {e : StorageIndexEntry}
    (hmem : e ∈ live entries)
    (eventId : Bytes32) :
    e.path lib ≠ getEventPath lib eventId w.world.engine.nextFileIndex :=
  h.index.path_ne (mem_live.mp hmem).1 h.next_le

/-- No stored record has the next running number. -/
theorem Stored.fileIndex_ne
    {entries : List StorageIndexEntry}
    {next : UInt32}
    (h : Stored lib past w entries next)
    {e : StorageIndexEntry}
    (hmem : e ∈ live entries) :
    e.fileIndex ≠ w.world.engine.nextFileIndex := by
  intro heq
  have hlt := h.index.below e (mem_live.mp hmem).1
  have hle := h.next_le
  rw [heq] at hlt
  omega

/-- A sweep takes the file of a stored record only when that record has expired. -/
theorem Stored.swept_file
    {entries : List StorageIndexEntry}
    {next : UInt32}
    (h : Stored lib past w entries next)
    {nextInUse : UInt32}
    (hindex : WellIndexed w.world.engine.visible nextInUse)
    {op : StorageOp}
    {after : List StorageIndexEntry}
    {files : Files}
    (hswept : Swept lib op.env (fun e => e.isExpired op.env.now) w.world.engine.visible after
      w.world.files files)
    {e : StorageIndexEntry}
    (hmem : e ∈ live entries) :
    files (e.path lib) = w.world.files (e.path lib) ∨
      (MayBeLost (past ++ [FlashOp.run op]) e ∧ files (e.path lib) = none) := by
  by_cases hgone : ∃ m ∈ w.world.engine.visible,
      m.isDeleted = false ∧ m ∉ after ∧ m.path lib = e.path lib
  · obtain ⟨m, hm, hlive, hnot, hpath⟩ := hgone
    obtain rfl : m = e :=
      h.trails.listed hindex (mem_live.mp hmem).1 (mem_live.mpr ⟨hm, hlive⟩)
        (getEventPath_fileIndex hpath)
    refine (hswept.shrunk (m.path lib)).imp_right ?_
    intro hnone
    refine ⟨Or.inr ?_, hnone⟩
    rw [lastTime_run]
    exact hswept.reason hm hnot
  · push Not at hgone
    exact Or.inl (hswept.untouched _ hgone)

/-- Every call keeps the stored records or persists the records in use. -/
theorem Stored.run
    {entries : List StorageIndexEntry}
    {next : UInt32}
    (h : Stored lib past w entries next)
    {op : StorageOp}
    (hok : ∀ call, op.env.nvs call = .ok)
    {saved : Option NostrEvent}
    {world' : StorageWorld}
    (heffect : StorageEffect lib op.env w.world op.call saved world')
    (hindex : WellIndexed w.world.engine.visible w.world.engine.nextFileIndex)
    (hnext : w.world.engine.nextFileIndex.toNat ≤ world'.engine.nextFileIndex.toNat)
    {w' : LoggedWorld}
    (hworld : w'.world = world')
    (hsaved : w'.saved = logSave w.saved w.world.engine.nextFileIndex saved)
    (hexpired : w'.foundExpired =
      w.foundExpired ++ newlyExpired op w.world.engine world'.engine)
    (hindex' : WellIndexed w'.world.engine.visible w'.world.engine.nextFileIndex)
    (howned' : Owned lib (MayBeLost (past ++ [FlashOp.run op])) w'.owner w'.world.engine.visible
      w'.world.files) :
    Stored lib (past ++ [FlashOp.run op]) w' entries next ∨
      Stored lib (past ++ [FlashOp.run op]) w' w'.world.engine.visible
        w'.world.engine.nextFileIndex := by
  have howner : ∀ e ∈ live entries, w'.owner e = w.owner e := by
    intro e hmem
    unfold LoggedWorld.owner
    rw [hsaved]
    exact owner_of_ne saved fun _ _ => Or.inr (h.fileIndex_ne hmem)
  have hlost : ∀ e, e ∈ w.foundExpired → e ∈ w'.foundExpired := by
    intro e hmem
    rw [hexpired]
    exact List.mem_append_left _ hmem
  generalize hcall : op.call = call at heffect
  cases heffect with
  | idle =>
      refine Or.inl (h.frame (by rw [hworld]) ?_ (hworld ▸ hnext) howner ?_)
      · rw [hworld]
        exact h.trails.weaken hlost
      · intro e _
        rw [hworld]
        exact Or.inl rfl
  | discard event leftover hgone =>
      refine Or.inl (h.frame (by rw [hworld]) ?_ (hworld ▸ hnext) howner ?_)
      · rw [hworld]
        exact h.trails.weaken hlost
      · intro e hmem
        rw [hworld]
        exact Or.inl (Function.update_of_ne (h.path_ne hmem event.id) _ _)
  | append event json hroom hfresh hjson =>
      by_cases htenth : (appendWorld lib op.env w.world event json hroom).engine.indexCount
          % 10 = 0
      · rw [persistEveryTenth, if_pos htenth] at hworld
        exact Or.inr (stored_of_persist hok hworld hindex' howned')
      · rw [persistEveryTenth, if_neg htenth] at hworld
        refine Or.inl (h.frame (by rw [hworld]; rfl) ?_ ?_ howner ?_)
        · rw [hworld]
          simp only [appendWorld, visible_append]
          refine (h.trails.weaken hlost).append _ ?_
          rw [← visible_append _ _ hroom, StorageEngine.visible_length]
          exact htenth
        · rw [hworld]
          simpa using hnext
        · intro e hmem
          rw [hworld]
          exact Or.inl (Function.update_of_ne (h.path_ne hmem event.id) _ _)
  | expire filter limit after files hlen hswept =>
      refine Or.inl (h.frame (by rw [hworld]; rfl) ?_ (hworld ▸ hnext) howner ?_)
      · rw [hworld]
        simp only [sweepWorld, StorageEngine.visible_withVisible]
        refine h.trails.swept hindex.nodup_fileIndex hswept hlost ?_
        intro e hmem hold hgone
        rw [hexpired]
        refine List.mem_append_right _ ?_
        simp only [newlyExpired, hcall, sweepWorld, StorageEngine.visible_withVisible,
          List.mem_filter, Bool.and_eq_true, decide_eq_true_eq]
        exact ⟨hmem, hold, hgone⟩
      · intro e hmem
        rw [hworld]
        exact h.swept_file hindex hswept hmem
  | sweep Q after files hlen hswept =>
      exact Or.inr (stored_of_persist hok hworld hindex' howned')
  | compact => exact Or.inr (stored_of_persist hok hworld hindex' howned')

/-- One operation keeps the invariant. -/
theorem FlashInv.run
    {capacity : Nat}
    {inUse kept : StorageIndexEntry → Prop}
    (h : FlashInv lib capacity inUse kept past w)
    (op : StorageOp)
    (hsaves : flashSaves (past ++ [FlashOp.run op]) < 2 ^ 32)
    (hkept : ∀ e, inUse e → kept e)
    (hadded : ∀ event, savedEvent (storageStep lib w.world op).1 = some event →
      inUse (newEntry lib op.env.now w.world.engine event)) :
    FlashInv lib capacity inUse kept (past ++ [FlashOp.run op]) (flashStep lib w (.run op)).2 := by
  have heffect := storageCall_effect lib op.env h.index.nodup_fileIndex op.call
  set saved := savedEvent ⟨op.call, (storageCall lib op.env w.world op.call).1⟩ with hsaved
  have hcount : saved.isSome = true →
      flashSaves (past ++ [FlashOp.run op]) = flashSaves past + 1 := by
    intro hsome
    obtain ⟨event, hevent⟩ := Option.isSome_iff_exists.mp hsome
    have hcall : op.call = .save event := call_of_savedEvent hevent
    exact flashSaves_save (by
      obtain ⟨call, env⟩ := op
      obtain rfl : call = .save event := hcall
      rfl)
  have hroom : saved.isSome = true → w.world.engine.nextFileIndex.toNat + 1 < 2 ^ 32 := by
    intro hsome
    have hle := h.next_le
    rw [hcount hsome] at hsaves
    omega
  have hnext := heffect.nextFileIndex_eq
  have hgrows : w.world.engine.nextFileIndex.toNat ≤
      (storageCall lib op.env w.world op.call).2.engine.nextFileIndex.toNat := by
    rw [hnext]
    split
    · rename_i hsome
      rw [FixedWidth.toNat_succ (hroom hsome)]
      exact Nat.le_succ _
    · exact Nat.le_refl _
  obtain ⟨hinit, hmax, _⟩ := heffect.config_eq
  have hnew : ∀ event, saved = some event →
      (flashStep lib w (.run op)).2.owner (newEntry lib op.env.now w.world.engine event) =
          some event ∧
        (MayBeLost (past ++ [FlashOp.run op]) (newEntry lib op.env.now w.world.engine event) ∨
          op.env.fcloseShort = none) := by
    intro event hevent
    constructor
    · simp only [LoggedWorld.owner, flashStep, storageStep]
      rw [← hsaved, hevent]
      simp [logSave, newEntry]
    · by_cases hflushed : op.env.fcloseShort = none
      · exact Or.inr hflushed
      · refine Or.inl (Or.inl fun hcalm => hflushed ?_)
        exact (hcalm.keepsFiles (.run op) (by simp)).fcloseOk
  obtain ⟨hindex, howned⟩ := heffect.keeps h.index hroom h.owned
    (fun _ hlost => hlost.run op)
    (fun e _ hne => owner_of_ne saved fun event hevent => Or.inl (hne event hevent)) hnew
  have hknown : ∀ e ∈ live (storageCall lib op.env w.world op.call).2.engine.visible,
      inUse e := by
    intro e hmem
    rcases heffect.live_or_new hmem with hold | ⟨event, hevent, rfl⟩
    · exact h.known e hold
    · exact hadded event hevent
  refine ⟨hinit.trans h.initialized, hmax.trans h.capacity_eq, hindex, howned, ?_, hknown, ?_⟩
  · have hle := h.next_le
    have hmono := flashSaves_le past (.run op)
    change (storageCall lib op.env w.world op.call).2.engine.nextFileIndex.toNat ≤ _
    rw [hnext]
    split
    · rename_i hsome
      rw [FixedWidth.toNat_succ (hroom hsome), hcount hsome]
      omega
    · omega
  · intro hpersists
    obtain ⟨entries, next, hstored, hlive⟩ :=
      h.stored fun o ho => hpersists o (List.mem_append_left _ ho)
    have hcases : Stored lib _ (flashStep lib w (.run op)).2 entries next ∨ _ :=
      hstored.run (hpersists (.run op) (by simp)) heffect h.index hgrows rfl rfl rfl hindex
        howned
    rcases hcases with hsame | hnow
    · exact ⟨_, _, hsame, hlive⟩
    · exact ⟨_, _, hnow, fun e hmem => hkept e (hknown e hmem)⟩

end Run

/-! ## A stop and a start -/

section Restart

variable
  {lib : Libnostr}
  {capacity : Nat}
  {inUse kept : StorageIndexEntry → Prop}
  {past : List FlashOp}
  {w : LoggedWorld}

/-- What the flash holds when the relay is off. -/
theorem FlashInv.off
    (h : FlashInv lib capacity inUse kept past w)
    (hkept : ∀ e, inUse e → kept e)
    (hpast : ∀ op ∈ past, op.Persists)
    {stop : Option CallEnv}
    (hok : ∀ env, stop = some env → ∀ call, env.nvs call = .ok) :
    (stopped stop w.world).files = w.world.files ∧
      ∃ entries next,
        Stored lib past { w with world := { w.world with nvs := (stopped stop w.world).nvs } }
          entries next ∧
        ∀ e ∈ live entries, kept e := by
  cases stop with
  | none => exact ⟨rfl, h.stored hpast⟩
  | some env =>
      simp only [stopped, storageDestroy, h.initialized, Bool.not_true, Bool.false_eq_true,
        if_false]
      exact ⟨rfl, _, _, stored_of_persist (hok env rfl) rfl h.index h.owned,
        fun e hmem => hkept e (h.known e hmem)⟩

/-- A start from stored records. -/
theorem FlashInv.start
    (h : FlashInv lib capacity inUse kept past w)
    {entries : List StorageIndexEntry}
    {next : UInt32}
    (hstored : Stored lib past w entries next)
    (hlive : ∀ e ∈ live entries, kept e)
    (hback : ∀ e, kept e → inUse e)
    (stop : Option CallEnv)
    {env : InitEnv}
    (henv : env.Succeeds)
    (hcapacity : initCapacity env = capacity)
    (ttl : UInt32) :
    FlashInv lib capacity inUse kept (past ++ [FlashOp.restart stop env ttl])
      { w with world := (storageInit env ttl w.world.files w.world.nvs).2 } := by
  have hfits : entries.length ≤ initCapacity env := by
    rw [hcapacity, ← h.capacity_eq]
    refine Nat.le_trans hstored.trails.length_le ?_
    rw [StorageEngine.visible_length]
    exact w.world.engine.indexCount_le
  obtain ⟨hvisible, hnext⟩ := hstored.holds.loads henv hfits ttl w.world.files
  have hrun := storageInit_eq henv ttl w.world.files w.world.nvs
  have hfiles : (storageInit env ttl w.world.files w.world.nvs).2.files = w.world.files := by
    rw [hrun]
  have hnvs : (storageInit env ttl w.world.files w.world.nvs).2.nvs = w.world.nvs := by
    rw [hrun]
  have howned : Owned lib (MayBeLost (past ++ [FlashOp.restart stop env ttl])) w.owner entries
      w.world.files :=
    hstored.owned.frame (fun _ _ hlost => hlost.restart stop env ttl) (fun _ _ => rfl)
      (fun _ _ => Or.inl rfl)
  refine ⟨?_, ?_, ?_, ?_, ?_, ?_, ?_⟩
  · rw [hrun]
    rfl
  · rw [hrun, startedEngine_maxIndexEntries, loadIndexFromNvs_maxIndexEntries, ← hcapacity]
    simp [freshEngine, StorageEngine.maxIndexEntries]
  · rw [hvisible, hnext]
    exact hstored.index
  · rw [hvisible, hfiles]
    exact howned
  · rw [hnext]
    have hmono := flashSaves_le past (.restart stop env ttl)
    have hle := h.next_le
    have hstoredLe := hstored.next_le
    omega
  · rw [hvisible]
    exact fun e hmem => hback e (hlive e hmem)
  · intro _
    refine ⟨entries, next, ⟨?_, ?_, hstored.index, ?_, ?_⟩, hlive⟩
    · rw [hnvs]
      exact hstored.holds
    · rw [hvisible]
      exact Trails.refl
    · rw [hnext]
    · rw [hfiles]
      exact howned

/-- A stop and a start keep the invariant. -/
theorem FlashInv.restart
    (h : FlashInv lib capacity inUse kept past w)
    (hkept : ∀ e, inUse e → kept e)
    (hback : ∀ e, kept e → inUse e)
    {stop : Option CallEnv}
    {env : InitEnv}
    {ttl : UInt32}
    (hpersists : ∀ op ∈ past ++ [FlashOp.restart stop env ttl], op.Persists)
    (hstarts : (FlashOp.restart stop env ttl).Starts capacity) :
    FlashInv lib capacity inUse kept (past ++ [FlashOp.restart stop env ttl])
      (flashStep lib w (.restart stop env ttl)).2 := by
  obtain ⟨hfiles, entries, next, hoff, hlive⟩ :=
    h.off hkept (fun o ho => hpersists o (List.mem_append_left _ ho))
      (hpersists (.restart stop env ttl) (by simp))
  have hinv : FlashInv lib capacity inUse kept past
      { w with world := { w.world with nvs := (stopped stop w.world).nvs } } :=
    ⟨h.initialized, h.capacity_eq, h.index, h.owned, h.next_le, h.known,
      fun _ => ⟨_, _, hoff, hlive⟩⟩
  simp only [flashStep, hfiles]
  exact hinv.start hoff hlive hback stop hstarts.1 hstarts.2 ttl

end Restart

/-! ## Runs -/

/-- What the operations of a run returned. -/
def flashResults
    (lib : Libnostr)
    (w : LoggedWorld)
    (ops : List FlashOp) : List StorageResult :=
  (trace (flashStep lib) w ops).filterMap Prod.snd

theorem flashResults_snoc
    (lib : Libnostr)
    (w : LoggedWorld)
    (ops : List FlashOp)
    (op : FlashOp) :
    flashResults lib w (ops ++ [op]) = flashResults lib w ops ++
      (flashStep lib (finalState (flashStep lib) w ops) op).1.toList := by
  cases h : (flashStep lib (finalState (flashStep lib) w ops) op).1 <;>
    simp [flashResults, h]

/--
The invariant holds from a state in which it holds on, through every run whose saves add
records known to be in use, and which does not restart unless the records on the flash are as
well known as those in use.
-/
theorem flashInv_later
    {lib : Libnostr}
    {capacity : Nat}
    {inUse kept : StorageIndexEntry → Prop}
    {past : List FlashOp}
    {w : LoggedWorld}
    (hstart : FlashInv lib capacity inUse kept past w)
    (hkept : ∀ e, inUse e → kept e)
    (later : List FlashOp)
    (hdurable : Durable capacity (past ++ later))
    (hsaves : flashSaves (past ++ later) < 2 ^ 32)
    (hadded : ∀ result ∈ flashResults lib w later, ∀ event, savedEvent result = some event →
      ∀ now engine, inUse (newEntry lib now engine event))
    (hback : (∃ op ∈ later, op.isRestart = true) → ∀ e, kept e → inUse e) :
    FlashInv lib capacity inUse kept (past ++ later)
      (finalState (flashStep lib) w later) := by
  refine run_invariant
    (fun later => Durable capacity (past ++ later) ∧ flashSaves (past ++ later) < 2 ^ 32 ∧
      (∀ result ∈ flashResults lib w later, ∀ event, savedEvent result = some event →
        ∀ now engine, inUse (newEntry lib now engine event)) ∧
      ((∃ op ∈ later, op.isRestart = true) → ∀ e, kept e → inUse e))
    (fun later => FlashInv lib capacity inUse kept (past ++ later)) ?_ ?_ ?_ later
    ⟨hdurable, hsaves, hadded, hback⟩
  · rintro before op ⟨hall, hlt, hnew, hrestart⟩
    rw [← List.append_assoc] at hall hlt
    refine ⟨hall.init, lt_of_le_of_lt (flashSaves_le _ op) hlt, ?_, ?_⟩
    · intro result hresult
      refine hnew result ?_
      rw [flashResults_snoc]
      exact List.mem_append_left _ hresult
    · rintro ⟨o, ho, hstop⟩
      exact hrestart ⟨o, List.mem_append_left _ ho, hstop⟩
  · rw [List.append_nil]
    exact hstart
  · rintro before op ⟨hall, hlt, hnew, hrestart⟩ hinv
    rw [← List.append_assoc] at hall hlt ⊢
    cases op with
    | run op =>
        refine hinv.run op hlt hkept ?_
        intro event hevent
        refine hnew _ ?_ event hevent op.env.now _
        rw [flashResults_snoc]
        exact List.mem_append_right _ (by simp [flashStep])
    | restart stop env ttl =>
        obtain ⟨hpersists, hstarts⟩ := hall (past ++ before) stop env ttl [] rfl
        exact hinv.restart hkept (hrestart ⟨.restart stop env ttl, by simp, rfl⟩) hpersists hstarts

/-- When the clock does not go back, what a query found expired is still expired. -/
theorem foundExpired_expired
    (lib : Libnostr)
    {capacity : Nat}
    (ttl : UInt32)
    (hcapacity : capacity ≤ storageIndexEntries)
    (ops : List FlashOp)
    (hclock : (times ops).Pairwise (· ≤ ·)) :
    ∀ e ∈ (finalState (flashStep lib) (erasedFlash capacity ttl hcapacity) ops).foundExpired,
      e.isExpired (lastTime ops) = true := by
  refine run_invariant (fun ops => (times ops).Pairwise (· ≤ ·))
    (fun ops (w : LoggedWorld) => ∀ e ∈ w.foundExpired, e.isExpired (lastTime ops) = true)
    ?_ ?_ ?_ ops hclock
  · intro past op hall
    rw [times_snoc] at hall
    exact (List.pairwise_append.mp hall).1
  · intro e hmem
    simp [erasedFlash] at hmem
  · intro past op hall hpast e hmem
    cases op with
    | run op =>
        rw [lastTime_run]
        rcases List.mem_append.mp hmem with hold | hnew
        · exact StorageIndexEntry.isExpired_mono (lastTime_le_of_monotone hall) (hpast e hold)
        · unfold newlyExpired at hnew
          split at hnew
          · rw [List.mem_filter, Bool.and_eq_true] at hnew
            exact hnew.2.1
          · simp at hnew
    | restart stop env ttl =>
        rw [lastTime_restart]
        exact hpast e hmem

/-- The invariant holds after every run from an erased flash. -/
theorem flashInv_run
    (lib : Libnostr)
    {capacity : Nat}
    (ttl : UInt32)
    (hcapacity : capacity ≤ storageIndexEntries)
    (ops : List FlashOp)
    (hdurable : Durable capacity ops)
    (hsaves : flashSaves ops < 2 ^ 32) :
    FlashInv lib capacity (fun _ => True) (fun _ => True) ops
      (finalState (flashStep lib) (erasedFlash capacity ttl hcapacity) ops) := by
  have hstart : FlashInv lib capacity (fun _ => True) (fun _ => True) []
      (erasedFlash capacity ttl hcapacity) := by
    refine ⟨rfl, by simp [erasedFlash, emptyWorld, freshEngine, StorageEngine.maxIndexEntries],
      WellIndexed.nil, Owned.nil, Nat.le_refl 0, fun _ _ => trivial, fun _ => ⟨[], 0, ?_,
        fun _ _ => trivial⟩⟩
    exact ⟨Or.inr ⟨rfl, rfl, rfl⟩, Trails.refl, WellIndexed.nil, Nat.le_refl 0, Owned.nil⟩
  exact flashInv_later hstart (fun _ => id) ops hdurable hsaves
    (fun _ _ _ _ _ _ => trivial) (fun _ _ _ => trivial)

end Storage
end WispRelay
