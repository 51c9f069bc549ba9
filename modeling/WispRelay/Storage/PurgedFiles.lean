import WispRelay.Storage.Capacity
import WispRelay.Storage.CrashDeletion
import WispRelay.Storage.Deadline
import WispRelay.Storage.SaveOutcome

/-!
# Whether expired data leaves the flash

`storage_purge_expired` walks the index in memory and unlinks the files of the records that
have expired.  A file without a record is not seen by it, and stays.

* `datedStep`: a run with restarts that notes the deadline of the event in each file.
* `Covered`: every file has a live record that expires no later than the deadline.
* `KeepsTrack`: the saves that record a value other than zero, and the restarts after which
  every live record is found again.
* `purge_removes_expired_files`: under it no expired data is left after a purge.
* `lost_note_outlives_purge`: power is cut after one save, and the note stays for good.
-/

namespace WispRelay
namespace Storage

open Runs

/-! ## Files with deadlines -/

/-- The storage, with the deadline of the event that each file was last written for. -/
structure DatedWorld where
  flash : LoggedWorld
  due : CString → Int

/-- A successful save gives its file a deadline. -/
def dateSave
    (lib : Libnostr)
    (env : CallEnv)
    (world : StorageWorld)
    (due : CString → Int) : Option NostrEvent → CString → Int
  | none => due
  | some event =>
      Function.update due (newPath lib world event)
        (deadline env.now world.engine.defaultTtlSec (lib.eventGetExpiration event))

/-- The machine of runs with restarts, with the deadlines. -/
def datedStep
    (lib : Libnostr)
    (w : DatedWorld) : FlashOp → Option StorageResult × DatedWorld
  | .run op =>
      let done := flashStep lib w.flash (.run op)
      (done.1,
        { flash := done.2
          due := dateSave lib op.env w.flash.world w.due (done.1.bind savedEvent) })
  | .restart stop env ttl =>
      let done := flashStep lib w.flash (.restart stop env ttl)
      (done.1, { w with flash := done.2 })

/-- The relay started for the first time, with no file that could have a deadline. -/
def undatedFlash
    (capacity : Nat)
    (ttl : UInt32)
    (hcapacity : capacity ≤ storageIndexEntries) : DatedWorld where
  flash := erasedFlash capacity ttl hcapacity
  due := fun _ => 0

/-! ## The end that is recorded -/

section Recorded

variable
  (now ttl : UInt32)
  (nip40Exp : Int64)

/-- The value recorded is not after the deadline. -/
theorem recordedExpiry_le_deadline :
    ((recordedExpiry now ttl nip40Exp).toNat : Int) ≤ deadline now ttl nip40Exp := by
  have hsum : (now + ttl).toNat ≤ now.toNat + ttl.toNat := by
    rw [UInt32.toNat_add]
    exact Nat.mod_le _ _
  by_cases hpos : 0 < nip40Exp.toInt
  · have hcast : ((uint32OfInt64 nip40Exp).toNat : Int) ≤ nip40Exp.toInt := by
      rw [uint32OfInt64_toNat hpos.le]
      omega
    rw [deadline, if_pos hpos, recordedExpiry]
    split
    · rename_i hless
      simp only [Bool.and_eq_true, decide_eq_true_eq, UInt32.lt_iff_toNat_lt] at hless
      omega
    · rename_i hless
      have hlt : 0 < nip40Exp := by
        rw [Int64.lt_iff_toInt_lt]
        simpa using hpos
      simp only [hlt, decide_true, Bool.true_and, decide_eq_true_eq,
        UInt32.lt_iff_toNat_lt] at hless
      omega
  · have hlt : ¬ 0 < nip40Exp := by
      rw [Int64.lt_iff_toInt_lt]
      simpa using hpos
    rw [deadline, if_neg hpos, recordedExpiry]
    simp only [hlt, decide_false, Bool.false_and, Bool.false_eq_true, if_false]
    omega

/-- Zero, which means never, is recorded when one of the two ends is zero in 32 bits. -/
theorem recordedExpiry_eq_zero_iff :
    recordedExpiry now ttl nip40Exp = 0 ↔
      now + ttl = 0 ∨ 0 < nip40Exp.toInt ∧ uint32OfInt64 nip40Exp = 0 := by
  have hpos : (0 < nip40Exp) ↔ 0 < nip40Exp.toInt := by
    rw [Int64.lt_iff_toInt_lt]
    simp
  simp only [recordedExpiry, Bool.and_eq_true, decide_eq_true_eq, hpos,
    UInt32.lt_iff_toNat_lt, ← UInt32.toNat_inj, UInt32.toNat_zero]
  split <;> omega

/-- A record with this expiry has expired once the deadline has passed. -/
def DropsBy
    (expiry : UInt32)
    (due : Int) : Prop :=
  ∀ t : UInt32, ¬ (0 < expiry ∧ expiry < t) → (t.toNat : Int) ≤ due

/-- The value recorded is not zero, or the deadline is later than any clock. -/
def RecordsEnd : Prop :=
  2 ^ 32 - 1 ≤ deadline now ttl nip40Exp ∨
    now + ttl ≠ 0 ∧ (0 < nip40Exp.toInt → uint32OfInt64 nip40Exp ≠ 0)

/-- The saves whose record expires in time. -/
theorem dropsBy_recordedExpiry_iff :
    DropsBy (recordedExpiry now ttl nip40Exp) (deadline now ttl nip40Exp) ↔
      RecordsEnd now ttl nip40Exp := by
  have hle := recordedExpiry_le_deadline now ttl nip40Exp
  have hzero := recordedExpiry_eq_zero_iff now ttl nip40Exp
  have hends : RecordsEnd now ttl nip40Exp ↔
      2 ^ 32 - 1 ≤ deadline now ttl nip40Exp ∨ recordedExpiry now ttl nip40Exp ≠ 0 := by
    rw [RecordsEnd, ne_eq (recordedExpiry now ttl nip40Exp), hzero, not_or, not_and]
  rw [hends]
  generalize recordedExpiry now ttl nip40Exp = expiry at hle ⊢
  constructor
  · intro hdrops
    by_contra hnever
    rw [not_or, not_not] at hnever
    obtain ⟨hsoon, rfl⟩ := hnever
    have hlast := hdrops 0xFFFFFFFF (by simp)
    have hvalue : (0xFFFFFFFF : UInt32).toNat = 2 ^ 32 - 1 := rfl
    omega
  · intro hends' t hlive
    have hlt := t.toNat_lt
    rcases hends' with hlate | hset
    · omega
    · rw [Ne, ← UInt32.toNat_inj, UInt32.toNat_zero] at hset
      rw [UInt32.lt_iff_toNat_lt, UInt32.lt_iff_toNat_lt, UInt32.toNat_zero] at hlive
      omega

end Recorded

/-! ## What the operations do to the files -/

/-- Files are removed only, and none that stays loses a live record. -/
structure Tidied
    (lib : Libnostr)
    (before after : List StorageIndexEntry)
    (files files' : Files) : Prop where
  shrunk : ∀ path, files' path ≠ none → files path ≠ none
  kept : ∀ e ∈ live before, files' (e.path lib) ≠ none → e ∈ live after

namespace Tidied

variable
  {lib : Libnostr}
  {before after : List StorageIndexEntry}
  {files files' : Files}

theorem refl :
    Tidied lib before before files files where
  shrunk := fun _ hfile => hfile
  kept := fun _ hmem _ => hmem

/-- Prepend a record that is left alone. -/
theorem keep
    (h : Tidied lib before after files files')
    (e : StorageIndexEntry) :
    Tidied lib (e :: before) (e :: after) files files' where
  shrunk := h.shrunk
  kept := by
    intro e' hmem hfile
    rw [mem_live, List.mem_cons] at hmem ⊢
    rcases hmem with ⟨heq | htail, hlive⟩
    · exact ⟨Or.inl heq, hlive⟩
    · exact ⟨Or.inr (mem_live.mp (h.kept e' (mem_live.mpr ⟨htail, hlive⟩) hfile)).1, hlive⟩

/-- Prepend a record that is marked, its file unlinked first. -/
theorem mark
    {env : CallEnv}
    (hunlink : ∀ path, env.unlinkOk path = true)
    {e : StorageIndexEntry}
    (h : Tidied lib before after (unlink env files (e.path lib)) files') :
    Tidied lib (e :: before) (e.markDeleted :: after) files files' where
  shrunk := by
    intro path hfile hnone
    rcases unlink_shrunk env files (e.path lib) path with hsame | hgone
    · exact h.shrunk path hfile (hsame.trans hnone)
    · exact h.shrunk path hfile hgone
  kept := by
    intro e' hmem hfile
    rw [mem_live, List.mem_cons] at hmem
    rcases hmem with ⟨rfl | htail, hlive⟩
    · exact absurd (by simp [unlink, hunlink]) (h.shrunk _ hfile)
    · have hkept := h.kept e' (mem_live.mpr ⟨htail, hlive⟩) hfile
      exact mem_live.mpr ⟨List.mem_cons_of_mem _ (mem_live.mp hkept).1, hlive⟩

/-- The scan of a query runs from the newest record on. -/
theorem of_reverse
    (h : Tidied lib before.reverse after files files') :
    Tidied lib before after.reverse files files' where
  shrunk := h.shrunk
  kept := by
    intro e hmem hfile
    simpa using h.kept e (by simpa using hmem) hfile

end Tidied

section Operations

variable
  (lib : Libnostr)
  {env : CallEnv}
  (hunlink : ∀ path, env.unlinkOk path = true)
include hunlink

theorem purgeLoop_tidied
    (entries : List StorageIndexEntry) :
    ∀ files : Files,
      Tidied lib entries (purgeLoop lib env entries files).1 files
        (purgeLoop lib env entries files).2.1 := by
  induction entries with
  | nil => exact fun _ => Tidied.refl
  | cons entry rest ih =>
      intro files
      unfold purgeLoop
      split_ifs
      · exact (ih files).keep entry
      · exact (ih (unlink env files (entry.path lib))).mark hunlink
      · exact (ih files).keep entry

theorem queryScan_tidied
    (filter : NostrFilter)
    (limit : Nat)
    (entries : List StorageIndexEntry) :
    ∀ (files : Files) (events : List NostrEvent),
      Tidied lib entries (queryScan lib env filter limit entries files events).entries files
        (queryScan lib env filter limit entries files events).files := by
  induction entries with
  | nil => exact fun _ _ => Tidied.refl
  | cons entry older ih =>
      intro files events
      unfold queryScan
      split_ifs
      · exact Tidied.refl
      · exact (ih files events).keep entry
      · exact (ih (unlink env files (entry.path lib)) events).mark hunlink
      · exact (ih files events).keep entry
      · cases loadEventFromFile lib env files (entry.path lib) with
        | none => exact (ih files events).keep entry
        | some event => exact (ih files _).keep entry

/-- Marking the record at one position, its file unlinked. -/
theorem tidied_modify
    {entries : List StorageIndexEntry}
    {i : Nat}
    {entry : StorageIndexEntry}
    (hget : entries[i]? = some entry)
    (files : Files) :
    Tidied lib entries (entries.modify i StorageIndexEntry.markDeleted) files
      (unlink env files (entry.path lib)) where
  shrunk := by
    intro path hfile hnone
    rcases unlink_shrunk env files (entry.path lib) path with hsame | hgone
    · exact hfile (hsame.trans hnone)
    · exact hfile hgone
  kept := by
    intro e hmem hfile
    obtain ⟨j, hj⟩ := List.mem_iff_getElem?.mp (mem_live.mp hmem).1
    have hother : j ≠ i := by
      rintro rfl
      rw [hget] at hj
      cases hj
      exact hfile (by simp [unlink, hunlink])
    refine mem_live.mpr ⟨List.mem_of_getElem? (i := j) ?_, (mem_live.mp hmem).2⟩
    simp [hother.symm, hj]

/-- Every operation but a save tidies. -/
theorem storageCall_tidied
    (world : StorageWorld)
    (call : StorageCall)
    (hquiet : ∀ event, call ≠ .save event) :
    Tidied lib world.engine.visible (storageCall lib env world call).2.engine.visible
      world.files (storageCall lib env world call).2.files := by
  cases call with
  | save event => exact absurd rfl (hquiet event)
  | delete eventId =>
      simp only [storageCall, storageDeleteEvent]
      split_ifs with hoff
      · exact Tidied.refl
      · cases hidx : findIndexEntry world.engine eventId with
        | none => exact Tidied.refl
        | some i =>
            have hlt := (List.findIdx?_eq_some_iff_getElem.mp hidx).1
            have hget : world.engine.visible[i]? = some
                (world.engine.visible.getD i StorageIndexEntry.zero) := by
              rw [List.getD_eq_getElem?_getD, List.getElem?_eq_getElem hlt]
              rfl
            simp only [persist_engine, persist_files, StorageEngine.visible_withVisible]
            exact tidied_modify lib hunlink hget world.files
  | get eventId => exact Tidied.refl
  | eventExists eventId => exact Tidied.refl
  | query filter limit =>
      simp only [storageCall, storageQueryEvents]
      split_ifs
      · exact Tidied.refl
      · exact Tidied.refl
      · simp only [StorageEngine.visible_withVisible]
        exact (queryScan_tidied lib hunlink filter _ _ world.files []).of_reverse
  | purge =>
      simp only [storageCall, storagePurgeExpired]
      split_ifs
      · exact Tidied.refl
      · simp only [persist_engine, persist_files, StorageEngine.visible_withVisible]
        exact purgeLoop_tidied lib hunlink _ world.files
      · simp only [StorageEngine.visible_withVisible]
        exact purgeLoop_tidied lib hunlink _ world.files
  | compact =>
      simp only [storageCall, storageCompactIndex]
      split_ifs
      · exact Tidied.refl
      · refine ⟨fun _ hfile => hfile, fun e hmem _ => ?_⟩
        simpa using hmem
      · exact Tidied.refl
  | stats => exact Tidied.refl

end Operations

/-! ## Every file has a live record -/

/-- Every file has a live record that expires no later than its deadline. -/
structure Covered
    (lib : Libnostr)
    (w : DatedWorld) : Prop where
  initialized : w.flash.world.engine.initialized = true
  record : ∀ path, w.flash.world.files path ≠ none →
    ∃ e ∈ live w.flash.world.engine.visible,
      e.path lib = path ∧ DropsBy e.expiresAt (w.due path)

/--
The saves whose record expires, and the starts that succeed and find, within the slots, every
live record that has a file.
-/
def KeepsTrack
    (lib : Libnostr)
    (w : DatedWorld) : FlashOp → Prop
  | .run ⟨.save event, env⟩ =>
      RecordsEnd env.now w.flash.world.engine.defaultTtlSec (lib.eventGetExpiration event)
  | .run _ => True
  | .restart stop env _ =>
      env.Succeeds ∧ ∃ entries next,
        HoldsIndex (stopped stop w.flash.world).nvs entries next ∧
          entries.length ≤ storageIndexEntries ∧
          ∀ e ∈ live w.flash.world.engine.visible, w.flash.world.files (e.path lib) ≠ none →
            e ∈ entries.take (initCapacity env)

section Steps

variable
  {lib : Libnostr}
  {w : DatedWorld}
  (h : Covered lib w)
include h

/-- A save gives the new file a live record, or leaves no file. -/
theorem Covered.save
    {event : NostrEvent}
    {env : CallEnv}
    (hunlink : ∀ path, env.unlinkOk path = true)
    (hends : RecordsEnd env.now w.flash.world.engine.defaultTtlSec
      (lib.eventGetExpiration event)) :
    Covered lib (datedStep lib w (.run ⟨.save event, env⟩)).2 := by
  have hworld : (datedStep lib w (.run ⟨.save event, env⟩)).2.flash.world =
      (storageSaveEvent lib env w.flash.world event).2 := rfl
  have hdue : (datedStep lib w (.run ⟨.save event, env⟩)).2.due =
      dateSave lib env w.flash.world w.due
        (savedEvent ⟨.save event, (storageSaveEvent lib env w.flash.world event).1⟩) := rfl
  rcases storageSaveEvent_cases lib env w.flash.world event with
    ⟨hfailed, hsame⟩ | ⟨json, hroom, -, -, -, hrun⟩
  · rw [savedEvent_eq_none hfailed] at hdue
    rcases hsame with hsame | ⟨leftover, hgone, hsame⟩
    · refine ⟨by rw [hworld, hsame]; exact h.initialized, fun path hfile => ?_⟩
      rw [hworld, hsame] at hfile ⊢
      rw [hdue]
      exact h.record path hfile
    · rw [hgone hunlink] at hsame
      refine ⟨by rw [hworld, hsame]; exact h.initialized, fun path hfile => ?_⟩
      rw [hworld, hsame] at hfile ⊢
      rw [hdue]
      refine h.record path fun hnone => hfile ?_
      simp only [Function.update_apply, hnone, ite_self]
  · have hvisible : (storageSaveEvent lib env w.flash.world event).2.engine.visible =
        w.flash.world.engine.visible ++ [newEntry lib env.now w.flash.world.engine event] := by
      rw [hrun]
      simp [appendWorld]
    have hfiles : (storageSaveEvent lib env w.flash.world event).2.files =
        Function.update w.flash.world.files (newPath lib w.flash.world event)
          (some (env.onFlash json)) := by
      rw [hrun]
      simp [appendWorld, newPath]
    refine ⟨?_, fun path hfile => ?_⟩
    · rw [hworld, hrun, persistEveryTenth_engine]
      exact h.initialized
    rw [hworld, hfiles] at hfile
    rw [hworld, hvisible, hdue, hrun, live_append]
    by_cases hnew : path = newPath lib w.flash.world event
    · subst hnew
      refine ⟨newEntry lib env.now w.flash.world.engine event,
        List.mem_append_right _ (mem_live.mpr
          ⟨List.mem_singleton_self _, newEntry_isDeleted lib _ _ event⟩), rfl, ?_⟩
      simp only [savedEvent, dateSave, Function.update_self]
      exact (dropsBy_recordedExpiry_iff _ _ _).mpr hends
    · rw [Function.update_of_ne hnew] at hfile
      obtain ⟨e, hmem, hpath, hdrops⟩ := h.record path hfile
      refine ⟨e, List.mem_append_left _ hmem, hpath, ?_⟩
      simp only [savedEvent, dateSave, Function.update_of_ne hnew]
      exact hdrops

/-- The other operations leave no file without its live record. -/
theorem Covered.quiet
    {call : StorageCall}
    {env : CallEnv}
    (hunlink : ∀ path, env.unlinkOk path = true)
    (hquiet : ∀ event, call ≠ .save event) :
    Covered lib (datedStep lib w (.run ⟨call, env⟩)).2 := by
  have hworld : (datedStep lib w (.run ⟨call, env⟩)).2.flash.world =
      (storageCall lib env w.flash.world call).2 := rfl
  have hdue : (datedStep lib w (.run ⟨call, env⟩)).2.due = w.due := by
    cases call with
    | save event => exact absurd rfl (hquiet event)
    | _ => rfl
  have htidied := storageCall_tidied lib hunlink w.flash.world call hquiet
  refine ⟨?_, fun path hfile => ?_⟩
  · rw [hworld, (storageCall_config lib env w.flash.world call).1]
    exact h.initialized
  · rw [hworld] at hfile ⊢
    obtain ⟨e, hmem, rfl, hdrops⟩ := h.record path (htidied.shrunk path hfile)
    exact ⟨e, htidied.kept e hmem hfile, rfl, hdue ▸ hdrops⟩

omit h in
/-- A start finds the index on the flash as far as there are slots. -/
theorem rebooted_of_holdsIndex
    {start : InitEnv}
    (hstart : start.Succeeds)
    (ttl : UInt32)
    {off : StorageWorld}
    {entries : List StorageIndexEntry}
    {next : UInt32}
    (hholds : HoldsIndex off.nvs entries next)
    (hsmall : entries.length ≤ storageIndexEntries) :
    (rebooted start ttl off).engine.initialized = true ∧
      (rebooted start ttl off).engine.visible = entries.take (initCapacity start) ∧
      (rebooted start ttl off).files = off.files := by
  rcases hholds with himage | ⟨hcreated, rfl, rfl⟩
  · simp only [storageIndexEntries] at hsmall
    obtain ⟨hinit, hvisible, -, hfiles⟩ := rebooted_of_image hstart ttl himage (by omega)
    exact ⟨hinit, hvisible, hfiles⟩
  · have hvisible := (loads_uncreated hstart ttl off.files hcreated).1
    refine ⟨?_, by rw [List.take_nil]; exact hvisible, ?_⟩
    · rw [rebooted, storageInit_eq hstart]
      rfl
    · rw [rebooted, storageInit_eq hstart]

/-- After `storage_destroy` nothing is lost, as long as the slots suffice. -/
theorem Covered.keepsTrack_of_stop
    {env : CallEnv}
    (hok : ∀ call, env.nvs call = .ok)
    {start : InitEnv}
    (hstart : start.Succeeds)
    (hslots : w.flash.world.engine.indexCount ≤ initCapacity start)
    (ttl : UInt32) :
    KeepsTrack lib w (.restart (some env) start ttl) := by
  have hlen := w.flash.world.engine.visible_length
  have hmax := w.flash.world.engine.indexCount_le.trans w.flash.world.engine.capacity_le
  refine ⟨hstart, w.flash.world.engine.visible, w.flash.world.engine.nextFileIndex,
    Or.inl ?_, hlen.trans_le hmax, fun e hmem _ => ?_⟩
  · simp only [stopped, storageDestroy, h.initialized, Bool.not_true, Bool.false_eq_true,
      if_false]
    exact image_persist hok w.flash.world
  · rw [List.take_of_length_le (hlen.trans_le hslots)]
    exact (mem_live.mp hmem).1

/-- A start that finds every live record with a file keeps the invariant. -/
theorem Covered.restart
    {stop : Option CallEnv}
    {start : InitEnv}
    {ttl : UInt32}
    (htracked : KeepsTrack lib w (.restart stop start ttl)) :
    Covered lib (datedStep lib w (.restart stop start ttl)).2 := by
  obtain ⟨hstart, entries, next, hholds, hsmall, hfound⟩ := htracked
  have hworld : (datedStep lib w (.restart stop start ttl)).2.flash.world =
      rebooted start ttl (stopped stop w.flash.world) := rfl
  have hoff : (stopped stop w.flash.world).files = w.flash.world.files := by
    cases stop with
    | none => rfl
    | some env => simp [stopped, storageDestroy, h.initialized]
  obtain ⟨hinit, hvisible, hfiles⟩ := rebooted_of_holdsIndex hstart ttl hholds hsmall
  refine ⟨by rw [hworld]; exact hinit, fun path hfile => ?_⟩
  rw [hworld, hfiles, hoff] at hfile
  rw [hworld, hvisible]
  obtain ⟨e, hmem, rfl, hdrops⟩ := h.record path hfile
  exact ⟨e, mem_live.mpr ⟨hfound e hmem hfile, (mem_live.mp hmem).2⟩, rfl, hdrops⟩

end Steps

/-- In a run that keeps track of its files, every file has its live record. -/
theorem covered_run
    (lib : Libnostr)
    {capacity : Nat}
    (ttl : UInt32)
    (hcapacity : capacity ≤ storageIndexEntries)
    (ops : List FlashOp)
    (hfiles : ∀ op ∈ ops, op.KeepsFiles)
    (htracked : Admits (datedStep lib) (KeepsTrack lib) (undatedFlash capacity ttl hcapacity)
      ops) :
    Covered lib (finalState (datedStep lib) (undatedFlash capacity ttl hcapacity) ops) := by
  refine run_invariant
    (fun ops => (∀ op ∈ ops, op.KeepsFiles) ∧
      Admits (datedStep lib) (KeepsTrack lib) (undatedFlash capacity ttl hcapacity) ops)
    (fun _ => Covered lib) ?_ ?_ ?_ ops ⟨hfiles, htracked⟩
  · rintro past op ⟨hall, hadmits⟩
    exact ⟨fun o ho => hall o (List.mem_append_left _ ho),
      hadmits.before (List.prefix_append past [op])⟩
  · exact ⟨rfl, fun path hfile => absurd rfl hfile⟩
  · rintro past op ⟨hall, hadmits⟩ hcovered
    have hallowed := hadmits past op List.prefix_rfl
    have hkeeps := hall op (List.mem_append_right _ (List.mem_singleton_self op))
    cases op with
    | restart stop start ttl => exact hcovered.restart hallowed
    | run op =>
        obtain ⟨call, env⟩ := op
        cases call with
        | save event => exact hcovered.save hkeeps.unlinkOk hallowed
        | _ => exact hcovered.quiet hkeeps.unlinkOk (fun _ => by simp)

/-- A purge at a clock after the deadline of a file leaves no such file. -/
theorem Covered.purged
    {lib : Libnostr}
    {w : DatedWorld}
    (h : Covered lib w)
    {env : CallEnv}
    (hunlink : ∀ path, env.unlinkOk path = true)
    {path : CString}
    (hfile : (storagePurgeExpired lib env w.flash.world).2.files path ≠ none) :
    (env.now.toNat : Int) ≤ w.due path := by
  have htidied := storageCall_tidied lib hunlink w.flash.world .purge (fun _ => by simp)
  obtain ⟨e, hmem, rfl, hdrops⟩ := h.record path (htidied.shrunk path hfile)
  have hkept := htidied.kept e hmem hfile
  change e ∈ live (storagePurgeExpired lib env w.flash.world).2.engine.visible at hkept
  rw [live_storagePurgeExpired lib env h.initialized, List.mem_filter] at hkept
  refine hdrops env.now ?_
  rintro ⟨hset, hpast⟩
  have hunexpired := hkept.2
  simp [StorageIndexEntry.isExpired, hset, hpast] at hunexpired

/-- A purge leaves every file that no live record belongs to. -/
theorem purgeLoop_orphan
    (lib : Libnostr)
    (env : CallEnv)
    {path : CString}
    (entries : List StorageIndexEntry) :
    ∀ files : Files, (∀ e ∈ live entries, e.path lib ≠ path) →
      (purgeLoop lib env entries files).2.1 path = files path := by
  induction entries with
  | nil => exact fun _ _ => rfl
  | cons entry rest ih =>
      intro files horphan
      rw [live_cons] at horphan
      unfold purgeLoop
      split_ifs with hdeleted hexpired
      · rw [if_pos hdeleted] at horphan
        exact ih files horphan
      · rw [if_neg hdeleted, List.forall_mem_cons] at horphan
        exact (ih _ horphan.2).trans (unlink_of_ne env files horphan.1.symm)
      · rw [if_neg hdeleted, List.forall_mem_cons] at horphan
        exact ih files horphan.2

/-- **A file without a live record outlives every purge.** -/
theorem orphan_outlives_purge
    (lib : Libnostr)
    (env : CallEnv)
    (world : StorageWorld)
    {path : CString}
    (horphan : ∀ e ∈ live world.engine.visible, e.path lib ≠ path) :
    (storagePurgeExpired lib env world).2.files path = world.files path := by
  have hloop := purgeLoop_orphan lib env world.engine.visible world.files horphan
  unfold storagePurgeExpired
  by_cases hoff : (!world.engine.initialized) = true
  · rw [if_pos hoff]
  · rw [if_neg hoff]
    refine Eq.trans ?_ hloop
    simp only
    split <;> rfl

/--
**A purge removes all expired data when the run keeps track of its files.**  After every such
run from an erased flash and a purge, no file belongs to an event whose deadline has passed.
-/
theorem purge_removes_expired_files
    (lib : Libnostr)
    {capacity : Nat}
    (ttl : UInt32)
    (hcapacity : capacity ≤ storageIndexEntries)
    (past : List FlashOp)
    (env : CallEnv)
    (hfiles : ∀ op ∈ past ++ [.run ⟨.purge, env⟩], op.KeepsFiles)
    (htracked : Admits (datedStep lib) (KeepsTrack lib) (undatedFlash capacity ttl hcapacity)
      (past ++ [.run ⟨.purge, env⟩])) :
    let after := finalState (datedStep lib) (undatedFlash capacity ttl hcapacity)
      (past ++ [.run ⟨.purge, env⟩])
    ∀ path, after.flash.world.files path ≠ none → (env.now.toNat : Int) ≤ after.due path := by
  intro after path hfile
  have hcovered := covered_run lib ttl hcapacity past
    (fun op hop => hfiles op (List.mem_append_left _ hop))
    (htracked.before (List.prefix_append past _))
  have hkeeps := hfiles (.run ⟨.purge, env⟩) (List.mem_append_right _ (List.mem_singleton_self _))
  have hafter : after = (datedStep lib (finalState (datedStep lib)
      (undatedFlash capacity ttl hcapacity) past) (.run ⟨.purge, env⟩)).2 :=
    finalState_snoc _ _ past _
  rw [hafter] at hfile ⊢
  exact hcovered.purged hkeeps.unlinkOk hfile

/-- A note is saved, the relay stops as given and starts, and the note expires. -/
def notePurged
    (stop : Option CallEnv) : List FlashOp :=
  [.run ⟨.save (Sample.numbered 0), CallEnv.undisturbed 1700000000⟩,
    .restart stop internalStart 1814400, .run ⟨.purge, CallEnv.undisturbed 1800000000⟩]

/-- The flash after that run. -/
def afterNotePurged
    (stop : Option CallEnv) : DatedWorld :=
  finalState (datedStep (Sample.library (Sample.notes 1)))
    (undatedFlash 1000 1814400 thousandSlots) (notePurged stop)

/-- After `storage_destroy` the file of the note is removed. -/
theorem purge_removes_expired_files_stopped :
    (afterNotePurged (some (CallEnv.undisturbed 1700000001))).flash.world.files
      ((noteRecord 0).path (Sample.library (Sample.notes 1))) = none := by
  have hcalm : ∀ op ∈ notePurged (some (CallEnv.undisturbed 1700000001)), op.KeepsFiles := by
    simp only [notePurged, List.mem_cons, List.not_mem_nil, or_false, forall_eq_or_imp,
      forall_eq]
    exact ⟨(CallEnv.undisturbed_succeeds _).toKeepsFiles, trivial,
      (CallEnv.undisturbed_succeeds _).toKeepsFiles⟩
  have hrun : notePurged (some (CallEnv.undisturbed 1700000001)) =
      [] ++ [.run ⟨.save (Sample.numbered 0), CallEnv.undisturbed 1700000000⟩] ++
          [.restart (some (CallEnv.undisturbed 1700000001)) internalStart 1814400] ++
        [.run ⟨.purge, CallEnv.undisturbed 1800000000⟩] := rfl
  have hslots : (finalState (datedStep (Sample.library (Sample.notes 1)))
      (undatedFlash 1000 1814400 thousandSlots)
      ([] ++ [.run ⟨.save (Sample.numbered 0), CallEnv.undisturbed 1700000000⟩])
      ).flash.world.engine.indexCount ≤ initCapacity internalStart := by
    decide +kernel
  have hdue : (afterNotePurged (some (CallEnv.undisturbed 1700000001))).due
      ((noteRecord 0).path (Sample.library (Sample.notes 1))) = 1701814400 := by
    decide +kernel
  rw [hrun] at hcalm
  have hsaved : Admits (datedStep (Sample.library (Sample.notes 1)))
      (KeepsTrack (Sample.library (Sample.notes 1))) (undatedFlash 1000 1814400 thousandSlots)
      ([] ++ [.run ⟨.save (Sample.numbered 0), CallEnv.undisturbed 1700000000⟩]) := by
    refine Admits.snoc (fun past i hpast => ?_) ?_
    · simp at hpast
    · exact Or.inr (by decide +kernel)
  have hcovered := covered_run (Sample.library (Sample.notes 1)) 1814400 thousandSlots _
    (fun op hop => hcalm op (List.mem_append_left _ (List.mem_append_left _ hop))) hsaved
  have hstop := hcovered.keepsTrack_of_stop (CallEnv.undisturbed_succeeds 1700000001).nvsOk
    internalStart_succeeds hslots 1814400
  have hpurged := purge_removes_expired_files (Sample.library (Sample.notes 1)) 1814400
    thousandSlots _ (CallEnv.undisturbed 1800000000) hcalm ((hsaved.snoc hstop).snoc trivial)
    ((noteRecord 0).path (Sample.library (Sample.notes 1)))
  by_contra hfile
  rw [afterNotePurged, hrun] at hfile hdue
  have hlate := hpurged hfile
  rw [hdue] at hlate
  exact absurd hlate (by decide)

/--
Power is cut after a note was saved and before the index was persisted: the note is forgotten,
and its file is still there after a purge years after the deadline.
-/
theorem lost_note_outlives_purge :
    (∀ op ∈ notePurged none, op.KeepsFiles ∧ op.Persists ∧ op.Starts 1000) ∧
      ∃ path, (afterNotePurged none).flash.world.files path =
          some (Sample.eventJson (Sample.numbered 0)) ∧
        (afterNotePurged none).due path = 1701814400 ∧
        ¬ ((CallEnv.undisturbed 1800000000).now.toNat : Int) ≤ (afterNotePurged none).due path := by
  constructor
  · simp only [notePurged, List.mem_cons, List.not_mem_nil, or_false, forall_eq_or_imp,
      forall_eq]
    exact ⟨⟨(CallEnv.undisturbed_succeeds _).toKeepsFiles, fun _ => rfl, trivial⟩,
      ⟨trivial, fun _ h => absurd h (by simp), internalStart_succeeds, rfl⟩,
      ⟨(CallEnv.undisturbed_succeeds _).toKeepsFiles, fun _ => rfl, trivial⟩⟩
  · refine ⟨(noteRecord 0).path (Sample.library (Sample.notes 1)), ?_⟩
    decide +kernel

end Storage
end WispRelay
