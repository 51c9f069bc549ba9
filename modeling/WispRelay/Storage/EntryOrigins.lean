import WispRelay.Storage.FileOrigins

/-!
# Where the records of the index come from

A record enters the index when its event is saved.  From then on it is marked, copied to the
flash and loaded again, but its identifier and its running number stay, whatever fails: a save of
the index that stops leaves old blobs next to new ones, and a start that finds them refuses them
or reads records that were saved once.  Nothing here needs the records to be distinct.

* `storageCall_index`: what a call that saves nothing does to the records in use.
* `Traceable`: every record, in memory or on the flash, was made for an event that was saved, and
  every file was written for such an event at its path.
* `traceable_run`: every run keeps it, with any failures and any restarts.
* `Traceable.of_get`: what `storage_get_event` finds has the identifier asked for, when events
  with the same 16 first bytes of their identifiers are equal.
-/

namespace WispRelay
namespace Storage

open Runs

/-! ## Marking records -/

/-- Some live records were marked for the reason `Q`. -/
abbrev Marked
    (Q : StorageIndexEntry → Prop)
    (before after : List StorageIndexEntry) : Prop :=
  List.Forall₂ (fun e e' => e' = e ∨ MarkedBy Q e e') before after

namespace Marked

variable
  {Q : StorageIndexEntry → Prop}
  {before after : List StorageIndexEntry}

theorem refl
    (entries : List StorageIndexEntry) :
    Marked Q entries entries :=
  List.forall₂_same.mpr fun _ _ => Or.inl rfl

theorem reverse
    (h : Marked Q before after) :
    Marked Q before.reverse after.reverse :=
  List.forall₂_reverse_iff.mpr h

theorem mono
    {Q' : StorageIndexEntry → Prop}
    (h : Marked Q before after)
    (himp : ∀ e, Q e → Q' e) :
    Marked Q' before after :=
  h.imp fun e _ hentry => hentry.imp_right fun hmarked =>
    ⟨hmarked.1, himp e hmarked.2.1, hmarked.2.2⟩

/-- Marking the record at a position. -/
theorem modify
    {entries : List StorageIndexEntry} :
    ∀ {i : Nat} {e : StorageIndexEntry}, entries[i]? = some e → e.isDeleted = false → Q e →
      Marked Q entries (entries.modify i StorageIndexEntry.markDeleted) := by
  induction entries with
  | nil =>
      intro i e hget
      cases hget
  | cons entry rest ih =>
      intro i e hget hlive hQ
      cases i with
      | zero =>
          obtain rfl : entry = e := Option.some.inj hget
          exact List.Forall₂.cons (Or.inr ⟨hlive, hQ, rfl⟩) (refl rest)
      | succ i => exact List.Forall₂.cons (Or.inl rfl) (ih hget hlive hQ)

/-- Identifiers and running numbers stay. -/
theorem origin
    (h : Marked Q before after)
    {e' : StorageIndexEntry}
    (hmem : e' ∈ after) :
    ∃ e ∈ before, e'.eventId = e.eventId ∧ e'.fileIndex = e.fileIndex := by
  induction h with
  | nil => cases hmem
  | cons hhead _ ih =>
      rcases List.mem_cons.mp hmem with rfl | htail
      · rcases hhead with rfl | ⟨-, -, rfl⟩
        · exact ⟨_, List.mem_cons_self, rfl, rfl⟩
        · exact ⟨_, List.mem_cons_self, rfl, rfl⟩
      · obtain ⟨e, he, hsame⟩ := ih htail
        exact ⟨e, List.mem_cons_of_mem _ he, hsame⟩

/-- A record without the reason stays live as often as it was. -/
theorem count_live
    (h : Marked Q before after)
    {e : StorageIndexEntry}
    (hother : ¬ Q e) :
    (live after).count e = (live before).count e := by
  induction h with
  | nil => rfl
  | @cons x x' _ _ hhead _ ih =>
      rcases hhead with rfl | ⟨hlive, hQ, rfl⟩
      · unfold live at ih ⊢
        rw [List.filter_cons, List.filter_cons]
        split
        · rw [List.count_cons, List.count_cons, ih]
        · exact ih
      · have hne : x ≠ e := by
          rintro rfl
          exact hother hQ
        unfold live at ih ⊢
        simp [hlive, hne, ih]

end Marked

section Calls

variable
  (lib : Libnostr)
  (env : CallEnv)

theorem purgeLoop_marked
    (entries : List StorageIndexEntry) :
    ∀ files : Files,
      Marked (fun e => e.isExpired env.now = true) entries
        (purgeLoop lib env entries files).1 := by
  induction entries with
  | nil =>
      intro files
      exact List.Forall₂.nil
  | cons entry rest ih =>
      intro files
      unfold purgeLoop
      split_ifs with hdeleted hexpired
      · exact List.Forall₂.cons (Or.inl rfl) (ih _)
      · exact List.Forall₂.cons (Or.inr ⟨by simpa using hdeleted, hexpired, rfl⟩) (ih _)
      · exact List.Forall₂.cons (Or.inl rfl) (ih _)

theorem queryScan_marked
    (filter : NostrFilter)
    (limit : Nat)
    (entries : List StorageIndexEntry) :
    ∀ (files : Files) (events : List NostrEvent),
      Marked (fun e => e.isExpired env.now = true) entries
        (queryScan lib env filter limit entries files events).entries := by
  induction entries with
  | nil =>
      intro files events
      exact List.Forall₂.nil
  | cons entry older ih =>
      intro files events
      unfold queryScan
      split_ifs with _ hdeleted hexpired
      · exact Marked.refl _
      · exact List.Forall₂.cons (Or.inl rfl) (ih _ _)
      · exact List.Forall₂.cons (Or.inr ⟨by simpa using hdeleted, hexpired, rfl⟩) (ih _ _)
      · exact List.Forall₂.cons (Or.inl rfl) (ih _ _)
      · cases loadEventFromFile lib env files (entry.path lib) with
        | none => exact List.Forall₂.cons (Or.inl rfl) (ih _ _)
        | some event => exact List.Forall₂.cons (Or.inl rfl) (ih _ _)

/-- Why a call may mark a record: it has expired, or it has the identifier to be deleted. -/
def MarkReason
    (call : StorageCall)
    (now : UInt32)
    (e : StorageIndexEntry) : Prop :=
  e.isExpired now = true ∨ call = .delete e.eventId

/-- A call that saves nothing marks records for a reason, or drops those that are marked. -/
theorem storageCall_index
    (world : StorageWorld)
    {call : StorageCall}
    (hquiet : ∀ event, call ≠ .save event) :
    Marked (MarkReason call env.now) world.engine.visible
        (storageCall lib env world call).2.engine.visible ∨
      (storageCall lib env world call).2.engine.visible = live world.engine.visible := by
  cases call with
  | save event => exact absurd rfl (hquiet event)
  | get eventId => exact .inl (Marked.refl _)
  | eventExists eventId => exact .inl (Marked.refl _)
  | stats => exact .inl (Marked.refl _)
  | delete eventId =>
      left
      simp only [storageCall, storageDeleteEvent]
      split
      · exact Marked.refl _
      split
      · exact Marked.refl _
      · rename_i i hfound
        obtain ⟨hi, hit, -⟩ := List.findIdx?_eq_some_iff_getElem.mp hfound
        rw [Bool.and_eq_true, beq_iff_eq, Bool.not_eq_true'] at hit
        rw [persist_engine, StorageEngine.visible_withVisible]
        exact Marked.modify (List.getElem?_eq_getElem hi) hit.2 (Or.inr (by rw [hit.1]))
  | query filter limit =>
      left
      simp only [storageCall, storageQueryEvents]
      split_ifs
      · exact Marked.refl _
      · exact Marked.refl _
      · have hscanned := ((queryScan_marked lib env filter (queryLimit limit)
          world.engine.visible.reverse world.files []).mono
          (fun e hexpired => (Or.inl hexpired : MarkReason (.query filter limit) env.now e))).reverse
        rw [List.reverse_reverse] at hscanned
        rwa [StorageEngine.visible_withVisible]
  | purge =>
      left
      have hpurged := (purgeLoop_marked lib env world.engine.visible world.files).mono
        (fun e hexpired => (Or.inl hexpired : MarkReason .purge env.now e))
      simp only [storageCall, storagePurgeExpired]
      split_ifs
      · exact Marked.refl _
      · rwa [persist_engine, StorageEngine.visible_withVisible]
      · rwa [StorageEngine.visible_withVisible]
  | compact =>
      simp only [storageCall, storageCompactIndex]
      split_ifs
      · exact .inl (Marked.refl _)
      · right
        rw [persist_engine, visible_compact]
      · exact .inl (Marked.refl _)

/-- A call that saves nothing makes a record deleted for a reason only. -/
theorem reason_of_count
    (world : StorageWorld)
    {call : StorageCall}
    (hquiet : ∀ event, call ≠ .save event)
    {e : StorageIndexEntry}
    (hfewer : (live (storageCall lib env world call).2.engine.visible).count e <
      (live world.engine.visible).count e) :
    MarkReason call env.now e := by
  by_contra hother
  rcases storageCall_index lib env world hquiet with hmarked | hcompacted
  · rw [hmarked.count_live hother] at hfewer
    exact absurd hfewer (lt_irrefl _)
  · rw [hcompacted, live_live] at hfewer
    exact absurd hfewer (lt_irrefl _)

end Calls

/-! ## Records on the flash -/

/-- Every blob holds records with the property. -/
def BlobsOf
    (P : StorageIndexEntry → Prop)
    (nvs : NvsStore) : Prop :=
  ∀ chunk blob, nvs.idx chunk = some blob →
    ∃ entries, blob = encodeEntries entries ∧ ∀ e ∈ entries, P e

namespace BlobsOf

variable
  {P : StorageIndexEntry → Prop}
  {nvs : NvsStore}

theorem mono
    {P' : StorageIndexEntry → Prop}
    (h : BlobsOf P nvs)
    (himp : ∀ e, P e → P' e) :
    BlobsOf P' nvs := by
  intro chunk blob hblob
  obtain ⟨entries, hencoded, hentries⟩ := h chunk blob hblob
  exact ⟨entries, hencoded, fun e he => himp e (hentries e he)⟩

/-- A save of the index, wherever it stops, leaves old blobs and blobs of the index. -/
theorem save
    (h : BlobsOf P nvs)
    (outcome : NvsCall → NvsOutcome)
    {engine : StorageEngine}
    (hindex : ∀ e ∈ engine.visible, P e) :
    BlobsOf P (saveIndexToNvs outcome engine nvs).2 := by
  intro chunk blob hblob
  rcases Nat.lt_or_ge chunk (numChunks engine.indexCount) with hchunk | hbeyond
  · rw [saveIndexToNvs_idx outcome engine nvs hchunk] at hblob
    split at hblob
    · refine ⟨chunkOf engine.visible chunk, (Option.some.inj hblob).symm, fun e he => ?_⟩
      exact hindex e (List.mem_of_mem_drop (List.mem_of_mem_take he))
    · exact h chunk blob hblob
  · rcases saveIndexToNvs_above outcome engine nvs hbeyond with hsame | hnone
    · exact h chunk blob (hsame ▸ hblob)
    · rw [hnone] at hblob
      cases hblob

/-- What `storage_init` starts with are records of the blobs. -/
theorem read
    (h : BlobsOf P nvs)
    {readOk : NvsRead → Bool}
    {engine : StorageEngine}
    (hread : InitOutcome readOk nvs engine) :
    ∀ e ∈ engine.visible, P e := by
  intro e he
  rcases hread.2 with hcomplete | ⟨hcount, -⟩
  · rw [hcomplete.records, List.mem_flatMap] at he
    obtain ⟨chunk, hchunk, hrecord⟩ := he
    obtain ⟨-, blob, hblob, hlength⟩ := hcomplete.blobs chunk (List.mem_range.mp hchunk)
    obtain ⟨entries, rfl, hentries⟩ := h chunk blob hblob
    rw [encodeEntries_length] at hlength
    have hcount : chunkEntries engine.indexCount chunk = entries.length :=
      (Nat.eq_of_mul_eq_mul_right (by decide) hlength).symm
    rw [recordsIn, hblob, Option.getD_some, hcount, decodeEntries_encodeEntries] at hrecord
    exact hentries e hrecord
  · have hempty := engine.visible_length
    rw [hcount, List.length_eq_zero_iff] at hempty
    rw [hempty] at he
    cases he

end BlobsOf

/-! ## Every run -/

/-- The record was made for an event with the property. -/
def Traced
    (P : NostrEvent → Prop)
    (saved : Bytes32 → UInt32 → Option NostrEvent)
    (e : StorageIndexEntry) : Prop :=
  ∃ event, saved e.eventId e.fileIndex = some event ∧ event.id = e.eventId ∧ P event

/-- Records and files all go back to events with the property. -/
structure Traceable
    (lib : Libnostr)
    (P : NostrEvent → Prop)
    (w : LoggedWorld) : Prop where
  entries : ∀ e ∈ w.world.engine.visible, Traced P w.saved e
  blobs : BlobsOf (Traced P w.saved) w.world.nvs
  files : FilesOf lib
    (fun path event => P event ∧ ∃ fileIndex, path = getEventPath lib event.id fileIndex)
    w.world.files

/-- The event handed to `storage_save_event`, whatever becomes of it. -/
def FlashOp.given : FlashOp → Option NostrEvent
  | .run ⟨.save event, _⟩ => some event
  | _ => none

/-- The events ever handed to `storage_save_event`. -/
def givenEvents
    (ops : List FlashOp) : List NostrEvent :=
  ops.filterMap FlashOp.given

namespace Traced

variable
  {P P' : NostrEvent → Prop}
  {saved : Bytes32 → UInt32 → Option NostrEvent}
  {e : StorageIndexEntry}

theorem mono
    (h : Traced P saved e)
    (himp : ∀ event, P event → P' event) :
    Traced P' saved e := by
  obtain ⟨event, hsaved, hid, hP⟩ := h
  exact ⟨event, hsaved, hid, himp event hP⟩

/-- A record with the same identifier and running number. -/
theorem copy
    (h : Traced P saved e)
    {e' : StorageIndexEntry}
    (hid : e'.eventId = e.eventId)
    (hfile : e'.fileIndex = e.fileIndex) :
    Traced P saved e' := by
  unfold Traced
  rw [hid, hfile]
  exact h

/-- One more event with the property is recorded, perhaps over an older one. -/
theorem logSave
    (h : Traced P saved e)
    (next : UInt32)
    {found : Option NostrEvent}
    (hfound : ∀ event, found = some event → P event) :
    Traced P (logSave saved next found) e := by
  cases found with
  | none => exact h
  | some event =>
      by_cases hsame : e.eventId = event.id ∧ e.fileIndex = next
      · exact ⟨event, if_pos hsame, hsame.1.symm, hfound event rfl⟩
      · obtain ⟨event', hsaved, hid, hP⟩ := h
        exact ⟨event', (if_neg hsame).trans hsaved, hid, hP⟩

end Traced

namespace Traceable

variable
  {lib : Libnostr}
  {P P' : NostrEvent → Prop}
  {w : LoggedWorld}

theorem mono
    (h : Traceable lib P w)
    (himp : ∀ event, P event → P' event) :
    Traceable lib P' w where
  entries := fun e he => (h.entries e he).mono himp
  blobs := h.blobs.mono fun _ he => he.mono himp
  files := h.files.mono fun _ event hfile => ⟨himp event hfile.1, hfile.2⟩

/-- One operation. -/
theorem run
    (h : Traceable lib P w)
    {op : StorageOp}
    (hsave : ∀ event, op.call = .save event → P event) :
    Traceable lib P (flashStep lib w (.run op)).2 := by
  have hsaved : ∀ event, savedEvent (storageStep lib w.world op).1 = some event → P event :=
    fun event hevent => hsave event (call_of_savedEvent hevent)
  have hold : ∀ e, Traced P w.saved e → Traced P (flashStep lib w (.run op)).2.saved e :=
    fun e he => he.logSave _ hsaved
  have hentries : ∀ e ∈ (storageCall lib op.env w.world op.call).2.engine.visible,
      Traced P (flashStep lib w (.run op)).2.saved e := by
    intro e he
    by_cases hquiet : ∀ event, op.call ≠ .save event
    · rcases storageCall_index lib op.env w.world hquiet with hmarked | hcompacted
      · obtain ⟨e', he', hid, hfile⟩ := hmarked.origin he
        exact (hold e' (h.entries e' he')).copy hid hfile
      · rw [hcompacted] at he
        exact hold e (h.entries e (mem_live.mp he).1)
    · -- a save appends the record of its event, or nothing
      push Not at hquiet
      obtain ⟨event, hcall⟩ := hquiet
      obtain ⟨call, env⟩ := op
      obtain rfl : call = .save event := hcall
      simp only [storageCall] at he
      rcases storageSaveEvent_cases lib env w.world event with
        ⟨-, hsame | ⟨leftover, -, hsame⟩⟩ | ⟨json, hroom, -, -, -, hdone⟩
      · rw [hsame] at he
        exact hold e (h.entries e he)
      · rw [hsame] at he
        exact hold e (h.entries e he)
      · rw [hdone, persistEveryTenth_engine, appendWorld, visible_append, List.mem_append,
          List.mem_singleton] at he
        rcases he with he | rfl
        · exact hold e (h.entries e he)
        · refine ⟨event, ?_, rfl, hsave event rfl⟩
          have hresult : savedEvent (storageStep lib w.world ⟨.save event, env⟩).1 =
              some event := by
            simp only [storageStep, storageCall, hdone]
            rfl
          simp only [flashStep, hresult, logSave, newEntry, and_self, if_true]
  refine ⟨hentries, ?_, ?_⟩
  · have hblobs := h.blobs.mono hold
    change BlobsOf _ (storageCall lib op.env w.world op.call).2.nvs
    rcases storageCall_nvs lib op.env w.world op.call with hsame | hwritten
    · rwa [hsame]
    · rw [hwritten]
      exact hblobs.save op.env.nvs hentries
  · exact storageCall_filesOf lib op.env h.files fun event hcall =>
      ⟨hsave event hcall, _, rfl⟩

/-- A stop and a start. -/
theorem restart
    (h : Traceable lib P w)
    (stop : Option CallEnv)
    (env : InitEnv)
    (ttl : UInt32) :
    Traceable lib P (flashStep lib w (.restart stop env ttl)).2 := by
  have hoff : BlobsOf (Traced P w.saved) (stopped stop w.world).nvs := by
    cases stop with
    | none => exact h.blobs
    | some stopEnv =>
        simp only [stopped, storageDestroy]
        split
        · exact h.blobs
        · exact h.blobs.save stopEnv.nvs h.entries
  refine ⟨hoff.read (storageInit_outcome env ttl _ _), ?_,
    restart_filesOf h.files stop env ttl⟩
  change BlobsOf (Traced P w.saved) (storageInit env ttl _ (stopped stop w.world).nvs).2.nvs
  rwa [storageInit_nvs]

theorem step
    (h : Traceable lib P w)
    {op : FlashOp}
    (hgiven : ∀ event, op.given = some event → P event) :
    Traceable lib P (flashStep lib w op).2 := by
  cases op with
  | run op =>
      refine h.run fun event hcall => hgiven event ?_
      obtain ⟨call, env⟩ := op
      obtain rfl : call = .save event := hcall
      rfl
  | restart stop env ttl => exact h.restart stop env ttl

end Traceable

/-- Every run keeps it, whatever fails and however often the relay restarts. -/
theorem traceable_run
    (lib : Libnostr)
    {capacity : Nat}
    (ttl : UInt32)
    (hcapacity : capacity ≤ storageIndexEntries)
    (ops : List FlashOp) :
    Traceable lib (· ∈ givenEvents ops)
      (finalState (flashStep lib) (erasedFlash capacity ttl hcapacity) ops) := by
  induction ops using List.reverseRecOn with
  | nil =>
      refine ⟨fun e he => ?_, ?_, FilesOf.none⟩
      · simp [finalState, erasedFlash, emptyWorld, StorageEngine.visible, freshEngine] at he
      · rintro chunk blob ⟨⟩
  | append_singleton past op ih =>
      rw [finalState_snoc]
      refine (ih.mono fun event hevent => ?_).step fun event hgiven => ?_
      · simp only [givenEvents, List.filterMap_append]
        exact List.mem_append_left _ hevent
      · simp [givenEvents, hgiven]

/-! ## What is read through the index -/

/-- A path has the first 16 bytes of the identifier. -/
theorem getEventPath_idStart
    {lib : Libnostr}
    (hhex : ∀ a b, lib.bytesToHex a = lib.bytesToHex b → a = b)
    {eventId eventId' : Bytes32}
    {n n' : UInt32}
    (h : getEventPath lib eventId n = getEventPath lib eventId' n') :
    eventId.toList.take 16 = eventId'.toList.take 16 := by
  unfold getEventPath at h
  have hdigits := (List.append_inj' (List.append_cancel_right h) (by simp)).1
  have hfront := List.append_cancel_right hdigits
  exact hhex _ _ (List.append_inj hfront (by simp)).2

/-- Events with the property are equal when the first 16 bytes of their identifiers are. -/
def PrefixesDiffer
    (P : NostrEvent → Prop) : Prop :=
  ∀ a b, P a → P b → a.id.toList.take 16 = b.id.toList.take 16 → a = b

section Reading

variable
  {lib : Libnostr}
  {P : NostrEvent → Prop}
  (hdiffer : PrefixesDiffer P)
  {w : LoggedWorld}
  (h : Traceable lib P w)
include hdiffer h

/-- The records of an identifier were all made for the one event that has it. -/
theorem Traceable.owner_eq
    {e : StorageIndexEntry}
    (hmem : e ∈ w.world.engine.visible)
    {event : NostrEvent}
    (hP : P event)
    (hid : event.id = e.eventId) :
    w.owner e = some event := by
  obtain ⟨event', hsaved, hid', hP'⟩ := h.entries e hmem
  obtain rfl : event' = event := hdiffer _ _ hP' hP (by rw [hid', hid])
  exact hsaved

/-- `storage_get_event` returns an event with the identifier it was asked for. -/
theorem Traceable.of_get
    (hlib : lib.StorageLaws)
    (hcut : lib.TruncationLaw)
    (hhex : ∀ a b, lib.bytesToHex a = lib.bytesToHex b → a = b)
    {env : CallEnv}
    {eventId : Bytes32}
    {event : NostrEvent}
    (hget : storageGetEvent lib env w.world eventId = some event) :
    P event ∧ event.id = eventId := by
  unfold storageGetEvent at hget
  split at hget
  · cases hget
  cases hfound : foundEntry w.world.engine eventId with
  | none =>
      rw [hfound] at hget
      cases hget
  | some e =>
      rw [hfound] at hget
      obtain ⟨hlive, hid⟩ := live_of_foundEntry hfound
      obtain ⟨owner, -, howner, hP'⟩ := h.entries e (mem_live.mp hlive).1
      obtain ⟨hP, fileIndex, hpath⟩ := h.files.of_load hlib hcut hget
      obtain rfl : event = owner :=
        hdiffer _ _ hP hP' (by rw [howner]; exact (getEventPath_idStart hhex hpath).symm)
      exact ⟨hP, howner.trans hid⟩

end Reading

end Storage
end WispRelay
