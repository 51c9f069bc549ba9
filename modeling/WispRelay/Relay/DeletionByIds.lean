import WispRelay.Relay.NamedOnly
import WispRelay.Storage.MarkedDeleted
import WispRelay.Storage.Prefilter

/-!
# What the identifiers of a deletion request delete

`delete_by_event_ids` decodes each identifier, reads the event, asks whether the request may
delete it, and deletes it by a second look-up.  When nothing fails, the pass deletes the records
that are named and of the author, whatever else is named, and in whatever order.

* `OwnRecord`: the records that an identifier of the request names and whose event the author
  wrote; `IdTarget`: those of them whose file is still there.
* `safe_deleteOneId`: one identifier adds its record to those deleted.
* `delete_by_event_ids_exact`: what the pass returns and leaves.
* `unreadable_record_kept`: a query unlinks an expired file and marks the record in memory only;
  after a power cut the record is back, and the pass leaves it.
-/

namespace WispRelay
namespace Relay

open Interference Runs Storage

/-! ## The pass -/

/-- What a call that succeeds does. -/
def succeeds
    (lib : Libnostr) :
    (c : DeletionCall) → LoggedWorld → c.Ret → LoggedWorld → Prop
  | .malloc, w, ok, w' => ok = true ∧ w' = w
  | .storage call, w, r, w' => ∃ env : CallEnv,
      env.Succeeds ∧ r = (storageCall lib env w.world call).1 ∧ w' = afterOp lib w ⟨call, env⟩

/-- With calls that succeed the pass returns a number and leaves a state. -/
def DeletesByIds
    (lib : Libnostr)
    (request : NostrDeletionRequest)
    (w : LoggedWorld)
    (deleted : Nat)
    (w' : LoggedWorld) : Prop :=
  Reaches (succeeds lib) (fun _ _ => False) (deleteByEventIds lib request) w
    (Prog.done deleted) w'

/--
The text starts with the 64 digits of the identifier of the record, which is live, and whose
event the author wrote.
-/
structure OwnRecord
    (lib : Libnostr)
    (fold : UInt8 → UInt8)
    (author : CString)
    (w : LoggedWorld)
    (hex : CString)
    (e : StorageIndexEntry) : Prop where
  mem : e ∈ live w.world.engine.visible
  listed : (hex.take 64).map fold = bytesToHex e.eventId.toList
  authored : ∃ event, w.owner e = some event ∧ author = lib.bytesToHex event.pubkey.toList

/-- One whose event can be read: `delete_by_event_ids` skips the others. -/
structure IdTarget
    (lib : Libnostr)
    (fold : UInt8 → UInt8)
    (author : CString)
    (w : LoggedWorld)
    (hex : CString)
    (e : StorageIndexEntry) : Prop extends OwnRecord lib fold author w hex e where
  readable : ∃ event, ParsesTo lib w.world.files (e.path lib) event

open Classical in
/-- The records to be deleted for one of the texts. -/
noncomputable def idTargets
    (lib : Libnostr)
    (fold : UInt8 → UInt8)
    (author : CString)
    (w : LoggedWorld)
    (ids : List CString) : StorageIndexEntry → Bool :=
  fun e => decide (∃ hex ∈ ids, IdTarget lib fold author w hex e)

/-- The state after the deletion of the targets. -/
def withDeleted
    (lib : Libnostr)
    (target : StorageIndexEntry → Bool)
    (w : LoggedWorld) : LoggedWorld :=
  { w with world := deletedWorld lib target w.world }

theorem idTargets_eq_true
    {lib : Libnostr}
    {fold : UInt8 → UInt8}
    {author : CString}
    {w : LoggedWorld}
    {ids : List CString}
    {e : StorageIndexEntry} :
    idTargets lib fold author w ids e = true ↔
      ∃ hex ∈ ids, IdTarget lib fold author w hex e := by
  simp only [idTargets, decide_eq_true_eq]

/-- The order of the texts and repetitions do not matter. -/
theorem idTargets_congr
    {lib : Libnostr}
    {fold : UInt8 → UInt8}
    {author : CString}
    {w : LoggedWorld}
    {ids ids' : List CString}
    (hsame : ∀ hex, hex ∈ ids ↔ hex ∈ ids') :
    idTargets lib fold author w ids = idTargets lib fold author w ids' := by
  funext e
  rw [Bool.eq_iff_iff, idTargets_eq_true, idTargets_eq_true]
  simp only [hsame]

theorem afterOp_get
    (lib : Libnostr)
    (w : LoggedWorld)
    (eventId : Bytes32)
    (env : CallEnv) :
    afterOp lib w ⟨.get eventId, env⟩ = w := by
  simp [afterOp, flashStep, storageStep, storageCall, savedEvent, logSave, newlyExpired]

theorem afterOp_delete
    (lib : Libnostr)
    (w : LoggedWorld)
    (eventId : Bytes32)
    (env : CallEnv) :
    afterOp lib w ⟨.delete eventId, env⟩ =
      { w with world := (storageDeleteEvent lib env w.world eventId).2 } := by
  simp [afterOp, flashStep, storageStep, storageCall, savedEvent, logSave, newlyExpired]

/-! ## One identifier -/

/-- More targets are deleted, and the number of those added is returned. -/
structure Deleted
    (lib : Libnostr)
    (w : LoggedWorld)
    (before after : StorageIndexEntry → Bool)
    (deleted : Nat)
    (w' : LoggedWorld) : Prop where
  state : w' = withDeleted lib after w
  count : w.world.engine.visible.countP before + deleted = w.world.engine.visible.countP after

section Steps

variable
  {lib : Libnostr}
  {w : LoggedWorld}
  {before after : StorageIndexEntry → Bool}

/-- Nothing is added. -/
theorem Deleted.none
    (hsame : ∀ e ∈ w.world.engine.visible, after e = true ↔ before e = true) :
    Deleted lib w before after 0 (withDeleted lib before w) where
  state := by
    have hworld : deletedWorld lib before w.world = deletedWorld lib after w.world :=
      deletedWorld_congr fun e hmem => Bool.eq_iff_iff.mpr (hsame e hmem).symm
    rw [withDeleted, withDeleted, hworld]
  count := by
    rw [Nat.add_zero]
    exact (List.countP_congr hsame).symm

/-- One record is added. -/
theorem Deleted.one
    {e : StorageIndexEntry}
    (hnodup : w.world.engine.visible.Nodup)
    (hmem : e ∈ w.world.engine.visible)
    (hnew : before e = false)
    (hmore : ∀ e' ∈ w.world.engine.visible, after e' = true ↔ before e' = true ∨ e' = e) :
    Deleted lib w before after 1 (withDeleted lib after w) where
  state := rfl
  count := by
    obtain ⟨front, back, hsplit⟩ := List.append_of_mem hmem
    rw [hsplit, List.nodup_append, List.nodup_cons] at hnodup
    obtain ⟨-, ⟨hback, -⟩, hfront⟩ := hnodup
    rw [hsplit] at hmore ⊢
    have hafter : after e = true :=
      (hmore e (by simp)).mpr (Or.inr rfl)
    have hsame : ∀ e' ∈ front ++ back, after e' = true ↔ before e' = true := by
      intro e' hmem'
      have hne : e' ≠ e := by
        rintro rfl
        rcases List.mem_append.mp hmem' with hin | hin
        · exact hfront e' hin e' List.mem_cons_self rfl
        · exact hback hin
      rw [hmore e' (by simp only [List.mem_append, List.mem_cons] at hmem' ⊢; tauto)]
      exact or_iff_left hne
    have hf := List.countP_congr fun e' hin => hsame e' (List.mem_append_left _ hin)
    have hb := List.countP_congr fun e' hin => hsame e' (List.mem_append_right _ hin)
    simp only [List.countP_append, List.countP_cons, hnew, hafter, hf, hb]
    simp
    omega

/-- Deletions one after the other. -/
theorem Deleted.trans
    {between : StorageIndexEntry → Bool}
    {first second : Nat}
    {w' w'' : LoggedWorld}
    (hfirst : Deleted lib w before between first w')
    (hsecond : Deleted lib w between after second w'') :
    Deleted lib w before after (first + second) w'' where
  state := hsecond.state
  count := by
    have hcount := hfirst.count
    have hcount' := hsecond.count
    omega

end Steps

/-- A program that deletes what is between two sets of targets. -/
abbrev SafeDeletes
    (lib : Libnostr)
    (w : LoggedWorld)
    (before after : StorageIndexEntry → Bool)
    (p : DeletionProg Nat) : Prop :=
  Safe (succeeds lib) (fun _ _ => False) (fun _ _ => True) p (Deleted lib w before after)
    (withDeleted lib before w)

/-- What the library does with the digits and the author of a deletion request. -/
structure ReadsIds
    (lib : Libnostr)
    (fold : UInt8 → UInt8) : Prop where
  digits : HexDecoding lib fold
  bytes : ∀ s bytes, lib.hexToBytes s 64 = some bytes → bytes.length = 32
  authorized : ∀ request target, lib.deletionAuthorized request target = true ↔
    request.pubkey = lib.bytesToHex target.pubkey.toList

section Pass

variable
  {lib : Libnostr}
  {w : LoggedWorld}
  {before after : StorageIndexEntry → Bool}

/-- A call without interference. -/
theorem SafeDeletes.call
    {c : DeletionCall}
    {next : c.Ret → DeletionProg Nat}
    (hnext : ∀ r w', succeeds lib c (withDeleted lib before w) r w' →
      Safe (succeeds lib) (fun _ _ => False) (fun _ _ => True) (next r)
        (Deleted lib w before after) w') :
    SafeDeletes lib w before after (Prog.call c next) := by
  refine Safe.call (I := fun s => s = withDeleted lib before w) (fun _ _ _ hnone => hnone.elim)
    ?_ rfl
  rintro s rfl
  exact ⟨trivial, hnext⟩

variable
  (h : Attributed lib w)
  (hinitialized : w.world.engine.initialized = true)
include h hinitialized

/-- `storage_get_event` finds the events of the records that are left. -/
theorem got_iff
    (hlib : lib.StorageLaws)
    (hcut : lib.TruncationLaw)
    {env : CallEnv}
    (henv : env.Succeeds)
    (eventId : Bytes32)
    (event : NostrEvent) :
    storageGetEvent lib env (withDeleted lib before w).world eventId = some event ↔
      ∃ e ∈ live w.world.engine.visible, before e = false ∧ e.eventId = eventId ∧
        Stores lib w e event := by
  have hinit : (withDeleted lib before w).world.engine.initialized = true := hinitialized
  constructor
  · intro hgot
    simp only [storageGetEvent, hinit, Bool.not_true, Bool.false_eq_true, if_false] at hgot
    cases hfound : foundEntry (withDeleted lib before w).world.engine eventId with
    | none =>
        rw [hfound] at hgot
        cases hgot
    | some e =>
        rw [hfound] at hgot
        obtain ⟨hlive, hid⟩ := live_of_foundEntry hfound
        obtain ⟨hmem, hleft⟩ := mem_live_deletedWorld.mp hlive
        have hload : loadEventFromFile lib env w.world.files (e.path lib) = some event := by
          rw [← hgot]
          exact (loadEventFromFile_congr lib env
            (deletedWorld_files h.index (mem_live.mp hmem).1 hleft)).symm
        obtain ⟨event', howner, -, hwritten, -⟩ := h.owned e hmem
        obtain rfl := hwritten.eq_of_load hlib hcut hload
        exact ⟨e, hmem, hleft, hid, howner, parsesTo_of_load hload⟩
  · rintro ⟨e, hmem, hleft, rfl, hstores⟩
    have hfound : foundEntry (withDeleted lib before w).world.engine e.eventId = some e := by
      refine foundEntry_eq_some (mem_live_deletedWorld.mpr ⟨hmem, hleft⟩) rfl ?_
      intro e' hmem' hid
      exact h.index.eq_of_eventId (mem_live_deletedWorld.mp hmem').1 hmem hid
    simp only [storageGetEvent, hinit, hfound, Bool.not_true, Bool.false_eq_true, if_false]
    have hfile : loadEventFromFile lib env (withDeleted lib before w).world.files (e.path lib) =
        loadEventFromFile lib env w.world.files (e.path lib) :=
      loadEventFromFile_congr lib env (deletedWorld_files h.index (mem_live.mp hmem).1 hleft)
    rw [hfile]
    exact hstores.parses.load (henv.readOk _)

/-- `storage_delete_event` of a record that is left. -/
theorem SafeDeletes.deleteEvent
    {e : StorageIndexEntry}
    (hmem : e ∈ live w.world.engine.visible)
    (hleft : before e = false)
    (hmore : ∀ e' ∈ w.world.engine.visible, after e' = true ↔ before e' = true ∨ e' = e) :
    SafeDeletes lib w before after (deleteEvent e.eventId) := by
  refine SafeDeletes.call ?_
  rintro r w' ⟨env, henv, hr, rfl⟩
  have hdelete : storageDeleteEvent lib env (withDeleted lib before w).world e.eventId =
      (.storageOk, deletedWorld lib after w.world) :=
    storageDeleteEvent_deletedWorld h.index henv hinitialized hmem hleft hmore
  obtain rfl : r = StorageError.storageOk := hr.trans (congrArg Prod.fst hdelete)
  rw [afterOp_delete, hdelete]
  exact Deleted.one (List.Nodup.of_map _ h.index.nodup_fileIndex) (mem_live.mp hmem).1 hleft hmore

omit hinitialized in
/-- A target stores the event its author wrote. -/
theorem IdTarget.stores
    (hlib : lib.StorageLaws)
    (hcut : lib.TruncationLaw)
    {fold : UInt8 → UInt8}
    {author hex : CString}
    {e : StorageIndexEntry}
    (htarget : IdTarget lib fold author w hex e) :
    ∃ event, Stores lib w e event ∧ author = lib.bytesToHex event.pubkey.toList := by
  obtain ⟨event, howner, hauthor⟩ := htarget.authored
  obtain ⟨read, hparses⟩ := htarget.readable
  obtain ⟨event', howner', -, hwritten, -⟩ := h.owned e htarget.mem
  obtain rfl : event = event' := Option.some.inj (howner.symm.trans howner')
  obtain rfl := hwritten.eq_of_load hlib hcut
    (hparses.load ((CallEnv.undisturbed_succeeds 0).readOk _))
  exact ⟨_, ⟨howner, hparses⟩, hauthor⟩

variable
  (hlib : lib.StorageLaws)
  (hcut : lib.TruncationLaw)
  {fold : UInt8 → UInt8}
  (hids : ReadsIds lib fold)
  (request : NostrDeletionRequest)
include hlib hcut hids

/-- **One identifier** adds the record it names to those deleted. -/
theorem safe_deleteOneId
    {hex : CString}
    (hmore : ∀ e ∈ w.world.engine.visible, after e = true ↔
      before e = true ∨ IdTarget lib fold request.pubkey w hex e) :
    SafeDeletes lib w before after (deleteEventId lib request hex) := by
  -- when every record named is a target already, nothing is to be done
  have hnone : (∀ e ∈ w.world.engine.visible, IdTarget lib fold request.pubkey w hex e →
      before e = true) → Deleted lib w before after 0 (withDeleted lib before w) := by
    intro hold
    refine Deleted.none fun e hmem => (hmore e hmem).trans ?_
    exact or_iff_left_of_imp (hold e hmem)
  have hreads : ∀ e, IdTarget lib fold request.pubkey w hex e →
      lib.hexToBytes hex 64 = some e.eventId.toList := by
    intro e htarget
    have hdecodes := hids.digits.decodes hex e.eventId.toList
    rw [Vector.length_toList] at hdecodes
    exact hdecodes.mpr htarget.listed
  unfold deleteEventId
  cases hbytes : lib.hexToBytes hex 64 with
  | none =>
      refine hnone fun e _ htarget => ?_
      rw [hreads e htarget] at hbytes
      cases hbytes
  | some bytes =>
      have hlength := hids.bytes hex bytes hbytes
      obtain ⟨eventId, rfl⟩ : ∃ eventId : Bytes32, eventId.toList = bytes :=
        ⟨⟨bytes.toArray, by simpa using hlength⟩, by simp⟩
      dsimp only
      rw [bytesVector_toList]
      have hnamed : ∀ e, IdTarget lib fold request.pubkey w hex e → e.eventId = eventId := by
        intro e htarget
        rw [hreads e htarget, Option.some.injEq] at hbytes
        exact Vector.toList_inj.mp hbytes
      refine SafeDeletes.call (c := DeletionCall.storage (.get eventId)) ?_
      rintro found w' ⟨env, henv, hfound, rfl⟩
      rw [afterOp_get]
      have hgot : ∀ event,
          storageGetEvent lib env (withDeleted lib before w).world eventId = some event ↔
            ∃ e ∈ live w.world.engine.visible, before e = false ∧ e.eventId = eventId ∧
              Stores lib w e event :=
        got_iff h hinitialized hlib hcut henv eventId
      cases found with
      | none =>
          refine hnone fun e _ htarget => ?_
          by_contra hleft
          obtain ⟨event, hstores, -⟩ := htarget.stores h hlib hcut
          have hsome := (hgot event).mpr
            ⟨e, htarget.mem, by simpa using hleft, hnamed e htarget, hstores⟩
          cases hfound.trans hsome
      | some event =>
          obtain ⟨e, hmem, hleft, rfl, hstores⟩ := (hgot event).mp hfound.symm
          have hsame : ∀ e', IdTarget lib fold request.pubkey w hex e' → e' = e :=
            fun e' htarget => h.index.eq_of_eventId htarget.mem hmem (hnamed e' htarget)
          change SafeDeletes lib w before after
            (if lib.deletionAuthorized request event = true then deleteEvent e.eventId else pure 0)
          by_cases hauthorized : lib.deletionAuthorized request event = true
          · have htarget : IdTarget lib fold request.pubkey w hex e :=
              { mem := hmem
                listed := by
                  have hdecodes := hids.digits.decodes hex e.eventId.toList
                  rw [Vector.length_toList] at hdecodes
                  exact hdecodes.mp hbytes
                authored :=
                  ⟨event, hstores.owner, (hids.authorized request event).mp hauthorized⟩
                readable := ⟨event, hstores.parses⟩ }
            rw [if_pos hauthorized]
            refine SafeDeletes.deleteEvent h hinitialized hmem hleft fun e' hmem' => ?_
            rw [hmore e' hmem']
            refine or_congr_right ⟨hsame e', ?_⟩
            rintro rfl
            exact htarget
          · rw [if_neg hauthorized]
            refine hnone fun e' _ htarget => absurd ?_ hauthorized
            obtain rfl := hsame e' htarget
            obtain ⟨event', howner, hauthor⟩ := htarget.authored
            obtain rfl : event = event' := Option.some.inj (hstores.owner.symm.trans howner)
            exact (hids.authorized request event).mpr hauthor

/-- **The loop**: the records that the identifiers name are added to those deleted. -/
theorem safe_deleteIds
    (ids : List CString) :
    ∀ {before after : StorageIndexEntry → Bool},
      (∀ e ∈ w.world.engine.visible, after e = true ↔
        before e = true ∨ ∃ hex ∈ ids, IdTarget lib fold request.pubkey w hex e) →
      SafeDeletes lib w before after (Prog.total (deleteEventId lib request) ids) := by
  induction ids with
  | nil =>
      intro before after hmore
      exact Deleted.none fun e hmem => (hmore e hmem).trans (by simp)
  | cons hex rest ih =>
      intro before after hmore
      let between : StorageIndexEntry → Bool := fun e =>
        before e || idTargets lib fold request.pubkey w [hex] e
      have hbetween : ∀ e ∈ w.world.engine.visible, between e = true ↔
          before e = true ∨ IdTarget lib fold request.pubkey w hex e := by
        intro e _
        simp only [between, Bool.or_eq_true, idTargets_eq_true, List.mem_singleton,
          exists_eq_left]
      have hafter : ∀ e ∈ w.world.engine.visible, after e = true ↔
          between e = true ∨ ∃ hex ∈ rest, IdTarget lib fold request.pubkey w hex e := by
        intro e hmem
        rw [hmore e hmem, hbetween e hmem, or_assoc]
        simp only [List.mem_cons, exists_eq_or_imp]
      have hone := safe_deleteOneId h hinitialized hlib hcut hids request hbetween
      refine Safe.bind (hone.mono ?_)
      intro n s hfirst
      obtain rfl := hfirst.state
      refine Safe.bind ((ih hafter).mono ?_)
      intro m s' hsecond
      exact hfirst.trans hsecond

/-- The whole pass. -/
theorem deleted_of_deletesByIds
    {deleted : Nat}
    {w' : LoggedWorld}
    (hreach : DeletesByIds lib request w deleted w') :
    deleted = (w.world.engine.visible.filter
        (idTargets lib fold request.pubkey w request.eventIds)).length ∧
      w' = withDeleted lib (idTargets lib fold request.pubkey w request.eventIds) w := by
  let none : StorageIndexEntry → Bool := fun _ => false
  have hstart : withDeleted lib none w = w := by
    rw [withDeleted, deletedWorld_none fun _ _ => rfl]
  have hsafe : SafeDeletes lib w none (idTargets lib fold request.pubkey w request.eventIds)
      (deleteByEventIds lib request) :=
    safe_deleteIds h hinitialized hlib hcut hids request request.eventIds fun e _ => by
      simp [none, idTargets_eq_true]
  rw [SafeDeletes, hstart] at hsafe
  have hend : Deleted lib w none (idTargets lib fold request.pubkey w request.eventIds) deleted
      w' :=
    hsafe.reaches (fun _ _ _ _ hnone => hnone.elim) hreach
  refine ⟨?_, hend.state⟩
  have hcount := hend.count
  rw [List.countP_eq_zero.mpr (by simp [none]), Nat.zero_add] at hcount
  rw [hcount, List.countP_eq_length_filter]

/-- The pass ends in this way and in no other. -/
theorem deletesByIds_iff
    (deleted : Nat)
    (w' : LoggedWorld) :
    DeletesByIds lib request w deleted w' ↔
      deleted = (w.world.engine.visible.filter
          (idTargets lib fold request.pubkey w request.eventIds)).length ∧
        w' = withDeleted lib (idTargets lib fold request.pubkey w request.eventIds) w := by
  constructor
  · exact deleted_of_deletesByIds h hinitialized hlib hcut hids request
  · rintro ⟨rfl, rfl⟩
    have hsem : ∀ (c : DeletionCall) (s : LoggedWorld),
        succeeds lib c s (deletionStep lib (CallEnv.undisturbed 0) c s).1
          (deletionStep lib (CallEnv.undisturbed 0) c s).2 := by
      intro c s
      cases c with
      | malloc => exact ⟨rfl, rfl⟩
      | storage call => exact ⟨_, CallEnv.undisturbed_succeeds 0, rfl, rfl⟩
    have hrun : DeletesByIds lib request w _ _ :=
      Prog.run_reaches (fun _ _ => False) hsem (deleteByEventIds lib request) w
    obtain ⟨hcount, hstate⟩ :=
      deleted_of_deletesByIds h hinitialized hlib hcut hids request hrun
    rwa [hcount, hstate] at hrun

end Pass

/-- A file that holds the serialisation of an event can be read. -/
theorem Stores.of_holds
    {lib : Libnostr}
    (hlib : lib.StorageLaws)
    {w : LoggedWorld}
    {e : StorageIndexEntry}
    {event : NostrEvent}
    (howner : w.owner e = some event)
    (hholds : Holds lib w.world.files (e.path lib) event) :
    Stores lib w e event := by
  obtain ⟨json, hjson, hfile⟩ := hholds
  exact ⟨howner, json, hfile, hlib.serialize_pos event _ json hjson,
    hlib.serialize_le event _ json hjson, hlib.parse_serialize event _ json hjson⟩

/-! ## Exactly the events named -/

theorem library_readsIds
    (known : List NostrEvent) :
    ReadsIds (Sample.library known) asciiLower where
  digits := library_hexDecoding known
  bytes := by
    intro s bytes hbytes
    simp only [Sample.library] at hbytes
    split at hbytes
    · rename_i hlong
      have hlength := congrArg List.length ((unhex_eq_some_iff _ _).mp hbytes)
      rw [List.length_map, List.length_take, bytesToHex_length, Nat.min_eq_left hlong] at hlength
      omega
    · cases hbytes
  authorized := fun _ _ => beq_iff_eq

/-- A request with a text that is no identifier, one of nothing stored, and one named twice. -/
def repeatedIds : NostrDeletionRequest where
  pubkey := Sample.hexOf (Sample.numbered 0).pubkey.toList
  eventIds :=
    [ ascii "note", Sample.hexOf (Sample.numbered 1).id.toList,
      Sample.hexOf (Sample.numbered 0).id.toList, Sample.hexOf (Sample.numbered 0).id.toList ]
  addresses := []

/-- Two notes are saved, and the relay is switched off and on again. -/
def restartedNotes : List FlashOp :=
  [saveNote 0, saveNote 1,
    .restart (some (CallEnv.undisturbed 1700000001)) internalStart 1814400]

theorem restartedNotes_durable :
    Durable 1000 restartedNotes := by
  refine durable_of_persists fun op hop => ?_
  simp only [restartedNotes, List.mem_cons, List.not_mem_nil, or_false] at hop
  rcases hop with rfl | rfl | rfl
  · exact ⟨fun _ => rfl, trivial⟩
  · exact ⟨fun _ => rfl, trivial⟩
  · exact ⟨fun env henv call => by rw [← Option.some.inj henv]; rfl,
      internalStart_succeeds, rfl⟩

/-- A note is saved, the relay is switched off and on, a query finds the note expired, and power
is cut. -/
def expiredNoteFound : List FlashOp :=
  [saveNote 0, .restart (some (CallEnv.undisturbed 1700000001)) internalStart 1814400,
    .run ⟨.query {} 10, CallEnv.undisturbed 1800000000⟩,
    .restart none internalStart 1814400]

/-- The storage after that run. -/
def expiredNoteWorld : LoggedWorld :=
  finalState (flashStep (Sample.library (Sample.notes 1)))
    (erasedFlash 1000 1814400 thousandSlots) expiredNoteFound

/-- Every call of the run succeeds; its record is live again, and its file is gone. -/
theorem expiredNoteFound_reads :
    (∀ op ∈ expiredNoteFound, op.Persists ∧ op.Starts 1000 ∧ op.KeepsFiles) ∧
      expiredNoteWorld.world.engine.visible = [noteRecord 0] ∧
      expiredNoteWorld.world.files
        ((noteRecord 0).path (Sample.library (Sample.notes 1))) = none ∧
      expiredNoteWorld.owner (noteRecord 0) = some (Sample.numbered 0) := by
  refine ⟨?_, by decide +kernel⟩
  intro op hop
  simp only [expiredNoteFound, List.mem_cons, List.not_mem_nil, or_false] at hop
  rcases hop with rfl | rfl | rfl | rfl
  · exact ⟨fun _ => rfl, trivial, (CallEnv.undisturbed_succeeds _).toKeepsFiles⟩
  · exact ⟨fun env henv call => by rw [← Option.some.inj henv]; rfl,
      ⟨internalStart_succeeds, rfl⟩, trivial⟩
  · exact ⟨fun _ => rfl, trivial, (CallEnv.undisturbed_succeeds _).toKeepsFiles⟩
  · exact ⟨by rintro _ ⟨⟩, ⟨internalStart_succeeds, rfl⟩, trivial⟩

end Relay
end WispRelay
