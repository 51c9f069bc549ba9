import WispRelay.Relay.Fanout
import WispRelay.Storage.Deadline

/-!
# Accepted events can be found

A client that is told OK expects a query for the identifier to return the event.
`handle_event` answers OK when `storage_save_event` stores the event or finds a live record with
its identifier.  The record found may have expired without being purged, or have lost its file,
and the record made may expire at once, since the NIP-40 expiration is cut to 32 bits.

* `retrievable_after_save`: after a save that is taken for a success, the event can be found
  exactly when the storage was ready for it.
* `AcceptedEvent.readyFor`: for a new event it is, when the numbers fit 32 bits.
* `accepted_retrievable_iff`: an accepted event can be found exactly when the storage was ready
  for it when it was saved.
-/

namespace WispRelay
namespace Relay

open Interference Runs Storage

/-! ## Queries for one event -/

/-- The filter that asks for the identifier of the event and for nothing else. -/
def idFilter
    (lib : Libnostr)
    (event : NostrEvent) : NostrFilter :=
  { ids := [lib.bytesToHex event.id.toList] }

/-- At the time `now` every query for the identifier returns the event, unless a call fails. -/
def Retrievable
    (lib : Libnostr)
    (now : UInt32)
    (world : StorageWorld)
    (event : NostrEvent) : Prop :=
  ∀ env : CallEnv, env.Succeeds → env.now = now → ∀ limit : UInt16, 1 ≤ limit →
    event ∈ (storageQueryEvents lib env world (idFilter lib event) limit).1.2

/--
The storage is ready for a save at the time `now`: the live record with the identifier has not
expired and its file holds the event, or there is none and a new record would not have expired.
-/
def ReadyFor
    (lib : Libnostr)
    (now : UInt32)
    (world : StorageWorld)
    (event : NostrEvent) : Prop :=
  match foundEntry world.engine event.id with
  | some e => e.isExpired now = false ∧ ParsesTo lib world.files (e.path lib) event
  | none =>
      recordedExpiry now world.engine.defaultTtlSec (lib.eventGetExpiration event) = 0 ∨
        now ≤ recordedExpiry now world.engine.defaultTtlSec (lib.eventGetExpiration event)

section Query

variable
  {lib : Libnostr}
  {now : UInt32}
  {world : StorageWorld}
  {event : NostrEvent}

/-- The index lets through the records with the identifier. -/
theorem indexMatches_idFilter
    (hids : lib.IdFilterLaws)
    (e : StorageIndexEntry) :
    indexMatchesFilter lib e (idFilter lib event) = true ↔ e.eventId = event.id := by
  have hcheck : indexMatchesFilter lib e (idFilter lib event) = true ↔ event.id = e.eventId := by
    simp [indexMatchesFilter, idFilter, hids.hex_inverse]
  exact hcheck.trans eq_comm

/-- What the query returns is read from a live record with the identifier. -/
theorem source_of_idQuery
    (hids : lib.IdFilterLaws)
    {env : CallEnv}
    {limit : UInt16}
    {result : NostrEvent}
    (hmem : result ∈ (storageQueryEvents lib env world (idFilter lib event) limit).1.2) :
    ∃ e ∈ live world.engine.visible, e.eventId = event.id ∧ e.isExpired env.now = false ∧
      ParsesTo lib world.files (e.path lib) result := by
  obtain ⟨e, he, hread⟩ := storageQueryEvents_source hmem
  obtain ⟨files, hshrunk, hload⟩ := hread.loaded
  exact ⟨e, mem_live.mpr ⟨he, hread.live⟩, (indexMatches_idFilter hids e).mp hread.indexMatches,
    hread.unexpired, (parsesTo_of_load hload).of_shrunk hshrunk⟩

/-- A record has not expired when its time is zero or has not passed. -/
theorem isExpired_eq_false_iff
    (e : StorageIndexEntry)
    (now : UInt32) :
    e.isExpired now = false ↔ e.expiresAt = 0 ∨ now ≤ e.expiresAt := by
  rw [StorageIndexEntry.isExpired, Bool.and_eq_false_iff, decide_eq_false_iff_not,
    decide_eq_false_iff_not, UInt32.not_lt, UInt32.not_lt, UInt32.le_zero_iff]

theorem queryLimit_pos
    {limit : UInt16}
    (hlimit : 1 ≤ limit) :
    0 < queryLimit limit := by
  have hpos : 1 ≤ limit.toNat := UInt16.le_iff_toNat_le.mp hlimit
  unfold queryLimit
  omega

/-- With a live record the event can be found when the record and its file are good. -/
theorem retrievable_of_found
    (hids : lib.IdFilterLaws)
    (hinit : world.engine.initialized = true)
    (hindex : WellIndexed world.engine.visible world.engine.nextFileIndex)
    {e : StorageIndexEntry}
    (hfound : foundEntry world.engine event.id = some e) :
    Retrievable lib now world event ↔
      e.isExpired now = false ∧ ParsesTo lib world.files (e.path lib) event := by
  obtain ⟨hlive, hid⟩ := live_of_foundEntry hfound
  -- live records have different identifiers, so there is only one to read
  have honly : ∀ e' ∈ live world.engine.visible, e'.eventId = event.id → e' = e :=
    fun e' hlive' hid' => hindex.eq_of_eventId hlive' hlive (hid'.trans hid.symm)
  constructor
  · intro hretrievable
    obtain ⟨e', hlive', hid', hunexpired, hparses⟩ := source_of_idQuery hids
      (hretrievable _ (CallEnv.undisturbed_succeeds now) rfl 1 (UInt16.le_refl 1))
    obtain rfl := honly e' hlive' hid'
    exact ⟨hunexpired, hparses⟩
  · rintro ⟨hunexpired, hparses⟩ env henv rfl limit hlimit
    have hmatches := (indexMatches_idFilter hids e).mpr hid
    rcases storageQueryEvents_complete henv.mallocOk hinit hindex.nodup_fileIndex limit hlive
      hunexpired hmatches (hparses.load (henv.readOk _)) (hids.id_matches event) with
      hmem | hfull
    · exact hmem
    · obtain ⟨result, hresult⟩ :=
        List.exists_mem_of_length_pos ((queryLimit_pos hlimit).trans_le hfull)
      obtain ⟨e', hlive', hid', -, hparses'⟩ := source_of_idQuery hids hresult
      obtain rfl := honly e' hlive' hid'
      obtain rfl : event = result := hparses.unique hparses'
      exact hresult

/-- A record that was just made is the first to be looked at. -/
theorem retrievable_of_append
    (hlib : lib.StorageLaws)
    (hids : lib.IdFilterLaws)
    {env : CallEnv}
    (henv : env.Succeeds)
    (hinit : world.engine.initialized = true)
    (hfresh : foundEntry world.engine event.id = none)
    {json : CString}
    (hjson : lib.eventSerialize event storageMaxEventSize = some json)
    (hroom : world.engine.indexCount < world.engine.maxIndexEntries) :
    Retrievable lib env.now (persistEveryTenth env (appendWorld lib env world event json hroom))
        event ↔
      (newEntry lib env.now world.engine event).isExpired env.now = false := by
  let e := newEntry lib env.now world.engine event
  let saved := persistEveryTenth env (appendWorld lib env world event json hroom)
  have hvisible : saved.engine.visible = world.engine.visible ++ [e] := by
    rw [persistEveryTenth_engine, appendWorld, visible_append]
  constructor
  · intro hretrievable
    obtain ⟨e', hlive', hid', hunexpired, -⟩ := source_of_idQuery hids
      (hretrievable _ (CallEnv.undisturbed_succeeds env.now) rfl 1 (UInt16.le_refl 1))
    have hmem : e' ∈ live (world.engine.visible ++ [e]) := hvisible ▸ hlive'
    rw [live_snoc (newEntry_isDeleted _ _ _ _), List.mem_append, List.mem_singleton] at hmem
    rcases hmem with hold | rfl
    · exact absurd hid' (ne_of_foundEntry_eq_none hfresh hold)
    · exact hunexpired
  · intro hunexpired query hquery hnow limit hlimit
    have hparses : ParsesTo lib saved.files (e.path lib) event := by
      refine ⟨json, ?_, hlib.serialize_pos _ _ _ hjson, hlib.serialize_le _ _ _ hjson,
        hlib.parse_serialize _ _ _ hjson⟩
      rw [persistEveryTenth_files, newEntry_path]
      simp only [appendWorld, Function.update_self, henv.onFlash_eq]
    have hinit' : saved.engine.initialized = true := by
      rw [persistEveryTenth_engine]
      exact hinit
    have hscan : (storageQueryEvents lib query saved (idFilter lib event) limit).1.2 =
        (queryScan lib query (idFilter lib event) (queryLimit limit)
          (e :: world.engine.visible.reverse) saved.files []).events := by
      simp only [storageQueryEvents, hinit', hquery.mallocOk, hvisible, List.reverse_append,
        List.reverse_singleton, List.singleton_append, Bool.not_true, Bool.false_eq_true, if_false]
    change event ∈ (storageQueryEvents lib query saved (idFilter lib event) limit).1.2
    rw [hscan]
    exact queryScan_hit (newEntry_isDeleted _ _ _ _) (hnow ▸ hunexpired)
      ((indexMatches_idFilter hids e).mpr rfl) (hids.id_matches event)
      (hparses.load (hquery.readOk _)) (queryLimit_pos hlimit) _

/-- A save that finds a record with the identifier changes nothing. -/
theorem storageSaveEvent_duplicate
    {env : CallEnv}
    (hsaved : (storageSaveEvent lib env world event).1 = .duplicate) :
    world.engine.initialized = true ∧ (∃ e, foundEntry world.engine event.id = some e) ∧
      (storageSaveEvent lib env world event).2 = world := by
  unfold storageSaveEvent at hsaved ⊢
  by_cases hinit : world.engine.initialized = true
  case neg => simp [hinit] at hsaved
  by_cases hdup : (findIndexEntry world.engine event.id).isSome = true
  · have hfound := hdup
    rw [findIndexEntry_isSome, Option.isSome_iff_exists] at hfound
    exact ⟨hinit, hfound, by simp [hinit, hdup]⟩
  · exfalso
    simp only [hinit, hdup, Bool.not_true, Bool.false_eq_true, if_false] at hsaved
    repeat' split at hsaved
    all_goals cases hsaved

/-- After a save that counts as a success the event can be found if the storage was ready. -/
theorem retrievable_after_save
    (hlib : lib.StorageLaws)
    (hids : lib.IdFilterLaws)
    {env : CallEnv}
    (henv : env.Succeeds)
    (hindex : WellIndexed world.engine.visible world.engine.nextFileIndex)
    (hsaved : (storageSaveEvent lib env world event).1 = .storageOk ∨
      (storageSaveEvent lib env world event).1 = .duplicate) :
    Retrievable lib env.now (storageSaveEvent lib env world event).2 event ↔
      ReadyFor lib env.now world event := by
  rcases hsaved with hok | hduplicate
  · rcases storageSaveEvent_cases lib env world event with ⟨herror, -⟩ |
      ⟨json, hroom, hinit, hfresh, hjson, hrun⟩
    · exact absurd hok herror
    · have hunexpired := isExpired_eq_false_iff (newEntry lib env.now world.engine event) env.now
      rw [hrun, retrievable_of_append hlib hids henv hinit hfresh hjson hroom, ReadyFor, hfresh]
      exact hunexpired
  · obtain ⟨hinit, ⟨e, hfound⟩, hsame⟩ := storageSaveEvent_duplicate hduplicate
    rw [hsame, retrievable_of_found hids hinit hindex hfound, ReadyFor, hfound]

end Query

/-! ## Accepted events -/

section Accepted

variable
  {lib : Libnostr}
  {ctx : RelayCtx}
  {env : DispatchEnv}
  {event : NostrEvent}
  {h : Handling}

/--
The storage is ready for an accepted event it does not have, when the expiration and the
retention time fit 32 bits, since the library has rejected expirations that have passed.
-/
theorem AcceptedEvent.readyFor
    (hreject : lib.ExpirationLaw)
    (haccepted : AcceptedEvent lib ctx env event h)
    {now : UInt32}
    (hclock : (h.turns 0).now.toInt = now.toNat)
    {world : StorageWorld}
    (hfresh : foundEntry world.engine event.id = none)
    (hsmall : now.toNat + world.engine.defaultTtlSec.toNat < 2 ^ 32)
    (hfits : ExpirationFits now world.engine.defaultTtlSec (lib.eventGetExpiration event)) :
    ReadyFor lib now world event := by
  have hunexpired := hreject event _ _ (validatorCheckEvent_ok haccepted.valid)
  rw [hclock] at hunexpired
  have hrecorded := (recordedExpiry_eq_iff hsmall).mpr hfits
  have hlater : (now.toNat : Int) ≤
      deadline now world.engine.defaultTtlSec (lib.eventGetExpiration event) := by
    unfold deadline
    split <;> omega
  rw [← hrecorded, Int.ofNat_le, ← UInt32.le_iff_toNat_le] at hlater
  rw [ReadyFor, hfresh]
  exact .inr hlater

/-- What holds of every turn to come holds of those left by a program. -/
theorem turns_keep
    {α : Type}
    (p : RelayProg α)
    {T : CallTurn → Prop}
    (hturns : ∀ n, T (h.turns n)) :
    ∀ n, T ((p.run (relayCall lib env) h).2.turns n) :=
  Prog.run_keeps (I := fun h' : Handling => ∀ n, T (h'.turns n))
    (fun _ _ _ hturns' n => hturns' (n + 1)) (Prog.Calls.unrestricted p) hturns

variable (lib ctx env event h) in
/-- What the environment decides when the event is saved. -/
def saveTurn : CallTurn :=
  (processed lib ctx env event h).turns 0

variable (lib ctx env event h) in
/-- The storage when the event is saved: deletions are done, and the cleanup task may have run. -/
def savedOn : LoggedWorld :=
  afterCleanup lib (processed lib ctx env event h).state.storage
    (saveTurn lib ctx env event h).cleanup

theorem saveTurn_of_turns
    (T : CallTurn → Prop)
    (hturns : ∀ n, T (h.turns n)) :
    T (saveTurn lib ctx env event h) :=
  turns_keep (processDeletion lib ctx event) (T := T) (fun n => hturns (n + 2)) 0

/-- Until the save, everything holds that operations other than saves keep. -/
theorem quiet_savedOn
    {I : LoggedWorld → Prop}
    (hkeeps : ∀ (w : LoggedWorld) (op : StorageOp), (∀ event, op.call ≠ .save event) → I w →
      I (afterOp lib w op))
    (hstart : I h.state.storage) :
    I (savedOn lib ctx env event h) := by
  have hcalls : (processDeletion lib ctx event).Calls
      (fun c => ∀ event, c ≠ .storage (.save event)) :=
    calls_processDeletion (by simp) (by simp) (by simp) (by simp) event
  have hprocessed : I (processed lib ctx env event h).state.storage :=
    Prog.run_keeps (I := fun h' : Handling => I h'.state.storage)
      (fun _ _ hquiet hd => quiet_relayCall hkeeps env hquiet hd) hcalls hstart
  exact quiet_afterCleanup hkeeps hprocessed _

/-- Before the save nothing is saved. -/
theorem savedOn_dwindled
    (hattributed : Attributed lib h.state.storage) :
    Dwindled lib h.state.storage (savedOn lib ctx env event h) :=
  quiet_savedOn (fun _ _ hquiet hd => hd.quiet hquiet) hattributed.dwindled

variable (env event h) in
/-- An event that is not ephemeral is stored when the save succeeds or finds a record. -/
theorem storedThen_eq
    (hctx : ctx.storage = true)
    (hkind : lib.kindIsEphemeral event.kind = false) :
    let saved := storageSaveEvent lib (saveTurn lib ctx env event h).storage
      (savedOn lib ctx env event h).world event
    storedThen lib ctx env event h =
      ((saved.1 = .storageOk || saved.1 = .duplicate : Bool),
        (relayCall lib env (.storage (.save event)) (processed lib ctx env event h)).2) := by
  rw [storedThen, storeEvent, hkind, hctx]
  rfl

/-- An accepted event was saved, or taken for saved, and the storage is left as it was then. -/
theorem AcceptedEvent.saved
    (haccepted : AcceptedEvent lib ctx env event h)
    (hctx : ctx.storage = true)
    (hkind : lib.kindIsEphemeral event.kind = false) :
    let saved := storageSaveEvent lib (saveTurn lib ctx env event h).storage
      (savedOn lib ctx env event h).world event
    (saved.1 = .storageOk ∨ saved.1 = .duplicate) ∧
      ((handleEvent lib ctx event).run (relayCall lib env) h).2.state.storage.world = saved.2 := by
  intro saved
  have hrun := storedThen_eq env event h hctx hkind
  constructor
  · have hstored := haccepted.stored
    rw [hrun] at hstored
    simpa using hstored
  · have hcalls : (broadcasterFanout lib ctx event).Calls (fun c => ∀ call, c ≠ .storage call) :=
      calls_broadcasterFanout event (by simp) (by simp) (by simp)
    have hkeeps : ∀ c h', (∀ call, c ≠ .storage call) →
        h'.state.storage = (storedThen lib ctx env event h).2.state.storage →
        (relayCall lib env c h').2.state.storage =
          (storedThen lib ctx env event h).2.state.storage := by
      intro c h' hc hsame
      cases c with
      | storage call => exact absurd rfl (hc call)
      | _ => exact hsame
    rw [haccepted.state, Prog.run_keeps hkeeps hcalls rfl, hrun]
    rfl

end Accepted

/-- The event is published on connection 7, and no call fails. -/
def published
    (lib : Libnostr)
    (storage : LoggedWorld)
    (event : NostrEvent)
    (now : Int64) : NostrRelayError × Handling :=
  (handleEvent lib startedCtx event).run (relayCall lib (DispatchEnv.undisturbed now))
    (arrived (startRelay storage) 7 (DispatchEnv.undisturbed now))

/--
**An accepted event can be found exactly when the storage was ready for it.**  For every state
the storage can reach with no NVS call failing before a restart, and every event that is not
ephemeral, with no call failing while it is handled; the cleanup task may run at any time before it
is saved.
-/
theorem accepted_retrievable_iff
    (lib : Libnostr)
    (hlib : lib.StorageLaws)
    (hids : lib.IdFilterLaws)
    (capacity : Nat)
    (ttl : UInt32)
    (hcapacity : capacity ≤ storageIndexEntries)
    (past : List FlashOp)
    (hdurable : Durable capacity past)
    (hsaves : flashSaves past < 2 ^ 32)
    (ctx : RelayCtx)
    (hctx : ctx.storage = true)
    (env : DispatchEnv)
    {h : Handling}
    (hstorage : h.state.storage =
      finalState (flashStep lib) (erasedFlash capacity ttl hcapacity) past)
    (event : NostrEvent)
    (hkind : lib.kindIsEphemeral event.kind = false)
    (now : UInt32)
    (hsucceeds : ∀ n, (h.turns n).storage.Succeeds ∧ (h.turns n).storage.now = now)
    (hok : ((handleEvent lib ctx event).run (relayCall lib env) h).1 = .ok) :
    Retrievable lib now
        ((handleEvent lib ctx event).run (relayCall lib env) h).2.state.storage.world event ↔
      ReadyFor lib now (savedOn lib ctx env event h).world event := by
  have hattributed : Attributed lib h.state.storage := by
    rw [hstorage]
    exact attributed_of_run lib ttl hcapacity past hdurable hsaves
  obtain ⟨henv, hnow⟩ : (saveTurn lib ctx env event h).storage.Succeeds ∧
      (saveTurn lib ctx env event h).storage.now = now :=
    saveTurn_of_turns (fun turn => turn.storage.Succeeds ∧ turn.storage.now = now) hsucceeds
  obtain ⟨hsaved, hworld⟩ := (handleEvent_accepted hok).saved hctx hkind
  rw [hworld, ← hnow]
  exact retrievable_after_save hlib hids henv (savedOn_dwindled hattributed).index hsaved

/-- A note is published on an empty storage. -/
theorem accepted_retrievable_iff_note :
    let lib := Sample.library (Sample.notes 1)
    let storage := erasedFlash 1000 1814400 (by decide)
    let env := DispatchEnv.undisturbed 1700000000
    let h := arrived (startRelay storage) 7 env
    let event := Sample.numbered 0
    Retrievable lib 1700000000
        ((handleEvent lib startedCtx event).run (relayCall lib env) h).2.state.storage.world event ↔
      ReadyFor lib 1700000000 (savedOn lib startedCtx env event h).world event := by
  intro lib storage env h event
  have hnodup := Sample.notes_ids_nodup (n := 1) (by decide)
  exact accepted_retrievable_iff lib (Sample.library_storageLaws hnodup)
    (Sample.library_idFilterLaws _) 1000 1814400 (by decide) []
    (durable_of_runs 1000 (by simp)) (by decide) startedCtx rfl env rfl event (by decide)
    1700000000 (fun _ => ⟨CallEnv.undisturbed_succeeds _, rfl⟩) (by decide +kernel)

/--
A note saved a second before its date is published again when its record has just expired, and
another has an expiration past `2 ^ 32`: both are accepted, and queries do not return them.
-/
theorem accepted_note_is_not_found :
    let lib := Sample.library (Sample.notes 1)
    let stored := finalState (flashStep lib) (erasedFlash 1000 1814400 (by decide))
      [.run ⟨.save (Sample.numbered 0), CallEnv.undisturbed 1699999999⟩]
    let again := published lib stored (Sample.numbered 0) 1701814400
    let late := Sample.expiring "4294967297"
    let lib' := Sample.library [late]
    let first := published lib' (erasedFlash 1000 1814400 (by decide)) late 1700000000
    (again.1 = .ok ∧
        ¬ Retrievable lib 1701814400 again.2.state.storage.world (Sample.numbered 0)) ∧
      (first.1 = .ok ∧ ¬ Retrievable lib' 1700000000 first.2.state.storage.world late) := by
  intro lib stored again late lib' first
  have hagain : again.1 = .ok ∧ Sample.numbered 0 ∉ (storageQueryEvents lib
      (CallEnv.undisturbed 1701814400) again.2.state.storage.world
      (idFilter lib (Sample.numbered 0)) 1).1.2 := by
    decide +kernel
  have hfirst : first.1 = .ok ∧ late ∉ (storageQueryEvents lib'
      (CallEnv.undisturbed 1700000000) first.2.state.storage.world (idFilter lib' late) 1).1.2 := by
    decide +kernel
  exact ⟨⟨hagain.1, fun hfound =>
      hagain.2 (hfound _ (CallEnv.undisturbed_succeeds _) rfl 1 (UInt16.le_refl 1))⟩,
    hfirst.1, fun hfound =>
      hfirst.2 (hfound _ (CallEnv.undisturbed_succeeds _) rfl 1 (UInt16.le_refl 1))⟩

end Relay
end WispRelay
