import WispRelay.Relay.Retrievable
import WispRelay.Storage.Capacity

/-!
# The dates of stored events

`check_event_age` subtracts the date of an event, any 64-bit number, from the clock, and the
index keeps 32 bits of the date.  The difference wraps for dates in the remote past, and a clock
that has just started lets negative dates pass.

* `checkEventAge_iff`: what the age check accepts.
* `StoresEvent`: an event is saved while it is handled.
* `stored_dates_exact_iff`: the dates of stored events are recent and their records exact, unless
  the event is dated before the epoch or after `2 ^ 32` and still accepted.
-/

namespace WispRelay

/--
The library accepts an event that is well formed at the time `now`, unless it is dated after
`now + maxFuture`.
-/
def Libnostr.DateLaw
    (lib : Libnostr)
    (wellFormed : NostrEvent → Int64 → Prop)
    (maxFuture now : Int64) : Prop :=
  ∀ event, lib.eventValidateFull event maxFuture now = .ok ↔
    wellFormed event now ∧ event.createdAt.toInt ≤ now.toInt + maxFuture.toInt

namespace Relay

open Interference Runs Storage

/-! ## The age check -/

/-- Fewer than `2 ^ 32` seconds, as a signed number. -/
theorem int64_ofNat_uint32
    (n : UInt32) :
    (Int64.ofNat n.toNat).toInt = n.toNat := by
  have hn := n.toNat_lt
  rw [Int64.toInt_ofNat', Int64.size, Int.bmod_def]
  omega

/-- The difference of two times wraps when it is too large. -/
theorem age_toInt
    {now createdAt : Int64}
    (hnow : 0 ≤ now.toInt) :
    (now - createdAt).toInt =
      if now.toInt - createdAt.toInt < 2 ^ 63 then now.toInt - createdAt.toInt
      else now.toInt - createdAt.toInt - 2 ^ 64 := by
  have hlow := createdAt.le_toInt
  have hhigh := createdAt.toInt_lt
  have hlate := now.toInt_lt
  rw [Int64.toInt_sub, Int.bmod_def]
  split_ifs <;> omega

/-- The age check accepts what is not too old, and what is so old that the difference wraps. -/
theorem checkEventAge_iff
    {event : NostrEvent}
    {maxAgeSec : UInt32}
    {now : Int64}
    (hage : maxAgeSec ≠ 0)
    (hnow : 0 ≤ now.toInt) :
    checkEventAge event maxAgeSec now = .validationOk ↔
      now.toInt - maxAgeSec.toNat ≤ event.createdAt.toInt ∨
        event.createdAt.toInt ≤ now.toInt - 2 ^ 63 := by
  have hlow := event.createdAt.le_toInt
  have hlate := now.toInt_lt
  have hsec := maxAgeSec.toNat_lt
  have hold : Int64.ofNat maxAgeSec.toNat < now - event.createdAt ↔
      ¬ (now.toInt - maxAgeSec.toNat ≤ event.createdAt.toInt ∨
        event.createdAt.toInt ≤ now.toInt - 2 ^ 63) := by
    rw [Int64.lt_iff_toInt_lt, int64_ofNat_uint32, age_toInt hnow]
    split_ifs <;> omega
  rw [checkEventAge, if_neg hage]
  by_cases hlt : Int64.ofNat maxAgeSec.toNat < now - event.createdAt
  · rw [if_pos hlt]
    exact iff_of_false (by simp) (hold.mp hlt)
  · rw [if_neg hlt]
    exact iff_of_true rfl (not_not.mp fun h => hlt (hold.mpr h))

/-- The date is kept by 32 bits exactly when it fits. -/
theorem uint32OfInt64_exact_iff
    (createdAt : Int64) :
    ((uint32OfInt64 createdAt).toNat : Int) = createdAt.toInt ↔
      0 ≤ createdAt.toInt ∧ createdAt.toInt < 2 ^ 32 := by
  constructor
  · intro h
    have hlt := (uint32OfInt64 createdAt).toNat_lt
    omega
  · rintro ⟨hnonneg, hlt⟩
    rw [uint32OfInt64_toNat hnonneg]
    exact Int.emod_eq_of_lt hnonneg hlt

/-! ## Events that are stored -/

/-- The events saved, with what the storage returned. -/
def saves
    (t : RelayTrace) : List (NostrEvent × StorageError) :=
  t.filterMap fun x =>
    match x with
    | ⟨.storage (.save event), result⟩ => some (event, result)
    | _ => none

@[simp] theorem saves_append
    (t t' : RelayTrace) :
    saves (t ++ t') = saves t ++ saves t' :=
  List.filterMap_append

theorem saves_of_calls
    {α : Type}
    {σ : Type}
    {step : (c : RelayCall) → σ → c.Ret × σ}
    {p : RelayProg α}
    (hp : p.Calls (fun c => ∀ event, c ≠ .storage (.save event)))
    (s : σ) :
    saves (p.trace step s) = [] := by
  refine List.filterMap_eq_nil_iff.mpr ?_
  rintro ⟨c, r⟩ hx
  have hcall := hp.of_trace hx
  cases c with
  | storage call =>
      cases call with
      | save event => exact absurd rfl (hcall event)
      | _ => rfl
  | _ => rfl

section Stored

variable
  {lib : Libnostr}
  {ctx : RelayCtx}
  {env : DispatchEnv}
  {event : NostrEvent}
  {h : Handling}

/-- What `handle_event` accepts, when the clock does not change between its readings. -/
theorem validatorCheckEvent_iff
    {wellFormed : NostrEvent → Int64 → Prop}
    {now : Int64}
    (hdates : lib.DateLaw wellFormed ctx.maxFutureSec now)
    (hage : ctx.maxEventAgeSec ≠ 0)
    (hnow : 0 ≤ now.toInt)
    (event : NostrEvent) :
    validatorCheckEvent lib (validatorConfig ctx) now now event = .validationOk ↔
      wellFormed event now ∧ event.createdAt.toInt ≤ now.toInt + ctx.maxFutureSec.toInt ∧
        (now.toInt - ctx.maxEventAgeSec.toNat ≤ event.createdAt.toInt ∨
          event.createdAt.toInt ≤ now.toInt - 2 ^ 63) := by
  rw [← and_assoc, ← hdates event, ← checkEventAge_iff hage hnow]
  constructor
  · intro hvalid
    have hlibrary := validatorCheckEvent_ok hvalid
    refine ⟨hlibrary, ?_⟩
    by_contra hold
    rw [validatorCheckEvent, if_neg (not_not.mpr hlibrary)] at hvalid
    exact hold (by_contra fun hnot => hnot ((if_pos hold).symm.trans hvalid))
  · rintro ⟨hlibrary, hyoung⟩
    simp [validatorCheckEvent, validatorConfig, hlibrary, hyoung, validatorCheckPow,
      checkDuplicate]

variable (lib ctx env event h) in
/-- The result of saving the event. -/
def saveResult : StorageError :=
  (storageSaveEvent lib (saveTurn lib ctx env event h).storage
    (savedOn lib ctx env event h).world event).1

variable (lib ctx env event h) in
/-- `handle_event` saves a valid event once, unless it is ephemeral or there is no storage. -/
theorem saves_handleEvent :
    saves ((handleEvent lib ctx event).trace (relayCall lib env) h) =
      if validatorCheckEvent lib (validatorConfig ctx) (h.turns 0).now (h.turns 1).now event =
          .validationOk ∧ lib.kindIsEphemeral event.kind = false ∧ ctx.storage = true then
        [(event, saveResult lib ctx env event h)]
      else [] := by
  have hdeletion : ∀ s, saves ((processDeletion lib ctx event).trace (relayCall lib env) s) = [] :=
    saves_of_calls (calls_processDeletion (by simp) (by simp) (by simp) (by simp) event)
  have hfanout : ∀ s, saves ((broadcasterFanout lib ctx event).trace (relayCall lib env) s) = [] :=
    saves_of_calls (calls_broadcasterFanout event (by simp) (by simp) (by simp))
  have hstore : saves ((storeEvent lib ctx event).trace (relayCall lib env)
      (processed lib ctx env event h)) =
      if lib.kindIsEphemeral event.kind = false ∧ ctx.storage = true then
        [(event, saveResult lib ctx env event h)]
      else [] := by
    unfold storeEvent
    cases hkind : lib.kindIsEphemeral event.kind <;> cases hctx : ctx.storage <;> rfl
  by_cases hok : ((handleEvent lib ctx event).run (relayCall lib env) h).1 = .ok
  · have haccepted := handleEvent_accepted hok
    simp only [haccepted.valid, true_and, haccepted.calls, saves_append, hdeletion, hstore, hfanout,
      List.append_nil]
    rfl
  · cases handleEvent_refused hok with
    | invalid hinvalid _ hcalls =>
        rw [if_neg fun hvalid => hinvalid hvalid.1, hcalls]
        rfl
    | notStored hvalid _ _ hcalls =>
        simp only [hvalid, true_and, hcalls, saves_append, hdeletion, hstore, List.append_nil]
        rfl

variable (lib ctx env event h) in
/-- The event is stored while `handle_event` handles it. -/
def StoresEvent : Prop :=
  (event, StorageError.storageOk) ∈
    saves ((handleEvent lib ctx event).trace (relayCall lib env) h)

theorem storesEvent_iff :
    StoresEvent lib ctx env event h ↔
      (validatorCheckEvent lib (validatorConfig ctx) (h.turns 0).now (h.turns 1).now event =
          .validationOk ∧ lib.kindIsEphemeral event.kind = false ∧ ctx.storage = true) ∧
        saveResult lib ctx env event h = .storageOk := by
  rw [StoresEvent, saves_handleEvent]
  split_ifs with hsaves
  · rw [List.mem_singleton, Prod.mk.injEq, eq_comm (a := StorageError.storageOk)]
    exact and_congr_left' (iff_of_true rfl hsaves)
  · exact iff_of_false (List.not_mem_nil) fun h => hsaves h.1

/-- An event that is stored is accepted. -/
theorem StoresEvent.accepted
    (hstores : StoresEvent lib ctx env event h) :
    AcceptedEvent lib ctx env event h := by
  obtain ⟨⟨hvalid, hkind, hctx⟩, hsaved⟩ := storesEvent_iff.mp hstores
  refine handleEvent_accepted (handleEvent_ok hvalid ?_)
  rw [storedThen_eq env event h hctx hkind]
  unfold saveResult at hsaved
  simp [hsaved]

end Stored

/-! ## A storage without records -/

/-- A storage that was started and has no records, but has slots for some. -/
structure Unused (w : LoggedWorld) : Prop where
  initialized : w.world.engine.initialized = true
  indexCount : w.world.engine.indexCount = 0
  room : 0 < w.world.engine.maxIndexEntries

theorem Unused.visible
    {w : LoggedWorld}
    (h : Unused w) :
    w.world.engine.visible = [] := by
  rw [← List.length_eq_zero_iff, StorageEngine.visible_length]
  exact h.indexCount

/-- Nothing but a save makes a record. -/
theorem Unused.quiet
    {lib : Libnostr}
    {w : LoggedWorld}
    {op : StorageOp}
    (hquiet : ∀ event, op.call ≠ .save event)
    (h : Unused w) :
    Unused (afterOp lib w op) := by
  obtain ⟨call, env⟩ := op
  have hconfig := storageCall_config lib env w.world call
  have heffect := storageCall_effect lib env (by rw [h.visible]; exact List.nodup_nil) call
  refine ⟨hconfig.1.trans h.initialized, ?_, hconfig.2 ▸ h.room⟩
  change (storageCall lib env w.world call).2.engine.indexCount = 0
  generalize (storageCall lib env w.world call).2 = after at heffect
  generalize savedEvent ⟨call, (storageCall lib env w.world call).1⟩ = saved at heffect
  cases heffect with
  | idle => exact h.indexCount
  | discard event => exact absurd rfl (hquiet event)
  | append event => exact absurd rfl (hquiet event)
  | expire filter limit entries files hlen hswept => exact h.indexCount
  | sweep Q entries files hlen hswept =>
      rw [persist_engine]
      exact h.indexCount
  | compact =>
      rw [persist_engine]
      dsimp only
      rw [compact_indexCount, h.visible]
      rfl

/-- A first save. -/
theorem Unused.save_ok
    {lib : Libnostr}
    {w : LoggedWorld}
    (h : Unused w)
    {event : NostrEvent}
    (hser : (lib.eventSerialize event storageMaxEventSize).isSome = true)
    {env : CallEnv}
    (henv : env.Succeeds) :
    (storageSaveEvent lib env w.world event).1 = .storageOk := by
  obtain ⟨json, hjson⟩ := Option.isSome_iff_exists.mp hser
  have hfresh : findIndexEntry w.world.engine event.id = none := by
    rw [findIndexEntry, h.visible]
    rfl
  rw [storageSaveEvent_of_saves henv.saves h.initialized hjson hfresh, if_pos]
  rw [h.indexCount]
  exact h.room

theorem unused_erasedFlash
    {capacity : Nat}
    (ttl : UInt32)
    (hcapacity : capacity ≤ storageIndexEntries)
    (hpos : 0 < capacity) :
    Unused (erasedFlash capacity ttl hcapacity) where
  initialized := rfl
  indexCount := rfl
  room := by
    simpa [erasedFlash, emptyWorld, freshEngine, StorageEngine.maxIndexEntries] using hpos

/-! ## Dates that are kept -/

/-- The event is recent, and its live record has its date. -/
structure DatedExactly
    (ctx : RelayCtx)
    (now : Int64)
    (event : NostrEvent)
    (world : StorageWorld) : Prop where
  notOld : now.toInt - ctx.maxEventAgeSec.toNat ≤ event.createdAt.toInt
  notFuture : event.createdAt.toInt ≤ now.toInt + ctx.maxFutureSec.toInt
  recorded : ∃ e ∈ live world.engine.visible, e.eventId = event.id ∧
    (e.createdAt.toNat : Int) = event.createdAt.toInt

/--
Whenever the event is stored at the time `now`, after any run in which no NVS call failed before a
restart, its date is recent and kept exactly.
-/
def DatesKept
    (lib : Libnostr)
    (capacity : Nat)
    (ttl : UInt32)
    (hcapacity : capacity ≤ storageIndexEntries)
    (ctx : RelayCtx)
    (now : Int64)
    (event : NostrEvent) : Prop :=
  ∀ past : List FlashOp, Durable capacity past → flashSaves past < 2 ^ 32 →
    ∀ (env : DispatchEnv) (h : Handling),
      h.state.storage = finalState (flashStep lib) (erasedFlash capacity ttl hcapacity) past →
      (h.turns 0).now = now → (h.turns 1).now = now →
      StoresEvent lib ctx env event h →
      DatedExactly ctx now event
        ((handleEvent lib ctx event).run (relayCall lib env) h).2.state.storage.world

/-- Apart from its date, the event can be stored. -/
structure Storable
    (lib : Libnostr)
    (wellFormed : NostrEvent → Int64 → Prop)
    (capacity : Nat)
    (ctx : RelayCtx)
    (now : Int64)
    (event : NostrEvent) : Prop where
  wellFormed : wellFormed event now
  notEphemeral : lib.kindIsEphemeral event.kind = false
  serialized : (lib.eventSerialize event storageMaxEventSize).isSome = true
  storage : ctx.storage = true
  room : 0 < capacity

/--
The date fits 32 bits, or it is rejected: it is too far in the future, or old without being so old
that the difference from the clock wraps.
-/
def DateFits
    (ctx : RelayCtx)
    (now : Int64)
    (event : NostrEvent) : Prop :=
  (0 ≤ event.createdAt.toInt ∧ event.createdAt.toInt < 2 ^ 32) ∨
    now.toInt + ctx.maxFutureSec.toInt < event.createdAt.toInt ∨
    (now.toInt - 2 ^ 63 < event.createdAt.toInt ∧
      event.createdAt.toInt < now.toInt - ctx.maxEventAgeSec.toNat)

section Recorded

variable
  {lib : Libnostr}
  {ctx : RelayCtx}
  {env : DispatchEnv}
  {event : NostrEvent}
  {h : Handling}

/-- An event that is stored has a text, and there was a slot for it. -/
theorem StoresEvent.storable
    {capacity : Nat}
    (hmax : h.state.storage.world.engine.maxIndexEntries = capacity)
    (hstores : StoresEvent lib ctx env event h) :
    (lib.eventSerialize event storageMaxEventSize).isSome = true ∧ 0 < capacity := by
  have hsaved := (storesEvent_iff.mp hstores).2
  have hsame : (savedOn lib ctx env event h).world.engine.maxIndexEntries = capacity :=
    quiet_savedOn (I := fun w => w.world.engine.maxIndexEntries = capacity)
      (fun w op _ hw => (storageCall_config lib op.env w.world op.call).2.trans hw) hmax
  rcases storageSaveEvent_cases lib (saveTurn lib ctx env event h).storage
      (savedOn lib ctx env event h).world event with
    ⟨herror, -⟩ | ⟨json, hroom, -, -, hjson, -⟩
  · exact absurd hsaved herror
  · rw [hsame] at hroom
    exact ⟨by rw [hjson]; rfl, Nat.zero_lt_of_lt hroom⟩

/-- The live record of a stored event has 32 bits of its date. -/
theorem StoresEvent.recorded_iff
    (hstores : StoresEvent lib ctx env event h)
    {createdAt : Int} :
    (∃ e ∈ live ((handleEvent lib ctx event).run (relayCall lib env)
        h).2.state.storage.world.engine.visible,
      e.eventId = event.id ∧ (e.createdAt.toNat : Int) = createdAt) ↔
      ((uint32OfInt64 event.createdAt).toNat : Int) = createdAt := by
  obtain ⟨⟨-, hkind, hctx⟩, hsaved⟩ := storesEvent_iff.mp hstores
  rw [(hstores.accepted.saved hctx hkind).2]
  constructor
  · rintro ⟨e, he, hid, hdate⟩
    rw [eq_newEntry_of_saved hsaved he hid] at hdate
    exact hdate
  · exact fun hdate => ⟨_, newEntry_mem_of_saved hsaved, rfl, hdate⟩

end Recorded

/-- An event that passes is stored by a relay that has just started, when no call fails. -/
theorem storesEvent_undisturbed
    {lib : Libnostr}
    {wellFormed : NostrEvent → Int64 → Prop}
    {capacity : Nat}
    (ttl : UInt32)
    (hcapacity : capacity ≤ storageIndexEntries)
    {ctx : RelayCtx}
    {now : Int64}
    {event : NostrEvent}
    (hstorable : Storable lib wellFormed capacity ctx now event)
    (hvalid : validatorCheckEvent lib (validatorConfig ctx) now now event = .validationOk) :
    StoresEvent lib ctx (DispatchEnv.undisturbed now) event
      (arrived (startRelay (erasedFlash capacity ttl hcapacity)) 7
        (DispatchEnv.undisturbed now)) := by
  refine storesEvent_iff.mpr ⟨⟨hvalid, hstorable.notEphemeral, hstorable.storage⟩, ?_⟩
  have hunused := unused_erasedFlash ttl hcapacity hstorable.room
  refine (quiet_savedOn (fun _ _ hquiet hw => Unused.quiet hquiet hw) hunused).save_ok
    hstorable.serialized ?_
  exact saveTurn_of_turns (fun turn => turn.storage.Succeeds)
    fun _ => CallEnv.undisturbed_succeeds _

/-- The sample library rejects events that have expired and events from the future. -/
def notExpired
    (event : NostrEvent)
    (now : Int64) : Prop :=
  ¬ (0 < Sample.expiration event ∧ Sample.expiration event < now)

theorem library_dateLaw
    (known : List NostrEvent)
    {maxFuture now : Int64}
    (hsum : (now + maxFuture).toInt = now.toInt + maxFuture.toInt) :
    (Sample.library known).DateLaw notExpired maxFuture now := by
  intro event
  have hfuture : now + maxFuture < event.createdAt ↔
      ¬ event.createdAt.toInt ≤ now.toInt + maxFuture.toInt := by
    rw [Int64.lt_iff_toInt_lt, hsum, not_le]
  by_cases hlate : now + maxFuture < event.createdAt
  · refine iff_of_false ?_ fun h => hfuture.mp hlate h.2
    simp [Sample.library, hlate]
  · have hdate := not_not.mp fun h => hlate (hfuture.mpr h)
    simp [Sample.library, hlate, hdate, notExpired]

/--
**Stored dates are recent and exact unless one outside the 32-bit range is accepted.**  For every
context with an age limit, every event and every time of the clock.
-/
theorem stored_dates_exact_iff
    (lib : Libnostr)
    {wellFormed : NostrEvent → Int64 → Prop}
    (capacity : Nat)
    (ttl : UInt32)
    (hcapacity : capacity ≤ storageIndexEntries)
    (ctx : RelayCtx)
    (hage : ctx.maxEventAgeSec ≠ 0)
    (now : Int64)
    (hnow : 0 ≤ now.toInt ∧ now.toInt < 2 ^ 32 - 900)
    (hdates : lib.DateLaw wellFormed ctx.maxFutureSec now)
    (event : NostrEvent) :
    DatesKept lib capacity ttl hcapacity ctx now event ↔
      (Storable lib wellFormed capacity ctx now event → DateFits ctx now event) := by
  have hvalid := validatorCheckEvent_iff hdates hage hnow.1 event
  constructor
  · intro hkept hstorable
    by_contra hunfit
    have hstores := storesEvent_undisturbed ttl hcapacity hstorable (by
      rw [hvalid]
      unfold DateFits at hunfit
      exact ⟨hstorable.wellFormed, by omega, by omega⟩)
    have hdated := hkept [] (durable_of_runs capacity (by simp)) (by simp [flashSaves]) _ _ rfl rfl
      rfl hstores
    have hexact := hstores.recorded_iff.mp hdated.recorded
    exact hunfit (Or.inl ((uint32OfInt64_exact_iff event.createdAt).mp hexact))
  · intro hfits past hdurable hsaves env h hstorage hfirst hsecond hstores
    have hinv := flashInv_run lib ttl hcapacity past hdurable hsaves
    rw [← hstorage] at hinv
    obtain ⟨hser, hroom⟩ := hstores.storable hinv.capacity_eq
    obtain ⟨⟨haccepted, hkind, hctx⟩, -⟩ := storesEvent_iff.mp hstores
    rw [hfirst, hsecond, hvalid] at haccepted
    obtain ⟨hwell, hfuture, hyoung⟩ := haccepted
    have hdate := hfits ⟨hwell, hkind, hser, hctx, hroom⟩
    have hexact : 0 ≤ event.createdAt.toInt ∧ event.createdAt.toInt < 2 ^ 32 := by
      unfold DateFits at hdate
      omega
    refine ⟨by omega, hfuture, hstores.recorded_iff.mpr ?_⟩
    exact (uint32OfInt64_exact_iff event.createdAt).mpr hexact

/-- A note of the present. -/
theorem stored_dates_exact_iff_note :
    let lib := Sample.library (Sample.notes 1)
    DatesKept lib 1000 1814400 thousandSlots startedCtx 1700000000 (Sample.numbered 0) ↔
      (Storable lib notExpired 1000 startedCtx 1700000000 (Sample.numbered 0) →
        DateFits startedCtx 1700000000 (Sample.numbered 0)) := by
  intro lib
  exact stored_dates_exact_iff lib 1000 1814400 thousandSlots startedCtx (by decide) 1700000000
    (by decide) (library_dateLaw _ (by decide)) (Sample.numbered 0)

/-- A note with the smallest date there is, and one dated a second before the epoch. -/
def ancientNote : NostrEvent :=
  { Sample.numbered 0 with createdAt := Int64.minValue }

def earlyNote : NostrEvent :=
  { Sample.numbered 0 with createdAt := -1 }

/--
The first is stored at any time, its age being negative; the second is stored while the clock has
just started, with a date in 2106.
-/
theorem dates_not_kept :
    ¬ DatesKept (Sample.library [ancientNote]) 1000 1814400 thousandSlots startedCtx 1700000000
        ancientNote ∧
      ¬ DatesKept (Sample.library [earlyNote]) 1000 1814400 thousandSlots startedCtx 0 earlyNote := by
  have hstored : ∀ (event : NostrEvent) (now : Int64),
      Storable (Sample.library [event]) (fun _ _ => True) 1000 startedCtx now event →
      validatorCheckEvent (Sample.library [event]) (validatorConfig startedCtx) now now event =
        .validationOk →
      DatesKept (Sample.library [event]) 1000 1814400 thousandSlots startedCtx now event →
      now.toInt - 1814400 ≤ event.createdAt.toInt ∧
        ((uint32OfInt64 event.createdAt).toNat : Int) = event.createdAt.toInt := by
    intro event now hstorable hvalid hkept
    have hstores := storesEvent_undisturbed 1814400 thousandSlots hstorable hvalid
    have hdated := hkept [] (durable_of_runs 1000 (by simp)) (by simp [flashSaves]) _ _ rfl rfl
      rfl hstores
    exact ⟨hdated.notOld, hstores.recorded_iff.mp hdated.recorded⟩
  constructor
  · intro hkept
    have hdate := (hstored ancientNote 1700000000
      ⟨trivial, by decide, by decide +kernel, rfl, by decide⟩ (by decide +kernel) hkept).1
    revert hdate
    decide
  · intro hkept
    have hdate := (hstored earlyNote 0
      ⟨trivial, by decide, by decide +kernel, rfl, by decide⟩ (by decide +kernel) hkept).2
    revert hdate
    decide

end Relay
end WispRelay
