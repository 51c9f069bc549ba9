import WispRelay.Relay.NamedOnly
import WispRelay.Relay.Retrievable
import WispRelay.Storage.AtomicSave
import WispRelay.Storage.Capacity
import WispRelay.Storage.SaveOutcome

/-!
# What a failed event leaves behind

`handle_event` processes a deletion request before it saves the request.  When the save fails,
the client is told so, but what the request selected is gone.

* `FailsCleanly`: whatever its calls do, a failed event changes no live record that has not
  expired, and sends nothing.
* `Endangered`: the stored records and the deletion requests for which that can go wrong.
* `gone_of_safe`: what becomes of the live records while a deletion request is processed.
* `failed_event_clean_iff`: an event fails cleanly exactly when it is not such a request.
* `unsaved_deletion_deletes`: the save of a deletion request fails after a note was deleted.
-/

namespace WispRelay
namespace Relay

open Interference Runs Storage
open Relation (ReflTransGen)

/-! ## A clean failure -/

/-- The readings of the clock for a call of the storage engine and the cleanup before it. -/
def CallTurn.readings
    (turn : CallTurn) : List UInt32 :=
  turn.storage.now :: turn.cleanup.map (·.env.now)

/-- The readings of the clock for the calls of the storage engine that a program makes. -/
def clockReadings
    {α : Type}
    (lib : Libnostr)
    (env : DispatchEnv)
    (p : RelayProg α)
    (h : Handling) : List UInt32 :=
  (p.visited (relayCall lib env) h).flatMap fun x =>
    match x.1 with
    | .storage _ => (x.2.turns 0).readings
    | _ => []

/-- The live records are the same but for expired ones, and so are their files. -/
structure Unchanged
    (lib : Libnostr)
    (before after : LoggedWorld)
    (clock : List UInt32) : Prop where
  nothingNew : ∀ e ∈ live after.world.engine.visible, e ∈ live before.world.engine.visible
  kept : ∀ e ∈ live before.world.engine.visible, e ∈ live after.world.engine.visible ∨
    ∃ t ∈ clock, e.isExpired t = true
  files : ∀ e ∈ live after.world.engine.visible,
    after.world.files (e.path lib) = before.world.files (e.path lib)

/-- Whatever its calls do, `handle_event` accepts the event or changes and sends nothing. -/
def FailsCleanly
    (lib : Libnostr)
    (ctx : RelayCtx)
    (w : LoggedWorld)
    (event : NostrEvent) : Prop :=
  ∀ (env : DispatchEnv) (h : Handling), h.state.storage = w →
    ((handleEvent lib ctx event).run (relayCall lib env) h).1 ≠ .ok →
    Unchanged lib w ((handleEvent lib ctx event).run (relayCall lib env) h).2.state.storage
        (clockReadings lib env (handleEvent lib ctx event) h) ∧
      sends ((handleEvent lib ctx event).trace (relayCall lib env) h) = []

/--
A deletion request that can be valid, and a live record it selects: at some time this record
has not expired, and no other record keeps the request from being saved.  The two times are not
related: each call reads the clock anew, SNTP may set it forward or back between two readings, and
`FailsCleanly` speaks of all readings.
-/
structure Endangered
    (lib : Libnostr)
    (ctx : RelayCtx)
    (w : LoggedWorld)
    (event : NostrEvent) : Prop where
  storage : ctx.storage = true
  kind : event.kind = nostrKindDeletion
  saved : lib.kindIsEphemeral event.kind = false
  valid : ∃ validated aged,
    validatorCheckEvent lib (validatorConfig ctx) validated aged event = .validationOk
  victim : ∃ e ∈ live w.world.engine.visible, Target lib event w e ∧
    ∃ now, e.isExpired now = false ∧
      ∀ e' ∈ live w.world.engine.visible, e'.eventId = event.id →
        e' = e ∨ e'.isExpired now = true

section Readings

variable
  {lib : Libnostr}
  {env : DispatchEnv}
  {α β : Type}

theorem clockReadings_bind
    (p : RelayProg α)
    (f : α → RelayProg β)
    (h : Handling) :
    clockReadings lib env (p >>= f) h =
      clockReadings lib env p h ++
        clockReadings lib env (f (p.run (relayCall lib env) h).1)
          (p.run (relayCall lib env) h).2 := by
  simp only [clockReadings, Prog.visited_bind, List.flatMap_append]

variable (env) in
/-- The readings of the deletions and of the save are readings of `handle_event`. -/
theorem clockReadings_handleEvent
    {ctx : RelayCtx}
    {event : NostrEvent}
    {h : Handling}
    (hvalid : validatorCheckEvent lib (validatorConfig ctx) (h.turns 0).now (h.turns 1).now
      event = .validationOk) :
    ∃ rest, clockReadings lib env (handleEvent lib ctx event) h =
      clockReadings lib env (processDeletion lib ctx event) (clockRead lib env h) ++
        (clockReadings lib env (storeEvent lib ctx event) (processed lib ctx env event h) ++
          rest) := by
  unfold handleEvent
  simp only [clockReadings_bind]
  split_ifs with hinvalid
  · exact absurd hvalid hinvalid
  · simp only [clockReadings_bind]
    exact ⟨_, rfl⟩

end Readings

/-! ## What becomes of live records -/

section Gone

variable
  {lib : Libnostr}
  {w : LoggedWorld}
  (h : Attributed lib w)
include h

/-- One call leaves a record live, unless it has expired or is deleted. -/
theorem Attributed.gone_call
    (op : StorageOp)
    {e : StorageIndexEntry}
    (hmem : e ∈ live w.world.engine.visible) :
    e ∈ live (afterOp lib w op).world.engine.visible ∨ e.isExpired op.env.now = true ∨
      op.call = .delete e.eventId := by
  by_cases hdelete : op.call = .delete e.eventId
  · exact .inr (.inr hdelete)
  cases hexpired : e.isExpired op.env.now with
  | true => exact .inr (.inl rfl)
  | false =>
      refine .inl (live_kept lib op.env h.index.nodup_fileIndex op.call hmem hexpired ?_)
      rintro eventId hcall rfl
      exact hdelete hcall

/-- The cleanup task leaves a record live, unless it has expired. -/
theorem Attributed.gone_afterCleanup
    (work : List CleanupOp)
    {e : StorageIndexEntry}
    (hmem : e ∈ live w.world.engine.visible) :
    e ∈ live (afterCleanup lib w work).world.engine.visible ∨
      ∃ t ∈ work.map (·.env.now), e.isExpired t = true := by
  induction work generalizing w with
  | nil => exact .inl hmem
  | cons cleanup rest ih =>
      have hcall : ∀ event, cleanup.op.call ≠ .save event := by
        intro event
        rcases cleanup.op_call with hcall | hcall <;> rw [hcall] <;> simp
      rcases h.gone_call cleanup.op hmem with hkept | hexpired | hdelete
      · rcases ih (h.quiet hcall) hkept with hkept' | ⟨t, ht, hexpired⟩
        · exact .inl hkept'
        · exact .inr ⟨t, List.mem_cons_of_mem _ ht, hexpired⟩
      · exact .inr ⟨_, List.mem_cons_self, hexpired⟩
      · rcases cleanup.op_call with hcall | hcall <;> rw [hcall] at hdelete <;> cases hdelete

omit h in
/-- The work of the cleanup task is a sequence of its steps. -/
theorem afterCleanup_steps
    (work : List CleanupOp) :
    ReflTransGen (cleanupStep lib) w (afterCleanup lib w work) := by
  induction work generalizing w with
  | nil => exact .refl
  | cons cleanup rest ih =>
      exact ReflTransGen.head ⟨cleanup.op, cleanup.op_call, rfl⟩ ih

end Gone

/--
While a program runs whose every deletion is allowed, a live record stays live, has expired at
a reading of the clock, or is a target.
-/
theorem gone_of_safe
    {lib : Libnostr}
    (env : DispatchEnv)
    {target : StorageIndexEntry → Prop}
    {α : Type}
    {p : DeletionProg α}
    {post : α → LoggedWorld → Prop}
    {h : Handling}
    (hsafe : Safe (deletionSem lib) (cleanupStep lib) (allowedCall (targetsOnly target)) p post
      h.state.storage)
    (hattributed : Attributed lib h.state.storage)
    {e : StorageIndexEntry}
    (hmem : e ∈ live h.state.storage.world.engine.visible) :
    e ∈ live ((p.interpret ofDeletionCall).run (relayCall lib env)
        h).2.state.storage.world.engine.visible ∨
      (∃ t ∈ clockReadings lib env (p.interpret ofDeletionCall) h, e.isExpired t = true) ∨
      target e := by
  induction p generalizing h with
  | done result => exact .inl hmem
  | call c next ih =>
      cases c with
      | malloc =>
          -- memory changes nothing in the storage
          have hnext := (hsafe _ .refl).2 (h.turns 0).mallocOk _ rfl
          exact ih (h.turns 0).mallocOk (h := (relayCall lib env .malloc h).2) hnext hattributed
            hmem
      | storage call =>
          obtain ⟨hallowed, hnext⟩ := hsafe _ (afterCleanup_steps (h.turns 0).cleanup)
          have hswept : Attributed lib (afterCleanup lib h.state.storage (h.turns 0).cleanup) :=
            quiet_afterCleanup (fun _ _ hquiet ha => ha.quiet hquiet) hattributed _
          have hreadings : clockReadings lib env
              (Prog.interpret ofDeletionCall (Prog.call (.storage call) next)) h =
                (h.turns 0).readings ++ clockReadings lib env
                  ((next (relayCall lib env (.storage call) h).1).interpret ofDeletionCall)
                  (relayCall lib env (.storage call) h).2 := rfl
          rw [hreadings]
          rcases hattributed.gone_afterCleanup (h.turns 0).cleanup hmem with
            hleft | ⟨t, ht, hexpired⟩
          · rcases hswept.gone_call ⟨call, (h.turns 0).storage⟩ hleft with
              hkept | hexpired | hdelete
            · have hlater := ih _ (h := (relayCall lib env (.storage call) h).2)
                (hnext _ _ ⟨(h.turns 0).storage, rfl, rfl⟩) (hswept.quiet hallowed.1) hkept
              rcases hlater with hlive | ⟨t, ht, hexpired⟩ | htarget
              · exact .inl hlive
              · exact .inr (.inl ⟨t, List.mem_append_right _ ht, hexpired⟩)
              · exact .inr (.inr htarget)
            · exact .inr (.inl ⟨_, List.mem_append_left _ List.mem_cons_self, hexpired⟩)
            · exact .inr (.inr (hallowed.2 _ hdelete e hleft rfl))
          · exact .inr (.inl ⟨t, List.mem_append_left _ (List.mem_cons_of_mem _ ht), hexpired⟩)

/-! ## Events that cannot be saved -/

section Refused

variable
  {lib : Libnostr}
  {ctx : RelayCtx}
  {env : DispatchEnv}
  {event : NostrEvent}
  {h : Handling}

theorem Unchanged.refl
    (w : LoggedWorld)
    (clock : List UInt32) :
    Unchanged lib w w clock where
  nothingNew := fun _ hmem => hmem
  kept := fun _ hmem => .inl hmem
  files := fun _ _ => rfl

/-- A refused event sends nothing. -/
theorem RefusedEvent.sends_eq
    (hrefused : RefusedEvent lib ctx env event h) :
    sends ((handleEvent lib ctx event).trace (relayCall lib env) h) = [] := by
  cases hrefused with
  | invalid _ _ hcalls =>
      rw [hcalls]
      rfl
  | notStored _ _ _ hcalls =>
      rw [hcalls, sends_append, sends_append,
        sends_of_calls (calls_processDeletion (by simp) (by simp) (by simp) (by simp) event),
        sends_of_calls (calls_storeEvent (by simp))]
      rfl

/-- Only what is not ephemeral is stored, and only if there is a storage. -/
theorem stored_of_not_storedThen
    (hstored : (storedThen lib ctx env event h).1 = false) :
    ctx.storage = true ∧ lib.kindIsEphemeral event.kind = false := by
  by_contra hnot
  have hskip : (!lib.kindIsEphemeral event.kind && ctx.storage) = false := by
    cases hctx : ctx.storage <;> cases hkind : lib.kindIsEphemeral event.kind <;> simp_all
  rw [storedThen, storeEvent, hskip] at hstored
  cases hstored

variable (env event h) in
/-- The storage after the attempt to save. -/
theorem storedThen_storage
    (hctx : ctx.storage = true)
    (hkind : lib.kindIsEphemeral event.kind = false) :
    (storedThen lib ctx env event h).2.state.storage =
      afterOp lib (savedOn lib ctx env event h)
        ⟨.save event, (saveTurn lib ctx env event h).storage⟩ := by
  rw [storedThen_eq env event h hctx hkind]
  rfl

/-- A save that fails leaves the records and their files alone. -/
theorem afterOp_failed_save
    {w : LoggedWorld}
    (hattributed : Attributed lib w)
    {call : CallEnv}
    (hfailed : (storageSaveEvent lib call w.world event).1 ≠ .storageOk) :
    (afterOp lib w ⟨.save event, call⟩).world.engine = w.world.engine ∧
      ∀ e ∈ live w.world.engine.visible,
        (afterOp lib w ⟨.save event, call⟩).world.files (e.path lib) =
          w.world.files (e.path lib) := by
  have hworld : (afterOp lib w ⟨.save event, call⟩).world =
      (storageSaveEvent lib call w.world event).2 := rfl
  rw [hworld]
  rcases storageSaveEvent_cases lib call w.world event with
    ⟨-, hsame | ⟨leftover, -, hsame⟩⟩ | ⟨json, hroom, -, -, -, hrun⟩
  · rw [hsame]
    exact ⟨rfl, fun _ _ => rfl⟩
  · rw [hsame]
    refine ⟨rfl, fun e hmem => Function.update_of_ne ?_ _ _⟩
    exact hattributed.index.path_ne (mem_live.mp hmem).1 le_rfl
  · rw [hrun] at hfailed
    exact absurd rfl hfailed

/-- A save fails only when it does not find a record. -/
theorem foundEntry_of_failed_save
    {world : StorageWorld}
    {call : CallEnv}
    (hinit : world.engine.initialized = true)
    (hfailed : (storageSaveEvent lib call world event).1 ≠ .duplicate) :
    foundEntry world.engine event.id = none := by
  by_contra hfound
  apply hfailed
  have hdup : (findIndexEntry world.engine event.id).isSome = true := by
    rw [findIndexEntry_isSome]
    exact Option.isSome_iff_ne_none.mpr hfound
  simp [storageSaveEvent, hinit, hdup]

section Savable

variable
  (hlib : lib.StorageLaws)
  (hcut : lib.TruncationLaw)
  (hvalid : validatorCheckEvent lib (validatorConfig ctx) (h.turns 0).now (h.turns 1).now
    event = .validationOk)
  (hctx : ctx.storage = true)
  (hkind : lib.kindIsEphemeral event.kind = false)
  (hattributed : Attributed lib h.state.storage)
include hlib hcut hvalid hctx hkind hattributed

variable (env) in
/--
When the event is saved a record that was live is still live, has expired, or was selected by
the deletion request.
-/
theorem gone_savedOn
    {e : StorageIndexEntry}
    (hmem : e ∈ live h.state.storage.world.engine.visible) :
    e ∈ live (savedOn lib ctx env event h).world.engine.visible ∨
      (∃ t ∈ clockReadings lib env (handleEvent lib ctx event) h, e.isExpired t = true) ∨
      event.kind = nostrKindDeletion ∧ Target lib event h.state.storage e := by
  obtain ⟨rest, hreadings⟩ := clockReadings_handleEvent env hvalid
  have hsave : clockReadings lib env (storeEvent lib ctx event) (processed lib ctx env event h) =
      (saveTurn lib ctx env event h).readings := by
    rw [storeEvent, hkind, hctx]
    exact List.append_nil _
  rw [hreadings, hsave]
  have hprocessed : e ∈ live (processed lib ctx env event h).state.storage.world.engine.visible ∨
      (∃ t ∈ clockReadings lib env (processDeletion lib ctx event) (clockRead lib env h),
        e.isExpired t = true) ∨
      event.kind = nostrKindDeletion ∧ Target lib event h.state.storage e := by
    by_cases hdeletion : event.kind = nostrKindDeletion
    · have hprocess : processDeletion lib ctx event =
          ((deletionProcess lib event).interpret ofDeletionCall >>= fun _ => pure ()) := by
        simp [processDeletion, hdeletion, hctx]
      have hgone := gone_of_safe (h := clockRead lib env h) env
        (safe_deletionProcess hlib hcut event hattributed.remaining) hattributed hmem
      rw [processed, hprocess, clockReadings_bind, Prog.run_bind]
      rcases hgone with hlive | ⟨t, ht, hexpired⟩ | htarget
      · exact .inl hlive
      · exact .inr (.inl ⟨t, List.mem_append_left _ ht, hexpired⟩)
      · exact .inr (.inr ⟨hdeletion, htarget⟩)
    · have hprocess : processDeletion lib ctx event = pure () := by
        simp [processDeletion, hdeletion]
      rw [processed, hprocess]
      exact .inl hmem
  rcases hprocessed with hlive | ⟨t, ht, hexpired⟩ | htarget
  · have hprocessed' : Attributed lib (processed lib ctx env event h).state.storage :=
      Prog.run_keeps (I := fun h' : Handling => Attributed lib h'.state.storage)
        (fun _ _ hquiet ha => quiet_relayCall (fun _ _ hquiet ha => ha.quiet hquiet) env hquiet ha)
        (calls_processDeletion (by simp) (by simp) (by simp) (by simp) event) hattributed
    rcases hprocessed'.gone_afterCleanup (saveTurn lib ctx env event h).cleanup hlive with
      hlive' | ⟨t, ht, hexpired⟩
    · exact .inl hlive'
    · refine .inr (.inl ⟨t, List.mem_append_right _ (List.mem_append_left _ ?_), hexpired⟩)
      exact List.mem_cons_of_mem _ ht
  · exact .inr (.inl ⟨t, List.mem_append_left _ ht, hexpired⟩)
  · exact .inr (.inr htarget)

end Savable

/-- At the beginning of time nothing has expired. -/
theorem isExpired_zero
    (e : StorageIndexEntry) :
    e.isExpired 0 = false := by
  simp [StorageIndexEntry.isExpired]

/-- When the event is not endangered, a failure changes nothing. -/
theorem failsCleanly_of_not_endangered
    (hlib : lib.StorageLaws)
    (hcut : lib.TruncationLaw)
    {w : LoggedWorld}
    (hattributed : Attributed lib w)
    (hinit : w.world.engine.initialized = true)
    (hsafe : ¬ Endangered lib ctx w event) :
    FailsCleanly lib ctx w event := by
  rintro env h rfl hnot
  have hrefused := handleEvent_refused hnot
  refine ⟨?_, hrefused.sends_eq⟩
  cases hrefused with
  | invalid _ hstate _ =>
      rw [hstate]
      exact Unchanged.refl _ _
  | notStored hvalid hstored hstate _ =>
      obtain ⟨hctx, hkind⟩ := stored_of_not_storedThen hstored
      have hremaining : Remaining lib h.state.storage (savedOn lib ctx env event h) :=
        quiet_savedOn (fun _ _ hquiet hr => hr.quiet hquiet) hattributed.remaining
      have hinit' : (savedOn lib ctx env event h).world.engine.initialized = true :=
        quiet_savedOn (I := fun w => w.world.engine.initialized = true)
          (fun w op _ hi => (initialized_afterOp w op).trans hi) hinit
      have hfailed : (storageSaveEvent lib (saveTurn lib ctx env event h).storage
            (savedOn lib ctx env event h).world event).1 ≠ .storageOk ∧
          (storageSaveEvent lib (saveTurn lib ctx env event h).storage
            (savedOn lib ctx env event h).world event).1 ≠ .duplicate := by
        rw [storedThen_eq env event h hctx hkind] at hstored
        simpa using hstored
      obtain ⟨hengine, hfiles⟩ := afterOp_failed_save hremaining.toAttributed hfailed.1
      have hgone := fun e =>
        gone_savedOn env (e := e) hlib hcut hvalid hctx hkind hattributed
      have hnone := foundEntry_of_failed_save hinit' hfailed.2
      rw [hstate, storedThen_storage env event h hctx hkind]
      refine ⟨fun e hmem => ?_, fun e hmem => ?_, fun e hmem => ?_⟩
      · rw [hengine] at hmem
        exact hremaining.live_subset e hmem
      · rw [hengine]
        rcases hgone e hmem with hlive | hexpired | ⟨hdeletion, htarget⟩
        · exact .inl hlive
        · exact .inr hexpired
        -- the request selected the record, so nothing may stand for the request itself
        · by_contra hlost
          push Not at hlost
          refine hsafe ⟨hctx, hdeletion, hkind, ⟨_, _, hvalid⟩, ?_⟩
          by_cases hown : ∃ e' ∈ live h.state.storage.world.engine.visible,
              e'.eventId = event.id
          · obtain ⟨e', hmem', hid'⟩ := hown
            have honly : ∀ e'' ∈ live h.state.storage.world.engine.visible,
                e''.eventId = event.id → e'' = e' := fun e'' hmem'' hid'' =>
              hattributed.index.eq_of_eventId hmem'' hmem' (hid''.trans hid'.symm)
            rcases hgone e' hmem' with hlive | ⟨t, ht, hexpired⟩ | ⟨-, htarget'⟩
            · exact absurd hid' (ne_of_foundEntry_eq_none hnone hlive)
            · refine ⟨e, hmem, htarget, t, ?_, fun e'' hmem'' hid'' => .inr ?_⟩
              · simpa using hlost.2 t ht
              · rw [honly e'' hmem'' hid'']
                exact hexpired
            · exact ⟨e', hmem', htarget', 0, isExpired_zero e', fun e'' hmem'' hid'' =>
                .inl (honly e'' hmem'' hid'')⟩
          · exact ⟨e, hmem, htarget, 0, isExpired_zero e, fun e' hmem' hid' =>
              absurd ⟨e', hmem', hid'⟩ hown⟩
      · rw [hengine] at hmem
        rw [hfiles e hmem]
        exact hremaining.files e hmem

end Refused

/-! ## Deletion requests that cannot be saved -/

/-- The file of the record can be read and nothing can be written; expired records are purged. -/
structure OnlyDeletes
    (lib : Libnostr)
    (now : UInt32)
    (e : StorageIndexEntry)
    (turn : CallTurn) : Prop extends ReadsOnlyFile lib e turn.storage where
  cleanup : turn.cleanup = [⟨false, CallEnv.undisturbed now⟩]
  now : turn.storage.now = now
  memory : turn.mallocOk = true
  fopenFails : turn.storage.fopenOk = false ∧ turn.storage.fopenRetryOk = false

/-- The calls of `deletion_process` made by the relay. -/
def handlerStep
    (lib : Libnostr)
    (env : DispatchEnv)
    (c : DeletionCall)
    (h : Handling) : c.Ret × Handling :=
  (ofDeletionCall c).run (relayCall lib env) h

/-- The record is kept, and every turn to come only deletes. -/
structure KeptBy
    (lib : Libnostr)
    (now : UInt32)
    (e : StorageIndexEntry)
    (note : NostrEvent)
    (h : Handling) : Prop where
  kept : Kept lib e note h.state.storage
  turns : ∀ n, OnlyDeletes lib now e (h.turns n)

section Endangered

variable
  {lib : Libnostr}
  {ctx : RelayCtx}
  {env : DispatchEnv}
  {now : UInt32}
  {e : StorageIndexEntry}
  {note event : NostrEvent}
  {h : Handling}
  (hunexpired : e.isExpired now = false)
include hunexpired

/-- The record is still there after the cleanup. -/
theorem KeptBy.swept
    (hkept : KeptBy lib now e note h) :
    Kept lib e note (afterCleanup lib h.state.storage (h.turns 0).cleanup) := by
  rw [(hkept.turns 0).cleanup]
  exact hkept.kept.quiet hunexpired (by rintro event ⟨⟩) (by rintro eventId ⟨⟩)

variable (env) in
/-- Such turns find the event of the record whenever they look it up. -/
theorem looksUp_handlerStep :
    LooksUp lib e note (handlerStep lib env) (KeptBy lib now e note) where
  eventId := fun _ hkept => hkept.kept.eventId
  keeps := by
    intro c h hquiet hkept
    cases c with
    | malloc => exact .inr ⟨hkept.kept, fun n => hkept.turns (n + 1)⟩
    | storage call =>
        have hstep := (hkept.swept hunexpired).deletes_or_keeps call (h.turns 0).storage
          ((hkept.turns 0).now.symm ▸ hunexpired) hquiet
        exact hstep.imp_right fun hkept' => ⟨hkept', fun n => hkept.turns (n + 1)⟩
  memory := fun _ hkept => (hkept.turns 0).memory
  gets := fun _ hkept => (hkept.swept hunexpired).got (hkept.turns 0).toReadsOnlyFile
  queries := fun _ _ _ hkept haccepts hlimit =>
    (hkept.swept hunexpired).found (hkept.turns 0).toReadsOnlyFile
      ((hkept.turns 0).now.symm ▸ hunexpired) haccepts hlimit

variable (env) in
/-- After the deletions the record is gone. -/
theorem KeptBy.deleted
    (hkept : KeptBy lib now e note h)
    (hctx : ctx.storage = true)
    (hkind : event.kind = nostrKindDeletion)
    {request : NostrDeletionRequest}
    (hparse : lib.deletionParse event = some request)
    (hselects : Selects lib event request e note) :
    e ∉ live ((processDeletion lib ctx event).run (relayCall lib env)
      h).2.state.storage.world.engine.visible := by
  have hprocess : processDeletion lib ctx event =
      ((deletionProcess lib event).interpret ofDeletionCall >>= fun _ => pure ()) := by
    simp [processDeletion, hkind, hctx]
  have hquiet : ∀ c h', savesNothing c →
      Attributed lib h'.state.storage ∧ e ∉ live h'.state.storage.world.engine.visible →
      Attributed lib (handlerStep lib env c h').2.state.storage ∧
        e ∉ live (handlerStep lib env c h').2.state.storage.world.engine.visible := by
    intro c h' hc hgone
    have hkeeps : ∀ (w : LoggedWorld) (op : StorageOp), (∀ event, op.call ≠ .save event) →
        Attributed lib w ∧ e ∉ live w.world.engine.visible →
        Attributed lib (afterOp lib w op) ∧ e ∉ live (afterOp lib w op).world.engine.visible :=
      fun w op hop hw => ⟨hw.1.quiet hop, fun hmem => hw.2 (live_of_quiet hw.1 hop hmem)⟩
    cases c with
    | malloc => exact hgone
    | storage call =>
        refine quiet_relayCall hkeeps env (c := .storage call) ?_ hgone
        rintro event ⟨⟩
        exact hc event rfl
  have hcalls : (deletionProcess lib event).Calls savesNothing :=
    calls_deletionProcess trivial (by rintro filter limit event ⟨⟩) (by rintro eventId event ⟨⟩)
      (by rintro eventId event ⟨⟩) event
  obtain ⟨x, hx, hdeletes, hkept'⟩ :=
    (looksUp_handlerStep env hunexpired).visits_deletionProcess hkind hparse hselects hkept
  rw [hprocess, Prog.run_bind, Prog.run_interpret]
  refine (Prog.run_keeps_after hquiet hcalls hx ?_).2
  rw [hdeletes]
  have hswept := hkept'.swept hunexpired
  exact ⟨hswept.toAttributed.quiet (by rintro event ⟨⟩), hswept.deleted hswept.initialized e _⟩

omit hunexpired in
/-- With such turns there is one reading of the clock only. -/
theorem clockReadings_eq
    {α : Type}
    (p : RelayProg α)
    (hturns : ∀ n, OnlyDeletes lib now e (h.turns n)) :
    ∀ t ∈ clockReadings lib env p h, t = now := by
  intro t ht
  obtain ⟨x, hx, ht'⟩ := List.mem_flatMap.mp ht
  have hturn := (Prog.visited_keeps
    (I := fun h' : Handling => ∀ n, OnlyDeletes lib now e (h'.turns n))
    (fun _ _ _ hall n => hall (n + 1)) (Prog.Calls.unrestricted p) hturns x hx).2 0
  obtain ⟨c, h'⟩ := x
  cases c with
  | storage call =>
      dsimp only at hturn ht'
      rw [CallTurn.readings, hturn.cleanup, hturn.now] at ht'
      simpa [CallEnv.undisturbed] using ht'
  | _ => cases ht'

variable (lib) in
omit hunexpired in
/-- A save that cannot open its file fails. -/
theorem unopened_save_fails
    {world : StorageWorld}
    {call : CallEnv}
    (hfopen : call.fopenOk = false ∧ call.fopenRetryOk = false)
    (hnone : foundEntry world.engine event.id = none) :
    (storageSaveEvent lib call world event).1 ≠ .storageOk ∧
      (storageSaveEvent lib call world event).1 ≠ .duplicate := by
  constructor
  · refine (storageSaveEvent_refused fun json hreaches => ?_).1
    have hopened := hreaches.opened
    rw [hfopen.1, hfopen.2] at hopened
    simp at hopened
  · intro hduplicate
    obtain ⟨-, ⟨e, hfound⟩, -⟩ := storageSaveEvent_duplicate hduplicate
    rw [hnone] at hfound
    cases hfound

omit hunexpired in
/-- At the save there is no record of the request. -/
theorem KeptBy.savedOn_none
    (hkept : KeptBy lib now e note h)
    (hgone : e ∉ live (processed lib ctx env event h).state.storage.world.engine.visible)
    (hothers : ∀ e' ∈ live h.state.storage.world.engine.visible, e'.eventId = event.id →
      e' = e ∨ e'.isExpired now = true) :
    (∀ e' ∈ live (savedOn lib ctx env event h).world.engine.visible,
        e' ∈ live (processed lib ctx env event h).state.storage.world.engine.visible) ∧
      foundEntry (savedOn lib ctx env event h).world.engine event.id = none := by
  have hturn : OnlyDeletes lib now e (saveTurn lib ctx env event h) :=
    saveTurn_of_turns (OnlyDeletes lib now e) hkept.turns
  have hprocessed : Dwindled lib h.state.storage
        (processed lib ctx env event h).state.storage ∧
      (processed lib ctx env event h).state.storage.world.engine.initialized = true :=
    Prog.run_keeps (I := fun h' : Handling => Dwindled lib h.state.storage h'.state.storage ∧
        h'.state.storage.world.engine.initialized = true)
      (fun _ _ hquiet hd => quiet_relayCall
        (I := fun w => Dwindled lib h.state.storage w ∧ w.world.engine.initialized = true)
        (fun w op hop hw => ⟨hw.1.quiet hop, (initialized_afterOp w op).trans hw.2⟩)
        env hquiet hd)
      (calls_processDeletion (by simp) (by simp) (by simp) (by simp) event)
      ⟨hkept.kept.toAttributed.dwindled, hkept.kept.initialized⟩
  have hlive : live (savedOn lib ctx env event h).world.engine.visible =
      (live (processed lib ctx env event h).state.storage.world.engine.visible).filter
        (fun e => !e.isExpired now) := by
    rw [savedOn, hturn.cleanup]
    exact live_storagePurgeExpired lib (CallEnv.undisturbed now) hprocessed.2
  refine ⟨fun e' hmem => ?_, foundEntry_eq_none fun e' hmem hid => ?_⟩
  · rw [hlive] at hmem
    exact (List.mem_filter.mp hmem).1
  · rw [hlive, List.mem_filter] at hmem
    obtain ⟨hmem, hunexpired⟩ := hmem
    rcases hothers e' (hprocessed.1.live_subset e' hmem) hid with rfl | hexpired
    · exact hgone hmem
    · simp [hexpired] at hunexpired

variable (env) in
/-- The failure deletes the record. -/
theorem KeptBy.fails
    (hkept : KeptBy lib now e note h)
    (hctx : ctx.storage = true)
    (hkind : event.kind = nostrKindDeletion)
    (hsaved : lib.kindIsEphemeral event.kind = false)
    (hvalid : validatorCheckEvent lib (validatorConfig ctx) (h.turns 0).now (h.turns 1).now
      event = .validationOk)
    {request : NostrDeletionRequest}
    (hparse : lib.deletionParse event = some request)
    (hselects : Selects lib event request e note)
    (hothers : ∀ e' ∈ live h.state.storage.world.engine.visible, e'.eventId = event.id →
      e' = e ∨ e'.isExpired now = true) :
    ((handleEvent lib ctx event).run (relayCall lib env) h).1 ≠ .ok ∧
      e ∉ live ((handleEvent lib ctx event).run (relayCall lib env)
        h).2.state.storage.world.engine.visible := by
  have hread : KeptBy lib now e note (clockRead lib env h) :=
    ⟨hkept.kept, fun n => hkept.turns (n + 2)⟩
  have hgone : e ∉ live (processed lib ctx env event h).state.storage.world.engine.visible :=
    hread.deleted env hunexpired hctx hkind hparse hselects
  obtain ⟨hsubset, hnone⟩ := hkept.savedOn_none hgone hothers
  have hturn : OnlyDeletes lib now e (saveTurn lib ctx env event h) :=
    saveTurn_of_turns (OnlyDeletes lib now e) hkept.turns
  have hfailed := unopened_save_fails lib hturn.fopenFails hnone
  have hnot : ((handleEvent lib ctx event).run (relayCall lib env) h).1 ≠ .ok := by
    intro hok
    rcases ((handleEvent_accepted hok).saved hctx hsaved).1 with hok' | hduplicate
    · exact hfailed.1 hok'
    · exact hfailed.2 hduplicate
  refine ⟨hnot, fun hmem => ?_⟩
  cases handleEvent_refused hnot with
  | invalid hinvalid _ _ => exact hinvalid hvalid
  | notStored _ _ hstate _ =>
      have hattributed : Attributed lib (savedOn lib ctx env event h) :=
        (savedOn_dwindled hkept.kept.toAttributed).toAttributed
      rw [hstate, storedThen_storage env event h hctx hsaved,
        (afterOp_failed_save hattributed hfailed.1).1] at hmem
      exact hgone (hsubset e hmem)

end Endangered

/-- Everything fails but looking the record up and deleting it. -/
def onlyDeletes
    (lib : Libnostr)
    (now : UInt32)
    (e : StorageIndexEntry)
    (clock : Int64) : CallTurn where
  cleanup := [⟨false, CallEnv.undisturbed now⟩]
  storage :=
    { readsOnly lib now e with
      fopenOk := false
      fopenRetryOk := false }
  now := clock
  mallocOk := true
  send := { argOk := true, dataOk := true, httpdOk := true }

theorem onlyDeletes_onlyDeletes
    (lib : Libnostr)
    (now : UInt32)
    (e : StorageIndexEntry)
    (clock : Int64) :
    OnlyDeletes lib now e (onlyDeletes lib now e clock) where
  mallocOk := rfl
  readOk := fun _ => rfl
  cleanup := rfl
  now := rfl
  memory := rfl
  fopenFails := ⟨rfl, rfl⟩

/-- An endangered request can fail and have deleted a record. -/
theorem not_failsCleanly_of_endangered
    {lib : Libnostr}
    {ctx : RelayCtx}
    {w : LoggedWorld}
    {event : NostrEvent}
    (hattributed : Attributed lib w)
    (hinit : w.world.engine.initialized = true)
    (hendangered : Endangered lib ctx w event) :
    ¬ FailsCleanly lib ctx w event := by
  obtain ⟨hctx, hkind, hsaved, ⟨validated, aged, hvalid⟩, e, hmem,
    ⟨request, note, hparse, hstores, hselects⟩, now, hunexpired, hothers⟩ := hendangered
  intro hclean
  let h : Handling :=
    { state := startRelay w
      turns := fun n => onlyDeletes lib now e (if n = 0 then validated else aged) }
  have hkept : KeptBy lib now e note h :=
    ⟨⟨hattributed, hinit, hmem, hstores⟩, fun n => onlyDeletes_onlyDeletes lib now e _⟩
  obtain ⟨hnot, hgone⟩ := hkept.fails (DispatchEnv.undisturbed 0) hunexpired hctx hkind
    hsaved hvalid hparse hselects hothers
  obtain ⟨hunchanged, -⟩ := hclean (DispatchEnv.undisturbed 0) h rfl hnot
  rcases hunchanged.kept e hmem with hlive | ⟨t, ht, hexpired⟩
  · exact hgone hlive
  · rw [clockReadings_eq _ hkept.turns t ht, hunexpired] at hexpired
    cases hexpired

/--
**A failed event changes nothing exactly when it is not an endangered deletion request.**  For
every state the storage can reach with no NVS call failing before a restart, and every event,
whatever calls fail while it is handled and whatever the cleanup task does in between.
-/
theorem failed_event_clean_iff
    (lib : Libnostr)
    (hlib : lib.StorageLaws)
    (hcut : lib.TruncationLaw)
    (capacity : Nat)
    (ttl : UInt32)
    (hcapacity : capacity ≤ storageIndexEntries)
    (past : List FlashOp)
    (hdurable : Durable capacity past)
    (hsaves : flashSaves past < 2 ^ 32)
    (ctx : RelayCtx)
    (event : NostrEvent) :
    FailsCleanly lib ctx
        (finalState (flashStep lib) (erasedFlash capacity ttl hcapacity) past) event ↔
      ¬ Endangered lib ctx
        (finalState (flashStep lib) (erasedFlash capacity ttl hcapacity) past) event := by
  have hattributed := attributed_of_run lib ttl hcapacity past hdurable hsaves
  have hinit := (flashInv_run lib ttl hcapacity past hdurable hsaves).initialized
  constructor
  · exact fun hclean hendangered =>
      not_failsCleanly_of_endangered hattributed hinit hendangered hclean
  · exact failsCleanly_of_not_endangered hlib hcut hattributed hinit

/-- The author asks to delete the first note. -/
def noteDeletion : NostrEvent :=
  { Sample.numbered 1 with
    kind := 5
    tags := [[ascii "e", Sample.hexOf (Sample.numbered 0).id.toList]] }

/-- The library on the note and the request. -/
def noteLibrary : Libnostr :=
  Sample.library [Sample.numbered 0, noteDeletion]

/-- The note is saved. -/
def noteSaved : List FlashOp :=
  [.run ⟨.save (Sample.numbered 0), CallEnv.undisturbed 1700000000⟩]

/-- Publishing another note fails cleanly. -/
theorem failed_event_clean_iff_note :
    FailsCleanly noteLibrary startedCtx
      (finalState (flashStep noteLibrary) (erasedFlash 1000 1814400 thousandSlots) noteSaved)
      (Sample.numbered 1) := by
  have hids : ([Sample.numbered 0, noteDeletion].map (·.id)).Nodup := by
    decide
  have hruns : ∀ op ∈ noteSaved, op.isRestart = false := by
    simp [noteSaved, FlashOp.isRestart]
  exact (failed_event_clean_iff noteLibrary (Sample.library_storageLaws hids)
    (Sample.library_truncationLaw hids) 1000 1814400 thousandSlots noteSaved
    (durable_of_runs 1000 hruns) (by decide) startedCtx (Sample.numbered 1)).mpr
    fun hendangered => absurd hendangered.kind (by decide)

/-- No file can be created any more. -/
def unwritable : DispatchEnv :=
  { DispatchEnv.undisturbed 1700000001 with
    turns := fun _ =>
      { CallTurn.undisturbed 1700000001 with
        storage :=
          { CallEnv.undisturbed 1700000001 with
            fopenOk := false
            fopenRetryOk := false } } }

/-- The flash with the note. -/
def noteFlash : LoggedWorld :=
  finalState (flashStep noteLibrary) (erasedFlash 1000 1814400 thousandSlots) noteSaved

/-- The request is handled. -/
def requestHandled : NostrRelayError × Handling :=
  (handleEvent noteLibrary startedCtx noteDeletion).run (relayCall noteLibrary unwritable)
    (arrived (startRelay noteFlash) 7 unwritable)

/-- The client is told that the request could not be saved, and the note is gone. -/
theorem unsaved_deletion_deletes :
    (requestHandled.1 = .errStorage ∧ live noteFlash.world.engine.visible = [noteRecord 0] ∧
        live requestHandled.2.state.storage.world.engine.visible = [] ∧
        clockReadings noteLibrary unwritable (handleEvent noteLibrary startedCtx noteDeletion)
          (arrived (startRelay noteFlash) 7 unwritable) = List.replicate 3 1700000001 ∧
        (noteRecord 0).isExpired 1700000001 = false) ∧
      ¬ FailsCleanly noteLibrary startedCtx noteFlash noteDeletion := by
  have hrun : requestHandled.1 = .errStorage ∧
      live noteFlash.world.engine.visible = [noteRecord 0] ∧
      live requestHandled.2.state.storage.world.engine.visible = [] ∧
      clockReadings noteLibrary unwritable (handleEvent noteLibrary startedCtx noteDeletion)
        (arrived (startRelay noteFlash) 7 unwritable) = List.replicate 3 1700000001 ∧
      (noteRecord 0).isExpired 1700000001 = false := by
    decide +kernel
  refine ⟨hrun, fun hclean => ?_⟩
  obtain ⟨herror, hbefore, hafter, hclock, hunexpired⟩ := hrun
  unfold requestHandled at herror hafter
  obtain ⟨hunchanged, -⟩ := hclean unwritable (arrived (startRelay noteFlash) 7 unwritable) rfl
    (by rw [herror]; decide)
  have hmem : noteRecord 0 ∈ live noteFlash.world.engine.visible := by
    rw [hbefore]
    exact List.mem_singleton_self _
  rcases hunchanged.kept _ hmem with hlive | ⟨t, ht, hexpired⟩
  · rw [hafter] at hlive
    cases hlive
  · rw [hclock] at ht
    rw [List.eq_of_mem_replicate ht, hunexpired] at hexpired
    cases hexpired

end Relay
end WispRelay
