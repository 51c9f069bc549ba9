import WispRelay.Library.Contracts
import WispRelay.Relay.StoredEvents
import WispRelay.Storage.AtomicSave
import WispRelay.Storage.FileOrigins

/-!
# Where the events sent to clients come from

An EVENT message carries an event that was just validated, when it is broadcast, or one read from
a file, when it answers a REQ.  Files are written for validated events only, and outlive the
relay.

* `LifeEvent`: the relay is up for a while, loses power or is stopped, and starts again.
* `Vetted`: some client published the event in a frame of the run, and the validator accepted it
  at two consecutive readings of the clock made for that frame.
* `Clean`: what every call of the handlers keeps.
* `sent_events_vetted`: every event ever sent to a client is vetted.
* `stored_events_vetted`: so is everything a query can find, and none of it is ephemeral.
-/

namespace WispRelay
namespace Relay

open Interference Runs Storage Subscriptions

/-! ## The relay over several starts -/

/-- What happens to the relay: it is up and something reaches it, or it goes down and starts. -/
inductive LifeEvent where
  | serve (event : RelayEvent)
  /-- Without a `stop` the relay loses power; else `storage_destroy` runs first. -/
  | reboot (stop : Option CallEnv) (env : InitEnv)

/-- The relay after it; `start_relay_server` passes on the retention time of the context. -/
def lifeStep
    (lib : Libnostr)
    (ctx : RelayCtx)
    (s : RelayState) : LifeEvent → RelayState
  | .serve event => relayStep lib ctx s event
  | .reboot stop env => startRelay (flashStep lib s.storage (.restart stop env ctx.maxEventAgeSec)).2

/-- The relay after a life, as a machine that returns nothing. -/
def afterLife
    (lib : Libnostr)
    (ctx : RelayCtx)
    (s : RelayState)
    (life : List LifeEvent) : RelayState :=
  finalState (fun s event => ((), lifeStep lib ctx s event)) s life

@[simp] theorem afterLife_snoc
    (lib : Libnostr)
    (ctx : RelayCtx)
    (s : RelayState)
    (life : List LifeEvent)
    (event : LifeEvent) :
    afterLife lib ctx s (life ++ [event]) = lifeStep lib ctx (afterLife lib ctx s life) event :=
  finalState_snoc _ _ _ _

/--
The event was published in a frame, and accepted by the validator when it was handled, with two
readings of the clock one after the other.
-/
def Vetted
    (lib : Libnostr)
    (ctx : RelayCtx)
    (life : List LifeEvent)
    (event : NostrEvent) : Prop :=
  ∃ connFd len env turn,
    .serve (.frame connFd len (some (.event event)) env) ∈ life ∧
      0 < len ∧ len ≤ wsMaxFrameSize ∧
      validatorCheckEvent lib (validatorConfig ctx) (env.turns turn).now
        (env.turns (turn + 1)).now event = .validationOk

/-- It may be stored as well. -/
def VettedDurable
    (lib : Libnostr)
    (ctx : RelayCtx)
    (life : List LifeEvent)
    (event : NostrEvent) : Prop :=
  Vetted lib ctx life event ∧ lib.kindIsEphemeral event.kind = false

theorem Vetted.later
    {lib : Libnostr}
    {ctx : RelayCtx}
    {life later : List LifeEvent}
    {event : NostrEvent}
    (h : Vetted lib ctx life event) :
    Vetted lib ctx (life ++ later) event := by
  obtain ⟨connFd, len, env, turn, hmem, hchecked⟩ := h
  exact ⟨connFd, len, env, turn, List.mem_append_left _ hmem, hchecked⟩

theorem VettedDurable.later
    {lib : Libnostr}
    {ctx : RelayCtx}
    {life later : List LifeEvent}
    {event : NostrEvent}
    (h : VettedDurable lib ctx life event) :
    VettedDurable lib ctx (life ++ later) event :=
  ⟨h.1.later, h.2⟩

/-! ## Calls -/

/-- Only events with the one property are sent, and only those with the other are saved. -/
def Permitted
    (P S : NostrEvent → Prop) : RelayCall → Prop
  | .wsSend _ (.event _ event) _ => P event
  | .storage (.save event) => S event
  | _ => True

/-- What was sent and what is stored has the properties. -/
structure Clean
    (lib : Libnostr)
    (P S : NostrEvent → Prop)
    (s : RelayState) : Prop where
  files : FilesOf lib (fun _ => S) s.storage.world.files
  calls : ∀ c ∈ s.ws.calls, ∀ subId event, c.message = .event subId event → P event

/-- While a frame is handled, the turns to come are those of its environment. -/
structure CleanIn
    (lib : Libnostr)
    (P S : NostrEvent → Prop)
    (env : DispatchEnv)
    (h : Handling) : Prop extends Clean lib P S h.state where
  turns : ∃ k, ∀ n, h.turns n = env.turns (k + n)

section Handlers

variable
  {lib : Libnostr}
  {ctx : RelayCtx}
  {P S : NostrEvent → Prop}
  {env : DispatchEnv}
  {connFd : Int32}
  {subId : CString}

theorem Clean.mono
    {P' S' : NostrEvent → Prop}
    {s : RelayState}
    (h : Clean lib P S s)
    (hP : ∀ event, P event → P' event)
    (hS : ∀ event, S event → S' event) :
    Clean lib P' S' s where
  files := h.files.mono fun _ => hS
  calls := fun c hc subId event hmessage => hP event (h.calls c hc subId event hmessage)

/-- The cleanup task writes no file. -/
theorem afterCleanup_filesOf
    {w : LoggedWorld}
    (h : FilesOf lib (fun _ => S) w.world.files)
    (work : List CleanupOp) :
    FilesOf lib (fun _ => S) (afterCleanup lib w work).world.files := by
  refine quiet_afterCleanup (I := fun w => FilesOf lib (fun _ => S) w.world.files) ?_ h work
  intro w' op hquiet hw'
  exact storageCall_filesOf lib op.env hw' fun event hsave => absurd hsave (hquiet event)

theorem relayCall_clean
    {c : RelayCall}
    (hc : Permitted P S c)
    {h : Handling}
    (hclean : CleanIn lib P S env h) :
    CleanIn lib P S env (relayCall lib env c h).2 where
  turns := by
    obtain ⟨k, hturns⟩ := hclean.turns
    refine ⟨k + 1, fun n => ?_⟩
    rw [show k + 1 + n = k + (n + 1) by omega]
    exact hturns (n + 1)
  files := by
    cases c with
    | storage call =>
        refine storageCall_filesOf lib _ (afterCleanup_filesOf hclean.files _) ?_
        rintro event rfl
        exact hc
    | _ => exact hclean.files
  calls := by
    cases c with
    | wsSend fd message text =>
        intro c' hc' subId event hmessage
        have hcalls : (relayCall lib env (.wsSend fd message text) h).2.state.ws.calls =
            h.state.ws.calls ++ [h.state.ws.nextCall fd message text] :=
          wsServerSend_calls _ h.state.ws fd message text
        rw [hcalls] at hc'
        rcases List.mem_append.mp hc' with hold | hnew
        · exact hclean.calls c' hold subId event hmessage
        · obtain rfl := List.mem_singleton.mp hnew
          obtain rfl : message = .event subId event := hmessage
          exact hc
    | _ => exact hclean.calls

variable (P S env) in
/-- The contract of a part of a handler. -/
abbrev Handles
    {α : Type}
    (lib : Libnostr)
    (p : RelayProg α)
    (post : α → Prop)
    (h : Handling) : Prop :=
  Prog.Meets (relayCall lib env) (fun c _ => Permitted P S c) p
    (fun a h' => post a ∧ CleanIn lib P S env h') h

/-- A program of permitted calls. -/
theorem handles_of_calls
    {α : Type}
    {p : RelayProg α}
    (hp : p.Calls (Permitted P S))
    {h : Handling}
    (hclean : CleanIn lib P S env h) :
    Handles P S env lib p (fun _ => True) h :=
  (Prog.Meets.of_calls (fun _ _ hc _ => hc) (fun _ _ hc => relayCall_clean hc) hp hclean).mono
    fun _ _ h' => ⟨trivial, h'⟩

variable
  (hlib : lib.StorageLaws)
  (hcut : lib.TruncationLaw)
  (hstored : ∀ event, S event → P event)
include hlib hcut hstored

/-- What the queries find may be sent. -/
theorem handles_sendStored
    (filters : List NostrFilter) :
    ∀ (sent : Option (List Bytes32)) {h : Handling}, CleanIn lib P S env h →
      Handles P S env lib (sendStored lib connFd subId filters sent) (fun _ => True) h := by
  induction filters with
  | nil =>
      intro sent h hclean
      exact Prog.Meets.pure ⟨trivial, hclean⟩
  | cons filter rest ih =>
      intro sent h hclean
      have hnext := relayCall_clean (c := .storage (.query filter (reqLimit filter))) trivial hclean
      have hfound : ∀ event ∈
          (relayCall lib env (.storage (.query filter (reqLimit filter))) h).1.2, P event := by
        intro event hevent
        obtain ⟨⟨-, hS⟩, -⟩ := (afterCleanup_filesOf hclean.files _).of_query hlib hcut hevent
        exact hstored event hS
      refine Prog.Meets.perform_bind trivial ?_
      dsimp only
      split
      · refine (handles_of_calls (calls_sendEvents trivial _ ?_ sent) hnext).bind ?_
        · exact fun event hevent text => hfound event hevent
        · exact fun sent' h' hclean' => ih sent' hclean'.2
      · exact ih sent hnext

theorem handles_handleReq
    (filters : List NostrFilter)
    {h : Handling}
    (hclean : CleanIn lib P S env h) :
    Handles P S env lib (handleReq lib ctx connFd subId filters) (fun _ => True) h := by
  unfold handleReq
  split
  · exact handles_of_calls (calls_sendEose fun _ => trivial) hclean
  refine Prog.Meets.perform_bind trivial ?_
  have hadded := relayCall_clean (c := .subAdd connFd subId filters) trivial hclean
  dsimp only
  split
  · exact handles_of_calls (calls_sendClosed fun _ => trivial) hadded
  refine Prog.Meets.bind (Q := fun _ h' => CleanIn lib P S env h') ?_ fun _ h' hclean' =>
    handles_of_calls (calls_sendEose fun _ => trivial) hclean'
  unfold queryStored
  split
  · refine Prog.Meets.perform_bind trivial ?_
    exact (handles_sendStored hlib hcut hstored filters _
      (relayCall_clean (c := .malloc) trivial hadded)).mono fun _ _ h' => h'.2
  · exact Prog.Meets.pure hadded

omit hlib hcut hstored in
/-- An event is saved and broadcast only when the validator accepts it. -/
theorem handles_handleEvent
    {event : NostrEvent}
    (hvalid : ∀ turn, validatorCheckEvent lib (validatorConfig ctx)
      (env.turns turn).now (env.turns (turn + 1)).now event = .validationOk →
      P event ∧ (lib.kindIsEphemeral event.kind = false → S event))
    {h : Handling}
    (hclean : CleanIn lib P S env h) :
    Handles P S env lib (handleEvent lib ctx event) (fun _ => True) h := by
  obtain ⟨k, hturns⟩ := hclean.turns
  unfold handleEvent
  refine Prog.Meets.perform_bind trivial (Prog.Meets.perform_bind trivial ?_)
  have hread := relayCall_clean (c := .timestampNow) trivial
    (relayCall_clean (c := .timestampNow) trivial hclean)
  dsimp only
  split
  · exact Prog.Meets.pure ⟨trivial, hread⟩
  rename_i haccepted
  have hchecked : validatorCheckEvent lib (validatorConfig ctx) (env.turns k).now
      (env.turns (k + 1)).now event = .validationOk := by
    have hfirst : h.turns 0 = env.turns k := hturns 0
    have hsecond : h.turns 1 = env.turns (k + 1) := hturns 1
    rw [← hfirst, ← hsecond]
    exact not_not.mp haccepted
  obtain ⟨hsend, hsave⟩ := hvalid k hchecked
  refine (handles_of_calls (calls_processDeletion trivial (fun _ => trivial)
    (fun _ _ => trivial) (fun _ => trivial) event) hread).bind fun _ h' hprocessed => ?_
  have hstore : (storeEvent lib ctx event).Calls (Permitted P S) := by
    unfold storeEvent
    split
    · rename_i hkind
      have hdurable : lib.kindIsEphemeral event.kind = false := by
        simp only [Bool.and_eq_true, Bool.not_eq_true'] at hkind
        exact hkind.1
      exact Prog.Calls.bind (Prog.Calls.perform (hsave hdurable)) fun _ => trivial
    · trivial
  refine (handles_of_calls hstore hprocessed.2).bind fun stored h'' hstored => ?_
  split
  · exact Prog.Meets.pure ⟨trivial, hstored.2⟩
  · have hfanout : (broadcasterFanout lib ctx event).Calls (Permitted P S) :=
      calls_broadcasterFanout event trivial trivial fun _ _ _ => hsend
    exact handles_of_calls (hfanout.bind fun _ => Prog.Calls.pure _) hstored.2

/-- What a message of a client makes the relay do. -/
theorem handles_routerDispatch
    {msg : RouterMsg}
    (hvalid : ∀ event, msg = .event event → ∀ turn,
      validatorCheckEvent lib (validatorConfig ctx) (env.turns turn).now
        (env.turns (turn + 1)).now event = .validationOk →
      P event ∧ (lib.kindIsEphemeral event.kind = false → S event))
    {h : Handling}
    (hclean : CleanIn lib P S env h) :
    Handles P S env lib (routerDispatch lib ctx connFd msg) (fun _ => True) h := by
  have hrate : ∀ type, (rateAllowed ctx connFd type).Calls (Permitted P S) :=
    fun type => calls_rateAllowed ctx connFd type trivial
  cases msg with
  | event event =>
      refine (handles_of_calls (hrate .event) hclean).bind fun allowed h' hallowed => ?_
      split
      · exact handles_of_calls (calls_sendOk fun _ => trivial) hallowed.2
      · exact (handles_handleEvent (hvalid event rfl) hallowed.2).bind fun result h'' hhandled =>
          handles_of_calls (calls_sendOk fun _ => trivial) hhandled.2
  | req subId filters =>
      refine (handles_of_calls (hrate .req) hclean).bind fun allowed h' hallowed => ?_
      split_ifs
      · exact handles_of_calls (calls_sendClosed fun _ => trivial) hallowed.2
      · exact handles_of_calls (calls_sendClosed fun _ => trivial) hallowed.2
      · exact handles_of_calls (calls_sendClosed fun _ => trivial) hallowed.2
      · exact handles_handleReq hlib hcut hstored filters hallowed.2
  | close subId =>
      have hclose : (handleClose ctx connFd subId).Calls (Permitted P S) := by
        unfold handleClose
        split
        · exact Prog.Calls.perform trivial
        · trivial
      exact (handles_of_calls hclose hclean).bind fun result h' hclosed =>
        handles_of_calls (calls_sendClosed fun _ => trivial) hclosed.2
  | auth => exact handles_of_calls (calls_sendNotice fun _ => trivial) hclean
  | unknown => exact handles_of_calls (calls_sendNotice fun _ => trivial) hclean
  | invalid => exact handles_of_calls (calls_sendNotice fun _ => trivial) hclean

end Handlers

/-! ## Lives -/

section Lives

variable
  {lib : Libnostr}
  (hlib : lib.StorageLaws)
  (hcut : lib.TruncationLaw)
  {ctx : RelayCtx}
include hlib hcut

/-- A frame is handled. -/
theorem frame_clean
    {life : List LifeEvent}
    {s : RelayState}
    {connFd : Int32}
    {len : Nat}
    {parsed : Option NostrClientMsg}
    {env : DispatchEnv}
    (hmem : .serve (.frame connFd len parsed env) ∈ life)
    (h : Clean lib (Vetted lib ctx life) (VettedDurable lib ctx life) s) :
    Clean lib (Vetted lib ctx life) (VettedDurable lib ctx life)
      (relayStep lib ctx s (.frame connFd len parsed env)) := by
  let P := Vetted lib ctx life
  let S := VettedDurable lib ctx life
  have harrived : CleanIn lib P S env (arrived s connFd env) :=
    { files := h.files, calls := h.calls, turns := ⟨0, fun n => by rw [Nat.zero_add]; rfl⟩ }
  have hhandles : Handles P S env lib (onWsMessage lib ctx connFd len parsed) (fun _ => True)
      (arrived s connFd env) := by
    unfold onWsMessage
    split
    · exact Prog.Meets.pure ⟨trivial, harrived⟩
    rename_i hlen
    simp only [Bool.or_eq_true, decide_eq_true_eq, not_or, Nat.not_lt] at hlen
    split
    · exact handles_of_calls (calls_sendNotice fun _ => trivial) harrived
    rename_i msg
    refine handles_routerDispatch hlib hcut (fun event hevent => hevent.1) ?_ harrived
    intro event hevent turn hchecked
    cases msg with
    | event event' =>
        obtain rfl : event' = event := RouterMsg.event.inj hevent
        have hvetted : Vetted lib ctx life event' :=
          ⟨connFd, len, env, turn, hmem, by omega, hlen.2, hchecked⟩
        exact ⟨hvetted, fun hkind => ⟨hvetted, hkind⟩⟩
    | _ => cases hevent
  exact { files := hhandles.ends.2.files, calls := hhandles.ends.2.calls }

/-- Everything that happens to the relay. -/
theorem lifeStep_clean
    {life : List LifeEvent}
    {s : RelayState}
    {event : LifeEvent}
    (hmem : event ∈ life)
    (h : Clean lib (Vetted lib ctx life) (VettedDurable lib ctx life) s) :
    Clean lib (Vetted lib ctx life) (VettedDurable lib ctx life) (lifeStep lib ctx s event) := by
  cases event with
  | reboot stop env =>
      exact { files := restart_filesOf h.files stop env _, calls := fun c hc => by cases hc }
  | serve event =>
      cases event with
      | opened connFd =>
          exact { files := h.files, calls := (openSession_calls s.ws connFd).symm ▸ h.calls }
      | closed connFd =>
          refine { files := h.files, calls := ?_ }
          exact (endSession_onClose_calls s.ws connFd).symm ▸ h.calls
      | frame connFd len parsed env => exact frame_clean hlib hcut hmem h
      | work sendOk =>
          exact { files := h.files, calls := (runQueued_calls s.ws sendOk).symm ▸ h.calls }
      | cleanup work =>
          exact { files := afterCleanup_filesOf h.files [work], calls := h.calls }

variable (ctx) in
/-- Every life, from a flash that holds no events. -/
theorem afterLife_clean
    (capacity : Nat)
    (hcapacity : capacity ≤ storageIndexEntries)
    (life : List LifeEvent) :
    Clean lib (Vetted lib ctx life) (VettedDurable lib ctx life)
      (afterLife lib ctx (startRelay (erasedFlash capacity ctx.maxEventAgeSec hcapacity)) life) := by
  induction life using List.reverseRecOn with
  | nil => exact { files := FilesOf.none, calls := fun c hc => by cases hc }
  | append_singleton life event ih =>
      rw [afterLife_snoc]
      refine lifeStep_clean hlib hcut (List.mem_append_right _ List.mem_cons_self) ?_
      exact ih.mono (fun _ h => h.later) (fun _ h => h.later)

end Lives

/--
**Clients only ever see vetted events.**  Whatever fails, in every interleaving with the cleanup
task and over any number of restarts and power cuts, an event that is handed to `ws_server_send`
was published by a client and accepted by the validator.
-/
theorem sent_events_vetted
    (lib : Libnostr)
    (hlib : lib.StorageLaws)
    (hcut : lib.TruncationLaw)
    (ctx : RelayCtx)
    (capacity : Nat)
    (hcapacity : capacity ≤ storageIndexEntries)
    (life : List LifeEvent) :
    let s := afterLife lib ctx
      (startRelay (erasedFlash capacity ctx.maxEventAgeSec hcapacity)) life
    ∀ c ∈ s.ws.calls, ∀ subId event, c.message = .event subId event →
      Vetted lib ctx life event :=
  (afterLife_clean hlib hcut ctx capacity hcapacity life).calls

/-- A note is published, the relay is stopped and starts again, and another client asks. -/
def restartedLife : List LifeEvent :=
  [ .serve (.opened 7),
    .serve (.frame 7 300 (some (.event (Sample.numbered 0))) (DispatchEnv.undisturbed 1700000000)),
    .reboot (some (CallEnv.undisturbed 1700000000)) internalStart,
    .serve (.opened 8),
    .serve (.frame 8 20 (some (.req (ascii "feed") [{}])) (DispatchEnv.undisturbed 1700000001)) ]

/-- The note that the second client gets is the one the first has published. -/
theorem sent_events_vetted_after_restart :
    let lib := Sample.library (Sample.notes 1)
    let s := afterLife lib startedCtx (startRelay (erasedFlash 1000 1814400 thousandSlots))
      restartedLife
    s.ws.calls.map SendCall.message =
        [.event (ascii "feed") (Sample.numbered 0), .eose (ascii "feed")] ∧
      Vetted lib startedCtx restartedLife (Sample.numbered 0) := by
  intro lib s
  have hids := Sample.notes_ids_nodup (n := 1) (by decide)
  have hsent : s.ws.calls.map SendCall.message =
      [.event (ascii "feed") (Sample.numbered 0), .eose (ascii "feed")] := by
    decide +kernel
  refine ⟨hsent, ?_⟩
  have hmem : NostrRelayMsg.event (ascii "feed") (Sample.numbered 0) ∈
      s.ws.calls.map SendCall.message := by
    rw [hsent]
    exact List.mem_cons_self
  obtain ⟨c, hc, hmessage⟩ := List.mem_map.mp hmem
  exact sent_events_vetted lib (Sample.library_storageLaws hids)
    (Sample.library_truncationLaw hids) startedCtx 1000 thousandSlots restartedLife c hc _ _ hmessage

/--
**What is stored is vetted and not ephemeral.**  So is everything a query can return, at any time
and with any filter.
-/
theorem stored_events_vetted
    (lib : Libnostr)
    (hlib : lib.StorageLaws)
    (hcut : lib.TruncationLaw)
    (ctx : RelayCtx)
    (capacity : Nat)
    (hcapacity : capacity ≤ storageIndexEntries)
    (life : List LifeEvent)
    (env : CallEnv)
    (filter : NostrFilter)
    (limit : UInt16) :
    let s := afterLife lib ctx
      (startRelay (erasedFlash capacity ctx.maxEventAgeSec hcapacity)) life
    ∀ event ∈ (storageQueryEvents lib env s.storage.world filter limit).1.2,
      Vetted lib ctx life event ∧ lib.kindIsEphemeral event.kind = false := by
  intro s event hevent
  have hclean := afterLife_clean hlib hcut ctx capacity hcapacity life
  obtain ⟨⟨-, hvetted⟩, -⟩ := hclean.files.of_query hlib hcut hevent
  exact hvetted

/-- The note that is found after the restart. -/
theorem stored_events_vetted_after_restart :
    let lib := Sample.library (Sample.notes 1)
    let s := afterLife lib startedCtx (startRelay (erasedFlash 1000 1814400 thousandSlots))
      restartedLife
    Sample.numbered 0 ∈ (storageQueryEvents lib (CallEnv.undisturbed 1700000002) s.storage.world
        {} 100).1.2 ∧
      Vetted lib startedCtx restartedLife (Sample.numbered 0) ∧
      lib.kindIsEphemeral (Sample.numbered 0).kind = false := by
  intro lib s
  have hids := Sample.notes_ids_nodup (n := 1) (by decide)
  have hfound : Sample.numbered 0 ∈ (storageQueryEvents lib (CallEnv.undisturbed 1700000002)
      s.storage.world {} 100).1.2 := by
    decide +kernel
  exact ⟨hfound, stored_events_vetted lib (Sample.library_storageLaws hids)
    (Sample.library_truncationLaw hids) startedCtx 1000 thousandSlots restartedLife _ {} 100 _
    hfound⟩

end Relay
end WispRelay
