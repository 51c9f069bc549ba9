import WispRelay.Relay.Retrievable

/-!
# How often an event is broadcast

`handle_event` asks the validator to check for duplicates, which the validator does not do, and
takes `STORAGE_ERR_DUPLICATE` for a success.  An event that is live in the storage is broadcast
again each time it is published.

* `fanouts`: the events `broadcaster_fanout` is called for.  It starts with the only call of
  `sub_manager_match`.
* `fanouts_eventTrace`: a frame broadcasts at most its own event, after the checks.
* `broadcast_once_when`: while no live event is published again it is broadcast at most once.
* `resubmitted_is_broadcast`: a live event that is published again is broadcast again.
-/

namespace WispRelay
namespace Relay

open Interference Runs Storage Subscriptions

/-! ## What one event broadcasts -/

/-- The events that are broadcast. -/
def fanouts
    (t : RelayTrace) : List NostrEvent :=
  t.filterMap fun x =>
    match x with
    | ⟨.subMatch event, _⟩ => some event
    | _ => none

/-- The calls made while an event is handled. -/
def eventTrace
    (lib : Libnostr)
    (ctx : RelayCtx)
    (s : RelayState) : RelayEvent → RelayTrace
  | .frame connFd len parsed env => frameTrace lib ctx s connFd len parsed env
  | _ => []

/-- The relay when the rate limiter has checked an EVENT message. -/
def rateChecked
    (lib : Libnostr)
    (ctx : RelayCtx)
    (s : RelayState)
    (connFd : Int32)
    (env : DispatchEnv) : Handling :=
  ((rateAllowed ctx connFd .event).run (relayCall lib env) (arrived s connFd env)).2

/-- The EVENT message has a good length, is not rate-limited, and its event is valid. -/
structure PassesChecks
    (lib : Libnostr)
    (ctx : RelayCtx)
    (s : RelayState)
    (connFd : Int32)
    (len : Nat)
    (event : NostrEvent)
    (env : DispatchEnv) : Prop where
  nonempty : 0 < len
  fits : len ≤ wsMaxFrameSize
  allowed : rateAllows ctx env s connFd .event = true
  valid : validatorCheckEvent lib (validatorConfig ctx)
    ((rateChecked lib ctx s connFd env).turns 0).now
    ((rateChecked lib ctx s connFd env).turns 1).now event = .validationOk

section Trace

variable
  {lib : Libnostr}
  {ctx : RelayCtx}

theorem fanouts_append
    (t t' : RelayTrace) :
    fanouts (t ++ t') = fanouts t ++ fanouts t' :=
  List.filterMap_append

theorem fanouts_of_calls
    {α : Type}
    {σ : Type}
    {step : (c : RelayCall) → σ → c.Ret × σ}
    {p : RelayProg α}
    (hp : p.Calls (fun c => ∀ event, c ≠ .subMatch event))
    (s : σ) :
    fanouts (p.trace step s) = [] := by
  refine List.filterMap_eq_nil_iff.mpr ?_
  rintro ⟨c, r⟩ hx
  have hcall := hp.of_trace hx
  cases c with
  | subMatch event => exact absurd rfl (hcall event)
  | _ => rfl

variable (lib ctx) in
/-- Before the broadcast nothing is broadcast. -/
theorem fanouts_before
    (env : DispatchEnv)
    (event : NostrEvent)
    (h h' : Handling) :
    fanouts ((processDeletion lib ctx event).trace (relayCall lib env) h) = [] ∧
      fanouts ((storeEvent lib ctx event).trace (relayCall lib env) h') = [] :=
  ⟨fanouts_of_calls (calls_processDeletion (by simp) (by simp) (by simp) (by simp) event) h,
    fanouts_of_calls (calls_storeEvent (by simp)) h'⟩

/-- The broadcaster asks for the matching subscriptions once. -/
theorem fanouts_broadcasterFanout
    (env : DispatchEnv)
    (event : NostrEvent)
    (h : Handling) :
    fanouts ((broadcasterFanout lib ctx event).trace (relayCall lib env) h) =
      if ctx.subManager then [event] else [] := by
  cases hmgr : ctx.subManager with
  | false =>
      rw [broadcasterFanout, hmgr]
      rfl
  | true =>
      have hsends : (sendToAll lib event (subManagerMatch lib h.state.subManager event)).Calls
          (fun c => ∀ event, c ≠ .subMatch event) := by
        refine Prog.Calls.forEach fun key _ => ?_
        exact Prog.Calls.bind (calls_routerSendEvent (by simp) (by simp)) fun _ => trivial
      have ht : (broadcasterFanout lib ctx event).trace (relayCall lib env) h =
          ⟨.subMatch event, subManagerMatch lib h.state.subManager event⟩ ::
            (sendToAll lib event (subManagerMatch lib h.state.subManager event)).trace
              (relayCall lib env) (relayCall lib env (.subMatch event) h).2 := by
        rw [broadcasterFanout, hmgr]
        rfl
      rw [ht]
      exact congrArg (event :: ·) (fanouts_of_calls hsends _)

/-- A valid event is broadcast when it is accepted, and no event otherwise. -/
theorem fanouts_handleEvent
    (env : DispatchEnv)
    (event : NostrEvent)
    (h : Handling) :
    fanouts ((handleEvent lib ctx event).trace (relayCall lib env) h) =
      if ((handleEvent lib ctx event).run (relayCall lib env) h).1 = .ok ∧ ctx.subManager then
        [event]
      else [] := by
  by_cases hok : ((handleEvent lib ctx event).run (relayCall lib env) h).1 = .ok
  · obtain ⟨hdeletion, hstore⟩ := fanouts_before lib ctx env event
      (clockRead lib env h) (processed lib ctx env event h)
    rw [(handleEvent_accepted hok).calls, fanouts_append, fanouts_append, fanouts_append,
      hdeletion, hstore, fanouts_broadcasterFanout]
    simp only [hok, true_and]
    rfl
  · rw [if_neg fun hboth => hok hboth.1]
    cases handleEvent_refused hok with
    | invalid _ _ hcalls =>
        rw [hcalls]
        rfl
    | notStored _ _ _ hcalls =>
        obtain ⟨hdeletion, hstore⟩ := fanouts_before lib ctx env event
          (clockRead lib env h) (processed lib ctx env event h)
        rw [hcalls, fanouts_append, fanouts_append, hdeletion, hstore]
        rfl

/-- The handling of an EVENT message that passes the first two checks. -/
theorem fanouts_eventFrame
    {s : RelayState}
    {connFd : Int32}
    {len : Nat}
    {env : DispatchEnv}
    (event : NostrEvent)
    (hlen : 0 < len ∧ len ≤ wsMaxFrameSize) :
    fanouts (frameTrace lib ctx s connFd len (some (.event event)) env) =
      if rateAllows ctx env s connFd .event = true then
        fanouts ((handleEvent lib ctx event).trace (relayCall lib env)
          (rateChecked lib ctx s connFd env))
      else [] := by
  have hmessage : onWsMessage lib ctx connFd len (some (.event event)) =
      routerDispatch lib ctx connFd (.event event) := by
    have hsize : (decide (len = 0) || decide (wsMaxFrameSize < len)) = false := by
      simp only [Bool.or_eq_false_iff, decide_eq_false_iff_not]
      omega
    rw [onWsMessage, hsize]
    rfl
  obtain ⟨hrate, -⟩ := run_rateAllowed lib ctx env connFd .event (arrived s connFd env)
  have hcheck : fanouts ((rateAllowed ctx connFd .event).trace (relayCall lib env)
      (arrived s connFd env)) = [] :=
    fanouts_of_calls (calls_rateAllowed ctx connFd .event (by simp)) _
  have hreply : ∀ (accepted : Bool) (text : String) (h : Handling),
      fanouts ((do
        let _ ← routerSendOk lib connFd (lib.bytesToHex event.id.toList) accepted text
        pure () : RelayProg Unit).trace (relayCall lib env) h) = [] :=
    fun accepted text h => fanouts_of_calls (calls_sendOk (by simp)) h
  rw [frameTrace, hmessage, routerDispatch, Prog.trace_bind, fanouts_append, hcheck,
    List.nil_append, hrate]
  change fanouts (Prog.trace _ (if (!rateAllows ctx env s connFd .event) = true then _ else _) _) = _
  cases rateAllows ctx env s connFd .event with
  | false => exact hreply _ _ _
  | true =>
      simp only [Bool.not_true, Bool.false_eq_true, if_false, if_true]
      rw [Prog.trace_bind, fanouts_append, hreply, List.append_nil]
      rfl

/-- Any other event broadcasts nothing. -/
theorem fanouts_other
    (s : RelayState)
    {event : RelayEvent}
    (hother : ∀ connFd len note env, event ≠ .frame connFd len (some (.event note)) env) :
    fanouts (eventTrace lib ctx s event) = [] := by
  cases event with
  | frame connFd len parsed env =>
      refine fanouts_of_calls ?_ (arrived s connFd env)
      unfold onWsMessage
      split
      · trivial
      cases parsed with
      | none => exact calls_sendNotice (by simp)
      | some msg =>
          cases msg with
          | event note => exact absurd rfl (hother connFd len note env)
          | req subId filters =>
              exact calls_dispatchReq (by simp) (by simp) filters (by simp) (by simp) (by simp)
          | close subId =>
              refine Prog.Calls.bind ?_ fun _ => calls_sendClosed (by simp)
              unfold handleClose
              split
              · exact Prog.Calls.perform (by simp)
              · trivial
          | auth => exact calls_sendNotice (by simp)
          | other => exact calls_sendNotice (by simp)
  | _ => rfl

variable (lib ctx) in
/-- An event broadcasts nothing, or it is an EVENT message whose event passes the checks. -/
theorem fanouts_eventTrace
    (s : RelayState)
    (event : RelayEvent) :
    fanouts (eventTrace lib ctx s event) = [] ∨
      ∃ connFd len note env, event = .frame connFd len (some (.event note)) env ∧
        PassesChecks lib ctx s connFd len note env ∧
        fanouts (eventTrace lib ctx s event) = [note] := by
  by_cases hother : ∀ connFd len note env, event ≠ .frame connFd len (some (.event note)) env
  · exact Or.inl (fanouts_other s hother)
  push Not at hother
  obtain ⟨connFd, len, note, env, rfl⟩ := hother
  by_cases hlen : 0 < len ∧ len ≤ wsMaxFrameSize
  · rw [eventTrace, fanouts_eventFrame note hlen, fanouts_handleEvent]
    by_cases hallowed : rateAllows ctx env s connFd .event = true
    · rw [if_pos hallowed]
      split
      · rename_i hok
        exact Or.inr ⟨connFd, len, note, env, rfl,
          ⟨hlen.1, hlen.2, hallowed, (handleEvent_accepted hok.1).valid⟩, rfl⟩
      · exact Or.inl rfl
    · exact Or.inl (if_neg hallowed)
  · left
    have hskipped : onWsMessage lib ctx connFd len (some (.event note)) = pure () := by
      rw [onWsMessage, if_pos]
      simp only [Bool.or_eq_true, decide_eq_true_eq]
      omega
    rw [eventTrace, frameTrace, hskipped]
    rfl

end Trace

/-! ## Runs -/

/-- The events broadcast in a run. -/
def broadcasts
    (lib : Libnostr)
    (ctx : RelayCtx) : RelayState → List RelayEvent → List NostrEvent
  | _, [] => []
  | s, event :: rest =>
      fanouts (eventTrace lib ctx s event) ++ broadcasts lib ctx (relayStep lib ctx s event) rest

/-- How often an event with the identifier is broadcast in a run. -/
def broadcastCount
    (lib : Libnostr)
    (ctx : RelayCtx)
    (s : RelayState)
    (events : List RelayEvent)
    (eventId : Bytes32) : Nat :=
  (broadcasts lib ctx s events).countP (fun event => event.id == eventId)

/-- Some live record has the identifier. -/
def LiveIn
    (eventId : Bytes32)
    (s : RelayState) : Prop :=
  ∃ e ∈ live s.storage.world.engine.visible, e.eventId = eventId

/-- While an identifier is live an event with it is broadcast at most once. -/
def BroadcastOnce
    (lib : Libnostr)
    (ctx : RelayCtx)
    (start : RelayState)
    (events : List RelayEvent) : Prop :=
  ∀ past mid, past ++ mid <+: events → ∀ eventId,
    (∀ front, front ≠ [] → front <+: mid → LiveIn eventId (afterEvents lib ctx start (past ++ front))) →
    broadcastCount lib ctx (afterEvents lib ctx start past) mid eventId ≤ 1

/-- An event that passes the checks although a live record has its identifier. -/
def Resubmits
    (lib : Libnostr)
    (ctx : RelayCtx)
    (s : RelayState) : RelayEvent → Prop
  | .frame connFd len (some (.event event)) env =>
      PassesChecks lib ctx s connFd len event env ∧ LiveIn event.id s
  | _ => False

section Run

variable
  {lib : Libnostr}
  {ctx : RelayCtx}

theorem broadcasts_snoc
    (events : List RelayEvent)
    (event : RelayEvent) :
    ∀ s, broadcasts lib ctx s (events ++ [event]) =
      broadcasts lib ctx s events ++
        fanouts (eventTrace lib ctx (afterEvents lib ctx s events) event) := by
  induction events with
  | nil =>
      intro s
      simp [broadcasts]
  | cons first rest ih =>
      intro s
      rw [List.cons_append, broadcasts, ih, broadcasts, List.append_assoc]
      rfl

variable (lib ctx) in
/-- One event broadcasts an identifier once, and not at all when it is live and not resubmitted. -/
theorem countP_fanouts
    (s : RelayState)
    (event : RelayEvent)
    (eventId : Bytes32) :
    (fanouts (eventTrace lib ctx s event)).countP (fun event => event.id == eventId) ≤ 1 ∧
      (LiveIn eventId s → ¬ Resubmits lib ctx s event →
        (fanouts (eventTrace lib ctx s event)).countP (fun event => event.id == eventId) = 0) := by
  rcases fanouts_eventTrace lib ctx s event with
    hnone | ⟨connFd, len, note, env, rfl, hpasses, hnote⟩
  · rw [hnone]
    exact ⟨Nat.zero_le 1, fun _ _ => rfl⟩
  · rw [hnote]
    refine ⟨List.countP_le_length, fun hlive hnot => ?_⟩
    rw [List.countP_singleton, if_neg]
    intro hid
    rw [← beq_iff_eq.mp hid] at hlive
    exact hnot ⟨hpasses, hlive⟩

end Run

/--
**An event is broadcast once while it is live**, in every run in which no event that passes the
checks has the identifier of a live record.
-/
theorem broadcast_once_when
    (lib : Libnostr)
    (ctx : RelayCtx)
    (start : RelayState)
    (events : List RelayEvent)
    (hfresh : Admits (relayMachine lib ctx) (fun s event => ¬ Resubmits lib ctx s event) start
      events) :
    BroadcastOnce lib ctx start events := by
  intro past mid
  induction mid using List.reverseRecOn with
  | nil =>
      intro _ eventId _
      exact Nat.zero_le 1
  | append_singleton front last ih =>
      intro hupto eventId hlive
      rw [← List.append_assoc] at hupto
      have hfront := ih ((List.prefix_append _ [last]).trans hupto) eventId
        fun xs hne hxs => hlive xs hne (hxs.trans (List.prefix_append front [last]))
      obtain ⟨hone, hnone⟩ := countP_fanouts lib ctx
        (afterEvents lib ctx start (past ++ front)) last eventId
      have hstate : afterEvents lib ctx (afterEvents lib ctx start past) front =
          afterEvents lib ctx start (past ++ front) :=
        (finalState_append _ _ _ _).symm
      rw [broadcastCount, broadcasts_snoc, List.countP_append, hstate]
      by_cases hempty : front = []
      · subst hempty
        simpa [broadcasts] using hone
      · rw [hnone (hlive front hempty (List.prefix_append front [last]))
          (hfresh (past ++ front) last hupto)]
        exact hfront

instance (eventId : Bytes32) (s : RelayState) : Decidable (LiveIn eventId s) :=
  inferInstanceAs (Decidable (∃ e ∈ _, _))

/-- Two clients connect, and the first publishes a note. -/
def publishedNote : List RelayEvent :=
  [ .opened 7,
    .opened 8,
    frameOfSeven (.event (Sample.numbered 0)) ]

theorem broadcast_once_when_note :
    BroadcastOnce (Sample.library (Sample.notes 1)) startedCtx freshRelay publishedNote := by
  refine broadcast_once_when (Sample.library (Sample.notes 1)) startedCtx freshRelay publishedNote
    (Admits.of_get ?_)
  intro i
  fin_cases i
  · exact id
  · exact id
  · have hnew : ¬ LiveIn (Sample.numbered 0).id freshRelay := by
      decide +kernel
    exact fun hagain => hnew hagain.2

/-- The second client publishes the same note. -/
def publishedAgain : RelayEvent :=
  .frame 8 100 (some (.event (Sample.numbered 0))) (DispatchEnv.undisturbed 1700000001)

/-- The note is live all the time and is broadcast twice. -/
theorem note_is_broadcast_twice :
    broadcastCount (Sample.library (Sample.notes 1)) startedCtx
        (afterEvents (Sample.library (Sample.notes 1)) startedCtx freshRelay
          [.opened 7, .opened 8])
        [frameOfSeven (.event (Sample.numbered 0)), publishedAgain] (Sample.numbered 0).id = 2 ∧
      ¬ BroadcastOnce (Sample.library (Sample.notes 1)) startedCtx freshRelay
        (publishedNote ++ [publishedAgain]) := by
  have htwice : broadcastCount (Sample.library (Sample.notes 1)) startedCtx
      (afterEvents (Sample.library (Sample.notes 1)) startedCtx freshRelay
        [.opened 7, .opened 8])
      [frameOfSeven (.event (Sample.numbered 0)), publishedAgain] (Sample.numbered 0).id = 2 := by
    decide +kernel
  have hlive : LiveIn (Sample.numbered 0).id
        (afterEvents (Sample.library (Sample.notes 1)) startedCtx freshRelay publishedNote) ∧
      LiveIn (Sample.numbered 0).id
        (afterEvents (Sample.library (Sample.notes 1)) startedCtx freshRelay
          (publishedNote ++ [publishedAgain])) := by
    decide +kernel
  refine ⟨htwice, fun honce => ?_⟩
  have hcount := honce [.opened 7, .opened 8]
    [frameOfSeven (.event (Sample.numbered 0)), publishedAgain] List.prefix_rfl
    (Sample.numbered 0).id ?_
  · rw [htwice] at hcount
    exact absurd hcount (by decide)
  · rintro front hne ⟨rest, hrest⟩
    match front, hne, hrest with
    | [x], _, hrest =>
        obtain ⟨rfl, -⟩ := List.cons.inj hrest
        exact hlive.1
    | [x, y], _, hrest =>
        obtain ⟨rfl, htail⟩ := List.cons.inj hrest
        obtain ⟨rfl, -⟩ := List.cons.inj htail
        exact hlive.2
    | x :: y :: z :: more, _, hrest => simp at hrest

/-! ## Events that are published again -/

/--
A live event that is published again is broadcast again: the save finds the record, and its
result is taken for a success.
-/
theorem resubmitted_is_broadcast
    {lib : Libnostr}
    {ctx : RelayCtx}
    (hstorage : ctx.storage = true)
    (hmgr : ctx.subManager = true)
    {s : RelayState}
    (hinit : s.storage.world.engine.initialized = true)
    {connFd : Int32}
    {len : Nat}
    {event : NostrEvent}
    {env : DispatchEnv}
    (hpasses : PassesChecks lib ctx s connFd len event env)
    (hlive : LiveIn event.id s)
    (hkind : event.kind ≠ nostrKindDeletion)
    (hquiet : ∀ n, (env.turns n).cleanup = []) :
    fanouts (eventTrace lib ctx s (.frame connFd len (some (.event event)) env)) = [event] := by
  let h := rateChecked lib ctx s connFd env
  have hturns : ∀ n, (h.turns n).cleanup = [] :=
    turns_keep (h := arrived s connFd env) (rateAllowed ctx connFd .event)
      (T := fun turn => turn.cleanup = []) hquiet
  have hsame : h.state.storage = s.storage := by
    change ((rateAllowed ctx connFd .event).run _ (arrived s connFd env)).2.state.storage = _
    unfold rateAllowed
    cases ctx.rateLimiter <;> rfl
  have hnone : processed lib ctx env event h = clockRead lib env h := by
    rw [processed, processDeletion, if_neg]
    · rfl
    · simp [hkind]
  have hstored : (storedThen lib ctx env event h).1 = true := by
    cases hephemeral : lib.kindIsEphemeral event.kind with
    | true =>
        rw [storedThen, storeEvent, hephemeral]
        rfl
    | false =>
        rw [storedThen_eq env event h hstorage hephemeral]
        have hw : savedOn lib ctx env event h = s.storage := by
          rw [savedOn, saveTurn, hnone]
          change afterCleanup lib h.state.storage (h.turns 2).cleanup = s.storage
          rw [hturns 2, hsame]
          rfl
        have hfound : (findIndexEntry s.storage.world.engine event.id).isSome = true := by
          rw [findIndexEntry_isSome]
          obtain ⟨e, hmem, hid⟩ := hlive
          cases hfind : foundEntry s.storage.world.engine event.id with
          | some e' => rfl
          | none => exact absurd hid (ne_of_foundEntry_eq_none hfind hmem)
        have hsave : (storageSaveEvent lib (saveTurn lib ctx env event h).storage
            s.storage.world event).1 = .duplicate := by
          rw [storageSaveEvent, hinit, hfound]
          rfl
        simp only [hw, hsave]
        rfl
  rw [eventTrace, fanouts_eventFrame event ⟨hpasses.nonempty, hpasses.fits⟩,
    if_pos hpasses.allowed, fanouts_handleEvent, if_pos]
  exact ⟨handleEvent_ok hpasses.valid hstored, hmgr⟩

end Relay
end WispRelay
