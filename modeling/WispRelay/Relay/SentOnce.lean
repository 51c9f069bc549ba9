import WispRelay.Relay.StoredEvents
import WispRelay.Storage.Capacity
import WispRelay.Storage.Refinement

/-!
# Stored events are sent once

The table of `handle_req` has room for 64 identifiers.  An event that several filters find is
sent once as long as its identifier is in the table.

* `sent_once_iff`: no event is sent twice exactly when every event that is found twice is among
  the first 64.
* `note_is_sent_twice`: with 65 notes and two filters that match them all, one is sent twice.
-/

namespace WispRelay
namespace Relay

open BoundedDedup (emit firstKeys)
open Interference Runs Storage Subscriptions

/-! ## The table -/

/-- The identifiers of the events sent. -/
def sentIds
    (t : RelayTrace) : List Bytes32 :=
  (sends t).filterMap fun sent =>
    match sent.2 with
    | .event _ event => some event.id
    | _ => none

/-- Every identifier that is found twice is among the first that fit the table. -/
abbrev TableSuffices
    (events : List NostrEvent) : Prop :=
  BoundedDedup.Suffices NostrEvent.id maxSentIds events

section Answer

variable
  {lib : Libnostr}
  {ctx : RelayCtx}
  {connFd : Int32}
  {subId : CString}
  {filters : List NostrFilter}
  {last : List (Int32 × NostrRelayMsg)}
  {t : RelayTrace}

/-- The identifiers sent are those of the events sent for the REQ. -/
theorem sentIds_of_sends
    {out : List NostrEvent}
    (hsends : sends t = out.map (eventMsg connFd subId) ++ last)
    (hlast : ∀ m ∈ last, ∀ subId event, m.2 ≠ .event subId event) :
    sentIds t = out.map NostrEvent.id := by
  have hnone : last.filterMap (fun sent : Int32 × NostrRelayMsg =>
      match sent.2 with
      | .event _ event => some event.id
      | _ => none) = [] := by
    refine List.filterMap_eq_nil_iff.mpr ?_
    rintro ⟨fd, message⟩ hm
    cases message with
    | event subId event => exact absurd rfl (hlast _ hm subId event)
    | _ => rfl
  rw [sentIds, hsends, List.filterMap_append, hnone, List.append_nil, List.filterMap_map]
  exact congrFun List.filterMap_eq_map out

theorem eoseMsgs_noEvent :
    ∀ m ∈ eoseMsgs lib connFd subId, ∀ subId event, m.2 ≠ .event subId event := by
  intro m hm
  unfold eoseMsgs at hm
  split at hm
  · rw [List.mem_singleton.mp hm]
    simp
  · cases hm

/-- A REQ that is answered sends each event once while the table suffices. -/
theorem Answered.nodup
    (h : Answered lib ctx connFd subId filters last t)
    (hlast : ∀ m ∈ last, ∀ subId event, m.2 ≠ .event subId event)
    (hsent : (mallocAnswers t).head? ≠ some false) :
    (TableSuffices (found t) → (sentIds t).Nodup) ∧
      ((∀ ok ∈ mallocAnswers t, ok = true) →
        (∀ event ∈ found t, FitsBuffer lib subId event) →
        ((sentIds t).Nodup ↔ TableSuffices (found t))) := by
  obtain ⟨out, hsends, hsub, hall⟩ := h.sends
  rw [sentIds_of_sends hsends hlast]
  have hemit : emit NostrEvent.id (reqCap t) [] (found t) =
      emit NostrEvent.id maxSentIds [] (found t) := by
    cases hanswers : mallocAnswers t with
    | nil =>
        rw [h.tried hanswers]
        rfl
    | cons ok rest =>
        rw [hanswers] at hsent
        have hok : ok = true := by simpa using hsent
        rw [reqCap, hanswers, if_pos (by rw [hok]; rfl)]
  rw [hemit] at hsub hall
  constructor
  · intro hsuffices
    exact ((BoundedDedup.nodup_emit_iff _ _ _).mpr hsuffices).sublist (hsub.map _)
  · intro hmalloc hfits
    rw [hall (fun ok hok => hmalloc ok (List.mem_of_mem_tail hok)) hfits]
    exact BoundedDedup.nodup_emit_iff _ _ _

end Answer

/-! ## Every REQ -/

section Requests

variable
  {σ : Type}
  (step : (c : RelayCall) → σ → c.Ret × σ)

/-- A program that sends no events. -/
theorem sentIds_of_calls
    {α : Type}
    {p : RelayProg α}
    (hp : p.Calls (fun c => ∀ fd subId event text, c ≠ .wsSend fd (.event subId event) text))
    (s : σ) :
    sentIds (p.trace step s) = [] := by
  refine List.filterMap_eq_nil_iff.mpr ?_
  intro m hm
  obtain ⟨⟨c, r⟩, hx, hsend⟩ := List.mem_filterMap.mp hm
  have hcall := hp.of_trace hx
  cases c with
  | wsSend fd message text =>
      obtain rfl : (fd, message) = m := by simpa using hsend
      cases message with
      | event subId event => exact absurd rfl (hcall fd subId event text)
      | _ => rfl
  | _ => cases hsend

/-- A REQ is answered, or it is refused and finds and sends nothing. -/
theorem handleReq_cases
    (lib : Libnostr)
    (ctx : RelayCtx)
    (connFd : Int32)
    (subId : CString)
    (filters : List NostrFilter)
    (s : σ) :
    let t := (handleReq lib ctx connFd subId filters).trace step s
    Answered lib ctx connFd subId filters (eoseMsgs lib connFd subId) t ∨
      found t = [] ∧ sentIds t = [] := by
  intro t
  cases hmgr : ctx.subManager with
  | false =>
      right
      have heose : handleReq lib ctx connFd subId filters = (do
          let _ ← routerSendEose lib connFd subId
          pure ()) := by
        simp [handleReq, hmgr]
      simp only [t, heose]
      exact ⟨(found_of_calls (calls_sendEose (by simp)) s).1,
        sentIds_of_calls step (calls_sendEose (by simp)) s⟩
  | true =>
      obtain ⟨err, s', hstep⟩ : ∃ (err : NostrRelayError) (s' : σ),
          step (.subAdd connFd subId filters) s = (err, s') := ⟨_, _, rfl⟩
      by_cases hok : err = .ok
      · left
        refine handleReq_answered step filters s hmgr ?_
        rw [hstep, hok]
      · right
        have ht : t = ⟨.subAdd connFd subId filters, err⟩ ::
            (if err ≠ .ok then do
                let _ ← routerSendClosed lib connFd subId "error: too many subscriptions"
                pure ()
              else do
                queryStored lib ctx connFd subId filters
                let _ ← routerSendEose lib connFd subId
                pure () : RelayProg Unit).trace step s' := by
          simp only [t, handleReq, hmgr, Bool.not_true, Bool.false_eq_true, if_false]
          exact Prog.trace_perform_bind step hstep _
        rw [ht, if_pos hok]
        exact ⟨(found_of_calls (calls_sendClosed (by simp)) s').1,
          sentIds_of_calls step (calls_sendClosed (by simp)) s'⟩

/-- No REQ sends an event twice while the table suffices. -/
theorem handleReq_nodup
    (lib : Libnostr)
    (ctx : RelayCtx)
    (connFd : Int32)
    (subId : CString)
    (filters : List NostrFilter)
    (s : σ) :
    let t := (handleReq lib ctx connFd subId filters).trace step s
    (mallocAnswers t).head? ≠ some false →
      (TableSuffices (found t) → (sentIds t).Nodup) ∧
        ((∀ ok ∈ mallocAnswers t, ok = true) →
          (∀ event ∈ found t, FitsBuffer lib subId event) →
          ((sentIds t).Nodup ↔ TableSuffices (found t))) := by
  intro t hsent
  rcases handleReq_cases step lib ctx connFd subId filters s with hanswered | ⟨hfound, hnone⟩
  · exact hanswered.nodup eoseMsgs_noEvent hsent
  · have hempty : TableSuffices (found t) := by
      rw [hfound]
      intro k _
      exact Nat.zero_le 1
    have hnodup : (sentIds t).Nodup := by
      rw [hnone]
      exact List.nodup_nil
    exact ⟨fun _ => hnodup, fun _ _ => iff_of_true hnodup hempty⟩

end Requests

/-! ## What the queries find -/

/-- What a query finds. -/
def queryFound
    (lib : Libnostr)
    (e : CallEnv)
    (w : LoggedWorld)
    (filter : NostrFilter) : List NostrEvent :=
  let r := (storageQueryEvents lib e w.world filter (reqLimit filter)).1
  if r.1 = .storageOk then r.2 else []

/-- What the queries for some filters find, one after another. -/
def queriedInTurn
    (lib : Libnostr)
    (e : CallEnv) : LoggedWorld → List NostrFilter → List NostrEvent
  | _, [] => []
  | w, filter :: rest =>
      queryFound lib e w filter ++
        queriedInTurn lib e (afterOp lib w ⟨.query filter (reqLimit filter), e⟩) rest

/-- The cleanup task does nothing, and the storage finds the same environment in every call. -/
def Steady
    (e : CallEnv)
    (h : Handling) : Prop :=
  ∀ n, (h.turns n).cleanup = [] ∧ (h.turns n).storage = e

section Steady

variable
  {lib : Libnostr}
  {env : DispatchEnv}
  {e : CallEnv}
  {connFd : Int32}
  {subId : CString}

variable (lib env) in
/-- Only calls of the storage engine change the storage. -/
theorem steady_run
    {α : Type}
    {p : RelayProg α}
    (hp : p.Calls (fun c => ∀ call, c ≠ .storage call))
    {h : Handling}
    (hsteady : Steady e h) :
    Steady e (p.run (relayCall lib env) h).2 ∧
      (p.run (relayCall lib env) h).2.state.storage = h.state.storage := by
  refine Prog.run_keeps
    (I := fun h' : Handling => Steady e h' ∧ h'.state.storage = h.state.storage) ?_ hp
    ⟨hsteady, rfl⟩
  rintro c h' hc ⟨hsteady', hsame⟩
  refine ⟨fun n => hsteady' (n + 1), ?_⟩
  cases c with
  | storage call => exact absurd rfl (hc call)
  | _ => exact hsame

theorem sendStored_found
    (filters : List NostrFilter) :
    ∀ (sent : Option (List Bytes32)) (h : Handling), Steady e h →
      found ((sendStored lib connFd subId filters sent).trace (relayCall lib env) h) =
        queriedInTurn lib e h.state.storage filters := by
  induction filters with
  | nil =>
      intro sent h _
      rfl
  | cons filter rest ih =>
      intro sent h hsteady
      let w := h.state.storage
      let r : StorageError × List NostrEvent :=
        (storageQueryEvents lib e w.world filter (reqLimit filter)).1
      let h' : Handling :=
        { state := { h.state with storage := afterOp lib w ⟨.query filter (reqLimit filter), e⟩ }
          turns := fun n => h.turns (n + 1) }
      have hstep : relayCall lib env (.storage (.query filter (reqLimit filter))) h =
          (r, h') := by
        obtain ⟨hcleanup, henv⟩ := hsteady 0
        simp only [relayCall, relayEffect, hcleanup, henv, afterCleanup, List.foldl_nil]
        rfl
      have ht : (sendStored lib connFd subId (filter :: rest) sent).trace (relayCall lib env) h =
          ⟨.storage (.query filter (reqLimit filter)), r⟩ ::
          (if r.1 = .storageOk then do
            let sent ← sendEvents lib connFd subId r.2 sent
            sendStored lib connFd subId rest sent
          else sendStored lib connFd subId rest sent).trace (relayCall lib env) h' :=
        Prog.trace_perform_bind _ hstep _
      have hsteady' : Steady e h' := fun n => hsteady (n + 1)
      have hquery : ∀ t : RelayTrace,
          found (⟨.storage (.query filter (reqLimit filter)), r⟩ :: t) =
            queryFound lib e w filter ++ found t := fun _ => rfl
      rw [ht, hquery, queriedInTurn]
      congr 1
      split
      · have hsends : (sendEvents lib connFd subId r.2 sent).Calls
            (fun c => (∀ call, c ≠ .storage call)) :=
          calls_sendEvents (by simp) r.2 (by simp) sent
        obtain ⟨hnext, hsame⟩ := steady_run lib env hsends hsteady'
        have hquiet : (sendEvents lib connFd subId r.2 sent).Calls
            (fun c => ∀ filter limit, c ≠ .storage (.query filter limit)) :=
          hsends.mono fun c hc filter limit => hc _
        have hnone : found ((sendEvents lib connFd subId r.2 sent).trace (relayCall lib env) h') =
            [] := (found_of_calls hquiet h').1
        rw [Prog.trace_bind, found_append, hnone, List.nil_append, ih _ _ hnext, hsame]
      · exact ih sent h' hsteady'

/-- An accepted REQ finds what its queries find one after another. -/
theorem handleReq_found
    {ctx : RelayCtx}
    (hmgr : ctx.subManager = true)
    (hstorage : ctx.storage = true)
    {filters : List NostrFilter}
    {h : Handling}
    (hsteady : Steady e h)
    (hadd : (subManagerAdd env.copies h.state.subManager connFd subId filters).1 = .ok) :
    found ((handleReq lib ctx connFd subId filters).trace (relayCall lib env) h) =
      queriedInTurn lib e h.state.storage filters := by
  let added : Handling := (relayCall lib env (.subAdd connFd subId filters) h).2
  have hstep : relayCall lib env (.subAdd connFd subId filters) h = (NostrRelayError.ok, added) :=
    Prod.ext hadd rfl
  have ht : (handleReq lib ctx connFd subId filters).trace (relayCall lib env) h =
      ⟨.subAdd connFd subId filters, NostrRelayError.ok⟩ ::
      (do
        queryStored lib ctx connFd subId filters
        let _ ← routerSendEose lib connFd subId
        pure () : RelayProg Unit).trace (relayCall lib env) added := by
    simp only [handleReq, hmgr, Bool.not_true, Bool.false_eq_true, if_false]
    exact Prog.trace_perform_bind _ hstep _
  let ready : Handling := (relayCall lib env .malloc added).2
  have hready : Steady e ready := fun n => hsteady (n + 2)
  have hquery : ∃ sent, (queryStored lib ctx connFd subId filters).trace (relayCall lib env) added =
      ⟨.malloc, (added.turns 0).mallocOk⟩ ::
        (sendStored lib connFd subId filters sent).trace (relayCall lib env) ready := by
    rw [queryStored, if_pos hstorage]
    exact ⟨_, Prog.trace_perform_bind _ rfl _⟩
  obtain ⟨sent, hquery⟩ := hquery
  have hfound : ∀ (x : (c : RelayCall) × c.Ret) (t : RelayTrace),
      (∀ filter limit, x.1 ≠ .storage (.query filter limit)) → found (x :: t) = found t := by
    rintro ⟨c, r⟩ t hx
    cases c with
    | storage call =>
        cases call with
        | query filter limit => exact absurd rfl (hx filter limit)
        | _ => rfl
    | _ => rfl
  rw [ht, hfound _ _ (by simp), Prog.trace_bind, found_append,
    (found_of_calls (calls_sendEose (by simp)) _).1, List.append_nil, hquery,
    hfound _ _ (by simp), sendStored_found filters sent ready hready]
  rfl

end Steady

/--
**No stored event is sent twice exactly when the table suffices.**  For every REQ, from every
state the storage can reach with no NVS call failing before a restart: what is found more than once
has to be among the first 64.
-/
theorem sent_once_iff
    (lib : Libnostr)
    (hlib : lib.StorageLaws)
    (hcut : lib.TruncationLaw)
    {size : NostrRelayMsg → Nat}
    (hsizes : lib.MessageSizes size)
    (capacity : Nat)
    (ttl : UInt32)
    (hcapacity : capacity ≤ storageIndexEntries)
    (past : List FlashOp)
    (hdurable : Durable capacity past)
    (hsaves : flashSaves past < 2 ^ 32)
    (ctx : RelayCtx)
    (connFd : Int32)
    {subId : CString}
    (hid : subId.length ≤ routerMaxSubId)
    (filters : List NostrFilter)
    (env : DispatchEnv)
    {h : Handling}
    (hstorage : h.state.storage =
      finalState (flashStep lib) (erasedFlash capacity ttl hcapacity) past)
    (hsent : (mallocAnswers
      ((handleReq lib ctx connFd subId filters).trace (relayCall lib env) h)).head? ≠ some false) :
    let t := (handleReq lib ctx connFd subId filters).trace (relayCall lib env) h
    (TableSuffices (found t) → (sentIds t).Nodup) ∧
      ((∀ ok ∈ mallocAnswers t, ok = true) → ((sentIds t).Nodup ↔ TableSuffices (found t))) ∧
      (∀ e, Steady e h → ctx.subManager = true → ctx.storage = true →
        (subManagerAdd env.copies h.state.subManager connFd subId filters).1 = .ok →
        found t = queriedInTurn lib e h.state.storage filters) := by
  intro t
  obtain ⟨honly, hiff⟩ := handleReq_nodup (relayCall lib env) lib ctx connFd subId filters h hsent
  have hattributed : Attributed lib h.state.storage := by
    rw [hstorage]
    exact attributed_of_run lib ttl hcapacity past hdurable hsaves
  refine ⟨honly, fun hmalloc => hiff hmalloc ?_, ?_⟩
  · intro event hevent
    refine StoredIn.fitsBuffer hlib hsizes (found_storedIn hlib hcut env ?_ hattributed.dwindled
      hevent) hid
    exact calls_handleReq (by simp) filters (by simp) (by simp) (by simp)
  · intro e hsteady hmgr hstore hadd
    exact handleReq_found hmgr hstore hsteady hadd

/-- Two filters that both find two notes. -/
theorem sent_once_iff_overlapping :
    let lib := Sample.library (Sample.notes 2)
    let past : List FlashOp := [saveNote 0, saveNote 1]
    let filters : List NostrFilter := [{}, { kinds := [1] }]
    let s := startRelay
      (finalState (flashStep lib) (erasedFlash 1000 1814400 (by decide)) past)
    let env := DispatchEnv.undisturbed 1700000001
    let h := arrived s 7 env
    let t := (handleReq lib startedCtx 7 (ascii "feed") filters).trace (relayCall lib env) h
    (found t).length = 4 ∧ (TableSuffices (found t) → (sentIds t).Nodup) ∧
      ((∀ ok ∈ mallocAnswers t, ok = true) → ((sentIds t).Nodup ↔ TableSuffices (found t))) ∧
      (∀ e, Steady e h → startedCtx.subManager = true → startedCtx.storage = true →
        (subManagerAdd env.copies h.state.subManager 7 (ascii "feed") filters).1 = .ok →
        found t = queriedInTurn lib e h.state.storage filters) := by
  intro lib past filters s env h t
  have hids := Sample.notes_ids_nodup (n := 2) (by decide)
  exact ⟨by decide +kernel, sent_once_iff lib (Sample.library_storageLaws hids)
    (Sample.library_truncationLaw hids) (Sample.library_messageSizes _) 1000 1814400 (by decide)
    past (durable_of_runs 1000 (by simp [past, saveNote, FlashOp.isRestart])) (by decide) startedCtx
    7 (by decide) filters env (by rfl) (by decide +kernel)⟩

/-! ## Sixty-five notes -/

section Notes

variable
  {lib : Libnostr}

/-- The item of a note. -/
def noteItem
    (lib : Libnostr)
    (n : Nat) : Item :=
  newItem lib (CallEnv.undisturbed 1700000000) 1814400 (Sample.numbered n)

/-- The notes as a list of items. -/
def noteList
    (lib : Libnostr)
    (n : Nat) : AbstractStore where
  items := (List.range n).map (noteItem lib)
  slots := n

/-- The storage after runs of operations on an erased flash. -/
theorem world_of_runs
    (lib : Libnostr)
    {capacity : Nat}
    (ttl : UInt32)
    (hcapacity : capacity ≤ storageIndexEntries)
    (ops : List StorageOp) :
    (finalState (flashStep lib) (erasedFlash capacity ttl hcapacity) (ops.map .run)).world =
      finalState (storageStep lib) (emptyWorld capacity ttl NvsStore.erased hcapacity) ops := by
  induction ops using List.reverseRecOn with
  | nil => rfl
  | append_singleton past op ih =>
      rw [List.map_append, List.map_singleton, finalState_snoc, finalState_snoc, ← ih]
      rfl

variable (lib) in
/-- The files and the index of the store of notes are in order. -/
theorem noteStore_inv
    {n : Nat}
    (hn : n < 2 ^ 32) :
    ∃ past, StoreInv lib past (noteStore lib n).world ∧
      (past.filterMap savedEvent).length ≤ n := by
  let ops : List StorageOp := (List.range n).map fun i =>
    ⟨.save (Sample.numbered i), CallEnv.undisturbed 1700000000⟩
  have hcount : saveCount ops ≤ n := by
    have hle : saveCount ops ≤ ops.length := List.countP_le_length
    simpa [ops] using hle
  have hworld : (noteStore lib n).world =
      finalState (storageStep lib) (emptyWorld 1000 1814400 NvsStore.erased (by decide)) ops := by
    rw [← world_of_runs, noteStore, List.map_map]
    rfl
  rw [hworld]
  refine ⟨_, storeInv_run lib 1814400 NvsStore.erased (by decide) ops ?_ (by omega),
    (saved_length_le lib _ ops).trans hcount⟩
  intro op hop
  obtain ⟨i, -, rfl⟩ := List.mem_map.mp hop
  exact (CallEnv.undisturbed_succeeds _).toKeepsFiles

variable (lib) in
/-- A note that is not listed yet. -/
theorem noteList_lookup
    {n : Nat}
    (hn : n ≤ 1000) :
    (noteList lib n).lookup (Sample.numbered n).id = none := by
  refine List.find?_eq_none.mpr ?_
  intro item hitem
  obtain ⟨i, hi, rfl⟩ := List.mem_map.mp hitem
  rw [List.mem_range] at hi
  rw [beq_iff_eq]
  intro hsame
  have := Sample.numbered_id_injective (by omega) (by omega) hsame
  omega

/-- A fresh item is appended while the list may not be full. -/
theorem abstractStep_saved
    {ttl : UInt32}
    {mayAccept mayRefuse : AbstractStore → Prop}
    {store store' : AbstractStore}
    {event : NostrEvent}
    {e : CallEnv}
    {result : StorageResult}
    (h : AbstractStep lib ttl mayAccept mayRefuse store ⟨.save event, e⟩ result store')
    (hfresh : store.lookup event.id = none)
    (hroom : ¬ mayRefuse store) :
    store' = ⟨store.items ++ [newItem lib e ttl event], store.slots + 1⟩ := by
  cases h with
  | saveOk => rfl
  | saveDuplicate hlisted =>
      rw [hfresh] at hlisted
      cases hlisted
  | saveFull _ hfull => exact absurd hfull hroom

/-- The store of notes is the list of the notes. -/
theorem noteStore_refines
    {n : Nat}
    (hn : n ≤ 1000)
    (hser : ∀ i < n, (lib.eventSerialize (Sample.numbered i) storageMaxEventSize).isSome = true) :
    Refines lib 1000 1814400 (noteStore lib n).world (noteList lib n) := by
  induction n with
  | zero => exact ⟨rfl, List.length_replicate, rfl, List.Forall₂.nil, rfl⟩
  | succ n ih =>
      obtain ⟨past, hinv, -⟩ := noteStore_inv lib (n := n) (by omega)
      have hsaved : (noteStore lib (n + 1)).world = (storageStep lib (noteStore lib n).world
          ⟨.save (Sample.numbered n), CallEnv.undisturbed 1700000000⟩).2 := by
        rw [noteStore, List.range_succ, List.map_append, List.map_singleton, finalState_snoc]
        rfl
      obtain ⟨store', hstep, hrefines⟩ := simulated_save (ih (by omega) fun i hi =>
        hser i (by omega)) hinv (CallEnv.undisturbed_succeeds 1700000000) (hser n (by omega))
      rw [← hsaved] at hrefines
      have hfresh := noteList_lookup lib (n := n) (by omega)
      rw [abstractStep_saved hstep hfresh (by simp only [mayBeFull, noteList]; omega)] at hrefines
      have hnext : noteList lib (n + 1) =
          ⟨(noteList lib n).items ++ [noteItem lib n], (noteList lib n).slots + 1⟩ := by
        simp [noteList, List.range_succ]
      rw [hnext]
      exact hrefines

/-- A scan that passes every item drops none. -/
theorem scanItems_all
    {now : UInt32}
    {filter : NostrFilter}
    {limit : Nat}
    {items : List Item}
    (hroom : items.length ≤ limit)
    (hpass : ∀ item ∈ items, item.isExpired now = false ∧ item.passes lib filter = true) :
    scanItems lib now filter limit items = (items.map Item.event, items) := by
  have hall : items.filter (fun item => !item.isExpired now && item.passes lib filter) = items := by
    rw [List.filter_eq_self]
    intro item hitem
    simp [hpass item hitem]
  have hunexpired : items.filter (fun item => !item.isExpired now) = items := by
    rw [List.filter_eq_self]
    intro item hitem
    simp [hpass item hitem]
  obtain ⟨hsub, hkept⟩ := scanItems_unexpired lib now filter limit items
  refine Prod.ext ?_ ?_
  · rw [scanItems_events, hall, List.take_of_length_le hroom]
  · rw [hunexpired] at hkept
    have hle := List.length_filter_le (fun item : Item => !item.isExpired now)
      (scanItems lib now filter limit items).2
    rw [hkept] at hle
    exact hsub.eq_of_length_le hle

theorem abstractStep_queried
    {ttl : UInt32}
    {mayAccept mayRefuse : AbstractStore → Prop}
    {store store' : AbstractStore}
    {filter : NostrFilter}
    {limit : UInt16}
    {e : CallEnv}
    {r : StorageError × List NostrEvent}
    (h : AbstractStep lib ttl mayAccept mayRefuse store ⟨.query filter limit, e⟩
      ⟨.query filter limit, r⟩ store') :
    r = (.storageOk, (scanItems lib e.now filter (queryLimit limit) store.items.reverse).1) ∧
      store' = { store with items :=
        (scanItems lib e.now filter (queryLimit limit) store.items.reverse).2.reverse } := by
  cases h with
  | query => exact ⟨rfl, rfl⟩

/-- A query that every item passes returns them all, the newest first, and drops none. -/
theorem query_all
    (hlib : lib.StorageLaws)
    {capacity : Nat}
    {ttl : UInt32}
    {past : List StorageResult}
    {world : StorageWorld}
    {store : AbstractStore}
    (h : Refines lib capacity ttl world store)
    (hinv : StoreInv lib past world)
    {e : CallEnv}
    (he : e.Succeeds)
    {filter : NostrFilter}
    {limit : UInt16}
    (hroom : store.items.length ≤ queryLimit limit)
    (hpass : ∀ item ∈ store.items, item.isExpired e.now = false ∧ item.passes lib filter = true) :
    (storageQueryEvents lib e world filter limit).1 =
        (.storageOk, store.items.reverse.map Item.event) ∧
      Refines lib capacity ttl (storageQueryEvents lib e world filter limit).2 store := by
  obtain ⟨store', hstep, hrefines⟩ := simulated_query hlib h hinv he filter limit
  obtain ⟨hresult, hstore⟩ := abstractStep_queried hstep
  have hscan : scanItems lib e.now filter (queryLimit limit) store.items.reverse =
      (store.items.reverse.map Item.event, store.items.reverse) :=
    scanItems_all (by simpa using hroom) fun item hitem => hpass item (List.mem_reverse.mp hitem)
  rw [hscan] at hresult hstore
  rw [List.reverse_reverse] at hstore
  subst hstore
  exact ⟨hresult, hrefines⟩

/-- The notes, the newest first. -/
theorem noteList_events
    (n : Nat) :
    (noteList lib n).items.reverse.map Item.event = (Sample.notes n).reverse := by
  rw [List.map_reverse, noteList, List.map_map, Sample.notes]
  rfl

/-- Two filters that every note passes find all notes twice. -/
theorem queriedInTurn_notes
    (hlib : lib.StorageLaws)
    {n : Nat}
    (hn : n ≤ 100)
    (hser : ∀ i < n, (lib.eventSerialize (Sample.numbered i) storageMaxEventSize).isSome = true)
    (hpass : ∀ i < n, (noteItem lib i).isExpired 1700000001 = false ∧
      (noteItem lib i).passes lib {} = true) :
    queriedInTurn lib (CallEnv.undisturbed 1700000001) (noteStore lib n) [{}, {}] =
      (Sample.notes n).reverse ++ (Sample.notes n).reverse := by
  let e := CallEnv.undisturbed 1700000001
  let query : StorageOp := ⟨.query {} (reqLimit {}), e⟩
  obtain ⟨past, hinv, hpast⟩ := noteStore_inv lib (n := n) (by omega)
  have hrefines := noteStore_refines (n := n) (by omega) hser
  have hroom : (noteList lib n).items.length ≤ queryLimit (reqLimit {}) := by
    simp only [noteList, List.length_map, List.length_range]
    exact hn
  have hitems : ∀ item ∈ (noteList lib n).items,
      item.isExpired e.now = false ∧ item.passes lib {} = true := by
    intro item hitem
    obtain ⟨i, hi, rfl⟩ := List.mem_map.mp hitem
    exact hpass i (List.mem_range.mp hi)
  have hfinds : ∀ (w : LoggedWorld) (past : List StorageResult),
      Refines lib 1000 1814400 w.world (noteList lib n) → StoreInv lib past w.world →
      queryFound lib e w {} = (Sample.notes n).reverse ∧
        Refines lib 1000 1814400 (afterOp lib w query).world (noteList lib n) := by
    intro w past href hin
    obtain ⟨hresult, hafter⟩ :=
      query_all hlib href hin (CallEnv.undisturbed_succeeds 1700000001) hroom hitems
    refine ⟨?_, hafter⟩
    rw [queryFound, hresult, noteList_events]
    rfl
  have hinv' : StoreInv lib _ (afterOp lib (noteStore lib n) query).world :=
    StoreInv.step hinv (CallEnv.undisturbed_succeeds 1700000001).toKeepsFiles
      (by rintro event ⟨⟩)
  obtain ⟨hfirst, hrefines'⟩ := hfinds (noteStore lib n) past hrefines hinv
  obtain ⟨hsecond, -⟩ := hfinds _ _ hrefines' hinv'
  simp only [queriedInTurn, List.append_nil]
  rw [hfirst]
  exact congrArg _ hsecond

/-- The messages of a REQ with two filters that match every note. -/
def twoFilters
    (lib : Libnostr)
    (n : Nat) : RelayTrace :=
  let env := DispatchEnv.undisturbed 1700000001
  (handleReq lib startedCtx 7 (ascii "feed") [{}, {}]).trace (relayCall lib env)
    (arrived (startRelay (noteStore lib n)) 7 env)

/-- More notes than fit the table, each found twice. -/
theorem twoFilters_twice
    (hlib : lib.StorageLaws)
    (hcut : lib.TruncationLaw)
    {size : NostrRelayMsg → Nat}
    (hsizes : lib.MessageSizes size)
    {n : Nat}
    (hmany : maxSentIds < n)
    (hn : n ≤ 100)
    (hser : ∀ i < n, (lib.eventSerialize (Sample.numbered i) storageMaxEventSize).isSome = true)
    (hpass : ∀ i < n, (noteItem lib i).isExpired 1700000001 = false ∧
      (noteItem lib i).passes lib {} = true) :
    (mallocAnswers (twoFilters lib n)).head? = some true ∧
      ¬ (sentIds (twoFilters lib n)).Nodup := by
  let env := DispatchEnv.undisturbed 1700000001
  let h := arrived (startRelay (noteStore lib n)) 7 env
  have hadd : (subManagerAdd [] subManagerInit 7 (ascii "feed") [{}, {}]).1 = .ok := by
    decide +kernel
  have hfound : found (twoFilters lib n) =
      (Sample.notes n).reverse ++ (Sample.notes n).reverse := by
    rw [← queriedInTurn_notes hlib hn hser hpass]
    exact handleReq_found rfl rfl (fun _ => ⟨rfl, rfl⟩) hadd
  have hmalloc : ∀ ok ∈ mallocAnswers (twoFilters lib n), ok = true :=
    mallocAnswers_undisturbed _ fun _ => rfl
  have hanswered : Answered lib startedCtx 7 (ascii "feed") [{}, {}] _ (twoFilters lib n) :=
    handleReq_answered (relayCall lib env) [{}, {}] h rfl hadd
  have hhead : (mallocAnswers (twoFilters lib n)).head? = some true := by
    cases hanswers : mallocAnswers (twoFilters lib n) with
    | nil =>
        have hempty := congrArg List.length (hanswered.tried hanswers)
        rw [hfound] at hempty
        simp [Sample.notes, maxSentIds] at hempty hmany
        omega
    | cons ok rest =>
        rw [hmalloc ok (hanswers ▸ List.mem_cons_self)]
        rfl
  have hattributed : Attributed lib (noteStore lib n) := by
    refine attributed_of_run lib 1814400 (by decide) _ (durable_of_runs 1000 ?_) ?_
    · intro op hop
      obtain ⟨i, -, rfl⟩ := List.mem_map.mp hop
      rfl
    · have hle : flashSaves ((List.range n).map saveNote) ≤ _ := List.countP_le_length
      rw [List.length_map, List.length_range] at hle
      omega
  refine ⟨hhead, ?_⟩
  obtain ⟨-, hiff⟩ := hanswered.nodup eoseMsgs_noEvent (by rw [hhead]; simp)
  rw [hiff hmalloc, hfound]
  · refine BoundedDedup.not_suffices_of_twice _ _ ?_ ?_
    · rw [List.map_reverse]
      exact List.nodup_reverse.mpr (Sample.notes_ids_nodup (by omega))
    · simpa [Sample.notes] using hmany
  · intro event hevent
    refine StoredIn.fitsBuffer hlib hsizes (found_storedIn hlib hcut env ?_
      hattributed.dwindled (h := h) hevent) (by decide)
    exact calls_handleReq (by simp) [{}, {}] (by simp) (by simp) (by simp)

end Notes

/-- With 65 notes and two filters that match them all, a note is sent twice. -/
theorem note_is_sent_twice :
    let lib := Sample.library (Sample.notes 65)
    (mallocAnswers (twoFilters lib 65)).head? = some true ∧
      ¬ (sentIds (twoFilters lib 65)).Nodup := by
  intro lib
  have hids := Sample.notes_ids_nodup (n := 65) (by decide)
  refine twoFilters_twice (Sample.library_storageLaws hids) (Sample.library_truncationLaw hids)
    (Sample.library_messageSizes _) (by decide) (by decide) serialize_notes ?_
  intro i _
  exact ⟨rfl, rfl⟩

end Relay
end WispRelay
