import WispRelay.Relay.StoredEvents
import WispRelay.Storage.MatchingEvents

/-!
# The limit of a filter

`handle_req` copies the 32-bit limit of a filter to a 16-bit variable before it queries the
storage, so a limit counts modulo 65536.  A query returns at most 500 events, and the limit is
honoured as long as what is left of it is enough.

* `reqLimit_toNat`: what is left of a positive limit.
* `obtained_length`: how many events the query for a filter returns.
* `requested_limit_iff`: that is as many as were asked for exactly when enough is left.
-/

namespace WispRelay
namespace Relay

open Interference Runs Storage

/-! ## The query for a filter -/

/-- What is left of a positive limit in 16 bits. -/
theorem reqLimit_toNat
    {filter : NostrFilter}
    (hpos : 0 < filter.limit) :
    (reqLimit filter).toNat = filter.limit.toInt.toNat % 2 ^ 16 := by
  rw [reqLimit, if_pos hpos, UInt32.toNat_toUInt16,
    Int32.toNat_toUInt32_of_le (Int32.le_of_lt hpos)]
  rfl

/-- The stored events a query chooses from, at the time it is made. -/
def candidates
    (lib : Libnostr)
    (h : Handling)
    (filter : NostrFilter) : List NostrEvent :=
  matchingEvents lib (h.turns 0).storage
    (afterCleanup lib h.state.storage (h.turns 0).cleanup).world filter

/-- The events `handle_req` obtains from a query. -/
def obtained
    (lib : Libnostr)
    (env : DispatchEnv)
    (h : Handling)
    (filter : NostrFilter)
    (limit : UInt16) : List NostrEvent :=
  let r : StorageError × List NostrEvent :=
    (relayCall lib env (.storage (.query filter limit)) h).1
  r.2

/-- The queries `handle_req` makes, with the states they are made in. -/
def QueriesIn
    (lib : Libnostr)
    (ctx : RelayCtx)
    (connFd : Int32)
    (subId : CString)
    (filters : List NostrFilter)
    (env : DispatchEnv)
    (s : RelayState)
    (filter : NostrFilter)
    (limit : UInt16)
    (h : Handling) : Prop :=
  (RelayCall.storage (.query filter limit), h) ∈
    (handleReq lib ctx connFd subId filters).visited (relayCall lib env)
      { state := s, turns := env.turns }

/-- The storage of a relay that answers queries. -/
structure Answers
    (lib : Libnostr)
    (w : LoggedWorld) : Prop extends Attributed lib w where
  initialized : w.world.engine.initialized = true

/-- A call that saves nothing and queries with the limit of the filter. -/
def reads
    (c : RelayCall) : Prop :=
  (∀ event, c ≠ .storage (.save event)) ∧
    ∀ filter limit, c = .storage (.query filter limit) → limit = reqLimit filter

section Queries

variable
  {lib : Libnostr}
  {env : DispatchEnv}

theorem Answers.quiet
    (w : LoggedWorld)
    (op : StorageOp)
    (hquiet : ∀ event, op.call ≠ .save event)
    (h : Answers lib w) :
    Answers lib (afterOp lib w op) where
  toAttributed := h.toAttributed.quiet hquiet
  initialized := (initialized_afterOp w op).trans h.initialized

/-- The relay when `handle_req` has added a subscription and allocated its table. -/
def ready
    (lib : Libnostr)
    (env : DispatchEnv)
    (s : RelayState)
    (connFd : Int32)
    (subId : CString)
    (filters : List NostrFilter) : Handling :=
  (relayCall lib env .malloc
    (relayCall lib env (.subAdd connFd subId filters) { state := s, turns := env.turns }).2).2

/-- The first query of a REQ that is accepted. -/
theorem queriesIn_first
    {ctx : RelayCtx}
    (hmgr : ctx.subManager = true)
    (hstorage : ctx.storage = true)
    {connFd : Int32}
    {subId : CString}
    {filter : NostrFilter}
    {filters : List NostrFilter}
    {s : RelayState}
    (hadd : (Subscriptions.subManagerAdd env.copies s.subManager connFd subId
      (filter :: filters)).1 = .ok) :
    QueriesIn lib ctx connFd subId (filter :: filters) env s filter (reqLimit filter)
      (ready lib env s connFd subId (filter :: filters)) := by
  have hok : ((Perform.subManagerAdd connFd subId (filter :: filters)).run (relayCall lib env)
      { state := s, turns := env.turns }).1 = NostrRelayError.ok := hadd
  unfold QueriesIn handleReq queryStored
  simp only [hmgr, hstorage, Bool.not_true, Bool.false_eq_true, if_false, if_true]
  rw [Prog.visited_bind, if_neg (not_not_intro hok), Prog.visited_bind]
  exact List.mem_append_right _ (List.mem_append_left _
    (List.mem_cons_of_mem _ List.mem_cons_self))

/-- A query returns as many of the candidates as its limit allows. -/
theorem obtained_length
    {h : Handling}
    (hanswers : Answers lib h.state.storage)
    (hmalloc : (h.turns 0).storage.mallocOk = true)
    (filter : NostrFilter)
    (limit : UInt16) :
    (obtained lib env h filter limit).length =
      min (queryLimit limit) (candidates lib h filter).length := by
  have hswept : Answers lib (afterCleanup lib h.state.storage (h.turns 0).cleanup) :=
    quiet_afterCleanup Answers.quiet hanswers _
  have hresults := storageQueryEvents_events lib filter hmalloc
    hswept.initialized hswept.index.nodup_fileIndex limit
  have hobtained : obtained lib env h filter limit =
      (storageQueryEvents lib (h.turns 0).storage
        (afterCleanup lib h.state.storage (h.turns 0).cleanup).world filter limit).1.2 := rfl
  rw [hobtained, hresults, List.length_take, List.length_reverse]
  rfl

/-- The queries of a REQ are for its filters, with their limits, on a storage that answers. -/
theorem QueriesIn.answers
    {ctx : RelayCtx}
    {connFd : Int32}
    {subId : CString}
    {filters : List NostrFilter}
    {s : RelayState}
    (hstorage : Answers lib s.storage)
    {filter : NostrFilter}
    {limit : UInt16}
    {h : Handling}
    (hquery : QueriesIn lib ctx connFd subId filters env s filter limit h) :
    limit = reqLimit filter ∧ Answers lib h.state.storage := by
  have hcalls : (handleReq lib ctx connFd subId filters).Calls reads := by
    refine calls_handleReq (by simp [reads]) filters (by simp [reads]) (by simp [reads]) ?_
    intro filter _
    refine ⟨by simp, ?_⟩
    rintro filter' limit' heq
    cases heq
    rfl
  have hkeeps : ∀ (c : RelayCall) (h' : Handling), reads c → Answers lib h'.state.storage →
      Answers lib (relayCall lib env c h').2.state.storage :=
    fun _ _ hc hh => quiet_relayCall Answers.quiet env hc.1 hh
  obtain ⟨hcall, hanswers⟩ := Prog.visited_keeps hkeeps hcalls hstorage _ hquery
  exact ⟨hcall.2 filter limit rfl, hanswers⟩

end Queries

/-! ## Limits -/

/--
**The limit of a filter is honoured exactly when enough of it is left.**  For every query that
`handle_req` makes for a filter with a positive limit, from every state the storage can reach with
no NVS call failing before a restart, whatever the cleanup task does in between.
-/
theorem requested_limit_iff
    (lib : Libnostr)
    (capacity : Nat)
    (ttl : UInt32)
    (hcapacity : capacity ≤ storageIndexEntries)
    (past : List FlashOp)
    (hdurable : Durable capacity past)
    (hsaves : flashSaves past < 2 ^ 32)
    (ctx : RelayCtx)
    {s : RelayState}
    (hstorage : s.storage = finalState (flashStep lib) (erasedFlash capacity ttl hcapacity) past)
    (connFd : Int32)
    (subId : CString)
    (filters : List NostrFilter)
    (env : DispatchEnv)
    {filter : NostrFilter}
    {limit : UInt16}
    {h : Handling}
    (hquery : QueriesIn lib ctx connFd subId filters env s filter limit h)
    (hmalloc : (h.turns 0).storage.mallocOk = true)
    (hpos : 0 < filter.limit) :
    let asked := min (min filter.limit.toInt.toNat 500) (candidates lib h filter).length
    (obtained lib env h filter limit).length = asked ↔
      asked ≤ filter.limit.toInt.toNat % 2 ^ 16 := by
  intro asked
  have hinv := flashInv_run lib ttl hcapacity past hdurable hsaves
  have hanswers : Answers lib s.storage := by
    rw [hstorage]
    exact ⟨attributed_of_run lib ttl hcapacity past hdurable hsaves, hinv.initialized⟩
  obtain ⟨rfl, hnow⟩ := hquery.answers hanswers
  rw [obtained_length hnow hmalloc, queryLimit, reqLimit_toNat hpos]
  have hmod := Nat.mod_le filter.limit.toInt.toNat (2 ^ 16)
  simp only [asked]
  omega

/-- The storage after a note was saved. -/
def noteStorage : LoggedWorld :=
  finalState (flashStep (Sample.library (Sample.notes 1))) (erasedFlash 1000 1814400 thousandSlots)
    [.run ⟨.save (Sample.numbered 0), CallEnv.undisturbed 1700000000⟩]

/-- A relay that has started with it. -/
def noteRelay : RelayState :=
  startRelay noteStorage

/-- A limit that fits in 16 bits, and the first one that does not. -/
def tenEvents : NostrFilter where
  limit := 10

def wideLimit : NostrFilter where
  limit := 65536

theorem requested_limit_iff_ten :
    let lib := Sample.library (Sample.notes 1)
    let env := DispatchEnv.undisturbed 1700000001
    let h := ready lib env noteRelay 7 (ascii "feed") [tenEvents]
    (candidates lib h tenEvents).length = 1 ∧ (obtained lib env h tenEvents 10).length = 1 := by
  intro lib env h
  have hone : (candidates lib h tenEvents).length = 1 := by decide +kernel
  have hiff := requested_limit_iff lib 1000 1814400 thousandSlots
    [.run ⟨.save (Sample.numbered 0), CallEnv.undisturbed 1700000000⟩]
    (durable_of_runs 1000 (by simp [FlashOp.isRestart])) (by decide) startedCtx
    (s := noteRelay) (Eq.refl noteStorage) 7 (ascii "feed") [tenEvents] env
    (queriesIn_first rfl rfl (by decide +kernel)) rfl (by decide)
  refine ⟨hone, ?_⟩
  rw [hone] at hiff
  exact hiff.mpr (by decide)

/-- With a limit of 65536 the stored note is not obtained. -/
theorem wide_limit_obtains_nothing :
    let lib := Sample.library (Sample.notes 1)
    let env := DispatchEnv.undisturbed 1700000001
    let h := ready lib env noteRelay 7 (ascii "feed") [wideLimit]
    QueriesIn lib startedCtx 7 (ascii "feed") [wideLimit] env noteRelay wideLimit 0 h ∧
      (h.turns 0).storage.mallocOk = true ∧ 0 < wideLimit.limit ∧
      min (min wideLimit.limit.toInt.toNat 500) (candidates lib h wideLimit).length = 1 ∧
      obtained lib env h wideLimit 0 = [] := by
  intro lib env h
  exact ⟨queriesIn_first rfl rfl (by decide +kernel), rfl, by decide,
    by decide +kernel, by decide +kernel⟩

end Relay
end WispRelay
