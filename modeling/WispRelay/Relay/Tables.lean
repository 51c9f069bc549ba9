import WispRelay.Relay.HandlerCalls
import WispRelay.Relay.Server
import WispRelay.Subscriptions.BoundedMap

/-!
# The tables of the relay

Three tables are kept by connection: the connections, the subscriptions and the buckets of the
rate limiter.  They are changed by different callbacks, and only the disconnect callback frees
what belongs to a connection.

* `WsServer.connected` and `RateLimiter.holders`: the descriptors in the tables, and what each
  operation does to them.
* `Agree`: every subscription and every bucket belongs to a connection, and no connection has
  more than its share.
* `tables_agree`: so it is in every run, and no connection finds a table full that has not used
  up its share.
-/

namespace WispRelay
namespace Relay

open Interference Runs Storage Subscriptions
open SlotTable (entries contents UniqueKeys findSlot? findSlot?_some findSlot?_key_some
  findSlot?_key_none findSlot?_free_none)

/-! ## Connections -/

/-- The descriptor of a connection. -/
def WsConnection.read
    (conn : WsConnection) : Option (Int32 × Unit) :=
  if conn.active then some (conn.fd, ()) else none

theorem WsConnection.ofFd_eq
    (fd : Int32)
    (conn : WsConnection) :
    conn.ofFd fd = conn.read.any (fun e => decide (e.1 = fd)) := by
  cases h : conn.active <;> simp [ofFd, read, h, beq_eq_decide]

theorem WsConnection.free_eq
    (conn : WsConnection) :
    (!conn.active) = conn.read.isNone := by
  cases h : conn.active <;> simp [read, h]

/-- The descriptors of the connections. -/
def WsServer.connected
    (ws : WsServer) : Finset Int32 :=
  (contents WsConnection.read ws.connections).keys

/-- No descriptor is in two slots, and `connection_count` counts the connections. -/
structure ConnInv
    (ws : WsServer) : Prop where
  unique : UniqueKeys WsConnection.read ws.connections
  count : ws.connectionCount.toNat = ws.connected.card

section Connections

variable
  {ws : WsServer}
  {fd : Int32}

theorem ConnInv.card_eq
    (h : ConnInv ws) :
    ws.connected.card = (entries WsConnection.read ws.connections).length :=
  SlotTable.card_keys h.unique

theorem ConnInv.card_le
    (h : ConnInv ws) :
    ws.connected.card ≤ wsMaxConnections := by
  rw [h.card_eq]
  exact SlotTable.length_entries_le ws.connections

/-- `on_open` accepts a new descriptor while there are fewer than eight. -/
theorem onOpen_spec
    (h : ConnInv ws)
    (hnew : fd ∉ ws.connected) :
    ConnInv (onOpen ws fd).2 ∧
      (onOpen ws fd).1 = decide (ws.connected.card < wsMaxConnections) ∧
      (onOpen ws fd).2.connected =
        if (onOpen ws fd).1 then insert fd ws.connected else ws.connected := by
  have hfull : UInt8.ofNat wsMaxConnections ≤ ws.connectionCount ↔
      ¬ ws.connected.card < wsMaxConnections := by
    rw [UInt8.le_iff_toNat_le, h.count, Nat.not_lt]
    exact Iff.rfl
  unfold onOpen
  by_cases hroom : ws.connected.card < wsMaxConnections
  · rw [if_neg (by rw [hfull]; exact not_not_intro hroom)]
    cases hslot : findSlot? ws.connections (fun conn => !conn.active) with
    | none =>
        rw [findSlot?_free_none WsConnection.free_eq, ← h.card_eq] at hslot
        omega
    | some i =>
        have hold : ws.connections[i].read = none := by
          have hfree := findSlot?_some hslot
          rw [WsConnection.free_eq] at hfree
          exact Option.isNone_iff_eq_none.mp hfree
        obtain ⟨hunique, hcontents, hlength⟩ := h.unique.take
          (s := { fd := fd, active := true }) (k := fd) (v := ()) hold rfl
          (by rw [← Finmap.mem_keys]; exact hnew)
        have hconnected : (contents WsConnection.read
            (ws.connections.set i { fd := fd, active := true })).keys = insert fd ws.connected := by
          rw [hcontents, SlotTable.keys_insert]
          rfl
        refine ⟨⟨hunique, ?_⟩, by simp [hroom], ?_⟩
        · have hsmall := h.card_le
          rw [WsServer.connected, hconnected, Finset.card_insert_of_notMem hnew,
            UInt8.toNat_add, h.count]
          simp only [wsMaxConnections] at hroom
          exact Nat.mod_eq_of_lt (by simp; omega)
        · exact hconnected
  · rw [if_pos (hfull.mpr hroom)]
    exact ⟨h, by simp [hroom], rfl⟩

/-- `on_close` frees the slot of the descriptor, if it has one. -/
theorem onClose_spec
    (h : ConnInv ws)
    (fd : Int32) :
    ConnInv (onClose ws fd) ∧ (onClose ws fd).connected = ws.connected.erase fd := by
  unfold onClose
  cases hslot : findSlot? ws.connections (WsConnection.ofFd fd) with
  | none =>
      rw [findSlot?_key_none (WsConnection.ofFd_eq fd), ← Finmap.mem_keys] at hslot
      exact ⟨h, (Finset.erase_eq_of_notMem hslot).symm⟩
  | some i =>
      obtain ⟨v, hold⟩ := findSlot?_key_some (WsConnection.ofFd_eq fd) hslot
      obtain ⟨hunique, hcontents, hlength⟩ := h.unique.release hold
        (s := WsConnection.zero) rfl
      have hconnected : (contents WsConnection.read
          (ws.connections.set i WsConnection.zero)).keys = ws.connected.erase fd := by
        rw [hcontents, Finmap.keys_erase]
        rfl
      refine ⟨⟨hunique, ?_⟩, hconnected⟩
      have hcard : (ws.connected.erase fd).card =
          (entries WsConnection.read (ws.connections.set i WsConnection.zero)).length := by
        rw [← hconnected]
        exact SlotTable.card_keys hunique
      have hcount := h.count
      rw [h.card_eq] at hcount
      have hpos : 1 ≤ ws.connectionCount := by
        rw [UInt8.le_iff_toNat_le]
        simp
        omega
      rw [WsServer.connected, hconnected, hcard, UInt8.toNat_sub_of_le _ _ hpos]
      simp
      omega

/-- The library opens a session for a descriptor that has no slot. -/
theorem openSession_spec
    (h : ConnInv ws)
    (hnew : fd ∉ ws.connected) :
    ConnInv (openSession ws fd) ∧
      (openSession ws fd).connected =
        (if (onOpen ws fd).1 then insert fd ws.connected else ws.connected) ∧
      (openSession ws fd).sessions = Function.update ws.sessions fd
        (some { number := ws.nextSession, accepted := (onOpen ws fd).1 }) := by
  obtain ⟨hinv, -, hconnected⟩ := onOpen_spec h hnew
  obtain ⟨-, -, -, hsessions, hnext⟩ := onOpen_frame ws fd
  refine ⟨⟨hinv.unique, hinv.count⟩, hconnected, ?_⟩
  simp only [openSession, hsessions, hnext]

/-- The library ends a session after `on_close`. -/
theorem endSession_onClose_spec
    (h : ConnInv ws)
    (fd : Int32) :
    ConnInv (endSession (onClose ws fd) fd) ∧
      (endSession (onClose ws fd) fd).connected = ws.connected.erase fd ∧
      (endSession (onClose ws fd) fd).sessions = Function.update ws.sessions fd none := by
  obtain ⟨hinv, hconnected⟩ := onClose_spec h fd
  obtain ⟨-, -, -, hsessions, -⟩ := onClose_frame ws fd
  refine ⟨⟨hinv.unique, hinv.count⟩, hconnected, ?_⟩
  simp only [endSession, hsessions]

end Connections

/-! ## Messages -/

theorem writeFrame_tables
    (ws : WsServer)
    (call : SendCall) :
    (ws.writeFrame call).connections = ws.connections ∧
      (ws.writeFrame call).connectionCount = ws.connectionCount ∧
      (ws.writeFrame call).sessions = ws.sessions := by
  unfold WsServer.writeFrame
  split <;> exact ⟨rfl, rfl, rfl⟩

/-- Sending leaves the connections alone. -/
theorem wsServerSend_tables
    (env : SendEnv)
    (ws : WsServer)
    (fd : Int32)
    (message : NostrRelayMsg)
    (text : CString) :
    (wsServerSend env ws fd message text).2.connections = ws.connections ∧
      (wsServerSend env ws fd message text).2.connectionCount = ws.connectionCount ∧
      (wsServerSend env ws fd message text).2.sessions = ws.sessions := by
  unfold wsServerSend
  dsimp only
  split_ifs
  · exact writeFrame_tables _ _
  all_goals exact ⟨rfl, rfl, rfl⟩

/-- Queued work leaves the connections alone. -/
theorem runQueued_tables
    (sendOk : Bool)
    (ws : WsServer) :
    (runQueued sendOk ws).connections = ws.connections ∧
      (runQueued sendOk ws).connectionCount = ws.connectionCount ∧
      (runQueued sendOk ws).sessions = ws.sessions := by
  unfold runQueued
  split
  · exact ⟨rfl, rfl, rfl⟩
  · split
    · exact writeFrame_tables _ _
    · exact ⟨rfl, rfl, rfl⟩

/-! ## Buckets -/

/-- The connection of a bucket. -/
def RateBucket.read
    (bucket : RateBucket) : Option (Int32 × Unit) :=
  if bucket.active then some (bucket.fd, ()) else none

theorem RateBucket.ofConn_eq
    (fd : Int32)
    (bucket : RateBucket) :
    bucket.ofConn fd = bucket.read.any (fun e => decide (e.1 = fd)) := by
  cases h : bucket.active <;> simp [ofConn, read, h, beq_eq_decide]

theorem RateBucket.free_eq
    (bucket : RateBucket) :
    (!bucket.active) = bucket.read.isNone := by
  cases h : bucket.active <;> simp [read, h]

/-- Counting a message does not move the bucket to another connection. -/
theorem RateBucket.count_renew_read
    (config : RateConfig)
    (type : RateType)
    (now : UInt32)
    (bucket : RateBucket) :
    ((bucket.renew now).count config type).2.read = bucket.read := by
  have hrenew : (bucket.renew now).read = bucket.read := by
    unfold renew
    split <;> rfl
  rw [← hrenew]
  cases type with
  | event =>
      unfold count
      dsimp only
      split <;> rfl
  | req =>
      unfold count
      dsimp only
      split <;> rfl

/-- The connections with a bucket. -/
def RateLimiter.holders
    (rl : RateLimiter) : Finset Int32 :=
  (contents RateBucket.read rl.buckets).keys

/-- No connection has two buckets. -/
abbrev BucketInv
    (rl : RateLimiter) : Prop :=
  UniqueKeys RateBucket.read rl.buckets

section Buckets

variable
  {rl : RateLimiter}

theorem BucketInv.card_eq
    (h : BucketInv rl) :
    rl.holders.card = (entries RateBucket.read rl.buckets).length :=
  SlotTable.card_keys h

/-- `get_bucket` finds a bucket unless all are taken by other connections. -/
theorem getBucket_spec
    (h : BucketInv rl)
    (now : UInt32)
    (fd : Int32) :
    BucketInv (getBucket now rl fd).2 ∧
      (getBucket now rl fd).2.holders ⊆ insert fd rl.holders ∧
      ((getBucket now rl fd).1 = none → fd ∉ rl.holders ∧
        rateLimiterMaxBuckets ≤ rl.holders.card) := by
  unfold getBucket
  cases hslot : findSlot? rl.buckets (RateBucket.ofConn fd) with
  | some i => exact ⟨h, Finset.subset_insert _ _, by simp⟩
  | none =>
      rw [findSlot?_key_none (RateBucket.ofConn_eq fd)] at hslot
      dsimp only
      cases hfree : findSlot? rl.buckets (fun bucket => !bucket.active) with
      | none =>
          rw [findSlot?_free_none RateBucket.free_eq, ← BucketInv.card_eq h] at hfree
          refine ⟨h, Finset.subset_insert _ _, fun _ => ⟨?_, hfree.ge⟩⟩
          rw [RateLimiter.holders, Finmap.mem_keys]
          exact hslot
      | some i =>
          have hold : rl.buckets[i].read = none := by
            have hinactive := findSlot?_some hfree
            rw [RateBucket.free_eq] at hinactive
            exact Option.isNone_iff_eq_none.mp hinactive
          obtain ⟨hunique, hcontents, -⟩ := UniqueKeys.take h
            (s := { fd := fd, active := true, eventCount := 0, reqCount := 0, windowStart := now })
            (k := fd) (v := ()) hold rfl hslot
          refine ⟨hunique, ?_, by simp⟩
          simp only [RateLimiter.holders, hcontents, SlotTable.keys_insert]
          exact Finset.Subset.refl _

/-- A check leaves at most one more connection with a bucket. -/
theorem rateLimiterCheck_spec
    (h : BucketInv rl)
    (opened now : UInt32)
    (fd : Int32)
    (type : RateType) :
    BucketInv (rateLimiterCheck opened now rl fd type).2 ∧
      (rateLimiterCheck opened now rl fd type).2.holders ⊆ insert fd rl.holders := by
  obtain ⟨hinv, hholders, -⟩ := getBucket_spec h opened fd
  unfold rateLimiterCheck
  cases hget : getBucket opened rl fd with
  | mk slot rl' =>
      rw [hget] at hinv hholders
      cases slot with
      | none => exact ⟨hinv, hholders⟩
      | some i =>
          have hentries := SlotTable.entries_set_of_read_eq
            (RateBucket.count_renew_read rl'.config type now rl'.buckets[i])
          dsimp only
          constructor
          · rw [BucketInv, UniqueKeys, hentries]
            exact hinv
          · rw [RateLimiter.holders, SlotTable.keys_contents, hentries, ← SlotTable.keys_contents]
            exact hholders

/-- A reset frees the bucket of the connection. -/
theorem rateLimiterReset_spec
    (h : BucketInv rl)
    (fd : Int32) :
    BucketInv (rateLimiterReset rl fd) ∧
      (rateLimiterReset rl fd).holders = rl.holders.erase fd := by
  unfold rateLimiterReset
  cases hslot : findSlot? rl.buckets (RateBucket.ofConn fd) with
  | none =>
      rw [findSlot?_key_none (RateBucket.ofConn_eq fd), ← Finmap.mem_keys] at hslot
      exact ⟨h, (Finset.erase_eq_of_notMem hslot).symm⟩
  | some i =>
      obtain ⟨v, hold⟩ := findSlot?_key_some (RateBucket.ofConn_eq fd) hslot
      obtain ⟨hunique, hcontents, -⟩ := UniqueKeys.release h hold
        (s := { rl.buckets[i] with active := false }) rfl
      refine ⟨hunique, ?_⟩
      simp only [RateLimiter.holders, hcontents, Finmap.keys_erase]

end Buckets

/-! ## The tables together -/

/-- What is known of the tables between two callbacks. -/
structure Agree
    (s : RelayState) : Prop where
  connections : ConnInv s.ws
  sessions : ∀ fd, fd ∈ s.ws.connected ↔
    ∃ session, s.ws.sessions fd = some session ∧ session.accepted = true
  subs : SubInv s.subManager
  bounded : s.subManager.contents.Bounded
  buckets : BucketInv s.rateLimiter
  subs_connected : ∀ key ∈ s.subManager.contents, key.1 ∈ s.ws.connected
  buckets_connected : s.rateLimiter.holders ⊆ s.ws.connected

namespace Agree

variable
  {s : RelayState}
  {fd : Int32}

/-- A connection that has not used up its share finds a slot for a subscription. -/
theorem subs_room
    (h : Agree s)
    (hconn : fd ∈ s.ws.connected)
    (hfew : s.subManager.contents.countOf fd < subMaxPerConn.toNat) :
    s.subManager.contents.keys.card < subMaxTotal := by
  have howners : ((s.subManager.contents.keys : Finset SubKey) : Set SubKey).MapsTo Prod.fst
      (s.ws.connected : Set Int32) :=
    fun key hkey => h.subs_connected key (Finmap.mem_keys.mp hkey)
  calc s.subManager.contents.keys.card
      = ∑ owner ∈ s.ws.connected, s.subManager.contents.countOf owner :=
        Finset.card_eq_sum_card_fiberwise howners
    _ < ∑ _owner ∈ s.ws.connected, subMaxPerConn.toNat :=
        Finset.sum_lt_sum (fun owner _ => h.bounded.perConn owner) ⟨fd, hconn, hfew⟩
    _ = s.ws.connected.card * subMaxPerConn.toNat := Finset.sum_const_nat fun _ _ => rfl
    _ ≤ wsMaxConnections * subMaxPerConn.toNat :=
        Nat.mul_le_mul_right _ h.connections.card_le
    _ = subMaxTotal := rfl

/-- There are more buckets than connections. -/
theorem buckets_room
    (h : Agree s) :
    s.rateLimiter.holders.card < rateLimiterMaxBuckets :=
  lt_of_le_of_lt ((Finset.card_le_card h.buckets_connected).trans h.connections.card_le)
    (by decide)

/-- Messages and queued work leave the tables alone. -/
theorem of_ws
    (h : Agree s)
    {ws : WsServer}
    (hconnections : ws.connections = s.ws.connections)
    (hcount : ws.connectionCount = s.ws.connectionCount)
    (hsessions : ws.sessions = s.ws.sessions) :
    Agree { s with ws := ws } := by
  have hconnected : ws.connected = s.ws.connected := by
    rw [WsServer.connected, hconnections]
    rfl
  refine ⟨⟨?_, ?_⟩, ?_, h.subs, h.bounded, h.buckets, ?_, ?_⟩
  · rw [hconnections]
    exact h.connections.unique
  · rw [hcount, hconnected]
    exact h.connections.count
  · intro fd
    rw [hconnected, hsessions]
    exact h.sessions fd
  · rw [hconnected]
    exact h.subs_connected
  · rw [hconnected]
    exact h.buckets_connected

end Agree

/-! ## Frames -/

/-- A call that checks or subscribes the connection only. -/
def OwnCall
    (fd : Int32) : RelayCall → Prop
  | .subAdd connFd subId _ => connFd = fd ∧ subId.length ≤ subMaxIdLen
  | .rateCheck connFd _ => connFd = fd
  | _ => True

/-- What a call of a connection's own frame keeps. -/
theorem relayEffect_agree
    (lib : Libnostr)
    (env : DispatchEnv)
    (turn : CallTurn)
    {s : RelayState}
    {fd : Int32}
    {c : RelayCall}
    (hc : OwnCall fd c)
    (h : Agree s)
    (hconn : fd ∈ s.ws.connected) :
    Agree (relayEffect lib env turn s c).2 ∧
      fd ∈ (relayEffect lib env turn s c).2.ws.connected := by
  cases c with
  | timestampNow => exact ⟨h, hconn⟩
  | malloc => exact ⟨h, hconn⟩
  | rateCheck connFd type =>
      obtain rfl : connFd = fd := hc
      obtain ⟨hinv, hholders⟩ :=
        rateLimiterCheck_spec h.buckets env.opened env.checked connFd type
      refine ⟨⟨h.connections, h.sessions, h.subs, h.bounded, hinv, h.subs_connected, ?_⟩, hconn⟩
      exact hholders.trans (Finset.insert_subset hconn h.buckets_connected)
  | subAdd connFd subId filters =>
      obtain ⟨rfl, hid⟩ := hc
      obtain ⟨hinv, houtcome⟩ :
          SubInv (subManagerAdd env.copies s.subManager connFd subId filters).2 ∧ _ :=
        subManagerAdd_outcome h.subs env.copies filters hid
      refine ⟨⟨h.connections, h.sessions, hinv, houtcome.bounded h.bounded, h.buckets, ?_,
        h.buckets_connected⟩, hconn⟩
      intro key hkey
      rcases houtcome.keys hkey with rfl | hold
      · exact hconn
      · exact h.subs_connected key hold
  | subRemove connFd subId =>
      obtain ⟨hinv, hcontents, -⟩ := subManagerRemove_outcome h.subs connFd subId
      have hfewer : ∀ key ∈ (subManagerRemove s.subManager connFd subId).2.contents,
          key ∈ s.subManager.contents := by
        intro key hkey
        rw [hcontents] at hkey
        exact (Finmap.mem_erase.mp hkey).2
      refine ⟨⟨h.connections, h.sessions, hinv, h.bounded.mono ?_, h.buckets, ?_,
        h.buckets_connected⟩, hconn⟩
      · intro key hkey
        exact Finmap.mem_keys.mpr (hfewer key (Finmap.mem_keys.mp hkey))
      · exact fun key hkey => h.subs_connected key (hfewer key hkey)
  | subMatch event => exact ⟨h, hconn⟩
  | storage call =>
      exact ⟨⟨h.connections, h.sessions, h.subs, h.bounded, h.buckets, h.subs_connected,
        h.buckets_connected⟩, hconn⟩
  | wsSend connFd message text =>
      obtain ⟨hconnections, hcount, hsessions⟩ :=
        wsServerSend_tables turn.send s.ws connFd message text
      refine ⟨h.of_ws hconnections hcount hsessions, ?_⟩
      simp only [relayEffect, WsServer.connected, hconnections]
      exact hconn

/-- A frame checks and subscribes the connection it came on. -/
theorem onWsMessage_ownCalls
    (lib : Libnostr)
    (ctx : RelayCtx)
    (connFd : Int32)
    (len : Nat)
    (parsed : Option NostrClientMsg) :
    (onWsMessage lib ctx connFd len parsed).Calls (OwnCall connFd) := by
  unfold onWsMessage
  split
  · trivial
  cases parsed with
  | none => exact calls_sendNotice fun _ => trivial
  | some msg =>
      refine calls_routerDispatch (routerParse msg) trivial trivial (fun _ => trivial)
        (fun _ => trivial) (fun _ _ _ => trivial) (fun _ => rfl) ?_ (fun _ => trivial)
      intro subId filters hmsg
      refine ⟨rfl, ?_⟩
      cases msg with
      | req subscriptionId filters =>
          cases hmsg
          exact List.length_take_le _ _
      | _ => cases hmsg

/-! ## Runs -/

/-- What the HTTP server library does with sessions. -/
def HttpdAllows
    (s : RelayState) : RelayEvent → Prop
  | .opened connFd => s.ws.sessions connFd = none
  | .closed connFd => s.ws.sessions connFd ≠ none
  | .frame connFd _ _ _ =>
      ∃ session, s.ws.sessions connFd = some session ∧ session.accepted = true
  | _ => True

/-- The tables agree while a frame is handled, at every call. -/
theorem frame_agree
    (lib : Libnostr)
    (ctx : RelayCtx)
    {s : RelayState}
    (h : Agree s)
    {connFd : Int32}
    (hconn : connFd ∈ s.ws.connected)
    (len : Nat)
    (parsed : Option NostrClientMsg)
    (env : DispatchEnv) :
    Agree ((onWsMessage lib ctx connFd len parsed).run (relayCall lib env)
        (arrived s connFd env)).2.state ∧
      ∀ x ∈ (onWsMessage lib ctx connFd len parsed).visited (relayCall lib env)
        (arrived s connFd env),
        OwnCall connFd x.1 ∧ Agree x.2.state ∧ connFd ∈ x.2.state.ws.connected := by
  have hcalls := onWsMessage_ownCalls lib ctx connFd len parsed
  have hstart : Agree (arrived s connFd env).state ∧
      connFd ∈ (arrived s connFd env).state.ws.connected :=
    ⟨h.of_ws rfl rfl rfl, hconn⟩
  have hstep : ∀ (c : RelayCall) (h' : Handling), OwnCall connFd c →
      Agree h'.state ∧ connFd ∈ h'.state.ws.connected →
      Agree (relayCall lib env c h').2.state ∧
        connFd ∈ (relayCall lib env c h').2.state.ws.connected :=
    fun c h' hc hh => relayEffect_agree lib env (h'.turns 0) hc hh.1 hh.2
  exact ⟨(Prog.run_keeps
      (I := fun h' : Handling => Agree h'.state ∧ connFd ∈ h'.state.ws.connected)
      hstep hcalls hstart).1,
    Prog.visited_keeps
      (I := fun h' : Handling => Agree h'.state ∧ connFd ∈ h'.state.ws.connected)
      hstep hcalls hstart⟩

/-- What every callback keeps. -/
theorem relayStep_agree
    (lib : Libnostr)
    (ctx : RelayCtx)
    {s : RelayState}
    {event : RelayEvent}
    (hallowed : HttpdAllows s event)
    (h : Agree s) :
    Agree (relayStep lib ctx s event) := by
  cases event with
  | opened connFd =>
      have hnew : connFd ∉ s.ws.connected := by
        rw [h.sessions]
        rintro ⟨session, hsession, -⟩
        rw [show s.ws.sessions connFd = none from hallowed] at hsession
        cases hsession
      obtain ⟨hinv, hconnected, hsessions⟩ := openSession_spec h.connections hnew
      have hmore : s.ws.connected ⊆ (openSession s.ws connFd).connected := by
        rw [hconnected]
        split
        · exact Finset.subset_insert _ _
        · exact Finset.Subset.refl _
      refine ⟨hinv, ?_, h.subs, h.bounded, h.buckets,
        fun key hkey => hmore (h.subs_connected key hkey), h.buckets_connected.trans hmore⟩
      intro fd
      change fd ∈ (openSession s.ws connFd).connected ↔
        ∃ session, (openSession s.ws connFd).sessions fd = some session ∧ session.accepted = true
      rw [hsessions, hconnected]
      by_cases hfd : fd = connFd
      · subst hfd
        cases haccepted : (onOpen s.ws fd).1 <;> simp [hnew]
      · rw [Function.update_of_ne hfd, ← h.sessions fd]
        cases haccepted : (onOpen s.ws connFd).1 <;> simp [hfd]
  | closed connFd =>
      obtain ⟨hinv, hconnected, hsessions⟩ := endSession_onClose_spec h.connections connFd
      obtain ⟨hsubs, hcontents⟩ := subManagerRemoveAll_contents h.subs connFd
      obtain ⟨hbuckets, hholders⟩ := rateLimiterReset_spec h.buckets connFd
      have hkept : ∀ key ∈ (subManagerRemoveAll s.subManager connFd).contents,
          key ∈ s.subManager.contents ∧ key.1 ≠ connFd := by
        intro key hkey
        rw [hcontents, ← Finmap.mem_keys, SlotTable.keys_filterKeys, Finset.mem_filter,
          Finmap.mem_keys] at hkey
        exact hkey
      refine ⟨hinv, ?_, hsubs, h.bounded.mono ?_, hbuckets, ?_, ?_⟩
      · intro fd
        change fd ∈ (endSession (onClose s.ws connFd) connFd).connected ↔
          ∃ session, (endSession (onClose s.ws connFd) connFd).sessions fd = some session ∧
            session.accepted = true
        rw [hsessions, hconnected]
        by_cases hfd : fd = connFd
        · subst hfd
          simp
        · rw [Function.update_of_ne hfd, ← h.sessions fd]
          simp [hfd]
      · intro key hkey
        exact Finmap.mem_keys.mpr (hkept key (Finmap.mem_keys.mp hkey)).1
      · intro key hkey
        obtain ⟨hold, hne⟩ := hkept key hkey
        change key.1 ∈ (endSession (onClose s.ws connFd) connFd).connected
        rw [hconnected]
        exact Finset.mem_erase.mpr ⟨hne, h.subs_connected key hold⟩
      · change (rateLimiterReset s.rateLimiter connFd).holders ⊆
          (endSession (onClose s.ws connFd) connFd).connected
        rw [hholders, hconnected]
        exact Finset.erase_subset_erase _ h.buckets_connected
  | frame connFd len parsed env =>
      have hconn := (h.sessions connFd).mpr hallowed
      exact (frame_agree lib ctx h hconn len parsed env).1.of_ws rfl rfl rfl
  | work sendOk =>
      obtain ⟨hconnections, hcount, hsessions⟩ := runQueued_tables sendOk s.ws
      exact h.of_ws hconnections hcount hsessions
  | cleanup work =>
      exact ⟨h.connections, h.sessions, h.subs, h.bounded, h.buckets, h.subs_connected,
        h.buckets_connected⟩

theorem agree_startRelay
    (storage : LoggedWorld) :
    Agree (startRelay storage) where
  connections := by
    constructor
    · exact List.nodup_nil
    · rfl
  sessions := by
    intro fd
    refine iff_of_false ?_ ?_
    · exact Finset.notMem_empty fd
    · rintro ⟨session, hsession, -⟩
      cases hsession
  subs := SubInv.init
  bounded := by
    have hempty : (startRelay storage).subManager.contents = ∅ := contents_init
    rw [hempty]
    exact SubMap.Bounded.empty
  buckets := List.nodup_nil
  subs_connected := by
    intro key hkey
    have hempty : (startRelay storage).subManager.contents = ∅ := contents_init
    rw [hempty] at hkey
    exact absurd hkey Finmap.notMem_empty
  buckets_connected := by
    intro fd hfd
    exact absurd hfd (Finset.notMem_empty fd)

/-! ## What the slots say -/

/-- An active connection has the descriptor. -/
def Connected
    (s : RelayState)
    (fd : Int32) : Prop :=
  ∃ conn ∈ s.ws.connections.toList, conn.active = true ∧ conn.fd = fd

/-- The slots of the three tables agree. -/
structure TablesAgree
    (s : RelayState) : Prop where
  count : s.ws.connectionCount.toNat = s.ws.connections.countP (·.active)
  count_le : s.ws.connectionCount.toNat ≤ wsMaxConnections
  distinct : ∀ i j : Fin wsMaxConnections,
    s.ws.connections[i].active = true → s.ws.connections[j].active = true →
    s.ws.connections[i].fd = s.ws.connections[j].fd → i = j
  subs : ∀ sub ∈ s.subManager.subs.toList, sub.active = true → Connected s sub.connFd
  buckets : ∀ bucket ∈ s.rateLimiter.buckets.toList, bucket.active = true →
    Connected s bucket.fd

/-- A call finds room: no table is full for a connection that has not used up its share. -/
def FindsRoom
    (env : DispatchEnv)
    (s : RelayState) : RelayCall → Prop
  | .subAdd connFd _ _ =>
      subManagerCount s.subManager connFd < subMaxPerConn → findFreeSlot s.subManager ≠ none
  | .rateCheck connFd _ => (getBucket env.opened s.rateLimiter connFd).1 ≠ none
  | _ => True

section Slots

variable
  {s : RelayState}

theorem mem_connected
    {fd : Int32} :
    fd ∈ s.ws.connected ↔ Connected s fd := by
  rw [WsServer.connected, Finmap.mem_keys, SlotTable.mem_contents]
  constructor
  · rintro ⟨v, hmem⟩
    obtain ⟨conn, hconn, hread⟩ := SlotTable.mem_entries.mp hmem
    unfold WsConnection.read at hread
    split at hread
    · rename_i hactive
      cases hread
      exact ⟨conn, hconn, hactive, rfl⟩
    · cases hread
  · rintro ⟨conn, hconn, hactive, rfl⟩
    exact ⟨(), SlotTable.mem_entries.mpr ⟨conn, hconn, if_pos hactive⟩⟩

theorem Agree.tablesAgree
    (h : Agree s) :
    TablesAgree s where
  count := by
    rw [h.connections.count, h.connections.card_eq, entries, List.length_filterMap_eq_countP,
      ← Vector.countP_toList]
    refine List.countP_congr fun conn _ => ?_
    cases hactive : conn.active <;> simp [WsConnection.read, hactive]
  count_le := by
    rw [h.connections.count]
    exact h.connections.card_le
  distinct := by
    intro i j hi hj hfd
    refine h.connections.unique.eq_of_key (k := s.ws.connections[i].fd) (v := ()) (w := ())
      (if_pos hi) ?_
    rw [hfd]
    exact if_pos hj
  subs := by
    intro sub hsub hactive
    refine mem_connected.mp (h.subs_connected (sub.connFd, sub.subId) ?_)
    exact SlotTable.mem_contents.mpr ⟨sub.filters,
      SlotTable.mem_entries.mpr ⟨sub, hsub, Subscription.read_eq_some.mpr ⟨hactive, rfl, rfl⟩⟩⟩
  buckets := by
    intro bucket hbucket hactive
    refine mem_connected.mp (h.buckets_connected ?_)
    rw [RateLimiter.holders, Finmap.mem_keys]
    exact SlotTable.mem_contents.mpr ⟨(), SlotTable.mem_entries.mpr
      ⟨bucket, hbucket, if_pos hactive⟩⟩

/-- A connection that has not used up its share finds room in every table. -/
theorem Agree.findsRoom
    (h : Agree s)
    {connFd : Int32}
    (hconn : connFd ∈ s.ws.connected)
    (env : DispatchEnv)
    {c : RelayCall}
    (hc : OwnCall connFd c) :
    FindsRoom env s c := by
  cases c with
  | subAdd fd subId filters =>
      obtain ⟨rfl, -⟩ := hc
      intro hfew hnone
      have hfull := (findFreeSlot_none h.subs).mp hnone
      have hroom := h.subs_room hconn (by
        rw [← subManagerCount_toNat h.subs]
        exact hfew)
      omega
  | rateCheck fd type =>
      intro hnone
      have hfull := ((getBucket_spec h.buckets env.opened fd).2.2 hnone).2
      have hroom := h.buckets_room
      omega
  | _ => trivial

end Slots

/--
**The tables agree, and no connection starves.**  In every run in which the HTTP server library
behaves as it should, between two callbacks and at every call a frame makes.
-/
theorem tables_agree
    (lib : Libnostr)
    (ctx : RelayCtx)
    (storage : LoggedWorld)
    (events : List RelayEvent)
    (hallowed : Admits (relayMachine lib ctx) HttpdAllows (startRelay storage) events) :
    TablesAgree (afterEvents lib ctx (startRelay storage) events) ∧
      ∀ past connFd len parsed env, past ++ [.frame connFd len parsed env] <+: events →
        ∀ x ∈ (onWsMessage lib ctx connFd len parsed).visited (relayCall lib env)
          (arrived (afterEvents lib ctx (startRelay storage) past) connFd env),
          TablesAgree x.2.state ∧ FindsRoom env x.2.state x.1 := by
  have hagree : ∀ {front : List RelayEvent}, front <+: events →
      Agree (afterEvents lib ctx (startRelay storage) front) :=
    fun hfront => (hallowed.before hfront).invariant Agree (agree_startRelay storage)
      (fun s event hok hs => relayStep_agree lib ctx hok hs)
  refine ⟨(hagree List.prefix_rfl).tablesAgree, ?_⟩
  intro past connFd len parsed env hfront x hx
  have hbefore := hagree ((List.prefix_append past _).trans hfront)
  have hconn := (hbefore.sessions connFd).mpr (hallowed past _ hfront)
  obtain ⟨hown, hx, hstill⟩ :=
    (frame_agree lib ctx hbefore hconn len parsed env).2 x hx
  exact ⟨hx.tablesAgree, hx.findsRoom hstill env hown⟩

/-- Two sessions, of which one subscribes and publishes, and the other ends. -/
theorem tables_agree_two_sessions :
    let lib := Sample.library (Sample.notes 1)
    let storage := erasedFlash 1000 1814400 (by decide)
    let env := DispatchEnv.undisturbed 1700000000
    let events : List RelayEvent :=
      [ .opened 7, .opened 8,
        .frame 7 20 (some (.req (ascii "feed") [{}])) env,
        .frame 7 300 (some (.event (Sample.numbered 0))) env,
        .closed 8 ]
    TablesAgree (afterEvents lib startedCtx (startRelay storage) events) ∧
      ∀ past connFd len parsed env, past ++ [.frame connFd len parsed env] <+: events →
        ∀ x ∈ (onWsMessage lib startedCtx connFd len parsed).visited (relayCall lib env)
          (arrived (afterEvents lib startedCtx (startRelay storage) past) connFd env),
          TablesAgree x.2.state ∧ FindsRoom env x.2.state x.1 := by
  intro lib storage env events
  refine tables_agree lib startedCtx storage events (Admits.of_get ?_)
  intro i
  fin_cases i
  · exact rfl
  · exact rfl
  · exact ⟨⟨0, true⟩, by decide +kernel, rfl⟩
  · exact ⟨⟨0, true⟩, by decide +kernel, rfl⟩
  · intro hnone
    revert hnone
    decide +kernel

end Relay
end WispRelay
