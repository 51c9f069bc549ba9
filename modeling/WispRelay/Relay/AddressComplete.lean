import WispRelay.Relay.AddressOnly
import WispRelay.Relay.SentOnce
import WispRelay.Storage.MatchingEvents
import WispRelay.Storage.Prefilter

/-!
# Whether an address reaches all its events

`delete_by_addresses` asks the storage for at most 100 events of the kind and the author of an
address, and compares the `d` tags afterwards.  An event of the address is deleted when it is
among the 100 saved last that match, and the index, which keeps 32 bits of `created_at`, does
not take it for later than the request.

* `address_index_iff`: when the index accepts an event of the address.
* `cleared_of_found`: what the query finds is deleted, whatever the cleanup task does meanwhile.
* `address_cleared_iff`: no event of the address is left exactly when the query finds them all.
-/

namespace WispRelay

/--
What a query for an address relies on: hexadecimal text, and that an event of the kind and the
author that is not dated after `until` matches.
-/
structure Libnostr.AddressLaws
    (lib : Libnostr) : Prop where
  hex_length : ∀ bytes, (lib.bytesToHex bytes).length = 2 * bytes.length
  hex_front : ∀ pubkey : Bytes32,
    lib.hexToBytes (lib.bytesToHex pubkey.toList) 8 = some (pubkey.toList.take 4)
  accepts : ∀ (kind : Int32) (event : NostrEvent) (until_ : Int64),
    kind.toInt = (event.kind.toNat : Int) → event.createdAt.toInt ≤ until_.toInt →
    lib.filterMatches
      { kinds := [kind]
        authors := [lib.bytesToHex event.pubkey.toList]
        until_ := until_
        limit := 100 } event = true

namespace Relay

open Interference Runs Storage

/-! ## What the index accepts -/

/-- An address with an author and a plain `d` tag is scanned into its parts. -/
theorem scan_of_addressParts
    {addr : CString}
    (hplain : PlainAddress addr)
    {kind : Int32}
    {author dTag : CString}
    (hauthor : author ≠ [])
    (hparts : addressParts addr = some (kind, author, dTag)) :
    scanAddress addr = some (kind, author, dTag) := by
  have hscanned : (scanAddress addr).isSome = true := by
    unfold addressParts at hparts
    split at hparts
    case h_2 => cases hparts
    rename_i n rest hnumber
    obtain ⟨-, rfl, -⟩ := by simpa using hparts
    have hnonempty : ((rest.takeWhile (· != 58)).take 64).isEmpty = false := by
      cases htext : rest.takeWhile (· != 58) with
      | nil => exact absurd htext hauthor
      | cons c text => rfl
    simp [scanAddress, hnumber, hnonempty]
  obtain ⟨parts, hscan⟩ := Option.isSome_iff_exists.mp hscanned
  have hsame := addressParts_of_scan hplain hscan
  rw [hparts, Option.some.injEq] at hsame
  rw [hscan, hsame]

/-- The index takes an event for no later than a time when the 32 bits kept of it are not. -/
theorem address_index_iff
    {lib : Libnostr}
    (haddress : lib.AddressLaws)
    {e : StorageIndexEntry}
    {event : NostrEvent}
    (hdescribes : Describes e event)
    {kind : Int32}
    (hkind : kind.toInt = (event.kind.toNat : Int))
    {deleteBefore : Int64}
    (hpos : 0 < deleteBefore.toInt)
    (hfits : deleteBefore.toInt < 2 ^ 32) :
    indexMatchesFilter lib e
        (addressFilter kind (lib.bytesToHex event.pubkey.toList) deleteBefore) = true ↔
      ((uint32OfInt64 event.createdAt).toNat : Int) ≤ deleteBefore.toInt := by
  have hkindTest : kindTest e
      (addressFilter kind (lib.bytesToHex event.pubkey.toList) deleteBefore) = true := by
    simp [kindTest, addressFilter, hdescribes.kind, hkind]
  have hidTest : idTest lib e
      (addressFilter kind (lib.bytesToHex event.pubkey.toList) deleteBefore) = true := by
    simp [idTest, addressFilter]
  have hauthorTest : authorTest lib e
      (addressFilter kind (lib.bytesToHex event.pubkey.toList) deleteBefore) = true := by
    simp [authorTest, addressFilter, haddress.hex_front, haddress.hex_length,
      hdescribes.pubkeyPrefix_toList]
  have hbefore := (lt_uint32OfInt64_iff hpos e.createdAt).2
  have hpositive : (0 : Int64) < deleteBefore := Int64.lt_iff_toInt_lt.mpr hpos
  rw [indexMatchesFilter_eq, hkindTest, hidTest, hauthorTest, timeTest]
  simp only [addressFilter, hpositive, decide_true, Bool.true_and, Bool.and_true]
  rw [Int.emod_eq_of_lt hpos.le hfits, hdescribes.createdAt] at hbefore
  simp [hbefore, hdescribes.createdAt]

/-! ## Calls that succeed -/

/-- What a call that succeeds does when the clock shows a time from `now` to `latest`. -/
def succeedsBetween
    (lib : Libnostr)
    (now latest : UInt32) :
    (c : DeletionCall) → LoggedWorld → c.Ret → LoggedWorld → Prop
  | .malloc, w, ok, w' => ok = true ∧ w' = w
  | .storage call, w, r, w' => ∃ env : CallEnv,
      env.Succeeds ∧ now ≤ env.now ∧ env.now ≤ latest ∧
        r = (storageCall lib env w.world call).1 ∧ w' = afterOp lib w ⟨call, env⟩

/-- The record is live and stores an unexpired event of the address from before the request. -/
structure AddressTarget
    (lib : Libnostr)
    (addr : CString)
    (deleteBefore : Int64)
    (now : UInt32)
    (w : LoggedWorld)
    (e : StorageIndexEntry)
    (event : NostrEvent) : Prop where
  mem : e ∈ live w.world.engine.visible
  unexpired : e.isExpired now = false
  stores : Stores lib w e event
  address : HasAddress lib addr event
  dated : event.createdAt.toInt ≤ deleteBefore.toInt

/-- What remains of an engine in use. -/
structure Ready
    (lib : Libnostr)
    (w₀ w : LoggedWorld) : Prop extends Remaining lib w₀ w where
  initialized : w.world.engine.initialized = true

/-- The record is gone. -/
structure Cleared
    (lib : Libnostr)
    (w₀ : LoggedWorld)
    (e : StorageIndexEntry)
    (w : LoggedWorld) : Prop extends Ready lib w₀ w where
  gone : e ∉ live w.world.engine.visible

section Calls

variable
  {lib : Libnostr}
  {now latest : UInt32}
  {w₀ w : LoggedWorld}
  {e : StorageIndexEntry}
  {event : NostrEvent}

/-- What a record stored at first a live record stores still. -/
theorem Remaining.still_stores
    (h : Remaining lib w₀ w)
    (hmem : e ∈ live w.world.engine.visible)
    (hstores : Stores lib w₀ e event) :
    Stores lib w e event where
  owner := by
    rw [h.owner]
    exact hstores.owner
  parses := by
    have hparses := hstores.parses
    unfold ParsesTo at hparses ⊢
    rwa [h.files e hmem]

theorem Ready.quiet
    (h : Ready lib w₀ w)
    {op : StorageOp}
    (hquiet : ∀ event, op.call ≠ .save event) :
    Ready lib w₀ (afterOp lib w op) where
  toRemaining := h.toRemaining.quiet hquiet
  initialized := (initialized_afterOp w op).trans h.initialized

theorem Cleared.quiet
    (h : Cleared lib w₀ e w)
    {op : StorageOp}
    (hquiet : ∀ event, op.call ≠ .save event) :
    Cleared lib w₀ e (afterOp lib w op) where
  toReady := h.toReady.quiet hquiet
  gone := fun hmem => h.gone (live_of_quiet h.toAttributed hquiet hmem)

theorem Ready.cleanup
    (w w' : LoggedWorld)
    (h : Ready lib w₀ w)
    (hstep : cleanupStep lib w w') :
    Ready lib w₀ w' := by
  obtain ⟨op, hcleanup, rfl⟩ := hstep
  exact h.quiet hcleanup.quiet

theorem Cleared.cleanup
    (w w' : LoggedWorld)
    (h : Cleared lib w₀ e w)
    (hstep : cleanupStep lib w w') :
    Cleared lib w₀ e w' := by
  obtain ⟨op, hcleanup, rfl⟩ := hstep
  exact h.quiet hcleanup.quiet

/-- A call that saves nothing keeps what all such operations keep. -/
theorem keeps_of_savesNothing
    {I : LoggedWorld → Prop}
    (hquiet : ∀ w op, I w → (∀ event, op.call ≠ .save event) → I (afterOp lib w op))
    (c : DeletionCall)
    (w : LoggedWorld)
    (r : c.Ret)
    (w' : LoggedWorld)
    (hc : savesNothing c)
    (h : I w)
    (hcall : succeedsBetween lib now latest c w r w') :
    I w' := by
  cases c with
  | malloc => exact hcall.2 ▸ h
  | storage call =>
      obtain ⟨env, -, -, -, -, rfl⟩ := hcall
      exact hquiet w ⟨call, env⟩ h hc

/-- A program that saves nothing leaves the engine in use. -/
theorem safe_ready
    {p : DeletionProg Nat}
    (hp : p.Calls savesNothing)
    (h : Ready lib w₀ w) :
    Safe (succeedsBetween lib now latest) (cleanupStep lib) (fun _ _ => True) p
      (fun _ => Ready lib w₀) w :=
  Safe.of_calls (fun _ _ _ _ => trivial) Ready.cleanup
    (keeps_of_savesNothing fun _ _ h hquiet => h.quiet hquiet) hp h

/-- A program that clears the record. -/
abbrev Clears
    (lib : Libnostr)
    (now latest : UInt32)
    (w₀ : LoggedWorld)
    (e : StorageIndexEntry)
    (p : DeletionProg Nat)
    (w : LoggedWorld) : Prop :=
  Safe (succeedsBetween lib now latest) (cleanupStep lib) (fun _ _ => True) p
    (fun _ => Cleared lib w₀ e) w

/-- A program that saves nothing does not bring a record back. -/
theorem Clears.of_cleared
    {p : DeletionProg Nat}
    (hp : p.Calls savesNothing)
    (h : Cleared lib w₀ e w) :
    Clears lib now latest w₀ e p w :=
  Safe.of_calls (fun _ _ _ _ => trivial) Cleared.cleanup
    (keeps_of_savesNothing fun _ _ h hquiet => h.quiet hquiet) hp h

theorem Clears.malloc
    (h : Ready lib w₀ w)
    {next : Bool → DeletionProg Nat}
    (hnext : ∀ s, Ready lib w₀ s → Clears lib now latest w₀ e (next true) s) :
    Clears lib now latest w₀ e (malloc >>= next) w := by
  refine Safe.call Ready.cleanup ?_ h
  intro s hs
  refine ⟨trivial, ?_⟩
  rintro ok s' ⟨rfl, rfl⟩
  exact hnext s' hs

/-- The deletion of the record. -/
theorem Clears.deleteEvent
    (h : Ready lib w₀ w) :
    Clears lib now latest w₀ e (deleteEvent e.eventId) w := by
  refine Safe.call Ready.cleanup ?_ h
  intro s hs
  refine ⟨trivial, ?_⟩
  rintro r s' ⟨env, -, -, -, -, rfl⟩
  exact ⟨hs.quiet (by rintro event ⟨⟩), hs.deleted hs.initialized e env⟩

end Calls

theorem savesNothing_deleteAddress
    (lib : Libnostr)
    (request : NostrDeletionRequest)
    (deleteBefore : Int64)
    (addr : CString) :
    (deleteAddress lib request deleteBefore addr).Calls savesNothing :=
  calls_deleteAddress trivial (by rintro filter limit event ⟨⟩) (by rintro eventId event ⟨⟩)
    request deleteBefore addr

/-! ## What the query finds -/

section Found

variable
  {lib : Libnostr}
  {now latest : UInt32}
  {w₀ w : LoggedWorld}
  {filter : NostrFilter}
  {e : StorageIndexEntry}
  {event : NostrEvent}

/-- What a live record that remains gives to a later query it gave at first. -/
theorem Remaining.matchOf_first
    (h : Remaining lib w₀ w)
    {env : CallEnv}
    (hlater : now ≤ env.now)
    (hmem : e ∈ live w.world.engine.visible)
    (hmatch : matchOf lib env w.world.files filter e = some event) :
    matchOf lib (CallEnv.undisturbed now) w₀.world.files filter e = some event := by
  obtain ⟨⟨hlive, hunexpired, hindex⟩, hload, hmatches⟩ := matchOf_eq_some.mp hmatch
  have hparses := parsesTo_of_load hload
  unfold ParsesTo at hparses
  rw [h.files e hmem] at hparses
  exact matchOf_eq_some.mpr
    ⟨⟨hlive, StorageIndexEntry.unexpired_before hlater hunexpired, hindex⟩,
      ParsesTo.load hparses rfl, hmatches⟩

/-- Later on there are no more matches after a record. -/
theorem Remaining.laterMatches_le
    (h : Remaining lib w₀ w)
    {env : CallEnv}
    (hlater : now ≤ env.now) :
    (laterMatches lib env w.world filter e).length ≤
      (laterMatches lib (CallEnv.undisturbed now) w₀.world filter e).length := by
  have hnodup : (laterMatches lib env w.world filter e).Nodup :=
    (List.Nodup.of_map _ h.index.nodup_fileIndex).filter _
  refine (hnodup.subperm ?_).length_le
  intro e' hmem'
  simp only [laterMatches, List.mem_filter, Bool.and_eq_true, decide_eq_true_eq] at hmem' ⊢
  obtain ⟨hvisible, hafter, hsome⟩ := hmem'
  obtain ⟨event', hmatch⟩ := Option.isSome_iff_exists.mp hsome
  have hlive : e' ∈ live w.world.engine.visible :=
    mem_live.mpr ⟨hvisible, (matchOf_eq_some.mp hmatch).1.1⟩
  refine ⟨(mem_live.mp (h.live_subset e' hlive)).1, hafter, ?_⟩
  rw [h.matchOf_first hlater hlive hmatch]
  rfl

variable
  (hlib : lib.StorageLaws)
  (hcut : lib.TruncationLaw)
  (hstores : Stores lib w₀ e event)
  (hunexpired : e.isExpired latest = false)
  (haccepts : Accepts lib filter e event)
  {limit : UInt16}
  (hfew : (laterMatches lib (CallEnv.undisturbed now) w₀.world filter e).length <
    queryLimit limit)
include hlib hcut hstores hunexpired haccepts hfew

/-- While the record is live a query that accepts its event finds it. -/
theorem Ready.found
    (h : Ready lib w₀ w)
    (hmem : e ∈ live w.world.engine.visible)
    {env : CallEnv}
    (henv : env.Succeeds)
    (hnow : now ≤ env.now)
    (hlatest : env.now ≤ latest) :
    ∃ events, (storageCall lib env w.world (.query filter limit)).1 =
      (StorageError.storageOk, events) ∧ event ∈ events := by
  have hload := (h.still_stores hmem hstores).parses.load (henv.readOk (e.path lib))
  have hmatch : matchOf lib env w.world.files filter e = some event :=
    matchOf_eq_some.mpr
      ⟨⟨(mem_live.mp hmem).2, StorageIndexEntry.unexpired_before hlatest hunexpired,
        haccepts.index⟩, hload, haccepts.event⟩
  have hresult := storageQueryEvents_events lib filter henv.mallocOk h.initialized
    h.index.nodup_fileIndex limit
  have hreturned := (returned_iff_later hlib hcut h.index h.owned henv.mallocOk h.initialized limit
    hmem event).mpr ⟨hmatch, (h.laterMatches_le hnow).trans_lt hfew⟩
  refine ⟨_, hresult, ?_⟩
  rw [hresult] at hreturned
  exact hreturned.1

/-- A query that accepts the event, and a loop over its results that clears the record. -/
theorem Clears.queryEvents
    {body : NostrEvent → DeletionProg Nat}
    (hcalls : ∀ event, (body event).Calls savesNothing)
    (hbody : ∀ s, Ready lib w₀ s → Clears lib now latest w₀ e (body event) s)
    (h : Ready lib w₀ w) :
    Clears lib now latest w₀ e
      (queryEvents filter limit >>= fun r =>
        match r with
        | (result, events) =>
            if result = .storageOk then Prog.total body events else pure 0) w := by
  refine Safe.call Ready.cleanup ?_ h
  intro s hs
  refine ⟨trivial, ?_⟩
  rintro r s' ⟨env, henv, hnow, hlatest, hr, rfl⟩
  have hquiet : ∀ event, StorageCall.query filter limit ≠ .save event := by
    rintro event ⟨⟩
  by_cases hmem : e ∈ live s.world.engine.visible
  · obtain ⟨events, hfound, hevent⟩ :=
      hs.found hlib hcut hstores hunexpired haccepts hfew hmem henv hnow hlatest
    obtain rfl : r = (StorageError.storageOk, events) := hr.trans hfound
    exact Safe.total_establishes (fun event _ _ => safe_ready (hcalls event))
      (fun event _ _ => Clears.of_cleared (hcalls event)) hevent hbody (hs.quiet hquiet)
  · have hcleared : Cleared lib w₀ e s := ⟨hs, hmem⟩
    have hnext : ∀ found : StorageError × List NostrEvent,
        Prog.Calls savesNothing (match found with
          | (result, events) =>
              if result = .storageOk then Prog.total body events else pure 0) := by
      rintro ⟨result, events⟩
      dsimp only
      split
      · exact Prog.Calls.total fun event _ => hcalls event
      · trivial
    exact Clears.of_cleared (hnext r) (hcleared.quiet hquiet)

end Found

/-! ## All events of an address -/

/--
A request of the author that carries the address leaves no unexpired event of the address from
before the request, when every call succeeds, whatever the cleanup task does meanwhile.
-/
def AddressCleared
    (lib : Libnostr)
    (pubkey : Bytes32)
    (addr : CString)
    (deleteBefore : Int64)
    (now : UInt32)
    (w₀ : LoggedWorld) : Prop :=
  ∀ request : NostrDeletionRequest, request.pubkey = lib.bytesToHex pubkey.toList →
    addr ∈ request.addresses →
    ∀ latest, now ≤ latest → ∀ (deleted : Nat) (w : LoggedWorld),
    Reaches (succeedsBetween lib now latest) (cleanupStep lib)
      (deleteByAddresses lib request deleteBefore) w₀ (Prog.done deleted) w →
    ∀ e event, ¬ AddressTarget lib addr deleteBefore latest w e event

/-- The query for the address finds the record: by its date, and by what was saved after it. -/
structure WithinReach
    (lib : Libnostr)
    (filter : NostrFilter)
    (now : UInt32)
    (w : LoggedWorld)
    (e : StorageIndexEntry)
    (event : NostrEvent) : Prop where
  date : ((uint32OfInt64 event.createdAt).toNat : Int) ≤ filter.until_.toInt
  recent : (laterMatches lib (CallEnv.undisturbed now) w.world filter e).length < 100

section Complete

variable
  {lib : Libnostr}
  (hlib : lib.StorageLaws)
  (hcut : lib.TruncationLaw)
  (haddress : lib.AddressLaws)
  {pubkey : Bytes32}
  {addr : CString}
  (hplain : PlainAddress addr)
  {kind : Int32}
  {dTag : CString}
  (hparts : addressParts addr = some (kind, lib.bytesToHex pubkey.toList, dTag))
  {deleteBefore : Int64}
  (hpos : 0 < deleteBefore.toInt)
  (hfits : deleteBefore.toInt < 2 ^ 32)
include haddress hplain hparts

/-- The address is scanned into its parts. -/
theorem scan_whole :
    scanAddress addr = some (kind, lib.bytesToHex pubkey.toList, dTag) := by
  refine scan_of_addressParts hplain ?_ hparts
  intro hnil
  have hlength := congrArg List.length hnil
  rw [haddress.hex_length, Vector.length_toList, List.length_nil] at hlength
  cases hlength

omit haddress hplain in
/-- An event of the address has its parts. -/
theorem HasAddress.parts
    {event : NostrEvent}
    (h : HasAddress lib addr event) :
    kind.toInt = (event.kind.toNat : Int) ∧
      lib.bytesToHex event.pubkey.toList = lib.bytesToHex pubkey.toList ∧
      (lib.eventGetDTag event).getD [] = dTag := by
  obtain ⟨kind', hparts', hkind⟩ := h
  rw [hparts, Option.some.injEq, Prod.mk.injEq, Prod.mk.injEq] at hparts'
  obtain ⟨rfl, hauthor, hdTag⟩ := hparts'
  exact ⟨hkind, hauthor.symm, hdTag.symm⟩

include hpos hfits

omit hplain in
/-- The query accepts a target exactly when the index does not take it for later. -/
theorem AddressTarget.accepts_iff
    {now : UInt32}
    {w : LoggedWorld}
    {e : StorageIndexEntry}
    {event : NostrEvent}
    (h : AddressTarget lib addr deleteBefore now w e event)
    (hattributed : Attributed lib w) :
    Accepts lib (addressFilter kind (lib.bytesToHex pubkey.toList) deleteBefore) e event ↔
      ((uint32OfInt64 event.createdAt).toNat : Int) ≤ deleteBefore.toInt := by
  obtain ⟨hkind, hauthor, -⟩ := h.address.parts hparts
  have hdescribes := h.stores.describes hattributed h.mem
  rw [← hauthor, ← address_index_iff haddress hdescribes hkind hpos hfits]
  constructor
  · exact fun haccepts => haccepts.index
  · exact fun hindex => ⟨hindex, haddress.accepts kind event deleteBefore hkind h.dated⟩

include hlib hcut

/-- What the query for the address finds is deleted. -/
theorem cleared_of_found
    {now : UInt32}
    {w₀ : LoggedWorld}
    (h : Attributed lib w₀)
    (hinitialized : w₀.world.engine.initialized = true)
    (hfound : ∀ e event, AddressTarget lib addr deleteBefore now w₀ e event →
      WithinReach lib (addressFilter kind (lib.bytesToHex pubkey.toList) deleteBefore) now w₀
        e event) :
    AddressCleared lib pubkey addr deleteBefore now w₀ := by
  intro request hpubkey haddr latest hlatest deleted w hreach e event htarget
  have hready₀ : Ready lib w₀ w₀ := ⟨h.remaining, hinitialized⟩
  have hcalls : ∀ addr, (deleteAddress lib request deleteBefore addr).Calls savesNothing :=
    savesNothing_deleteAddress lib request deleteBefore
  have hready : Ready lib w₀ w :=
    (safe_ready (Prog.Calls.total fun addr _ => hcalls addr) hready₀).reaches
      (fun _ => Ready.cleanup) hreach
  have hfirst : AddressTarget lib addr deleteBefore now w₀ e event :=
    { mem := hready.live_subset e htarget.mem
      unexpired := StorageIndexEntry.unexpired_before hlatest htarget.unexpired
      stores := hready.stores htarget.mem htarget.stores.owner htarget.stores.parses
      address := htarget.address
      dated := htarget.dated }
  have hwithin := hfound e event hfirst
  have haccepts := (hfirst.accepts_iff haddress hparts hpos hfits h).mpr hwithin.date
  obtain ⟨-, -, hdTag⟩ := htarget.address.parts hparts
  have hid : event.id = e.eventId :=
    (hfirst.stores.describes h hfirst.mem).eventId.symm
  -- the pass over the address clears the record, the other passes leave it cleared
  have hpass : ∀ s, Ready lib w₀ s →
      Clears lib now latest w₀ e (deleteAddress lib request deleteBefore addr) s := by
    intro s hs
    unfold deleteAddress
    rw [scan_whole haddress hplain hparts, ← hpubkey]
    dsimp only
    rw [if_neg (not_not.mpr rfl)]
    refine Clears.malloc hs fun s hs => Clears.malloc hs fun s hs => ?_
    rw [← hpubkey] at haccepts hwithin
    refine Clears.queryEvents hlib hcut hfirst.stores htarget.unexpired haccepts hwithin.recent
      (fun event => ?_) (fun s hs => ?_) hs
    · split
      · exact savesNothing_deleteEvent event.id
      · trivial
    · rw [if_pos hdTag, hid]
      exact Clears.deleteEvent hs
  have hclears : Clears lib now latest w₀ e (deleteByAddresses lib request deleteBefore) w₀ :=
    Safe.total_establishes (fun addr _ _ => safe_ready (hcalls addr))
      (fun addr _ _ => Clears.of_cleared (hcalls addr)) haddr hpass hready₀
  have hcleared : Cleared lib w₀ e w := hclears.reaches (fun _ => Cleared.cleanup) hreach
  exact hcleared.gone htarget.mem

omit hlib hcut hpos hfits in
/-- The request for the address alone, in which nothing fails, deletes what the query finds. -/
theorem run_deleteByAddresses
    (deleteBefore : Int64)
    (now : UInt32)
    {w₀ : LoggedWorld}
    (h : Attributed lib w₀)
    (hinitialized : w₀.world.engine.initialized = true) :
    let env := CallEnv.undisturbed now
    let filter := addressFilter kind (lib.bytesToHex pubkey.toList) deleteBefore
    let request : NostrDeletionRequest :=
      { pubkey := lib.bytesToHex pubkey.toList, eventIds := [], addresses := [addr] }
    ((deleteByAddresses lib request deleteBefore).run (deletionStep lib env) w₀).2 =
      ((Prog.total
        (fun event =>
          if (lib.eventGetDTag event).getD [] = dTag then deleteEvent event.id else pure 0)
        (storageQueryEvents lib env w₀.world filter 100).1.2).run (deletionStep lib env)
          (afterOp lib w₀ ⟨.query filter 100, env⟩)).2 := by
  intro env filter request
  have hresult : (storageQueryEvents lib env w₀.world filter 100).1 =
      (.storageOk, (matchingEvents lib env w₀.world filter).reverse.take (queryLimit 100)) :=
    storageQueryEvents_events lib filter rfl hinitialized h.index.nodup_fileIndex 100
  simp only [deleteByAddresses, request, Prog.total, Prog.run_bind, Prog.run_pure]
  unfold deleteAddress
  rw [scan_whole haddress hplain hparts]
  dsimp only
  rw [if_neg (not_not.mpr rfl)]
  change (Prog.run (deletionStep lib env)
    (match (storageQueryEvents lib env w₀.world filter 100).1 with
      | (result, events) => if result = .storageOk then Prog.total _ events else pure 0)
    (afterOp lib w₀ ⟨.query filter 100, env⟩)).2 = _
  rw [hresult]
  rfl

/-- What the query for the address does not find is left by some request. -/
theorem found_of_cleared
    {now : UInt32}
    {w₀ : LoggedWorld}
    (h : Attributed lib w₀)
    (hinitialized : w₀.world.engine.initialized = true)
    (hcleared : AddressCleared lib pubkey addr deleteBefore now w₀)
    {e : StorageIndexEntry}
    {event : NostrEvent}
    (htarget : AddressTarget lib addr deleteBefore now w₀ e event) :
    WithinReach lib (addressFilter kind (lib.bytesToHex pubkey.toList) deleteBefore) now w₀
      e event := by
  by_contra hbeyond
  let env := CallEnv.undisturbed now
  let filter := addressFilter kind (lib.bytesToHex pubkey.toList) deleteBefore
  let request : NostrDeletionRequest :=
    { pubkey := lib.bytesToHex pubkey.toList, eventIds := [], addresses := [addr] }
  let final := ((deleteByAddresses lib request deleteBefore).run (deletionStep lib env) w₀).2
  have hsem : ∀ (c : DeletionCall) (w : LoggedWorld),
      succeedsBetween lib now now c w (deletionStep lib env c w).1
        (deletionStep lib env c w).2 := by
    intro c w
    cases c with
    | malloc => exact ⟨rfl, rfl⟩
    | storage call =>
        exact ⟨env, CallEnv.undisturbed_succeeds now, UInt32.le_refl now, UInt32.le_refl now,
          rfl, rfl⟩
  have hreach := Prog.run_reaches (cleanupStep lib) hsem
    (deleteByAddresses lib request deleteBefore) w₀
  -- the results of the query have other identifiers
  have hothers : ∀ result ∈ (storageQueryEvents lib env w₀.world filter 100).1.2,
      result.id ≠ e.eventId := by
    intro result hresult hid
    obtain ⟨hmatch, hfew⟩ := (returned_iff_later hlib hcut h.index h.owned rfl hinitialized 100
      htarget.mem result).mp ⟨hresult, hid⟩
    have hindex := (matchOf_eq_some.mp hmatch).1.2.2
    obtain ⟨hkind, hauthor, -⟩ := htarget.address.parts hparts
    have hdescribes := htarget.stores.describes h htarget.mem
    simp only [filter] at hindex
    rw [← hauthor] at hindex
    exact hbeyond ⟨(address_index_iff haddress hdescribes hkind hpos hfits).mp hindex, hfew⟩
  -- so every call leaves the record live
  have hstep : ∀ (c : DeletionCall) (w : LoggedWorld), savesNothing c ∧ ¬ deletes e c →
      Ready lib w₀ w ∧ e ∈ live w.world.engine.visible →
      Ready lib w₀ (deletionStep lib env c w).2 ∧
        e ∈ live (deletionStep lib env c w).2.world.engine.visible := by
    rintro c w ⟨hquiet, hother⟩ ⟨hw, hmem⟩
    cases c with
    | malloc => exact ⟨hw, hmem⟩
    | storage call =>
        refine ⟨hw.quiet hquiet, live_kept lib env hw.index.nodup_fileIndex call hmem
          htarget.unexpired ?_⟩
        rintro eventId rfl rfl
        exact hother rfl
  have hquery : Ready lib w₀ (afterOp lib w₀ ⟨.query filter 100, env⟩) ∧
      e ∈ live (afterOp lib w₀ ⟨.query filter 100, env⟩).world.engine.visible :=
    hstep (.storage (.query filter 100)) w₀ ⟨by rintro event ⟨⟩, by rintro ⟨⟩⟩
      ⟨⟨h.remaining, hinitialized⟩, htarget.mem⟩
  have hfinal : Ready lib w₀ final ∧ e ∈ live final.world.engine.visible := by
    have hrun := run_deleteByAddresses haddress hplain hparts deleteBefore now h hinitialized
    simp only [final, request, env]
    rw [hrun]
    refine Prog.run_keeps hstep (Prog.Calls.total fun result hresult => ?_) hquery
    split
    · refine ⟨⟨by rintro event ⟨⟩, ?_⟩, fun _ => trivial⟩
      intro hdelete
      have hsame : StorageCall.delete result.id = .delete e.eventId :=
        DeletionCall.storage.inj hdelete
      exact hothers result hresult (StorageCall.delete.inj hsame)
    · trivial
  refine hcleared request rfl List.mem_cons_self now (UInt32.le_refl now) _ final hreach e event ?_
  exact
    { mem := hfinal.2
      unexpired := htarget.unexpired
      stores := hfinal.1.still_stores hfinal.2 htarget.stores
      address := htarget.address
      dated := htarget.dated }

end Complete

/-- An address whose author is a key and whose `d` tag is short and without white space. -/
theorem plain_of_parts
    {lib : Libnostr}
    (haddress : lib.AddressLaws)
    {pubkey : Bytes32}
    {addr : CString}
    {kind : Int32}
    {dTag : CString}
    (hparts : addressParts addr = some (kind, lib.bytesToHex pubkey.toList, dTag))
    (hlength : dTag.length ≤ 255)
    (hspaces : ∀ c ∈ dTag, isSpace c = false) :
    PlainAddress addr := by
  intro kind' author dTag' hparts'
  rw [hparts, Option.some.injEq, Prod.mk.injEq, Prod.mk.injEq] at hparts'
  obtain ⟨-, rfl, rfl⟩ := hparts'
  refine ⟨?_, hlength, hspaces⟩
  rw [haddress.hex_length, Vector.length_toList]

theorem library_addressLaws
    (known : List NostrEvent) :
    (Sample.library known).AddressLaws where
  hex_length := Sample.hexOf_length
  hex_front := by
    intro pubkey
    have hfront : (Sample.hexOf pubkey.toList).take 8 = Sample.hexOf (pubkey.toList.take 4) :=
      take_bytesToHex pubkey.toList 4
    have hlong : 8 ≤ (Sample.hexOf pubkey.toList).length := by
      simp
    simp only [Sample.library, hlong, if_true, hfront, Sample.unhex_hexOf]
  accepts := by
    intro kind event until_ hkind hdate
    have hdated : ¬ until_ < event.createdAt := by
      rw [Int64.lt_iff_toInt_lt]
      omega
    simp [Sample.library, Sample.filterMatches, Sample.matchesHexPrefix, hkind, hdated]

/-! ## A note that is left -/

/-- What matches in an attributed state is stored. -/
theorem Attributed.stores_of_matchOf
    {lib : Libnostr}
    (hlib : lib.StorageLaws)
    (hcut : lib.TruncationLaw)
    {w : LoggedWorld}
    (h : Attributed lib w)
    {env : CallEnv}
    {filter : NostrFilter}
    {e : StorageIndexEntry}
    {event : NostrEvent}
    (hmem : e ∈ w.world.engine.visible)
    (hmatch : matchOf lib env w.world.files filter e = some event) :
    Stores lib w e event := by
  obtain ⟨⟨hlive, -, -⟩, hload, -⟩ := matchOf_eq_some.mp hmatch
  obtain ⟨event', howner, -, hwritten, -⟩ := h.owned e (mem_live.mpr ⟨hmem, hlive⟩)
  obtain rfl := hwritten.eq_of_load hlib hcut hload
  exact ⟨howner, parsesTo_of_load hload⟩

/-- A filter that every note passes matches the notes, in order. -/
theorem matchingEvents_notes
    {lib : Libnostr}
    (hlib : lib.StorageLaws)
    {n : Nat}
    (hn : n ≤ 500)
    (hser : ∀ i < n, (lib.eventSerialize (Sample.numbered i) storageMaxEventSize).isSome = true)
    {now : UInt32}
    {filter : NostrFilter}
    (hpass : ∀ i < n, (noteItem lib i).isExpired now = false ∧
      (noteItem lib i).passes lib filter = true) :
    matchingEvents lib (CallEnv.undisturbed now) (noteStore lib n).world filter =
      Sample.notes n := by
  obtain ⟨past, hinv, -⟩ := noteStore_inv lib (n := n) (by omega)
  have hroom : (noteList lib n).items.length ≤ queryLimit 500 := by
    simp only [noteList, List.length_map, List.length_range]
    exact hn
  have hitems : ∀ item ∈ (noteList lib n).items,
      item.isExpired now = false ∧ item.passes lib filter = true := by
    intro item hitem
    obtain ⟨i, hi, rfl⟩ := List.mem_map.mp hitem
    exact hpass i (List.mem_range.mp hi)
  have hnotes := holdsNotes_noteStore lib (n := n) (by omega) hser
  have hquery := (query_all hlib (noteStore_refines (n := n) (by omega) hser) hinv
    (CallEnv.undisturbed_succeeds now) hroom hitems).1
  have hlength : (matchingEvents lib (CallEnv.undisturbed now) (noteStore lib n).world
      filter).length ≤ queryLimit 500 := by
    have hle := List.length_filterMap_le
      (matchOf lib (CallEnv.undisturbed now) (noteStore lib n).world.files filter)
      (noteStore lib n).world.engine.visible
    rw [StorageEngine.visible_length, hnotes.indexCount] at hle
    exact hle.trans hn
  rw [storageQueryEvents_events lib filter rfl hnotes.initialized
    hinv.index.nodup_fileIndex 500, noteList_events,
    List.take_of_length_le (by rwa [List.length_reverse]), Prod.mk.injEq,
    List.reverse_inj] at hquery
  exact hquery.2

/-- Every note passes the query for the address of the notes. -/
theorem note_passes
    {lib : Libnostr}
    (haddress : lib.AddressLaws)
    (n : Nat) :
    (noteItem lib n).passes lib
      (addressFilter 1 (lib.bytesToHex (Sample.numbered 0).pubkey.toList) 1700000000) = true := by
  have hdescribes : Describes (noteItem lib n).record (Sample.numbered n) :=
    ⟨rfl, rfl, rfl, rfl⟩
  have hdate : ((uint32OfInt64 1700000000).toNat : Int) ≤ (1700000000 : Int64).toInt := by
    decide
  have hindex : indexMatchesFilter lib (noteItem lib n).record
      (addressFilter 1 (lib.bytesToHex (Sample.numbered n).pubkey.toList) 1700000000) = true :=
    (address_index_iff haddress hdescribes rfl (by decide) (by decide)).mpr hdate
  have hevent := haddress.accepts 1 (Sample.numbered n) 1700000000 rfl (Int.le_refl _)
  exact Bool.and_eq_true_iff.mpr ⟨hindex, hevent⟩

/-- The address of the notes. -/
def notesAddress : CString :=
  ascii "1:" ++ Sample.hexOf (Sample.numbered 0).pubkey.toList ++ ascii ":"

/--
**No event of an address is left exactly when the query for it finds them all.**  For every
state the storage can reach with no NVS call failing before a restart, and every request with a
positive 32-bit date that carries the address, with a `d` tag of at most 255 bytes without white
space.
-/
theorem address_cleared_iff
    (lib : Libnostr)
    (hlib : lib.StorageLaws)
    (hcut : lib.TruncationLaw)
    (haddress : lib.AddressLaws)
    (capacity : Nat)
    (ttl : UInt32)
    (hcapacity : capacity ≤ storageIndexEntries)
    (past : List FlashOp)
    (hdurable : Durable capacity past)
    (hsaves : flashSaves past < 2 ^ 32)
    (pubkey : Bytes32)
    (addr : CString)
    (kind : Int32)
    (dTag : CString)
    (hparts : addressParts addr = some (kind, lib.bytesToHex pubkey.toList, dTag))
    (hlength : dTag.length ≤ 255)
    (hspaces : ∀ c ∈ dTag, isSpace c = false)
    (createdAt : Int64)
    (hpos : 0 < createdAt.toInt)
    (hfits : createdAt.toInt < 2 ^ 32)
    (now : UInt32) :
    let w := finalState (flashStep lib) (erasedFlash capacity ttl hcapacity) past
    AddressCleared lib pubkey addr createdAt now w ↔
      ∀ e event, AddressTarget lib addr createdAt now w e event →
        WithinReach lib (addressFilter kind (lib.bytesToHex pubkey.toList) createdAt) now w
          e event := by
  intro w
  have hplain := plain_of_parts haddress hparts hlength hspaces
  have hstart := attributed_of_run lib ttl hcapacity past hdurable hsaves
  have hinitialized := (flashInv_run lib ttl hcapacity past hdurable hsaves).initialized
  constructor
  · intro hcleared e event htarget
    exact found_of_cleared hlib hcut haddress hplain hparts hpos hfits hstart hinitialized
      hcleared htarget
  · intro hfound
    exact cleared_of_found hlib hcut haddress hplain hparts hpos hfits hstart hinitialized hfound

/-- The address of the article `my`, which is stored. -/
theorem address_cleared_iff_my_article :
    let addr := ascii "30023:" ++ Sample.hexOf myArticle.pubkey.toList ++ ascii ":my"
    AddressCleared (Sample.library [myArticle]) myArticle.pubkey addr 1700000000 1700000000
        myArticleFlash ↔
      ∀ e event,
        AddressTarget (Sample.library [myArticle]) addr 1700000000 1700000000 myArticleFlash
          e event →
        WithinReach (Sample.library [myArticle])
          (addressFilter 30023 (Sample.hexOf myArticle.pubkey.toList) 1700000000) 1700000000
          myArticleFlash e event := by
  intro addr
  have hids : ([myArticle].map (·.id)).Nodup := List.nodup_singleton _
  have hspaces : ∀ c ∈ ascii "my", isSpace c = false := by
    have hnone : (ascii "my").any isSpace = false := by
      decide
    simpa using hnone
  exact address_cleared_iff (Sample.library [myArticle])
    (Sample.library_storageLaws hids) (Sample.library_truncationLaw hids)
    (library_addressLaws _) 1000 1814400 thousandSlots myArticleSaved
    myArticleSaved_durable flashSaves_myArticleSaved
    myArticle.pubkey addr 30023 (ascii "my") (by decide +kernel) (by decide) hspaces
    1700000000 (by decide) (by decide) 1700000000

/-- Of 101 notes with one address, the one saved first is left. -/
theorem first_of_101_notes_is_left :
    let lib := Sample.library (Sample.notes 101)
    (∃ e, AddressTarget lib notesAddress 1700000000 1700000000 (noteStore lib 101) e
        (Sample.numbered 0)) ∧
      ¬ AddressCleared lib (Sample.numbered 0).pubkey notesAddress 1700000000 1700000000
        (noteStore lib 101) := by
  intro lib
  let filter := addressFilter 1 (lib.bytesToHex (Sample.numbered 0).pubkey.toList) 1700000000
  have hids := Sample.notes_ids_nodup (n := 101) (by decide)
  have hlib : lib.StorageLaws := Sample.library_storageLaws hids
  have hcut : lib.TruncationLaw := Sample.library_truncationLaw hids
  have hmatching : matchingEvents lib (CallEnv.undisturbed 1700000000) (noteStore lib 101).world
      filter = Sample.notes 101 := by
    exact matchingEvents_notes hlib (by decide) serialize_notes fun i _ =>
      ⟨rfl, note_passes (library_addressLaws _) i⟩
  have hstart : Attributed lib (noteStore lib 101) := by
    refine attributed_of_run lib 1814400 thousandSlots _ (durable_of_runs 1000 ?_) ?_
    · intro op hop
      obtain ⟨i, -, rfl⟩ := List.mem_map.mp hop
      rfl
    · have hle : flashSaves ((List.range 101).map saveNote) ≤ _ := List.countP_le_length
      rw [List.length_map, List.length_range] at hle
      omega
  have hinitialized := (holdsNotes_noteStore lib (n := 101) (by decide) serialize_notes).initialized
  have hparts : addressParts notesAddress =
      some (1, lib.bytesToHex (Sample.numbered 0).pubkey.toList, []) := by
    decide +kernel
  have hmem : Sample.numbered 0 ∈ matchingEvents lib (CallEnv.undisturbed 1700000000)
      (noteStore lib 101).world filter := by
    rw [hmatching]
    exact Sample.numbered_mem_notes (by decide)
  obtain ⟨e, hvisible, hmatch⟩ := List.mem_filterMap.mp hmem
  obtain ⟨⟨hlive, hunexpired, -⟩, -, -⟩ := matchOf_eq_some.mp hmatch
  have htarget : AddressTarget lib notesAddress 1700000000 1700000000 (noteStore lib 101) e
      (Sample.numbered 0) :=
    { mem := mem_live.mpr ⟨hvisible, hlive⟩
      unexpired := hunexpired
      stores := hstart.stores_of_matchOf hlib hcut hvisible hmatch
      address := ⟨1, hparts, by decide⟩
      dated := by decide }
  refine ⟨⟨e, htarget⟩, fun hcleared => ?_⟩
  have hwithin := found_of_cleared hlib hcut (library_addressLaws _)
    (plain_of_parts (library_addressLaws _) hparts (by decide) (by simp)) hparts (by decide)
    (by decide) hstart hinitialized hcleared htarget
  have hreturned := ((returned_iff_later hlib hcut hstart.index hstart.owned rfl hinitialized 100
    htarget.mem (Sample.numbered 0)).mpr ⟨hmatch, hwithin.recent⟩).1
  rw [storageQueryEvents_events lib filter rfl hinitialized hstart.index.nodup_fileIndex 100,
    hmatching, List.take_reverse, List.mem_reverse] at hreturned
  have hnotes : (Sample.notes 101).drop ((Sample.notes 101).length - queryLimit 100) =
      (List.range' 1 100).map Sample.numbered := by
    rfl
  rw [hnotes] at hreturned
  obtain ⟨i, hi, hsame⟩ := List.mem_map.mp hreturned
  rw [List.mem_range'_1] at hi
  have hzero := Sample.numbered_id_injective (by omega) (by omega) (congrArg NostrEvent.id hsame)
  omega

end Relay
end WispRelay
