import WispRelay.Nostr.SampleLibrary
import WispRelay.Storage.QueryResults
import WispRelay.Storage.Restart

/-!
# The events a query chooses from

A query reads the records from the one saved last on and stops at its limit.  So its results are
the last of the stored events that match, in the order they were saved, whatever the times are
that the events carry.

* `matchOf` and `matchingEvents`: the stored events that match a filter and have not expired.
* `storageQueryEvents_events`: the results are the first `limit` of them, from the last one on.
* `returned_iff_later`: a match is a result when fewer than `limit` were saved after it.
* `newest_returned_iff`: no event left out is newer than a result exactly when the events saved
  last are the newest ones.
-/

namespace WispRelay
namespace Storage

open Runs

/-! ## What matches -/

/-- The event a query reads from a record, when it has not expired and matches. -/
def matchOf
    (lib : Libnostr)
    (env : CallEnv)
    (files : Files)
    (filter : NostrFilter)
    (e : StorageIndexEntry) : Option NostrEvent :=
  if e.isDeleted || e.isExpired env.now || !indexMatchesFilter lib e filter then none
  else (loadEventFromFile lib env files (e.path lib)).filter (lib.filterMatches filter)

/-- The unexpired stored events that match a filter, in the order they were saved. -/
def matchingEvents
    (lib : Libnostr)
    (env : CallEnv)
    (world : StorageWorld)
    (filter : NostrFilter) : List NostrEvent :=
  world.engine.visible.filterMap (matchOf lib env world.files filter)

section Scan

variable
  {lib : Libnostr}
  {env : CallEnv}
  {filter : NostrFilter}

theorem matchOf_eq_some
    {files : Files}
    {e : StorageIndexEntry}
    {event : NostrEvent} :
    matchOf lib env files filter e = some event ↔
      (e.isDeleted = false ∧ e.isExpired env.now = false ∧
          indexMatchesFilter lib e filter = true) ∧
        loadEventFromFile lib env files (e.path lib) = some event ∧
        lib.filterMatches filter event = true := by
  unfold matchOf
  split_ifs with hskip
  · simp only [Bool.or_eq_true, Bool.not_eq_true'] at hskip
    constructor
    · intro h
      cases h
    · rintro ⟨⟨hlive, hunexpired, hindex⟩, -⟩
      simp [hlive, hunexpired, hindex] at hskip
  · simp only [Bool.or_eq_true, Bool.not_eq_true', not_or, Bool.not_eq_true,
      Bool.not_eq_false] at hskip
    rw [Option.filter_eq_some_iff]
    exact ⟨fun h => ⟨⟨hskip.1.1, hskip.1.2, hskip.2⟩, h⟩, fun h => h.2⟩

/-- A record with another path is read as before when a file is gone. -/
theorem matchOf_unlink
    (files : Files)
    {path : CString}
    {e : StorageIndexEntry}
    (hne : e.path lib ≠ path) :
    matchOf lib env (unlink env files path) filter e = matchOf lib env files filter e := by
  unfold matchOf
  rw [loadEventFromFile_congr lib env (unlink_of_ne env files hne)]

variable (lib env filter) in
/-- The results of a scan are the first of the matching events that there is room for. -/
theorem queryScan_events
    (limit : Nat)
    (entries : List StorageIndexEntry) :
    ∀ (files : Files) (events : List NostrEvent),
      (entries.map (·.fileIndex)).Nodup →
      (queryScan lib env filter limit entries files events).events =
        events ++ (entries.filterMap (matchOf lib env files filter)).take
          (limit - events.length) := by
  induction entries with
  | nil => simp [queryScan]
  | cons entry older ih =>
      intro files events hnodup
      rw [List.map_cons, List.nodup_cons] at hnodup
      unfold queryScan
      split_ifs with hfull hdeleted hexpired hskip
      · rw [Nat.sub_eq_zero_of_le hfull, List.take_zero, List.append_nil]
      · rw [List.filterMap_cons_none (by simp [matchOf, hdeleted])]
        exact ih files events hnodup.2
      · -- the file of an expired record is not that of an older one
        have hother : older.filterMap (matchOf lib env (unlink env files (entry.path lib)) filter) =
            older.filterMap (matchOf lib env files filter) := by
          refine List.filterMap_congr fun e hmem => matchOf_unlink files ?_
          intro hpath
          refine hnodup.1 ?_
          rw [← getEventPath_fileIndex hpath]
          exact List.mem_map_of_mem hmem
        rw [List.filterMap_cons_none (by simp [matchOf, hexpired]), ← hother]
        exact ih _ events hnodup.2
      · rw [List.filterMap_cons_none (by simp [matchOf, hskip])]
        exact ih files events hnodup.2
      · simp only [Bool.not_eq_true, Bool.not_eq_true', Bool.not_eq_false]
          at hdeleted hexpired hskip
        cases hload : loadEventFromFile lib env files (entry.path lib) with
        | none =>
            rw [List.filterMap_cons_none (by simp [matchOf, hload])]
            exact ih files events hnodup.2
        | some event =>
            dsimp only
            by_cases hmatches : lib.filterMatches filter event = true
            · have hhit : matchOf lib env files filter entry = some event :=
                matchOf_eq_some.mpr ⟨⟨hdeleted, hexpired, hskip⟩, hload, hmatches⟩
              have hroom : limit - events.length = limit - (events ++ [event]).length + 1 := by
                rw [List.length_append, List.length_singleton]
                omega
              rw [if_pos hmatches, ih files _ hnodup.2, List.filterMap_cons_some hhit, hroom,
                List.take_succ_cons, List.append_assoc, List.singleton_append]
            · rw [if_neg hmatches,
                List.filterMap_cons_none (by simp [matchOf, hload, hmatches])]
              exact ih files events hnodup.2

variable (lib filter) in
/-- The results of a query are the last of the matching events, from the last one on. -/
theorem storageQueryEvents_events
    (hmalloc : env.mallocOk = true)
    {world : StorageWorld}
    (hinit : world.engine.initialized = true)
    (hnodup : (world.engine.visible.map (·.fileIndex)).Nodup)
    (limit : UInt16) :
    (storageQueryEvents lib env world filter limit).1 =
      (.storageOk, (matchingEvents lib env world filter).reverse.take (queryLimit limit)) := by
  have hscan := queryScan_events lib env filter (queryLimit limit)
    world.engine.visible.reverse world.files [] (by
      rw [List.map_reverse]
      exact List.nodup_reverse.mpr hnodup)
  simp only [storageQueryEvents, hinit, hmalloc, Bool.not_true, Bool.false_eq_true, if_false]
  rw [hscan, List.nil_append, List.length_nil, Nat.sub_zero, List.filterMap_reverse]
  rfl

end Scan

/-- What is read from live records has their identifiers. -/
theorem ids_sublist_live
    {read : StorageIndexEntry → Option NostrEvent}
    {entries : List StorageIndexEntry}
    (hid : ∀ e ∈ entries, ∀ event, read e = some event →
      e.isDeleted = false ∧ event.id = e.eventId) :
    ((entries.filterMap read).map NostrEvent.id).Sublist ((live entries).map (·.eventId)) := by
  induction entries with
  | nil => exact List.Sublist.refl _
  | cons e rest ih =>
      have hrest := ih fun e' hmem => hid e' (List.mem_cons_of_mem _ hmem)
      cases hread : read e with
      | none =>
          rw [List.filterMap_cons_none hread, live_cons]
          split
          · exact hrest
          · exact hrest.cons _
      | some event =>
          obtain ⟨hlive, heq⟩ := hid e List.mem_cons_self event hread
          rw [List.filterMap_cons_some hread, live_cons, if_neg (by simp [hlive]),
            List.map_cons, List.map_cons, heq]
          exact hrest.cons_cons _

/-- What matches is read from a live record with its identifier. -/
theorem live_of_matchOf
    {lib : Libnostr}
    (hlib : lib.StorageLaws)
    (hcut : lib.TruncationLaw)
    {stale : StorageIndexEntry → Prop}
    {owner : StorageIndexEntry → Option NostrEvent}
    {env : CallEnv}
    {world : StorageWorld}
    (howned : Owned lib stale owner world.engine.visible world.files)
    {filter : NostrFilter}
    {e : StorageIndexEntry}
    (hmem : e ∈ world.engine.visible)
    {event : NostrEvent}
    (hmatch : matchOf lib env world.files filter e = some event) :
    e ∈ live world.engine.visible ∧ event.id = e.eventId := by
  obtain ⟨⟨hlive, -, -⟩, hload, -⟩ := matchOf_eq_some.mp hmatch
  have hmem' := mem_live.mpr ⟨hmem, hlive⟩
  obtain ⟨event', -, hdescribes, hwritten, -⟩ := howned e hmem'
  obtain rfl := hwritten.eq_of_load hlib hcut hload
  exact ⟨hmem', hdescribes.eventId.symm⟩

/-- Distinct records give distinct events. -/
theorem matchingEvents_nodup
    {lib : Libnostr}
    (hlib : lib.StorageLaws)
    (hcut : lib.TruncationLaw)
    {stale : StorageIndexEntry → Prop}
    {owner : StorageIndexEntry → Option NostrEvent}
    {world : StorageWorld}
    (hindex : WellIndexed world.engine.visible world.engine.nextFileIndex)
    (howned : Owned lib stale owner world.engine.visible world.files)
    (env : CallEnv)
    (filter : NostrFilter) :
    (matchingEvents lib env world filter).Nodup := by
  have hid : ∀ e ∈ world.engine.visible, ∀ event,
      matchOf lib env world.files filter e = some event →
      e.isDeleted = false ∧ event.id = e.eventId := by
    intro e hmem event hmatch
    obtain ⟨hlive, heq⟩ := live_of_matchOf hlib hcut howned hmem hmatch
    exact ⟨(mem_live.mp hlive).2, heq⟩
  exact List.Nodup.of_map NostrEvent.id ((ids_sublist_live hid).nodup hindex.uniqueIds)

/-! ## Matches within the limit -/

/-- The records in use that match a filter and were made after the record. -/
def laterMatches
    (lib : Libnostr)
    (env : CallEnv)
    (world : StorageWorld)
    (filter : NostrFilter)
    (e : StorageIndexEntry) : List StorageIndexEntry :=
  world.engine.visible.filter fun e' =>
    decide (e.fileIndex.toNat < e'.fileIndex.toNat) &&
      (matchOf lib env world.files filter e').isSome

/-- An element is among the first `n` when fewer than `n` come before it. -/
theorem mem_take_append_cons
    {α : Type}
    {front back : List α}
    {a : α}
    (hnew : a ∉ front)
    (n : Nat) :
    a ∈ (front ++ a :: back).take n ↔ front.length < n := by
  rw [List.take_append, List.mem_append]
  constructor
  · rintro (hfront | hback)
    · exact absurd (List.mem_of_mem_take hfront) hnew
    · by_contra hle
      rw [Nat.sub_eq_zero_of_le (Nat.le_of_not_lt hle), List.take_zero] at hback
      cases hback
  · intro hlt
    right
    obtain ⟨k, hk⟩ := Nat.exists_eq_add_of_lt hlt
    have hroom : n - front.length = k + 1 := by omega
    rw [hroom, List.take_succ_cons]
    exact List.mem_cons_self

/-- The matches after a record are those of the records behind it. -/
theorem laterMatches_eq
    {lib : Libnostr}
    {env : CallEnv}
    {world : StorageWorld}
    {filter : NostrFilter}
    {e : StorageIndexEntry}
    {older newer : List StorageIndexEntry}
    (hindex : WellIndexed world.engine.visible world.engine.nextFileIndex)
    (hsplit : world.engine.visible = older ++ e :: newer) :
    laterMatches lib env world filter e =
      newer.filter fun e' => (matchOf lib env world.files filter e').isSome := by
  have hincreasing := hindex.increasing
  rw [hsplit, List.pairwise_append, List.pairwise_cons] at hincreasing
  obtain ⟨-, ⟨hnewer, -⟩, holder⟩ := hincreasing
  have hnone : older.filter (fun e' => decide (e.fileIndex.toNat < e'.fileIndex.toNat) &&
      (matchOf lib env world.files filter e').isSome) = [] := by
    rw [List.filter_eq_nil_iff]
    intro e' hmem hlater
    have hbefore := holder e' hmem e List.mem_cons_self
    simp only [Bool.and_eq_true, decide_eq_true_eq] at hlater
    omega
  rw [laterMatches, hsplit, List.filter_append, hnone, List.nil_append,
    List.filter_cons_of_neg (by simp)]
  refine List.filter_congr fun e' hmem => ?_
  simp [hnewer e' hmem]

/--
**A query returns a match exactly when fewer than its limit were saved after it.**  The match is
that of a live record.
-/
theorem returned_iff_later
    {lib : Libnostr}
    (hlib : lib.StorageLaws)
    (hcut : lib.TruncationLaw)
    {stale : StorageIndexEntry → Prop}
    {owner : StorageIndexEntry → Option NostrEvent}
    {env : CallEnv}
    {world : StorageWorld}
    (hindex : WellIndexed world.engine.visible world.engine.nextFileIndex)
    (howned : Owned lib stale owner world.engine.visible world.files)
    {filter : NostrFilter}
    (hmalloc : env.mallocOk = true)
    (hinit : world.engine.initialized = true)
    (limit : UInt16)
    {e : StorageIndexEntry}
    (hmem : e ∈ live world.engine.visible)
    (event : NostrEvent) :
    event ∈ (storageQueryEvents lib env world filter limit).1.2 ∧ event.id = e.eventId ↔
      matchOf lib env world.files filter e = some event ∧
        (laterMatches lib env world filter e).length < queryLimit limit := by
  have hnodup := matchingEvents_nodup hlib hcut hindex howned env filter
  obtain ⟨older, newer, hsplit⟩ := List.append_of_mem (mem_live.mp hmem).1
  have hlater : (laterMatches lib env world filter e).length =
      (newer.filterMap (matchOf lib env world.files filter)).length := by
    rw [laterMatches_eq hindex hsplit, List.length_filterMap_eq_countP,
      List.countP_eq_length_filter]
  have hmatch_or : event ∈ (storageQueryEvents lib env world filter limit).1.2 →
      event.id = e.eventId → matchOf lib env world.files filter e = some event := by
    intro hreturned hid
    rw [storageQueryEvents_events lib filter hmalloc hinit hindex.nodup_fileIndex limit]
      at hreturned
    have hmatching := List.mem_reverse.mp (List.mem_of_mem_take hreturned)
    obtain ⟨e', hmem', hmatch⟩ := List.mem_filterMap.mp hmatching
    obtain ⟨hlive', hid'⟩ := live_of_matchOf hlib hcut howned hmem' hmatch
    obtain rfl : e' = e := hindex.eq_of_eventId hlive' hmem (hid'.symm.trans hid)
    exact hmatch
  have hposition : matchOf lib env world.files filter e = some event →
      (event ∈ (storageQueryEvents lib env world filter limit).1.2 ↔
        (laterMatches lib env world filter e).length < queryLimit limit) := by
    intro hmatch
    have hlist : (matchingEvents lib env world filter).reverse =
        (newer.filterMap (matchOf lib env world.files filter)).reverse ++
          event :: (older.filterMap (matchOf lib env world.files filter)).reverse := by
      rw [matchingEvents, hsplit, List.filterMap_append, List.filterMap_cons_some hmatch]
      simp
    have hnew : event ∉ (newer.filterMap (matchOf lib env world.files filter)).reverse := by
      rw [← List.nodup_reverse, hlist, List.nodup_append] at hnodup
      exact fun hfront => hnodup.2.2 event hfront event List.mem_cons_self rfl
    rw [storageQueryEvents_events lib filter hmalloc hinit hindex.nodup_fileIndex limit, hlist,
      mem_take_append_cons hnew, List.length_reverse, hlater]
  constructor
  · rintro ⟨hreturned, hid⟩
    have hmatch := hmatch_or hreturned hid
    exact ⟨hmatch, (hposition hmatch).mp hreturned⟩
  · rintro ⟨hmatch, hfew⟩
    exact ⟨(hposition hmatch).mpr hfew,
      (live_of_matchOf hlib hcut howned (mem_live.mp hmem).1 hmatch).2⟩

/-! ## The newest events -/

/-- No matching event that a query leaves out is newer than one of its results. -/
def ReturnsNewest
    (lib : Libnostr)
    (env : CallEnv)
    (world : StorageWorld)
    (filter : NostrFilter)
    (limit : UInt16) : Prop :=
  ∀ left ∈ matchingEvents lib env world filter,
    left ∉ (storageQueryEvents lib env world filter limit).1.2 →
    ∀ returned ∈ (storageQueryEvents lib env world filter limit).1.2,
      left.createdAt ≤ returned.createdAt

/-- None of the events before the last `n` of a list is newer than one of these. -/
def LastAreNewest
    (n : Nat)
    (events : List NostrEvent) : Prop :=
  ∀ earlier ∈ events.take (events.length - n), ∀ later ∈ events.drop (events.length - n),
    earlier.createdAt ≤ later.createdAt

/-- At most `n` events. -/
theorem lastAreNewest_of_length_le
    {n : Nat}
    {events : List NostrEvent}
    (hlength : events.length ≤ n) :
    LastAreNewest n events := by
  intro earlier hearlier
  rw [Nat.sub_eq_zero_of_le hlength, List.take_zero] at hearlier
  cases hearlier

/-- Events that were saved in the order of their times. -/
theorem lastAreNewest_of_ordered
    (n : Nat)
    {events : List NostrEvent}
    (hordered : events.Pairwise (fun event event' => event.createdAt ≤ event'.createdAt)) :
    LastAreNewest n events := by
  rw [← List.take_append_drop (events.length - n) events, List.pairwise_append] at hordered
  exact hordered.2.2

/-- A note, and an older one that arrives after it. -/
def lateArrival : List NostrEvent :=
  [Sample.numbered 0, { Sample.numbered 1 with createdAt := 1699999000 }]

/-- The two are saved as they arrive. -/
def lateArrivalSaved : List FlashOp :=
  lateArrival.map fun event => .run ⟨.save event, CallEnv.undisturbed 1700000000⟩

/-- The storage with the two. -/
def lateArrivalStored : StorageWorld :=
  (finalState (flashStep (Sample.library lateArrival)) (erasedFlash 1000 1814400 thousandSlots)
    lateArrivalSaved).world

/--
**A query returns the newest events exactly when those saved last are the newest ones.**  For
every state the storage can reach with no NVS call failing before a restart, every filter and every
limit.
-/
theorem newest_returned_iff
    (lib : Libnostr)
    (hlib : lib.StorageLaws)
    (hcut : lib.TruncationLaw)
    (capacity : Nat)
    (ttl : UInt32)
    (hcapacity : capacity ≤ storageIndexEntries)
    (past : List FlashOp)
    (hdurable : Durable capacity past)
    (hsaves : flashSaves past < 2 ^ 32)
    (env : CallEnv)
    (hmalloc : env.mallocOk = true)
    (filter : NostrFilter)
    (limit : UInt16) :
    let world := (finalState (flashStep lib) (erasedFlash capacity ttl hcapacity) past).world
    ReturnsNewest lib env world filter limit ↔
      LastAreNewest (queryLimit limit) (matchingEvents lib env world filter) := by
  intro world
  have hinv := flashInv_run lib ttl hcapacity past hdurable hsaves
  have hnodup := matchingEvents_nodup hlib hcut hinv.index hinv.owned env filter
  have hresults := storageQueryEvents_events lib filter hmalloc
    hinv.initialized hinv.index.nodup_fileIndex limit
  have hsplit := List.take_append_drop
    ((matchingEvents lib env world filter).length - queryLimit limit)
    (matchingEvents lib env world filter)
  have hreturned : ∀ event, event ∈ (storageQueryEvents lib env world filter limit).1.2 ↔
      event ∈ (matchingEvents lib env world filter).drop
        ((matchingEvents lib env world filter).length - queryLimit limit) := by
    intro event
    rw [hresults, List.take_reverse, List.mem_reverse]
  have hleft : ∀ event ∈ matchingEvents lib env world filter,
      event ∉ (matchingEvents lib env world filter).drop
          ((matchingEvents lib env world filter).length - queryLimit limit) ↔
        event ∈ (matchingEvents lib env world filter).take
          ((matchingEvents lib env world filter).length - queryLimit limit) := by
    intro event hmem
    rw [← hsplit, List.nodup_append] at hnodup
    rw [← hsplit, List.mem_append] at hmem
    constructor
    · exact fun hnot => hmem.resolve_right hnot
    · exact fun htake hdrop => hnodup.2.2 event htake event hdrop rfl
  constructor
  · intro h earlier hearlier later hlater
    have hmem := List.mem_of_mem_take hearlier
    refine h earlier hmem ?_ later ((hreturned later).mpr hlater)
    rw [hreturned]
    exact (hleft earlier hmem).mpr hearlier
  · intro h left hmem hnot returned hreturned'
    rw [hreturned] at hnot
    exact h left ((hleft left hmem).mp hnot) returned ((hreturned returned).mp hreturned')

/-- With room for both, nothing newer is left out. -/
theorem newest_returned_iff_late_arrival :
    ReturnsNewest (Sample.library lateArrival) (CallEnv.undisturbed 1700000000)
      lateArrivalStored {} 100 := by
  have hids : (lateArrival.map (·.id)).Nodup := by decide +kernel
  refine (newest_returned_iff (Sample.library lateArrival) (Sample.library_storageLaws hids)
    (Sample.library_truncationLaw hids) 1000 1814400 thousandSlots lateArrivalSaved
    (durable_of_runs 1000 (by simp [lateArrivalSaved, FlashOp.isRestart])) (by decide +kernel)
    (CallEnv.undisturbed 1700000000) rfl {} 100).mpr ?_
  exact lastAreNewest_of_length_le (by decide +kernel)

/-- A query for one event returns the one that arrived last and leaves the newer one out. -/
theorem late_arrival_hides_newer :
    let newer := Sample.numbered 0
    let older : NostrEvent := { Sample.numbered 1 with createdAt := 1699999000 }
    let lib := Sample.library lateArrival
    let env := CallEnv.undisturbed 1700000000
    matchingEvents lib env lateArrivalStored {} = [newer, older] ∧
      (storageQueryEvents lib env lateArrivalStored {} 1).1 = (.storageOk, [older]) ∧
      ¬ ReturnsNewest lib env lateArrivalStored {} 1 := by
  intro newer older lib env
  have hmatching : matchingEvents lib env lateArrivalStored {} = [newer, older] := by
    decide +kernel
  have hresults : (storageQueryEvents lib env lateArrivalStored {} 1).1 =
      (.storageOk, [older]) := by
    decide +kernel
  refine ⟨hmatching, hresults, ?_⟩
  intro h
  have hle : newer.createdAt ≤ older.createdAt := by
    refine h newer (by simp [hmatching]) ?_ older (by simp [hresults])
    rw [hresults, List.mem_singleton]
    decide +kernel
  exact absurd hle (by decide)

end Storage
end WispRelay
