import WispRelay.Storage.IndexInvariant

/-!
# Where results come from

Every event a query returns was read from the file of a record that is live and not expired,
and that passed the two filters; and what is read from the file of a record is the event the
record was made for.  The only thing that happens to a file during the scan is that it is
removed, and that only to files of expired records, so no result is missed below the limit.
-/

namespace WispRelay
namespace Storage

/-- A record whose file an event was read from, with what the scan checked. -/
structure ReadFrom
    (lib : Libnostr)
    (env : CallEnv)
    (filter : NostrFilter)
    (files : Files)
    (e : StorageIndexEntry)
    (event : NostrEvent) : Prop where
  live : e.isDeleted = false
  unexpired : e.isExpired env.now = false
  indexMatches : indexMatchesFilter lib e filter = true
  filterMatches : lib.filterMatches filter event = true
  loaded : ∃ files' : Files,
    (∀ p, files' p = files p ∨ files' p = none) ∧
      loadEventFromFile lib env files' (e.path lib) = some event

/-- A file that was removed in between does not make more results. -/
theorem ReadFrom.of_unlink
    {lib : Libnostr}
    {env : CallEnv}
    {filter : NostrFilter}
    {files : Files}
    {path : CString}
    {e : StorageIndexEntry}
    {event : NostrEvent}
    (h : ReadFrom lib env filter (unlink env files path) e event) :
    ReadFrom lib env filter files e event where
  live := h.live
  unexpired := h.unexpired
  indexMatches := h.indexMatches
  filterMatches := h.filterMatches
  loaded := by
    obtain ⟨files', hshrunk, hload⟩ := h.loaded
    refine ⟨files', ?_, hload⟩
    intro p
    rcases hshrunk p with hsame | hnone
    · rw [hsame]
      exact unlink_shrunk env files path p
    · exact Or.inr hnone

/-- The results of a scan were found before or are read from the records scanned. -/
theorem queryScan_source
    (lib : Libnostr)
    (env : CallEnv)
    (filter : NostrFilter)
    (limit : Nat)
    (entries : List StorageIndexEntry) :
    ∀ (files : Files) (events : List NostrEvent),
      ∀ event ∈ (queryScan lib env filter limit entries files events).events,
        event ∈ events ∨ ∃ e ∈ entries, ReadFrom lib env filter files e event := by
  induction entries with
  | nil =>
      intro files events event hmem
      exact Or.inl hmem
  | cons entry older ih =>
      intro files events event hmem
      have hskip : event ∈ (queryScan lib env filter limit older files events).events →
          event ∈ events ∨ ∃ e ∈ entry :: older, ReadFrom lib env filter files e event := by
        intro hrest
        refine (ih files events event hrest).imp_right ?_
        rintro ⟨e, he, hread⟩
        exact ⟨e, List.mem_cons_of_mem _ he, hread⟩
      unfold queryScan at hmem
      split_ifs at hmem with hfull hdeleted hexpired hmismatch
      · exact Or.inl hmem
      · exact hskip hmem
      · refine (ih _ events event hmem).imp_right ?_
        rintro ⟨e, he, hread⟩
        exact ⟨e, List.mem_cons_of_mem _ he, hread.of_unlink⟩
      · exact hskip hmem
      · cases hload : loadEventFromFile lib env files (entry.path lib) with
        | none =>
            simp only [hload] at hmem
            exact hskip hmem
        | some loaded =>
            simp only [hload] at hmem
            by_cases hmatches : lib.filterMatches filter loaded = true
            · rw [if_pos hmatches] at hmem
              rcases ih files (events ++ [loaded]) event hmem with hbefore | ⟨e, he, hread⟩
              · rcases List.mem_append.mp hbefore with hold | hnew
                · exact Or.inl hold
                · rw [List.mem_singleton.mp hnew]
                  exact Or.inr ⟨entry, List.mem_cons_self, by simpa using hdeleted,
                    by simpa using hexpired, by simpa using hmismatch, hmatches, files,
                    fun _ => Or.inl rfl, hload⟩
              · exact Or.inr ⟨e, List.mem_cons_of_mem _ he, hread⟩
            · rw [if_neg hmatches] at hmem
              exact hskip hmem

/-- The results of a query are read from records in use. -/
theorem storageQueryEvents_source
    {lib : Libnostr}
    {env : CallEnv}
    {world : StorageWorld}
    {filter : NostrFilter}
    {limit : UInt16}
    {event : NostrEvent}
    (hmem : event ∈ (storageQueryEvents lib env world filter limit).1.2) :
    ∃ e ∈ world.engine.visible, ReadFrom lib env filter world.files e event := by
  unfold storageQueryEvents at hmem
  split_ifs at hmem
  · simp at hmem
  · simp at hmem
  · rcases queryScan_source lib env filter (queryLimit limit) world.engine.visible.reverse
      world.files [] event hmem with hnil | ⟨e, he, hread⟩
    · simp at hnil
    · exact ⟨e, List.mem_reverse.mp he, hread⟩

/-! ## No result is missed -/

theorem loadEventFromFile_congr
    (lib : Libnostr)
    (env : CallEnv)
    {files files' : Files}
    {path : CString}
    (h : files' path = files path) :
    loadEventFromFile lib env files' path = loadEventFromFile lib env files path := by
  unfold loadEventFromFile
  rw [h]

/-- Results that were found stay. -/
theorem queryScan_keeps
    (lib : Libnostr)
    (env : CallEnv)
    (filter : NostrFilter)
    (limit : Nat)
    (entries : List StorageIndexEntry) :
    ∀ (files : Files) (events : List NostrEvent),
      events <+: (queryScan lib env filter limit entries files events).events := by
  induction entries with
  | nil =>
      intro files events
      exact List.prefix_rfl
  | cons entry older ih =>
      intro files events
      unfold queryScan
      split_ifs
      · exact List.prefix_rfl
      · exact ih _ _
      · exact ih _ _
      · exact ih _ _
      · cases loadEventFromFile lib env files (entry.path lib) with
        | none => exact ih _ _
        | some loaded =>
            by_cases hmatches : lib.filterMatches filter loaded = true
            · simp only [if_pos hmatches]
              exact (List.prefix_append _ _).trans (ih _ _)
            · simp only [if_neg hmatches]
              exact ih _ _

/-- A record that can be read and matches adds its event to the results. -/
theorem queryScan_hit
    {lib : Libnostr}
    {env : CallEnv}
    {filter : NostrFilter}
    {limit : Nat}
    {e : StorageIndexEntry}
    {event : NostrEvent}
    (hlive : e.isDeleted = false)
    (hunexpired : e.isExpired env.now = false)
    (hindex : indexMatchesFilter lib e filter = true)
    (hmatches : lib.filterMatches filter event = true)
    {files : Files}
    (hload : loadEventFromFile lib env files (e.path lib) = some event)
    {events : List NostrEvent}
    (hroom : events.length < limit)
    (older : List StorageIndexEntry) :
    event ∈ (queryScan lib env filter limit (e :: older) files events).events := by
  have hstep : (queryScan lib env filter limit (e :: older) files events).events =
      (queryScan lib env filter limit older files (events ++ [event])).events := by
    rw [queryScan, if_neg (Nat.not_le.mpr hroom), if_neg (by simp [hlive]),
      if_neg (by simp [hunexpired]), if_neg (by simp [hindex])]
    simp only [hload, if_pos hmatches]
  rw [hstep]
  refine (queryScan_keeps lib env filter limit older files (events ++ [event])).subset ?_
  simp

/-- The scan finds what it can read and match, unless it stops before. -/
theorem queryScan_complete
    {lib : Libnostr}
    {env : CallEnv}
    {filter : NostrFilter}
    (limit : Nat)
    {e : StorageIndexEntry}
    {event : NostrEvent}
    (hlive : e.isDeleted = false)
    (hunexpired : e.isExpired env.now = false)
    (hindex : indexMatchesFilter lib e filter = true)
    (hmatches : lib.filterMatches filter event = true)
    {entries : List StorageIndexEntry}
    (hnodup : (entries.map (·.fileIndex)).Nodup)
    (hmem : e ∈ entries) :
    ∀ (files : Files) (events : List NostrEvent),
      loadEventFromFile lib env files (e.path lib) = some event →
      event ∈ (queryScan lib env filter limit entries files events).events ∨
        limit ≤ (queryScan lib env filter limit entries files events).events.length := by
  induction entries with
  | nil => cases hmem
  | cons entry older ih =>
      intro files events hload
      rw [List.map_cons, List.nodup_cons] at hnodup
      by_cases hfull : limit ≤ events.length
      · right
        unfold queryScan
        rw [if_pos hfull]
        exact hfull
      rcases List.mem_cons.mp hmem with rfl | holder
      · exact .inl (queryScan_hit hlive hunexpired hindex hmatches hload (Nat.not_le.mp hfull)
          older)
      · have hpath : e.path lib ≠ entry.path lib := by
          intro hpath
          refine hnodup.1 ?_
          rw [← getEventPath_fileIndex hpath]
          exact List.mem_map_of_mem holder
        have hnext := ih hnodup.2 holder
        unfold queryScan
        rw [if_neg hfull]
        split_ifs
        · exact hnext files events hload
        · refine hnext _ events ?_
          rw [loadEventFromFile_congr lib env (unlink_of_ne env files hpath)]
          exact hload
        · exact hnext files events hload
        · cases loadEventFromFile lib env files (entry.path lib) with
          | none => exact hnext files events hload
          | some loaded => exact hnext files _ hload

/-- A query returns what it can read and match, unless it reaches its limit. -/
theorem storageQueryEvents_complete
    {lib : Libnostr}
    {env : CallEnv}
    (hmalloc : env.mallocOk = true)
    {world : StorageWorld}
    (hinit : world.engine.initialized = true)
    (hnodup : (world.engine.visible.map (·.fileIndex)).Nodup)
    {filter : NostrFilter}
    (limit : UInt16)
    {e : StorageIndexEntry}
    {event : NostrEvent}
    (hmem : e ∈ live world.engine.visible)
    (hunexpired : e.isExpired env.now = false)
    (hindex : indexMatchesFilter lib e filter = true)
    (hload : loadEventFromFile lib env world.files (e.path lib) = some event)
    (hmatches : lib.filterMatches filter event = true) :
    event ∈ (storageQueryEvents lib env world filter limit).1.2 ∨
      queryLimit limit ≤ (storageQueryEvents lib env world filter limit).1.2.length := by
  obtain ⟨hvisible, hlive⟩ := mem_live.mp hmem
  simp only [storageQueryEvents, hinit, hmalloc, Bool.not_true, Bool.false_eq_true, if_false]
  refine queryScan_complete (queryLimit limit) hlive hunexpired hindex hmatches ?_
    (List.mem_reverse.mpr hvisible) world.files [] hload
  rw [List.map_reverse]
  exact List.nodup_reverse.mpr hnodup

/-! ## Files hold what they were written for -/

/-- The file at a path can be read as an event. -/
def ParsesTo
    (lib : Libnostr)
    (files : Files)
    (path : CString)
    (event : NostrEvent) : Prop :=
  ∃ json, files path = some json ∧ 0 < json.length ∧ json.length ≤ storageMaxEventSize ∧
    lib.eventParse json = some event

theorem parsesTo_of_load
    {lib : Libnostr}
    {env : CallEnv}
    {files : Files}
    {path : CString}
    {event : NostrEvent}
    (hload : loadEventFromFile lib env files path = some event) :
    ParsesTo lib files path event := by
  unfold loadEventFromFile at hload
  split at hload
  · cases hload
  · rename_i json hjson
    split at hload
    · cases hload
    · rename_i hsize
      rw [not_or, not_lt] at hsize
      split at hjson
      · exact ⟨json, hjson, Nat.pos_of_ne_zero hsize.1, hsize.2, hload⟩
      · cases hjson

theorem ParsesTo.load
    {lib : Libnostr}
    {env : CallEnv}
    {files : Files}
    {path : CString}
    {event : NostrEvent}
    (h : ParsesTo lib files path event)
    (hread : env.readOk path = true) :
    loadEventFromFile lib env files path = some event := by
  obtain ⟨json, hjson, hpos, hsize, hparse⟩ := h
  have hfits : ¬ (json.length = 0 ∨ storageMaxEventSize < json.length) := by
    omega
  simp only [loadEventFromFile, hread, if_true, hjson, if_neg hfits, hparse]

/-- A file holds one event. -/
theorem ParsesTo.unique
    {lib : Libnostr}
    {files : Files}
    {path : CString}
    {event event' : NostrEvent}
    (h : ParsesTo lib files path event)
    (h' : ParsesTo lib files path event') :
    event = event' := by
  obtain ⟨json, hjson, -, -, hparse⟩ := h
  obtain ⟨json', hjson', -, -, hparse'⟩ := h'
  obtain rfl : json = json' := Option.some.inj (hjson.symm.trans hjson')
  exact Option.some.inj (hparse.symm.trans hparse')

/-- A file that is there when others are gone was there before. -/
theorem ParsesTo.of_shrunk
    {lib : Libnostr}
    {files files' : Files}
    (hshrunk : ∀ p, files' p = files p ∨ files' p = none)
    {path : CString}
    {event : NostrEvent}
    (h : ParsesTo lib files' path event) :
    ParsesTo lib files path event := by
  obtain ⟨json, hjson, hrest⟩ := h
  rcases hshrunk path with hsame | hnone
  · exact ⟨json, hsame ▸ hjson, hrest⟩
  · rw [hnone] at hjson
    cases hjson

section Owners

variable
  {lib : Libnostr}
  (hlib : lib.StorageLaws)
  (hcut : lib.TruncationLaw)
include hlib hcut

/-- What is read at a path is the event the file was written for. -/
theorem WrittenFor.eq_of_load
    {env : CallEnv}
    {files : Files}
    {path : CString}
    {event event' : NostrEvent}
    (h : WrittenFor lib event (files path))
    (hload : loadEventFromFile lib env files path = some event') :
    event' = event := by
  unfold loadEventFromFile at hload
  split at hload
  · cases hload
  · rename_i stored hstored
    split at hload
    · cases hload
    · split at hstored
      · obtain ⟨json, hjson, hfront⟩ := h stored hstored
        exact hlib.eq_of_parse hcut hjson hfront hload
      · cases hstored

omit hlib hcut in
/-- Only what was serialised is read. -/
theorem WrittenFor.serialized
    {env : CallEnv}
    {files : Files}
    {path : CString}
    {event event' : NostrEvent}
    (h : WrittenFor lib event (files path))
    (hload : loadEventFromFile lib env files path = some event') :
    (lib.eventSerialize event storageMaxEventSize).isSome = true := by
  unfold loadEventFromFile at hload
  split at hload
  · cases hload
  · rename_i stored hstored
    split at hstored
    · obtain ⟨json, hjson, -⟩ := h stored hstored
      rw [hjson]
      rfl
    · cases hstored

/-- What a query returns is the event of a live unexpired record. -/
theorem Owned.of_query
    {stale : StorageIndexEntry → Prop}
    {owner : StorageIndexEntry → Option NostrEvent}
    {env : CallEnv}
    {world : StorageWorld}
    (h : Owned lib stale owner world.engine.visible world.files)
    {filter : NostrFilter}
    {limit : UInt16}
    {event : NostrEvent}
    (hmem : event ∈ (storageQueryEvents lib env world filter limit).1.2) :
    ∃ e ∈ live world.engine.visible,
      owner e = some event ∧ Describes e event ∧ e.isExpired env.now = false ∧
        lib.filterMatches filter event = true ∧
        (lib.eventSerialize event storageMaxEventSize).isSome = true ∧
        indexMatchesFilter lib e filter = true ∧
        ParsesTo lib world.files (e.path lib) event := by
  obtain ⟨e, he, hread⟩ := storageQueryEvents_source hmem
  obtain ⟨files, hshrunk, hload⟩ := hread.loaded
  have hlive : e ∈ live world.engine.visible := mem_live.mpr ⟨he, hread.live⟩
  obtain ⟨event', howner, hdescribes, hwritten, _⟩ := h e hlive
  have hnow : WrittenFor lib event' (files (e.path lib)) := by
    rcases hshrunk (e.path lib) with hsame | hnone
    · rw [hsame]
      exact hwritten
    · intro stored hstored
      rw [hnone] at hstored
      cases hstored
  obtain rfl : event = event' := hnow.eq_of_load hlib hcut hload
  exact ⟨e, hlive, howner, hdescribes, hread.unexpired, hread.filterMatches,
    hnow.serialized hload, hread.indexMatches, (parsesTo_of_load hload).of_shrunk hshrunk⟩

/-- What `storage_get_event` returns is the event of the live record with the identifier. -/
theorem Owned.of_get
    {stale : StorageIndexEntry → Prop}
    {owner : StorageIndexEntry → Option NostrEvent}
    {env : CallEnv}
    {world : StorageWorld}
    (h : Owned lib stale owner world.engine.visible world.files)
    {eventId : Bytes32}
    {event : NostrEvent}
    (hget : storageGetEvent lib env world eventId = some event) :
    ∃ e, foundEntry world.engine eventId = some e ∧ e ∈ live world.engine.visible ∧
      e.eventId = eventId ∧ owner e = some event ∧ Describes e event ∧
      ParsesTo lib world.files (e.path lib) event := by
  unfold storageGetEvent at hget
  split at hget
  · cases hget
  · cases hfound : foundEntry world.engine eventId with
    | none =>
        rw [hfound] at hget
        cases hget
    | some e =>
        rw [hfound] at hget
        obtain ⟨hlive, hid⟩ := live_of_foundEntry hfound
        obtain ⟨event', howner, hdescribes, hwritten, _⟩ := h e hlive
        obtain rfl : event = event' := hwritten.eq_of_load hlib hcut hget
        exact ⟨e, rfl, hlive, hid, howner, hdescribes, parsesTo_of_load hget⟩

end Owners

end Storage
end WispRelay
