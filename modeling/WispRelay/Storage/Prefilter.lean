import WispRelay.Nostr.SampleLibrary
import WispRelay.Storage.Deadline

/-!
# The index test before a file is read

A query reads the file of a record only when `index_matches_filter` accepts the record.  The
test sees 32 bits of each time, the whole identifier and four bytes of the key, while
`nostr_filter_matches` sees the event.

* `nostrFilterMatches`: the filter rules, as the reference in the tests of the relay has them.
* `time_prefilter_iff`: an event inside the window of a filter passes the time tests unless
  `until` is cut to less than its time.
* `full_digits_prefilter_iff`: an event that a filter names by prefixes passes the tests of
  identifier and author exactly when the filter has all digits of the identifier and eight
  digits of the key.
* `millisecond_until_is_cut` and `short_id_is_not_found`: events that live matching delivers
  and the index test drops.
-/

namespace WispRelay
namespace Storage

open Runs

/-! ## The four tests -/

/-- The tests of `since` and `until`. -/
def timeTest
    (entry : StorageIndexEntry)
    (filter : NostrFilter) : Bool :=
  !(0 < filter.since && entry.createdAt < uint32OfInt64 filter.since) &&
    !(0 < filter.until_ && uint32OfInt64 filter.until_ < entry.createdAt)

/-- The test of `kinds`. -/
def kindTest
    (entry : StorageIndexEntry)
    (filter : NostrFilter) : Bool :=
  filter.kinds.isEmpty || filter.kinds.any (fun kind => kind.toInt == (entry.kind.toNat : Int))

/-- The test of `ids`. -/
def idTest
    (lib : Libnostr)
    (entry : StorageIndexEntry)
    (filter : NostrFilter) : Bool :=
  filter.ids.isEmpty ||
    filter.ids.any (fun id => lib.hexToBytes id 64 == some entry.eventId.toList)

/-- The test of `authors`. -/
def authorTest
    (lib : Libnostr)
    (entry : StorageIndexEntry)
    (filter : NostrFilter) : Bool :=
  filter.authors.isEmpty ||
    filter.authors.any (fun author =>
      8 ≤ author.length && lib.hexToBytes author 8 == some entry.pubkeyPrefix.toList)

theorem indexMatchesFilter_eq
    (lib : Libnostr)
    (entry : StorageIndexEntry)
    (filter : NostrFilter) :
    indexMatchesFilter lib entry filter =
      (timeTest entry filter && kindTest entry filter && idTest lib entry filter &&
        authorTest lib entry filter) := by
  simp only [indexMatchesFilter, timeTest, kindTest, idTest, authorTest, Bool.if_false_left,
    Bool.decide_eq_true, Bool.not_and, Bool.not_not, Bool.and_true, Bool.and_assoc]

/-! ## The reference -/

/-- `bytes_to_hex`. -/
def bytesToHex
    (bytes : List UInt8) : CString :=
  bytes.flatMap (fun b => FixedWidth.hexFixed 2 b.toNat)

/-- `matches_hex_prefix`. -/
def matchesHexPrefix
    (bytes : List UInt8)
    (starts : List CString) : Bool :=
  starts.any (fun start => start.isPrefixOf (bytesToHex bytes))

/-- `matches_kind`. -/
def matchesKind
    (kinds : List Int32)
    (eventKind : UInt16) : Bool :=
  kinds.any (fun kind => kind.toInt == (eventKind.toNat : Int))

/-- `nostr_filter_matches` of the tests. -/
def nostrFilterMatches
    (filter : NostrFilter)
    (event : NostrEvent) : Bool :=
  if !filter.kinds.isEmpty && !matchesKind filter.kinds event.kind then false
  else if !filter.authors.isEmpty && !matchesHexPrefix event.pubkey.toList filter.authors then
    false
  else if !filter.ids.isEmpty && !matchesHexPrefix event.id.toList filter.ids then false
  else if 0 < filter.since && event.createdAt < filter.since then false
  else if 0 < filter.until_ && filter.until_ < event.createdAt then false
  else true

/-- The event lies in the window of the filter. -/
def InWindow
    (filter : NostrFilter)
    (event : NostrEvent) : Prop :=
  (filter.since.toInt ≤ 0 ∨ filter.since.toInt ≤ event.createdAt.toInt) ∧
    (filter.until_.toInt ≤ 0 ∨ event.createdAt.toInt ≤ filter.until_.toInt)

instance
    (filter : NostrFilter)
    (event : NostrEvent) :
    Decidable (InWindow filter event) := by
  unfold InWindow
  exact inferInstance

/-- The filter names the event by its kind, and by prefixes of its identifier and key. -/
structure NamedBy
    (filter : NostrFilter)
    (event : NostrEvent) : Prop where
  kind : filter.kinds = [] ∨ matchesKind filter.kinds event.kind = true
  author : filter.authors = [] ∨ matchesHexPrefix event.pubkey.toList filter.authors = true
  id : filter.ids = [] ∨ matchesHexPrefix event.id.toList filter.ids = true

/-- The reference accepts what the filter names and what lies in its window. -/
theorem nostrFilterMatches_iff
    (filter : NostrFilter)
    (event : NostrEvent) :
    nostrFilterMatches filter event = true ↔ NamedBy filter event ∧ InWindow filter event := by
  have hsince : (0 < filter.since && event.createdAt < filter.since) = false ↔
      filter.since.toInt ≤ 0 ∨ filter.since.toInt ≤ event.createdAt.toInt := by
    simp [Int64.lt_iff_toInt_lt, imp_iff_not_or]
  have huntil : (0 < filter.until_ && filter.until_ < event.createdAt) = false ↔
      filter.until_.toInt ≤ 0 ∨ event.createdAt.toInt ≤ filter.until_.toInt := by
    simp [Int64.lt_iff_toInt_lt, imp_iff_not_or]
  unfold nostrFilterMatches InWindow
  rw [← hsince, ← huntil]
  constructor
  · intro h
    split_ifs at h with hkind hauthor hid hsince huntil
    simp only [Bool.not_eq_true] at hsince huntil
    simp only [Bool.and_eq_true, Bool.not_eq_true', List.isEmpty_eq_false_iff, not_and,
      Bool.not_eq_false] at hkind hauthor hid
    refine ⟨⟨?_, ?_, ?_⟩, hsince, huntil⟩
    · exact or_iff_not_imp_left.mpr hkind
    · exact or_iff_not_imp_left.mpr hauthor
    · exact or_iff_not_imp_left.mpr hid
  · rintro ⟨⟨hkind, hauthor, hid⟩, hsince, huntil⟩
    rw [if_neg, if_neg, if_neg, if_neg (by simp [hsince]), if_neg (by simp [huntil])]
    · rcases hid with h | h <;> simp [h]
    · rcases hauthor with h | h <;> simp [h]
    · rcases hkind with h | h <;> simp [h]

/-! ## Queries -/

/-- The record is live, and its event can be read. -/
structure Readable
    (lib : Libnostr)
    (env : CallEnv)
    (world : StorageWorld)
    (e : StorageIndexEntry)
    (event : NostrEvent) : Prop where
  mem_live : e ∈ live world.engine.visible
  unexpired : e.isExpired env.now = false
  loaded : loadEventFromFile lib env world.files (e.path lib) = some event

/--
After every run in which no NVS call failed before a restart, a query returns the event if it can
read it, unless it reaches its limit.
-/
def ReturnedByQueries
    (lib : Libnostr)
    (filter : NostrFilter)
    (e : StorageIndexEntry)
    (event : NostrEvent) : Prop :=
  ∀ (capacity : Nat) (ttl : UInt32) (hcapacity : capacity ≤ storageIndexEntries)
    (past : List FlashOp), Durable capacity past → flashSaves past < 2 ^ 32 →
  ∀ (env : CallEnv) (limit : UInt16), env.mallocOk = true →
    let world := (finalState (flashStep lib) (erasedFlash capacity ttl hcapacity) past).world
    Readable lib env world e event →
      event ∈ (storageQueryEvents lib env world filter limit).1.2 ∨
        queryLimit limit ≤ (storageQueryEvents lib env world filter limit).1.2.length

theorem returnedByQueries_of_tests
    {lib : Libnostr}
    {filter : NostrFilter}
    {e : StorageIndexEntry}
    {event : NostrEvent}
    (htime : timeTest e filter = true)
    (hkind : kindTest e filter = true)
    (hid : idTest lib e filter = true)
    (hauthor : authorTest lib e filter = true)
    (hmatches : lib.filterMatches filter event = true) :
    ReturnedByQueries lib filter e event := by
  intro capacity ttl hcapacity past hdurable hsaves env limit hmalloc world hread
  have hinv := flashInv_run lib ttl hcapacity past hdurable hsaves
  refine storageQueryEvents_complete hmalloc hinv.initialized hinv.index.nodup_fileIndex limit
    hread.mem_live hread.unexpired ?_ hread.loaded hmatches
  rw [indexMatchesFilter_eq, htime, hkind, hid, hauthor]
  rfl

/-- The flash with one note. -/
def oneNote : LoggedWorld :=
  finalState (flashStep (Sample.library [Sample.numbered 0]))
    (erasedFlash 1000 1814400 thousandSlots)
    [.run ⟨.save (Sample.numbered 0), CallEnv.undisturbed 1700000000⟩]

/-- The record of the note. -/
def oneNoteRecord : StorageIndexEntry :=
  newEntry (Sample.library [Sample.numbered 0]) 1700000000
    (erasedFlash 1000 1814400 thousandSlots).world.engine (Sample.numbered 0)

/-- The note is returned by a query for everything. -/
theorem oneNote_stored :
    oneNoteRecord ∈ live oneNote.world.engine.visible ∧
      (storageQueryEvents (Sample.library [Sample.numbered 0]) (CallEnv.undisturbed 1700000000)
        oneNote.world {} 100).1 = (.storageOk, [Sample.numbered 0]) := by
  decide +kernel

/-! ## The time tests -/

/-- The bound survives the cast to 32 bits as far as it matters. -/
def UntilFits
    (filter : NostrFilter)
    (event : NostrEvent) : Prop :=
  filter.until_.toInt ≤ 0 ∨ filter.until_.toInt < 2 ^ 32 ∨
    event.createdAt.toInt ≤ filter.until_.toInt % 2 ^ 32

section Time

variable
  {filter : NostrFilter}
  {event : NostrEvent}
  {e : StorageIndexEntry}

/-- The time of a record is that of its event. -/
theorem Describes.createdAt_toNat
    (hdescribes : Describes e event)
    (hlow : 0 ≤ event.createdAt.toInt)
    (hhigh : event.createdAt.toInt < 2 ^ 32) :
    (e.createdAt.toNat : Int) = event.createdAt.toInt := by
  rw [hdescribes.createdAt, uint32OfInt64_toNat hlow]
  omega

/-- A bound is cut to 32 bits before it is compared. -/
theorem lt_uint32OfInt64_iff
    {bound : Int64}
    (hpos : 0 < bound.toInt)
    (n : UInt32) :
    (n < uint32OfInt64 bound ↔ (n.toNat : Int) < bound.toInt % 2 ^ 32) ∧
      (uint32OfInt64 bound < n ↔ bound.toInt % 2 ^ 32 < (n.toNat : Int)) := by
  have hcast := uint32OfInt64_toNat hpos.le
  rw [UInt32.lt_iff_toNat_lt, UInt32.lt_iff_toNat_lt, ← hcast]
  omega

theorem timeTest_iff
    (hdescribes : Describes e event)
    (hlow : 0 ≤ event.createdAt.toInt)
    (hhigh : event.createdAt.toInt < 2 ^ 32)
    (hwindow : InWindow filter event) :
    timeTest e filter = true ↔ UntilFits filter event := by
  have hcreated := hdescribes.createdAt_toNat hlow hhigh
  obtain ⟨hsince, huntil⟩ := hwindow
  have hafter : ¬ (0 < filter.since ∧ e.createdAt < uint32OfInt64 filter.since) := by
    rintro ⟨hpos, hlt⟩
    rw [Int64.lt_iff_toInt_lt, Int64.toInt_zero] at hpos
    rw [(lt_uint32OfInt64_iff hpos _).1] at hlt
    omega
  have hbefore : (0 < filter.until_ ∧ uint32OfInt64 filter.until_ < e.createdAt) ↔
      ¬ UntilFits filter event := by
    unfold UntilFits
    rw [Int64.lt_iff_toInt_lt, Int64.toInt_zero]
    constructor
    · rintro ⟨hpos, hlt⟩
      rw [(lt_uint32OfInt64_iff hpos _).2] at hlt
      omega
    · intro h
      have hpos : 0 < filter.until_.toInt := by omega
      refine ⟨hpos, (lt_uint32OfInt64_iff hpos _).2.mpr ?_⟩
      omega
  rw [timeTest, Bool.and_eq_true, Bool.not_eq_true', Bool.not_eq_true', ← Bool.not_eq_true,
    ← Bool.not_eq_true, Bool.and_eq_true, Bool.and_eq_true, decide_eq_true_eq, decide_eq_true_eq,
    decide_eq_true_eq, decide_eq_true_eq, hbefore, not_not]
  exact and_iff_right hafter

end Time

/--
**The time tests agree with the window of a filter exactly when `until` fits.**  For a record of
an event whose time fits 32 bits and lies in the window; then queries return the event when the
other tests accept it.
-/
theorem time_prefilter_iff
    (lib : Libnostr)
    {filter : NostrFilter}
    {event : NostrEvent}
    {e : StorageIndexEntry}
    (hdescribes : Describes e event)
    (hlow : 0 ≤ event.createdAt.toInt)
    (hhigh : event.createdAt.toInt < 2 ^ 32)
    (hwindow : InWindow filter event) :
    (timeTest e filter = true ↔ UntilFits filter event) ∧
      (UntilFits filter event → kindTest e filter = true → idTest lib e filter = true →
        authorTest lib e filter = true → lib.filterMatches filter event = true →
        ReturnedByQueries lib filter e event) := by
  have htime := timeTest_iff hdescribes hlow hhigh hwindow
  refine ⟨htime, ?_⟩
  intro hfits hkind hid hauthor hmatches
  exact returnedByQueries_of_tests (htime.mpr hfits) hkind hid hauthor hmatches

/-- A note is created within a window that is given in seconds. -/
theorem time_prefilter_iff_seconds :
    let event := Sample.numbered 0
    let lib := Sample.library [event]
    let filter : NostrFilter := { since := 1600000000, until_ := 1800000000 }
    let e := newEntry lib 1700000000 (erasedFlash 1000 1814400 (by decide)).world.engine event
    (timeTest e filter = true ↔ UntilFits filter event) ∧
      (UntilFits filter event → kindTest e filter = true → idTest lib e filter = true →
        authorTest lib e filter = true → lib.filterMatches filter event = true →
        ReturnedByQueries lib filter e event) := by
  intro event lib filter e
  exact time_prefilter_iff lib (describes_newEntry lib 1700000000 _ event) (by decide) (by decide)
    (by decide)

/-- A time in milliseconds is cut to a time before the note. -/
theorem millisecond_until_is_cut :
    let event := Sample.numbered 0
    let lib := Sample.library [event]
    let filter : NostrFilter := { until_ := 1701000000000 }
    (oneNoteRecord ∈ live oneNote.world.engine.visible ∧ Describes oneNoteRecord event) ∧
      (0 ≤ event.createdAt.toInt ∧ event.createdAt.toInt < 2 ^ 32) ∧
      InWindow filter event ∧ lib.filterMatches filter event = true ∧
      timeTest oneNoteRecord filter = false ∧
      (storageQueryEvents lib (CallEnv.undisturbed 1700000000) oneNote.world filter 100).1 =
        (.storageOk, []) := by
  intro event lib filter
  exact ⟨⟨oneNote_stored.1, describes_newEntry _ _ _ _⟩, by decide, by decide, by decide +kernel,
    by decide +kernel, by decide +kernel⟩

/-! ## The tests of identifier, author and kind -/

/--
How `nostr_hex_to_bytes` reads digits: `fold` gives the lower-case digit a character stands
for.  A string too short for the number of digits wanted has its NUL among them.
-/
structure HexDecoding
    (lib : Libnostr)
    (fold : UInt8 → UInt8) : Prop where
  lower : ∀ bytes, ∀ c ∈ bytesToHex bytes, fold c = c
  decodes : ∀ s bytes,
    lib.hexToBytes s (2 * bytes.length) = some bytes ↔
      (s.take (2 * bytes.length)).map fold = bytesToHex bytes

/--
The filter has all digits of the identifier, and the first eight of the key, unless it asks for
any.
-/
structure FullDigits
    (fold : UInt8 → UInt8)
    (filter : NostrFilter)
    (event : NostrEvent) : Prop where
  id : filter.ids = [] ∨
    ∃ id ∈ filter.ids, (id.take 64).map fold = bytesToHex event.id.toList
  author : filter.authors = [] ∨
    ∃ author ∈ filter.authors,
      (author.take 8).map fold = bytesToHex (event.pubkey.toList.take 4)

theorem bytesToHex_length
    (bytes : List UInt8) :
    (bytesToHex bytes).length = 2 * bytes.length := by
  induction bytes with
  | nil => rfl
  | cons b rest ih =>
      simp only [bytesToHex, List.flatMap_cons, List.length_append,
        FixedWidth.hexFixed_length, List.length_cons] at ih ⊢
      omega

/-- The first digits are those of the first bytes. -/
theorem take_bytesToHex
    (bytes : List UInt8)
    (n : Nat) :
    (bytesToHex bytes).take (2 * n) = bytesToHex (bytes.take n) := by
  induction n generalizing bytes with
  | zero => rfl
  | succ n ih =>
      cases bytes with
      | nil => simp [bytesToHex]
      | cons b rest =>
          have hrest := ih rest
          simp only [bytesToHex, List.flatMap_cons, List.take_succ_cons] at hrest ⊢
          rw [List.take_append, List.take_of_length_le (by simp),
            FixedWidth.hexFixed_length, ← hrest]
          congr 2

section Digits

variable
  {lib : Libnostr}
  {fold : UInt8 → UInt8}
  {filter : NostrFilter}
  {event : NostrEvent}
  {e : StorageIndexEntry}

theorem Describes.pubkeyPrefix_toList
    (hdescribes : Describes e event) :
    e.pubkeyPrefix.toList = event.pubkey.toList.take 4 := by
  rw [hdescribes.pubkeyPrefix]
  apply List.ext_getElem
  · simp
  · intro i hi hi'
    simp [bytesVector]

theorem idTest_iff
    (filter : NostrFilter)
    (hhex : HexDecoding lib fold)
    (hdescribes : Describes e event) :
    idTest lib e filter = true ↔
      (filter.ids = [] ∨
        ∃ id ∈ filter.ids, (id.take 64).map fold = bytesToHex event.id.toList) := by
  have hread : ∀ id : CString, lib.hexToBytes id 64 = some event.id.toList ↔
      (id.take 64).map fold = bytesToHex event.id.toList := by
    intro id
    have hdecodes := hhex.decodes id event.id.toList
    rwa [Vector.length_toList] at hdecodes
  simp only [idTest, hdescribes.eventId, Bool.or_eq_true, List.isEmpty_iff, List.any_eq_true,
    beq_iff_eq, hread]

theorem authorTest_iff
    (filter : NostrFilter)
    (hhex : HexDecoding lib fold)
    (hdescribes : Describes e event) :
    authorTest lib e filter = true ↔
      (filter.authors = [] ∨
        ∃ author ∈ filter.authors,
          (author.take 8).map fold = bytesToHex (event.pubkey.toList.take 4)) := by
  have hlength : (event.pubkey.toList.take 4).length = 4 := by
    simp
  have hread : ∀ author : CString,
      (8 ≤ author.length ∧ lib.hexToBytes author 8 = some (event.pubkey.toList.take 4)) ↔
        (author.take 8).map fold = bytesToHex (event.pubkey.toList.take 4) := by
    intro author
    have hdecodes := hhex.decodes author (event.pubkey.toList.take 4)
    rw [hlength] at hdecodes
    rw [hdecodes]
    refine and_iff_right_of_imp ?_
    intro hdigits
    have hcount := congrArg List.length hdigits
    rw [List.length_map, List.length_take, bytesToHex_length, hlength] at hcount
    omega
  simp only [authorTest, hdescribes.pubkeyPrefix_toList, Bool.or_eq_true, List.isEmpty_iff,
    List.any_eq_true, Bool.and_eq_true, decide_eq_true_eq, beq_iff_eq, hread]

/-- Lower-case digits stand for themselves. -/
theorem HexDecoding.map_bytesToHex
    (hhex : HexDecoding lib fold)
    (bytes : List UInt8) :
    (bytesToHex bytes).map fold = bytesToHex bytes :=
  (List.map_congr_left (hhex.lower bytes)).trans (List.map_id _)

/-- A filter whose identifiers and keys are long enough has the digits of what it names. -/
theorem fullDigits_of_length
    (hhex : HexDecoding lib fold)
    (hnamed : NamedBy filter event)
    (hids : ∀ id ∈ filter.ids, 64 ≤ id.length)
    (hauthors : ∀ author ∈ filter.authors, 8 ≤ author.length) :
    FullDigits fold filter event where
  id := by
    refine hnamed.id.imp_right ?_
    intro hmatch
    obtain ⟨id, hid, hstart⟩ := List.any_eq_true.mp hmatch
    rw [List.isPrefixOf_iff_prefix] at hstart
    have hlength := bytesToHex_length event.id.toList
    rw [Vector.length_toList] at hlength
    have hall : id = bytesToHex event.id.toList :=
      hstart.eq_of_length_le (by rw [hlength]; exact hids id hid)
    refine ⟨id, hid, ?_⟩
    rw [hall, List.take_of_length_le (by omega), hhex.map_bytesToHex]
  author := by
    refine hnamed.author.imp_right ?_
    intro hmatch
    obtain ⟨author, hauthor, hstart⟩ := List.any_eq_true.mp hmatch
    rw [List.isPrefixOf_iff_prefix] at hstart
    obtain ⟨rest, hrest⟩ := hstart
    refine ⟨author, hauthor, ?_⟩
    have htake : author.take 8 = bytesToHex (event.pubkey.toList.take 4) := by
      rw [← take_bytesToHex _ 4, ← hrest, List.take_append_of_le_length (hauthors author hauthor)]
    rw [htake, hhex.map_bytesToHex]

/-- A filter whose identifiers are all too short has all digits of none. -/
theorem not_fullDigits_of_short_ids
    (hids : filter.ids ≠ [])
    (hshort : ∀ id ∈ filter.ids, id.length < 64) :
    ¬ FullDigits fold filter event := by
  intro hfull
  rcases hfull.id with hnone | ⟨id, hid, hdigits⟩
  · exact hids hnone
  · have hcount := congrArg List.length hdigits
    rw [List.length_map, List.length_take, bytesToHex_length, Vector.length_toList] at hcount
    have hlt := hshort id hid
    omega

/-- A filter whose keys are all too short has eight digits of none. -/
theorem not_fullDigits_of_short_authors
    (hauthors : filter.authors ≠ [])
    (hshort : ∀ author ∈ filter.authors, author.length < 8) :
    ¬ FullDigits fold filter event := by
  intro hfull
  rcases hfull.author with hnone | ⟨author, hauthor, hdigits⟩
  · exact hauthors hnone
  · have hcount := congrArg List.length hdigits
    rw [List.length_map, List.length_take, bytesToHex_length, List.length_take,
      Vector.length_toList] at hcount
    have hlt := hshort author hauthor
    omega

end Digits

/--
**The tests of identifier, author and kind agree with the prefixes of a filter exactly when it
has enough digits.**  For a record of an event that the filter names; then queries return the
event when the time tests accept it.
-/
theorem full_digits_prefilter_iff
    {lib : Libnostr}
    {fold : UInt8 → UInt8}
    (hhex : HexDecoding lib fold)
    {filter : NostrFilter}
    {event : NostrEvent}
    {e : StorageIndexEntry}
    (hdescribes : Describes e event)
    (hnamed : NamedBy filter event) :
    ((kindTest e filter && idTest lib e filter && authorTest lib e filter) = true ↔
        FullDigits fold filter event) ∧
      (FullDigits fold filter event → timeTest e filter = true →
        lib.filterMatches filter event = true → ReturnedByQueries lib filter e event) := by
  have hkind : kindTest e filter = true := by
    rw [kindTest, hdescribes.kind, Bool.or_eq_true, List.isEmpty_iff]
    exact hnamed.kind
  have hid := idTest_iff filter hhex hdescribes
  have hauthor := authorTest_iff filter hhex hdescribes
  constructor
  · rw [hkind, Bool.true_and, Bool.and_eq_true, hid, hauthor]
    exact ⟨fun h => ⟨h.1, h.2⟩, fun h => ⟨h.id, h.author⟩⟩
  · intro hfull htime hmatches
    exact returnedByQueries_of_tests htime hkind (hid.mpr hfull.id) (hauthor.mpr hfull.author)
      hmatches

/-- The lower-case form of a hexadecimal digit. -/
def asciiLower
    (c : UInt8) : UInt8 :=
  if 65 ≤ c && c ≤ 70 then c + 32 else c

/-- A digit is read as the number it is the lower-case form of. -/
theorem hexNibble_eq_some_iff
    (c : UInt8)
    (d : Nat) :
    Sample.hexNibble c = some d ↔ d < 16 ∧ asciiLower c = FixedWidth.hexDigit d := by
  have hvalue : ∀ n < 256, ∀ d < 16,
      (Sample.hexNibble (UInt8.ofNat n) = some d ↔
        asciiLower (UInt8.ofNat n) = FixedWidth.hexDigit d) := by
    decide +kernel
  have hsmall : ∀ n < 256, ∀ d ∈ Sample.hexNibble (UInt8.ofNat n), d < 16 := by
    decide +kernel
  have hc := c.toNat_lt
  have heq : UInt8.ofNat c.toNat = c := UInt8.ofNat_toNat
  constructor
  · intro h
    have hd := hsmall c.toNat hc d (by rw [heq]; exact h)
    refine ⟨hd, ?_⟩
    have hiff := hvalue c.toNat hc d hd
    rw [heq] at hiff
    exact hiff.mp h
  · rintro ⟨hd, h⟩
    have hiff := hvalue c.toNat hc d hd
    rw [heq] at hiff
    exact hiff.mpr h

theorem bytesToHex_cons
    (b : UInt8)
    (bytes : List UInt8) :
    bytesToHex (b :: bytes) =
      FixedWidth.hexDigit (b.toNat / 16) :: FixedWidth.hexDigit (b.toNat % 16) ::
        bytesToHex bytes := by
  have hlt := b.toNat_lt
  simp only [bytesToHex, List.flatMap_cons, FixedWidth.hexFixed, List.nil_append]
  rw [Nat.mod_eq_of_lt (by omega : b.toNat / 16 < 16)]
  rfl

/-- Digits are read as the bytes they are the lower-case form of. -/
theorem unhex_eq_some_iff :
    ∀ (s : CString) (bytes : List UInt8),
      Sample.unhex s = some bytes ↔ s.map asciiLower = bytesToHex bytes
  | [], [] => by simp [Sample.unhex, bytesToHex]
  | [], b :: bytes => by simp [Sample.unhex, bytesToHex_cons]
  | [c], [] => by simp [Sample.unhex, bytesToHex]
  | [c], b :: bytes => by simp [Sample.unhex, bytesToHex_cons]
  | high :: low :: rest, [] => by
      simp only [Sample.unhex, List.map_cons]
      split <;> simp [bytesToHex]
  | high :: low :: rest, b :: bytes => by
      have hb := b.toNat_lt
      rw [bytesToHex_cons, List.map_cons, List.map_cons, List.cons.injEq, List.cons.injEq,
        ← unhex_eq_some_iff rest bytes]
      constructor
      · intro h
        simp only [Sample.unhex] at h
        split at h
        · rename_i h' l bytes' hhigh hlow hrest
          simp only [Option.some.injEq, List.cons.injEq] at h
          obtain ⟨hbyte, rfl⟩ := h
          obtain ⟨hh, hhigh⟩ := (hexNibble_eq_some_iff high h').mp hhigh
          obtain ⟨hl, hlow⟩ := (hexNibble_eq_some_iff low l).mp hlow
          have hnat : b.toNat = 16 * h' + l := by
            rw [← hbyte, UInt8.toNat_ofNat']
            omega
          refine ⟨?_, ?_, hrest⟩
          · rw [hhigh, hnat]
            congr 1
            omega
          · rw [hlow, hnat]
            congr 1
            omega
        · cases h
      · rintro ⟨hhigh, hlow, hrest⟩
        have hhigh' := (hexNibble_eq_some_iff high _).mpr ⟨by omega, hhigh⟩
        have hlow' := (hexNibble_eq_some_iff low _).mpr ⟨by omega, hlow⟩
        have hbyte : UInt8.ofNat (16 * (b.toNat / 16) + b.toNat % 16) = b := by
          rw [Nat.div_add_mod]
          exact UInt8.ofNat_toNat
        simp only [Sample.unhex, hhigh', hlow', hrest, hbyte]

theorem library_hexDecoding
    (known : List NostrEvent) :
    HexDecoding (Sample.library known) asciiLower where
  lower := by
    have hdigit : ∀ d < 16, asciiLower (FixedWidth.hexDigit d) = FixedWidth.hexDigit d := by
      decide
    intro bytes
    induction bytes with
    | nil => simp [bytesToHex]
    | cons b bytes ih =>
        have hb := b.toNat_lt
        intro c hc
        rw [bytesToHex_cons, List.mem_cons, List.mem_cons] at hc
        rcases hc with rfl | rfl | hc
        · exact hdigit _ (by omega)
        · exact hdigit _ (by omega)
        · exact ih c hc
  decodes := by
    intro s bytes
    by_cases hlen : 2 * bytes.length ≤ s.length
    · simp only [Sample.library, if_pos hlen]
      exact unhex_eq_some_iff _ _
    · refine iff_of_false (by simp [Sample.library, hlen]) ?_
      intro h
      have hcount := congrArg List.length h
      rw [List.length_map, List.length_take, bytesToHex_length] at hcount
      omega

/-- All digits of the identifier of the note. -/
def wholeId : NostrFilter where
  ids := [bytesToHex (Sample.numbered 0).id.toList]

theorem full_digits_prefilter_iff_whole_id :
    let event := Sample.numbered 0
    let lib := Sample.library [event]
    ((kindTest oneNoteRecord wholeId && idTest lib oneNoteRecord wholeId &&
          authorTest lib oneNoteRecord wholeId) = true ↔ FullDigits asciiLower wholeId event) ∧
      (FullDigits asciiLower wholeId event → timeTest oneNoteRecord wholeId = true →
        lib.filterMatches wholeId event = true →
        ReturnedByQueries lib wholeId oneNoteRecord event) := by
  intro event lib
  refine full_digits_prefilter_iff (library_hexDecoding _) (describes_newEntry _ _ _ _) ?_
  exact ((nostrFilterMatches_iff wholeId event).mp (by decide +kernel)).1

/-- Eight digits of the identifier of the note. -/
def shortId : NostrFilter where
  ids := [(bytesToHex (Sample.numbered 0).id.toList).take 8]

/-- A filter with the first digits of the identifier of the note does not find it. -/
theorem short_id_is_not_found :
    let event := Sample.numbered 0
    let lib := Sample.library [event]
    (oneNoteRecord ∈ live oneNote.world.engine.visible ∧ Describes oneNoteRecord event) ∧
      nostrFilterMatches shortId event = true ∧ lib.filterMatches shortId event = true ∧
      idTest lib oneNoteRecord shortId = false ∧
      (storageQueryEvents lib (CallEnv.undisturbed 1700000000) oneNote.world shortId 100).1 =
        (.storageOk, []) := by
  intro event lib
  exact ⟨⟨oneNote_stored.1, describes_newEntry _ _ _ _⟩, by decide +kernel, by decide +kernel,
    by decide +kernel, by decide +kernel⟩

end Storage
end WispRelay
