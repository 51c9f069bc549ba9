import WispRelay.Library.FixedWidth
import WispRelay.Nostr.Libnostr

/-!
# A library on sample events

A `Libnostr` that behaves as the real library does on a given list of events: it writes them
as JSON objects (their texts need no escapes), reads them back, and evaluates filters, tags and
deletion requests by the rules of the protocol.  It shows that the laws the relay relies on
can hold, and is what the concrete runs of later modules use.
-/

namespace WispRelay
namespace Sample

/-- Lower-case hexadecimal digits. -/
def hexOf (bytes : List UInt8) : CString :=
  bytes.flatMap (fun b => FixedWidth.hexFixed 2 b.toNat)

/-- The value of a hexadecimal digit. -/
def hexNibble (c : UInt8) : Option Nat :=
  if 48 ≤ c && c ≤ 57 then some (c.toNat - 48)
  else if 97 ≤ c && c ≤ 102 then some (c.toNat - 87)
  else if 65 ≤ c && c ≤ 70 then some (c.toNat - 55)
  else none

/-- Pairs of hexadecimal digits. -/
def unhex : CString → Option (List UInt8)
  | [] => some []
  | [_] => none
  | high :: low :: rest =>
      match hexNibble high, hexNibble low, unhex rest with
      | some h, some l, some bytes => some (UInt8.ofNat (16 * h + l) :: bytes)
      | _, _, _ => none

/-- The digits of a number. -/
def decimal (n : Int) : CString :=
  ascii (toString n)

/-- A string literal, for a text that needs no escapes. -/
def quoted (s : CString) : CString :=
  ascii "\"" ++ s ++ ascii "\""

/-- Join with commas. -/
def commaSeparated : List CString → CString
  | [] => []
  | [s] => s
  | s :: rest => s ++ ascii "," ++ commaSeparated rest

/-- An event as a JSON object. -/
def eventJson (event : NostrEvent) : CString :=
  ascii "\x7b\"id\":\"" ++ hexOf event.id.toList ++
    (ascii "\",\"pubkey\":\"" ++ hexOf event.pubkey.toList ++
      ascii "\",\"created_at\":" ++ decimal event.createdAt.toInt ++
      ascii ",\"kind\":" ++ decimal event.kind.toNat ++
      ascii ",\"tags\":[" ++
      commaSeparated (event.tags.map fun tag =>
        ascii "[" ++ commaSeparated (tag.map quoted) ++ ascii "]") ++
      ascii "],\"content\":" ++ quoted event.content ++
      ascii ",\"sig\":\"" ++ hexOf event.sig.toList ++ ascii "\"\x7d")

/-- A message to a client as a JSON array. -/
def relayMsgJson : NostrRelayMsg → CString
  | .ok eventId accepted message =>
      ascii "[\"OK\"," ++ quoted eventId ++ ascii (if accepted then ",true," else ",false,") ++
        quoted (ascii message) ++ ascii "]"
  | .eose subId => ascii "[\"EOSE\"," ++ quoted subId ++ ascii "]"
  | .closed subId message =>
      ascii "[\"CLOSED\"," ++ quoted subId ++ ascii "," ++ quoted (ascii message) ++ ascii "]"
  | .notice message => ascii "[\"NOTICE\"," ++ quoted (ascii message) ++ ascii "]"
  | .event subId event =>
      ascii "[\"EVENT\"," ++ quoted subId ++ ascii "," ++ eventJson event ++ ascii "]"

/-- The value of the first tag with a name. -/
def tagValue
    (event : NostrEvent)
    (name : CString) : Option CString :=
  (event.tags.find? fun tag => tag.head? == some name).bind (fun tag => tag[1]?)

/-- A decimal number; zero when the text is not one. -/
def decimalValue
    (s : CString) : Nat :=
  if s.all (fun c => 48 ≤ c && c ≤ 57) then
    s.foldl (fun value c => 10 * value + (c.toNat - 48)) 0
  else 0

/-- Some given prefix starts the hexadecimal form of the bytes. -/
def matchesHexPrefix
    (bytes : List UInt8)
    (prefixes : List CString) : Bool :=
  prefixes.any fun start => start.isPrefixOf (hexOf bytes)

/-- Some tag with the name has one of the values. -/
def matchesTag
    (event : NostrEvent)
    (name : CString)
    (values : List CString) : Bool :=
  event.tags.any fun tag =>
    tag.head? == some name && values.any (fun value => tag[1]? == some value)

/-- The rules of a filter: every condition that is present holds. -/
def filterMatches
    (filter : NostrFilter)
    (event : NostrEvent) : Bool :=
  (filter.kinds.isEmpty ||
      filter.kinds.any fun kind => kind.toInt == (event.kind.toNat : Int)) &&
    (filter.authors.isEmpty || matchesHexPrefix event.pubkey.toList filter.authors) &&
    (filter.ids.isEmpty || matchesHexPrefix event.id.toList filter.ids) &&
    (filter.eTags.isEmpty || matchesTag event (ascii "e") filter.eTags) &&
    (filter.pTags.isEmpty || matchesTag event (ascii "p") filter.pTags) &&
    (filter.genericTags.all fun tag => matchesTag event [tag.tagName] tag.values) &&
    !(0 < filter.since && event.createdAt < filter.since) &&
    !(0 < filter.until_ && filter.until_ < event.createdAt)

/-- The expiration tag of an event. -/
def expiration
    (event : NostrEvent) : Int64 :=
  match tagValue event (ascii "expiration") with
  | some value => Int64.ofNat (decimalValue value)
  | none => 0

/-- The tag values with a name, for a deletion request. -/
def tagValues
    (event : NostrEvent)
    (name : CString) : List CString :=
  event.tags.filterMap fun tag => if tag.head? == some name then tag[1]? else none

/-- The number of leading zero bits. -/
def leadingZeros : List UInt8 → Nat
  | [] => 0
  | b :: rest => if b = 0 then 8 + leadingZeros rest else 7 - b.toNat.log2

/-- The library on the given events. -/
def library
    (known : List NostrEvent) : Libnostr where
  eventSerialize event cap :=
    if known.contains event && (eventJson event).length ≤ cap then some (eventJson event)
    else none
  eventParse json := known.find? fun event => eventJson event == json
  eventGetExpiration := expiration
  eventGetDTag event := tagValue event (ascii "d")
  eventValidateFull event maxFuture now :=
    if now + maxFuture < event.createdAt then .errFutureEvent
    else if 0 < expiration event && expiration event < now then .errExpiredEvent
    else .ok
  nip13CalculateDifficulty id := leadingZeros id.toList
  kindIsEphemeral kind := 20000 ≤ kind && kind < 30000
  filterMatches := filterMatches
  filtersMatch filters event := filters.any fun filter => filterMatches filter event
  hexToBytes s n := if n ≤ s.length then unhex (s.take n) else none
  bytesToHex := hexOf
  deletionParse event :=
    some
      { pubkey := hexOf event.pubkey.toList
        eventIds := tagValues event (ascii "e")
        addresses := tagValues event (ascii "a") }
  deletionAuthorized request target := request.pubkey == hexOf target.pubkey.toList
  relayMsgSerialize message cap :=
    if (relayMsgJson message).length ≤ cap then some (relayMsgJson message) else none

@[simp] theorem hexOf_length
    (bytes : List UInt8) :
    (hexOf bytes).length = 2 * bytes.length := by
  induction bytes with
  | nil => rfl
  | cons b rest ih =>
      simp only [hexOf, List.flatMap_cons, List.length_append,
        FixedWidth.hexFixed_length, List.length_cons] at ih ⊢
      omega

theorem hexOf_injective
    {xs ys : List UInt8}
    (h : hexOf xs = hexOf ys) :
    xs = ys := by
  induction xs generalizing ys with
  | nil =>
      cases ys with
      | nil => rfl
      | cons y ys =>
          have hlen := congrArg List.length h
          simp only [hexOf_length, List.length_nil, List.length_cons] at hlen
          omega
  | cons x xs ih =>
      cases ys with
      | nil =>
          have hlen := congrArg List.length h
          simp only [hexOf_length, List.length_nil, List.length_cons] at hlen
          omega
      | cons y ys =>
          simp only [hexOf, List.flatMap_cons] at h
          obtain ⟨hhead, htail⟩ := List.append_inj h (by simp)
          have hmod := FixedWidth.hexFixed_injective 2 x.toNat y.toNat hhead
          have hx := x.toNat_lt
          have hy := y.toNat_lt
          have hxy : x = y := UInt8.toNat_inj.mp (by omega)
          rw [hxy, ih htail]

theorem hexNibble_hexDigit
    {d : Nat}
    (hd : d < 16) :
    hexNibble (FixedWidth.hexDigit d) = some d := by
  revert d
  decide

/-- Reading the digits back gives the bytes. -/
theorem unhex_hexOf
    (bytes : List UInt8) :
    unhex (hexOf bytes) = some bytes := by
  induction bytes with
  | nil => rfl
  | cons b rest ih =>
      have hhigh : b.toNat / 16 % 16 < 16 := Nat.mod_lt _ (by decide)
      have hlow : b.toNat % 16 < 16 := Nat.mod_lt _ (by decide)
      have hb := b.toNat_lt
      have hvalue : 16 * (b.toNat / 16 % 16) + b.toNat % 16 = b.toNat := by
        omega
      have hstep : hexOf (b :: rest) = FixedWidth.hexDigit (b.toNat / 16 % 16) ::
          FixedWidth.hexDigit (b.toNat % 16) :: hexOf rest := rfl
      rw [hstep, unhex, hexNibble_hexDigit hhigh, hexNibble_hexDigit hlow, ih]
      simp only [hvalue, UInt8.ofNat_toNat]

/-- The identifier can be read off the JSON object, even when more text follows. -/
theorem eventJson_id
    {event event' : NostrEvent}
    (h : eventJson event <+: eventJson event') :
    event.id = event'.id := by
  obtain ⟨rest, hrest⟩ := h
  unfold eventJson at hrest
  rw [List.append_assoc] at hrest
  have hfront := (List.append_inj hrest (by simp)).1
  have hid := List.append_cancel_left hfront
  exact Vector.toList_inj.mp (hexOf_injective hid)

/-- The laws of storing hold for events with distinct identifiers. -/
theorem library_storageLaws
    {known : List NostrEvent}
    (hids : (known.map (·.id)).Nodup) :
    (library known).StorageLaws where
  parse_serialize := by
    intro event cap json hjson
    simp only [library, Bool.and_eq_true, List.contains_iff_mem, decide_eq_true_eq] at hjson
    split at hjson
    · rename_i hknown
      rw [Option.some.injEq] at hjson
      subst hjson
      simp only [library]
      cases hfind : known.find? fun other => eventJson other == eventJson event with
      | none =>
          rw [List.find?_eq_none] at hfind
          exact absurd (beq_self_eq_true _) (hfind event hknown.1)
      | some other =>
          have hmem := List.mem_of_find?_eq_some hfind
          have hsame := List.find?_some hfind
          have hfront : eventJson other <+: eventJson event := by
            rw [beq_iff_eq.mp hsame]
          have hid := eventJson_id hfront
          rw [List.inj_on_of_nodup_map hids hmem hknown.1 hid]
    · cases hjson
  serialize_pos := by
    intro event cap json hjson
    simp only [library] at hjson
    split at hjson
    · rw [Option.some.injEq] at hjson
      rw [← hjson]
      simp [eventJson, ascii]
    · cases hjson
  serialize_le := by
    intro event cap json hjson
    simp only [library, Bool.and_eq_true, decide_eq_true_eq] at hjson
    split at hjson
    · rename_i hknown
      rw [Option.some.injEq] at hjson
      rw [← hjson]
      exact hknown.2
    · cases hjson

/-- The JSON object of one event is not the front of that of another. -/
theorem library_truncationLaw
    {known : List NostrEvent}
    (hids : (known.map (·.id)).Nodup) :
    (library known).TruncationLaw := by
  intro event cap json front hjson hfront hcut
  simp only [library, Bool.and_eq_true, List.contains_iff_mem, decide_eq_true_eq] at hjson
  split at hjson
  · rename_i hknown
    rw [Option.some.injEq] at hjson
    subst hjson
    simp only [library]
    rw [List.find?_eq_none]
    intro other hmem hsame
    have hother : eventJson other = front := beq_iff_eq.mp hsame
    subst hother
    have hid := eventJson_id hfront
    rw [List.inj_on_of_nodup_map hids hmem hknown.1 hid] at hcut
    exact hcut rfl
  · cases hjson

/-- The laws of deletion requests hold. -/
theorem library_deletionLaws
    (known : List NostrEvent) :
    (library known).DeletionLaws where
  parse_pubkey := by
    intro event request hparse
    simp only [library, Option.some.injEq] at hparse
    rw [← hparse]
    rfl
  authorized := by
    intro request target hauthorized
    exact beq_iff_eq.mp hauthorized
  author_matches := by
    intro filter event pubkey hauthors hmatches
    simp only [library, filterMatches, hauthors, matchesHexPrefix, Bool.and_eq_true,
      List.isEmpty_cons, Bool.false_or, List.any_cons, List.any_nil, Bool.or_false,
      List.isPrefixOf_iff_prefix] at hmatches
    have hprefix := hmatches.1.1.1.1.1.1.2
    have hsame := hprefix.eq_of_length (by simp)
    exact (Vector.toList_inj.mp (hexOf_injective hsame)).symm
  bytesToHex_injective := fun _ _ h => hexOf_injective h

/-- The laws of queries for one identifier hold. -/
theorem library_idFilterLaws
    (known : List NostrEvent) :
    (library known).IdFilterLaws where
  hex_inverse := by
    intro id
    have hlength : (hexOf id.toList).length = 64 := by
      simp
    have htake : (hexOf id.toList).take 64 = hexOf id.toList :=
      List.take_of_length_le hlength.le
    simp only [library, hlength, le_refl, if_true, htake, unhex_hexOf]
  id_matches := by
    intro event
    simp [library, filterMatches, matchesHexPrefix]

theorem library_messageSizes
    (known : List NostrEvent) :
    (library known).MessageSizes (fun message => (relayMsgJson message).length) where
  serialize := by
    intro message cap
    by_cases hfits : (relayMsgJson message).length ≤ cap <;> simp [library, hfits]
  event_le := by
    intro event cap json subId hjson
    simp only [library] at hjson
    split at hjson
    · obtain rfl : eventJson event = json := Option.some.inj hjson
      simp [relayMsgJson, quoted, ascii]
      omega
    · cases hjson
  eose_le := by
    intro subId
    simp [relayMsgJson, quoted, ascii]
    omega

/-- A text note with a running number as its identifier. -/
def numbered
    (n : Nat) : NostrEvent where
  id := bytesVector 32 (FixedWidth.leBytes 32 n)
  pubkey := Vector.replicate 32 0x5a
  createdAt := 1700000000
  kind := 1
  tags := []
  content := ascii "hello"
  sig := Vector.replicate 64 0

theorem numbered_id_injective
    {m n : Nat}
    (hm : m < 256 ^ 32)
    (hn : n < 256 ^ 32)
    (h : (numbered m).id = (numbered n).id) :
    m = n := by
  have hbytes : ∀ k, (bytesVector 32 (FixedWidth.leBytes 32 k)).toList =
      FixedWidth.leBytes 32 k := by
    intro k
    apply List.ext_getElem
    · simp
    · intro i hi _
      simp [bytesVector]
  have hlist := congrArg Vector.toList h
  simp only [numbered, hbytes] at hlist
  have hvalue := congrArg FixedWidth.leValue hlist
  rwa [FixedWidth.leValue_leBytes, FixedWidth.leValue_leBytes, Nat.mod_eq_of_lt hm,
    Nat.mod_eq_of_lt hn] at hvalue

/-- The first `n` notes. -/
def notes
    (n : Nat) : List NostrEvent :=
  (List.range n).map numbered

theorem numbered_mem_notes
    {i n : Nat}
    (hi : i < n) :
    numbered i ∈ notes n :=
  List.mem_map_of_mem (List.mem_range.mpr hi)

theorem notes_ids_nodup
    {n : Nat}
    (hn : n ≤ 256 ^ 32) :
    ((notes n).map (·.id)).Nodup := by
  rw [notes, List.map_map]
  refine List.Nodup.map_on ?_ List.nodup_range
  intro i hi j hj hij
  rw [List.mem_range] at hi hj
  exact numbered_id_injective (by omega) (by omega) hij

/-- Every note fits the buffer of the storage engine. -/
theorem serialize_note
    {known : List NostrEvent}
    {n : Nat}
    (hmem : numbered n ∈ known) :
    ((library known).eventSerialize (numbered n) 8192).isSome = true := by
  have hlength : (eventJson (numbered n)).length = (eventJson (numbered 0)).length := by
    simp [eventJson, numbered]
  have hsmall : (eventJson (numbered 0)).length ≤ 8192 := by
    decide +kernel
  rw [← hlength] at hsmall
  simp [library, hmem, hsmall]

/-- A deletion request of another author for a note. -/
def foreignDeletion
    (n : Nat) : NostrEvent :=
  { numbered (n + 1) with
    pubkey := Vector.replicate 32 0x11
    kind := 5
    tags := [[ascii "e", hexOf (numbered n).id.toList]] }

/-- A note with a NIP-40 tag. -/
def expiring
    (value : String) : NostrEvent :=
  { numbered 0 with tags := [[ascii "expiration", ascii value]] }

end Sample
end WispRelay
