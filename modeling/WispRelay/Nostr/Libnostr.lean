import Mathlib.Data.List.Basic
import Mathlib.Tactic

/-!
# The protocol library

The relay is written against libnostr-c, which is not part of the repository.  This module
fixes the data that crosses the boundary (events, filters, deletion requests, relay messages,
error codes) and the functions the relay calls, collected in the structure `Libnostr`.  What
the relay relies on is stated as named laws about a `Libnostr`, never as a definition of it.

C strings are the bytes before the terminating NUL.
-/

namespace WispRelay

/-- A NUL-terminated string, without the NUL. -/
abbrev CString := List UInt8

/-- The bytes of an ASCII literal. -/
def ascii (s : String) : CString :=
  s.toList.map (fun c => UInt8.ofNat c.toNat)

/-- `uint8_t id[32]` and `nostr_key`. -/
abbrev Bytes32 := Vector UInt8 32

/-- The first `n` bytes as a fixed-size array. -/
def bytesVector (n : Nat) (bytes : List UInt8) : Vector UInt8 n :=
  Vector.ofFn (fun i : Fin n => bytes.getD i 0)

@[simp] theorem bytesVector_toList {n : Nat} (v : Vector UInt8 n) :
    bytesVector n v.toList = v := by
  apply Vector.ext
  intro i hi
  simp [bytesVector]

/-- `nostr_event`. -/
structure NostrEvent where
  id : Bytes32
  pubkey : Bytes32
  createdAt : Int64
  kind : UInt16
  tags : List (List CString)
  content : CString
  sig : Vector UInt8 64
deriving DecidableEq

/-- `nostr_generic_tag_filter_t`. -/
structure NostrGenericTagFilter where
  tagName : UInt8
  values : List CString
deriving DecidableEq

/-- `nostr_filter_t`; an array pointer with its count is a list. -/
structure NostrFilter where
  ids : List CString := []
  authors : List CString := []
  kinds : List Int32 := []
  eTags : List CString := []
  pTags : List CString := []
  genericTags : List NostrGenericTagFilter := []
  since : Int64 := 0
  until_ : Int64 := 0
  limit : Int32 := 0
deriving DecidableEq

/-- `nostr_relay_error_t`, the codes the relay mentions. -/
inductive NostrRelayError where
  | ok
  | errMemory
  | errTooManyFilters
  | errInvalidSubscriptionId
  | errMissingField
  | errInvalidId
  | errInvalidPubkey
  | errInvalidCreatedAt
  | errInvalidKind
  | errInvalidTags
  | errInvalidContent
  | errIdMismatch
  | errSigMismatch
  | errInvalidSig
  | errFutureEvent
  | errExpiredEvent
  | errInvalidJson
  | errStorage
deriving DecidableEq, Repr

/-- `nostr_deletion_request_t`, the fields `deletion.c` reads. -/
structure NostrDeletionRequest where
  pubkey : CString
  eventIds : List CString
  addresses : List CString
deriving DecidableEq

/-- `nostr_relay_msg_t`: the messages a relay sends. -/
inductive NostrRelayMsg where
  | ok (eventId : CString) (accepted : Bool) (message : String)
  | eose (subId : CString)
  | closed (subId : CString) (message : String)
  | notice (message : String)
  | event (subId : CString) (event : NostrEvent)
deriving DecidableEq

/-- The library functions called by the relay. -/
structure Libnostr where
  /-- `nostr_event_serialize(event, buf, cap, &len)`: the bytes written, if they fit. -/
  eventSerialize : NostrEvent → Nat → Option CString
  /-- `nostr_event_parse(json, len, &event)`. -/
  eventParse : CString → Option NostrEvent
  /-- `nostr_event_get_expiration`: the NIP-40 tag, not positive when absent. -/
  eventGetExpiration : NostrEvent → Int64
  /-- `nostr_event_get_d_tag`. -/
  eventGetDTag : NostrEvent → Option CString
  /-- `nostr_event_validate_full(event, max_future_sec, &result)` at a clock value. -/
  eventValidateFull : NostrEvent → Int64 → Int64 → NostrRelayError
  /-- `nostr_nip13_calculate_difficulty`. -/
  nip13CalculateDifficulty : Bytes32 → Nat
  /-- `nostr_kind_is_ephemeral`. -/
  kindIsEphemeral : UInt16 → Bool
  /-- `nostr_filter_matches`. -/
  filterMatches : NostrFilter → NostrEvent → Bool
  /-- `nostr_filters_match`. -/
  filtersMatch : List NostrFilter → NostrEvent → Bool
  /-- `nostr_hex_to_bytes(hex, n, out, n / 2)`: reads the first `n` characters. -/
  hexToBytes : CString → Nat → Option (List UInt8)
  /-- `nostr_bytes_to_hex`. -/
  bytesToHex : List UInt8 → CString
  /-- `nostr_deletion_parse`. -/
  deletionParse : NostrEvent → Option NostrDeletionRequest
  /-- `nostr_deletion_authorized(request, target)`. -/
  deletionAuthorized : NostrDeletionRequest → NostrEvent → Bool
  /-- `nostr_relay_msg_serialize(msg, buf, cap, &len)`: the bytes written, if they fit. -/
  relayMsgSerialize : NostrRelayMsg → Nat → Option CString

namespace Libnostr

/--
What storing an event relies on: parsing a serialised event gives the event back, and a
serialisation is not empty and fits the buffer it was written to.
-/
structure StorageLaws (lib : Libnostr) : Prop where
  parse_serialize : ∀ event cap json,
    lib.eventSerialize event cap = some json → lib.eventParse json = some event
  serialize_pos : ∀ event cap json,
    lib.eventSerialize event cap = some json → 0 < json.length
  serialize_le : ∀ event cap json,
    lib.eventSerialize event cap = some json → json.length ≤ cap

/-- A serialisation that was cut short does not parse. -/
def TruncationLaw (lib : Libnostr) : Prop :=
  ∀ (event : NostrEvent) (cap : Nat) (json front : CString),
    lib.eventSerialize event cap = some json → front <+: json → front ≠ json →
    lib.eventParse front = none

/-- What parses of a serialisation, whole or cut short, is the event. -/
theorem StorageLaws.eq_of_parse {lib : Libnostr} (hlib : lib.StorageLaws)
    (hcut : lib.TruncationLaw) {event event' : NostrEvent} {cap : Nat} {json front : CString}
    (hjson : lib.eventSerialize event cap = some json) (hfront : front <+: json)
    (hparse : lib.eventParse front = some event') : event' = event := by
  by_cases hwhole : front = json
  · rw [hwhole, hlib.parse_serialize event cap json hjson] at hparse
    exact (Option.some.inj hparse).symm
  · rw [hcut event cap json front hjson hfront hwhole] at hparse
    cases hparse

/-- What processing a deletion request relies on. -/
structure DeletionLaws (lib : Libnostr) : Prop where
  parse_pubkey : ∀ event request,
    lib.deletionParse event = some request →
    request.pubkey = lib.bytesToHex event.pubkey.toList
  authorized : ∀ request target,
    lib.deletionAuthorized request target = true →
    request.pubkey = lib.bytesToHex target.pubkey.toList
  author_matches : ∀ (filter : NostrFilter) (event : NostrEvent) (pubkey : Bytes32),
    filter.authors = [lib.bytesToHex pubkey.toList] → lib.filterMatches filter event = true →
    event.pubkey = pubkey
  bytesToHex_injective : ∀ xs ys, lib.bytesToHex xs = lib.bytesToHex ys → xs = ys

/-- What a query for one identifier relies on: hexadecimal text, and the rules of a filter. -/
structure IdFilterLaws (lib : Libnostr) : Prop where
  hex_inverse : ∀ id : Bytes32, lib.hexToBytes (lib.bytesToHex id.toList) 64 = some id.toList
  id_matches : ∀ event : NostrEvent,
    lib.filterMatches { ids := [lib.bytesToHex event.id.toList] } event = true

/-- An event whose NIP-40 expiration has passed is rejected. -/
def ExpirationLaw (lib : Libnostr) : Prop :=
  ∀ event maxFuture now, lib.eventValidateFull event maxFuture now = .ok →
    (lib.eventGetExpiration event).toInt ≤ 0 ∨
      now.toInt ≤ (lib.eventGetExpiration event).toInt

/-- A message is serialised exactly when the buffer has room for its size. -/
def SerializeLaw (lib : Libnostr) (size : NostrRelayMsg → Nat) : Prop :=
  ∀ message cap, (lib.relayMsgSerialize message cap).isSome = true ↔ size message ≤ cap

/--
The size of a message: the JSON text of the event, the subscription identifier with each byte
escaped to at most six, and the punctuation.
-/
structure MessageSizes (lib : Libnostr) (size : NostrRelayMsg → Nat) : Prop where
  serialize : lib.SerializeLaw size
  event_le : ∀ event cap json subId, lib.eventSerialize event cap = some json →
    size (.event subId event) ≤ json.length + 6 * subId.length + 16
  eose_le : ∀ subId, size (.eose subId) ≤ 6 * subId.length + 16

end Libnostr

end WispRelay
