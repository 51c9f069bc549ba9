import WispRelay.Library.Interference
import WispRelay.Storage.Engine

/-!
# Processing a deletion request

`deletion_process` handles a kind-5 event in three passes: the events named by `e` tags, the
addresses named by `a` tags, and the kinds named by `k` tags.  Each pass looks targets up with
one call of the storage engine and deletes them with another; in between the cleanup task may
run.  So a pass is a program of calls and not a function of one state.

The two C library functions that read numbers from text chosen by the client are defined here
by what they do: `sscanf` with the format `%d:%64[^:]:%255s`, and `atoi`.  Both read a number
as `strtol` does, limited to 32 bits.
-/

namespace WispRelay
namespace Relay

open Interference Storage

/-! ## Numbers and addresses -/

/-- `isspace`. -/
def isSpace
    (c : UInt8) : Bool :=
  c = 32 || (9 ≤ c && c ≤ 13)

/-- `isdigit`. -/
def isDigit
    (c : UInt8) : Bool :=
  48 ≤ c && c ≤ 57

/-- The value of decimal digits. -/
def digitsValue
    (digits : CString) : Nat :=
  digits.foldl (fun value c => 10 * value + (c.toNat - 48)) 0

/-- Limit a number to 32 bits, as `strtol` does. -/
def clampInt32
    (n : Int) : Int32 :=
  Int32.ofInt (max (-2147483648) (min 2147483647 n))

/-- `strtol(s, &end, 10)`: the number and what follows, if there is a number. -/
def strtol
    (s : CString) : Option (Int32 × CString) :=
  let text := s.dropWhile isSpace
  let (negative, unsigned) :=
    match text with
    | 45 :: rest => (true, rest)
    | 43 :: rest => (false, rest)
    | _ => (false, text)
  let digits := unsigned.takeWhile isDigit
  if digits.isEmpty then none
  else
    some
      (clampInt32 (if negative then -(digitsValue digits : Int) else digitsValue digits),
        unsigned.drop digits.length)

/-- `atoi`. -/
def atoi
    (s : CString) : Int32 :=
  match strtol s with
  | some (n, _) => n
  | none => 0

/--
`sscanf(addr, "%" SCNd32 ":%64[^:]:%255s", &kind, pubkey, d_tag)`, when it converts at least
the first two.
-/
def scanAddress
    (addr : CString) : Option (Int32 × CString × CString) :=
  match strtol addr with
  | none => none
  | some (kind, rest) =>
      match rest with
      | 58 :: rest =>
          let pubkey := (rest.takeWhile (· != 58)).take 64
          if pubkey.isEmpty then none
          else
            let dTag :=
              match rest.drop pubkey.length with
              | 58 :: rest =>
                  ((rest.dropWhile isSpace).takeWhile (fun c => !isSpace c)).take 255
              | _ => []
            some (kind, pubkey, dTag)
      | _ => none

/-! ## The calls -/

/-- The calls `deletion_process` makes. -/
inductive DeletionCall where
  | malloc
  | storage (call : StorageCall)

/-- What a call returns; `malloc` returns whether there was memory. -/
def DeletionCall.Ret : DeletionCall → Type
  | .malloc => Bool
  | .storage call => call.Ret

/-- A program of such calls. -/
abbrev DeletionProg := Prog DeletionCall DeletionCall.Ret

/-- `malloc`. -/
def malloc : DeletionProg Bool :=
  Prog.perform DeletionCall.malloc

/-- `storage_get_event`. -/
def getEvent
    (eventId : Bytes32) : DeletionProg (Option NostrEvent) :=
  Prog.perform (DeletionCall.storage (.get eventId))

/-- `storage_query_events`. -/
def queryEvents
    (filter : NostrFilter)
    (limit : UInt16) : DeletionProg (StorageError × List NostrEvent) :=
  Prog.perform (DeletionCall.storage (.query filter limit))

/-- `storage_delete_event(storage, id) == STORAGE_OK`, counted. -/
def deleteEvent
    (eventId : Bytes32) : DeletionProg Nat := do
  let result : StorageError ← Prog.perform (DeletionCall.storage (.delete eventId))
  pure (if result = .storageOk then 1 else 0)

/-! ## The three passes -/

/-- The body of the loop of `delete_by_event_ids`. -/
def deleteEventId
    (lib : Libnostr)
    (request : NostrDeletionRequest)
    (hex : CString) : DeletionProg Nat :=
  match lib.hexToBytes hex 64 with
  | none => pure 0
  | some bytes => do
      let found ← getEvent (bytesVector 32 bytes)
      match found with
      | none => pure 0
      | some target =>
          if lib.deletionAuthorized request target then
            deleteEvent (bytesVector 32 bytes)
          else
            pure 0

/-- `delete_by_event_ids`. -/
def deleteByEventIds
    (lib : Libnostr)
    (request : NostrDeletionRequest) : DeletionProg Nat :=
  Prog.total (deleteEventId lib request) request.eventIds

/-- The body of the loop of `delete_by_addresses`. -/
def deleteAddress
    (lib : Libnostr)
    (request : NostrDeletionRequest)
    (deleteBefore : Int64)
    (addr : CString) : DeletionProg Nat :=
  match scanAddress addr with
  | none => pure 0
  | some (kind, pubkey, dTag) =>
      if pubkey ≠ request.pubkey then pure 0
      else do
        let kindsOk ← malloc
        let authorsOk ← malloc
        if !kindsOk || !authorsOk then pure 0
        else do
          let filter : NostrFilter :=
            { kinds := [kind]
              authors := [pubkey]
              until_ := deleteBefore
              limit := 100 }
          let (result, events) ← queryEvents filter 100
          if result = .storageOk then
            Prog.total
              (fun event =>
                if (lib.eventGetDTag event).getD [] = dTag then deleteEvent event.id
                else pure 0)
              events
          else
            pure 0

/-- `delete_by_addresses`. -/
def deleteByAddresses
    (lib : Libnostr)
    (request : NostrDeletionRequest)
    (deleteBefore : Int64) : DeletionProg Nat :=
  Prog.total (deleteAddress lib request deleteBefore) request.addresses

/-- The numbers in the `k` tags of a deletion request, at most 32 of them. -/
def deletionKinds
    (deleteEvent : NostrEvent) : List Int32 :=
  (deleteEvent.tags.filterMap fun tag =>
    match tag with
    | name :: value :: _ => if name = ascii "k" then some (atoi value) else none
    | _ => none).take 32

/-- The body of the loop of `delete_by_kinds`. -/
def deleteKind
    (lib : Libnostr)
    (deletion : NostrEvent)
    (kind : Int32) : DeletionProg Nat := do
  let authorsOk ← malloc
  if !authorsOk then pure 0
  else do
    let filter : NostrFilter :=
      { kinds := [kind]
        authors := [lib.bytesToHex deletion.pubkey.toList]
        until_ := deletion.createdAt
        limit := 500 }
    let (result, events) ← queryEvents filter 500
    if result = .storageOk then Prog.total (fun event => deleteEvent event.id) events
    else pure 0

/-- `delete_by_kinds`. -/
def deleteByKinds
    (lib : Libnostr)
    (deletion : NostrEvent) : DeletionProg Nat :=
  Prog.total (deleteKind lib deletion) (deletionKinds deletion)

/-- `NOSTR_KIND_DELETION`. -/
def nostrKindDeletion : UInt16 := 5

/-- `deletion_process`. -/
def deletionProcess
    (lib : Libnostr)
    (deletion : NostrEvent) : DeletionProg Nat :=
  if deletion.kind ≠ nostrKindDeletion then pure 0
  else
    match lib.deletionParse deletion with
    | none => pure 0
    | some request => do
        let byIds ← deleteByEventIds lib request
        let byAddresses ← deleteByAddresses lib request deletion.createdAt
        let byKinds ← deleteByKinds lib deletion
        pure (byIds + byAddresses + byKinds)

/-- The first number, the author and the rest of an address. -/
example : scanAddress (ascii "30023:ab12:my article") =
    some (30023, ascii "ab12", ascii "my") := by decide

end Relay
end WispRelay
