import WispRelay.Library.Execution
import WispRelay.Nostr.SampleLibrary
import WispRelay.Relay.DeletionTargets
import WispRelay.Storage.EntryOrigins

/-!
# Only the author deletes

Whatever a deletion request deletes, in any interleaving with the cleanup task, has the author
of the request: an `e` tag needs the authorisation of the library, and the queries for
addresses and kinds ask for that author only.

This holds after every run, with any failures and any restarts.  An index that was refused at a
start begins again with the running number 0, so that a path may be used a second time, and one
identifier may have several records.  What the passes rely on is that records and files go back
to events that were saved (`Traceable`), and that one event has the identifier.
-/

namespace WispRelay
namespace Relay

open Interference Runs Storage

/-- An event that was found is one of those saved, and is what was looked for. -/
def savedFacts
    (lib : Libnostr)
    (P : NostrEvent → Prop) : LookupFacts where
  inv := Traceable lib P
  got := fun eventId event _ => P event ∧ event.id = eventId
  found := fun filter event _ => P event ∧ lib.filterMatches filter event = true

/-- The identifier is the one of an event of the author. -/
def authorsEvent
    (P : NostrEvent → Prop)
    (pubkey : Bytes32)
    (eventId : Bytes32)
    (_ : LoggedWorld) : Prop :=
  ∃ event, P event ∧ event.id = eventId ∧ event.pubkey = pubkey

section Author

variable
  {lib : Libnostr}
  (hlib : lib.StorageLaws)
  (hcut : lib.TruncationLaw)
  (hdel : lib.DeletionLaws)
  {P : NostrEvent → Prop}
  (hdiffer : PrefixesDiffer P)
include hdel

include hlib hcut hdiffer in
theorem savedFacts_kept :
    (savedFacts lib P).Kept lib where
  inv := fun _ op hquiet h => h.run fun event hcall => absurd hcall (hquiet event)
  got := fun _ _ _ _ _ _ hgot => hgot
  found := fun _ _ _ _ _ _ hfound => hfound
  of_get := fun _ _ _ _ h hget => h.of_get hdiffer hlib hcut hdel.bytesToHex_injective hget
  of_query := by
    intro w env filter limit event h hevent
    obtain ⟨⟨-, hP, -⟩, hmatches⟩ := h.files.of_query hlib hcut hevent
    exact ⟨hP, hmatches⟩

/-- Each pass establishes the author in its own way. -/
theorem savedFacts_permits
    {deletion : NostrEvent}
    {request : NostrDeletionRequest}
    (hparse : lib.deletionParse deletion = some request) :
    (savedFacts lib P).Permits lib deletion request (authorsEvent P deletion.pubkey) := by
  have hrequest := hdel.parse_pubkey deletion request hparse
  refine ⟨?_, ?_, ?_⟩
  · -- the library compares the author of the event with the one of the request
    intro hex _ bytes _ event w hgot hauthorized
    have hauthor := hdel.authorized request event hauthorized
    rw [hrequest] at hauthor
    exact ⟨event, hgot.1, hgot.2,
      (Vector.toList_inj.mp (hdel.bytesToHex_injective _ _ hauthor)).symm⟩
  · -- the query asks for the author in the address, who is the one of the request
    intro addr _ kind dTag _ event w hfound _
    refine ⟨event, hfound.1, rfl, hdel.author_matches _ event deletion.pubkey ?_ hfound.2⟩
    rw [← hrequest]
    rfl
  · -- the query asks for the author of the request
    intro kind _ event w hfound
    exact ⟨event, hfound.1, rfl, hdel.author_matches _ event deletion.pubkey rfl hfound.2⟩

end Author

/--
**Only the author deletes.**  After any run, in any interleaving of `deletion_process` with
purges and compactions, whatever calls fail: a record that is live less often after a call than
before it had expired, or its event has the author of the request.  The events ever handed to
`storage_save_event` are told apart by the first 16 bytes of their identifiers, which are
hashes.
-/
theorem only_author_deletes
    (lib : Libnostr)
    (hlib : lib.StorageLaws)
    (hcut : lib.TruncationLaw)
    (hdel : lib.DeletionLaws)
    (capacity : Nat)
    (ttl : UInt32)
    (hcapacity : capacity ≤ storageIndexEntries)
    (past : List FlashOp)
    (hdiffer : PrefixesDiffer (· ∈ givenEvents past))
    (deletion : NostrEvent)
    {p : DeletionProg Nat}
    {w : LoggedWorld}
    (hreach : Reaches (deletionSem lib) (cleanupStep lib) (deletionProcess lib deletion)
      (finalState (flashStep lib) (erasedFlash capacity ttl hcapacity) past) p w)
    (op : StorageOp)
    (hop : Enabled p op) :
    ∀ e : StorageIndexEntry,
      (live (afterOp lib w op).world.engine.visible).count e <
        (live w.world.engine.visible).count e →
      e.isExpired op.env.now = true ∨
        ∃ event, w.owner e = some event ∧ event.pubkey = deletion.pubkey := by
  have hstart := traceable_run lib ttl hcapacity past
  have hkept := savedFacts_kept hlib hcut hdel hdiffer
  have hsafe := hkept.safe_deletionProcess deletion
    (fun request hparse => savedFacts_permits hdel hparse) hstart
  have hnow : Traceable lib (· ∈ givenEvents past) w := hkept.inv_of_reaches hsafe hstart hreach
  intro e hfewer
  have hmem : e ∈ w.world.engine.visible :=
    (mem_live.mp (List.count_pos_iff.mp (Nat.zero_lt_of_lt hfewer))).1
  refine (reason_of_count lib op.env w.world (hkept.quiet_of_reaches hsafe hreach hop)
    hfewer).imp_right fun hcall => ?_
  obtain ⟨event, hgiven, hid, hauthor⟩ := hkept.may_of_reaches hsafe hreach hop hcall
  exact ⟨event, hnow.owner_eq hdiffer hmem hgiven hid, hauthor⟩

/-! ## A request with three kinds of tags -/

/-- A note, an article and a reaction of one author, and a note of another. -/
def twoAuthors : List NostrEvent :=
  [ Sample.numbered 0,
    { Sample.numbered 1 with kind := 30023, tags := [[ascii "d", ascii "my"]] },
    { Sample.numbered 2 with kind := 7 },
    { Sample.numbered 3 with pubkey := Vector.replicate 32 0x11 } ]

/-- The first author names both notes, the article by its address, and the kind of reactions. -/
def threeTagsDeletion : NostrEvent :=
  { Sample.numbered 4 with
    kind := 5
    tags :=
      [ [ascii "e", Sample.hexOf (Sample.numbered 3).id.toList],
        [ascii "e", Sample.hexOf (Sample.numbered 0).id.toList],
        [ascii "a", ascii "30023:" ++ Sample.hexOf (Sample.numbered 0).pubkey.toList ++
          ascii ":my"],
        [ascii "k", ascii "7"] ] }

/--
A note is saved, `storage_destroy` fails to write the index, and the relay starts with an empty
one: the running number 0 is used a second time.
-/
def savedAfterLoss : List FlashOp :=
  .run ⟨.save (Sample.numbered 0), CallEnv.undisturbed 1700000000⟩ ::
    .restart (some { CallEnv.undisturbed 1700000001 with nvs := fun _ => .fail })
      internalStart 1814400 ::
    twoAuthors.map fun event => .run ⟨.save event, CallEnv.undisturbed 1700000002⟩

/-- The call deletes the identifier. -/
def deletesId
    (eventId : Bytes32) : DeletionCall → Bool
  | .storage (.delete deleted) => deleted == eventId
  | _ => false

/-- Of which records the deletion of an identifier leaves fewer live. -/
def deletedRecords
    (lib : Libnostr)
    (w : LoggedWorld)
    (eventId : Bytes32) : List StorageIndexEntry :=
  (live w.world.engine.visible).filter fun e =>
    decide ((live (afterOp lib w ⟨.delete eventId, CallEnv.undisturbed 1700000003⟩
      ).world.engine.visible).count e < (live w.world.engine.visible).count e)

/-- Each of the three passes deletes an event, which is one of the author. -/
theorem only_author_deletes_three_passes :
    let lib := Sample.library twoAuthors
    ∀ n ∈ [0, 1, 2], ∃ (next : StorageError → DeletionProg Nat) (w : LoggedWorld)
        (e : StorageIndexEntry),
      Reaches (deletionSem lib) (cleanupStep lib) (deletionProcess lib threeTagsDeletion)
          (finalState (flashStep lib) (erasedFlash 1000 1814400 thousandSlots) savedAfterLoss)
          (Prog.call (.storage (.delete (Sample.numbered n).id)) next) w ∧
        e ∈ deletedRecords lib w (Sample.numbered n).id ∧
        (e.isExpired 1700000003 = true ∨
          ∃ event, w.owner e = some event ∧ event.pubkey = threeTagsDeletion.pubkey) := by
  intro lib n hn
  have hids : (twoAuthors.map (·.id)).Nodup := by decide +kernel
  have hdiffer : PrefixesDiffer (· ∈ givenEvents savedAfterLoss) := by
    have hgiven : givenEvents savedAfterLoss = Sample.numbered 0 :: twoAuthors := rfl
    have hnodup : (twoAuthors.map fun event => event.id.toList.take 16).Nodup := by
      decide +kernel
    intro a b ha hb hsame
    have hmem : ∀ event ∈ givenEvents savedAfterLoss, event ∈ twoAuthors := by
      rw [hgiven]
      simp [twoAuthors]
    exact List.inj_on_of_nodup_map hnodup (hmem a ha) (hmem b hb) hsame
  -- the run of the request in which nothing fails and nobody interferes
  let start := finalState (flashStep lib) (erasedFlash 1000 1814400 thousandSlots)
    savedAfterLoss
  let step := deletionStep lib (CallEnv.undisturbed 1700000003)
  have hvisits : ∀ n ∈ [0, 1, 2], ((deletionProcess lib threeTagsDeletion).visited step
      start).any (fun x => deletesId (Sample.numbered n).id x.1 &&
        !(deletedRecords lib x.2 (Sample.numbered n).id).isEmpty) = true := by
    decide +kernel
  obtain ⟨x, hx, hcall⟩ := List.any_eq_true.mp (hvisits n hn)
  rw [Bool.and_eq_true] at hcall
  have hvisit : Prog.Visits step (fun c => deletesId (Sample.numbered n).id c = true)
      (fun w => (!(deletedRecords lib w (Sample.numbered n).id).isEmpty) = true)
      (deletionProcess lib threeTagsDeletion) start := ⟨x, hx, hcall⟩
  obtain ⟨c, next, w, hreach, hdeletes, hsome⟩ := hvisit.reaches (cleanupStep lib)
    (deletionStep_sem lib (CallEnv.undisturbed 1700000003))
  cases c with
  | malloc => cases hdeletes
  | storage call =>
      cases call with
      | delete eventId =>
          obtain rfl : eventId = (Sample.numbered n).id := by simpa [deletesId] using hdeletes
          obtain ⟨e, he⟩ : ∃ e, e ∈ deletedRecords lib w (Sample.numbered n).id := by
            cases hrecords : deletedRecords lib w (Sample.numbered n).id with
            | nil =>
                rw [hrecords] at hsome
                cases hsome
            | cons e rest => exact ⟨e, List.mem_cons_self⟩
          refine ⟨next, w, e, hreach, he, ?_⟩
          exact only_author_deletes lib (Sample.library_storageLaws hids)
            (Sample.library_truncationLaw hids) (Sample.library_deletionLaws _) 1000 1814400
            thousandSlots savedAfterLoss hdiffer threeTagsDeletion hreach
            ⟨.delete (Sample.numbered n).id, CallEnv.undisturbed 1700000003⟩
            (Or.inr ⟨next, rfl⟩) e (of_decide_eq_true (List.mem_filter.mp he).2)
      | _ => cases hdeletes

end Relay
end WispRelay
