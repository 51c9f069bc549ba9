import WispRelay.Relay.NamedOnly

/-!
# What an address of a deletion request deletes

An address is a kind, an author and a `d` tag, divided by the first two colons, and it is meant
for the events with these three.  `delete_by_addresses` reads it with `sscanf`: at most 64 bytes
of the author, and of the `d` tag at most 255 bytes without white space.  What is left over is
not noticed, and the query and the comparison are made with the part that was read.

* `selected_of_delete`: whatever happens in between, only events that the part read selects are
  deleted.
* `address_deletes_its_events_only_iff`: an address deletes its own events only exactly when
  `sscanf` reads all of it, or the part read selects nothing.
-/

namespace WispRelay
namespace Relay

open Interference Runs Storage

/-! ## The address of an event -/

/-- The event has the address: its kind, its author and its `d` tag, empty when absent. -/
def HasAddress
    (lib : Libnostr)
    (addr : CString)
    (event : NostrEvent) : Prop :=
  ∃ kind,
    addressParts addr =
        some (kind, lib.bytesToHex event.pubkey.toList, (lib.eventGetDTag event).getD []) ∧
      kind.toInt = (event.kind.toNat : Int)

/-- When `sscanf` reads an address, what it reads are the parts of the address. -/
def ReadWhole
    (addr : CString) : Prop :=
  ∀ parts, scanAddress addr = some parts → addressParts addr = some parts

/-- What `sscanf` reads of an address selects the event of the record. -/
def ScanSelects
    (lib : Libnostr)
    (request : NostrDeletionRequest)
    (deleteBefore : Int64)
    (addr : CString)
    (e : StorageIndexEntry)
    (event : NostrEvent) : Prop :=
  ∃ kind, scanAddress addr = some (kind, request.pubkey, (lib.eventGetDTag event).getD []) ∧
    Accepts lib (addressFilter kind request.pubkey deleteBefore) e event

/-- An address without white space and with parts of the usual lengths is read to its end. -/
theorem PlainAddress.readWhole
    {addr : CString}
    (hplain : PlainAddress addr) :
    ReadWhole addr :=
  fun _ hscan => addressParts_of_scan hplain hscan

section Selected

variable
  {lib : Libnostr}
  (hdel : lib.DeletionLaws)
  {deletion : NostrEvent}
  {request : NostrDeletionRequest}
  (hparse : lib.deletionParse deletion = some request)
  {deleteBefore : Int64}
  {addr : CString}
  {e : StorageIndexEntry}
  {event : NostrEvent}
include hdel hparse

/-- What is selected has the author of the request. -/
theorem ScanSelects.pubkey
    (h : ScanSelects lib request deleteBefore addr e event) :
    request.pubkey = lib.bytesToHex event.pubkey.toList := by
  obtain ⟨kind, -, haccepts⟩ := h
  have hrequest := hdel.parse_pubkey deletion request hparse
  have hauthor : event.pubkey = deletion.pubkey := by
    refine hdel.author_matches _ event deletion.pubkey ?_ haccepts.event
    rw [← hrequest]
    rfl
  rw [hrequest, hauthor]

/-- When the address is read whole, what is selected has the address. -/
theorem ScanSelects.hasAddress
    (h : ScanSelects lib request deleteBefore addr e event)
    (hdescribes : Describes e event)
    (hwhole : ReadWhole addr) :
    HasAddress lib addr event := by
  have hauthor := h.pubkey hdel hparse
  obtain ⟨kind, hscan, haccepts⟩ := h
  refine ⟨kind, ?_, haccepts.address_kind hdescribes⟩
  rw [hwhole _ hscan, hauthor]

/-- When an event with the address is selected, the address was read whole. -/
theorem ScanSelects.readWhole
    (h : ScanSelects lib request deleteBefore addr e event)
    (haddress : HasAddress lib addr event)
    (hdescribes : Describes e event) :
    ReadWhole addr := by
  have hauthor := h.pubkey hdel hparse
  obtain ⟨kind, hscan, haccepts⟩ := h
  obtain ⟨kind', hparts, hkind'⟩ := haddress
  obtain rfl : kind = kind' :=
    Int32.toInt_inj.mp ((haccepts.address_kind hdescribes).trans hkind'.symm)
  intro parts hparts'
  rw [hscan, Option.some.injEq] at hparts'
  rw [hparts, ← hparts', hauthor]

end Selected

/-! ## Calls from a time on -/

/-- What a call does when the clock does not show a time before `now`. -/
def callSince
    (lib : Libnostr)
    (now : UInt32) :
    (c : DeletionCall) → LoggedWorld → c.Ret → LoggedWorld → Prop
  | .malloc, w, _, w' => w' = w
  | .storage call, w, r, w' => ∃ env : CallEnv,
      now ≤ env.now ∧ r = (storageCall lib env w.world call).1 ∧ w' = afterOp lib w ⟨call, env⟩

/-- A step of the cleanup task when the clock does not show a time before `now`. -/
def cleanupSince
    (lib : Libnostr)
    (now : UInt32)
    (w w' : LoggedWorld) : Prop :=
  ∃ op, IsCleanup op ∧ now ≤ op.env.now ∧ w' = afterOp lib w op

/-- An event that is stored and has not expired is selected by what is read of the address. -/
def SelectedId
    (lib : Libnostr)
    (request : NostrDeletionRequest)
    (deleteBefore : Int64)
    (addr : CString)
    (now : UInt32)
    (w : LoggedWorld)
    (eventId : Bytes32) : Prop :=
  ∃ e ∈ live w.world.engine.visible, e.isExpired now = false ∧ e.eventId = eventId ∧
    ∃ event, Stores lib w e event ∧ ScanSelects lib request deleteBefore addr e event

/-- Nothing is saved, and only identifiers with the property are deleted. -/
def DeletesOnly
    (selected : Bytes32 → Prop) : DeletionCall → Prop
  | .malloc => True
  | .storage (.save _) => False
  | .storage (.delete eventId) => selected eventId
  | .storage _ => True

theorem DeletesOnly.quiet
    {selected : Bytes32 → Prop}
    {call : StorageCall}
    (h : DeletesOnly selected (.storage call)) :
    ∀ event, call ≠ .save event := by
  rintro event rfl
  exact h

section Safety

variable
  {lib : Libnostr}
  {now : UInt32}
  {w₀ : LoggedWorld}

/-- The cleanup task leaves what remains as it is. -/
theorem Remaining.cleanupSince
    (w w' : LoggedWorld)
    (h : Remaining lib w₀ w)
    (hstep : cleanupSince lib now w w') :
    Remaining lib w₀ w' := by
  obtain ⟨op, hcleanup, -, rfl⟩ := hstep
  exact h.quiet hcleanup.quiet

/-- A program that deletes selected identifiers only, from every state that remains. -/
abbrev SafeSince
    (lib : Libnostr)
    (now : UInt32)
    (w₀ : LoggedWorld)
    (selected : Bytes32 → Prop)
    (p : DeletionProg Nat)
    (w : LoggedWorld) : Prop :=
  Safe (callSince lib now) (cleanupSince lib now) (fun c _ => DeletesOnly selected c) p
    (fun _ => Remaining lib w₀) w

variable
  {selected : Bytes32 → Prop}

theorem SafeSince.malloc
    {w : LoggedWorld}
    (h : Remaining lib w₀ w)
    {next : Bool → DeletionProg Nat}
    (hnext : ∀ ok s, Remaining lib w₀ s → SafeSince lib now w₀ selected (next ok) s) :
    SafeSince lib now w₀ selected (malloc >>= next) w := by
  refine Safe.call Remaining.cleanupSince ?_ h
  intro s hs
  refine ⟨trivial, ?_⟩
  rintro ok s' rfl
  exact hnext ok s' hs

theorem SafeSince.deleteEvent
    {w : LoggedWorld}
    (h : Remaining lib w₀ w)
    {eventId : Bytes32}
    (hselected : selected eventId) :
    SafeSince lib now w₀ selected (deleteEvent eventId) w := by
  refine Safe.call Remaining.cleanupSince ?_ h
  intro s hs
  refine ⟨hselected, ?_⟩
  rintro r s' ⟨env, -, -, rfl⟩
  exact hs.quiet (by rintro event ⟨⟩)

variable
  (hlib : lib.StorageLaws)
  (hcut : lib.TruncationLaw)
include hlib hcut

/-- The events a query finds were stored at first, and had not expired. -/
theorem SafeSince.queryEvents
    {w : LoggedWorld}
    (h : Remaining lib w₀ w)
    {filter : NostrFilter}
    {limit : UInt16}
    {next : StorageError × List NostrEvent → DeletionProg Nat}
    (hnext : ∀ found : StorageError × List NostrEvent,
      (∀ event ∈ found.2, ∃ e ∈ live w₀.world.engine.visible, e.isExpired now = false ∧
        e.eventId = event.id ∧ Stores lib w₀ e event ∧ Accepts lib filter e event) →
      ∀ s, Remaining lib w₀ s → SafeSince lib now w₀ selected (next found) s) :
    SafeSince lib now w₀ selected (queryEvents filter limit >>= next) w := by
  refine Safe.call Remaining.cleanupSince ?_ h
  intro s hs
  refine ⟨trivial, ?_⟩
  rintro found s' ⟨env, hlater, hfound, rfl⟩
  refine hnext found ?_ _ (hs.quiet (by rintro event ⟨⟩))
  intro event hevent
  rw [hfound] at hevent
  obtain ⟨e, hlive, howner, hdescribes, hunexpired, hmatches, -, hindex, hparses⟩ :=
    hs.owned.of_query hlib hcut hevent
  exact ⟨e, hs.live_subset e hlive, StorageIndexEntry.unexpired_before hlater hunexpired,
    hdescribes.eventId, hs.stores hlive howner hparses, hindex, hmatches⟩

/-- The pass over one address deletes what is selected only. -/
theorem SafeSince.deleteAddress
    {request : NostrDeletionRequest}
    {deleteBefore : Int64}
    {addr : CString}
    {w : LoggedWorld}
    (h : Remaining lib w₀ w) :
    SafeSince lib now w₀ (SelectedId lib request deleteBefore addr now w₀)
      (deleteAddress lib request deleteBefore addr) w := by
  unfold Relay.deleteAddress
  cases hscan : scanAddress addr with
  | none => exact h
  | some parts =>
      obtain ⟨kind, author, dTag⟩ := parts
      by_cases hauthor : author = request.pubkey
      case neg =>
        simp only [ne_eq, hauthor, not_false_eq_true, if_true]
        exact h
      subst hauthor
      simp only [ne_eq, not_true_eq_false, if_false]
      refine SafeSince.malloc h fun kindsOk s hs => SafeSince.malloc hs fun authorsOk s hs => ?_
      by_cases hmemory : (!kindsOk || !authorsOk) = true
      · rw [if_pos hmemory]
        exact hs
      · rw [if_neg hmemory]
        refine SafeSince.queryEvents hlib hcut hs ?_
        rintro ⟨result, events⟩ hfound s hs
        dsimp only
        split
        · refine Safe.total ?_ hs
          intro event hevent s hs
          split
          · rename_i hdTag
            subst hdTag
            obtain ⟨e, hlive, hunexpired, hid, hstores, haccepts⟩ := hfound event hevent
            exact SafeSince.deleteEvent hs
              ⟨e, hlive, hunexpired, hid, event, hstores, kind, hscan, haccepts⟩
          · exact hs
        · exact hs

end Safety

/-! ## Every interleaving -/

section Interleavings

variable
  {lib : Libnostr}
  (hlib : lib.StorageLaws)
  (hcut : lib.TruncationLaw)
  {now : UInt32}
  {w₀ w : LoggedWorld}
  (h : Attributed lib w₀)
  {request : NostrDeletionRequest}
  {deleteBefore : Int64}
  {addr : CString}
  {p : DeletionProg Nat}
  (hreach : Reaches (callSince lib now) (cleanupSince lib now)
    (deleteAddress lib request deleteBefore addr) w₀ p w)
include hlib hcut h hreach

/-- What is reached deletes selected identifiers only. -/
theorem safe_of_reaches :
    SafeSince lib now w₀ (SelectedId lib request deleteBefore addr now w₀) p w :=
  (SafeSince.deleteAddress hlib hcut h.remaining).reaches
    (fun _ => Remaining.cleanupSince) hreach

theorem remaining_since :
    Remaining lib w₀ w := by
  refine (SafeSince.deleteAddress hlib hcut h.remaining).invariant
    (fun _ => Remaining.cleanupSince) h.remaining ?_ Remaining.cleanupSince hreach
  intro c s r s' hs hallowed hcall
  cases c with
  | malloc => exact hcall ▸ hs
  | storage call =>
      obtain ⟨env, -, -, rfl⟩ := hcall
      exact hs.quiet hallowed.quiet

/-- An identifier that is about to be deleted is selected. -/
theorem selected_of_delete
    {eventId : Bytes32}
    {next : StorageError → DeletionProg Nat}
    (hdelete : p = Prog.call (.storage (.delete eventId)) next) :
    SelectedId lib request deleteBefore addr now w₀ eventId := by
  subst hdelete
  exact (safe_of_reaches hlib hcut h hreach).allowed_of_call

/-- A record that stops being live before it expires is selected. -/
theorem selected_of_gone
    {op : StorageOp}
    (hop : Enabled p op)
    {e : StorageIndexEntry}
    (hmem : e ∈ live w.world.engine.visible)
    (hunexpired : e.isExpired op.env.now = false)
    (hgone : e ∉ live (afterOp lib w op).world.engine.visible) :
    ∃ event, Stores lib w₀ e event ∧ ScanSelects lib request deleteBefore addr e event := by
  have hremaining := remaining_since hlib hcut h hreach
  have hdeleted : op.call = .delete e.eventId := by
    by_contra hother
    refine hgone (live_kept lib op.env hremaining.index.nodup_fileIndex op.call hmem hunexpired ?_)
    rintro eventId hcall rfl
    exact hother hcall
  rcases hop with (hpurge | hcompact) | ⟨next, hnext⟩
  · rw [hpurge] at hdeleted
    cases hdeleted
  · rw [hcompact] at hdeleted
    cases hdeleted
  · obtain ⟨call, env⟩ := op
    subst hdeleted
    obtain ⟨e', hlive, -, hid, event, hstores, hselects⟩ :=
      selected_of_delete hlib hcut h hreach hnext
    obtain rfl : e' = e := h.index.eq_of_eventId hlive (hremaining.live_subset e hmem) hid
    exact ⟨event, hstores, hselects⟩

end Interleavings

/-! ## Only its own events -/

/--
In every interleaving with the cleanup task from the time `now` on, the unexpired events that
the pass over the address deletes have the address, and an address of another author deletes
nothing.
-/
structure HitsOnlyItsAddress
    (lib : Libnostr)
    (request : NostrDeletionRequest)
    (deleteBefore : Int64)
    (addr : CString)
    (now : UInt32)
    (w₀ : LoggedWorld) : Prop where
  deleted : ∀ (p : DeletionProg Nat) (w : LoggedWorld),
    Reaches (callSince lib now) (cleanupSince lib now)
      (deleteAddress lib request deleteBefore addr) w₀ p w →
    ∀ op, Enabled p op → now ≤ op.env.now →
    ∀ e ∈ live w.world.engine.visible, e.isExpired op.env.now = false →
    e ∉ live (afterOp lib w op).world.engine.visible →
    ∃ event, w₀.owner e = some event ∧ HasAddress lib addr event
  foreign : (∀ kind dTag, addressParts addr ≠ some (kind, request.pubkey, dTag)) →
    ∀ (p : DeletionProg Nat) (w : LoggedWorld),
    Reaches (callSince lib now) (cleanupSince lib now)
      (deleteAddress lib request deleteBefore addr) w₀ p w →
    ∀ eventId next, p ≠ Prog.call (.storage (.delete eventId)) next

/-- What is read of the address selects no event that is stored and has not expired. -/
def SelectsNothing
    (lib : Libnostr)
    (request : NostrDeletionRequest)
    (deleteBefore : Int64)
    (addr : CString)
    (now : UInt32)
    (w : LoggedWorld) : Prop :=
  ∀ e ∈ live w.world.engine.visible, e.isExpired now = false →
    ∀ event, Stores lib w e event → ¬ ScanSelects lib request deleteBefore addr e event

/-- A stored event that is selected is deleted in some execution. -/
theorem selected_deleted
    {lib : Libnostr}
    {request : NostrDeletionRequest}
    {deleteBefore : Int64}
    {addr : CString}
    {now : UInt32}
    {e : StorageIndexEntry}
    {event : NostrEvent}
    {w₀ : LoggedWorld}
    (h : Kept lib e event w₀)
    (hunexpired : e.isExpired now = false)
    (hselects : ScanSelects lib request deleteBefore addr e event) :
    ∃ p w op, Reaches (callSince lib now) (cleanupSince lib now)
        (deleteAddress lib request deleteBefore addr) w₀ p w ∧
      Enabled p op ∧ op.env.now = now ∧ e ∈ live w.world.engine.visible ∧
      e ∉ live (afterOp lib w op).world.engine.visible := by
  obtain ⟨kind, hscan, haccepts⟩ := hselects
  have hsem : ∀ (c : DeletionCall) (w : LoggedWorld),
      callSince lib now c w (deletionStep lib (readsOnly lib now e) c w).1
        (deletionStep lib (readsOnly lib now e) c w).2 := by
    intro c w
    cases c with
    | malloc => rfl
    | storage call => exact ⟨readsOnly lib now e, UInt32.le_refl now, rfl, rfl⟩
  obtain ⟨c, next, w, hreach, rfl, hkept⟩ :=
    ((looksUp_deletionStep hunexpired).visits_deleteAddress hscan haccepts h).reaches
      (cleanupSince lib now) hsem
  exact ⟨_, w, ⟨.delete e.eventId, readsOnly lib now e⟩, hreach, .inr ⟨next, rfl⟩, rfl,
    hkept.mem, hkept.deleted hkept.initialized e _⟩

/-- Nothing else is deleted when the address is read whole. -/
theorem hitsOnly_of_readWhole
    {lib : Libnostr}
    (hlib : lib.StorageLaws)
    (hcut : lib.TruncationLaw)
    (hdel : lib.DeletionLaws)
    {deletion : NostrEvent}
    {request : NostrDeletionRequest}
    (hparse : lib.deletionParse deletion = some request)
    {w₀ : LoggedWorld}
    (h : Attributed lib w₀)
    {addr : CString}
    (hwhole : ReadWhole addr)
    (deleteBefore : Int64)
    (now : UInt32) :
    HitsOnlyItsAddress lib request deleteBefore addr now w₀ where
  deleted := by
    intro p w hreach op hop _ e hmem hunexpired hgone
    obtain ⟨event, hstores, hselects⟩ :=
      selected_of_gone hlib hcut h hreach hop hmem hunexpired hgone
    have hlive := (remaining_since hlib hcut h hreach).live_subset e hmem
    exact ⟨event, hstores.owner,
      hselects.hasAddress hdel hparse (hstores.describes h hlive) hwhole⟩
  foreign := by
    intro hforeign p w hreach eventId next hdelete
    obtain ⟨e, -, -, -, event, -, kind, hscan, -⟩ :=
      selected_of_delete hlib hcut h hreach hdelete
    exact hforeign _ _ (hwhole _ hscan)

/-- Nothing is deleted when nothing is selected. -/
theorem hitsOnly_of_selectsNothing
    {lib : Libnostr}
    (hlib : lib.StorageLaws)
    (hcut : lib.TruncationLaw)
    {request : NostrDeletionRequest}
    {w₀ : LoggedWorld}
    (h : Attributed lib w₀)
    {deleteBefore : Int64}
    {addr : CString}
    {now : UInt32}
    (hnothing : SelectsNothing lib request deleteBefore addr now w₀) :
    HitsOnlyItsAddress lib request deleteBefore addr now w₀ where
  deleted := by
    intro p w hreach op hop hlater e hmem hunexpired hgone
    obtain ⟨event, hstores, hselects⟩ :=
      selected_of_gone hlib hcut h hreach hop hmem hunexpired hgone
    have hearlier := StorageIndexEntry.unexpired_before hlater hunexpired
    have hlive := (remaining_since hlib hcut h hreach).live_subset e hmem
    exact absurd hselects (hnothing e hlive hearlier event hstores)
  foreign := by
    intro _ p w hreach eventId next hdelete
    obtain ⟨e, hlive, hunexpired, -, event, hstores, hselects⟩ :=
      selected_of_delete hlib hcut h hreach hdelete
    exact hnothing e hlive hunexpired event hstores hselects

/-- An article with the `d` tag `my`. -/
def myArticle : NostrEvent :=
  { Sample.numbered 0 with kind := 30023, tags := [[ascii "d", ascii "my"]] }

/-- The address of the article `my article` of the same author. -/
def myArticleAddress : CString :=
  ascii "30023:" ++ Sample.hexOf myArticle.pubkey.toList ++ ascii ":my article"

/-- The author asks to delete `my article`. -/
def myArticleDeletion : NostrEvent :=
  { Sample.numbered 1 with kind := 5, tags := [[ascii "a", myArticleAddress]] }

/-- The request of that deletion. -/
def myArticleRequest : NostrDeletionRequest where
  pubkey := Sample.hexOf myArticle.pubkey.toList
  eventIds := []
  addresses := [myArticleAddress]

/-- The article `my` is saved. -/
def myArticleSaved : List FlashOp :=
  [.run ⟨.save myArticle, CallEnv.undisturbed 1700000000⟩]

theorem myArticleSaved_durable :
    Durable 1000 myArticleSaved :=
  durable_of_runs 1000 (by simp [myArticleSaved, FlashOp.isRestart])

theorem flashSaves_myArticleSaved :
    flashSaves myArticleSaved < 2 ^ 32 := by
  simp [flashSaves, myArticleSaved, FlashOp.isSave]

/-- The flash with the article. -/
def myArticleFlash : LoggedWorld :=
  finalState (flashStep (Sample.library [myArticle])) (erasedFlash 1000 1814400 thousandSlots)
    myArticleSaved

/-- The record of the article. -/
def myArticleRecord : StorageIndexEntry :=
  myArticleFlash.world.engine.index.getD 0 StorageIndexEntry.zero

/-- The article is stored. -/
theorem myArticle_kept :
    Kept (Sample.library [myArticle]) myArticleRecord myArticle myArticleFlash := by
  let lib := Sample.library [myArticle]
  let json := Sample.eventJson myArticle
  have hstored : (myArticleFlash.world.engine.initialized = true ∧
        myArticleRecord ∈ live myArticleFlash.world.engine.visible) ∧
      myArticleFlash.owner myArticleRecord = some myArticle ∧
      myArticleFlash.world.files (myArticleRecord.path (Sample.library [myArticle])) = some json ∧
      0 < json.length ∧ json.length ≤ storageMaxEventSize ∧
      (Sample.library [myArticle]).eventParse json = some myArticle := by
    decide +kernel
  obtain ⟨⟨hinitialized, hlive⟩, howner, hfile, hpos, hsize, hparse⟩ := hstored
  have hstart := attributed_of_run lib 1814400 thousandSlots myArticleSaved
    myArticleSaved_durable flashSaves_myArticleSaved
  have hstores : Stores (Sample.library [myArticle]) myArticleFlash myArticleRecord myArticle :=
    ⟨howner, json, hfile, hpos, hsize, hparse⟩
  exact ⟨hstart, hinitialized, hlive, hstores⟩

/-- The part that is read of the address of `my article` selects the article `my`. -/
theorem myArticle_selected :
    ScanSelects (Sample.library [myArticle]) myArticleRequest myArticleDeletion.createdAt
      myArticleAddress myArticleRecord myArticle :=
  ⟨30023, by decide +kernel, by decide +kernel, by decide +kernel⟩

/--
**An address deletes its own events only exactly when it is read whole or selects nothing.**
For every state the storage can reach with no NVS call failing before a restart, every deletion
request and every text of an `a` tag.
-/
theorem address_deletes_its_events_only_iff
    (lib : Libnostr)
    (hlib : lib.StorageLaws)
    (hcut : lib.TruncationLaw)
    (hdel : lib.DeletionLaws)
    (capacity : Nat)
    (ttl : UInt32)
    (hcapacity : capacity ≤ storageIndexEntries)
    (past : List FlashOp)
    (hdurable : Durable capacity past)
    (hsaves : flashSaves past < 2 ^ 32)
    (deletion : NostrEvent)
    (request : NostrDeletionRequest)
    (hparse : lib.deletionParse deletion = some request)
    (addr : CString)
    (now : UInt32) :
    HitsOnlyItsAddress lib request deletion.createdAt addr now
        (finalState (flashStep lib) (erasedFlash capacity ttl hcapacity) past) ↔
      ReadWhole addr ∨
        SelectsNothing lib request deletion.createdAt addr now
          (finalState (flashStep lib) (erasedFlash capacity ttl hcapacity) past) := by
  have hstart := attributed_of_run lib ttl hcapacity past hdurable hsaves
  have hinitialized := (flashInv_run lib ttl hcapacity past hdurable hsaves).initialized
  constructor
  · intro hhits
    rw [or_iff_not_imp_right]
    intro hselected
    unfold SelectsNothing at hselected
    push Not at hselected
    obtain ⟨e, hmem, hunexpired, event, hstores, hselects⟩ := hselected
    obtain ⟨p, w, op, hreach, hop, hnow, hlive, hgone⟩ :=
      selected_deleted ⟨hstart, hinitialized, hmem, hstores⟩ hunexpired hselects
    obtain ⟨event', howner, haddress⟩ := hhits.deleted p w hreach op hop
      (hnow ▸ UInt32.le_refl now) e hlive (hnow ▸ hunexpired) hgone
    obtain rfl : event = event' := Option.some.inj (hstores.owner.symm.trans howner)
    exact hselects.readWhole hdel hparse haddress (hstores.describes hstart hmem)
  · rintro (hwhole | hnothing)
    · exact hitsOnly_of_readWhole hlib hcut hdel hparse hstart hwhole _ now
    · exact hitsOnly_of_selectsNothing hlib hcut hstart hnothing

/-- The author asks to delete `my article`, and the article `my` is stored. -/
theorem address_deletes_its_events_only_iff_my_article :
    HitsOnlyItsAddress (Sample.library [myArticle]) myArticleRequest myArticleDeletion.createdAt
        myArticleAddress 1700000000 myArticleFlash ↔
      ReadWhole myArticleAddress ∨
        SelectsNothing (Sample.library [myArticle]) myArticleRequest myArticleDeletion.createdAt
          myArticleAddress 1700000000 myArticleFlash := by
  have hids : ([myArticle].map (·.id)).Nodup := List.nodup_singleton _
  exact address_deletes_its_events_only_iff (Sample.library [myArticle])
    (Sample.library_storageLaws hids) (Sample.library_truncationLaw hids)
    (Sample.library_deletionLaws _) 1000 1814400 thousandSlots myArticleSaved
    myArticleSaved_durable flashSaves_myArticleSaved
    myArticleDeletion myArticleRequest (by decide +kernel) myArticleAddress 1700000000

/-- The address of `my article` deletes the article `my`, also when nothing fails. -/
theorem shortened_address_deletes_other_article :
    let lib := Sample.library [myArticle]
    let env := CallEnv.undisturbed 1700000000
    let run := (deleteAddress lib myArticleRequest myArticleDeletion.createdAt
      myArticleAddress).run (deletionStep lib env) myArticleFlash
    myArticleRecord ∈ live myArticleFlash.world.engine.visible ∧
      myArticleRecord.isExpired env.now = false ∧
      Stores lib myArticleFlash myArticleRecord myArticle ∧
      ¬ HasAddress lib myArticleAddress myArticle ∧
      run.1 = 1 ∧ myArticleRecord ∉ live run.2.world.engine.visible ∧
      ¬ HitsOnlyItsAddress lib myArticleRequest myArticleDeletion.createdAt myArticleAddress
        env.now myArticleFlash := by
  intro lib env run
  have hkept := myArticle_kept
  have hunexpired : myArticleRecord.isExpired env.now = false := by
    decide +kernel
  have hother : ¬ HasAddress lib myArticleAddress myArticle := by
    rintro ⟨kind, hparts, -⟩
    have hdTag : (addressParts myArticleAddress).map (fun parts => parts.2.2) =
        some (ascii "my article") := by
      decide +kernel
    have hfound : (lib.eventGetDTag myArticle).getD [] = ascii "my" := by
      decide +kernel
    rw [hparts, Option.map_some, Option.some.injEq, hfound] at hdTag
    have hother : ascii "my" ≠ ascii "my article" := by
      decide
    exact hother hdTag
  refine ⟨hkept.mem, hunexpired, hkept.stores, hother, by decide +kernel, by decide +kernel, ?_⟩
  intro hhits
  obtain ⟨p, w, op, hreach, hop, hnow, hlive, hgone⟩ :=
    selected_deleted hkept hunexpired myArticle_selected
  obtain ⟨event, howner, haddress⟩ := hhits.deleted p w hreach op hop
    (hnow ▸ UInt32.le_refl env.now) myArticleRecord hlive (hnow ▸ hunexpired) hgone
  obtain rfl : myArticle = event := Option.some.inj (hkept.stores.owner.symm.trans howner)
  exact hother haddress

end Relay
end WispRelay
