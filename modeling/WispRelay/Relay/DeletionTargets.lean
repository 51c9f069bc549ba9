import WispRelay.Relay.Deletion
import WispRelay.Storage.Capacity
import WispRelay.Storage.QueryResults
import WispRelay.Storage.Restart

/-!
# What a deletion request deletes

While a deletion request is processed the cleanup task may purge and compact between any two
calls.  A record that stops being live then has expired, or one of the three passes selected
its event: it is authorised and has an identifier of the request, or it matches the query for
an address or for a kind.

Every call of `deletion_process` that deletes is preceded by a look-up.  `LookupFacts` are what
the look-ups say; they stay true until the deletion, because nothing is saved in between.  The
three passes are gone through once, for any such facts (`LookupFacts.Kept.safe_deletionProcess`).
Here the facts are about live records, which only become fewer, and whose files stay as they are
(`remainingFacts`).
-/

namespace WispRelay
namespace Relay

open Interference Runs Storage

/-! ## Calls that save nothing -/

/-- What is known of the storage while a request is processed. -/
structure Attributed
    (lib : Libnostr)
    (w : LoggedWorld) : Prop where
  index : WellIndexed w.world.engine.visible w.world.engine.nextFileIndex
  owned : Owned lib (fun _ => True) w.owner w.world.engine.visible w.world.files

/-- The records are attributed in every state of a run in which restarts keep the index. -/
theorem attributed_of_run
    (lib : Libnostr)
    {capacity : Nat}
    (ttl : UInt32)
    (hcapacity : capacity ≤ storageIndexEntries)
    (past : List FlashOp)
    (hdurable : Durable capacity past)
    (hsaves : flashSaves past < 2 ^ 32) :
    Attributed lib
      (finalState (flashStep lib) (erasedFlash capacity ttl hcapacity) past) := by
  have hinv := flashInv_run lib ttl hcapacity past hdurable hsaves
  refine ⟨hinv.index, hinv.owned.frame (fun _ _ _ => trivial) (fun _ _ => rfl) ?_⟩
  intro e _
  exact Or.inl rfl

/-- The state after one operation of the storage engine. -/
def afterOp
    (lib : Libnostr)
    (w : LoggedWorld)
    (op : StorageOp) : LoggedWorld :=
  (flashStep lib w (.run op)).2

/-- No call of the relay starts or stops the engine. -/
theorem initialized_afterOp
    {lib : Libnostr}
    (w : LoggedWorld)
    (op : StorageOp) :
    (afterOp lib w op).world.engine.initialized = w.world.engine.initialized :=
  (storageCall_config lib op.env w.world op.call).1

section Quiet

variable
  {lib : Libnostr}
  {w : LoggedWorld}
  {op : StorageOp}

/-- A call that is not a save saves nothing. -/
theorem savedEvent_of_quiet
    (hquiet : ∀ event, op.call ≠ .save event) :
    savedEvent (storageStep lib w.world op).1 = none := by
  cases hsaved : savedEvent (storageStep lib w.world op).1 with
  | none => rfl
  | some event => exact absurd (call_of_savedEvent hsaved) (hquiet event)

theorem saved_of_quiet
    (hquiet : ∀ event, op.call ≠ .save event) :
    (afterOp lib w op).saved = w.saved := by
  simp only [afterOp, flashStep, savedEvent_of_quiet hquiet]
  rfl

theorem Attributed.quiet
    (h : Attributed lib w)
    (hquiet : ∀ event, op.call ≠ .save event) :
    Attributed lib (afterOp lib w op) := by
  have heffect := storageCall_effect lib op.env h.index.nodup_fileIndex op.call
  have hnone : savedEvent ⟨op.call, (storageCall lib op.env w.world op.call).1⟩ = none :=
    savedEvent_of_quiet hquiet
  have howner : (afterOp lib w op).owner = w.owner := by
    funext e
    unfold LoggedWorld.owner
    rw [saved_of_quiet hquiet]
  rw [hnone] at heffect
  obtain ⟨hindex, howned⟩ := heffect.keeps h.index (by simp) h.owned (fun _ => id)
    (fun _ _ _ => rfl) (by simp)
  refine ⟨hindex, ?_⟩
  rw [howner]
  exact howned

/-- Nothing becomes live. -/
theorem live_of_quiet
    (h : Attributed lib w)
    (hquiet : ∀ event, op.call ≠ .save event)
    {e : StorageIndexEntry}
    (hmem : e ∈ live (afterOp lib w op).world.engine.visible) :
    e ∈ live w.world.engine.visible := by
  have heffect := storageCall_effect lib op.env h.index.nodup_fileIndex op.call
  rcases heffect.live_or_new hmem with hold | ⟨event, hevent, _⟩
  · exact hold
  · exact absurd (call_of_savedEvent hevent) (hquiet event)

/-- Since a state nothing was saved, and records may have stopped being live. -/
structure Dwindled
    (lib : Libnostr)
    (w w' : LoggedWorld) : Prop extends Attributed lib w' where
  live_subset : ∀ e ∈ live w'.world.engine.visible, e ∈ live w.world.engine.visible
  saved : w'.saved = w.saved

theorem Attributed.dwindled
    (h : Attributed lib w) :
    Dwindled lib w w where
  toAttributed := h
  live_subset := fun _ => id
  saved := rfl

theorem Dwindled.quiet
    {w' : LoggedWorld}
    (h : Dwindled lib w w')
    (hquiet : ∀ event, op.call ≠ .save event) :
    Dwindled lib w (afterOp lib w' op) where
  toAttributed := h.toAttributed.quiet hquiet
  live_subset := fun e hmem => h.live_subset e (live_of_quiet h.toAttributed hquiet hmem)
  saved := (saved_of_quiet hquiet).trans h.saved

theorem Dwindled.owner
    {w' : LoggedWorld}
    (h : Dwindled lib w w') :
    w'.owner = w.owner := by
  funext e
  unfold LoggedWorld.owner
  rw [h.saved]

/-- Since a state records may have stopped being live, and the others have kept their files. -/
structure Remaining
    (lib : Libnostr)
    (w w' : LoggedWorld) : Prop extends Dwindled lib w w' where
  files : ∀ e ∈ live w'.world.engine.visible,
    w'.world.files (e.path lib) = w.world.files (e.path lib)

theorem Attributed.remaining
    (h : Attributed lib w) :
    Remaining lib w w where
  toDwindled := h.dwindled
  files := fun _ _ => rfl

theorem Remaining.quiet
    {w' : LoggedWorld}
    (h : Remaining lib w w')
    (hquiet : ∀ event, op.call ≠ .save event) :
    Remaining lib w (afterOp lib w' op) where
  toDwindled := h.toDwindled.quiet hquiet
  files := by
    intro e hmem
    have heffect := storageCall_effect lib op.env h.index.nodup_fileIndex op.call
    exact (heffect.file_eq hquiet h.index.nodup_fileIndex hmem).trans
      (h.files e (live_of_quiet h.toAttributed hquiet hmem))

end Quiet

/-! ## The parties -/

/-- What a call of `deletion_process` does, whatever its environment is. -/
def deletionSem
    (lib : Libnostr) :
    (c : DeletionCall) → LoggedWorld → c.Ret → LoggedWorld → Prop
  | .malloc, w, _, w' => w' = w
  | .storage call, w, r, w' => ∃ env : CallEnv,
      r = (storageCall lib env w.world call).1 ∧ w' = afterOp lib w ⟨call, env⟩

/-- The calls of `deletion_process` in one environment. -/
def deletionStep
    (lib : Libnostr)
    (env : CallEnv) : (c : DeletionCall) → LoggedWorld → c.Ret × LoggedWorld
  | .malloc, w => (true, w)
  | .storage call, w => ((storageCall lib env w.world call).1, afterOp lib w ⟨call, env⟩)

theorem deletionStep_sem
    (lib : Libnostr)
    (env : CallEnv)
    (c : DeletionCall)
    (w : LoggedWorld) :
    deletionSem lib c w (deletionStep lib env c w).1 (deletionStep lib env c w).2 := by
  cases c with
  | malloc => rfl
  | storage call => exact ⟨env, rfl, rfl⟩

/-- The operations of the cleanup task. -/
def IsCleanup
    (op : StorageOp) : Prop :=
  op.call = .purge ∨ op.call = .compact

/-- A step of the cleanup task. -/
def cleanupStep
    (lib : Libnostr)
    (w w' : LoggedWorld) : Prop :=
  ∃ op, IsCleanup op ∧ w' = afterOp lib w op

/-- An operation that one of the parties may do next. -/
def Enabled
    {α : Type}
    (p : DeletionProg α)
    (op : StorageOp) : Prop :=
  IsCleanup op ∨ ∃ next, p = Prog.call (.storage op.call) next

theorem IsCleanup.quiet
    {op : StorageOp}
    (h : IsCleanup op) :
    ∀ event, op.call ≠ .save event := by
  rintro event heq
  rcases h with hcall | hcall
  · rw [hcall] at heq
    cases heq
  · rw [hcall] at heq
    cases heq

/-! ## What the passes select -/

/-- The record was made for the event, and its file can be read as the event. -/
structure Stores
    (lib : Libnostr)
    (w : LoggedWorld)
    (e : StorageIndexEntry)
    (event : NostrEvent) : Prop where
  owner : w.owner e = some event
  parses : ParsesTo lib w.world.files (e.path lib) event

/-- What a live record stores it describes. -/
theorem Stores.describes
    {lib : Libnostr}
    {w : LoggedWorld}
    {e : StorageIndexEntry}
    {event : NostrEvent}
    (hstores : Stores lib w e event)
    (h : Attributed lib w)
    (hmem : e ∈ live w.world.engine.visible) :
    Describes e event := by
  obtain ⟨event', howner, hdescribes, -, -⟩ := h.owned e hmem
  obtain rfl : event = event' := Option.some.inj (hstores.owner.symm.trans howner)
  exact hdescribes

/-- The filter accepts the record and its event. -/
structure Accepts
    (lib : Libnostr)
    (filter : NostrFilter)
    (e : StorageIndexEntry)
    (event : NostrEvent) : Prop where
  index : indexMatchesFilter lib e filter = true
  event : lib.filterMatches filter event = true

/-- The query for an address. -/
def addressFilter
    (kind : Int32)
    (pubkey : CString)
    (deleteBefore : Int64) : NostrFilter where
  kinds := [kind]
  authors := [pubkey]
  until_ := deleteBefore
  limit := 100

/-- The query for a kind. -/
def kindFilter
    (lib : Libnostr)
    (deletion : NostrEvent)
    (kind : Int32) : NostrFilter where
  kinds := [kind]
  authors := [lib.bytesToHex deletion.pubkey.toList]
  until_ := deletion.createdAt
  limit := 500

/-- An `e` tag has the identifier of the event. -/
def NamesId
    (lib : Libnostr)
    (request : NostrDeletionRequest)
    (event : NostrEvent) : Prop :=
  ∃ hex ∈ request.eventIds, ∃ bytes,
    lib.hexToBytes hex 64 = some bytes ∧ event.id = bytesVector 32 bytes

/-- The query for an address finds the event, and the rest of the address is its `d` tag. -/
def SelectedByAddress
    (lib : Libnostr)
    (deletion : NostrEvent)
    (request : NostrDeletionRequest)
    (e : StorageIndexEntry)
    (event : NostrEvent) : Prop :=
  ∃ addr ∈ request.addresses, ∃ kind dTag,
    scanAddress addr = some (kind, request.pubkey, dTag) ∧
      Accepts lib (addressFilter kind request.pubkey deletion.createdAt) e event ∧
      (lib.eventGetDTag event).getD [] = dTag

/-- The query for a kind finds the event. -/
def SelectedByKind
    (lib : Libnostr)
    (deletion : NostrEvent)
    (e : StorageIndexEntry)
    (event : NostrEvent) : Prop :=
  ∃ kind ∈ deletionKinds deletion, Accepts lib (kindFilter lib deletion kind) e event

/-- One of the passes selects the event of the record. -/
inductive Selects
    (lib : Libnostr)
    (deletion : NostrEvent)
    (request : NostrDeletionRequest)
    (e : StorageIndexEntry)
    (event : NostrEvent) : Prop
  | byId
      (hname : NamesId lib request event)
      (hauthorized : lib.deletionAuthorized request event = true)
  | byAddress (haddress : SelectedByAddress lib deletion request e event)
  | byKind (hkind : SelectedByKind lib deletion e event)

/-- What a request selects has its author. -/
theorem Selects.pubkey
    {lib : Libnostr}
    (hdel : lib.DeletionLaws)
    {deletion : NostrEvent}
    {request : NostrDeletionRequest}
    (hparse : lib.deletionParse deletion = some request)
    {e : StorageIndexEntry}
    {event : NostrEvent}
    (h : Selects lib deletion request e event) :
    event.pubkey = deletion.pubkey := by
  have hrequest := hdel.parse_pubkey deletion request hparse
  cases h with
  | byId hname hauthorized =>
      have hhex := hdel.authorized request event hauthorized
      rw [hrequest] at hhex
      exact (Vector.toList_inj.mp (hdel.bytesToHex_injective _ _ hhex)).symm
  | byAddress haddress =>
      obtain ⟨addr, -, kind, dTag, -, haccepts, -⟩ := haddress
      refine hdel.author_matches _ event deletion.pubkey ?_ haccepts.event
      rw [← hrequest]
      rfl
  | byKind hkind =>
      obtain ⟨kind, -, haccepts⟩ := hkind
      exact hdel.author_matches _ event deletion.pubkey rfl haccepts.event

/-- The event the record stored at first is selected. -/
def Target
    (lib : Libnostr)
    (deletion : NostrEvent)
    (w : LoggedWorld)
    (e : StorageIndexEntry) : Prop :=
  ∃ request event, lib.deletionParse deletion = some request ∧ Stores lib w e event ∧
    Selects lib deletion request e event

/-! ## Each pass makes allowed calls only -/

/-- A deletion is made where `may` allows it, and nothing is saved. -/
def allowedCall
    (may : Bytes32 → LoggedWorld → Prop) : DeletionCall → LoggedWorld → Prop
  | .malloc, _ => True
  | .storage call, w =>
      (∀ event, call ≠ .save event) ∧ ∀ eventId, call = .delete eventId → may eventId w

/--
What is known while a request is processed: about the storage, about an event that
`storage_get_event` has returned for an identifier, and about one that a query has returned.
-/
structure LookupFacts where
  inv : LoggedWorld → Prop
  got : Bytes32 → NostrEvent → LoggedWorld → Prop
  found : NostrFilter → NostrEvent → LoggedWorld → Prop

namespace LookupFacts

/-- A fact that stays true as long as nothing is saved. -/
def Lasting
    (lib : Libnostr)
    (facts : LookupFacts)
    (learnt : LoggedWorld → Prop) : Prop :=
  ∀ w op, (∀ event, op.call ≠ .save event) → facts.inv w → learnt w → learnt (afterOp lib w op)

/-- The facts are established by the calls and stay true as long as nothing is saved. -/
structure Kept
    (lib : Libnostr)
    (facts : LookupFacts) : Prop where
  inv : ∀ w op, (∀ event, op.call ≠ .save event) → facts.inv w → facts.inv (afterOp lib w op)
  got : ∀ eventId event, facts.Lasting lib (facts.got eventId event)
  found : ∀ filter event, facts.Lasting lib (facts.found filter event)
  of_get : ∀ w env eventId event, facts.inv w →
    storageGetEvent lib env w.world eventId = some event → facts.got eventId event w
  of_query : ∀ w env filter limit event, facts.inv w →
    event ∈ (storageQueryEvents lib env w.world filter limit).1.2 → facts.found filter event w

/-- The facts about what a pass has found allow its deletion. -/
structure Permits
    (lib : Libnostr)
    (facts : LookupFacts)
    (deletion : NostrEvent)
    (request : NostrDeletionRequest)
    (may : Bytes32 → LoggedWorld → Prop) : Prop where
  byId : ∀ hex ∈ request.eventIds, ∀ bytes, lib.hexToBytes hex 64 = some bytes →
    ∀ event w, facts.got (bytesVector 32 bytes) event w →
      lib.deletionAuthorized request event = true → may (bytesVector 32 bytes) w
  byAddress : ∀ addr ∈ request.addresses, ∀ kind dTag,
    scanAddress addr = some (kind, request.pubkey, dTag) →
    ∀ event w, facts.found (addressFilter kind request.pubkey deletion.createdAt) event w →
      (lib.eventGetDTag event).getD [] = dTag → may event.id w
  byKind : ∀ kind ∈ deletionKinds deletion,
    ∀ event w, facts.found (kindFilter lib deletion kind) event w → may event.id w

variable
  {lib : Libnostr}
  {facts : LookupFacts}
  {learnt : LoggedWorld → Prop}
  {may : Bytes32 → LoggedWorld → Prop}

/-- Nothing was learnt. -/
theorem lasting_true :
    facts.Lasting lib fun _ => True :=
  fun _ _ _ _ _ => trivial

/-- A program that makes allowed calls and leaves what is known of the storage true. -/
abbrev SafePass
    (lib : Libnostr)
    (facts : LookupFacts)
    (may : Bytes32 → LoggedWorld → Prop)
    (p : DeletionProg Nat)
    (w : LoggedWorld) : Prop :=
  Safe (deletionSem lib) (cleanupStep lib) (allowedCall may) p (fun _ => facts.inv) w

namespace Kept

variable
  (hkept : facts.Kept lib)
  {w : LoggedWorld}

include hkept

/-- The cleanup task leaves what is known true. -/
theorem stable
    (hlasting : facts.Lasting lib learnt)
    (s s' : LoggedWorld)
    (h : facts.inv s ∧ learnt s)
    (hstep : cleanupStep lib s s') :
    facts.inv s' ∧ learnt s' := by
  obtain ⟨op, hcleanup, rfl⟩ := hstep
  exact ⟨hkept.inv s op hcleanup.quiet h.1, hlasting s op hcleanup.quiet h.1 h.2⟩

/-- `storage_delete_event`. -/
theorem safe_deleteEvent
    (hlasting : facts.Lasting lib learnt)
    (h : facts.inv w ∧ learnt w)
    {eventId : Bytes32}
    (hmay : ∀ s, learnt s → may eventId s) :
    Safe (deletionSem lib) (cleanupStep lib) (allowedCall may) (deleteEvent eventId)
      (fun _ s => facts.inv s ∧ learnt s) w := by
  refine Safe.call (hkept.stable hlasting) ?_ h
  intro s hs
  have hquiet : ∀ event, StorageCall.delete eventId ≠ .save event := by
    rintro event ⟨⟩
  refine ⟨⟨hquiet, ?_⟩, ?_⟩
  · rintro other ⟨⟩
    exact hmay s hs.2
  · rintro r s' ⟨env, -, rfl⟩
    exact ⟨hkept.inv s ⟨.delete eventId, env⟩ hquiet hs.1,
      hlasting s ⟨.delete eventId, env⟩ hquiet hs.1 hs.2⟩

/-- `malloc`. -/
theorem safe_malloc
    (h : facts.inv w)
    {next : Bool → DeletionProg Nat}
    (hnext : ∀ ok s, facts.inv s → SafePass lib facts may (next ok) s) :
    SafePass lib facts may (malloc >>= next) w := by
  refine Safe.call (hkept.stable lasting_true) ?_
    ⟨h, trivial⟩
  intro s hs
  refine ⟨trivial, ?_⟩
  rintro ok s' rfl
  exact hnext ok s' hs.1

/-- `storage_get_event`. -/
theorem safe_getEvent
    (h : facts.inv w)
    {eventId : Bytes32}
    {next : Option NostrEvent → DeletionProg Nat}
    (hnone : ∀ s, facts.inv s → SafePass lib facts may (next none) s)
    (hsome : ∀ event s, facts.inv s ∧ facts.got eventId event s →
      SafePass lib facts may (next (some event)) s) :
    SafePass lib facts may (getEvent eventId >>= next) w := by
  refine Safe.call (hkept.stable lasting_true) ?_
    ⟨h, trivial⟩
  intro s hs
  have hquiet : ∀ event, StorageCall.get eventId ≠ .save event := by
    rintro event ⟨⟩
  refine ⟨⟨hquiet, by rintro other ⟨⟩⟩, ?_⟩
  rintro found s' ⟨env, hfound, rfl⟩
  have hafter := hkept.inv s ⟨.get eventId, env⟩ hquiet hs.1
  cases found with
  | none => exact hnone _ hafter
  | some event =>
      have hgot := hkept.of_get s env eventId event hs.1 hfound.symm
      exact hsome event _ ⟨hafter, hkept.got eventId event s ⟨.get eventId, env⟩ hquiet hs.1 hgot⟩

/-- `storage_query_events`. -/
theorem safe_queryEvents
    (h : facts.inv w)
    {filter : NostrFilter}
    {limit : UInt16}
    {next : StorageError × List NostrEvent → DeletionProg Nat}
    (hnext : ∀ result s, (facts.inv s ∧ ∀ event ∈ result.2, facts.found filter event s) →
      SafePass lib facts may (next result) s) :
    SafePass lib facts may (queryEvents filter limit >>= next) w := by
  refine Safe.call (hkept.stable lasting_true) ?_
    ⟨h, trivial⟩
  intro s hs
  have hquiet : ∀ event, StorageCall.query filter limit ≠ .save event := by
    rintro event ⟨⟩
  refine ⟨⟨hquiet, by rintro other ⟨⟩⟩, ?_⟩
  rintro result s' ⟨env, hresult, rfl⟩
  refine hnext result _ ⟨hkept.inv s ⟨.query filter limit, env⟩ hquiet hs.1,
    fun event hevent => ?_⟩
  rw [hresult] at hevent
  exact hkept.found filter event s ⟨.query filter limit, env⟩ hquiet hs.1
    (hkept.of_query s env filter limit event hs.1 hevent)

/-- What a query has found stays found. -/
theorem lasting_all
    (filter : NostrFilter)
    (events : List NostrEvent) :
    facts.Lasting lib fun s => ∀ event ∈ events, facts.found filter event s :=
  fun s op hquiet hinv hfound event hevent =>
    hkept.found filter event s op hquiet hinv (hfound event hevent)

variable
  {deletion : NostrEvent}
  {request : NostrDeletionRequest}
  (hpermits : facts.Permits lib deletion request may)
include hpermits

/-- The pass over the `e` tags. -/
theorem safe_deleteEventId
    {hex : CString}
    (hhex : hex ∈ request.eventIds)
    (h : facts.inv w) :
    SafePass lib facts may (deleteEventId lib request hex) w := by
  unfold deleteEventId
  cases hbytes : lib.hexToBytes hex 64 with
  | none => exact h
  | some bytes =>
      refine hkept.safe_getEvent h (fun s hs => hs) ?_
      intro event s hs
      by_cases hauthorized : lib.deletionAuthorized request event = true
      · simp only [hauthorized, if_true]
        refine (hkept.safe_deleteEvent (hkept.got _ event) hs ?_).mono fun _ _ hpost => hpost.1
        exact fun s hgot => hpermits.byId hex hhex bytes hbytes event s hgot hauthorized
      · simp only [hauthorized]
        exact hs.1

/-- The pass over the `a` tags. -/
theorem safe_deleteAddress
    {addr : CString}
    (haddr : addr ∈ request.addresses)
    (h : facts.inv w) :
    SafePass lib facts may (deleteAddress lib request deletion.createdAt addr) w := by
  unfold deleteAddress
  cases hscan : scanAddress addr with
  | none => exact h
  | some parts =>
      obtain ⟨kind, author, dTag⟩ := parts
      by_cases hauthor : author = request.pubkey
      case neg =>
        simp only [ne_eq, hauthor, not_false_eq_true, if_true]
        exact h
      simp only [ne_eq, hauthor, not_true_eq_false, if_false]
      refine hkept.safe_malloc h fun kindsOk s hs => hkept.safe_malloc hs fun authorsOk s hs => ?_
      by_cases hmemory : (!kindsOk || !authorsOk) = true
      · rw [if_pos hmemory]
        exact hs
      · rw [if_neg hmemory]
        refine hkept.safe_queryEvents hs ?_
        rintro ⟨result, events⟩ s hfound
        dsimp only
        split
        · refine (Safe.total (I := fun s => facts.inv s ∧ ∀ event ∈ events,
              facts.found (addressFilter kind request.pubkey deletion.createdAt) event s)
            ?_ hfound).mono (fun _ _ hpost => hpost.1)
          intro event hevent s hs
          split
          · rename_i hdTag
            refine hkept.safe_deleteEvent (hkept.lasting_all _ events) hs fun s hknown => ?_
            exact hpermits.byAddress addr haddr kind dTag (hauthor ▸ hscan) event s
              (hknown event hevent) hdTag
          · exact hs
        · exact hfound.1

/-- The pass over the `k` tags. -/
theorem safe_deleteKind
    {kind : Int32}
    (hkind : kind ∈ deletionKinds deletion)
    (h : facts.inv w) :
    SafePass lib facts may (deleteKind lib deletion kind) w := by
  unfold deleteKind
  refine hkept.safe_malloc h fun authorsOk s hs => ?_
  by_cases hmemory : (!authorsOk) = true
  · rw [if_pos hmemory]
    exact hs
  · rw [if_neg hmemory]
    refine hkept.safe_queryEvents hs ?_
    rintro ⟨result, events⟩ s hfound
    dsimp only
    split
    · refine (Safe.total (I := fun s => facts.inv s ∧ ∀ event ∈ events,
          facts.found (kindFilter lib deletion kind) event s)
        ?_ hfound).mono (fun _ _ hpost => hpost.1)
      intro event hevent s hs
      refine hkept.safe_deleteEvent (hkept.lasting_all _ events) hs fun s hknown => ?_
      exact hpermits.byKind kind hkind event s (hknown event hevent)
    · exact hfound.1

omit hpermits in
/-- The three passes. -/
theorem safe_deletionProcess
    (deletion : NostrEvent)
    (hpermits : ∀ request, lib.deletionParse deletion = some request →
      facts.Permits lib deletion request may)
    (h : facts.inv w) :
    SafePass lib facts may (deletionProcess lib deletion) w := by
  unfold deletionProcess
  split
  · exact h
  cases hparse : lib.deletionParse deletion with
  | none => exact h
  | some request =>
      have hallowed := hpermits request hparse
      refine Safe.bind ((Safe.total (fun hex hhex s hs =>
        hkept.safe_deleteEventId hallowed hhex hs) h).mono ?_)
      intro byIds s hs
      refine Safe.bind ((Safe.total (fun addr haddr s hs =>
        hkept.safe_deleteAddress hallowed haddr hs) hs).mono ?_)
      intro byAddresses s hs
      refine Safe.bind ((Safe.total (fun kind hkind s hs =>
        hkept.safe_deleteKind hallowed hkind hs) hs).mono ?_)
      intro byKinds s hs
      exact hs

omit hpermits in
/-- What is known of the storage holds in every state of every interleaving. -/
theorem inv_of_reaches
    {w₀ : LoggedWorld}
    {p : DeletionProg Nat}
    (hsafe : SafePass lib facts may (deletionProcess lib deletion) w₀)
    (h : facts.inv w₀)
    (hreach : Reaches (deletionSem lib) (cleanupStep lib) (deletionProcess lib deletion) w₀ p w) :
    facts.inv w := by
  have hcleanup : ∀ s s' : LoggedWorld, facts.inv s → cleanupStep lib s s' → facts.inv s' := by
    rintro s s' hs ⟨op, hcleanup, rfl⟩
    exact hkept.inv s op hcleanup.quiet hs
  refine hsafe.invariant (fun _ => hcleanup) h ?_ hcleanup hreach
  intro c s r s' hs hallowed hcall
  cases c with
  | malloc => exact hcall ▸ hs
  | storage call =>
      obtain ⟨env, -, rfl⟩ := hcall
      exact hkept.inv s ⟨call, env⟩ hallowed.1 hs

omit hpermits in
/-- Nothing is saved in any interleaving. -/
theorem quiet_of_reaches
    {w₀ : LoggedWorld}
    {p : DeletionProg Nat}
    (hsafe : SafePass lib facts may (deletionProcess lib deletion) w₀)
    (hreach : Reaches (deletionSem lib) (cleanupStep lib) (deletionProcess lib deletion) w₀ p w)
    {op : StorageOp}
    (hop : Enabled p op) :
    ∀ event, op.call ≠ .save event := by
  rcases hop with hcleanup | ⟨next, rfl⟩
  · exact hcleanup.quiet
  · exact (hsafe.reaches (fun _ s s' hs ⟨op, hcleanup, hs'⟩ =>
      hs' ▸ hkept.inv s op hcleanup.quiet hs) hreach).allowed_of_call.1

omit hpermits in
/-- Every deletion of every interleaving is allowed where it is made. -/
theorem may_of_reaches
    {w₀ : LoggedWorld}
    {p : DeletionProg Nat}
    (hsafe : SafePass lib facts may (deletionProcess lib deletion) w₀)
    (hreach : Reaches (deletionSem lib) (cleanupStep lib) (deletionProcess lib deletion) w₀ p w)
    {op : StorageOp}
    (hop : Enabled p op)
    {eventId : Bytes32}
    (hcall : op.call = .delete eventId) :
    may eventId w := by
  rcases hop with hcleanup | ⟨next, rfl⟩
  · rcases hcleanup with hpurge | hcompact
    · rw [hpurge] at hcall
      cases hcall
    · rw [hcompact] at hcall
      cases hcall
  · have hmade := hsafe.reaches (fun _ s s' hs ⟨op, hcleanup, hs'⟩ =>
      hs' ▸ hkept.inv s op hcleanup.quiet hs) hreach
    exact hmade.allowed_of_call.2 eventId hcall

end Kept

end LookupFacts

/-! ## Targets -/

/-- All live records of the identifier are targets. -/
def targetsOnly
    (target : StorageIndexEntry → Prop)
    (eventId : Bytes32)
    (w : LoggedWorld) : Prop :=
  ∀ e ∈ live w.world.engine.visible, e.eventId = eventId → target e

/--
What is known since a state in which live records and running numbers agree: an event that was
found is the one its live record stored then.
-/
def remainingFacts
    (lib : Libnostr)
    (w₀ : LoggedWorld) : LookupFacts where
  inv := Remaining lib w₀
  got := fun eventId event w => ∀ e ∈ live w.world.engine.visible, e.eventId = eventId →
    Stores lib w₀ e event ∧ Describes e event
  found := fun filter event w => ∀ e ∈ live w.world.engine.visible, e.eventId = event.id →
    Stores lib w₀ e event ∧ Accepts lib filter e event

section Targets

variable
  {lib : Libnostr}
  {w₀ w : LoggedWorld}

/-- What a record stores it stored at first. -/
theorem Remaining.stores
    (h : Remaining lib w₀ w)
    {e : StorageIndexEntry}
    (hmem : e ∈ live w.world.engine.visible)
    {event : NostrEvent}
    (howner : w.owner e = some event)
    (hparses : ParsesTo lib w.world.files (e.path lib) event) :
    Stores lib w₀ e event where
  owner := by
    rw [← h.owner]
    exact howner
  parses := by
    unfold ParsesTo at hparses ⊢
    rwa [h.files e hmem] at hparses

variable
  (hlib : lib.StorageLaws)
  (hcut : lib.TruncationLaw)
include hlib hcut

variable (w₀) in
theorem remainingFacts_kept :
    (remainingFacts lib w₀).Kept lib where
  inv := fun _ _ hquiet h => h.quiet hquiet
  got := fun _ _ _ _ hquiet hinv hgot e hmem =>
    hgot e (live_of_quiet hinv.toAttributed hquiet hmem)
  found := fun _ _ _ _ hquiet hinv hfound e hmem =>
    hfound e (live_of_quiet hinv.toAttributed hquiet hmem)
  of_get := by
    intro w env eventId event hinv hget e hmem hid
    obtain ⟨e', -, hlive, hid', howner, hdescribes, hparses⟩ :=
      hinv.owned.of_get hlib hcut hget
    obtain rfl : e = e' := hinv.index.eq_of_eventId hmem hlive (hid.trans hid'.symm)
    exact ⟨hinv.stores hmem howner hparses, hdescribes⟩
  of_query := by
    intro w env filter limit event hinv hevent e hmem hid
    obtain ⟨e', hlive, howner, hdescribes, -, hmatches, -, hindex, hparses⟩ :=
      hinv.owned.of_query hlib hcut hevent
    obtain rfl : e = e' :=
      hinv.index.eq_of_eventId hmem hlive (hid.trans hdescribes.eventId.symm)
    exact ⟨hinv.stores hmem howner hparses, hindex, hmatches⟩

omit hlib hcut in
/-- What the passes find they select. -/
theorem remainingFacts_permits
    {deletion : NostrEvent}
    {request : NostrDeletionRequest}
    (hparse : lib.deletionParse deletion = some request) :
    (remainingFacts lib w₀).Permits lib deletion request
      (targetsOnly (Target lib deletion w₀)) where
  byId := by
    intro hex hhex bytes hbytes event w hgot hauthorized e hmem hid
    obtain ⟨hstores, hdescribes⟩ := hgot e hmem hid
    exact ⟨request, event, hparse, hstores,
      .byId ⟨hex, hhex, bytes, hbytes, hdescribes.eventId.symm.trans hid⟩ hauthorized⟩
  byAddress := by
    intro addr haddr kind dTag hscan event w hfound hdTag e hmem hid
    obtain ⟨hstores, haccepts⟩ := hfound e hmem hid
    exact ⟨request, event, hparse, hstores,
      .byAddress ⟨addr, haddr, kind, dTag, hscan, haccepts, hdTag⟩⟩
  byKind := by
    intro kind hkind event w hfound e hmem hid
    obtain ⟨hstores, haccepts⟩ := hfound e hmem hid
    exact ⟨request, event, hparse, hstores, .byKind ⟨kind, hkind, haccepts⟩⟩

/-- The three passes delete targets only. -/
theorem safe_deletionProcess
    (deletion : NostrEvent)
    (h : Remaining lib w₀ w) :
    Safe (deletionSem lib) (cleanupStep lib) (allowedCall (targetsOnly (Target lib deletion w₀)))
      (deletionProcess lib deletion) (fun _ => Remaining lib w₀) w :=
  (remainingFacts_kept w₀ hlib hcut).safe_deletionProcess deletion
    (fun _ hparse => remainingFacts_permits hparse) h

end Targets

/-! ## Every interleaving -/

section Interleavings

variable
  {lib : Libnostr}
  (hlib : lib.StorageLaws)
  (hcut : lib.TruncationLaw)
  {w₀ w : LoggedWorld}
  (h : Attributed lib w₀)
  {deletion : NostrEvent}
  {p : DeletionProg Nat}
  (hreach : Reaches (deletionSem lib) (cleanupStep lib) (deletionProcess lib deletion) w₀ p w)
include hlib hcut h hreach

/-- What the interleaving has left. -/
theorem remaining_of_reaches :
    Remaining lib w₀ w :=
  (remainingFacts_kept w₀ hlib hcut).inv_of_reaches
    (safe_deletionProcess hlib hcut deletion h.remaining) h.remaining hreach

/-- A record that stops being live had expired, or is a target. -/
theorem expired_or_target
    {op : StorageOp}
    (hop : Enabled p op)
    {e : StorageIndexEntry}
    (hmem : e ∈ live w.world.engine.visible)
    (hgone : e ∉ live (afterOp lib w op).world.engine.visible) :
    e.isExpired op.env.now = true ∨ Target lib deletion w₀ e := by
  have hremaining := remaining_of_reaches hlib hcut h hreach
  have hallowed : ∀ eventId, op.call = .delete eventId → e.eventId = eventId →
      Target lib deletion w₀ e := fun eventId hcall hid =>
    (remainingFacts_kept w₀ hlib hcut).may_of_reaches
      (safe_deletionProcess hlib hcut deletion h.remaining) hreach hop hcall e hmem hid
  cases hexpired : e.isExpired op.env.now with
  | true => exact Or.inl rfl
  | false =>
      right
      by_contra hother
      exact hgone (live_kept lib op.env hremaining.index.nodup_fileIndex op.call hmem hexpired
        (fun eventId hcall hid => hother (hallowed eventId hcall hid)))

end Interleavings

end Relay
end WispRelay
