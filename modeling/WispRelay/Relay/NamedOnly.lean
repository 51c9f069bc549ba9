import Mathlib.Data.List.TakeWhile
import WispRelay.Relay.AuthorOnly
import WispRelay.Relay.HandlerCalls

/-!
# What a deletion request names

A deletion request names an event by its identifier in an `e` tag or by its address in an `a`
tag; a `k` tag says of what kind the named events are.  `delete_by_kinds` takes a `k` tag for a
request to delete every event of the kind, and `delete_by_addresses` reads an address with
`sscanf`, which cuts a `d` tag at white space and after 255 bytes.

* `unnamed_spared`: what is not named and not found by a query for an address or a kind stays,
  whatever happens in between.
* `LooksUp.visits_deletionProcess`: what the passes select is deleted in some execution.
* `only_named_deleted_iff`: only named events are deleted exactly when the queries find named
  events only.
* `queriesFindNamed_of_plain`: without `k` tags, and with addresses that `sscanf` reads to the
  end, they do.
-/

namespace WispRelay
namespace Relay

open Interference Runs Storage

/-! ## Names -/

/-- The parts of an address: the kind, the author, and the `d` tag to the end of the text. -/
def addressParts
    (addr : CString) : Option (Int32 × CString × CString) :=
  match strtol addr with
  | some (kind, 58 :: rest) =>
      some (kind, rest.takeWhile (· != 58), (rest.dropWhile (· != 58)).drop 1)
  | _ => none

/-- An `a` tag has the address of the event. -/
def NamesAddress
    (lib : Libnostr)
    (request : NostrDeletionRequest)
    (event : NostrEvent) : Prop :=
  ∃ addr ∈ request.addresses, ∃ kind,
    addressParts addr =
        some (kind, lib.bytesToHex event.pubkey.toList, (lib.eventGetDTag event).getD []) ∧
      kind.toInt = (event.kind.toNat : Int)

/-- The deletion request names the event. -/
def Named
    (lib : Libnostr)
    (deletion event : NostrEvent) : Prop :=
  ∃ request, lib.deletionParse deletion = some request ∧
    (NamesId lib request event ∨ NamesAddress lib request event)

/-- The query for an address or for a kind of the deletion request selects the event. -/
def FoundByQueries
    (lib : Libnostr)
    (deletion : NostrEvent)
    (e : StorageIndexEntry)
    (event : NostrEvent) : Prop :=
  ∃ request, lib.deletionParse deletion = some request ∧
    (SelectedByAddress lib deletion request e event ∨ SelectedByKind lib deletion e event)

/-- The operation leaves the record live, and its file as it is. -/
def Spares
    (lib : Libnostr)
    (w : LoggedWorld)
    (op : StorageOp)
    (e : StorageIndexEntry) : Prop :=
  e ∈ live (afterOp lib w op).world.engine.visible ∧
    (afterOp lib w op).world.files (e.path lib) = w.world.files (e.path lib)

/--
In every interleaving with the cleanup task, every operation after the time `now` spares the
stored events that have not expired and are not named.
-/
def UnnamedSpared
    (lib : Libnostr)
    (deletion : NostrEvent)
    (now : UInt32)
    (w₀ : LoggedWorld) : Prop :=
  ∀ (p : DeletionProg Nat) (w : LoggedWorld),
    Reaches (deletionSem lib) (cleanupStep lib) (deletionProcess lib deletion) w₀ p w →
    ∀ op, Enabled p op → now ≤ op.env.now →
    ∀ e ∈ live w.world.engine.visible, e.isExpired op.env.now = false →
    ∀ event, Stores lib w₀ e event → ¬ Named lib deletion event → Spares lib w op e

/-- The queries select only named events, of those stored that have not expired. -/
def QueriesFindNamed
    (lib : Libnostr)
    (deletion : NostrEvent)
    (now : UInt32)
    (w : LoggedWorld) : Prop :=
  ∀ e ∈ live w.world.engine.visible, e.isExpired now = false →
    ∀ event, Stores lib w e event → FoundByQueries lib deletion e event →
    Named lib deletion event

/-! ## Plain requests -/

/-- `sscanf` reads the address to its end. -/
def PlainAddress
    (addr : CString) : Prop :=
  ∀ kind author dTag, addressParts addr = some (kind, author, dTag) →
    author.length ≤ 64 ∧ dTag.length ≤ 255 ∧ ∀ c ∈ dTag, isSpace c = false

/-- `%255s` reads a text without white space to its end. -/
theorem scan_plain
    {text : CString}
    (hlength : text.length ≤ 255)
    (hspaces : ∀ c ∈ text, isSpace c = false) :
    ((text.dropWhile isSpace).takeWhile (fun c => !isSpace c)).take 255 = text := by
  have hdrop : text.dropWhile isSpace = text := by
    cases text with
    | nil => rfl
    | cons c rest => rw [List.dropWhile_cons_of_neg (by simp [hspaces c List.mem_cons_self])]
  rw [hdrop, List.takeWhile_eq_self_iff.mpr fun c hc => by simp [hspaces c hc],
    List.take_of_length_le hlength]

/-- The parts of a plain address are what is scanned. -/
theorem addressParts_of_scan
    {addr : CString}
    (hplain : PlainAddress addr)
    {kind : Int32}
    {author dTag : CString}
    (hscan : scanAddress addr = some (kind, author, dTag)) :
    addressParts addr = some (kind, author, dTag) := by
  unfold scanAddress at hscan
  cases hnumber : strtol addr with
  | none =>
      rw [hnumber] at hscan
      cases hscan
  | some number =>
      obtain ⟨n, text⟩ := number
      rw [hnumber] at hscan
      dsimp only at hscan
      split at hscan
      case h_2 => cases hscan
      rename_i rest
      have hparts : addressParts addr = some (n, rest.takeWhile (· != 58),
          (rest.dropWhile (· != 58)).drop 1) := by
        simp only [addressParts, hnumber]
      obtain ⟨hauthor, hlength, hspaces⟩ := hplain _ _ _ hparts
      have hafter : rest.drop (rest.takeWhile (· != 58)).length = rest.dropWhile (· != 58) := by
        conv_lhs =>
          arg 2
          rw [← List.takeWhile_append_dropWhile (p := (· != 58)) (l := rest)]
        exact List.drop_left
      rw [List.take_of_length_le hauthor, hafter] at hscan
      split at hscan
      · cases hscan
      rw [hparts, ← hscan]
      cases hrest : rest.dropWhile (· != 58) with
      | nil => rfl
      | cons c dTag =>
          have hcolon : c = 58 := by
            have hhead := List.head?_dropWhile_not (· != 58) rest
            rw [hrest] at hhead
            simpa using hhead
          rw [hrest, List.drop_one, List.tail_cons] at hlength hspaces
          subst hcolon
          simp only [List.drop_one, List.tail_cons, scan_plain hlength hspaces]

/-- The query for an address accepts events of its kind only. -/
theorem Accepts.address_kind
    {lib : Libnostr}
    {kind : Int32}
    {pubkey : CString}
    {deleteBefore : Int64}
    {e : StorageIndexEntry}
    {event : NostrEvent}
    (h : Accepts lib (addressFilter kind pubkey deleteBefore) e event)
    (hdescribes : Describes e event) :
    kind.toInt = (event.kind.toNat : Int) := by
  have hkind := h.index
  unfold indexMatchesFilter at hkind
  split_ifs at hkind with _ _ hmismatch
  all_goals simp [addressFilter, hdescribes.kind] at hmismatch
  all_goals exact hmismatch

/-- A request without `k` tags whose addresses are plain finds named events only. -/
theorem queriesFindNamed_of_plain
    {lib : Libnostr}
    (hdel : lib.DeletionLaws)
    {w : LoggedWorld}
    (h : Attributed lib w)
    {deletion : NostrEvent}
    (hkinds : deletionKinds deletion = [])
    (hplain : ∀ request, lib.deletionParse deletion = some request →
      ∀ addr ∈ request.addresses, PlainAddress addr)
    (now : UInt32) :
    QueriesFindNamed lib deletion now w := by
  intro e hmem _ event hstores hfound
  obtain ⟨request, hparse, haddress | hkind⟩ := hfound
  · have hpubkey := (Selects.byAddress haddress).pubkey hdel hparse
    obtain ⟨addr, haddr, kind, dTag, hscan, haccepts, rfl⟩ := haddress
    have hdescribes := hstores.describes h hmem
    refine ⟨request, hparse, .inr ⟨addr, haddr, kind, ?_, haccepts.address_kind hdescribes⟩⟩
    rw [addressParts_of_scan (hplain request hparse addr haddr) hscan, hpubkey,
      hdel.parse_pubkey deletion request hparse]
  · obtain ⟨kind, hmem, -⟩ := hkind
    rw [hkinds] at hmem
    cases hmem

/-! ## What is not selected stays -/

theorem enabled_quiet
    {lib : Libnostr}
    (hlib : lib.StorageLaws)
    (hcut : lib.TruncationLaw)
    {w₀ w : LoggedWorld}
    (h : Attributed lib w₀)
    {deletion : NostrEvent}
    {p : DeletionProg Nat}
    (hreach : Reaches (deletionSem lib) (cleanupStep lib) (deletionProcess lib deletion) w₀ p w)
    {op : StorageOp}
    (hop : Enabled p op) :
    ∀ event, op.call ≠ .save event :=
  (remainingFacts_kept w₀ hlib hcut).quiet_of_reaches
    (safe_deletionProcess hlib hcut deletion h.remaining) hreach hop

/-- An unnamed event is spared when the queries select named events only. -/
theorem unnamed_spared
    {lib : Libnostr}
    (hlib : lib.StorageLaws)
    (hcut : lib.TruncationLaw)
    {w₀ : LoggedWorld}
    (h : Attributed lib w₀)
    {deletion : NostrEvent}
    {now : UInt32}
    (hnamed : QueriesFindNamed lib deletion now w₀) :
    UnnamedSpared lib deletion now w₀ := by
  intro p w hreach op hop hlater e hmem hunexpired event hstores hunnamed
  have hremaining := remaining_of_reaches hlib hcut h hreach
  have hlive : e ∈ live (afterOp lib w op).world.engine.visible := by
    by_contra hgone
    rcases expired_or_target hlib hcut h hreach hop hmem hgone with hexpired | htarget
    · rw [hunexpired] at hexpired
      cases hexpired
    obtain ⟨request, event', hparse, hstores', hselects⟩ := htarget
    obtain rfl : event = event' := Option.some.inj (hstores.owner.symm.trans hstores'.owner)
    have hearlier := StorageIndexEntry.unexpired_before hlater hunexpired
    refine hunnamed ?_
    cases hselects with
    | byId hname _ => exact ⟨request, hparse, .inl hname⟩
    | byAddress haddress =>
        exact hnamed e (hremaining.live_subset e hmem) hearlier event hstores
          ⟨request, hparse, .inl haddress⟩
    | byKind hkind =>
        exact hnamed e (hremaining.live_subset e hmem) hearlier event hstores
          ⟨request, hparse, .inr hkind⟩
  refine ⟨hlive, ?_⟩
  have heffect := storageCall_effect lib op.env hremaining.index.nodup_fileIndex op.call
  exact heffect.file_eq (enabled_quiet hlib hcut h hreach hop) hremaining.index.nodup_fileIndex
    hlive

/-! ## What the queries find can be deleted -/

/-- Every call succeeds at one time, but only the file of the record can be read. -/
def readsOnly
    (lib : Libnostr)
    (now : UInt32)
    (e : StorageIndexEntry) : CallEnv :=
  { CallEnv.undisturbed now with readOk := fun path => path == e.path lib }

/-- The record is live and stores the event. -/
structure Kept
    (lib : Libnostr)
    (e : StorageIndexEntry)
    (event : NostrEvent)
    (w : LoggedWorld) : Prop extends Attributed lib w where
  initialized : w.world.engine.initialized = true
  mem : e ∈ live w.world.engine.visible
  stores : Stores lib w e event

/-- A call that saves nothing. -/
def savesNothing : DeletionCall → Prop
  | .malloc => True
  | .storage call => ∀ event, call ≠ .save event

theorem savesNothing_deleteEvent
    (eventId : Bytes32) :
    (deleteEvent eventId).Calls savesNothing :=
  ⟨fun _ => by rintro ⟨⟩, fun _ => trivial⟩

/-- The deletion of a record. -/
def deletes
    (e : StorageIndexEntry)
    (c : DeletionCall) : Prop :=
  c = .storage (.delete e.eventId)

section Found

variable
  {lib : Libnostr}
  {now : UInt32}
  {e : StorageIndexEntry}
  {event : NostrEvent}
  {w : LoggedWorld}

theorem Kept.eventId
    (h : Kept lib e event w) :
    event.id = e.eventId :=
  (h.stores.describes h.toAttributed h.mem).eventId.symm

theorem Kept.quiet
    (h : Kept lib e event w)
    {op : StorageOp}
    (hunexpired : e.isExpired op.env.now = false)
    (hquiet : ∀ event, op.call ≠ .save event)
    (hother : ∀ eventId, op.call = .delete eventId → e.eventId ≠ eventId) :
    Kept lib e event (afterOp lib w op) := by
  have heffect := storageCall_effect lib op.env h.index.nodup_fileIndex op.call
  have hmem : e ∈ live (afterOp lib w op).world.engine.visible :=
    live_kept lib op.env h.index.nodup_fileIndex op.call h.mem hunexpired hother
  refine ⟨h.toAttributed.quiet hquiet, ?_, hmem, ?_, ?_⟩
  · exact heffect.config_eq.1.trans h.initialized
  · unfold LoggedWorld.owner
    rw [saved_of_quiet hquiet]
    exact h.stores.owner
  · have hfile := heffect.file_eq hquiet h.index.nodup_fileIndex hmem
    unfold ParsesTo
    change ∃ json, (storageCall lib op.env w.world op.call).2.files (e.path lib) = some json ∧ _
    rw [hfile]
    exact h.stores.parses

/-- After its deletion the record is not live. -/
theorem Attributed.deleted
    (h : Attributed lib w)
    (hinitialized : w.world.engine.initialized = true)
    (e : StorageIndexEntry)
    (env : CallEnv) :
    e ∉ live (afterOp lib w ⟨.delete e.eventId, env⟩).world.engine.visible := by
  intro hlater
  have hmem : e ∈ live w.world.engine.visible :=
    live_of_quiet h (by rintro event ⟨⟩) hlater
  rcases storageDeleteEvent_cases lib env h.index.nodup_fileIndex e.eventId with
    ⟨-, -, hnone⟩ | ⟨i, entry, files, hlen, hget, hfound, hswept, hrun⟩
  · exact absurd rfl (ne_of_foundEntry_eq_none (hnone hinitialized).2 hmem)
  · obtain ⟨hlive, hid⟩ := live_of_foundEntry hfound
    obtain rfl : entry = e := h.index.eq_of_eventId hlive hmem hid
    change entry ∈ live (storageDeleteEvent lib env w.world entry.eventId).2.engine.visible
      at hlater
    rw [hrun, persist_engine, sweepWorld, StorageEngine.visible_withVisible] at hlater
    have hmarked : (w.world.engine.visible.modify i StorageIndexEntry.markDeleted)[i]? =
        some entry.markDeleted := by
      rw [List.getElem?_modify, hget]
      simp
    exact hswept.not_mem_of_marked h.index.nodup_fileIndex hmarked
      ⟨(mem_live.mp hlive).2, rfl, rfl⟩ (mem_live.mp hlater).1

/-- Only the file of the record can be read. -/
structure ReadsOnlyFile
    (lib : Libnostr)
    (e : StorageIndexEntry)
    (env : CallEnv) : Prop where
  mallocOk : env.mallocOk = true
  readOk : ∀ path, env.readOk path = (path == e.path lib)

theorem readsOnly_readsOnlyFile
    (lib : Libnostr)
    (now : UInt32)
    (e : StorageIndexEntry) :
    ReadsOnlyFile lib e (readsOnly lib now e) where
  mallocOk := rfl
  readOk := fun _ => rfl

/-- Until the record is deleted it is kept. -/
theorem Kept.deletes_or_keeps
    (h : Kept lib e event w)
    (call : StorageCall)
    (env : CallEnv)
    (hunexpired : e.isExpired env.now = false)
    (hquiet : savesNothing (.storage call)) :
    deletes e (.storage call) ∨ Kept lib e event (afterOp lib w ⟨call, env⟩) := by
  by_cases hdelete : call = .delete e.eventId
  · exact .inl (congrArg DeletionCall.storage hdelete)
  · refine .inr (h.quiet hunexpired hquiet ?_)
    rintro eventId hcall rfl
    exact hdelete hcall

section Reading

variable
  {env : CallEnv}
  (h : Kept lib e event w)
  (henv : ReadsOnlyFile lib e env)
include h henv

/-- The file of the record is read. -/
theorem Kept.load :
    loadEventFromFile lib env w.world.files (e.path lib) = some event := by
  refine h.stores.parses.load ?_
  rw [henv.readOk]
  exact beq_self_eq_true _

/-- `storage_get_event` finds the event. -/
theorem Kept.got :
    storageGetEvent lib env w.world event.id = some event := by
  have hfound : foundEntry w.world.engine event.id = some e :=
    foundEntry_eq_some h.mem h.eventId.symm fun e' hmem' hid' =>
      h.index.eq_of_eventId hmem' h.mem (hid'.trans h.eventId)
  simp only [storageGetEvent, h.initialized, hfound, Bool.not_true, Bool.false_eq_true, if_false]
  exact h.load henv

/-- What can be read is the event of the record. -/
theorem Kept.eq_of_result
    {filter : NostrFilter}
    {limit : UInt16}
    {result : NostrEvent}
    (hmem : result ∈ (storageQueryEvents lib env w.world filter limit).1.2) :
    result = event := by
  obtain ⟨e', he', hread⟩ := storageQueryEvents_source hmem
  obtain ⟨files, hshrunk, hload⟩ := hread.loaded
  have hpath : e'.path lib = e.path lib := by
    by_contra hpath
    have hunread : env.readOk (e'.path lib) = false := by
      rw [henv.readOk]
      exact beq_eq_false_iff_ne.mpr hpath
    rw [loadEventFromFile, hunread] at hload
    cases hload
  have hparses := (parsesTo_of_load hload).of_shrunk hshrunk
  rw [hpath] at hparses
  exact hparses.unique h.stores.parses

/-- A query that accepts the event finds it, since it is the only one that can be read. -/
theorem Kept.found
    (hunexpired : e.isExpired env.now = false)
    {filter : NostrFilter}
    (haccepts : Accepts lib filter e event)
    {limit : UInt16}
    (hlimit : 0 < queryLimit limit) :
    ∃ events, (storageCall lib env w.world (.query filter limit)).1 =
      (StorageError.storageOk, events) ∧ event ∈ events := by
  refine ⟨(storageQueryEvents lib env w.world filter limit).1.2, ?_, ?_⟩
  · simp only [storageCall, storageQueryEvents, h.initialized, henv.mallocOk, Bool.not_true,
      Bool.false_eq_true, if_false]
    rfl
  · rcases storageQueryEvents_complete henv.mallocOk h.initialized h.index.nodup_fileIndex limit
      h.mem hunexpired haccepts.index (h.load henv) haccepts.event with hfound | hfull
    · exact hfound
    · obtain ⟨result, hresult⟩ := List.exists_mem_of_length_pos (hlimit.trans_le hfull)
      rwa [← h.eq_of_result henv hresult]

end Reading

/-! ## Executions that delete what is selected -/

/--
In the states of an execution in which the record is kept, look-ups find its event, and only its
deletion leaves these states.
-/
structure LooksUp
    (lib : Libnostr)
    (e : StorageIndexEntry)
    (event : NostrEvent)
    {σ : Type}
    (step : (c : DeletionCall) → σ → c.Ret × σ)
    (K : σ → Prop) : Prop where
  eventId : ∀ s, K s → event.id = e.eventId
  keeps : ∀ c s, savesNothing c → K s → deletes e c ∨ K (step c s).2
  memory : ∀ s, K s → (step .malloc s).1 = true
  gets : ∀ s, K s → (step (.storage (.get event.id)) s).1 = some event
  queries : ∀ s filter limit, K s → Accepts lib filter e event → 0 < queryLimit limit →
    ∃ events, (step (.storage (.query filter limit)) s).1 = (StorageError.storageOk, events) ∧
      event ∈ events

namespace LooksUp

variable
  {σ : Type}
  {step : (c : DeletionCall) → σ → c.Ret × σ}
  {K : σ → Prop}
  (h : LooksUp lib e event step K)
include h

theorem visits_deleteEvent
    {s : σ}
    (hs : K s) :
    Prog.Visits step (deletes e) K (deleteEvent event.id) s :=
  Prog.Visits.call (congrArg (fun id => DeletionCall.storage (.delete id)) (h.eventId s hs)) hs

/-- A call that does not delete comes first. -/
theorem after
    {c : DeletionCall}
    (hquiet : savesNothing c)
    (hother : ¬ deletes e c)
    {next : c.Ret → DeletionProg Nat}
    {s : σ}
    (hs : K s)
    (hnext : ∀ s', K s' → Prog.Visits step (deletes e) K (next (step c s).1) s') :
    Prog.Visits step (deletes e) K (Prog.perform c >>= next) s :=
  Prog.Visits.perform_bind (Prod.ext rfl rfl)
    (hnext _ ((h.keeps c s hquiet hs).resolve_left hother))

/-- `malloc`, which succeeds. -/
theorem afterMalloc
    {next : Bool → DeletionProg Nat}
    {s : σ}
    (hs : K s)
    (hnext : ∀ s', K s' → Prog.Visits step (deletes e) K (next true) s') :
    Prog.Visits step (deletes e) K (malloc >>= next) s := by
  refine h.after (c := DeletionCall.malloc) trivial (by rintro ⟨⟩) hs fun s' hs' => ?_
  rw [h.memory s hs]
  exact hnext s' hs'

/-- An `e` tag with the identifier. -/
theorem visits_deleteEventId
    {request : NostrDeletionRequest}
    {hex : CString}
    {bytes : List UInt8}
    (hhex : lib.hexToBytes hex 64 = some bytes)
    (hid : event.id = bytesVector 32 bytes)
    (hauthorized : lib.deletionAuthorized request event = true)
    {s : σ}
    (hs : K s) :
    Prog.Visits step (deletes e) K (deleteEventId lib request hex) s := by
  unfold deleteEventId
  rw [hhex]
  dsimp only
  rw [← hid]
  refine h.after (c := DeletionCall.storage (.get event.id)) (by rintro event ⟨⟩)
    (by rintro ⟨⟩) hs fun s' hs' => ?_
  rw [h.gets s hs]
  dsimp only
  rw [if_pos hauthorized]
  exact h.visits_deleteEvent hs'

/-- What is done with the results of a query that accepts the event. -/
theorem visits_queryEvents
    {filter : NostrFilter}
    (haccepts : Accepts lib filter e event)
    {limit : UInt16}
    (hlimit : 0 < queryLimit limit)
    {body : NostrEvent → DeletionProg Nat}
    (hcalls : ∀ event, (body event).Calls savesNothing)
    (hbody : ∀ s, K s → Prog.Visits step (deletes e) K (body event) s)
    {s : σ}
    (hs : K s) :
    Prog.Visits step (deletes e) K
      (queryEvents filter limit >>= fun r =>
        match r with
        | (result, events) => if result = .storageOk then Prog.total body events else pure 0) s := by
  obtain ⟨events, hfound, hmem⟩ := h.queries s filter limit hs haccepts hlimit
  refine h.after (c := DeletionCall.storage (.query filter limit)) (by rintro event ⟨⟩)
    (by rintro ⟨⟩) hs fun s' hs' => ?_
  rw [hfound]
  exact Prog.Visits.total h.keeps (fun event _ => hcalls event) hmem hbody hs'

theorem visits_deleteKind
    {deletion : NostrEvent}
    {kind : Int32}
    (haccepts : Accepts lib (kindFilter lib deletion kind) e event)
    {s : σ}
    (hs : K s) :
    Prog.Visits step (deletes e) K (deleteKind lib deletion kind) s := by
  refine h.afterMalloc hs fun s' hs' => ?_
  exact h.visits_queryEvents haccepts (by decide)
    (fun event => savesNothing_deleteEvent event.id) (fun _ => h.visits_deleteEvent) hs'

theorem visits_deleteAddress
    {request : NostrDeletionRequest}
    {deleteBefore : Int64}
    {addr : CString}
    {kind : Int32}
    (hscan : scanAddress addr =
      some (kind, request.pubkey, (lib.eventGetDTag event).getD []))
    (haccepts : Accepts lib (addressFilter kind request.pubkey deleteBefore) e event)
    {s : σ}
    (hs : K s) :
    Prog.Visits step (deletes e) K (deleteAddress lib request deleteBefore addr) s := by
  unfold deleteAddress
  rw [hscan]
  dsimp only
  rw [if_neg (not_not.mpr rfl)]
  refine h.afterMalloc hs fun _ hs => h.afterMalloc hs fun _ hs => ?_
  refine h.visits_queryEvents haccepts (by decide) (fun event => ?_) (fun _ hs => ?_) hs
  · split
    · exact savesNothing_deleteEvent event.id
    · trivial
  · rw [if_pos rfl]
    exact h.visits_deleteEvent hs

/-- The request deletes what one of its passes selects. -/
theorem visits_deletionProcess
    {deletion : NostrEvent}
    (hkind : deletion.kind = nostrKindDeletion)
    {request : NostrDeletionRequest}
    (hparse : lib.deletionParse deletion = some request)
    (hselects : Selects lib deletion request e event)
    {s : σ}
    (hs : K s) :
    Prog.Visits step (deletes e) K (deletionProcess lib deletion) s := by
  have hdelete : ∀ eventId, savesNothing (.storage (.delete eventId)) := by
    rintro eventId event ⟨⟩
  have hget : ∀ eventId, savesNothing (.storage (.get eventId)) := by
    rintro eventId event ⟨⟩
  have hquery : ∀ filter limit, savesNothing (.storage (.query filter limit)) := by
    rintro filter limit event ⟨⟩
  have hids : ∀ hex, (deleteEventId lib request hex).Calls savesNothing :=
    fun hex => calls_deleteEventId hdelete hget request hex
  have haddresses : ∀ addr,
      (deleteAddress lib request deletion.createdAt addr).Calls savesNothing :=
    fun addr => calls_deleteAddress trivial hquery hdelete request _ addr
  have hkinds : ∀ kind, (deleteKind lib deletion kind).Calls savesNothing :=
    fun kind => calls_deleteKind trivial hquery hdelete deletion kind
  unfold deletionProcess
  rw [if_neg (not_not.mpr hkind), hparse]
  cases hselects with
  | byId hname hauthorized =>
      obtain ⟨hex, hhex, bytes, hbytes, hid⟩ := hname
      exact (Prog.Visits.total h.keeps (fun hex _ => hids hex) hhex
        (fun _ hs => h.visits_deleteEventId hbytes hid hauthorized hs) hs).bind _
  | byAddress haddress =>
      obtain ⟨addr, haddr, kind, dTag, hscan, haccepts, rfl⟩ := haddress
      refine Prog.Visits.bind_right h.keeps (Prog.Calls.total fun hex _ => hids hex) hs
        fun _ s hs => ?_
      exact (Prog.Visits.total h.keeps (fun addr _ => haddresses addr) haddr
        (fun _ hs => h.visits_deleteAddress hscan haccepts hs) hs).bind _
  | byKind hkind' =>
      obtain ⟨kind, hmem, haccepts⟩ := hkind'
      refine Prog.Visits.bind_right h.keeps (Prog.Calls.total fun hex _ => hids hex) hs
        fun _ s hs => ?_
      refine Prog.Visits.bind_right h.keeps (Prog.Calls.total fun addr _ => haddresses addr) hs
        fun _ s hs => ?_
      exact (Prog.Visits.total h.keeps (fun kind _ => hkinds kind) hmem
        (fun _ hs => h.visits_deleteKind haccepts hs) hs).bind _

end LooksUp

section Queries

variable
  (hunexpired : e.isExpired now = false)
include hunexpired

/-- With calls that read the file of the record only. -/
theorem looksUp_deletionStep :
    LooksUp lib e event (deletionStep lib (readsOnly lib now e)) (Kept lib e event) where
  eventId := fun _ h => h.eventId
  keeps := by
    intro c w hquiet h
    cases c with
    | malloc => exact .inr h
    | storage call => exact h.deletes_or_keeps call _ hunexpired hquiet
  memory := fun _ _ => rfl
  gets := fun _ h => h.got (readsOnly_readsOnlyFile lib now e)
  queries := fun _ _ _ h haccepts hlimit =>
    h.found (readsOnly_readsOnlyFile lib now e) hunexpired haccepts hlimit

/-- The execution cannot avoid deleting the record. -/
abbrev Deletes
    (lib : Libnostr)
    (now : UInt32)
    (e : StorageIndexEntry)
    (event : NostrEvent)
    (p : DeletionProg Nat)
    (w : LoggedWorld) : Prop :=
  Prog.Visits (deletionStep lib (readsOnly lib now e)) (deletes e) (Kept lib e event) p w

/-- The request deletes what its queries find. -/
theorem deletes_deletionProcess
    {deletion : NostrEvent}
    (hkind : deletion.kind = nostrKindDeletion)
    (hfound : FoundByQueries lib deletion e event)
    (h : Kept lib e event w) :
    Deletes lib now e event (deletionProcess lib deletion) w := by
  obtain ⟨request, hparse, hselected⟩ := hfound
  have hselects : Selects lib deletion request e event := by
    rcases hselected with haddress | hkind'
    · exact .byAddress haddress
    · exact .byKind hkind'
  exact (looksUp_deletionStep hunexpired).visits_deletionProcess hkind hparse hselects h

/-- An event that the queries find and the request does not name is not spared. -/
theorem unnamed_deleted
    {deletion : NostrEvent}
    (hkind : deletion.kind = nostrKindDeletion)
    (hfound : FoundByQueries lib deletion e event)
    (hunnamed : ¬ Named lib deletion event)
    (h : Kept lib e event w) :
    ¬ UnnamedSpared lib deletion now w := by
  intro hspared
  obtain ⟨c, next, w', hreach, rfl, hkept⟩ :=
    (deletes_deletionProcess hunexpired hkind hfound h).reaches (cleanupStep lib)
      (deletionStep_sem lib _)
  have hspares := hspared _ w' hreach ⟨.delete e.eventId, readsOnly lib now e⟩
    (.inr ⟨next, rfl⟩) (UInt32.le_refl now) e hkept.mem hunexpired event h.stores hunnamed
  exact hkept.deleted hkept.initialized e _ hspares.1

end Queries

end Found

/-! ## Named events only -/

/-- Two notes of one author are saved. -/
def twoNotesSaved : List FlashOp :=
  [ .run ⟨.save (Sample.numbered 0), CallEnv.undisturbed 1700000000⟩,
    .run ⟨.save (Sample.numbered 1), CallEnv.undisturbed 1700000000⟩ ]

/-- The flash with the two notes. -/
def twoNotes : LoggedWorld :=
  finalState (flashStep (Sample.library (Sample.notes 2))) (erasedFlash 1000 1814400 thousandSlots)
    twoNotesSaved

/-- The record of the second note. -/
def twoNotesRecord : StorageIndexEntry :=
  twoNotes.world.engine.index.getD 1 StorageIndexEntry.zero

/-- The author asks to delete the first note; the `k` tag says that it is a note. -/
def firstNoteDeletion : NostrEvent :=
  { Sample.numbered 2 with
    kind := 5
    tags := [[ascii "e", Sample.hexOf (Sample.numbered 0).id.toList], [ascii "k", ascii "1"]] }

/-- The second note is stored, and the query for its kind accepts it. -/
theorem twoNotesRecord_stored :
    (twoNotes.world.engine.initialized = true ∧
        twoNotesRecord ∈ live twoNotes.world.engine.visible ∧
        twoNotesRecord.isExpired 1700000000 = false) ∧
      Stores (Sample.library (Sample.notes 2)) twoNotes twoNotesRecord (Sample.numbered 1) ∧
      Accepts (Sample.library (Sample.notes 2))
        (kindFilter (Sample.library (Sample.notes 2)) firstNoteDeletion 1) twoNotesRecord
        (Sample.numbered 1) := by
  let lib := Sample.library (Sample.notes 2)
  let json := Sample.eventJson (Sample.numbered 1)
  have hstored : ((twoNotes.world.engine.initialized = true ∧
        twoNotesRecord ∈ live twoNotes.world.engine.visible ∧
        twoNotesRecord.isExpired 1700000000 = false) ∧
        indexMatchesFilter lib twoNotesRecord (kindFilter lib firstNoteDeletion 1) = true ∧
        lib.filterMatches (kindFilter lib firstNoteDeletion 1) (Sample.numbered 1) = true) ∧
      twoNotes.owner twoNotesRecord = some (Sample.numbered 1) ∧
      twoNotes.world.files (twoNotesRecord.path (Sample.library (Sample.notes 2))) = some json ∧
      0 < json.length ∧ json.length ≤ storageMaxEventSize ∧
      (Sample.library (Sample.notes 2)).eventParse json = some (Sample.numbered 1) := by
    decide +kernel
  obtain ⟨⟨hlive, hindex, hmatches⟩, howner, hfile, hpos, hsize, hparse⟩ := hstored
  exact ⟨hlive, ⟨howner, json, hfile, hpos, hsize, hparse⟩, hindex, hmatches⟩

theorem firstNoteDeletion_unnamed :
    ¬ Named (Sample.library (Sample.notes 2)) firstNoteDeletion (Sample.numbered 1) := by
  have hids : Sample.tagValues firstNoteDeletion (ascii "e") =
      [Sample.hexOf (Sample.numbered 0).id.toList] := by
    decide +kernel
  have hfirst : ((Sample.library (Sample.notes 2)).hexToBytes
      (Sample.hexOf (Sample.numbered 0).id.toList) 64).map (bytesVector 32) =
      some (Sample.numbered 0).id := by
    decide +kernel
  rintro ⟨request, hparse, ⟨hex, hhex, bytes, hbytes, hid⟩ | ⟨addr, haddr, -⟩⟩
  · obtain rfl := Option.some.inj hparse
    rw [hids, List.mem_singleton] at hhex
    subst hhex
    rw [hbytes, Option.map_some, Option.some.injEq, ← hid] at hfirst
    exact absurd hfirst (by decide +kernel)
  · obtain rfl := Option.some.inj hparse
    revert haddr
    have hnone : Sample.tagValues firstNoteDeletion (ascii "a") = [] := by
      decide +kernel
    rw [hnone]
    exact List.not_mem_nil

/--
**Only named events are deleted exactly when the queries find named events only.**  For every
state the storage can reach with no NVS call failing before a restart, and every deletion request,
over all interleavings with the cleanup task, whatever calls fail meanwhile.
-/
theorem only_named_deleted_iff
    (lib : Libnostr)
    (hlib : lib.StorageLaws)
    (hcut : lib.TruncationLaw)
    (capacity : Nat)
    (ttl : UInt32)
    (hcapacity : capacity ≤ storageIndexEntries)
    (past : List FlashOp)
    (hdurable : Durable capacity past)
    (hsaves : flashSaves past < 2 ^ 32)
    (deletion : NostrEvent)
    (hkind : deletion.kind = nostrKindDeletion)
    (now : UInt32) :
    UnnamedSpared lib deletion now
        (finalState (flashStep lib) (erasedFlash capacity ttl hcapacity) past) ↔
      QueriesFindNamed lib deletion now
        (finalState (flashStep lib) (erasedFlash capacity ttl hcapacity) past) := by
  have hstart := attributed_of_run lib ttl hcapacity past hdurable hsaves
  constructor
  · intro hspared e hmem hunexpired event hstores hfound
    by_contra hunnamed
    have hinitialized := (flashInv_run lib ttl hcapacity past hdurable hsaves).initialized
    exact unnamed_deleted hunexpired hkind hfound hunnamed ⟨hstart, hinitialized, hmem, hstores⟩
      hspared
  · exact unnamed_spared hlib hcut hstart

/-- Another author asks to delete a note. -/
theorem only_named_deleted_iff_foreign_request :
    let lib := Sample.library (Sample.notes 1)
    let past : List FlashOp :=
      [.run ⟨.save (Sample.numbered 0), CallEnv.undisturbed 1700000000⟩]
    let w := finalState (flashStep lib) (erasedFlash 1000 1814400 (by decide)) past
    UnnamedSpared lib (Sample.foreignDeletion 0) 1700000000 w ↔
      QueriesFindNamed lib (Sample.foreignDeletion 0) 1700000000 w := by
  intro lib past w
  have hids := Sample.notes_ids_nodup (n := 1) (by decide)
  exact only_named_deleted_iff lib (Sample.library_storageLaws hids)
    (Sample.library_truncationLaw hids) 1000 1814400 (by decide) past
    (durable_of_runs 1000 (by simp [past, FlashOp.isRestart])) (by decide)
    (Sample.foreignDeletion 0) rfl 1700000000

/-- The second note is deleted as well, also when nothing fails or happens in between. -/
theorem other_note_is_deleted :
    let lib := Sample.library (Sample.notes 2)
    let env := CallEnv.undisturbed 1700000000
    let w := (deletionProcess lib firstNoteDeletion).run (deletionStep lib env) twoNotes
    twoNotesRecord ∈ live twoNotes.world.engine.visible ∧
      twoNotesRecord.isExpired env.now = false ∧
      Stores lib twoNotes twoNotesRecord (Sample.numbered 1) ∧
      ¬ Named lib firstNoteDeletion (Sample.numbered 1) ∧
      twoNotesRecord ∉ live w.2.world.engine.visible ∧
      ¬ UnnamedSpared lib firstNoteDeletion env.now twoNotes := by
  intro lib env w
  obtain ⟨⟨hinitialized, hmem, hunexpired⟩, hstores, haccepts⟩ := twoNotesRecord_stored
  have hfound : FoundByQueries lib firstNoteDeletion twoNotesRecord (Sample.numbered 1) :=
    ⟨_, rfl, .inr ⟨1, by decide, haccepts⟩⟩
  have hstart := attributed_of_run lib 1814400 (by decide) twoNotesSaved
    (durable_of_runs 1000 (by simp [twoNotesSaved, FlashOp.isRestart])) (by decide)
  refine ⟨hmem, hunexpired, hstores, firstNoteDeletion_unnamed, by decide +kernel, ?_⟩
  exact unnamed_deleted hunexpired rfl hfound firstNoteDeletion_unnamed
    ⟨hstart, hinitialized, hmem, hstores⟩

end Relay
end WispRelay
