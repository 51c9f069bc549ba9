import WispRelay.Library.Runs
import WispRelay.Nostr.SampleLibrary
import WispRelay.Storage.IndexInvariant

/-!
# Live records and event files correspond one to one

While the relay is up, started on an empty store, with `unlink` and `fclose` succeeding and
every other call free to fail:

* no two live records have the same identifier or the same path;
* the files are exactly those at the paths of live records;
* each file is the whole serialisation of the event saved last under the identifier.

`StoreInv` is the invariant, `StoreInv.step` its preservation by one call.
-/

namespace WispRelay
namespace Storage

open Runs

/-- The engine on an empty file system, as `storage_init` leaves it with an empty index. -/
def emptyWorld
    (capacity : Nat)
    (ttl : UInt32)
    (nvs : NvsStore)
    (hcapacity : capacity ≤ storageIndexEntries) : StorageWorld where
  engine := { freshEngine capacity ttl hcapacity with initialized := true }
  files := fun _ => none
  nvs := nvs

/-- The number of calls of `storage_save_event`. -/
def saveCount
    (ops : List StorageOp) : Nat :=
  ops.countP fun op =>
    match op.call with
    | .save _ => true
    | _ => false

/-- The event of the last successful save under an identifier. -/
def lastSaved
    (results : List StorageResult)
    (eventId : Bytes32) : Option NostrEvent :=
  (results.filterMap savedEvent).reverse.find? (fun event => event.id == eventId)

/-- What an operation list returned. -/
def results
    (lib : Libnostr)
    (world : StorageWorld)
    (ops : List StorageOp) : List StorageResult :=
  (trace (storageStep lib) world ops).map Prod.snd

section Ghost

@[simp] theorem results_snoc
    (lib : Libnostr)
    (world : StorageWorld)
    (ops : List StorageOp)
    (op : StorageOp) :
    results lib world (ops ++ [op]) =
      results lib world ops ++
        [(storageStep lib (finalState (storageStep lib) world ops) op).1] := by
  simp [results]

theorem saveCount_snoc
    (ops : List StorageOp)
    (op : StorageOp) :
    saveCount ops ≤ saveCount (ops ++ [op]) ∧
      (∀ event, op.call = .save event → saveCount (ops ++ [op]) = saveCount ops + 1) := by
  constructor
  · simp [saveCount]
  · intro event hcall
    simp [saveCount, hcall]

/-- A call that saves nothing leaves the last saved events alone. -/
theorem lastSaved_snoc_none
    {past : List StorageResult}
    {result : StorageResult}
    (hnone : savedEvent result = none) :
    lastSaved (past ++ [result]) = lastSaved past := by
  funext eventId
  simp [lastSaved, hnone]

theorem lastSaved_snoc_self
    {past : List StorageResult}
    {result : StorageResult}
    {event : NostrEvent}
    (hsome : savedEvent result = some event) :
    lastSaved (past ++ [result]) event.id = some event := by
  simp [lastSaved, hsome]

theorem lastSaved_snoc_other
    {past : List StorageResult}
    {result : StorageResult}
    {event : NostrEvent}
    (hsome : savedEvent result = some event)
    {eventId : Bytes32}
    (hne : eventId ≠ event.id) :
    lastSaved (past ++ [result]) eventId = lastSaved past eventId := by
  have hbeq : (event.id == eventId) = false := by
    simpa using Ne.symm hne
  simp [lastSaved, hsome, hbeq]

/-- Only a save can save. -/
theorem call_of_savedEvent
    {result : StorageResult}
    {event : NostrEvent}
    (hsome : savedEvent result = some event) :
    result.1 = .save event := by
  unfold savedEvent at hsome
  split at hsome
  · rw [Option.some.inj hsome]
  · cases hsome

end Ghost

/-- The invariant of a store that has not been restarted. -/
structure StoreInv
    (lib : Libnostr)
    (past : List StorageResult)
    (world : StorageWorld) : Prop where
  index : WellIndexed world.engine.visible world.engine.nextFileIndex
  owned :
    Owned lib (fun _ => False) (fun e => lastSaved past e.eventId) world.engine.visible
      world.files
  noOrphans : NoOrphans lib world.engine.visible world.files
  next_le : world.engine.nextFileIndex.toNat ≤ (past.filterMap savedEvent).length

namespace StoreInv

theorem empty
    (lib : Libnostr)
    (capacity : Nat)
    (ttl : UInt32)
    (nvs : NvsStore)
    (hcapacity : capacity ≤ storageIndexEntries) :
    StoreInv lib [] (emptyWorld capacity ttl nvs hcapacity) where
  index := WellIndexed.nil
  owned := Owned.nil
  noOrphans := by
    intro path hpath
    exact absurd rfl hpath
  next_le := Nat.le_refl 0

variable
  {lib : Libnostr}
  {past : List StorageResult}
  {env : CallEnv}
  {world world' : StorageWorld}

/-- Every effect of a call keeps the correspondence in the other direction. -/
theorem keeps_noOrphans
    (h : StoreInv lib past world)
    {call : StorageCall}
    {saved : Option NostrEvent}
    (henv : env.KeepsFiles)
    (heffect : StorageEffect lib env world call saved world') :
    NoOrphans lib world'.engine.visible world'.files := by
  cases heffect with
  | idle => exact h.noOrphans
  | discard event leftover hgone =>
      rw [hgone henv.unlinkOk]
      exact h.noOrphans.remove _
  | append event json hcapacity hfresh hjson =>
      simp only [persistEveryTenth_engine, persistEveryTenth_files, appendWorld,
        visible_append]
      exact h.noOrphans.append (newEntry_isDeleted lib env.now world.engine event) _
  | expire filter limit entries files hlen hswept =>
      simpa [sweepWorld] using h.noOrphans.swept henv.unlinkOk hswept
  | sweep Q entries files hlen hswept =>
      simpa [sweepWorld] using h.noOrphans.swept henv.unlinkOk hswept
  | compact => simpa using h.noOrphans.compact

/-- Every effect of a call keeps the invariant. -/
theorem effect
    (h : StoreInv lib past world)
    {result : StorageResult}
    {call : StorageCall}
    {saved : Option NostrEvent}
    (hsaved : savedEvent result = saved)
    (henv : env.KeepsFiles)
    (heffect : StorageEffect lib env world call saved world')
    (hroom : saved.isSome = true → (past.filterMap savedEvent).length + 1 < 2 ^ 32) :
    StoreInv lib (past ++ [result]) world' := by
  have hnext : saved.isSome = true → world.engine.nextFileIndex.toNat + 1 < 2 ^ 32 :=
    fun hsome => lt_of_le_of_lt (Nat.succ_le_succ h.next_le) (hroom hsome)
  have howner : ∀ e : StorageIndexEntry,
      (∀ event, saved = some event → e.eventId ≠ event.id) →
      lastSaved (past ++ [result]) e.eventId = lastSaved past e.eventId := by
    intro e hne
    cases saved with
    | none => rw [lastSaved_snoc_none hsaved]
    | some event => exact lastSaved_snoc_other hsaved (hne event rfl)
  obtain ⟨hindex, howned⟩ := heffect.keeps h.index hnext h.owned (fun _ => id)
    (fun e _ => howner e)
    (fun event hevent => ⟨lastSaved_snoc_self (hsaved.trans hevent), Or.inr henv.fcloseOk⟩)
  refine ⟨hindex, howned, h.keeps_noOrphans henv heffect, ?_⟩
  rw [heffect.nextFileIndex_eq, List.filterMap_append, List.length_append]
  cases saved with
  | none => exact Nat.le_add_right_of_le h.next_le
  | some event =>
      rw [Option.isSome_some, if_pos rfl, FixedWidth.toNat_succ (hnext rfl)]
      simpa [hsaved] using h.next_le

/-- One call keeps the invariant. -/
theorem step
    (h : StoreInv lib past world)
    {op : StorageOp}
    (henv : op.env.KeepsFiles)
    (hroom : ∀ event, op.call = .save event →
      (past.filterMap savedEvent).length + 1 < 2 ^ 32) :
    StoreInv lib (past ++ [(storageStep lib world op).1]) (storageStep lib world op).2 := by
  refine h.effect rfl henv (storageCall_effect lib op.env h.index.nodup_fileIndex op.call) ?_
  intro hsome
  obtain ⟨event, hevent⟩ := Option.isSome_iff_exists.mp hsome
  exact hroom event (call_of_savedEvent hevent)

end StoreInv

/-- There are no more saved events than saves. -/
theorem saved_length_le
    (lib : Libnostr)
    (world : StorageWorld)
    (ops : List StorageOp) :
    ((results lib world ops).filterMap savedEvent).length ≤ saveCount ops := by
  induction ops using List.reverseRecOn with
  | nil => exact Nat.le_refl 0
  | append_singleton past op ih =>
      obtain ⟨hmono, hsucc⟩ := saveCount_snoc past op
      rw [results_snoc, List.filterMap_append, List.length_append]
      cases hsaved : savedEvent
          (storageStep lib (finalState (storageStep lib) world past) op).1 with
      | none =>
          simp only [List.filterMap_cons, hsaved, List.filterMap_nil, List.length_nil]
          omega
      | some event =>
          have hcall := hsucc event (call_of_savedEvent hsaved)
          simp only [List.filterMap_cons, hsaved, List.filterMap_nil, List.length_cons,
            List.length_nil]
          omega

/-- The invariant holds after every run. -/
theorem storeInv_run
    (lib : Libnostr)
    {capacity : Nat}
    (ttl : UInt32)
    (nvs : NvsStore)
    (hcapacity : capacity ≤ storageIndexEntries)
    (ops : List StorageOp)
    (henv : ∀ op ∈ ops, op.env.KeepsFiles)
    (hsaves : saveCount ops < 2 ^ 32) :
    StoreInv lib (results lib (emptyWorld capacity ttl nvs hcapacity) ops)
      (finalState (storageStep lib) (emptyWorld capacity ttl nvs hcapacity) ops) := by
  refine run_invariant
    (fun ops => (∀ op ∈ ops, op.env.KeepsFiles) ∧ saveCount ops < 2 ^ 32)
    (fun ops world =>
      StoreInv lib (results lib (emptyWorld capacity ttl nvs hcapacity) ops) world)
    ?_ (StoreInv.empty lib capacity ttl nvs hcapacity) ?_ ops ⟨henv, hsaves⟩
  · rintro past op ⟨hkeeps, hlt⟩
    refine ⟨fun o ho => hkeeps o (List.mem_append_left _ ho), ?_⟩
    exact lt_of_le_of_lt (saveCount_snoc past op).1 hlt
  · rintro past op ⟨hkeeps, hlt⟩ hinv
    rw [results_snoc]
    refine hinv.step (hkeeps op (by simp)) ?_
    intro event hcall
    have hle := saved_length_le lib (emptyWorld capacity ttl nvs hcapacity) past
    have hsucc := (saveCount_snoc past op).2 event hcall
    omega

/-- Live records and event files correspond one to one. -/
structure FilesMatchIndex
    (lib : Libnostr)
    (saved : Bytes32 → Option NostrEvent)
    (world : StorageWorld) : Prop where
  distinctIds :
    (live world.engine.visible).Pairwise fun e e' => e.eventId ≠ e'.eventId
  distinctPaths :
    (live world.engine.visible).Pairwise fun e e' => e.path lib ≠ e'.path lib
  files_iff : ∀ path, world.files path ≠ none ↔
    ∃ e ∈ live world.engine.visible, e.path lib = path
  contents : ∀ e ∈ live world.engine.visible, ∃ event json,
    saved e.eventId = some event ∧ event.id = e.eventId ∧
    lib.eventSerialize event storageMaxEventSize = some json ∧
    world.files (e.path lib) = some json

theorem StoreInv.filesMatchIndex
    {lib : Libnostr}
    {past : List StorageResult}
    {world : StorageWorld}
    (hinv : StoreInv lib past world) :
    FilesMatchIndex lib (lastSaved past) world := by
  have hcontents : ∀ e ∈ live world.engine.visible, ∃ event json,
      lastSaved past e.eventId = some event ∧ event.id = e.eventId ∧
      lib.eventSerialize event storageMaxEventSize = some json ∧
      world.files (e.path lib) = some json := by
    intro e hmem
    obtain ⟨event, hevent, hdescribes, _, hstale | ⟨json, hjson, hcontent⟩⟩ :=
      hinv.owned e hmem
    · exact hstale.elim
    · exact ⟨event, json, hevent, hdescribes.eventId.symm, hjson, hcontent⟩
  refine ⟨?_, ?_, ?_, hcontents⟩
  · exact List.pairwise_map.mp hinv.index.uniqueIds
  · refine (hinv.index.increasing.sublist (live_sublist _)).imp ?_
    intro e e' hlt hpath
    rw [getEventPath_fileIndex hpath] at hlt
    exact Nat.lt_irrefl _ hlt
  · intro path
    constructor
    · exact hinv.noOrphans path
    · rintro ⟨e, hmem, rfl⟩
      obtain ⟨event, json, _, _, _, hcontent⟩ := hcontents e hmem
      rw [hcontent]
      simp

/-- **Live records and event files correspond one to one** after every run. -/
theorem files_match_index
    (lib : Libnostr)
    (capacity : Nat)
    (ttl : UInt32)
    (nvs : NvsStore)
    (hcapacity : capacity ≤ storageIndexEntries)
    (ops : List StorageOp)
    (henv : ∀ op ∈ ops, op.env.KeepsFiles)
    (hsaves : saveCount ops < 2 ^ 32) :
    FilesMatchIndex lib
      (lastSaved (results lib (emptyWorld capacity ttl nvs hcapacity) ops))
      (finalState (storageStep lib) (emptyWorld capacity ttl nvs hcapacity) ops) :=
  (storeInv_run lib ttl nvs hcapacity ops henv hsaves).filesMatchIndex

/-- Two notes are saved and the first is deleted. -/
theorem files_match_index_two_notes :
    let lib := Sample.library (Sample.notes 2)
    let start := emptyWorld 1000 1814400 NvsStore.erased (by decide)
    let ops : List StorageOp :=
      [⟨.save (Sample.numbered 0), CallEnv.undisturbed 1700000000⟩,
        ⟨.save (Sample.numbered 1), CallEnv.undisturbed 1700000001⟩,
        ⟨.delete (Sample.numbered 0).id, CallEnv.undisturbed 1700000002⟩]
    FilesMatchIndex lib (lastSaved (results lib start ops))
      (finalState (storageStep lib) start ops) := by
  intro lib start ops
  refine files_match_index lib 1000 1814400 NvsStore.erased (by decide) ops ?_ (by decide)
  intro op hop
  simp only [ops, List.mem_cons, List.not_mem_nil, or_false] at hop
  rcases hop with rfl | rfl | rfl
  · exact (CallEnv.undisturbed_succeeds _).toKeepsFiles
  · exact (CallEnv.undisturbed_succeeds _).toKeepsFiles
  · exact (CallEnv.undisturbed_succeeds _).toKeepsFiles

end Storage
end WispRelay
