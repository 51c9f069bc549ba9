import WispRelay.Storage.QueryResults
import WispRelay.Storage.Restart

/-!
# The deadline of a saved event

An event is to be kept until its NIP-40 expiration or for the retention time, whichever ends
first.  `storage_save_event` records the end as 32 bits, where zero means never.

* `deadline`: the end as an integer.
* `KeepsDeadline`: the save records it, and every later query and purge agrees with it, as
  long as the identifier is not saved again.
* `DeadlineFits`: the saves for which that holds; the 64-bit expiration must not look smaller
  than the retention time once it is cut to 32 bits.
* `late_expiration_is_cut`: an expiration more than a century ahead makes a note expire at
  once.
-/

namespace WispRelay
namespace Storage

open Runs

/-- When an event saved at `now` is to be dropped. -/
def deadline
    (now ttl : UInt32)
    (nip40Exp : Int64) : Int :=
  if 0 < nip40Exp.toInt then
    min ((now.toNat : Int) + ttl.toNat) nip40Exp.toInt
  else
    (now.toNat : Int) + ttl.toNat

/-- The expirations that survive the cast to 32 bits as far as they matter. -/
def ExpirationFits
    (now ttl : UInt32)
    (nip40Exp : Int64) : Prop :=
  nip40Exp.toInt ≤ 0 ∨ nip40Exp.toInt < 2 ^ 32 ∨
    (now.toNat : Int) + ttl.toNat ≤ nip40Exp.toInt % 2 ^ 32

/-- The saves whose deadline is recorded and kept. -/
def DeadlineFits
    (now ttl : UInt32)
    (nip40Exp : Int64) : Prop :=
  0 < now.toNat + ttl.toNat ∧ ExpirationFits now ttl nip40Exp

/-! ## The recorded value -/

section Recorded

variable
  {now ttl : UInt32}
  {nip40Exp : Int64}

/-- A cast of a number that is not negative keeps its low 32 bits. -/
theorem uint32OfInt64_toNat
    (hnonneg : 0 ≤ nip40Exp.toInt) :
    ((uint32OfInt64 nip40Exp).toNat : Int) = nip40Exp.toInt % 2 ^ 32 := by
  have hle : 0 ≤ nip40Exp := Int64.le_iff_toInt_le.mpr (by simpa using hnonneg)
  have hclamp : (nip40Exp.toNatClampNeg : Int) = nip40Exp.toInt :=
    Int.toNat_of_nonneg hnonneg
  unfold uint32OfInt64
  rw [UInt64.toNat_toUInt32, Int64.toNat_toUInt64_of_le hle]
  omega

/-- The value recorded, as an integer. -/
theorem recordedExpiry_toNat
    (hfits : now.toNat + ttl.toNat < 2 ^ 32) :
    ((recordedExpiry now ttl nip40Exp).toNat : Int) =
      if 0 < nip40Exp.toInt ∧ nip40Exp.toInt % 2 ^ 32 < (now.toNat : Int) + ttl.toNat then
        nip40Exp.toInt % 2 ^ 32
      else
        (now.toNat : Int) + ttl.toNat := by
  have hsum : (now + ttl).toNat = now.toNat + ttl.toNat := by
    rw [UInt32.toNat_add]
    exact Nat.mod_eq_of_lt hfits
  by_cases hpos : 0 < nip40Exp.toInt
  · have hcast := uint32OfInt64_toNat hpos.le
    have hlt : (0 < nip40Exp) = True := by
      rw [eq_iff_iff, Int64.lt_iff_toInt_lt]
      simpa using hpos
    have hiff : uint32OfInt64 nip40Exp < now + ttl ↔
        nip40Exp.toInt % 2 ^ 32 < (now.toNat : Int) + ttl.toNat := by
      rw [UInt32.lt_iff_toNat_lt, hsum, ← hcast]
      omega
    simp only [recordedExpiry, hlt, decide_true, Bool.true_and, decide_eq_true_eq, hiff, hpos,
      true_and]
    split
    · exact hcast
    · rw [hsum]
      rfl
  · have hlt : (0 < nip40Exp) = False := by
      rw [eq_iff_iff, Int64.lt_iff_toInt_lt]
      simpa using hpos
    simp only [recordedExpiry, hlt, hpos, decide_false, Bool.false_and, Bool.false_eq_true,
      if_false, false_and, hsum]
    rfl

/-- The value recorded is the deadline exactly when the expiration fits. -/
theorem recordedExpiry_eq_iff
    (hfits : now.toNat + ttl.toNat < 2 ^ 32) :
    ((recordedExpiry now ttl nip40Exp).toNat : Int) = deadline now ttl nip40Exp ↔
      ExpirationFits now ttl nip40Exp := by
  rw [recordedExpiry_toNat hfits]
  unfold deadline ExpirationFits
  by_cases hpos : 0 < nip40Exp.toInt
  · simp only [hpos, true_and, if_true]
    by_cases hsmall : nip40Exp.toInt < 2 ^ 32
    · have hmod : nip40Exp.toInt % 2 ^ 32 = nip40Exp.toInt := by omega
      rw [hmod]
      split <;> omega
    · split <;> omega
  · simp only [hpos, false_and, if_false]
    constructor
    · intro _
      exact Or.inl (Int.not_lt.mp hpos)
    · intro _
      trivial

/-- The deadline is not zero unless the clock and the retention time are. -/
theorem deadline_pos
    (nip40Exp : Int64)
    (hpos : 0 < now.toNat + ttl.toNat) :
    0 < deadline now ttl nip40Exp := by
  unfold deadline
  split <;> omega

end Recorded

/-! ## What the deadline promises -/

/-- What a deadline means for one more query or purge. -/
structure HonoursDeadline
    (lib : Libnostr)
    (eventId : Bytes32)
    (fileIndex : UInt32)
    (due : Int)
    (env : CallEnv)
    (world : StorageWorld) : Prop where
  notReturned : due < env.now.toNat → ∀ filter limit,
    ∀ event ∈ (storageQueryEvents lib env world filter limit).1.2, event.id ≠ eventId
  removed : due < env.now.toNat →
    ∀ e ∈ live (storagePurgeExpired lib env world).2.engine.visible, e.eventId ≠ eventId
  kept : (env.now.toNat : Int) ≤ due → ∀ e ∈ live world.engine.visible,
    e.eventId = eventId → e.fileIndex = fileIndex →
    e ∈ live (storagePurgeExpired lib env world).2.engine.visible ∧
      ∀ filter limit,
        e ∈ live (storageQueryEvents lib env world filter limit).2.engine.visible

/--
A run after a save, up to a last call, in which the identifier is not saved again.  When the
relay restarts, the clock must not have gone back: a record that was dropped before the save
can be found again then.
-/
structure LaterRun
    (lib : Libnostr)
    (capacity : Nat)
    (past : List FlashOp)
    (w : LoggedWorld)
    (eventId : Bytes32)
    (later : List FlashOp)
    (env : CallEnv) : Prop where
  durable : Durable capacity (past ++ later)
  saves : flashSaves (past ++ later) < 2 ^ 32
  unsaved : ∀ result ∈ flashResults lib w later, ∀ event,
    savedEvent result = some event → event.id ≠ eventId
  clock : (∃ op ∈ later, op.isRestart = true) →
    (times (past ++ later) ++ [env.now]).Pairwise (· ≤ ·)

/-- The deadline of a save is recorded, and honoured as long as the event is not saved again. -/
structure KeepsDeadline
    (lib : Libnostr)
    (capacity : Nat)
    (past : List FlashOp)
    (w : LoggedWorld)
    (event : NostrEvent)
    (env : CallEnv)
    (due : Int) : Prop where
  recorded : ∃ e ∈ live (storageSaveEvent lib env w.world event).2.engine.visible,
    e.eventId = event.id ∧ (e.expiresAt.toNat : Int) = due
  honoured : ∀ later lastEnv,
    LaterRun lib capacity (past ++ [.run ⟨.save event, env⟩])
      (flashStep lib w (.run ⟨.save event, env⟩)).2 event.id later lastEnv →
    HonoursDeadline lib event.id w.world.engine.nextFileIndex due lastEnv
      (finalState (flashStep lib) (flashStep lib w (.run ⟨.save event, env⟩)).2 later).world

/-! ## The record of a save -/

section Saved

variable
  {lib : Libnostr}
  {env : CallEnv}
  {world : StorageWorld}
  {event : NostrEvent}
  (hok : (storageSaveEvent lib env world event).1 = .storageOk)
include hok

/-- A successful save adds one live record. -/
theorem live_of_saved :
    live (storageSaveEvent lib env world event).2.engine.visible =
      live world.engine.visible ++ [newEntry lib env.now world.engine event] := by
  rcases storageSaveEvent_cases lib env world event with
    ⟨herror, _⟩ | ⟨json, hroom, _, _, _, hrun⟩
  · exact absurd hok herror
  · rw [hrun, persistEveryTenth_engine]
    simp only [appendWorld, visible_append]
    exact live_snoc (newEntry_isDeleted lib env.now world.engine event)

/-- The only live record with the identifier is the new one. -/
theorem eq_newEntry_of_saved
    {e : StorageIndexEntry}
    (hmem : e ∈ live (storageSaveEvent lib env world event).2.engine.visible)
    (hid : e.eventId = event.id) :
    e = newEntry lib env.now world.engine event := by
  rw [live_of_saved hok] at hmem
  rcases List.mem_append.mp hmem with hold | hnew
  · rcases storageSaveEvent_cases lib env world event with
      ⟨herror, _⟩ | ⟨json, hroom, _, hfresh, _, _⟩
    · exact absurd hok herror
    · exact absurd hid (ne_of_foundEntry_eq_none hfresh hold)
  · exact List.mem_singleton.mp hnew

theorem newEntry_mem_of_saved :
    newEntry lib env.now world.engine event ∈
      live (storageSaveEvent lib env world event).2.engine.visible := by
  rw [live_of_saved hok]
  simp

end Saved

/-! ## Honouring the deadline -/

section Honour

variable
  {lib : Libnostr}
  {capacity : Nat}
  {inUse kept : StorageIndexEntry → Prop}
  {ops : List FlashOp}
  {w : LoggedWorld}

/--
The deadline is honoured in a state in which every live record of the event has the recorded
value, or is an older one that has expired.
-/
theorem honoursDeadline_of_dated
    (hlib : lib.StorageLaws)
    (hcut : lib.TruncationLaw)
    (hinv : FlashInv lib capacity inUse kept ops w)
    {eventId : Bytes32}
    {fileIndex expiry : UInt32}
    {env : CallEnv}
    (hpos : 0 < expiry.toNat)
    (hdated : ∀ e ∈ live w.world.engine.visible, e.eventId = eventId →
      e.expiresAt = expiry ∨ e.isExpired env.now = true ∧ e.fileIndex ≠ fileIndex) :
    HonoursDeadline lib eventId fileIndex expiry.toNat env w.world := by
  have hexpired : expiry.toNat < env.now.toNat → ∀ e ∈ live w.world.engine.visible,
      e.eventId = eventId → e.isExpired env.now = true := by
    intro hlate e hmem hid
    rcases hdated e hmem hid with hexpiry | ⟨hold, _⟩
    · simp only [StorageIndexEntry.isExpired, hexpiry, Bool.and_eq_true, decide_eq_true_eq]
      exact ⟨UInt32.lt_iff_toNat_lt.mpr hpos, UInt32.lt_iff_toNat_lt.mpr hlate⟩
    · exact hold
  refine ⟨?_, ?_, ?_⟩
  · intro hlate filter limit event hmem hid
    obtain ⟨e, hlive, _, hdescribes, hunexpired, _⟩ := hinv.owned.of_query hlib hcut hmem
    have hnow := hexpired (by exact_mod_cast hlate) e hlive (hdescribes.eventId.trans hid)
    rw [hunexpired] at hnow
    cases hnow
  · intro hlate e hmem hid
    rw [live_storagePurgeExpired lib env hinv.initialized, List.mem_filter] at hmem
    have hnow := hexpired (by exact_mod_cast hlate) e hmem.1 hid
    rw [hnow] at hmem
    cases hmem.2
  · intro hearly e hmem hid hindex
    have hunexpired : e.isExpired env.now = false := by
      rcases hdated e hmem hid with hexpiry | ⟨_, hother⟩
      · have hnot : ¬ expiry < env.now := by
          rw [UInt32.lt_iff_toNat_lt]
          omega
        simp [StorageIndexEntry.isExpired, hexpiry, hnot]
      · exact absurd hindex hother
    constructor
    · rw [live_storagePurgeExpired lib env hinv.initialized, List.mem_filter, hunexpired]
      exact ⟨hmem, rfl⟩
    · intro filter limit
      exact live_storageQueryEvents lib env hinv.index.nodup_fileIndex filter limit hmem
        hunexpired

end Honour

/-- A run that ends with a save ends in the world the save leaves. -/
theorem world_of_saved
    (lib : Libnostr)
    {capacity : Nat}
    (ttl : UInt32)
    (hcapacity : capacity ≤ storageIndexEntries)
    (past : List FlashOp)
    (event : NostrEvent)
    (env : CallEnv) :
    (finalState (flashStep lib) (erasedFlash capacity ttl hcapacity)
      (past ++ [FlashOp.run ⟨.save event, env⟩])).world =
        (storageSaveEvent lib env
          (finalState (flashStep lib) (erasedFlash capacity ttl hcapacity) past).world
          event).2 := by
  rw [finalState_snoc]
  rfl

section Saves

variable
  {lib : Libnostr}
  (hlib : lib.StorageLaws)
  (hcut : lib.TruncationLaw)
  {capacity : Nat}
  (ttl : UInt32)
  (hcapacity : capacity ≤ storageIndexEntries)
  (past : List FlashOp)
  {event : NostrEvent}
  {env : CallEnv}
  (hdurable : Durable capacity (past ++ [FlashOp.run ⟨.save event, env⟩]))
  (hsaves : flashSaves (past ++ [FlashOp.run ⟨.save event, env⟩]) < 2 ^ 32)
  (hok : (storageSaveEvent lib env
    (finalState (flashStep lib) (erasedFlash capacity ttl hcapacity) past).world
    event).1 = .storageOk)
include hdurable hsaves hok

/-- Right after the save, the records of the event on the flash are expired older ones. -/
theorem stored_of_saved
    (hclock : (times (past ++ [FlashOp.run ⟨.save event, env⟩])).Pairwise (· ≤ ·))
    {entries : List StorageIndexEntry}
    {next : UInt32}
    (hstored : Stored lib (past ++ [FlashOp.run ⟨.save event, env⟩])
      (finalState (flashStep lib) (erasedFlash capacity ttl hcapacity)
        (past ++ [FlashOp.run ⟨.save event, env⟩])) entries next)
    {e : StorageIndexEntry}
    (hmem : e ∈ live entries)
    (hid : e.eventId = event.id) :
    let before := (finalState (flashStep lib) (erasedFlash capacity ttl hcapacity) past).world
    e = newEntry lib env.now before.engine event ∨
      e.isExpired env.now = true ∧ e.fileIndex ≠ before.engine.nextFileIndex := by
  intro before
  have hinv := flashInv_run lib ttl hcapacity _ hdurable hsaves
  have hexpired := foundExpired_expired lib ttl hcapacity _ hclock
  rw [lastTime_run] at hexpired
  have hworld := world_of_saved lib ttl hcapacity past event env
  obtain ⟨hstoredMem, hlive⟩ := mem_live.mp hmem
  obtain ⟨i, hi⟩ := List.mem_iff_getElem?.mp hstoredMem
  obtain ⟨m, hm, hrel⟩ := hstored.trails.agree i e hi
  have hmMem := List.mem_of_getElem? hm
  rcases hrel with rfl | ⟨_, hfound, hmarked⟩
  · left
    rw [hworld] at hmMem
    exact eq_newEntry_of_saved hok (mem_live.mpr ⟨hmMem, hlive⟩) hid
  · right
    refine ⟨hexpired e hfound, ?_⟩
    intro hindex
    -- the new record has that running number, and it is not marked
    have hnew := newEntry_mem_of_saved hok
    rw [← hworld] at hnew
    have hsame := hstored.trails.listed hinv.index hstoredMem hnew hindex.symm
    have hnodup := hinv.index.nodup_fileIndex
    have hboth : e = m := by
      rw [← hsame]
      refine List.inj_on_of_nodup_map hnodup (mem_live.mp hnew).1 hmMem ?_
      rw [hsame, hmarked]
      rfl
    rw [hmarked] at hboth
    rw [hboth] at hlive
    simp at hlive

/-- After the save every live record of the event has its value or is an expired older one. -/
theorem dated_of_saved
    {later : List FlashOp}
    {lastEnv : CallEnv}
    (hlater : LaterRun lib capacity (past ++ [FlashOp.run ⟨.save event, env⟩])
      (finalState (flashStep lib) (erasedFlash capacity ttl hcapacity)
        (past ++ [FlashOp.run ⟨.save event, env⟩])) event.id later lastEnv) :
    let before := (finalState (flashStep lib) (erasedFlash capacity ttl hcapacity) past).world
    ∃ inUse kept, FlashInv lib capacity inUse kept
        ((past ++ [FlashOp.run ⟨.save event, env⟩]) ++ later)
        (finalState (flashStep lib) (finalState (flashStep lib)
          (erasedFlash capacity ttl hcapacity) (past ++ [FlashOp.run ⟨.save event, env⟩])) later) ∧
      ∀ e, inUse e → e.eventId = event.id →
        e.expiresAt = (newEntry lib env.now before.engine event).expiresAt ∨
          e.isExpired lastEnv.now = true ∧ e.fileIndex ≠ before.engine.nextFileIndex := by
  intro before
  have hinv := flashInv_run lib ttl hcapacity _ hdurable hsaves
  have hworld := world_of_saved lib ttl hcapacity past event env
  have hfirst : ∀ e ∈ live (finalState (flashStep lib) (erasedFlash capacity ttl hcapacity)
      (past ++ [FlashOp.run ⟨.save event, env⟩])).world.engine.visible, e.eventId = event.id →
      e = newEntry lib env.now before.engine event := by
    intro e hmem hid
    rw [hworld] at hmem
    exact eq_newEntry_of_saved hok hmem hid
  by_cases hrestart : ∃ op ∈ later, op.isRestart = true
  · -- an older record may come back from the flash
    have hclock := hlater.clock hrestart
    have htimes := (List.pairwise_append.mp hclock).1
    have hbefore : (times (past ++ [FlashOp.run ⟨.save event, env⟩])).Pairwise (· ≤ ·) := by
      rw [times, List.filterMap_append] at htimes
      exact (List.pairwise_append.mp htimes).1
    have hnow : env.now ≤ lastEnv.now := by
      refine (List.pairwise_append.mp hclock).2.2 env.now ?_ lastEnv.now (by simp)
      simp [times, FlashOp.time]
    refine ⟨fun e => e.eventId = event.id →
        e.expiresAt = (newEntry lib env.now before.engine event).expiresAt ∨
          e.isExpired env.now = true ∧ e.fileIndex ≠ before.engine.nextFileIndex,
      fun e => e.eventId = event.id →
        e.expiresAt = (newEntry lib env.now before.engine event).expiresAt ∨
          e.isExpired env.now = true ∧ e.fileIndex ≠ before.engine.nextFileIndex, ?_, ?_⟩
    · refine flashInv_later ⟨hinv.initialized, hinv.capacity_eq, hinv.index, hinv.owned,
        hinv.next_le, ?_, ?_⟩ (fun _ => id) later hlater.durable hlater.saves ?_
        (fun _ _ => id)
      · intro e hmem hid
        exact Or.inl (congrArg StorageIndexEntry.expiresAt (hfirst e hmem hid))
      · intro hpersists
        obtain ⟨entries, next, hstored, -⟩ := hinv.stored hpersists
        refine ⟨entries, next, hstored, ?_⟩
        intro e hmem hid
        exact (stored_of_saved ttl hcapacity past hdurable hsaves hok hbefore hstored hmem
          hid).imp_left (congrArg StorageIndexEntry.expiresAt)
      · intro result hresult other hother now engine hid
        exact absurd hid (hlater.unsaved result hresult other hother)
    · intro e he hid
      refine (he hid).imp_right ?_
      rintro ⟨hexpired, hindex⟩
      exact ⟨StorageIndexEntry.isExpired_mono hnow hexpired, hindex⟩
  · refine ⟨fun e => e.eventId = event.id →
        e.expiresAt = (newEntry lib env.now before.engine event).expiresAt, fun _ => True,
      ?_, fun e he hid => Or.inl (he hid)⟩
    refine flashInv_later ⟨hinv.initialized, hinv.capacity_eq, hinv.index, hinv.owned,
      hinv.next_le, ?_, ?_⟩ (fun _ _ => trivial) later hlater.durable hlater.saves ?_
      (fun h => absurd h hrestart)
    · intro e hmem hid
      exact congrArg StorageIndexEntry.expiresAt (hfirst e hmem hid)
    · intro hpersists
      obtain ⟨entries, next, hstored, -⟩ := hinv.stored hpersists
      exact ⟨entries, next, hstored, fun _ _ => trivial⟩
    · intro result hresult other hother now engine hid
      exact absurd hid (hlater.unsaved result hresult other hother)

include hlib hcut

/-- A save whose deadline fits keeps its deadline. -/
theorem keepsDeadline_of_fits
    (hsmall : env.now.toNat +
      (finalState (flashStep lib) (erasedFlash capacity ttl hcapacity)
        past).world.engine.defaultTtlSec.toNat < 2 ^ 32)
    (hfits : DeadlineFits env.now
      (finalState (flashStep lib) (erasedFlash capacity ttl hcapacity)
        past).world.engine.defaultTtlSec (lib.eventGetExpiration event)) :
    KeepsDeadline lib capacity past
      (finalState (flashStep lib) (erasedFlash capacity ttl hcapacity) past) event env
      (deadline env.now
        (finalState (flashStep lib) (erasedFlash capacity ttl hcapacity)
          past).world.engine.defaultTtlSec (lib.eventGetExpiration event)) := by
  have hrecorded := (recordedExpiry_eq_iff hsmall).mpr hfits.2
  have hpos := deadline_pos (lib.eventGetExpiration event) hfits.1
  refine ⟨⟨_, newEntry_mem_of_saved hok, rfl, hrecorded⟩, ?_⟩
  intro later lastEnv hlater
  have hstate : (flashStep lib
      (finalState (flashStep lib) (erasedFlash capacity ttl hcapacity) past)
      (.run ⟨.save event, env⟩)).2 =
        finalState (flashStep lib) (erasedFlash capacity ttl hcapacity)
          (past ++ [FlashOp.run ⟨.save event, env⟩]) := by
    rw [finalState_snoc]
  rw [hstate] at hlater ⊢
  obtain ⟨inUse, kept, hinv, hdated⟩ :=
    dated_of_saved ttl hcapacity past hdurable hsaves hok hlater
  rw [← hrecorded] at hpos ⊢
  exact honoursDeadline_of_dated hlib hcut hinv (by exact_mod_cast hpos)
    (fun e hmem hid => hdated e (hinv.known e hmem) hid)

omit hlib hcut in
/-- A save that keeps its deadline has one that fits. -/
theorem fits_of_keepsDeadline
    (hsmall : env.now.toNat +
      (finalState (flashStep lib) (erasedFlash capacity ttl hcapacity)
        past).world.engine.defaultTtlSec.toNat < 2 ^ 32)
    (hkeeps : KeepsDeadline lib capacity past
      (finalState (flashStep lib) (erasedFlash capacity ttl hcapacity) past) event env
      (deadline env.now
        (finalState (flashStep lib) (erasedFlash capacity ttl hcapacity)
          past).world.engine.defaultTtlSec (lib.eventGetExpiration event))) :
    DeadlineFits env.now
      (finalState (flashStep lib) (erasedFlash capacity ttl hcapacity)
        past).world.engine.defaultTtlSec (lib.eventGetExpiration event) := by
  obtain ⟨e, hmem, hid, hexpiry⟩ := hkeeps.recorded
  have hexpirationFits : ExpirationFits env.now
      (finalState (flashStep lib) (erasedFlash capacity ttl hcapacity)
        past).world.engine.defaultTtlSec (lib.eventGetExpiration event) := by
    refine (recordedExpiry_eq_iff hsmall).mp ?_
    rw [← hexpiry, eq_newEntry_of_saved hok hmem hid]
    rfl
  refine ⟨?_, hexpirationFits⟩
  by_contra hzero
  -- a deadline of zero is never honoured: a purge at time one drops nothing
  have hdue : deadline env.now
      (finalState (flashStep lib) (erasedFlash capacity ttl hcapacity)
        past).world.engine.defaultTtlSec (lib.eventGetExpiration event) = 0 := by
    unfold deadline
    split <;> omega
  have hnone := hkeeps.honoured [] (CallEnv.undisturbed 1)
    { durable := by rwa [List.append_nil]
      saves := by rwa [List.append_nil]
      unsaved := by simp [flashResults]
      clock := by simp }
  rw [hdue] at hnone hexpiry
  have hinv := flashInv_run lib ttl hcapacity _ hdurable hsaves
  rw [finalState_snoc] at hinv
  refine hnone.removed (by decide) e ?_ hid
  rw [finalState_nil, live_storagePurgeExpired lib _ hinv.initialized, List.mem_filter]
  refine ⟨hmem, ?_⟩
  have hexpiresAt : e.expiresAt = 0 := UInt32.toNat_inj.mp (by exact_mod_cast hexpiry)
  simp [StorageIndexEntry.isExpired, hexpiresAt]

/--
**The deadline of a save is kept exactly when it fits.**  The save succeeds after any run in which
no NVS call failed before a restart, and the clock with the retention time fits 32 bits.
-/
theorem deadline_kept_iff
    (hsmall : env.now.toNat +
      (finalState (flashStep lib) (erasedFlash capacity ttl hcapacity)
        past).world.engine.defaultTtlSec.toNat < 2 ^ 32) :
    let before := finalState (flashStep lib) (erasedFlash capacity ttl hcapacity) past
    KeepsDeadline lib capacity past before event env
        (deadline env.now before.world.engine.defaultTtlSec (lib.eventGetExpiration event)) ↔
      DeadlineFits env.now before.world.engine.defaultTtlSec
        (lib.eventGetExpiration event) :=
  ⟨fits_of_keepsDeadline ttl hcapacity past hdurable hsaves hok hsmall,
    keepsDeadline_of_fits hlib hcut ttl hcapacity past hdurable hsaves hok hsmall⟩

end Saves

/-- A save into an empty store in which nothing fails. -/
theorem save_ok_of_empty
    {lib : Libnostr}
    {capacity : Nat}
    (ttl : UInt32)
    (hcapacity : capacity ≤ storageIndexEntries)
    (hpos : 0 < capacity)
    {event : NostrEvent}
    (hser : (lib.eventSerialize event storageMaxEventSize).isSome = true)
    (now : UInt32) :
    (storageSaveEvent lib (CallEnv.undisturbed now)
      (erasedFlash capacity ttl hcapacity).world event).1 = .storageOk := by
  obtain ⟨json, hjson⟩ := Option.isSome_iff_exists.mp hser
  have hroom : (erasedFlash capacity ttl hcapacity).world.engine.indexCount <
      (erasedFlash capacity ttl hcapacity).world.engine.maxIndexEntries := by
    simpa [erasedFlash, emptyWorld, freshEngine, StorageEngine.maxIndexEntries] using hpos
  rw [storageSaveEvent_eq (CallEnv.undisturbed_succeeds now) rfl hjson, if_neg, dif_pos hroom]
  simp [findIndexEntry, erasedFlash, emptyWorld, freshEngine, StorageEngine.visible]

/-- A note that expires one hour after it is saved. -/
theorem deadline_kept_iff_one_hour :
    let event := Sample.expiring "1700003600"
    let lib := Sample.library [event]
    let before := erasedFlash 1000 1814400 (by decide)
    KeepsDeadline lib 1000 [] before event (CallEnv.undisturbed 1700000000)
        (deadline 1700000000 1814400 (lib.eventGetExpiration event)) ↔
      DeadlineFits 1700000000 1814400 (lib.eventGetExpiration event) := by
  intro event lib before
  have hids : ([event].map (·.id)).Nodup := List.nodup_singleton _
  exact deadline_kept_iff (Sample.library_storageLaws hids) (Sample.library_truncationLaw hids)
    1814400 (by decide) [] (durable_of_runs 1000 (by simp [FlashOp.isRestart])) (by decide)
    (save_ok_of_empty 1814400 (by decide) (by decide) (by decide +kernel) _)
    (by decide)

/--
A note saved in 2023 that asks to be kept until 2106 is saved, but the deadline recorded is
one second after the epoch.
-/
theorem late_expiration_is_cut :
    let event := Sample.expiring "4294967297"
    let lib := Sample.library [event]
    let before := erasedFlash 1000 1814400 (by decide)
    let env := CallEnv.undisturbed 1700000000
    (storageSaveEvent lib env before.world event).1 = .storageOk ∧
      ¬ KeepsDeadline lib 1000 [] before event env
        (deadline 1700000000 1814400 (lib.eventGetExpiration event)) := by
  intro event lib before env
  have hok : (storageSaveEvent lib env before.world event).1 = .storageOk :=
    save_ok_of_empty 1814400 (by decide) (by decide) (by decide +kernel) _
  refine ⟨hok, ?_⟩
  intro hkeeps
  have hfits := fits_of_keepsDeadline 1814400 (by decide) []
    (durable_of_runs 1000 (by simp [FlashOp.isRestart])) (by decide) hok (by decide) hkeeps
  have hvalue : (lib.eventGetExpiration event).toInt = 4294967297 := by
    decide +kernel
  have hexpiration := hfits.2
  unfold ExpirationFits at hexpiration
  rw [hvalue] at hexpiration
  revert hexpiration
  decide

end Storage
end WispRelay
