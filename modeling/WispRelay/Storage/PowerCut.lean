import WispRelay.Storage.AtomicSave
import WispRelay.Storage.Restart

/-!
# What a power cut loses

Power is cut after a run of operations, restarts and earlier power cuts.  What `storage_init`
then finds is the index as it was, without at most the nine records added last, and possibly
without the deleted flags that queries had set.  Running numbers of lost records are used
again, yet every record found that is live and not expired has the whole file of its event.
-/

namespace WispRelay
namespace Storage

open Runs

/-- The storage after a power cut at `now`, compared with the storage before it. -/
structure BoundedLoss
    (lib : Libnostr)
    (before : LoggedWorld)
    (now : UInt32)
    (after : StorageWorld) : Prop where
  shorter : after.engine.visible.length ≤ before.world.engine.visible.length
  atMostNine : before.world.engine.visible.length ≤ after.engine.visible.length + 9
  agree : ∀ (i : Nat) (e : StorageIndexEntry), after.engine.visible[i]? = some e →
    ∃ e', before.world.engine.visible[i]? = some e' ∧
      (e' = e ∨ MarkedBy (fun e => e ∈ before.foundExpired) e e')
  nextExceeds : ∀ e ∈ after.engine.visible,
    e.fileIndex.toNat < after.engine.nextFileIndex.toNat
  complete : ∀ e ∈ live after.engine.visible, e.isExpired now = false →
    ∃ event, before.owner e = some event ∧ Describes e event ∧
      Holds lib after.files (e.path lib) event

/-- The last clock reading does not exceed a clock that none exceeds. -/
theorem lastTime_le
    {ops : List FlashOp}
    {now : UInt32}
    (hnow : ∀ t ∈ times ops, t ≤ now) :
    lastTime ops ≤ now := by
  rcases List.eq_nil_or_concat (times ops) with hnil | ⟨front, last, hlast⟩
  · rw [lastTime, hnil]
    exact UInt32.zero_le
  · rw [lastTime, hlast, List.concat_eq_append, List.getLastD_concat]
    exact hnow last (by simp [hlast])

/-- What the flash holds bounds the loss. -/
theorem Stored.boundedLoss
    {lib : Libnostr}
    {past : List FlashOp}
    {w : LoggedWorld}
    {entries : List StorageIndexEntry}
    {next : UInt32}
    (h : Stored lib past w entries next)
    (hcalm : Calm past)
    {now : UInt32}
    (hnow : ∀ t ∈ times past, t ≤ now)
    {after : StorageWorld}
    (hvisible : after.engine.visible = entries)
    (hnext : after.engine.nextFileIndex = next)
    (hfiles : after.files = w.world.files) :
    BoundedLoss lib w now after := by
  subst hvisible hnext
  refine ⟨h.trails.length_le, ?_, h.trails.agree, h.index.below, ?_⟩
  · have hmissing := h.trails.missing
    omega
  · intro e hmem hlive
    obtain ⟨event, hevent, hdescribes, _, hlost | hholds⟩ := h.owned e hmem
    · rcases hlost with hwild | hexpired
      · exact absurd hcalm hwild
      · have hlater := StorageIndexEntry.isExpired_mono (lastTime_le hnow) hexpired
        rw [hlive] at hlater
        cases hlater
    · exact ⟨event, hevent, hdescribes, hfiles.symm ▸ hholds⟩

/-- **A power cut loses at most the nine newest records.** -/
theorem power_cut_loses_at_most_nine
    (lib : Libnostr)
    (capacity : Nat)
    (ttl : UInt32)
    (hcapacity : capacity ≤ storageIndexEntries)
    (ops : List FlashOp)
    (hpersists : ∀ op ∈ ops, op.Persists)
    (hstarts : ∀ op ∈ ops, op.Starts capacity)
    (hfiles : ∀ op ∈ ops, op.KeepsFiles)
    (hclock : (times ops).Pairwise (· ≤ ·))
    (hsaves : flashSaves ops < 2 ^ 32)
    (env : InitEnv)
    (henv : env.Succeeds)
    (hsame : initCapacity env = capacity)
    (ttl' now : UInt32)
    (hnow : ∀ t ∈ times ops, t ≤ now) :
    let before := finalState (flashStep lib) (erasedFlash capacity ttl hcapacity) ops
    BoundedLoss lib before now
      (storageInit env ttl' before.world.files before.world.nvs).2 := by
  intro before
  have hdurable : Durable capacity ops :=
    durable_of_persists fun op hop => ⟨hpersists op hop, hstarts op hop⟩
  have hinv : FlashInv lib capacity (fun _ => True) (fun _ => True) ops before :=
    flashInv_run lib ttl hcapacity ops hdurable hsaves
  obtain ⟨entries, next, hstored, -⟩ := hinv.stored hpersists
  have hfits : entries.length ≤ initCapacity env := by
    rw [hsame, ← hinv.capacity_eq]
    refine Nat.le_trans hstored.trails.length_le ?_
    rw [StorageEngine.visible_length]
    exact before.world.engine.indexCount_le
  obtain ⟨hvisible, hnext⟩ := hstored.holds.loads henv hfits ttl' before.world.files
  refine hstored.boundedLoss ⟨hfiles, hclock⟩ hnow hvisible hnext ?_
  rw [storageInit_eq henv]

/-- Two notes are saved, found expired by a query, and power is cut twice. -/
theorem power_cut_loses_at_most_nine_two_notes :
    let lib := Sample.library (Sample.notes 2)
    let ops : List FlashOp :=
      [.run ⟨.save (Sample.numbered 0), CallEnv.undisturbed 1700000000⟩,
        .restart none internalStart 1814400,
        .run ⟨.save (Sample.numbered 1), CallEnv.undisturbed 1700000001⟩,
        .run ⟨.purge, CallEnv.undisturbed 1700000002⟩,
        .run ⟨.query {} 10, CallEnv.undisturbed 1800000000⟩]
    let before := finalState (flashStep lib) (erasedFlash 1000 1814400 (by decide)) ops
    BoundedLoss lib before 1800000001
      (storageInit internalStart 1814400 before.world.files before.world.nvs).2 := by
  intro lib ops
  have hruns : ∀ op ∈ ops, op.Persists ∧ op.Starts 1000 ∧ op.KeepsFiles := by
    intro op hop
    simp only [ops, List.mem_cons, List.not_mem_nil, or_false] at hop
    rcases hop with rfl | rfl | rfl | rfl | rfl
    · exact ⟨fun _ => rfl, trivial, (CallEnv.undisturbed_succeeds _).toKeepsFiles⟩
    · exact ⟨by rintro _ ⟨⟩, ⟨internalStart_succeeds, rfl⟩, trivial⟩
    · exact ⟨fun _ => rfl, trivial, (CallEnv.undisturbed_succeeds _).toKeepsFiles⟩
    · exact ⟨fun _ => rfl, trivial, (CallEnv.undisturbed_succeeds _).toKeepsFiles⟩
    · exact ⟨fun _ => rfl, trivial, (CallEnv.undisturbed_succeeds _).toKeepsFiles⟩
  have htimes : times ops = [1700000000, 1700000001, 1700000002, 1800000000] := rfl
  have hnow : ∀ t ∈ times ops, t ≤ 1800000001 := by
    simp only [htimes, List.forall_mem_cons]
    exact ⟨by decide, by decide, by decide, by decide, List.forall_mem_nil _⟩
  exact power_cut_loses_at_most_nine lib 1000 1814400 (by decide) ops
    (fun op hop => (hruns op hop).1) (fun op hop => (hruns op hop).2.1)
    (fun op hop => (hruns op hop).2.2) (by decide) (by decide) internalStart
    internalStart_succeeds rfl 1814400 1800000001 hnow

end Storage
end WispRelay
