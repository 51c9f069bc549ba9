import WispRelay.Storage.Capacity

/-!
# The index in the NVS partition

The partition table gives the NVS store `0x6000` bytes.  A set that would make the stored data
exceed them fails; what other components have stored there counts as well.  Only the values
are counted, so the real store holds less.

* `storedBytes`, `partitionAnswers`: the data of the index and what the calls of a save answer.
* `Enveloped`: no blob is longer than in an index of some size that fits.  Growing and
  shrinking an index never needs more than the larger of the two sizes, even when blobs of an
  older index are left behind.
* `index_persistable_iff`: after every run the whole index can be persisted exactly when its
  records fit.
* `notes_beyond_partition_not_persisted`: the index of 473 notes, of 1000 that have a slot.
-/

namespace WispRelay
namespace Storage

open Runs

/-! ## Bytes stored -/

/-- The size of the NVS partition. -/
def nvsPartitionSize : Nat := 0x6000

/-- The length of a blob. -/
def blobBytes
    (nvs : NvsStore)
    (chunk : Nat) : Nat :=
  ((nvs.idx chunk).getD []).length

/-- The data under `count`, `next_idx` and the keys up to `idx_99`, which are all that exist. -/
def storedBytes
    (nvs : NvsStore) : Nat :=
  (if nvs.count.isSome then 2 else 0) + (if nvs.nextIdx.isSome then 4 else 0) +
    ∑ chunk ∈ Finset.range 100, blobBytes nvs chunk

/-- The answer to a set that would leave this store. -/
def answerFor
    (others : Nat)
    (nvs : NvsStore) : NvsOutcome :=
  if others + storedBytes nvs ≤ nvsPartitionSize then .ok else .fail

/--
What the calls of one save answer, each after those before it, when `others` bytes of the
partition hold other data and nothing but its size makes a call fail.
-/
def partitionAnswers
    (others : Nat)
    (engine : StorageEngine)
    (nvs : NvsStore) : NvsCall → NvsOutcome
  | .open => .ok
  | .setCount =>
      answerFor others
        { nvs with
          created := true
          count := some (UInt16.ofNat engine.indexCount) }
  | .setNextIdx => answerFor others (nvs.withHeader engine)
  | .setBlob chunk =>
      answerFor others ((nvs.withHeader engine).withChunks engine.visible 0 (chunk + 1))
  | .eraseKey _ => .ok
  | .commit => .ok

/-- The header takes 6 bytes and a record 52. -/
def FitsPartition
    (others : Nat)
    (engine : StorageEngine) : Prop :=
  others + 6 + entrySize * engine.indexCount ≤ nvsPartitionSize

/-- A save in the partition succeeds, and loading brings all records back. -/
def Persistable
    (others : Nat)
    (engine : StorageEngine)
    (nvs : NvsStore) : Prop :=
  (saveIndexToNvs (partitionAnswers others engine nvs) engine nvs).1 = .storageOk ∧
    ∀ readOk : NvsRead → Bool, (∀ call, readOk call = true) →
    ∀ reader : StorageEngine, reader.maxIndexEntries = engine.maxIndexEntries →
      (loadIndexFromNvs readOk reader
          (saveIndexToNvs (partitionAnswers others engine nvs) engine nvs).2).1 = true ∧
        (loadIndexFromNvs readOk reader
          (saveIndexToNvs (partitionAnswers others engine nvs) engine nvs).2).2.visible =
            engine.visible ∧
        (loadIndexFromNvs readOk reader
          (saveIndexToNvs (partitionAnswers others engine nvs) engine nvs).2).2.nextFileIndex =
            engine.nextFileIndex

section Bytes

variable
  {others : Nat}

theorem answerFor_eq_ok_iff
    {nvs : NvsStore} :
    answerFor others nvs = .ok ↔ others + storedBytes nvs ≤ nvsPartitionSize := by
  unfold answerFor
  split <;> simp_all

/-- The blobs hold all records up to where they end. -/
theorem sum_chunkEntries
    (count chunks : Nat) :
    ∑ chunk ∈ Finset.range chunks, chunkEntries count chunk = min count (chunkSize * chunks) := by
  induction chunks with
  | zero => simp
  | succ chunks ih =>
      rw [Finset.sum_range_succ, ih]
      simp only [chunkEntries, chunkSize, Nat.mul_succ]
      omega

theorem chunkEntries_mono
    {count count' : Nat}
    (hle : count ≤ count')
    (chunk : Nat) :
    chunkEntries count chunk ≤ chunkEntries count' chunk := by
  simp only [chunkEntries]
  omega

theorem blobBytes_withChunks
    (nvs : NvsStore)
    (entries : List StorageIndexEntry)
    (stop chunk : Nat) :
    blobBytes (nvs.withChunks entries 0 stop) chunk =
      if chunk < stop then chunkEntries entries.length chunk * entrySize
      else blobBytes nvs chunk := by
  simp only [blobBytes, NvsStore.withChunks, Nat.zero_le, true_and]
  split
  · rw [Option.getD_some, encodeEntries_length, chunkOf_length]
  · rfl

/-- The blobs are no longer than those of an index with so many records. -/
def Below
    (size : Nat)
    (nvs : NvsStore) : Prop :=
  ∀ chunk, blobBytes nvs chunk ≤ chunkEntries size chunk * entrySize

theorem Below.storedBytes_le
    {size : Nat}
    {nvs : NvsStore}
    (h : Below size nvs) :
    storedBytes nvs ≤ 6 + size * entrySize := by
  have hsum : ∑ chunk ∈ Finset.range 100, blobBytes nvs chunk ≤
      (∑ chunk ∈ Finset.range 100, chunkEntries size chunk) * entrySize := by
    rw [Finset.sum_mul]
    exact Finset.sum_le_sum fun chunk _ => h chunk
  rw [sum_chunkEntries] at hsum
  have hmin : min size (chunkSize * 100) * entrySize ≤ size * entrySize :=
    Nat.mul_le_mul_right _ (min_le_left _ _)
  unfold storedBytes
  split <;> split <;> omega

theorem Below.mono
    {size size' : Nat}
    {nvs : NvsStore}
    (h : Below size nvs)
    (hle : size ≤ size') :
    Below size' nvs :=
  fun chunk => (h chunk).trans (Nat.mul_le_mul_right _ (chunkEntries_mono hle chunk))

/-- Writing blobs of an index over those of another. -/
theorem Below.withChunks
    {size : Nat}
    {nvs : NvsStore}
    (h : Below size nvs)
    (entries : List StorageIndexEntry)
    (stop : Nat) :
    Below (max size entries.length) (nvs.withChunks entries 0 stop) := by
  intro chunk
  rw [blobBytes_withChunks]
  split
  · exact Nat.mul_le_mul_right _ (chunkEntries_mono (le_max_right _ _) chunk)
  · exact h.mono (le_max_left _ _) chunk

/-- The header and the first blobs of an index are stored. -/
theorem le_storedBytes
    (nvs : NvsStore)
    (engine : StorageEngine)
    {chunks : Nat}
    (hchunks : chunks ≤ 100) :
    6 + min engine.indexCount (chunkSize * chunks) * entrySize ≤
      storedBytes ((nvs.withHeader engine).withChunks engine.visible 0 chunks) := by
  have hsum : (∑ chunk ∈ Finset.range chunks, chunkEntries engine.indexCount chunk) * entrySize ≤
      ∑ chunk ∈ Finset.range 100,
        blobBytes ((nvs.withHeader engine).withChunks engine.visible 0 chunks) chunk := by
    rw [Finset.sum_mul]
    refine (Finset.sum_le_sum fun chunk hchunk => ?_).trans
      (Finset.sum_le_sum_of_subset (Finset.range_mono hchunks))
    rw [blobBytes_withChunks, if_pos (Finset.mem_range.mp hchunk),
      StorageEngine.visible_length]
  rw [sum_chunkEntries] at hsum
  have hheader : storedBytes ((nvs.withHeader engine).withChunks engine.visible 0 chunks) =
      6 + ∑ chunk ∈ Finset.range 100,
        blobBytes ((nvs.withHeader engine).withChunks engine.visible 0 chunks) chunk := rfl
  omega

end Bytes

/-! ## What a save needs -/

/-- The blobs are no longer than in an index of some size that fits. -/
def Enveloped
    (others : Nat)
    (nvs : NvsStore) : Prop :=
  ∃ size, Below size nvs ∧ others + 6 + size * entrySize ≤ nvsPartitionSize

/-- A predicate that holds up to a point, among finitely many. -/
theorem exists_boundary
    {P : Nat → Prop}
    (hdown : ∀ c c', c' ≤ c → P c → P c')
    (n : Nat) :
    ∃ k ≤ n, ∀ c < n, P c ↔ c < k := by
  induction n with
  | zero => exact ⟨0, Nat.le_refl _, fun c hc => absurd hc (Nat.not_lt_zero c)⟩
  | succ n ih =>
      obtain ⟨k, hk, hiff⟩ := ih
      by_cases hlast : P n
      · exact ⟨n + 1, Nat.le_refl _, fun c hc =>
          iff_of_true (hdown n c (Nat.le_of_lt_succ hc) hlast) hc⟩
      · refine ⟨k, Nat.le_succ_of_le hk, fun c hc => ?_⟩
        rcases Nat.eq_or_lt_of_le (Nat.le_of_lt_succ hc) with rfl | hlt
        · exact iff_of_false hlast (Nat.not_lt.mpr hk)
        · exact hiff c hlt

section Saves

variable
  {others : Nat}
  {engine : StorageEngine}
  {nvs : NvsStore}

theorem numChunks_le_hundred
    (engine : StorageEngine) :
    numChunks engine.indexCount ≤ 100 := by
  have hcount := engine.indexCount_le
  have hcap := engine.capacity_le
  simp only [storageIndexEntries] at hcap
  simp only [numChunks, chunkSize]
  omega

/-- In a store that is enveloped every call of a save of an index that fits succeeds. -/
theorem answers_ok
    (henv : Enveloped others nvs)
    (hfits : FitsPartition others engine)
    (call : NvsCall) :
    partitionAnswers others engine nvs call = .ok := by
  obtain ⟨size, hbelow, hsize⟩ := henv
  unfold FitsPartition at hfits
  have hmax : others + 6 + max size engine.indexCount * entrySize ≤ nvsPartitionSize := by
    rcases le_total size engine.indexCount with hle | hle
    · rw [max_eq_right hle, Nat.mul_comm]
      exact hfits
    · rwa [max_eq_left hle]
  have hok : ∀ after, Below (max size engine.indexCount) after →
      answerFor others after = .ok := by
    intro after hafter
    rw [answerFor_eq_ok_iff]
    have hstored := hafter.storedBytes_le
    omega
  cases call with
  | setCount => exact hok _ (hbelow.mono (le_max_left _ _))
  | setNextIdx => exact hok _ (hbelow.mono (le_max_left _ _))
  | setBlob chunk =>
      have hheader : Below size (nvs.withHeader engine) := hbelow
      have hwritten := hheader.withChunks engine.visible (chunk + 1)
      rw [StorageEngine.visible_length] at hwritten
      exact hok _ hwritten
  | «open» => rfl
  | eraseKey chunk => rfl
  | commit => rfl

/-- An index whose save succeeds fits. -/
theorem fits_of_storageOk
    (hok : (saveIndexToNvs (partitionAnswers others engine nvs) engine nvs).1 = .storageOk) :
    FitsPartition others engine := by
  unfold FitsPartition
  obtain ⟨hnext, hblobs⟩ := written_of_storageOk hok
  have hstored := le_storedBytes nvs engine (numChunks_le_hundred engine)
  rw [Nat.min_eq_left (le_chunkSize_mul_numChunks engine.indexCount), Nat.mul_comm] at hstored
  rcases Nat.eq_zero_or_pos (numChunks engine.indexCount) with hzero | hpos
  · rw [hzero, NvsStore.withChunks_self] at hstored
    have hfits := answerFor_eq_ok_iff.mp hnext
    omega
  · have hlast := hblobs (numChunks engine.indexCount - 1) (by omega)
    simp only [partitionAnswers, Nat.sub_add_cancel hpos] at hlast
    have hfits := answerFor_eq_ok_iff.mp hlast
    omega

/-- Whatever calls fail, a save in the partition leaves the store enveloped. -/
theorem Enveloped.save
    (henv : Enveloped others nvs)
    {outcome : NvsCall → NvsOutcome}
    (hobeys : ∀ call, outcome call = .ok → partitionAnswers others engine nvs call = .ok) :
    Enveloped others (saveIndexToNvs outcome engine nvs).2 := by
  obtain ⟨size, hbelow, hsize⟩ := henv
  -- the blobs below `written` are new, and the last of them fitted when it was written
  obtain ⟨written, hwritten, hiff⟩ := exists_boundary
    (P := BlobWritten outcome)
    (fun c c' hle h => ⟨h.1, h.2.1, h.2.2.1, fun d hd => h.2.2.2 d (by omega)⟩)
    (numChunks engine.indexCount)
  have hfits : others + 6 + min engine.indexCount (chunkSize * written) * entrySize ≤
      nvsPartitionSize := by
    cases written with
    | zero =>
        rw [Nat.mul_zero, Nat.min_zero, Nat.zero_mul]
        exact (Nat.le_add_right _ _).trans hsize
    | succ last =>
        have hlast := ((hiff last hwritten).mpr (Nat.lt_succ_self last)).2.2.2 last
          (Nat.lt_succ_self last)
        have hanswer := hobeys _ hlast
        rw [partitionAnswers, answerFor_eq_ok_iff] at hanswer
        have hstored := le_storedBytes nvs engine
          (hwritten.trans (numChunks_le_hundred engine))
        omega
  refine ⟨max size (min engine.indexCount (chunkSize * written)), fun chunk => ?_, ?_⟩
  · by_cases hchunk : chunk < numChunks engine.indexCount
    · rw [blobBytes, saveIndexToNvs_idx outcome engine nvs hchunk]
      by_cases hnew : chunk < written
      · rw [if_pos ((hiff chunk hchunk).mpr hnew), Option.getD_some, encodeEntries_length,
          chunkOf_length, StorageEngine.visible_length]
        refine Nat.mul_le_mul_right _ (le_trans ?_ (chunkEntries_mono (le_max_right _ _) chunk))
        have hbefore : chunkSize * (chunk + 1) ≤ chunkSize * written :=
          Nat.mul_le_mul_left _ hnew
        rw [Nat.mul_succ] at hbefore
        simp only [chunkEntries]
        omega
      · rw [if_neg fun h => hnew ((hiff chunk hchunk).mp h)]
        exact hbelow.mono (le_max_left _ _) chunk
    · rcases saveIndexToNvs_above outcome engine nvs (Nat.not_lt.mp hchunk) with hsame | hnone
      · rw [blobBytes, hsame]
        exact hbelow.mono (le_max_left _ _) chunk
      · rw [blobBytes, hnone]
        exact Nat.zero_le _
  · rcases le_total size (min engine.indexCount (chunkSize * written)) with hle | hle
    · rwa [max_eq_right hle]
    · rwa [max_eq_left hle]

/-- The index of a store that is enveloped can be persisted exactly when it fits. -/
theorem Enveloped.persistable_iff
    (henv : others + 6 ≤ nvsPartitionSize → Enveloped others nvs) :
    Persistable others engine nvs ↔ FitsPartition others engine := by
  constructor
  · rintro ⟨hok, -⟩
    exact fits_of_storageOk hok
  · intro hfits
    have hall := answers_ok (henv ((Nat.le_add_right _ _).trans hfits)) hfits
    have hok : (saveIndexToNvs (partitionAnswers others engine nvs) engine nvs).1 =
        .storageOk :=
      congrArg Prod.fst (saveIndexToNvs_eq _ engine nvs hall)
    refine ⟨hok, fun readOk hread reader hreader => ?_⟩
    have himage := (saveIndexToNvs_writes _ engine nvs).2 hok
    have hlength : engine.visible.length ≤ reader.maxIndexEntries := by
      rw [hreader, StorageEngine.visible_length]
      exact engine.indexCount_le
    obtain ⟨htrue, hvisible, hnext⟩ := load_image himage (by
      have hcount := engine.indexCount_add_chunk_lt
      rw [StorageEngine.visible_length]
      omega) hread reader (Or.inl hlength)
    rw [List.take_of_length_le hlength] at hvisible
    exact ⟨htrue, hvisible, hnext⟩

end Saves

/-! ## Runs in the partition -/

/--
An operation, or a stop, leaves the store alone, or its sets succeed only where the partition
has room; they and every other call may fail for any other reason.
-/
def InPartition
    (lib : Libnostr)
    (others : Nat)
    (w : LoggedWorld) : FlashOp → Prop
  | .run op =>
      (storageCall lib op.env w.world op.call).2.nvs = w.world.nvs ∨
        ∀ call, op.env.nvs call = .ok →
          partitionAnswers others (storageCall lib op.env w.world op.call).2.engine w.world.nvs
            call = .ok
  | .restart stop _ _ =>
      ∀ env, stop = some env → ∀ call, env.nvs call = .ok →
        partitionAnswers others w.world.engine w.world.nvs call = .ok

section Runs

variable
  {lib : Libnostr}
  {others : Nat}

/-- One operation keeps the store enveloped. -/
theorem Enveloped.step
    {w : LoggedWorld}
    (h : Enveloped others w.world.nvs)
    {op : FlashOp}
    (hop : InPartition lib others w op) :
    Enveloped others (flashStep lib w op).2.world.nvs := by
  cases op with
  | run op =>
      change Enveloped others (storageCall lib op.env w.world op.call).2.nvs
      rcases hop with hsame | hobeys
      · rw [hsame]
        exact h
      · rcases storageCall_nvs lib op.env w.world op.call with hsame | hsaved
        · rw [hsame]
          exact h
        · rw [hsaved]
          exact h.save hobeys
  | restart stop env ttl =>
      change Enveloped others (storageInit env ttl (stopped stop w.world).files
        (stopped stop w.world).nvs).2.nvs
      rw [storageInit_nvs]
      cases stop with
      | none => exact h
      | some off =>
          simp only [stopped, storageDestroy]
          split
          · exact h
          · exact h.save (hop off rfl)

/-- After every run in the partition the store is enveloped. -/
theorem enveloped_of_run
    {capacity : Nat}
    (ttl : UInt32)
    (hcapacity : capacity ≤ storageIndexEntries)
    (hheader : others + 6 ≤ nvsPartitionSize)
    {ops : List FlashOp}
    (hops : Admits (flashStep lib) (InPartition lib others)
      (erasedFlash capacity ttl hcapacity) ops) :
    Enveloped others
      (finalState (flashStep lib) (erasedFlash capacity ttl hcapacity) ops).world.nvs :=
  hops.invariant (fun w => Enveloped others w.world.nvs)
    ⟨0, fun _ => Nat.zero_le _, by rwa [Nat.zero_mul]⟩ fun _ _ hop h => h.step hop

end Runs

/--
**The index can be persisted exactly when its records fit.**  For both sizes of the array,
whatever else the partition holds, after every run of operations, stops, power cuts and starts
whose NVS calls obey the partition.
-/
theorem index_persistable_iff
    (lib : Libnostr)
    (others : Nat)
    {capacity : Nat}
    (ttl : UInt32)
    (hcapacity : capacity ≤ storageIndexEntries)
    (ops : List FlashOp)
    (hops : Admits (flashStep lib) (InPartition lib others)
      (erasedFlash capacity ttl hcapacity) ops) :
    let world := (finalState (flashStep lib) (erasedFlash capacity ttl hcapacity) ops).world
    Persistable others world.engine world.nvs ↔ FitsPartition others world.engine := by
  intro world
  exact Enveloped.persistable_iff fun hheader => enveloped_of_run ttl hcapacity hheader hops

/-- The first notes are saved in a partition that holds nothing else. -/
theorem notes_inPartition
    {lib : Libnostr}
    {n : Nat}
    (hn : n ≤ 473)
    (hser : ∀ i < n, (lib.eventSerialize (Sample.numbered i) storageMaxEventSize).isSome = true) :
    Admits (flashStep lib) (InPartition lib 0) (erasedFlash 1000 1814400 thousandSlots)
      ((List.range n).map saveNote) := by
  induction n with
  | zero =>
      intro past i hpast
      simp at hpast
  | succ n ih =>
      have hbefore := ih (by omega) fun i hi => hser i (by omega)
      have hnotes := holdsNotes_noteStore lib (by omega) fun i hi => hser i (Nat.lt_succ_of_lt hi)
      rw [List.range_succ, List.map_append, List.map_singleton]
      refine hbefore.snoc ?_
      obtain ⟨json, hjson⟩ := Option.isSome_iff_exists.mp (hser n (Nat.lt_succ_self n))
      have hroom : (noteStore lib n).world.engine.indexCount <
          (noteStore lib n).world.engine.maxIndexEntries := by
        rw [hnotes.indexCount, hnotes.maxIndexEntries]
        omega
      have hsave := storageSaveEvent_eq (CallEnv.undisturbed_succeeds 1700000000)
        hnotes.initialized hjson
      rw [hnotes.fresh (by omega), if_neg (by simp), dif_pos hroom] at hsave
      change (storageSaveEvent lib (CallEnv.undisturbed 1700000000) (noteStore lib n).world
          (Sample.numbered n)).2.nvs = (noteStore lib n).world.nvs ∨
        ∀ call, NvsOutcome.ok = .ok → partitionAnswers 0 (storageSaveEvent lib
          (CallEnv.undisturbed 1700000000) (noteStore lib n).world (Sample.numbered n)).2.engine
            (noteStore lib n).world.nvs call = .ok
      rw [hsave]
      have hcount : (appendWorld lib (CallEnv.undisturbed 1700000000) (noteStore lib n).world
          (Sample.numbered n) json hroom).engine.indexCount = n + 1 :=
        congrArg (· + 1) hnotes.indexCount
      by_cases htenth : (n + 1) % 10 = 0
      · -- the index is saved for the last time when it holds 470 records
        right
        intro call _
        refine answers_ok (enveloped_of_run 1814400 thousandSlots (by decide) hbefore) ?_ call
        rw [FitsPartition, persistEveryTenth_engine, hcount]
        simp only [entrySize, nvsPartitionSize]
        omega
      · left
        rw [persistEveryTenth, hcount, if_neg htenth]
        rfl

/-- The notes fit as long as there are at most 472. -/
theorem fitsPartition_notes_iff
    {lib : Libnostr}
    {n : Nat}
    (hn : n ≤ 1000)
    (hser : ∀ i < n, (lib.eventSerialize (Sample.numbered i) storageMaxEventSize).isSome = true) :
    FitsPartition 0 (noteStore lib n).world.engine ↔ n ≤ 472 := by
  rw [FitsPartition, (holdsNotes_noteStore lib hn hser).indexCount]
  simp only [entrySize, nvsPartitionSize]
  omega

/-- The index of 472 notes is persisted. -/
theorem index_persistable_iff_notes :
    Persistable 0 (noteStore (Sample.library (Sample.notes 472)) 472).world.engine
      (noteStore (Sample.library (Sample.notes 472)) 472).world.nvs :=
  (index_persistable_iff (Sample.library (Sample.notes 472)) 0 1814400 thousandSlots
    ((List.range 472).map saveNote) (notes_inPartition (by omega) serialize_notes)).mpr
    ((fitsPartition_notes_iff (by omega) serialize_notes).mpr (Nat.le_refl 472))

/-- One note more: there is a slot for it, but the index cannot be persisted. -/
theorem not_persistable_of_notes
    {lib : Libnostr}
    {n : Nat}
    (hn : n = 473)
    (hser : ∀ i < n, (lib.eventSerialize (Sample.numbered i) storageMaxEventSize).isSome = true) :
    Admits (flashStep lib) (InPartition lib 0) (erasedFlash 1000 1814400 thousandSlots)
        ((List.range n).map saveNote) ∧
      (noteStore lib n).world.engine.indexCount < (noteStore lib n).world.engine.maxIndexEntries ∧
      (saveIndexToNvs (partitionAnswers 0 (noteStore lib n).world.engine
        (noteStore lib n).world.nvs) (noteStore lib n).world.engine
        (noteStore lib n).world.nvs).1 ≠ .storageOk ∧
      ¬ Persistable 0 (noteStore lib n).world.engine (noteStore lib n).world.nvs := by
  have hnotes := holdsNotes_noteStore lib (by omega) hser
  have hlarge : ¬ FitsPartition 0 (noteStore lib n).world.engine := by
    rw [fitsPartition_notes_iff (by omega) hser]
    omega
  refine ⟨notes_inPartition (by omega) hser, ?_, fun hok => hlarge (fits_of_storageOk hok),
    fun h => hlarge (fits_of_storageOk h.1)⟩
  rw [hnotes.indexCount, hnotes.maxIndexEntries]
  omega

/-- The index of 473 notes has room in the array of 1000 slots and cannot be persisted. -/
theorem notes_beyond_partition_not_persisted :
    let lib := Sample.library (Sample.notes 473)
    let world := (noteStore lib 473).world
    Admits (flashStep lib) (InPartition lib 0) (erasedFlash 1000 1814400 thousandSlots)
        ((List.range 473).map saveNote) ∧
      world.engine.indexCount < world.engine.maxIndexEntries ∧
      (saveIndexToNvs (partitionAnswers 0 world.engine world.nvs) world.engine world.nvs).1 ≠
        .storageOk ∧
      ¬ Persistable 0 world.engine world.nvs :=
  not_persistable_of_notes rfl serialize_notes

end Storage
end WispRelay
