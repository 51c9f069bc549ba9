import WispRelay.Storage.Persistence

/-!
# When saving the index is atomic

`save_index_to_nvs` overwrites the keys of the index in place: the count, the running number,
then blob after blob.  A save that stops in between leaves the new count next to old blobs.

* `AtomicFor`: the pairs of indexes for which every way to stop leaves either index.  The old
  index is any the flash holds (`Image`), with whatever an older and longer one left behind it:
  the erasing loop stops at the first key that is missing.
* `save_atomic_iff`: these pairs and no others.
* `grown_index_is_lost`: an index of ten records is saved with ten more, and power is cut after
  the count was written; `storage_init` finds nothing.
-/

namespace WispRelay
namespace Storage

/-- The records that differ lie in one blob. -/
def DifferInOneBlob
    (old new : List StorageIndexEntry) : Prop :=
  ∃ chunk, ∀ i, i / chunkSize ≠ chunk → old[i]? = new[i]?

/-- The blobs from `chunk` on that an index of `count` records needs all have its lengths. -/
def TrailFits
    (nvs : NvsStore)
    (count chunk : Nat) : Prop :=
  ∀ c, chunk ≤ c → c < numChunks count → BlobFits nvs count c

/--
The pairs of indexes for which a save that stops early leaves one of the two.  When the index
grows, blobs of an older and longer index may lie behind those of the old one: where they would
be read with the new count, they must hold the new records already.
-/
def AtomicFor
    (nvs : NvsStore)
    (old : List StorageIndexEntry)
    (oldNext : UInt32)
    (new : List StorageIndexEntry)
    (newNext : UInt32) : Prop :=
  (old.length = new.length ∧
    (old = new ∨ oldNext = newNext ∧ DifferInOneBlob old new)) ∨
  (new.length < old.length ∧ chunkSize ∣ new.length ∧ oldNext = newNext ∧
    new = old.take new.length) ∨
  (old.length < new.length ∧
    (TrailFits nvs new.length 0 → oldNext = newNext) ∧
    (¬ TrailFits nvs new.length 0 → old = [] ∧ oldNext = 0) ∧
    ∀ chunk < numChunks new.length, TrailFits nvs new.length chunk →
      recordsIn nvs new.length chunk = chunkOf new chunk)

/-! ## Indexes that are half written -/

section Mixed

variable
  {old new : List StorageIndexEntry}

/-- The records after some blobs of an index of the same length were overwritten. -/
def mixed
    (old new : List StorageIndexEntry)
    (written : Nat) : List StorageIndexEntry :=
  new.take (chunkSize * written) ++ old.drop (chunkSize * written)

theorem mixed_length
    (hlen : old.length = new.length)
    (written : Nat) :
    (mixed old new written).length = new.length := by
  simp only [mixed, List.length_append, List.length_take, List.length_drop, hlen]
  omega

/-- Positions below the boundary come from the new index, the others from the old one. -/
theorem getElem?_mixed
    (hlen : old.length = new.length)
    (written i : Nat) :
    (mixed old new written)[i]? =
      if i < chunkSize * written then new[i]? else old[i]? := by
  unfold mixed
  by_cases hi : i < chunkSize * written
  · rw [if_pos hi]
    by_cases hin : i < new.length
    · rw [List.getElem?_append_left (by rw [List.length_take]; omega), List.getElem?_take,
        if_pos hi]
    · rw [List.getElem?_eq_none (by simp; omega), List.getElem?_eq_none (by omega)]
  · rw [if_neg hi]
    by_cases hin : i < old.length
    · rw [List.getElem?_append_right (by rw [List.length_take]; omega), List.length_take,
        List.getElem?_drop]
      congr 1
      omega
    · rw [List.getElem?_eq_none (by simp; omega), List.getElem?_eq_none (by omega)]

/-- The blobs of a half-written index are new up to the boundary and old beyond it. -/
theorem chunkOf_mixed
    (hlen : old.length = new.length)
    (written chunk : Nat) :
    chunkOf (mixed old new written) chunk =
      if chunk < written then chunkOf new chunk else chunkOf old chunk := by
  apply List.ext_getElem?
  intro i
  by_cases hchunk : chunk < written
  · rw [if_pos hchunk]
    simp only [chunkOf, List.getElem?_take, List.getElem?_drop, getElem?_mixed hlen]
    split
    · rw [if_pos (by simp only [chunkSize] at *; omega)]
    · rfl
  · rw [if_neg hchunk]
    simp only [chunkOf, List.getElem?_take, List.getElem?_drop, getElem?_mixed hlen]
    split
    · rw [if_neg (by simp only [chunkSize] at *; omega)]
    · rfl

/-- With all blobs written nothing of the old index is left. -/
theorem mixed_of_numChunks_le
    (hlen : old.length = new.length)
    {written : Nat}
    (hle : numChunks new.length ≤ written) :
    mixed old new written = new := by
  apply List.ext_getElem?
  intro i
  rw [getElem?_mixed hlen]
  split
  · rfl
  · have hall := le_chunkSize_mul_numChunks new.length
    have hmul : chunkSize * numChunks new.length ≤ chunkSize * written :=
      Nat.mul_le_mul_left _ hle
    rw [List.getElem?_eq_none (by omega), List.getElem?_eq_none (by omega)]

/-- Every half-written index is one of the two exactly when they differ in one blob. -/
theorem mixed_eq_iff
    (hlen : old.length = new.length) :
    (∀ written, mixed old new written = old ∨ mixed old new written = new) ↔
      DifferInOneBlob old new := by
  constructor
  · intro hall
    by_cases hsame : ∀ i : Nat, old[i]? = new[i]?
    · exact ⟨0, fun i _ => hsame i⟩
    · -- the blob of the first position where they differ
      push Not at hsame
      classical
      refine ⟨Nat.find hsame / chunkSize, ?_⟩
      intro i hi
      by_cases hbefore : i < Nat.find hsame
      · exact not_not.mp (Nat.find_min hsame hbefore)
      · have hdiffer := Nat.find_spec hsame
        rcases hall (Nat.find hsame / chunkSize + 1) with hold | hnew
        · have hat := congrArg (fun l => l[Nat.find hsame]?) hold
          rw [getElem?_mixed hlen, if_pos (by simp only [chunkSize]; omega)] at hat
          exact absurd hat.symm hdiffer
        · have hat := congrArg (fun l => l[i]?) hnew
          rwa [getElem?_mixed hlen, if_neg (by simp only [chunkSize] at *; omega)] at hat
  · rintro ⟨chunk, hsame⟩ written
    by_cases hlt : chunk < written
    · right
      apply List.ext_getElem?
      intro i
      rw [getElem?_mixed hlen]
      split
      · rfl
      · refine hsame i ?_
        simp only [chunkSize] at *
        omega
    · left
      apply List.ext_getElem?
      intro i
      rw [getElem?_mixed hlen]
      split
      · refine (hsame i ?_).symm
        simp only [chunkSize] at *
        omega
      · rfl

end Mixed

/-! ## What a save that stops leaves -/

section Stopped

variable
  {nvs : NvsStore}
  {old : List StorageIndexEntry}
  {oldNext : UInt32}
  {engine : StorageEngine}

/-- The writing loop stops before the blob whose call fails. -/
theorem writeChunks_stop
    (entries : List StorageIndexEntry)
    (at_ : Nat)
    (remaining : Nat) :
    ∀ (chunk : Nat) (nvs : NvsStore),
      chunk ≤ at_ → at_ < chunk + remaining →
      writeChunks (fun call => if call = .setBlob at_ then .fail else .ok) entries remaining
          chunk nvs =
        (some .storageErrIo, nvs.withChunks entries chunk at_) := by
  induction remaining with
  | zero =>
      intro chunk nvs hle hlt
      omega
  | succ remaining ih =>
      intro chunk nvs hle hlt
      unfold writeChunks
      by_cases hhere : chunk = at_
      · subst hhere
        simp [NvsOutcome.stop, NvsStore.withChunks_self]
      · have hne : NvsCall.setBlob chunk ≠ NvsCall.setBlob at_ := by
          intro heq
          exact hhere (NvsCall.setBlob.inj heq)
        simp only [if_neg hne, NvsOutcome.stop]
        rw [ih (chunk + 1) _ (by omega) (by omega),
          nvs.setBlob_withChunks entries (by omega)]

/-- The contents after a save that fails before the blob `at_`. -/
theorem saveIndexToNvs_stop
    (nvs : NvsStore)
    {at_ : Nat}
    (hat : at_ < numChunks engine.indexCount) :
    (saveIndexToNvs (fun call => if call = .setBlob at_ then .fail else .ok) engine nvs).2 =
      (nvs.withHeader engine).withChunks engine.visible 0 at_ := by
  have hrun := writeChunks_stop engine.visible at_ (numChunks engine.indexCount) 0
    (nvs.withHeader engine) (Nat.zero_le _) (by omega)
  unfold NvsStore.withHeader at hrun
  unfold saveIndexToNvs
  simp only [reduceCtorEq, if_false, NvsOutcome.stop, hrun]
  rfl

/-- Overwriting blobs of an index of the same length gives the image of a mixed index. -/
theorem image_mixed
    (himage : Image nvs old oldNext)
    (hlen : old.length = engine.indexCount)
    {after : NvsStore}
    {written : Nat}
    (hcreated : after.created = true)
    (hcount : after.count = some (UInt16.ofNat engine.indexCount))
    (hnext : after.nextIdx = some engine.nextFileIndex)
    (hnew : ∀ chunk < written,
      after.idx chunk = some (encodeEntries (chunkOf engine.visible chunk)))
    (hold : ∀ chunk, written ≤ chunk → chunk < numChunks engine.indexCount →
      after.idx chunk = nvs.idx chunk) :
    Image after (mixed old engine.visible written) engine.nextFileIndex := by
  have hvisible : old.length = engine.visible.length := by
    rw [hlen, StorageEngine.visible_length]
  have hmixed := mixed_length hvisible written
  rw [StorageEngine.visible_length] at hmixed
  refine ⟨hcreated, by rw [hmixed, hcount], hnext, ?_⟩
  intro chunk hchunk
  rw [hmixed] at hchunk
  rw [chunkOf_mixed hvisible]
  split
  · rename_i hlt
    exact hnew chunk hlt
  · rename_i hge
    rw [hold chunk (by omega) hchunk]
    exact himage.blobs chunk (by rwa [hlen])

/-- Cutting an index at a blob boundary keeps the blobs before it. -/
theorem chunkOf_take
    {entries : List StorageIndexEntry}
    {count chunk : Nat}
    (hdvd : chunkSize ∣ count)
    (hchunk : chunk < numChunks count) :
    chunkOf (entries.take count) chunk = chunkOf entries chunk := by
  rw [lt_numChunks_iff] at hchunk
  obtain ⟨k, rfl⟩ := hdvd
  apply List.ext_getElem?
  intro i
  simp only [chunkOf, List.getElem?_take, List.getElem?_drop]
  split
  · rw [if_pos (by simp only [chunkSize] at *; omega)]
  · rfl

/-- A shorter count over the blobs of a longer index, at a blob boundary. -/
theorem image_take
    (himage : Image nvs old oldNext)
    (hlt : engine.indexCount < old.length)
    (hdvd : chunkSize ∣ engine.indexCount)
    {after : NvsStore}
    {next : UInt32}
    (hcreated : after.created = true)
    (hcount : after.count = some (UInt16.ofNat engine.indexCount))
    (hnext : after.nextIdx = some next)
    (hidx : ∀ chunk < numChunks engine.indexCount, after.idx chunk = nvs.idx chunk) :
    Image after (old.take engine.indexCount) next := by
  have hlength : (old.take engine.indexCount).length = engine.indexCount := by
    rw [List.length_take]
    omega
  refine ⟨hcreated, by rw [hlength, hcount], hnext, ?_⟩
  intro chunk hchunk
  rw [hlength] at hchunk
  rw [hidx chunk hchunk, himage.blobs chunk, chunkOf_take hdvd hchunk]
  rw [lt_numChunks_iff] at hchunk ⊢
  omega

/-- A save that is cut after the count was written. -/
theorem saveIndexToNvs_counted
    (nvs : NvsStore) :
    (saveIndexToNvs (fun call => if call = .setNextIdx then .cut else .ok) engine nvs).2 =
      { nvs with
        created := true
        count := some (UInt16.ofNat engine.indexCount) } := by
  simp [saveIndexToNvs, NvsOutcome.stop]

/-- A blob the save wrote is read as its records. -/
theorem recordsIn_of_written
    {after : NvsStore}
    {written : Nat}
    (hnew : ∀ chunk < written,
      after.idx chunk = some (encodeEntries (chunkOf engine.visible chunk)))
    {chunk : Nat}
    (hchunk : chunk < written) :
    recordsIn after engine.indexCount chunk = chunkOf engine.visible chunk := by
  have hlength := chunkOf_length engine.visible chunk
  rw [StorageEngine.visible_length] at hlength
  rw [recordsIn, hnew chunk hchunk, Option.getD_some, ← hlength, decodeEntries_encodeEntries]

/-- The blobs have their lengths when those the save did not get to have them. -/
theorem blobFits_of_written
    {after : NvsStore}
    {written : Nat}
    (hnew : ∀ chunk < written,
      after.idx chunk = some (encodeEntries (chunkOf engine.visible chunk)))
    (hold : ∀ chunk, written ≤ chunk → chunk < numChunks engine.indexCount →
      after.idx chunk = nvs.idx chunk)
    (htrail : TrailFits nvs engine.indexCount written)
    (chunk : Nat)
    (hchunk : chunk < numChunks engine.indexCount) :
    BlobFits after engine.indexCount chunk := by
  by_cases hbefore : chunk < written
  · refine ⟨_, hnew chunk hbefore, ?_⟩
    rw [encodeEntries_length, chunkOf_length, StorageEngine.visible_length]
  · rw [BlobFits, hold chunk (by omega) hchunk]
    exact htrail chunk (by omega) hchunk

/-- Contents that are read blob for blob as the index are loaded as the index. -/
theorem loads_visible
    {env : InitEnv}
    (henv : env.Succeeds)
    (ttl : UInt32)
    (files : Files)
    (engine : StorageEngine)
    {after : NvsStore}
    {next : UInt32}
    (hcreated : after.created = true)
    (hcount : after.count = some (UInt16.ofNat engine.indexCount))
    (hnext : after.nextIdx = some next)
    (hfits : engine.indexCount ≤ initCapacity env)
    (hblobs : ∀ chunk < numChunks engine.indexCount, BlobFits after engine.indexCount chunk)
    (hrecords : ∀ chunk < numChunks engine.indexCount,
      recordsIn after engine.indexCount chunk = chunkOf engine.visible chunk) :
    Loads env ttl files after engine.visible next := by
  have hloads := loads_records henv ttl files hcreated hcount hnext hfits hblobs
  have hall := flatMap_recordsIn_eq_iff after engine.visible
  rw [StorageEngine.visible_length] at hall
  rwa [hall.mpr hrecords] at hloads

theorem Loads.unique
    {env : InitEnv}
    {ttl : UInt32}
    {files : Files}
    {entries entries' : List StorageIndexEntry}
    {next next' : UInt32}
    (h : Loads env ttl files nvs entries next)
    (h' : Loads env ttl files nvs entries' next') :
    entries = entries' ∧ next = next' :=
  ⟨h.1.symm.trans h'.1, h.2.symm.trans h'.2⟩

end Stopped

/-! ## The pairs of indexes saved atomically -/

section Atomic

variable
  {env : InitEnv}
  (henv : env.Succeeds)
  (ttl : UInt32)
  (files : Files)
  {nvs : NvsStore}
  {old : List StorageIndexEntry}
  {oldNext : UInt32}
  (himage : Image nvs old oldNext)
  (engine : StorageEngine)
  (hcapacity : engine.maxIndexEntries = initCapacity env)
  (hfits : old.length ≤ initCapacity env)
include henv himage hcapacity hfits

omit hcapacity in
/-- Indexes of the same length. -/
theorem atomic_of_same_length
    (hlen : old.length = engine.visible.length)
    (hdiffer : old = engine.visible ∨
      oldNext = engine.nextFileIndex ∧ DifferInOneBlob old engine.visible)
    {after : NvsStore}
    (hwrites : NvsWrites engine nvs after) :
    Loads env ttl files after old oldNext ∨
      Loads env ttl files after engine.visible engine.nextFileIndex := by
  have hcount : old.length = engine.indexCount := by
    rw [hlen, StorageEngine.visible_length]
  cases hwrites with
  | untouched => exact Or.inl (loads_image henv ttl files himage hfits)
  | opened =>
      exact Or.inl (loads_image henv ttl files
        ⟨rfl, himage.count, himage.nextIdx, himage.blobs⟩ hfits)
  | counted =>
      exact Or.inl (loads_image henv ttl files
        ⟨rfl, by rw [hcount], himage.nextIdx, himage.blobs⟩ hfits)
  | chunks written hwritten hcreated hstored hnext hnew hold =>
      have hmixed := loads_image henv ttl files
        (image_mixed himage hcount hcreated hstored hnext hnew hold)
        (by rw [mixed_length hlen, ← hlen]; exact hfits)
      rcases hdiffer with hsame | ⟨hnextEq, hone⟩
      · right
        rw [hsame, mixed, List.take_append_drop] at hmixed
        exact hmixed
      · rcases (mixed_eq_iff hlen).mpr hone written with heq | heq
        · rw [heq, ← hnextEq] at hmixed
          exact Or.inl hmixed
        · rw [heq] at hmixed
          exact Or.inr hmixed

/-- A shorter index that is the old one cut at a blob boundary. -/
theorem atomic_of_take
    (hlt : engine.indexCount < old.length)
    (hdvd : chunkSize ∣ engine.indexCount)
    (hnextEq : oldNext = engine.nextFileIndex)
    (htake : engine.visible = old.take engine.indexCount)
    {after : NvsStore}
    (hwrites : NvsWrites engine nvs after) :
    Loads env ttl files after old oldNext ∨
      Loads env ttl files after engine.visible engine.nextFileIndex := by
  have hvisible : engine.visible.length ≤ initCapacity env := by
    rw [StorageEngine.visible_length, ← hcapacity]
    exact engine.indexCount_le
  cases hwrites with
  | untouched => exact Or.inl (loads_image henv ttl files himage hfits)
  | opened =>
      exact Or.inl (loads_image henv ttl files
        ⟨rfl, himage.count, himage.nextIdx, himage.blobs⟩ hfits)
  | counted =>
      right
      rw [htake, ← hnextEq]
      refine loads_image henv ttl files
        (image_take himage hlt hdvd rfl rfl himage.nextIdx fun _ _ => rfl) ?_
      rwa [← htake]
  | chunks written hwritten hcreated hstored hnext hnew hold =>
      right
      have hidx : ∀ chunk < numChunks engine.indexCount, after.idx chunk = nvs.idx chunk := by
        intro chunk hchunk
        by_cases hbefore : chunk < written
        · rw [hnew chunk hbefore, htake, chunkOf_take hdvd hchunk, himage.blobs chunk]
          rw [lt_numChunks_iff] at hchunk ⊢
          omega
        · exact hold chunk (by omega) hchunk
      rw [htake]
      refine loads_image henv ttl files
        (image_take himage hlt hdvd hcreated hstored hnext hidx) ?_
      rwa [← htake]

/-- A longer index, where what is left of older ones is harmless. -/
theorem atomic_of_longer
    (hnextEq : TrailFits nvs engine.indexCount 0 → oldNext = engine.nextFileIndex)
    (hempty : ¬ TrailFits nvs engine.indexCount 0 → old = [] ∧ oldNext = 0)
    (hrecords : ∀ chunk < numChunks engine.indexCount, TrailFits nvs engine.indexCount chunk →
      recordsIn nvs engine.indexCount chunk = chunkOf engine.visible chunk)
    {after : NvsStore}
    (hwrites : NvsWrites engine nvs after) :
    Loads env ttl files after old oldNext ∨
      Loads env ttl files after engine.visible engine.nextFileIndex := by
  have hvisible : engine.indexCount ≤ initCapacity env := by
    rw [← hcapacity]
    exact engine.indexCount_le
  cases hwrites with
  | untouched => exact Or.inl (loads_image henv ttl files himage hfits)
  | opened =>
      exact Or.inl (loads_image henv ttl files
        ⟨rfl, himage.count, himage.nextIdx, himage.blobs⟩ hfits)
  | counted =>
      -- no blob is written yet
      by_cases htrail : TrailFits nvs engine.indexCount 0
      · right
        rw [← hnextEq htrail]
        refine loads_visible henv ttl files engine rfl rfl himage.nextIdx hvisible
          (htrail · (Nat.zero_le _)) fun chunk hchunk => hrecords chunk hchunk ?_
        exact fun c _ => htrail c (Nat.zero_le _)
      · left
        obtain ⟨hold, hzero⟩ := hempty htrail
        simp only [TrailFits, not_forall] at htrail
        obtain ⟨chunk, -, hchunk, hunfit⟩ := htrail
        rw [hold, hzero]
        exact loads_nothing henv ttl files rfl rfl himage.nextIdx hvisible chunk hchunk hunfit
  | chunks written hwritten hcreated hstored hnext hnew hold =>
      by_cases htrail : TrailFits nvs engine.indexCount written
      · right
        refine loads_visible henv ttl files engine hcreated hstored hnext hvisible
          (blobFits_of_written hnew hold htrail) ?_
        intro chunk hchunk
        by_cases hbefore : chunk < written
        · exact recordsIn_of_written hnew hbefore
        · rw [recordsIn, hold chunk (by omega) hchunk]
          exact hrecords chunk hchunk fun c hge => htrail c (by omega)
      · left
        obtain ⟨hold', hzero⟩ := hempty fun hall =>
          htrail fun c _ => hall c (Nat.zero_le _)
        simp only [TrailFits, not_forall] at htrail
        obtain ⟨chunk, hge, hchunk, hunfit⟩ := htrail
        rw [hold', hzero]
        refine loads_nothing henv ttl files hcreated hstored hnext hvisible chunk hchunk ?_
        rwa [BlobFits, hold chunk hge hchunk]

/-- Every way to stop leaves one of the two indexes of such a pair. -/
theorem atomic_of_atomicFor
    (hatomic : AtomicFor nvs old oldNext engine.visible engine.nextFileIndex)
    (outcome : NvsCall → NvsOutcome) :
    Loads env ttl files (saveIndexToNvs outcome engine nvs).2 old oldNext ∨
      Loads env ttl files (saveIndexToNvs outcome engine nvs).2 engine.visible
        engine.nextFileIndex := by
  have hwrites := (saveIndexToNvs_writes outcome engine nvs).1
  rcases hatomic with ⟨hlen, hdiffer⟩ | ⟨hlt, hdvd, hnextEq, htake⟩ |
    ⟨-, hnextEq, hempty, hrecords⟩
  · exact atomic_of_same_length henv ttl files himage engine hfits hlen hdiffer hwrites
  · rw [StorageEngine.visible_length] at hlt hdvd htake
    exact atomic_of_take henv ttl files himage engine hcapacity hfits hlt hdvd hnextEq
      htake hwrites
  · rw [StorageEngine.visible_length] at hnextEq hempty hrecords
    exact atomic_of_longer henv ttl files himage engine hcapacity hfits hnextEq hempty
      hrecords hwrites

omit hfits in
/-- A longer index is lost when the save stops after the count and the last blob is not full. -/
theorem loads_nothing_of_longer
    (hlt : old.length < engine.indexCount)
    (hpart : ¬ chunkSize ∣ old.length) :
    Loads env ttl files
      (saveIndexToNvs (fun call => if call = .setNextIdx then .cut else .ok) engine nvs).2
      [] 0 := by
  have hvisible : engine.indexCount ≤ initCapacity env := by
    rw [← hcapacity]
    exact engine.indexCount_le
  have hrest : old.length % chunkSize ≠ 0 := fun hzero =>
    hpart (Nat.dvd_of_mod_eq_zero hzero)
  rw [saveIndexToNvs_counted]
  -- the blob in which the old index ends is too short
  refine loads_nothing henv ttl files rfl rfl himage.nextIdx hvisible
    (old.length / chunkSize) ?_ ?_
  · rw [lt_numChunks_iff]
    simp only [chunkSize]
    omega
  · rintro ⟨blob, hidx, hblob⟩
    have hlast : old.length / chunkSize < numChunks old.length := by
      rw [lt_numChunks_iff]
      simp only [chunkSize] at hrest ⊢
      omega
    have hidx : nvs.idx (old.length / chunkSize) = some blob := hidx
    rw [himage.blobs _ hlast] at hidx
    rw [← Option.some.inj hidx, encodeEntries_length, chunkOf_length] at hblob
    simp only [chunkEntries, chunkSize, entrySize] at hrest hblob
    omega

omit hfits in
/-- A shorter index is lost when the save stops after the count away from a blob boundary. -/
theorem loads_nothing_of_shorter
    (hlt : engine.indexCount < old.length)
    (hdvd : ¬ chunkSize ∣ engine.indexCount) :
    Loads env ttl files
      (saveIndexToNvs (fun call => if call = .setNextIdx then .cut else .ok) engine nvs).2
      [] 0 := by
  have hvisible : engine.indexCount ≤ initCapacity env := by
    rw [← hcapacity]
    exact engine.indexCount_le
  have hrest : engine.indexCount % chunkSize ≠ 0 := fun hzero =>
    hdvd (Nat.dvd_of_mod_eq_zero hzero)
  rw [saveIndexToNvs_counted]
  -- the blob in which the new index ends is too long
  refine loads_nothing henv ttl files rfl rfl himage.nextIdx hvisible
    (engine.indexCount / chunkSize) ?_ ?_
  · rw [lt_numChunks_iff]
    simp only [chunkSize] at hrest ⊢
    omega
  · rintro ⟨blob, hidx, hblob⟩
    have hlast : engine.indexCount / chunkSize < numChunks old.length := by
      rw [lt_numChunks_iff]
      simp only [chunkSize]
      omega
    have hidx : nvs.idx (engine.indexCount / chunkSize) = some blob := hidx
    rw [himage.blobs _ hlast] at hidx
    rw [← Option.some.inj hidx, encodeEntries_length, chunkOf_length] at hblob
    simp only [chunkEntries, chunkSize, entrySize] at hrest hblob
    omega

omit hcapacity in
/-- A save that stops at a blob leaves a mixture of two indexes of one length. -/
theorem loads_mixed_of_stop
    (hvisible : old.length = engine.visible.length)
    {written : Nat}
    (hwritten : written < numChunks engine.indexCount) :
    Loads env ttl files
      (saveIndexToNvs (fun call => if call = .setBlob written then .fail else .ok) engine nvs).2
      (mixed old engine.visible written) engine.nextFileIndex := by
  have hlen : old.length = engine.indexCount := by
    rw [hvisible, StorageEngine.visible_length]
  rw [saveIndexToNvs_stop nvs hwritten]
  refine loads_image henv ttl files
    (image_mixed himage hlen rfl rfl rfl ?_ ?_)
    (by rw [mixed_length hvisible, ← hvisible]; exact hfits)
  · intro chunk hchunk
    simp [NvsStore.withChunks, hchunk]
  · intro chunk hge _
    simp [NvsStore.withChunks, NvsStore.withHeader, hge]

omit hcapacity in
/-- A save of a shorter index that stops after the count leaves the old one cut. -/
theorem loads_take_of_counted
    (hlt : engine.indexCount < old.length)
    (hdvd : chunkSize ∣ engine.indexCount) :
    Loads env ttl files
      (saveIndexToNvs (fun call => if call = .setNextIdx then .cut else .ok) engine nvs).2
      (old.take engine.indexCount) oldNext := by
  rw [saveIndexToNvs_counted]
  refine loads_image henv ttl files
    (image_take himage hlt hdvd rfl rfl himage.nextIdx fun _ _ => rfl) ?_
  rw [List.length_take]
  omega

omit himage hfits in
/-- A growing save that stops at a blob, where what it did not get to has the right lengths. -/
theorem loads_records_of_stop
    {written : Nat}
    (hwritten : written < numChunks engine.indexCount)
    (htrail : TrailFits nvs engine.indexCount written) :
    ∃ records : List StorageIndexEntry,
      records.length = engine.indexCount ∧
      (records = engine.visible →
        recordsIn nvs engine.indexCount written = chunkOf engine.visible written) ∧
      Loads env ttl files
        (saveIndexToNvs (fun call => if call = .setBlob written then .fail else .ok) engine
          nvs).2
        records engine.nextFileIndex := by
  have hvisible : engine.indexCount ≤ initCapacity env := by
    rw [← hcapacity]
    exact engine.indexCount_le
  rw [saveIndexToNvs_stop nvs hwritten]
  generalize hafter : (nvs.withHeader engine).withChunks engine.visible 0 written = after
  have hnew : ∀ chunk < written,
      after.idx chunk = some (encodeEntries (chunkOf engine.visible chunk)) := by
    intro chunk hchunk
    simp [← hafter, NvsStore.withChunks, hchunk]
  have hold : ∀ chunk, written ≤ chunk → chunk < numChunks engine.indexCount →
      after.idx chunk = nvs.idx chunk := by
    intro chunk hge _
    simp [← hafter, NvsStore.withChunks, NvsStore.withHeader, hge]
  refine ⟨(List.range (numChunks engine.indexCount)).flatMap
    (recordsIn after engine.indexCount), recordsIn_length after _, ?_, ?_⟩
  · intro heq
    have hall := flatMap_recordsIn_eq_iff after engine.visible
    rw [StorageEngine.visible_length] at hall
    rw [← hall.mp heq written hwritten, recordsIn, recordsIn, hold written le_rfl hwritten]
  · exact loads_records henv ttl files (by rw [← hafter]; rfl) (by rw [← hafter]; rfl)
      (by rw [← hafter]; rfl) hvisible (blobFits_of_written hnew hold htrail)

omit hfits in
/-- If every way to stop saving a longer index leaves one of the two, stale blobs do no harm. -/
theorem longer_of_atomic
    (hlt : old.length < engine.indexCount)
    (hall : ∀ outcome,
      Loads env ttl files (saveIndexToNvs outcome engine nvs).2 old oldNext ∨
        Loads env ttl files (saveIndexToNvs outcome engine nvs).2 engine.visible
          engine.nextFileIndex) :
    (TrailFits nvs engine.indexCount 0 → oldNext = engine.nextFileIndex) ∧
      (¬ TrailFits nvs engine.indexCount 0 → old = [] ∧ oldNext = 0) ∧
      ∀ chunk < numChunks engine.indexCount, TrailFits nvs engine.indexCount chunk →
        recordsIn nvs engine.indexCount chunk = chunkOf engine.visible chunk := by
  have hlength := engine.visible_length
  have hvisible : engine.indexCount ≤ initCapacity env := by
    rw [← hcapacity]
    exact engine.indexCount_le
  have hcounted := hall fun call => if call = .setNextIdx then .cut else .ok
  rw [saveIndexToNvs_counted] at hcounted
  generalize hafter : ({ nvs with
      created := true
      count := some (UInt16.ofNat engine.indexCount) } : NvsStore) = after at hcounted
  have hcreated : after.created = true := by rw [← hafter]
  have hcount : after.count = some (UInt16.ofNat engine.indexCount) := by rw [← hafter]
  have hnext : after.nextIdx = some oldNext := by
    rw [← hafter]
    exact himage.nextIdx
  have hblobs : ∀ chunk, BlobFits after engine.indexCount chunk ↔
      BlobFits nvs engine.indexCount chunk := by
    intro chunk
    rw [← hafter]
    rfl
  refine ⟨?_, ?_, ?_⟩
  · -- the running number is still the old one
    intro htrail
    have hloads := loads_records henv ttl files hcreated hcount hnext hvisible
      fun chunk hchunk => (hblobs chunk).mpr (htrail chunk (Nat.zero_le _) hchunk)
    rcases hcounted with hold | hnew
    · have hrecords := congrArg List.length (hold.unique hloads).1
      rw [recordsIn_length] at hrecords
      omega
    · exact (hnew.unique hloads).2.symm
  · intro htrail
    simp only [TrailFits, not_forall] at htrail
    obtain ⟨chunk, -, hchunk, hunfit⟩ := htrail
    have hnothing := loads_nothing henv ttl files hcreated hcount hnext hvisible chunk hchunk
      (mt (hblobs chunk).mp hunfit)
    rcases hcounted with hold | hnew
    · exact hold.unique hnothing
    · have hempty := congrArg List.length (hnew.unique hnothing).1
      rw [hlength, List.length_nil] at hempty
      omega
  · intro chunk hchunk htrail
    obtain ⟨records, hrecords, hsame, hloads⟩ :=
      loads_records_of_stop henv ttl files engine hcapacity hchunk htrail
    rcases hall _ with hold | hnew
    · have hshort := congrArg List.length (hold.unique hloads).1
      omega
    · exact hsame (hnew.unique hloads).1.symm

/-- If every way to stop leaves one of the two indexes, they are such a pair. -/
theorem atomicFor_of_atomic
    (hall : ∀ outcome,
      Loads env ttl files (saveIndexToNvs outcome engine nvs).2 old oldNext ∨
        Loads env ttl files (saveIndexToNvs outcome engine nvs).2 engine.visible
          engine.nextFileIndex) :
    AtomicFor nvs old oldNext engine.visible engine.nextFileIndex := by
  have hlength := engine.visible_length
  rcases Nat.lt_trichotomy old.length engine.indexCount with hlt | hlen | hgt
  · -- the index grows
    right
    right
    rw [hlength]
    exact ⟨hlt, longer_of_atomic henv ttl files himage engine hcapacity hlt hall⟩
  · -- the length stays: blobs are overwritten one by one
    left
    have hvisible : old.length = engine.visible.length := by omega
    refine ⟨hvisible, ?_⟩
    by_cases hsame : old = engine.visible
    · exact Or.inl hsame
    right
    have hfirst : 0 < numChunks engine.indexCount := by
      rw [lt_numChunks_iff]
      by_contra hzero
      refine hsame ?_
      rw [List.eq_nil_of_length_eq_zero (by omega : old.length = 0),
        List.eq_nil_of_length_eq_zero (by omega : engine.visible.length = 0)]
    have hnextEq : oldNext = engine.nextFileIndex := by
      have hzero := loads_mixed_of_stop henv ttl files himage engine hfits hvisible hfirst
      rcases hall _ with hold | hnew
      · exact (hold.unique hzero).2
      · have hentries := (hnew.unique hzero).1
        rw [mixed, Nat.mul_zero, List.take_zero, List.drop_zero, List.nil_append] at hentries
        exact absurd hentries.symm hsame
    refine ⟨hnextEq, (mixed_eq_iff hvisible).mp ?_⟩
    intro written
    by_cases hwritten : written < numChunks engine.indexCount
    · have hloads :=
        loads_mixed_of_stop henv ttl files himage engine hfits hvisible hwritten
      rcases hall _ with hold | hnew
      · exact Or.inl (hold.unique hloads).1.symm
      · exact Or.inr (hnew.unique hloads).1.symm
    · right
      exact mixed_of_numChunks_le hvisible (by rw [hlength]; omega)
  · -- the index shrinks: the count must fall on a blob boundary
    right
    left
    by_cases hdvd : chunkSize ∣ engine.indexCount
    · have hcounted := loads_take_of_counted henv ttl files himage engine hfits hgt hdvd
      rcases hall _ with hold | hnew
      · have hshort := congrArg List.length (hold.unique hcounted).1
        rw [List.length_take] at hshort
        omega
      · obtain ⟨hentries, hnext⟩ := hnew.unique hcounted
        rw [hlength]
        exact ⟨hgt, hdvd, hnext.symm, hentries⟩
    · have hnothing := loads_nothing_of_shorter henv ttl files himage engine hcapacity
        hgt hdvd
      rcases hall _ with hold | hnew
      · have hempty := congrArg List.length (hold.unique hnothing).1
        rw [List.length_nil] at hempty
        omega
      · have hempty := congrArg List.length (hnew.unique hnothing).1
        rw [hlength, List.length_nil] at hempty
        rw [hempty] at hdvd
        exact absurd (Nat.dvd_zero chunkSize) hdvd

end Atomic

/--
**Saving the index is atomic for some pairs of indexes only.**  Over contents that hold the old
index every way to stop the save leaves the old or the new index exactly when the pair is one of
`AtomicFor`.
-/
theorem save_atomic_iff
    {env : InitEnv}
    (henv : env.Succeeds)
    (ttl : UInt32)
    (files : Files)
    {nvs : NvsStore}
    {old : List StorageIndexEntry}
    {oldNext : UInt32}
    (himage : Image nvs old oldNext)
    (engine : StorageEngine)
    (hcapacity : engine.maxIndexEntries = initCapacity env)
    (hfits : old.length ≤ initCapacity env) :
    (∀ outcome,
      Loads env ttl files (saveIndexToNvs outcome engine nvs).2 old oldNext ∨
        Loads env ttl files (saveIndexToNvs outcome engine nvs).2 engine.visible
          engine.nextFileIndex) ↔
      AtomicFor nvs old oldNext engine.visible engine.nextFileIndex :=
  ⟨atomicFor_of_atomic henv ttl files himage engine hcapacity hfits,
    fun hatomic outcome =>
      atomic_of_atomicFor henv ttl files himage engine hcapacity hfits hatomic outcome⟩

/-! ## A save that grows the index -/

/-- The flash after ten notes were saved and persisted. -/
def tenNotesStored : NvsStore :=
  (saveIndexToNvs (fun _ => .ok) (afterNotes 10 (by decide)) NvsStore.erased).2

theorem tenNotesStored_image :
    Image tenNotesStored (afterNotes 10 (by decide)).visible 10 :=
  (saveIndexToNvs_writes (fun _ => .ok) (afterNotes 10 (by decide)) NvsStore.erased).2
    (congrArg Prod.fst (saveIndexToNvs_eq _ _ _ fun _ => rfl))

/-- One of ten records is marked deleted: whatever fails, the old or the new index is found. -/
theorem save_atomic_iff_marked :
    let newer := (afterNotes 10 (by decide)).withVisible
      ((afterNotes 10 (by decide)).visible.modify 3 StorageIndexEntry.markDeleted) (by simp)
    ∀ outcome,
      Loads internalStart 1814400 (fun _ => none)
          (saveIndexToNvs outcome newer tenNotesStored).2
          (afterNotes 10 (by decide)).visible 10 ∨
        Loads internalStart 1814400 (fun _ => none)
          (saveIndexToNvs outcome newer tenNotesStored).2 newer.visible
          newer.nextFileIndex := by
  intro newer
  refine (save_atomic_iff internalStart_succeeds 1814400 (fun _ => none)
    tenNotesStored_image newer ?_ ?_).mpr ?_
  · rw [StorageEngine.withVisible_maxIndexEntries, afterNotes_maxIndexEntries]
    rfl
  · rw [afterNotes_visible_length]
    decide
  · left
    refine ⟨by simp [newer], Or.inr ⟨rfl, 0, ?_⟩⟩
    intro i hi
    have hbeyond : 10 ≤ i := by
      simp only [chunkSize] at hi
      omega
    have hcount := afterNotes_visible_length 10 (by decide)
    rw [List.getElem?_eq_none (by omega), List.getElem?_eq_none]
    simp only [newer, StorageEngine.visible_withVisible, List.length_modify]
    omega

/-- Ten more notes are saved and power is cut after the count was written: nothing is found. -/
theorem grown_index_is_lost :
    let newer := afterNotes 20 (by decide)
    let cut := (saveIndexToNvs (fun call => if call = .setNextIdx then .cut else .ok) newer
      tenNotesStored).2
    Loads internalStart 1814400 (fun _ => none) cut [] 0 ∧
      ¬ (Loads internalStart 1814400 (fun _ => none) cut
            (afterNotes 10 (by decide)).visible 10 ∨
          Loads internalStart 1814400 (fun _ => none) cut newer.visible
            newer.nextFileIndex) := by
  intro newer cut
  have hold := afterNotes_visible_length 10 (by decide)
  have hnew : newer.visible.length = 20 := afterNotes_visible_length 20 (by decide)
  have hnothing : Loads internalStart 1814400 (fun _ => none) cut [] 0 := by
    refine loads_nothing_of_longer internalStart_succeeds 1814400 (fun _ => none)
      tenNotesStored_image newer ?_ ?_ ?_
    · exact afterNotes_maxIndexEntries 20 (by decide)
    · rw [hold]
      decide
    · rw [hold]
      decide
  refine ⟨hnothing, ?_⟩
  rintro (hloads | hloads)
  · have hempty := congrArg List.length (hloads.unique hnothing).1
    rw [hold, List.length_nil] at hempty
    omega
  · have hempty := congrArg List.length (hloads.unique hnothing).1
    rw [hnew, List.length_nil] at hempty
    omega

end Storage
end WispRelay
