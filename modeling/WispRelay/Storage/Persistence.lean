import WispRelay.Nostr.SampleLibrary
import WispRelay.Storage.Engine

/-!
# What saving leaves and what loading reads

* `NvsWrites`: the contents `save_index_to_nvs` can leave, whatever the outcome of its calls:
  no key written, the count only, or the count, the running number and the first blobs, with
  blobs beyond the last one possibly erased.
* `Image`: the contents a completed save leaves.
* `readChunks_eq`: the loader accepts exactly the contents in which every blob it needs has the
  expected length.

The round trip is `index_persistence_round_trip`.
-/

namespace WispRelay
namespace Storage

/-! ## Cutting a list into blobs -/

section Chunks

variable
  (entries : List StorageIndexEntry)

@[simp] theorem chunkOf_length
    (chunk : Nat) :
    (chunkOf entries chunk).length = chunkEntries entries.length chunk := by
  simp [chunkOf, chunkEntries]

/-- The blobs in order are the front of the list. -/
theorem flatMap_chunkOf
    (n : Nat) :
    (List.range n).flatMap (chunkOf entries) = entries.take (chunkSize * n) := by
  induction n with
  | zero => simp
  | succ n ih =>
      rw [List.range_succ, List.flatMap_append, ih, List.flatMap_singleton, Nat.mul_succ,
        List.take_add]
      rfl

/-- No record lies beyond the last blob. -/
theorem le_chunkSize_mul_numChunks
    (count : Nat) :
    count ≤ chunkSize * numChunks count := by
  simp only [numChunks, chunkSize]
  omega

theorem lt_numChunks_iff
    {count chunk : Nat} :
    chunk < numChunks count ↔ chunkSize * chunk < count := by
  simp only [numChunks, chunkSize]
  omega

/-- A shorter index has the same blobs when it ends where a blob ends. -/
theorem chunkEntries_eq
    {count n chunk : Nat}
    (hle : count ≤ n)
    (hend : n = count ∨ chunkSize ∣ count)
    (hchunk : chunk < numChunks count) :
    chunkEntries n chunk = chunkEntries count chunk := by
  rw [lt_numChunks_iff] at hchunk
  simp only [chunkEntries, chunkSize] at hchunk hend ⊢
  rcases hend with rfl | ⟨k, rfl⟩
  · rfl
  · omega

end Chunks

/-! ## What saving leaves -/

/-- The store after the blobs from `start` to before `stop` were written. -/
def NvsStore.withChunks
    (nvs : NvsStore)
    (entries : List StorageIndexEntry)
    (start stop : Nat) : NvsStore :=
  { nvs with
    idx := fun chunk =>
      if start ≤ chunk ∧ chunk < stop then some (encodeEntries (chunkOf entries chunk))
      else nvs.idx chunk }

/-- The store after the count and the running number were written. -/
def NvsStore.withHeader
    (nvs : NvsStore)
    (engine : StorageEngine) : NvsStore :=
  { nvs with
    created := true
    count := some (UInt16.ofNat engine.indexCount)
    nextIdx := some engine.nextFileIndex }

theorem NvsStore.withChunks_self
    (nvs : NvsStore)
    (entries : List StorageIndexEntry)
    (start : Nat) :
    nvs.withChunks entries start start = nvs := by
  have hnone : ∀ c, ¬ (start ≤ c ∧ c < start) := by
    intro c
    omega
  simp only [NvsStore.withChunks, hnone, if_false]

/-- Writing a blob and those after it. -/
theorem NvsStore.setBlob_withChunks
    (nvs : NvsStore)
    (entries : List StorageIndexEntry)
    {start stop : Nat}
    (hlt : start < stop) :
    (nvs.setBlob start (encodeEntries (chunkOf entries start))).withChunks entries
        (start + 1) stop =
      nvs.withChunks entries start stop := by
  have hidx : ∀ c,
      (if start + 1 ≤ c ∧ c < stop then some (encodeEntries (chunkOf entries c))
        else Function.update nvs.idx start
          (some (encodeEntries (chunkOf entries start))) c) =
      (if start ≤ c ∧ c < stop then some (encodeEntries (chunkOf entries c))
        else nvs.idx c) := by
    intro c
    by_cases hc : c = start
    · subst hc
      simp [hlt]
    · have hiff : (start + 1 ≤ c ∧ c < stop) ↔ (start ≤ c ∧ c < stop) := by
        omega
      rw [Function.update_of_ne hc]
      simp only [hiff]
  simp only [NvsStore.withChunks, NvsStore.setBlob, hidx]

/-- A call that is checked and did not succeed does not end the save with success. -/
theorem NvsOutcome.stop_ne_storageOk
    {outcome : NvsOutcome}
    {result : SaveIndexResult}
    (hstop : outcome.stop = some result) :
    result ≠ .storageOk := by
  cases outcome with
  | ok => cases hstop
  | fail =>
      cases hstop
      decide
  | cut =>
      cases hstop
      decide

/-- The writing loop stops after some blobs, all of them when no call failed. -/
theorem writeChunks_spec
    (outcome : NvsCall → NvsOutcome)
    (entries : List StorageIndexEntry)
    (remaining : Nat) :
    ∀ (chunk : Nat) (nvs : NvsStore), ∃ written ≤ remaining,
      (writeChunks outcome entries remaining chunk nvs).2 =
          nvs.withChunks entries chunk (chunk + written) ∧
        ((writeChunks outcome entries remaining chunk nvs).1 = none →
          written = remaining) ∧
        (writeChunks outcome entries remaining chunk nvs).1 ≠ some .storageOk := by
  induction remaining with
  | zero =>
      intro chunk nvs
      refine ⟨0, le_rfl, ?_, fun _ => rfl, by simp [writeChunks]⟩
      exact (nvs.withChunks_self entries chunk).symm
  | succ remaining ih =>
      intro chunk nvs
      unfold writeChunks
      cases hstop : (outcome (.setBlob chunk)).stop with
      | some result =>
          refine ⟨0, Nat.zero_le _, (nvs.withChunks_self entries chunk).symm, ?_, ?_⟩
          · intro hcontra
            cases hcontra
          · intro hcontra
            exact NvsOutcome.stop_ne_storageOk hstop (Option.some.inj hcontra)
      | none =>
          obtain ⟨written, hle, hstore, hall, hne⟩ := ih (chunk + 1)
            (nvs.setBlob chunk (encodeEntries (chunkOf entries chunk)))
          refine ⟨written + 1, Nat.succ_le_succ hle, ?_, ?_, hne⟩
          · rw [hstore, nvs.setBlob_withChunks entries (by omega)]
            congr 1
            omega
          · intro hnone
            exact congrArg (· + 1) (hall hnone)

theorem NvsStore.eraseIdx_of_ne
    (nvs : NvsStore)
    {chunk c : Nat}
    (hne : c ≠ chunk) :
    (nvs.eraseIdx chunk).idx c = nvs.idx c :=
  Function.update_of_ne hne _ _

/-- The erasing loop touches nothing but blobs from `chunk` on, which it can only remove. -/
structure Erased
    (chunk : Nat)
    (before after : NvsStore) : Prop where
  created : after.created = before.created
  count : after.count = before.count
  nextIdx : after.nextIdx = before.nextIdx
  below : ∀ c < chunk, after.idx c = before.idx c
  above : ∀ c, after.idx c = before.idx c ∨ after.idx c = none

theorem Erased.refl
    (chunk : Nat)
    (nvs : NvsStore) :
    Erased chunk nvs nvs where
  created := rfl
  count := rfl
  nextIdx := rfl
  below := fun _ _ => rfl
  above := fun _ => Or.inl rfl

theorem Erased.of_eraseIdx
    {chunk : Nat}
    {before after : NvsStore}
    (h : Erased (chunk + 1) (before.eraseIdx chunk) after) :
    Erased chunk before after where
  created := h.created
  count := h.count
  nextIdx := h.nextIdx
  below := by
    intro c hc
    rw [h.below c (by omega), before.eraseIdx_of_ne (by omega)]
  above := by
    intro c
    rcases h.above c with hsame | hnone
    · by_cases hc : c = chunk
      · right
        rw [hsame, hc]
        exact Function.update_self _ _ _
      · left
        rw [hsame, before.eraseIdx_of_ne hc]
    · exact Or.inr hnone

theorem Erased.weaken
    {chunk : Nat}
    {before after : NvsStore}
    (h : Erased (chunk + 1) before after) :
    Erased chunk before after where
  created := h.created
  count := h.count
  nextIdx := h.nextIdx
  below := fun c hc => h.below c (by omega)
  above := h.above

theorem eraseStale_spec
    (outcome : NvsCall → NvsOutcome)
    (remaining : Nat) :
    ∀ (chunk : Nat) (nvs : NvsStore),
      Erased chunk nvs (eraseStale outcome remaining chunk nvs).2 ∧
        (eraseStale outcome remaining chunk nvs).1 ≠ some .storageOk := by
  induction remaining with
  | zero =>
      intro chunk nvs
      exact ⟨Erased.refl chunk nvs, by simp [eraseStale]⟩
  | succ remaining ih =>
      intro chunk nvs
      unfold eraseStale
      cases outcome (.eraseKey chunk) with
      | cut => exact ⟨Erased.refl chunk nvs, by simp⟩
      | fail => exact ⟨(ih (chunk + 1) nvs).1.weaken, (ih (chunk + 1) nvs).2⟩
      | ok =>
          dsimp only
          split
          · exact ⟨Erased.refl chunk nvs, by simp⟩
          · obtain ⟨herased, hne⟩ := ih (chunk + 1) (nvs.eraseIdx chunk)
            exact ⟨herased.of_eraseIdx, hne⟩

/-- The contents a completed save of an index leaves. -/
structure Image
    (nvs : NvsStore)
    (entries : List StorageIndexEntry)
    (next : UInt32) : Prop where
  created : nvs.created = true
  count : nvs.count = some (UInt16.ofNat entries.length)
  nextIdx : nvs.nextIdx = some next
  blobs : ∀ chunk < numChunks entries.length,
    nvs.idx chunk = some (encodeEntries (chunkOf entries chunk))

/-- The contents `save_index_to_nvs` can leave when it starts from `before`. -/
inductive NvsWrites
    (engine : StorageEngine)
    (before : NvsStore) : NvsStore → Prop
  | untouched : NvsWrites engine before before
  | opened : NvsWrites engine before { before with created := true }
  | counted :
      NvsWrites engine before
        { before with
          created := true
          count := some (UInt16.ofNat engine.indexCount) }
  | chunks
      {after : NvsStore}
      (written : Nat)
      (hwritten : written ≤ numChunks engine.indexCount)
      (hcreated : after.created = true)
      (hcount : after.count = some (UInt16.ofNat engine.indexCount))
      (hnext : after.nextIdx = some engine.nextFileIndex)
      (hnew : ∀ chunk < written,
        after.idx chunk = some (encodeEntries (chunkOf engine.visible chunk)))
      (hold : ∀ chunk, written ≤ chunk → chunk < numChunks engine.indexCount →
        after.idx chunk = before.idx chunk) :
      NvsWrites engine before after

section Saving

variable
  (outcome : NvsCall → NvsOutcome)
  (engine : StorageEngine)
  (before : NvsStore)

/-- What the last two loops leave, from the store with the count and the running number. -/
theorem Erased.writes
    {written : Nat}
    (hwritten : written ≤ numChunks engine.indexCount)
    {after : NvsStore}
    (herased : Erased (numChunks engine.indexCount)
      ((before.withHeader engine).withChunks engine.visible 0 written) after) :
    NvsWrites engine before after := by
  refine NvsWrites.chunks written hwritten herased.created herased.count herased.nextIdx ?_ ?_
  · intro chunk hchunk
    rw [herased.below chunk (by omega)]
    simp [NvsStore.withChunks, hchunk]
  · intro chunk hge hlt
    rw [herased.below chunk hlt]
    simp [NvsStore.withChunks, NvsStore.withHeader, hge]

theorem Erased.image
    {after : NvsStore}
    (herased : Erased (numChunks engine.indexCount)
      ((before.withHeader engine).withChunks engine.visible 0 (numChunks engine.indexCount))
      after) :
    Image after engine.visible engine.nextFileIndex where
  created := herased.created
  count := by
    rw [StorageEngine.visible_length]
    exact herased.count
  nextIdx := herased.nextIdx
  blobs := by
    intro chunk hchunk
    rw [StorageEngine.visible_length] at hchunk
    rw [herased.below chunk hchunk]
    simp [NvsStore.withChunks, hchunk]

/-- Whatever fails, the save leaves one of the contents listed, all blobs when it completes. -/
theorem saveIndexToNvs_writes :
    NvsWrites engine before (saveIndexToNvs outcome engine before).2 ∧
      ((saveIndexToNvs outcome engine before).1 = .storageOk →
        Image (saveIndexToNvs outcome engine before).2 engine.visible
          engine.nextFileIndex) := by
  unfold saveIndexToNvs
  cases hopen : (outcome .open).stop with
  | some result =>
      exact ⟨NvsWrites.untouched, fun hok => absurd hok (NvsOutcome.stop_ne_storageOk hopen)⟩
  | none =>
  cases hcount : (outcome .setCount).stop with
  | some result =>
      exact ⟨NvsWrites.opened, fun hok => absurd hok (NvsOutcome.stop_ne_storageOk hcount)⟩
  | none =>
  cases hnext : (outcome .setNextIdx).stop with
  | some result =>
      exact ⟨NvsWrites.counted, fun hok => absurd hok (NvsOutcome.stop_ne_storageOk hnext)⟩
  | none =>
  -- the count and the running number are written
  dsimp only
  rw [show ({ before with
      created := true
      count := some (UInt16.ofNat engine.indexCount)
      nextIdx := some engine.nextFileIndex } : NvsStore) = before.withHeader engine from rfl]
  obtain ⟨written, hwritten, hstore, hall, hne⟩ := writeChunks_spec outcome engine.visible
    (numChunks engine.indexCount) 0 (before.withHeader engine)
  generalize writeChunks outcome engine.visible (numChunks engine.indexCount) 0
    (before.withHeader engine) = run at hstore hall hne ⊢
  rw [Nat.zero_add] at hstore
  obtain ⟨ended, stored⟩ := run
  dsimp only at hstore hall hne
  subst hstore
  cases ended with
  | some result =>
      refine ⟨Erased.writes engine before hwritten (Erased.refl _ _), ?_⟩
      intro hok
      exact absurd (congrArg some hok) hne
  | none =>
  -- every blob is written
  obtain rfl : written = numChunks engine.indexCount := hall rfl
  dsimp only
  obtain ⟨herased, hne'⟩ := eraseStale_spec outcome (100 - numChunks engine.indexCount)
    (numChunks engine.indexCount)
    ((before.withHeader engine).withChunks engine.visible 0 (numChunks engine.indexCount))
  generalize eraseStale outcome (100 - numChunks engine.indexCount)
    (numChunks engine.indexCount)
    ((before.withHeader engine).withChunks engine.visible 0
      (numChunks engine.indexCount)) = trim at herased hne' ⊢
  obtain ⟨ended, trimmed⟩ := trim
  have hwrites := Erased.writes engine before hwritten herased
  have himage := Erased.image engine before herased
  cases ended with
  | some result => exact ⟨hwrites, fun hok => absurd (congrArg some hok) hne'⟩
  | none =>
      dsimp only
      cases (outcome .commit).stop with
      | some result => exact ⟨hwrites, fun _ => himage⟩
      | none => exact ⟨hwrites, fun _ => himage⟩

/-- With every call succeeding all blobs are written and stale ones erased. -/
theorem saveIndexToNvs_eq
    (hok : ∀ call, outcome call = .ok) :
    saveIndexToNvs outcome engine before =
      (.storageOk,
        (eraseStale outcome (100 - numChunks engine.indexCount)
          (numChunks engine.indexCount)
          ((before.withHeader engine).withChunks engine.visible 0
            (numChunks engine.indexCount))).2) := by
  have hwrite : ∀ remaining chunk nvs,
      writeChunks outcome engine.visible remaining chunk nvs =
        (none, nvs.withChunks engine.visible chunk (chunk + remaining)) := by
    intro remaining
    induction remaining with
    | zero =>
        intro chunk nvs
        rw [Nat.add_zero, nvs.withChunks_self]
        rfl
    | succ remaining ih =>
        intro chunk nvs
        simp only [writeChunks, hok, NvsOutcome.stop, ih]
        rw [nvs.setBlob_withChunks engine.visible (by omega), Nat.add_right_comm,
          Nat.add_assoc]
  have herase : ∀ remaining chunk nvs,
      (eraseStale outcome remaining chunk nvs).1 = none := by
    intro remaining
    induction remaining with
    | zero =>
        intro chunk nvs
        rfl
    | succ remaining ih =>
        intro chunk nvs
        simp only [eraseStale, hok]
        split
        · rfl
        · exact ih _ _
  have hnone := herase (100 - numChunks engine.indexCount) (numChunks engine.indexCount)
    ((before.withHeader engine).withChunks engine.visible 0 (numChunks engine.indexCount))
  unfold NvsStore.withHeader at hnone ⊢
  unfold saveIndexToNvs
  simp only [hok, NvsOutcome.stop, hwrite, Nat.zero_add]
  generalize eraseStale outcome (100 - numChunks engine.indexCount)
    (numChunks engine.indexCount) _ = trim at hnone ⊢
  obtain ⟨ended, trimmed⟩ := trim
  dsimp only at hnone
  subst hnone
  rfl

end Saving

/-! ## Which blobs a save gets to -/

/-- The calls before a blob is written, and the one that writes it, succeed. -/
def BlobWritten
    (outcome : NvsCall → NvsOutcome)
    (chunk : Nat) : Prop :=
  outcome .open = .ok ∧ outcome .setCount = .ok ∧ outcome .setNextIdx = .ok ∧
    ∀ c < chunk + 1, outcome (.setBlob c) = .ok

instance (outcome : NvsCall → NvsOutcome) (chunk : Nat) :
    Decidable (BlobWritten outcome chunk) :=
  inferInstanceAs (Decidable (_ ∧ _))

theorem NvsOutcome.stop_eq_none_iff
    {outcome : NvsOutcome} :
    outcome.stop = none ↔ outcome = .ok := by
  cases outcome <;> simp [NvsOutcome.stop]

/-- The loop has written the blobs before the first call that did not succeed. -/
theorem writeChunks_idx
    (outcome : NvsCall → NvsOutcome)
    (entries : List StorageIndexEntry)
    (remaining : Nat) :
    ∀ (chunk : Nat) (nvs : NvsStore) (c : Nat), c < chunk + remaining →
      (writeChunks outcome entries remaining chunk nvs).2.idx c =
        if chunk ≤ c ∧ ∀ c', chunk ≤ c' → c' ≤ c → outcome (.setBlob c') = .ok then
          some (encodeEntries (chunkOf entries c))
        else nvs.idx c := by
  induction remaining with
  | zero =>
      intro chunk nvs c hlt
      rw [writeChunks, if_neg (by omega)]
  | succ remaining ih =>
      intro chunk nvs c hlt
      cases hstop : (outcome (.setBlob chunk)).stop with
      | some result =>
          have hbad : outcome (.setBlob chunk) ≠ .ok := by
            intro hok
            rw [NvsOutcome.stop_eq_none_iff.mpr hok] at hstop
            cases hstop
          simp only [writeChunks, hstop]
          rw [if_neg]
          rintro ⟨hle, hall⟩
          exact hbad (hall chunk (Nat.le_refl _) hle)
      | none =>
          have hok := NvsOutcome.stop_eq_none_iff.mp hstop
          simp only [writeChunks, hstop]
          rw [ih _ _ _ (by omega)]
          by_cases hc : c = chunk
          · subst hc
            rw [if_neg (by omega), if_pos]
            · simp [NvsStore.setBlob]
            · refine ⟨Nat.le_refl _, fun c' hle hle' => ?_⟩
              rw [Nat.le_antisymm hle' hle, hok]
          · have hiff : (chunk + 1 ≤ c ∧
                  ∀ c', chunk + 1 ≤ c' → c' ≤ c → outcome (.setBlob c') = .ok) ↔
                (chunk ≤ c ∧ ∀ c', chunk ≤ c' → c' ≤ c → outcome (.setBlob c') = .ok) := by
              constructor
              · rintro ⟨hle, hall⟩
                refine ⟨by omega, fun c' hle' hle'' => ?_⟩
                rcases Nat.eq_or_lt_of_le hle' with rfl | hlt'
                · exact hok
                · exact hall c' hlt' hle''
              · rintro ⟨hle, hall⟩
                exact ⟨by omega, fun c' hle' => hall c' (by omega)⟩
            simp only [hiff, NvsStore.setBlob, Function.update_of_ne hc]

/-- A blob of the index is written by the save exactly when nothing fails up to it. -/
theorem saveIndexToNvs_idx
    (outcome : NvsCall → NvsOutcome)
    (engine : StorageEngine)
    (nvs : NvsStore)
    {chunk : Nat}
    (hchunk : chunk < numChunks engine.indexCount) :
    (saveIndexToNvs outcome engine nvs).2.idx chunk =
      if BlobWritten outcome chunk then some (encodeEntries (chunkOf engine.visible chunk))
      else nvs.idx chunk := by
  have hstopped : ∀ call result, (outcome call).stop = some result → outcome call ≠ .ok := by
    rintro call result hstop hok
    rw [NvsOutcome.stop_eq_none_iff.mpr hok] at hstop
    cases hstop
  unfold saveIndexToNvs
  cases hopen : (outcome .open).stop with
  | some result =>
      simp only
      rw [if_neg fun h => hstopped _ _ hopen h.1]
  | none =>
      cases hcount : (outcome .setCount).stop with
      | some result =>
          simp only
          rw [if_neg fun h => hstopped _ _ hcount h.2.1]
      | none =>
          cases hnext : (outcome .setNextIdx).stop with
          | some result =>
              simp only
              rw [if_neg fun h => hstopped _ _ hnext h.2.2.1]
          | none =>
              have hflag : BlobWritten outcome chunk ↔
                  0 ≤ chunk ∧ ∀ c', 0 ≤ c' → c' ≤ chunk → outcome (.setBlob c') = .ok := by
                simp only [BlobWritten, NvsOutcome.stop_eq_none_iff.mp hopen,
                  NvsOutcome.stop_eq_none_iff.mp hcount, NvsOutcome.stop_eq_none_iff.mp hnext,
                  true_and, Nat.zero_le, forall_const, Nat.lt_succ_iff]
              have hwritten := writeChunks_idx outcome engine.visible
                (numChunks engine.indexCount) 0 (nvs.withHeader engine) chunk (by omega)
              simp only
              change _ = (if BlobWritten outcome chunk then _ else (nvs.withHeader engine).idx chunk)
              simp only [hflag, ← hwritten]
              generalize hloop : writeChunks outcome engine.visible
                (numChunks engine.indexCount) 0 (nvs.withHeader engine) = loop
              unfold NvsStore.withHeader at hloop
              rw [hloop]
              obtain ⟨result | result, written⟩ := loop
              · have herased := (eraseStale_spec outcome (100 - numChunks engine.indexCount)
                  (numChunks engine.indexCount) written).1.below chunk hchunk
                simp only
                generalize eraseStale outcome (100 - numChunks engine.indexCount)
                  (numChunks engine.indexCount) written = erased at herased
                obtain ⟨result | result, trimmed⟩ := erased
                · simp only
                  split <;> exact herased
                · exact herased
              · rfl

/-- Beyond the last blob of the index a save can only erase. -/
theorem saveIndexToNvs_above
    (outcome : NvsCall → NvsOutcome)
    (engine : StorageEngine)
    (nvs : NvsStore)
    {chunk : Nat}
    (hchunk : numChunks engine.indexCount ≤ chunk) :
    (saveIndexToNvs outcome engine nvs).2.idx chunk = nvs.idx chunk ∨
      (saveIndexToNvs outcome engine nvs).2.idx chunk = none := by
  unfold saveIndexToNvs
  cases (outcome .open).stop with
  | some result => exact Or.inl rfl
  | none =>
      cases (outcome .setCount).stop with
      | some result => exact Or.inl rfl
      | none =>
          cases (outcome .setNextIdx).stop with
          | some result => exact Or.inl rfl
          | none =>
              obtain ⟨done, hdone, hstore, -, -⟩ := writeChunks_spec outcome engine.visible
                (numChunks engine.indexCount) 0 (nvs.withHeader engine)
              have hsame : (writeChunks outcome engine.visible (numChunks engine.indexCount) 0
                  (nvs.withHeader engine)).2.idx chunk = nvs.idx chunk := by
                rw [hstore]
                exact if_neg (by omega)
              unfold NvsStore.withHeader at hsame
              simp only
              generalize writeChunks outcome engine.visible (numChunks engine.indexCount) 0 _ =
                loop at hsame ⊢
              obtain ⟨result | result, written⟩ := loop
              · have herased := (eraseStale_spec outcome (100 - numChunks engine.indexCount)
                  (numChunks engine.indexCount) written).1.above chunk
                rw [hsame] at herased
                simp only
                generalize eraseStale outcome (100 - numChunks engine.indexCount)
                  (numChunks engine.indexCount) written = erased at herased ⊢
                obtain ⟨result | result, trimmed⟩ := erased
                · cases (outcome .commit).stop <;> exact herased
                · exact herased
              · exact Or.inl hsame

/-- The loop that comes to its end has written every blob. -/
theorem writeChunks_done
    {outcome : NvsCall → NvsOutcome}
    {entries : List StorageIndexEntry}
    (remaining : Nat) :
    ∀ (chunk : Nat) (nvs : NvsStore),
      (writeChunks outcome entries remaining chunk nvs).1 = none →
      ∀ c, chunk ≤ c → c < chunk + remaining → outcome (.setBlob c) = .ok := by
  induction remaining with
  | zero =>
      intro chunk nvs hdone c hle hlt
      omega
  | succ remaining ih =>
      intro chunk nvs hdone c hle hlt
      cases hstop : (outcome (.setBlob chunk)).stop with
      | some result =>
          simp only [writeChunks, hstop] at hdone
          cases hdone
      | none =>
          simp only [writeChunks, hstop] at hdone
          rcases Nat.eq_or_lt_of_le hle with rfl | hlt'
          · exact NvsOutcome.stop_eq_none_iff.mp hstop
          · exact ih _ _ hdone c hlt' (by omega)

/-- A save that succeeds has written the running number and every blob. -/
theorem written_of_storageOk
    {outcome : NvsCall → NvsOutcome}
    {engine : StorageEngine}
    {nvs : NvsStore}
    (hok : (saveIndexToNvs outcome engine nvs).1 = .storageOk) :
    outcome .setNextIdx = .ok ∧
      ∀ chunk < numChunks engine.indexCount, outcome (.setBlob chunk) = .ok := by
  unfold saveIndexToNvs at hok
  cases hopen : (outcome .open).stop with
  | some result =>
      rw [hopen] at hok
      exact absurd hok (NvsOutcome.stop_ne_storageOk hopen)
  | none =>
      cases hcount : (outcome .setCount).stop with
      | some result =>
          simp only [hopen, hcount] at hok
          exact absurd hok (NvsOutcome.stop_ne_storageOk hcount)
      | none =>
          cases hnext : (outcome .setNextIdx).stop with
          | some result =>
              simp only [hopen, hcount, hnext] at hok
              exact absurd hok (NvsOutcome.stop_ne_storageOk hnext)
          | none =>
              refine ⟨NvsOutcome.stop_eq_none_iff.mp hnext, fun chunk hchunk => ?_⟩
              obtain ⟨-, -, -, -, hnot⟩ := writeChunks_spec outcome engine.visible
                (numChunks engine.indexCount) 0 (nvs.withHeader engine)
              have hdone := @writeChunks_done outcome engine.visible
                (numChunks engine.indexCount) 0 (nvs.withHeader engine)
              unfold NvsStore.withHeader at hnot hdone
              simp only [hopen, hcount, hnext] at hok
              generalize writeChunks outcome engine.visible (numChunks engine.indexCount) 0 _ =
                loop at hok hnot hdone
              obtain ⟨result | result, written⟩ := loop
              · exact hdone rfl chunk (Nat.zero_le _) (by omega)
              · exact absurd (congrArg some hok) hnot

/-! ## What loading reads -/

/-- A blob with the length the loader expects of it. -/
def BlobFits
    (nvs : NvsStore)
    (count : Nat)
    (chunk : Nat) : Prop :=
  ∃ blob, nvs.idx chunk = some blob ∧ blob.length = chunkEntries count chunk * entrySize

/-- Every blob the loader needs is there with the expected length. -/
def BlobsComplete
    (readOk : NvsRead → Bool)
    (nvs : NvsStore)
    (count : Nat)
    (chunk : Nat) : Prop :=
  readOk (.blob chunk) = true ∧ BlobFits nvs count chunk

/-- The records of the blob under a key. -/
def recordsIn
    (nvs : NvsStore)
    (count chunk : Nat) : List StorageIndexEntry :=
  decodeEntries (chunkEntries count chunk) ((nvs.idx chunk).getD [])

/-- The loop accepts complete blobs only, and then returns their records. -/
theorem readChunks_eq
    (readOk : NvsRead → Bool)
    (nvs : NvsStore)
    (count remaining : Nat) :
    ∀ (chunk : Nat) (entries : List StorageIndexEntry),
      ((∀ c, chunk ≤ c → c < chunk + remaining → BlobsComplete readOk nvs count c) →
        readChunks readOk nvs count remaining chunk entries =
          (true, entries ++ (List.range' chunk remaining).flatMap (recordsIn nvs count))) ∧
      ((readChunks readOk nvs count remaining chunk entries).1 = true →
        ∀ c, chunk ≤ c → c < chunk + remaining → BlobsComplete readOk nvs count c) := by
  induction remaining with
  | zero =>
      intro chunk entries
      refine ⟨fun _ => by simp [readChunks], ?_⟩
      intro _ c hge hlt
      omega
  | succ remaining ih =>
      intro chunk entries
      constructor
      · intro hall
        obtain ⟨hread, blob, hblob, hlen⟩ := hall chunk le_rfl (by omega)
        have hrest := (ih (chunk + 1)
          (entries ++ decodeEntries (chunkEntries count chunk) blob)).1
          fun c hge hlt => hall c (by omega) (by omega)
        unfold readChunks
        simp only [hread, if_true, hblob, hlen, hrest]
        rw [List.range'_succ, List.flatMap_cons, List.append_assoc]
        simp only [recordsIn, hblob, Option.getD_some]
      · intro htrue c hge hlt
        unfold readChunks at htrue
        by_cases hread : readOk (.blob chunk) = true
        · rw [if_pos hread] at htrue
          cases hblob : nvs.idx chunk with
          | none =>
              rw [hblob] at htrue
              cases htrue
          | some blob =>
              simp only [hblob] at htrue
              by_cases hlen : blob.length = chunkEntries count chunk * entrySize
              · rw [if_pos hlen] at htrue
                by_cases hc : c = chunk
                · exact hc ▸ ⟨hread, blob, hblob, hlen⟩
                · exact (ih (chunk + 1) _).2 htrue c (by omega) (by omega)
              · rw [if_neg hlen] at htrue
                cases htrue
        · rw [if_neg hread] at htrue
          cases htrue

/-- The records of complete blobs are as many as the count says. -/
theorem recordsIn_length
    (nvs : NvsStore)
    (count : Nat) :
    ((List.range (numChunks count)).flatMap (recordsIn nvs count)).length = count := by
  have hsum : ∀ n, n ≤ numChunks count →
      ((List.range n).flatMap (recordsIn nvs count)).length =
        min (chunkSize * n) count := by
    intro n
    induction n with
    | zero => simp
    | succ n ih =>
        intro hn
        rw [List.range_succ, List.flatMap_append, List.length_append, ih (by omega),
          List.flatMap_singleton, recordsIn, decodeEntries_length]
        simp only [chunkEntries, chunkSize]
        omega
  rw [hsum (numChunks count) le_rfl]
  exact Nat.min_eq_right (le_chunkSize_mul_numChunks count)

/-- The blobs of an index are the records read only if each of them is. -/
theorem flatMap_recordsIn_eq_iff
    (nvs : NvsStore)
    (entries : List StorageIndexEntry) :
    (List.range (numChunks entries.length)).flatMap (recordsIn nvs entries.length) = entries ↔
      ∀ chunk < numChunks entries.length,
        recordsIn nvs entries.length chunk = chunkOf entries chunk := by
  have hall := flatMap_chunkOf entries (numChunks entries.length)
  rw [List.take_of_length_le (le_chunkSize_mul_numChunks entries.length)] at hall
  have hlength : ∀ chunk,
      (recordsIn nvs entries.length chunk).length = (chunkOf entries chunk).length := by
    intro chunk
    rw [recordsIn, decodeEntries_length, chunkOf_length]
  constructor
  · intro heq chunk hchunk
    have hlengths : ((List.range (numChunks entries.length)).map
          (recordsIn nvs entries.length)).map List.length =
        ((List.range (numChunks entries.length)).map (chunkOf entries)).map List.length := by
      simp only [List.map_map, List.map_inj_left, Function.comp_apply]
      exact fun c _ => hlength c
    have hblobs := List.eq_iff_flatten_eq.mpr ⟨heq.trans hall.symm, hlengths⟩
    exact List.map_inj_left.mp hblobs chunk (List.mem_range.mpr hchunk)
  · intro hblobs
    rw [List.flatMap_congr fun chunk hchunk => hblobs chunk (List.mem_range.mp hchunk), hall]

/-- How `load_index_from_nvs` ends, in terms of the contents. -/
theorem loadIndexFromNvs_eq
    (readOk : NvsRead → Bool)
    (engine : StorageEngine)
    (nvs : NvsStore)
    {stored : UInt16}
    {next : UInt32}
    (hopen : readOk .open = true)
    (hcreated : nvs.created = true)
    (hcount : (if readOk .count then nvs.count else none) = some stored)
    (hnext : (if readOk .nextIdx then nvs.nextIdx else none) = some next) :
    ((loadIndexFromNvs readOk engine nvs).1 = true ↔
      ∀ c < numChunks (min stored.toNat engine.maxIndexEntries),
        BlobsComplete readOk nvs (min stored.toNat engine.maxIndexEntries) c) ∧
    ((loadIndexFromNvs readOk engine nvs).1 = true →
      (loadIndexFromNvs readOk engine nvs).2.visible =
        (List.range (numChunks (min stored.toNat engine.maxIndexEntries))).flatMap
          (recordsIn nvs (min stored.toNat engine.maxIndexEntries))) ∧
    (loadIndexFromNvs readOk engine nvs).2.indexCount =
      min stored.toNat engine.maxIndexEntries ∧
    (loadIndexFromNvs readOk engine nvs).2.nextFileIndex = next := by
  obtain ⟨hcomplete, hall⟩ := readChunks_eq readOk nvs
    (min stored.toNat engine.maxIndexEntries)
    (numChunks (min stored.toNat engine.maxIndexEntries)) 0 []
  have hlength := recordsIn_length nvs (min stored.toNat engine.maxIndexEntries)
  unfold loadIndexFromNvs
  simp only [hopen, hcreated, hcount, hnext, Bool.not_true, Bool.false_eq_true, if_false]
  refine ⟨⟨?_, ?_⟩, ?_, trivial, trivial⟩
  · intro htrue c hc
    exact hall htrue c (Nat.zero_le c) (by omega)
  · intro hblobs
    rw [hcomplete fun c _ hc => hblobs c (by omega)]
  · intro htrue
    simp only [StorageEngine.visible]
    rw [hcomplete (hall htrue), ← List.range_eq_range']
    exact List.take_left' hlength

/-- Loading keeps the array, only its contents change. -/
theorem loadIndexFromNvs_maxIndexEntries
    (readOk : NvsRead → Bool)
    (engine : StorageEngine)
    (nvs : NvsStore) :
    (loadIndexFromNvs readOk engine nvs).2.maxIndexEntries = engine.maxIndexEntries := by
  unfold loadIndexFromNvs
  split
  · rfl
  split
  · rfl
  split
  · rfl
  · rename_i stored _
    dsimp only
    split
    · rfl
    · have hread := readChunks_length_le readOk nvs
        (min stored.toNat engine.maxIndexEntries)
        (numChunks (min stored.toNat engine.maxIndexEntries)) 0 [] (by simp)
      simp only [StorageEngine.maxIndexEntries, List.length_append, List.length_drop] at hread ⊢
      omega

/-- Loading the contents of a completed save, into an array that cuts at a blob boundary. -/
theorem load_image
    {nvs : NvsStore}
    {entries : List StorageIndexEntry}
    {next : UInt32}
    (himage : Image nvs entries next)
    (hsmall : entries.length < 2 ^ 16)
    {readOk : NvsRead → Bool}
    (hread : ∀ call, readOk call = true)
    (engine : StorageEngine)
    (hend : entries.length ≤ engine.maxIndexEntries ∨ chunkSize ∣ engine.maxIndexEntries) :
    (loadIndexFromNvs readOk engine nvs).1 = true ∧
      (loadIndexFromNvs readOk engine nvs).2.visible =
        entries.take engine.maxIndexEntries ∧
      (loadIndexFromNvs readOk engine nvs).2.nextFileIndex = next := by
  have hstored : (UInt16.ofNat entries.length).toNat = entries.length := by
    rw [UInt16.toNat_ofNat']
    exact Nat.mod_eq_of_lt hsmall
  obtain ⟨hiff, hvisible, _, hnext⟩ := loadIndexFromNvs_eq readOk engine nvs
    (hread .open) himage.created (by rw [hread, if_pos rfl, himage.count])
    (by rw [hread, if_pos rfl, himage.nextIdx])
  rw [hstored] at hiff hvisible
  have hle : min entries.length engine.maxIndexEntries ≤ entries.length := Nat.min_le_left _ _
  have hboundary : entries.length = min entries.length engine.maxIndexEntries ∨
      chunkSize ∣ min entries.length engine.maxIndexEntries := by
    rcases le_total entries.length engine.maxIndexEntries with hfits | hcut
    · exact Or.inl (Nat.min_eq_left hfits).symm
    · rw [Nat.min_eq_right hcut]
      rcases hend with hfits | hdvd
      · exact Or.inl (le_antisymm hfits hcut)
      · exact Or.inr hdvd
  have hblob : ∀ c < numChunks (min entries.length engine.maxIndexEntries),
      nvs.idx c = some (encodeEntries (chunkOf entries c)) ∧
        (chunkOf entries c).length =
          chunkEntries (min entries.length engine.maxIndexEntries) c := by
    intro c hc
    refine ⟨himage.blobs c ?_, ?_⟩
    · rw [lt_numChunks_iff] at hc ⊢
      omega
    · rw [chunkOf_length]
      exact chunkEntries_eq hle hboundary hc
  have htrue : (loadIndexFromNvs readOk engine nvs).1 = true := by
    refine hiff.mpr ?_
    intro c hc
    obtain ⟨hidx, hlen⟩ := hblob c hc
    exact ⟨hread _, _, hidx, by rw [encodeEntries_length, hlen]⟩
  refine ⟨htrue, ?_, hnext⟩
  rw [hvisible htrue]
  have hrecords : ∀ c < numChunks (min entries.length engine.maxIndexEntries),
      recordsIn nvs (min entries.length engine.maxIndexEntries) c = chunkOf entries c := by
    intro c hc
    obtain ⟨hidx, hlen⟩ := hblob c hc
    rw [recordsIn, hidx, Option.getD_some, ← hlen, decodeEntries_encodeEntries]
  rw [List.flatMap_congr fun c hc => hrecords c (List.mem_range.mp hc), flatMap_chunkOf]
  rcases hboundary with hfits | ⟨k, hk⟩
  · have hall := le_chunkSize_mul_numChunks entries.length
    rw [← hfits, List.take_of_length_le hall, List.take_of_length_le (by omega)]
  · have hcut : chunkSize * numChunks (min entries.length engine.maxIndexEntries) =
        min entries.length engine.maxIndexEntries := by
      rw [hk]
      simp only [numChunks, chunkSize]
      omega
    rw [hcut, ← List.take_take]
    exact List.take_of_length_le (List.length_take_le' _ _)

/-- What `storage_init` may find: records read completely, or nothing. -/
structure ReadCompletely
    (readOk : NvsRead → Bool)
    (nvs : NvsStore)
    (engine : StorageEngine) : Prop where
  header : ∃ stored,
    nvs.count = some stored ∧ engine.indexCount = min stored.toNat engine.maxIndexEntries
  nextIdx : nvs.nextIdx = some engine.nextFileIndex
  blobs : ∀ chunk < numChunks engine.indexCount,
    BlobsComplete readOk nvs engine.indexCount chunk
  records : engine.visible =
    (List.range (numChunks engine.indexCount)).flatMap (recordsIn nvs engine.indexCount)

/-- What `storage_init` starts with. -/
def InitOutcome
    (readOk : NvsRead → Bool)
    (nvs : NvsStore)
    (engine : StorageEngine) : Prop :=
  engine.indexCount ≤ engine.maxIndexEntries ∧
    (ReadCompletely readOk nvs engine ∨ engine.indexCount = 0 ∧ engine.nextFileIndex = 0)

/-- Loading into an engine that is still empty. -/
theorem loadIndexFromNvs_outcome
    (readOk : NvsRead → Bool)
    (nvs : NvsStore)
    {engine : StorageEngine}
    (hempty : engine.indexCount = 0 ∧ engine.nextFileIndex = 0)
    (htrue : (loadIndexFromNvs readOk engine nvs).1 = true) :
    InitOutcome readOk nvs (loadIndexFromNvs readOk engine nvs).2 := by
  refine ⟨(loadIndexFromNvs readOk engine nvs).2.indexCount_le, ?_⟩
  by_cases hopen : readOk .open = true
  case neg =>
    simp [loadIndexFromNvs, hopen] at htrue
  by_cases hcreated : nvs.created = true
  case neg =>
    right
    simpa [loadIndexFromNvs, hopen, hcreated] using hempty
  cases hcount : (if readOk .count then nvs.count else none) with
  | none => simp [loadIndexFromNvs, hopen, hcreated, hcount] at htrue
  | some stored =>
  cases hnext : (if readOk .nextIdx then nvs.nextIdx else none) with
  | none => simp [loadIndexFromNvs, hopen, hcreated, hcount, hnext] at htrue
  | some next =>
  left
  obtain ⟨hiff, hvisible, hindexCount, hnextIdx⟩ :=
    loadIndexFromNvs_eq readOk engine nvs hopen hcreated hcount hnext
  have hmax := loadIndexFromNvs_maxIndexEntries readOk engine nvs
  refine ⟨⟨stored, ?_, ?_⟩, ?_, ?_, ?_⟩
  · split at hcount
    · exact hcount
    · cases hcount
  · rw [hindexCount, hmax]
  · split at hnext
    · rw [hnextIdx]
      exact hnext
    · cases hnext
  · rw [hindexCount]
    exact hiff.mp htrue
  · rw [hindexCount]
    exact hvisible htrue

theorem InitOutcome.start
    {readOk : NvsRead → Bool}
    {nvs : NvsStore}
    {engine : StorageEngine}
    (h : InitOutcome readOk nvs engine) :
    InitOutcome readOk nvs { engine with initialized := true } := by
  obtain ⟨hle, hread | hnothing⟩ := h
  · exact ⟨hle, Or.inl ⟨hread.header, hread.nextIdx, hread.blobs, hread.records⟩⟩
  · exact ⟨hle, Or.inr hnothing⟩

theorem storageInit_outcome
    (env : InitEnv)
    (ttl : UInt32)
    (files : Files)
    (nvs : NvsStore) :
    InitOutcome env.read nvs (storageInit env ttl files nvs).2.engine := by
  have hnothing : ∀ engine : StorageEngine,
      engine.indexCount = 0 → engine.nextFileIndex = 0 →
      InitOutcome env.read nvs engine := by
    intro engine hcount hnext
    exact ⟨engine.indexCount_le, Or.inr ⟨hcount, hnext⟩⟩
  unfold storageInit
  split_ifs with hmutex halloc
  · exact hnothing _ rfl rfl
  · exact hnothing _ rfl rfl
  · have hloaded : InitOutcome env.read nvs
        (if (loadIndexFromNvs env.read
            (freshEngine (initCapacity env) ttl (initCapacity_le env)) nvs).1 then
          (loadIndexFromNvs env.read
            (freshEngine (initCapacity env) ttl (initCapacity_le env)) nvs).2
        else
          { (loadIndexFromNvs env.read
              (freshEngine (initCapacity env) ttl (initCapacity_le env)) nvs).2 with
            indexCount := 0
            nextFileIndex := 0
            indexCount_le := Nat.zero_le _ }) := by
      split
      · rename_i htrue
        exact loadIndexFromNvs_outcome env.read nvs ⟨rfl, rfl⟩ htrue
      · exact hnothing _ rfl rfl
    cases env.mount with
    | failed => exact hnothing _ rfl rfl
    | mounted => exact hloaded.start
    | formatted => exact hloaded.start

/-- A start only reads the store. -/
theorem storageInit_nvs
    (env : InitEnv)
    (ttl : UInt32)
    (files : Files)
    (nvs : NvsStore) :
    (storageInit env ttl files nvs).2.nvs = nvs := by
  unfold storageInit
  split_ifs
  · rfl
  · rfl
  · cases env.mount <;> rfl

/--
**Saving and loading the index.**  A completed save is loaded back exactly, or cut at a blob
boundary by a smaller array; and `storage_init` starts with records it read completely or with
an empty index, whatever it finds.
-/
theorem index_persistence_round_trip :
    (∀ (outcome : NvsCall → NvsOutcome) (engine : StorageEngine) (before : NvsStore),
      (saveIndexToNvs outcome engine before).1 = .storageOk →
      ∀ (readOk : NvsRead → Bool), (∀ call, readOk call = true) →
      ∀ reader : StorageEngine,
        (reader.maxIndexEntries = engine.maxIndexEntries →
          (loadIndexFromNvs readOk reader (saveIndexToNvs outcome engine before).2).1 = true ∧
          (loadIndexFromNvs readOk reader
            (saveIndexToNvs outcome engine before).2).2.indexCount = engine.indexCount ∧
          (loadIndexFromNvs readOk reader
            (saveIndexToNvs outcome engine before).2).2.nextFileIndex =
              engine.nextFileIndex ∧
          (loadIndexFromNvs readOk reader
            (saveIndexToNvs outcome engine before).2).2.visible = engine.visible) ∧
        (reader.maxIndexEntries < engine.maxIndexEntries →
          chunkSize ∣ reader.maxIndexEntries →
          (loadIndexFromNvs readOk reader (saveIndexToNvs outcome engine before).2).1 = true ∧
          (loadIndexFromNvs readOk reader
            (saveIndexToNvs outcome engine before).2).2.nextFileIndex =
              engine.nextFileIndex ∧
          (loadIndexFromNvs readOk reader
            (saveIndexToNvs outcome engine before).2).2.visible =
              engine.visible.take reader.maxIndexEntries)) ∧
    (∀ (env : InitEnv) (ttl : UInt32) (files : Files) (nvs : NvsStore),
      InitOutcome env.read nvs (storageInit env ttl files nvs).2.engine) := by
  refine ⟨?_, storageInit_outcome⟩
  intro outcome engine before hok readOk hread reader
  have himage := (saveIndexToNvs_writes outcome engine before).2 hok
  have hlength := engine.visible_length
  have hfit : engine.indexCount ≤ engine.maxIndexEntries := engine.indexCount_le
  have hsmall : engine.visible.length < 2 ^ 16 := by
    have hcounter := engine.indexCount_add_chunk_lt
    omega
  constructor
  · intro hsame
    obtain ⟨htrue, hvisible, hnext⟩ := load_image himage hsmall hread reader
      (Or.inl (by omega))
    rw [List.take_of_length_le (by omega)] at hvisible
    refine ⟨htrue, ?_, hnext, hvisible⟩
    rw [← StorageEngine.visible_length, hvisible, hlength]
  · intro _ hdvd
    obtain ⟨htrue, hvisible, hnext⟩ := load_image himage hsmall hread reader (Or.inr hdvd)
    exact ⟨htrue, hnext, hvisible⟩

/-! ## Starting from stored contents -/

/-- Nothing fails in `storage_init`, and the file system is not formatted. -/
structure InitEnv.Succeeds
    (env : InitEnv) : Prop where
  mutexOk : env.mutexOk = true
  allocOk : env.spiramOk = true ∨ env.callocOk = true
  mounted : env.mount = .mounted
  readOk : ∀ call, env.read call = true

/-- What `storage_init` starts with: records in use and next running number. -/
def Loads
    (env : InitEnv)
    (ttl : UInt32)
    (files : Files)
    (nvs : NvsStore)
    (entries : List StorageIndexEntry)
    (next : UInt32) : Prop :=
  (storageInit env ttl files nvs).2.engine.visible = entries ∧
    (storageInit env ttl files nvs).2.engine.nextFileIndex = next

/-- The engine `storage_init` makes of what the loader returned. -/
def startedEngine
    (loaded : Bool × StorageEngine) : StorageEngine :=
  { (if loaded.1 then loaded.2
      else
        { loaded.2 with
          indexCount := 0
          nextFileIndex := 0
          indexCount_le := Nat.zero_le _ }) with
    initialized := true }

@[simp] theorem startedEngine_visible
    (loaded : Bool × StorageEngine) :
    (startedEngine loaded).visible = if loaded.1 then loaded.2.visible else [] := by
  unfold startedEngine
  split <;> rfl

@[simp] theorem startedEngine_nextFileIndex
    (loaded : Bool × StorageEngine) :
    (startedEngine loaded).nextFileIndex =
      if loaded.1 then loaded.2.nextFileIndex else 0 := by
  unfold startedEngine
  split <;> rfl

@[simp] theorem startedEngine_maxIndexEntries
    (loaded : Bool × StorageEngine) :
    (startedEngine loaded).maxIndexEntries = loaded.2.maxIndexEntries := by
  unfold startedEngine
  split <;> rfl

section Start

variable
  {env : InitEnv}
  (henv : env.Succeeds)
  (ttl : UInt32)
  (files : Files)
include henv

/-- The world a successful `storage_init` starts with. -/
theorem storageInit_eq
    (nvs : NvsStore) :
    storageInit env ttl files nvs =
      (.espOk,
        { engine :=
            startedEngine
              (loadIndexFromNvs env.read
                (freshEngine (initCapacity env) ttl (initCapacity_le env)) nvs)
          files := files
          nvs := nvs }) := by
  have halloc : (!env.spiramOk && !env.callocOk) = false := by
    rcases henv.allocOk with hspiram | hcalloc
    · simp [hspiram]
    · simp [hcalloc]
  unfold storageInit
  simp only [henv.mutexOk, halloc, henv.mounted, Bool.not_true, Bool.false_eq_true, if_false]
  rfl

/-- The contents of a completed save are loaded in full. -/
theorem loads_image
    {nvs : NvsStore}
    {entries : List StorageIndexEntry}
    {next : UInt32}
    (himage : Image nvs entries next)
    (hfits : entries.length ≤ initCapacity env) :
    Loads env ttl files nvs entries next := by
  have hcap := initCapacity_le env
  have hfresh : (freshEngine (initCapacity env) ttl (initCapacity_le env)).maxIndexEntries =
      initCapacity env := by
    simp [freshEngine, StorageEngine.maxIndexEntries]
  obtain ⟨htrue, hvisible, hnext⟩ := load_image himage
    (by simp only [storageIndexEntries] at hcap; omega) henv.readOk
    (freshEngine (initCapacity env) ttl (initCapacity_le env)) (Or.inl (by omega))
  rw [hfresh, List.take_of_length_le hfits] at hvisible
  unfold Loads
  rw [storageInit_eq henv]
  simp [htrue, hvisible, hnext]

/-- Contents in which every blob has the expected length are loaded. -/
theorem loads_records
    {nvs : NvsStore}
    {count : Nat}
    {next : UInt32}
    (hcreated : nvs.created = true)
    (hcount : nvs.count = some (UInt16.ofNat count))
    (hnext : nvs.nextIdx = some next)
    (hfits : count ≤ initCapacity env)
    (hblobs : ∀ chunk < numChunks count, BlobFits nvs count chunk) :
    Loads env ttl files nvs
      ((List.range (numChunks count)).flatMap (recordsIn nvs count)) next := by
  have hcap := initCapacity_le env
  have hfresh : (freshEngine (initCapacity env) ttl (initCapacity_le env)).maxIndexEntries =
      initCapacity env := by
    simp [freshEngine, StorageEngine.maxIndexEntries]
  have hstored : (UInt16.ofNat count).toNat = count := by
    rw [UInt16.toNat_ofNat']
    simp only [storageIndexEntries] at hcap
    exact Nat.mod_eq_of_lt (by omega)
  obtain ⟨hiff, hvisible, -, hnextIdx⟩ := loadIndexFromNvs_eq env.read
    (freshEngine (initCapacity env) ttl (initCapacity_le env)) nvs (henv.readOk .open)
    hcreated (by rw [henv.readOk, if_pos rfl, hcount])
    (by rw [henv.readOk, if_pos rfl, hnext])
  rw [hstored, hfresh, Nat.min_eq_left hfits] at hiff hvisible
  have htrue := hiff.mpr fun chunk hchunk => ⟨henv.readOk _, hblobs chunk hchunk⟩
  unfold Loads
  rw [storageInit_eq henv]
  simp [htrue, hvisible htrue, hnextIdx]

/-- Contents with a blob missing or of the wrong length are not loaded at all. -/
theorem loads_nothing
    {nvs : NvsStore}
    {count : Nat}
    {next : UInt32}
    (hcreated : nvs.created = true)
    (hcount : nvs.count = some (UInt16.ofNat count))
    (hnext : nvs.nextIdx = some next)
    (hfits : count ≤ initCapacity env)
    (chunk : Nat)
    (hchunk : chunk < numChunks count)
    (hblob : ¬ BlobFits nvs count chunk) :
    Loads env ttl files nvs [] 0 := by
  have hcap := initCapacity_le env
  have hfresh : (freshEngine (initCapacity env) ttl (initCapacity_le env)).maxIndexEntries =
      initCapacity env := by
    simp [freshEngine, StorageEngine.maxIndexEntries]
  have hstored : (UInt16.ofNat count).toNat = count := by
    rw [UInt16.toNat_ofNat']
    simp only [storageIndexEntries] at hcap
    exact Nat.mod_eq_of_lt (by omega)
  obtain ⟨hiff, -, -, -⟩ := loadIndexFromNvs_eq env.read
    (freshEngine (initCapacity env) ttl (initCapacity_le env)) nvs (henv.readOk .open)
    hcreated (by rw [henv.readOk, if_pos rfl, hcount])
    (by rw [henv.readOk, if_pos rfl, hnext])
  rw [hstored, hfresh, Nat.min_eq_left hfits] at hiff
  have hfalse : (loadIndexFromNvs env.read
      (freshEngine (initCapacity env) ttl (initCapacity_le env)) nvs).1 = false := by
    rw [← Bool.not_eq_true, hiff]
    intro hall
    exact hblob (hall chunk hchunk).2
  unfold Loads
  rw [storageInit_eq henv]
  simp [hfalse]

end Start

/-! ## A store of notes -/

/-- The record of a note saved at its creation. -/
def noteRecord
    (n : Nat) : StorageIndexEntry where
  eventId := (Sample.numbered n).id
  createdAt := 1700000000
  expiresAt := 1701814400
  fileIndex := UInt32.ofNat n
  kind := 1
  pubkeyPrefix := Vector.replicate 4 0x5a
  flags := 0
  reserved := 0

/-- The slots of an engine with room for 1000 records, after `n` notes. -/
theorem noteSlots_length
    (n : Nat) :
    ((List.range n).map noteRecord ++
      List.replicate (1000 - n) StorageIndexEntry.zero).length = n + (1000 - n) := by
  simp

theorem le_noteSlots
    (n : Nat) :
    n ≤ ((List.range n).map noteRecord ++
      List.replicate (1000 - n) StorageIndexEntry.zero).length := by
  rw [noteSlots_length]
  exact Nat.le_add_right n _

theorem noteSlots_le
    (n : Nat)
    (hn : n ≤ 1000) :
    ((List.range n).map noteRecord ++
      List.replicate (1000 - n) StorageIndexEntry.zero).length ≤ storageIndexEntries := by
  rw [noteSlots_length, storageIndexEntries]
  omega

/-- An engine with 1000 slots after `n` notes. -/
def afterNotes
    (n : Nat)
    (hn : n ≤ 1000) : StorageEngine where
  index :=
    (List.range n).map noteRecord ++ List.replicate (1000 - n) StorageIndexEntry.zero
  indexCount := n
  nextFileIndex := UInt32.ofNat n
  initialized := true
  defaultTtlSec := 1814400
  indexCount_le := le_noteSlots n
  capacity_le := noteSlots_le n hn

theorem afterNotes_maxIndexEntries
    (n : Nat)
    (hn : n ≤ 1000) :
    (afterNotes n hn).maxIndexEntries = 1000 := by
  simp only [afterNotes, StorageEngine.maxIndexEntries, List.length_append, List.length_map,
    List.length_range, List.length_replicate]
  omega

theorem afterNotes_visible
    (n : Nat)
    (hn : n ≤ 1000) :
    (afterNotes n hn).visible = (List.range n).map noteRecord := by
  simp [afterNotes, StorageEngine.visible]

theorem afterNotes_visible_length
    (n : Nat)
    (hn : n ≤ 1000) :
    (afterNotes n hn).visible.length = n :=
  StorageEngine.visible_length _

/-- A start without external memory in which nothing fails. -/
def internalStart : InitEnv where
  mutexOk := true
  spiramOk := false
  callocOk := true
  mount := .mounted
  read := fun _ => true

theorem internalStart_succeeds : internalStart.Succeeds where
  mutexOk := rfl
  allocOk := Or.inr rfl
  mounted := rfl
  readOk := fun _ => rfl

/-- Sixty notes, loaded again in full and into an array with 50 slots. -/
theorem index_persistence_round_trip_sixty :
    let engine := afterNotes 60 (by decide)
    let stored := (saveIndexToNvs (fun _ => .ok) engine NvsStore.erased).2
    (loadIndexFromNvs (fun _ => true) (freshEngine 1000 1814400 (by decide))
        stored).2.visible = (List.range 60).map noteRecord ∧
      (loadIndexFromNvs (fun _ => true) (freshEngine 50 1814400 (by decide))
        stored).2.visible = (List.range 50).map noteRecord := by
  intro engine stored
  have hsaved : (saveIndexToNvs (fun _ => .ok) engine NvsStore.erased).1 = .storageOk :=
    congrArg Prod.fst (saveIndexToNvs_eq _ _ _ fun _ => rfl)
  have htrip := index_persistence_round_trip.1 (fun _ => .ok) engine NvsStore.erased hsaved
    (fun _ => true) (fun _ => rfl)
  have hvisible : engine.visible = (List.range 60).map noteRecord := afterNotes_visible 60 _
  have hslots : engine.maxIndexEntries = 1000 := afterNotes_maxIndexEntries 60 _
  have hfresh : ∀ slots (h : slots ≤ storageIndexEntries),
      (freshEngine slots 1814400 h).maxIndexEntries = slots := by
    intro slots h
    simp [freshEngine, StorageEngine.maxIndexEntries]
  have hfull := (htrip (freshEngine 1000 1814400 (by decide))).1 (by rw [hfresh, hslots])
  have hcut := (htrip (freshEngine 50 1814400 (by decide))).2
    (by rw [hfresh, hslots]; decide) (by rw [hfresh]; decide)
  refine ⟨hfull.2.2.2.trans hvisible, hcut.2.2.trans ?_⟩
  rw [hvisible, hfresh, ← List.map_take, List.take_range]
  rfl

end Storage
end WispRelay
