import WispRelay.Storage.Accesses
import WispRelay.Storage.Capacity

/-!
# What the accesses add up to

Every function of `Accesses` reads `initialized` and takes the lock before it touches anything
else, stays inside the array, gives the lock back on every path, and does what the function of
`Engine` with the same name says, from the memory of any engine: the counters of its loops do not
wrap, and each loop over the slots is the recursion over the records.

* `Memory` of a world, and `Yields`: what accesses in a row return and leave.
* `engineDiscipline`: only `initialized` is read without the lock.
* `Releases`: what is left of a function inside the lock, up to where it gives it back.
* `forSlots_meets`: the rule of the loops over the slots.
* `storageBody_implementing`: the contract of every operation.
-/

namespace WispRelay
namespace Storage

open Interference CriticalSections

/-- The memory of an engine, with the flash. -/
def StorageWorld.memory
    (w : StorageWorld) : Memory where
  index := w.engine.index
  indexCount := UInt16.ofNat w.engine.indexCount
  nextFileIndex := w.engine.nextFileIndex
  defaultTtlSec := w.engine.defaultTtlSec
  initialized := w.engine.initialized
  files := w.files
  nvs := w.nvs

/-- The memory of a started engine. -/
def HeldBy
    (m : Memory)
    (w : StorageWorld) : Prop :=
  m = w.memory ∧ w.engine.initialized = true

/-- Without the lock only `initialized` is read, and no one changes it. -/
def engineDiscipline : LockProg.Discipline memoryStep where
  allowed := InBounds
  bare := fun c => c = .initialized
  steady := fun m => m.initialized = true
  steady_step := by
    intro c m hm _
    cases c <;> exact hm
  bare_allowed := by
    rintro c m rfl _
    trivial
  bare_reads := by
    rintro c m rfl
    rfl

namespace Accesses

open LockProg

/-- A part of a body that makes allowed accesses only, and how it ends. -/
abbrev Does
    {α : Type}
    (p : EngineProg α)
    (post : α → Memory → Prop)
    (m : Memory) : Prop :=
  Prog.Meets memoryStep InBounds p post m

/-- A part of a body with the one result and the one memory it leaves. -/
abbrev Yields
    {α : Type}
    (p : EngineProg α)
    (m : Memory)
    (result : α)
    (m' : Memory) : Prop :=
  Does p (fun a m'' => a = result ∧ m'' = m') m

section Yields

variable
  {α β : Type}
  {p : EngineProg α}
  {m m' : Memory}
  {a : α}

theorem Yields.pure
    (a : α)
    (m : Memory) :
    Yields (pure a : EngineProg α) m a m :=
  Prog.Meets.pure ⟨rfl, rfl⟩

theorem Yields.bind
    {f : α → EngineProg β}
    {post : β → Memory → Prop}
    (h : Yields p m a m')
    (hf : Does (f a) post m') :
    Does (p >>= f) post m := by
  refine Prog.Meets.bind h ?_
  rintro _ _ ⟨rfl, rfl⟩
  exact hf

/-- One access. -/
theorem yields_perform
    (c : MemoryAccess)
    (m : Memory)
    (hbounds : InBounds c m) :
    Yields (Prog.perform c) m (memoryStep c m).1 (memoryStep c m).2 :=
  Prog.Meets.call hbounds (Prog.Meets.pure ⟨rfl, rfl⟩)

end Yields

/-- What is left of a function inside the lock, with its result and the memory at the end. -/
abbrev Releases
    {α : Type}
    (p : EngineBody α)
    (m : Memory)
    (result : α)
    (m' : Memory) : Prop :=
  Held memoryStep InBounds p (fun a m'' => a = result ∧ m'' = m') m

/-- A function that does what `sem` says of the world. -/
abbrev Implementing
    {α : Type}
    (sem : StorageWorld → α × StorageWorld)
    (body : EngineBody α) : Prop :=
  Performs engineDiscipline HeldBy sem body

section Releases

variable
  {α β : Type}
  {m m' : Memory}

theorem giveAndReturn_releases
    (a : α)
    (m : Memory) :
    Releases (giveAndReturn a) m a m :=
  Held.give ⟨rfl, rfl⟩

theorem Yields.hold
    {p : EngineProg α}
    {a : α}
    {f : α → EngineBody β}
    {post : β → Memory → Prop}
    (h : Yields p m a m')
    (hf : Held memoryStep InBounds (f a) post m') :
    Held memoryStep InBounds (accessing p >>= f) post m := by
  refine Held.accessing h ?_
  rintro _ _ ⟨rfl, rfl⟩
  exact hf

/-- A started engine passes the test. -/
theorem ifInitialized_implementing
    {sem : StorageWorld → α × StorageWorld}
    {body : EngineBody α}
    (other : α)
    (h : Implementing sem body) :
    Implementing sem (ifInitialized other body) := by
  refine ⟨rfl, fun m hm => ?_⟩
  have hstarted : (memoryStep .initialized m).1 = true := hm
  rw [hstarted]
  exact h

/-- From where the lock is taken the memory is that of a started engine. -/
theorem take_implementing
    {lib : Libnostr}
    {env : CallEnv}
    {call : StorageCall}
    {rest : EngineBody call.Ret}
    (h : ∀ w : StorageWorld, w.engine.initialized = true →
      Releases rest w.memory (storageCall lib env w call).1
        (storageCall lib env w call).2.memory) :
    Implementing (fun w => storageCall lib env w call) (do take; rest) := by
  rintro m w ⟨rfl, hinit⟩
  refine (h w hinit).mono ?_
  rintro result m' ⟨rfl, rfl⟩
  exact ⟨rfl, rfl, (storageCall_config lib env w call).1.trans hinit⟩

end Releases

/-! ## Slots -/

theorem modify_append_cons
    {α : Type}
    (front : List α)
    (x : α)
    (back : List α)
    (f : α → α) :
    (front ++ x :: back).modify front.length f = front ++ f x :: back := by
  induction front with
  | nil => rfl
  | cons y front ih => simpa using ih

/-- The array with the records in use, `used`, and the slots behind them. -/
structure Laid
    (m : Memory)
    (used spare : List StorageIndexEntry) : Prop where
  index : m.index = used ++ spare
  count : m.indexCount.toNat = used.length

section Slots

variable
  {m : Memory}
  {front rest spare : List StorageIndexEntry}
  {entry : StorageIndexEntry}
  {i : UInt16}

theorem Laid.split
    (h : Laid m (front ++ entry :: rest) spare) :
    m.index = front ++ entry :: (rest ++ spare) := by
  rw [h.index, List.append_assoc, List.cons_append]

theorem inBounds_split
    (h : m.index = front ++ entry :: rest)
    (hi : i.toNat = front.length) :
    i.toNat < m.index.length := by
  rw [h, hi]
  simp

theorem yields_slot
    (h : m.index = front ++ entry :: rest)
    (hi : i.toNat = front.length) :
    Yields (slot i) m entry m := by
  have hentry : m.index.getD i.toNat StorageIndexEntry.zero = entry := by
    rw [h, hi]
    simp
  have hread := yields_perform (.slot i) m (inBounds_split h hi)
  simp only [memoryStep, hentry] at hread
  exact hread

theorem yields_writeSlot
    (h : m.index = front ++ entry :: rest)
    (hi : i.toNat = front.length)
    (write : StorageIndexEntry → StorageIndexEntry) :
    Yields (writeSlot i write) m () { m with index := front ++ write entry :: rest } := by
  have hindex : m.index.modify i.toNat write = front ++ write entry :: rest := by
    rw [h, hi, modify_append_cons]
  have hwrite := yields_perform (.writeSlot i write) m (inBounds_split h hi)
  simp only [memoryStep, hindex] at hwrite
  exact hwrite

/--
**Rule of the loops over the slots.**  `J front rest` speaks of the records that were passed and
of those still to come; a turn takes the first of these.
-/
theorem forSlots_meets
    {β γ : Type}
    {body : UInt16 → β → EngineProg (Prog.Turn β γ)}
    {J : List StorageIndexEntry → List StorageIndexEntry → β → Memory → Prop}
    {post : Prog.Turn β γ → Memory → Prop}
    {n : Nat}
    (hn : n < 2 ^ 16)
    (hcount : ∀ front rest locals m, J front rest locals m →
      m.indexCount.toNat = n ∧ front.length + rest.length = n)
    (hbody : ∀ i front entry rest locals m, i.toNat = front.length →
      J front (entry :: rest) locals m →
      Does (body i locals)
        (Prog.TurnEnds (fun locals' m' => ∃ front', front'.length = front.length + 1 ∧
          J front' rest locals' m') post) m)
    (hexit : ∀ front locals m, J front [] locals m → post (.goOn locals) m)
    {rest : List StorageIndexEntry}
    {locals : β}
    {m : Memory}
    (h : J [] rest locals m) :
    Does (forSlots body locals) post m := by
  refine Prog.Meets.counted (n := n)
    (I := fun j locals m => ∃ front rest, front.length = j ∧ J front rest locals m)
    (by decide) (by simpa using hn) ?_ ?_ ?_ (by omega) ⟨[], rest, rfl, h⟩
  · rintro j locals m ⟨front, rest, -, hJ⟩
    exact (yields_perform .indexCount m trivial).mono
      fun _ _ hread => ⟨hread.1 ▸ (hcount _ _ _ _ hJ).1, hread.2⟩
  · rintro i locals m hi ⟨front, rest, hfront, hJ⟩
    have hlength := (hcount _ _ _ _ hJ).2
    obtain _ | ⟨entry, rest⟩ := rest
    · simp only [List.length_nil] at hlength
      omega
    · refine (hbody i front entry rest locals m hfront.symm hJ).mono ?_
      intro turn m' hturn
      cases turn with
      | goOn locals' =>
          obtain ⟨front', hlength', hJ'⟩ := hturn
          exact ⟨front', rest, by rw [hlength', hfront]; rfl, hJ'⟩
      | leave result => exact hturn
  · rintro j locals m hj ⟨front, rest, hfront, hJ⟩
    have hlength := (hcount _ _ _ _ hJ).2
    obtain rfl : rest = [] := by
      apply List.length_eq_zero_iff.mp
      omega
    exact hexit front locals m hJ

end Slots

/-! ## Finding, loading and marking -/

section Parts

variable
  {lib : Libnostr}
  {env : CallEnv}
  {m : Memory}
  {used front rest spare : List StorageIndexEntry}
  {entry : StorageIndexEntry}
  {i : UInt16}

theorem Laid.count_lt
    (h : Laid m used spare) :
    used.length < 2 ^ 16 := by
  rw [← h.count]
  exact m.indexCount.toNat_lt

/-- `find_index_entry` finds the first live record with the identifier. -/
theorem findIndexEntry_meets
    (h : Laid m used spare)
    (eventId : Bytes32) :
    Does (findIndexEntry eventId)
      (fun found m' => m' = m ∧ found.map UInt16.toNat =
        used.findIdx? (fun entry => entry.eventId == eventId && !entry.isDeleted)) m := by
  let p := fun entry : StorageIndexEntry => entry.eventId == eventId && !entry.isDeleted
  have hloop : Does (forSlots (findTurn eventId) ())
      (fun turn m' => m' = m ∧ (∀ i, turn = .leave i → used.findIdx? p = some i.toNat) ∧
        (turn = .goOn () → used.findIdx? p = none)) m := by
    refine forSlots_meets (n := used.length)
      (J := fun front rest _ m' => m' = m ∧ front ++ rest = used ∧ front.findIdx? p = none)
      h.count_lt ?_ ?_ ?_ ⟨rfl, List.nil_append _, rfl⟩
    · rintro front rest _ m' ⟨rfl, rfl, -⟩
      exact ⟨h.count, List.length_append.symm⟩
    · rintro i front entry rest _ m' hi ⟨rfl, rfl, hfront⟩
      have hpassed : p entry = false → (front ++ [entry]).findIdx? p = none := by
        intro hentry
        rw [List.findIdx?_append, hfront]
        simp [List.findIdx?_cons, hentry]
      refine (yields_slot h.split hi).bind ?_
      split
      next hid =>
        refine (yields_slot h.split hi).bind ?_
        split
        next hlive =>
          refine Prog.Meets.pure ⟨rfl, ?_, by simp⟩
          rintro j ⟨⟩
          have hentry : p entry = true := by simp only [p, hid, hlive, Bool.and_self]
          rw [List.findIdx?_append, hfront]
          simp [List.findIdx?_cons, hentry, hi]
        next hdead =>
          exact Prog.Meets.pure ⟨_, by simp, rfl, by simp, hpassed (by simp [p, hdead])⟩
      next hid => exact Prog.Meets.pure ⟨_, by simp, rfl, by simp, hpassed (by simp [p, hid])⟩
    · rintro front _ m' ⟨rfl, hused, hfront⟩
      rw [List.append_nil] at hused
      exact ⟨rfl, by simp, fun _ => hused ▸ hfront⟩
  refine hloop.bind ?_
  rintro (⟨⟩ | i) m' ⟨rfl, hfound, hnone⟩
  · exact Prog.Meets.pure ⟨rfl, (hnone rfl).symm⟩
  · exact Prog.Meets.pure ⟨rfl, (hfound i rfl).symm⟩

/-- `load_event_from_file`. -/
theorem yields_loadEventFromFile
    (path : CString) :
    Yields (loadEventFromFile lib env path) m (Storage.loadEventFromFile lib env m.files path)
      m := by
  unfold loadEventFromFile Storage.loadEventFromFile
  split_ifs with hread
  · refine (yields_perform (.readFile path) m trivial).bind ?_
    cases hfile : m.files path with
    | none =>
        simp only [memoryStep, hfile]
        exact Yields.pure _ _
    | some json =>
        simp only [memoryStep, hfile]
        split_ifs <;> exact Yields.pure _ _
  · exact Yields.pure _ _

/-- `unlink`. -/
theorem yields_unlink
    (path : CString) :
    Yields (unlink env path) m () { m with files := Storage.unlink env m.files path } := by
  unfold unlink Storage.unlink
  cases env.unlinkOk path with
  | true => exact yields_perform (.unlink path) m trivial
  | false => exact Yields.pure _ _

/-- `mark_entry_expired`. -/
theorem yields_markEntryExpired
    (h : m.index = front ++ entry :: rest)
    (hi : i.toNat = front.length) :
    Yields (markEntryExpired lib env i) m ()
      { m with
        index := front ++ entry.markDeleted :: rest
        files := Storage.unlink env m.files (entry.path lib) } := by
  refine (yields_slot h hi).bind ((yields_unlink (entry.path lib)).bind ?_)
  exact yields_writeSlot (m := { m with files := Storage.unlink env m.files (entry.path lib) })
    h hi StorageIndexEntry.markDeleted

/-! ## Persisting the index -/

/-- The records of one blob. -/
theorem yields_readSlots
    (h : Laid m used spare)
    (n : Nat)
    (hn : i.toNat + n ≤ used.length) :
    Yields (readSlots i n) m ((used.drop i.toNat).take n) m := by
  induction n with
  | zero => exact Yields.pure _ _
  | succ n ih =>
      have hlt := h.count_lt
      have hget : i.toNat + n < used.length := by omega
      have hsplit : used = used.take (i.toNat + n) ++ used[i.toNat + n] ::
          used.drop (i.toNat + n + 1) := by
        rw [List.cons_getElem_drop_succ, List.take_append_drop]
      have hi : (i + UInt16.ofNat n).toNat = (used.take (i.toNat + n)).length := by
        have hsmall : n % 2 ^ 16 = n := Nat.mod_eq_of_lt (by omega)
        rw [UInt16.toNat_add, UInt16.toNat_ofNat', hsmall, List.length_take]
        omega
      have hslot := yields_slot (hsplit ▸ h : Laid m _ spare).split hi
      refine (ih (by omega)).bind (hslot.bind ?_)
      have htake : (used.drop i.toNat).take (n + 1) =
          (used.drop i.toNat).take n ++ [used[i.toNat + n]] := by
        rw [List.take_add_one, List.getElem?_drop, List.getElem?_eq_getElem hget]
        rfl
      rw [htake]
      exact Yields.pure _ _

/-- The loop that writes the blobs. -/
theorem chunks_meets
    (outcome : NvsCall → NvsOutcome)
    (h : Laid m used spare)
    (hcap : used.length ≤ storageIndexEntries) :
    Does (Prog.counted indexCount 50 (chunkTurn outcome) (2 ^ 16) 0 ())
      (fun turn m' => ∃ nvs, m' = { m with nvs := nvs } ∧
        writeChunks outcome used (numChunks used.length) 0 m.nvs =
          (match turn with
            | .leave result => some result
            | .goOn () => none, nvs)) m := by
  have hchunks : numChunks used.length * chunkSize < used.length + chunkSize ∧
      used.length ≤ numChunks used.length * chunkSize := by
    simp only [numChunks, chunkSize]
    omega
  simp only [chunkSize] at hchunks
  refine Prog.Meets.counted (n := used.length)
    (I := fun j _ m' => ∃ chunk nvs, j = chunkSize * chunk ∧ m' = { m with nvs := nvs } ∧
      writeChunks outcome used (numChunks used.length) 0 m.nvs =
        writeChunks outcome used (numChunks used.length - chunk) chunk nvs)
    (by decide) ?_ ?_ ?_ ?_ (by have := h.count_lt; simp only [UInt16.toNat_zero]; omega)
    ⟨0, m.nvs, rfl, rfl, rfl⟩
  · simp only [storageIndexEntries] at hcap
    have hstride : (50 : UInt16).toNat = 50 := rfl
    omega
  · rintro j _ m' ⟨chunk, nvs, -, rfl, -⟩
    exact (yields_perform .indexCount _ trivial).mono fun _ _ hread => ⟨hread.1 ▸ h.count, hread.2⟩
  · rintro i _ m' hi ⟨chunk, nvs, hchunk, rfl, hleft⟩
    simp only [chunkSize] at hchunk
    have hlaid : Laid { m with nvs := nvs } used spare := ⟨h.index, h.count⟩
    obtain ⟨left, hremaining⟩ : ∃ left, numChunks used.length - chunk = left + 1 :=
      ⟨numChunks used.length - chunk - 1, by omega⟩
    have hentries : (used.drop i.toNat).take (min (used.length - i.toNat) chunkSize) =
        chunkOf used chunk := by
      rw [chunkOf, hchunk, chunkSize, Nat.min_comm, ← List.length_drop, ← List.take_eq_take_min]
    refine (yields_perform .indexCount _ trivial).bind ?_
    simp only [memoryStep, h.count]
    refine (yields_readSlots hlaid _ (by omega)).bind ?_
    have hdiv : i.toNat / chunkSize = chunk := by
      rw [hchunk]
      exact Nat.mul_div_cancel_left _ (by decide)
    have hnext : numChunks used.length - (chunk + 1) = left := by omega
    rw [hentries, hdiv]
    rw [hremaining, writeChunks] at hleft
    cases hstop : (outcome (.setBlob chunk)).stop with
    | some result =>
        rw [hstop] at hleft
        exact Prog.Meets.pure ⟨nvs, rfl, hleft⟩
    | none =>
        rw [hstop] at hleft
        refine (yields_perform (.nvsSetBlob chunk _) _ trivial).bind ?_
        refine Prog.Meets.pure ⟨chunk + 1, _, ?_, rfl, by rw [hleft, hnext]⟩
        have hstride : (50 : UInt16).toNat = 50 := rfl
        simp only [chunkSize]
        omega
  · rintro j _ m' hj ⟨chunk, nvs, rfl, rfl, hleft⟩
    refine ⟨nvs, rfl, ?_⟩
    simp only [chunkSize] at hj
    have hnone : numChunks used.length - chunk = 0 := by omega
    rw [hleft, hnone]
    rfl

/-- Erasing a key that is not there. -/
theorem eraseIdx_of_isNone
    {nvs : NvsStore}
    {chunk : Nat}
    (h : nvs.idx chunk = none) :
    nvs.eraseIdx chunk = nvs := by
  unfold NvsStore.eraseIdx
  rw [← h, Function.update_eq_self]

/-- The end of `save_index_to_nvs`. -/
theorem yields_eraseAndCommit
    (outcome : NvsCall → NvsOutcome)
    {chunks : UInt16}
    (hchunks : chunks.toNat ≤ 100) :
    Yields (eraseAndCommit outcome chunks) m
      (match eraseStale outcome (100 - chunks.toNat) chunks.toNat m.nvs with
        | (some result, _) => result
        | (none, _) => (outcome .commit).stop.getD .storageOk)
      { m with nvs := (eraseStale outcome (100 - chunks.toNat) chunks.toNat m.nvs).2 } := by
  have hloop : Does (Prog.counted (pure 100) 1 (eraseTurn outcome) (2 ^ 16) chunks ())
      (fun turn m' => ∃ nvs, m' = { m with nvs := nvs } ∧
        eraseStale outcome (100 - chunks.toNat) chunks.toNat m.nvs =
          (match turn with
            | .leave result => result
            | .goOn () => none, nvs)) m := by
    refine Prog.Meets.counted (n := 100)
      (I := fun j _ m' => ∃ nvs, m' = { m with nvs := nvs } ∧
        eraseStale outcome (100 - chunks.toNat) chunks.toNat m.nvs =
          eraseStale outcome (100 - j) j nvs)
      (by decide) (by decide) ?_ ?_ ?_ (by omega) ⟨m.nvs, rfl, rfl⟩
    · rintro j _ m' -
      exact Prog.Meets.pure ⟨rfl, rfl⟩
    · rintro i _ m' hi ⟨nvs, rfl, hleft⟩
      obtain ⟨left, hremaining⟩ : ∃ left, 100 - i.toNat = left + 1 :=
        ⟨100 - i.toNat - 1, by omega⟩
      have hnext : 100 - (i.toNat + (1 : UInt16).toNat) = left := by
        have hstride : (1 : UInt16).toNat = 1 := rfl
        omega
      rw [hremaining, eraseStale] at hleft
      unfold eraseTurn
      cases hcase : outcome (.eraseKey i.toNat) with
      | cut =>
          rw [hcase] at hleft
          exact Prog.Meets.pure ⟨nvs, rfl, hleft⟩
      | fail =>
          rw [hcase] at hleft
          exact Prog.Meets.pure ⟨nvs, rfl, by rw [hleft, hnext]; rfl⟩
      | ok =>
          rw [hcase] at hleft
          refine (yields_perform (.nvsEraseKey i.toNat) _ trivial).bind ?_
          cases hfound : nvs.idx i.toNat with
          | none =>
              simp only [hfound, Option.isNone_none, if_true] at hleft
              simp only [memoryStep, hfound, Option.isSome_none, Bool.false_eq_true, if_false]
              exact Prog.Meets.pure ⟨nvs, by rw [eraseIdx_of_isNone hfound], hleft⟩
          | some blob =>
              simp only [hfound, Option.isNone_some, Bool.false_eq_true, if_false] at hleft
              simp only [memoryStep, hfound, Option.isSome_some, if_true]
              exact Prog.Meets.pure ⟨_, rfl, by rw [hleft, hnext]; rfl⟩
    · rintro j _ m' hj ⟨nvs, rfl, hleft⟩
      refine ⟨nvs, rfl, ?_⟩
      rw [hleft, Nat.sub_eq_zero_of_le hj]
      rfl
  refine hloop.bind ?_
  rintro (⟨⟩ | (_ | result)) m' ⟨nvs, rfl, herased⟩
  all_goals
    rw [herased]
    exact Yields.pure _ _

end Parts

/-! ## Whole functions -/

section Functions

variable
  {lib : Libnostr}
  {env : CallEnv}
  {w : StorageWorld}

theorem indexCount_lt
    (engine : StorageEngine) :
    engine.indexCount < 2 ^ 16 := by
  have hroom := engine.indexCount_add_chunk_lt
  omega

@[simp] theorem memory_indexCount_toNat :
    w.memory.indexCount.toNat = w.engine.indexCount :=
  UInt16.toNat_ofNat_of_lt' (indexCount_lt w.engine)

theorem laid_memory :
    Laid w.memory w.engine.visible (w.engine.index.drop w.engine.indexCount) where
  index := (List.take_append_drop _ _).symm
  count := by simp

/-- `save_index_to_nvs`. -/
theorem yields_saveIndexToNvs
    (outcome : NvsCall → NvsOutcome) :
    Yields (saveIndexToNvs outcome) w.memory
      (Storage.saveIndexToNvs outcome w.engine w.nvs).1
      ({ w with nvs := (Storage.saveIndexToNvs outcome w.engine w.nvs).2 } : StorageWorld).memory
    := by
  unfold saveIndexToNvs Storage.saveIndexToNvs
  cases (outcome .open).stop with
  | some result => exact Yields.pure _ _
  | none =>
  refine (yields_perform .nvsOpen _ trivial).bind ?_
  refine (yields_perform .indexCount _ trivial).bind ?_
  cases (outcome .setCount).stop with
  | some result => exact Yields.pure _ _
  | none =>
  refine (yields_perform (.nvsSetCount _) _ trivial).bind ?_
  refine (yields_perform .nextFileIndex _ trivial).bind ?_
  cases (outcome .setNextIdx).stop with
  | some result => exact Yields.pure _ _
  | none =>
  refine (yields_perform (.nvsSetNextIdx _) _ trivial).bind ?_
  refine (yields_perform .indexCount _ trivial).bind ?_
  let numbered : NvsStore :=
    { w.nvs with
      created := true
      count := some (UInt16.ofNat w.engine.indexCount)
      nextIdx := some w.engine.nextFileIndex }
  have hlaid := @laid_memory w
  have hcount := w.engine.indexCount_le.trans w.engine.capacity_le
  have hloop := chunks_meets (m := { w.memory with nvs := numbered }) outcome
    ⟨hlaid.index, hlaid.count⟩ ((StorageEngine.visible_length _).trans_le hcount)
  simp only [memoryStep, memory_indexCount_toNat]
  refine Prog.Meets.bind hloop ?_
  rintro turn m' ⟨nvs, rfl, hwritten⟩
  rw [StorageEngine.visible_length] at hwritten
  simp only [numbered] at hwritten
  dsimp only
  rw [hwritten]
  cases turn with
  | leave result => exact Yields.pure _ _
  | goOn =>
      have hchunks : numChunks w.engine.indexCount ≤ 100 := by
        simp only [numChunks, chunkSize, storageIndexEntries] at hcount ⊢
        omega
      have hnum : (UInt16.ofNat (numChunks w.engine.indexCount)).toNat =
          numChunks w.engine.indexCount :=
        UInt16.toNat_ofNat_of_lt' (hchunks.trans_lt (by decide))
      have herase := yields_eraseAndCommit (m := { w.memory with nvs := nvs }) outcome
        (hnum.trans_le hchunks)
      rw [hnum] at herase
      refine herase.mono ?_
      rintro result m'' ⟨rfl, rfl⟩
      dsimp only
      cases eraseStale outcome (100 - numChunks w.engine.indexCount)
          (numChunks w.engine.indexCount) nvs with
      | mk stopped trimmed =>
          cases stopped with
          | some result => exact ⟨rfl, rfl⟩
          | none => cases (outcome .commit).stop <;> exact ⟨rfl, rfl⟩

/-- `save_index_to_nvs`, with the result ignored. -/
theorem yields_persist
    {α : Type}
    (a : α) :
    Yields (do let _ ← saveIndexToNvs env.nvs; pure a) w.memory a (persist env w).memory :=
  (yields_saveIndexToNvs env.nvs).bind (Yields.pure _ _)

theorem persist_releases
    {α : Type}
    (a : α) :
    Releases (do let _ ← accessing (saveIndexToNvs env.nvs); giveAndReturn a) w.memory a
      (persist env w).memory :=
  (yields_saveIndexToNvs env.nvs).hold (giveAndReturn_releases _ _)

/-! ### Lookups -/

theorem findIndexEntry_world
    (eventId : Bytes32) :
    Does (findIndexEntry eventId)
      (fun found m' => m' = w.memory ∧
        found.map UInt16.toNat = Storage.findIndexEntry w.engine eventId) w.memory :=
  findIndexEntry_meets laid_memory eventId

/-- A slot, with what lies before and behind it. -/
theorem index_split
    {n : Nat}
    {slots : List StorageIndexEntry}
    (hn : n < slots.length) :
    ∃ front entry rest, slots = front ++ entry :: rest ∧ front.length = n := by
  refine ⟨slots.take n, slots[n], slots.drop (n + 1), ?_, ?_⟩
  · rw [List.cons_getElem_drop_succ, List.take_append_drop]
  · rw [List.length_take]
    omega

/-- The record that was found, with what lies before and behind it. -/
theorem visible_split
    {engine : StorageEngine}
    {eventId : Bytes32}
    {k : Nat}
    (hfound : Storage.findIndexEntry engine eventId = some k) :
    ∃ front entry rest, engine.visible = front ++ entry :: rest ∧ front.length = k ∧
      foundEntry engine eventId = some entry := by
  obtain ⟨hlt, -, -⟩ := List.findIdx?_eq_some_iff_getElem.mp hfound
  obtain ⟨front, entry, rest, hvisible, hlength⟩ := index_split hlt
  refine ⟨front, entry, rest, hvisible, hlength, ?_⟩
  rw [← findIndexEntry_eq, hfound, Option.bind_some, hvisible, ← hlength]
  simp

theorem storageEventExists_implementing
    (eventId : Bytes32) :
    Implementing (fun w => storageCall lib env w (.eventExists eventId))
      (storageEventExists eventId) := by
  refine ifInitialized_implementing _ (take_implementing fun w hinit => ?_)
  refine Held.accessing (findIndexEntry_world eventId) ?_
  rintro found m' ⟨rfl, hfound⟩
  refine Held.give ⟨?_, rfl⟩
  change found.isSome = Storage.storageEventExists w eventId
  rw [Storage.storageEventExists, hinit, ← hfound, Option.isSome_map, Bool.true_and]

theorem storageGetEvent_implementing
    (eventId : Bytes32) :
    Implementing (fun w => storageCall lib env w (.get eventId))
      (storageGetEvent lib env eventId) := by
  refine ifInitialized_implementing _ (take_implementing fun w hinit => ?_)
  change Releases _ w.memory (Storage.storageGetEvent lib env w eventId) w.memory
  refine Held.accessing (findIndexEntry_world eventId) ?_
  rintro (_ | i) m' ⟨rfl, hfound⟩
  · have hnone : foundEntry w.engine eventId = none := by
      rw [← Option.isNone_iff_eq_none, ← Option.not_isSome, ← findIndexEntry_isSome, ← hfound]
      simp
    refine Held.give ⟨?_, rfl⟩
    rw [Storage.storageGetEvent, hinit, hnone]
    rfl
  · obtain ⟨front, entry, rest, hvisible, hlength, hentry⟩ := visible_split hfound.symm
    have hlaid := @laid_memory w
    rw [hvisible] at hlaid
    have hresult : Storage.storageGetEvent lib env w eventId =
        Storage.loadEventFromFile lib env w.files (entry.path lib) := by
      rw [Storage.storageGetEvent, hinit, hentry]
      rfl
    rw [hresult]
    refine (yields_slot hlaid.split hlength.symm).hold ?_
    exact (yields_loadEventFromFile (m := w.memory) _).hold (giveAndReturn_releases _ _)

theorem storageDeleteEvent_implementing
    (eventId : Bytes32) :
    Implementing (fun w => storageCall lib env w (.delete eventId))
      (storageDeleteEvent lib env eventId) := by
  refine ifInitialized_implementing _ (take_implementing fun w hinit => ?_)
  change Releases _ w.memory (Storage.storageDeleteEvent lib env w eventId).1
    (Storage.storageDeleteEvent lib env w eventId).2.memory
  refine Held.accessing (findIndexEntry_world eventId) ?_
  rintro (_ | i) m' ⟨rfl, hfound⟩
  · refine Held.give ?_
    rw [Storage.storageDeleteEvent, hinit, ← hfound]
    exact ⟨rfl, rfl⟩
  · obtain ⟨front, entry, rest, hvisible, hlength, hentry⟩ := visible_split hfound.symm
    have hlaid := @laid_memory w
    rw [hvisible] at hlaid
    refine (yields_slot hlaid.split hlength.symm).hold ?_
    refine (yields_unlink (entry.path lib)).hold ?_
    refine (yields_writeSlot (m := { w.memory with
      files := Storage.unlink env w.files (entry.path lib) }) hlaid.split hlength.symm
      StorageIndexEntry.markDeleted).hold ?_
    have hmodify : w.engine.visible.modify i.toNat StorageIndexEntry.markDeleted =
        front ++ entry.markDeleted :: rest := by
      rw [hvisible, ← hlength, modify_append_cons]
    have hgetD : w.engine.visible.getD i.toNat StorageIndexEntry.zero = entry := by
      rw [hvisible, ← hlength]
      simp
    rw [Storage.storageDeleteEvent, hinit, ← hfound]
    simp only [Option.map_some, Bool.not_true, Bool.false_eq_true, if_false, hmodify, hgetD]
    have hpersist := @persist_releases env { w with
      engine := w.engine.withVisible (front ++ entry.markDeleted :: rest) (by
        rw [← hmodify]
        simp)
      files := Storage.unlink env w.files (entry.path lib) } _ StorageError.storageOk
    simpa [StorageWorld.memory, StorageEngine.withVisible] using hpersist

/-! ### Expiry and compaction -/

variable
  {front rest : List StorageIndexEntry}
  {entry : StorageIndexEntry}
  {i : UInt16}

variable (lib env w) in
/-- The loop of `storage_purge_expired` with `front` behind it and `rest` still to come. -/
structure Purging
    (front rest : List StorageIndexEntry)
    (purged : Nat)
    (m : Memory) : Prop where
  memory : m = { w.memory with
    index := front ++ (rest ++ w.engine.index.drop w.engine.indexCount)
    files := m.files }
  length : front.length + rest.length = w.engine.indexCount
  left : purgeLoop lib env w.engine.visible w.files =
    (front ++ (purgeLoop lib env rest m.files).1, (purgeLoop lib env rest m.files).2.1,
      purged + (purgeLoop lib env rest m.files).2.2)

/-- One record is passed, or marked and its file removed. -/
theorem purgeTurn_meets
    {purged : Nat}
    {m : Memory}
    {post : Prog.Turn Nat Empty → Memory → Prop}
    (hi : i.toNat = front.length)
    (h : Purging lib env w front (entry :: rest) purged m) :
    Does (purgeTurn lib env i purged)
      (Prog.TurnEnds (fun purged' m' => ∃ front', front'.length = front.length + 1 ∧
        Purging lib env w front' rest purged' m') post) m := by
  obtain ⟨hmemory, hlength, hleft⟩ := h
  have hindex : m.index = front ++ entry :: (rest ++ w.engine.index.drop w.engine.indexCount) := by
    rw [hmemory, List.cons_append]
  simp only [List.length_cons] at hlength
  have hpassed (hskip : purgeLoop lib env (entry :: rest) m.files =
      (entry :: (purgeLoop lib env rest m.files).1, (purgeLoop lib env rest m.files).2.1,
        (purgeLoop lib env rest m.files).2.2)) :
      Purging lib env w (front ++ [entry]) rest purged m := by
    refine ⟨by simpa using hmemory, ?_, ?_⟩
    · simp only [List.length_append, List.length_cons, List.length_nil]
      omega
    · rw [hleft, hskip]
      simp
  refine (yields_slot hindex hi).bind ?_
  split
  next hdeleted =>
    refine Prog.Meets.pure ⟨front ++ [entry], by simp, hpassed ?_⟩
    rw [purgeLoop, if_pos hdeleted]
  next hdeleted =>
    refine (yields_slot hindex hi).bind ?_
    split
    next hexpired =>
      refine (yields_markEntryExpired hindex hi).bind (Prog.Meets.pure ?_)
      refine ⟨front ++ [entry.markDeleted], by simp, ⟨?_, ?_, ?_⟩⟩
      · rw [hmemory]
        simp
      · simp only [List.length_append, List.length_cons, List.length_nil]
        omega
      · rw [hleft, purgeLoop, if_neg hdeleted, if_pos hexpired]
        simp [Nat.add_assoc, Nat.add_comm 1]
    next hexpired =>
      refine Prog.Meets.pure ⟨front ++ [entry], by simp, hpassed ?_⟩
      rw [purgeLoop, if_neg hdeleted, if_neg hexpired]

theorem storagePurgeExpired_implementing :
    Implementing (fun w => storageCall lib env w .purge) (storagePurgeExpired lib env) := by
  refine ifInitialized_implementing _ (take_implementing fun w hinit => ?_)
  change Releases _ w.memory (Storage.storagePurgeExpired lib env w).1
    (Storage.storagePurgeExpired lib env w).2.memory
  let r := purgeLoop lib env w.engine.visible w.files
  let purged : StorageWorld :=
    { w with
      engine := w.engine.withVisible r.1 (by simp [r])
      files := r.2.1 }
  have hstart : Purging lib env w [] w.engine.visible 0 w.memory :=
    ⟨by rw [List.nil_append, ← laid_memory.index], by simp, by simp [StorageWorld.memory]⟩
  have hloop : Does (forSlots (purgeTurn lib env) 0)
      (fun turn m' => turn = .goOn r.2.2 ∧ m' = purged.memory) w.memory := by
    refine forSlots_meets (n := w.engine.indexCount) (J := Purging lib env w)
      (indexCount_lt w.engine) ?_ ?_ ?_ hstart
    · intro front rest purged m' h
      exact ⟨by rw [h.memory]; exact memory_indexCount_toNat, h.length⟩
    · exact fun i front entry rest purged m' hi h => purgeTurn_meets hi h
    · rintro front count m' ⟨hmemory, -, hleft⟩
      rw [hmemory]
      simp [purged, r, hleft, purgeLoop, StorageWorld.memory, StorageEngine.withVisible]
  refine Held.accessing hloop ?_
  rintro turn m' ⟨rfl, rfl⟩
  rw [Storage.storagePurgeExpired, hinit]
  change Releases _ purged.memory r.2.2 (if 0 < r.2.2 then persist env purged else purged).memory
  dsimp only
  split
  next hsome => exact persist_releases _
  next hnone => exact giveAndReturn_releases _ _

variable (w) in
/-- The loop of `storage_compact_index` with `front` behind the read counter. -/
structure Compacting
    (front rest : List StorageIndexEntry)
    (locals : UInt16 × Nat)
    (m : Memory) : Prop where
  memory : m = { w.memory with
    index := front ++ (rest ++ w.engine.index.drop w.engine.indexCount) }
  length : front.length + rest.length = w.engine.indexCount
  counted : locals.1.toNat + locals.2 = front.length
  left : compactLoop w.engine =
    InPlaceFilter.inPlaceFilter (fun entry => !entry.isDeleted)
      (front ++ (rest ++ w.engine.index.drop w.engine.indexCount)) rest.length front.length
      locals.1.toNat

/-- One record is dropped, or copied down to the write counter. -/
theorem compactTurn_meets
    {locals : UInt16 × Nat}
    {m : Memory}
    {post : Prog.Turn (UInt16 × Nat) Empty → Memory → Prop}
    (hi : i.toNat = front.length)
    (h : Compacting w front (entry :: rest) locals m) :
    Does (compactTurn i locals)
      (Prog.TurnEnds (fun locals' m' => ∃ front', front'.length = front.length + 1 ∧
        Compacting w front' rest locals' m') post) m := by
  obtain ⟨writeIdx, dropped⟩ := locals
  obtain ⟨rfl, hlength, hcounted, hleft⟩ := h
  simp only [List.length_cons] at hlength hcounted hleft
  have hcount := indexCount_lt w.engine
  have hread : (front ++ (entry :: rest ++ w.engine.index.drop w.engine.indexCount))[front.length]?
      = some entry := by
    simp
  have hsucc : (writeIdx + 1).toNat = writeIdx.toNat + 1 := by
    have hone : (1 : UInt16).toNat = 1 := rfl
    rw [UInt16.toNat_add]
    omega
  rw [InPlaceFilter.inPlaceFilter, hread] at hleft
  refine (yields_slot rfl hi).bind ?_
  split
  next hlive =>
    simp only [hlive, if_true] at hleft
    dsimp only
    split
    next hne =>
      have hnat : writeIdx.toNat ≠ front.length := by
        rw [← hi]
        exact fun heq => hne (UInt16.toNat_inj.mp heq)
      have hset : (front ++ (entry :: rest ++ w.engine.index.drop w.engine.indexCount)).set
            writeIdx.toNat entry =
          front.set writeIdx.toNat entry ++
            (entry :: rest ++ w.engine.index.drop w.engine.indexCount) :=
        List.set_append_left _ _ (by omega)
      simp only [if_pos hnat, hset] at hleft
      refine (yields_slot rfl hi).bind ?_
      refine (yields_perform (.writeSlot writeIdx fun _ => entry) _ ?_).bind (Prog.Meets.pure
        ⟨front.set writeIdx.toNat entry ++ [entry], by simp, ⟨?_, ?_, ?_, ?_⟩⟩)
      · simp only [InBounds, List.length_append, List.length_cons]
        omega
      · simp only [memoryStep, ← List.set_eq_modify, hset]
        simp
      · simp only [List.length_append, List.length_set, List.length_cons, List.length_nil]
        omega
      · simp only [List.length_append, List.length_set, List.length_cons, List.length_nil]
        omega
      · rw [hleft, hsucc]
        simp
    next heq =>
      -- a copy of the slot onto itself is left out
      obtain rfl : writeIdx = i := not_not.mp heq
      simp only [hi, ne_eq, not_true_eq_false, if_false] at hleft
      refine Prog.Meets.pure ⟨front ++ [entry], by simp, ⟨by simp, ?_, ?_, ?_⟩⟩
      · simp only [List.length_append, List.length_cons, List.length_nil]
        omega
      · simp only [List.length_append, List.length_cons, List.length_nil]
        omega
      · rw [hleft, hsucc, hi]
        simp
  next hdead =>
    simp only [hdead, Bool.false_eq_true, if_false] at hleft
    refine Prog.Meets.pure ⟨front ++ [entry], by simp, ⟨by simp, ?_, ?_, ?_⟩⟩
    · simp only [List.length_append, List.length_cons, List.length_nil]
      omega
    · simp only [List.length_append, List.length_cons, List.length_nil]
      omega
    · rw [hleft]
      simp

theorem storageCompactIndex_implementing :
    Implementing (fun w => storageCall lib env w .compact) (storageCompactIndex env) := by
  refine ifInitialized_implementing _ (take_implementing fun w hinit => ?_)
  change Releases _ w.memory (Storage.storageCompactIndex env w).1
    (Storage.storageCompactIndex env w).2.memory
  let compacted := w.engine.indexCount - (compactLoop w.engine).2
  have hstart : Compacting w [] w.engine.visible (0, 0) w.memory := by
    refine ⟨by rw [List.nil_append, ← laid_memory.index], by simp, rfl, ?_⟩
    rw [List.nil_append, ← laid_memory.index, StorageEngine.visible_length]
    rfl
  have hloop : Does (forSlots compactTurn (0, 0))
      (fun turn m' => ∃ writeIdx : UInt16, turn = .goOn (writeIdx, compacted) ∧
        writeIdx.toNat = (compactLoop w.engine).2 ∧
        m' = { w.memory with index := (compactLoop w.engine).1 }) w.memory := by
    refine forSlots_meets (n := w.engine.indexCount) (J := Compacting w)
      (indexCount_lt w.engine) ?_ ?_ ?_ hstart
    · intro front rest locals m' h
      exact ⟨by rw [h.memory]; exact memory_indexCount_toNat, h.length⟩
    · exact fun i front entry rest locals m' hi h => compactTurn_meets hi h
    · rintro front ⟨writeIdx, dropped⟩ m' ⟨rfl, hlength, hcounted, hleft⟩
      simp only [List.length_nil, Nat.add_zero] at hlength hcounted
      simp only [List.length_nil, InPlaceFilter.inPlaceFilter] at hleft
      refine ⟨writeIdx, ?_, by rw [hleft], by rw [hleft]⟩
      simp only [compacted]
      rw [hleft, ← hlength, ← hcounted, Nat.add_sub_cancel_left]
  refine Held.accessing hloop ?_
  rintro turn m' ⟨writeIdx, rfl, hwrite, rfl⟩
  rw [Storage.storageCompactIndex, hinit]
  simp only [Bool.not_true, Bool.false_eq_true, if_false]
  change Releases (if 0 < compacted then _ else _) _ compacted
    (if 0 < compacted then _ else w).memory
  split
  next hsome =>
    have hbounds : writeIdx.toNat ≤ (compactLoop w.engine).1.length := by
      rw [hwrite]
      exact w.engine.compact.indexCount_le
    refine ⟨hbounds, ?_⟩
    have hpersist := @persist_releases env { w with engine := w.engine.compact } _ compacted
    have hcount : UInt16.ofNat (compactLoop w.engine).2 = writeIdx := by
      rw [← hwrite, UInt16.ofNat_toNat]
    simp only [StorageWorld.memory, StorageEngine.compact, hcount] at hpersist
    exact hpersist
  next hnone =>
    have hnone : (live w.engine.visible).length = w.engine.visible.length := by
      have hle := (live_sublist w.engine.visible).length_le
      simp only [compacted, compactLoop_eq, StorageEngine.visible_length] at hnone hle ⊢
      omega
    have hsame : (compactLoop w.engine).1 = w.engine.index := by
      rw [compactLoop_eq, (live_sublist w.engine.visible).eq_of_length hnone,
        StorageEngine.visible_length]
      exact List.take_append_drop _ _
    rw [hsame]
    exact giveAndReturn_releases _ _

/-! ### Queries and statistics -/

/-- One record of the scan, and then the older ones. -/
theorem queryTurn_yields
    {m : Memory}
    {filter : NostrFilter}
    {limit : Nat}
    {events : List NostrEvent}
    (h : m.index = front ++ entry :: rest)
    (hi : i.toNat = front.length)
    (hlimit : ¬limit ≤ events.length)
    (older : List StorageIndexEntry) :
    ∃ entry' files events',
      Yields (queryTurn lib env filter i events) m events'
        { m with index := front ++ entry' :: rest, files := files } ∧
      queryScan lib env filter limit (entry :: older) m.files events =
        { queryScan lib env filter limit older files events' with
          entries := entry' :: (queryScan lib env filter limit older files events').entries } := by
  have hsame : { m with index := front ++ entry :: rest, files := m.files } = m := by rw [← h]
  rw [queryScan, if_neg hlimit]
  unfold queryTurn
  by_cases hdeleted : entry.isDeleted
  · refine ⟨entry, m.files, events, ?_, by rw [if_pos hdeleted]⟩
    rw [hsame]
    refine (yields_slot h hi).bind ?_
    rw [if_pos hdeleted]
    exact Yields.pure _ _
  rw [if_neg hdeleted]
  by_cases hexpired : entry.isExpired env.now
  · refine ⟨entry.markDeleted, Storage.unlink env m.files (entry.path lib), events, ?_,
      by rw [if_pos hexpired]⟩
    refine (yields_slot h hi).bind ?_
    rw [if_neg hdeleted]
    refine (yields_slot h hi).bind ?_
    rw [if_pos hexpired]
    exact (yields_markEntryExpired h hi).bind (Yields.pure _ _)
  rw [if_neg hexpired]
  by_cases hmatch : indexMatchesFilter lib entry filter
  · refine ⟨entry, m.files, (Storage.loadEventFromFile lib env m.files (entry.path lib)).elim events
      (fun event => if lib.filterMatches filter event then events ++ [event] else events), ?_, ?_⟩
    · rw [hsame]
      refine (yields_slot h hi).bind ?_
      rw [if_neg hdeleted]
      refine (yields_slot h hi).bind ?_
      rw [if_neg hexpired]
      refine (yields_slot h hi).bind ?_
      simp only [hmatch, Bool.not_true, Bool.false_eq_true, if_false]
      refine (yields_slot h hi).bind ((yields_loadEventFromFile _).bind ?_)
      cases Storage.loadEventFromFile lib env m.files (entry.path lib) <;> exact Yields.pure _ _
    · simp only [hmatch, Bool.not_true, Bool.false_eq_true, if_false]
      cases Storage.loadEventFromFile lib env m.files (entry.path lib) <;> rfl
  · refine ⟨entry, m.files, events, ?_, by simp [hmatch]⟩
    rw [hsame]
    refine (yields_slot h hi).bind ?_
    rw [if_neg hdeleted]
    refine (yields_slot h hi).bind ?_
    rw [if_neg hexpired]
    refine (yields_slot h hi).bind ?_
    simp only [hmatch, Bool.not_false, if_true]
    exact Yields.pure _ _

/-- The scan goes through the records from the newest on. -/
theorem queryLoop_yields
    {filter : NostrFilter}
    {limit : Nat} :
    ∀ {m : Memory} {back : List StorageIndexEntry} {events : List NostrEvent},
      m.index = front ++ back → front.length < 2 ^ 16 →
      Yields (queryLoop lib env filter limit front.length events) m
        (queryScan lib env filter limit front.reverse m.files events).events
        { m with
          index := (queryScan lib env filter limit front.reverse m.files events).entries.reverse ++
            back
          files := (queryScan lib env filter limit front.reverse m.files events).files } := by
  induction front using List.reverseRecOn with
  | nil =>
      intro m back events h _
      have hsame : { m with index := back } = m := by rw [← List.nil_append back, ← h]
      simp only [List.reverse_nil, queryScan, List.nil_append, hsame]
      exact Yields.pure _ _
  | append_singleton front entry ih =>
      intro m back events h hlength
      simp only [List.length_append, List.length_cons, List.length_nil, Nat.zero_add] at hlength
      have hsplit : m.index = front ++ entry :: back := by simpa using h
      have hi : (UInt16.ofNat front.length).toNat = front.length :=
        UInt16.toNat_ofNat_of_lt' (by simp only [UInt16.size]; omega)
      simp only [List.length_append, List.length_cons, List.length_nil, Nat.zero_add, queryLoop]
      rw [List.reverse_append, List.reverse_singleton, List.singleton_append]
      by_cases hlimit : limit ≤ events.length
      · have hsame : { m with index := (entry :: front.reverse).reverse ++ back } = m := by
          simp [← hsplit]
        rw [if_pos hlimit, queryScan, if_pos hlimit]
        simp only [hsame]
        exact Yields.pure _ _
      · obtain ⟨entry', files, events', hturn, hscan⟩ :=
          queryTurn_yields hsplit hi hlimit front.reverse
        rw [if_neg hlimit, hscan]
        refine hturn.bind ((ih rfl (by omega)).mono ?_)
        rintro _ _ ⟨rfl, rfl⟩
        exact ⟨rfl, by simp⟩

theorem storageQueryEvents_implementing
    (filter : NostrFilter)
    (limit : UInt16) :
    Implementing (fun w => storageCall lib env w (.query filter limit))
      (storageQueryEvents lib env filter limit) := by
  refine ifInitialized_implementing _ ?_
  cases hmalloc : env.mallocOk with
  | false =>
      -- the call returns before it takes the lock
      rintro m w ⟨rfl, hinit⟩
      change Storage.storageQueryEvents lib env w filter limit = _
      rw [Storage.storageQueryEvents, hinit, hmalloc]
      rfl
  | true =>
      refine take_implementing fun w hinit => ?_
      change Releases _ w.memory (Storage.storageQueryEvents lib env w filter limit).1
        (Storage.storageQueryEvents lib env w filter limit).2.memory
      rw [Storage.storageQueryEvents, hinit, hmalloc]
      refine (yields_perform .indexCount w.memory trivial).hold ?_
      simp only [memoryStep, memory_indexCount_toNat, Bool.not_true, Bool.false_eq_true, if_false]
      have hloop := @queryLoop_yields lib env _ filter (queryLimit limit) w.memory _ []
        laid_memory.index (by rw [StorageEngine.visible_length]; exact indexCount_lt w.engine)
      rw [StorageEngine.visible_length] at hloop
      exact hloop.hold (Held.give ⟨rfl, rfl⟩)

theorem storageGetStats_implementing :
    Implementing (fun w => storageCall lib env w .stats) (storageGetStats env) := by
  refine ifInitialized_implementing _ (take_implementing fun w hinit => ?_)
  change Releases _ w.memory (Storage.storageGetStats env w) w.memory
  let r := statsLoop env.now w.engine.visible 0 0xFFFFFFFF 0
  have hloop : Does (forSlots (statsTurn env) (0, 0xFFFFFFFF, 0))
      (fun turn m' => turn = .goOn r ∧ m' = w.memory) w.memory := by
    refine forSlots_meets (n := w.engine.indexCount)
      (J := fun front rest stats m' => m' = w.memory ∧ front ++ rest = w.engine.visible ∧
        r = statsLoop env.now rest stats.1 stats.2.1 stats.2.2)
      (indexCount_lt w.engine) ?_ ?_ ?_ ⟨rfl, List.nil_append _, rfl⟩
    · rintro front rest stats m' ⟨rfl, hvisible, -⟩
      refine ⟨memory_indexCount_toNat, ?_⟩
      rw [← List.length_append, hvisible, StorageEngine.visible_length]
    · rintro i front entry rest stats m' hi ⟨rfl, hvisible, hr⟩
      have hlaid := @laid_memory w
      rw [← hvisible] at hlaid
      have hnext : front ++ [entry] ++ rest = w.engine.visible := by simpa using hvisible
      rw [statsLoop] at hr
      refine (yields_slot hlaid.split hi).bind ?_
      split
      next hdeleted =>
        rw [hdeleted, Bool.true_or, if_pos rfl] at hr
        exact Prog.Meets.pure ⟨_, by simp, rfl, hnext, hr⟩
      next hdeleted =>
        rw [Bool.not_eq_true] at hdeleted
        refine (yields_slot hlaid.split hi).bind ?_
        split
        next hexpired =>
          rw [hexpired, Bool.or_true, if_pos rfl] at hr
          exact Prog.Meets.pure ⟨_, by simp, rfl, hnext, hr⟩
        next hexpired =>
          rw [Bool.not_eq_true] at hexpired
          rw [hdeleted, hexpired, Bool.or_false] at hr
          refine (yields_slot hlaid.split hi).bind ((yields_slot hlaid.split hi).bind ?_)
          exact Prog.Meets.pure ⟨_, by simp, rfl, hnext, hr⟩
    · rintro front stats m' ⟨rfl, -, hr⟩
      exact ⟨congrArg Prog.Turn.goOn hr.symm, rfl⟩
  refine Held.accessing hloop ?_
  rintro turn m' ⟨rfl, rfl⟩
  rw [Storage.storageGetStats, hinit]
  exact giveAndReturn_releases _ _

/-! ### Saving -/

variable (w front rest) in
/-- The memory with a record in the slot behind `front`. -/
def withSlot
    (files : Files)
    (entry : StorageIndexEntry) : Memory :=
  { w.memory with index := front ++ entry :: rest, files := files }

/-- The new record, field by field. -/
theorem fillSlot_yields
    {event : NostrEvent}
    {files : Files}
    (h : w.engine.index = front ++ entry :: rest)
    (hlength : front.length = w.engine.indexCount) :
    Yields (fillSlot lib env event) (withSlot w front rest files entry) ()
      (withSlot w front rest files (newEntry lib env.now w.engine event)) := by
  have hi : w.memory.indexCount.toNat = front.length := by
    rw [hlength, memory_indexCount_toNat]
  have hslot : w.engine.index.getD w.engine.indexCount StorageIndexEntry.zero = entry := by
    rw [h, ← hlength]
    simp
  have hwrite : ∀ entry write, Yields (writeSlot w.memory.indexCount write)
      (withSlot w front rest files entry) () (withSlot w front rest files (write entry)) :=
    fun entry write => yields_writeSlot rfl hi write
  have hread : ∀ entry, Yields (slot w.memory.indexCount) (withSlot w front rest files entry) entry
      (withSlot w front rest files entry) :=
    fun entry => yields_slot rfl hi
  have hcount : Yields indexCount (withSlot w front rest files entry) w.memory.indexCount
      (withSlot w front rest files entry) :=
    yields_perform .indexCount _ trivial
  have hnext : ∀ entry, Yields nextFileIndex (withSlot w front rest files entry)
      w.engine.nextFileIndex (withSlot w front rest files entry) :=
    fun entry => yields_perform .nextFileIndex _ trivial
  have httl : ∀ entry, Yields defaultTtlSec (withSlot w front rest files entry)
      w.engine.defaultTtlSec (withSlot w front rest files entry) :=
    fun entry => yields_perform .defaultTtlSec _ trivial
  let filled (expiry : UInt32) : StorageIndexEntry :=
    { eventId := event.id
      createdAt := uint32OfInt64 event.createdAt
      expiresAt := expiry
      fileIndex := w.engine.nextFileIndex
      kind := event.kind
      pubkeyPrefix := bytesVector 4 (event.pubkey.toList.take 4)
      flags := 0
      reserved := entry.reserved }
  have hnew : newEntry lib env.now w.engine event =
      filled (recordedExpiry env.now w.engine.defaultTtlSec (lib.eventGetExpiration event)) := by
    simp only [filled, ← hslot]
    rfl
  unfold fillSlot
  refine hcount.bind ((hwrite _ _).bind ((hwrite _ _).bind ((hwrite _ _).bind
    ((hwrite _ _).bind ((hnext _).bind ((hwrite _ _).bind ((hwrite _ _).bind
      ((httl _).bind ((hwrite _ _).bind ?_)))))))))
  dsimp only
  by_cases hexp : 0 < lib.eventGetExpiration event
  · rw [if_pos hexp]
    refine (hread _).bind ?_
    by_cases hless : uint32OfInt64 (lib.eventGetExpiration event) <
        env.now + w.engine.defaultTtlSec
    · have hexpiry : recordedExpiry env.now w.engine.defaultTtlSec
          (lib.eventGetExpiration event) = uint32OfInt64 (lib.eventGetExpiration event) := by
        simp [recordedExpiry, hexp, hless]
      rw [if_pos hless, hnew, hexpiry]
      exact hwrite (filled (env.now + w.engine.defaultTtlSec)) _
    · have hexpiry : recordedExpiry env.now w.engine.defaultTtlSec
          (lib.eventGetExpiration event) = env.now + w.engine.defaultTtlSec := by
        simp [recordedExpiry, hless]
      rw [if_neg hless, hnew, hexpiry]
      exact Yields.pure _ _
  · have hexpiry : recordedExpiry env.now w.engine.defaultTtlSec
        (lib.eventGetExpiration event) = env.now + w.engine.defaultTtlSec := by
      simp [recordedExpiry, hexp]
    rw [if_neg hexp, hnew, hexpiry]
    exact Yields.pure _ _

/-- The counters go up by one, and the index is persisted when it is due. -/
theorem countSlot_yields
    {event : NostrEvent}
    {files : Files}
    (hroom : w.engine.indexCount < w.engine.maxIndexEntries)
    (h : w.engine.index = front ++ entry :: rest)
    (hlength : front.length = w.engine.indexCount) :
    let saved : StorageWorld :=
      { w with
        engine := w.engine.append (newEntry lib env.now w.engine event) hroom
        files := files }
    Yields (countSlot env)
      (withSlot w front rest files (newEntry lib env.now w.engine event)) ()
      (if saved.engine.indexCount % 10 = 0 then persist env saved else saved).memory := by
  intro saved
  have hindex : saved.engine.index = front ++ newEntry lib env.now w.engine event :: rest := by
    simp only [saved, StorageEngine.append]
    rw [h, ← hlength, List.set_append_right _ _ le_rfl, Nat.sub_self, List.set_cons_zero]
  have hcounted : w.memory.indexCount + 1 = UInt16.ofNat saved.engine.indexCount := by
    simp [saved, StorageEngine.append, StorageWorld.memory]
  have hmemory : saved.memory =
      { withSlot w front rest files (newEntry lib env.now w.engine event) with
        indexCount := w.memory.indexCount + 1
        nextFileIndex := w.engine.nextFileIndex + 1 } := by
    rw [hcounted]
    simp only [StorageWorld.memory, hindex]
    rfl
  have hbounds : (w.memory.indexCount + 1).toNat ≤
      (withSlot w front rest files (newEntry lib env.now w.engine event)).index.length := by
    have hcount := saved.engine.indexCount_le
    rw [hindex] at hcount
    rw [hcounted]
    exact (UInt16.toNat_ofNat_of_lt' (indexCount_lt saved.engine)).trans_le hcount
  refine (yields_perform .indexCount _ trivial).bind ?_
  refine (yields_perform (.setIndexCount _) _ hbounds).bind ?_
  refine (yields_perform .nextFileIndex _ trivial).bind ?_
  refine (yields_perform (.setNextFileIndex _) _ trivial).bind ?_
  change Does _ _ { withSlot w front rest files (newEntry lib env.now w.engine event) with
    indexCount := w.memory.indexCount + 1
    nextFileIndex := w.engine.nextFileIndex + 1 }
  rw [← hmemory]
  refine (yields_perform .indexCount saved.memory trivial).bind ?_
  have htenth : saved.memory.indexCount % 10 = 0 ↔ saved.engine.indexCount % 10 = 0 := by
    rw [← UInt16.toNat_inj, UInt16.toNat_mod, memory_indexCount_toNat]
    rfl
  change Does (if saved.memory.indexCount % 10 = 0 then _ else _) _ _
  by_cases hdue : saved.engine.indexCount % 10 = 0
  · rw [if_pos (htenth.mpr hdue), if_pos hdue]
    exact yields_persist ()
  · rw [if_neg (fun h => hdue (htenth.mp h)), if_neg hdue]
    exact Yields.pure _ _

/-- The file, and the record when the file is complete. -/
theorem writeEvent_releases
    {event : NostrEvent}
    {json : List UInt8}
    (hroom : w.engine.indexCount < w.engine.maxIndexEntries) :
    let path := getEventPath lib event.id w.engine.nextFileIndex
    let written := min (env.fwriteShort.getD json.length) json.length
    let files := Function.update w.files path
      (some (json.take (min (env.fcloseShort.getD written) written)))
    let saved : StorageWorld :=
      { w with
        engine := w.engine.append (newEntry lib env.now w.engine event) hroom
        files := files }
    let r : StorageError × StorageWorld :=
      if !env.fopenOk && !env.fopenRetryOk then (.io, w)
      else if written ≠ json.length then
        (.io, { w with files := Storage.unlink env files path })
      else
        (.storageOk, if saved.engine.indexCount % 10 = 0 then persist env saved else saved)
    Releases (writeEvent lib env event json) w.memory r.1 r.2.memory := by
  intro path written files saved r
  obtain ⟨front, entry, rest, hsplit, hlength⟩ := index_split hroom
  refine (yields_perform .nextFileIndex _ trivial).hold ?_
  change Held memoryStep InBounds (if !env.fopenOk && !env.fopenRetryOk then _ else _) _ _
  simp only [r]
  split
  next hfailed => exact giveAndReturn_releases _ _
  next hopened =>
    refine ⟨trivial, trivial, ?_⟩
    have hfiles : ({ w.memory with
        files := Function.update (Function.update w.files path (some [])) path
          (some (json.take (min (env.fcloseShort.getD written) written))) } : Memory) =
        { w.memory with files := files } := by
      simp only [files, Function.update_idem]
    change Held memoryStep InBounds (if written ≠ json.length then _ else _) _ { w.memory with
        files := Function.update (Function.update w.files path (some [])) path
          (some (json.take (min (env.fcloseShort.getD written) written))) }
    rw [hfiles]
    split
    next hshort => exact (yields_unlink path).hold (giveAndReturn_releases _ _)
    next hwhole =>
      have hslot : withSlot w front rest files entry = { w.memory with files := files } :=
        congrArg (fun index => ({ w.memory with index := index, files := files } : Memory))
          hsplit.symm
      rw [← hslot]
      refine (fillSlot_yields hsplit hlength).hold ?_
      exact (countSlot_yields hroom hsplit hlength).hold (giveAndReturn_releases _ _)

theorem storageSaveEvent_implementing
    (event : NostrEvent) :
    Implementing (fun w => storageCall lib env w (.save event))
      (storageSaveEvent lib env event) := by
  refine ifInitialized_implementing _ (take_implementing fun w hinit => ?_)
  change Releases _ w.memory (Storage.storageSaveEvent lib env w event).1
    (Storage.storageSaveEvent lib env w event).2.memory
  refine Held.accessing (findIndexEntry_world event.id) ?_
  rintro found m' ⟨rfl, hfound⟩
  have hsome : (Storage.findIndexEntry w.engine event.id).isSome = found.isSome := by
    rw [← hfound, Option.isSome_map]
  unfold Storage.storageSaveEvent
  rw [hinit, hsome]
  simp only [Bool.not_true, Bool.false_eq_true, if_false]
  cases found with
  | some i => exact giveAndReturn_releases _ _
  | none =>
  simp only [Option.isSome_none, Bool.false_eq_true, if_false]
  refine (yields_perform .indexCount w.memory trivial).hold ?_
  refine (yields_perform .maxIndexEntries _ trivial).hold ?_
  have hcapacity : UInt16.ofNat w.memory.index.length ≤ w.memory.indexCount ↔
      ¬w.engine.indexCount < w.engine.maxIndexEntries := by
    have hlt : w.memory.index.length < 2 ^ 16 :=
      w.engine.capacity_le.trans_lt (by decide)
    rw [UInt16.le_iff_toNat_le, memory_indexCount_toNat, UInt16.toNat_ofNat_of_lt' hlt, not_lt]
    rfl
  change Held memoryStep InBounds
    (if UInt16.ofNat w.memory.index.length ≤ w.memory.indexCount then _ else _) _ _
  by_cases hroom : w.engine.indexCount < w.engine.maxIndexEntries
  · rw [if_neg (fun h => hcapacity.mp h hroom)]
    simp only [dif_pos hroom]
    cases env.mallocOk with
    | false => exact giveAndReturn_releases _ _
    | true =>
    simp only [Bool.not_true, Bool.false_eq_true, if_false]
    cases if env.serializeOk then lib.eventSerialize event storageMaxEventSize else none with
    | none => exact giveAndReturn_releases _ _
    | some json => exact writeEvent_releases hroom
  · rw [if_pos (hcapacity.mpr hroom)]
    simp only [dif_neg hroom]
    exact giveAndReturn_releases _ _

end Functions

end Accesses

/--
**What a storage function does**: it takes the lock, makes its accesses inside the array, gives the
lock back, and has done what the operation says.
-/
theorem storageBody_implementing
    (lib : Libnostr)
    (call : StorageCall)
    (env : CallEnv) :
    Accesses.Implementing (fun w => storageCall lib env w call) (storageBody lib call env) := by
  cases call with
  | save event => exact Accesses.storageSaveEvent_implementing event
  | delete eventId => exact Accesses.storageDeleteEvent_implementing eventId
  | get eventId => exact Accesses.storageGetEvent_implementing eventId
  | eventExists eventId => exact Accesses.storageEventExists_implementing eventId
  | query filter limit => exact Accesses.storageQueryEvents_implementing filter limit
  | purge => exact Accesses.storagePurgeExpired_implementing
  | compact => exact Accesses.storageCompactIndex_implementing
  | stats => exact Accesses.storageGetStats_implementing

end Storage
end WispRelay
