import Mathlib.Data.Finmap
import Mathlib.Tactic

/-!
# Slot tables

A program without an allocator keeps a keyed collection in a fixed array of slots: a slot is
in use or free, an entry is found by scanning the array, a new entry takes the first free
slot, and a removed entry frees its slot for the next one.

A table is a `Vector σ n` with a reading `read : σ → Option (κ × ν)`, which is `none` on a
free slot.  `entries` lists what is stored, in slot order, and `contents` is the finite map
the table stands for.  While no key is stored twice:

* writing a key to the slot that holds it, or to a free slot when no slot holds it, is
  `Finmap.insert`;
* freeing the slot of a key is `Finmap.erase`;
* freeing every slot whose key fails a test is `filterKeys`;
* the slots that pass a test on the key are as many as the keys that do.
-/

namespace WispRelay
namespace SlotTable

universe u v w

section Search

variable {σ : Type u} {n : Nat}

/-- The first slot that passes the test. -/
def findSlot? (slots : Vector σ n) (p : σ → Bool) : Option (Fin n) :=
  (List.finRange n).find? (fun i => p slots[i])

theorem findSlot?_some {slots : Vector σ n} {p : σ → Bool} {i : Fin n}
    (h : findSlot? slots p = some i) : p slots[i] = true :=
  List.find?_some (p := fun i : Fin n => p slots[i]) h

theorem findSlot?_eq_none {slots : Vector σ n} {p : σ → Bool} :
    findSlot? slots p = none ↔ ∀ s ∈ slots.toList, p s = false := by
  simp only [findSlot?, List.find?_eq_none, List.mem_finRange, forall_const, Bool.not_eq_true]
  constructor
  · intro h s hs
    obtain ⟨i, hi, rfl⟩ := List.mem_iff_getElem.mp hs
    exact h ⟨i, by simpa using hi⟩
  · intro h i
    exact h _ (by simp)

end Search

section FilterKeys

variable {κ : Type v} {ν : Type w}

/-- The part of a finite map whose keys pass the test. -/
def filterKeys (p : κ → Prop) [DecidablePred p] (m : Finmap (fun _ : κ => ν)) :
    Finmap (fun _ : κ => ν) where
  entries := m.entries.filter (fun e => p e.1)
  nodupKeys := by
    rw [← Multiset.nodup_keys]
    exact Multiset.nodup_of_le (Multiset.map_le_map (Multiset.filter_le _ _))
      (Multiset.nodup_keys.mpr m.nodupKeys)

variable [DecidableEq κ]

theorem lookup_filterKeys
    (p : κ → Prop)
    [DecidablePred p]
    (m : Finmap (fun _ : κ => ν))
    (k : κ) :
    (filterKeys p m).lookup k = if p k then m.lookup k else none := by
  ext v
  simp only [Finmap.lookup_eq_some_iff, filterKeys, Multiset.mem_filter]
  by_cases hp : p k
  · simp [hp, Finmap.lookup_eq_some_iff]
  · simp [hp]

theorem keys_filterKeys (p : κ → Prop) [DecidablePred p] (m : Finmap (fun _ : κ => ν)) :
    (filterKeys p m).keys = m.keys.filter p := by
  ext k
  rw [Finset.mem_filter, Finmap.mem_keys, Finmap.mem_keys, ← Finmap.lookup_isSome,
    lookup_filterKeys]
  by_cases hp : p k
  · simp [hp, Finmap.lookup_isSome]
  · simp [hp]

theorem keys_insert (m : Finmap (fun _ : κ => ν)) (k : κ) (v : ν) :
    (m.insert k v).keys = Insert.insert k m.keys := by
  ext k'
  rw [Finset.mem_insert, Finmap.mem_keys, Finmap.mem_keys, Finmap.mem_insert]

theorem erase_of_notMem {m : Finmap (fun _ : κ => ν)} {k : κ} (h : k ∉ m) :
    m.erase k = m := by
  apply Finmap.ext_lookup
  intro k'
  by_cases hk : k' = k
  · rw [hk, Finmap.lookup_erase, Finmap.lookup_eq_none.mpr h]
  · rw [Finmap.lookup_erase_ne hk]

end FilterKeys

section Entries

variable {σ : Type u} {κ : Type v} {ν : Type w} {n : Nat}
variable (read : σ → Option (κ × ν))

/-- What is stored, in slot order. -/
def entries (slots : Vector σ n) : List (κ × ν) :=
  slots.toList.filterMap read

/-- No key is stored twice. -/
def UniqueKeys (slots : Vector σ n) : Prop :=
  ((entries read slots).map Prod.fst).Nodup

variable {read}

theorem mem_entries {slots : Vector σ n} {e : κ × ν} :
    e ∈ entries read slots ↔ ∃ s ∈ slots.toList, read s = some e := by
  simp [entries]

variable (read) in
/-- Writing one slot replaces what it holds in the list of entries and leaves the rest. -/
theorem entries_set (slots : Vector σ n) (i : Fin n) :
    ∃ front back : List (κ × ν),
      entries read slots = front ++ (read slots[i]).toList ++ back ∧
      ∀ s, entries read (slots.set i s) = front ++ (read s).toList ++ back := by
  have hi : (i : Nat) < slots.toList.length := by
    simp
  have hone : ∀ s, [s].filterMap read = (read s).toList := by
    intro s
    cases h : read s <;> simp [h]
  refine ⟨(slots.toList.take i).filterMap read, (slots.toList.drop (i + 1)).filterMap read, ?_, ?_⟩
  · have hsplit : slots.toList =
        slots.toList.take i ++ [slots[i]] ++ slots.toList.drop (i + 1) := by
      have hdrop := List.drop_eq_getElem_cons hi
      simp only [Vector.getElem_toList] at hdrop
      rw [List.append_assoc, List.singleton_append]
      change _ = _ ++ slots[(i : Nat)] :: _
      rw [← hdrop, List.take_append_drop]
    rw [entries, ← hone, ← List.filterMap_append, ← List.filterMap_append, ← hsplit]
  · intro s
    rw [entries, Vector.toList_set, List.set_eq_take_append_cons_drop, if_pos hi, ← hone,
      ← List.filterMap_append, ← List.filterMap_append, List.append_assoc,
      List.singleton_append]

/-- Writing a slot with one that reads the same changes no entry. -/
theorem entries_set_of_read_eq {slots : Vector σ n} {i : Fin n} {s : σ}
    (h : read s = read slots[i]) : entries read (slots.set i s) = entries read slots := by
  obtain ⟨front, back, hbefore, hafter⟩ := entries_set read slots i
  rw [hafter, hbefore, h]

/-- The slots that pass a test on the key are as many as the entries that do. -/
theorem countP_slots {slots : Vector σ n} {p : σ → Bool} {q : κ → Prop} [DecidablePred q]
    (hp : ∀ s, p s = (read s).any (fun e => decide (q e.1))) :
    slots.countP p = (entries read slots).countP (fun e => decide (q e.1)) := by
  rw [← Vector.countP_toList, entries]
  induction slots.toList with
  | nil => rfl
  | cons s rest ih =>
      rw [List.countP_cons, ih, hp s]
      cases h : read s with
      | none => simp [h]
      | some e => simp [h, List.countP_cons]

/-- A key is in one slot only. -/
theorem UniqueKeys.eq_of_key {slots : Vector σ n} (h : UniqueKeys read slots) {i j : Fin n}
    {k : κ} {v w : ν} (hi : read slots[i] = some (k, v)) (hj : read slots[j] = some (k, w)) :
    i = j := by
  have hpair : slots.toList.Pairwise (fun s t =>
      ∀ e, read s = some e → ∀ e', read t = some e' → e.1 ≠ e'.1) := by
    rw [UniqueKeys, entries, List.Nodup, List.pairwise_map, List.pairwise_filterMap] at h
    exact h
  rw [List.pairwise_iff_getElem] at hpair
  have hsize : slots.toList.length = n := by
    simp
  by_contra hne
  rcases Nat.lt_or_gt_of_ne (fun hval => hne (Fin.ext hval)) with hlt | hlt
  · exact hpair i j (by omega) (by omega) hlt (k, v) (by simpa using hi) (k, w)
      (by simpa using hj) rfl
  · exact hpair j i (by omega) (by omega) hlt (k, w) (by simpa using hj) (k, v)
      (by simpa using hi) rfl

theorem length_entries_le (slots : Vector σ n) :
    (entries read slots).length ≤ n := by
  simpa [entries] using List.length_filterMap_le read slots.toList

theorem entries_releaseAll (slots : Vector σ n) (q : κ → Prop) [DecidablePred q] {f : σ → σ}
    (hf : ∀ s, read (f s) = (read s).filter (fun e => decide (q e.1))) :
    entries read (slots.map f) = (entries read slots).filter (fun e => decide (q e.1)) := by
  rw [entries, Vector.toList_map, List.filterMap_map, entries, List.filter_filterMap]
  congr 1
  funext s
  simp [hf]

theorem length_releaseAll (slots : Vector σ n) (q : κ → Prop) [DecidablePred q] {f : σ → σ}
    (hf : ∀ s, read (f s) = (read s).filter (fun e => decide (q e.1))) :
    (entries read (slots.map f)).length +
        (entries read slots).countP (fun e => decide ¬ q e.1) =
      (entries read slots).length := by
  rw [entries_releaseAll slots q hf, ← List.countP_eq_length_filter,
    List.length_eq_countP_add_countP (fun e : κ × ν => decide (q e.1))]
  simp

end Entries

section Contents

variable {σ : Type u} {κ : Type v} {ν : Type w} {n : Nat} [DecidableEq κ]
variable (read : σ → Option (κ × ν))

/-- The finite map a table stands for. -/
def contents (slots : Vector σ n) : Finmap (fun _ : κ => ν) :=
  ((entries read slots).map (fun e => (⟨e.1, e.2⟩ : Sigma (fun _ : κ => ν)))).toFinmap

variable {read}

theorem lookup_contents {slots : Vector σ n} (h : UniqueKeys read slots) {k : κ} {v : ν} :
    (contents read slots).lookup k = some v ↔ (k, v) ∈ entries read slots := by
  have hnodup : ((entries read slots).map
      (fun e => (⟨e.1, e.2⟩ : Sigma (fun _ : κ => ν)))).NodupKeys := by
    simpa [List.NodupKeys, List.keys, Function.comp_def, UniqueKeys] using h
  rw [contents, Finmap.dlookup_list_toFinmap, ← Option.mem_def, List.mem_dlookup_iff hnodup]
  simp

theorem keys_contents (slots : Vector σ n) :
    (contents read slots).keys = ((entries read slots).map Prod.fst).toFinset := by
  ext k
  rw [Finmap.mem_keys, contents, Finmap.mem_list_toFinmap]
  simp

theorem mem_contents {slots : Vector σ n} {k : κ} :
    k ∈ contents read slots ↔ ∃ v, (k, v) ∈ entries read slots := by
  rw [← Finmap.mem_keys, keys_contents]
  simp

theorem card_keys {slots : Vector σ n} (h : UniqueKeys read slots) :
    (contents read slots).keys.card = (entries read slots).length := by
  rw [keys_contents, List.toFinset_card_of_nodup h, List.length_map]

theorem card_filter_keys {slots : Vector σ n} (h : UniqueKeys read slots)
    (q : κ → Prop) [DecidablePred q] :
    ((contents read slots).keys.filter q).card =
      (entries read slots).countP (fun e => q e.1) := by
  have hfilter : ((entries read slots).map Prod.fst).toFinset.filter q =
      (((entries read slots).map Prod.fst).filter (fun k => q k)).toFinset := by
    ext k
    simp
  rw [keys_contents, hfilter, List.toFinset_card_of_nodup (h.filter _),
    ← List.countP_eq_length_filter, List.countP_map]
  rfl

/-- Two tables without double keys stand for the same map as soon as their entries agree. -/
theorem contents_eq {slots : Vector σ n} {m : Finmap (fun _ : κ => ν)}
    (h : UniqueKeys read slots)
    (hm : ∀ k v, (k, v) ∈ entries read slots ↔ m.lookup k = some v) :
    contents read slots = m := by
  apply Finmap.ext_lookup
  intro k
  ext v
  rw [lookup_contents h, hm]

/-- Rewriting the slot of a key. -/
theorem UniqueKeys.replace {slots : Vector σ n} (h : UniqueKeys read slots) {i : Fin n} {s : σ}
    {k : κ} {v v' : ν} (hold : read slots[i] = some (k, v)) (hnew : read s = some (k, v')) :
    UniqueKeys read (slots.set i s) ∧
      contents read (slots.set i s) = (contents read slots).insert k v' ∧
      (entries read (slots.set i s)).length = (entries read slots).length := by
  obtain ⟨front, back, hbefore, hafter⟩ := entries_set read slots i
  specialize hafter s
  simp only [hold, hnew, Option.toList_some] at hbefore hafter
  have hunique : UniqueKeys read (slots.set i s) := by
    simpa [UniqueKeys, hbefore, hafter] using h
  refine ⟨hunique, contents_eq hunique ?_, by simp [hbefore, hafter]⟩
  intro k' w
  by_cases hk : k' = k
  · subst hk
    rw [Finmap.lookup_insert, hafter]
    simp only [UniqueKeys, hbefore, List.map_append, List.nodup_append, List.map_cons] at h
    grind
  · rw [Finmap.lookup_insert_of_ne _ hk, lookup_contents h, hbefore, hafter]
    simp [hk]

/-- Taking a free slot for a new key. -/
theorem UniqueKeys.take {slots : Vector σ n} (h : UniqueKeys read slots) {i : Fin n} {s : σ}
    {k : κ} {v : ν} (hold : read slots[i] = none) (hnew : read s = some (k, v))
    (hfresh : k ∉ contents read slots) :
    UniqueKeys read (slots.set i s) ∧
      contents read (slots.set i s) = (contents read slots).insert k v ∧
      (entries read (slots.set i s)).length = (entries read slots).length + 1 := by
  obtain ⟨front, back, hbefore, hafter⟩ := entries_set read slots i
  specialize hafter s
  simp only [hold, hnew, Option.toList_some, Option.toList_none] at hbefore hafter
  rw [mem_contents, not_exists] at hfresh
  have hunique : UniqueKeys read (slots.set i s) := by
    simp only [UniqueKeys, hbefore, hafter] at h ⊢
    grind
  refine ⟨hunique, contents_eq hunique ?_, by simp [hbefore, hafter]; omega⟩
  intro k' w
  by_cases hk : k' = k
  · subst hk
    rw [Finmap.lookup_insert, hafter]
    grind
  · rw [Finmap.lookup_insert_of_ne _ hk, lookup_contents h, hbefore, hafter]
    simp [hk]

/-- Freeing the slot of a key. -/
theorem UniqueKeys.release {slots : Vector σ n} (h : UniqueKeys read slots) {i : Fin n} {s : σ}
    {k : κ} {v : ν} (hold : read slots[i] = some (k, v)) (hnew : read s = none) :
    UniqueKeys read (slots.set i s) ∧
      contents read (slots.set i s) = (contents read slots).erase k ∧
      (entries read (slots.set i s)).length + 1 = (entries read slots).length := by
  obtain ⟨front, back, hbefore, hafter⟩ := entries_set read slots i
  specialize hafter s
  simp only [hold, hnew, Option.toList_some, Option.toList_none] at hbefore hafter
  have hunique : UniqueKeys read (slots.set i s) := by
    simp only [UniqueKeys, hbefore, hafter] at h ⊢
    grind
  refine ⟨hunique, contents_eq hunique ?_, by simp [hbefore, hafter]; omega⟩
  intro k' w
  by_cases hk : k' = k
  · subst hk
    rw [Finmap.lookup_erase, hafter]
    simp only [UniqueKeys, hbefore] at h
    grind
  · rw [Finmap.lookup_erase_ne hk, lookup_contents h, hbefore, hafter]
    simp [hk]

/-- Freeing every slot whose key fails a test. -/
theorem UniqueKeys.releaseAll {slots : Vector σ n} (h : UniqueKeys read slots) (q : κ → Prop)
    [DecidablePred q] {f : σ → σ}
    (hf : ∀ s, read (f s) = (read s).filter (fun e => decide (q e.1))) :
    UniqueKeys read (slots.map f) ∧
      contents read (slots.map f) = filterKeys q (contents read slots) := by
  have hentries := entries_releaseAll slots q hf
  have hunique : UniqueKeys read (slots.map f) := by
    rw [UniqueKeys, hentries]
    exact List.Nodup.sublist (List.filter_sublist.map _) h
  refine ⟨hunique, contents_eq hunique ?_⟩
  intro k v
  rw [lookup_filterKeys, hentries]
  by_cases hk : q k
  · simp [hk, lookup_contents h]
  · simp [hk]

/-- The slot of a key, found by scanning. -/
theorem findSlot?_key_some
    {p : σ → Bool}
    {k : κ}
    (hp : ∀ s, p s = (read s).any (fun e => decide (e.1 = k)))
    {slots : Vector σ n}
    {i : Fin n}
    (h : findSlot? slots p = some i) :
    ∃ v, read slots[i] = some (k, v) := by
  have hfound := findSlot?_some h
  rw [hp, Option.any_eq_true] at hfound
  obtain ⟨⟨k', v⟩, hread, hkey⟩ := hfound
  obtain rfl : k' = k := of_decide_eq_true hkey
  exact ⟨v, hread⟩

theorem findSlot?_key_none
    {p : σ → Bool}
    {k : κ}
    (hp : ∀ s, p s = (read s).any (fun e => decide (e.1 = k)))
    {slots : Vector σ n} :
    findSlot? slots p = none ↔ k ∉ contents read slots := by
  rw [findSlot?_eq_none, mem_contents]
  constructor
  · rintro h ⟨v, hmem⟩
    obtain ⟨s, hs, hread⟩ := mem_entries.mp hmem
    simpa [hp, hread] using h s hs
  · intro h s hs
    rw [hp, ← Bool.not_eq_true, Option.any_eq_true]
    rintro ⟨⟨k', v⟩, hread, hkey⟩
    obtain rfl : k' = k := of_decide_eq_true hkey
    exact h ⟨v, mem_entries.mpr ⟨s, hs, hread⟩⟩

omit [DecidableEq κ] in
/-- There is a free slot unless every slot stores an entry. -/
theorem findSlot?_free_none
    {p : σ → Bool}
    (hp : ∀ s, p s = (read s).isNone)
    {slots : Vector σ n} :
    findSlot? slots p = none ↔ (entries read slots).length = n := by
  have hsize : slots.toList.length = n := by
    simp
  rw [findSlot?_eq_none, entries, List.length_filterMap_eq_countP]
  constructor
  · intro h
    rw [List.countP_eq_length.mpr, hsize]
    intro s hs
    simpa [hp] using h s hs
  · intro h s hs
    have hall := List.countP_eq_length.mp (h.trans hsize.symm) s hs
    rw [hp]
    simpa using hall

end Contents

end SlotTable
end WispRelay
