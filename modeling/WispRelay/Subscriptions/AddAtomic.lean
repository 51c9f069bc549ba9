import WispRelay.Subscriptions.BoundedMap

/-!
# Failed adds

`sub_manager_add` has four ways to fail.  Too many subscriptions of the connection and a full
table are found before anything is written.  A copy that fails in a fresh slot clears that slot
again.  But a subscription that is replaced has lost its filters before the new ones are copied:
when that fails, it stays active without any.

* `AddFailure`: which of these ways a failed add took.
* `failed_add_atomic_iff`: the subscriptions are exactly as before, unless a subscription with
  filters is replaced and its copies fail.
* `failed_add_empties_subscription`: such a run.
-/

namespace WispRelay
namespace Subscriptions

open Runs
open SlotTable (entries entries_set entries_set_of_read_eq findSlot?_some)

/-- The active subscriptions, with their connections, ids and filters. -/
def SubManager.subscriptions
    (mgr : SubManager) : List (SubKey × List NostrFilter) :=
  entries Subscription.read mgr.subs

/-- The active subscriptions and `active_count` are as before. -/
structure SameSubscriptions
    (before after : SubManager) : Prop where
  subscriptions : after.subscriptions.Perm before.subscriptions
  activeCount : after.activeCount = before.activeCount

/-- A subscription with filters that loses them when its replacement cannot be copied. -/
def LosesFilters
    (answers : List Bool)
    (mgr : SubManager)
    (connFd : Int32)
    (subId : CString)
    (filters : List NostrFilter) : Prop :=
  ∃ i, subManagerFind mgr connFd subId = some i ∧ (mgr.slot i).filters ≠ [] ∧
    ¬ Copied answers filters

section Failure

variable
  {answers : List Bool}
  {mgr : SubManager}
  {connFd : Int32}
  {subId : CString}
  {filters : List NostrFilter}

/-- How a failed add leaves the manager. -/
inductive AddFailure
    (answers : List Bool)
    (mgr : SubManager)
    (connFd : Int32)
    (subId : CString)
    (filters : List NostrFilter) : SubManager → Prop
  | refused
      (hnew : subManagerFind mgr connFd subId = none) :
      AddFailure answers mgr connFd subId filters mgr
  | cleared
      (i : Fin subMaxTotal)
      (hnew : subManagerFind mgr connFd subId = none)
      (hfree : (mgr.slot i).active = false) :
      AddFailure answers mgr connFd subId filters
        { mgr with subs := mgr.subs.set i Subscription.zero i.isLt }
  | emptied
      (i : Fin subMaxTotal)
      (hfind : subManagerFind mgr connFd subId = some i)
      (hcopy : ¬ Copied answers filters) :
      AddFailure answers mgr connFd subId filters
        { mgr with
          subs := mgr.subs.set i { freeFilters (mgr.slot i) with eventsSent := 0 } i.isLt }

/-- An add that returns an error took one of these ways. -/
theorem addFailure_of_error
    (herror : (subManagerAdd answers mgr connFd subId filters).1 ≠ .ok) :
    AddFailure answers mgr connFd subId filters
      (subManagerAdd answers mgr connFd subId filters).2 := by
  cases hfind : subManagerFind mgr connFd subId with
  | some i =>
      cases hcopy : copyFiltersToSlot { freeFilters mgr.subs[i] with eventsSent := 0 }
          (filters.take subMaxFilters) answers with
      | none =>
          simp only [subManagerAdd, hfind, hcopy]
          exact AddFailure.emptied i hfind (copyFiltersToSlot_none.mp hcopy)
      | some r =>
          simp only [subManagerAdd, hfind, hcopy] at herror
          exact absurd rfl herror
  | none =>
      by_cases hconn : subMaxPerConn ≤ subManagerCount mgr connFd
      · simp only [subManagerAdd, hfind, if_pos hconn]
        exact AddFailure.refused hfind
      cases hfree : findFreeSlot mgr with
      | none =>
          simp only [subManagerAdd, hfind, if_neg hconn, hfree]
          exact AddFailure.refused hfind
      | some i =>
          have hinactive : (!(mgr.slot i).active) = true := findSlot?_some hfree
          cases hcopy : copyFiltersToSlot
              { Subscription.zero with subId := subId.take subMaxIdLen, connFd := connFd }
              (filters.take subMaxFilters) answers with
          | none =>
              simp only [subManagerAdd, hfind, if_neg hconn, hfree, hcopy, clearSubscription]
              exact AddFailure.cleared i hfind (by simpa using hinactive)
          | some r =>
              simp only [subManagerAdd, hfind, if_neg hconn, hfree, hcopy] at herror
              exact absurd rfl herror

/-- An add of an existing subscription fails when its copies do. -/
theorem error_of_notCopied
    {i : Fin subMaxTotal}
    (hfind : subManagerFind mgr connFd subId = some i)
    (hcopy : ¬ Copied answers filters) :
    (subManagerAdd answers mgr connFd subId filters).1 = .errMemory := by
  have hnone : copyFiltersToSlot { freeFilters mgr.subs[i] with eventsSent := 0 }
      (filters.take subMaxFilters) answers = none :=
    copyFiltersToSlot_none.mpr hcopy
  simp only [subManagerAdd, hfind, hnone]

/-- Clearing a free slot changes no subscription. -/
theorem sameSubscriptions_clear
    {i : Fin subMaxTotal}
    (hfree : (mgr.slot i).active = false) :
    SameSubscriptions mgr { mgr with subs := mgr.subs.set i Subscription.zero i.isLt } where
  subscriptions := by
    have hread : Subscription.zero.read = (mgr.slot i).read :=
      (Subscription.read_eq_none.mpr hfree).symm
    have hsame := entries_set_of_read_eq hread
    unfold SubManager.subscriptions
    exact List.Perm.of_eq hsame
  activeCount := rfl

/-- Emptying the slot of a subscription changes it, unless it had no filters. -/
theorem sameSubscriptions_empty_iff
    {i : Fin subMaxTotal}
    (hfind : subManagerFind mgr connFd subId = some i) :
    SameSubscriptions mgr
        { mgr with
          subs := mgr.subs.set i { freeFilters (mgr.slot i) with eventsSent := 0 } i.isLt } ↔
      (mgr.slot i).filters = [] := by
  have hold := subManagerFind_some hfind
  have hnew : Subscription.read { freeFilters (mgr.slot i) with eventsSent := 0 } =
      some ((connFd, subId), []) := by
    rw [Subscription.read_eq_some] at hold ⊢
    exact ⟨hold.1, hold.2.1, rfl⟩
  obtain ⟨front, back, hbefore, hafter⟩ := entries_set Subscription.read mgr.subs i
  have hslot : mgr.subs[i].read = some ((connFd, subId), (mgr.slot i).filters) := hold
  rw [hslot] at hbefore
  constructor
  · rintro ⟨hperm, -⟩
    unfold SubManager.subscriptions at hperm
    rw [hafter, hbefore, hnew, List.perm_append_right_iff, List.perm_append_left_iff] at hperm
    have hentry := List.singleton_perm_singleton.mp hperm
    exact (congrArg Prod.snd hentry).symm
  · intro hempty
    refine ⟨?_, rfl⟩
    unfold SubManager.subscriptions
    rw [hafter, hbefore, hnew, hempty]

end Failure

/--
**A failed add changes nothing, unless it replaces a subscription that has filters.**  For every
manager state, every connection, id and list of filters, and all answers to the allocations.
-/
theorem failed_add_atomic_iff
    (answers : List Bool)
    (mgr : SubManager)
    (connFd : Int32)
    (subId : CString)
    (filters : List NostrFilter) :
    ((subManagerAdd answers mgr connFd subId filters).1 ≠ .ok →
        SameSubscriptions mgr (subManagerAdd answers mgr connFd subId filters).2) ↔
      ¬ LosesFilters answers mgr connFd subId filters := by
  constructor
  · rintro hsame ⟨i, hfind, hfilters, hcopy⟩
    have herror : (subManagerAdd answers mgr connFd subId filters).1 ≠ .ok := by
      rw [error_of_notCopied hfind hcopy]
      decide
    have hunchanged := hsame herror
    have hfailure := addFailure_of_error herror
    generalize (subManagerAdd answers mgr connFd subId filters).2 = after at hunchanged hfailure
    cases hfailure with
    | refused hnew | cleared j hnew => exact Option.some_ne_none i (hfind.symm.trans hnew)
    | emptied j hfind' =>
        obtain rfl : i = j := Option.some.inj (hfind.symm.trans hfind')
        exact hfilters ((sameSubscriptions_empty_iff hfind).mp hunchanged)
  · intro hkeeps herror
    have hfailure := addFailure_of_error herror
    generalize (subManagerAdd answers mgr connFd subId filters).2 = after at hfailure ⊢
    cases hfailure with
    | refused hnew => exact ⟨List.Perm.refl _, rfl⟩
    | cleared i hnew hfree => exact sameSubscriptions_clear hfree
    | emptied i hfind hcopy =>
        refine (sameSubscriptions_empty_iff hfind).mpr ?_
        by_contra hfilters
        exact hkeeps ⟨i, hfind, hfilters, hcopy⟩

/-- Connection 7 has subscribed to notes. -/
def noteFeed : SubManager :=
  finalState (subCall (Sample.library [])) subManagerInit
    [.add [] 7 (ascii "feed") [{ kinds := [1] }]]

/-- There is no memory for the filters that replace it: it stays active and has none. -/
theorem failed_add_empties_subscription :
    let r := subManagerAdd [false] noteFeed 7 (ascii "feed") [{ kinds := [7] }]
    r.1 ≠ .ok ∧ r.2.subscriptions = [((7, ascii "feed"), [])] ∧ ¬ SameSubscriptions noteFeed r.2 := by
  intro r
  have hafter : r.1 ≠ .ok ∧ r.2.subscriptions = [((7, ascii "feed"), [])] ∧
      noteFeed.subscriptions = [((7, ascii "feed"), [{ kinds := [1] }])] := by
    decide +kernel
  obtain ⟨herror, hempty, hnote⟩ := hafter
  refine ⟨herror, hempty, ?_⟩
  rintro ⟨hperm, -⟩
  rw [hempty, hnote, List.singleton_perm_singleton] at hperm
  revert hperm
  decide

end Subscriptions
end WispRelay
