import WispRelay.Library.Runs
import WispRelay.Relay.Tables

/-!
# The buckets as a map

The rate limiter without slots: a finite map from connections to the buckets they hold, of at
most `RATE_LIMITER_MAX_BUCKETS` keys.  A check reads and writes the bucket of its own connection
only, and takes a fresh one when there is room; a reset drops the bucket.

* `RateLimiter.held` is the map the slots stand for.
* `rateLimiterCheck_held`, `rateLimiterCheck_full` and `rateLimiterReset_held` say what the
  operations do to it.
* `rate_limiter_isolates`: so the answers to one connection do not depend on the others.
-/

namespace WispRelay
namespace Relay

open Runs
open SlotTable (entries contents UniqueKeys findSlot? findSlot?_some findSlot?_key_some
  findSlot?_key_none findSlot?_free_none)

/-- A bucket in use, by its connection. -/
def RateBucket.entry
    (bucket : RateBucket) : Option (Int32 × RateBucket) :=
  if bucket.active then some (bucket.fd, bucket) else none

/-- The buckets in use, by connection. -/
def RateLimiter.held
    (rl : RateLimiter) : Finmap (fun _ : Int32 => RateBucket) :=
  contents RateBucket.entry rl.buckets

/-- The bucket with a number. -/
def RateLimiter.bucket
    (rl : RateLimiter)
    (i : Fin rateLimiterMaxBuckets) : RateBucket :=
  getElem rl.buckets i i.isLt

/-- Write the bucket with a number. -/
def RateLimiter.setBucket
    (rl : RateLimiter)
    (i : Fin rateLimiterMaxBuckets)
    (bucket : RateBucket) : RateLimiter :=
  { rl with buckets := rl.buckets.set i bucket i.isLt }

/-- A bucket as `get_bucket` hands it out. -/
def RateBucket.fresh
    (fd : Int32)
    (opened : UInt32) : RateBucket where
  fd := fd
  eventCount := 0
  reqCount := 0
  windowStart := opened
  active := true

/-- The bucket a check of the connection works on. -/
def RateLimiter.bucketFor
    (rl : RateLimiter)
    (opened : UInt32)
    (fd : Int32) : RateBucket :=
  (rl.held.lookup fd).getD (RateBucket.fresh fd opened)

namespace RateBucket

theorem entry_eq_some
    {bucket bucket' : RateBucket}
    {fd : Int32} :
    bucket.entry = some (fd, bucket') ↔ bucket.active = true ∧ bucket.fd = fd ∧ bucket = bucket' := by
  cases h : bucket.active <;> simp [entry, h]

theorem entry_eq_none
    {bucket : RateBucket} :
    bucket.entry = none ↔ bucket.active = false := by
  cases h : bucket.active <;> simp [entry, h]

theorem ofConn_entry
    (fd : Int32)
    (bucket : RateBucket) :
    bucket.ofConn fd = bucket.entry.any (fun e => decide (e.1 = fd)) := by
  cases h : bucket.active <;> simp [ofConn, entry, h, beq_eq_decide]

/-- Reading the keys only. -/
theorem read_eq_map
    (bucket : RateBucket) :
    bucket.read = bucket.entry.map (fun e => (e.1, ())) := by
  cases h : bucket.active <;> simp [read, entry, h]

/-- Counting keeps the connection of a bucket, and the bucket in use. -/
theorem count_renew
    (config : RateConfig)
    (type : RateType)
    (now : UInt32)
    (bucket : RateBucket) :
    ((bucket.renew now).count config type).2.fd = bucket.fd ∧
      ((bucket.renew now).count config type).2.active = bucket.active := by
  have hrenew : (bucket.renew now).fd = bucket.fd ∧ (bucket.renew now).active = bucket.active := by
    unfold renew
    split <;> exact ⟨rfl, rfl⟩
  rw [← hrenew.1, ← hrenew.2]
  cases type with
  | event =>
      unfold count
      dsimp only
      split <;> exact ⟨rfl, rfl⟩
  | req =>
      unfold count
      dsimp only
      split <;> exact ⟨rfl, rfl⟩

end RateBucket

section Held

variable
  {rl : RateLimiter}
  {fd : Int32}

theorem keys_entries
    (rl : RateLimiter) :
    (entries RateBucket.read rl.buckets).map Prod.fst =
      (entries RateBucket.entry rl.buckets).map Prod.fst := by
  have hread : RateBucket.read = fun bucket => bucket.entry.map (fun e => (e.1, ())) :=
    funext RateBucket.read_eq_map
  rw [entries, entries, hread, List.map_filterMap, List.map_filterMap]
  congr 1
  funext bucket
  cases bucket.entry <;> rfl

theorem bucketInv_iff :
    BucketInv rl ↔ UniqueKeys RateBucket.entry rl.buckets := by
  rw [BucketInv, UniqueKeys, UniqueKeys, keys_entries]

theorem holders_eq
    (rl : RateLimiter) :
    rl.holders = rl.held.keys := by
  rw [RateLimiter.holders, RateLimiter.held, SlotTable.keys_contents, SlotTable.keys_contents,
    keys_entries]

/-- Holding a bucket. -/
theorem lookup_held
    (h : BucketInv rl)
    {i : Fin rateLimiterMaxBuckets}
    {bucket : RateBucket}
    (hentry : (rl.bucket i).entry = some (fd, bucket)) :
    rl.held.lookup fd = some bucket := by
  refine (SlotTable.lookup_contents (bucketInv_iff.mp h)).mpr ?_
  exact SlotTable.mem_entries.mpr ⟨rl.bucket i, by simp [RateLimiter.bucket], hentry⟩

/-- `get_bucket` finds the bucket of a connection, or takes a fresh one when there is room. -/
theorem getBucket_room
    (h : BucketInv rl)
    (opened : UInt32)
    (hroom : fd ∈ rl.holders ∨ rl.holders.card < rateLimiterMaxBuckets) :
    ∃ (i : Fin rateLimiterMaxBuckets) (rl' : RateLimiter),
      getBucket opened rl fd = (some i, rl') ∧
        rl'.bucket i = rl.bucketFor opened fd ∧
        rl'.config = rl.config ∧
        ∀ bucket : RateBucket, bucket.entry = some (fd, bucket) →
          BucketInv (rl'.setBucket i bucket) ∧
            (rl'.setBucket i bucket).held = rl.held.insert fd bucket := by
  cases hfind : findSlot? rl.buckets (RateBucket.ofConn fd) with
  | some i =>
      obtain ⟨bucket, hentry⟩ := findSlot?_key_some (RateBucket.ofConn_entry fd) hfind
      refine ⟨i, rl, by simp only [getBucket, hfind], ?_, rfl, ?_⟩
      · rw [RateLimiter.bucketFor, lookup_held h hentry]
        exact (RateBucket.entry_eq_some.mp hentry).2.2
      · intro bucket' hnew
        obtain ⟨hunique, hcontents, -⟩ := (bucketInv_iff.mp h).replace hentry hnew
        exact ⟨bucketInv_iff.mpr hunique, hcontents⟩
  | none =>
      have hnot : fd ∉ rl.held := (findSlot?_key_none (RateBucket.ofConn_entry fd)).mp hfind
      have hfew : rl.holders.card < rateLimiterMaxBuckets := by
        rcases hroom with hmem | hfew
        · rw [holders_eq, Finmap.mem_keys] at hmem
          exact absurd hmem hnot
        · exact hfew
      cases hfree : findSlot? rl.buckets (fun bucket => !bucket.active) with
      | none =>
          rw [findSlot?_free_none RateBucket.free_eq, ← BucketInv.card_eq h] at hfree
          omega
      | some i =>
          have hinactive : (!rl.buckets[i].active) = true := findSlot?_some hfree
          have hold : rl.buckets[i].entry = none := by
            rw [RateBucket.entry_eq_none]
            simpa using hinactive
          refine ⟨i, rl.setBucket i (RateBucket.fresh fd opened),
            by simp only [getBucket, hfind, hfree, RateBucket.fresh, RateLimiter.setBucket],
            ?_, rfl, ?_⟩
          · rw [RateLimiter.bucketFor, Finmap.lookup_eq_none.mpr hnot]
            exact Vector.getElem_set_self i.isLt
          · intro bucket hnew
            obtain ⟨hunique, hcontents, -⟩ := (bucketInv_iff.mp h).take hold hnew hnot
            simp only [RateLimiter.setBucket, Vector.set_set]
            exact ⟨bucketInv_iff.mpr hunique, hcontents⟩

/-- A check of a connection that holds a bucket, or finds room for one. -/
theorem rateLimiterCheck_held
    (h : BucketInv rl)
    (opened now : UInt32)
    (type : RateType)
    (hroom : fd ∈ rl.holders ∨ rl.holders.card < rateLimiterMaxBuckets) :
    let counted := ((rl.bucketFor opened fd).renew now).count rl.config type
    (rateLimiterCheck opened now rl fd type).1 = counted.1 ∧
      BucketInv (rateLimiterCheck opened now rl fd type).2 ∧
      (rateLimiterCheck opened now rl fd type).2.config = rl.config ∧
      (rateLimiterCheck opened now rl fd type).2.held = rl.held.insert fd counted.2 := by
  intro counted
  obtain ⟨i, rl', hget, hbucket, hconfig, hset⟩ := getBucket_room h opened hroom
  obtain ⟨hfd, hactive⟩ := RateBucket.count_renew rl.config type now (rl.bucketFor opened fd)
  have hbucketFor : (rl.bucketFor opened fd).active = true ∧
      (rl.bucketFor opened fd).fd = fd := by
    cases hlookup : rl.held.lookup fd with
    | none =>
        rw [RateLimiter.bucketFor, hlookup]
        exact ⟨rfl, rfl⟩
    | some bucket =>
        have hmem := (SlotTable.lookup_contents (bucketInv_iff.mp h)).mp hlookup
        obtain ⟨slot, -, hentry⟩ := SlotTable.mem_entries.mp hmem
        obtain ⟨hinUse, hconn, rfl⟩ := RateBucket.entry_eq_some.mp hentry
        rw [RateLimiter.bucketFor, hlookup]
        exact ⟨hinUse, hconn⟩
  have hnew : counted.2.entry = some (fd, counted.2) :=
    RateBucket.entry_eq_some.mpr
      ⟨hactive.trans hbucketFor.1, hfd.trans hbucketFor.2, rfl⟩
  obtain ⟨hinv, hheld⟩ := hset counted.2 hnew
  have hcheck : rateLimiterCheck opened now rl fd type =
      (counted.1, rl'.setBucket i counted.2) := by
    have hslot : rl'.buckets[i] = rl.bucketFor opened fd := hbucket
    simp only [rateLimiterCheck, hget, hslot, hconfig, RateLimiter.setBucket, counted]
  rw [hcheck]
  exact ⟨rfl, hinv, hconfig, hheld⟩

/-- A check of a connection that finds no bucket. -/
theorem rateLimiterCheck_full
    (h : BucketInv rl)
    (opened now : UInt32)
    (type : RateType)
    (hnot : fd ∉ rl.holders)
    (hfull : rateLimiterMaxBuckets ≤ rl.holders.card) :
    rateLimiterCheck opened now rl fd type = (false, rl) := by
  have hfind : findSlot? rl.buckets (RateBucket.ofConn fd) = none := by
    rw [findSlot?_key_none (RateBucket.ofConn_eq fd), ← Finmap.mem_keys]
    exact hnot
  have hfree : findSlot? rl.buckets (fun bucket => !bucket.active) = none := by
    rw [findSlot?_free_none RateBucket.free_eq, ← BucketInv.card_eq h]
    exact le_antisymm (SlotTable.card_keys h ▸ SlotTable.length_entries_le rl.buckets) hfull
  simp only [rateLimiterCheck, getBucket, hfind, hfree]

/-- A reset drops the bucket of the connection. -/
theorem rateLimiterReset_held
    (h : BucketInv rl)
    (fd : Int32) :
    BucketInv (rateLimiterReset rl fd) ∧
      (rateLimiterReset rl fd).config = rl.config ∧
      (rateLimiterReset rl fd).held = rl.held.erase fd := by
  unfold rateLimiterReset
  cases hfind : findSlot? rl.buckets (RateBucket.ofConn fd) with
  | some i =>
      obtain ⟨bucket, hentry⟩ := findSlot?_key_some (RateBucket.ofConn_entry fd) hfind
      obtain ⟨hunique, hcontents, -⟩ := (bucketInv_iff.mp h).release hentry
        (s := { rl.buckets[i] with active := false }) rfl
      exact ⟨bucketInv_iff.mpr hunique, rfl, hcontents⟩
  | none =>
      have hnot : fd ∉ rl.held := (findSlot?_key_none (RateBucket.ofConn_entry fd)).mp hfind
      exact ⟨h, rfl, (SlotTable.erase_of_notMem hnot).symm⟩

end Held

/-! ## Calls -/

/-- A call of the rate limiter; the readings of the clock come with a check. -/
inductive RateCall where
  | check (opened now : UInt32) (fd : Int32) (type : RateType)
  | reset (fd : Int32)
deriving DecidableEq

/-- The connection a call is about. -/
def RateCall.fd : RateCall → Int32
  | .check _ _ fd _ => fd
  | .reset fd => fd

/-- One call, with the answer to a check. -/
def rateCall
    (rl : RateLimiter) : RateCall → Option Bool × RateLimiter
  | .check opened now fd type =>
      let r := rateLimiterCheck opened now rl fd type
      (some r.1, r.2)
  | .reset fd => (none, rateLimiterReset rl fd)

/-- The answers to the checks of a connection. -/
def answersTo
    (fd : Int32)
    (rl : RateLimiter)
    (calls : List RateCall) : List Bool :=
  (trace rateCall rl calls).filterMap (fun x => if x.1.fd = fd then x.2 else none)

/-- When the connection checks, it and the holders of buckets are no more than 16. -/
def FindsBucket
    (fd : Int32)
    (rl : RateLimiter) : RateCall → Prop
  | .check _ _ fd' _ => fd' = fd → (insert fd rl.holders).card ≤ rateLimiterMaxBuckets
  | .reset _ => True

section Calls

variable
  {rl : RateLimiter}
  {fd : Int32}

instance (fd : Int32) (rl : RateLimiter) (call : RateCall) : Decidable (FindsBucket fd rl call) :=
  match call with
  | .check _ _ fd' _ =>
      inferInstanceAs
        (Decidable (fd' = fd → (insert fd rl.holders).card ≤ rateLimiterMaxBuckets))
  | .reset _ => inferInstanceAs (Decidable True)

theorem answersTo_snoc
    (calls : List RateCall)
    (call : RateCall) :
    answersTo fd rl (calls ++ [call]) =
      answersTo fd rl calls ++
        (if call.fd = fd then (rateCall (finalState rateCall rl calls) call).1 else none).toList := by
  rw [answersTo, trace_snoc, List.filterMap_append, answersTo]
  congr 1

theorem bucketInv_init
    (config : Option RateConfig) :
    BucketInv (rateLimiterInit config) := List.nodup_nil

theorem held_init
    (config : Option RateConfig) :
    (rateLimiterInit config).held = ∅ := rfl

/-- A connection with its bucket counted in finds room. -/
theorem room_of_insert
    (hcard : (insert fd rl.holders).card ≤ rateLimiterMaxBuckets) :
    fd ∈ rl.holders ∨ rl.holders.card < rateLimiterMaxBuckets := by
  by_cases hmem : fd ∈ rl.holders
  · exact Or.inl hmem
  · rw [Finset.card_insert_of_notMem hmem] at hcard
    exact Or.inr hcard

/-- What every call keeps. -/
theorem rateCall_keeps
    (h : BucketInv rl)
    (call : RateCall) :
    BucketInv (rateCall rl call).2 ∧ (rateCall rl call).2.config = rl.config := by
  cases call with
  | check opened now fd type =>
      by_cases hroom : fd ∈ rl.holders ∨ rl.holders.card < rateLimiterMaxBuckets
      · obtain ⟨-, hinv, hconfig, -⟩ := rateLimiterCheck_held h opened now type hroom
        exact ⟨hinv, hconfig⟩
      · rw [not_or, Nat.not_lt] at hroom
        simp only [rateCall, rateLimiterCheck_full h opened now type hroom.1 hroom.2]
        exact ⟨h, trivial⟩
  | reset fd =>
      obtain ⟨hinv, hconfig, -⟩ := rateLimiterReset_held h fd
      exact ⟨hinv, hconfig⟩

/-- A call leaves the buckets of other connections alone. -/
theorem lookup_rateCall_other
    (h : BucketInv rl)
    {call : RateCall}
    (hother : call.fd ≠ fd) :
    (rateCall rl call).2.held.lookup fd = rl.held.lookup fd := by
  cases call with
  | check opened now fd' type =>
      have hne : fd ≠ fd' := Ne.symm hother
      by_cases hroom : fd' ∈ rl.holders ∨ rl.holders.card < rateLimiterMaxBuckets
      · obtain ⟨-, -, -, hheld⟩ := rateLimiterCheck_held h opened now type hroom
        simp only [rateCall]
        rw [hheld, Finmap.lookup_insert_of_ne _ hne]
      · rw [not_or, Nat.not_lt] at hroom
        simp only [rateCall, rateLimiterCheck_full h opened now type hroom.1 hroom.2]
  | reset fd' =>
      have hne : fd ≠ fd' := Ne.symm hother
      obtain ⟨-, -, hheld⟩ := rateLimiterReset_held h fd'
      simp only [rateCall]
      rw [hheld, Finmap.lookup_erase_ne hne]

/-! ## Isolation -/

/-- Two limiters that agree on one connection, the second of which serves no other. -/
structure AgreesOn
    (fd : Int32)
    (rl alone : RateLimiter) : Prop where
  inv : BucketInv rl
  inv_alone : BucketInv alone
  config : alone.config = rl.config
  lookup : alone.held.lookup fd = rl.held.lookup fd
  holders_alone : alone.holders ⊆ {fd}

namespace AgreesOn

variable {alone : RateLimiter}

theorem init
    (config : Option RateConfig) :
    AgreesOn fd (rateLimiterInit config) (rateLimiterInit config) where
  inv := bucketInv_init config
  inv_alone := bucketInv_init config
  config := rfl
  lookup := rfl
  holders_alone := by
    rw [holders_eq, held_init, Finmap.keys_empty]
    exact Finset.empty_subset _

/-- A call of another connection. -/
theorem other
    (h : AgreesOn fd rl alone)
    {call : RateCall}
    (hother : call.fd ≠ fd) :
    AgreesOn fd (rateCall rl call).2 alone where
  inv := (rateCall_keeps h.inv call).1
  inv_alone := h.inv_alone
  config := h.config.trans (rateCall_keeps h.inv call).2.symm
  lookup := h.lookup.trans (lookup_rateCall_other h.inv hother).symm
  holders_alone := h.holders_alone

/-- A call of the connection itself gets the same answer. -/
theorem own
    (h : AgreesOn fd rl alone)
    {call : RateCall}
    (hown : call.fd = fd)
    (hfew : FindsBucket fd rl call) :
    (rateCall alone call).1 = (rateCall rl call).1 ∧
      AgreesOn fd (rateCall rl call).2 (rateCall alone call).2 := by
  obtain ⟨hinv, hconfig⟩ := rateCall_keeps h.inv call
  obtain ⟨hinvAlone, hconfigAlone⟩ := rateCall_keeps h.inv_alone call
  have hconfigs := hconfigAlone.trans (h.config.trans hconfig.symm)
  cases call with
  | check opened now fd' type =>
      obtain rfl : fd' = fd := hown
      have hsmall : alone.holders.card < rateLimiterMaxBuckets :=
        lt_of_le_of_lt (Finset.card_le_card h.holders_alone)
          (by rw [Finset.card_singleton]; decide)
      have hbucket : alone.bucketFor opened fd' = rl.bucketFor opened fd' := by
        rw [RateLimiter.bucketFor, RateLimiter.bucketFor, h.lookup]
      obtain ⟨hanswer, -, -, hheld⟩ :=
        rateLimiterCheck_held h.inv opened now type (room_of_insert (hfew rfl))
      obtain ⟨hanswerAlone, -, -, hheldAlone⟩ :=
        rateLimiterCheck_held h.inv_alone opened now type (Or.inr hsmall)
      rw [hbucket, h.config] at hanswerAlone hheldAlone
      refine ⟨congrArg some (hanswerAlone.trans hanswer.symm), hinv, hinvAlone, hconfigs, ?_, ?_⟩
      · simp only [rateCall]
        rw [hheld, hheldAlone, Finmap.lookup_insert, Finmap.lookup_insert]
      · simp only [rateCall]
        rw [holders_eq, hheldAlone, SlotTable.keys_insert, ← holders_eq]
        exact Finset.insert_subset (Finset.mem_singleton_self _) h.holders_alone
  | reset fd' =>
      obtain rfl : fd' = fd := hown
      obtain ⟨-, -, hheld⟩ := rateLimiterReset_held h.inv fd'
      obtain ⟨-, -, hheldAlone⟩ := rateLimiterReset_held h.inv_alone fd'
      refine ⟨rfl, hinv, hinvAlone, hconfigs, ?_, ?_⟩
      · simp only [rateCall]
        rw [hheld, hheldAlone, Finmap.lookup_erase, Finmap.lookup_erase]
      · simp only [rateCall]
        rw [holders_eq, hheldAlone, Finmap.keys_erase, ← holders_eq]
        exact (Finset.erase_subset _ _).trans h.holders_alone

/-- After every run the limiter agrees with the one that serves the connection alone. -/
theorem run
    {config : Option RateConfig}
    {calls : List RateCall}
    (hfew : Admits rateCall (FindsBucket fd) (rateLimiterInit config) calls) :
    answersTo fd (rateLimiterInit config) calls =
        answersTo fd (rateLimiterInit config) (calls.filter (fun call => call.fd = fd)) ∧
      AgreesOn fd (finalState rateCall (rateLimiterInit config) calls)
        (finalState rateCall (rateLimiterInit config)
          (calls.filter (fun call => call.fd = fd))) := by
  induction calls using List.reverseRecOn with
  | nil => exact ⟨rfl, init config⟩
  | append_singleton past call ih =>
      obtain ⟨hanswers, hagrees⟩ := ih (hfew.before (List.prefix_append past [call]))
      by_cases hown : call.fd = fd
      · have hfilter : (past ++ [call]).filter (fun call => call.fd = fd) =
            past.filter (fun call => call.fd = fd) ++ [call] := by
          simp [hown]
        obtain ⟨hanswer, hnext⟩ := hagrees.own hown (hfew past call List.prefix_rfl)
        rw [hfilter, finalState_snoc, finalState_snoc, answersTo_snoc, answersTo_snoc, hanswers,
          hanswer]
        exact ⟨rfl, hnext⟩
      · have hfilter : (past ++ [call]).filter (fun call => call.fd = fd) =
            past.filter (fun call => call.fd = fd) := by
          simp [hown]
        rw [hfilter, finalState_snoc, answersTo_snoc, hanswers, if_neg hown]
        exact ⟨List.append_nil _, hagrees.other hown⟩

end AgreesOn

end Calls

/--
**The rate limiter isolates connections.**  As long as a connection that checks and the holders of
buckets are no more than 16, its answers are those it gets when all other calls are left out.
-/
theorem rate_limiter_isolates
    (config : Option RateConfig)
    (fd : Int32)
    (calls : List RateCall)
    (hfew : Admits rateCall (FindsBucket fd) (rateLimiterInit config) calls) :
    answersTo fd (rateLimiterInit config) calls =
      answersTo fd (rateLimiterInit config) (calls.filter (fun call => call.fd = fd)) :=
  (AgreesOn.run hfew).1

/-- Connection 7 is limited to one event; connection 8 checks, leaves, and its bucket is reused. -/
def twoConnections : List RateCall :=
  [ .check 0 0 8 .event, .check 1 1 7 .event, .check 2 2 8 .event, .reset 8,
    .check 3 3 7 .event, .check 70 70 7 .event ]

theorem rate_limiter_isolates_two_connections :
    let config := some { eventsPerMinute := 1, reqsPerMinute := 1 }
    answersTo 7 (rateLimiterInit config) twoConnections =
      answersTo 7 (rateLimiterInit config) (twoConnections.filter (fun call => call.fd = 7)) := by
  intro config
  refine rate_limiter_isolates config 7 twoConnections (Admits.of_get ?_)
  intro i
  fin_cases i
  all_goals decide +kernel

end Relay
end WispRelay
