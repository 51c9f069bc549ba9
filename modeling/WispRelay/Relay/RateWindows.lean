import WispRelay.Library.FixedWindow
import WispRelay.Relay.RateTable

/-!
# What the rate limiter admits

A bucket counts the messages of each type since the start of its window, and a new window starts
at the first check that comes 60 seconds or more after that.  Both types share the window, and a
window of one connection has nothing to do with those of the others.

* `admitted`: the checks of a connection answered with true, each with the start of its window.
* `Tracks`: the counter of a bucket is the number of checks admitted in its window.
* `rate_limits_hold`: between resets at most the limit is admitted in a window and at most twice
  the limit in any 60 seconds, and a check is refused only for one of the two reasons.
-/

namespace WispRelay
namespace Relay

open FixedWindow Runs
open SlotTable (UniqueKeys)

/-- The messages of a type per minute. -/
def RateConfig.limit
    (config : RateConfig) : RateType → UInt16
  | .event => config.eventsPerMinute
  | .req => config.reqsPerMinute

/-- The counter of a type. -/
def RateBucket.countOf
    (bucket : RateBucket) : RateType → UInt16
  | .event => bucket.eventCount
  | .req => bucket.reqCount

/-- The start of the window of a connection. -/
def RateLimiter.windowOf
    (rl : RateLimiter)
    (fd : Int32) : Nat :=
  (rl.held.lookup fd).elim 0 (fun bucket => bucket.windowStart.toNat)

/-- A check of the connection answered with true: the start of its window, and its time. -/
def admittedBy
    (fd : Int32)
    (type : RateType)
    (rl : RateLimiter) : RateCall → Option (Nat × Nat)
  | .check opened now fd' type' =>
      let r := rateLimiterCheck opened now rl fd' type'
      if fd' = fd ∧ type' = type ∧ r.1 = true then some (r.2.windowOf fd, now.toNat) else none
  | .reset _ => none

/-- The checks of the connection answered with true in a run. -/
def admitted
    (fd : Int32)
    (type : RateType) : RateLimiter → List RateCall → List (Nat × Nat)
  | _, [] => []
  | rl, call :: rest =>
      (admittedBy fd type rl call).toList ++ admitted fd type (rateCall rl call).2 rest

/-- The readings of the clock. -/
def readings
    (calls : List RateCall) : List UInt32 :=
  calls.flatMap fun
    | .check opened now _ _ => [opened, now]
    | .reset _ => []

theorem admitted_snoc
    (fd : Int32)
    (type : RateType)
    (rl : RateLimiter)
    (calls : List RateCall)
    (call : RateCall) :
    admitted fd type rl (calls ++ [call]) =
      admitted fd type rl calls ++
        (admittedBy fd type (finalState rateCall rl calls) call).toList := by
  induction calls generalizing rl with
  | nil => exact List.append_nil _
  | cons first rest ih =>
      simp only [List.cons_append, admitted, ih, finalState, List.append_assoc]

/-! ## One bucket -/

namespace RateBucket

/-- What counting does. -/
inductive Counted
    (config : RateConfig)
    (type : RateType)
    (bucket : RateBucket) : Bool × RateBucket → Prop
  | refused
      (hfull : config.limit type ≤ bucket.countOf type) :
      Counted config type bucket (false, bucket)
  | admitted
      (bucket' : RateBucket)
      (hroom : bucket.countOf type < config.limit type)
      (hwindow : bucket'.windowStart = bucket.windowStart)
      (hcount : (bucket'.countOf type).toNat = (bucket.countOf type).toNat + 1)
      (hother : ∀ other, other ≠ type → bucket'.countOf other = bucket.countOf other) :
      Counted config type bucket (true, bucket')

/-- A counter below its limit does not wrap. -/
theorem toNat_count_succ
    {count limit : UInt16}
    (hlt : count < limit) :
    (count + 1).toNat = count.toNat + 1 := by
  have hsmall := limit.toNat_lt
  rw [UInt16.lt_iff_toNat_lt] at hlt
  rw [UInt16.toNat_add]
  exact Nat.mod_eq_of_lt (by simp; omega)

theorem counted
    (config : RateConfig)
    (type : RateType)
    (bucket : RateBucket) :
    Counted config type bucket (bucket.count config type) := by
  cases type with
  | event =>
      unfold count
      dsimp only
      split
      case isTrue hfull => exact Counted.refused hfull
      case isFalse hroom =>
        have hlt := UInt16.not_le.mp hroom
        refine Counted.admitted _ hlt rfl (toNat_count_succ hlt) ?_
        intro other hne
        cases other with
        | event => exact absurd rfl hne
        | req => rfl
  | req =>
      unfold count
      dsimp only
      split
      case isTrue hfull => exact Counted.refused hfull
      case isFalse hroom =>
        have hlt := UInt16.not_le.mp hroom
        refine Counted.admitted _ hlt rfl (toNat_count_succ hlt) ?_
        intro other hne
        cases other with
        | event => rfl
        | req => exact absurd rfl hne

end RateBucket

/-- The log of a connection is that of its bucket. -/
structure Tracks
    (limit : Nat)
    (type : RateType)
    (log : List (Nat × Nat))
    (bucket : RateBucket) : Prop where
  windows : WindowLog 60 limit bucket.windowStart.toNat log
  count : (bucket.countOf type).toNat = inWindow bucket.windowStart.toNat log

namespace Tracks

variable
  {limit : Nat}
  {type : RateType}
  {log : List (Nat × Nat)}
  {bucket : RateBucket}

/-- A bucket just taken, when nothing was admitted. -/
theorem fresh
    (fd : Int32)
    (opened : UInt32) :
    Tracks limit type [] (RateBucket.fresh fd opened) where
  windows := WindowLog.nil
  count := by
    cases type <;> rfl

/-- A new window is started when the old one is over, and then the time is within the window. -/
theorem renew
    (h : Tracks limit type log bucket)
    {now : UInt32}
    (hstarted : bucket.windowStart ≤ now) :
    Tracks limit type log (bucket.renew now) ∧
      (bucket.renew now).windowStart.toNat ≤ now.toNat ∧
      now.toNat < (bucket.renew now).windowStart.toNat + 60 := by
  have hle := UInt32.le_iff_toNat_le.mp hstarted
  have hsub := UInt32.toNat_sub_of_le _ _ hstarted
  unfold RateBucket.renew
  split
  case isTrue hover =>
    have hover' : 60 ≤ now.toNat - bucket.windowStart.toNat := by
      rw [← hsub]
      exact UInt32.le_iff_toNat_le.mp hover
    have hended : bucket.windowStart.toNat + 60 ≤ now.toNat := by omega
    refine ⟨⟨h.windows.renew hended, ?_⟩, le_rfl, Nat.lt_add_of_pos_right (by decide)⟩
    rw [h.windows.inWindow_renewed hended (by decide)]
    cases type <;> rfl
  case isFalse hnot =>
    have hnot' : ¬ 60 ≤ now.toNat - bucket.windowStart.toNat := by
      rw [← hsub]
      exact fun hover => hnot (UInt32.le_iff_toNat_le.mpr hover)
    exact ⟨h, hle, by omega⟩

/-- A check of the type itself is refused at the limit, and admitted and logged below it. -/
theorem count_own
    {config : RateConfig}
    (h : Tracks (config.limit type).toNat type log bucket)
    {now : Nat}
    (hstarted : bucket.windowStart.toNat ≤ now)
    (hnot : now < bucket.windowStart.toNat + 60) :
    let counted := bucket.count config type
    counted.2.windowStart = bucket.windowStart ∧
      Tracks (config.limit type).toNat type
        (log ++ if counted.1 then [(bucket.windowStart.toNat, now)] else []) counted.2 ∧
      (counted.1 = false →
        inWindow bucket.windowStart.toNat log = (config.limit type).toNat) := by
  have hcounted := RateBucket.counted config type bucket
  generalize bucket.count config type = counted at hcounted ⊢
  cases hcounted with
  | refused hfull =>
      have hfull' := UInt16.le_iff_toNat_le.mp hfull
      rw [h.count] at hfull'
      simp only [Bool.false_eq_true, if_false, List.append_nil]
      exact ⟨trivial, h, fun _ => le_antisymm (h.windows.full _) hfull'⟩
  | admitted bucket' hroom hwindow hcount hother =>
      have hroom' := UInt16.lt_iff_toNat_lt.mp hroom
      rw [h.count] at hroom'
      refine ⟨hwindow, ⟨?_, ?_⟩, by simp⟩
      · rw [hwindow]
        exact h.windows.snoc hstarted hnot hroom'
      · rw [hwindow, hcount, h.count, if_pos rfl, inWindow_snoc, if_pos rfl]

/-- A check of the other type leaves the log alone. -/
theorem count_other
    (config : RateConfig)
    (h : Tracks limit type log bucket)
    {other : RateType}
    (hne : type ≠ other) :
    let counted := bucket.count config other
    counted.2.windowStart = bucket.windowStart ∧ Tracks limit type log counted.2 := by
  have hcounted := RateBucket.counted config other bucket
  generalize bucket.count config other = counted at hcounted ⊢
  cases hcounted with
  | refused hfull => exact ⟨rfl, h⟩
  | admitted bucket' hroom hwindow hcount hother =>
      refine ⟨hwindow, ⟨?_, ?_⟩⟩
      · rw [hwindow]
        exact h.windows
      · rw [hwindow, hother type hne]
        exact h.count

end Tracks

/-! ## Runs without a reset -/

/-- What is known of the limiter since the last reset of the connection. -/
structure Logged
    (fd : Int32)
    (type : RateType)
    (config : RateConfig)
    (past : List RateCall)
    (log : List (Nat × Nat))
    (rl : RateLimiter) : Prop where
  inv : BucketInv rl
  config_eq : rl.config = config
  unheld : rl.held.lookup fd = none → log = []
  held : ∀ bucket, rl.held.lookup fd = some bucket →
    Tracks (config.limit type).toNat type log bucket ∧ bucket.windowStart ∈ readings past

/-- The limit of the type was reached in the window of the connection. -/
def LimitReached
    (fd : Int32)
    (type : RateType)
    (log : List (Nat × Nat))
    (rl : RateLimiter) : Prop :=
  inWindow (rl.windowOf fd) log = (rl.config.limit type).toNat

/-- All buckets belong to other connections. -/
def AllTaken
    (fd : Int32)
    (rl : RateLimiter) : Prop :=
  fd ∉ rl.holders ∧ rl.holders.card = rateLimiterMaxBuckets

theorem readings_snoc
    (past : List RateCall)
    (call : RateCall) :
    readings (past ++ [call]) = readings past ++ readings [call] := by
  rw [readings, List.flatMap_append, readings, readings]

namespace Logged

variable
  {fd : Int32}
  {type : RateType}
  {config : RateConfig}
  {past : List RateCall}
  {log : List (Nat × Nat)}
  {rl : RateLimiter}

/-- A connection without a bucket. -/
theorem start
    (hinv : BucketInv rl)
    (hconfig : rl.config = config)
    (hnone : rl.held.lookup fd = none) :
    Logged fd type config past [] rl where
  inv := hinv
  config_eq := hconfig
  unheld := fun _ => rfl
  held := by
    intro bucket hsome
    rw [hnone] at hsome
    cases hsome

/-- The bucket a check works on, when it comes no earlier than what was read before. -/
theorem bucketFor
    (h : Logged fd type config past log rl)
    {opened : UInt32}
    (hlater : ∀ t ∈ readings past, t ≤ opened) :
    Tracks (config.limit type).toNat type log (rl.bucketFor opened fd) ∧
      (rl.bucketFor opened fd).windowStart ≤ opened ∧
      ((rl.bucketFor opened fd).windowStart ∈ readings past ∨
        (rl.bucketFor opened fd).windowStart = opened) := by
  cases hlookup : rl.held.lookup fd with
  | none =>
      rw [RateLimiter.bucketFor, hlookup, h.unheld hlookup]
      exact ⟨Tracks.fresh fd opened, UInt32.le_refl _, Or.inr rfl⟩
  | some bucket =>
      obtain ⟨htracks, hread⟩ := h.held bucket hlookup
      rw [RateLimiter.bucketFor, hlookup]
      exact ⟨htracks, hlater _ hread, Or.inl hread⟩

/-- The window of a bucket after a check starts at a reading of the clock. -/
theorem renew_read
    (past : List RateCall)
    {bucket : RateBucket}
    {opened : UInt32}
    (now : UInt32)
    (fd : Int32)
    (type' : RateType)
    (hread : bucket.windowStart ∈ readings past ∨ bucket.windowStart = opened) :
    (bucket.renew now).windowStart ∈ readings (past ++ [.check opened now fd type']) := by
  rw [readings_snoc, List.mem_append]
  unfold RateBucket.renew
  split
  · exact Or.inr (by simp [readings])
  · rcases hread with hbefore | hopened
    · exact Or.inl hbefore
    · exact Or.inr (by simp [readings, hopened])

/-- A call of another connection. -/
theorem other
    (h : Logged fd type config past log rl)
    {call : RateCall}
    (hother : call.fd ≠ fd) :
    Logged fd type config (past ++ [call])
      (log ++ (admittedBy fd type rl call).toList) (rateCall rl call).2 := by
  have hnothing : admittedBy fd type rl call = none := by
    cases call with
    | check opened now fd' type' => exact if_neg fun hboth => hother hboth.1
    | reset fd' => rfl
  obtain ⟨hinv, hconfig⟩ := rateCall_keeps h.inv call
  have hlookup := lookup_rateCall_other h.inv hother
  rw [hnothing, Option.toList_none, List.append_nil]
  refine ⟨hinv, hconfig.trans h.config_eq, ?_, ?_⟩
  · rw [hlookup]
    exact h.unheld
  · intro bucket hsome
    rw [hlookup] at hsome
    obtain ⟨htracks, hread⟩ := h.held bucket hsome
    refine ⟨htracks, ?_⟩
    rw [readings_snoc]
    exact List.mem_append_left _ hread

/-- A check of the connection that finds no bucket. -/
theorem denied
    (h : Logged fd type config past log rl)
    (opened now : UInt32)
    (type' : RateType)
    (hnot : fd ∉ rl.holders)
    (hfull : rateLimiterMaxBuckets ≤ rl.holders.card) :
    Logged fd type config (past ++ [.check opened now fd type'])
        (log ++ (admittedBy fd type rl (.check opened now fd type')).toList)
        (rateCall rl (.check opened now fd type')).2 ∧ AllTaken fd rl := by
  have hcheck := rateLimiterCheck_full h.inv opened now type' hnot hfull
  have hnothing : admittedBy fd type rl (.check opened now fd type') = none := by
    simp [admittedBy, hcheck]
  have hsame : (rateCall rl (.check opened now fd type')).2 = rl := by
    simp [rateCall, hcheck]
  have hunheld : rl.held.lookup fd = none := by
    rw [holders_eq, Finmap.mem_keys] at hnot
    exact Finmap.lookup_eq_none.mpr hnot
  rw [hnothing, hsame, h.unheld hunheld]
  refine ⟨start h.inv h.config_eq hunheld, hnot, le_antisymm ?_ hfull⟩
  exact SlotTable.card_keys h.inv ▸ SlotTable.length_entries_le rl.buckets

/-- A check of the connection that works on a bucket. -/
theorem checked
    (h : Logged fd type config past log rl)
    {opened now : UInt32}
    (type' : RateType)
    (hroom : fd ∈ rl.holders ∨ rl.holders.card < rateLimiterMaxBuckets)
    (hlater : ∀ t ∈ readings past, t ≤ opened)
    (hnow : opened ≤ now) :
    Logged fd type config (past ++ [.check opened now fd type'])
        (log ++ (admittedBy fd type rl (.check opened now fd type')).toList)
        (rateCall rl (.check opened now fd type')).2 ∧
      (type' = type → (rateCall rl (.check opened now fd type')).1 = some false →
        LimitReached fd type log (rateCall rl (.check opened now fd type')).2) := by
  obtain ⟨htracks, hstarted, hread⟩ := h.bucketFor hlater
  obtain ⟨hanswer, hinv, hconfig, hheld⟩ := rateLimiterCheck_held h.inv opened now type' hroom
  obtain ⟨hrenewed, hbegun, hnot⟩ := htracks.renew (UInt32.le_trans hstarted hnow)
  have hstart := renew_read past now fd type' hread
  rw [h.config_eq] at hanswer hheld hconfig
  -- what follows speaks of the bucket in its window only
  generalize (rl.bucketFor opened fd).renew now = bucket at hstart hanswer hheld hrenewed hbegun hnot
  have hlookup : (rateCall rl (.check opened now fd type')).2.held.lookup fd =
      some (bucket.count config type').2 := by
    simp only [rateCall]
    rw [hheld, Finmap.lookup_insert]
  have hafter : ∀ log', (bucket.count config type').2.windowStart = bucket.windowStart →
      Tracks (config.limit type).toNat type log' (bucket.count config type').2 →
      Logged fd type config (past ++ [.check opened now fd type']) log'
        (rateCall rl (.check opened now fd type')).2 := by
    intro log' hwindow htracks'
    refine ⟨hinv, hconfig, fun hnone => ?_, fun bucket' hsome => ?_⟩
    · rw [hlookup] at hnone
      cases hnone
    · rw [hlookup] at hsome
      obtain rfl := Option.some.inj hsome
      rw [hwindow]
      exact ⟨htracks', hstart⟩
  have hwindowOf : (bucket.count config type').2.windowStart = bucket.windowStart →
      (rateCall rl (.check opened now fd type')).2.windowOf fd = bucket.windowStart.toNat := by
    intro hwindow
    rw [RateLimiter.windowOf, hlookup, Option.elim_some, hwindow]
  by_cases htype : type' = type
  · subst htype
    obtain ⟨hwindow, htracks', hfull⟩ := hrenewed.count_own hbegun hnot
    have hlogged : (admittedBy fd type' rl (.check opened now fd type')).toList =
        if (bucket.count config type').1 then [(bucket.windowStart.toNat, now.toNat)] else [] := by
      rw [← hwindowOf hwindow, ← hanswer]
      cases hallowed : (rateLimiterCheck opened now rl fd type').1 with
      | false => simp [admittedBy, hallowed]
      | true => simp [admittedBy, hallowed, rateCall]
    rw [hlogged]
    refine ⟨hafter _ hwindow htracks', fun _ hrefused => ?_⟩
    have hfalse : (bucket.count config type').1 = false := by
      rw [← hanswer]
      exact Option.some.inj hrefused
    rw [LimitReached, hwindowOf hwindow, hfull hfalse]
    exact congrArg (fun c => (RateConfig.limit c type').toNat) hconfig.symm
  · obtain ⟨hwindow, htracks'⟩ := hrenewed.count_other config (Ne.symm htype)
    have hlogged : (admittedBy fd type rl (.check opened now fd type')).toList = [] := by
      simp [admittedBy, htype]
    rw [hlogged, List.append_nil]
    exact ⟨hafter _ hwindow htracks', fun hsame => absurd hsame htype⟩

/-- Every call but a reset of the connection. -/
theorem step
    (h : Logged fd type config past log rl)
    {call : RateCall}
    (hreset : call ≠ .reset fd)
    (htime : (readings (past ++ [call])).Pairwise (· ≤ ·)) :
    Logged fd type config (past ++ [call]) (log ++ (admittedBy fd type rl call).toList)
        (rateCall rl call).2 ∧
      ∀ opened now, call = .check opened now fd type → (rateCall rl call).1 = some false →
        LimitReached fd type log (rateCall rl call).2 ∨ AllTaken fd rl := by
  by_cases hown : call.fd = fd
  case neg =>
    refine ⟨h.other hown, ?_⟩
    rintro opened now rfl
    exact absurd rfl hown
  cases call with
  | reset fd' => exact absurd (congrArg RateCall.reset hown) hreset
  | check opened now fd' type' =>
      obtain rfl : fd' = fd := hown
      rw [readings_snoc, List.pairwise_append] at htime
      obtain ⟨-, hcall, hbefore⟩ := htime
      have hlater : ∀ t ∈ readings past, t ≤ opened :=
        fun t ht => hbefore t ht opened (by simp [readings])
      have hnow : opened ≤ now := by
        simpa [readings] using hcall
      by_cases hroom : fd' ∈ rl.holders ∨ rl.holders.card < rateLimiterMaxBuckets
      · obtain ⟨hlogged, hrefused⟩ := h.checked type' hroom hlater hnow
        refine ⟨hlogged, ?_⟩
        rintro opened' now' ⟨⟩ hfalse
        exact Or.inl (hrefused rfl hfalse)
      · rw [not_or, Nat.not_lt] at hroom
        obtain ⟨hlogged, htaken⟩ :=
          h.denied opened now type' hroom.1 hroom.2
        exact ⟨hlogged, fun _ _ _ _ => Or.inr htaken⟩

/-- Every run without a reset of the connection. -/
theorem run
    {rl₀ : RateLimiter}
    (h : Logged fd type config past [] rl₀)
    {calls : List RateCall}
    (hreset : RateCall.reset fd ∉ calls)
    (htime : (readings (past ++ calls)).Pairwise (· ≤ ·)) :
    Logged fd type config (past ++ calls) (admitted fd type rl₀ calls)
      (finalState rateCall rl₀ calls) := by
  induction calls using List.reverseRecOn with
  | nil =>
      rw [List.append_nil]
      exact h
  | append_singleton front call ih =>
      rw [← List.append_assoc] at htime ⊢
      have hfront : (readings (past ++ front)).Pairwise (· ≤ ·) := by
        rw [readings_snoc, List.pairwise_append] at htime
        exact htime.1
      have hlogged := ih (fun hmem => hreset (List.mem_append_left _ hmem)) hfront
      rw [admitted_snoc, finalState_snoc]
      refine (hlogged.step ?_ htime).1
      rintro rfl
      exact hreset (by simp)

/-- What was admitted is bounded. -/
theorem windowLog
    (h : Logged fd type config past log rl) :
    ∃ start, WindowLog 60 (config.limit type).toNat start log := by
  cases hlookup : rl.held.lookup fd with
  | none =>
      rw [h.unheld hlookup]
      exact ⟨0, WindowLog.nil⟩
  | some bucket => exact ⟨_, (h.held bucket hlookup).1.windows⟩

end Logged

/-- The run is at its start, or the connection has just been reset. -/
def JustReset
    (fd : Int32)
    (past : List RateCall) : Prop :=
  past = [] ∨ ∃ before, past = before ++ [.reset fd]

/-- What the limiter promises a connection until it is reset. -/
structure RateBounds
    (fd : Int32)
    (type : RateType)
    (limit : Nat)
    (rl : RateLimiter)
    (calls : List RateCall) : Prop where
  perWindow : ∀ start, inWindow start (admitted fd type rl calls) ≤ limit
  sliding : ∀ a, between a (a + 60) (admitted fd type rl calls) ≤ 2 * limit
  refused : ∀ front opened now, front ++ [.check opened now fd type] <+: calls →
    (rateCall (finalState rateCall rl front) (.check opened now fd type)).1 = some false →
    LimitReached fd type (admitted fd type rl front)
        (rateCall (finalState rateCall rl front) (.check opened now fd type)).2 ∨
      AllTaken fd (finalState rateCall rl front)

theorem logged_of_justReset
    (config : Option RateConfig)
    {fd : Int32}
    (type : RateType)
    {past : List RateCall}
    (hpast : JustReset fd past) :
    Logged fd type (rateLimiterInit config).config past []
      (finalState rateCall (rateLimiterInit config) past) := by
  have hkeeps : ∀ calls, BucketInv (finalState rateCall (rateLimiterInit config) calls) ∧
      (finalState rateCall (rateLimiterInit config) calls).config =
        (rateLimiterInit config).config := by
    intro calls
    induction calls using List.reverseRecOn with
    | nil => exact ⟨bucketInv_init config, rfl⟩
    | append_singleton front call ih =>
        rw [finalState_snoc]
        obtain ⟨hinv, hconfig⟩ := rateCall_keeps ih.1 call
        exact ⟨hinv, hconfig.trans ih.2⟩
  refine Logged.start (hkeeps past).1 (hkeeps past).2 ?_
  rcases hpast with rfl | ⟨before, rfl⟩
  · rfl
  · rw [finalState_snoc]
    obtain ⟨-, -, hheld⟩ := rateLimiterReset_held (hkeeps before).1 fd
    simp only [rateCall]
    rw [hheld, Finmap.lookup_erase]

/--
**The rate limits hold.**  For every configuration and every run of checks and resets of any
connections with a clock that does not go back: from the start or a reset of a connection until
its next reset at most the limit is admitted in a window and at most twice the limit in any 60
seconds, and a check is refused only when the limit is reached or no bucket is left.
-/
theorem rate_limits_hold
    (config : Option RateConfig)
    (fd : Int32)
    (type : RateType)
    (past calls : List RateCall)
    (hpast : JustReset fd past)
    (hreset : RateCall.reset fd ∉ calls)
    (htime : (readings (past ++ calls)).Pairwise (· ≤ ·)) :
    RateBounds fd type ((rateLimiterInit config).config.limit type).toNat
      (finalState rateCall (rateLimiterInit config) past) calls := by
  have hstart := logged_of_justReset config type hpast
  have hlogged := hstart.run hreset htime
  obtain ⟨start, hwindows⟩ := hlogged.windowLog
  refine ⟨hwindows.full, hwindows.sliding, ?_⟩
  rintro front opened now ⟨rest, rfl⟩ hfalse
  have hcall : (readings (past ++ front ++ [.check opened now fd type])).Pairwise (· ≤ ·) := by
    rw [← List.append_assoc, ← List.append_assoc] at htime
    have hsplit : readings (past ++ front ++ [.check opened now fd type] ++ rest) =
        readings (past ++ front ++ [.check opened now fd type]) ++ readings rest := by
      rw [readings, List.flatMap_append, readings, readings]
    rw [hsplit, List.pairwise_append] at htime
    exact htime.1
  have hfront : (readings (past ++ front)).Pairwise (· ≤ ·) := by
    rw [readings_snoc, List.pairwise_append] at hcall
    exact hcall.1
  have hbefore := hstart.run
    (fun hmem => hreset (List.mem_append_left _ (List.mem_append_left _ hmem))) hfront
  exact (hbefore.step (by simp) hcall).2 opened now rfl hfalse

/-- Two events a minute are allowed: the third is refused, and a new window starts after 65 s. -/
theorem rate_limits_hold_three_events :
    let config := some { eventsPerMinute := 2, reqsPerMinute := 60 }
    let calls : List RateCall :=
      [ .check 5 5 7 .event, .check 6 6 8 .event, .check 20 20 7 .event, .check 21 21 7 .event,
        .check 70 70 7 .event ]
    RateBounds 7 .event 2 (rateLimiterInit config) calls := by
  intro config calls
  exact rate_limits_hold config 7 .event [] calls (Or.inl rfl) (by decide) (by decide)

end Relay
end WispRelay
