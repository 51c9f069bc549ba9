import WispRelay.Library.SlotTable

/-!
# The rate limiter

The operations of `rate_limiter.c` over its table of `RATE_LIMITER_MAX_BUCKETS` buckets.  A
connection gets a bucket at its first check and keeps it until the reset; a bucket counts the
messages of each type since the start of its window.

`esp_timer_get_time() / 1000000` is read once when a bucket is taken and once more by the
check; the two readings are arguments.
-/

namespace WispRelay
namespace Relay

open SlotTable (findSlot?)

/-- `RATE_LIMITER_MAX_BUCKETS`. -/
def rateLimiterMaxBuckets : Nat := 16

/-- `rate_type_t`. -/
inductive RateType where
  | event
  | req
deriving DecidableEq

/-- `rate_config_t`. -/
structure RateConfig where
  eventsPerMinute : UInt16
  reqsPerMinute : UInt16
deriving DecidableEq

/-- `rate_bucket_t`. -/
structure RateBucket where
  fd : Int32
  eventCount : UInt16
  reqCount : UInt16
  windowStart : UInt32
  active : Bool
deriving DecidableEq

/-- A bucket as `memset` leaves it. -/
def RateBucket.zero : RateBucket where
  fd := 0
  eventCount := 0
  reqCount := 0
  windowStart := 0
  active := false

/-- `rate_limiter_t`. -/
structure RateLimiter where
  config : RateConfig
  buckets : Vector RateBucket rateLimiterMaxBuckets
deriving DecidableEq

/-- `rate_limiter_init`. -/
def rateLimiterInit
    (config : Option RateConfig) : RateLimiter where
  config := config.getD { eventsPerMinute := 30, reqsPerMinute := 60 }
  buckets := Vector.replicate rateLimiterMaxBuckets RateBucket.zero

/-- The bucket of a connection. -/
def RateBucket.ofConn
    (fd : Int32)
    (bucket : RateBucket) : Bool :=
  bucket.active && bucket.fd == fd

/-- `get_bucket`: the bucket of the connection, or the first free one, if there is one. -/
def getBucket
    (now : UInt32)
    (rl : RateLimiter)
    (fd : Int32) : Option (Fin rateLimiterMaxBuckets) × RateLimiter :=
  match findSlot? rl.buckets (RateBucket.ofConn fd) with
  | some i => (some i, rl)
  | none =>
      match findSlot? rl.buckets (fun bucket => !bucket.active) with
      | some i =>
          let bucket : RateBucket :=
            { fd := fd, active := true, eventCount := 0, reqCount := 0, windowStart := now }
          (some i, { rl with buckets := rl.buckets.set i bucket })
      | none => (none, rl)

/-- A new window starts 60 seconds after the start of the last one. -/
def RateBucket.renew
    (now : UInt32)
    (bucket : RateBucket) : RateBucket :=
  if 60 ≤ now - bucket.windowStart then
    { bucket with eventCount := 0, reqCount := 0, windowStart := now }
  else
    bucket

/-- One more message of a type, unless as many have been counted as a minute may have. -/
def RateBucket.count
    (config : RateConfig)
    (type : RateType)
    (bucket : RateBucket) : Bool × RateBucket :=
  match type with
  | .event =>
      if config.eventsPerMinute ≤ bucket.eventCount then (false, bucket)
      else (true, { bucket with eventCount := bucket.eventCount + 1 })
  | .req =>
      if config.reqsPerMinute ≤ bucket.reqCount then (false, bucket)
      else (true, { bucket with reqCount := bucket.reqCount + 1 })

/-- `rate_limiter_check`, at the readings `opened` in `get_bucket` and `now` after it. -/
def rateLimiterCheck
    (opened now : UInt32)
    (rl : RateLimiter)
    (fd : Int32)
    (type : RateType) : Bool × RateLimiter :=
  match getBucket opened rl fd with
  | (none, rl) => (false, rl)
  | (some i, rl) =>
      let (allowed, bucket) := (rl.buckets[i].renew now).count rl.config type
      (allowed, { rl with buckets := rl.buckets.set i bucket })

/-- `rate_limiter_reset`. -/
def rateLimiterReset
    (rl : RateLimiter)
    (fd : Int32) : RateLimiter :=
  match findSlot? rl.buckets (RateBucket.ofConn fd) with
  | some i =>
      { rl with buckets := rl.buckets.set i { rl.buckets[i] with active := false } }
  | none => rl

end Relay
end WispRelay
