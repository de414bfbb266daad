/-!
# Token buckets

A `Bucket` gains `quantum` tokens once in every `period`, up to its `capacity`, and packets are paid for out of
its `level` (`Bucket.spend`). Refilling is lazy: `stamp` is the time up to which the bucket has been refilled,
and the periods that have passed since (`Bucket.ticks`) are counted when the next packet arrives
(`Bucket.refill`).
-/

namespace TrafficMeter

/-- A token bucket. Times are in nanoseconds, tokens in the unit of the meter. -/
structure Bucket where
  /-- The time between two refills, or zero for a bucket that is never refilled. -/
  period : UInt64 := 0
  /-- The tokens gained in each period. -/
  quantum : UInt64 := 0
  /-- The most tokens that the bucket can hold. -/
  capacity : UInt64 := 0
  /-- The tokens in the bucket. -/
  level : UInt64 := 0
  /-- The time up to which the bucket has been refilled. -/
  stamp : UInt64 := 0
deriving DecidableEq, Repr, Inhabited

namespace Bucket

/-- The number of whole periods from `bucket.stamp` to `now`, which is `(now - stamp) / period` rounded down. It
is `0` before the stamp, and also if `bucket.period = 0`. -/
def ticks (bucket : Bucket) (now : UInt64) : Nat :=
  (now.toNat - bucket.stamp.toNat) / bucket.period.toNat

/-- `bucket` as it stands at `now`. Its level is `min capacity (level + ticks * quantum)`, and its stamp moves by
the `ticks` whole periods only, so that the rest of the current period still counts at the next refill. -/
def refill (bucket : Bucket) (now : UInt64) : Bucket :=
  { bucket with
    level := UInt64.ofNat
      (min bucket.capacity.toNat (bucket.level.toNat + bucket.ticks now * bucket.quantum.toNat))
    stamp := UInt64.ofNat (bucket.stamp.toNat + bucket.ticks now * bucket.period.toNat) }

/-- `bucket` holds enough tokens for a packet of `size` tokens. -/
def covers (bucket : Bucket) (size : UInt64) : Bool :=
  size ≤ bucket.level

/-- `bucket` after paying for a packet of `size` tokens, where `bucket.covers size`. -/
def spend (bucket : Bucket) (size : UInt64) : Bucket :=
  { bucket with level := bucket.level - size }

/-- `bucket.refill` never adds a token, since `bucket.period` or `bucket.quantum` is zero. -/
def isIdle (bucket : Bucket) : Bool :=
  bucket.period == 0 || bucket.quantum == 0

/-- `bucket.level` is at most `bucket.capacity`. -/
def withinCapacity (bucket : Bucket) : Bool :=
  bucket.level ≤ bucket.capacity

/-- The word in `(bucket.refill now).level` does not wrap: it is `min capacity (level + ticks * quantum)`. -/
theorem toNat_level_refill (bucket : Bucket) (now : UInt64) :
    (bucket.refill now).level.toNat =
      min bucket.capacity.toNat (bucket.level.toNat + bucket.ticks now * bucket.quantum.toNat) := by
  have h := bucket.capacity.toNat_lt
  simp only [refill, UInt64.toNat_ofNat']
  omega

/-- The word in `(bucket.refill now).stamp` does not wrap: it is `stamp + ticks * period`. -/
theorem toNat_stamp_refill (bucket : Bucket) (now : UInt64) :
    (bucket.refill now).stamp.toNat =
      bucket.stamp.toNat + bucket.ticks now * bucket.period.toNat := by
  have hnow := now.toNat_lt
  have hstamp := bucket.stamp.toNat_lt
  have hticks : bucket.ticks now * bucket.period.toNat ≤ now.toNat - bucket.stamp.toNat :=
    Nat.div_mul_le_self _ _
  simp only [refill, UInt64.toNat_ofNat']
  omega

end Bucket

end TrafficMeter
