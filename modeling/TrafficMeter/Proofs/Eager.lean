import TrafficMeter.Proofs.Marking

/-!
# Lazy refills and ticking meters

A meter of unbounded numbers could refill its buckets tick by tick, as time goes on. The meters here are
refilled lazily instead, when a packet arrives, and all of their numbers are words. This module shows that the
difference cannot be noticed:

- `eager_refill`: a lazy refill leaves the level and the stamp that as many single ticks leave;
- `refillBy_eq`, `receiveBy_eq`: carried out on words, step by step, a refill and a mark never leave the range
  of words where they are not guarded, and where they are guarded the guard changes nothing;
- `eager_receive`: the colour of a packet and the record after it are those of the ticking meter, and so they
  are along every run.
-/

namespace TrafficMeter

/-- A token bucket of unbounded numbers that is refilled tick by tick. -/
structure EagerBucket where
  /-- The time between two ticks, or zero for a bucket that never ticks. -/
  period : Nat
  /-- The tokens gained at each tick. -/
  quantum : Nat
  /-- The most tokens that the bucket can hold. -/
  capacity : Nat
  /-- The tokens in the bucket. -/
  level : Nat
  /-- The time of the last tick. -/
  stamp : Nat
deriving DecidableEq, Repr

namespace EagerBucket

/-- `bucket` without the tokens that do not fit into it. -/
def clamp (bucket : EagerBucket) : EagerBucket :=
  { bucket with level := min bucket.capacity bucket.level }

/-- `bucket` one tick later: it gains a quantum, up to its capacity, and its stamp moves on by a period. -/
def tick (bucket : EagerBucket) : EagerBucket :=
  { bucket with
    level := min bucket.capacity (bucket.level + bucket.quantum)
    stamp := bucket.stamp + bucket.period }

/-- The bucket ticks for as long as another tick is due at `now`. -/
def advance (bucket : EagerBucket) (now : Nat) : EagerBucket :=
  if 0 < bucket.period ∧ bucket.stamp + bucket.period ≤ now then bucket.tick.advance now else bucket
termination_by now - bucket.stamp
decreasing_by
  simp only [tick]
  omega

/-- `bucket` as it stands at `now`. -/
def refill (bucket : EagerBucket) (now : Nat) : EagerBucket :=
  bucket.clamp.advance now

/-- `bucket` after a payment of `size`, which it can make. -/
def spend (bucket : EagerBucket) (size : Nat) : EagerBucket :=
  { bucket with level := bucket.level - size }

/-- Many ticks at once: each of the `(now - bucket.stamp) / bucket.period` ticks adds a quantum and a period, and
the capacity cuts the sum. -/
theorem advance_eq (bucket : EagerBucket) (now : Nat) (h : bucket.level ≤ bucket.capacity) :
    bucket.advance now =
      { bucket with
        level := min bucket.capacity (bucket.level + (now - bucket.stamp) / bucket.period * bucket.quantum)
        stamp := bucket.stamp + (now - bucket.stamp) / bucket.period * bucket.period } := by
  fun_induction advance bucket now with
  | case1 bucket hdue ih =>
    -- The first tick is one of those that the division counts, and the others are left to the induction.
    have hticks : (now - bucket.stamp) / bucket.period =
        (now - (bucket.stamp + bucket.period)) / bucket.period + 1 := by
      rw [Nat.div_eq_sub_div hdue.1 (by omega), Nat.sub_sub]
    rw [ih (Nat.min_le_left _ _)]
    simp only [tick, hticks, Nat.succ_mul, EagerBucket.mk.injEq, true_and]
    constructor <;> omega
  | case2 bucket hdue =>
    have hticks : (now - bucket.stamp) / bucket.period = 0 := by
      rcases Nat.eq_zero_or_pos bucket.period with hzero | hpos
      · rw [hzero, Nat.div_zero]
      · exact Nat.div_eq_of_lt (by omega)
    simp [hticks, h]

end EagerBucket

/-- The same `bucket` with its words taken as numbers. -/
def Bucket.eager (bucket : Bucket) : EagerBucket where
  period := bucket.period.toNat
  quantum := bucket.quantum.toNat
  capacity := bucket.capacity.toNat
  level := bucket.level.toNat
  stamp := bucket.stamp.toNat

/-- A lazy refill at `now` leaves the bucket that single ticks leave. -/
theorem Bucket.eager_refill (bucket : Bucket) (now : UInt64) :
    (bucket.refill now).eager = bucket.eager.refill now.toNat := by
  have hlevel := bucket.toNat_level_refill now
  have hstamp := bucket.toNat_stamp_refill now
  rw [EagerBucket.refill, EagerBucket.advance_eq _ _ (Nat.min_le_left _ _)]
  simp only [eager, EagerBucket.clamp, EagerBucket.mk.injEq, hlevel, hstamp]
  -- Cutting the level before the gains are added makes no difference, since the sum is cut as well.
  refine ⟨rfl, rfl, rfl, ?_, rfl⟩
  unfold ticks
  omega

/-! ## Arithmetic of words -/

/-- The word that is the integer `n`, or `none` if `n` is out of range. -/
def word? (n : Int) : Option UInt64 :=
  if 0 ≤ n ∧ n < UInt64.size then some (UInt64.ofNat n.toNat) else none

/-- The integer closest to `n` that is a word. -/
def saturate (n : Int) : Int :=
  max 0 (min n (UInt64.size - 1))

/-- A `guard` changes only integers that are no words, and none of them to the other end of the range. -/
structure IsGuard (guard : Int → Int) : Prop where
  /-- Words are left alone. -/
  inside : ∀ n : Int, 0 ≤ n → n < UInt64.size → guard n = n
  /-- Beyond the words it gives the largest word or more. -/
  above : ∀ n : Int, UInt64.size ≤ n → UInt64.size ≤ guard n + 1
  /-- Below zero it gives zero or less. -/
  below : ∀ n : Int, n < 0 → guard n ≤ 0

/-- `saturate` is a guard. -/
theorem isGuard_saturate : IsGuard saturate := by
  constructor <;> intro n <;> simp only [saturate, UInt64.size] <;> omega

/-- Doing nothing is a guard too. Its arithmetic is that of unbounded integers. -/
theorem isGuard_id : IsGuard id := by
  refine ⟨fun n _ _ => rfl, fun n h => ?_, fun n h => ?_⟩
  · simp only [id_eq]
    omega
  · simp only [id_eq]
    omega

/-- Below any `word`, no guard on a number `n` that is not negative can be noticed. -/
theorem IsGuard.min_eq {guard : Int → Int} (h : IsGuard guard) {n : Int} (hn : 0 ≤ n) (word : UInt64) :
    0 ≤ guard n ∧ min (guard n) word.toNat = min n word.toNat := by
  have hword : word.toNat < UInt64.size := word.toNat_lt
  -- Either the guard does nothing, or what it gives is still not below the word.
  rcases lt_or_ge n UInt64.size with hlt | hge
  · rw [h.inside n hn hlt]
    exact ⟨hn, rfl⟩
  · have habove := h.above n hge
    constructor <;> omega

/-- The number of a `word` is in range. -/
theorem word?_of_eq {n : Int} {word : UInt64} (h : n = word.toNat) : word? n = some word := by
  have hlt : word.toNat < UInt64.size := word.toNat_lt
  rw [word?, if_pos (by omega), h, Int.toNat_natCast, UInt64.ofNat_toNat]

namespace Bucket

/-- The level of `bucket` after some `ticks`, carried out on words. The product and the sum are guarded. A bucket
without a quantum gains nothing. -/
def levelBy (guard : Int → Int) (bucket : Bucket) (ticks : Int) : Option UInt64 :=
  let level : Int := min bucket.level.toNat bucket.capacity.toNat
  if bucket.quantum = 0 then word? level
  else
    let credit := guard (ticks * bucket.quantum.toNat)
    word? (min (guard (level + credit)) bucket.capacity.toNat)

/-- A refill at `now`, carried out on words. The difference of times is guarded as well, but not the product and
the sum that move the stamp. The result is `none` if one of these is out of range. -/
def refillBy (guard : Int → Int) (bucket : Bucket) (now : UInt64) : Option Bucket :=
  let ticks : Int := guard (now.toNat - bucket.stamp.toNat) / bucket.period.toNat
  if bucket.period = 0 ∨ ticks ≤ 0 then do
    let level ← word? (min bucket.level.toNat bucket.capacity.toNat)
    return { bucket with level }
  else do
    let elapsed ← word? (ticks * bucket.period.toNat)
    let stamp ← word? (bucket.stamp.toNat + elapsed.toNat)
    let level ← bucket.levelBy guard ticks
    return { bucket with level, stamp }

/-- A payment of `size`, carried out on words without a guard. The result is `none` if `bucket` holds too little.
-/
def spendBy (bucket : Bucket) (size : UInt64) : Option Bucket := do
  let level ← word? (bucket.level.toNat - size.toNat)
  return { bucket with level }

variable {guard : Int → Int} (hguard : IsGuard guard) (bucket : Bucket) (now : UInt64)

include hguard

/-- Before the stamp the guarded difference of times gives no ticks, and after it the right number. -/
theorem max_guard_ediv_eq_ticks :
    max 0 (guard (now.toNat - bucket.stamp.toNat) / bucket.period.toNat) = bucket.ticks now := by
  have hnow : now.toNat < UInt64.size := now.toNat_lt
  rcases Nat.lt_or_ge now.toNat bucket.stamp.toNat with hlt | hge
  · have hguarded := hguard.below (now.toNat - bucket.stamp.toNat) (by omega)
    have hzero : bucket.ticks now = 0 := by
      rw [ticks, Nat.sub_eq_zero_of_le hlt.le, Nat.zero_div]
    rw [hzero]
    refine max_eq_left ?_
    rcases Nat.eq_zero_or_pos bucket.period.toNat with hperiod | hperiod
    · simp [hperiod]
    · exact Int.ediv_nonpos_of_nonpos_of_neg hguarded (by omega)
  · rw [hguard.inside _ (by omega) (by omega), ← Int.ofNat_sub hge, ← Int.natCast_ediv]
    exact max_eq_right (Int.natCast_nonneg _)

/-- The level that `levelBy` computes on words is that of the refilled bucket. -/
theorem levelBy_eq : bucket.levelBy guard (bucket.ticks now) = some (bucket.refill now).level := by
  have hlevel := bucket.toNat_level_refill now
  unfold levelBy
  split
  next hquantum =>
    refine word?_of_eq ?_
    rw [hlevel, hquantum, UInt64.toNat_zero]
    omega
  next =>
    refine word?_of_eq ?_
    have hcredit : (0 : Int) ≤ bucket.ticks now * bucket.quantum.toNat := by positivity
    -- Both guards stand under the cut by the capacity, where they cannot be noticed.
    obtain ⟨hnonneg, hguarded⟩ := hguard.min_eq hcredit bucket.capacity
    rw [(hguard.min_eq (by omega) bucket.capacity).2, hlevel]
    push_cast
    omega

/-- A refill on words always has a result, which is that of `refill`. -/
theorem refillBy_eq : bucket.refillBy guard now = some (bucket.refill now) := by
  have hticks := max_guard_ediv_eq_ticks hguard bucket now
  have hlevelBy := levelBy_eq hguard bucket now
  have hlevel := bucket.toNat_level_refill now
  have hstamp := bucket.toNat_stamp_refill now
  unfold refillBy
  generalize guard (now.toNat - bucket.stamp.toNat) / bucket.period.toNat = ticks at hticks ⊢
  by_cases hnone : bucket.period = 0 ∨ ticks ≤ 0
  · have hzero : bucket.ticks now = 0 := by
      rcases hnone with hperiod | hpassed
      · simp [Bucket.ticks, hperiod]
      · omega
    have hkeeps : (bucket.refill now).stamp = bucket.stamp := by
      rw [← UInt64.toNat_inj, hstamp, hzero, Nat.zero_mul, Nat.add_zero]
    have hword : word? (min bucket.level.toNat bucket.capacity.toNat) = some (bucket.refill now).level :=
      word?_of_eq (by rw [hlevel, hzero]; omega)
    rw [if_pos hnone]
    refine Option.bind_eq_some_iff.mpr ⟨_, hword, ?_⟩
    rw [← hkeeps]
    rfl
  · have hsome : ticks = bucket.ticks now := by omega
    subst hsome
    -- The stamp does not pass `now`, so neither the product nor the sum is out of range.
    obtain ⟨elapsed, helapsed, hsum⟩ : ∃ elapsed,
        word? (bucket.ticks now * bucket.period.toNat) = some elapsed ∧
        word? (bucket.stamp.toNat + elapsed.toNat) = some (bucket.refill now).stamp := by
      have hlt : (bucket.refill now).stamp.toNat < UInt64.size := UInt64.toNat_lt _
      have hfits := UInt64.toNat_ofNat_of_lt'
        (show bucket.ticks now * bucket.period.toNat < UInt64.size by omega)
      refine ⟨UInt64.ofNat (bucket.ticks now * bucket.period.toNat), word?_of_eq ?_, word?_of_eq ?_⟩
      · rw [hfits]
        push_cast
        rfl
      · rw [hfits, hstamp]
        push_cast
        rfl
    rw [if_neg hnone]
    refine Option.bind_eq_some_iff.mpr ⟨elapsed, helapsed, ?_⟩
    refine Option.bind_eq_some_iff.mpr ⟨_, hsum, ?_⟩
    exact Option.bind_eq_some_iff.mpr ⟨_, hlevelBy, rfl⟩

omit hguard in
/-- A payment of `size` that `bucket` covers stays in range. -/
theorem spendBy_eq {bucket : Bucket} {size : UInt64} (h : bucket.covers size) :
    bucket.spendBy size = some (bucket.spend size) := by
  have hle : size.toNat ≤ bucket.level.toNat :=
    Nat.le_of_not_lt (mt (bucket.not_covers_iff size).mpr (by simp [h]))
  have hword : word? (bucket.level.toNat - size.toNat) = some (bucket.spend size).level :=
    word?_of_eq (by rw [toNat_level_spend _ _ h]; omega)
  rw [spendBy, hword]
  rfl

end Bucket

/-- A meter of two buckets that tick. -/
structure EagerRecord where
  /-- The bucket of the peak rate. -/
  peak : EagerBucket
  /-- The bucket of the committed rate. -/
  committed : EagerBucket
deriving DecidableEq, Repr

namespace EagerRecord

/-- `record` with both buckets as they stand at `now`. -/
def refill (record : EagerRecord) (now : Nat) : EagerRecord :=
  { peak := record.peak.refill now, committed := record.committed.refill now }

/-- Marks `packet`, after all ticks that are due. -/
def receive (record : EagerRecord) (packet : Packet) : Color × EagerRecord :=
  let current := record.refill packet.now.toNat
  if packet.incoming = .red ∨ current.peak.level < packet.size.toNat then (.red, current)
  else if packet.incoming = .yellow ∨ current.committed.level < packet.size.toNat then
    (.yellow, { current with peak := current.peak.spend packet.size.toNat })
  else
    (.green,
      { peak := current.peak.spend packet.size.toNat
        committed := current.committed.spend packet.size.toNat })

/-- The colours of the packets of a run. -/
def colors : EagerRecord → List Packet → List Color
  | _, [] => []
  | record, packet :: rest => (record.receive packet).1 :: colors (record.receive packet).2 rest

/-- The record at the end of a run. -/
def after : EagerRecord → List Packet → EagerRecord
  | record, [] => record
  | record, packet :: rest => after (record.receive packet).2 rest

end EagerRecord

namespace Record

/-- The same `record` with its words taken as numbers. -/
def eager (record : Record) : EagerRecord :=
  { peak := record.peak.eager, committed := record.committed.eager }

/-- A refill of both buckets at `now`, carried out on words. -/
def refillBy (guard : Int → Int) (record : Record) (now : UInt64) : Option Record := do
  let peak ← record.peak.refillBy guard now
  let committed ← record.committed.refillBy guard now
  return { peak, committed }

/-- A mark of `packet`, carried out on words. -/
def receiveBy (guard : Int → Int) (record : Record) (packet : Packet) : Option (Color × Record) := do
  let current ← record.refillBy guard packet.now
  if packet.incoming = .red ∨ current.peak.level < packet.size then
    return (.red, current)
  else if packet.incoming = .yellow ∨ current.committed.level < packet.size then
    return (.yellow, { current with peak := ← current.peak.spendBy packet.size })
  else
    return (.green,
      { peak := ← current.peak.spendBy packet.size
        committed := ← current.committed.spendBy packet.size })

/-- A lazy refill at `now` leaves the record that single ticks leave. -/
theorem eager_refill (record : Record) (now : UInt64) :
    (record.refill now).eager = record.eager.refill now.toNat := by
  simp only [eager, refill, EagerRecord.refill, Bucket.eager_refill]

section Words

variable {guard : Int → Int} (hguard : IsGuard guard) (record : Record)

include hguard

/-- A refill of both buckets on words always has a result, which is that of `refill`. -/
theorem refillBy_eq (now : UInt64) : record.refillBy guard now = some (record.refill now) := by
  simp only [refillBy, Bucket.refillBy_eq hguard]
  rfl

/-- A mark on words always has a result, which is that of `receive`. -/
theorem receiveBy_eq (packet : Packet) : record.receiveBy guard packet = some (record.receive packet) := by
  have hlt (bucket : Bucket) : bucket.level < packet.size ↔ ¬ bucket.covers packet.size := by
    rw [Bucket.not_covers_iff, UInt64.lt_iff_toNat_lt]
  rw [receiveBy, refillBy_eq hguard, Option.bind_eq_bind, Option.bind_some]
  -- Both decide by the same conditions, and a bucket is asked to pay only what it was found to cover.
  simp only [hlt, receive, markFrom]
  split
  next => rfl
  next hred =>
    have hpeak := not_not.mp (not_or.mp hred).2
    split
    next => exact Option.bind_eq_some_iff.mpr ⟨_, Bucket.spendBy_eq hpeak, rfl⟩
    next hyellow =>
      have hcommitted := not_not.mp (not_or.mp hyellow).2
      refine Option.bind_eq_some_iff.mpr ⟨_, Bucket.spendBy_eq hpeak, ?_⟩
      exact Option.bind_eq_some_iff.mpr ⟨_, Bucket.spendBy_eq hcommitted, rfl⟩

end Words

/-- A `packet` gets the colour that the ticking meter gives it, and leaves the same record. -/
theorem eager_receive (record : Record) (packet : Packet) :
    record.eager.receive packet = ((record.receive packet).1, (record.receive packet).2.eager) := by
  have hlevel (bucket : Bucket) : bucket.eager.level < packet.size.toNat ↔ ¬ bucket.covers packet.size :=
    (bucket.not_covers_iff packet.size).symm
  have hspend {bucket : Bucket} (hcovers : bucket.covers packet.size) :
      (bucket.spend packet.size).eager = bucket.eager.spend packet.size.toNat := by
    simp only [Bucket.eager, EagerBucket.spend, Bucket.toNat_level_spend _ _ hcovers]
    rfl
  -- The buckets agree after the refill, and so they take the same branch of the marking.
  unfold EagerRecord.receive
  rw [← record.eager_refill packet.now]
  simp only [eager, hlevel, receive, markFrom]
  split
  next => rfl
  next hred =>
    have hpeak := not_not.mp (not_or.mp hred).2
    split
    next => rw [hspend hpeak]
    next hyellow => rw [hspend hpeak, hspend (not_not.mp (not_or.mp hyellow).2)]

/-- Along every run of `packets` the colours are those of the ticking meter, and so is the record at its end. -/
theorem eager_after (record : Record) (packets : List Packet) :
    (record.marks packets).map Mark.color = record.eager.colors packets ∧
      (record.after packets).eager = record.eager.after packets := by
  induction packets generalizing record with
  | nil => exact ⟨rfl, rfl⟩
  | cons packet rest ih =>
    obtain ⟨hcolors, hafter⟩ := ih (record.receive packet).2
    rw [EagerRecord.colors, EagerRecord.after, eager_receive]
    exact ⟨congrArg ((record.receive packet).1 :: ·) hcolors, hafter⟩

/-- Lazy meters of words are ticking meters of unbounded numbers:

- a refill leaves the levels and stamps of single ticks;
- carried out on words, refills and marks always have a result: what is not guarded stays in range, and what
  saturates gives the same as if it were unbounded;
- along every run, whatever the times of its packets, the colours and the records are those of the ticking meter.
-/
theorem refines_eager_meter (record : Record) :
    (∀ now : UInt64, (record.refill now).eager = record.eager.refill now.toNat) ∧
      (∀ now : UInt64, record.refillBy saturate now = some (record.refill now) ∧
        record.refillBy id now = some (record.refill now)) ∧
      (∀ packet : Packet, record.receiveBy saturate packet = some (record.receive packet) ∧
        record.receiveBy id packet = some (record.receive packet)) ∧
      ∀ packets : List Packet,
        (record.marks packets).map Mark.color = record.eager.colors packets ∧
          (record.after packets).eager = record.eager.after packets := by
  refine ⟨record.eager_refill, fun now => ?_, fun packet => ?_, record.eager_after⟩
  · exact ⟨refillBy_eq isGuard_saturate record now, refillBy_eq isGuard_id record now⟩
  · exact ⟨receiveBy_eq isGuard_saturate record packet, receiveBy_eq isGuard_id record packet⟩

-- Gains that no word can hold saturate and are cut to the capacity.
example :
    ({ period := 1, quantum := 0xffffffffffffffff, capacity := 0xffffffffffffffff, level := 3 } :
      Bucket).refillBy saturate 1000000 =
      some { period := 1, quantum := 0xffffffffffffffff, capacity := 0xffffffffffffffff,
             level := 0xffffffffffffffff, stamp := 1000000 } := by
  decide

end Record

end TrafficMeter
