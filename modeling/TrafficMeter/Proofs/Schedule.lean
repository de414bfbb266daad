import TrafficMeter.Proofs.Marking

/-!
# When refills happen does not matter

A refill moves the stamps by whole periods and keeps the rest for later, so refilling at two times in any order
is refilling once at the later of them (`refill_refill`). Two things follow for runs of a meter:

- packets that arrive with an old time are marked as if they had arrived at the latest time so far
  (`Caught.trace_inOrder`);
- one may look at a meter in between, by a bare refill or by a packet that pays nothing, without any effect on
  the packets that follow (`Caught.amid_eq`).

The invariant that carries both is `Caught`: a meter that has caught up with a time does not notice a refill at
that time.
-/

namespace TrafficMeter

attribute [ext] Bucket Record

/-- The later of the times `s` and `t`, as a number. -/
@[simp]
theorem toNat_max (s t : UInt64) : (max s t).toNat = max s.toNat t.toNat := by
  change (if s ≤ t then t else s).toNat = _
  by_cases h : s ≤ t
  · rw [if_pos h, max_eq_right (UInt64.le_iff_toNat_le.mp h)]
  · rw [UInt64.le_iff_toNat_le] at h
    rw [if_neg (by rwa [UInt64.le_iff_toNat_le]), max_eq_left (not_le.mp h).le]

namespace Bucket

/-- The ticks up to the later of `s` and `t` are those of a refill at `s` and those beyond it. -/
theorem ticks_max (bucket : Bucket) (s t : UInt64) :
    bucket.ticks (max s t) = bucket.ticks s + (bucket.refill s).ticks t := by
  simp only [ticks_eq_ticksAt, toNat_max, ticksAt_max, ticksAt_refill]
  omega

/-- Refilling at `s` and then at `t` is refilling once at the later of both. -/
theorem refill_refill (bucket : Bucket) (s t : UInt64) :
    (bucket.refill s).refill t = bucket.refill (max s t) := by
  refine Bucket.ext rfl rfl rfl (UInt64.toNat_inj.mp ?_) (UInt64.toNat_inj.mp ?_)
  · -- Either refill caps the level. To cap it once, at the end, is the same, since it only rises in between.
    rw [toNat_level_refill, toNat_level_refill, toNat_level_refill, ticks_max, Nat.add_mul]
    change min bucket.capacity.toNat (min bucket.capacity.toNat _ + _ * bucket.quantum.toNat) = _
    omega
  · rw [toNat_stamp_refill, toNat_stamp_refill, toNat_stamp_refill, ticks_max, Nat.add_mul, Nat.add_assoc]
    rfl

/-- A refill at `now` leaves `bucket` alone exactly if no tick is due and the level is not above the capacity. -/
theorem refill_eq_self_iff (bucket : Bucket) (now : UInt64) :
    bucket.refill now = bucket ↔ bucket.ticks now = 0 ∧ bucket.level.toNat ≤ bucket.capacity.toNat := by
  constructor
  · intro h
    have hlevel := bucket.toNat_level_refill now
    have hstamp := bucket.toNat_stamp_refill now
    rw [h] at hlevel hstamp
    refine ⟨?_, hlevel.trans_le (Nat.min_le_left _ _)⟩
    -- With a period of zero there is never a tick, and with any other a tick moves the stamp.
    rcases Nat.mul_eq_zero.mp (Nat.left_eq_add.mp hstamp) with hticks | hperiod
    · exact hticks
    · rw [ticks, hperiod, Nat.div_zero]
  · rintro ⟨hticks, hlevel⟩
    refine Bucket.ext rfl rfl rfl (UInt64.toNat_inj.mp ?_) (UInt64.toNat_inj.mp ?_)
    · rw [toNat_level_refill, hticks, Nat.zero_mul, Nat.add_zero, Nat.min_eq_right hlevel]
    · rw [toNat_stamp_refill, hticks, Nat.zero_mul, Nat.add_zero]

/-- Spending does not make a refill at `now` due. -/
theorem refill_spend_eq_self {bucket : Bucket} {size now : UInt64} (hcovers : bucket.covers size)
    (hrefill : bucket.refill now = bucket) : (bucket.spend size).refill now = bucket.spend size := by
  obtain ⟨hticks, hlevel⟩ := (refill_eq_self_iff _ _).mp hrefill
  refine (refill_eq_self_iff _ _).mpr ⟨hticks, ?_⟩
  rw [toNat_level_spend _ _ hcovers]
  exact (Nat.sub_le _ _).trans hlevel

end Bucket

/-- A look at a meter that pays for nothing. -/
inductive Probe where
  /-- Marks a packet of no size that arrives without a colour. -/
  | empty (now : UInt64)
  /-- Marks a packet that arrives red. -/
  | red (size now : UInt64)
  /-- Refills the buckets and does nothing else. -/
  | refill (now : UInt64)
deriving DecidableEq, Repr

/-- The time of a probe. -/
def Probe.now : Probe → UInt64
  | empty now => now
  | red _ now => now
  | refill now => now

/-- The packets of a run, each of which arrives at the latest time so far, where `top` is the latest time before
the run. -/
def inOrder : UInt64 → List Packet → List Packet
  | _, [] => []
  | top, packet :: rest =>
    { packet with now := max top packet.now } :: inOrder (max top packet.now) rest

/-- In a run with probes before its packets, each probe comes no later than the latest time so far when the next
packet has arrived, where `top` is the latest time before the run. -/
def Timely : UInt64 → List (List Probe × Packet) → Prop
  | _, [] => True
  | top, (probes, packet) :: rest =>
    (∀ probe ∈ probes, probe.now ≤ max top packet.now) ∧ Timely (max top packet.now) rest

namespace Record

/-- `record` after a probe. -/
def probe (record : Record) : Probe → Record
  | .empty now => (record.mark 0 now).2
  | .red size now => (record.markFrom .red size now).2
  | .refill now => record.refill now

/-- `record` after several `probes`. -/
def probeAll (record : Record) (probes : List Probe) : Record :=
  probes.foldl probe record

/-- What the packets of a run do: the colour of each with the record that it leaves. -/
def trace : Record → List Packet → List (Color × Record)
  | _, [] => []
  | record, packet :: rest => record.receive packet :: trace (record.receive packet).2 rest

/-- What the packets of a run do when a meter is probed before each of them. -/
def traceAmid : Record → List (List Probe × Packet) → List (Color × Record)
  | _, [] => []
  | record, (probes, packet) :: rest =>
    (record.probeAll probes).receive packet :: traceAmid ((record.probeAll probes).receive packet).2 rest

/-- The record at the end of a run with probes. -/
def afterAmid : Record → List (List Probe × Packet) → Record
  | record, [] => record
  | record, (probes, packet) :: rest => afterAmid ((record.probeAll probes).receive packet).2 rest

/-- Refilling at `s` and then at `t` is refilling once at the later of both. -/
theorem refill_refill (record : Record) (s t : UInt64) :
    (record.refill s).refill t = record.refill (max s t) :=
  Record.ext (record.peak.refill_refill s t) (record.committed.refill_refill s t)

/-- A meter marks a packet by its buckets as they stand at the time of the packet. -/
theorem receive_congr {record other : Record} {packet arrival : Packet}
    (hincoming : packet.incoming = arrival.incoming) (hsize : packet.size = arrival.size)
    (hrefill : record.refill packet.now = other.refill arrival.now) :
    record.receive packet = other.receive arrival := by
  unfold receive markFrom
  rw [hincoming, hsize, hrefill]

/-- A `probe` is no more than a refill at its time. -/
theorem probe_eq_refill (record : Record) (probe : Probe) : record.probe probe = record.refill probe.now := by
  cases probe with
  | empty now => simp [Record.probe, mark, markFrom, Probe.now]
  | red size now => simp [Record.probe, markFrom, Probe.now]
  | refill now => rfl

/-- `record` does not notice a refill at `top` before any other refill. -/
def Caught (record : Record) (top : UInt64) : Prop :=
  ∀ now, record.refill (max top now) = record.refill now

/-- Every `record` has caught up with the beginning of time. -/
theorem caught_zero (record : Record) : record.Caught 0 := by
  intro now
  have hnow : max 0 now = now := UInt64.toNat_inj.mp (by simp)
  rw [hnow]

/-- A `probe` does not undo that a record has caught up with `top`. -/
theorem Caught.probe {record : Record} {top : UInt64} (h : record.Caught top) (probe : Probe) :
    (record.probe probe).Caught top := by
  intro now
  -- The refill at `top` may come before that of the probe, where the record does not notice it.
  have hmax : max probe.now (max top now) = max top (max probe.now now) :=
    UInt64.toNat_inj.mp (by simp only [toNat_max]; omega)
  rw [probe_eq_refill, refill_refill, refill_refill, hmax, h]

/-- Several `probes` do not undo that a record has caught up with `top`. -/
theorem Caught.probeAll {record : Record} {top : UInt64} (h : record.Caught top) (probes : List Probe) :
    (record.probeAll probes).Caught top := by
  induction probes generalizing record with
  | nil => exact h
  | cons probe rest ih => exact ih (h.probe probe)

/-- A refill at `time` after a `packet` does nothing if it does nothing right before `packet` is paid for. -/
theorem refill_receive_eq_self {record : Record} {packet : Packet} {time : UInt64}
    (h : record.refill (max packet.now time) = record.refill packet.now) :
    (record.receive packet).2.refill time = (record.receive packet).2 := by
  -- A bucket pays after its refill, and a payment makes no tick due.
  have hbucket (tier : Tier) : ((record.receive packet).2.bucket tier).refill time =
      (record.receive packet).2.bucket tier := by
    have hbefore : ((record.bucket tier).refill packet.now).refill time =
        (record.bucket tier).refill packet.now := by
      rw [Bucket.refill_refill]
      cases tier with
      | peak => exact congrArg Record.peak h
      | committed => exact congrArg Record.committed h
    rw [bucket_receive]
    exact Bucket.refill_spend_eq_self (record.covers_charge packet tier) hbefore
  exact Record.ext (hbucket .peak) (hbucket .committed)

/-- A `packet` makes a record catch up with the time of the packet. -/
theorem Caught.receive {record : Record} {top : UInt64} (h : record.Caught top) (packet : Packet) :
    (record.receive packet).2.Caught (max top packet.now) := by
  have hmax : max packet.now (max top packet.now) = max top packet.now :=
    UInt64.toNat_inj.mp (by simp only [toNat_max]; omega)
  have hself : (record.receive packet).2.refill (max top packet.now) = (record.receive packet).2 :=
    refill_receive_eq_self (by rw [hmax, h])
  intro now
  rw [← refill_refill, hself]

/-- A refill at a later `time` does not notice the `probes` before it. -/
theorem refill_probeAll (record : Record) (probes : List Probe) (time : UInt64)
    (htime : ∀ probe ∈ probes, probe.now ≤ time) :
    (record.probeAll probes).refill time = record.refill time := by
  induction probes generalizing record with
  | nil => rfl
  | cons probe rest ih =>
    have hmax : max probe.now time = time := by
      have := UInt64.le_iff_toNat_le.mp (htime probe (by simp))
      exact UInt64.toNat_inj.mp (by simp only [toNat_max]; omega)
    calc ((record.probe probe).probeAll rest).refill time
        = (record.probe probe).refill time := ih _ fun p hp => htime p (List.mem_cons_of_mem _ hp)
      _ = record.refill time := by rw [probe_eq_refill, refill_refill, hmax]

/-- `probes` before a `packet` do not change what the packet does, if none is later than the latest time so far.
-/
theorem Caught.receive_probeAll {record : Record} {top : UInt64} (h : record.Caught top) (probes : List Probe)
    (packet : Packet) (htimely : ∀ probe ∈ probes, probe.now ≤ max top packet.now) :
    (record.probeAll probes).receive packet = record.receive packet := by
  apply receive_congr rfl rfl
  -- Both records have caught up with `top`, so they may be refilled at the latest time so far instead.
  calc (record.probeAll probes).refill packet.now
      = (record.probeAll probes).refill (max top packet.now) := (h.probeAll probes packet.now).symm
    _ = record.refill (max top packet.now) := record.refill_probeAll probes _ htimely
    _ = record.refill packet.now := h packet.now

/-- All `packets` do the same when each arrives at the latest time so far. -/
theorem Caught.trace_inOrder {record : Record} {top : UInt64} (h : record.Caught top) (packets : List Packet) :
    record.trace (inOrder top packets) = record.trace packets := by
  induction packets generalizing record top with
  | nil => rfl
  | cons packet rest ih =>
    -- The packet brings the record up to the latest time so far, which is where the rest of the run starts.
    have hreceive : record.receive { packet with now := max top packet.now } = record.receive packet :=
      receive_congr rfl rfl (h packet.now)
    unfold inOrder trace
    rw [hreceive, ih (h.receive packet)]

/-- Probes change neither what the packets of a `run` do nor where it ends, if each comes in time. -/
theorem Caught.amid_eq {record : Record} {top : UInt64} (h : record.Caught top)
    (run : List (List Probe × Packet)) (htimely : Timely top run) :
    record.traceAmid run = record.trace (run.map Prod.snd) ∧
      record.afterAmid run = record.after (run.map Prod.snd) := by
  induction run generalizing record top with
  | nil => exact ⟨rfl, rfl⟩
  | cons item rest ih =>
    obtain ⟨probes, packet⟩ := item
    obtain ⟨hprobes, hrest⟩ := htimely
    obtain ⟨htrace, hafter⟩ := ih (h.receive packet) hrest
    simp only [traceAmid, afterAmid, List.map_cons, trace, after]
    rw [h.receive_probeAll probes packet hprobes, htrace, hafter]
    exact ⟨rfl, rfl⟩

/-- Only the latest time of a refill counts:

- refilling twice is refilling at the later time;
- old packet times may be replaced by the latest time so far;
- a meter may be probed anywhere in a run, in time for the next packet: the packets keep their colours and leave
  the same records, and after probes at the end a refill at any later time gives the same record as without them.
-/
theorem refill_schedule_irrelevant (record : Record) :
    (∀ s t, (record.refill s).refill t = record.refill (max s t)) ∧
    (∀ packets, record.trace (inOrder 0 packets) = record.trace packets) ∧
    ∀ run last, Timely 0 run →
      record.traceAmid run = record.trace (run.map Prod.snd) ∧
      ∀ time, (∀ probe ∈ last, probe.now ≤ time) →
        ((record.afterAmid run).probeAll last).refill time =
          (record.after (run.map Prod.snd)).refill time := by
  refine ⟨record.refill_refill, record.caught_zero.trace_inOrder, fun run last htimely => ?_⟩
  obtain ⟨htrace, hafter⟩ := record.caught_zero.amid_eq run htimely
  refine ⟨htrace, fun time hlast => ?_⟩
  rw [refill_probeAll _ _ _ hlast, hafter]

/-- Three packets, the second of which comes late, on a meter that is probed in every way, also at the time of
the packet before. -/
theorem refill_schedule_irrelevant_late_packet :
    let record : Record := ⟨⟨10, 5, 20, 20, 0⟩, ⟨10, 2, 10, 10, 0⟩⟩
    let run : List (List Probe × Packet) :=
      [([.empty 7, .refill 35], ⟨.green, 10, 35⟩), ([.red 9 35, .refill 20], ⟨.green, 8, 12⟩),
        ([.empty 41], ⟨.green, 9, 47⟩)]
    Timely 0 run ∧ (record.traceAmid run).map Prod.fst = [.green, .yellow, .red] ∧
      ((record.afterAmid run).probeAll [.refill 90, .empty 60]).refill 95 =
        (record.after (run.map Prod.snd)).refill 95 := by
  intro record run
  have htimely : Timely 0 run := ⟨by decide, by decide, by decide, trivial⟩
  obtain ⟨htrace, hlast⟩ :=
    (refill_schedule_irrelevant record).2.2 run [.refill 90, .empty 60] htimely
  refine ⟨htimely, ?_, hlast 95 (by decide)⟩
  rw [htrace]
  decide

end Record

end TrafficMeter
