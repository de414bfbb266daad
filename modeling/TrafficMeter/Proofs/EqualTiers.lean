import TrafficMeter.Proofs.ColorOrder
import TrafficMeter.Proofs.Conformance
import TrafficMeter.Proofs.Identity
import TrafficMeter.Proofs.Tiers

/-!
# Meters with equal tiers

Most meters are given one limit for both tiers. Their buckets gain the same tokens at the same times and have
the same room, and since the committed bucket pays for fewer packets it never holds less (`Record.InStep`).
Each packet keeps this up (`Record.InStep.receive`), and so a packet that the peak bucket can pay for is never
refused by the committed one: without a colour of its own it is green or red, but not yellow.

Only packets that arrive yellow set the buckets apart. Without them the two stay equal, and the meter does
what a single bucket does (`Record.trace_single`).

## Main results

* `Record.InStep.trace`: buckets that are in step stay so in every run, and no packet turns from green to yellow;
* `equal_tiers_act_as_one`: what follows for meters that are given one limit for both tiers.
-/

namespace TrafficMeter

namespace Record

/-- Both buckets of `record` gain the same tokens at the same times and have the same room, and the committed one
holds no less. -/
structure InStep (record : Record) : Prop where
  /-- They are refilled equally often. -/
  period_eq : record.peak.period = record.committed.period
  /-- They gain equally many tokens. -/
  quantum_eq : record.peak.quantum = record.committed.quantum
  /-- They have the same room. -/
  capacity_eq : record.peak.capacity = record.committed.capacity
  /-- They have been refilled up to the same time. -/
  stamp_eq : record.peak.stamp = record.committed.stamp
  /-- The committed bucket holds no less. -/
  level_le : record.peak.level ≤ record.committed.level

/-- The meter of which both tiers have the bucket `bucket`. -/
def single (bucket : Bucket) : Record :=
  ⟨bucket, bucket⟩

theorem inStep_single (bucket : Bucket) : (single bucket).InStep :=
  ⟨rfl, rfl, rfl, rfl, UInt64.le_refl _⟩

variable {record : Record} {packet : Packet}

theorem InStep.peak_atMost (h : record.InStep) : record.peak.AtMost record.committed :=
  ⟨h.period_eq, h.quantum_eq, h.stamp_eq, h.capacity_eq ▸ UInt64.le_refl _, h.level_le⟩

/-! ### One packet -/

/-- A refill at `now` keeps the buckets in step. -/
theorem InStep.refill (h : record.InStep) (now : UInt64) : (record.refill now).InStep := by
  refine ⟨h.period_eq, h.quantum_eq, h.capacity_eq, ?_, h.peak_atMost.level_refill_le (UInt64.le_refl now)⟩
  show (record.peak.refill now).stamp = (record.committed.refill now).stamp
  simp only [Bucket.refill, Bucket.ticks, h.stamp_eq, h.period_eq]

/-- If the peak bucket covers a packet of `size`, then so does the committed one. -/
theorem InStep.covers_committed (h : record.InStep) {size now : UInt64}
    (hcovers : (record.peak.refill now).covers size) : (record.committed.refill now).covers size :=
  h.peak_atMost.covers_refill (UInt64.le_refl size) (UInt64.le_refl now) hcovers

/-- Every `packet` keeps the buckets in step. -/
theorem InStep.receive (h : record.InStep) (packet : Packet) : (record.receive packet).2.InStep := by
  have hrefill := h.refill packet.now
  have hlevel := UInt64.le_iff_toNat_le.mp hrefill.level_le
  rcases record.receive_cases packet with ⟨hmark, -⟩ | ⟨hmark, -, hpeak, -⟩ | ⟨hmark, -, hpeak, hcommitted⟩
  · rw [hmark]
    exact hrefill
  · -- Only the peak bucket pays, which takes it further below the committed one.
    rw [hmark]
    refine ⟨hrefill.period_eq, hrefill.quantum_eq, hrefill.capacity_eq, hrefill.stamp_eq, ?_⟩
    rw [UInt64.le_iff_toNat_le, Bucket.toNat_level_spend _ _ hpeak]
    exact (Nat.sub_le _ _).trans hlevel
  · -- Both buckets pay the same.
    rw [hmark]
    refine ⟨hrefill.period_eq, hrefill.quantum_eq, hrefill.capacity_eq, hrefill.stamp_eq, ?_⟩
    rw [UInt64.le_iff_toNat_le, Bucket.toNat_level_spend _ _ hpeak, Bucket.toNat_level_spend _ _ hcommitted]
    exact Nat.sub_le_sub_right hlevel _

/-- A `packet` that arrives green is not yellow when it leaves. -/
theorem InStep.color_ne_yellow (h : record.InStep) (hgreen : packet.incoming = .green) :
    (record.receive packet).1 ≠ .yellow := by
  rcases record.receive_cases packet with ⟨hmark, -⟩ | ⟨-, -, hpeak, hyellow⟩ | ⟨hmark, -⟩
  · simp [hmark]
  · rcases hyellow with hyellow | hcommitted
    · cases hgreen.symm.trans hyellow
    · exact absurd (h.covers_committed hpeak) hcommitted
  · simp [hmark]

/-- With one `bucket` for both tiers, a `packet` that does not arrive yellow is red if the bucket turns it away
and green if the bucket pays for it. -/
theorem receive_single (bucket : Bucket) (hpacket : packet.incoming ≠ .yellow) :
    (single bucket).receive packet =
      (if (bucket.police packet).1 then .red else .green, single (bucket.police packet).2) := by
  have hview : peakView ((single bucket).receive packet) = bucket.police packet :=
    peakView_receive (single bucket) packet
  rw [← hview, peakView]
  rcases (single bucket).receive_cases packet with ⟨hmark, -⟩ | ⟨-, -, hpeak, hyellow⟩ | ⟨hmark, -⟩
  · rw [hmark]
    rfl
  · exact absurd ((inStep_single bucket).covers_committed hpeak) (hyellow.resolve_left hpacket)
  · rw [hmark]
    rfl

/-! ### Runs -/

/-- The buckets stay in step after each of `packets`, and none of these turns from green to yellow. -/
theorem InStep.trace (h : record.InStep) (packets : List Packet) :
    List.Forall₂ (fun packet marked => marked.2.InStep ∧ (packet.incoming = .green → marked.1 ≠ .yellow))
      packets (record.trace packets) := by
  induction packets generalizing record with
  | nil => exact .nil
  | cons packet rest ih => exact .cons ⟨h.receive packet, h.color_ne_yellow⟩ (ih (h.receive packet))

/-- Without packets that arrive yellow, a meter with one `bucket` for both tiers does what this bucket does
alone. -/
theorem trace_single (bucket : Bucket) {packets : List Packet}
    (hpackets : ∀ packet ∈ packets, packet.incoming ≠ .yellow) :
    (single bucket).trace packets =
      (bucket.policeAll packets).map fun outcome =>
        (if outcome.1 then .red else .green, single outcome.2) := by
  induction packets generalizing bucket with
  | nil => rfl
  | cons packet rest ih =>
    rw [List.forall_mem_cons] at hpackets
    unfold Record.trace Bucket.policeAll
    rw [List.map_cons, receive_single bucket hpackets.1, ih _ hpackets.2]

theorem InStep.eq_single (h : record.InStep) (hlevel : record.peak.level = record.committed.level) :
    record = single record.peak :=
  Record.ext rfl (Bucket.ext h.period_eq h.quantum_eq h.capacity_eq hlevel h.stamp_eq).symm

/-- The new record of a profile with one `limit` for both tiers has equal buckets. -/
theorem eq_single_of_toRecord {timer : Timer} {limit : Limit}
    (h : Profile.toRecord timer ⟨limit, limit⟩ = .ok record) : record = single record.peak := by
  obtain ⟨hpeak, hcommitted⟩ := Profile.toRecord_eq_ok_iff.mp h
  obtain ⟨hcapacity, hlevel, hstamp, hpace⟩ := Limit.toBucket_eq_ok hpeak
  obtain ⟨hcapacity', hlevel', hstamp', hpace'⟩ := Limit.toBucket_eq_ok hcommitted
  -- The tier matters to the wording of an error only.
  obtain ⟨hperiod, hquantum⟩ := Prod.mk.inj (hpace.symm.trans hpace')
  have hbuckets : record.committed = record.peak :=
    Bucket.ext (UInt64.toNat_inj.mp hperiod.symm) (UInt64.toNat_inj.mp hquantum.symm)
      (hcapacity'.trans hcapacity.symm) (hlevel'.trans hlevel.symm) (hstamp'.trans hstamp.symm)
  exact Record.ext rfl hbuckets

end Record

/-- A meter of an entry that was configured successfully holds the record that `toRecord` makes of its `profile`.
-/
theorem Table.configure_eq_ok {table configured : Table} {key : Bytes} {slot : Nat} {profile : Profile}
    (h : table.configure key slot profile = .ok configured) :
    ∃ record, profile.toRecord table.timer = .ok record ∧ configured.read key slot = .ok record := by
  rw [configure_eq] at h
  obtain ⟨⟨id, entry, old⟩, hmeter, hrest⟩ := bind_eq_ok_iff.mp h
  obtain ⟨record, hrecord, hput⟩ := bind_eq_ok_iff.mp hrest
  cases hput
  obtain ⟨hfind, hslot⟩ := requireMeter_eq_ok_iff.mp hmeter
  obtain ⟨hid, hentry⟩ := find?_eq_some_iff.mp hfind
  refine ⟨record, hrecord, read_eq_ok_iff.mpr ⟨entry.putMeter slot record, ?_, ?_⟩⟩
  · show (table.lookup? key).bind _ = _
    rw [hid, Option.bind_some, object?_putObject hentry, if_pos rfl]
  · obtain ⟨hlt, -⟩ := List.getElem?_eq_some_iff.mp hslot
    rw [Entry.putMeter, List.getElem?_set_self hlt]

/-- Equal tiers act as one:

- if the buckets of both tiers gain the same tokens at the same times and have the same room, and the committed
  one holds no less, then this is so after every packet of every run, and no packet that arrives green is yellow
  when it leaves;
- if moreover the buckets hold equally many tokens and no packet arrives yellow, they hold equally many tokens
  after every packet;
- meters that are given one limit for both tiers start with equal buckets. -/
theorem equal_tiers_act_as_one :
    (∀ (record : Record) (packets : List Packet), record.InStep →
      List.Forall₂ (fun packet marked => marked.2.InStep ∧ (packet.incoming = .green → marked.1 ≠ .yellow))
        packets (record.trace packets)) ∧
    (∀ (record : Record) (packets : List Packet), record.InStep → record.peak.level = record.committed.level →
      (∀ packet ∈ packets, packet.incoming = .green ∨ packet.incoming = .red) →
        ∀ marked ∈ record.trace packets, marked.2.peak.level = marked.2.committed.level) ∧
    (∀ (store configured : Store) (index : UInt32) (limit : Limit),
      store.configure index ⟨limit, limit⟩ = .ok configured →
        ∃ record, configured.read index = .ok record ∧ record.InStep ∧
          record.peak.level = record.committed.level) ∧
    ∀ (table configured : Table) (key : Bytes) (slot : Nat) (limit : Limit),
      table.configure key slot ⟨limit, limit⟩ = .ok configured →
        ∃ record, configured.read key slot = .ok record ∧ record.InStep ∧
          record.peak.level = record.committed.level := by
  -- A profile with one limit for both tiers gives them one and the same bucket.
  have hequal {timer : Timer} {limit : Limit} {record : Record}
      (h : Profile.toRecord timer ⟨limit, limit⟩ = .ok record) :
      record.InStep ∧ record.peak.level = record.committed.level := by
    rw [Record.eq_single_of_toRecord h]
    exact ⟨Record.inStep_single _, rfl⟩
  refine ⟨fun record packets h => h.trace packets, ?_, ?_, ?_⟩
  · intro record packets hstep hlevel hpackets marked hmarked
    have hcolors : ∀ packet ∈ packets, packet.incoming ≠ .yellow := by
      intro packet hpacket
      rcases hpackets packet hpacket with hgreen | hred
      · simp [hgreen]
      · simp [hred]
    rw [hstep.eq_single hlevel, Record.trace_single _ hcolors] at hmarked
    obtain ⟨outcome, -, rfl⟩ := List.mem_map.mp hmarked
    rfl
  · intro store configured index limit hconfigure
    obtain ⟨record, hrecord, hread⟩ := Store.configure_eq_ok hconfigure
    exact ⟨record, hread, hequal hrecord⟩
  · intro table configured key slot limit hconfigure
    obtain ⟨record, hrecord, hread⟩ := Table.configure_eq_ok hconfigure
    exact ⟨record, hread, hequal hrecord⟩

/-- The committed bucket of `record` is overfull. A yellow packet sets the buckets apart, the next packet is red
for them, and the one after is green. With equal buckets and without the yellow packet the levels stay equal. One
meter of a store and one of a table are given equal limits. -/
theorem equal_tiers_act_as_one_yellow_packet :
    let record : Record := ⟨⟨10, 5, 20, 20, 0⟩, ⟨10, 5, 20, 25, 0⟩⟩
    let others : List Packet := [⟨.green, 13, 2⟩, ⟨.green, 12, 5⟩, ⟨.red, 1, 14⟩]
    let packets : List Packet := ⟨.yellow, 8, 3⟩ :: others
    let store := Store.create "m" 2 .bytes (.ofResolution 1)
    let table : Table :=
      { name := "t", layout := ⟨0, none, 1⟩, unit := .bytes, timer := .ofResolution 1
        objects := [{ meters := [{}] }], index := .insert .empty [7] 0 }
    record.InStep ∧ (record.trace packets).map Prod.fst = [.yellow, .red, .green, .red] ∧
      List.Forall₂ (fun packet marked => marked.2.InStep ∧ (packet.incoming = .green → marked.1 ≠ .yellow))
        packets (record.trace packets) ∧
      (∀ marked ∈ (Record.single record.peak).trace others, marked.2.peak.level = marked.2.committed.level) ∧
      (∃ configured found, store.configure 1 ⟨⟨250000, 2500⟩, ⟨250000, 2500⟩⟩ = .ok configured ∧
        configured.read 1 = .ok found ∧ found.InStep) ∧
      ∃ configured found, table.configure [7] 0 ⟨⟨5, 40⟩, ⟨5, 40⟩⟩ = .ok configured ∧
        configured.read [7] 0 = .ok found ∧ found.InStep := by
  intro record others packets store table
  obtain ⟨hrun, hlevels, hstore, htable⟩ := equal_tiers_act_as_one
  have hstep : record.InStep := ⟨rfl, rfl, rfl, rfl, by decide⟩
  have hothers : ∀ packet ∈ others, packet.incoming = .green ∨ packet.incoming = .red := by decide
  obtain ⟨found, hfound, hfoundStep, -⟩ := hstore store _ 1 ⟨250000, 2500⟩ rfl
  obtain ⟨found', hfound', hfoundStep', -⟩ := htable table _ [7] 0 ⟨5, 40⟩ rfl
  exact ⟨hstep, by decide, hrun record packets hstep,
    hlevels _ others (Record.inStep_single _) rfl hothers,
    ⟨_, found, rfl, hfound, hfoundStep⟩, ⟨_, found', rfl, hfound', hfoundStep'⟩⟩

end TrafficMeter
