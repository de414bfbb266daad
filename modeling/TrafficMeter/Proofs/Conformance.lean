import TrafficMeter.Proofs.Envelope
import TrafficMeter.Proofs.Pace
import TrafficMeter.Proofs.Effect

/-!
# Rate conformance

What a configured meter lets through in any window of its packets is bounded by the rate that the operator
asked for, not only by the pace that the rate was turned into. The bound has three parts: the burst, one
quantum for the period that was under way when the window began, and the rate over the time of the window,
with a thousandth added for the rounding of the pace.

- `volume_window_le`: a window pays at most the capacity and the ticks within it;
- `Limit.gain_le_rate`: the ticks of a pace stay within the rate that it was chosen for;
- `Record.window_conforms`: the bound for every window of every run of a newly configured meter;
- `marksAt_eq_marks`: a run of a store is, for each of its meters, a run of the meter.
-/

namespace TrafficMeter

/-- The ticks between the times `s` and `t`, one of them set aside, take no longer than `t - s`. -/
theorem Bucket.ticksAt_sub_mul_period_le (bucket : Bucket) {s t : Nat} (h : s ≤ t) :
    ((bucket.ticksAt t : Int) - bucket.ticksAt s - 1) * bucket.period.toNat ≤ t - s := by
  rcases Nat.eq_zero_or_pos bucket.period.toNat with hzero | hpos
  · rw [hzero]
    omega
  · -- The first tick in the window may have begun before it, so only those after it are paid for by time.
    have hlate : bucket.ticksAt t * bucket.period.toNat ≤ t - bucket.stamp.toNat := Nat.div_mul_le_self _ _
    have hearly : s - bucket.stamp.toNat < bucket.period.toNat * (bucket.ticksAt s + 1) :=
      Nat.lt_mul_div_succ _ hpos
    have hexpand : ((bucket.ticksAt t : Int) - bucket.ticksAt s - 1) * bucket.period.toNat =
        bucket.ticksAt t * bucket.period.toNat -
          bucket.period.toNat * (bucket.ticksAt s + 1) := by ring
    rw [hexpand]
    zify at hlate hearly
    omega

/-- The latest time of a list only grows when `late` marks are added. -/
theorem latest_le_latest_append (early late : List Mark) : latest early ≤ latest (early ++ late) := by
  induction late using List.reverseRecOn with
  | nil => rw [List.append_nil]
  | append_singleton late mark ih =>
    rw [← List.append_assoc, latest_concat]
    exact ih.trans (le_max_left _ _)

/-- The latest time up to position `j` is no later than that up to a following position `k`. -/
theorem latest_take_mono (marks : List Mark) {j k : Nat} (h : j ≤ k) :
    latest (marks.take j) ≤ latest (marks.take k) := by
  have htake : (marks.take k).take j = marks.take j := by
    rw [List.take_take, Nat.min_eq_left h]
  rw [← htake]
  conv_rhs => rw [← List.take_append_drop j (marks.take k)]
  exact latest_le_latest_append _ _

namespace Record

/-- In the window of a run from position `j` to position `k`, a `tier` pays at most its capacity and the gains of
the ticks in the window. -/
theorem volume_window_le (record : Record) (packets : List Packet) (tier : Tier) {j k : Nat} (hjk : j ≤ k)
    (hk : k < packets.length) :
    (volume tier ((record.marks packets).extract j (k + 1)) : Int) ≤
      (record.bucket tier).capacity.toNat +
        (((record.bucket tier).ticksAt (latest ((record.marks packets).take (k + 1))) : Int) -
          (record.bucket tier).ticksAt (latest ((record.marks packets).take (j + 1)))) *
          (record.bucket tier).quantum.toNat := by
  have hpacket : packets[k]? = some packets[k] := List.getElem?_eq_getElem hk
  -- What the last packet is charged is covered, so it does not overdraw the bucket.
  have hcovers := (record.after (packets.take k)).covers_charge packets[k] tier
  have hlevel := mt (Bucket.not_covers_iff _ _).mpr (not_not.mpr hcovers)
  rw [record.level_lt_iff_overdrawn packets tier hpacket] at hlevel
  have hbound := not_lt.mp fun h => (not_or.mp hlevel).2 ⟨j, hjk, h⟩
  have hsum : (record.marks packets).extract j (k + 1) =
      (record.marks packets).extract j k ++ [(record.after (packets.take k)).markOf packets[k]] := by
    rw [List.extract_eq_take_drop, List.extract_eq_take_drop, Nat.succ_sub hjk, List.take_add_one,
      List.getElem?_drop, Nat.add_sub_cancel' hjk, getElem?_marks, hpacket]
    rfl
  rw [hsum, volume_append, volume_cons, volume_nil]
  push_cast
  linarith

end Record

/-- The gains of a bucket between the times `s` and `t`, one quantum set aside, stay within the rate of the
`limit` that its pace was chosen for, up to a thousandth. -/
theorem Limit.gain_le_rate {timer : Timer} {tier : Tier} {limit : Limit} {bucket : Bucket}
    (hbucket : limit.toBucket timer tier = .ok bucket) {s t : Nat} (hst : s ≤ t) :
    10 ^ 12 * (((bucket.ticksAt t : Int) - bucket.ticksAt s) * bucket.quantum.toNat - bucket.quantum.toNat) ≤
      1001 * limit.rate.toNat * ((t : Int) - s) := by
  obtain ⟨-, -, -, hchoose⟩ := Limit.toBucket_eq_ok hbucket
  have hprecise := Pace.choose_precise timer.resolution.toNat limit.rate.toNat
  rw [hchoose] at hprecise
  have hpace : (10 ^ 12 * bucket.quantum.toNat : Int) ≤ 1001 * limit.rate.toNat * bucket.period.toNat := by
    have hupper := le_abs_self ((bucket.quantum.toNat * nanosPerSecond : Int) -
      limit.rate.toNat * bucket.period.toNat)
    simp only [ratePrecision, nanosPerSecond] at hprecise hupper
    push_cast at hprecise hupper
    linarith
  have htime := bucket.ticksAt_sub_mul_period_le hst
  have hmono : (bucket.ticksAt s : Int) ≤ bucket.ticksAt t := by
    exact_mod_cast bucket.ticksAt_mono hst
  have hrate : (0 : Int) ≤ 1001 * limit.rate.toNat := by positivity
  have helapsed : (0 : Int) ≤ (t : Int) - s := by omega
  -- With no tick between the times, the quantum that is set aside outweighs the gains.
  rcases hmono.eq_or_lt with hnone | hsome
  · have hquantum : (0 : Int) ≤ bucket.quantum.toNat := Int.natCast_nonneg _
    have hright := mul_nonneg hrate helapsed
    rw [hnone, sub_self, zero_mul]
    linarith
  · set ticks : Int := bucket.ticksAt t - bucket.ticksAt s - 1 with hticks
    have hpos : 0 ≤ ticks := by omega
    calc 10 ^ 12 *
          (((bucket.ticksAt t : Int) - bucket.ticksAt s) * bucket.quantum.toNat - bucket.quantum.toNat)
        = ticks * (10 ^ 12 * bucket.quantum.toNat) := by rw [hticks]; ring
      _ ≤ ticks * (1001 * limit.rate.toNat * bucket.period.toNat) := mul_le_mul_of_nonneg_left hpace hpos
      _ = 1001 * limit.rate.toNat * (ticks * bucket.period.toNat) := by ring
      _ ≤ 1001 * limit.rate.toNat * ((t : Int) - s) := mul_le_mul_of_nonneg_left htime hrate

/-- The bucket of a `tier` in a new record is that of the limit `profile.limit tier`. -/
theorem Profile.toBucket_limit {timer : Timer} {profile : Profile} {record : Record}
    (h : profile.toRecord timer = .ok record) (tier : Tier) :
    (profile.limit tier).toBucket timer tier = .ok (record.bucket tier) := by
  obtain ⟨hpeak, hcommitted⟩ := Profile.toRecord_eq_ok_iff.mp h
  cases tier with
  | peak => exact hpeak
  | committed => exact hcommitted

/-- A window of marks that pays `volume` tokens in a time of `elapsed` nanoseconds stays within `limit`: it pays
at most the burst, one `quantum`, and the rate over this time with a thousandth added. With no rate it pays at
most the burst. -/
def Limit.Admits (limit : Limit) (quantum volume elapsed : Int) : Prop :=
  10 ^ 12 * (volume - limit.burst.toNat - quantum) ≤ 1001 * limit.rate.toNat * elapsed ∧
    (limit.rate = 0 → volume ≤ limit.burst.toNat)

/-- Every window of a run, from position `j` to position `k`, on a newly configured `record` stays within both
limits of its `profile`. -/
theorem Record.window_conforms {timer : Timer} {profile : Profile} {record : Record}
    (hrecord : profile.toRecord timer = .ok record) (packets : List Packet) (tier : Tier) {j k : Nat}
    (hjk : j ≤ k) (hk : k < packets.length) :
    (profile.limit tier).Admits (record.bucket tier).quantum.toNat
      (volume tier ((record.marks packets).extract j (k + 1)))
      (latest ((record.marks packets).take (k + 1)) - latest ((record.marks packets).take (j + 1))) := by
  have hbucket := Profile.toBucket_limit hrecord tier
  obtain ⟨hcapacity, -, -, hchoose⟩ := Limit.toBucket_eq_ok hbucket
  have hvolume := record.volume_window_le packets tier hjk hk
  have hgain := Limit.gain_le_rate hbucket
    (latest_take_mono (record.marks packets) (Nat.succ_le_succ hjk))
  rw [hcapacity] at hvolume
  constructor
  · -- The capacity is the burst, and the gains stay within the rate up to a quantum.
    linarith
  · -- Without a rate the quantum is zero, and there are no gains.
    intro hzero
    have hquantum : (record.bucket tier).quantum.toNat = 0 := by
      rw [hzero, UInt64.toNat_zero, Pace.choose, if_pos rfl] at hchoose
      exact (Prod.mk.inj hchoose).2.symm
    rw [hquantum, Nat.cast_zero, mul_zero, add_zero] at hvolume
    exact hvolume

namespace Store

/-- The packet that an operation meters on the meter of `index`, if it does. -/
def Operation.packetAt? (unit : MeasureUnit) (index : UInt32) : Operation → Option Packet
  | .execute target length now => if target = index then some ⟨.green, unit.size length, now⟩ else none
  | .executeFrom target incoming length now =>
    if target = index then some ⟨incoming, unit.size length, now⟩ else none
  | _ => none

/-- The mark that `operation` makes on the meter of `index`, with the colour in its `answer`. -/
def Operation.markAt? (unit : MeasureUnit) (index : UInt32) (operation : Operation)
    (answer : Except Error Answer) : Option Mark :=
  match operation.packetAt? unit index, answer with
  | some packet, .ok (.color color) => some { packet with color }
  | _, _ => none

/-- The packets that a run of `operations` meters on the meter of `index`, with the colours that are answered. -/
def marksAt (store : Store) (index : UInt32) (operations : List Operation) : List Mark :=
  (operations.zip (store.run operations).1).filterMap fun call =>
    call.1.markAt? store.unit index call.2

/-- The operation may change the meter of `index` otherwise than by metering a packet on it. -/
def Operation.rewrites (index : UInt32) : Operation → Bool
  | .markFrom target _ _ _ => target == index
  | .configure target _ => target == index
  | .reset target => target == index
  | .writeValue key _ => (indexOfKey key).toOption == some index
  | .restore _ => true
  | _ => false

/-- An `operation` that meters a `packet` asks for just that. -/
theorem Operation.request?_of_packetAt? {unit : MeasureUnit} {index : UInt32} {operation : Operation}
    {packet : Packet} (h : operation.packetAt? unit index = some packet) :
    ∃ length, operation.request? = some (.ok index, .execute packet.incoming length packet.now) ∧
      packet.size = unit.size length := by
  cases operation with
  | execute target length now =>
    obtain ⟨rfl, hsome⟩ := Option.ite_none_right_eq_some.mp h
    cases hsome
    exact ⟨length, rfl, rfl⟩
  | executeFrom target incoming length now =>
    obtain ⟨rfl, hsome⟩ := Option.ite_none_right_eq_some.mp h
    cases hsome
    exact ⟨length, rfl, rfl⟩
  | _ => cases h

/-- An `operation` that neither meters a packet on the meter of `index` nor rewrites it can only read it. -/
theorem Operation.request?_of_not_rewrites {unit : MeasureUnit} {index : UInt32} {operation : Operation}
    {request : Request} (hpacket : operation.packetAt? unit index = none)
    (hkeeps : operation.rewrites index = false) (h : operation.request? = some (.ok index, request)) :
    request = .read ∨ request = .readBytes := by
  cases operation <;> simp_all [packetAt?, rewrites, request?, Except.toOption]

/-- A request to the meter `target` leaves the meter of another `index` alone. -/
theorem read_serve_of_ne {store next : Store} {target index : UInt32} {request : Request} {answer : Answer}
    (h : store.serve target request = .ok (answer, next)) (hne : index ≠ target) :
    next.read index = store.read index := by
  obtain ⟨record, served, -, -, rfl⟩ := serve_eq_ok_iff.mp h
  exact store.read_put_of_ne hne served

/-- A request that reads a meter leaves it alone. -/
theorem read_serve_read {store next : Store} {index : UInt32} {request : Request} {answer : Answer}
    (h : store.serve index request = .ok (answer, next)) (hreads : request = .read ∨ request = .readBytes) :
    next.read index = store.read index := by
  obtain ⟨record, served, hread, hserve, rfl⟩ := serve_eq_ok_iff.mp h
  rcases hreads with rfl | rfl
  · cases hserve
    exact (store.read_put_self hread record).trans hread.symm
  · cases hserve
    exact (store.read_put_self hread record).trans hread.symm

/-- No `operation` changes the unit of a store. -/
@[simp]
theorem unit_perform (store : Store) (operation : Operation) :
    (store.perform operation).2.unit = store.unit := by
  refine perform_preserves (P := fun next => next.unit = store.unit) rfl fun answer next heffect => ?_
  cases heffect with
  | serve _ hserve =>
    obtain ⟨record, served, -, -, rfl⟩ := serve_eq_ok_iff.mp hserve
    rfl
  | restore hrestore =>
    obtain ⟨-, -, rfl⟩ := restore_eq_ok_iff.mp hrestore
    rfl
  | loadTally => rfl
  | view => rfl

/-- A `packet` that is metered on the meter of `index` gets the colour that the meter's `record` gives it, and
leaves the record that `record.receive` does. -/
theorem perform_of_packetAt? {store : Store} {index : UInt32} {record : Record} {operation : Operation}
    {packet : Packet} (hread : store.read index = .ok record)
    (hpacket : operation.packetAt? store.unit index = some packet) :
    (store.perform operation).1 = .ok (.color (record.receive packet).1) ∧
      (store.perform operation).2.read index = .ok (record.receive packet).2 := by
  obtain ⟨length, hrequest, hsize⟩ := Operation.request?_of_packetAt? hpacket
  have hserve : store.serve index (.execute packet.incoming length packet.now) =
      .ok (.color (record.receive packet).1,
        { store.put index (record.receive packet).2 with
          tally := store.tally.add (record.receive packet).1 }) := by
    refine serve_eq_ok_iff.mpr ⟨record, (record.receive packet).2, hread, ?_, rfl⟩
    rw [Record.receive, hsize]
    rfl
  rw [perform_eq_settle, attempt_eq_serve hrequest, ok_bind, hserve]
  exact ⟨rfl, store.read_put_self hread _⟩

/-- An `operation` that neither meters a packet on the meter of `index` nor rewrites it leaves this meter alone.
-/
theorem read_perform_of_packetAt?_none {store : Store} {index : UInt32} {operation : Operation}
    (hpacket : operation.packetAt? store.unit index = none) (hkeeps : operation.rewrites index = false) :
    (store.perform operation).2.read index = store.read index := by
  refine perform_preserves (P := fun next => next.read index = store.read index) rfl
    fun answer next heffect => ?_
  cases heffect with
  | @serve _ target request _ _ hrequest hserve =>
    -- A request to another meter is of no concern, and to this one it can only be a reading.
    by_cases hindex : index = target
    · subst hindex
      exact read_serve_read hserve (Operation.request?_of_not_rewrites hpacket hkeeps hrequest)
    · exact read_serve_of_ne hserve hindex
  | restore => cases hkeeps
  | loadTally => rfl
  | view => rfl

/-- The marks of a run are the one of its first `operation`, if it makes one, and those of the `rest`. -/
theorem marksAt_cons (store : Store) (index : UInt32) (operation : Operation) (rest : List Operation) :
    store.marksAt index (operation :: rest) =
      (operation.markAt? store.unit index (store.perform operation).1).toList ++
        (store.perform operation).2.marksAt index rest := by
  simp only [marksAt, run, runWith, List.zip_cons_cons, List.filterMap_cons, unit_perform]
  cases operation.markAt? store.unit index (store.perform operation).1 <;> rfl

/-- As long as the meter of `index` is not rewritten, it sees a run of the store as a run of its own packets. -/
theorem marksAt_eq_marks {store : Store} {index : UInt32} {record : Record} {operations : List Operation}
    (hread : store.read index = .ok record)
    (hkeeps : ∀ operation ∈ operations, operation.rewrites index = false) :
    store.marksAt index operations =
      record.marks (operations.filterMap (Operation.packetAt? store.unit index)) := by
  induction operations generalizing store record with
  | nil => rfl
  | cons operation rest ih =>
    rw [List.forall_mem_cons] at hkeeps
    have hunit := store.unit_perform operation
    rw [marksAt_cons]
    cases hpacket : operation.packetAt? store.unit index with
    | none =>
      -- The operation meters no packet here, so it neither makes a mark nor changes the record.
      have hnext := read_perform_of_packetAt?_none hpacket hkeeps.1
      have hmark : operation.markAt? store.unit index (store.perform operation).1 = none := by
        simp [Operation.markAt?, hpacket]
      rw [ih (hnext.trans hread) hkeeps.2, hunit, hmark, List.filterMap_cons_none hpacket]
      rfl
    | some packet =>
      obtain ⟨hanswer, hnext⟩ := perform_of_packetAt? hread hpacket
      have hmark : operation.markAt? store.unit index (store.perform operation).1 =
          some (record.markOf packet) := by
        simp [Operation.markAt?, hpacket, hanswer, Record.markOf]
      rw [ih hnext hkeeps.2, hunit, hmark, List.filterMap_cons_some hpacket]
      rfl

/-- A meter that was configured successfully holds the record that `toRecord` makes of its `profile`. -/
theorem configure_eq_ok {store configured : Store} {index : UInt32} {profile : Profile}
    (h : store.configure index profile = .ok configured) :
    ∃ record, profile.toRecord store.timer = .ok record ∧ configured.read index = .ok record := by
  rw [configure_eq] at h
  obtain ⟨old, hread, hrest⟩ := bind_eq_ok_iff.mp h
  obtain ⟨record, hrecord, hput⟩ := bind_eq_ok_iff.mp hrest
  cases hput
  exact ⟨record, hrecord, store.read_put_self hread record⟩

/-- Rate conformance from end to end. After the meter of `index` was given a `profile`, and until it is
rewritten, every operation that meters a packet on it is answered with a colour, and in every window of these
packets, from position `j` to position `k`, both tiers stay within their limits: the green and yellow packets
within the peak limit, the green ones within the committed limit. -/
theorem window_conforms_to_profile (store configured : Store) (index : UInt32) (profile : Profile)
    (hconfigure : store.configure index profile = .ok configured) (operations : List Operation)
    (hkeeps : ∀ operation ∈ operations, operation.rewrites index = false) :
    ∃ record, configured.read index = .ok record ∧
      (configured.marksAt index operations).map Mark.toPacket =
        operations.filterMap (Operation.packetAt? configured.unit index) ∧
      ∀ (tier : Tier) (j k : Nat), j ≤ k → k < (configured.marksAt index operations).length →
        (profile.limit tier).Admits (record.bucket tier).quantum.toNat
          (volume tier ((configured.marksAt index operations).extract j (k + 1)))
          (latest ((configured.marksAt index operations).take (k + 1)) -
            latest ((configured.marksAt index operations).take (j + 1))) := by
  obtain ⟨record, hrecord, hread⟩ := configure_eq_ok hconfigure
  rw [marksAt_eq_marks hread hkeeps]
  refine ⟨record, hread, Record.map_toPacket_marks _ _, fun tier j k hjk hk => ?_⟩
  rw [Record.length_marks] at hk
  exact Record.window_conforms hrecord _ tier hjk hk

/-- Packets on a configured meter, one of them out of order, while another meter of the store is configured. -/
theorem window_conforms_to_profile_out_of_order :
    let profile : Profile := { peak := ⟨250000, 2500⟩, committed := ⟨100000, 1500⟩ }
    let operations : List Operation :=
      [.execute 1 1500 2000000, .configure 0 profile, .executeFrom 1 .yellow 900 5, .execute 0 64 7,
        .execute 1 1500 20000000]
    ∃ configured, (create "m" 2 .bytes (Timer.ofResolution 1)).configure 1 profile = .ok configured ∧
      (∀ operation ∈ operations, operation.rewrites 1 = false) ∧
      ∃ record, configured.read 1 = .ok record ∧
        (configured.marksAt 1 operations).map Mark.toPacket =
          operations.filterMap (Operation.packetAt? configured.unit 1) ∧
        ∀ (tier : Tier) (j k : Nat), j ≤ k → k < (configured.marksAt 1 operations).length →
          (profile.limit tier).Admits (record.bucket tier).quantum.toNat
            (volume tier ((configured.marksAt 1 operations).extract j (k + 1)))
            (latest ((configured.marksAt 1 operations).take (k + 1)) -
              latest ((configured.marksAt 1 operations).take (j + 1))) :=
  ⟨_, rfl, by decide,
    window_conforms_to_profile (create "m" 2 .bytes (Timer.ofResolution 1)) _ 1 _ rfl _ (by decide)⟩

end Store

end TrafficMeter
