import TrafficMeter.Proofs.Footprint

/-!
# Raw records

A record and its raw form determine each other as far as they can. A written record is read back exactly if
it is not overfull, and is refused for its first overfull bucket otherwise. A raw record that is read and
written again is the same up to its lock word, so raw records stand for the same record exactly if they agree
outside that word (`Record.decode_eq_decode_iff`).

## Main results

* `Record.ofBytes_toBytes_eq_ok_iff`, `Record.ofBytes_toBytes_eq_error_iff`: which records are read back, and for
  what the others are refused;
* `Record.exists_writeTo?`: a record is written over the start of a buffer;
* `Record.raw_form_exact_up_to_lock`: the raw form of records as a whole.
-/

namespace TrafficMeter

namespace Bytes

/-- The byte string from `start` on does not matter when the bytes before it are compared. -/
theorem take_eq_take_iff_sameOutside {bytes other : Bytes} {start : Nat} (h : other.length = bytes.length) :
    bytes.take start = other.take start ↔
      SameOutside (fun position => start ≤ position ∧ position < bytes.length) bytes other := by
  constructor
  · intro htake
    refine ⟨h, fun position hposition => ?_⟩
    by_cases hlt : position < start
    · have hbyte : (bytes.take start)[position]? = (other.take start)[position]? :=
        congrArg (·[position]?) htake
      rw [List.getElem?_take_of_lt hlt, List.getElem?_take_of_lt hlt] at hbyte
      exact hbyte.symm
    · have hend : bytes.length ≤ position := by omega
      rw [List.getElem?_eq_none hend, List.getElem?_eq_none (h ▸ hend)]
  · intro hsame
    have hslice : other.slice 0 start = bytes.slice 0 start :=
      hsame.slice_eq fun offset hoffset hchanged => by omega
    exact hslice.symm

end Bytes

namespace Record

/-- `position` lies in the lock word of a raw record. -/
def InLock (position : Nat) : Prop :=
  80 ≤ position ∧ position < byteLength

/-- Different records have different raw forms. -/
theorem toBytes_injective : Function.Injective toBytes :=
  Function.LeftInverse.injective decode_toBytes

/-- Two raw records `bytes` and `other` are decoded as one record exactly if they differ in the lock word at
most. -/
theorem decode_eq_decode_iff {bytes other : Bytes} (hbytes : bytes.length = byteLength)
    (hother : other.length = byteLength) :
    decode bytes = decode other ↔ Bytes.SameOutside InLock bytes other := by
  calc decode bytes = decode other
      ↔ (decode bytes).toBytes = (decode other).toBytes := toBytes_injective.eq_iff.symm
    _ ↔ bytes.take 80 = other.take 80 := by
      rw [toBytes_decode hbytes, toBytes_decode hother, List.append_left_inj]
    _ ↔ Bytes.SameOutside InLock bytes other := by
      rw [Bytes.take_eq_take_iff_sameOutside (hother.trans hbytes.symm), hbytes]
      rfl

/-- `withinCapacity` in terms of the levels that are compared. -/
theorem withinCapacity_iff (record : Record) :
    record.withinCapacity ↔
      record.peak.level ≤ record.peak.capacity ∧ record.committed.level ≤ record.committed.capacity := by
  simp [withinCapacity, Bucket.withinCapacity]

/-- A `record` is read back from its raw form exactly if it is not overfull. -/
theorem ofBytes_toBytes_eq_ok_iff (record : Record) :
    ofBytes record.toBytes = .ok record ↔ record.withinCapacity := by
  rw [ofBytes_eq_ok_iff, decode_toBytes]
  simp

/-- The raw form of `record` is refused exactly for its first overfull bucket. -/
theorem ofBytes_toBytes_eq_error_iff (record : Record) (error : Error) :
    ofBytes record.toBytes = .error error ↔ record.fault? = some error := by
  have hrefusal : refusal (ofBytes record.toBytes) = record.fault? := by
    rw [refusal_ofBytes, rawFault?, if_pos record.length_toBytes, decode_toBytes]
  rw [← hrefusal]
  cases ofBytes record.toBytes <;> simp

/-- An overfull `record` is refused with the name of its first overfull level. -/
theorem exists_fault_of_not_withinCapacity {record : Record} (h : ¬ record.withinCapacity) :
    ∃ fault, ofBytes record.toBytes = .error (.invalidConfig fault) ∧
      fault.field = if record.peak.capacity < record.peak.level then "pbs_left" else "cbs_left" := by
  simp only [ofBytes_toBytes_eq_error_iff, fault?, Bucket.fault?]
  by_cases hpeak : record.peak.level ≤ record.peak.capacity
  · have hcommitted : ¬ record.committed.level ≤ record.committed.capacity := fun hcommitted =>
      h (record.withinCapacity_iff.mpr ⟨hpeak, hcommitted⟩)
    refine ⟨.overfull .committed record.committed.level record.committed.capacity, ?_, ?_⟩
    · rw [if_pos hpeak, if_neg hcommitted]
      rfl
    · rw [if_neg (UInt64.not_lt.mpr hpeak)]
      rfl
  · refine ⟨.overfull .peak record.peak.level record.peak.capacity, ?_, ?_⟩
    · rw [if_neg hpeak]
      rfl
    · rw [if_pos (UInt64.not_le.mp hpeak)]
      rfl

/-- A raw record is accepted exactly if it has the right length and neither level in it, the seventh and eighth
word, exceeds its capacity, the fifth and sixth. -/
theorem exists_ofBytes_iff {bytes : Bytes} :
    (∃ record, ofBytes bytes = .ok record) ↔
      bytes.length = byteLength ∧ bytes.uint64At 48 ≤ bytes.uint64At 32 ∧
        bytes.uint64At 56 ≤ bytes.uint64At 40 := by
  simp only [ofBytes_eq_ok_iff, withinCapacity_iff, exists_and_left, exists_eq, and_true]
  rfl

/-- A `buffer` with room for `record` holds it at its start and is the same behind it. -/
theorem exists_writeTo? (record : Record) {buffer : Bytes} (h : byteLength ≤ buffer.length) :
    ∃ written, record.writeTo? buffer = some written ∧ written.length = buffer.length ∧
      written.take byteLength = record.toBytes ∧ written.drop byteLength = buffer.drop byteLength := by
  refine ⟨record.toBytes ++ buffer.drop byteLength, ?_, ?_, ?_, ?_⟩
  · rw [writeTo?, if_neg (Nat.not_lt.mpr h)]
  · rw [List.length_append, length_toBytes, List.length_drop]
    omega
  · exact List.take_left' record.length_toBytes
  · exact List.drop_left' record.length_toBytes

/-- The raw form of records is exact up to the lock word:

- a written record is read back exactly if neither level exceeds its capacity, and is refused under the name of
  the first one that does otherwise;
- a byte string is a raw record exactly if it has the right length and levels in range, and is then written again
  with zeros for its lock word;
- a record is written over the start of any buffer that has room for it, and over nothing else;
- hence two raw records are read as one record exactly if they differ in the lock word at most. -/
theorem raw_form_exact_up_to_lock :
    (∀ record : Record,
      (ofBytes record.toBytes = .ok record ↔
        record.peak.level ≤ record.peak.capacity ∧ record.committed.level ≤ record.committed.capacity) ∧
      (¬ (record.peak.level ≤ record.peak.capacity ∧ record.committed.level ≤ record.committed.capacity) →
        ∃ fault, ofBytes record.toBytes = .error (.invalidConfig fault) ∧
          fault.field = if record.peak.capacity < record.peak.level then "pbs_left" else "cbs_left")) ∧
    (∀ bytes : Bytes,
      ((∃ record, ofBytes bytes = .ok record) ↔
        bytes.length = 88 ∧ bytes.uint64At 48 ≤ bytes.uint64At 32 ∧ bytes.uint64At 56 ≤ bytes.uint64At 40) ∧
      ∀ record, ofBytes bytes = .ok record →
        record.peak =
          ⟨bytes.uint64At 0, bytes.uint64At 8, bytes.uint64At 32, bytes.uint64At 48, bytes.uint64At 64⟩ ∧
        record.committed =
          ⟨bytes.uint64At 16, bytes.uint64At 24, bytes.uint64At 40, bytes.uint64At 56, bytes.uint64At 72⟩ ∧
        record.toBytes = bytes.take 80 ++ Bytes.zeros 8) ∧
    (∀ (record : Record) (buffer : Bytes), 88 ≤ buffer.length →
      ∃ written, record.writeTo? buffer = some written ∧ written.length = buffer.length ∧
        written.take 88 = record.toBytes ∧ written.drop 88 = buffer.drop 88) ∧
    (∀ (bytes other : Bytes) (record record' : Record), ofBytes bytes = .ok record →
      ofBytes other = .ok record' → (record = record' ↔ Bytes.SameOutside InLock bytes other)) := by
  refine ⟨fun record => ?_, fun bytes => ⟨exists_ofBytes_iff, fun record hrecord => ?_⟩,
    fun record buffer => record.exists_writeTo?, fun bytes other record record' hrecord hrecord' => ?_⟩
  · rw [← withinCapacity_iff]
    exact ⟨record.ofBytes_toBytes_eq_ok_iff, exists_fault_of_not_withinCapacity⟩
  · obtain ⟨hlength, -, rfl⟩ := ofBytes_eq_ok_iff.mp hrecord
    exact ⟨rfl, rfl, toBytes_decode hlength⟩
  · obtain ⟨hlength, -, rfl⟩ := ofBytes_eq_ok_iff.mp hrecord
    obtain ⟨hlength', -, rfl⟩ := ofBytes_eq_ok_iff.mp hrecord'
    exact decode_eq_decode_iff hlength hlength'

/-- A record with a token too many for its committed bucket is refused, and so is not read back. The raw form
of an empty record is read with a lock that is taken as it is without, and is written into a buffer of 90
bytes. -/
theorem raw_form_exact_up_to_lock_taken :
    let overfull : Record := { committed := { capacity := 6, level := 7 } }
    let locked := Bytes.zeros 80 ++ List.replicate 8 255
    (∃ fault, ofBytes overfull.toBytes = .error (.invalidConfig fault) ∧ fault.field = "cbs_left") ∧
    (∃ record, ofBytes locked = .ok record ∧ record.toBytes = Bytes.zeros 88 ∧
      (record = {} ↔ Bytes.SameOutside InLock locked (Bytes.zeros 88))) ∧
    ∃ written, writeTo? {} (List.replicate 90 1) = some written ∧ written.length = 90 ∧
      written.take 88 = Bytes.zeros 88 ∧ written.drop 88 = [1, 1] := by
  intro overfull locked
  obtain ⟨hrecords, hraw, hwrite, hsame⟩ := raw_form_exact_up_to_lock
  have hzeros : ofBytes (Bytes.zeros 88) = .ok {} := by decide +kernel
  refine ⟨?_, ?_, ?_⟩
  · exact (hrecords overfull).2 (by decide)
  · obtain ⟨record, hrecord⟩ := (hraw locked).1.mpr (by decide +kernel)
    obtain ⟨-, -, hagain⟩ := (hraw locked).2 record hrecord
    refine ⟨record, hrecord, ?_, hsame locked (Bytes.zeros 88) record {} hrecord hzeros⟩
    rw [hagain]
    rfl
  · exact hwrite {} (List.replicate 90 1) (by decide)

end Record

end TrafficMeter
