import TrafficMeter.Record.Basic

/-!
# Raw meter records

A record is stored as eleven 64-bit words. The first ten are its fields, the two buckets interleaved
(`Record.words`), and the last is room for a lock that is zero in every written record and ignored in every read
one. `Record.ofBytes` checks what `Record.decode` reads.
-/

namespace TrafficMeter.Record

/-- The length of a raw record in bytes: eleven words of eight. -/
def byteLength : Nat := 88

/-- The ten fields of `record` in the order in which they are stored. -/
def words (record : Record) : List UInt64 :=
  [record.peak.period, record.peak.quantum, record.committed.period, record.committed.quantum,
    record.peak.capacity, record.committed.capacity, record.peak.level, record.committed.level,
    record.peak.stamp, record.committed.stamp]

/-- The record with the given ten fields, so that `ofWords? record.words = some record`. -/
def ofWords? : List UInt64 → Option Record
  | [peakPeriod, peakQuantum, committedPeriod, committedQuantum, peakCapacity, committedCapacity,
      peakLevel, committedLevel, peakStamp, committedStamp] =>
    some
      { peak := ⟨peakPeriod, peakQuantum, peakCapacity, peakLevel, peakStamp⟩
        committed :=
          ⟨committedPeriod, committedQuantum, committedCapacity, committedLevel, committedStamp⟩ }
  | _ => none

/-- The raw form of `record`: its `words` and a zero word, each least significant byte first. -/
def toBytes (record : Record) : Bytes :=
  (record.words ++ [0]).flatMap Bytes.ofUInt64

/-- The record in the first eighty bytes of `bytes`, whatever its levels. -/
def decode (bytes : Bytes) : Record :=
  let word := fun index => bytes.uint64At (8 * index)
  { peak := ⟨word 0, word 1, word 4, word 6, word 8⟩
    committed := ⟨word 2, word 3, word 5, word 7, word 9⟩ }

/-- Reads the raw record `bytes`. Its length is checked first, then the levels. -/
def ofBytes (bytes : Bytes) : Except Error Record := do
  if bytes.length ≠ byteLength then
    throw (.invalidLength .record byteLength bytes.length)
  let record := decode bytes
  record.validate
  return record

/-- `buffer` with the raw form of `record` over its start, and the rest of it kept. A buffer of fewer than
`byteLength` bytes has no place for a record. -/
def writeTo? (record : Record) (buffer : Bytes) : Option Bytes :=
  if buffer.length < byteLength then none
  else some (record.toBytes ++ buffer.drop byteLength)

@[simp]
theorem ofWords?_words (record : Record) : ofWords? record.words = some record := rfl

@[simp]
theorem length_toBytes (record : Record) : record.toBytes.length = byteLength := by
  simp [toBytes, words, Bytes.ofUInt64, byteLength]

end TrafficMeter.Record
