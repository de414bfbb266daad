import TrafficMeter.Pace
import TrafficMeter.Text.Blank

/-!
# Traffic profiles

A `Limit` is a rate with a burst, written `RATE:BURST` (`Limit.parse`, `Limit.format`), and a `Profile` is a
limit for each tier. A meter is configured with a profile (`Profile.toRecord`), and the profile of a meter can be
read off its record (`Profile.ofRecord`).
-/

namespace TrafficMeter

/-- A rate in units per second and the burst that may exceed it, in units. -/
structure Limit where
  /-- The long-term rate. -/
  rate : UInt64 := 0
  /-- The capacity of the bucket. -/
  burst : UInt64 := 0
deriving DecidableEq, Repr, Inhabited

/-- The two limits of a meter. -/
structure Profile where
  /-- The limit above which packets are red. -/
  peak : Limit := {}
  /-- The limit above which packets are no longer green. -/
  committed : Limit := {}
deriving DecidableEq, Repr, Inhabited

namespace Limit

/-- Why a text is no limit. -/
inductive ParseError where
  /-- There is no colon in `text`. -/
  | noColon (text : String)
  /-- The `text` before the colon is no rate. -/
  | badRate (text : String) (error : Text.NumberError)
  /-- The `text` after the colon is no burst. -/
  | badBurst (text : String) (error : Text.NumberError)
deriving DecidableEq, Repr

/-- The wording of a parse error. -/
def ParseError.message : ParseError → String
  | noColon text => s!"expected RATE:BURST, got '{text}'"
  | badRate text error => s!"invalid rate '{text}': {error.message}"
  | badBurst text error => s!"invalid burst '{text}': {error.message}"

/-- The texts before and after the first colon, which the second one may contain again. -/
def splitColon? : List Char → Option (List Char × List Char)
  | [] => none
  | ':' :: rest => some ([], rest)
  | c :: rest => (splitColon? rest).map fun parts => (c :: parts.1, parts.2)

/-- Reads `text` as a number of 64 bits with blanks around it. -/
def readPart (text : List Char) : Except Text.NumberError UInt64 :=
  (Text.readNumber UInt64.size (Text.trim text)).map UInt64.ofNat

/-- The limit that `text` stands for. The rate is read before the burst. -/
def parse (text : String) : Except ParseError Limit :=
  match splitColon? text.toList with
  | none => .error (.noColon text)
  | some (before, after) => do
    let rate ← (readPart before).mapError (.badRate (String.ofList before))
    let burst ← (readPart after).mapError (.badBurst (String.ofList after))
    return { rate, burst }

/-- The text `RATE:BURST` of `limit`. -/
def format (limit : Limit) : String :=
  s!"{limit.rate}:{limit.burst}"

/-- A full bucket that enforces `limit`, with stamp zero. An error of `Pace.ofRate` names `tier`. -/
def toBucket (timer : Timer) (tier : Tier) (limit : Limit) : Except Error Bucket := do
  let pace ← Pace.ofRate timer tier limit.rate
  return { period := pace.period, quantum := pace.quantum, capacity := limit.burst, level := limit.burst }

/-- The limit that `bucket` enforces, with its rate as `Pace.rate` reads it off. -/
def ofBucket (bucket : Bucket) : Limit :=
  { rate := bucket.pace.rate, burst := bucket.capacity }

end Limit

namespace Profile

/-- A fresh record that enforces `profile`. The peak limit is encoded first. -/
def toRecord (timer : Timer) (profile : Profile) : Except Error Record := do
  let peak ← profile.peak.toBucket timer .peak
  let committed ← profile.committed.toBucket timer .committed
  return { peak, committed }

/-- The profile that `record` enforces. -/
def ofRecord (record : Record) : Profile :=
  { peak := Limit.ofBucket record.peak, committed := Limit.ofBucket record.committed }

/-- The text of `profile`, its two limits with a space between them. -/
def format (profile : Profile) : String :=
  s!"{profile.peak.format} {profile.committed.format}"

end Profile

end TrafficMeter
