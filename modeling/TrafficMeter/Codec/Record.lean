import TrafficMeter.Json.Document
import TrafficMeter.Json.Printer
import TrafficMeter.Profile
import TrafficMeter.Record.Bytes
import TrafficMeter.Tally

/-!
# Records, profiles and tallies in JSON

The named fields under which records and tallies are written (`toJson`) and read (`ofJson?`), and under which
profiles are written.
-/

namespace TrafficMeter

/-- The 64-bit words in the fields `names` of `json`, all of which are required. -/
def Json.words? (names : List String) (json : Json) : Option (List UInt64) := do
  let fields ← Document.fields? names json
  fields.mapM fun field => field.bind Document.uint64?

namespace Record

/-- The names of the words of a record, in the order of `Record.words`. -/
def fieldNames : List String :=
  ["pir_period", "pir_unit_per_period", "cir_period", "cir_unit_per_period", "pbs", "cbs", "pbs_left",
    "cbs_left", "time_p", "time_c"]

/-- The JSON object of `record`, one member for each of `Record.fieldNames`. -/
def toJson (record : Record) : Json :=
  .ofMembers (fieldNames.zip (record.words.map Json.word))

/-- Reads a record. Its levels may exceed its capacities, which `Record.validate` is for. -/
def ofJson? (json : Json) : Option Record := do
  let words ← json.words? fieldNames
  ofWords? words

end Record

/-- The JSON object of `profile`. -/
def Profile.toJson (profile : Profile) : Json :=
  .ofMembers
    [("pir", .word profile.peak.rate), ("pbs", .word profile.peak.burst),
      ("cir", .word profile.committed.rate), ("cbs", .word profile.committed.burst)]

namespace Tally

/-- The names of the three counts. -/
def fieldNames : List String :=
  ["green", "yellow", "red"]

/-- The JSON object of `tally`. -/
def toJson (tally : Tally) : Json :=
  .ofMembers [("green", .word tally.green), ("yellow", .word tally.yellow), ("red", .word tally.red)]

/-- Reads a tally from the fields `Tally.fieldNames`. -/
def ofJson? (json : Json) : Option Tally := do
  match ← json.words? fieldNames with
  | [green, yellow, red] => return { green, yellow, red }
  | _ => none

end Tally

end TrafficMeter
