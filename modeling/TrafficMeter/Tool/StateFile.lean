import TrafficMeter.Codec.Description
import TrafficMeter.Codec.Snapshot
import TrafficMeter.Json.Printer
import TrafficMeter.Tool.Failure
import TrafficMeter.Tool.Path
import TrafficMeter.Yaml.Document

/-!
# Files of the tool

A pipeline is described in one file and its changing part is kept in another, the state file (`StateFile`). A
state file is replaced as a whole (`StateFile.save`): the new text is first written to a file beside it, which
then takes its place.
-/

namespace TrafficMeter.Tool

/-- What is kept between two invocations. -/
structure StateFile where
  /-- The reading of the packet clock when the file was written. -/
  clock : UInt64
  /-- The wall-clock time when the file was written. -/
  savedAt : UInt64
  /-- The changing part of the pipeline. -/
  snapshot : Snapshot
deriving DecidableEq

namespace StateFile

/-- The JSON object of `state`. -/
def toJson (state : StateFile) : Json :=
  .ofMembers
    [("clock_ns", .word state.clock), ("saved_at_unix_ns", .word state.savedAt),
      ("pipeline", state.snapshot.toJson)]

/-- Reads a state file from `json`. No field may be missing. -/
def ofJson? (json : Json) : Option StateFile := do
  match ← Document.fields? ["clock_ns", "saved_at_unix_ns", "pipeline"] json with
  | [clock, savedAt, snapshot] =>
    return {
      clock := ← clock.bind Document.uint64?
      savedAt := ← savedAt.bind Document.uint64?
      snapshot := ← snapshot.bind Snapshot.ofJson? }
  | _ => none

/-- The text of `state`, as it is written to a file. -/
def format (state : StateFile) : String :=
  state.toJson.render .pretty

/-- The state that `text` stands for. -/
def parse? (text : String) : Option StateFile :=
  (Json.parse? text).bind ofJson?

end StateFile

/-- The description that `text` stands for, in the file at `path`. The extension of `path` decides on the
notation. -/
def parseDescription (path text : String) : Except Failure Description := do
  let description ←
    if Path.isJson path then
      match (Json.parse? text).bind Description.ofDocument? with
      | some description => .ok description
      | none => .error (Failure.of s!"Invalid JSON in {path}" .json)
    else
      match (Yaml.Value.parse? text).bind Description.ofDocument? with
      | some description => .ok description
      | none => .error (Failure.of s!"Invalid YAML in {path}" .yaml)
  match description.validate with
  | .ok () => return description
  | .error error => throw (Failure.of s!"Invalid pipeline description {path}" (.meter error))

section Host

variable {m : Type → Type} [Monad m] [Host m]

/-- The description in the file at `path`. -/
def loadDescription (path : String) : m (Except Failure Description) := do
  match ← Host.readFile path with
  | .ok text => return parseDescription path text
  | .error error =>
    return .error (Failure.of s!"Failed to read pipeline description {path}" (.file error))

/-- The state in the file at `path`. -/
def StateFile.load (path : String) : m (Except Failure StateFile) := do
  match ← Host.readFile path with
  | .ok text =>
    match parse? text with
    | some state => return .ok state
    | none => return .error (Failure.of s!"Corrupt state file {path}" .json)
  | .error error =>
    return .error
      (Failure.of s!"Failed to read state file {path} (run `meterctl init` first)" (.file error))

/-- Replaces the file at `path` by one with the text of `state`, which is first written to `Path.temporary path`.
When the second step fails the prepared file is left behind. -/
def StateFile.save (path : String) (state : StateFile) : m (Except Failure Unit) := do
  let temporary := Path.temporary path
  match ← Host.writeFile temporary state.format with
  | .error error => return .error (Failure.of s!"Failed to write {temporary}" (.file error))
  | .ok () =>
    match ← Host.renameFile temporary path with
    | .error error => return .error (Failure.of s!"Failed to replace state file {path}" (.file error))
    | .ok () => return .ok ()

end Host

end TrafficMeter.Tool
