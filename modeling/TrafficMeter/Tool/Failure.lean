import TrafficMeter.Error
import TrafficMeter.Tool.Host

/-!
# Failures of the tool

A `Failure` has a cause, and the tool says in front of it what it was doing.
-/

namespace TrafficMeter.Tool

/-- The cause of a failure. -/
inductive Cause where
  /-- A meter, table or pipeline refused an operation. -/
  | meter (error : Error)
  /-- A text is no byte string. -/
  | hex (error : Hex.Error)
  /-- A file could not be read or written. -/
  | file (error : FileError)
  /-- A text is not the JSON that was expected. -/
  | json
  /-- A text is not the YAML that was expected. -/
  | yaml
  /-- A rule of the tool itself. -/
  | rule (message : String)
deriving DecidableEq, Repr

/-- A failure of the tool. -/
structure Failure where
  /-- What the tool was doing, outermost first. -/
  context : List String := []
  /-- What went wrong. -/
  cause : Cause
deriving DecidableEq, Repr

namespace Failure

/-- What a cause says. A text of the wrong form says nothing beyond its context. -/
def causeText : Cause → List String
  | .meter error => [error.message]
  | .hex error => [error.message]
  | .file error => [error.message]
  | .json => []
  | .yaml => []
  | .rule message => [message]

/-- The wording of `failure`, from the outermost context to the cause, with colons in between. -/
def message (failure : Failure) : String :=
  String.intercalate ": " (failure.context ++ causeText failure.cause)

/-- The failure of an operation on meters with `error`. -/
def ofError (error : Error) : Failure :=
  { cause := .meter error }

/-- A failure by `cause` while the tool was doing `context`. -/
def of (context : String) (cause : Cause) : Failure :=
  { context := [context], cause }

/-- A failure by a rule of the tool, which `message` states. -/
def rule (message : String) : Failure :=
  { cause := .rule message }

end Failure

end TrafficMeter.Tool
