import Std.Time.DateTime.Timestamp
import TrafficMeter.Tool.Run

/-!
# The command line tool

The tool on a real machine.
-/

namespace TrafficMeter

open Tool

/-- The file error of the error number `code` of the machine, which may be negated. -/
def fileErrorOfCode? (code : UInt32) : Option FileError :=
  if code = 20 ∨ code = 0 - 20 then some .notAFolder
  else if code = 21 ∨ code = 0 - 21 then some .isAFolder
  else if code = 36 ∨ code = 0 - 36 then some .nameTooLong
  else none

/-- The file error that stands for an error of the machine. -/
def fileErrorOf : IO.Error → FileError
  | .noFileOrDirectory .. => .notFound
  | .resourceBusy .. => .busy
  | .inappropriateType file code details =>
    (fileErrorOfCode? code).getD (.other (IO.Error.inappropriateType file code details).toString)
  | .invalidArgument file code details =>
    (fileErrorOfCode? code).getD (.other (IO.Error.invalidArgument file code details).toString)
  | error => .other error.toString

/-- Runs `action` with its error as a value. -/
def attempt {α : Type} (action : IO α) : IO (Except FileError α) := do
  try
    return .ok (← action)
  catch error =>
    return .error (fileErrorOf error)

instance : Host IO where
  readFile path := attempt (IO.FS.readFile path)
  exists? path := do
    match ← attempt (IO.FS.Handle.mk path .read) with
    | .error .notFound => return false
    | .error .notAFolder => return false
    | .error .nameTooLong => return false
    | _ => return true
  writeFile path text := attempt (IO.FS.writeFile path text)
  renameFile source target := attempt (IO.FS.rename source target)
  timer := IO.monoNanosNow
  wallTime := do
    let now ← Std.Time.Timestamp.now
    return UInt64.ofNat now.toNanosecondsSinceUnixEpoch.val.toNat

end TrafficMeter

/-- Runs the tool with the `arguments` of the command line. -/
def main (arguments : List String) : IO UInt32 := do
  let outcome ← TrafficMeter.Tool.process arguments
  IO.print outcome.output
  IO.eprint outcome.errors
  return outcome.exit
