import TrafficMeter.Tool.CommandLine
import TrafficMeter.Tool.Session

/-!
# Running the tool

One invocation opens a session from its files (`sessionFor`), carries out one command and saves the session
(`saveSession`) if the command may have changed it. `run` does all of this.
-/

namespace TrafficMeter.Tool

variable {m : Type → Type} [Monad m] [Host m]

/-- A session on the unconfigured pipeline of the description file `pipeline`. If there is something at `state`,
it is not given up without `force`. -/
def createSession (pipeline state : String) (force : Bool) : m (Except Failure Session) := do
  if (← Host.exists? state) && !force then
    return .error (.rule s!"State file {state} already exists (use --force to overwrite)")
  match ← loadDescription pipeline with
  | .error failure => return .error failure
  | .ok description => return Session.start description (← Host.timer)

/-- A session on the pipeline of the description file `pipeline` that goes on from the state file `state`. -/
def openSession (pipeline state : String) : m (Except Failure Session) := do
  match ← loadDescription pipeline with
  | .error failure => return .error failure
  | .ok description =>
    match Pipeline.ofDescription description with
    | .error error => return .error (Failure.ofError error)
    | .ok built =>
      match ← StateFile.load state with
      | .error failure => return .error failure
      | .ok saved =>
        let wallTime ← Host.wallTime
        let timer ← Host.timer
        return Session.resume state built saved wallTime timer

/-- Saves `session` in the state file `state`, at the readings of both clocks. -/
def saveSession (state : String) (session : Session) : m (Except Failure Unit) := do
  let timer ← Host.timer
  let wallTime ← Host.wallTime
  StateFile.save state (session.toState timer wallTime)

/-- The session that the command of `invocation` works on: a new one for `init`, and the saved one for all
others. -/
def sessionFor (invocation : Invocation) : m (Except Failure Session) :=
  match invocation.command with
  | .init force => createSession invocation.pipeline invocation.state force
  | _ => openSession invocation.pipeline invocation.state

/-- Runs `invocation`. The result is the text to print. The session is saved if the command succeeded and
`isMutating`. -/
def run (invocation : Invocation) : m (Except Failure String) := do
  match ← sessionFor invocation with
  | .error failure => return .error failure
  | .ok session =>
    match session.execute (← Host.timer) invocation.command with
    | (.error failure, _) => return .error failure
    | (.ok output, after) =>
      if invocation.command.isMutating then
        match ← saveSession invocation.state after with
        | .error failure => return .error failure
        | .ok () => return .ok output
      else return .ok output

/-- What a finished process leaves. -/
structure Outcome where
  /-- The exit code. -/
  exit : UInt32 := 0
  /-- The text on the standard output. -/
  output : String := ""
  /-- The text on the standard error. -/
  errors : String := ""
deriving DecidableEq, Repr

/-- A short description of the command line. -/
def usage : String :=
  "Usage: meterctl [-p PIPELINE] [-s STATE] [-l LOG_LEVEL] COMMAND [OPTIONS]\n\nCommands: " ++
    String.intercalate ", " (CommandName.all.map CommandName.word ++ ["help"]) ++ "\n"

namespace UsageError

/-- The wording of a usage error. -/
def message : UsageError → String
  | help => "help"
  | version => "version"
  | empty => "a command is required"
  | missingCommand => "a command is required"
  | unknownCommand => "unknown command"
  | unknownArgument => "unexpected argument"
  | missingValue => "an option lacks its value"
  | unreadableValue => "invalid value"
  | unexpectedValue => "an option takes no value"
  | conflict => "options cannot be used together or repeated"
  | missingOption => "a required option is absent"

/-- How the process ends if the arguments give no invocation. -/
def outcome : UsageError → Outcome
  | help => { output := usage }
  | version => { output := "meterctl 0.1.0\n" }
  | error => { exit := 2, errors := "error: " ++ error.message ++ "\n\n" ++ usage }

end UsageError

/-- How the process ends with the result of an invocation. -/
def Outcome.ofResult : Except Failure String → Outcome
  | .ok output => { output := if output.isEmpty then "" else output ++ "\n" }
  | .error failure => { exit := 1, errors := "Error: " ++ failure.message ++ "\n" }

/-- The whole process, from `arguments` to its end. -/
def process (arguments : List String) : m Outcome := do
  match Invocation.parse arguments with
  | .error error => return error.outcome
  | .ok invocation => return Outcome.ofResult (← run invocation)

end TrafficMeter.Tool
