import TrafficMeter.Tool.Setting

/-!
# Reading the command line

Arguments are read one after the other at two levels, before and after the command (`Invocation.parse`). The
value of an option may stand in its own argument. Such a value is looked at only when the next option starts or
the level ends (`Pending`), so that an argument which is unknown altogether is found first.
-/

namespace TrafficMeter.Tool

/-- An option whose value stands in an argument of its own. -/
inductive Pending where
  /-- There is none. -/
  | nothing
  /-- The value of `setting` is still to come. -/
  | awaiting (setting : Setting)
  /-- The value `text` of `setting` has come and is still to be read. -/
  | given (setting : Setting) (text : String)
deriving DecidableEq, Repr

/-- How far a level has been read. -/
structure Reading where
  /-- The values that were read. -/
  settings : Settings := {}
  /-- The option that is still open. -/
  pending : Pending := .nothing
  /-- Two dashes have ended the options. -/
  ended : Bool := false
deriving DecidableEq, Repr

/-- The option `--name` at `level`. -/
def Level.findLong? (level : Level) (name : List Char) : Option Switch :=
  level.switches.find? fun switch => switch.longName.toList = name

/-- The option `-letter` at `level`. -/
def Level.findLetter? (level : Level) (letter : Char) : Option Switch :=
  level.switches.find? fun switch => switch.letter? = some letter

/-- The error for an argument that belongs to no option. Before the command it is taken for a command. -/
def Level.stray : Level → UsageError
  | .top => .unknownCommand
  | .command _ => .unknownArgument

/-- `word` stands for a command, or asks for help. -/
def isCommandWord (word : String) : Bool :=
  word = "help" || (CommandName.ofWord? word).isSome

/-- The error for `argument` after the end of the options. A command is no longer expected there. -/
def Level.strayAfterEnd (level : Level) (argument : String) : UsageError :=
  if isCommandWord argument then .unknownArgument else level.stray

namespace Reading

/-- Closes the open option of `reading`, and gives the values read so far. -/
def settle (reading : Reading) : Except UsageError Settings :=
  match reading.pending with
  | .nothing => .ok reading.settings
  | .awaiting _ => .error .missingValue
  | .given setting text => reading.settings.assign setting text

/-- Takes `flag`, after the open option was closed. -/
def takeFlag (reading : Reading) (flag : Flag) : Except UsageError Reading := do
  let settings ← reading.settle
  match flag with
  | .help => throw .help
  | .version => throw .version
  | .force =>
    if settings.force then throw .conflict
    return { settings := { settings with force := true } }

/-- Takes the option `setting`, whose value may stand in the same argument as `attached`. -/
def takeSetting (reading : Reading) (setting : Setting) (attached : Option String) :
    Except UsageError Reading := do
  let settings ← reading.settle
  match attached with
  | some text => return { settings := ← settings.assign setting text }
  | none => return { settings, pending := .awaiting setting }

/-- The text before and after the first equals sign, if there is one. -/
def splitEquals : List Char → List Char × Option (List Char)
  | [] => ([], none)
  | '=' :: rest => ([], some rest)
  | c :: rest =>
    let (before, after) := splitEquals rest
    (c :: before, after)

/-- Takes the argument `--text` at `level`. -/
def takeLong (level : Level) (reading : Reading) (text : List Char) : Except UsageError Reading :=
  let (name, attached) := splitEquals text
  match level.findLong? name, attached with
  | none, _ => .error .unknownArgument
  | some (.flag _), some _ => .error .unexpectedValue
  | some (.flag flag), none => reading.takeFlag flag
  | some (.setting setting), _ => reading.takeSetting setting (attached.map String.ofList)

/-- The value that stands after a letter, if any. An equals sign in between is skipped. -/
def afterLetter? : List Char → Option String
  | [] => none
  | '=' :: rest => some (String.ofList rest)
  | rest => some (String.ofList rest)

/-- Takes an argument at `level` that starts with a dash and `letter` and goes on with `rest`. -/
def takeLetter (level : Level) (reading : Reading) (letter : Char) (rest : List Char) :
    Except UsageError Reading :=
  match level.findLetter? letter with
  | none => .error .unknownArgument
  | some (.flag flag) => reading.takeFlag flag
  | some (.setting setting) => reading.takeSetting setting (afterLetter? rest)

/-- Takes `argument` at `level`. An argument without a dash is the value of the open option. -/
def take (level : Level) (reading : Reading) (argument : String) : Except UsageError Reading :=
  if reading.ended then .error (level.strayAfterEnd argument)
  else
    match argument.toList with
    | ['-', '-'] => .ok { reading with ended := true }
    | '-' :: '-' :: text => reading.takeLong level text
    | '-' :: letter :: rest => reading.takeLetter level letter rest
    | _ =>
      match reading.pending with
      | .awaiting setting => .ok { reading with pending := .given setting argument }
      | _ => .error level.stray

/-- The next argument after `reading` can be a command. -/
def expectsCommand (reading : Reading) : Bool :=
  !reading.ended &&
    match reading.pending with
    | .awaiting _ => false
    | _ => true

end Reading

/-- The answer to a request for help, which may name a command. -/
def helpOn : List String → UsageError
  | [] => .help
  | [word] => if isCommandWord word then .help else .unknownCommand
  | _ => .unknownCommand

/-- The invocation of `command` with the values given `before` and `after` it, of which the later ones win. -/
def Invocation.ofSettings (before after : Settings) (command : Command) : Invocation :=
  { pipeline := (after.pipeline.or before.pipeline).getD "pipeline.yaml"
    state := (after.state.or before.state).getD "meters.json"
    logLevel := (after.logLevel.or before.logLevel).getD "warn"
    command }

/-- Reads the `arguments` after the command `name`. Their faults come before those of an option that is open in
`before`. -/
def readCommand (before : Reading) (name : CommandName) (arguments : List String) :
    Except UsageError Invocation := do
  let reading ← arguments.foldlM (Reading.take (.command name)) {}
  let after ← reading.settle
  let command ← after.command name
  let before ← before.settle
  return .ofSettings before after command

/-- The error for a command line that ends without a command, after `reading`. -/
def withoutCommand (reading : Reading) : UsageError :=
  match reading.settle with
  | .error error => error
  | .ok settings => if settings = {} then .empty else .missingCommand

/-- `readArguments reading arguments` reads `arguments` from some point before the command. -/
def readArguments (reading : Reading) : List String → Except UsageError Invocation
  | [] => .error (withoutCommand reading)
  | argument :: rest =>
    if reading.expectsCommand && argument = "help" then .error (helpOn rest)
    else
      match (if reading.expectsCommand then CommandName.ofWord? argument else none) with
      | some name => readCommand reading name rest
      | none => do readArguments (← reading.take .top argument) rest

/-- The invocation that `arguments` stand for, or what is wrong with them. -/
def Invocation.parse (arguments : List String) : Except UsageError Invocation :=
  readArguments {} arguments

end TrafficMeter.Tool
