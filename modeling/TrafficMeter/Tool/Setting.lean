import TrafficMeter.Text.Decimal
import TrafficMeter.Tool.Command

/-!
# Options of the command line

The options that each command knows (`Switch`), and the values that were given for them (`Settings`).
-/

namespace TrafficMeter.Tool

/-- Why a command line gives no invocation. -/
inductive UsageError where
  /-- The help text was asked for. -/
  | help
  /-- The version was asked for. -/
  | version
  /-- There is nothing on the command line. -/
  | empty
  /-- There are options but no command. -/
  | missingCommand
  /-- There is no such command. -/
  | unknownCommand
  /-- There is no such option, or an argument that belongs to none. -/
  | unknownArgument
  /-- An option lacks its value, or a path is empty. -/
  | missingValue
  /-- A value cannot be read. -/
  | unreadableValue
  /-- A flag is given a value. -/
  | unexpectedValue
  /-- An option is repeated, or excluded by another one. -/
  | conflict
  /-- A required option is absent. -/
  | missingOption
deriving DecidableEq, Repr

/-- An option without a value. -/
inductive Flag where
  | help
  | version
  | force
deriving DecidableEq, Repr

/-- An option with a value. -/
inductive Setting where
  | pipeline
  | state
  | logLevel
  | meter
  | index
  | key
  | slot
  | peak
  | committed
  | length
  | time
  | color
  | table
  | value
deriving DecidableEq, Repr

/-- An option. -/
inductive Switch where
  /-- One without a value. -/
  | flag (flag : Flag)
  /-- One with a value. -/
  | setting (setting : Setting)
deriving DecidableEq, Repr

namespace Switch

/-- The name of an option after two dashes. -/
def longName : Switch → String
  | flag .help => "help"
  | flag .version => "version"
  | flag .force => "force"
  | setting .pipeline => "pipeline"
  | setting .state => "state"
  | setting .logLevel => "log-level"
  | setting .meter => "meter"
  | setting .index => "index"
  | setting .key => "key"
  | setting .slot => "slot"
  | setting .peak => "peak"
  | setting .committed => "committed"
  | setting .length => "len"
  | setting .time => "at"
  | setting .color => "color"
  | setting .table => "table"
  | setting .value => "value"

/-- The letter of an option after one dash, if it has one. -/
def letter? : Switch → Option Char
  | flag .help => some 'h'
  | flag .version => some 'V'
  | setting .pipeline => some 'p'
  | setting .state => some 's'
  | setting .logLevel => some 'l'
  | setting .meter => some 'm'
  | setting .index => some 'i'
  | setting .key => some 'k'
  | setting .table => some 't'
  | _ => none

end Switch

/-- The name of a command. -/
inductive CommandName where
  | init
  | update
  | get
  | reset
  | execute
  | entryUpdate
  | entryGet
  | entryDelete
  | stats
deriving DecidableEq, Repr

namespace CommandName

/-- The word for a command on the command line. -/
def word : CommandName → String
  | init => "init"
  | update => "update"
  | get => "get"
  | reset => "reset"
  | execute => "execute"
  | entryUpdate => "entry-update"
  | entryGet => "entry-get"
  | entryDelete => "entry-delete"
  | stats => "stats"

/-- All commands. -/
def all : List CommandName :=
  [init, update, get, reset, execute, entryUpdate, entryGet, entryDelete, stats]

/-- The command that `word` stands for. -/
def ofWord? (word : String) : Option CommandName :=
  all.find? fun name => name.word = word

/-- The options that only one command knows. -/
def ownSwitches : CommandName → List Switch
  | init => [.flag .force]
  | update => target ++ [.setting .peak, .setting .committed]
  | get => target
  | reset => target
  | execute => target ++ [.setting .length, .setting .time, .setting .color]
  | entryUpdate => entry ++ [.setting .value]
  | entryGet => entry
  | entryDelete => entry
  | stats => []
where
  /-- The options that address a meter. -/
  target : List Switch := [.setting .meter, .setting .index, .setting .key, .setting .slot]
  /-- The options that address a table entry. -/
  entry : List Switch := [.setting .table, .setting .key]

end CommandName

/-- The options that are known before and after the command. -/
def sharedSwitches : List Switch :=
  [.setting .pipeline, .setting .state, .setting .logLevel, .flag .help]

/-- A part of the command line: what stands before the command, or what stands after it. -/
inductive Level where
  /-- Before the command. -/
  | top
  /-- After the command `name`. -/
  | command (name : CommandName)
deriving DecidableEq, Repr

/-- The options that are known at a level. -/
def Level.switches : Level → List Switch
  | top => .flag .version :: sharedSwitches
  | command name => name.ownSwitches ++ sharedSwitches

/-- The values that were given at one level. -/
structure Settings where
  pipeline : Option String := none
  state : Option String := none
  logLevel : Option String := none
  force : Bool := false
  meter : Option String := none
  index : Option UInt32 := none
  key : Option String := none
  slot : Option Nat := none
  peak : Option Limit := none
  committed : Option Limit := none
  length : Option UInt32 := none
  time : Option UInt64 := none
  color : Option Color := none
  table : Option String := none
  value : Option String := none
deriving DecidableEq, Repr

namespace Settings

/-- `put value`, where `value` may be given once. That it was given before, as `current`, is found before it is
read. -/
def once {α : Type} (current : Option α) (value : Except UsageError α) (put : α → Settings) :
    Except UsageError Settings :=
  if current.isSome then .error .conflict else value.map put

/-- `text` as a path, which must not be empty. -/
def readPath (text : String) : Except UsageError String :=
  if text.isEmpty then .error .missingValue else .ok text

/-- A value that was read, or the error that it could not be read. -/
def readable {α : Type} : Option α → Except UsageError α
  | some value => .ok value
  | none => .error .unreadableValue

/-- The number below `limit` that `text` stands for. -/
def readBelow (limit : Nat) (text : List Char) : Except UsageError Nat :=
  readable (Text.readNumber limit text).toOption

/-- The number of 32 bits that `text` stands for. Zero may have a minus sign. -/
def readShort (text : String) : Except UsageError UInt32 :=
  match text.toList with
  | '-' :: digits =>
    if digits ≠ [] ∧ digits.all (· = '0') then .ok 0 else .error .unreadableValue
  | digits => (readBelow UInt32.size digits).map UInt32.ofNat

/-- `settings` with the value `text` of `setting`, which must not have been given before. -/
def assign (settings : Settings) (setting : Setting) (text : String) : Except UsageError Settings :=
  match setting with
  | .pipeline => once settings.pipeline (readPath text) fun v => { settings with pipeline := some v }
  | .state => once settings.state (readPath text) fun v => { settings with state := some v }
  | .logLevel => once settings.logLevel (.ok text) fun v => { settings with logLevel := some v }
  | .meter => once settings.meter (.ok text) fun v => { settings with meter := some v }
  | .index => once settings.index (readShort text) fun v => { settings with index := some v }
  | .key => once settings.key (.ok text) fun v => { settings with key := some v }
  | .slot => once settings.slot (readBelow UInt64.size text.toList) fun v => { settings with slot := some v }
  | .peak =>
    once settings.peak (readable (Limit.parse text).toOption) fun v => { settings with peak := some v }
  | .committed =>
    once settings.committed (readable (Limit.parse text).toOption) fun v =>
      { settings with committed := some v }
  | .length => once settings.length (readShort text) fun v => { settings with length := some v }
  | .time =>
    once settings.time ((readBelow UInt64.size text.toList).map UInt64.ofNat) fun v =>
      { settings with time := some v }
  | .color => once settings.color (readable (Color.ofName? text)) fun v => { settings with color := some v }
  | .table => once settings.table (.ok text) fun v => { settings with table := some v }
  | .value => once settings.value (.ok text) fun v => { settings with value := some v }

/-- A value that must be given, or the error that it was not. -/
def required {α : Type} : Option α → Except UsageError α
  | some value => .ok value
  | none => .error .missingOption

/-- The meter that `settings` address. An index excludes a key, and a slot needs a key unless there is an index.
-/
def target (settings : Settings) : Except UsageError MeterTarget := do
  if settings.index.isSome ∧ settings.key.isSome then throw .conflict
  let meter ← required settings.meter
  if settings.slot.isSome ∧ settings.key.isNone ∧ settings.index.isNone then throw .missingOption
  return { meter, index := settings.index, key := settings.key, slot := settings.slot }

/-- The table entry that `settings` address. -/
def entry (settings : Settings) : Except UsageError EntryTarget := do
  return { table := ← required settings.table, key := ← required settings.key }

/-- The command of a name with its arguments from `settings`. -/
def command (settings : Settings) : CommandName → Except UsageError Command
  | .init => return .init settings.force
  | .update => do
    let target ← settings.target
    let peak ← required settings.peak
    let committed ← required settings.committed
    return .update target { peak, committed }
  | .get => return .get (← settings.target)
  | .reset => return .reset (← settings.target)
  | .execute => do
    let target ← settings.target
    let length ← required settings.length
    return .execute target length settings.time settings.color
  | .entryUpdate => do
    let entry ← settings.entry
    return .entryUpdate entry (← required settings.value)
  | .entryGet => return .entryGet (← settings.entry)
  | .entryDelete => return .entryDelete (← settings.entry)
  | .stats => return .stats

end Settings

end TrafficMeter.Tool
