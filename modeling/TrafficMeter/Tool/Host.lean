/-!
# The machine a tool runs on

Files and clocks are reached through the few operations of the class `Host`. A tool that is written over them
runs on a real machine as well as on one that is only described.
-/

namespace TrafficMeter.Tool

/-- Why a file could not be read or written. -/
inductive FileError where
  /-- There is no such file. -/
  | notFound
  /-- A part of the path is a file and no folder. -/
  | notAFolder
  /-- The path leads to a folder. -/
  | isAFolder
  /-- The path leads to a folder that is in use. -/
  | busy
  /-- A name in the path or the whole path is too long. -/
  | nameTooLong
  /-- The path contains the character of number zero. -/
  | nulCharacter
  /-- Any other reason. -/
  | other (message : String)
deriving DecidableEq, Repr

/-- The wording of a file error. -/
def FileError.message : FileError → String
  | notFound => "No such file or directory (os error 2)"
  | notAFolder => "Not a directory (os error 20)"
  | isAFolder => "Is a directory (os error 21)"
  | busy => "Device or resource busy (os error 16)"
  | nameTooLong => "File name too long (os error 36)"
  | nulCharacter => "file name contained an unexpected NUL byte"
  | other message => message

/-- What a tool asks of the machine it runs on, where `m` is the monad of its actions. -/
class Host (m : Type → Type) where
  /-- The text of a file. -/
  readFile : String → m (Except FileError String)
  /-- There is a file or folder at the path. -/
  exists? : String → m Bool
  /-- Creates a file with a text, or replaces its text. -/
  writeFile : String → String → m (Except FileError Unit)
  /-- Moves a file to another path, replacing a file that was there. -/
  renameFile : String → String → m (Except FileError Unit)
  /-- The nanoseconds since some moment in the past, never decreasing. -/
  timer : m Nat
  /-- The nanoseconds of the wall clock. -/
  wallTime : m UInt64

end TrafficMeter.Tool
