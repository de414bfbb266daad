import TrafficMeter.Tool.Host
import TrafficMeter.Tool.Path

/-!
# File trees

All files and folders of a machine, as a value (`FileTree`). Together with readings of the two clocks it is a
`Machine` that a tool can run on.
-/

namespace TrafficMeter.Tool

/-- What is stored at one place, where files hold a `Content`. -/
inductive FileNode (Content : Type) where
  /-- A file that holds `content`. -/
  | file (content : Content)
  /-- A folder. -/
  | folder
deriving DecidableEq, Repr

/-- The names from the root down to a file or folder. -/
abbrev Location := List String

/-- A tree of files and folders, each at its location. -/
structure FileTree where
  /-- What is at each location. Of two entries for a location the first one counts. -/
  nodes : List (Location × FileNode String) := []
  /-- The folder that relative paths start from. It and all folders above it are there. -/
  here : Location := []
deriving DecidableEq, Repr

namespace FileTree

/-- What is at `location`, if anything. Where relative paths start from and above there are folders. -/
def node? (tree : FileTree) (location : Location) : Option (FileNode String) :=
  if location <+: tree.here then some .folder else tree.nodes.lookup location

/-- `tree` with `node` at `location`, whatever was there. -/
def put (tree : FileTree) (location : Location) (node : FileNode String) : FileTree :=
  { tree with nodes := (location, node) :: tree.nodes.filter fun entry => entry.1 ≠ location }

/-- `tree` without what is at `location`. -/
def remove (tree : FileTree) (location : Location) : FileTree :=
  { tree with nodes := tree.nodes.filter fun entry => entry.1 ≠ location }

/-- Follows the segments of a path from `location`. Whatever is passed through must be a folder, and names must
not be too long for the folder in which they are looked up. Above the root there is only the root. -/
def follow (tree : FileTree) (location : Location) : List String → Except FileError Location
  | [] => .ok location
  | segment :: rest =>
    match tree.node? location with
    | none => .error .notFound
    | some (.file _) => .error .notAFolder
    | some .folder =>
      if Path.isIdle segment then tree.follow location rest
      else if segment = ".." then tree.follow location.dropLast rest
      else if Path.maxNameLength < segment.utf8ByteSize then .error .nameTooLong
      else tree.follow (location ++ [segment]) rest

/-- Follows `segments` of `path` from the root or from `tree.here`, after `path` as a whole was checked. -/
def walk (tree : FileTree) (path : String) (segments : List String) : Except FileError Location :=
  if path.contains '\x00' then .error .nulCharacter
  else if path.isEmpty then .error .notFound
  else if Path.maxLength < path.utf8ByteSize then .error .nameTooLong
  else tree.follow (if path.startsWith "/" then [] else tree.here) segments

/-- The location that `path` leads to, whether or not anything is there. -/
def locate (tree : FileTree) (path : String) : Except FileError Location :=
  tree.walk path (Path.segments path)

/-- The location at which `path` names a file. The way there is followed even if `path` cannot name a file,
because it ends in dots or in a slash. -/
def locateFile (tree : FileTree) (path : String) : Except FileError Location := do
  let location ← tree.walk path (Path.trimEmpty (Path.segments path))
  if Path.endsInNoName path then throw .busy
  if path.endsWith "/" then throw .notAFolder
  return location

/-- The text of the file at `path`. -/
def readFile (tree : FileTree) (path : String) : Except FileError String := do
  let location ← tree.locate path
  match tree.node? location with
  | some (.file text) => return text
  | some .folder => throw .isAFolder
  | none => throw .notFound

/-- There is a file or folder at `path`. -/
def contains (tree : FileTree) (path : String) : Bool :=
  match tree.locate path with
  | .ok location => (tree.node? location).isSome
  | .error _ => false

/-- `tree` with a file at `path` that has `text`, unless there is a folder. -/
def writeFile (tree : FileTree) (path text : String) : Except FileError FileTree := do
  let location ← tree.locate path
  match tree.node? location with
  | some .folder => throw .isAFolder
  | _ => return tree.put location (.file text)

/-- `tree` with the file at `source` moved to `target`, unless there is a folder at `target`. -/
def renameFile (tree : FileTree) (source target : String) : Except FileError FileTree := do
  let text ← tree.readFile source
  let start ← tree.locate source
  let location ← tree.locateFile target
  match tree.node? location with
  | some .folder => throw .isAFolder
  | _ => return (tree.remove start).put location (.file text)

end FileTree

/-- A machine with a file tree and two clocks. The readings of both clocks are fixed in advance, one for each
time that a clock is asked. -/
structure Machine where
  /-- The files and folders. -/
  files : FileTree := {}
  /-- The readings of the monotonic timer, where `timerAt n` is read after `n` questions to the clocks. -/
  timerAt : Nat → Nat
  /-- The readings of the wall clock, where `wallTimeAt n` is read after `n` questions to the clocks. -/
  wallTimeAt : Nat → UInt64
  /-- How often a clock was asked. -/
  asked : Nat := 0

namespace Machine

/-- Puts a changed file tree in place, or leaves `machine` as it is after an error. -/
def change (machine : Machine) : Except FileError FileTree → Except FileError Unit × Machine
  | .ok files => (.ok (), { machine with files })
  | .error error => (.error error, machine)

instance : Host (StateM Machine) where
  readFile path := fun machine => (machine.files.readFile path, machine)
  exists? path := fun machine => (machine.files.contains path, machine)
  writeFile path text := fun machine => machine.change (machine.files.writeFile path text)
  renameFile source target := fun machine => machine.change (machine.files.renameFile source target)
  timer := fun machine => (machine.timerAt machine.asked, { machine with asked := machine.asked + 1 })
  wallTime := fun machine =>
    (machine.wallTimeAt machine.asked, { machine with asked := machine.asked + 1 })

end Machine

end TrafficMeter.Tool
