/-!
# File paths

Paths are texts of segments with slashes between them (`Path.segments`). Empty segments and single dots are of no
meaning after the first segment (`Path.isIdle`). `Path.temporary` is the path at which a file is prepared.
-/

namespace TrafficMeter.Tool.Path

/-- Cuts a text at every slash, so that there is one part more than there are slashes. -/
def splitSlash : List Char → List (List Char)
  | [] => [[]]
  | '/' :: rest => [] :: splitSlash rest
  | c :: rest =>
    match splitSlash rest with
    | [] => [[c]]
    | segment :: segments => (c :: segment) :: segments

/-- The segments of `path`, empty ones included. -/
def segments (path : String) : List String :=
  (splitSlash path.toList).map String.ofList

/-- `segment` is empty or a single dot and names nothing. -/
def isIdle (segment : String) : Bool :=
  segment == "" || segment == "."

/-- The segments without idle ones at the end, but with the first one in any case. -/
def trimIdle : List String → List String
  | [] => []
  | first :: rest => first :: (rest.reverse.dropWhile isIdle).reverse

/-- The name of the file that `path` leads to, unless its last segment that is not idle goes up. -/
def fileName? (path : String) : Option String :=
  (trimIdle (segments path)).getLast?.filter fun name => !isIdle name && name != ".."

/-- `segments` without empty ones at the end. -/
def trimEmpty (segments : List String) : List String :=
  (segments.reverse.dropWhile (· == "")).reverse

/-- `path` does not end in a name, but in one or two dots or at the root. -/
def endsInNoName (path : String) : Bool :=
  match (trimEmpty (segments path)).getLast? with
  | none => true
  | some segment => segment == "." || segment == ".."

/-- The greatest number of bytes of a name. -/
def maxNameLength : Nat := 255

/-- The greatest number of bytes of a path. -/
def maxLength : Nat := 4095

/-- The letters after the last dot of `name`, unless `name` starts with that dot. -/
def extensionOf? (name : String) : Option String :=
  let (reversed, before) := name.toList.reverse.span (· ≠ '.')
  match before with
  | _ :: _ :: _ => some (String.ofList reversed.reverse)
  | _ => none

/-- The file at `path` has the extension `json` in any case of letters. -/
def isJson (path : String) : Bool :=
  ((fileName? path).bind extensionOf?).any fun extension =>
    extension.toList.map Char.toLower == "json".toList

/-- The path to `name` in the folder that the segments `folder` lead to. -/
def joinName (folder : List String) (name : String) : String :=
  String.intercalate "/" (folder ++ [name])

/-- The path of the file in which the one at `path` is prepared before it takes its place: beside it, with `.tmp`
after its name. -/
def temporary (path : String) : String :=
  match fileName? path with
  | some name => joinName (trimIdle (trimIdle (segments path)).dropLast) (name ++ ".tmp")
  | none =>
    if path.isEmpty || path.endsWith "/" then path ++ ".tmp" else path ++ "/.tmp"

end TrafficMeter.Tool.Path
