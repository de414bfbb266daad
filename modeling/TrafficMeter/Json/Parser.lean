import TrafficMeter.Json.Token

/-!
# Reading JSON

Tokens are put together by a machine (`Build`) that keeps a stack of the arrays and objects that are still open.
`Json.parse?` is the whole way from a text to its value.
-/

namespace TrafficMeter.Json

/-- An array or object that is still open. What it holds so far is kept last one first. -/
inductive Frame where
  /-- An array. -/
  | array (items : List Json)
  /-- An object. -/
  | object (members : List (Literal × Json))
  /-- An object of which the key of the next member was read. -/
  | member (members : List (Literal × Json)) (key : Literal)
deriving Repr

/-- What must come next. -/
inductive Expect where
  /-- A value. -/
  | value
  /-- A value or the end of an empty array. -/
  | valueOrEnd
  /-- A key. -/
  | key
  /-- A key or the end of an empty object. -/
  | keyOrEnd
  /-- The colon after a key. -/
  | colon
  /-- A comma or the end of the innermost array or object. -/
  | separator
  /-- Nothing: the text stands for this value. -/
  | nothing (result : Json)
deriving Repr

/-- The state of the machine. -/
structure Build where
  /-- The open arrays and objects, innermost first. -/
  stack : List Frame := []
  /-- What must come next. -/
  expect : Expect := .value
deriving Repr

namespace Build

/-- Adds the complete `value` to the innermost frame of `stack`, or ends with it if nothing is open. -/
def push (stack : List Frame) (value : Json) : Option Build :=
  match stack with
  | [] => some { expect := .nothing value }
  | .array items :: outer => some { stack := .array (value :: items) :: outer, expect := .separator }
  | .member members key :: outer =>
    some { stack := .object ((key, value) :: members) :: outer, expect := .separator }
  | .object _ :: _ => none

/-- Reads the first token of a value inside the frames of `stack`. -/
def beginValue (stack : List Frame) : Token → Option Build
  | .beginArray => some { stack := .array [] :: stack, expect := .valueOrEnd }
  | .beginObject => some { stack := .object [] :: stack, expect := .keyOrEnd }
  | .string text => push stack (.string text)
  | .scalar value => push stack value
  | _ => none

/-- Reads the `key` of a member of the innermost object. -/
def readKey (stack : List Frame) (key : Literal) : Option Build :=
  match stack with
  | .object members :: outer => some { stack := .member members key :: outer, expect := .colon }
  | _ => none

/-- Reads the comma after an item or member of the innermost frame. -/
def readComma : List Frame → Option Build
  | stack@(.array _ :: _) => some { stack, expect := .value }
  | stack@(.object _ :: _) => some { stack, expect := .key }
  | _ => none

/-- Closes the innermost frame, which must be an array, and adds it to the frame around it. -/
def endArray : List Frame → Option Build
  | .array items :: outer => push outer (.array items.reverse)
  | _ => none

/-- Closes the innermost frame, which must be an object, and adds it to the frame around it. -/
def endObject : List Frame → Option Build
  | .object members :: outer => push outer (.object members.reverse)
  | _ => none

/-- Reads `token`, if it is one that `build.expect` allows. -/
def step (build : Build) (token : Token) : Option Build :=
  match build.expect, token with
  | .value, token => beginValue build.stack token
  | .valueOrEnd, .endArray => endArray build.stack
  | .valueOrEnd, token => beginValue build.stack token
  | .key, .string key => readKey build.stack key
  | .keyOrEnd, .string key => readKey build.stack key
  | .keyOrEnd, .endObject => endObject build.stack
  | .colon, .colon => some { build with expect := .value }
  | .separator, .comma => readComma build.stack
  | .separator, .endArray => endArray build.stack
  | .separator, .endObject => endObject build.stack
  | _, _ => none

/-- The value at the end of the tokens, unless `build` still expects something. -/
def finish (build : Build) : Option Json :=
  match build.expect with
  | .nothing result => some result
  | _ => none

end Build

/-- The value that `tokens` stand for, if the machine `Build` accepts them. -/
def ofTokens? (tokens : List Token) : Option Json := do
  let build ← tokens.foldlM Build.step {}
  build.finish

/-- The value that `text` stands for. -/
def parse? (text : String) : Option Json := do
  let tokens ← tokens? text.toList
  ofTokens? tokens

end TrafficMeter.Json
