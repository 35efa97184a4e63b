import PaneLayout.Json.Reader
import PaneLayout.Layout.Node

set_option autoImplicit false

/-!
# The JSON form of layouts

A configuration is an object with the fields `layout` and `entry`, a request one with the fields
`config` and `cwd`. Both may also be written as the array of their fields. Unknown fields are
passed over.

## Main definitions

* `PaneLayout.Node.toJson`, `PaneLayout.Node.ofJson`: layout nodes as JSON values.
* `PaneLayout.LayoutConfig.render`, `PaneLayout.LayoutRequest.render`: the texts written.
* `PaneLayout.LayoutConfig.parse`, `PaneLayout.LayoutRequest.parse`: the texts read.
-/

namespace PaneLayout

open Json (Fault)

namespace Node

mutual

/-- A node as a JSON value: a text for a command, an array for a group. -/
def toJson : Node → Json
  | .command text => .string text
  | .group children => .array (toJsons children)
  | .invalid value => value

/-- Nodes as JSON values. -/
def toJsons : List Node → List Json
  | [] => []
  | n :: ns => n.toJson :: toJsons ns

end

mutual

/-- The node that a JSON value describes. -/
def ofJson : Json → Node
  | .string text => .command text
  | .array values => .group (ofJsons values)
  | value => .invalid value

/-- The nodes that JSON values describe. -/
def ofJsons : List Json → List Node
  | [] => []
  | v :: vs => ofJson v :: ofJsons vs

end

end Node

/-- The number of arrays and objects that may be open at a time in a document. -/
def nestingLimit : Nat := 127

namespace LayoutConfig

/-- A configuration as a JSON value, without the field `entry` if there is none. -/
def toJson (config : LayoutConfig) : Json :=
  .object
    (("layout", config.layout.toJson) :: (config.entry.map fun e => ("entry", .string e)).toList)

/-- **Writing a configuration.** -/
def render (config : LayoutConfig) : String := config.toJson.render

/-- How a configuration is named in messages. -/
def expectation : String := "struct LayoutConfig"

/-- The fields read so far. -/
structure Fields where
  layout : Option Node
  entry : Option (Option String)

/-- Reads the value of one field. A field may be given once. -/
def readField (levels : Nat) : Json.FieldReader Fields := fun key found =>
  if key = "layout" then
    if found.layout.isSome then .error (.shape (.duplicateField key))
    else .ok fun s => (Json.readValue levels s).map fun (v, s) =>
      ({ found with layout := some (.ofJson v) }, s)
  else if key = "entry" then
    if found.entry.isSome then .error (.shape (.duplicateField key))
    else .ok fun s => (Json.readOptionalString "a string" s).map fun (e, s) =>
      ({ found with entry := some e }, s)
  else .ok fun s => (Json.skipValue s).map (found, ·)

/-- The configuration made of the fields read. -/
def ofFields (found : Fields) : Except Fault LayoutConfig :=
  match found.layout with
  | some layout => .ok ⟨layout, found.entry.getD none⟩
  | none => .error (.shape (.missingField "layout"))

/-- Reads the array form behind its opening bracket. -/
def readArray (levels : Nat) (s : List Char) : Except Fault (LayoutConfig × List Char) := do
  let (more, s) ← Json.nextItem true s
  if !more then .error (.shape (.tooShort 0 s!"{expectation} with 2 elements"))
  else
    let (v, s) ← Json.readValue levels s
    let (more, s) ← Json.nextItem false s
    if !more then return (⟨.ofJson v, none⟩, s)
    else
      let (entry, s) ← Json.readOptionalString "a string" s
      let s ← Json.endItems s
      return (⟨.ofJson v, entry⟩, s)

/-- Reads the object form behind its opening brace. -/
def readObject (levels : Nat) (s : List Char) : Except Fault (LayoutConfig × List Char) := do
  let (found, s) ← Json.readFields (readField levels) (s.length + 1) true ⟨none, none⟩ s
  let config ← ofFields found
  return (config, s)

/-- Reads a configuration at the start of a text. -/
def read : Nat → List Char → Except Fault (LayoutConfig × List Char) :=
  Json.readRecord expectation readArray readObject

/-- **Reading a configuration** from a text that holds nothing else. -/
def parse (text : String) : Except Fault LayoutConfig := Json.finish (read nestingLimit text.toList)

end LayoutConfig

namespace LayoutRequest

/-- A request as a JSON value. -/
def toJson (request : LayoutRequest) : Json :=
  .object [("config", request.config.toJson), ("cwd", .string request.cwd)]

/-- **Writing a request.** -/
def render (request : LayoutRequest) : String := request.toJson.render

/-- How a request is named in messages. -/
def expectation : String := "struct LayoutRequest"

/-- The fields read so far. -/
structure Fields where
  config : Option LayoutConfig
  cwd : Option String

/-- Reads the value of one field. A field may be given once. -/
def readField (levels : Nat) : Json.FieldReader Fields := fun key found =>
  if key = "config" then
    if found.config.isSome then .error (.shape (.duplicateField key))
    else .ok fun s => (LayoutConfig.read levels s).map fun (c, s) =>
      ({ found with config := some c }, s)
  else if key = "cwd" then
    if found.cwd.isSome then .error (.shape (.duplicateField key))
    else .ok fun s => (Json.readString "path string" s).map fun (d, s) =>
      ({ found with cwd := some d }, s)
  else .ok fun s => (Json.skipValue s).map (found, ·)

/-- The request made of the fields read. -/
def ofFields (found : Fields) : Except Fault LayoutRequest :=
  match found.config, found.cwd with
  | some config, some cwd => .ok ⟨config, cwd⟩
  | none, _ => .error (.shape (.missingField "config"))
  | some _, none => .error (.shape (.missingField "cwd"))

/-- Reads the array form behind its opening bracket. -/
def readArray (levels : Nat) (s : List Char) : Except Fault (LayoutRequest × List Char) := do
  let (more, s) ← Json.nextItem true s
  if !more then .error (.shape (.tooShort 0 s!"{expectation} with 2 elements"))
  else
    let (config, s) ← LayoutConfig.read levels s
    let (more, s) ← Json.nextItem false s
    if !more then .error (.shape (.tooShort 1 s!"{expectation} with 2 elements"))
    else
      let (cwd, s) ← Json.readString "path string" s
      let s ← Json.endItems s
      return (⟨config, cwd⟩, s)

/-- Reads the object form behind its opening brace. -/
def readObject (levels : Nat) (s : List Char) : Except Fault (LayoutRequest × List Char) := do
  let (found, s) ← Json.readFields (readField levels) (s.length + 1) true ⟨none, none⟩ s
  let request ← ofFields found
  return (request, s)

/-- Reads a request at the start of a text. -/
def read : Nat → List Char → Except Fault (LayoutRequest × List Char) :=
  Json.readRecord expectation readArray readObject

/-- **Reading a request** from a text that holds nothing else. -/
def parse (text : List Char) : Except Fault LayoutRequest := Json.finish (read nestingLimit text)

end LayoutRequest

end PaneLayout
