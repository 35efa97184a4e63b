import PaneLayout.Yaml.Grammar
import PaneLayout.Yaml.Plain

set_option autoImplicit false

/-!
# Reading values

What a node stands for depends on what is asked for. Where anything may stand, plain scalars are
read by their meaning; where a text is asked for, every scalar gives its text. Aliases are followed
on the way, but not without end.

## Main definitions

* `PaneLayout.Yaml.Reading`: readings that may follow a limited number of aliases.
* `PaneLayout.Yaml.Document.value`: any value.
* `PaneLayout.Yaml.Document.text`, `PaneLayout.Yaml.Document.optionalText`,
  `PaneLayout.Yaml.Document.truth`: a text, a text or nothing, a truth value.
* `PaneLayout.Yaml.Document.record`: the mapping at the root, field by field.
-/

namespace PaneLayout.Yaml

/-- **Readings,** which may fail, and which count the aliases they may still follow. -/
abbrev Reading := StateT Nat Option

/-- The number of collections that may be open at a time where a value is read. -/
def nestingLimit : Nat := 128

/-- The tags of values that all documents know. -/
def standardTag (name : String) : TagText := ("tag:yaml.org,2002:" ++ name).toList.map some

/-- Whether a tag begins with an exclamation mark. -/
def isMarked (tag : TagText) : Bool := tag.head? == some (some '!')

/-- Whether a label has a tag that only some documents know. -/
def Label.isLocal (label : Label) : Bool :=
  label.tag.any fun tag => isMarked tag && tag.all Option.isSome

/-- The JSON number of a double; infinities and what is no number are left out. -/
def jsonOfReal (x : Float) : Json := if x.isFinite then .float x else .null

/-- The JSON number of a whole number, which has to fit into 64 bits. -/
def jsonOfWhole (n : Int) : Option Json := if fits 64 n then some (.int n) else none

/-- The value of a plain scalar. -/
def plainValue (text : List Char) : Option Json :=
  match meaning text with
  | .null => some .null
  | .truth b => some (.bool b)
  | .whole n => jsonOfWhole n
  | .real x => some (jsonOfReal x)
  | .text => some (.string (String.ofList text))

/-- **The value of a scalar.** A tag can ask for a certain meaning. One that begins with an
exclamation mark but cannot be read leaves plain scalars their meaning. -/
def scalarValue (label : Label) (style : ScalarStyle) (text : List Char) : Option Json :=
  match label.tag with
  | none => if style = .plain then plainValue text else some (.string (String.ofList text))
  | some tag =>
    if label.isLocal then none
    else if tag = standardTag "bool" then (truth? text).map .bool
    else if tag = standardTag "int" then (whole? text).bind jsonOfWhole
    else if tag = standardTag "float" then (real? text).map jsonOfReal
    else if tag = standardTag "null" then (if isNull text then some .null else none)
    else if style = .plain ∧ isMarked tag then plainValue text
    else some (.string (String.ofList text))

/-- The text of a JSON string. -/
def keyText : Json → Option String
  | .string s => some s
  | _ => none

namespace Document

/-- The node itself, or the one an alias stands for. -/
def follow (d : Document) (node : Node) : Reading Node := do
  match node with
  | .alias n =>
    let left ← get
    if left = 0 then failure
    set (left - 1)
    d.target? n
  | node => return node

/-- **Values.** At most `levels` collections may be open at a time. The keys of mappings have to be
texts. -/
def value (d : Document) (levels : Nat) (node : Node) : Reading Json := do
  match ← d.follow node with
  | .scalar label style text => scalarValue label style text
  | .sequence label items =>
    match levels with
    | 0 => failure
    | levels + 1 =>
      if label.isLocal then failure
      return .array (← items.mapM fun item => d.value levels item)
  | .mapping label entries =>
    match levels with
    | 0 => failure
    | levels + 1 =>
      if label.isLocal then failure
      let members ← entries.mapM fun entry => do
        let key ← d.value levels entry.1
        let value ← d.value levels entry.2
        let key ← keyText key
        return (key, value)
      return .ofMembers members
  | .alias _ => failure

/-- **Texts.** The text of any scalar. -/
def text (d : Document) (node : Node) : Reading String := do
  match ← d.follow node with
  | .scalar _ _ text => return String.ofList text
  | _ => failure

/-- **Optional texts.** Plain scalars may stand for nothing. -/
def optionalText (d : Document) (node : Node) : Reading (Option String) := do
  match ← d.follow node with
  | .scalar label style text =>
    if style = .plain ∧ label.tag = some (standardTag "null") then
      if isNull text then return none else failure
    else if style = .plain ∧ label.tag = none ∧ (text.isEmpty ∨ isNull text) then return none
    else return some (String.ofList text)
  | _ => failure

/-- **Truth values,** which are plain, or literal with the tag of truth values. -/
def truth (d : Document) (node : Node) : Reading Bool := do
  match ← d.follow node with
  | .scalar label style text =>
    if style = .plain ∨ (style = .literal ∧ label.tag = some (standardTag "bool")) then truth? text
    else failure
  | _ => failure

/-- The entries of the mapping at the root. A text without a document and an empty document stand
for a mapping without entries. -/
def entries (d : Document) : Reading (List (Node × Node)) := do
  match d.root with
  | none => return []
  | some root =>
    match ← d.follow root with
    | .mapping _ entries => return entries
    | .scalar _ style text => if style = .plain ∧ text = [] then return [] else failure
    | _ => failure

/-- **Records.** Reads the entries at the root one after the other, where `field` reads the value of
the entry with the given key. -/
def record {α : Type} (field : Document → String → α → Node → Reading α) (start : α)
    (d : Document) : Option α :=
  let read : Reading α := do
    (← d.entries).foldlM (fun found entry => do field d (← d.text entry.1) found entry.2) start
  (read.run (100 * d.eventCount)).map Prod.fst

end Document

end PaneLayout.Yaml
