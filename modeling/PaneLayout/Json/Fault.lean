import PaneLayout.Json.Printer
import PaneLayout.Text.Quoted

set_option autoImplicit false

/-!
# Faults in JSON documents

A document is read from left to right and the first fault found is the one reported, whether it
lies in the text or in the shape of what the text describes.

## Main definitions

* `PaneLayout.Json.ShapeFault`: well-formed so far, but not what the document should hold.
* `PaneLayout.Json.Fault`: all faults.
* `PaneLayout.Json.ShapeFault.message`: the wording of a shape fault.
-/

namespace PaneLayout.Json

/-- **Shape faults.** A value of the wrong kind is named by the value found; of an array or an
object only the kind is shown. -/
inductive ShapeFault where
  | missingField (name : String)
  | duplicateField (name : String)
  | wrongKind (found : Json) (expected : String)
  | tooShort (length : Nat) (expected : String)

/-- **Faults.** A text may be malformed, it may end too early, or it may describe something else
than what is to be read. -/
inductive Fault where
  | malformed
  | truncated
  | shape (fault : ShapeFault)

/-- How a value is named in a message. -/
def description : Json → String
  | .null => "null"
  | .bool b => s!"boolean `{b}`"
  | .int n => s!"integer `{n}`"
  | .float x => s!"floating point `{String.ofList (floatChars x)}`"
  | .string s => s!"string {Text.quoted s}"
  | .array _ => "sequence"
  | .object _ => "map"

/-- The wording of a shape fault. -/
def ShapeFault.message : ShapeFault → String
  | .missingField name => s!"missing field `{name}`"
  | .duplicateField name => s!"duplicate field `{name}`"
  | .wrongKind found expected => s!"invalid type: {description found}, expected {expected}"
  | .tooShort length expected => s!"invalid length {length}, expected {expected}"

/-- The wording of a fault. -/
def Fault.message : Fault → String
  | .malformed => "malformed text"
  | .truncated => "unexpected end of text"
  | .shape fault => fault.message

end PaneLayout.Json
