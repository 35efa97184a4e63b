import PaneLayout.Json.Numeral
import PaneLayout.Json.StringLiteral

set_option autoImplicit false

/-!
# Reading JSON

Values are read by descent. The number of arrays and objects that may be open at a time is
limited for values that are kept. Values that are passed over have no such limit; nothing is
asked of the size of their numbers and of the pairing of their escapes.

## Main definitions

* `PaneLayout.Json.scalar`: reads a value that is neither an array nor an object.
* `PaneLayout.Json.nextItem`, `PaneLayout.Json.nextMember`: move on in an array or an object.
* `PaneLayout.Json.value`: reads any value.
* `PaneLayout.Json.readValue`, `PaneLayout.Json.skipValue`: reads a value, passes over one.
* `PaneLayout.Json.readFields`: reads an object member by member.
* `PaneLayout.Json.readRecord`: reads an object, or the array of its fields.
* `PaneLayout.Json.document`: a whole text with one value in it.
-/

namespace PaneLayout.Json

/-- The four blanks of JSON. -/
def isSpace (c : Char) : Bool := c == ' ' || c == '\n' || c == '\t' || c == '\r'

/-- The text behind the blanks at its start. -/
def skipSpace (s : List Char) : List Char := s.dropWhile isSpace

/-- The text behind a word that has to stand at its start. -/
def expect : List Char → List Char → Except Fault (List Char)
  | [], s => .ok s
  | _ :: _, [] => .error .truncated
  | e :: word, c :: s => if c = e then expect word s else .error .malformed

/-- A number; of one that is passed over only the spelling counts. -/
def number (skipping : Bool) (s : List Char) : Except Fault (Json × List Char) :=
  match numeral s with
  | .ok (n, rest) => if skipping then .ok (.null, rest) else n.value.map (·, rest)
  | .error fault => .error (if skipping then .malformed else fault)

/-- A string behind its opening quote; one that is passed over is not decoded. -/
def text (skipping : Bool) (s : List Char) : Except Fault (Json × List Char) :=
  if skipping then (skipLiteral s).map (.null, ·)
  else (stringLiteral s).map fun (t, rest) => (.string t, rest)

/-- **Scalars.** Reads a value at the start of the text that is no array and no object. -/
def scalar (skipping : Bool) : List Char → Except Fault (Json × List Char)
  | [] => .error .truncated
  | 'n' :: rest => (expect ['u', 'l', 'l'] rest).map (.null, ·)
  | 't' :: rest => (expect ['r', 'u', 'e'] rest).map (.bool true, ·)
  | 'f' :: rest => (expect ['a', 'l', 's', 'e'] rest).map (.bool false, ·)
  | '"' :: rest => text skipping rest
  | c :: rest => if c = '-' ∨ c.isDigit then number skipping (c :: rest) else .error .malformed

/-- **Moving on in an array.** Either an item begins at the text given back, or the array has
ended before it. -/
def nextItem (first : Bool) (s : List Char) : Except Fault (Bool × List Char) :=
  match skipSpace s with
  | [] => .error .truncated
  | ']' :: rest => .ok (false, rest)
  | c :: rest =>
    if first then .ok (true, c :: rest)
    else if c = ',' then
      match skipSpace rest with
      | [] => .error .truncated
      | ']' :: _ => .error .malformed
      | rest => .ok (true, rest)
    else .error .malformed

/-- The key at the start of a text and the text behind it. -/
def memberKey (skipping : Bool) : List Char → Except Fault (String × List Char)
  | [] => .error .truncated
  | '"' :: rest => if skipping then (skipLiteral rest).map ("", ·) else stringLiteral rest
  | _ :: _ => .error .malformed

/-- The text behind the colon between a key and its value. -/
def behindColon (s : List Char) : Except Fault (List Char) :=
  match skipSpace s with
  | [] => .error .truncated
  | ':' :: rest => .ok rest
  | _ :: _ => .error .malformed

/-- **Moving on in an object.** Either the key of the next member and the text behind it, or the
text behind the object. -/
def nextMember (skipping first : Bool) (s : List Char) :
    Except Fault (Option String × List Char) :=
  match skipSpace s with
  | [] => .error .truncated
  | '}' :: rest => .ok (none, rest)
  | c :: rest =>
    if first then (memberKey skipping (c :: rest)).map fun (key, rest) => (some key, rest)
    else if c = ',' then
      (memberKey skipping (skipSpace rest)).map fun (key, rest) => (some key, rest)
    else .error .malformed

mutual

/-- **Values.** Reads a value in which at most `levels` arrays and objects are open at a time. The
first argument bounds the steps; twice the length of the text is always enough. -/
def value (skipping : Bool) : Nat → Nat → List Char → Except Fault (Json × List Char)
  | 0, _, _ => .error .malformed
  | steps + 1, levels, s =>
    match skipSpace s with
    | '[' :: rest =>
      match levels with
      | 0 => .error .malformed
      | levels + 1 =>
        (items skipping steps levels true rest).map fun (vs, rest) => (.array vs, rest)
    | '{' :: rest =>
      match levels with
      | 0 => .error .malformed
      | levels + 1 =>
        (members skipping steps levels true rest).map fun (ms, rest) => (ofMembers ms, rest)
    | s => scalar skipping s

/-- The items of an array from here to its end. -/
def items (skipping : Bool) :
    Nat → Nat → Bool → List Char → Except Fault (List Json × List Char)
  | 0, _, _, _ => .error .malformed
  | steps + 1, levels, first, s => do
    let (more, s) ← nextItem first s
    if more then
      let (v, s) ← value skipping steps levels s
      let (vs, s) ← items skipping steps levels false s
      return (v :: vs, s)
    else return ([], s)

/-- The members of an object from here to its end. -/
def members (skipping : Bool) :
    Nat → Nat → Bool → List Char → Except Fault (List (String × Json) × List Char)
  | 0, _, _, _ => .error .malformed
  | steps + 1, levels, first, s => do
    let (key, s) ← nextMember skipping first s
    match key with
    | none => return ([], s)
    | some key =>
      let s ← behindColon s
      let (v, s) ← value skipping steps levels s
      let (ms, s) ← members skipping steps levels false s
      return ((key, v) :: ms, s)

end

/-- Reads a value that is kept. -/
def readValue (levels : Nat) (s : List Char) : Except Fault (Json × List Char) :=
  value false (2 * s.length + 2) levels s

/-- Passes over a value. -/
def skipValue (s : List Char) : Except Fault (List Char) :=
  (value true (2 * s.length + 2) s.length s).map (·.2)

/-- The fault of a value of the wrong kind at the start of a text. -/
def mismatch (expected : String) (s : List Char) : Fault :=
  match s with
  | '[' :: _ => .shape (.wrongKind (.array []) expected)
  | '{' :: _ => .shape (.wrongKind (.object []) expected)
  | s =>
    match scalar false s with
    | .ok (found, _) => .shape (.wrongKind found expected)
    | .error fault => fault

/-- Reads a text. -/
def readString (expected : String) (s : List Char) : Except Fault (String × List Char) :=
  match skipSpace s with
  | '"' :: rest => stringLiteral rest
  | s => .error (mismatch expected s)

/-- Reads a text or null. -/
def readOptionalString (expected : String) (s : List Char) :
    Except Fault (Option String × List Char) :=
  match skipSpace s with
  | 'n' :: rest => (expect ['u', 'l', 'l'] rest).map (none, ·)
  | s => (readString expected s).map fun (t, rest) => (some t, rest)

/-- **Readers of fields.** What to do with the value behind a key, given what the members before it
have left. A key may be refused, and is so before anything behind it is looked at. -/
abbrev FieldReader (σ : Type) :=
  String → σ → Except Fault (List Char → Except Fault (σ × List Char))

/-- **Objects with known fields.** Reads the members of an object in their order. -/
def readFields {σ : Type} (field : FieldReader σ) :
    Nat → Bool → σ → List Char → Except Fault (σ × List Char)
  | 0, _, _, _ => .error .malformed
  | steps + 1, first, found, s => do
    let (key, s) ← nextMember false first s
    match key with
    | none => return (found, s)
    | some key =>
      let readMember ← field key found
      let (found, s) ← readMember (← behindColon s)
      readFields field steps false found s

/-- The text behind an array that has no further item. -/
def endItems (s : List Char) : Except Fault (List Char) :=
  match skipSpace s with
  | [] => .error .truncated
  | ']' :: rest => .ok rest
  | _ :: _ => .error .malformed

/-- **Records.** Reads a value that may be written as an object or as the array of its fields;
`ofArray` and `ofObject` read on behind the opening bracket. -/
def readRecord {α : Type} (expectation : String)
    (ofArray ofObject : Nat → List Char → Except Fault (α × List Char)) (levels : Nat)
    (s : List Char) : Except Fault (α × List Char) :=
  match skipSpace s, levels with
  | [], _ => .error .truncated
  | '[' :: _, 0 => .error .malformed
  | '{' :: _, 0 => .error .malformed
  | '[' :: rest, levels + 1 => ofArray levels rest
  | '{' :: rest, levels + 1 => ofObject levels rest
  | s, _ => .error (mismatch expectation s)

/-- Nothing but blanks may follow a document. -/
def finish {α : Type} : Except Fault (α × List Char) → Except Fault α
  | .error fault => .error fault
  | .ok (a, rest) => if (skipSpace rest).isEmpty then .ok a else .error .malformed

/-- **Documents.** The value of a text in which at most `levels` arrays and objects are open at a
time. -/
def document (levels : Nat) (s : List Char) : Except Fault Json := finish (readValue levels s)

end PaneLayout.Json
