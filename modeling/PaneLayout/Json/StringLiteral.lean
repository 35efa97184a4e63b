import PaneLayout.Json.Fault

set_option autoImplicit false

/-!
# Reading JSON string literals

The text after an opening quote is first cut into units, up to the closing quote or to the first
fault. An escape `\uXXXX` is a unit of its own, a UTF-16 code unit; two of them may form one
character, and one half of such a pair alone is a fault of a literal that is kept.

## Main definitions

* `PaneLayout.Json.units`: the units of a literal and how it ends.
* `PaneLayout.Json.decodeUnits`: the characters that the units stand for.
* `PaneLayout.Json.stringLiteral`: reads a literal that is kept.
* `PaneLayout.Json.skipLiteral`: passes over a literal that is not kept.
-/

namespace PaneLayout.Json

/-- **Units of a literal.** A character, or a UTF-16 code unit given by its number. -/
inductive LiteralUnit where
  | char (c : Char)
  | code (n : Nat)
  deriving DecidableEq, Repr

/-- How a literal ends: with its closing quote before `rest`, or with a fault. -/
inductive LiteralEnd where
  | closed (rest : List Char)
  | broken (fault : Fault)

/-- The value of a hexadecimal digit. -/
def hexValue (c : Char) : Option Nat :=
  if '0' ≤ c ∧ c ≤ '9' then some (c.toNat - '0'.toNat)
  else if 'a' ≤ c ∧ c ≤ 'f' then some (c.toNat - 'a'.toNat + 10)
  else if 'A' ≤ c ∧ c ≤ 'F' then some (c.toNat - 'A'.toNat + 10)
  else none

/-- The number written with four hexadecimal digits. -/
def hexNumber (a b c d : Char) : Option Nat := do
  let a ← hexValue a
  let b ← hexValue b
  let c ← hexValue c
  let d ← hexValue d
  return ((a * 16 + b) * 16 + c) * 16 + d

/-- The character behind a backslash, for the escapes of one letter. -/
def shortEscape (c : Char) : Option Char :=
  if c = '"' ∨ c = '\\' ∨ c = '/' then some c
  else if c = 'b' then some '\x08'
  else if c = 'f' then some '\x0c'
  else if c = 'n' then some '\n'
  else if c = 'r' then some '\r'
  else if c = 't' then some '\t'
  else none

/-- The number of bytes of a text in UTF-8. -/
def byteCount (s : List Char) : Nat := (String.ofList s).utf8ByteSize

/-- **Cutting a literal into units.** Control characters may not stand in a literal. -/
def units : List Char → List LiteralUnit × LiteralEnd
  | [] => ([], .broken .truncated)
  | c :: rest =>
    if c = '"' then ([], .closed rest)
    else if c = '\\' then
      match rest with
      | [] => ([], .broken .truncated)
      | e :: rest =>
        if e = 'u' then
          match rest with
          | h₁ :: h₂ :: h₃ :: h₄ :: rest =>
            match hexNumber h₁ h₂ h₃ h₄ with
            | some n => let (us, stop) := units rest; (.code n :: us, stop)
            | none => ([], .broken .malformed)
          | short => ([], .broken (if byteCount short < 4 then .truncated else .malformed))
        else
          match shortEscape e with
          | some x => let (us, stop) := units rest; (.char x :: us, stop)
          | none => ([], .broken .malformed)
    else if c.toNat < 0x20 then ([], .broken .malformed)
    else let (us, stop) := units rest; (.char c :: us, stop)

/-- Why units stand for no text: half of a pair with something else after it, or a first half at
the very end. -/
inductive LoneHalf where
  | inside
  | atEnd
  deriving DecidableEq, Repr

/-- **The characters behind units.** A first half of a pair must have a second half after it. -/
def decodeUnits : List LiteralUnit → Except LoneHalf (List Char)
  | [] => .ok []
  | .char c :: us => (decodeUnits us).map (c :: ·)
  | .code n :: us =>
    if 0xDC00 ≤ n ∧ n < 0xE000 then .error .inside
    else if 0xD800 ≤ n ∧ n < 0xDC00 then
      match us with
      | [] => .error .atEnd
      | .char _ :: _ => .error .inside
      | .code m :: us =>
        if 0xDC00 ≤ m ∧ m < 0xE000 then
          (decodeUnits us).map (Char.ofNat (0x10000 + (n - 0xD800) * 0x400 + (m - 0xDC00)) :: ·)
        else .error .inside
    else (decodeUnits us).map (Char.ofNat n :: ·)

/-- **Reading a literal** behind its opening quote. The first fault counts, so a lone half comes
before a fault further on. -/
def stringLiteral (s : List Char) : Except Fault (String × List Char) :=
  match units s with
  | (us, .closed rest) =>
    match decodeUnits us with
    | .ok text => .ok (String.ofList text, rest)
    | .error _ => .error .malformed
  | (us, .broken fault) =>
    match decodeUnits us with
    | .error .inside => .error .malformed
    | _ => .error fault

/-- Passing over a literal behind its opening quote. -/
def skipLiteral (s : List Char) : Except Fault (List Char) :=
  match units s with
  | (_, .closed rest) => .ok rest
  | (_, .broken fault) => .error fault

end PaneLayout.Json
