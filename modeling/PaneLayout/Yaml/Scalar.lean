import PaneLayout.Yaml.Glyph

set_option autoImplicit false

/-!
# Scalars

The text of a scalar may go over several lines. In plain and quoted scalars the gaps between words
are folded: a single line break counts as a space, and of several breaks the first is dropped. Block
scalars keep their lines, or fold them unless they are indented further.

## Main definitions

* `PaneLayout.Yaml.Gap`: what stands between two words.
* `PaneLayout.Yaml.plainScalar`, `PaneLayout.Yaml.quotedScalar`, `PaneLayout.Yaml.blockScalar`: the
  text of a scalar and the glyphs behind it.
-/

namespace PaneLayout.Yaml

/-- **Gaps.** Blanks within a line, or at least one line break: the first one, which may be escaped
and then counts for nothing, and the others. -/
inductive Gap where
  | blanks (text : List Char)
  | breaks (first : List Char) (more : List Char)
  deriving DecidableEq, Repr

namespace Gap

/-- No gap at all. -/
def none : Gap := .blanks []

/-- Whether a gap goes over the end of a line. -/
def isBroken : Gap → Bool
  | .blanks _ => false
  | .breaks _ _ => true

/-- A gap with one more blank. Blanks after a line break count for nothing. -/
def addBlank (c : Char) : Gap → Gap
  | .blanks text => .blanks (text ++ [c])
  | .breaks first more => .breaks first more

/-- A gap with one more line break. Blanks before the first line break count for nothing. -/
def addBreak (c : Char) : Gap → Gap
  | .blanks _ => .breaks [c] []
  | .breaks first more => .breaks first (more ++ [c])

/-- **Folding.** What a gap stands for. -/
def fold : Gap → List Char
  | .blanks text => text
  | .breaks first more =>
    if first = ['\n'] then (if more.isEmpty then [' '] else more) else first ++ more

end Gap

/-- The characters that end a plain scalar inside brackets. -/
def isFlowIndicator (c : Char) : Bool :=
  c == ',' || c == '[' || c == ']' || c == '{' || c == '}'

/-- **Plain scalars.** Reads on behind a gap; `indent` is the least column of a further line. Also
tells whether the scalar ends behind a line break. -/
def plainScalar (inFlow : Bool) (indent : Nat) :
    Gap → List Glyph → Option (List Char × Bool × List Glyph)
  | gap, [] => some ([], gap.isBroken, [])
  | gap, g :: s =>
    if g.isBlank then
      if gap.isBroken && g.char == '\t' && decide (g.column < indent) then Option.none
      else plainScalar inFlow indent (gap.addBlank g.char) s
    else if g.isBreak then plainScalar inFlow indent (gap.addBreak g.char) s
    else if (gap.isBroken && !inFlow && decide (g.column < indent)) ||
        Glyph.atDocumentMark (g :: s) || (gap != .none && g.char == '#') then
      some ([], gap.isBroken, g :: s)
    else if inFlow && g.char == ':' &&
        (match s with
          | [] => false
          | h :: _ => isFlowIndicator h.char || h.char == '?') then Option.none
    else if (g.char == ':' && Glyph.atGap s) || (inFlow && isFlowIndicator g.char) then
      some ([], gap.isBroken, g :: s)
    else
      (plainScalar inFlow indent .none s).map fun (text, broken, rest) =>
        (gap.fold ++ g.char :: text, broken, rest)

/-- The character behind a backslash, for the escapes of one letter. -/
def escapedChar (c : Char) : Option Char :=
  if c = '0' then some '\x00'
  else if c = 'a' then some '\x07'
  else if c = 'b' then some '\x08'
  else if c = 't' ∨ c = '\t' then some '\t'
  else if c = 'n' then some '\n'
  else if c = 'v' then some '\x0b'
  else if c = 'f' then some '\x0c'
  else if c = 'r' then some '\r'
  else if c = 'e' then some '\x1b'
  else if c = ' ' ∨ c = '"' ∨ c = '/' ∨ c = '\\' then some c
  else if c = 'N' then some '\u0085'
  else if c = '_' then some '\u00a0'
  else if c = 'L' then some '\u2028'
  else if c = 'P' then some '\u2029'
  else none

/-- The number of hexadecimal digits behind a backslash and this letter. -/
def escapeWidth (c : Char) : Option Nat :=
  if c = 'x' then some 2 else if c = 'u' then some 4 else if c = 'U' then some 8 else none

/-- The value of a hexadecimal digit. -/
def hexDigit? (c : Char) : Option Nat :=
  if '0' ≤ c ∧ c ≤ '9' then some (c.toNat - '0'.toNat)
  else if 'a' ≤ c ∧ c ≤ 'f' then some (c.toNat - 'a'.toNat + 10)
  else if 'A' ≤ c ∧ c ≤ 'F' then some (c.toNat - 'A'.toNat + 10)
  else none

/-- The character with the given number, if there is one. -/
def charOfNumber? (n : Nat) : Option Char :=
  if (0xD800 ≤ n ∧ n ≤ 0xDFFF) ∨ 0x10FFFF < n then none else some (Char.ofNat n)

/-- The scalar with a piece in front of it. -/
def prepend (piece : List Char) :
    Option (List Char × List Glyph) → Option (List Char × List Glyph)
  | some (text, rest) => some (piece ++ text, rest)
  | none => none

mutual

/-- **Quoted scalars.** Reads on behind a gap up to the closing quote. Between single quotes only a
doubled quote is special; between double quotes there are escapes. -/
def quotedScalar (single : Bool) : Gap → List Glyph → Option (List Char × List Glyph)
  | _, [] => none
  | gap, g :: s =>
    if g.isBlank then quotedScalar single (gap.addBlank g.char) s
    else if g.isBreak then quotedScalar single (gap.addBreak g.char) s
    else if Glyph.atDocumentMark (g :: s) then none
    else if g.char = (if single then '\'' else '"') then
      match s with
      | [] => some (gap.fold, [])
      | h :: s =>
        if single ∧ h.char = '\'' then prepend (gap.fold ++ ['\'']) (quotedScalar single .none s)
        else some (gap.fold, h :: s)
    else if !single && g.char == '\\' then
      match s with
      | [] => none
      | h :: s =>
        if h.isBreak then prepend gap.fold (quotedScalar single (.breaks [] []) s)
        else
          match escapedChar h.char, escapeWidth h.char with
          | some c, _ => prepend (gap.fold ++ [c]) (quotedScalar single .none s)
          | none, some width => prepend gap.fold (numberedChar single width 0 s)
          | none, none => none
    else prepend (gap.fold ++ [g.char]) (quotedScalar single .none s)

/-- Reads on behind an escape of which `left` hexadecimal digits are still to come, where those read
so far stand for `value`. -/
def numberedChar (single : Bool) : Nat → Nat → List Glyph → Option (List Char × List Glyph)
  | _, _, [] => none
  | left, value, g :: s =>
    match hexDigit? g.char with
    | none => none
    | some d =>
      let value := value * 16 + d
      if left ≤ 1 then
        match charOfNumber? value with
        | some c => prepend [c] (quotedScalar single .none s)
        | none => none
      else numberedChar single (left - 1) value s

end

/-- What becomes of the line breaks at the end of a block scalar. -/
inductive Chomping where
  | strip
  | clip
  | keep
  deriving DecidableEq, Repr

/-- The sign of a chomping. -/
def chompingSign? : List Glyph → Option (Chomping × List Glyph)
  | [] => none
  | g :: s =>
    if g.char = '-' then some (.strip, s)
    else if g.char = '+' then some (.keep, s)
    else none

/-- The digit of an indentation: none, or a digit, which may not be zero. -/
def indentationDigit? : List Glyph → Option (Option Nat × List Glyph)
  | [] => some (none, [])
  | g :: s =>
    if g.char.isDigit then
      if g.char = '0' then none else some (some (g.char.toNat - '0'.toNat), s)
    else some (none, g :: s)

/-- **The head of a block scalar:** its chomping and its indentation, in either order, and the
glyphs from the next line on. -/
def blockHead? (s : List Glyph) : Option (Chomping × Option Nat × List Glyph) := do
  match chompingSign? s with
  | some (chomping, s) =>
    let (increment, s) ← indentationDigit? s
    let s ← Glyph.endLine? s
    return (chomping, increment, s)
  | none =>
    let (increment, s) ← indentationDigit? s
    match increment, chompingSign? s with
    | some _, some (chomping, s) =>
      let s ← Glyph.endLine? s
      return (chomping, increment, s)
    | _, _ =>
      let s ← Glyph.endLine? s
      return (.clip, increment, s)

/-- **Looking for the indentation.** Passes over the empty lines at the start; gives their line
breaks, the widest indentation seen, and the rest. -/
def leadingBreaks : Nat → List Glyph → Option (List Char × Nat × List Glyph)
  | widest, [] => some ([], widest, [])
  | widest, g :: s =>
    if g.char = ' ' then leadingBreaks widest s
    else
      let widest := max widest g.column
      if g.char = '\t' then none
      else if g.isBreak then
        (leadingBreaks widest s).map fun (breaks, widest, rest) => (g.char :: breaks, widest, rest)
      else some ([], widest, g :: s)

/-- What is read of a block scalar: its text up to the last line, the break at the end of that line,
the breaks of the empty lines after it, and the rest. -/
structure BlockText where
  text : List Char
  lastBreak : List Char
  emptyLines : List Char
  rest : List Glyph

/-- A block text with a piece in front of it. -/
def BlockText.prepend (piece : List Char) (b : BlockText) : BlockText :=
  { b with text := piece ++ b.text }

/-- **Joining lines.** What stands for the break `last` and the breaks of empty lines between two
lines. In folded scalars a single break between lines that begin with no blank is a space. -/
def joinLines (literal : Bool) (last empty : List Char) (blankBefore blankAfter : Bool) :
    List Char :=
  if !literal && last == ['\n'] && !blankBefore && !blankAfter then
    if empty.isEmpty then [' '] else empty
  else last ++ empty

/-- **The lines of a block scalar** with the given indentation. Reads on within a line, or between
lines behind the break `last` and the breaks `empty` of empty lines; `blank` tells whether the line
before begins with a blank. -/
def blockLines (literal : Bool) (indent : Nat) :
    Bool → List Char → List Char → Bool → List Glyph → Option BlockText
  | true, _, _, _, [] => some ⟨[], [], [], []⟩
  | false, last, empty, _, [] => some ⟨[], last, empty, []⟩
  | true, _, _, blank, g :: s =>
    if g.isBreak then blockLines literal indent false [g.char] [] blank s
    else (blockLines literal indent true [] [] blank s).map (.prepend [g.char])
  | false, last, empty, blank, g :: s =>
    if g.char = ' ' ∧ g.column < indent then blockLines literal indent false last empty blank s
    else if g.char = '\t' ∧ g.column < indent then none
    else if g.isBreak then blockLines literal indent false last (empty ++ [g.char]) blank s
    else if g.column = indent then
      (blockLines literal indent true [] [] g.isBlank s).map
        (.prepend (joinLines literal last empty blank g.isBlank ++ [g.char]))
    else some ⟨[], last, empty, g :: s⟩

/-- The text of a block scalar after chomping. -/
def BlockText.chomp (b : BlockText) : Chomping → List Char
  | .strip => b.text
  | .clip => b.text ++ b.lastBreak
  | .keep => b.text ++ b.lastBreak ++ b.emptyLines

/-- **Block scalars,** read behind their sign, where the block around them is indented by `outer`,
which is -1 at the outermost level. -/
def blockScalar (literal : Bool) (outer : Int) (s : List Glyph) :
    Option (List Char × List Glyph) := do
  let (chomping, increment, s) ← blockHead? s
  match increment with
  | some n =>
    let indent := if 0 ≤ outer then outer.toNat + n else n
    let b ← blockLines literal indent false [] [] false s
    return (b.chomp chomping, b.rest)
  | none =>
    let (breaks, widest, s) ← leadingBreaks 0 s
    let indent := max (max widest (outer + 1).toNat) 1
    let b ← blockLines literal indent false [] breaks false s
    return (b.chomp chomping, b.rest)

end PaneLayout.Yaml
