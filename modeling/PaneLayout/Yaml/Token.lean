import PaneLayout.Yaml.Scalar

set_option autoImplicit false

/-!
# Tokens

Between the glyphs of a text and the nodes it describes stand tokens. Indentation has become
brackets of its own kind there, and a key is announced before it comes.

## Main definitions

* `PaneLayout.Yaml.ScalarStyle`, `PaneLayout.Yaml.Token`: what a text is made of.
* `PaneLayout.Yaml.word`: cuts off the name of an anchor.
* `PaneLayout.Yaml.tag`: cuts off a tag.
* `PaneLayout.Yaml.directive`: cuts off a directive.
-/

namespace PaneLayout.Yaml

/-- **Styles of scalars.** Plain, between single or double quotes, or as a literal or folded block.
-/
inductive ScalarStyle where
  | plain
  | single
  | double
  | literal
  | folded
  deriving DecidableEq, Repr

/-- **Texts of tags.** Tags may be written as bytes, and bytes that encode no character are none. -/
abbrev TagText := List (Option Char)

/-- **Tokens.** -/
inductive Token where
  | version (major minor : Nat)
  | tagHandle (handle : List Char) (lead : TagText)
  | documentStart
  | documentEnd
  | blockSequenceStart
  | blockMappingStart
  | blockEnd
  | flowSequenceStart
  | flowSequenceEnd
  | flowMappingStart
  | flowMappingEnd
  | blockEntry
  | flowEntry
  | key
  | value
  | alias (name : List Char)
  | anchor (name : List Char)
  | tag (handle : List Char) (suffix : TagText)
  | scalar (style : ScalarStyle) (text : List Char)
  deriving DecidableEq, Repr

/-- The letters, digits, hyphens and underscores at the start, and what is behind them. -/
def wordChars (s : List Glyph) : List Char × List Glyph :=
  (Glyph.chars (s.takeWhile fun g => isWord g.char), s.dropWhile fun g => isWord g.char)

/-- **Names of anchors,** which end at a gap or at one of seven characters. -/
def word (s : List Glyph) : Option (List Char × List Glyph) :=
  match wordChars s with
  | ([], _) => none
  | (name, rest) =>
    if Glyph.atGap rest ∨ ['?', ':', ',', ']', '}', '%', '@', '\x60'].any (Glyph.atChar · rest) then
      some (name, rest)
    else none

/-! ### Tags -/

/-- The glyphs behind a character that has to come next. -/
def expect (c : Char) : List Glyph → Option (List Glyph)
  | [] => none
  | g :: s => if g.char = c then some s else none

/-- The bytes that come next, written as a percent sign and two hexadecimal digits each. -/
def percentByte : List Glyph → Option (Nat × List Glyph)
  | p :: a :: b :: s =>
    if p.char = '%' then do
      let high ← hexDigit? a.char
      let low ← hexDigit? b.char
      return (16 * high + low, s)
    else none
  | _ => none

/-- So many further bytes of a character, of which `value` is known. -/
def percentBytes : Nat → Nat → List Glyph → Option (Nat × List Glyph)
  | 0, value, s => some (value, s)
  | n + 1, value, s => do
    let (byte, s) ← percentByte s
    if byte / 64 = 2 then percentBytes n (64 * value + byte % 64) s else none

/-- A character written as the bytes that encode it. The bytes may have the right form and still
encode none. -/
def percentChar (s : List Glyph) : Option (Option Char × List Glyph) := do
  let (byte, s) ← percentByte s
  let (more, lead, least) ←
    if byte < 0x80 then some (0, byte, 0)
    else if byte / 32 = 6 then some (1, byte % 32, 0x80)
    else if byte / 16 = 14 then some (2, byte % 16, 0x800)
    else if byte / 8 = 30 then some (3, byte % 8, 0x10000)
    else none
  let (value, s) ← percentBytes more lead s
  return (if value < least then none else charOfNumber? value, s)

/-- The characters of tags that stand for themselves. -/
def isTagChar (verbatim : Bool) (c : Char) : Bool :=
  isWord c ||
    [';', '/', '?', ':', '@', '&', '=', '+', '$', '.', '!', '~', '*', '\'', '(', ')'].contains c ||
    (verbatim && [',', '[', ']'].contains c)

/-- The characters of a tag up to the first that cannot be one of them. The number bounds the
steps. -/
def tagChars (verbatim : Bool) : Nat → List Glyph → Option (TagText × List Glyph)
  | 0, s => some ([], s)
  | _ + 1, [] => some ([], [])
  | n + 1, g :: s =>
    if isTagChar verbatim g.char then
      (tagChars verbatim n s).map fun (text, rest) => (some g.char :: text, rest)
    else if g.char = '%' then do
      let (c, s) ← percentChar (g :: s)
      let (text, rest) ← tagChars verbatim n s
      return (c :: text, rest)
    else some ([], g :: s)

/-- A part of a tag. The character NUL ends it, whatever is written behind. -/
def tagPart (verbatim : Bool) (s : List Glyph) : Option (TagText × List Glyph) :=
  (tagChars verbatim s.length s).map fun (text, rest) => (text.takeWhile (· != some '\x00'), rest)

/-- A part of a tag for which something has to be written. -/
def someTagPart (verbatim : Bool) (s : List Glyph) : Option (TagText × List Glyph) :=
  if s.head?.any fun g => isTagChar verbatim g.char || g.char == '%' then tagPart verbatim s
  else none

/-- A tag between angle brackets, read behind the opening one. -/
def verbatimTag (s : List Glyph) : Option (TagText × List Glyph) := do
  let (suffix, s) ← someTagPart true s
  let s ← expect '>' s
  return (suffix, s)

/-- The handle and the suffix of a tag that is not between angle brackets. A tag of the handle `!`
that has no suffix is the suffix `!` of no handle. -/
def shorthandTag (s : List Glyph) : Option (List Char × TagText × List Glyph) :=
  let (name, rest) := wordChars s
  if Glyph.atChar '!' rest then do
    let (suffix, s) ← someTagPart false (rest.drop 1)
    return ('!' :: name ++ ['!'], suffix, s)
  else do
    let (more, s) ← tagPart false rest
    let suffix := name.map some ++ more
    return if suffix.isEmpty then ([], [some '!'], s) else (['!'], suffix, s)

/-- **Tags,** read behind the exclamation mark. A tag is written out between angle brackets, or it
is a handle between exclamation marks and a suffix, or a suffix alone. -/
def tag (inFlow : Bool) (s : List Glyph) : Option (Token × List Glyph) := do
  let (handle, suffix, s) ←
    if Glyph.atChar '<' s then (verbatimTag (s.drop 1)).map fun (suffix, s) => ([], suffix, s)
    else shorthandTag s
  if Glyph.atGap s ∨ (inFlow ∧ Glyph.atChar ',' s) then some (.tag handle suffix, s) else none

/-! ### Directives -/

/-- A part of a version: up to nine digits. -/
def versionPart (s : List Glyph) : Option (Nat × List Glyph) :=
  let ds := Glyph.chars (s.takeWhile (·.char.isDigit))
  if 1 ≤ ds.length ∧ ds.length ≤ 9 then
    some (Nat.ofDigitChars 10 ds 0, s.dropWhile (·.char.isDigit))
  else none

/-- The version that a directive asks for. -/
def versionDirective (s : List Glyph) : Option (Token × List Glyph) := do
  let (major, s) ← versionPart (Glyph.skipBlanks s)
  let s ← expect '.' s
  let (minor, s) ← versionPart s
  return (.version major minor, s)

/-- The handle that a directive explains: exclamation marks, with a name between two of them. -/
def directiveHandle (s : List Glyph) : Option (List Char × List Glyph) := do
  let s ← expect '!' s
  let (name, s) := wordChars s
  if Glyph.atChar '!' s then some ('!' :: name ++ ['!'], s.drop 1)
  else if name.isEmpty then some (['!'], s)
  else none

/-- The handle that a directive explains, and what it stands for. -/
def handleDirective (s : List Glyph) : Option (Token × List Glyph) := do
  let (handle, s) ← directiveHandle (Glyph.skipBlanks s)
  if s.head?.any Glyph.isBlank then
    let (lead, s) ← someTagPart true (Glyph.skipBlanks s)
    if Glyph.atGap s then some (.tagHandle handle lead, s) else none
  else none

/-- **Directives,** read behind the percent sign up to the end of the line. -/
def directive (s : List Glyph) : Option (Token × List Glyph) := do
  let (name, s) := wordChars s
  if !Glyph.atGap s then none
  else
    let (token, s) ←
      if name = ['Y', 'A', 'M', 'L'] then versionDirective s
      else if name = ['T', 'A', 'G'] then handleDirective s
      else none
    let s ← Glyph.endLine? s
    return (token, s)

end PaneLayout.Yaml
