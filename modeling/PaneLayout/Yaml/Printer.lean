import PaneLayout.Yaml.Plain
import PaneLayout.Yaml.Token

set_option autoImplicit false

/-!
# Printing scalars

A text is written so that it reads back as a text. Several lines make a literal block; a text that
would mean something else if it were plain stands between single quotes; every other text is plain.
Where the characters of the text do not admit that style, stronger quotes are taken: single quotes
in place of none, and double quotes in place of a block or of single quotes.

## Main definitions

* `PaneLayout.Yaml.admitsPlain`, `PaneLayout.Yaml.admitsSingle`, `PaneLayout.Yaml.admitsLiteral`:
  the texts that can be written in a style.
* `PaneLayout.Yaml.styleOf`: the style in which a text is written.
* `PaneLayout.Yaml.written`: the text with its quotes or as a block, in a mapping at the outermost
  level.
-/

namespace PaneLayout.Yaml

/-- The characters that can be seen on a line or that end one in every system: all but control
characters, two non-characters and the byte order mark. The others are only written between double
quotes. -/
def isPlainlyShown (c : Char) : Bool :=
  let n := c.toNat
  n == 0x0A || (0x20 ≤ n && n ≤ 0x7E) || (0xA0 ≤ n && n ≤ 0xD7FF) ||
    (0xE000 ≤ n && n ≤ 0xFFFD && c != byteOrderMark) || 0x10000 ≤ n

/-- Whether a character of the first kind stands right before one of the second kind. -/
def hasAdjacent (first second : Char → Bool) : List Char → Bool
  | a :: b :: s => (first a && second b) || hasAdjacent first second (b :: s)
  | _ => false

/-- A space, and nothing else. -/
def isSpace (c : Char) : Bool := c == ' '

/-- A space or a line break. -/
def isSpaceOrBreak (c : Char) : Bool := isSpace c || isBreak c

/-- Whether a text begins with a blank or a line break, or is empty. -/
def beginsWithGap : List Char → Bool
  | [] => true
  | c :: _ => isBlank c || isBreak c

/-- The characters that cannot begin a plain text. -/
def isLeadingIndicator (c : Char) : Bool :=
  ['#', ',', '[', ']', '{', '}', '&', '*', '!', '|', '>', '\'', '"', '%', '@', '\x60'].contains c

/-- Whether a character of the text behind `before` would end a plain scalar: a colon before a gap
or a number sign behind one. -/
def hasIndicatorBehind (before : Char) : List Char → Bool
  | [] => false
  | c :: s =>
    (c == ':' && beginsWithGap s) || (c == '#' && (isBlank before || isBreak before)) ||
      hasIndicatorBehind c s

/-- **Indicators.** Whether a text would not be read as one plain scalar: it begins like the mark of
a document, with an indicator, or with one of three characters before a gap, or it has an indicator
further on. -/
def hasIndicator : List Char → Bool
  | [] => false
  | c :: s =>
    ['-', '-', '-'].isPrefixOf (c :: s) || ['.', '.', '.'].isPrefixOf (c :: s) ||
      isLeadingIndicator c || ((c == '?' || c == ':' || c == '-') && beginsWithGap s) ||
      hasIndicatorBehind c s

/-- Whether a text has to stand between double quotes in any case. -/
def needsEscapes (text : List Char) : Bool :=
  text.any (!isPlainlyShown ·) || hasAdjacent isSpace isBreak text

/-- **Literal texts** do not end in a space. -/
def admitsLiteral (text : List Char) : Bool := !needsEscapes text && !text.getLast?.any isSpace

/-- **Single-quoted texts** have no line that begins with a space. -/
def admitsSingle (text : List Char) : Bool :=
  !needsEscapes text && !hasAdjacent isBreak isSpace text

/-- **Plain texts** have one line, without spaces at its ends and without indicators. -/
def admitsPlain (text : List Char) : Bool :=
  !needsEscapes text && !text.any isBreak && !text.head?.any isSpace &&
    !text.getLast?.any isSpace && !hasIndicator text

/-- Whether a text would not be read as a text if it were plain. -/
def isAmbiguous (text : List Char) : Bool :=
  match meaning text with
  | .text => isZeroLed text
  | _ => true

/-- **The style in which a text is written.** -/
def styleOf (text : List Char) : ScalarStyle :=
  if text.contains '\n' then (if admitsLiteral text then .literal else .double)
  else if admitsPlain text && !isAmbiguous text then .plain
  else if admitsSingle text then .single
  else .double

/-- The spaces before a further line of a scalar. -/
def margin : List Char := [' ', ' ']

/-- The text between single quotes, with the closing quote; `broken` tells whether it begins a line.
A quote is doubled, and so is the first of several line feeds. -/
def singleQuoted : Bool → List Char → List Char
  | broken, [] => (if broken then margin else []) ++ ['\'']
  | broken, c :: s =>
    if isSpace c then c :: singleQuoted broken s
    else if isBreak c then (if c == '\n' && !broken then [c, c] else [c]) ++ singleQuoted true s
    else
      (if broken then margin else []) ++ (if c = '\'' then [c, c] else [c]) ++ singleQuoted false s

/-- The hexadecimal digits of a number, so many of them. -/
def hexDigits : Nat → Nat → List Char
  | 0, _ => []
  | width + 1, n => hexDigits width (n / 16) ++ [(Nat.digitChar (n % 16)).toUpper]

/-- A character between double quotes. -/
def escape (c : Char) : List Char :=
  let n := c.toNat
  if c = '"' ∨ c = '\\' then ['\\', c]
  else if isPlainlyShown c && !isBreak c then [c]
  else if n = 0x00 then ['\\', '0']
  else if n = 0x07 then ['\\', 'a']
  else if n = 0x08 then ['\\', 'b']
  else if n = 0x09 then ['\\', 't']
  else if n = 0x0A then ['\\', 'n']
  else if n = 0x0B then ['\\', 'v']
  else if n = 0x0C then ['\\', 'f']
  else if n = 0x0D then ['\\', 'r']
  else if n = 0x1B then ['\\', 'e']
  else if n = 0x85 then ['\\', 'N']
  else if n = 0x2028 then ['\\', 'L']
  else if n = 0x2029 then ['\\', 'P']
  else if n ≤ 0xFF then ['\\', 'x'] ++ hexDigits 2 n
  else if n ≤ 0xFFFF then ['\\', 'u'] ++ hexDigits 4 n
  else ['\\', 'U'] ++ hexDigits 8 n

/-- The lines of a literal block; `broken` tells whether a line begins. Empty lines have no margin.
-/
def literalLines : Bool → List Char → List Char
  | _, [] => []
  | broken, c :: s =>
    if isBreak c then c :: literalLines true s
    else (if broken then margin else []) ++ c :: literalLines false s

/-- The head of a literal block. The margin is told if the text begins with a space or a line break;
what is told of the end of the text is whether it lacks a line break or has more than one. -/
def literalHead (text : List Char) : List Char :=
  let indentation := if text.head?.any isSpaceOrBreak then ['2'] else []
  let chomping :=
    match text.reverse with
    | [] => ['-']
    | c :: s =>
      if !isBreak c then ['-']
      else if s.isEmpty || s.head?.any isBreak then ['+']
      else []
  '|' :: indentation ++ chomping ++ ['\n']

/-- **Written scalars.** -/
def written (text : List Char) : List Char :=
  match styleOf text with
  | .plain => text
  | .single => '\'' :: singleQuoted false text
  | .literal | .folded => literalHead text ++ literalLines true text
  | .double => '"' :: (text.flatMap escape ++ ['"'])

/-- **Written entries.** The line of an entry, or its lines. A block may end its last line itself.
-/
def entryLines (key value : List Char) : List Char :=
  let lines := key ++ [':', ' '] ++ value
  if lines.getLast?.any isBreak then lines else lines ++ ['\n']

end PaneLayout.Yaml
