set_option autoImplicit false

/-!
# Glyphs

YAML is sensitive to columns. A text is read as a list of glyphs, which are characters with their
places. Line breaks are made uniform on the way: CR, CR LF and NEL become LF, while the line and
paragraph separators stay what they are.

## Main definitions

* `PaneLayout.Yaml.isAllowed`: the characters that may stand in a text.
* `PaneLayout.Yaml.Glyph`: a character with its place.
* `PaneLayout.Yaml.Glyph.ofText`: the glyphs of a text.
-/

namespace PaneLayout.Yaml

/-- Control characters, surrogates and non-characters may not stand in a text. -/
def isAllowed (c : Char) : Bool :=
  let n := c.toNat
  n == 0x09 || n == 0x0A || n == 0x0D || (0x20 ≤ n && n ≤ 0x7E) || n == 0x85 ||
    (0xA0 ≤ n && n ≤ 0xD7FF) || (0xE000 ≤ n && n ≤ 0xFFFD) || 0x10000 ≤ n

/-- A space or a tab. -/
def isBlank (c : Char) : Bool := c == ' ' || c == '\t'

/-- The five line breaks. -/
def isBreak (c : Char) : Bool :=
  c == '\n' || c == '\r' || c == '\u0085' || c == '\u2028' || c == '\u2029'

/-- The characters of names: letters and digits of ASCII, the hyphen and the underscore. -/
def isWord (c : Char) : Bool := c.isAlphanum || c == '-' || c == '_'

/-- The byte order mark. -/
def byteOrderMark : Char := '\ufeff'

/-- **Glyphs.** A character with its line and column, both counted from zero, and the number of
bytes that encode what stands before it in its line. -/
structure Glyph where
  char : Char
  line : Nat
  column : Nat
  offset : Nat
  deriving DecidableEq, Repr

namespace Glyph

/-- Whether a glyph is a space or a tab. -/
def isBlank (g : Glyph) : Bool := Yaml.isBlank g.char

/-- Whether a glyph ends its line. -/
def isBreak (g : Glyph) : Bool := Yaml.isBreak g.char

/-- The glyphs of a text that begins at the given place. -/
def locate (line column offset : Nat) : List Char → List Glyph
  | [] => []
  | '\r' :: '\n' :: s => ⟨'\n', line, column, offset⟩ :: locate (line + 1) 0 0 s
  | c :: s =>
    if c = '\r' ∨ c = '\u0085' then ⟨'\n', line, column, offset⟩ :: locate (line + 1) 0 0 s
    else if Yaml.isBreak c then ⟨c, line, column, offset⟩ :: locate (line + 1) 0 0 s
    else ⟨c, line, column, offset⟩ :: locate line (column + 1) (offset + c.utf8Size) s

/-- **The glyphs of a text.** -/
def ofText (s : List Char) : List Glyph := locate 0 0 0 s

/-- The characters of some glyphs. -/
def chars (s : List Glyph) : List Char := s.map Glyph.char

/-- Whether nothing, a blank or a line break comes next. -/
def atGap : List Glyph → Bool
  | [] => true
  | g :: _ => g.isBlank || g.isBreak

/-- Whether the next glyph is the given character. -/
def atChar (c : Char) : List Glyph → Bool
  | [] => false
  | g :: _ => g.char == c

/-- Whether a line begins here with three hyphens or three dots and a gap. -/
def atDocumentMark : List Glyph → Bool
  | a :: b :: c :: rest =>
    a.column == 0 && a.char == b.char && b.char == c.char && (a.char == '-' || a.char == '.') &&
      atGap rest
  | _ => false

/-- The glyphs behind the blanks that come next. -/
def skipBlanks (s : List Glyph) : List Glyph := s.dropWhile Glyph.isBlank

/-- **The end of a line.** The glyphs of the next line, if only blanks and a comment are left of
this one. -/
def endLine? (s : List Glyph) : Option (List Glyph) :=
  let s := skipBlanks s
  let s := if atChar '#' s then s.dropWhile (!·.isBreak) else s
  match s with
  | [] => some []
  | g :: rest => if g.isBreak then some rest else none

end Glyph

end PaneLayout.Yaml
