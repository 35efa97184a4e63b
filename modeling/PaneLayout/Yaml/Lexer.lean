import PaneLayout.Yaml.Token

set_option autoImplicit false

/-!
# From glyphs to tokens

Two things cannot be told from the next glyphs alone. Indentation opens and closes blocks, so the
columns of the open blocks are kept. A key is known as such only by the colon behind it, so the
place of the last thing that may be a key is kept as well, one for every open bracket.

## Main definitions

* `PaneLayout.Yaml.Lexer`: what is known at a place of the text.
* `PaneLayout.Yaml.Lexer.next`: takes the next thing off the text.
* `PaneLayout.Yaml.Token.ofText?`: the tokens of a text.
-/

namespace PaneLayout.Yaml

/-- **Possible keys.** What may turn out to be a key: how many tokens stand before it, the glyph it
begins with, and whether it has to be a key because it begins in the column of its block. -/
structure PossibleKey where
  required : Bool
  tokensBefore : Nat
  first : Glyph
  deriving DecidableEq, Repr

/-- **Lexers.** The tokens found so far, the last one first; the columns of the open blocks, the
innermost first; what may be a key at this level of brackets and at the levels around it; whether a
key may begin here; and the glyphs to come. -/
structure Lexer where
  found : List Token
  blocks : List Nat
  possible : Option PossibleKey
  around : List (Option PossibleKey)
  keyAllowed : Bool
  rest : List Glyph

namespace Lexer

/-- The start of a text. -/
def start (s : List Glyph) : Lexer := ⟨[], [], none, [], true, s⟩

/-- Whether a bracket is open. -/
def inFlow (l : Lexer) : Bool := !l.around.isEmpty

/-- The column of the innermost block, and -1 outside of all blocks. -/
def indent (l : Lexer) : Int :=
  match l.blocks with
  | [] => -1
  | column :: _ => column

/-- One more token. -/
def push (token : Token) (l : Lexer) : Lexer := { l with found := token :: l.found }

/-- A token between those found, with so many of them before it. -/
def insert (token : Token) (before : Nat) (l : Lexer) : Lexer :=
  let later := l.found.length - before
  { l with found := l.found.take later ++ token :: l.found.drop later }

/-! ### Blocks -/

/-- Closes the blocks that are indented further than the given column, unless a bracket is open. -/
def closeBlocks (column : Int) (l : Lexer) : Lexer :=
  if l.inFlow then l
  else
    let closed := l.blocks.takeWhile fun (b : Nat) => column < b
    { l with
      found := List.replicate closed.length Token.blockEnd ++ l.found
      blocks := l.blocks.drop closed.length }

/-- Opens a block at a column that is indented further than the open ones, where its token stands
behind so many others, unless a bracket is open. -/
def openBlock (token : Token) (column before : Nat) (l : Lexer) : Lexer :=
  if l.inFlow ∨ (column : Int) ≤ l.indent then l
  else { l.insert token before with blocks := column :: l.blocks }

/-! ### Keys -/

/-- From here on the last thing is no key. -/
def dropKey (l : Lexer) : Option Lexer :=
  if l.possible.any (·.required) then none else some { l with possible := none }

/-- Notes that what begins here may be a key. -/
def noteKey (g : Glyph) (l : Lexer) : Option Lexer :=
  if l.keyAllowed then
    l.dropKey.map fun l =>
      let required := !l.inFlow && l.indent == (g.column : Int)
      { l with possible := some ⟨required, l.found.length, g⟩ }
  else some l

/-- The number of bytes that a key may have. -/
def keyLimit : Nat := 1024

/-- Whether a possible key is too far away from a glyph. A key and its colon are on one line, and no
more bytes than a key may have lie between them. -/
def isStale (g : Glyph) (k : PossibleKey) : Bool :=
  decide (k.first.line < g.line) || decide (k.first.offset + keyLimit < g.offset)

/-- A possible key that is not too far away. -/
def stillPossible (g : Glyph) (key : Option PossibleKey) : Option (Option PossibleKey) :=
  match key with
  | none => some none
  | some k => if isStale g k then (if k.required then none else some none) else some (some k)

/-- Forgets what is too far away to be a key. -/
def dropStale (g : Glyph) (l : Lexer) : Option Lexer := do
  let possible ← stillPossible g l.possible
  let around ← l.around.mapM (stillPossible g)
  return { l with possible, around }

/-! ### Between tokens -/

/-- Passes over spaces, tabs where they cannot be taken for indentation, comments, line breaks and a
byte order mark at the start of a line. A key may begin behind a line break, unless a bracket is
open. The first flag tells whether a comment is open. -/
def skipGaps (inFlow : Bool) : Bool → Bool → List Glyph → Bool × List Glyph
  | _, allowed, [] => (allowed, [])
  | comment, allowed, g :: s =>
    if g.isBreak then skipGaps inFlow false (allowed || !inFlow) s
    else if comment || g.char == ' ' || (g.char == '\t' && (inFlow || !allowed)) ||
        (g.char == byteOrderMark && g.column == 0) then
      skipGaps inFlow comment allowed s
    else if g.char == '#' then skipGaps inFlow true allowed s
    else (allowed, g :: s)

/-- The lexer at the start of the next token. -/
def toToken (l : Lexer) : Lexer :=
  let (keyAllowed, rest) := skipGaps l.inFlow false l.keyAllowed l.rest
  { l with keyAllowed, rest }

/-! ### Tokens by their first glyph -/

/-- The lexer with a new rest. -/
def behind (rest : List Glyph) (l : Lexer) : Lexer := { l with rest }

/-- The lexer where a key may or may not begin. -/
def allowKey (keyAllowed : Bool) (l : Lexer) : Lexer := { l with keyAllowed }

/-- A token that belongs to no block: a directive, or the start or the end of a document. -/
def outermost (token : Token) (rest : List Glyph) (l : Lexer) : Option Lexer :=
  (l.closeBlocks (-1)).dropKey.map fun l => ((l.allowKey false).push token).behind rest

/-- An opening bracket, at which a key may begin. -/
def openBracket (token : Token) (g : Glyph) (rest : List Glyph) (l : Lexer) : Option Lexer :=
  (l.noteKey g).map fun l =>
    { l with
      found := token :: l.found
      possible := none
      around := l.possible :: l.around
      keyAllowed := true
      rest := rest }

/-- A closing bracket. What began at the opening one may still be a key. -/
def closeBracket (token : Token) (rest : List Glyph) (l : Lexer) : Option Lexer :=
  l.dropKey.map fun l =>
    let (possible, around) :=
      match l.around with
      | [] => (none, [])
      | p :: ps => (p, ps)
    { l with found := token :: l.found, possible, around, keyAllowed := false, rest }

/-- A comma between brackets. -/
def comma (rest : List Glyph) (l : Lexer) : Option Lexer :=
  l.dropKey.map fun l => ((l.allowKey true).push .flowEntry).behind rest

/-- Opens a block at a glyph where a key may begin, unless a bracket is open. -/
def openBlockHere (token : Token) (g : Glyph) (l : Lexer) : Option Lexer :=
  if l.inFlow then some l
  else if l.keyAllowed then some (l.openBlock token g.column l.found.length)
  else none

/-- The hyphen before an entry of a block sequence. -/
def hyphen (g : Glyph) (rest : List Glyph) (l : Lexer) : Option Lexer := do
  let l ← l.openBlockHere .blockSequenceStart g
  let l ← l.dropKey
  return ((l.allowKey true).push .blockEntry).behind rest

/-- The question mark before a key. -/
def questionMark (g : Glyph) (rest : List Glyph) (l : Lexer) : Option Lexer := do
  let l ← l.openBlockHere .blockMappingStart g
  let l ← l.dropKey
  return ((l.allowKey !l.inFlow).push .key).behind rest

/-- The colon before a value. What may be a key is one. -/
def colon (g : Glyph) (rest : List Glyph) (l : Lexer) : Option Lexer :=
  match l.possible with
  | some k =>
    let l := l.insert .key k.tokensBefore
    let l := l.openBlock .blockMappingStart k.first.column k.tokensBefore
    some ((({ l with possible := none }.allowKey false).push .value).behind rest)
  | none =>
    (l.openBlockHere .blockMappingStart g).map fun l =>
      ((l.allowKey !l.inFlow).push .value).behind rest

/-- A token at which a key may begin. -/
def content (g : Glyph) (token : Token) (rest : List Glyph) (l : Lexer) : Option Lexer :=
  (l.noteKey g).map fun l => ((l.allowKey false).push token).behind rest

/-- A block scalar. -/
def block (literal : Bool) (rest : List Glyph) (l : Lexer) : Option Lexer := do
  let l ← l.dropKey
  let (text, rest) ← blockScalar literal l.indent rest
  return ((l.allowKey true).push (.scalar (if literal then .literal else .folded) text)).behind rest

/-- A plain scalar. Behind a line break a key may begin. -/
def plain (g : Glyph) (s : List Glyph) (l : Lexer) : Option Lexer := do
  let l ← l.noteKey g
  let (text, broken, rest) ← plainScalar l.inFlow (l.indent + 1).toNat .none (g :: s)
  return ((l.allowKey broken).push (.scalar .plain text)).behind rest

/-- The characters that cannot begin a plain scalar, unless they are followed by something else than
a gap. -/
def isIndicator (c : Char) : Bool :=
  ['-', '?', ':', ',', '[', ']', '{', '}', '#', '&', '*', '!', '|', '>', '\'', '"', '%', '@',
    '\x60'].contains c

/-- Whether a plain scalar begins with `g`, before `s`. -/
def beginsPlain (inFlow : Bool) (g : Glyph) (s : List Glyph) : Bool :=
  !(g.isBlank || g.isBreak || isIndicator g.char) ||
    (g.char == '-' && !s.head?.any Glyph.isBlank) ||
    (!inFlow && (g.char == '?' || g.char == ':') && !Glyph.atGap s)

/-- **The next token,** which begins with `g`, before `s`. -/
def take (g : Glyph) (s : List Glyph) (l : Lexer) : Option Lexer :=
  let c := g.char
  if g.column = 0 ∧ c = '%' then do
    let (token, rest) ← directive s
    l.outermost token rest
  else if Glyph.atDocumentMark (g :: s) then
    l.outermost (if c = '-' then .documentStart else .documentEnd) (s.drop 2)
  else if c = '[' then l.openBracket .flowSequenceStart g s
  else if c = '{' then l.openBracket .flowMappingStart g s
  else if c = ']' then l.closeBracket .flowSequenceEnd s
  else if c = '}' then l.closeBracket .flowMappingEnd s
  else if c = ',' then l.comma s
  else if c = '-' ∧ Glyph.atGap s then l.hyphen g s
  else if c = '?' ∧ (l.inFlow ∨ Glyph.atGap s) then l.questionMark g s
  else if c = ':' ∧ (l.inFlow ∨ Glyph.atGap s) then l.colon g s
  else if c = '*' then do
    let (name, rest) ← word s
    l.content g (.alias name) rest
  else if c = '&' then do
    let (name, rest) ← word s
    l.content g (.anchor name) rest
  else if c = '!' then do
    let (token, rest) ← tag l.inFlow s
    l.content g token rest
  else if c = '|' ∧ !l.inFlow then l.block true s
  else if c = '>' ∧ !l.inFlow then l.block false s
  else if c = '\'' then do
    let (text, rest) ← quotedScalar true .none s
    l.content g (.scalar .single text) rest
  else if c = '"' then do
    let (text, rest) ← quotedScalar false .none s
    l.content g (.scalar .double text) rest
  else if beginsPlain l.inFlow g s then l.plain g s
  else none

/-- **A step.** Takes the next token off the text. -/
def next (l : Lexer) (g : Glyph) (s : List Glyph) : Option Lexer := do
  let l ← l.dropStale g
  (l.closeBlocks g.column).take g s

/-- The tokens of the whole text. The number bounds the steps; one more than there are glyphs is
always enough. -/
def run : Nat → Lexer → Option (List Token)
  | 0, _ => none
  | steps + 1, l =>
    let l := l.toToken
    match l.rest with
    | [] => (l.closeBlocks (-1)).dropKey.map fun l => l.found.reverse
    | g :: s => (l.next g s).bind (run steps)

end Lexer

/-- **The tokens of a text,** in which no character may stand that is not allowed. -/
def Token.ofText? (text : List Char) : Option (List Token) :=
  if text.all isAllowed then
    let glyphs := Glyph.ofText text
    Lexer.run (glyphs.length + 1) (.start glyphs)
  else none

end PaneLayout.Yaml
