import PaneLayout.Decimal.Shortest
import PaneLayout.Json.Basic

set_option autoImplicit false

/-!
# Printing JSON

The compact form: no blanks, members in their order, strings with the fewest escapes, and
floating-point numbers with the fewest digits that read back.

## Main definitions

* `PaneLayout.Json.escape`: a character inside a string literal.
* `PaneLayout.Json.quote`: a string literal.
* `PaneLayout.Json.NumberStyle`: where decimals are written positionally and how exponents look.
* `PaneLayout.Json.chars`, `PaneLayout.Json.render`: a whole value.
-/

namespace PaneLayout

namespace Json

/-- The hexadecimal digit of a number below 16. -/
def hexDigit (n : Nat) : Char := Nat.digitChar n

/-- **Escapes.** Only the quote, the backslash and the characters below U+0020 are escaped. -/
def escape (c : Char) : List Char :=
  if c = '"' then ['\\', '"']
  else if c = '\\' then ['\\', '\\']
  else if c.toNat < 0x20 then
    if c.toNat = 0x08 then ['\\', 'b']
    else if c.toNat = 0x0C then ['\\', 'f']
    else if c = '\n' then ['\\', 'n']
    else if c = '\r' then ['\\', 'r']
    else if c = '\t' then ['\\', 't']
    else ['\\', 'u', '0', '0', hexDigit (c.toNat / 16), hexDigit (c.toNat % 16)]
  else [c]

/-- The string literal of a text. -/
def quote (s : String) : List Char :=
  '"' :: (s.toList.flatMap escape ++ ['"'])

/-- The decimal text of a whole number. -/
def intChars : Int → List Char
  | .ofNat n => Nat.toDigits 10 n
  | .negSucc n => '-' :: Nat.toDigits 10 (n + 1)

/-- How a decimal is laid out: the scientific exponents from `positionalFrom` up to but not
including `positionalTo` are written without an exponent. -/
structure NumberStyle where
  positionalFrom : Int
  positionalTo : Int
  deriving DecidableEq, Repr

/-- Numbers from 0.00001 up to but not including 10^16 have no exponent. -/
def numbers : NumberStyle := ⟨-5, 16⟩

/-- Lays out a positive decimal. Positional numbers have at least one digit after the point, and
an exponent always carries its sign. -/
def NumberStyle.layOut (style : NumberStyle) (d : Decimal) : List Char :=
  let ds := Nat.toDigits 10 d.digits
  let point := (ds.length : Int) + d.exponent
  let power := point - 1
  if style.positionalFrom ≤ power ∧ power < style.positionalTo then
    if 0 ≤ d.exponent then ds ++ List.replicate d.exponent.toNat '0' ++ ['.', '0']
    else if 0 < point then ds.take point.toNat ++ '.' :: ds.drop point.toNat
    else ['0', '.'] ++ List.replicate (-point).toNat '0' ++ ds
  else
    let fraction := if ds.length ≤ 1 then [] else '.' :: ds.drop 1
    ds.take 1 ++ fraction ++ ['e', if power < 0 then '-' else '+'] ++ Nat.toDigits 10 power.natAbs

/-- The text of a floating-point number; one that is not finite has none in JSON and is written
as null. -/
def floatChars (x : Float) : List Char :=
  if x.isFinite then
    let sign := if x.toBits ≥ 0x8000000000000000 then ['-'] else []
    let d := (Binary.ofFloat x).shortest
    sign ++ if d.digits = 0 then ['0', '.', '0'] else numbers.layOut d
  else ['n', 'u', 'l', 'l']

mutual

/-- **The compact form** of a value. -/
def chars : Json → List Char
  | .null => ['n', 'u', 'l', 'l']
  | .bool true => ['t', 'r', 'u', 'e']
  | .bool false => ['f', 'a', 'l', 's', 'e']
  | .int n => intChars n
  | .float x => floatChars x
  | .string s => quote s
  | .array [] => ['[', ']']
  | .array (item :: rest) => '[' :: (chars item ++ moreItems rest)
  | .object [] => ['{', '}']
  | .object ((key, value) :: rest) => '{' :: (quote key ++ ':' :: (chars value ++ moreMembers rest))

/-- The items of an array after the first, and its end. -/
def moreItems : List Json → List Char
  | [] => [']']
  | item :: rest => ',' :: (chars item ++ moreItems rest)

/-- The members of an object after the first, and its end. -/
def moreMembers : List (String × Json) → List Char
  | [] => ['}']
  | (key, value) :: rest => ',' :: (quote key ++ ':' :: (chars value ++ moreMembers rest))

end

/-- The compact form as a string. -/
def render (v : Json) : String := String.ofList v.chars

end Json

end PaneLayout
