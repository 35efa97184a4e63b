set_option autoImplicit false

/-!
# Blank characters and trimming

Names of modes, log levels and whole files are compared after the blanks around them are
dropped. A blank is a character with the Unicode property `White_Space`, which is wider than the
four characters that `Char.isWhitespace` knows.

## Main definitions

* `PaneLayout.Text.isBlank`: the property.
* `PaneLayout.Text.trim`: a text without the blanks at its two ends.
-/

namespace PaneLayout.Text

/-- **Blank characters.** The 25 characters with the Unicode property `White_Space`. -/
def isBlank (c : Char) : Bool :=
  let n := c.toNat
  (0x09 ≤ n && n ≤ 0x0D) || n == 0x20 || n == 0x85 || n == 0xA0 || n == 0x1680 ||
    (0x2000 ≤ n && n ≤ 0x200A) || n == 0x2028 || n == 0x2029 || n == 0x202F || n == 0x205F ||
    n == 0x3000

/-- A text without the blanks at its end. -/
def trimEnd (s : List Char) : List Char :=
  (s.reverse.dropWhile isBlank).reverse

/-- **Trimming.** A text without the blanks at its two ends. -/
def trim (s : List Char) : List Char :=
  trimEnd (s.dropWhile isBlank)

end PaneLayout.Text
