import PaneLayout.Text.Printable

set_option autoImplicit false

/-!
# Quoted text

Messages and log lines show paths, session names and offending strings between double quotes,
with escapes for everything that would not be seen.

## Main definitions

* `PaneLayout.Text.showChar`: one character inside the quotes.
* `PaneLayout.Text.quoted`: a whole text with its quotes.
-/

namespace PaneLayout.Text

/-- One character of a quoted text. -/
def showChar (c : Char) : List Char :=
  if c = '\x00' then ['\\', '0']
  else if c = '\t' then ['\\', 't']
  else if c = '\r' then ['\\', 'r']
  else if c = '\n' then ['\\', 'n']
  else if c = '"' then ['\\', '"']
  else if c = '\\' then ['\\', '\\']
  else if isShown c then [c]
  else ['\\', 'u', '\x7b'] ++ Nat.toDigits 16 c.toNat ++ ['\x7d']

/-- **Quoted text.** The text between double quotes, each character as `showChar` shows it. -/
def quoted (s : String) : String :=
  String.ofList ('"' :: (s.toList.flatMap showChar ++ ['"']))

end PaneLayout.Text
