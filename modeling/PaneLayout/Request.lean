import PaneLayout.Layout.JsonForm
import PaneLayout.Text.Blank
import PaneLayout.Text.ControlSequence

set_option autoImplicit false

/-!
# Requests in session output

A request is printed into a session as one line: a marker and the JSON form of the request. When
the host hands on the output, the line may be decorated with control sequences and wrapped at the
width of the terminal.

## Main definitions

* `PaneLayout.LayoutRequest.line`: the line that is printed.
* `PaneLayout.LayoutRequest.locate`: the payload behind the last marker of a text.
* `PaneLayout.LayoutRequest.find?`: the request in a text.
-/

namespace PaneLayout.LayoutRequest

/-- The marker in front of a request. -/
def marker : String := "[par-layout config]:"

/-- **The line of a request.** -/
def line (request : LayoutRequest) : String := marker ++ request.render

/-- The text behind the last occurrence of a word. -/
def afterLast? (word : List Char) : List Char → Option (List Char)
  | [] => if word.isEmpty then some [] else none
  | c :: s =>
    match afterLast? word s with
    | some rest => some rest
    | none => if word.isPrefixOf (c :: s) then some ((c :: s).drop word.length) else none

/-- The text up to the last closing brace, which is kept; empty if there is none. -/
def upToLastBrace (s : List Char) : List Char := (s.reverse.dropWhile (· != '}')).reverse

/-- Line breaks, which the terminal may put anywhere. -/
def isLineBreak (c : Char) : Bool := c == '\n' || c == '\r'

/-- **What a text holds.** No marker, a marker without a closing brace behind it, or a payload. -/
inductive Search where
  | absent
  | incomplete
  | payload (text : List Char)
  deriving DecidableEq, Repr

/-- **Looking for a payload.** Control sequences and the blanks around the text are dropped. The
last marker counts, since earlier ones may be echoes, and the payload reaches up to the last
closing brace. Line breaks in it come from the terminal. -/
def locate (text : List Char) : Search :=
  match afterLast? marker.toList (Text.trim (Text.strip text)) with
  | none => .absent
  | some after =>
    match upToLastBrace after with
    | [] => .incomplete
    | raw => .payload (raw.filter (!isLineBreak ·))

/-- **Finding a request.** A payload that is no request is a fault. -/
def find? (text : String) : Except Json.Fault (Option LayoutRequest) :=
  match locate text.toList with
  | .payload raw => (parse raw).map some
  | .absent => .ok none
  | .incomplete => .ok none

end PaneLayout.LayoutRequest
