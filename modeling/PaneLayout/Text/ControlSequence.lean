set_option autoImplicit false

/-!
# Control sequences

Terminal output is decorated with sequences that move the cursor and set colours. A control
sequence is ESC or the 8-bit introducer U+009B, any number of intermediate characters, an optional
list of parameters and one final character. A parameter list is a number of one to four digits
followed by any number of groups of a semicolon and at most four digits.

## Main definitions

* `PaneLayout.Text.parameterRun`: the longest parameter list.
* `PaneLayout.Text.controlSequence?`: the control sequence at the start of a text.
* `PaneLayout.Text.strip`: a text without its control sequences.
-/

namespace PaneLayout.Text

/-- ESC and the 8-bit introducer. -/
def isIntroducer (c : Char) : Bool := c == '\x1b' || c == '\u009b'

/-- The characters that may follow an introducer in any number. -/
def isIntermediate (c : Char) : Bool :=
  c == '[' || c == '(' || c == ')' || c == '#' || c == ';' || c == '?'

/-- The characters that may end a control sequence. -/
def isFinal (c : Char) : Bool :=
  c.isDigit || ('A' ≤ c && c ≤ 'O') || c == 'R' || c == 'Z' || c == 'c' ||
    ('f' ≤ c && c ≤ 'n') || c == 'q' || c == 'r' || c == 'y' || c == '=' || c == '>' || c == '<'

/-- The rest of a parameter list, when its current group may still take `room` digits. -/
def parameterRun : Nat → List Char → List Char
  | _, [] => []
  | room, c :: s =>
    if c = ';' then c :: parameterRun 4 s
    else
      match room with
      | 0 => []
      | room + 1 => if c.isDigit then c :: parameterRun room s else []

/-- **Parameters.** The longest parameter list at the start of a text; it starts with a digit. -/
def parameters : List Char → List Char
  | [] => []
  | c :: s => if c.isDigit then parameterRun 4 (c :: s) else []

/-- **What follows the intermediate characters.** The parameters and a final character; if no final
character follows the parameters, their last digit is taken for it. -/
def ending? (s : List Char) : Option (List Char) :=
  let run := parameters s
  match s.drop run.length with
  | c :: _ => if isFinal c then some (run ++ [c]) else lastDigit? run
  | [] => lastDigit? run
where
  /-- The parameters up to their last digit. -/
  lastDigit? (run : List Char) : Option (List Char) :=
    if run.isEmpty then none else some (run.reverse.dropWhile (· == ';')).reverse

/-- **Control sequences.** The control sequence at the start of a text. -/
def controlSequence? : List Char → Option (List Char)
  | [] => none
  | c :: s =>
    if isIntroducer c then
      let middle := s.takeWhile isIntermediate
      (ending? (s.dropWhile isIntermediate)).map fun tail => c :: (middle ++ tail)
    else none

/-- Drops `pending` characters and then the control sequences of the rest. -/
def stripFrom : Nat → List Char → List Char
  | _, [] => []
  | pending + 1, _ :: s => stripFrom pending s
  | 0, c :: s =>
    match controlSequence? (c :: s) with
    | some word => stripFrom (word.length - 1) s
    | none => c :: stripFrom 0 s

/-- **Stripping.** A text without its control sequences. They are looked for from left to right,
once; what closes up when one is dropped is not looked at again. -/
def strip (s : List Char) : List Char := stripFrom 0 s

/-- A text without introducers is left alone. -/
theorem strip_eq_self {s : List Char} (h : ∀ c ∈ s, isIntroducer c = false) : strip s = s := by
  unfold strip
  induction s with
  | nil => rfl
  | cons c s ih =>
    have hc := h c (by simp)
    simp [stripFrom, controlSequence?, hc, ih fun d hd => h d (by simp [hd])]

end PaneLayout.Text
