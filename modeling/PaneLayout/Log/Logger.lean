import PaneLayout.Log.Record
import PaneLayout.Text.Blank

set_option autoImplicit false

/-!
# The debug log file

The file is opened when the level is first found to be other than `off`, and starts with a head
that names the level of that moment. The level comes from the environment and may be changed by
installing the bridge; only the first installation sets what the general log lets through.

## Main definitions

* `PaneLayout.Log.Level.ofEnvironment`: the level that an environment variable asks for.
* `PaneLayout.Log.Logger`: the level, the limit of the general log, and the file.
* `PaneLayout.Log.Logger.start`: the logger at first use.
* `PaneLayout.Log.Logger.installBridge`: routes the general log into the file.
* `PaneLayout.Log.Logger.write`: one record.
* `PaneLayout.Log.Journal`: a logger that comes into being at first use.
-/

namespace PaneLayout.Log

/-- A number below 256, written in decimal digits with or without a plus sign. -/
def smallNumber? (s : List Char) : Option Nat :=
  let ds := match s with
    | '+' :: ds => ds
    | ds => ds
  if ds.isEmpty ∨ !ds.all Char.isDigit then none
  else
    let n := Nat.ofDigitChars 10 ds 0
    if n < 256 then some n else none

/-- **The level of the environment.** Without a number in the variable nothing is written. -/
def Level.ofEnvironment (setting : Option String) : Level :=
  match setting.bind fun text => smallNumber? (Text.trim text.toList) with
  | some n => .ofNumber n
  | none => .off

/-- **Loggers.** The general log lets through what is at least as grave as `limit`; the bridge is
installed once. The file has no text as long as it is not open. -/
structure Logger where
  level : Level
  limit : Option Severity
  bridged : Bool
  file : Option String
  deriving DecidableEq, Repr

namespace Logger

/-- The rule of 80 signs around the head of the file. -/
def rule : String := String.ofList (List.replicate 80 '=')

/-- The head of the file. -/
def head (clock : String) (level : Level) : String :=
  s!"\n{rule}\npar-layout debug session started at {clock} (level={level.name})\n{rule}\n"

/-- Opens the file, if it is not open and the level is not `off`. -/
def opened (clock : String) (logger : Logger) : Logger :=
  if logger.file.isNone ∧ logger.level ≠ .off then
    { logger with file := some (head clock logger.level) }
  else logger

/-- **First use.** The logger starts with the level of the environment. -/
def start (clock : String) (level : Level) : Logger := opened clock ⟨level, none, false, none⟩

/-- Whether records of a level are written. -/
def isEnabled (logger : Logger) (level : Level) : Bool :=
  level != .off && level.rank ≤ logger.level.rank

/-- **Installing the bridge.** A given number replaces the level. What the general log lets through
is set by the first installation and stays. -/
def installBridge (clock : String) (number : Option Nat) (logger : Logger) : Logger :=
  let logger := match number with
    | some n => { logger with level := .ofNumber n }
    | none => logger
  let logger := opened clock logger
  if logger.bridged then logger
  else { logger with bridged := true, limit := logger.level.severity? }

/-- Whether the general log lets a severity through to the bridge. -/
def passes (logger : Logger) (severity : Severity) : Bool :=
  match logger.limit with
  | some limit => severity.rank ≤ limit.rank
  | none => false

/-- Whether a record of the general log with this severity reaches the file. -/
def isBridged (logger : Logger) (severity : Severity) : Bool :=
  logger.bridged && logger.passes severity && logger.isEnabled (.ofSeverity severity)

/-- One line of the file. -/
def line (clock : String) (level : Level) (category text : String) : String :=
  s!"[{clock}] [{level.label}] [{category}] {text}\n"

/-- Writes a line, if the level is enabled and the file is open. -/
def put (clock : String) (level : Level) (category text : String) (logger : Logger) : Logger :=
  if logger.isEnabled level then
    { logger with file := logger.file.map (· ++ line clock level category text) }
  else logger

/-- **Writing a record.** -/
def write (clock : String) (logger : Logger) : Record → Logger
  | .debug level category text => logger.put clock level category text
  | .general severity source text =>
    if logger.isBridged severity then logger.put clock (.ofSeverity severity) source text
    else logger

end Logger

/-- **Journals.** The logger of a process, which is not there before its first use. -/
structure Journal where
  environment : Level
  logger : Option Logger
  deriving DecidableEq, Repr

namespace Journal

/-- The journal of a process that has written nothing. -/
def ofEnvironment (setting : Option String) : Journal := ⟨.ofEnvironment setting, none⟩

/-- The logger, which is started if need be. -/
def used (clock : String) (journal : Journal) : Logger :=
  journal.logger.getD (.start clock journal.environment)

/-- Uses the logger. -/
def update (clock : String) (f : Logger → Logger) (journal : Journal) : Journal :=
  { journal with logger := some (f (journal.used clock)) }

/-- Writes a record. One of the general log uses the logger only if there is one already, since the
bridge cannot have been installed before. -/
def write (clock : String) (journal : Journal) (record : Record) : Journal :=
  match record, journal.logger with
  | .general _ _ _, none => journal
  | record, _ => journal.update clock (·.write clock record)

/-- The text of the file; none if there is no file. -/
def text? (journal : Journal) : Option String := journal.logger.bind Logger.file

end Journal

end PaneLayout.Log
