set_option autoImplicit false

/-!
# Log records

There are two logs. The debug log is a file of its own with five levels. The general log is shared
with everything else in the process and has severities; its records reach the debug log only
through a bridge.

## Main definitions

* `PaneLayout.Log.Level`: the levels of the debug log.
* `PaneLayout.Log.Severity`: the severities of the general log.
* `PaneLayout.Log.Level.ofSeverity`, `PaneLayout.Log.Level.severity?`: from one scale to the other.
* `PaneLayout.Log.Record`: a record of either log.
-/

namespace PaneLayout.Log

/-- **Levels of the debug log,** from none to all. -/
inductive Level where
  | off
  | error
  | info
  | debug
  | trace
  deriving DecidableEq, Repr

/-- **Severities of the general log.** -/
inductive Severity where
  | error
  | warn
  | info
  | debug
  | trace
  deriving DecidableEq, Repr

namespace Level

/-- The place of a level in the order from none to all. -/
def rank : Level → Nat
  | .off => 0
  | .error => 1
  | .info => 2
  | .debug => 3
  | .trace => 4

/-- The level with a given number; all numbers from four on mean the highest level. -/
def ofNumber : Nat → Level
  | 0 => .off
  | 1 => .error
  | 2 => .info
  | 3 => .debug
  | _ => .trace

/-- **The level of a severity.** Warnings count as errors. -/
def ofSeverity : Severity → Level
  | .error => .error
  | .warn => .error
  | .info => .info
  | .debug => .debug
  | .trace => .trace

/-- The least severity that a level lets through; none for `off`. -/
def severity? : Level → Option Severity
  | .off => none
  | .error => some .warn
  | .info => some .info
  | .debug => some .debug
  | .trace => some .trace

/-- The level in a line of the file, padded to five letters. -/
def label : Level → String
  | .off => ""
  | .error => "ERROR"
  | .info => "INFO "
  | .debug => "DEBUG"
  | .trace => "TRACE"

/-- The level in the head of the file. -/
def name : Level → String
  | .off => "Off"
  | .error => "Error"
  | .info => "Info"
  | .debug => "Debug"
  | .trace => "Trace"

end Level

/-- The place of a severity in the order from the gravest to the least. -/
def Severity.rank : Severity → Nat
  | .error => 1
  | .warn => 2
  | .info => 3
  | .debug => 4
  | .trace => 5

/-- **Records.** A record of the debug log with its category, or one of the general log with the
module it comes from. -/
inductive Record where
  | debug (level : Level) (category text : String)
  | general (severity : Severity) (source text : String)
  deriving DecidableEq, Repr

/-- A level lets a severity through exactly if its own severity does. -/
theorem Level.rank_ofSeverity_le_iff (level : Level) (severity : Severity) :
    (ofSeverity severity).rank ≤ level.rank ↔
      ∃ limit, level.severity? = some limit ∧ severity.rank ≤ limit.rank := by
  cases level <;> cases severity <;>
    simp [ofSeverity, severity?, Level.rank, Severity.rank]

end PaneLayout.Log
