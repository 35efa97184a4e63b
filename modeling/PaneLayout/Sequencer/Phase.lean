set_option autoImplicit false

/-!
# Phases of a sequencer

## Main definitions

* `PaneLayout.Phase`: what a sequencer is doing.
-/

namespace PaneLayout

/-- **Phases.** Not started or through, at work, or waiting for the session of a split. -/
inductive Phase where
  | idle
  | advancing
  | awaitingSession
  deriving DecidableEq, Repr

/-- A phase as shown in the log. -/
def Phase.shown : Phase → String
  | .idle => "Idle"
  | .advancing => "Advancing"
  | .awaitingSession => "AwaitingSession"

end PaneLayout
