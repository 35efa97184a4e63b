import PaneLayout.Notice

set_option autoImplicit false

/-!
# Sequencers

A sequencer plays a plan against a host. Commands and jumps are done at once. A split only asks for
a session; the sequencer then waits until it is told to go on.

The host gives no handle for a session that was asked for. So panes are bound late: before each
instruction, the pane that the instruction before it was about is bound to the session that has
the focus.

## Main definitions

* `PaneLayout.HostCall`: a call that a sequencer makes to its host.
* `PaneLayout.Sequencer`: a plan being played.
* `PaneLayout.Sequencer.enter`, `PaneLayout.Sequencer.call?`: what an instruction does to the
  sequencer, and the call it makes.
* `PaneLayout.Sequencer.drain`: plays instructions up to the next split.
* `PaneLayout.Sequencer.advance`, `PaneLayout.Sequencer.resume`: begins, and goes on after a split.
-/

namespace PaneLayout

/-- **Host calls.** -/
inductive HostCall where
  | request (request : SessionRequest)
  | send (session : SessionId) (text : String)
  | focus (session : SessionId)
  deriving DecidableEq, Repr

/-- Makes a call to a host. -/
def HostCall.apply {H : Type} [SessionHost H] (call : HostCall) (host : H) : H :=
  match call with
  | .request r => SessionHost.request host r
  | .send id text => SessionHost.send host id text
  | .focus id => SessionHost.focus host id

/-- Makes a call to a host, if there is one to make. If there is none, the host goes on by itself.
-/
def HostCall.applyAll? {H : Type} [SessionHost H] (call : Option HostCall) (host : H) : H :=
  match call with
  | some call => call.apply host
  | none => SessionHost.idle host

/-- **Sequencers.** The instructions left, the panes with the sessions known so far, the pane of the
last instruction and the session that had the focus then, and every session heard of. -/
structure Sequencer where
  queue : List Instruction
  panes : Registry
  cwd : String
  hideFromHistory : Bool
  phase : Phase
  lastPane : Nat
  lastSession : Option SessionId
  known : List SessionId
  deriving DecidableEq, Repr

namespace Sequencer

/-- A sequencer that has not begun. -/
def ofPlan (plan : Plan) (cwd : String) (hideFromHistory : Bool) : Sequencer :=
  ⟨plan.queue, plan.panes, cwd, hideFromHistory, .idle, 0, none, []⟩

/-- Whether every instruction has been played. -/
def isFinished (s : Sequencer) : Bool := s.queue.isEmpty && s.phase == .idle

/-- Whether a session has been heard of. -/
def knows (s : Sequencer) (id : SessionId) : Bool := s.known.contains id

/-- **Hearing of a session.** -/
def observe (s : Sequencer) (id : SessionId) : Sequencer :=
  if s.knows id then s else { s with known := id :: s.known }

/-- **Late binding.** The pane of the last instruction shows the session that has the focus. -/
def bindLast (s : Sequencer) : Option SessionId → Sequencer
  | some id => { s with panes := s.panes.bind s.lastPane id }
  | none => s

/-- **Taking up an instruction,** when `active` has the focus and `rest` is left to play. -/
def enter (s : Sequencer) (instruction : Instruction) (rest : List Instruction)
    (active : Option SessionId) : Sequencer :=
  { s.bindLast active with queue := rest, lastPane := instruction.pane, lastSession := active }

/-- The text typed to run a command. -/
def typed (s : Sequencer) (command : String) : String :=
  (if s.hideFromHistory then " " else "") ++ command ++ "\n"

/-- **The call of an instruction** that has been taken up. Commands need a known pane and a session
that has the focus; jumps need a pane that is bound. -/
def call? (s : Sequencer) : Instruction → Option HostCall
  | .split mode _ => some (.request ⟨s.cwd, mode.splitHint⟩)
  | .cmd p =>
    match s.panes.get? p, s.lastSession with
    | some pane, some id => some (.send id (s.typed pane.command))
    | _, _ => none
  | .jump p => (s.panes.session? p).map .focus

/-- What is said when an instruction is taken up with `left` instructions behind it. -/
def entryNotices (s : Sequencer) (instruction : Instruction) (left : Nat)
    (active : Option SessionId) : List Notice :=
  match active with
  | some id =>
    if s.panes.isUnbound s.lastPane then
      [.paneBound s.lastPane id, .executing instruction active left]
    else [.executing instruction active left]
  | none => [.executing instruction active left]

/-- What is said of an instruction that makes no call. -/
def callNotices (s : Sequencer) : Instruction → List Notice
  | .split _ _ => []
  | .cmd p =>
    match s.panes.get? p, s.lastSession with
    | none, _ => [.unknownPane p]
    | some pane, none => [.noActiveSession p pane.command]
    | some _, some _ => []
  | .jump p => if (s.panes.session? p).isNone then [.jumpSkipped p] else []

/-- A sequencer and its host after some play, and what was said meanwhile. -/
structure Play (H : Type) where
  sequencer : Sequencer
  host : H
  notices : List Notice

section Play

variable {H : Type} [SessionHost H]

/-- **Playing instructions** until one asks for a session or none is left. -/
def drain (s : Sequencer) : List Instruction → H → Play H
  | [], host =>
    ⟨{ s with queue := [], phase := .idle }, host, [.layoutComplete s.panes.size]⟩
  | i :: rest, host =>
    let active := SessionHost.active host
    let entered := s.enter i rest active
    let host := HostCall.applyAll? (entered.call? i) host
    let said := s.entryNotices i rest.length active ++ entered.callNotices i
    if i.isSplit then ⟨{ entered with phase := .awaitingSession }, host, said⟩
    else
      let later := drain entered rest host
      { later with notices := said ++ later.notices }

/-- Plays on from the present state. -/
def run (s : Sequencer) (host : H) : Play H := drain { s with phase := .advancing } s.queue host

/-- **Beginning.** Nothing happens while a split is under way; only `resume` goes on after it. -/
def advance (s : Sequencer) (host : H) : Play H :=
  if s.phase = .awaitingSession then ⟨s, host, [.advanceIgnored s.queue.length]⟩ else s.run host

/-- **Going on after a split.** Nothing happens if none is under way. The answer tells whether
anything was played. -/
def resume (s : Sequencer) (host : H) : Bool × Play H :=
  if s.phase = .awaitingSession then (true, s.run host)
  else (false, ⟨s, host, [.resumeIgnored s.phase s.queue.length]⟩)

end Play

end Sequencer

end PaneLayout
