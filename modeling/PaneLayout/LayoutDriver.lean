import PaneLayout.Sequencer
import PaneLayout.Settings

set_option autoImplicit false

/-!
# Layout drivers

A driver stands in the path of the host's events. It looks for requests in session output, owns the
sequencer of the latest one, and turns signs of new sessions into resumptions. A resumption is only
noted while an event is handled, since the host is still dispatching the event; the host runs it on
its next turn.

## Main definitions

* `PaneLayout.LayoutDriver`: the settings, the live sequencer and the resumption due.
* `PaneLayout.LayoutDriver.start`: plays a request in place of what was played before.
* `PaneLayout.LayoutDriver.handle`: looks at one event.
* `PaneLayout.LayoutDriver.runScheduled`: runs the resumption due.
-/

namespace PaneLayout

/-- **Layout drivers.** -/
structure LayoutDriver where
  settings : Settings
  sequencer : Option Sequencer
  resumePending : Bool
  deriving DecidableEq, Repr

/-- **What to do with an event** that the driver has seen: an event that carried a request is used
up, every other event goes on its way. -/
inductive Outcome where
  | consumed
  | forward
  deriving DecidableEq, Repr

/-- A driver and its host after an operation, its answer, and what was said meanwhile. -/
structure Turn (H α : Type) where
  driver : LayoutDriver
  host : H
  answer : α
  notices : List Notice

namespace LayoutDriver

/-- A driver that plays nothing. -/
def new (settings : Settings) : LayoutDriver := ⟨settings, none, false⟩

/-- **Changing the settings.** They apply to layouts started afterwards; invalid ones are refused.
-/
def setSettings (driver : LayoutDriver) (settings : Settings) :
    LayoutDriver × Except Settings.Fault Unit :=
  match settings.validate with
  | .ok () => ({ driver with settings }, .ok ())
  | .error fault => (driver, .error fault)

/-- **Detaching** the live sequencer, with the resumption due. -/
def detach (driver : LayoutDriver) : LayoutDriver :=
  { driver with sequencer := none, resumePending := false }

/-- What is said when a layout takes the place of another. -/
def replacementNotices (driver : LayoutDriver) : List Notice :=
  match driver.sequencer with
  | some previous => if previous.isFinished then [] else [.replacing previous.queue.length]
  | none => []

/-- The live sequencer hears of a session, unless it has finished. A session that is new to it makes
a resumption due. -/
def observe (driver : LayoutDriver) (id : SessionId) : LayoutDriver × List Notice :=
  match driver.sequencer with
  | none => (driver, [])
  | some s =>
    if s.isFinished then (driver, [])
    else if s.knows id then (driver, [.sessionKnown id])
    else ({ driver with sequencer := some (s.observe id), resumePending := true }, [.sessionNew id])

section Host

variable {H : Type} [SessionHost H]

/-- **Starting a request.** Only when its plan has been built does it take the place of the layout
before it. The session that has the focus is there already and thus known. -/
def start (driver : LayoutDriver) (request : LayoutRequest) (host : H) :
    Turn H (Except LayoutFault Unit) :=
  let entry := driver.settings.defaultEntry
  let built := Plan.notices request.config entry
  match Plan.build request.config entry with
  | .error fault => ⟨driver, host, .error fault, built⟩
  | .ok plan =>
    let fresh := Sequencer.ofPlan plan request.cwd driver.settings.hideFromHistory
    let fresh := match SessionHost.active host with
      | some id => fresh.observe id
      | none => fresh
    let play := fresh.advance host
    ⟨{ driver.detach with sequencer := some play.sequencer }, play.host, .ok (),
      built ++ driver.replacementNotices ++ .starting plan.panes.size request.cwd :: play.notices⟩

/-- Output of a session: a request in it is started and uses up the event, even if its layout is
rejected. -/
def handleOutput (driver : LayoutDriver) (id : SessionId) (data : String) (host : H) :
    Turn H Outcome :=
  let searched := LayoutRequest.findNotices data
  match LayoutRequest.find? data with
  | .error fault => ⟨driver, host, .forward, searched ++ [.requestUnreadable id fault]⟩
  | .ok none => ⟨driver, host, .forward, searched⟩
  | .ok (some request) =>
    let turn := driver.start request host
    let rejection := match turn.answer with
      | .ok () => []
      | .error fault => [.layoutRejected fault, .requestRejected id fault]
    ⟨turn.driver, turn.host, .consumed,
      searched ++ .requestFrom id :: (turn.notices ++ rejection)⟩

/-- **Handling an event.** A driver that is not enabled lets everything pass. -/
def handle (driver : LayoutDriver) (event : HostEvent) (host : H) : Turn H Outcome :=
  if !driver.settings.enabled then ⟨driver, host, .forward, []⟩
  else
    match event with
    | .dataReceived id data => driver.handleOutput id data host
    | event =>
      match event.alive? with
      | some id =>
        let (driver, notices) := driver.observe id
        ⟨driver, host, .forward, notices⟩
      | none => ⟨driver, host, .forward, []⟩

/-- **Running the resumption due.** The answer tells whether anything was played. -/
def runScheduled (driver : LayoutDriver) (host : H) : Turn H Bool :=
  if !driver.resumePending then ⟨driver, host, false, []⟩
  else
    let driver := { driver with resumePending := false }
    match driver.sequencer with
    | none => ⟨driver, host, false, []⟩
    | some s =>
      let (resumed, play) := s.resume host
      ⟨{ driver with sequencer := some play.sequencer }, play.host, resumed, play.notices⟩

end Host

end LayoutDriver

end PaneLayout
