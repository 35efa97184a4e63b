import PaneLayout.LayoutDriver

set_option autoImplicit false

/-!
# The event pump

The pump takes the events of a host from a channel, shows each of them to the driver, and passes on
those that the driver does not use up. Between handling an event and running the resumption that
it made due, other work may come in.

## Main definitions

* `PaneLayout.EventPump`: a driver and a host with the channels around them.
* `PaneLayout.EventPump.dispatch`: the first half of an event, up to where other work may come in.
* `PaneLayout.EventPump.resume`: the second half.
* `PaneLayout.EventPump.settle`: works until the inbox is empty.
-/

namespace PaneLayout

/-- **Event pumps.** Events wait in the inbox. Passed-on events end up in the outbox as long as the
pump forwards and there is a receiver. -/
structure EventPump (H : Type) where
  driver : LayoutDriver
  host : H
  inbox : List HostEvent
  outbox : List HostEvent
  forwarding : Bool
  receiver : Bool

namespace EventPump

variable {H : Type}

/-- A pump at the start. -/
def new (driver : LayoutDriver) (host : H) : EventPump H := ⟨driver, host, [], [], true, true⟩

/-- **Forwarding an event.** When the receiver is found to be gone, nothing is forwarded any more.
-/
def forward (pump : EventPump H) (event : HostEvent) : EventPump H × List Notice :=
  if !pump.forwarding then (pump, [])
  else if pump.receiver then ({ pump with outbox := pump.outbox ++ [event] }, [])
  else ({ pump with forwarding := false }, [.forwardingEnded])

variable [SessionHost H]

/-- **The first half of an event:** the driver handles it, and it is forwarded unless used up. -/
def dispatch (pump : EventPump H) (event : HostEvent) : EventPump H × List Notice :=
  let turn := pump.driver.handle event pump.host
  let pump := { pump with driver := turn.driver, host := turn.host }
  match turn.answer with
  | .consumed => (pump, turn.notices)
  | .forward =>
    let (pump, notices) := pump.forward event
    (pump, turn.notices ++ notices)

/-- **The second half of an event:** a resumption that is due is run. -/
def resume (pump : EventPump H) : EventPump H × List Notice :=
  let turn := pump.driver.runScheduled pump.host
  ({ pump with driver := turn.driver, host := turn.host }, turn.notices)

/-- Works through events. A resumption is run after an event if one is due then. -/
def work (pump : EventPump H) : List HostEvent → EventPump H × List Notice
  | [] => (pump, [])
  | event :: rest =>
    let (pump, said) := pump.dispatch event
    let (pump, resumed) := pump.resume
    let (pump, later) := pump.work rest
    (pump, said ++ resumed ++ later)

/-- **Settling.** Works until the inbox is empty. -/
def settle (pump : EventPump H) : EventPump H × List Notice :=
  { pump with inbox := [] }.work pump.inbox

/-- **Closing.** The pump works through what is left and ends. -/
def close (pump : EventPump H) : EventPump H × List Notice :=
  let (pump, notices) := pump.settle
  (pump, notices ++ [.eventsEnded])

end EventPump

end PaneLayout
