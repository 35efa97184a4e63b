import PaneLayout.Sequencer

set_option autoImplicit false

/-!
# A host with a queue of requests

A host that keeps no real sessions. Requests are answered from a queue, oldest first, or at once;
every new session gets the focus. All calls are recorded.

## Main definitions

* `PaneLayout.QueuedHost`: the state of the host.
* `PaneLayout.QueuedHost.complete`: answers the oldest open request.
-/

namespace PaneLayout

/-- **Queued hosts.** The session with the focus, whether requests are answered at once, the
requests still open, the number of sessions created, and the calls in the order in which they were
made. -/
structure QueuedHost where
  active : Option SessionId
  immediate : Bool
  waiting : List SessionRequest
  created : Nat
  calls : List HostCall
  deriving DecidableEq, Repr

namespace QueuedHost

/-- A host without open requests. -/
def new (active : Option SessionId) (immediate : Bool) : QueuedHost :=
  ⟨active, immediate, [], 0, []⟩

/-- The name of the next session, unless it gets one of its own. -/
def nextId (host : QueuedHost) : SessionId := ⟨s!"s{host.created + 1}"⟩

/-- **Creating a session.** It gets the focus, and is counted whatever its name. -/
def create (host : QueuedHost) (id : Option SessionId) : QueuedHost :=
  { host with active := some (id.getD host.nextId), created := host.created + 1 }

/-- Records a call. -/
def note (host : QueuedHost) (call : HostCall) : QueuedHost :=
  { host with calls := host.calls ++ [call] }

instance : SessionHost QueuedHost where
  active host := host.active
  request host r :=
    let host := host.note (.request r)
    if host.immediate then host.create none else { host with waiting := host.waiting ++ [r] }
  send host id text := host.note (.send id text)
  focus host id := { host.note (.focus id) with active := some id }

/-- **Answering the oldest open request** with a new session, whose name is given back. -/
def complete (host : QueuedHost) (id : Option SessionId) : Option SessionId × QueuedHost :=
  match host.waiting with
  | [] => (none, host)
  | _ :: rest => (some (id.getD host.nextId), { host with waiting := rest }.create id)

end QueuedHost

end PaneLayout
