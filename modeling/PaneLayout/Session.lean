import PaneLayout.Mode
import PaneLayout.Text.Quoted

set_option autoImplicit false

/-!
# Sessions and their host

The host owns the real sessions: windows, tabs and split panes. A layout is played against it
through four operations, and hears back from it through events.

## Main definitions

* `PaneLayout.SessionId`: the name that the host gives to a session.
* `PaneLayout.SessionRequest`: asks for a new session.
* `PaneLayout.SessionHost`: what a layout needs of a host.
* `PaneLayout.HostEvent`: what a host reports.
-/

namespace PaneLayout

/-- **Session identifiers.** Given by the host; only their equality means something. -/
structure SessionId where
  name : String
  deriving DecidableEq, Repr, Inhabited

/-- A session identifier as shown in the log. -/
def SessionId.shown (id : SessionId) : String := s!"SessionId({Text.quoted id.name})"

/-- **Session requests.** The directory of the new session, and where it goes. -/
structure SessionRequest where
  cwd : String
  split : Option SplitHint
  deriving DecidableEq, Repr

/-- **Hosts.** The session that has the focus can be asked for. The other operations give no
answer: a requested session comes into being at any later time, or at once. A host goes on by
itself while nothing is asked of it; `idle` is what has become of it when it is looked at again. -/
class SessionHost (H : Type) where
  active : H → Option SessionId
  request : H → SessionRequest → H
  send : H → SessionId → String → H
  focus : H → SessionId → H
  idle : H → H := id

/-- **Host events.** -/
inductive HostEvent where
  | dataReceived (session : SessionId) (data : String)
  | titleChanged (session : SessionId) (title : String)
  | activated (session : SessionId)
  | closed (session : SessionId)
  deriving DecidableEq, Repr

namespace HostEvent

/-- The session that an event is about. -/
def session : HostEvent → SessionId
  | .dataReceived id _ => id
  | .titleChanged id _ => id
  | .activated id => id
  | .closed id => id

/-- **Signs of life.** The session that an event shows to be there and running: a new shell sets
its title, and a new session gets the focus. -/
def alive? : HostEvent → Option SessionId
  | .titleChanged id _ => some id
  | .activated id => some id
  | .dataReceived _ _ => none
  | .closed _ => none

end HostEvent

end PaneLayout
