import PaneLayout.Log.Record
import PaneLayout.Plan
import PaneLayout.Request
import PaneLayout.Sequencer.Phase

set_option autoImplicit false

/-!
# Notices

What an operation has to say besides its result. Operations give back notices, which name what
happened; how they are worded and in which log they appear is decided here.

## Main definitions

* `PaneLayout.Notice`: what can be said.
* `PaneLayout.Notice.record`: the log record of a notice.
* `PaneLayout.Node.sites`: the commands and faults of a layout in reading order.
* `PaneLayout.Plan.notices`, `PaneLayout.LayoutRequest.findNotices`: the notices of building a plan
  and of looking for a request.
-/

namespace PaneLayout

open Log (Record)

/-- **Notices.** -/
inductive Notice where
  | paneFound (index : Nat) (path : Path) (command : String)
  | faultyLayout (fault : LayoutFault)
  | planCompiled (plan : Plan)
  | queueCompiled (queue : List Instruction)
  | paneBound (index : Nat) (session : SessionId)
  | executing (instruction : Instruction) (active : Option SessionId) (left : Nat)
  | jumpSkipped (pane : Nat)
  | unknownPane (pane : Nat)
  | noActiveSession (pane : Nat) (command : String)
  | advanceIgnored (left : Nat)
  | resumeIgnored (phase : Phase) (left : Nat)
  | layoutComplete (panes : Nat)
  | replacing (left : Nat)
  | starting (panes : Nat) (cwd : String)
  | incompletePayload
  | requestFound (commands : Nat) (cwd : String)
  | requestFrom (session : SessionId)
  | layoutRejected (fault : LayoutFault)
  | requestRejected (session : SessionId) (fault : LayoutFault)
  | requestUnreadable (session : SessionId) (fault : Json.Fault)
  | sessionNew (session : SessionId)
  | sessionKnown (session : SessionId)
  | forwardingEnded
  | eventsEnded
  | layoutLoaded (commands : Nat) (path : String)
  | settingsLoaded (path : String)
  | settingsSaved (path : String)

/-- The wording of a fault in a request's payload. -/
def LayoutRequest.payloadMessage (fault : Json.Fault) : String :=
  s!"Malformed layout request payload: {fault.message}"

namespace Notice

/-- How the focused session is shown in the log. -/
def shownActive : Option SessionId → String
  | none => "None"
  | some id => s!"Some({id.shown})"

/-- **The record of a notice.** -/
def record : Notice → Record
  | paneFound i path command => .debug .trace "LAYOUT" s!"Pane {i} at {path.text}: {command}"
  | faultyLayout (.emptyGroup path) =>
    .general .error "par_layout::layout::convert" s!"Empty layout group at {path.text}"
  | faultyLayout (.malformedNode path value) =>
    .general .error "par_layout::layout::convert"
      s!"Wrong layout node type at {path.text}: {value.render}"
  | faultyLayout (.unknownMode name) =>
    .general .error "par_layout::layout::convert" (LayoutFault.unknownMode name).message
  | planCompiled plan =>
    .debug .info "LAYOUT" (s!"Compiled {plan.panes.size} panes into {plan.queue.length} " ++
      s!"instructions (entry={plan.entry.name})")
  | queueCompiled queue =>
    .debug .trace "LAYOUT" s!"Queue: {(Json.array (queue.map Instruction.toJson)).render}"
  | paneBound i id => .debug .debug "SEQ" s!"Pane {i} bound to session {id.name}"
  | executing instruction active left =>
    .debug .debug "SEQ" s!"{instruction.shown} (active={shownActive active}, {left} left)"
  | jumpSkipped p => .debug .trace "SEQ" s!"Jump to pane {p} skipped: no session yet"
  | unknownPane p =>
    .general .warn "par_layout::sequencer" s!"Layout instruction targets unknown pane {p}"
  | noActiveSession p command =>
    .general .warn "par_layout::sequencer" s!"No active session to run pane {p} command: {command}"
  | advanceIgnored left =>
    .debug .debug "SEQ" s!"Advance ignored: split pending ({left} instructions left)"
  | resumeIgnored phase left =>
    .debug .debug "SEQ" s!"Resume ignored in state {phase.shown} ({left} instructions left)"
  | layoutComplete panes =>
    .general .info "par_layout::sequencer" s!"Layout complete ({panes} panes)"
  | replacing left =>
    .general .warn "par_layout::driver" s!"Replacing unfinished layout ({left} instructions left)"
  | starting panes cwd =>
    .general .info "par_layout::driver" s!"Starting layout: {panes} panes in {Text.quoted cwd}"
  | incompletePayload =>
    .general .debug "par_layout_config::extract" "Layout marker found without a complete payload"
  | requestFound commands cwd =>
    .general .info "par_layout_config::extract"
      s!"Found layout request with {commands} commands for {Text.quoted cwd}"
  | requestFrom id => .debug .info "DRIVER" s!"Layout request from session {id.name}"
  | layoutRejected fault => .debug .error "DRIVER" s!"Layout rejected: {fault.message}"
  | requestRejected id fault =>
    .general .error "par_layout::driver"
      s!"Layout request from session {id.name} rejected: {fault.message}"
  | requestUnreadable id fault =>
    .general .error "par_layout::driver" (s!"Ignoring layout request from session {id.name}: " ++
      LayoutRequest.payloadMessage fault)
  | sessionNew id => .debug .debug "DRIVER" s!"New session {id.name}, resumption scheduled"
  | sessionKnown id => .debug .trace "DRIVER" s!"Session {id.name} already known"
  | forwardingEnded =>
    .general .debug "par_layout::runner" "Event forward receiver dropped; no longer forwarding"
  | eventsEnded =>
    .general .debug "par_layout::runner" "Host event channel closed, layout event loop exiting"
  | layoutLoaded commands path =>
    .general .info "par_layout_config::layout"
      s!"Loaded layout with {commands} commands from {Text.quoted path}"
  | settingsLoaded path =>
    .general .info "par_layout_config::settings" s!"Loaded layout settings from {Text.quoted path}"
  | settingsSaved path =>
    .general .info "par_layout_config::settings" s!"Saved layout settings to {Text.quoted path}"

end Notice

namespace Node

/-- **Sites of a layout.** A command, or a node at which the layout is at fault. -/
inductive Site where
  | command (path : Path) (text : String)
  | fault (fault : LayoutFault)

mutual

/-- The sites at and below the node at `path`, in reading order. -/
def sites (path : Path) : Node → List Site
  | .command text => [.command path text]
  | .group children =>
    if children.isEmpty then [.fault (.emptyGroup path)] else sitesOf path 0 children
  | .invalid value => [.fault (.malformedNode path value)]

/-- The sites below the node at `path`, from its child with the given index on. -/
def sitesOf (path : Path) (index : Nat) : List Node → List Site
  | [] => []
  | n :: ns => n.sites (path ++ [index]) ++ sitesOf path (index + 1) ns

end

/-- The notices of the sites up to the first fault, where the next pane has the given number. -/
def siteNotices : Nat → List Site → List Notice
  | _, [] => []
  | next, .command path text :: rest => .paneFound next path text :: siteNotices (next + 1) rest
  | _, .fault fault :: _ => [.faultyLayout fault]

/-- The notices of converting a layout into a registry with the given number of panes. -/
def notices (node : Node) (next : Nat) : List Notice := siteNotices next (node.sites [])

end Node

/-- The notices of building a plan. Nothing is said if the entry mode is not known. -/
def Plan.notices (config : LayoutConfig) (defaultEntry : String) : List Notice :=
  match config.entryMode defaultEntry with
  | .error _ => []
  | .ok _ =>
    config.layout.notices 0 ++
      match Plan.build config defaultEntry with
      | .ok plan => [.planCompiled plan, .queueCompiled plan.queue]
      | .error _ => []

/-- The notices of looking for a request in a text. -/
def LayoutRequest.findNotices (text : String) : List Notice :=
  match locate text.toList with
  | .absent => []
  | .incomplete => [.incompletePayload]
  | .payload raw =>
    match parse raw with
    | .ok request => [.requestFound request.config.layout.commandCount request.cwd]
    | .error _ => []

end PaneLayout
