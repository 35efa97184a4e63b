import Mathlib.Data.List.TakeWhile
import PaneLayout.EventPump
import PaneLayout.Proofs.Rest

set_option autoImplicit false

/-!
# The event pump among other tasks

The event pump runs as a task among others. It stops where it waits for an event, and where it lets
others go first before it runs a resumption. In between it works without a break. While it stops,
the other tasks send events, close the channel, drop the receiver of what is passed on, and change
the host. This file follows all orders in which that can happen. The pump loses, doubles and
reorders nothing, and leaves what the plain loop leaves that handles an event and takes a turn.

## Main definitions

* `PaneLayout.PumpLoop` — a pump with the place where it stops.
* `PaneLayout.PumpDeed` — what the pump and the others do.
* `PaneLayout.PumpLoop.Works`, `PaneLayout.PumpLoop.Others` — the steps of the pump and of the
  others.
* `PaneLayout.PumpLoop.Runs`, `PaneLayout.PumpLoop.RunsAlone` — the histories, and those in which
  nobody but the pump does anything.
* `PaneLayout.PumpLoop.settled` — what a pump comes to that is left alone.
* `PaneLayout.PumpRound` — what the pump does for one event.
* `PaneLayout.Scene.plainLoop` — the plain loop over the same events and changes.

## Main results

* `PaneLayout.PumpLoop.Account.works`, `PaneLayout.PumpLoop.Account.others` — every step keeps the
  account of the history.
* `PaneLayout.PumpLoop.runsAlone_settle`, `PaneLayout.PumpLoop.RunsAlone.pump_eq` — left alone, the
  pump settles as `PaneLayout.EventPump.settle` says, and comes to nothing else.
* `PaneLayout.PumpLoop.Runs.labour_le` — how much the pump can still do once the channel is closed.
* `PaneLayout.pump_refines_plain_loop` — what holds of every history.
-/

namespace PaneLayout

/-! ### Steps -/

/-- **Where a pump stops**: at the channel, where it gives the other tasks a turn before it runs a
resumption, or for good. -/
inductive PumpStop where
  | receiving
  | yielding
  | returned
  deriving DecidableEq, Repr

/-- **Pumps with the place where they stop.** The channel of events may have been closed. -/
structure PumpLoop (H : Type) where
  pump : EventPump H
  stop : PumpStop
  closed : Bool

/-- **Deeds.** The other tasks send an event, close the channel, drop the receiver of what is passed
on, or change the host. The pump handles an event, with the answer and whether a resumption is due
then; passes it on; finishes with it, running a resumption or not; and returns. -/
inductive PumpDeed (H : Type) where
  | sends (e : HostEvent)
  | closes
  | drops
  | changes (change : H → H)
  | handles (e : HostEvent) (outcome : Outcome) (due : Bool)
  | passes (e : HostEvent)
  | finishes (resumed : Bool)
  | returns

namespace PumpDeed

variable {H : Type}

/-- Whether the deed is one of the pump. -/
def isOwn : PumpDeed H → Bool
  | .sends _ | .closes | .drops | .changes _ => false
  | .handles _ _ _ | .passes _ | .finishes _ | .returns => true

/-- Whether the receiver of what is passed on is dropped. -/
def isDrop : PumpDeed H → Bool
  | .drops => true
  | _ => false

/-- The event that is sent. -/
def sent? : PumpDeed H → Option HostEvent
  | .sends e => some e
  | _ => none

/-- The event that is handled. -/
def handled? : PumpDeed H → Option HostEvent
  | .handles e _ _ => some e
  | _ => none

/-- The event that is handled and is to go on its way. -/
def forwarded? : PumpDeed H → Option HostEvent
  | .handles e .forward _ => some e
  | _ => none

/-- The event that is passed on. -/
def passed? : PumpDeed H → Option HostEvent
  | .passes e => some e
  | _ => none

end PumpDeed

/-- **Rounds.** An event, the answer to it, whether it is passed on, and whether a resumption is due
afterwards. -/
structure PumpRound where
  event : HostEvent
  outcome : Outcome
  passed : Bool
  due : Bool

namespace PumpRound

variable {H : Type}

/-- The deeds of a round up to where the pump yields, if it does. -/
def opening (r : PumpRound) : List (PumpDeed H) :=
  .handles r.event r.outcome r.due :: if r.passed then [.passes r.event] else []

/-- **The deeds of a round**: the event is handled, it is passed on, and the resumption that is due
is run. -/
def deeds (r : PumpRound) : List (PumpDeed H) := r.opening ++ [.finishes r.due]

end PumpRound

/-- What the pump has begun and not finished where it stops. -/
def PumpStop.Leaves {H : Type} : PumpStop → List (PumpDeed H) → Prop
  | .receiving, rest => rest = []
  | .yielding, rest => ∃ r : PumpRound, r.due = true ∧ rest = r.opening
  | .returned, rest => rest = [.returns]

/-- The driver and the host of a pump. -/
def EventPump.scene {H : Type} (pump : EventPump H) : Scene H := ⟨pump.driver, pump.host⟩

namespace PumpLoop

variable {H : Type}

/-- **The start.** Nothing has been sent, and the pump waits for the first event. -/
def start (driver : LayoutDriver) (host : H) : PumpLoop H := ⟨.new driver host, .receiving, false⟩

/-- **What the other tasks do.** A channel that is closed takes no more events. -/
inductive Others (l : PumpLoop H) : PumpDeed H → PumpLoop H → Prop where
  | sends (e : HostEvent) : l.closed = false →
    Others l (.sends e) { l with pump := { l.pump with inbox := l.pump.inbox ++ [e] } }
  | closes : Others l .closes { l with closed := true }
  | drops : Others l .drops { l with pump := { l.pump with receiver := false } }
  | changes (change : H → H) :
    Others l (.changes change) { l with pump := { l.pump with host := change l.pump.host } }

variable [SessionHost H]

/-- The round that the next event gets. -/
def round (l : PumpLoop H) (e : HostEvent) : PumpRound :=
  let turn := l.pump.driver.handle e l.pump.host
  ⟨e, turn.answer, turn.answer == .forward && l.pump.forwarding && l.pump.receiver,
    turn.driver.resumePending⟩

/-- **What the pump does** from one stop to the next. It handles the next event, and yields if a
resumption is due; it runs the resumption; or it returns, when nothing is left of a closed channel.
-/
inductive Works (l : PumpLoop H) : List (PumpDeed H) → PumpLoop H → Prop where
  -- nobody else comes in between the handling of an event and its passing on
  | completes {e : HostEvent} {rest : List HostEvent} : l.stop = .receiving →
    l.pump.inbox = e :: rest → (l.round e).due = false →
    Works l (l.round e).deeds { l with pump := ({ l.pump with inbox := rest }.dispatch e).1 }
  | yields {e : HostEvent} {rest : List HostEvent} : l.stop = .receiving →
    l.pump.inbox = e :: rest → (l.round e).due = true →
    Works l (l.round e).opening
      { l with pump := ({ l.pump with inbox := rest }.dispatch e).1, stop := .yielding }
  | resumes : l.stop = .yielding →
    Works l [.finishes true] { l with pump := l.pump.resume.1, stop := .receiving }
  | returns : l.stop = .receiving → l.pump.inbox = [] → l.closed = true →
    Works l [.returns] { l with stop := .returned }

/-- **Histories.** What the pump and the others have done, in order. -/
inductive Runs (l₀ : PumpLoop H) : List (PumpDeed H) → PumpLoop H → Prop where
  | refl : Runs l₀ [] l₀
  | works {h deeds : List (PumpDeed H)} {l l' : PumpLoop H} :
    Runs l₀ h l → Works l deeds l' → Runs l₀ (h ++ deeds) l'
  | others {h : List (PumpDeed H)} {deed : PumpDeed H} {l l' : PumpLoop H} :
    Runs l₀ h l → Others l deed l' → Runs l₀ (h ++ [deed]) l'

/-- **Histories of a pump that is left alone**: every deed is its own. -/
structure RunsAlone (l₀ : PumpLoop H) (h : List (PumpDeed H)) (l : PumpLoop H) : Prop where
  runs : Runs l₀ h l
  own : h.filter PumpDeed.isOwn = h

/-- **What a pump comes to** that is left alone. It runs the resumption that it has put off, if it
yields, and settles. -/
def settled (l : PumpLoop H) : EventPump H :=
  match l.stop with
  | .receiving => l.pump.settle.1
  | .yielding => l.pump.resume.1.settle.1
  | .returned => l.pump

/-- A history goes on where another has ended. -/
theorem Runs.trans {l₀ l l' : PumpLoop H} {h h' : List (PumpDeed H)} (hrun : Runs l₀ h l)
    (hnext : Runs l h' l') : Runs l₀ (h ++ h') l' := by
  induction hnext with
  | refl => simpa using hrun
  | works _ hstep ih => exact List.append_assoc .. ▸ ih.works hstep
  | others _ hstep ih => exact List.append_assoc .. ▸ ih.others hstep

end PumpLoop

/-! ### Histories -/

/-- The deeds before the receiver of what is passed on is dropped. -/
def beforeDrop {H : Type} (h : List (PumpDeed H)) : List (PumpDeed H) := h.takeWhile (!·.isDrop)

/-- Once the receiver has been dropped, nothing more is before. -/
theorem beforeDrop_append {H : Type} (h deeds : List (PumpDeed H)) :
    beforeDrop (h ++ deeds) =
      if h.any PumpDeed.isDrop then beforeDrop h else h ++ beforeDrop deeds := by
  induction h with
  | nil => rfl
  | cons d h ih =>
    cases hd : d.isDrop with
    | true => simp [beforeDrop, hd]
    | false =>
      simp only [beforeDrop] at ih
      simp only [beforeDrop, List.cons_append, List.takeWhile_cons, hd, Bool.not_false, if_true, ih,
        List.any_cons, Bool.false_or]
      split <;> rfl

/-- If the receiver has not been dropped, all is before. -/
theorem beforeDrop_eq_self {H : Type} {h : List (PumpDeed H)}
    (hno : h.any PumpDeed.isDrop = false) : beforeDrop h = h := by
  simpa [beforeDrop, List.takeWhile_eq_self_iff] using hno

namespace Scene

variable {H : Type} [SessionHost H]

/-- What a deed means to the plain loop: an event is handled; at the end of a round a turn is taken,
whether a resumption is due or not; and the host is changed. -/
def plain (w : Scene H) : PumpDeed H → Scene H
  | .handles e _ _ => w.after (.event e)
  | .finishes _ => w.after .turn
  | .changes change => w.after (.host (change w.host))
  | .sends _ | .closes | .drops | .passes _ | .returns => w

/-- **The plain loop** over the events and the changes of a history. -/
def plainLoop (w : Scene H) (h : List (PumpDeed H)) : Scene H := h.foldl plain w

/-- The plain loop goes on where it has ended. -/
theorem plainLoop_append (w : Scene H) (h h' : List (PumpDeed H)) :
    w.plainLoop (h ++ h') = (w.plainLoop h).plainLoop h' :=
  List.foldl_append

/-- Passing on an event, or not, means nothing to the plain loop. -/
theorem plainLoop_opening (w : Scene H) (r : PumpRound) :
    w.plainLoop r.opening = w.after (.event r.event) := by
  rw [plainLoop, PumpRound.opening]
  cases r.passed <;> rfl

end Scene

/-! ### The halves of an event -/

namespace EventPump

variable {H : Type}

/-- Passing on an event changes the outbox only, and remembers that the receiver is gone. -/
theorem forward_eq (pump : EventPump H) (e : HostEvent) :
    (pump.forward e).1 = { pump with
      outbox := pump.outbox ++ if pump.forwarding && pump.receiver then [e] else []
      forwarding := pump.forwarding && pump.receiver } := by
  obtain ⟨driver, host, inbox, outbox, forwarding, receiver⟩ := pump
  cases forwarding <;> cases receiver <;> simp [forward]

variable [SessionHost H]

/-- **All that the first half of an event does.** -/
theorem dispatch_eq (pump : EventPump H) (e : HostEvent) :
    let turn := pump.driver.handle e pump.host
    (pump.dispatch e).1 = { pump with
      driver := turn.driver
      host := turn.host
      outbox := pump.outbox ++
        if turn.answer == .forward && pump.forwarding && pump.receiver then [e] else []
      forwarding := pump.forwarding && (turn.answer == .consumed || pump.receiver) } := by
  intro turn
  cases hanswer : turn.answer with
  | consumed => simp [dispatch, turn, hanswer, show (Outcome.consumed == .forward) = false from rfl]
  | forward =>
    simp only [dispatch, hanswer, turn, forward_eq]
    rfl

/-- A resumption that is not due is not run. -/
theorem resume_of_not_due {pump : EventPump H} (h : pump.driver.resumePending = false) :
    pump.resume.1 = pump := by
  rw [resume, LayoutDriver.runScheduled_of_not_due h]

/-- No resumption is due after one has been run. -/
theorem not_due_resume (pump : EventPump H) : pump.resume.1.driver.resumePending = false := by
  cases hdue : pump.driver.resumePending with
  | false => rw [resume_of_not_due hdue, hdue]
  | true =>
    cases hs : pump.driver.sequencer with
    | none => simp [resume, LayoutDriver.runScheduled, hdue, hs]
    | some s => simp [resume, LayoutDriver.runScheduled, hdue, hs]

/-- Working through events leaves the inbox alone. -/
theorem inbox_work (pump : EventPump H) (events : List HostEvent) :
    (pump.work events).1.inbox = pump.inbox := by
  induction events generalizing pump with
  | nil => rfl
  | cons e rest ih =>
    rw [work, ih, dispatch_eq]
    rfl

/-- Settling empties the inbox. -/
theorem inbox_settle (pump : EventPump H) : pump.settle.1.inbox = [] :=
  inbox_work _ _

/-- A settled pump handles nothing. -/
theorem settle_of_nil {pump : EventPump H} (h : pump.inbox = []) : pump.settle.1 = pump := by
  rw [settle, h, work, ← h]

/-- A pump settles one event after the other. -/
theorem settle_of_cons {pump : EventPump H} {e : HostEvent} {rest : List HostEvent}
    (h : pump.inbox = e :: rest) :
    pump.settle.1 = ({ pump with inbox := rest }.dispatch e).1.resume.1.settle.1 := by
  rw [settle, h, work, settle]
  simp only [dispatch_eq, resume]

end EventPump

/-! ### What a round adds to a history -/

namespace PumpRound

variable {H : Type} (r : PumpRound)

@[simp] theorem sent?_opening : (r.opening (H := H)).filterMap PumpDeed.sent? = [] := by
  cases h : r.passed <;> simp [opening, h, PumpDeed.sent?]

@[simp] theorem handled?_opening :
    (r.opening (H := H)).filterMap PumpDeed.handled? = [r.event] := by
  cases h : r.passed <;> simp [opening, h, PumpDeed.handled?]

@[simp] theorem passed?_opening :
    (r.opening (H := H)).filterMap PumpDeed.passed? = if r.passed then [r.event] else [] := by
  cases h : r.passed <;> simp [opening, h, PumpDeed.passed?, List.filterMap_cons]

@[simp] theorem forwarded?_opening :
    (r.opening (H := H)).filterMap PumpDeed.forwarded? =
      if r.outcome == .forward then [r.event] else [] := by
  cases h : r.passed <;> cases h' : r.outcome <;> simp [opening, h, h', PumpDeed.forwarded?]

@[simp] theorem any_isDrop_opening : (r.opening (H := H)).any PumpDeed.isDrop = false := by
  cases h : r.passed <;> simp [opening, h, PumpDeed.isDrop]

@[simp] theorem filter_isOwn_opening :
    (r.opening (H := H)).filter PumpDeed.isOwn = r.opening := by
  cases h : r.passed <;> simp [opening, h, PumpDeed.isOwn]

@[simp] theorem filter_isOwn_deeds : (r.deeds (H := H)).filter PumpDeed.isOwn = r.deeds := by
  rw [deeds, List.filter_append, filter_isOwn_opening]
  rfl

theorem length_opening_le : (r.opening (H := H)).length ≤ 2 := by
  cases h : r.passed <;> simp [opening, h]

end PumpRound

/-! ### The books of a history -/

/-- **The books of a history.** What has been sent is what has been handled and what still waits.
The outbox is what has been passed on, and that is what was to go on its way while the receiver was
there. The driver and the host are those of the plain loop. -/
structure Ledger {H : Type} [SessionHost H] (w₀ : Scene H) (h : List (PumpDeed H))
    (pump : EventPump H) : Prop where
  sent : h.filterMap PumpDeed.sent? = h.filterMap PumpDeed.handled? ++ pump.inbox
  outbox : pump.outbox = h.filterMap PumpDeed.passed?
  passed : h.filterMap PumpDeed.passed? = (beforeDrop h).filterMap PumpDeed.forwarded?
  receiver : pump.receiver = !h.any PumpDeed.isDrop
  forwarding : pump.receiver = true → pump.forwarding = true
  scene : pump.scene = w₀.plainLoop h

namespace Ledger

variable {H : Type} [SessionHost H] {w₀ : Scene H} {h : List (PumpDeed H)} {pump : EventPump H}

/-- The books at the start. -/
theorem nil (driver : LayoutDriver) (host : H) : Ledger ⟨driver, host⟩ [] (.new driver host) :=
  ⟨rfl, rfl, rfl, rfl, fun _ => rfl, rfl⟩

/-- **Handling an event** and passing it on keeps the books. -/
theorem dispatch {l : PumpLoop H} (hl : Ledger w₀ h l.pump) {e : HostEvent} {rest : List HostEvent}
    (hinbox : l.pump.inbox = e :: rest) :
    Ledger w₀ (h ++ (l.round e).opening) ({ l.pump with inbox := rest }.dispatch e).1 := by
  -- an event that is to go on its way is passed on exactly while there is a receiver
  have hpassed : (l.round e).passed =
      ((l.round e).outcome == .forward && !h.any PumpDeed.isDrop) := by
    have hreceiver := hl.receiver
    have hforwarding := hl.forwarding
    simp only [PumpLoop.round]
    grind
  rw [EventPump.dispatch_eq]
  refine ⟨?sent, ?outbox, ?passed, ?receiver, ?forwarding, ?scene⟩
  case sent => simp [hl.sent, hinbox, PumpLoop.round]
  case outbox => simp [hl.outbox, PumpLoop.round]
  case passed =>
    rw [beforeDrop_append]
    cases hdrop : h.any PumpDeed.isDrop with
    | true => simp [hpassed, hdrop, hl.passed]
    | false =>
      have hkept := hl.passed
      rw [beforeDrop_eq_self hdrop] at hkept
      simp [hpassed, hdrop, hkept, beforeDrop_eq_self]
  case receiver => simp [hl.receiver]
  case forwarding =>
    intro hreceiver
    simp only [hl.forwarding hreceiver, Bool.true_and]
    exact Bool.or_eq_true_iff.2 (.inr hreceiver)
  case scene =>
    rw [Scene.plainLoop_append, ← hl.scene, Scene.plainLoop_opening]
    rfl

/-- **Every deed but the handling and the passing on of an event** keeps the books, if it does to
the pump what it says. -/
theorem append {pump' : EventPump H} {d : PumpDeed H} (hl : Ledger w₀ h pump)
    (hhandled : d.handled? = none) (hforwarded : d.forwarded? = none) (hpassed : d.passed? = none)
    (hinbox : pump'.inbox = pump.inbox ++ d.sent?.toList) (houtbox : pump'.outbox = pump.outbox)
    (hreceiver : pump'.receiver = (pump.receiver && !d.isDrop))
    (hforwarding : pump'.forwarding = pump.forwarding)
    (hscene : pump'.scene = pump.scene.plain d) : Ledger w₀ (h ++ [d]) pump' := by
  refine ⟨?sent, ?outbox, ?passed, ?receiver, ?forwarding, ?scene⟩
  case sent => cases hd : d.sent? <;> simp [hl.sent, hhandled, hinbox, hd]
  case outbox => simp [houtbox, hl.outbox, hpassed]
  case passed =>
    rw [beforeDrop_append]
    cases hdrop : h.any PumpDeed.isDrop with
    | true => simp [hpassed, hl.passed]
    | false =>
      have hkept := hl.passed
      rw [beforeDrop_eq_self hdrop] at hkept
      cases hd : d.isDrop <;> simp [hpassed, hforwarded, hkept, beforeDrop, hd]
  case receiver => simp [hreceiver, hl.receiver]
  case forwarding =>
    intro hyes
    rw [hreceiver, Bool.and_eq_true] at hyes
    rw [hforwarding, hl.forwarding hyes.1]
  case scene =>
    rw [Scene.plainLoop_append, ← hl.scene, hscene]
    rfl

/-- The end of a round keeps the books, with the turn that the plain loop takes there. -/
theorem finishes (hl : Ledger w₀ h pump) (resumed : Bool) :
    Ledger w₀ (h ++ [.finishes resumed]) pump.resume.1 :=
  hl.append rfl rfl rfl (List.append_nil _).symm rfl (Bool.and_true _).symm rfl rfl

/-- To return keeps the books. -/
theorem returns (hl : Ledger w₀ h pump) : Ledger w₀ (h ++ [.returns]) pump :=
  hl.append rfl rfl rfl (List.append_nil _).symm rfl (Bool.and_true _).symm rfl rfl

end Ledger

namespace PumpLoop

variable {H : Type} [SessionHost H] {w₀ : Scene H} {h : List (PumpDeed H)} {l l' : PumpLoop H}

/-- **The account of a history**: the books are kept, the pump's own deeds are whole rounds and what
it has begun, a resumption is due exactly while it yields, and it returns only when nothing is left.
-/
structure Account (w₀ : Scene H) (h : List (PumpDeed H)) (l : PumpLoop H) : Prop where
  ledger : Ledger w₀ h l.pump
  rounds : ∃ (rounds : List PumpRound) (rest : List (PumpDeed H)),
    h.filter PumpDeed.isOwn = rounds.flatMap PumpRound.deeds ++ rest ∧ l.stop.Leaves rest
  due : l.pump.driver.resumePending = true ↔ l.stop = .yielding
  inbox : l.stop = .returned → l.pump.inbox = []
  closed : l.stop = .returned → l.closed = true

/-- The account at the start. -/
theorem Account.start {driver : LayoutDriver} (hdue : driver.resumePending = false) (host : H) :
    Account ⟨driver, host⟩ [] (.start driver host) :=
  ⟨.nil driver host, ⟨[], [], rfl, rfl⟩, by simp [PumpLoop.start, EventPump.new, hdue],
    fun _ => rfl, by simp [PumpLoop.start]⟩

/-- After an event has been handled, a resumption is due if the round says so. -/
theorem due_dispatch (l : PumpLoop H) (e : HostEvent) (rest : List HostEvent) :
    ({ l.pump with inbox := rest }.dispatch e).1.driver.resumePending = (l.round e).due := by
  rw [EventPump.dispatch_eq]
  rfl

/-- **What the pump does keeps the account.** -/
theorem Account.works {deeds : List (PumpDeed H)} (hl : Account w₀ h l) (hstep : Works l deeds l') :
    Account w₀ (h ++ deeds) l' := by
  obtain ⟨rounds, rest, hown, hleaves⟩ := hl.rounds
  cases hstep with
  | @completes e waiting hstop hinbox hdue =>
    have hnot := (l.due_dispatch e waiting).trans hdue
    rw [hstop] at hleaves
    refine ⟨?ledger, ⟨rounds ++ [l.round e], [], ?own, hstop ▸ rfl⟩, ?due, ?inbox, ?closed⟩
    case ledger =>
      -- nothing is due, so the turn of the plain loop does nothing
      have hturn := (hl.ledger.dispatch hinbox).finishes false
      rw [EventPump.resume_of_not_due hnot] at hturn
      rw [PumpRound.deeds, hdue, ← List.append_assoc]
      exact hturn
    case own => simp [hown, show rest = [] from hleaves]
    case due => simp [hnot, hstop]
    case inbox => simp [hstop]
    case closed => simp [hstop]
  | @yields e waiting hstop hinbox hdue =>
    rw [hstop] at hleaves
    refine ⟨hl.ledger.dispatch hinbox, ⟨rounds, (l.round e).opening, ?own, l.round e, hdue, rfl⟩,
      ?due, ?inbox, ?closed⟩
    case own => simp [hown, show rest = [] from hleaves]
    case due => simp [(l.due_dispatch e waiting).trans hdue]
    case inbox => simp
    case closed => simp
  | resumes hstop =>
    rw [hstop] at hleaves
    obtain ⟨r, hdue, rfl⟩ := hleaves
    refine ⟨hl.ledger.finishes true, ⟨rounds ++ [r], [], ?own, rfl⟩, ?due, ?inbox, ?closed⟩
    case own => simp [hown, PumpRound.deeds, hdue, PumpDeed.isOwn]
    case due => simp [EventPump.not_due_resume]
    case inbox => simp
    case closed => simp
  | returns hstop hinbox hclosed =>
    rw [hstop] at hleaves
    refine ⟨hl.ledger.returns, ⟨rounds, [.returns], ?own, rfl⟩, ?due, fun _ => hinbox,
      fun _ => hclosed⟩
    case own => simp [hown, show rest = [] from hleaves, PumpDeed.isOwn]
    case due => simpa [hstop] using hl.due

/-- **What the others do keeps the account.** They leave the driver and the stop alone, and nothing
can be sent to a pump that has returned. -/
theorem Account.others {d : PumpDeed H} (hl : Account w₀ h l) (hstep : Others l d l') :
    Account w₀ (h ++ [d]) l' := by
  obtain ⟨rounds, rest, hown, hleaves⟩ := hl.rounds
  have hd : d.isOwn = false := by cases hstep <;> rfl
  have hstop : l'.stop = l.stop := by cases hstep <;> rfl
  have hdriver : l'.pump.driver = l.pump.driver := by cases hstep <;> rfl
  refine ⟨?ledger, ⟨rounds, rest, by simp [hown, hd], hstop ▸ hleaves⟩, ?due, ?inbox, ?closed⟩
  case ledger =>
    cases hstep <;> exact hl.ledger.append rfl rfl rfl (by simp [PumpDeed.sent?]) rfl
      (by simp [PumpDeed.isDrop]) rfl rfl
  case due => rw [hdriver, hstop, hl.due]
  case inbox =>
    intro hreturned
    rw [hstop] at hreturned
    cases hstep with
    | sends e hyet => simp [hl.closed hreturned] at hyet
    | closes | drops | changes _ => exact hl.inbox hreturned
  case closed =>
    intro hreturned
    rw [hstop] at hreturned
    cases hstep with
    | closes => rfl
    | sends _ _ | drops | changes _ => exact hl.closed hreturned

/-- **Every history has its account.** -/
theorem Runs.account {driver : LayoutDriver} {host : H} (hdue : driver.resumePending = false)
    (hrun : Runs (.start driver host) h l) : Account ⟨driver, host⟩ h l := by
  induction hrun with
  | refl => exact .start hdue host
  | works _ hstep ih => exact ih.works hstep
  | others _ hstep ih => exact ih.others hstep

/-! ### The end of a history -/

/-- What the pump does is its own. -/
theorem Works.isOwn {deeds : List (PumpDeed H)} (hstep : Works l deeds l') :
    deeds.filter PumpDeed.isOwn = deeds := by
  cases hstep with
  | completes | yields => simp
  | resumes | returns => rfl

/-- **What a step handles** is taken from the front of the inbox. -/
theorem Works.inbox_eq {deeds : List (PumpDeed H)} (hstep : Works l deeds l') :
    l.pump.inbox = deeds.filterMap PumpDeed.handled? ++ l'.pump.inbox := by
  cases hstep with
  | completes _ hinbox _ =>
    simp [PumpRound.deeds, EventPump.dispatch_eq, hinbox, round, PumpDeed.handled?]
  | yields _ hinbox _ => simp [EventPump.dispatch_eq, hinbox, round]
  | resumes _ => rfl
  | returns _ _ _ => rfl

/-- **No step of the pump changes what it comes to.** A resumption that is not due makes no
difference to the loop, which always runs it. -/
theorem Works.settled_eq {deeds : List (PumpDeed H)} (hstep : Works l deeds l') :
    l'.settled = l.settled := by
  cases hstep with
  | @completes e rest hstop hinbox hdue =>
    have hnot := (l.due_dispatch e rest).trans hdue
    simp only [settled, hstop, EventPump.settle_of_cons hinbox, EventPump.resume_of_not_due hnot]
  | yields hstop hinbox _ => simp only [settled, hstop, EventPump.settle_of_cons hinbox]
  | resumes hstop => simp only [settled, hstop]
  | returns hstop hinbox _ => simp only [settled, hstop, EventPump.settle_of_nil hinbox]

/-- A pump with nothing to do has come to what it is. -/
theorem settled_eq_pump (hstop : l.stop ≠ .yielding) (hinbox : l.pump.inbox = []) :
    l.settled = l.pump := by
  cases hs : l.stop with
  | receiving => simp only [settled, hs, EventPump.settle_of_nil hinbox]
  | yielding => exact absurd hs hstop
  | returned => simp only [settled, hs]

namespace RunsAlone

/-- A pump may do nothing. -/
theorem refl (l : PumpLoop H) : RunsAlone l [] l := ⟨.refl, rfl⟩

/-- One step of the pump. -/
theorem of_works {deeds : List (PumpDeed H)} (hstep : Works l deeds l') : RunsAlone l deeds l' :=
  ⟨.works .refl hstep, hstep.isOwn⟩

/-- A pump that is left alone goes on. -/
theorem trans {h' : List (PumpDeed H)} {l'' : PumpLoop H} (hrun : RunsAlone l h l')
    (hnext : RunsAlone l' h' l'') : RunsAlone l (h ++ h') l'' :=
  ⟨hrun.runs.trans hnext.runs, by rw [List.filter_append, hrun.own, hnext.own]⟩

/-- What a pump that is left alone handles is taken from the front of the inbox, and what it comes
to is settled from the start. -/
theorem inbox_eq_and_settled_eq (hrun : RunsAlone l h l') :
    l.pump.inbox = h.filterMap PumpDeed.handled? ++ l'.pump.inbox ∧ l'.settled = l.settled := by
  obtain ⟨hruns, hown⟩ := hrun
  induction hruns with
  | refl => exact ⟨rfl, rfl⟩
  | @works h deeds l' l'' _ hstep ih =>
    rw [List.filter_append, hstep.isOwn] at hown
    obtain ⟨hinbox, hsettled⟩ := ih (List.append_cancel_right hown)
    refine ⟨?_, hstep.settled_eq.trans hsettled⟩
    rw [hinbox, hstep.inbox_eq, List.filterMap_append, List.append_assoc]
  | @others h d l' l'' _ hstep ih =>
    -- no deed of the others is one of the pump
    have hmem : d ∈ (h ++ [d]).filter PumpDeed.isOwn := by
      rw [hown]
      exact List.mem_append_right h List.mem_cons_self
    have hd : d.isOwn = true := (List.mem_filter.1 hmem).2
    cases hstep <;> simp [PumpDeed.isOwn] at hd

/-- **A pump that is left alone comes to one thing.** Wherever it stops with nothing to do, it is
what it comes to from where it began. -/
theorem pump_eq (hrun : RunsAlone l h l') (hstop : l'.stop ≠ .yielding)
    (hinbox : l'.pump.inbox = []) : l'.pump = l.settled :=
  (settled_eq_pump hstop hinbox).symm.trans hrun.inbox_eq_and_settled_eq.2

/-- With nothing left to do, all that waited has been handled. -/
theorem handled_eq (hrun : RunsAlone l h l') (hinbox : l'.pump.inbox = []) :
    h.filterMap PumpDeed.handled? = l.pump.inbox := by
  rw [hrun.inbox_eq_and_settled_eq.1, hinbox, List.append_nil]

end RunsAlone

/-- **Left alone, the pump settles** and stops for the next event. -/
theorem runsAlone_settle (hstop : l.stop = .receiving)
    (hdue : l.pump.driver.resumePending = false) :
    ∃ h, RunsAlone l h { l with pump := l.pump.settle.1 } := by
  induction hinbox : l.pump.inbox generalizing l with
  | nil =>
    rw [EventPump.settle_of_nil hinbox]
    exact ⟨[], .refl l⟩
  | cons e rest ih =>
    have hpending := l.due_dispatch e rest
    rw [EventPump.settle_of_cons hinbox]
    set pump := ({ l.pump with inbox := rest }.dispatch e).1 with hpump
    obtain ⟨h, hrun⟩ : ∃ h, RunsAlone l h { l with pump := pump.resume.1 } := by
      cases hround : (l.round e).due with
      | false =>
        rw [EventPump.resume_of_not_due (hpending.trans hround)]
        exact ⟨_, .of_works (.completes hstop hinbox hround)⟩
      | true =>
        have hfirst := RunsAlone.of_works (Works.yields hstop hinbox hround)
        have hsecond := Works.resumes (l := { l with pump := pump, stop := .yielding }) rfl
        exact ⟨_, hfirst.trans (.of_works (hstop ▸ hsecond))⟩
    have hwaiting : pump.resume.1.inbox = rest := by rw [hpump, EventPump.dispatch_eq]; rfl
    obtain ⟨h', hrun'⟩ :=
      ih (l := { l with pump := pump.resume.1 }) hstop (EventPump.not_due_resume pump) hwaiting
    exact ⟨h ++ h', hrun.trans hrun'⟩

/-- A closed pump that waits for an event, with nothing due, is closed down if it is left alone. -/
theorem runsAlone_close (hstop : l.stop = .receiving) (hclosed : l.closed = true)
    (hdue : l.pump.driver.resumePending = false) :
    ∃ h, RunsAlone l h { l with pump := l.pump.close.1, stop := .returned } := by
  obtain ⟨h, hrun⟩ := runsAlone_settle hstop hdue
  have hreturns := Works.returns (l := { l with pump := l.pump.settle.1 }) hstop
    l.pump.inbox_settle hclosed
  exact ⟨h ++ [.returns], hrun.trans (.of_works hreturns)⟩

/-- **A closed pump returns** if it is left alone. -/
theorem exists_returned (hclosed : l.closed = true)
    (hdue : l.pump.driver.resumePending = true ↔ l.stop = .yielding) :
    ∃ h l', RunsAlone l h l' ∧ l'.stop = .returned := by
  cases hstop : l.stop with
  | receiving =>
    obtain ⟨h, hrun⟩ := runsAlone_close hstop hclosed (by simpa [hstop] using hdue)
    exact ⟨h, _, hrun, rfl⟩
  | yielding =>
    obtain ⟨h, hrun⟩ := runsAlone_close
      (l := { l with pump := l.pump.resume.1, stop := .receiving }) rfl hclosed
      (EventPump.not_due_resume l.pump)
    exact ⟨_, _, (RunsAlone.of_works (.resumes hstop)).trans hrun, rfl⟩
  | returned => exact ⟨[], l, .refl l, hstop⟩

/-- How much a pump can still do: up to three deeds for each event that waits, what is left of the
round that it has begun, and its return. -/
def labour (l : PumpLoop H) : Nat :=
  3 * l.pump.inbox.length +
    match l.stop with
    | .receiving => 1
    | .yielding => 2
    | .returned => 0

omit [SessionHost H] in
/-- No pump can do much more than to handle what waits. -/
theorem labour_le (l : PumpLoop H) : l.labour ≤ 3 * l.pump.inbox.length + 2 := by
  rw [labour]
  cases l.stop <;> simp

/-- Every deed of the pump lessens what it can still do. -/
theorem Works.labour_le {deeds : List (PumpDeed H)} (hstep : Works l deeds l') :
    deeds.length + l'.labour ≤ l.labour := by
  cases hstep with
  | @completes e rest hstop hinbox _ =>
    have hopening := PumpRound.length_opening_le (H := H) (l.round e)
    simp only [labour, EventPump.dispatch_eq, hstop, hinbox, PumpRound.deeds, List.length_append,
      List.length_cons, List.length_nil]
    omega
  | @yields e rest hstop hinbox _ =>
    have hopening := PumpRound.length_opening_le (H := H) (l.round e)
    simp only [labour, EventPump.dispatch_eq, hstop, hinbox, List.length_cons]
    omega
  | resumes hstop =>
    simp only [labour, EventPump.resume, hstop, List.length_singleton]
    omega
  | returns hstop hinbox _ => simp [labour, hstop, hinbox]

/-- **Once the channel is closed,** it stays closed, and every deed of the pump lessens what it can
still do, whatever the others do. -/
theorem Runs.labour_le (hrun : Runs l h l') (hclosed : l.closed = true) :
    l'.closed = true ∧ (h.filter PumpDeed.isOwn).length + l'.labour ≤ l.labour := by
  induction hrun with
  | refl => simp [hclosed]
  | @works h deeds l' l'' _ hstep ih =>
    obtain ⟨hstill, hle⟩ := ih
    have hless := hstep.labour_le
    refine ⟨by cases hstep <;> exact hstill, ?_⟩
    rw [List.filter_append, hstep.isOwn, List.length_append]
    omega
  | @others h d l' l'' _ hstep ih =>
    obtain ⟨hstill, hle⟩ := ih
    cases hstep with
    | sends e hyet => simp [hstill] at hyet
    | closes => exact ⟨rfl, by simpa [PumpDeed.isOwn, labour] using hle⟩
    | drops | changes _ => exact ⟨hstill, by simpa [PumpDeed.isOwn, labour] using hle⟩

end PumpLoop

/-- **The pump loses, doubles and reorders nothing.** Take a pump with any driver that has nothing
due, alone on its thread, and let the other tasks send events, close the channel, drop the receiver
and change the host where the pump stops, in any order. Then

* what has been sent is what has been handled, in this order, and what still waits; and all has been
  handled when the pump has returned;
* the outbox is what has been passed on, and this is what was answered to go on its way before the
  receiver was dropped;
* the deeds of the pump are whole rounds, in each of which an event is handled, it is passed on, and
  the resumption that is then due is run once; and what it has begun where it stops;
* a resumption is due exactly where the pump yields, thus never where it waits for an event or has
  returned;
* the driver and the host are those of the plain loop, which takes a turn after each event and knows
  nothing of a receiver;
* once the channel is closed, the pump returns if it is left alone, and can only do so much more
  whatever the others do;
* and the loop that is run is this pump: left alone where it waits for an event, it handles all that
  waits and stops as `EventPump.settle` says, or returns as `EventPump.close` says if the channel is
  closed, and it comes to nothing else.

**Proof sketch.** Every step of the pump (`PumpLoop.Account.works`) and of the others
(`PumpLoop.Account.others`) keeps the account of the history. A turn with nothing due does nothing,
so the plain loop may take it and the pump may not. What the pump comes to when it is left alone is
the same after each of its steps (`PumpLoop.Works.settled_eq`), and each of its deeds lessens its
labour. -/
theorem pump_refines_plain_loop {H : Type} [SessionHost H] {driver : LayoutDriver} {host : H}
    {h : List (PumpDeed H)} {l : PumpLoop H} (hdue : driver.resumePending = false)
    (hrun : PumpLoop.Runs (.start driver host) h l) :
    (h.filterMap PumpDeed.sent? = h.filterMap PumpDeed.handled? ++ l.pump.inbox ∧
      (l.stop = .returned → h.filterMap PumpDeed.handled? = h.filterMap PumpDeed.sent?)) ∧
    (l.pump.outbox = h.filterMap PumpDeed.passed? ∧
      h.filterMap PumpDeed.passed? = (beforeDrop h).filterMap PumpDeed.forwarded?) ∧
    (∃ (rounds : List PumpRound) (rest : List (PumpDeed H)),
      h.filter PumpDeed.isOwn = rounds.flatMap PumpRound.deeds ++ rest ∧ l.stop.Leaves rest) ∧
    (l.pump.driver.resumePending = true ↔ l.stop = .yielding) ∧
    l.pump.scene = (Scene.mk driver host).plainLoop h ∧
    (l.closed = true →
      (∃ h' l', PumpLoop.RunsAlone l h' l' ∧ l'.stop = .returned) ∧
      ∀ h' l', PumpLoop.Runs l h' l' →
        (h'.filter PumpDeed.isOwn).length ≤ 3 * l.pump.inbox.length + 2) ∧
    (l.stop = .receiving →
      (∃ h', PumpLoop.RunsAlone l h' { l with pump := l.pump.settle.1 }) ∧
      (l.closed = true →
        ∃ h', PumpLoop.RunsAlone l h' { l with pump := l.pump.close.1, stop := .returned }) ∧
      ∀ h' l', PumpLoop.RunsAlone l h' l' → l'.stop ≠ .yielding → l'.pump.inbox = [] →
        l'.pump = l.pump.settle.1 ∧ l'.pump = l.pump.close.1 ∧
          h'.filterMap PumpDeed.handled? = l.pump.inbox) := by
  obtain ⟨ledger, hrounds, hyields, hinbox, -⟩ := hrun.account hdue
  refine ⟨⟨ledger.sent, fun hreturned => ?_⟩, ⟨ledger.outbox, ledger.passed⟩, hrounds, hyields,
    ledger.scene, fun hclosed => ⟨PumpLoop.exists_returned hclosed hyields, ?_⟩,
    fun hstop => ?_⟩
  · rw [ledger.sent, hinbox hreturned, List.append_nil]
  · intro h' l' hrun'
    have hle := (hrun'.labour_le hclosed).2
    have hbound := l.labour_le
    omega
  · have hnot : l.pump.driver.resumePending = false := by simpa [hstop] using hyields
    have hcomes : l.settled = l.pump.settle.1 := by simp only [PumpLoop.settled, hstop]
    refine ⟨PumpLoop.runsAlone_settle hstop hnot,
      fun hclosed => PumpLoop.runsAlone_close hstop hclosed hnot,
      fun h' l' halone hrests hempty => ?_⟩
    have hpump := (halone.pump_eq hrests hempty).trans hcomes
    exact ⟨hpump, hpump, halone.handled_eq hempty⟩

/-- Two tabs have been started. The second session announces itself, the host changes while the pump
yields, the receiver is dropped, and an event that is not passed on still waits when the channel is
closed. The pump handles it and returns. -/
theorem pump_refines_plain_loop_when_dropped :
    let w : Scene QueuedHost := (Scene.mk (.new .standard) (.new (some ⟨"s0"⟩) false)).after
      (.start ⟨⟨.group [.command "a", .command "b"], none⟩, "/work"⟩)
    let h : List (PumpDeed QueuedHost) :=
      [.sends (.activated ⟨"s1"⟩), .handles (.activated ⟨"s1"⟩) .forward true,
        .passes (.activated ⟨"s1"⟩), .changes fun host => (host.complete none).2, .finishes true,
        .drops, .sends (.closed ⟨"s0"⟩), .closes]
    ∃ l h', w.driver.resumePending = false ∧ PumpLoop.Runs (.start w.driver w.host) h l ∧
      l.stop = .receiving ∧ l.pump.outbox = [.activated ⟨"s1"⟩] ∧ l.pump.scene = w.plainLoop h ∧
      PumpLoop.RunsAlone l h' { l with pump := l.pump.close.1, stop := .returned } ∧
      h'.filterMap PumpDeed.handled? = [.closed ⟨"s0"⟩] ∧
      l.pump.close.1.outbox = [.activated ⟨"s1"⟩] := by
  intro w h
  have hdue : w.driver.resumePending = false := by decide
  have hstart : PumpLoop.Runs (.start w.driver w.host) [] (.start w.driver w.host) := .refl
  have hrun := hstart
    |>.others (.sends (.activated ⟨"s1"⟩) rfl)
    |>.works (.yields rfl rfl (by decide))
    |>.others (.changes fun host => (host.complete none).2)
    |>.works (.resumes rfl)
    |>.others .drops
    |>.others (.sends (.closed ⟨"s0"⟩) rfl)
    |>.others .closes
  obtain ⟨-, ⟨houtbox, -⟩, -, -, hscene, -, hsettles⟩ := pump_refines_plain_loop hdue hrun
  obtain ⟨-, hcloses, hunique⟩ := hsettles rfl
  obtain ⟨h', halone⟩ := hcloses rfl
  obtain ⟨-, -, hhandled⟩ := hunique h' _ halone nofun rfl
  exact ⟨_, h', hdue, hrun, rfl, houtbox, hscene, halone, hhandled, by decide⟩

end PaneLayout
