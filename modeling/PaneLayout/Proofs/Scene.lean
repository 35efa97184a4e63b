import PaneLayout.LayoutDriver
import PaneLayout.Proofs.Play

set_option autoImplicit false

/-!
# Scenes and runs

A driver and its host, and everything that can happen to them. Statements about all orders of
events, turns and host activity are statements about the scenes that a run can reach.

## Main definitions

* `PaneLayout.Scene` — a driver and its host.
* `PaneLayout.Happening`, `PaneLayout.Scene.after` — what can happen, and the scene afterwards.
* `PaneLayout.Scene.Reaches` — the scenes on runs of allowed happenings.
* `PaneLayout.Scene.Launches`, `PaneLayout.Scene.launched` — the happenings that start a layout, and
  the scene that they leave.
* `PaneLayout.Scene.Undisturbed` — the happenings that leave the live layout in place.
* `PaneLayout.Scene.Finished` — nothing is left to play.

## Main results

* `PaneLayout.Scene.Reaches.invariant` — what every allowed happening preserves holds on all runs.
* `PaneLayout.Scene.Undisturbed.induct` — all that can happen while no other layout is started.
* `PaneLayout.LayoutDriver.handle_cases`, `PaneLayout.LayoutDriver.observe_cases`,
  `PaneLayout.LayoutDriver.runScheduled_cases` — all that the operations of a driver can do.
* `PaneLayout.LayoutDriver.start_of_build`, `PaneLayout.LayoutDriver.start_of_fault` — what
  starting a request does.
-/

namespace PaneLayout

/-! ### The operations of a driver -/

namespace LayoutDriver

section Observe

variable {driver : LayoutDriver} {s : Sequencer} {id : SessionId}

/-- A sequencer that has finished hears of nothing. -/
theorem observe_of_finished (hs : driver.sequencer = some s) (hfin : s.isFinished = true)
    (id : SessionId) : driver.observe id = (driver, []) := by
  simp [observe, hs, hfin]

/-- Hearing again of a session does nothing. -/
theorem observe_of_known (hs : driver.sequencer = some s) (hfin : s.isFinished = false)
    (hknown : s.knows id = true) : driver.observe id = (driver, [.sessionKnown id]) := by
  simp [observe, hs, hfin, hknown]

/-- Hearing of a session for the first time makes a resumption due. -/
theorem observe_of_new (hs : driver.sequencer = some s) (hfin : s.isFinished = false)
    (hnew : s.knows id = false) :
    driver.observe id = ({ driver with
      sequencer := some { s with known := id :: s.known }, resumePending := true },
      [.sessionNew id]) := by
  simp [observe, hs, hfin, hnew, Sequencer.observe]

/-- Hearing of a session does nothing, or the live sequencer has not finished, has not heard of the
session, and a resumption is now due. -/
theorem observe_cases (driver : LayoutDriver) (id : SessionId) :
    (driver.observe id).1 = driver ∨
      ∃ s, driver.sequencer = some s ∧ s.isFinished = false ∧ s.knows id = false ∧
        (driver.observe id).1 =
          { driver with sequencer := some { s with known := id :: s.known }, resumePending := true }
    := by
  cases hs : driver.sequencer with
  | none => exact .inl (by rw [observe, hs])
  | some s =>
    cases hfin : s.isFinished with
    | true => exact .inl (by rw [observe_of_finished hs hfin])
    | false =>
      cases hknown : s.knows id with
      | true => exact .inl (by rw [observe_of_known hs hfin hknown])
      | false => exact .inr ⟨s, rfl, hfin, hknown, by rw [observe_of_new hs hfin hknown]⟩

end Observe

section Host

variable {H : Type} [SessionHost H]

/-- Handling an event leaves all as it was, or starts a request found in the output of a session, or
lets the live sequencer hear of the session of the event. -/
theorem handle_cases (driver : LayoutDriver) (e : HostEvent) (host : H) :
    ((driver.handle e host).driver = driver ∧ (driver.handle e host).host = host) ∨
    (∃ id data request, e = .dataReceived id data ∧
      LayoutRequest.find? data = .ok (some request) ∧
      (driver.handle e host).driver = (driver.start request host).driver ∧
      (driver.handle e host).host = (driver.start request host).host) ∨
    ∃ id, e.alive? = some id ∧ (driver.handle e host).driver = (driver.observe id).1 ∧
      (driver.handle e host).host = host := by
  by_cases hon : driver.settings.enabled = true
  · simp only [handle, hon, Bool.not_true, Bool.false_eq_true, if_false]
    cases e with
    | dataReceived id data =>
      cases hfind : LayoutRequest.find? data with
      | error fault => exact .inl (by simp only [handleOutput, hfind, and_self])
      | ok found =>
        cases found with
        | none => exact .inl (by simp only [handleOutput, hfind, and_self])
        | some request =>
          refine .inr (.inl ⟨id, data, request, rfl, hfind, ?_, ?_⟩)
          · simp only [handleOutput, hfind]
          · simp only [handleOutput, hfind]
    | titleChanged id title => exact .inr (.inr ⟨id, rfl, rfl, rfl⟩)
    | activated id => exact .inr (.inr ⟨id, rfl, rfl, rfl⟩)
    | closed id => exact .inl ⟨rfl, rfl⟩
  · exact .inl ⟨by simp [handle, hon], by simp [handle, hon]⟩

/-- An event that shows a session to be alive lets an enabled driver hear of it. -/
theorem handle_of_alive {driver : LayoutDriver} (hon : driver.settings.enabled = true)
    {e : HostEvent} {id : SessionId} (he : e.alive? = some id) (host : H) :
    (driver.handle e host).driver = (driver.observe id).1 ∧
      (driver.handle e host).host = host := by
  cases e with
  | dataReceived x data => simp [HostEvent.alive?] at he
  | closed x => simp [HostEvent.alive?] at he
  | titleChanged x title =>
    obtain rfl : x = id := by simpa [HostEvent.alive?] using he
    simp [handle, hon, HostEvent.alive?]
  | activated x =>
    obtain rfl : x = id := by simpa [HostEvent.alive?] using he
    simp [handle, hon, HostEvent.alive?]

/-- A turn does nothing but clear the resumption that was due, or it plays the live sequencer on
from the split that it was waiting for. -/
theorem runScheduled_cases (driver : LayoutDriver) (host : H) :
    ((driver.runScheduled host).driver = { driver with resumePending := false } ∧
      (driver.runScheduled host).host = host ∧ (driver.runScheduled host).answer = false) ∨
    ∃ s, driver.sequencer = some s ∧ driver.resumePending = true ∧ s.phase = .awaitingSession ∧
      (driver.runScheduled host).driver =
        { driver with sequencer := some (s.run host).sequencer, resumePending := false } ∧
      (driver.runScheduled host).host = (s.run host).host ∧
      (driver.runScheduled host).answer = true := by
  rw [runScheduled]
  obtain ⟨settings, sequencer, pending⟩ := driver
  cases pending with
  | false => exact .inl ⟨rfl, rfl, rfl⟩
  | true =>
    cases sequencer with
    | none => exact .inl ⟨rfl, rfl, rfl⟩
    | some s =>
      by_cases hs : s.phase = .awaitingSession
      · refine .inr ⟨s, rfl, rfl, hs, ?_⟩
        simp [Sequencer.resume, hs]
      · exact .inl (by simp [Sequencer.resume, hs])

/-- The sequencer that a request gets, before it has played anything. -/
def fresh (driver : LayoutDriver) (plan : Plan) (cwd : String) (active : Option SessionId) :
    Sequencer :=
  { Sequencer.ofPlan plan cwd driver.settings.hideFromHistory with known := active.toList }

/-- A request that compiles takes the place of what was played before, and is played up to its
first split. -/
theorem start_of_build {driver : LayoutDriver} {request : LayoutRequest} {plan : Plan} (host : H)
    (h : Plan.build request.config driver.settings.defaultEntry = .ok plan) :
    let play := (driver.fresh plan request.cwd (SessionHost.active host)).run host
    (driver.start request host).driver = ⟨driver.settings, some play.sequencer, false⟩ ∧
      (driver.start request host).host = play.host := by
  simp only [start, h]
  cases SessionHost.active host with
  | none => exact ⟨rfl, rfl⟩
  | some id => exact ⟨rfl, rfl⟩

/-- A request that does not compile is answered with its fault, and changes nothing. -/
theorem start_of_fault {driver : LayoutDriver} {request : LayoutRequest} {fault : LayoutFault}
    (host : H) (h : Plan.build request.config driver.settings.defaultEntry = .error fault) :
    driver.start request host = ⟨driver, host, .error fault,
      Plan.notices request.config driver.settings.defaultEntry⟩ := by
  simp [start, h]

end Host

end LayoutDriver

/-! ### Scenes -/

/-- **Scenes.** A driver and its host. -/
structure Scene (H : Type) where
  driver : LayoutDriver
  host : H

/-- **Happenings.** The host hands an event to the driver, or gives it a turn; a request is started
directly; the settings are changed; the live sequencer is detached; or the host goes on by itself
and is then as given. -/
inductive Happening (H : Type) where
  | event (e : HostEvent)
  | turn
  | start (request : LayoutRequest)
  | configure (settings : Settings)
  | detach
  | host (next : H)

namespace Scene

variable {H : Type} [SessionHost H]

/-- The scene after a happening. -/
def after (w : Scene H) : Happening H → Scene H
  | .event e => ⟨(w.driver.handle e w.host).driver, (w.driver.handle e w.host).host⟩
  | .turn => ⟨(w.driver.runScheduled w.host).driver, (w.driver.runScheduled w.host).host⟩
  | .start request => ⟨(w.driver.start request w.host).driver, (w.driver.start request w.host).host⟩
  | .configure settings => ⟨(w.driver.setSettings settings).1, w.host⟩
  | .detach => ⟨w.driver.detach, w.host⟩
  | .host next => ⟨w.driver, next⟩

/-- Whether a turn, taken now, would play the live sequencer on. -/
def Resumes (w : Scene H) : Prop := (w.driver.runScheduled w.host).answer = true

/-- If a turn would play the live sequencer on, it is waiting, and a resumption is due. -/
theorem Resumes.exists_sequencer {w : Scene H} (h : w.Resumes) :
    ∃ s, w.driver.sequencer = some s ∧ w.driver.resumePending = true ∧
      s.phase = .awaitingSession := by
  rcases LayoutDriver.runScheduled_cases w.driver w.host with
    ⟨-, -, hno⟩ | ⟨s, hs, hdue, hphase, -⟩
  · rw [Resumes, hno] at h
    exact absurd h (by decide)
  · exact ⟨s, hs, hdue, hphase⟩

/-- **Runs.** The scenes that can be reached by happenings that are allowed where they happen. -/
inductive Reaches (allowed : Scene H → Happening H → Prop) (w₀ : Scene H) : Scene H → Prop where
  | refl : Reaches allowed w₀ w₀
  | step {w : Scene H} {a : Happening H} :
    Reaches allowed w₀ w → allowed w a → Reaches allowed w₀ (w.after a)

namespace Reaches

variable {allowed : Scene H → Happening H → Prop} {w₀ w : Scene H}

/-- What holds at the start and is preserved by every allowed happening holds on the whole run. -/
theorem invariant {P : Scene H → Prop} (hrun : Reaches allowed w₀ w) (start : P w₀)
    (step : ∀ {w a}, P w → allowed w a → P (w.after a)) : P w := by
  induction hrun with
  | refl => exact start
  | step _ ha ih => exact step ih ha

/-- A run is a run of other happenings if these allow, on the run so far, what was allowed. -/
theorem mono {allowed' : Scene H → Happening H → Prop} (hrun : Reaches allowed w₀ w)
    (h : ∀ {w a}, Reaches allowed' w₀ w → allowed w a → allowed' w a) : Reaches allowed' w₀ w := by
  induction hrun with
  | refl => exact .refl
  | step _ ha ih => exact .step ih (h ih ha)

end Reaches

/-! ### Launches -/

/-- **Launches.** The happening starts the request, directly or out of the output of a session, and
its layout compiles to the plan. -/
inductive Launches (w : Scene H) (request : LayoutRequest) (plan : Plan) : Happening H → Prop where
  | start : Plan.build request.config w.driver.settings.defaultEntry = .ok plan →
    Launches w request plan (.start request)
  | data {id : SessionId} {data : String} : w.driver.settings.enabled = true →
    LayoutRequest.find? data = .ok (some request) →
    Plan.build request.config w.driver.settings.defaultEntry = .ok plan →
    Launches w request plan (.event (.dataReceived id data))

omit [SessionHost H] in
/-- Only layouts that compile are launched. -/
theorem Launches.build {w : Scene H} {request : LayoutRequest} {plan : Plan} {a : Happening H}
    (h : w.Launches request plan a) :
    Plan.build request.config w.driver.settings.defaultEntry = .ok plan := by
  cases h with
  | start hbuild => exact hbuild
  | data _ _ hbuild => exact hbuild

/-- The scene after a launch: a new sequencer has been played up to its first split. -/
def launched (w : Scene H) (request : LayoutRequest) (plan : Plan) : Scene H :=
  let play := (w.driver.fresh plan request.cwd (SessionHost.active w.host)).run w.host
  ⟨⟨w.driver.settings, some play.sequencer, false⟩, play.host⟩

/-- Every launch leaves the launched scene. -/
theorem Launches.after_eq {w : Scene H} {request : LayoutRequest} {plan : Plan} {a : Happening H}
    (h : w.Launches request plan a) : w.after a = w.launched request plan := by
  cases h with
  | start hbuild =>
    obtain ⟨hdriver, hhost⟩ := LayoutDriver.start_of_build w.host hbuild
    rw [after, launched, hdriver, hhost]
  | data hon hfind hbuild =>
    obtain ⟨hdriver, hhost⟩ := LayoutDriver.start_of_build w.host hbuild
    simp only [after, LayoutDriver.handle, LayoutDriver.handleOutput, hon, hfind, Bool.not_true,
      Bool.false_eq_true, if_false, hdriver, hhost]
    rfl

/-- **Undisturbed.** The happening starts no layout; if it lets the driver hear of a session, then
of one that may be heard of; and if the host goes on by itself, then as hosts may. -/
structure Undisturbed (moves : H → H → Prop) (audible : Scene H → SessionId → Prop) (w : Scene H)
    (a : Happening H) : Prop where
  no_launch : ∀ request plan, ¬ w.Launches request plan a
  audible : ∀ e id, a = .event e → e.alive? = some id → audible w id
  moves : ∀ next, a = .host next → moves w.host next

section Undisturbed

variable {moves : H → H → Prop} {audible : Scene H → SessionId → Prop} {w : Scene H}

omit [SessionHost H]

/-- A turn starts no layout. -/
theorem undisturbed_turn : w.Undisturbed moves audible .turn :=
  ⟨by rintro _ _ ⟨⟩, by simp, by simp⟩

/-- A change of the settings starts no layout. -/
theorem undisturbed_configure (settings : Settings) :
    w.Undisturbed moves audible (.configure settings) :=
  ⟨by rintro _ _ ⟨⟩, by simp, by simp⟩

/-- The host may do by itself what hosts may. -/
theorem undisturbed_host {next : H} (h : moves w.host next) :
    w.Undisturbed moves audible (.host next) := by
  refine ⟨by rintro _ _ ⟨⟩, by simp, ?_⟩
  rintro _ ⟨⟩
  exact h

/-- The driver may be told of a session that may be heard of. -/
theorem undisturbed_event {e : HostEvent} {id : SessionId} (he : e.alive? = some id)
    (h : audible w id) : w.Undisturbed moves audible (.event e) := by
  refine ⟨?_, ?_, by simp⟩
  · rintro request plan hlaunch
    cases hlaunch
    simp [HostEvent.alive?] at he
  · rintro _ x ⟨⟩ hx
    rw [he, Option.some.injEq] at hx
    exact hx ▸ h

end Undisturbed

/-- A request that is started without launching a layout changes nothing. -/
theorem start_of_not_launches (w : Scene H) (request : LayoutRequest)
    (h : ∀ plan, ¬ Plan.build request.config w.driver.settings.defaultEntry = .ok plan) :
    (w.driver.start request w.host).driver = w.driver ∧
      (w.driver.start request w.host).host = w.host := by
  cases hbuild : Plan.build request.config w.driver.settings.defaultEntry with
  | ok plan => exact absurd hbuild (h plan)
  | error fault =>
    rw [LayoutDriver.start_of_fault w.host hbuild]
    exact ⟨rfl, rfl⟩

/-- An event that starts no layout and shows no session to be alive changes nothing. -/
theorem after_event_of_silent {w : Scene H} {e : HostEvent} (he : e.alive? = none)
    (h : ∀ request plan, ¬ w.Launches request plan (.event e)) : w.after (.event e) = w := by
  rw [after]
  rcases LayoutDriver.handle_cases w.driver e w.host with
    ⟨hd, hh⟩ | ⟨id, data, request, rfl, hfind, hd, hh⟩ | ⟨id, hid, -⟩
  · rw [hd, hh]
  · by_cases hon : w.driver.settings.enabled = true
    · obtain ⟨hd', hh'⟩ := start_of_not_launches w request
        fun plan hbuild => h request plan (.data hon hfind hbuild)
      rw [hd, hh, hd', hh']
    · simp [LayoutDriver.handle, hon]
  · rw [he] at hid
    exact absurd hid (by simp)

/-- **All that can happen while no other layout is started.** Nothing or a change of the settings;
the live sequencer hears of a session for the first time; a turn with nothing to play or with the
next instructions to play; the end of the live sequencer; and what the host does by itself. -/
theorem Undisturbed.induct {P : Scene H → Prop} {moves : H → H → Prop}
    {audible : Scene H → SessionId → Prop} {w : Scene H} {a : Happening H}
    (settings : ∀ kept, P ⟨{ w.driver with settings := kept }, w.host⟩)
    (hears : ∀ s id, w.driver.sequencer = some s → s.isFinished = false → s.knows id = false →
      audible w id → P ⟨{ w.driver with
        sequencer := some { s with known := id :: s.known }, resumePending := true }, w.host⟩)
    (rests : P ⟨{ w.driver with resumePending := false }, w.host⟩)
    (resumes : ∀ s, w.driver.sequencer = some s → w.driver.resumePending = true →
      s.phase = .awaitingSession → P ⟨{ w.driver with
        sequencer := some (s.run w.host).sequencer, resumePending := false }, (s.run w.host).host⟩)
    (detach : a = .detach → P ⟨w.driver.detach, w.host⟩)
    (host : ∀ next, moves w.host next → P ⟨w.driver, next⟩)
    (ha : w.Undisturbed moves audible a) : P (w.after a) := by
  have stays : P w := settings w.driver.settings
  cases a with
  | event e =>
    cases he : e.alive? with
    | none =>
      rw [after_event_of_silent he ha.no_launch]
      exact stays
    | some id =>
      rw [after]
      rcases LayoutDriver.handle_cases w.driver e w.host with
        ⟨hd, hh⟩ | ⟨_, data, request, rfl, -⟩ | ⟨x, hx, hd, hh⟩
      · rw [hd, hh]
        exact stays
      · simp [HostEvent.alive?] at he
      · obtain rfl : id = x := Option.some.inj (he.symm.trans hx)
        rw [hd, hh]
        rcases LayoutDriver.observe_cases w.driver id with ho | ⟨s, hs, hfin, hknown, ho⟩
        · rw [ho]
          exact stays
        · rw [ho]
          exact hears s id hs hfin hknown (ha.audible e id rfl he)
  | turn =>
    rw [after]
    rcases LayoutDriver.runScheduled_cases w.driver w.host with
      ⟨hd, hh, -⟩ | ⟨s, hs, hdue, hphase, hd, hh, -⟩
    · rw [hd, hh]
      exact rests
    · rw [hd, hh]
      exact resumes s hs hdue hphase
  | start request =>
    obtain ⟨hd, hh⟩ := start_of_not_launches w request
      fun plan hbuild => ha.no_launch request plan (.start hbuild)
    rw [after, hd, hh]
    exact stays
  | configure kept =>
    cases hv : kept.validate with
    | ok _ => simpa [after, LayoutDriver.setSettings, hv] using settings kept
    | error fault => simpa [after, LayoutDriver.setSettings, hv] using stays
  | detach => exact detach rfl
  | host next => exact host next (ha.moves next rfl)

omit [SessionHost H] in
/-- What is undisturbed stays so if as much may be heard of and the host may do as much. -/
theorem Undisturbed.mono {moves moves' : H → H → Prop}
    {audible audible' : Scene H → SessionId → Prop} {w : Scene H} {a : Happening H}
    (ha : w.Undisturbed moves audible a)
    (hmoves : ∀ next, moves w.host next → moves' w.host next)
    (haudible : ∀ id, audible w id → audible' w id) : w.Undisturbed moves' audible' a :=
  ⟨ha.no_launch, fun e id he hid => haudible id (ha.audible e id he hid),
    fun next hnext => hmoves next (ha.moves next hnext)⟩

/-- **What the live sequencer keeps.** A relation between the host and the live sequencer is kept
while no other layout is started, if it does not depend on the sessions heard of, if playing on from
a split keeps it, and if the host keeps it by what it does by itself. -/
theorem Undisturbed.keeps {R : H → Sequencer → Prop} {moves : H → H → Prop}
    {audible : Scene H → SessionId → Prop} {w : Scene H} {a : Happening H}
    (hears : ∀ s id, R w.host s → R w.host { s with known := id :: s.known })
    (resumes : ∀ s, w.driver.sequencer = some s → w.driver.resumePending = true →
      s.phase = .awaitingSession → R w.host s → R (s.run w.host).host (s.run w.host).sequencer)
    (host : ∀ next s, moves w.host next → R w.host s → R next s)
    (h : ∀ s, w.driver.sequencer = some s → R w.host s) (ha : w.Undisturbed moves audible a) :
    ∀ s, (w.after a).driver.sequencer = some s → R (w.after a).host s := by
  refine Undisturbed.induct (P := fun w => ∀ s, w.driver.sequencer = some s → R w.host s)
    (fun _ => h) ?hears h ?resumes ?detach ?host ha
  case hears =>
    rintro s id hs - - - _ ⟨⟩
    exact hears s id (h s hs)
  case resumes =>
    rintro s hs hdue hphase _ ⟨⟩
    exact resumes s hs hdue hphase (h s hs)
  case detach =>
    intro _ s hs
    exact absurd hs (by simp [LayoutDriver.detach])
  case host => exact fun next hnext s hs => host next s hnext (h s hs)

/-- Nothing is left to play. -/
def Finished (w : Scene H) : Prop := ∀ s, w.driver.sequencer = some s → s.isFinished = true

/-- **Once nothing is left to play,** nothing is, unless another layout is started. -/
theorem Undisturbed.finished {moves : H → H → Prop} {audible : Scene H → SessionId → Prop}
    {w : Scene H} {a : Happening H} (ha : w.Undisturbed moves audible a) (h : w.Finished) :
    (w.after a).Finished := by
  refine ha.keeps (R := fun _ s => s.isFinished = true) (fun _ _ hfin => hfin) ?_
    (fun _ _ _ hfin => hfin) h
  intro s _ _ hphase hfin
  rw [Sequencer.phase_of_isFinished hfin] at hphase
  exact absurd hphase (by decide)

end Scene

end PaneLayout
