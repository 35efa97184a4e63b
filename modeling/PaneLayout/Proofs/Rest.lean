import PaneLayout.Proofs.Execution
import PaneLayout.Proofs.Scene
import PaneLayout.Proofs.Tree.Census
import PaneLayout.Proofs.Tree.Numbering

set_option autoImplicit false

/-!
# Drivers at rest

Between two calls, a driver has nothing half done. It plays nothing; or its sequencer has finished;
or the sequencer waits for a session, and will then run the command of the pane that it has split
off. A resumption is due in the last case only, so whenever one is due, there is something to play.

## Main definitions

* `PaneLayout.FollowedUp` — every split of a queue is followed by the command of its pane.
* `PaneLayout.Sequencer.AtRest`, `PaneLayout.LayoutDriver.AtRest` — how a sequencer and a driver
  stand between two calls.
* `PaneLayout.Scene.Rested` — the invariant of scenes.

## Main results

* `PaneLayout.Plan.followedUp_queue` — the queue of a plan that could be built is followed up.
* `PaneLayout.Scene.Rested.after` — whatever happens leaves the driver at rest.
* `PaneLayout.LayoutDriver.AtRest.runScheduled` — a turn plays on exactly if a resumption is due.
* `PaneLayout.Scene.handle_of_not_launches` — an event that starts no layout makes no call and
  executes nothing.
* `PaneLayout.driver_rests_between_calls` — the invariant and what follows from it, on all runs.
-/

namespace PaneLayout

/-! ### Queues that are followed up -/

/-- **Follow-ups.** Every split of the queue is directly followed by the command of its pane. -/
def FollowedUp : List Instruction → Prop
  | [] => True
  | i :: rest => (i.isSplit = true → rest.head? = some (.cmd i.pane)) ∧ FollowedUp rest

/-- Paced queues are followed up. -/
theorem Paced.followedUp {queue : List Instruction} (h : Paced queue) : FollowedUp queue := by
  induction h with
  | nil => trivial
  | jump p _ ih => exact ⟨fun hsplit => absurd hsplit Bool.false_ne_true, ih⟩
  | split mode p _ ih =>
    exact ⟨fun _ => rfl, fun hsplit => absurd hsplit Bool.false_ne_true, ih⟩

/-- **Scripts are followed up**, in every mode and on every level. -/
theorem Tree.followedUp_script (t : Tree) (mode : Mode) (isRoot : Bool) :
    FollowedUp (t.script mode isRoot) := by
  rcases t.paced_or_root mode isRoot with hpaced | ⟨-, p, body, hpaced, heq⟩
  · exact hpaced.followedUp
  · rw [heq]
    exact ⟨fun hsplit => absurd hsplit Bool.false_ne_true,
      fun hsplit => absurd hsplit Bool.false_ne_true, hpaced.followedUp⟩

/-- The queue of a plan that could be built is followed up. -/
theorem Plan.followedUp_queue {config : LayoutConfig} {defaultEntry : String} {plan : Plan}
    (h : build config defaultEntry = .ok plan) : FollowedUp plan.queue := by
  obtain ⟨t, -, -, -, hqueue, -⟩ := exists_tree h
  exact hqueue ▸ t.followedUp_script plan.entry true

/-! ### At rest -/

/-- **Sequencers at rest.** All has been played; or a split is under way, and the command of its
pane comes next. -/
def Sequencer.AtRest (s : Sequencer) : Prop :=
  (s.phase = .idle ∧ s.queue = []) ∨
    (s.phase = .awaitingSession ∧ s.queue.head? = some (.cmd s.lastPane))

/-- **Drivers at rest.** There is no sequencer, or it is at rest; and a resumption is due only while
it waits. -/
inductive LayoutDriver.AtRest (driver : LayoutDriver) : Prop where
  | vacant : driver.sequencer = none → driver.resumePending = false → AtRest driver
  | finished (s : Sequencer) : driver.sequencer = some s → s.phase = .idle → s.queue = [] →
    driver.resumePending = false → AtRest driver
  | waiting (s : Sequencer) (rest : List Instruction) : driver.sequencer = some s →
    s.phase = .awaitingSession → s.queue = .cmd s.lastPane :: rest → AtRest driver

namespace Sequencer

variable {H : Type} [SessionHost H]

/-- **A play leaves the sequencer at rest,** with a queue that is followed up. -/
theorem atRest_run {s : Sequencer} (h : FollowedUp s.queue) (host : H) :
    (s.run host).sequencer.AtRest ∧ FollowedUp (s.run host).sequencer.queue := by
  refine run_induct (P := fun _ queue (_ : H) => FollowedUp queue)
    (Q := fun s (_ : H) => s.AtRest ∧ FollowedUp s.queue) ?_ ?_ ?_ h
  · exact fun _ => ⟨.inl ⟨rfl, rfl⟩, trivial⟩
  · exact fun hqueue => ⟨.inr ⟨rfl, hqueue.1 rfl⟩, hqueue.2⟩
  · exact fun _ hqueue => hqueue.2

end Sequencer

namespace Scene

variable {H : Type} [SessionHost H]

/-- **The scene is at rest**: the live sequencer, if there is one, and what is left of its queue is
followed up; and a resumption is due only while it waits. -/
structure Rested (w : Scene H) : Prop where
  atRest : ∀ s, w.driver.sequencer = some s → s.AtRest ∧ FollowedUp s.queue
  due : w.driver.resumePending = true →
    ∃ s, w.driver.sequencer = some s ∧ s.phase = .awaitingSession

omit [SessionHost H] in
/-- A driver that plays nothing is at rest. -/
theorem rested_new (settings : Settings) (host : H) : Rested ⟨.new settings, host⟩ :=
  ⟨by simp [LayoutDriver.new], by simp [LayoutDriver.new]⟩

/-- A launch leaves the driver at rest. -/
theorem rested_launched (w : Scene H) {request : LayoutRequest} {plan : Plan}
    (hqueue : FollowedUp plan.queue) : (w.launched request plan).Rested := by
  refine ⟨?_, by simp [launched]⟩
  rintro _ ⟨⟩
  exact Sequencer.atRest_run hqueue w.host

/-- **Whatever happens leaves the driver at rest.** -/
theorem Rested.after {w : Scene H} (h : w.Rested) (a : Happening H) : (w.after a).Rested := by
  by_cases hlaunch : ∃ request plan, w.Launches request plan a
  · obtain ⟨request, plan, hlaunch⟩ := hlaunch
    rw [hlaunch.after_eq]
    exact rested_launched w (Plan.followedUp_queue hlaunch.build)
  · have ha : w.Undisturbed (fun _ _ => True) (fun _ _ => True) a :=
      ⟨fun request plan hyes => hlaunch ⟨request, plan, hyes⟩, fun _ _ _ _ => trivial,
        fun _ _ => trivial⟩
    refine Undisturbed.induct (P := Rested) ?settings ?hears ?rests ?resumes ?detach ?host ha
    case settings => exact fun _ => ⟨h.atRest, h.due⟩
    case rests => exact ⟨h.atRest, by simp⟩
    case detach => exact fun _ => ⟨by simp [LayoutDriver.detach], by simp [LayoutDriver.detach]⟩
    case host => exact fun _ _ => ⟨h.atRest, h.due⟩
    case resumes =>
      refine fun s hs _ _ => ⟨?_, by simp⟩
      rintro _ ⟨⟩
      exact Sequencer.atRest_run (h.atRest s hs).2 w.host
    case hears =>
      intro s id hs hfin _ _
      obtain ⟨hrest, hqueue⟩ := h.atRest s hs
      refine ⟨?_, fun _ => ⟨_, rfl, ?_⟩⟩
      · rintro _ ⟨⟩
        exact ⟨hrest, hqueue⟩
      · rcases hrest with ⟨hidle, hnil⟩ | ⟨hphase, -⟩
        · simp [Sequencer.isFinished, hidle, hnil] at hfin
        · exact hphase

omit [SessionHost H] in
/-- What the invariant says of the driver. -/
theorem Rested.driver_atRest {w : Scene H} (h : w.Rested) : w.driver.AtRest := by
  cases hs : w.driver.sequencer with
  | none =>
    refine .vacant hs (Bool.eq_false_iff.2 fun hdue => ?_)
    obtain ⟨s, hs', -⟩ := h.due hdue
    rw [hs] at hs'
    exact absurd hs' (by simp)
  | some s =>
    obtain ⟨⟨hidle, hnil⟩ | ⟨hphase, hhead⟩, -⟩ := h.atRest s hs
    · refine .finished s hs hidle hnil (Bool.eq_false_iff.2 fun hdue => ?_)
      obtain ⟨s', hs', hphase⟩ := h.due hdue
      obtain rfl : s = s' := Option.some.inj (hs.symm.trans hs')
      rw [hidle] at hphase
      exact absurd hphase (by decide)
    · obtain ⟨rest, hrest⟩ := List.head?_eq_some_iff.1 hhead
      exact .waiting s rest hs hphase hrest

end Scene

/-! ### What a turn and an event do at rest -/

namespace LayoutDriver

variable {H : Type} [SessionHost H] {driver : LayoutDriver}

/-- A turn does nothing if no resumption is due. -/
theorem runScheduled_of_not_due (h : driver.resumePending = false) (host : H) :
    driver.runScheduled host = ⟨driver, host, false, []⟩ := by
  simp [runScheduled, h]

/-- A turn plays on if a resumption is due and the sequencer waits. -/
theorem runScheduled_of_due {s : Sequencer} (hs : driver.sequencer = some s)
    (hdue : driver.resumePending = true) (hphase : s.phase = .awaitingSession) (host : H) :
    driver.runScheduled host =
      ⟨{ driver with sequencer := some (s.run host).sequencer, resumePending := false },
        (s.run host).host, true, (s.run host).notices⟩ := by
  simp [runScheduled, hdue, hs, Sequencer.resume_of_waits hphase]

/-- **At rest, a turn plays on exactly if a resumption is due,** and then runs the command of the
pane that was split off before anything else. -/
theorem AtRest.runScheduled (h : driver.AtRest) (host : H) :
    (driver.runScheduled host).answer = driver.resumePending ∧
      (driver.resumePending = true → ∃ s, driver.sequencer = some s ∧
        (executed (driver.runScheduled host).notices).head? = some (.cmd s.lastPane)) := by
  by_cases hdue : driver.resumePending = true
  · cases h with
    | vacant _ hnot => simp [hnot] at hdue
    | finished s _ _ _ hnot => simp [hnot] at hdue
    | waiting s rest hs hphase hqueue =>
      rw [runScheduled_of_due hs hdue hphase, hdue]
      refine ⟨rfl, fun _ => ⟨s, hs, ?_⟩⟩
      rw [Sequencer.run, hqueue, Sequencer.executed_drain_cons rfl, List.head?_cons]
  · rw [Bool.not_eq_true] at hdue
    rw [runScheduled_of_not_due hdue, hdue]
    exact ⟨rfl, fun hyes => absurd hyes Bool.false_ne_true⟩

end LayoutDriver

/-- Looking for a request executes nothing. -/
theorem LayoutRequest.executed_findNotices (data : String) : executed (findNotices data) = [] := by
  rw [findNotices]
  split
  · rfl
  · rfl
  · split <;> rfl

/-- The sites of a layout are no instructions. -/
theorem Node.executed_siteNotices (next : Nat) (sites : List Site) :
    executed (siteNotices next sites) = [] := by
  induction sites generalizing next with
  | nil => rfl
  | cons site sites ih =>
    cases site with
    | command path text => exact ih (next + 1)
    | fault fault => rfl

/-- Building a plan executes nothing. -/
theorem Plan.executed_notices (config : LayoutConfig) (defaultEntry : String) :
    executed (notices config defaultEntry) = [] := by
  rw [notices]
  split
  · rfl
  · rw [executed_append, Node.notices, Node.executed_siteNotices]
    split <;> rfl

namespace Scene

variable {H : Type} [SessionHost H]

/-- Hearing of a session executes nothing, and leaves what is left to play. -/
theorem queue_observe (driver : LayoutDriver) (id : SessionId) :
    executed (driver.observe id).2 = [] ∧
      (driver.observe id).1.sequencer.map Sequencer.queue =
        driver.sequencer.map Sequencer.queue := by
  cases hs : driver.sequencer with
  | none => exact ⟨by rw [LayoutDriver.observe, hs]; rfl, by rw [LayoutDriver.observe, hs, hs]⟩
  | some s =>
    cases hfin : s.isFinished with
    | true =>
      rw [LayoutDriver.observe_of_finished hs hfin, hs]
      exact ⟨rfl, rfl⟩
    | false =>
      cases hknown : s.knows id with
      | true =>
        rw [LayoutDriver.observe_of_known hs hfin hknown, hs]
        exact ⟨rfl, rfl⟩
      | false =>
        rw [LayoutDriver.observe_of_new hs hfin hknown]
        exact ⟨rfl, rfl⟩

/-- **An event that starts no layout** makes no call, executes nothing, and leaves what is left to
play. -/
theorem handle_of_not_launches (w : Scene H) (e : HostEvent)
    (h : ∀ request plan, ¬ w.Launches request plan (.event e)) :
    (w.driver.handle e w.host).host = w.host ∧
      executed (w.driver.handle e w.host).notices = [] ∧
      (w.driver.handle e w.host).driver.sequencer.map Sequencer.queue =
        w.driver.sequencer.map Sequencer.queue := by
  by_cases hon : w.driver.settings.enabled = true
  · simp only [LayoutDriver.handle, hon, Bool.not_true, Bool.false_eq_true, if_false]
    cases e with
    | titleChanged id title => exact ⟨rfl, queue_observe w.driver id⟩
    | activated id => exact ⟨rfl, queue_observe w.driver id⟩
    | closed id => exact ⟨rfl, rfl, rfl⟩
    | dataReceived id data =>
      have hsearched := LayoutRequest.executed_findNotices data
      cases hfind : LayoutRequest.find? data with
      | error fault =>
        simp only [LayoutDriver.handleOutput, hfind, executed_append, hsearched]
        exact ⟨trivial, rfl, trivial⟩
      | ok found =>
        cases found with
        | none =>
          simp only [LayoutDriver.handleOutput, hfind]
          exact ⟨trivial, hsearched, trivial⟩
        | some request =>
          cases hbuild : Plan.build request.config w.driver.settings.defaultEntry with
          | ok plan => exact absurd (Launches.data hon hfind hbuild) (h request plan)
          | error fault =>
            have hbuilt := Plan.executed_notices request.config w.driver.settings.defaultEntry
            simp only [LayoutDriver.handleOutput, hfind, LayoutDriver.start_of_fault w.host hbuild]
            refine ⟨trivial, ?_, trivial⟩
            rw [executed_append, hsearched, executed_cons_of_none rfl, executed_append, hbuilt]
            rfl
  · simp [LayoutDriver.handle, hon, executed]

end Scene

/-- **Drivers rest between calls.** Take a driver that plays nothing, and let anything happen to it
and its host, any number of times and in any order. Then the driver is at rest. Its sequencer is
never at work, and if a resumption is due, it waits. The next turn plays on exactly if a resumption
is due, and then executes at least one instruction. And an event that starts no layout makes no call
to the host and executes no instruction.

**Proof sketch.** Whatever happens leaves the driver at rest (`Scene.Rested.after`), since a play
ends at a split that is followed up, or with nothing left. The rest is read off the cases. -/
theorem driver_rests_between_calls {H : Type} [SessionHost H] {settings : Settings} {host : H}
    {w : Scene H} (hrun : Scene.Reaches (fun _ _ => True) ⟨.new settings, host⟩ w) :
    w.driver.AtRest ∧
      (∀ s, w.driver.sequencer = some s → s.phase ≠ .advancing) ∧
      (w.driver.resumePending = true →
        ∃ s, w.driver.sequencer = some s ∧ s.phase = .awaitingSession) ∧
      (w.driver.runScheduled w.host).answer = w.driver.resumePending ∧
      (w.driver.resumePending = true → ∃ s, w.driver.sequencer = some s ∧
        (executed (w.driver.runScheduled w.host).notices).head? = some (.cmd s.lastPane)) ∧
      ∀ e, (∀ request plan, ¬ w.Launches request plan (.event e)) →
        (w.driver.handle e w.host).host = w.host ∧
          executed (w.driver.handle e w.host).notices = [] ∧
          (w.driver.handle e w.host).driver.sequencer.map Sequencer.queue =
            w.driver.sequencer.map Sequencer.queue := by
  have hrested : w.Rested := hrun.invariant (Scene.rested_new settings host) fun h _ => h.after _
  obtain ⟨hanswer, hplays⟩ := hrested.driver_atRest.runScheduled w.host
  refine ⟨hrested.driver_atRest, fun s hs hadvancing => ?_, hrested.due, hanswer, hplays,
    w.handle_of_not_launches⟩
  obtain ⟨⟨hphase, -⟩ | ⟨hphase, -⟩, -⟩ := hrested.atRest s hs
  · rw [hphase] at hadvancing
    exact absurd hadvancing (by decide)
  · rw [hphase] at hadvancing
    exact absurd hadvancing (by decide)

/-- Two tabs have been started, and a session has been announced that is not there: the driver is
at rest, a resumption is due, and the next turn runs the command of the second tab. -/
theorem driver_rests_when_misled :
    let start : Scene QueuedHost := ⟨.new .standard, .new (some ⟨"s0"⟩) false⟩
    let w := (start.after (.start ⟨⟨.group [.command "a", .command "b"], none⟩, "/work"⟩)).after
      (.event (.activated ⟨"s1"⟩))
    Scene.Reaches (fun _ _ => True) start w ∧ w.driver.resumePending = true ∧ w.driver.AtRest ∧
      (w.driver.runScheduled w.host).answer = true ∧
      (executed (w.driver.runScheduled w.host).notices).head? = some (.cmd 1) := by
  intro start w
  have hrun : Scene.Reaches (fun _ _ => True) start w := .step (.step .refl trivial) trivial
  have hdue : w.driver.resumePending = true := by decide
  obtain ⟨hrest, -, -, hanswer, hplays, -⟩ := driver_rests_between_calls hrun
  obtain ⟨s, hs, hhead⟩ := hplays hdue
  have hlast : w.driver.sequencer.map Sequencer.lastPane = some 1 := by decide
  rw [hs, Option.map_some, Option.some.injEq] at hlast
  exact ⟨hrun, hdue, hrest, hanswer.trans hdue, hlast ▸ hhead⟩

end PaneLayout
