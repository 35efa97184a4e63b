import PaneLayout.Proofs.Completion
import PaneLayout.Proofs.Noise

set_option autoImplicit false

/-!
# Changing the settings of a running layout

Settings apply to layouts that are started afterwards. A layout that is running has taken from them
what it needs, but the driver around it still asks whether it is enabled, and a driver that is not
lets news of sessions pass unheard. So a change of the settings goes unnoticed by a running layout
exactly if it does not switch the driver on or off, or if the layout is through.

## Main definitions

* `PaneLayout.Happening.Routine` — events without a request, turns, and what the host does by
  itself.
* `PaneLayout.Reconfigured` — a run with changes of the settings put into it.
* `PaneLayout.Scene.withSettings` — a scene under other settings.
* `PaneLayout.Scene.Deaf` — the settings of the driver can no longer be noticed.

## Main results

* `PaneLayout.LayoutDriver.handle_withSettings` — an event under other settings.
* `PaneLayout.Scene.after_withSettings` — one happening under other settings.
* `PaneLayout.Reconfigured.afterAll_eq` — a run with changes that go unnoticed.
* `PaneLayout.settings_unnoticed_iff` — which changes go unnoticed on all runs.
* `PaneLayout.switching_off_is_noticed` — a run on which a change does not.
-/

namespace PaneLayout

variable {H : Type}

/-- **Routine.** An event that carries no request, a turn, or something that the host does by
itself. -/
def Happening.Routine : Happening H → Prop
  | .event e => ∀ id data request, e = .dataReceived id data →
      LayoutRequest.find? data ≠ .ok (some request)
  | .turn => True
  | .host _ => True
  | .start _ => False
  | .configure _ => False
  | .detach => False

/-- The announcement of a session carries no request. -/
theorem Happening.routine_activated (id : SessionId) :
    Happening.Routine (H := H) (.event (.activated id)) := by
  intro x data request he
  exact absurd he (by simp)

/-- **Changes of the settings put into a run** of routine happenings, at any points and any number
of them, with settings of some kind. -/
inductive Reconfigured (kind : Settings → Prop) :
    List (Happening H) → List (Happening H) → Prop where
  | nil : Reconfigured kind [] []
  | keep {a : Happening H} {as bs : List (Happening H)} :
    a.Routine → Reconfigured kind as bs → Reconfigured kind (a :: as) (a :: bs)
  | change {settings : Settings} {as bs : List (Happening H)} :
    kind settings → Reconfigured kind as bs → Reconfigured kind as (.configure settings :: bs)

namespace LayoutDriver

/-- The driver under other settings. -/
def withSettings (driver : LayoutDriver) (settings : Settings) : LayoutDriver :=
  { driver with settings }

variable {driver : LayoutDriver} {settings : Settings}

/-- A change of the settings, if they are valid, puts the driver under them. -/
theorem setSettings_eq (driver : LayoutDriver) (settings : Settings) :
    (driver.setSettings settings).1 =
      if settings.validate = .ok () then driver.withSettings settings else driver := by
  cases h : settings.validate with
  | ok _ => simp [setSettings, h, withSettings]
  | error fault => simp [setSettings, h]

/-- Hearing of a session does not depend on the settings. -/
theorem observe_withSettings (driver : LayoutDriver) (settings : Settings) (id : SessionId) :
    ((driver.withSettings settings).observe id).1 =
      (driver.observe id).1.withSettings settings := by
  cases hs : driver.sequencer with
  | none => simp [observe, withSettings, hs]
  | some s =>
    cases hfin : s.isFinished with
    | true => simp [observe, withSettings, hs, hfin]
    | false => cases hknown : s.knows id <;> simp [observe, withSettings, hs, hfin, hknown]

/-- Hearing of a session leaves the settings. -/
theorem settings_observe (driver : LayoutDriver) (id : SessionId) :
    (driver.observe id).1.settings = driver.settings := by
  rcases observe_cases driver id with h | ⟨s, -, -, -, h⟩ <;> rw [h]

variable [SessionHost H]

/-- **An event under other settings** that switch the driver neither on nor off. -/
theorem handle_withSettings (hon : settings.enabled = driver.settings.enabled) {e : HostEvent}
    (he : Happening.Routine (H := H) (.event e)) (host : H) :
    ((driver.withSettings settings).handle e host).driver =
        (driver.handle e host).driver.withSettings settings ∧
      ((driver.withSettings settings).handle e host).host = (driver.handle e host).host ∧
      (driver.handle e host).driver.settings = driver.settings := by
  have silent : (driver.handle e host).driver = driver → (driver.handle e host).host = host →
      ((driver.withSettings settings).handle e host).driver = driver.withSettings settings →
      ((driver.withSettings settings).handle e host).host = host →
      ((driver.withSettings settings).handle e host).driver =
          (driver.handle e host).driver.withSettings settings ∧
        ((driver.withSettings settings).handle e host).host = (driver.handle e host).host ∧
        (driver.handle e host).driver.settings = driver.settings := by
    intro hdriver hhost hdriver' hhost'
    rw [hdriver, hhost, hdriver', hhost']
    exact ⟨rfl, rfl, rfl⟩
  cases henabled : driver.settings.enabled with
  | false =>
    have hoff : (driver.withSettings settings).settings.enabled = false := hon.trans henabled
    exact silent (by simp [handle, henabled]) (by simp [handle, henabled])
      (by simp [handle, hoff]) (by simp [handle, hoff])
  | true =>
    have hon' : (driver.withSettings settings).settings.enabled = true := hon.trans henabled
    cases hid : e.alive? with
    | some id =>
      obtain ⟨hdriver, hhost⟩ := handle_of_alive henabled hid host
      obtain ⟨hdriver', hhost'⟩ := handle_of_alive hon' hid host
      rw [hdriver, hhost, hdriver', hhost']
      exact ⟨observe_withSettings driver settings id, rfl, settings_observe driver id⟩
    | none =>
      cases e with
      | titleChanged id title => simp [HostEvent.alive?] at hid
      | activated id => simp [HostEvent.alive?] at hid
      | closed id =>
        exact silent (by simp [handle, henabled, HostEvent.alive?])
          (by simp [handle, henabled, HostEvent.alive?]) (by simp [handle, hon', HostEvent.alive?])
          (by simp [handle, hon', HostEvent.alive?])
      | dataReceived id data =>
        have hno := fun request => he id data request rfl
        obtain ⟨hdriver, hhost, -⟩ := driver.handle_output_of_no_request id hno host
        obtain ⟨hdriver', hhost', -⟩ :=
          (driver.withSettings settings).handle_output_of_no_request id hno host
        exact silent hdriver hhost hdriver' hhost'

/-- A turn does not depend on the settings, and leaves them. -/
theorem runScheduled_withSettings (driver : LayoutDriver) (settings : Settings) (host : H) :
    ((driver.withSettings settings).runScheduled host).driver =
        (driver.runScheduled host).driver.withSettings settings ∧
      ((driver.withSettings settings).runScheduled host).host = (driver.runScheduled host).host ∧
      (driver.runScheduled host).driver.settings = driver.settings := by
  obtain ⟨kept, sequencer, pending⟩ := driver
  cases pending with
  | false => exact ⟨rfl, rfl, rfl⟩
  | true =>
    cases sequencer with
    | none => exact ⟨rfl, rfl, rfl⟩
    | some s => exact ⟨rfl, rfl, rfl⟩

end LayoutDriver

namespace Scene

/-- The scene under other settings. -/
def withSettings (w : Scene H) (settings : Settings) : Scene H :=
  ⟨w.driver.withSettings settings, w.host⟩

/-- **Nothing left to notice**: all has been played, and no resumption is due. -/
def Deaf (w : Scene H) : Prop := w.Finished ∧ w.driver.resumePending = false

/-- Between calls, there is nothing left to notice once all has been played. -/
theorem Finished.deaf {w : Scene H} (h : w.Finished) (hrested : w.Rested) : w.Deaf := by
  refine ⟨h, Bool.eq_false_iff.2 fun hdue => ?_⟩
  obtain ⟨s, hs, hphase⟩ := hrested.due hdue
  rw [Sequencer.phase_of_isFinished (h s hs)] at hphase
  exact absurd hphase (by decide)

variable [SessionHost H]

/-- A routine event leaves a scene in which there is nothing left to notice. -/
theorem Deaf.handle_eq {w : Scene H} (h : w.Deaf) {e : HostEvent}
    (he : Happening.Routine (H := H) (.event e)) :
    (w.driver.handle e w.host).driver = w.driver ∧ (w.driver.handle e w.host).host = w.host := by
  cases hid : e.alive? with
  | some id =>
    refine LayoutDriver.handle_of_alive_of_observe hid ?_ w.host
    cases hs : w.driver.sequencer with
    | none => exact LayoutDriver.observe_of_vacant hs id
    | some s => rw [LayoutDriver.observe_of_finished hs (h.1 s hs)]
  | none =>
    cases e with
    | titleChanged id title => simp [HostEvent.alive?] at hid
    | activated id => simp [HostEvent.alive?] at hid
    | closed id =>
      have hnoise : w.Noise (.event (.closed id)) := .closed
      obtain ⟨hdriver, hhost, -⟩ := hnoise.handle_eq
      exact ⟨hdriver, hhost⟩
    | dataReceived id data =>
      obtain ⟨hdriver, hhost, -⟩ :=
        w.driver.handle_output_of_no_request id (fun request => he id data request rfl) w.host
      exact ⟨hdriver, hhost⟩

/-- A change of the settings puts the scene under them, if they are valid. -/
theorem after_configure (w : Scene H) (k : Settings) : w.after (.configure k) =
    w.withSettings (if k.validate = .ok () then k else w.driver.settings) := by
  rw [after, LayoutDriver.setSettings_eq]
  by_cases hvalid : k.validate = .ok ()
  · rw [if_pos hvalid, if_pos hvalid]
    rfl
  · rw [if_neg hvalid, if_neg hvalid]
    rfl

/-- **The announcement of a session that is new** to a sequencer that has not finished is passed by
exactly if the driver is switched off. -/
theorem sequencer_after_activated_iff {w : Scene H} {s : Sequencer} {id : SessionId}
    (hs : w.driver.sequencer = some s) (hfin : s.isFinished = false) (hnew : s.knows id = false) :
    (w.after (.event (.activated id))).driver.sequencer = some s ↔
      w.driver.settings.enabled = false := by
  cases hon : w.driver.settings.enabled with
  | false => simp [after, LayoutDriver.handle, hon, hs]
  | true =>
    obtain ⟨hdriver, -⟩ := LayoutDriver.handle_of_alive (H := H) hon (e := .activated id) rfl w.host
    have hlonger : { s with known := id :: s.known } ≠ s := by
      intro heq
      have hlength := congrArg (fun s => s.known.length) heq
      simp at hlength
    simp [after, hdriver, LayoutDriver.observe_of_new hs hfin hnew, hlonger]

/-- **Unnoticeable.** The settings switch the driver neither on nor off, or there is nothing left to
notice. -/
def Unnoticeable (w : Scene H) (settings : Settings) : Prop :=
  settings.enabled = w.driver.settings.enabled ∨ w.Deaf

/-- **A routine happening under other settings** that cannot be noticed: they are carried along, and
cannot be noticed afterwards either. -/
theorem after_withSettings {w : Scene H} {settings : Settings} (h : w.Unnoticeable settings)
    {a : Happening H} (ha : a.Routine) :
    (w.withSettings settings).after a = (w.after a).withSettings settings ∧
      (w.after a).driver.settings = w.driver.settings ∧ (w.Deaf → (w.after a).Deaf) := by
  cases a with
  | start request => exact ha.elim
  | configure kept => exact ha.elim
  | detach => exact ha.elim
  | host next => exact ⟨rfl, rfl, id⟩
  | turn =>
    obtain ⟨hdriver, hhost, hkept⟩ := w.driver.runScheduled_withSettings settings w.host
    refine ⟨?_, hkept, fun hdeaf => ?_⟩
    · simp only [after, withSettings]
      rw [hdriver, hhost]
    · rw [after, LayoutDriver.runScheduled_of_not_due hdeaf.2]
      exact hdeaf
  | event e =>
    have deaf : w.Deaf → w.after (.event e) = w := by
      intro hdeaf
      obtain ⟨hdriver, hhost⟩ := hdeaf.handle_eq ha
      rw [after, hdriver, hhost]
    rcases h with hon | hdeaf
    · obtain ⟨hdriver, hhost, hkept⟩ := LayoutDriver.handle_withSettings hon ha w.host
      refine ⟨?_, hkept, fun hdeaf => by rwa [deaf hdeaf]⟩
      simp only [after, withSettings]
      rw [hdriver, hhost]
    · have hdeaf' : (w.withSettings settings).Deaf := hdeaf
      obtain ⟨hdriver, hhost⟩ := hdeaf'.handle_eq ha
      rw [deaf hdeaf]
      refine ⟨?_, rfl, id⟩
      rw [after, hdriver, hhost]

end Scene

variable [SessionHost H] {kind : Settings → Prop} {as bs : List (Happening H)}

/-- **A run with changes that cannot be noticed** ends in the same scene, but for the settings. -/
theorem Reconfigured.afterAll_eq (h : Reconfigured kind as bs) {w : Scene H} {current : Settings}
    (hcurrent : w.Unnoticeable current)
    (hkind : ∀ k, kind k → k.validate = .ok () → w.Unnoticeable k) :
    ∃ last, (w.withSettings current).afterAll bs = (w.afterAll as).withSettings last := by
  induction h generalizing w current with
  | nil => exact ⟨current, rfl⟩
  | @keep a as bs ha _ ih =>
    obtain ⟨hafter, hkept, hdeaf⟩ := Scene.after_withSettings hcurrent ha
    have still : ∀ {k : Settings}, w.Unnoticeable k → (w.after a).Unnoticeable k := by
      intro k hk
      rw [Scene.Unnoticeable, hkept]
      exact hk.imp_right hdeaf
    obtain ⟨last, hlast⟩ := ih (still hcurrent) fun k hk hvalid => still (hkind k hk hvalid)
    refine ⟨last, ?_⟩
    rw [Scene.afterAll, List.foldl_cons, hafter]
    exact hlast
  | @change k as bs hk _ ih =>
    have hafter : (w.withSettings current).after (.configure k) =
        w.withSettings (if k.validate = .ok () then k else current) := Scene.after_configure _ k
    have hnext : w.Unnoticeable (if k.validate = .ok () then k else current) := by
      by_cases hvalid : k.validate = .ok ()
      · rw [if_pos hvalid]
        exact hkind k hk hvalid
      · rw [if_neg hvalid]
        exact hcurrent
    obtain ⟨last, hlast⟩ := ih hnext hkind
    refine ⟨last, ?_⟩
    rw [Scene.afterAll, List.foldl_cons, hafter]
    exact hlast

/-- **Changes of the settings that go unnoticed.** Take a driver with a live sequencer, reached in
any way. On all runs of events without a request, turns and doings of the host, changes to settings
of some kind, put in at any points, leave the host with all calls made to it and the live sequencer
as they would have been, exactly if the layout is through or if none of these settings, as far as
they are valid, switches the driver on or off. The default entry mode and the way commands are typed
do not matter.

**Proof sketch.** Under settings that leave the driver as enabled as it was, and under all settings
if nothing is left to play, every routine happening does the same (`Scene.after_withSettings`).
Conversely, a sequencer that has not finished waits; if a session that is new to it is announced, it
hears of it on one of the two runs only. -/
theorem settings_unnoticed_iff {first : Settings} {host : H} {w : Scene H} {s : Sequencer}
    (hrun : Scene.Reaches (fun _ _ => True) ⟨.new first, host⟩ w) (hs : w.driver.sequencer = some s)
    (kind : Settings → Prop) :
    (∀ as bs, Reconfigured kind as bs → (w.afterAll bs).host = (w.afterAll as).host ∧
        (w.afterAll bs).driver.sequencer = (w.afterAll as).driver.sequencer) ↔
      s.isFinished = true ∨
        ∀ k, kind k → k.validate = .ok () → k.enabled = w.driver.settings.enabled := by
  have hrested : w.Rested := hrun.invariant (Scene.rested_new first host) fun h _ => h.after _
  constructor
  · intro hall
    by_contra hnoticed
    obtain ⟨hfin, k, hk, hvalid, hswitch⟩ : s.isFinished = false ∧ ∃ k, kind k ∧
        k.validate = .ok () ∧ k.enabled ≠ w.driver.settings.enabled := by
      simpa using hnoticed
    -- a session is announced that is new to the sequencer, once with and once without the change
    obtain ⟨id, hid⟩ := exists_fresh s.known
    have hnew : s.knows id = false := by simpa [Sequencer.knows] using hid
    have hpair := (hall _ _ (.change hk (.keep (Happening.routine_activated id) .nil))).2
    simp only [Scene.afterAll, List.foldl_cons, List.foldl_nil, Scene.after_configure,
      if_pos hvalid] at hpair
    have hthere := Scene.sequencer_after_activated_iff hs hfin hnew
    have hhere := Scene.sequencer_after_activated_iff (w := w.withSettings k) hs hfin hnew
    rw [hpair, hthere] at hhere
    have honoff : k.enabled = false ↔ w.driver.settings.enabled = false := hhere.symm
    exact hswitch (by simpa using not_congr honoff)
  · intro hcond as bs hbs
    have hkind : ∀ k, kind k → k.validate = .ok () → w.Unnoticeable k := by
      intro k hk hvalid
      rcases hcond with hfin | hsame
      · have hthrough : w.Finished := fun s' hs' => Option.some.inj (hs.symm.trans hs') ▸ hfin
        exact .inr (hthrough.deaf hrested)
      · exact .inl (hsame k hk hvalid)
    have hstart : w.Unnoticeable w.driver.settings := .inl rfl
    obtain ⟨last, hlast⟩ := hbs.afterAll_eq hstart hkind
    have hown : w.withSettings w.driver.settings = w := rfl
    rw [hown] at hlast
    rw [hlast]
    exact ⟨rfl, rfl⟩

/-- The scene in which three tabs have been started, on a host with one session. -/
def tabsStarted : Scene QueuedHost :=
  Scene.after ⟨.new .standard, .new (some ⟨"s0"⟩) false⟩ (.start threeTabs)

/-- The host creates the session of the second tab, the driver is told of it and given a turn. -/
def secondTab : List (Happening QueuedHost) :=
  [.host (tabsStarted.host.complete none).2, .event (.activated ⟨"s1"⟩), .turn]

/-- While three tabs are opened, the default entry mode is changed, invalid settings are refused,
and commands are to be typed with a space from now on: the second tab goes as it would have gone. -/
theorem settings_unnoticed_in_tabs :
    let bs : List (Happening QueuedHost) := [.configure ⟨true, "window", false⟩,
      .host (tabsStarted.host.complete none).2, .configure ⟨false, "sideways", false⟩,
      .event (.activated ⟨"s1"⟩), .configure ⟨true, "pane", true⟩, .turn]
    Scene.Reaches (fun _ _ => True) ⟨.new .standard, .new (some ⟨"s0"⟩) false⟩ tabsStarted ∧
      Reconfigured (fun k => k.validate = .ok () → k.enabled = true) secondTab bs ∧
      (tabsStarted.afterAll bs).host = (tabsStarted.afterAll secondTab).host ∧
      (tabsStarted.afterAll bs).driver.sequencer =
        (tabsStarted.afterAll secondTab).driver.sequencer ∧
      (tabsStarted.afterAll bs).driver.settings = ⟨true, "pane", true⟩ ∧
      (tabsStarted.afterAll secondTab).host.calls.length = 5 := by
  intro bs
  have hrun : Scene.Reaches (fun _ _ => True) ⟨.new .standard, .new (some ⟨"s0"⟩) false⟩
      tabsStarted := .step .refl trivial
  have hevent := Happening.routine_activated (H := QueuedHost) ⟨"s1"⟩
  have hchanges : Reconfigured (fun k => k.validate = .ok () → k.enabled = true) secondTab bs :=
    .change (by decide) (.keep trivial (.change (by decide) (.keep hevent
      (.change (by decide) (.keep trivial .nil)))))
  obtain ⟨s, hs⟩ : ∃ s, tabsStarted.driver.sequencer = some s :=
    Option.isSome_iff_exists.1 (by decide)
  have hsame := (settings_unnoticed_iff hrun hs fun k => k.validate = .ok () → k.enabled = true).2
    (.inr fun k hk hvalid => hk hvalid)
  obtain ⟨hhost, hsequencer⟩ := hsame _ _ hchanges
  exact ⟨hrun, hchanges, hhost, hsequencer, by decide, by decide⟩

/-- The driver is switched off while it waits for the session of the second tab. It does not hear of
that session, so the turn after it plays nothing: the command of the second tab is never typed, and
the third tab is never asked for. -/
theorem switching_off_is_noticed :
    let bs : List (Happening QueuedHost) := .configure ⟨false, "tab", false⟩ :: secondTab
    Scene.Reaches (fun _ _ => True) ⟨.new .standard, .new (some ⟨"s0"⟩) false⟩ tabsStarted ∧
      (∃ s, tabsStarted.driver.sequencer = some s) ∧ Reconfigured (fun _ => True) secondTab bs ∧
      (tabsStarted.afterAll secondTab).host.calls.length = 5 ∧
      (tabsStarted.afterAll bs).host.calls.length = 3 ∧
      (tabsStarted.afterAll bs).driver.sequencer = tabsStarted.driver.sequencer ∧
      ¬ ((tabsStarted.afterAll bs).host = (tabsStarted.afterAll secondTab).host ∧
        (tabsStarted.afterAll bs).driver.sequencer =
          (tabsStarted.afterAll secondTab).driver.sequencer) := by
  intro bs
  have hevent := Happening.routine_activated (H := QueuedHost) ⟨"s1"⟩
  have hchanges : Reconfigured (fun _ => True) secondTab bs :=
    .change trivial (.keep trivial (.keep hevent (.keep trivial .nil)))
  have hfive : (tabsStarted.afterAll secondTab).host.calls.length = 5 := by decide
  have hthree : (tabsStarted.afterAll bs).host.calls.length = 3 := by decide
  refine ⟨.step .refl trivial, Option.isSome_iff_exists.1 (by decide), hchanges, hfive, hthree,
    by decide, fun hsame => ?_⟩
  rw [hsame.1, hfive] at hthree
  exact absurd hthree (by decide)

end PaneLayout
