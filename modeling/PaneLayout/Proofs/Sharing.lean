import PaneLayout.Proofs.Completion
import PaneLayout.Proofs.Playback
import PaneLayout.Proofs.Tree.OneWay

set_option autoImplicit false

/-!
# Panes that share a session

No pane but pane `0` is ever bound to a session that is not its own. Pane `0` is, in one case: if no
session has the focus when the layout is started, it stays unbound, and a jump to it does not move
the focus. If the queue comes back to it after a split, then the next instruction binds it to
whatever session has the focus, and that session shows another pane.

## Main definitions

* `PaneLayout.Sequencer.Homed` — pane `0` is unbound exactly as long as the queue has gone one way.
* `PaneLayout.Scene.Unshared` — no two panes are bound to one session.

## Main results

* `PaneLayout.Seated.session?_enter_eq_none_iff` — what one instruction does to pane `0`.
* `PaneLayout.Scene.Reaches.homed` — pane `0` on every run without strangers.
* `PaneLayout.unshared_iff_home_seated` — no two panes share a session, on any run, exactly if the
  layout is started in a session or does not come back to pane `0`.
-/

namespace PaneLayout

open LoggedHost AnsweringHost CooperativeHost

section

variable {H : Type} [CooperativeHost H] {start host : H} {plan : Plan}
  {done rest : List Instruction} {s : Sequencer} {i : Instruction}

/-! ### Pane `0`, without a session to start in -/

/-- Before the first split, no session has the focus, if none had it at the start. -/
theorem Focused.active_eq_none {current : Nat} {panes : Registry} {queue : List Instruction}
    (h : Focused start plan current host) (hnone : SessionHost.active start = none)
    (hseated : Seated start plan done panes current queue host)
    (hsplits : ∀ i ∈ done, i.isSplit = false) : SessionHost.active host = none := by
  rcases h with ⟨id, -, hseat⟩ | ⟨-, hactive, -⟩
  · rcases hseat.cases with ⟨-, hfirst⟩ | hown
    · rw [hnone] at hfirst
      exact absurd hfirst (by simp)
    · have hle := own_le hseated.since.created_le start
      rw [← hseated.count, (splitPanes_eq_nil_iff done).2 hsplits] at hle
      rw [List.length_eq_zero_iff.1 (Nat.le_zero.1 hle)] at hown
      exact absurd hown List.not_mem_nil
  · exact hactive

/-- Jumps and commands do not take the focus away. -/
theorem Seated.active_hostAfter_ne_none (hplan : plan.Playable)
    (hactive : ∀ id, SessionHost.active start = some id → id ∈ sessions start)
    (h : Seated start plan done s.panes s.lastPane (i :: rest) host)
    (hfocus : Focused start plan s.lastPane host) (hi : i.isSplit = false)
    (hsome : SessionHost.active host ≠ none) :
    SessionHost.active (s.hostAfter i rest host) ≠ none := by
  obtain ⟨-, hbound, -⟩ := h.enter hplan hfocus
  rw [Sequencer.hostAfter]
  cases i with
  | split m p => simp [Instruction.isSplit] at hi
  | cmd p =>
    rw [Sequencer.call?]
    split
    · rwa [HostCall.applyAll?, HostCall.apply, active_send]
    · rwa [HostCall.applyAll?, active_idle]
  | jump p =>
    rw [Sequencer.call?]
    cases hsession : (s.enter (.jump p) rest (SessionHost.active host)).panes.session? p with
    | none => rwa [Option.map_none, HostCall.applyAll?, active_idle]
    | some id =>
      have hthere := (hbound p id hsession).mem_sessions hactive h.since.grows
      rw [Option.map_some, HostCall.applyAll?, HostCall.apply, active_focus host id hthere]
      simp

/-- **What one instruction does to pane `0`.** It binds pane `0` if the instruction before was about
pane `0` and a session has the focus, which is so after a split. -/
theorem Seated.session?_enter_eq_none_iff (hplan : plan.Playable)
    (hnone : SessionHost.active start = none)
    (h : Seated start plan done s.panes s.lastPane (i :: rest) host)
    (hfocus : Focused start plan s.lastPane host)
    (hawake : SessionHost.active host = none → ∀ i ∈ done, i.isSplit = false)
    (hvacant : s.panes.session? 0 = none ↔ OneWay done.dropLast) :
    (s.enter i rest (SessionHost.active host)).panes.session? 0 = none ↔ OneWay done := by
  rcases List.eq_nil_or_concat done with rfl | ⟨before, j, rfl⟩
  · rw [hfocus.active_eq_none hnone h (by simp)]
    exact hvacant
  · rw [List.concat_eq_append] at h hawake hvacant ⊢
    rw [List.dropLast_concat] at hvacant
    rw [oneWay_append_singleton]
    obtain ⟨a, ha⟩ := h.place
    have hlast : s.lastPane = j.pane := Stage.current_playAll?_append_singleton ha
    cases hactive : SessionHost.active host with
    | none =>
      have hsplits := hawake hactive
      refine hvacant.trans ⟨fun honeWay => ⟨honeWay, fun _ k hk => ?_⟩, And.left⟩
      exact hsplits k (List.mem_append_left _ hk)
    | some id =>
      change (s.panes.bind s.lastPane id).session? 0 = none ↔ _
      by_cases hzero : j.pane = 0
      · obtain ⟨x, hx⟩ := h.exists_session?_bind_lastPane hplan id
        rw [hlast, hzero] at hx
        rw [hlast, hzero, hx]
        refine iff_of_false (by simp) ?_
        -- Without a split so far, no session would have the focus.
        rintro ⟨-, hsplits⟩
        have hj : j.isSplit = false :=
          hplan.isSplit_of_pane_eq_zero (by rw [h.queue_eq]; simp) hzero
        have hasleep := hfocus.active_eq_none hnone h
          (List.forall_mem_append.2 ⟨hsplits rfl, List.forall_mem_singleton.2 hj⟩)
        rw [hactive] at hasleep
        exact absurd hasleep (by simp)
      · rw [hlast, Registry.session?_bind_of_ne hzero, hvacant]
        exact ⟨fun honeWay => ⟨honeWay, fun h => absurd h hzero⟩, And.left⟩

/-- **Pane `0` is as it should be.** It is unbound exactly as long as the queue has gone one way.
The last instruction does not count, since only the one after it binds its pane. -/
def Sequencer.Homed (plan : Plan) (s : Sequencer) : Prop :=
  ∃ done, plan.queue = done ++ s.queue ∧ (s.panes.session? 0 = none ↔ OneWay done.dropLast)

/-- **A play leaves pane `0` as it should be.** -/
theorem Sequencer.Homed.run (hplan : plan.Playable) (hnone : SessionHost.active start = none)
    (hseated : Seated start plan done s.panes s.lastPane s.queue host)
    (hfocus : Focused start plan s.lastPane host)
    (hawake : SessionHost.active host = none → ∀ i ∈ done, i.isSplit = false)
    (hhome : s.panes.session? 0 = none ↔ OneWay done.dropLast) :
    (s.run host).sequencer.Homed plan := by
  have hactive : ∀ id, SessionHost.active start = some id → id ∈ sessions start := by simp [hnone]
  refine Sequencer.run_induct
    (P := fun s queue host => ∃ done, Seated start plan done s.panes s.lastPane queue host ∧
      Focused start plan s.lastPane host ∧
      (SessionHost.active host = none → ∀ i ∈ done, i.isSplit = false) ∧
      (s.panes.session? 0 = none ↔ OneWay done.dropLast))
    (Q := fun s _ => s.Homed plan) ?_ ?_ ?_ ⟨done, hseated, hfocus, hawake, hhome⟩
  · rintro s host ⟨done, h, -, -, hhome⟩
    exact ⟨done, h.queue_eq, hhome⟩
  · rintro s m p rest host ⟨done, h, hfocus, hawake, hhome⟩
    refine ⟨done ++ [.split m p], (h.step hplan hfocus).queue_eq, ?_⟩
    rw [List.dropLast_concat]
    exact h.session?_enter_eq_none_iff hplan hnone hfocus hawake hhome
  · rintro s i rest host hi ⟨done, h, hfocus, hawake, hhome⟩
    refine ⟨done ++ [i], h.step hplan hfocus, h.focused hplan hactive hfocus hi, ?_, ?_⟩
    · intro hasleep k hk
      rcases List.mem_append.1 hk with hk | hk
      · refine hawake (not_not.1 fun hsome => ?_) k hk
        exact h.active_hostAfter_ne_none hplan hactive hfocus hi hsome hasleep
      · exact List.mem_singleton.1 hk ▸ hi
    · rw [List.dropLast_concat]
      exact h.session?_enter_eq_none_iff hplan hnone hfocus hawake hhome

/-- A launch leaves pane `0` as it should be. -/
theorem Sequencer.Homed.launched (hplan : plan.Playable) (w : Scene H)
    (hnone : SessionHost.active w.host = none)
    (hle : (created w.host).length ≤ (requests w.host).length) (request : LayoutRequest) :
    ∀ s, (w.launched request plan).driver.sequencer = some s → s.Homed plan := by
  rintro _ ⟨⟩
  exact Homed.run hplan hnone (Seated.initial hplan hle) Seated.focused_initial (by simp)
    (iff_of_true (hplan.unbound 0) .nil)

/-- **Pane `0` stays as it should be** as long as no stranger is heard of. -/
theorem Sequencer.Homed.after (hplan : plan.Playable) (hnone : SessionHost.active start = none)
    {cwd : String} {w : Scene H} {a : Happening H} (hacc : Accounted start cwd w)
    (hplace : ∀ s, w.driver.sequencer = some s → InPlace start plan w.host s)
    (h : ∀ s, w.driver.sequencer = some s → s.Homed plan)
    (ha : w.Undisturbed Serves (Scene.Audible start) a) :
    ∀ s, (w.after a).driver.sequencer = some s → s.Homed plan := by
  refine ha.keeps (R := fun _ s => s.Homed plan) (fun s id hs => hs) ?_ (fun _ _ _ hs => hs) h
  rintro s hs hdue hphase ⟨done', hqueue, hhome⟩
  obtain ⟨done, hseated, hwaits⟩ := hplace s hs
  obtain ⟨hlast, hfront⟩ := hwaits hphase
  obtain ⟨s', -, -, hmet⟩ := hacc.due hdue
  obtain rfl : done = done' := List.append_cancel_right (hseated.queue_eq.symm.trans hqueue)
  have hfocus := hseated.focused_of_met hlast hfront hmet
  refine Homed.run hplan hnone hseated hfocus (fun hasleep => ?_) hhome
  rcases hfocus with ⟨id, hid, -⟩ | ⟨-, -, hzero⟩
  · rw [hid] at hasleep
    exact absurd hasleep (by simp)
  · have hmem : 0 ∈ splitPanes plan.queue := by
      rw [hseated.queue_eq, splitPanes_append, ← hzero]
      exact List.mem_append_left _ (List.mem_of_getLast? hlast)
    exact absurd hmem (List.nodup_cons.1 hplan.nodup_panes).1

/-- **On every run without strangers,** pane `0` is as it should be. -/
theorem Scene.Reaches.homed (w₀ : Scene H) (hplan : plan.Playable) {w : Scene H}
    {request : LayoutRequest}
    (hnone : SessionHost.active w₀.host = none)
    (hle : (created w₀.host).length ≤ (requests w₀.host).length)
    (hrun : Reaches (Undisturbed Serves (Audible w₀.host)) (w₀.launched request plan) w) :
    ∀ s, w.driver.sequencer = some s → s.Homed plan := by
  have hactive : ∀ id, SessionHost.active w₀.host = some id → id ∈ sessions w₀.host := by
    simp [hnone]
  induction hrun with
  | refl => exact Sequencer.Homed.launched hplan w₀ hnone hle request
  | step hrun ha ih =>
    obtain ⟨hacc, hplace⟩ := hrun.inPlace w₀ hplan hactive hle
    exact Sequencer.Homed.after hplan hnone hacc hplace ih ha

/-! ### Sharing -/

/-- A run on which no stranger is announced is a run without strangers. -/
theorem Scene.Reaches.audible_of_silence (w₀ : Scene H) {w : Scene H} {request : LayoutRequest}
    (hle : (created w₀.host).length ≤ (requests w₀.host).length)
    (hrun : Reaches (Undisturbed Serves (Notified w₀.host fun _ => False))
      (w₀.launched request plan) w) :
    Reaches (Undisturbed Serves (Audible w₀.host)) (w₀.launched request plan) w :=
  hrun.audible w₀ hle (fun _ _ hle h => h.answers hle) (.inr fun _ _ _ _ hheard => hheard.elim)

/-- **No two panes are bound to one session.** -/
def Scene.Unshared {H : Type} (w : Scene H) : Prop :=
  ∀ s, w.driver.sequencer = some s → ∀ p q id, s.panes.session? p = some id →
    s.panes.session? q = some id → p = q

/-- A sequencer in place shares no session, if pane `0` is unbound or the layout was started in a
session. -/
theorem InPlace.unshared (hplace : InPlace start plan host s)
    (hactive : ∀ id, SessionHost.active start = some id → id ∈ sessions start)
    (hle : (created start).length ≤ (requests start).length)
    (hzero : SessionHost.active start = none → s.panes.session? 0 = none) (p q : Nat)
    (id : SessionId) (hp : s.panes.session? p = some id) (hq : s.panes.session? q = some id) :
    p = q := by
  obtain ⟨done, hseated, -⟩ := hplace
  refine Seat.unique hseated.since hle hactive (fun hnone => ⟨?_, ?_⟩) (hseated.bound p id hp)
    (hseated.bound q id hq)
  · rintro rfl
    rw [hzero hnone] at hp
    exact absurd hp (by simp)
  · rintro rfl
    rw [hzero hnone] at hq
    exact absurd hq (by simp)

/-- **Pane `0` shares its session** at the end, if it is bound and the layout was not started in a
session: then it is bound to one of the layout's own, and so is the pane that this one was created
for. -/
theorem InPlace.exists_shared (hplan : plan.Playable)
    (hend : ∃ a, (⟨.leaf 0, 0⟩ : Stage).playAll? plan.queue = some ⟨a, 0⟩)
    (hplace : InPlace start plan host s) (hnone : SessionHost.active start = none)
    (hnil : s.queue = []) {id : SessionId} (hzero : s.panes.session? 0 = some id) :
    ∃ p, p ≠ 0 ∧ s.panes.session? p = some id := by
  obtain ⟨done, hseated, -⟩ := hplace
  obtain rfl : plan.queue = done := by rw [hseated.queue_eq, hnil, List.append_nil]
  obtain ⟨hnotzero, hnodup⟩ := List.nodup_cons.1 hplan.nodup_panes
  have hlast : s.lastPane = 0 := by
    obtain ⟨a, ha⟩ := hseated.place
    obtain ⟨b, hb⟩ := hend
    rw [ha, Option.some.injEq, Stage.mk.injEq] at hb
    exact hb.2
  have hown : id ∈ own start host := by
    rcases (hseated.bound 0 id hzero).cases with ⟨-, hfirst⟩ | hown
    · rw [hnone] at hfirst
      exact absurd hfirst (by simp)
    · exact hown
  obtain ⟨j, hj, hid⟩ := List.mem_iff_getElem.1 hown
  have hlt : j < (splitPanes plan.queue).length := by
    rw [hseated.count]
    exact hj.trans_le (own_le hseated.since.created_le start)
  have hmem : (splitPanes plan.queue)[j] ∈ splitPanes plan.queue := List.getElem_mem hlt
  have hne : (splitPanes plan.queue)[j] ≠ 0 := fun h => hnotzero (h ▸ hmem)
  refine ⟨_, hne, ?_⟩
  obtain ⟨x, hx⟩ | ⟨h, -⟩ := hseated.filled _ (.inr hmem) (hlast ▸ hne)
  · rcases hseated.bound _ x hx with ⟨h, -⟩ | ⟨k, hk, hkx⟩
    · exact absurd h hne
    · obtain rfl : j = k := (List.getElem?_inj hlt hnodup).1
        ((List.getElem?_eq_getElem hlt).trans hk.symm)
      rw [List.getElem?_eq_getElem hj, hid] at hkx
      exact hkx ▸ hx
  · exact absurd h hne

end

/-- **No two panes share a session, exactly if pane `0` keeps a session of its own or none.** Let a
layout be launched on a cooperative host without open requests, and let anything happen afterwards
short of another launch, in any order, as long as the driver is told of no session but those of the
layout and the one it was started in. Then no two panes are ever bound to one session, provided that
the layout was started in a session, or that it has no split, or that it does not open with a group
inside the outermost one. Without that, there is a host, and a run on it, where two panes are.

**Proof sketch.** A session may show one pane only, but for pane `0` when there was no session to
start in (`Seat.unique`). Then pane `0` is unbound exactly as long as the queue has gone one way
(`Scene.Reaches.homed`), and it goes one way up to its end exactly if the layout is as said
(`Plan.oneWay_queue_iff`). If it does not, play the layout to its end, with one session after the
other: pane `0` is bound to a session of some other pane. -/
theorem unshared_iff_home_seated {driver : LayoutDriver} {request : LayoutRequest} {plan : Plan}
    (hbuild : Plan.build request.config driver.settings.defaultEntry = .ok plan)
    (before : List SessionId) (active : Option SessionId)
    (hactive : ∀ id, active = some id → id ∈ before) :
    (∀ (H : Type) [CooperativeHost H] (host : H) (a : Happening H) (w : Scene H),
      sessions host = before → SessionHost.active host = active →
      (created host).length = (requests host).length →
      Scene.Launches ⟨driver, host⟩ request plan a →
      Scene.Reaches (Scene.Undisturbed Serves (Scene.Notified host fun _ => False))
        (Scene.after ⟨driver, host⟩ a) w → w.Unshared) ↔
    active ≠ none ∨ (∀ i ∈ plan.queue, i.isSplit = false) ∨
      ∀ inner rest, request.config.layout ≠ .group (.group inner :: rest) := by
  have hplan : plan.Playable := Plan.playable_of_build hbuild
  rw [← Plan.oneWay_queue_iff hbuild]
  constructor
  · intro hall
    by_contra hcon
    obtain ⟨hsome, htwoWay⟩ := not_or.1 hcon
    obtain rfl : active = none := not_not.1 hsome
    let host : RosterHost := ⟨none, before, [], []⟩
    have hlaunch : Scene.Launches ⟨driver, host⟩ request plan (.start request) := .start hbuild
    have hnone : ∀ id, SessionHost.active host = some id → id ∈ sessions host :=
      fun id hid => absurd hid (by simp [host, SessionHost.active])
    obtain ⟨w, s, hrun, hs, hfin⟩ := RosterHost.exists_finished_of_launched driver rfl rfl hnone
      request plan fun _ => False
    have hnil : s.queue = [] := Sequencer.queue_of_isFinished hfin
    have hunshared := hall RosterHost host _ w (List.append_nil _) rfl rfl hlaunch
      (hlaunch.after_eq ▸ hrun)
    have haudible := hrun.audible_of_silence ⟨driver, host⟩ (Nat.le_refl 0)
    obtain ⟨-, hplace⟩ := haudible.inPlace ⟨driver, host⟩ hplan hnone (Nat.le_refl 0)
    obtain ⟨done, hqueue, hhome⟩ := haudible.homed ⟨driver, host⟩ hplan rfl (Nat.le_refl 0) s hs
    rw [hnil, List.append_nil] at hqueue
    subst hqueue
    obtain ⟨id, hid⟩ := Option.ne_none_iff_exists'.1 (mt hhome.1 htwoWay)
    obtain ⟨a, hend, -⟩ := Plan.playAll?_queue hbuild
    obtain ⟨p, hne, hp⟩ := (hplace s hs).exists_shared hplan ⟨a, hend⟩ rfl hnil hid
    exact hne (hunshared s hs p 0 id hp hid)
  · intro hcond H _ host a w hbefore hhost hopen hlaunch hrun s hs
    rw [hlaunch.after_eq] at hrun
    have hthere : ∀ id, SessionHost.active host = some id → id ∈ sessions host :=
      fun id hid => hbefore ▸ hactive id (hhost ▸ hid)
    have haudible := hrun.audible_of_silence ⟨driver, host⟩ hopen.le
    obtain ⟨-, hplace⟩ := haudible.inPlace ⟨driver, host⟩ hplan hthere hopen.le
    refine (hplace s hs).unshared hthere hopen.le fun hnone => ?_
    obtain ⟨done, hqueue, hhome⟩ := haudible.homed ⟨driver, host⟩ hplan hnone hopen.le s hs
    have honeWay := hcond.resolve_left (not_not.2 (hhost.symm.trans hnone))
    exact hhome.2 (OneWay.dropLast_left (hqueue ▸ honeWay))

/-- On every host where a session has the focus, the nested tabs get a session for each pane. -/
theorem unshared_nestedTabs_in_session :
    (Plan.build nestedTabs.config Settings.standard.defaultEntry = .ok nestedTabsPlan ∧
        ∀ id, some (⟨"s0"⟩ : SessionId) = some id → id ∈ [(⟨"s0"⟩ : SessionId)]) ∧
      ∀ (H : Type) [CooperativeHost H] (host : H) (a : Happening H) (w : Scene H),
        sessions host = [⟨"s0"⟩] → SessionHost.active host = some ⟨"s0"⟩ →
        (created host).length = (requests host).length →
        Scene.Launches ⟨.new .standard, host⟩ nestedTabs nestedTabsPlan a →
        Scene.Reaches (Scene.Undisturbed Serves (Scene.Notified host fun _ => False))
          (Scene.after ⟨.new .standard, host⟩ a) w → w.Unshared := by
  let driver : LayoutDriver := .new .standard
  have hbuild : Plan.build nestedTabs.config driver.settings.defaultEntry = .ok nestedTabsPlan :=
    build_nestedTabs
  have hactive : ∀ id, some (⟨"s0"⟩ : SessionId) = some id → id ∈ [(⟨"s0"⟩ : SessionId)] := by
    simp
  refine ⟨⟨hbuild, hactive⟩,
    (unshared_iff_home_seated hbuild [⟨"s0"⟩] (some ⟨"s0"⟩) hactive).2 (.inl ?_)⟩
  simp

/-- Without a session in focus, the nested tabs bind panes `0` and `2` to the session that was
created for pane `2`, as soon as they are played on. -/
theorem nestedTabs_share_session :
    let start : RosterHost := ⟨none, [], [], []⟩
    let w₁ := Scene.after ⟨.new .standard, start⟩ (.start nestedTabs)
    let w := ((w₁.after (.host (w₁.host.create ⟨"s1"⟩))).after (.event (.activated ⟨"s1"⟩))).after
      .turn
    Scene.Launches ⟨.new .standard, start⟩ nestedTabs nestedTabsPlan (.start nestedTabs) ∧
      Scene.Reaches (Scene.Undisturbed Serves (Scene.Notified start fun _ => False)) w₁ w ∧
      (w.driver.sequencer.map fun s => [s.panes.session? 0, s.panes.session? 2]) =
        some [some ⟨"s1"⟩, some ⟨"s1"⟩] ∧ ¬ w.Unshared := by
  intro start w₁ w
  have hbound : (w.driver.sequencer.map fun s => [s.panes.session? 0, s.panes.session? 2]) =
      some [some ⟨"s1"⟩, some ⟨"s1"⟩] := by decide
  refine ⟨.start build_nestedTabs, .step (.step (.step .refl ?_) ?_) ?_, hbound, fun h => ?_⟩
  · exact Scene.undisturbed_host (RosterHost.serves_create (by decide) (by decide))
  · exact Scene.undisturbed_event rfl ⟨by decide, .inl (by decide)⟩
  · exact Scene.undisturbed_turn
  · obtain ⟨s, hs, hsessions⟩ := Option.map_eq_some_iff.1 hbound
    simp only [List.cons.injEq, and_true] at hsessions
    exact absurd (h s hs 0 2 _ hsessions.1 hsessions.2) (by decide)

end PaneLayout
