import PaneLayout.Proofs.Seating

set_option autoImplicit false

/-!
# One layout after another

A layout may be started while a request of the layout before it is still open. The host answers
that request all the same, and the session it creates belongs to neither layout. Nothing in an event
tells it from the session that the new sequencer waits for. This file says when the new layout stays
clear of it: as long as the driver is not told of it, and no longer.

## Main definitions

* `PaneLayout.AnsweringHost.late` — the sessions that answer requests of an earlier layout.
* `PaneLayout.Scene.Contained` — nothing of an earlier layout has got into the live one.

## Main results

* `PaneLayout.contained_iff_no_strangers` — the layout is contained on all runs exactly if it has no
  split or if events come through for no session but its own and the one it was started in.
-/

namespace PaneLayout

open LoggedHost AnsweringHost CooperativeHost

/-- **Late sessions**: created since the start, in answer to requests made before it. -/
def AnsweringHost.late {H : Type} [AnsweringHost H] (start host : H) : List SessionId :=
  ((created host).drop (created start).length).take
    ((requests start).length - (created start).length)

variable {H : Type}

/-- The sessions created since the start are the late ones and the layout's own. -/
theorem AnsweringHost.late_append_own [AnsweringHost H] {start : H}
    (hle : (created start).length ≤ (requests start).length) (host : H) :
    late start host ++ own start host = (created host).drop (created start).length := by
  have hown : own start host = ((created host).drop (created start).length).drop
      ((requests start).length - (created start).length) := by
    rw [own, List.drop_drop, Nat.add_sub_cancel' hle]
  rw [late, hown, List.take_append_drop]

/-- **Containment.** The sequencer is due to play on only after it has heard of the session that
answers its own last request. It has heard of no late session, and no pane shows one. What a pane
other than pane `0` shows was created in answer to one of the layout's own requests, and therefore
in its directory. -/
structure Scene.Contained [AnsweringHost H] (start : H) (cwd : String) (w : Scene H) : Prop where
  resumes : w.Resumes → ∃ s id, w.driver.sequencer = some s ∧ id ∈ s.known ∧
    (own start w.host).length = (issued start w.host).length ∧
    (own start w.host).getLast? = some id
  unheard : ∀ s, w.driver.sequencer = some s → ∀ id ∈ late start w.host, id ∉ s.known
  unbound : ∀ s, w.driver.sequencer = some s → ∀ id ∈ late start w.host, ∀ p,
    s.panes.session? p ≠ some id
  bound : ∀ s, w.driver.sequencer = some s → ∀ p id, p ≠ 0 → s.panes.session? p = some id →
    ∃ j : Nat, ∃ r, (own start w.host)[j]? = some id ∧ (issued start w.host)[j]? = some r ∧
      r.cwd = cwd

section

variable [CooperativeHost H] {start : H} {plan : Plan} {cwd : String} {w : Scene H}

/-- Late sessions are not among the layout's own, nor were they there before. -/
theorem CooperativeHost.Since.notMem_of_late {host : H} (h : Since start host)
    (hle : (created start).length ≤ (requests start).length) {id : SessionId}
    (hid : id ∈ late start host) : id ∉ sessions start ∧ id ∉ own start host := by
  have hall := late_append_own hle host
  refine ⟨h.fresh id (hall ▸ List.mem_append_left _ hid), fun hown => ?_⟩
  have hnodup := h.nodup
  rw [← hall, List.nodup_append] at hnodup
  exact hnodup.2.2 id hid id hown rfl

/-- **Accounts and seats contain a layout.** A late session is none that the sequencer may have
heard of, and none that has a seat. -/
theorem Scene.contained_of_inPlace
    (hactive : ∀ id, SessionHost.active start = some id → id ∈ sessions start)
    (hle : (created start).length ≤ (requests start).length) (hacc : Accounted start cwd w)
    (hplace : ∀ s, w.driver.sequencer = some s → InPlace start plan w.host s) :
    w.Contained start cwd := by
  constructor
  case resumes =>
    intro hresumes
    obtain ⟨s, hs, hdue, hphase⟩ := hresumes.exists_sequencer
    obtain ⟨s', hs', -, hmet⟩ := hacc.due hdue
    obtain rfl : s = s' := Option.some.inj (hs.symm.trans hs')
    obtain ⟨done, hseated, hwaits⟩ := hplace s hs
    have hlen := le_antisymm (own_le hseated.since.created_le start) hmet.le_length
    obtain ⟨n, hn⟩ : ∃ n, (issued start w.host).length = n + 1 := by
      refine Nat.exists_eq_add_one_of_ne_zero fun hzero => ?_
      have hnil := List.length_eq_zero_iff.1 (hseated.count.trans hzero)
      have hlast := (hwaits hphase).1
      rw [hnil] at hlast
      exact absurd hlast (by simp)
    obtain ⟨id, hknown, hid⟩ := hmet n (by omega)
    refine ⟨s, id, hs, hknown, hlen, ?_⟩
    rw [List.getLast?_eq_getElem?, hlen, hn, Nat.add_sub_cancel, hid]
  case unheard =>
    intro s hs id hid hknown
    obtain ⟨done, hseated, -⟩ := hplace s hs
    obtain ⟨hold, hown⟩ := hseated.since.notMem_of_late hle hid
    exact ((hacc.attentive s hs).known id hknown).elim (fun h => hold (hactive id h)) hown
  case unbound =>
    intro s hs id hid p hp
    obtain ⟨done, hseated, -⟩ := hplace s hs
    obtain ⟨hold, hown⟩ := hseated.since.notMem_of_late hle hid
    exact (hseated.bound p id hp).cases.elim (fun h => hold (hactive id h.2)) hown
  case bound =>
    intro s hs p id hp hid
    obtain ⟨done, hseated, -⟩ := hplace s hs
    rcases hseated.bound p id hid with ⟨hzero, -⟩ | ⟨j, -, hj⟩
    · exact absurd hzero hp
    · have hlt : j < (issued start w.host).length :=
        (List.getElem?_eq_some_iff.1 hj).1.trans_le (own_le hseated.since.created_le start)
      exact ⟨j, (issued start w.host)[j], hj, List.getElem?_eq_getElem hlt,
        hacc.cwd_eq _ (List.getElem_mem hlt)⟩

/-- **Runs without strangers keep the layout contained.** -/
theorem Scene.Reaches.contained {w₀ : Scene H} {request : LayoutRequest} (hplan : plan.Playable)
    (hactive : ∀ id, SessionHost.active w₀.host = some id → id ∈ sessions w₀.host)
    (hle : (created w₀.host).length ≤ (requests w₀.host).length)
    (hrun : Reaches (Undisturbed Serves (Audible w₀.host)) (w₀.launched request plan) w) :
    w.Contained w₀.host request.cwd := by
  obtain ⟨hacc, hplace⟩ := hrun.inPlace w₀ hplan hactive hle
  exact contained_of_inPlace hactive hle hacc hplace

end

/-- While an earlier request is open, a session of any name is there or can be created, and it is
none of the layout's own. -/
theorem RosterHost.exists_stranger (driver : LayoutDriver) (host : RosterHost)
    (hcreated : host.created = []) (hopen : 0 < (requests host).length) (request : LayoutRequest)
    (plan : Plan) (heard : SessionId → Prop) (id : SessionId) :
    ∃ w, Scene.Reaches (Scene.Undisturbed Serves (Scene.Notified host heard))
        (Scene.launched ⟨driver, host⟩ request plan) w ∧
      w.driver = (Scene.launched ⟨driver, host⟩ request plan).driver ∧
      issued host w.host = issued host (Scene.launched ⟨driver, host⟩ request plan).host ∧
      own host w.host = [] ∧ id ∈ sessions w.host := by
  set w₁ := Scene.launched ⟨driver, host⟩ request plan with hw₁
  have hnone : AnsweringHost.created w₁.host = [] :=
    (RosterHost.created_run _ host).trans hcreated
  have hgrows : Grows host w₁.host := (Sequencer.run_answering _ host).2.1
  by_cases hid : id ∈ sessions w₁.host
  · exact ⟨w₁, .refl, rfl, rfl, by rw [own, hnone, List.drop_nil], hid⟩
  · have hserves : Serves w₁.host (w₁.host.create id) := by
      refine serves_create ?_ hid
      rw [hnone]
      exact hopen.trans_le hgrows.requests.length_le
    have hall : AnsweringHost.created (w₁.host.create id) = AnsweringHost.created w₁.host ++ [id] :=
      rfl
    refine ⟨_, Scene.Reaches.refl.step (Scene.undisturbed_host hserves), rfl, rfl, ?_, ?_⟩
    · rw [Scene.after, own, hall, hnone]
      exact List.drop_eq_nil_of_le hopen
    · exact List.mem_append_right _ (List.mem_append_right _ (List.mem_singleton_self id))

/-- **A layout is contained, exactly if there are no strangers.** Let a layout be launched, in place
of whatever was played before, on a host that still has an earlier request to answer. Then, whatever
happens short of another launch, and in whatever order, nothing of the earlier layout gets into the
new one; provided that the new layout has no split, or that, of the sessions that are not its own,
the driver is told of none but the one that had the focus. Without that, there is a host, and a run
on it, where the late session lets the new layout be played on.

**Proof sketch.** Runs without strangers are `Scene.Reaches.contained`. Conversely, let the host
answer the earlier request by a session of the name that comes through, if there is none yet, and
announce it while the first request of the new layout is open. -/
theorem contained_iff_no_strangers {driver : LayoutDriver} {request : LayoutRequest} {plan : Plan}
    (hbuild : Plan.build request.config driver.settings.defaultEntry = .ok plan)
    (before : List SessionId) (active : Option SessionId)
    (hactive : ∀ id, active = some id → id ∈ before) (heard : SessionId → Prop) :
    (∀ (H : Type) [CooperativeHost H] (host : H) (a : Happening H) (w : Scene H),
      sessions host = before → SessionHost.active host = active →
      (created host).length < (requests host).length →
      Scene.Launches ⟨driver, host⟩ request plan a →
      Scene.Reaches (Scene.Undisturbed Serves (Scene.Notified host heard))
        (Scene.after ⟨driver, host⟩ a) w → w.Contained host request.cwd) ↔
    (∀ i ∈ plan.queue, i.isSplit = false) ∨ ∀ id, heard id → active = some id := by
  constructor
  · intro hall
    by_contra hcon
    obtain ⟨hsplit, id, hheard, hne⟩ :
        (¬ ∀ i ∈ plan.queue, i.isSplit = false) ∧ ∃ id, heard id ∧ active ≠ some id := by
      grind
    let host : RosterHost := ⟨active, before, [], [.request ⟨"", none⟩]⟩
    obtain ⟨hissued, s, hs, hphase, hknown⟩ :=
      Scene.launched_waits ⟨driver, host⟩ request hsplit
    have hnew : id ∉ s.known := by
      rw [hknown, Option.mem_toList]
      exact hne
    obtain ⟨w, hrun, hdriver, hsame, hown, hthere⟩ :=
      RosterHost.exists_stranger driver host rfl Nat.zero_lt_one request plan heard id
    obtain ⟨w', hrun', hhost, hresumes⟩ :=
      hrun.exists_resumes (hdriver ▸ hs) hphase hnew hthere hheard
    have hlaunch : Scene.Launches ⟨driver, host⟩ request plan (.start request) := .start hbuild
    obtain ⟨-, -, -, -, hlen, -⟩ := (hall RosterHost host _ w' (List.append_nil _) rfl
      Nat.zero_lt_one hlaunch (hlaunch.after_eq ▸ hrun')).resumes hresumes
    rw [hhost, hown, hsame, hissued] at hlen
    exact absurd hlen (by decide)
  · intro hcond H _ host a w hbefore hhost hopen hlaunch hrun
    rw [hlaunch.after_eq] at hrun
    have hstill : (∀ i ∈ plan.queue, i.isSplit = false) ∨
        ∀ w : Scene H, Grows host w.host → ∀ id ∈ sessions w.host, heard id →
          SessionHost.active host = some id ∨ id ∈ own host w.host :=
      hcond.imp_right fun hcond w _ id _ hheard => .inl (hhost ▸ hcond id hheard)
    have haudible := hrun.audible ⟨driver, host⟩ hopen.le (fun _ _ hle h => h.answers hle) hstill
    exact haudible.contained (Plan.playable_of_build hbuild)
      (fun id hid => hbefore ▸ hactive id (hhost ▸ hid)) hopen.le

/-- If the driver is told of no session but those of the layout, three tabs opened after another
request stay clear of the session that answers it. -/
theorem contained_in_silence :
    (Plan.build threeTabs.config Settings.standard.defaultEntry = .ok threeTabsPlan ∧
        ∀ id, some (⟨"s0"⟩ : SessionId) = some id → id ∈ [(⟨"s0"⟩ : SessionId)]) ∧
      ∀ (H : Type) [CooperativeHost H] (host : H) (a : Happening H) (w : Scene H),
        sessions host = [⟨"s0"⟩] → SessionHost.active host = some ⟨"s0"⟩ →
        (created host).length < (requests host).length →
        Scene.Launches ⟨.new .standard, host⟩ threeTabs threeTabsPlan a →
        Scene.Reaches (Scene.Undisturbed Serves (Scene.Notified host fun _ => False))
          (Scene.after ⟨.new .standard, host⟩ a) w → w.Contained host threeTabs.cwd := by
  let driver : LayoutDriver := .new .standard
  have hbuild : Plan.build threeTabs.config driver.settings.defaultEntry = .ok threeTabsPlan :=
    build_threeTabs
  have hactive : ∀ id, some (⟨"s0"⟩ : SessionId) = some id → id ∈ [(⟨"s0"⟩ : SessionId)] := by
    simp
  refine ⟨⟨hbuild, hactive⟩,
    (contained_iff_no_strangers hbuild [⟨"s0"⟩] (some ⟨"s0"⟩) hactive fun _ => False).2 ?_⟩
  exact .inr fun id hid => hid.elim

/-- A layout is started twice. The session that answers the first request is announced, and the
second sequencer is played on before its own request is answered, and binds its second pane to the
session of the first. -/
theorem late_session_leaks :
    let w₀ := Scene.after ⟨.new .standard, (⟨some ⟨"s0"⟩, [⟨"s0"⟩], [], []⟩ : RosterHost)⟩
      (.start { threeTabs with cwd := "/first" })
    let w₁ := w₀.after (.start threeTabs)
    let w := ((w₁.after (.host (w₁.host.create ⟨"s1"⟩))).after (.event (.activated ⟨"s1"⟩))).after
      .turn
    w₀.Launches threeTabs threeTabsPlan (.start threeTabs) ∧
      (created w₀.host).length < (requests w₀.host).length ∧
      Scene.Reaches (Scene.Undisturbed Serves (Scene.Notified w₀.host fun _ => True)) w₁ w ∧
      ⟨"s1"⟩ ∈ late w₀.host w.host ∧
      (w.driver.sequencer.map (·.panes.session? 1)) = some (some ⟨"s1"⟩) ∧
      ¬ w.Contained w₀.host threeTabs.cwd := by
  intro w₀ w₁ w
  have hlate : (⟨"s1"⟩ : SessionId) ∈ late w₀.host w.host := by decide
  have hbound : (w.driver.sequencer.map (·.panes.session? 1)) = some (some ⟨"s1"⟩) := by decide
  refine ⟨.start build_threeTabs, by decide, .step (.step (.step .refl ?_) ?_) ?_, hlate, hbound,
    fun h => ?_⟩
  · exact Scene.undisturbed_host (RosterHost.serves_create (by decide) (by decide))
  · exact Scene.undisturbed_event rfl ⟨by decide, .inr (.inr trivial)⟩
  · exact Scene.undisturbed_turn
  · obtain ⟨s, hs, hsession⟩ := Option.map_eq_some_iff.1 hbound
    exact h.unbound s hs _ hlate 1 hsession

end PaneLayout
