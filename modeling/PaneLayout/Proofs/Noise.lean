import PaneLayout.Proofs.Request.Search
import PaneLayout.Proofs.Resumption

set_option autoImplicit false

/-!
# Event noise

Most of what a host reports is of no concern to a driver: output without a request, the end of a
session, news of a session that is known, turns with nothing to play. This file compares a run with
the same run without such noise. Nothing else that happens goes differently.

## Main definitions

* `PaneLayout.without` — a list without the places that are marked.
* `PaneLayout.Answer`, `PaneLayout.Scene.answer` — what an operation of the driver answers.
* `PaneLayout.Scene.record` — a run with the answers given and the scenes passed through.
* `PaneLayout.Scene.Noise` — the happenings that a driver does not react to.

## Main results

* `PaneLayout.LayoutRequest.find?_unmarked`, `PaneLayout.LayoutRequest.find?_unclosed`,
  `PaneLayout.LayoutRequest.find?_unreadable` — output that carries no request.
* `PaneLayout.Scene.Noise.after_eq`, `PaneLayout.Scene.Noise.answer_eq` — noise changes nothing, and
  is passed on.
* `PaneLayout.noise_is_invisible` — a run without its noise has the same record.
-/

namespace PaneLayout

/-! ### Runs on record -/

/-- **A list without the places that are marked.** What has no mark is kept. -/
def without {α : Type} : List Bool → List α → List α
  | true :: marks, _ :: xs => without marks xs
  | false :: marks, x :: xs => x :: without marks xs
  | [], xs => xs
  | _ :: _, [] => []

/-- Nothing is left of nothing. -/
@[simp] theorem without_nil {α : Type} (marks : List Bool) : without marks ([] : List α) = [] := by
  rcases marks with - | ⟨- | -, -⟩ <;> rfl

/-- **Answers** of the operations of a driver: what to do with an event, whether a turn has played
on, whether a request was started and the settings were taken, and what has been detached. The
host's own doings have no answer. -/
inductive Answer where
  | outcome (outcome : Outcome)
  | played (on : Bool)
  | started (result : Except LayoutFault Unit)
  | configured (result : Except Settings.Fault Unit)
  | detached (sequencer : Option Sequencer)
  | nothing

/-- **An entry of a record**: what happened, what was answered, and the scene afterwards. -/
structure Entry (H : Type) where
  happening : Happening H
  answer : Answer
  scene : Scene H

namespace Scene

variable {H : Type} [SessionHost H]

/-- What is answered to a happening. -/
def answer (w : Scene H) : Happening H → Answer
  | .event e => .outcome (w.driver.handle e w.host).answer
  | .turn => .played (w.driver.runScheduled w.host).answer
  | .start request => .started (w.driver.start request w.host).answer
  | .configure settings => .configured (w.driver.setSettings settings).2
  | .detach => .detached w.driver.sequencer
  | .host _ => .nothing

/-- **The record of a run**, entry by entry. -/
def record (w : Scene H) : List (Happening H) → List (Entry H)
  | [] => []
  | a :: as => ⟨a, w.answer a, w.after a⟩ :: (w.after a).record as

end Scene

/-! ### Output that carries no request -/

namespace LayoutRequest

variable {data : String} {before body tail : List Char}

/-- Without a marker there is no request. -/
theorem find?_unmarked (h : ¬ marker.toList <:+: searched data.toList) : find? data = .ok none := by
  rw [find?, locate_eq_absent_iff.2 h]

/-- Without a closing brace behind the last marker there is no request. -/
theorem find?_unclosed (hs : searched data.toList = before ++ (marker.toList ++ tail))
    (hno : ¬ marker.toList <:+: tail) (hbrace : '}' ∉ tail) : find? data = .ok none := by
  rw [find?, locate_eq_incomplete_iff.2 ⟨before, tail, hs, hno, hbrace⟩]

/-- A payload that cannot be read is a fault. -/
theorem find?_unreadable {fault : Json.Fault}
    (hs : searched data.toList = before ++ (marker.toList ++ (body ++ '}' :: tail)))
    (hno : ¬ marker.toList <:+: body ++ '}' :: tail) (hbrace : '}' ∉ tail)
    (hparse : parse ((body ++ ['}']).filter (!isLineBreak ·)) = .error fault) :
    find? data = .error fault := by
  rw [find?_of_locate (locate_eq_payload hs hno hbrace), hparse]
  rfl

end LayoutRequest

namespace LayoutDriver

variable {H : Type} [SessionHost H]

/-- Output that carries no request changes nothing and is passed on. -/
theorem handle_output_of_no_request (driver : LayoutDriver) (id : SessionId) {data : String}
    (h : ∀ request, LayoutRequest.find? data ≠ .ok (some request)) (host : H) :
    let turn := driver.handle (.dataReceived id data) host
    turn.driver = driver ∧ turn.host = host ∧ turn.answer = .forward := by
  by_cases hon : driver.settings.enabled = true
  · simp only [handle, hon, Bool.not_true, Bool.false_eq_true, if_false, handleOutput]
    cases hfind : LayoutRequest.find? data with
    | error fault => exact ⟨rfl, rfl, rfl⟩
    | ok found =>
      cases found with
      | none => exact ⟨rfl, rfl, rfl⟩
      | some request => exact absurd hfind (h request)
  · simp [handle, hon]

/-- Every event but output is passed on. -/
theorem answer_handle_of_alive (driver : LayoutDriver) {e : HostEvent} {id : SessionId}
    (he : e.alive? = some id) (host : H) : (driver.handle e host).answer = .forward := by
  by_cases hon : driver.settings.enabled = true
  · cases e with
    | dataReceived x data => simp [HostEvent.alive?] at he
    | closed x => simp [HostEvent.alive?] at he
    | titleChanged x title => simp [handle, hon, HostEvent.alive?]
    | activated x => simp [handle, hon, HostEvent.alive?]
  · simp [handle, hon]

/-- News of a session changes nothing if hearing of it does not. -/
theorem handle_of_alive_of_observe {driver : LayoutDriver} {e : HostEvent} {id : SessionId}
    (he : e.alive? = some id) (h : (driver.observe id).1 = driver) (host : H) :
    (driver.handle e host).driver = driver ∧ (driver.handle e host).host = host := by
  by_cases hon : driver.settings.enabled = true
  · obtain ⟨hdriver, hhost⟩ := handle_of_alive hon he host
    exact ⟨hdriver.trans h, hhost⟩
  · simp [handle, hon]

omit [SessionHost H] in
/-- A driver that plays nothing hears of nothing. -/
theorem observe_of_vacant {driver : LayoutDriver} (hs : driver.sequencer = none) (id : SessionId) :
    (driver.observe id).1 = driver := by
  simp [observe, hs]

omit [SessionHost H] in
/-- Hearing of a session that is known changes nothing, whether the sequencer has finished or
not. -/
theorem observe_of_knows {driver : LayoutDriver} {s : Sequencer} {id : SessionId}
    (hs : driver.sequencer = some s) (hknows : s.knows id = true) :
    (driver.observe id).1 = driver := by
  cases hfin : s.isFinished with
  | true => rw [observe_of_finished hs hfin]
  | false => rw [observe_of_known hs hfin hknows]

end LayoutDriver

/-! ### Noise -/

namespace Scene

variable {H : Type} [SessionHost H]

open LayoutRequest (marker searched parse isLineBreak) in
/-- **Noise.** Output without a marker, without a closing brace behind the last marker, or with a
payload that cannot be read; the end of a session; news of a session that the live sequencer knows,
or that comes while none plays; and a turn while no resumption is due. -/
inductive Noise (w : Scene H) : Happening H → Prop where
  | unmarked {id : SessionId} {data : String} : ¬ marker.toList <:+: searched data.toList →
    Noise w (.event (.dataReceived id data))
  | unclosed {id : SessionId} {data : String} {before tail : List Char} :
    searched data.toList = before ++ (marker.toList ++ tail) → ¬ marker.toList <:+: tail →
    '}' ∉ tail → Noise w (.event (.dataReceived id data))
  | unreadable {id : SessionId} {data : String} {before body tail : List Char}
      {fault : Json.Fault} :
    searched data.toList = before ++ (marker.toList ++ (body ++ '}' :: tail)) →
    ¬ marker.toList <:+: body ++ '}' :: tail → '}' ∉ tail →
    parse ((body ++ ['}']).filter (!isLineBreak ·)) = .error fault →
    Noise w (.event (.dataReceived id data))
  | closed {id : SessionId} : Noise w (.event (.closed id))
  | known {e : HostEvent} {id : SessionId} {s : Sequencer} : e.alive? = some id →
    w.driver.sequencer = some s → s.knows id = true → Noise w (.event e)
  | vacant {e : HostEvent} {id : SessionId} : e.alive? = some id →
    w.driver.sequencer = none → Noise w (.event e)
  | finished {e : HostEvent} {id : SessionId} {s : Sequencer} : e.alive? = some id →
    w.driver.sequencer = some s → s.isFinished = true → Noise w (.event e)
  | idle : w.driver.resumePending = false → Noise w .turn

/-- An event that is noise changes nothing and is passed on. -/
theorem Noise.handle_eq {w : Scene H} {e : HostEvent} (h : w.Noise (.event e)) :
    (w.driver.handle e w.host).driver = w.driver ∧ (w.driver.handle e w.host).host = w.host ∧
      (w.driver.handle e w.host).answer = .forward := by
  have news : ∀ {id : SessionId}, e.alive? = some id → (w.driver.observe id).1 = w.driver →
      (w.driver.handle e w.host).driver = w.driver ∧ (w.driver.handle e w.host).host = w.host ∧
        (w.driver.handle e w.host).answer = .forward := by
    intro id he hobserve
    obtain ⟨hdriver, hhost⟩ := LayoutDriver.handle_of_alive_of_observe he hobserve w.host
    exact ⟨hdriver, hhost, w.driver.answer_handle_of_alive he w.host⟩
  cases h with
  | unmarked hmarker =>
    have hfind := LayoutRequest.find?_unmarked hmarker
    exact w.driver.handle_output_of_no_request _ (by simp [hfind]) w.host
  | unclosed hs hno hbrace =>
    have hfind := LayoutRequest.find?_unclosed hs hno hbrace
    exact w.driver.handle_output_of_no_request _ (by simp [hfind]) w.host
  | unreadable hs hno hbrace hparse =>
    have hfind := LayoutRequest.find?_unreadable hs hno hbrace hparse
    exact w.driver.handle_output_of_no_request _ (by simp [hfind]) w.host
  | closed =>
    by_cases hon : w.driver.settings.enabled = true
    · simp [LayoutDriver.handle, hon, HostEvent.alive?]
    · simp [LayoutDriver.handle, hon]
  | known he hs hknows => exact news he (LayoutDriver.observe_of_knows hs hknows)
  | vacant he hs => exact news he (LayoutDriver.observe_of_vacant hs _)
  | finished he hs hfin => exact news he (by rw [LayoutDriver.observe_of_finished hs hfin])

/-- **Noise changes nothing**, neither in the driver nor in the host. -/
theorem Noise.after_eq {w : Scene H} {a : Happening H} (h : w.Noise a) : w.after a = w := by
  have hevent : ∀ {e : HostEvent}, w.Noise (.event e) → w.after (.event e) = w := by
    intro e he
    obtain ⟨hdriver, hhost, -⟩ := he.handle_eq
    rw [after, hdriver, hhost]
  cases a with
  | event e => exact hevent h
  | turn =>
    cases h with
    | idle hdue => rw [after, LayoutDriver.runScheduled_of_not_due hdue]
  | start request => cases h
  | configure settings => cases h
  | detach => cases h
  | host next => cases h

/-- **Noise is passed on**: an event goes on its way, and a turn plays nothing. -/
theorem Noise.answer_eq {w : Scene H} {a : Happening H} (h : w.Noise a) :
    (∃ e, a = .event e ∧ w.answer a = .outcome .forward) ∨
      (a = .turn ∧ w.answer a = .played false) := by
  cases a with
  | event e =>
    obtain ⟨-, -, hanswer⟩ := h.handle_eq
    exact .inl ⟨e, rfl, by rw [answer, hanswer]⟩
  | turn =>
    cases h with
    | idle hdue => exact .inr ⟨rfl, by rw [answer, LayoutDriver.runScheduled_of_not_due hdue]⟩
  | start request => cases h
  | configure settings => cases h
  | detach => cases h
  | host next => cases h

end Scene

/-- **Noise is invisible.** Take any driver and host and anything that may happen to them, and mark
any number of happenings that are noise where they happen. Without the marked ones, the record of
the run is the record that it was, without the marked entries: all others happen in the same scene,
get the same answer, and leave the same driver and the same host, with all calls made to it. And
every marked event was passed on, and every marked turn played nothing.

**Proof sketch.** Noise leaves the scene as it is (`Scene.Noise.after_eq`), so what comes after it
finds the scene that it would have found without it; induction on the run. -/
theorem noise_is_invisible {H : Type} [SessionHost H] (w : Scene H) (as : List (Happening H))
    (marks : List Bool)
    (hnoise : ∀ i a, as[i]? = some a → marks[i]? = some true →
      (w.afterAll (as.take i)).Noise a) :
    w.record (without marks as) = without marks (w.record as) ∧
      ∀ i a, as[i]? = some a → marks[i]? = some true →
        (∃ e, a = .event e ∧ (w.afterAll (as.take i)).answer a = .outcome .forward) ∨
          (a = .turn ∧ (w.afterAll (as.take i)).answer a = .played false) := by
  refine ⟨?_, fun i a ha hmark => (hnoise i a ha hmark).answer_eq⟩
  induction as generalizing w marks with
  | nil => simp [Scene.record]
  | cons a as ih =>
    cases marks with
    | nil => rfl
    | cons mark marks =>
      have hrest : (w.after a).record (without marks as) =
          without marks ((w.after a).record as) := by
        refine ih (w.after a) marks fun i b hb hmark => ?_
        have hnext := hnoise (i + 1) b (by simpa using hb) (by simpa using hmark)
        simpa [Scene.afterAll] using hnext
      cases mark with
      | false => rw [without, Scene.record, hrest, Scene.record, without]
      | true =>
        have hquiet : w.after a = w := (hnoise 0 a rfl rfl).after_eq
        rw [without, Scene.record, without]
        rw [hquiet] at hrest ⊢
        exact hrest

/-- Three tabs have been started. A title of the first session, the end of another one, output with
a request that cannot be read, a turn with nothing to play and a repeated announcement are noise
among the announcement of a new session and the turn that plays on. -/
theorem noise_is_invisible_in_tabs :
    let w := Scene.after ⟨.new .standard, QueuedHost.new (some ⟨"s0"⟩) false⟩ (.start threeTabs)
    let as : List (Happening QueuedHost) := [.event (.titleChanged ⟨"s0"⟩ "vim"), .turn,
      .event (.dataReceived ⟨"s0"⟩ "$ [par-layout config]:{}\n"), .event (.activated ⟨"s1"⟩),
      .event (.closed ⟨"s9"⟩), .event (.titleChanged ⟨"s1"⟩ "zsh"), .turn]
    let marks := [true, true, true, false, true, true, false]
    (∀ i a, as[i]? = some a → marks[i]? = some true → (w.afterAll (as.take i)).Noise a) ∧
      w.record [.event (.activated ⟨"s1"⟩), .turn] = without marks (w.record as) ∧
      (w.afterAll [.event (.activated ⟨"s1"⟩), .turn]).driver.resumePending = false ∧
      (w.afterAll (as.take 3)).answer (.event (.activated ⟨"s1"⟩)) = .outcome .forward := by
  intro w as marks
  have known : ∀ {w : Scene QueuedHost} {e : HostEvent} {id : SessionId}, e.alive? = some id →
      (w.driver.sequencer.any fun s => s.knows id) = true → w.Noise (.event e) := by
    intro w e id he hknows
    obtain ⟨s, hs, hknows⟩ := (Option.any_eq_true _ _).1 hknows
    exact .known he hs hknows
  have hnoise : ∀ i a, as[i]? = some a → marks[i]? = some true →
      (w.afterAll (as.take i)).Noise a := by
    intro i a ha hmark
    match i with
    | 0 =>
      obtain rfl : Happening.event (.titleChanged ⟨"s0"⟩ "vim") = a := by simpa [as] using ha
      exact known rfl (by decide)
    | 1 =>
      obtain rfl : Happening.turn = a := by simpa [as] using ha
      exact .idle (by decide)
    | 2 =>
      obtain rfl : Happening.event (.dataReceived ⟨"s0"⟩ "$ [par-layout config]:{}\n") = a := by
        simpa [as] using ha
      have hs : LayoutRequest.searched "$ [par-layout config]:{}\n".toList =
          "$ ".toList ++ (LayoutRequest.marker.toList ++ (['{'] ++ '}' :: [])) := by decide
      exact .unreadable hs (by decide) (by decide) rfl
    | 3 => simp [marks] at hmark
    | 4 =>
      obtain rfl : Happening.event (.closed ⟨"s9"⟩) = a := by simpa [as] using ha
      exact .closed
    | 5 =>
      obtain rfl : Happening.event (.titleChanged ⟨"s1"⟩ "zsh") = a := by simpa [as] using ha
      exact known rfl (by decide)
    | 6 => simp [marks] at hmark
    | i + 7 => simp [as] at ha
  obtain ⟨hrecord, -⟩ := noise_is_invisible w as marks hnoise
  exact ⟨hnoise, hrecord, by decide, rfl⟩

end PaneLayout
