import PaneLayout.Proofs.Diagnosis
import PaneLayout.Proofs.Noise
import PaneLayout.Proofs.Request.Return

set_option autoImplicit false

/-!
# Starting is all or nothing

A request whose layout cannot be built leaves the driver and its host as they were, so a run goes on
as if the request had never come. A request whose layout can be built replaces all that the driver
had but its settings, so nothing that was played or heard of before has any influence on it.

## Main definitions

* `PaneLayout.Scene.Rejects` — the happenings that bring a request whose layout cannot be built.

## Main results

* `PaneLayout.Scene.record_without` — a run without happenings that leave the scene as it is.
* `PaneLayout.LayoutDriver.handle_of_fault` — output with a request that is rejected.
* `PaneLayout.LayoutDriver.start_congr`, `PaneLayout.LayoutDriver.handle_congr` — two drivers with
  the same settings are the same after a request that has been started.
* `PaneLayout.starting_is_all_or_nothing` — all of this at once.
-/

namespace PaneLayout

namespace LayoutDriver

variable {H : Type} [SessionHost H] {driver other : LayoutDriver} {request : LayoutRequest}
  {id : SessionId} {data : String}

/-- An enabled driver starts the request that it finds in output, and uses up the event. -/
theorem handle_of_request (hon : driver.settings.enabled = true)
    (hfind : LayoutRequest.find? data = .ok (some request)) (id : SessionId) (host : H) :
    let turn := driver.handle (.dataReceived id data) host
    turn.driver = (driver.start request host).driver ∧
      turn.host = (driver.start request host).host ∧ turn.answer = .consumed := by
  simp [handle, hon, handleOutput, hfind]

/-- A driver that is not enabled lets output pass. -/
theorem handle_of_disabled (hoff : driver.settings.enabled = false) (e : HostEvent) (host : H) :
    driver.handle e host = ⟨driver, host, .forward, []⟩ := by
  simp [handle, hoff]

/-- **A request that is rejected changes nothing**, and uses up the event that it came with, if the
driver is enabled. -/
theorem handle_of_fault {fault : LayoutFault}
    (hbuild : Plan.build request.config driver.settings.defaultEntry = .error fault)
    (hfind : LayoutRequest.find? data = .ok (some request)) (host : H) :
    let turn := driver.handle (.dataReceived id data) host
    turn.driver = driver ∧ turn.host = host ∧
      turn.answer = if driver.settings.enabled then .consumed else .forward := by
  cases hon : driver.settings.enabled with
  | true =>
    obtain ⟨hdriver, hhost, hanswer⟩ := handle_of_request hon hfind id host
    rw [start_of_fault host hbuild] at hdriver hhost
    exact ⟨hdriver, hhost, hanswer⟩
  | false =>
    rw [handle_of_disabled hon]
    exact ⟨rfl, rfl, rfl⟩

/-- What is answered to a request whose layout can be built. -/
theorem answer_start_of_build {plan : Plan}
    (h : Plan.build request.config driver.settings.defaultEntry = .ok plan) (host : H) :
    (driver.start request host).answer = .ok () := by
  simp only [start, h]

/-- **Only the settings matter** for what a request that can be built leaves: two drivers that have
the same settings become the same driver and leave the same host. -/
theorem start_congr {plan : Plan} (hsame : other.settings = driver.settings)
    (h : Plan.build request.config driver.settings.defaultEntry = .ok plan) (host : H) :
    (other.start request host).driver = (driver.start request host).driver ∧
      (other.start request host).host = (driver.start request host).host ∧
      (other.start request host).answer = (driver.start request host).answer := by
  have h' : Plan.build request.config other.settings.defaultEntry = .ok plan := by rwa [hsame]
  obtain ⟨hdriver, hhost⟩ := start_of_build host h
  obtain ⟨hdriver', hhost'⟩ := start_of_build host h'
  have hfresh : other.fresh plan request.cwd (SessionHost.active host) =
      driver.fresh plan request.cwd (SessionHost.active host) := by
    rw [fresh, fresh, hsame]
  refine ⟨?_, ?_, ?_⟩
  · rw [hdriver, hdriver', hfresh, hsame]
  · rw [hhost, hhost', hfresh]
  · rw [answer_start_of_build h, answer_start_of_build h']

/-- The same holds if the request is found in output and the drivers are enabled. -/
theorem handle_congr {plan : Plan} (hsame : other.settings = driver.settings)
    (hon : driver.settings.enabled = true)
    (hfind : LayoutRequest.find? data = .ok (some request))
    (h : Plan.build request.config driver.settings.defaultEntry = .ok plan) (host : H) :
    let turn := driver.handle (.dataReceived id data) host
    let turn' := other.handle (.dataReceived id data) host
    turn'.driver = turn.driver ∧ turn'.host = turn.host ∧ turn'.answer = turn.answer := by
  have hon' : other.settings.enabled = true := by rwa [hsame]
  obtain ⟨hdriver, hhost, hanswer⟩ := handle_of_request hon hfind id host
  obtain ⟨hdriver', hhost', hanswer'⟩ := handle_of_request hon' hfind id host
  obtain ⟨hstart, hplayed, -⟩ := start_congr hsame h host
  exact ⟨by rw [hdriver, hdriver', hstart], by rw [hhost, hhost', hplayed],
    by rw [hanswer, hanswer']⟩

end LayoutDriver

namespace Scene

variable {H : Type} [SessionHost H]

/-- **Rejections.** The happening brings a request, directly or in the output of a session, and its
layout cannot be built. -/
inductive Rejects (w : Scene H) (request : LayoutRequest) (fault : LayoutFault) :
    Happening H → Prop where
  | start : Plan.build request.config w.driver.settings.defaultEntry = .error fault →
    Rejects w request fault (.start request)
  | data {id : SessionId} {data : String} : LayoutRequest.find? data = .ok (some request) →
    Plan.build request.config w.driver.settings.defaultEntry = .error fault →
    Rejects w request fault (.event (.dataReceived id data))

variable {w : Scene H} {request : LayoutRequest} {fault : LayoutFault} {a : Happening H}

/-- A rejection leaves the scene as it is. -/
theorem Rejects.after_eq (h : w.Rejects request fault a) : w.after a = w := by
  cases h with
  | start hbuild => rw [after, LayoutDriver.start_of_fault w.host hbuild]
  | data hfind hbuild =>
    obtain ⟨hdriver, hhost, -⟩ := LayoutDriver.handle_of_fault hbuild hfind w.host
    rw [after, hdriver, hhost]

/-- **Without what leaves the scene as it is,** a run has the same record, but for the entries that
are missing.

**Proof sketch.** Induction on the run: what comes behind such a happening finds the scene that it
would have found without it. -/
theorem record_without (w : Scene H) (as : List (Happening H)) (marks : List Bool)
    (hquiet : ∀ i a, as[i]? = some a → marks[i]? = some true →
      (w.afterAll (as.take i)).after a = w.afterAll (as.take i)) :
    w.record (without marks as) = without marks (w.record as) := by
  induction as generalizing w marks with
  | nil => simp [record]
  | cons a as ih =>
    cases marks with
    | nil => rfl
    | cons mark marks =>
      have hrest := ih (w.after a) marks fun i b hb hmark =>
        hquiet (i + 1) b (by simpa using hb) (by simpa using hmark)
      cases mark with
      | false => rw [without, record, hrest, record, without]
      | true =>
        have hsame : w.after a = w := hquiet 0 a rfl rfl
        rw [hsame] at hrest
        rw [without, hrest, record, without, hsame]

end Scene

/-! ### A request with an unknown mode -/

/-- A request with an entry mode that does not exist. -/
def slantedRequest : LayoutRequest := ⟨⟨.command "a", some "diagonal"⟩, "/second"⟩

/-- The mode is reported, whatever the settings. -/
theorem build_slantedRequest (defaultEntry : String) :
    Plan.build slantedRequest.config defaultEntry = .error (.unknownMode "diagonal") := by
  have hunknown : Mode.parse? "diagonal" = none := by decide
  exact Plan.build_of_unknown hunknown

/-- The request is found in its line. -/
theorem find?_line_slantedRequest :
    LayoutRequest.find? slantedRequest.line = .ok (some slantedRequest) := by
  have hkept : ∀ text ∈ ["a", "diagonal", "/second"], LayoutRequest.stripText text = text := by
    decide
  have hself : slantedRequest.mapText LayoutRequest.stripText = slantedRequest := by
    simp [slantedRequest, LayoutRequest.mapText, Node.mapText, hkept]
  have hnested : slantedRequest.config.layout.Nested 1 := .command "a"
  rw [LayoutRequest.find?_line hnested (by decide) (by decide), hself]

/-- **A driver that is not enabled passes the request on** that it would reject: the event is not
used up. -/
theorem disabled_driver_forwards_rejected_request :
    let driver : LayoutDriver := .new ⟨false, "tab", false⟩
    let host : QueuedHost := .new (some ⟨"s0"⟩) false
    LayoutRequest.find? slantedRequest.line = .ok (some slantedRequest) ∧
      Plan.build slantedRequest.config driver.settings.defaultEntry =
        .error (.unknownMode "diagonal") ∧
      (driver.handle (.dataReceived ⟨"s0"⟩ slantedRequest.line) host).answer = .forward ∧
      (driver.handle (.dataReceived ⟨"s0"⟩ slantedRequest.line) host).answer ≠ .consumed := by
  intro driver host
  have hturn : driver.handle (.dataReceived ⟨"s0"⟩ slantedRequest.line) host =
      ⟨driver, host, .forward, []⟩ := LayoutDriver.handle_of_disabled rfl _ host
  rw [hturn]
  exact ⟨find?_line_slantedRequest, build_slantedRequest _, rfl, by decide⟩

/-! ### The whole -/

/-- **Starting is all or nothing.** If the layout of a request cannot be built, starting it answers
with the fault and changes neither the driver nor the host. The same holds if the request comes in
the output of a session; an enabled driver uses up the event all the same, and one that is not
enabled passes it on. So any number of requests that are rejected where they come can be left out of
a run: everything else happens in the same scenes, with the same answers.

If the layout can be built, nothing is due afterwards, and a driver with the same settings, whatever
it was playing, becomes the same driver and leaves the same host, with all calls made to it.

**Proof sketch.** A fault ends `start` before anything is changed (`LayoutDriver.start_of_fault`),
so rejections can be left out (`Scene.record_without`). Otherwise what is left has been written out
in `LayoutDriver.start_of_build`, and no more than the settings of the driver occurs in it. -/
theorem starting_is_all_or_nothing {H : Type} [SessionHost H] (driver : LayoutDriver)
    (request : LayoutRequest) (host : H) :
    (∀ fault, Plan.build request.config driver.settings.defaultEntry = .error fault →
      ((driver.start request host).answer = .error fault ∧
        (driver.start request host).driver = driver ∧
        (driver.start request host).host = host) ∧
      ∀ id data, LayoutRequest.find? data = .ok (some request) →
        (driver.handle (.dataReceived id data) host).driver = driver ∧
          (driver.handle (.dataReceived id data) host).host = host ∧
          (driver.handle (.dataReceived id data) host).answer =
            if driver.settings.enabled then .consumed else .forward) ∧
    (∀ (w : Scene H) (as : List (Happening H)) (marks : List Bool),
      (∀ i a, as[i]? = some a → marks[i]? = some true →
        ∃ bad fault, (w.afterAll (as.take i)).Rejects bad fault a) →
      w.record (without marks as) = without marks (w.record as)) ∧
    ∀ plan, Plan.build request.config driver.settings.defaultEntry = .ok plan →
      (driver.start request host).answer = .ok () ∧
      (∃ s, (driver.start request host).driver = ⟨driver.settings, some s, false⟩) ∧
      ∀ other : LayoutDriver, other.settings = driver.settings →
        ((other.start request host).driver = (driver.start request host).driver ∧
          (other.start request host).host = (driver.start request host).host ∧
          (other.start request host).answer = (driver.start request host).answer) ∧
        ∀ id data, LayoutRequest.find? data = .ok (some request) →
          driver.settings.enabled = true →
          (driver.handle (.dataReceived id data) host).driver =
              (driver.start request host).driver ∧
            (other.handle (.dataReceived id data) host).driver =
              (driver.handle (.dataReceived id data) host).driver ∧
            (other.handle (.dataReceived id data) host).host =
              (driver.handle (.dataReceived id data) host).host ∧
            (other.handle (.dataReceived id data) host).answer =
              (driver.handle (.dataReceived id data) host).answer := by
  refine ⟨fun fault hbuild => ⟨?_, fun id data hfind => ?_⟩, fun w as marks hmarks => ?_,
    fun plan hbuild => ⟨?_, ?_, fun other hsame => ⟨?_, fun id data hfind hon => ⟨?_, ?_⟩⟩⟩⟩
  · rw [LayoutDriver.start_of_fault host hbuild]
    exact ⟨rfl, rfl, rfl⟩
  · exact LayoutDriver.handle_of_fault hbuild hfind host
  · refine Scene.record_without w as marks fun i a ha hmark => ?_
    obtain ⟨bad, fault, hrejects⟩ := hmarks i a ha hmark
    exact hrejects.after_eq
  · exact LayoutDriver.answer_start_of_build hbuild host
  · exact ⟨_, (LayoutDriver.start_of_build host hbuild).1⟩
  · exact LayoutDriver.start_congr hsame hbuild host
  · exact (LayoutDriver.handle_of_request hon hfind _ host).1
  · exact LayoutDriver.handle_congr hsame hon hfind hbuild host

/-- Three tabs have been started. A request with an unknown mode, found in output and then started
directly, is rejected both times, and the second tab is built as it would have been without. The
tabs can be started again by the driver that plays them, and by a new one, to the same effect. -/
theorem starting_is_all_or_nothing_in_tabs :
    let host : QueuedHost := .new (some ⟨"s0"⟩) false
    let w := Scene.after ⟨.new .standard, host⟩ (.start threeTabs)
    let as : List (Happening QueuedHost) :=
      [.event (.dataReceived ⟨"s0"⟩ slantedRequest.line), .event (.activated ⟨"s1"⟩),
        .start slantedRequest, .turn]
    let marks := [true, false, true, false]
    (w.driver.handle (.dataReceived ⟨"s0"⟩ slantedRequest.line) w.host).answer = .consumed ∧
      (w.driver.start slantedRequest w.host).answer = .error (.unknownMode "diagonal") ∧
      w.record [.event (.activated ⟨"s1"⟩), .turn] = without marks (w.record as) ∧
      w.driver ≠ .new .standard ∧
      (w.driver.start threeTabs w.host).driver =
        ((LayoutDriver.new .standard).start threeTabs w.host).driver := by
  intro host w as marks
  have hmarks : ∀ i a, as[i]? = some a → marks[i]? = some true →
      ∃ bad fault, (w.afterAll (as.take i)).Rejects bad fault a := by
    intro i a ha hmark
    match i with
    | 0 =>
      obtain rfl : Happening.event (.dataReceived ⟨"s0"⟩ slantedRequest.line) = a := by
        simpa [as] using ha
      exact ⟨slantedRequest, _, .data find?_line_slantedRequest (build_slantedRequest _)⟩
    | 1 => simp [marks] at hmark
    | 2 =>
      obtain rfl : Happening.start slantedRequest = a := by simpa [as] using ha
      exact ⟨slantedRequest, _, .start (build_slantedRequest _)⟩
    | 3 => simp [marks] at hmark
    | i + 4 => simp [as] at ha
  obtain ⟨hfault, hrun, -⟩ := starting_is_all_or_nothing w.driver slantedRequest w.host
  have hbuild : Plan.build threeTabs.config (LayoutDriver.new .standard).settings.defaultEntry =
      .ok threeTabsPlan := build_threeTabs
  obtain ⟨-, -, hbuilt⟩ := starting_is_all_or_nothing (.new .standard) threeTabs w.host
  obtain ⟨-, -, hsame⟩ := hbuilt threeTabsPlan hbuild
  have hlaunch : Scene.Launches ⟨.new .standard, host⟩ threeTabs threeTabsPlan
    (.start threeTabs) := .start build_threeTabs
  have hlaunched : w = Scene.launched ⟨.new .standard, host⟩ threeTabs threeTabsPlan :=
    hlaunch.after_eq
  have hsettings : w.driver.settings = .standard := by rw [hlaunched, Scene.launched]; rfl
  obtain ⟨⟨hdriver, -⟩, -⟩ := hsame w.driver hsettings
  obtain ⟨⟨hanswer, -⟩, hdata⟩ := hfault _ (build_slantedRequest _)
  obtain ⟨-, -, hconsumed⟩ := hdata ⟨"s0"⟩ slantedRequest.line find?_line_slantedRequest
  rw [hsettings] at hconsumed
  refine ⟨hconsumed, hanswer, hrun w as marks hmarks, ?_, hdriver⟩
  intro hvacant
  have hnone : w.driver.sequencer = none := congrArg LayoutDriver.sequencer hvacant
  rw [hlaunched, Scene.launched] at hnone
  exact Option.some_ne_none _ hnone

end PaneLayout
