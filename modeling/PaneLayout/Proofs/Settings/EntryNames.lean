import PaneLayout.Proofs.Diagnosis
import PaneLayout.Proofs.Reconfiguration
import PaneLayout.Proofs.Replacement
import PaneLayout.Settings.File

set_option autoImplicit false

/-!
# Names of entry modes

A name is looked at twice: settings are checked for it in small letters, and plans are built from it
in capitals. Both accept the same names, so that the settings of a driver always name a mode once
they have been checked, and every change of them is checked.

## Main definitions

* `PaneLayout.Notice.rejection?` — the fault for which a notice says that a layout is rejected.
* `PaneLayout.Notice.Quiet` — notices none of which says so.

## Main results

* `PaneLayout.Settings.validate_eq_ok_iff` — the names that are accepted are those of modes.
* `PaneLayout.Settings.validate_of_load` — settings that have been loaded are valid.
* `PaneLayout.Scene.validate_after` — the settings of a driver stay valid.
* `PaneLayout.LayoutDriver.start_ne_unknownMode` — what is not answered under valid settings.
* `PaneLayout.LayoutDriver.rejection_of_mem_handle` — what is said of a request found in output is
  what would be answered to it.
* `PaneLayout.loaded_settings_name_a_mode` — all of this at once.
-/

namespace PaneLayout

namespace Settings

/-! ### Small letters and capitals -/

/-- The number of a character in small letters. -/
theorem toNat_toLower (c : Char) :
    c.toLower.toNat = if 65 ≤ c.toNat ∧ c.toNat ≤ 90 then c.toNat + 32 else c.toNat := by
  unfold Char.toLower
  simp only [Char.toNat, UInt32.le_iff_toNat_le]
  split <;> grind [UInt32.toNat_add]

/-- The number of a character in capitals. -/
theorem toNat_toUpper (c : Char) :
    c.toUpper.toNat = if 97 ≤ c.toNat ∧ c.toNat ≤ 122 then c.toNat - 32 else c.toNat := by
  unfold Char.toUpper
  simp only [Char.toNat, UInt32.le_iff_toNat_le]
  split <;> grind [UInt32.toNat_add]

/-- Small letters and capitals tell the same characters apart. -/
theorem toLower_eq_toLower_iff (c d : Char) : c.toLower = d.toLower ↔ c.toUpper = d.toUpper := by
  rw [← Char.toNat_inj, ← Char.toNat_inj, toNat_toLower, toNat_toLower, toNat_toUpper,
    toNat_toUpper]
  grind

/-- **Small letters and capitals tell the same words apart.** -/
theorem map_toLower_eq_map_iff (s t : List Char) :
    s.map Char.toLower = t.map Char.toLower ↔ s.map Char.toUpper = t.map Char.toUpper := by
  induction s generalizing t with
  | nil => simp
  | cons c s ih => cases t <;> simp [toLower_eq_toLower_iff, ih]

/-- The names of modes in capitals. -/
def capitalNames : List String := ["WINDOW", "TAB", "HORIZONTAL", "VERTICAL", "PANE"]

/-- The names in capitals are the accepted names, written in capitals. -/
theorem capitalNames_eq :
    capitalNames = entryNames.map fun name => String.ofList (name.toList.map Char.toUpper) := by
  decide

/-- The accepted names are written in small letters. -/
theorem map_toLower_entryNames :
    ∀ name ∈ entryNames, name.toList.map Char.toLower = name.toList := by
  decide

/-- **A mode is found** by its name in capitals. -/
theorem exists_parse?_iff (text : String) : (∃ mode, Mode.parse? text = some mode) ↔
    String.ofList ((Text.trim text.toList).map Char.toUpper) ∈ capitalNames := by
  rw [Mode.parse?]
  split <;> simp_all [capitalNames]

/-- **Checking a name and looking for its mode** succeed for the same names.

**Proof sketch.** Both trim the name. The accepted names are written in small letters, so a text is
one of them in small letters exactly if it is in capitals what they are in capitals. -/
theorem validate_eq_ok_iff (settings : Settings) :
    settings.validate = .ok () ↔ ∃ mode, Mode.parse? settings.defaultEntry = some mode := by
  rw [exists_parse?_iff, capitalNames_eq, validate]
  generalize Text.trim settings.defaultEntry.toList = trimmed
  have hsame : ∀ name ∈ entryNames, String.ofList (trimmed.map Char.toLower) = name ↔
      String.ofList (trimmed.map Char.toUpper) = String.ofList (name.toList.map Char.toUpper) := by
    intro name hname
    rw [String.ofList_inj, ← map_toLower_eq_map_iff, map_toLower_entryNames name hname,
      ← String.ofList_inj, String.ofList_toList]
  have hmem : String.ofList (trimmed.map Char.toLower) ∈ entryNames ↔
      String.ofList (trimmed.map Char.toUpper) ∈
        entryNames.map fun name => String.ofList (name.toList.map Char.toUpper) := by
    rw [List.mem_map]
    constructor
    · exact fun h => ⟨_, h, ((hsame _ h).1 rfl).symm⟩
    · rintro ⟨name, hname, heq⟩
      rwa [(hsame name hname).2 heq.symm]
  rw [← hmem]
  split <;> simp_all

/-- **Settings that have been loaded are valid,** whatever stands in the file. -/
theorem validate_of_load {tree : FileTree} {path : FilePath} {settings : Settings}
    (h : load tree path = .ok settings) : settings.validate = .ok () := by
  have hstandard : standard.validate = .ok () := by decide
  rw [load] at h
  split at h
  · obtain rfl : standard = settings := by simpa using h
    exact hstandard
  · split at h
    · cases h
    · split at h
      · obtain rfl : standard = settings := by simpa using h
        exact hstandard
      · split at h
        · cases h
        · split at h
          · cases h
          · rename_i hvalid
            obtain rfl := Except.ok.inj h
            exact hvalid

end Settings

/-! ### Drivers and their settings -/

section Drivers

variable {H : Type} [SessionHost H]

/-- The settings after a happening are those before it, or valid ones that the driver was told. -/
theorem Scene.settings_after (w : Scene H) (a : Happening H) :
    (w.after a).driver.settings = w.driver.settings ∨
      ∃ settings, a = .configure settings ∧ settings.validate = .ok () ∧
        (w.after a).driver.settings = settings := by
  have hstart : ∀ request, (w.driver.start request w.host).driver.settings = w.driver.settings := by
    intro request
    cases hbuild : Plan.build request.config w.driver.settings.defaultEntry with
    | ok plan => rw [(LayoutDriver.start_of_build w.host hbuild).1]
    | error fault => rw [LayoutDriver.start_of_fault w.host hbuild]
  cases a with
  | event e =>
    left
    rcases LayoutDriver.handle_cases w.driver e w.host with
      ⟨hd, -⟩ | ⟨_, _, request, -, -, hd, -⟩ | ⟨id, -, hd, -⟩
    · rw [after, hd]
    · rw [after, hd, hstart]
    · rw [after, hd, LayoutDriver.settings_observe]
  | turn =>
    left
    rcases LayoutDriver.runScheduled_cases w.driver w.host with ⟨hd, -⟩ | ⟨_, -, -, -, hd, -⟩
    · rw [after, hd]
    · rw [after, hd]
  | start request =>
    left
    rw [after, hstart]
  | configure settings =>
    rw [after, LayoutDriver.setSettings_eq]
    split
    · rename_i hvalid
      exact .inr ⟨settings, rfl, hvalid, rfl⟩
    · exact .inl rfl
  | detach => exact .inl rfl
  | host next => exact .inl rfl

/-- **The settings of a driver stay valid,** whatever happens. -/
theorem Scene.validate_after {w : Scene H} (h : w.driver.settings.validate = .ok ())
    (a : Happening H) : (w.after a).driver.settings.validate = .ok () := by
  rcases w.settings_after a with hsame | ⟨settings, -, hvalid, hnew⟩
  · rw [hsame]
    exact h
  · rw [hnew]
    exact hvalid

/-- A request without an entry mode is not rejected for one if the settings name a mode. -/
theorem LayoutDriver.start_ne_unknownMode {driver : LayoutDriver}
    (h : driver.settings.validate = .ok ()) {request : LayoutRequest}
    (hentry : request.config.entry = none) (host : H) (name : String) :
    (driver.start request host).answer ≠ .error (.unknownMode name) := by
  obtain ⟨mode, hmode⟩ := driver.settings.validate_eq_ok_iff.1 h
  have hnamed :
      Mode.parse? (request.config.entry.getD driver.settings.defaultEntry) = some mode := by
    rw [hentry]
    exact hmode
  rcases Plan.build_outcome hnamed with ⟨plan, hbuild, -⟩ | ⟨path, fault, hbuild, hfirst⟩
  · rw [LayoutDriver.answer_start_of_build hbuild]
    exact fun hfault => nomatch hfault
  · rw [LayoutDriver.start_of_fault host hbuild]
    rintro ⟨⟩
    rcases Node.faultAt?_eq_some_iff.1 hfirst.here with ⟨-, hfault⟩ | ⟨value, -, hfault⟩ <;>
      cases hfault

end Drivers

/-! ### What is said of a request that is rejected -/

/-- The fault for which a notice says that a layout is rejected. -/
def Notice.rejection? : Notice → Option LayoutFault
  | .layoutRejected fault => some fault
  | .requestRejected _ fault => some fault
  | _ => none

/-- **Quiet notices**: none of them says that a layout is rejected. -/
def Notice.Quiet (notices : List Notice) : Prop := ∀ n ∈ notices, n.rejection? = none

namespace Notice

@[simp] theorem quiet_nil : Quiet [] := by simp [Quiet]

@[simp] theorem quiet_cons_iff (n : Notice) (notices : List Notice) :
    Quiet (n :: notices) ↔ n.rejection? = none ∧ Quiet notices := by
  simp [Quiet]

@[simp] theorem quiet_append_iff (before after : List Notice) :
    Quiet (before ++ after) ↔ Quiet before ∧ Quiet after := by
  simp [Quiet, or_imp, forall_and]

end Notice

/-- The conversion of a layout says nothing of a rejection. -/
theorem Node.quiet_siteNotices (next : Nat) (sites : List Site) :
    Notice.Quiet (siteNotices next sites) := by
  induction sites generalizing next with
  | nil => exact Notice.quiet_nil
  | cons site sites ih => cases site <;> simp [siteNotices, Notice.rejection?, ih]

/-- Building a plan says nothing of a rejection. -/
theorem Plan.quiet_notices (config : LayoutConfig) (defaultEntry : String) :
    Notice.Quiet (Plan.notices config defaultEntry) := by
  rw [Plan.notices]
  cases config.entryMode defaultEntry with
  | error fault => exact Notice.quiet_nil
  | ok mode =>
    cases Plan.build config defaultEntry <;>
      simp [Node.notices, Node.quiet_siteNotices, Notice.rejection?]

/-- Looking for a request says nothing of a rejection. -/
theorem LayoutRequest.quiet_findNotices (text : String) : Notice.Quiet (findNotices text) := by
  rw [findNotices]
  cases locate text.toList with
  | absent => exact Notice.quiet_nil
  | incomplete => simp [Notice.rejection?]
  | payload raw => cases hparse : parse raw <;> simp [hparse, Notice.rejection?]

namespace Sequencer

/-- Taking up an instruction says nothing of a rejection. -/
theorem quiet_entryNotices (s : Sequencer) (i : Instruction) (left : Nat)
    (active : Option SessionId) : Notice.Quiet (s.entryNotices i left active) := by
  cases active with
  | none => simp [entryNotices, Notice.rejection?]
  | some id =>
    rw [entryNotices]
    split <;> simp [Notice.rejection?]

/-- An instruction that makes no call says nothing of a rejection. -/
theorem quiet_callNotices (s : Sequencer) (i : Instruction) : Notice.Quiet (s.callNotices i) := by
  cases i with
  | split mode p => exact Notice.quiet_nil
  | cmd p =>
    rw [callNotices]
    split <;> simp [Notice.rejection?]
  | jump p =>
    rw [callNotices]
    split <;> simp [Notice.rejection?]

/-- **Playing says nothing of a rejection.** -/
theorem quiet_drain {H : Type} [SessionHost H] (s : Sequencer) (queue : List Instruction)
    (host : H) : Notice.Quiet (s.drain queue host).notices := by
  induction queue generalizing s host with
  | nil => simp [drain, Notice.rejection?]
  | cons i rest ih =>
    rw [drain]
    split <;> simp [quiet_entryNotices, quiet_callNotices, ih]

/-- Beginning says nothing of a rejection. -/
theorem quiet_advance {H : Type} [SessionHost H] (s : Sequencer) (host : H) :
    Notice.Quiet (s.advance host).notices := by
  rw [advance]
  split
  · simp [Notice.rejection?]
  · exact quiet_drain _ _ _

end Sequencer

namespace LayoutDriver

variable {H : Type} [SessionHost H]

/-- Starting a request says nothing of a rejection; it is answered. -/
theorem quiet_start (driver : LayoutDriver) (request : LayoutRequest) (host : H) :
    Notice.Quiet (driver.start request host).notices := by
  have hreplaced : Notice.Quiet driver.replacementNotices := by
    rw [replacementNotices]
    cases driver.sequencer with
    | none => exact Notice.quiet_nil
    | some s => cases hfin : s.isFinished <;> simp [hfin, Notice.rejection?]
  have hplan := Plan.quiet_notices request.config driver.settings.defaultEntry
  rw [start]
  cases Plan.build request.config driver.settings.defaultEntry with
  | error fault =>
    simp only
    exact hplan
  | ok plan =>
    simp only [Notice.quiet_append_iff, Notice.quiet_cons_iff]
    exact ⟨⟨hplan, hreplaced⟩, rfl, Sequencer.quiet_advance _ _⟩

/-- **What is said of a request in output**: if a notice says that a layout is rejected, the request
that was found would be answered with the same fault. -/
theorem rejection_of_mem_handle {driver : LayoutDriver} {id : SessionId} {data : String}
    {request : LayoutRequest} (hfind : LayoutRequest.find? data = .ok (some request)) {host : H}
    {n : Notice} (hn : n ∈ (driver.handle (.dataReceived id data) host).notices)
    {fault : LayoutFault} (hfault : n.rejection? = some fault) :
    (driver.start request host).answer = .error fault := by
  cases hon : driver.settings.enabled with
  | false =>
    rw [handle_of_disabled hon] at hn
    simp at hn
  | true =>
    have hquiet : ∀ notices, Notice.Quiet notices → n ∉ notices := by
      intro notices hq hmem
      rw [hq n hmem] at hfault
      cases hfault
    simp only [handle, hon, Bool.not_true, Bool.false_eq_true, if_false, handleOutput, hfind,
      List.mem_append, List.mem_cons] at hn
    rcases hn with hn | rfl | hn | hn
    · exact absurd hn (hquiet _ (LayoutRequest.quiet_findNotices data))
    · cases hfault
    · exact absurd hn (hquiet _ (quiet_start driver request host))
    · cases hanswer : (driver.start request host).answer with
      | ok _ => simp [hanswer] at hn
      | error other =>
        simp only [hanswer, List.mem_cons, List.not_mem_nil, or_false] at hn
        rcases hn with rfl | rfl <;> exact congrArg _ (Option.some.inj hfault)

end LayoutDriver

/-! ### The whole -/

/-- **Settings name a mode.** Settings are valid exactly if a mode has the name that they give; the
settings that are loaded from a file, whatever stands in it, name one. A driver that starts out with
loaded settings goes on with valid ones whatever happens to it, be it told of others. So a request
that names no entry mode is never rejected for an unknown one, neither in the answer to it nor, if
it is found in output, in what is said of it. -/
theorem loaded_settings_name_a_mode {H : Type} [SessionHost H] :
    (∀ settings : Settings, settings.validate = .ok () ↔
      ∃ mode, Mode.parse? settings.defaultEntry = some mode) ∧
    (∀ tree path settings, Settings.load tree path = .ok settings →
      ∃ mode, Mode.parse? settings.defaultEntry = some mode) ∧
    ∀ tree path settings, Settings.load tree path = .ok settings →
      ∀ (host : H) (w : Scene H), Scene.Reaches (fun _ _ => True) ⟨.new settings, host⟩ w →
        ∀ request : LayoutRequest, request.config.entry = none →
          (∀ name, (w.driver.start request w.host).answer ≠ .error (.unknownMode name)) ∧
          ∀ id data, LayoutRequest.find? data = .ok (some request) →
            ∀ n ∈ (w.driver.handle (.dataReceived id data) w.host).notices,
              ∀ name, n.rejection? ≠ some (.unknownMode name) := by
  refine ⟨Settings.validate_eq_ok_iff, fun tree path settings hload => ?_,
    fun tree path settings hload host w hrun request hentry => ?_⟩
  · exact settings.validate_eq_ok_iff.1 (Settings.validate_of_load hload)
  · have hvalid : w.driver.settings.validate = .ok () :=
      hrun.invariant (P := fun w => w.driver.settings.validate = .ok ())
        (Settings.validate_of_load hload) fun h _ => Scene.validate_after h _
    have hanswer := LayoutDriver.start_ne_unknownMode hvalid hentry w.host
    refine ⟨hanswer, fun id data hfind n hn name hfault => hanswer name ?_⟩
    exact LayoutDriver.rejection_of_mem_handle hfind hn hfault

end PaneLayout
