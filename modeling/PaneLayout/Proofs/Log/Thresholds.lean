import Mathlib.Data.List.Induction
import PaneLayout.Log.Logger

set_option autoImplicit false

/-!
# The two thresholds of the log

A record of the general log has two thresholds to pass: the limit of the general log and the level
of the debug log. Every installation of the bridge may set the level, but the limit is that of the
first installation. So the lower of the two decides, and the file follows the level only as long as
this is not raised above what it was behind the first installation.

## Main definitions

* `PaneLayout.Log.Deed` — what a process does with its log.
* `PaneLayout.Log.Journal.after` — the journal behind some deeds.
* `PaneLayout.Log.Deed.installations` — the numbers given to the installations among some deeds.
* `PaneLayout.Log.Level.setBy` — the level that some installations leave.
* `PaneLayout.Log.Logger.Follows`, `PaneLayout.Log.Journal.Follows` — what is known of the logger
  when the installations are known.
* `PaneLayout.Log.Journal.Reaches` — a record of the general log is written into the file.

## Main results

* `PaneLayout.Log.Journal.follows_after` — what is known of the logger behind any deeds.
* `PaneLayout.Log.Journal.file_follows_level_iff` — which records reach the file, and when the level
  alone decides this.
-/

namespace PaneLayout.Log

/-! ### Deeds -/

/-- **Deeds** of a process with its log, each done at some time: it installs the bridge, asks
whether a level is enabled, or writes a record. -/
inductive Deed where
  | install (clock : String) (number : Option Nat)
  | ask (clock : String)
  | write (clock : String) (record : Record)

/-- What a deed makes of the journal. -/
def Deed.on (journal : Journal) : Deed → Journal
  | install clock number => journal.update clock (·.installBridge clock number)
  | ask clock => journal.update clock id
  | write clock record => journal.write clock record

/-- The journal behind some deeds, in a process that starts with this environment. -/
def Journal.after (setting : Option String) (deeds : List Deed) : Journal :=
  deeds.foldl Deed.on (.ofEnvironment setting)

/-- The number that an installation is given. -/
def Deed.installation? : Deed → Option (Option Nat)
  | install _ number => some number
  | ask _ => none
  | write _ _ => none

/-- The numbers given to the installations among some deeds. -/
def Deed.installations (deeds : List Deed) : List (Option Nat) := deeds.filterMap installation?

/-- The level behind an installation: a given number replaces it. -/
def Level.set (level : Level) (number : Option Nat) : Level := (number.map ofNumber).getD level

/-- The level behind some installations. -/
def Level.setBy (level : Level) (numbers : List (Option Nat)) : Level := numbers.foldl set level

theorem Journal.after_concat (setting : Option String) (deeds : List Deed) (deed : Deed) :
    after setting (deeds ++ [deed]) = deed.on (after setting deeds) := by
  simp [after]

theorem Level.setBy_concat (level : Level) (numbers : List (Option Nat)) (number : Option Nat) :
    level.setBy (numbers ++ [number]) = (level.setBy numbers).set number := by
  simp [setBy]

/-- Every level but `off` is that of some severity. -/
theorem Level.exists_ofSeverity {level : Level} (h : level ≠ .off) :
    ∃ severity, ofSeverity severity = level := by
  cases level with
  | off => contradiction
  | error => exact ⟨.error, rfl⟩
  | info => exact ⟨.info, rfl⟩
  | debug => exact ⟨.debug, rfl⟩
  | trace => exact ⟨.trace, rfl⟩

/-! ### What is known of the logger -/

/-- **What is known of the logger** when the environment asks for a level and the bridge has been
installed with these numbers: the last number decides the level, the first installation the limit,
and the file is open if there is anything to write. -/
structure Logger.Follows (environment : Level) (numbers : List (Option Nat)) (logger : Logger) :
    Prop where
  level : logger.level = environment.setBy numbers
  bridged : logger.bridged = !numbers.isEmpty
  limit : logger.limit = numbers.head?.bind fun number => (environment.set number).severity?
  isOpen : logger.level ≠ .off → logger.file.isSome

namespace Logger

variable {environment : Level} {numbers : List (Option Nat)} {logger : Logger}

/-- Opening the file changes nothing but the file. -/
theorem opened_eq (clock : String) (logger : Logger) :
    ∃ file, logger.opened clock = { logger with file := file } ∧
      (logger.level ≠ .off → file.isSome) := by
  unfold opened
  split
  · exact ⟨_, rfl, fun _ => rfl⟩
  · next hclosed =>
    refine ⟨logger.file, rfl, fun hlevel => ?_⟩
    by_contra hnone
    exact hclosed ⟨by simpa using hnone, hlevel⟩

/-- A line is not empty. -/
theorem length_line_pos (clock : String) (level : Level) (category text : String) :
    0 < (line clock level category text).length := by
  have hbreak : (toString "\n").length = 1 := rfl
  simp only [line, String.length_append, hbreak]
  omega

/-- Writing a line changes nothing but the file, and leaves it open. -/
theorem put_eq (clock : String) (level : Level) (category text : String) (logger : Logger) :
    ∃ file, logger.put clock level category text = { logger with file := file } ∧
      file.isSome = logger.file.isSome := by
  unfold put
  split
  · exact ⟨_, rfl, Option.isSome_map⟩
  · exact ⟨logger.file, rfl, rfl⟩

/-- What is known does not speak of the text of the file. -/
theorem Follows.withFile {file : Option String} (h : logger.Follows environment numbers)
    (hfile : file.isSome = logger.file.isSome) :
    ({ logger with file := file } : Logger).Follows environment numbers :=
  ⟨h.level, h.bridged, h.limit, fun hlevel => by rw [hfile]; exact h.isOpen hlevel⟩

/-- At first use the level is that of the environment. -/
theorem follows_start (clock : String) (environment : Level) :
    (start clock environment).Follows environment [] := by
  obtain ⟨file, heq, hopen⟩ := opened_eq clock ⟨environment, none, false, none⟩
  rw [start, heq]
  exact ⟨rfl, rfl, rfl, hopen⟩

/-- **Installing the bridge** sets the level, and the limit if it is not installed yet. -/
theorem installBridge_eq (clock : String) (number : Option Nat) (logger : Logger) :
    ∃ file, logger.installBridge clock number =
        { level := logger.level.set number
          limit := if logger.bridged then logger.limit else (logger.level.set number).severity?
          bridged := true
          file := file } ∧
      (logger.level.set number ≠ .off → file.isSome) := by
  obtain ⟨file, heq, hopen⟩ := opened_eq clock { logger with level := logger.level.set number }
  have hinstall : logger.installBridge clock number =
      let logger := opened clock { logger with level := logger.level.set number }
      if logger.bridged then logger
      else { logger with bridged := true, limit := logger.level.severity? } := by
    cases number <;> rfl
  refine ⟨file, ?_, hopen⟩
  rw [hinstall, heq]
  cases hbridged : logger.bridged <;> simp

/-- **One more installation.** -/
theorem Follows.installBridge (h : logger.Follows environment numbers) (clock : String)
    (number : Option Nat) :
    (logger.installBridge clock number).Follows environment (numbers ++ [number]) := by
  have hlevel : logger.level.set number = environment.setBy (numbers ++ [number]) := by
    rw [Level.setBy_concat, h.level]
  obtain ⟨file, heq, hopen⟩ := installBridge_eq clock number logger
  rw [heq]
  refine ⟨hlevel, by simp, ?_, hopen⟩
  cases numbers with
  | nil => simp [h.bridged, h.level, Level.setBy]
  | cons first later => simp [h.bridged, h.limit]

/-- Records change nothing that is known. -/
theorem Follows.write (h : logger.Follows environment numbers) (clock : String) (record : Record) :
    (logger.write clock record).Follows environment numbers := by
  have hput : ∀ level category text,
      (logger.put clock level category text).Follows environment numbers := by
    intro level category text
    obtain ⟨file, heq, hfile⟩ := put_eq clock level category text logger
    rw [heq]
    exact h.withFile hfile
  cases record with
  | debug level category text => exact hput level category text
  | general severity source text =>
    rw [Logger.write]
    split
    · exact hput (.ofSeverity severity) source text
    · exact h

/-- **The lower threshold decides** which severities reach the file. -/
theorem Follows.isBridged_iff {first : Option Nat} {later : List (Option Nat)}
    (h : logger.Follows environment (first :: later)) (severity : Severity) :
    logger.isBridged severity = true ↔
      (Level.ofSeverity severity).rank ≤ min (environment.set first).rank logger.level.rank := by
  have hpasses : logger.passes severity = true ↔
      (Level.ofSeverity severity).rank ≤ (environment.set first).rank := by
    have hlimit : logger.limit = (environment.set first).severity? := h.limit
    rw [Level.rank_ofSeverity_le_iff, passes, hlimit]
    cases (environment.set first).severity? <;> simp
  have hnotOff : Level.ofSeverity severity ≠ .off := by cases severity <;> decide
  rw [Nat.le_min, ← hpasses]
  simp [isBridged, h.bridged, isEnabled, hnotOff]

end Logger

/-! ### Whole processes -/

/-- What is known of a journal: what is known of its logger, which is there once the bridge has been
installed. -/
structure Journal.Follows (environment : Level) (numbers : List (Option Nat)) (journal : Journal) :
    Prop where
  start : journal.environment = environment
  known : ∀ logger, journal.logger = some logger → logger.Follows environment numbers
  unused : journal.logger = none → numbers = []

/-- A record of the general log **reaches the file**: its line is put behind what is there. -/
def Journal.Reaches (journal : Journal) (clock : String) (severity : Severity)
    (source text : String) : Prop :=
  ∃ before, journal.text? = some before ∧
    (journal.write clock (.general severity source text)).text? =
      some (before ++ Logger.line clock (.ofSeverity severity) source text)

namespace Journal

variable {environment : Level} {numbers : List (Option Nat)} {journal : Journal}

/-- What is known of the logger that is used, which may have to be started. -/
theorem Follows.ofUsed (h : journal.Follows environment numbers) (clock : String) :
    (journal.used clock).Follows environment numbers := by
  cases hlogger : journal.logger with
  | none =>
    rw [Journal.used, hlogger, Option.getD_none, h.start, h.unused hlogger]
    exact Logger.follows_start clock environment
  | some logger =>
    rw [Journal.used, hlogger, Option.getD_some]
    exact h.known logger hlogger

/-- What an operation on the logger leaves known of it is known of the journal. -/
theorem Follows.update {numbers' : List (Option Nat)} {f : Logger → Logger} {clock : String}
    (h : journal.Follows environment numbers)
    (hf : (f (journal.used clock)).Follows environment numbers') :
    (journal.update clock f).Follows environment numbers' :=
  ⟨h.start, by rintro _ ⟨⟩; exact hf, nofun⟩

/-- **One deed**: only an installation changes what is known. -/
theorem Follows.on (h : journal.Follows environment numbers) (deed : Deed) :
    (deed.on journal).Follows environment (numbers ++ Deed.installations [deed]) := by
  cases deed with
  | install clock number => exact h.update ((h.ofUsed clock).installBridge clock number)
  | ask clock =>
    rw [show Deed.installations [.ask clock] = [] from rfl, List.append_nil]
    exact h.update (h.ofUsed clock)
  | write clock record =>
    rw [show Deed.installations [.write clock record] = [] from rfl, List.append_nil]
    rw [Deed.on, Journal.write.eq_def]
    split
    · exact h
    · exact h.update ((h.ofUsed clock).write clock _)

/-- **Any deeds**: what is known of the logger is read off the environment and the installations. -/
theorem follows_after (setting : Option String) (deeds : List Deed) :
    (after setting deeds).Follows (.ofEnvironment setting) (Deed.installations deeds) := by
  induction deeds using List.reverseRecOn with
  | nil => exact ⟨rfl, nofun, fun _ => rfl⟩
  | append_singleton deeds deed ih =>
    rw [after_concat, Deed.installations, List.filterMap_append]
    exact ih.on deed

/-- With a logger that is there, a record of the general log reaches the file if the bridge takes
it, and otherwise changes nothing. -/
theorem reaches_iff {logger : Logger} (h : journal.logger = some logger)
    (hopen : logger.level ≠ .off → logger.file.isSome) (clock : String) (severity : Severity)
    (source text : String) :
    (journal.Reaches clock severity source text ↔ logger.isBridged severity = true) ∧
      (¬ logger.isBridged severity = true →
        journal.write clock (.general severity source text) = journal) := by
  have hwrite : journal.write clock (.general severity source text) =
      { journal with logger := some (logger.write clock (.general severity source text)) } := by
    rw [Journal.write.eq_def, h]
    simp [Journal.update, Journal.used, h]
  have htext : journal.text? = logger.file := by rw [text?, h, Option.bind_some]
  by_cases hbridged : logger.isBridged severity = true
  · refine ⟨iff_of_true ?_ hbridged, absurd hbridged⟩
    have henabled : logger.isEnabled (.ofSeverity severity) = true := by
      simp only [Logger.isBridged, Bool.and_eq_true] at hbridged
      exact hbridged.2
    have hlevel : logger.level ≠ .off := by
      intro hoff
      cases severity <;> simp [Logger.isEnabled, hoff, Level.ofSeverity, Level.rank] at henabled
    obtain ⟨before, hbefore⟩ := Option.isSome_iff_exists.1 (hopen hlevel)
    refine ⟨before, htext.trans hbefore, ?_⟩
    rw [hwrite, Logger.write, if_pos hbridged, Logger.put, if_pos henabled, text?]
    simp [hbefore]
  · have hsame : journal.write clock (.general severity source text) = journal := by
      rw [hwrite, Logger.write, if_neg hbridged, ← h]
    refine ⟨iff_of_false ?_ hbridged, fun _ => hsame⟩
    -- a line is not empty, so the file does not end with it by staying as it is
    rintro ⟨before, hbefore, hafter⟩
    rw [hsame, hbefore, Option.some.injEq] at hafter
    have hlength := congrArg String.length hafter
    rw [String.length_append] at hlength
    have hline := Logger.length_line_pos clock (.ofSeverity severity) source text
    omega

section Installed

variable {setting : Option String} {deeds : List Deed} {first : Option Nat}
  {later : List (Option Nat)}

/-- Once the bridge has been installed, there is a logger. -/
theorem exists_follows_after (h : Deed.installations deeds = first :: later) :
    ∃ logger, (after setting deeds).logger = some logger ∧
      logger.Follows (.ofEnvironment setting) (first :: later) := by
  have hfollows : (after setting deeds).Follows (.ofEnvironment setting) (first :: later) :=
    h ▸ follows_after setting deeds
  obtain ⟨logger, hlogger⟩ : ∃ logger, (after setting deeds).logger = some logger :=
    Option.ne_none_iff_exists'.1 fun hnone => by simpa using hfollows.unused hnone
  exact ⟨logger, hlogger, hfollows.known logger hlogger⟩

/-- Its level is the one that the installations leave. -/
theorem level_after (h : Deed.installations deeds = first :: later) :
    (after setting deeds).logger.map Logger.level =
      some (((Level.ofEnvironment setting).set first).setBy later) := by
  obtain ⟨logger, hlogger, hknown⟩ := exists_follows_after h
  rw [hlogger, Option.map_some, hknown.level]
  rfl

/-- **Both thresholds**: a record reaches the file if it is neither above the level behind the first
installation nor above the level that all of them leave. Otherwise it changes nothing. -/
theorem reaches_after_iff (h : Deed.installations deeds = first :: later) (clock : String)
    (severity : Severity) (source text : String) :
    ((after setting deeds).Reaches clock severity source text ↔
      (Level.ofSeverity severity).rank ≤ min ((Level.ofEnvironment setting).set first).rank
        (((Level.ofEnvironment setting).set first).setBy later).rank) ∧
      (¬ (after setting deeds).Reaches clock severity source text →
        (after setting deeds).write clock (.general severity source text) =
          after setting deeds) := by
  obtain ⟨logger, hlogger, hknown⟩ := exists_follows_after h
  obtain ⟨hreaches, hstays⟩ := reaches_iff hlogger hknown.isOpen clock severity source text
  have hlevel : logger.level = ((Level.ofEnvironment setting).set first).setBy later :=
    hknown.level
  refine ⟨?_, fun hnot => hstays (mt hreaches.2 hnot)⟩
  rw [hreaches, hknown.isBridged_iff, hlevel]

end Installed

/-- **Which records reach the file.** Behind at least one installation of the bridge, the level is
the one that the installations leave of that of the environment. A record of the general log
reaches the file exactly if its level is neither above this one nor above the level behind the first
installation, and changes nothing otherwise. So the level alone decides which records reach the file
exactly if it is not above what it was behind the first installation.

**Proof sketch.** What is known of the logger (`follows_after`) gives both thresholds
(`reaches_after_iff`). If the level alone decides, a record of this very level reaches the file, so
the level is not above the limit. -/
theorem file_follows_level_iff (setting : Option String) (deeds : List Deed) (first : Option Nat)
    (later : List (Option Nat)) (h : Deed.installations deeds = first :: later) :
    let journal := after setting deeds
    let atFirst := (Level.ofEnvironment setting).set first
    let now := atFirst.setBy later
    journal.logger.map Logger.level = some now ∧
    (∀ clock severity source text,
      (journal.Reaches clock severity source text ↔
        (Level.ofSeverity severity).rank ≤ min atFirst.rank now.rank) ∧
      (¬ journal.Reaches clock severity source text →
        journal.write clock (.general severity source text) = journal)) ∧
    ((∀ clock severity source text, journal.Reaches clock severity source text ↔
        (Level.ofSeverity severity).rank ≤ now.rank) ↔
      now.rank ≤ atFirst.rank) := by
  intro journal atFirst now
  have hreaches : ∀ clock severity source text,
      journal.Reaches clock severity source text ↔
        (Level.ofSeverity severity).rank ≤ min atFirst.rank now.rank :=
    fun clock severity source text => (reaches_after_iff h clock severity source text).1
  refine ⟨level_after h, fun clock severity source text => reaches_after_iff h clock severity
    source text, fun hagree => ?_, fun hle => ?_⟩
  · by_cases hoff : now = .off
    · simp [hoff, Level.rank]
    · obtain ⟨severity, hseverity⟩ := Level.exists_ofSeverity hoff
      have hreach := (hagree "" severity "" "").2 (Nat.le_of_eq (congrArg Level.rank hseverity))
      rw [hreaches, hseverity] at hreach
      exact Nat.le_trans hreach (Nat.min_le_left _ _)
  · intro clock severity source text
    rw [hreaches, Nat.min_eq_right hle]

/-- A level that is lowered and raised again, but not above the first one, is followed. -/
theorem file_follows_lowered_level :
    let deeds := [Deed.write "0" (.debug .info "A" "a"), .install "1" (some 3),
      .install "2" (some 1), .ask "3", .install "4" none, .install "5" (some 2)]
    Deed.installations deeds = some 3 :: [some 1, none, some 2] ∧
      (after none deeds).logger.map Logger.level = some .info ∧
      (after none deeds).Reaches "6" .warn "t" "x" ∧
      ¬ (after none deeds).Reaches "6" .debug "t" "x" := by
  intro deeds
  have h : Deed.installations deeds = some 3 :: [some 1, none, some 2] := rfl
  obtain ⟨hlevel, -, hfollows⟩ :=
    file_follows_level_iff none deeds (some 3) [some 1, none, some 2] h
  have hagree := hfollows.2 (by decide)
  refine ⟨h, hlevel, (hagree _ _ _ _).2 (by decide), mt (hagree _ _ _ _).1 (by decide)⟩

/-- **A raised level is not followed.** The bridge is installed with the number 1 and then with the
number 3. The level is then that of debug records, but none of them reaches the file. -/
theorem file_misses_raised_level :
    let journal := after none [.install "1" (some 1), .install "2" (some 3)]
    journal.logger.map Logger.level = some .debug ∧
      (Level.ofSeverity .debug).rank ≤ Level.debug.rank ∧
      journal.write "3" (.general .debug "t" "x") = journal ∧
      ¬ journal.Reaches "3" .debug "t" "x" := by
  intro journal
  have h : Deed.installations [.install "1" (some 1), .install "2" (some 3)] =
      some 1 :: [some 3] := rfl
  obtain ⟨hreaches, hstays⟩ := reaches_after_iff h "3" .debug "t" "x"
  have hnot : ¬ journal.Reaches "3" .debug "t" "x" := mt hreaches.1 (by decide)
  exact ⟨level_after h, Nat.le_refl _, hstays hnot, hnot⟩

end Journal

end PaneLayout.Log
