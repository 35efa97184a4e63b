import PaneLayout.Proofs.Settings.Rows

set_option autoImplicit false

/-!
# Partial settings files

A settings file may leave out any of the settings, name them in any order, and hold empty lines and
comments between them. It is then valid, and what it leaves out is what the standard settings say.

## Main definitions

* `PaneLayout.Settings.Line` — the lines of such a file.
* `PaneLayout.Settings.Consists` — a text that consists of some lines.
* `PaneLayout.Settings.Partial` — lines that name every setting at most once.
* `PaneLayout.Settings.listed` — the settings that they stand for.

## Main results

* `PaneLayout.Settings.Consists.flat` — such a text is a flat mapping.
* `PaneLayout.Settings.partial_files_are_valid` — its settings are the listed ones.
-/

namespace PaneLayout.Settings

open Yaml (IsLineEnd Row Flat PlainText)

/-! ### Lines of a settings file -/

/-- **Lines.** Some spaces, a comment, or one of the settings. -/
inductive Line where
  | blank (spaces : Nat)
  | comment (text : List Char)
  | enabled (value : Bool)
  | defaultEntry (name : String)
  | hideFromHistory (value : Bool)
  deriving DecidableEq, Repr

namespace Line

/-- What is written in a line. -/
def chars : Line → List Char
  | .blank spaces => List.replicate spaces ' '
  | .comment text => '#' :: text
  | .enabled value => "enabled".toList ++ ':' :: ' ' :: truthWord value
  | .defaultEntry name => "default_entry".toList ++ ':' :: ' ' :: name.toList
  | .hideFromHistory value => "hide_from_history".toList ++ ':' :: ' ' :: truthWord value

/-- Whether the line says that requests are acted upon. -/
def enabled? : Line → Option Bool
  | .enabled value => some value
  | _ => none

/-- The entry mode that the line names. -/
def defaultEntry? : Line → Option String
  | .defaultEntry name => some name
  | _ => none

/-- Whether the line says that commands are kept out of the history. -/
def hideFromHistory? : Line → Option Bool
  | .hideFromHistory value => some value
  | _ => none

/-- The row that the line holds. -/
def row? : Line → Option Row
  | .blank _ => none
  | .comment _ => none
  | .enabled value => some ⟨"enabled".toList, .plain, truthWord value⟩
  | .defaultEntry name => some ⟨"default_entry".toList, .plain, name.toList⟩
  | .hideFromHistory value => some ⟨"hide_from_history".toList, .plain, truthWord value⟩

/-- **Proper lines**: comments are printable ASCII, and entry modes have one of the known names. -/
def Proper : Line → Prop
  | .comment text => ∀ c ∈ text, 0x20 ≤ c.toNat ∧ c.toNat ≤ 0x7E
  | .defaultEntry name => name ∈ entryNames
  | _ => True

end Line

/-- **A text consists of lines**: the last one stands without an end, and nothing may be written in
it. -/
inductive Consists : List Line → List Char → Prop where
  | last (l : Line) : Consists [l] l.chars
  | line {l : Line} {ls : List Line} {e s : List Char} :
    IsLineEnd e → Consists ls s → Consists (l :: ls) (l.chars ++ (e ++ s))

/-- **Partial lines**: they are proper, and every setting is named at most once. -/
structure Partial (ls : List Line) : Prop where
  proper : ∀ l ∈ ls, l.Proper
  enabled : (ls.filterMap Line.enabled?).length ≤ 1
  defaultEntry : (ls.filterMap Line.defaultEntry?).length ≤ 1
  hideFromHistory : (ls.filterMap Line.hideFromHistory?).length ≤ 1

/-- **The settings that some lines stand for,** completed by the standard ones. -/
def listed (ls : List Line) : Settings :=
  ⟨(ls.filterMap Line.enabled?).head?.getD true,
    (ls.filterMap Line.defaultEntry?).head?.getD "tab",
    (ls.filterMap Line.hideFromHistory?).head?.getD false⟩

/-! ### The rows of a settings file -/

/-- No printable character of ASCII ends a line. -/
theorem isBreak_of_printable {c : Char} (h : 0x20 ≤ c.toNat ∧ c.toNat ≤ 0x7E) :
    Yaml.isBreak c = false := by
  rw [← Bool.not_eq_true]
  intro hbreak
  simp only [Yaml.isBreak, Bool.or_eq_true, beq_iff_eq] at hbreak
  rcases hbreak with (((rfl | rfl) | rfl) | rfl) | rfl <;> exact absurd h (by decide)

/-- Every printable character of ASCII may stand in a text. -/
theorem isAllowed_of_printable {c : Char} (h : 0x20 ≤ c.toNat ∧ c.toNat ≤ 0x7E) :
    Yaml.isAllowed c = true := by
  simp [Yaml.isAllowed, h]

namespace Line

/-- **A line that holds a row** is the key, a colon and a plain text. -/
theorem chars_of_row {l : Line} {r : Row} (h : l.row? = some r) (hl : l.Proper) :
    l.chars = r.key ++ ':' :: ' ' :: r.text ∧ Yaml.IsKey r.key ∧ PlainText r.text ∧
      r.style = .plain := by
  cases l with
  | blank spaces => cases h
  | comment text => cases h
  | enabled value =>
    obtain rfl := Option.some.inj h
    exact ⟨rfl, isKey "enabled" (by decide), plainText_truthWord value, rfl⟩
  | defaultEntry name =>
    obtain rfl := Option.some.inj h
    exact ⟨rfl, isKey "default_entry" (by decide),
      plainText name (List.mem_cons_of_mem _ (List.mem_cons_of_mem _ hl)), rfl⟩
  | hideFromHistory value =>
    obtain rfl := Option.some.inj h
    exact ⟨rfl, isKey "hide_from_history" (by decide), plainText_truthWord value, rfl⟩

/-- **A line that holds no row** is silent. -/
theorem silent_of_row {l : Line} (h : l.row? = none) (hl : l.Proper) : Yaml.Silent l.chars := by
  cases l with
  | blank spaces => exact .inl fun c hc => List.eq_of_mem_replicate hc
  | comment text =>
    exact .inr ⟨text, rfl, fun c hc => isBreak_of_printable (hl c hc)⟩
  | enabled value => cases h
  | defaultEntry name => cases h
  | hideFromHistory value => cases h

end Line

/-- **A text of proper lines is a flat mapping** of their rows. -/
theorem Consists.flat {ls : List Line} {s : List Char} (h : Consists ls s)
    (hls : ∀ l ∈ ls, l.Proper) : Flat s (ls.filterMap Line.row?) := by
  induction h with
  | last l =>
    have hl := hls l List.mem_cons_self
    cases hrow : l.row? with
    | none =>
      rw [List.filterMap_cons_none hrow]
      exact .last (Line.silent_of_row hrow hl)
    | some r =>
      obtain ⟨hchars, hkey, htext, hstyle⟩ := Line.chars_of_row hrow hl
      rw [List.filterMap_cons_some hrow, hchars, ← List.append_nil r.text]
      refine .row hkey ?_ (.last (.inl fun c hc => nomatch hc))
      rw [hstyle]
      exact Yaml.readsAs_plain_last htext
  | @line l ls e s he _ ih =>
    have hl := hls l List.mem_cons_self
    have hrest := ih fun m hm => hls m (List.mem_cons_of_mem l hm)
    cases hrow : l.row? with
    | none =>
      rw [List.filterMap_cons_none hrow]
      exact .silent (Line.silent_of_row hrow hl) he hrest
    | some r =>
      obtain ⟨hchars, hkey, htext, hstyle⟩ := Line.chars_of_row hrow hl
      rw [List.filterMap_cons_some hrow, hchars, List.append_assoc, List.cons_append,
        List.cons_append, ← List.append_assoc r.text]
      refine .row hkey ?_ hrest
      rw [hstyle]
      exact Yaml.readsAs_plain htext he hrest.endsPlain

/-- The characters of a proper line may stand in a text. -/
theorem Line.isAllowed {l : Line} (hl : l.Proper) : ∀ c ∈ l.chars, Yaml.isAllowed c = true := by
  have hnames : ∀ name ∈ entryNames, name.toList.all Yaml.isAllowed = true := by decide
  have hcolon : ∀ s : List Char, (∀ c ∈ s, Yaml.isAllowed c = true) →
      ∀ c ∈ ':' :: ' ' :: s, Yaml.isAllowed c = true := fun s hs =>
    List.forall_mem_cons.2 ⟨rfl, List.forall_mem_cons.2 ⟨rfl, hs⟩⟩
  cases l with
  | blank spaces =>
    intro c hc
    obtain rfl := List.eq_of_mem_replicate hc
    rfl
  | comment text =>
    exact List.forall_mem_cons.2 ⟨rfl, fun c hc => isAllowed_of_printable (hl c hc)⟩
  | enabled value =>
    exact List.forall_mem_append.2
      ⟨forall_mem_of_all (by decide), hcolon _ (isAllowed_truthWord value)⟩
  | defaultEntry name =>
    exact List.forall_mem_append.2
      ⟨forall_mem_of_all (by decide), hcolon _ (List.all_eq_true.1 (hnames name hl))⟩
  | hideFromHistory value =>
    exact List.forall_mem_append.2
      ⟨forall_mem_of_all (by decide), hcolon _ (isAllowed_truthWord value)⟩

/-- The characters of proper lines may stand in a text. -/
theorem Consists.isAllowed {ls : List Line} {s : List Char} (h : Consists ls s)
    (hls : ∀ l ∈ ls, l.Proper) : s.all Yaml.isAllowed = true := by
  rw [List.all_eq_true]
  induction h with
  | last l => exact Line.isAllowed (hls l List.mem_cons_self)
  | @line l ls e s he _ ih =>
    refine List.forall_mem_append.2 ⟨Line.isAllowed (hls l List.mem_cons_self),
      List.forall_mem_append.2 ⟨?_, ih fun m hm => hls m (List.mem_cons_of_mem l hm)⟩⟩
    rcases he with rfl | rfl <;> exact forall_mem_of_all (by decide)

/-! ### What is found -/

/-- **What is found in some rows** is what is said of every setting, if no setting is named twice
or was found before. -/
theorem foldlM_readRow {ls : List Line} (found : Found)
    (henabled : (found.enabled.toList ++ ls.filterMap Line.enabled?).length ≤ 1)
    (hentry : (found.defaultEntry.toList ++ ls.filterMap Line.defaultEntry?).length ≤ 1)
    (hhide : (found.hideFromHistory.toList ++ ls.filterMap Line.hideFromHistory?).length ≤ 1) :
    (ls.filterMap Line.row?).foldlM readRow found = some
      ⟨(found.enabled.toList ++ ls.filterMap Line.enabled?).head?,
        (found.defaultEntry.toList ++ ls.filterMap Line.defaultEntry?).head?,
        (found.hideFromHistory.toList ++ ls.filterMap Line.hideFromHistory?).head?⟩ := by
  induction ls generalizing found with
  | nil =>
    obtain ⟨enabled, entry, hide⟩ := found
    cases enabled <;> cases entry <;> cases hide <;> rfl
  | cons l ls ih =>
    cases l with
    | blank spaces => exact ih found henabled hentry hhide
    | comment text => exact ih found henabled hentry hhide
    | enabled value =>
      obtain ⟨_ | earlier, entry, hide⟩ := found
      · rw [List.filterMap_cons_some (f := Line.row?) rfl, List.foldlM_cons,
          readRow_enabled value entry hide]
        exact ih ⟨some value, entry, hide⟩ henabled hentry hhide
      · simp [Line.enabled?] at henabled
    | defaultEntry name =>
      obtain ⟨enabled, _ | earlier, hide⟩ := found
      · rw [List.filterMap_cons_some (f := Line.row?) rfl, List.foldlM_cons,
          readRow_defaultEntry .plain name enabled hide]
        exact ih ⟨enabled, some name, hide⟩ henabled hentry hhide
      · simp [Line.defaultEntry?] at hentry
    | hideFromHistory value =>
      obtain ⟨enabled, entry, _ | earlier⟩ := found
      · rw [List.filterMap_cons_some (f := Line.row?) rfl, List.foldlM_cons,
          readRow_hideFromHistory value enabled entry]
        exact ih ⟨enabled, entry, some value⟩ henabled hentry hhide
      · simp [Line.hideFromHistory?] at hhide

/-! ### The whole -/

/-- What is written in a line is written in the text. -/
theorem Consists.mem_of_mem {ls : List Line} {s : List Char} (h : Consists ls s) {l : Line}
    (hl : l ∈ ls) {c : Char} (hc : c ∈ l.chars) : c ∈ s := by
  induction h with
  | last m =>
    obtain rfl := List.mem_singleton.1 hl
    exact hc
  | line he _ ih =>
    rcases List.mem_cons.1 hl with rfl | hl
    · exact List.mem_append_left _ hc
    · exact List.mem_append_right _ (List.mem_append_right _ (ih hl))

/-- Something is written in every line that names a setting. -/
theorem Line.exists_shown {l : Line} (h : l.row?.isSome) :
    ∃ c ∈ l.chars, Text.isBlank c = false := by
  cases l with
  | blank spaces => cases h
  | comment text => cases h
  | enabled value => exact ⟨'e', List.mem_append_left _ (by decide), rfl⟩
  | defaultEntry name => exact ⟨'e', List.mem_append_left _ (by decide), rfl⟩
  | hideFromHistory value => exact ⟨'o', List.mem_append_left _ (by decide), rfl⟩

/-- The lines of a text in which nothing is written name no setting. -/
theorem Consists.listed_of_blank {ls : List Line} {s : List Char} (h : Consists ls s)
    (hblank : ∀ c ∈ s, Text.isBlank c = true) : listed ls = standard := by
  have hnone : ∀ l ∈ ls, l.row? = none := by
    intro l hl
    rw [← Option.not_isSome_iff_eq_none]
    intro hrow
    obtain ⟨c, hc, hshown⟩ := Line.exists_shown hrow
    rw [hblank c (h.mem_of_mem hl hc)] at hshown
    cases hshown
  have hfields : ∀ l ∈ ls,
      l.enabled? = none ∧ l.defaultEntry? = none ∧ l.hideFromHistory? = none := by
    intro l hl
    have hrow := hnone l hl
    cases l with
    | blank spaces => exact ⟨rfl, rfl, rfl⟩
    | comment text => exact ⟨rfl, rfl, rfl⟩
    | enabled value => cases hrow
    | defaultEntry name => cases hrow
    | hideFromHistory value => cases hrow
  rw [listed, List.filterMap_eq_nil_iff.2 fun l hl => (hfields l hl).1,
    List.filterMap_eq_nil_iff.2 fun l hl => (hfields l hl).2.1,
    List.filterMap_eq_nil_iff.2 fun l hl => (hfields l hl).2.2]
  rfl

/-- The listed settings are valid. -/
theorem validate_listed {ls : List Line} (hls : ∀ l ∈ ls, l.Proper) :
    (listed ls).validate = .ok () := by
  have hknown : ∀ name ∈ entryNames, ∀ enabled hide,
      (Settings.mk enabled name hide).validate = .ok () := by decide
  refine hknown _ ?_ _ _
  cases hfirst : (ls.filterMap Line.defaultEntry?).head? with
  | none => decide
  | some name =>
    obtain ⟨l, hl, hname⟩ := List.mem_filterMap.1 (List.mem_of_mem_head? hfirst)
    cases l with
    | defaultEntry other =>
      obtain rfl := Option.some.inj hname
      exact hls _ hl
    | blank spaces => cases hname
    | comment text => cases hname
    | enabled value => cases hname
    | hideFromHistory value => cases hname

/-- **Partial settings files are valid.** If a file consists of lines each of which is empty, a
comment or one of the settings, in any order, and no setting is named twice, it is loaded: what it
names is set as it says, and what it does not name is as in the standard settings. The same holds if
nothing but blanks of any kind stands in the file.

**Proof sketch.** The text is a flat mapping (`Consists.flat`), and its rows are read one after the
other (`foldlM_readRow`). What is then filled in is the same that is taken when the file is
empty. -/
theorem partial_files_are_valid {tree : FileTree} {path : FilePath} {text : String}
    (hread : tree.read path = .ok text) :
    (∀ ls, Consists ls text.toList → Partial ls → load tree path = .ok (listed ls)) ∧
      ((∀ c ∈ text.toList, Text.isBlank c = true) → load tree path = .ok ⟨true, "tab", false⟩) := by
  refine ⟨fun ls hls hpartial => ?_, load_of_blank hread⟩
  by_cases hblank : ∀ c ∈ text.toList, Text.isBlank c = true
  · rw [load_of_blank hread hblank, hls.listed_of_blank hblank]
  · have hfound : (ls.filterMap Line.row?).foldlM readRow ⟨none, none, none⟩ = some
        ⟨(ls.filterMap Line.enabled?).head?, (ls.filterMap Line.defaultEntry?).head?,
          (ls.filterMap Line.hideFromHistory?).head?⟩ :=
      foldlM_readRow ⟨none, none, none⟩ hpartial.enabled hpartial.defaultEntry
        hpartial.hideFromHistory
    have hwritten : ∃ c ∈ text.toList, Text.isBlank c = false := by
      simpa using hblank
    have hload := load_of_flat hread (hls.flat hpartial.proper) (hls.isAllowed hpartial.proper)
      hfound hwritten
    have hlisted : ofFound ⟨(ls.filterMap Line.enabled?).head?,
      (ls.filterMap Line.defaultEntry?).head?, (ls.filterMap Line.hideFromHistory?).head?⟩ =
        listed ls := rfl
    rw [hload, hlisted, validate_listed hpartial.proper]

/-- The tree in which a file with the given text stands alone. -/
def aloneIn (text : String) : FileTree := ⟨[(["config.yaml"], .file (some text))]⟩

/-- A comment, two empty lines and two settings, of which the last line lacks its end. -/
theorem partial_files_are_valid_out_of_order :
    load (aloneIn "# mine\r\n\n  \nhide_from_history: true\nenabled: false") ⟨"config.yaml"⟩ =
      .ok ⟨false, "tab", true⟩ := by
  have hread : (aloneIn "# mine\r\n\n  \nhide_from_history: true\nenabled: false").read
      ⟨"config.yaml"⟩ = .ok "# mine\r\n\n  \nhide_from_history: true\nenabled: false" := by
    decide +kernel
  let ls : List Line := [.comment " mine".toList, .blank 0, .blank 2, .hideFromHistory true,
    .enabled false]
  have hlf : IsLineEnd ['\n'] := .inl rfl
  have hconsists : Consists ls
      "# mine\r\n\n  \nhide_from_history: true\nenabled: false".toList :=
    .line (l := .comment " mine".toList) (.inr rfl)
      (.line (l := .blank 0) hlf (.line (l := .blank 2) hlf
        (.line (l := .hideFromHistory true) hlf (.last (.enabled false)))))
  have hpartial : Partial ls := by
    refine ⟨?_, by decide, by decide, by decide⟩
    simp only [ls, List.forall_mem_cons]
    have hcomment : ∀ c ∈ " mine".toList, 0x20 ≤ c.toNat ∧ c.toNat ≤ 0x7E :=
      forall_mem_of_all (by decide)
    exact ⟨hcomment, trivial, trivial, trivial, trivial, by simp⟩
  exact (partial_files_are_valid hread).1 ls hconsists hpartial

/-- **A tab in a line of its own is not passed over** where a key may begin. So the file is no YAML
document, although only one setting is written in it. -/
theorem tab_alone_spoils_settings_file :
    (aloneIn "\t\nenabled: false\n").read ⟨"config.yaml"⟩ = .ok "\t\nenabled: false\n" ∧
      load (aloneIn "\t\nenabled: false\n") ⟨"config.yaml"⟩ =
        .error ⟨.parseSettings, ⟨"config.yaml"⟩, .yaml⟩ ∧
      load (aloneIn "\t\nenabled: false\n") ⟨"config.yaml"⟩ ≠ .ok ⟨false, "tab", false⟩ := by
  have hread : (aloneIn "\t\nenabled: false\n").read ⟨"config.yaml"⟩ =
    .ok "\t\nenabled: false\n" := by decide +kernel
  have hparse : parseYaml? "\t\nenabled: false\n" = none := by decide +kernel
  have hload : load (aloneIn "\t\nenabled: false\n") ⟨"config.yaml"⟩ =
      .error ⟨.parseSettings, ⟨"config.yaml"⟩, .yaml⟩ := by
    rw [load_of_written hread ⟨'e', by decide, rfl⟩, hparse]
  refine ⟨hread, hload, ?_⟩
  rw [hload]
  exact fun h => nomatch h

end PaneLayout.Settings
