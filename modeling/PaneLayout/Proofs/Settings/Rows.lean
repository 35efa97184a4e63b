import Mathlib.Data.List.DropRight
import PaneLayout.Proofs.Yaml.Mapping
import PaneLayout.Settings.File

set_option autoImplicit false

/-!
# Settings files as rows

A settings file that is a flat mapping is read row by row, and the file as a whole is loaded if the
settings found in it are valid.

## Main definitions

* `PaneLayout.Settings.readRow` — what a row adds to the settings found.

## Main results

* `PaneLayout.Settings.parseYaml?_of_flat` — the settings that a flat text describes.
* `PaneLayout.Settings.load_of_written` — loading a file in which something is written.
* `PaneLayout.Settings.load_of_flat` — the same of a flat text.
* `PaneLayout.Settings.load_of_blank` — loading a file in which nothing is written.
-/

namespace PaneLayout

/-- Nothing is left of a text that is trimmed exactly if there are only blanks in it. -/
theorem Text.trim_eq_nil_iff (s : List Char) :
    Text.trim s = [] ↔ ∀ c ∈ s, Text.isBlank c = true := by
  have htrim : Text.trim s = (s.dropWhile Text.isBlank).rdropWhile Text.isBlank := rfl
  rw [htrim, List.rdropWhile_eq_nil_iff]
  constructor
  · intro h
    by_cases hrest : s.dropWhile Text.isBlank = []
    · exact List.dropWhile_eq_nil_iff.1 hrest
    · have hfirst := List.head_dropWhile_not Text.isBlank hrest
      rw [h _ (List.head_mem hrest)] at hfirst
      cases hfirst
  · intro h c hc
    exact h c (List.dropWhile_subset _ hc)

namespace Settings

open Yaml (Row Flat PlainText)

/-- The names of the settings are keys. -/
theorem isKey : ∀ key ∈ ["enabled", "default_entry", "hide_from_history"],
    Yaml.IsKey key.toList := by
  intro key hkey
  refine ⟨?_, forall_mem_of_all ?_, ?_⟩ <;> revert key <;> decide

/-- Truth values and the names of entry modes are plain texts. -/
theorem plainText : ∀ word ∈ "true" :: "false" :: entryNames, PlainText word.toList := by
  intro word hword
  refine ⟨?_, forall_mem_of_all ?_, ?_, ?_, ?_⟩ <;> revert word <;> decide

/-- Truth values are plain texts. -/
theorem plainText_truthWord (value : Bool) : PlainText (truthWord value) := by
  cases value
  · exact plainText "false" (by decide)
  · exact plainText "true" (by decide)

/-- Truth values may stand in a text. -/
theorem isAllowed_truthWord (value : Bool) : ∀ c ∈ truthWord value, Yaml.isAllowed c = true := by
  cases value
  · exact forall_mem_of_all (by decide)
  · exact forall_mem_of_all (by decide)

/-- The truth value of a scalar without properties. -/
def readTruth (r : Row) : Option Bool := if r.style = .plain then Yaml.truth? r.text else none

/-- **Reading a row.** Every setting may be found once; other rows are passed over. -/
def readRow (found : Found) (r : Row) : Option Found :=
  if String.ofList r.key = "enabled" then
    if found.enabled.isSome then none
    else (readTruth r).map fun value => { found with enabled := some value }
  else if String.ofList r.key = "default_entry" then
    if found.defaultEntry.isSome then none
    else some { found with defaultEntry := some (String.ofList r.text) }
  else if String.ofList r.key = "hide_from_history" then
    if found.hideFromHistory.isSome then none
    else (readTruth r).map fun value => { found with hideFromHistory := some value }
  else some found

/-- The first row that says whether requests are acted upon. -/
theorem readRow_enabled (value : Bool) (entry : Option String) (hide : Option Bool) :
    readRow ⟨none, entry, hide⟩ ⟨"enabled".toList, .plain, truthWord value⟩ =
      some ⟨some value, entry, hide⟩ := by
  cases value <;> rfl

/-- The first row that names an entry mode. -/
theorem readRow_defaultEntry (style : Yaml.ScalarStyle) (name : String)
    (enabled hide : Option Bool) :
    readRow ⟨enabled, none, hide⟩ ⟨"default_entry".toList, style, name.toList⟩ =
      some ⟨enabled, some name, hide⟩ := by
  simp [readRow]

/-- The first row that says whether commands are kept out of the history. -/
theorem readRow_hideFromHistory (value : Bool) (enabled : Option Bool) (entry : Option String) :
    readRow ⟨enabled, entry, none⟩ ⟨"hide_from_history".toList, .plain, truthWord value⟩ =
      some ⟨enabled, entry, some value⟩ := by
  cases value <;> rfl

/-- Reading the truth value of a row follows no alias. -/
theorem truth_row (d : Yaml.Document) (r : Row) (left : Nat) :
    (d.truth (.scalar .none r.style r.text)).run left = (readTruth r).map (·, left) := by
  have hscalar : d.truth (.scalar .none r.style r.text) =
      if r.style = .plain ∨ (r.style = .literal ∧ (Option.none : Option Yaml.TagText) =
        some (Yaml.standardTag "bool")) then liftM (Yaml.truth? r.text) else failure := rfl
  rw [hscalar, readTruth]
  by_cases hplain : r.style = .plain
  · rw [if_pos (.inl hplain), if_pos hplain]
    cases Yaml.truth? r.text <;> rfl
  · rw [if_neg (by simp [hplain]), if_neg hplain]
    rfl

/-- Reading the entry of a row follows no alias. -/
theorem readEntry_row (d : Yaml.Document) (found : Found) (r : Row) (left : Nat) :
    (readEntry d (String.ofList r.key) found (.scalar .none r.style r.text)).run left =
      (readRow found r).map (·, left) := by
  have htruth := truth_row d r left
  have htext : (d.text (.scalar .none r.style r.text)).run left =
      some (String.ofList r.text, left) := rfl
  obtain ⟨enabled, defaultEntry, hideFromHistory⟩ := found
  simp only [readEntry, readRow]
  by_cases henabled : String.ofList r.key = "enabled"
  · rw [if_pos henabled, if_pos henabled]
    cases enabled with
    | some value => rfl
    | none =>
      simp only [Option.isSome_none, Bool.false_eq_true, if_false, StateT.run_bind, htruth]
      cases readTruth r <;> rfl
  · rw [if_neg henabled, if_neg henabled]
    by_cases hentry : String.ofList r.key = "default_entry"
    · rw [if_pos hentry, if_pos hentry]
      cases defaultEntry with
      | some value => rfl
      | none => rfl
    · rw [if_neg hentry, if_neg hentry]
      by_cases hhide : String.ofList r.key = "hide_from_history"
      · rw [if_pos hhide, if_pos hhide]
        cases hideFromHistory with
        | some value => rfl
        | none =>
          simp only [Option.isSome_none, Bool.false_eq_true, if_false, StateT.run_bind, htruth]
          cases readTruth r <;> rfl
      · rw [if_neg hhide, if_neg hhide]
        rfl

/-- **The settings of a flat text** are read row by row. -/
theorem parseYaml?_of_flat {text : String} {rows : List Row} (h : Flat text.toList rows)
    (hallowed : text.toList.all Yaml.isAllowed = true) :
    parseYaml? text = (rows.foldlM readRow ⟨none, none, none⟩).map ofFound := by
  rw [parseYaml?, h.document hallowed, Option.bind_eq_bind, Option.bind_some,
    Yaml.Document.record_rows readEntry_row]

variable {tree : FileTree} {path : FilePath} {text : String}

/-- **Loading a file in which something is written**: its text is read, and the settings that it
describes have to be valid. -/
theorem load_of_written (hread : tree.read path = .ok text)
    (hwritten : ∃ c ∈ text.toList, Text.isBlank c = false) :
    load tree path =
      match parseYaml? text with
      | none => .error ⟨.parseSettings, path, .yaml⟩
      | some settings =>
        match settings.validate with
        | .error fault => .error ⟨.validateSettings, path, .settings fault⟩
        | .ok () => .ok settings := by
  have hcontains : tree.contains path = true := by rw [FileTree.contains, hread]
  have htrim : (Text.trim text.toList).isEmpty = false := by
    obtain ⟨c, hc, hshown⟩ := hwritten
    rw [List.isEmpty_eq_false_iff]
    intro hempty
    rw [(Text.trim_eq_nil_iff text.toList).1 hempty c hc] at hshown
    cases hshown
  rw [load, hcontains]
  cases hparse : parseYaml? text with
  | none => simp only [hread, htrim, hparse, Bool.not_true, Bool.false_eq_true, if_false]
  | some settings =>
    cases hvalid : settings.validate <;>
      simp only [hread, htrim, hparse, hvalid, Bool.not_true, Bool.false_eq_true, if_false]

/-- **Loading a flat text** gives the settings found, if they are valid. -/
theorem load_of_flat {rows : List Row} {found : Found} (hread : tree.read path = .ok text)
    (hflat : Flat text.toList rows) (hallowed : text.toList.all Yaml.isAllowed = true)
    (hfound : rows.foldlM readRow ⟨none, none, none⟩ = some found)
    (hwritten : ∃ c ∈ text.toList, Text.isBlank c = false) :
    load tree path =
      match (ofFound found).validate with
      | .error fault => .error ⟨.validateSettings, path, .settings fault⟩
      | .ok () => .ok (ofFound found) := by
  rw [load_of_written hread hwritten, parseYaml?_of_flat hflat hallowed, hfound, Option.map_some]

/-- **Loading a file in which nothing is written** gives the standard settings. -/
theorem load_of_blank (hread : tree.read path = .ok text)
    (hblank : ∀ c ∈ text.toList, Text.isBlank c = true) : load tree path = .ok standard := by
  have hcontains : tree.contains path = true := by rw [FileTree.contains, hread]
  have htrim : (Text.trim text.toList).isEmpty = true := by
    rw [(Text.trim_eq_nil_iff text.toList).2 hblank]
    rfl
  rw [load, hcontains]
  simp only [hread, htrim, Bool.not_true, Bool.false_eq_true, if_false, if_true]

end Settings

end PaneLayout
