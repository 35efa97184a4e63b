import PaneLayout.Proofs.Settings.Rows
import PaneLayout.Proofs.Yaml.Written

set_option autoImplicit false

/-!
# Saving and loading settings

What is saved is a flat mapping with a row for each setting. Whatever text stands for the default
entry mode, it is written so that it comes back, and loading fails only if it names no mode.

## Main results

* `PaneLayout.Settings.flat_renderYaml` — saved settings are a flat mapping.
* `PaneLayout.Settings.parseYaml?_renderYaml` — saved settings are read back.
* `PaneLayout.Settings.saved_settings_are_loaded` — loading a file that was saved gives the same
  settings, or the fault that they have.
-/

namespace PaneLayout.Settings

open Yaml (Row Flat entryLines ending)

/-- The rows of settings. -/
def rows (settings : Settings) : List Row :=
  [⟨"enabled".toList, .plain, truthWord settings.enabled⟩,
    ⟨"default_entry".toList, Yaml.styleOf settings.defaultEntry.toList,
      settings.defaultEntry.toList⟩,
    ⟨"hide_from_history".toList, .plain, truthWord settings.hideFromHistory⟩]

/-- The line of a truth value. -/
theorem entryLines_truthWord (key : List Char) (value : Bool) :
    entryLines key (truthWord value) = key ++ ':' :: ' ' :: (truthWord value ++ ['\n']) := by
  have hne : truthWord value ≠ [] := by cases value <;> decide
  have hending : ending (truthWord value) = ['\n'] := by cases value <;> decide
  rw [Yaml.entryLines_eq key hne, hending]

/-- The entry of a truth value, before other entries or at the end. -/
theorem flat_truthWord {key s : List Char} {rows : List Row} (hkey : Yaml.IsKey key)
    (value : Bool) (hs : Flat s rows) :
    Flat (entryLines key (truthWord value) ++ s) (⟨key, .plain, truthWord value⟩ :: rows) := by
  rw [entryLines_truthWord, List.append_assoc, List.cons_append, List.cons_append]
  exact .row (r := ⟨key, .plain, truthWord value⟩) hkey
    (Yaml.readsAs_plain (plainText_truthWord value) (.inl rfl) hs.endsPlain) hs

/-- The entry of any text, before a line that begins at the margin. -/
theorem flat_written {key s : List Char} {rows : List Row} (hkey : Yaml.IsKey key)
    (text : List Char) {c : Char} (hc : Yaml.isBreak c = false) (hblank : Yaml.isBlank c = false)
    (hs : Flat (c :: s) rows) :
    Flat (entryLines key (Yaml.written text) ++ c :: s)
      (⟨key, Yaml.styleOf text, text⟩ :: rows) := by
  rw [Yaml.entryLines_eq key (Yaml.written_ne_nil text), List.append_assoc, List.cons_append,
    List.cons_append]
  exact .row (r := ⟨key, Yaml.styleOf text, text⟩) hkey (Yaml.readsAs_written text hc hblank s) hs

/-- **Saved settings are a flat mapping** of their rows. -/
theorem flat_renderYaml (settings : Settings) :
    Flat settings.renderYaml.toList settings.rows := by
  have hnothing : Flat [] [] := .last (.inl fun c hc => nomatch hc)
  have hhide := flat_truthWord (isKey "hide_from_history" (by decide)) settings.hideFromHistory
    hnothing
  rw [entryLines_truthWord, List.append_nil] at hhide
  have hentry := flat_written (isKey "default_entry" (by decide)) settings.defaultEntry.toList
    (c := 'h') rfl rfl hhide
  rw [renderYaml, String.toList_ofList, List.append_assoc,
    entryLines_truthWord "hide_from_history".toList]
  exact flat_truthWord (isKey "enabled" (by decide)) settings.enabled hentry

/-- Saved settings consist of characters that may stand in a text. -/
theorem isAllowed_renderYaml (settings : Settings) :
    settings.renderYaml.toList.all Yaml.isAllowed = true := by
  have hentry : ∀ key value, (∀ c ∈ key, Yaml.isAllowed c = true) →
      (∀ c ∈ value, Yaml.isAllowed c = true) → ∀ c ∈ entryLines key value,
        Yaml.isAllowed c = true := by
    intro key value hkey hvalue
    have hlines : ∀ c ∈ key ++ [':', ' '] ++ value, Yaml.isAllowed c = true :=
      List.forall_mem_append.2
        ⟨List.forall_mem_append.2 ⟨hkey, forall_mem_of_all (by decide)⟩, hvalue⟩
    simp only [entryLines]
    split
    · exact hlines
    · exact List.forall_mem_append.2 ⟨hlines, forall_mem_of_all (by decide)⟩
  rw [renderYaml, String.toList_ofList, List.all_eq_true]
  refine List.forall_mem_append.2 ⟨List.forall_mem_append.2 ⟨?_, ?_⟩, ?_⟩
  · exact hentry _ _ (forall_mem_of_all (by decide)) (isAllowed_truthWord _)
  · exact hentry _ _ (forall_mem_of_all (by decide)) (Yaml.isAllowed_written _)
  · exact hentry _ _ (forall_mem_of_all (by decide)) (isAllowed_truthWord _)

/-- What is found in the rows of settings. -/
theorem foldlM_readRow_rows (settings : Settings) :
    settings.rows.foldlM readRow ⟨none, none, none⟩ =
      some ⟨some settings.enabled, some settings.defaultEntry, some settings.hideFromHistory⟩ := by
  rw [rows, List.foldlM_cons, readRow_enabled, Option.bind_eq_bind, Option.bind_some,
    List.foldlM_cons, readRow_defaultEntry, Option.bind_eq_bind, Option.bind_some,
    List.foldlM_cons, readRow_hideFromHistory]
  rfl

/-- **Saved settings are read back.** -/
theorem parseYaml?_renderYaml (settings : Settings) :
    parseYaml? settings.renderYaml = some settings := by
  rw [parseYaml?_of_flat (flat_renderYaml settings) (isAllowed_renderYaml settings),
    foldlM_readRow_rows]
  rfl

/-- **Settings survive saving and loading.** Wherever settings could be saved, loading the file
gives the same settings if they are valid, and else the fault that they have.

**Proof sketch.** What was written is read, and it is a flat mapping whose rows are the settings, in
whatever style the default entry mode had to be written. -/
theorem saved_settings_are_loaded {settings : Settings} {tree after : FileTree} {path : FilePath}
    (h : settings.save tree path = .ok after) :
    load after path =
      match settings.validate with
      | .ok () => .ok settings
      | .error fault => .error ⟨.validateSettings, path, .settings fault⟩ := by
  have hread : after.read path = .ok settings.renderYaml := by
    rw [save] at h
    cases hdirectories : tree.createDirectories path.parent with
    | error fault => rw [hdirectories] at h; cases h
    | ok tree' =>
      rw [hdirectories] at h
      cases hwrite : tree'.write path (.file (some settings.renderYaml)) with
      | error fault => simp only [hwrite] at h; cases h
      | ok after' =>
        simp only [hwrite] at h
        cases h
        exact FileTree.read_write hwrite
  have hwritten : ∃ c ∈ settings.renderYaml.toList, Text.isBlank c = false := by
    refine ⟨'e', ?_, rfl⟩
    rw [renderYaml, String.toList_ofList, entryLines_truthWord]
    exact List.mem_append_left _ (List.mem_append_left _ (List.mem_of_mem_head? rfl))
  rw [load_of_written hread hwritten, parseYaml?_renderYaml]
  cases hvalid : settings.validate with
  | ok _ => simp only [hvalid]
  | error fault => simp only [hvalid]

/-- An entry mode between a separator of lines and two line feeds is written as a block, in a
directory that has to be created, and comes back as it was. -/
theorem saved_settings_are_loaded_from_block :
    ∃ after, (Settings.mk false "\u2028 Tab\n\n" true).save FileTree.empty ⟨"home/config.yaml"⟩ =
        .ok after ∧
      load after ⟨"home/config.yaml"⟩ = .ok ⟨false, "\u2028 Tab\n\n", true⟩ := by
  let settings : Settings := ⟨false, "\u2028 Tab\n\n", true⟩
  have hvalid : settings.validate = .ok () := by decide +kernel
  have hok : (settings.save FileTree.empty ⟨"home/config.yaml"⟩).isOk = true := by decide +kernel
  cases hsave : settings.save FileTree.empty ⟨"home/config.yaml"⟩ with
  | error fault =>
    rw [hsave] at hok
    cases hok
  | ok after =>
    refine ⟨after, rfl, ?_⟩
    rw [saved_settings_are_loaded hsave, hvalid]

end PaneLayout.Settings
