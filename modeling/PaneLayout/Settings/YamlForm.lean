import PaneLayout.Settings
import PaneLayout.Yaml.Printer
import PaneLayout.Yaml.Value

set_option autoImplicit false

/-!
# The YAML form of settings

Settings are a mapping with one entry for every setting. Entries may be left out, and other entries
are passed over.

## Main definitions

* `PaneLayout.Settings.parseYaml?`: the settings that a text describes.
* `PaneLayout.Settings.renderYaml`: the text written.
-/

namespace PaneLayout.Settings

open Yaml (Document Reading)

/-- The settings found so far. -/
structure Found where
  enabled : Option Bool
  defaultEntry : Option String
  hideFromHistory : Option Bool
  deriving DecidableEq, Repr

/-- Reads the value of one entry. -/
def readEntry (d : Document) (key : String) (found : Found) (value : Yaml.Node) :
    Reading Found := do
  if key = "enabled" then
    if found.enabled.isSome then failure
    return { found with enabled := some (← d.truth value) }
  else if key = "default_entry" then
    if found.defaultEntry.isSome then failure
    return { found with defaultEntry := some (← d.text value) }
  else if key = "hide_from_history" then
    if found.hideFromHistory.isSome then failure
    return { found with hideFromHistory := some (← d.truth value) }
  else return found

/-- The settings found, completed by the standard ones. -/
def ofFound (found : Found) : Settings :=
  ⟨found.enabled.getD standard.enabled, found.defaultEntry.getD standard.defaultEntry,
    found.hideFromHistory.getD standard.hideFromHistory⟩

/-- **Reading settings** from a text that holds one document or none. -/
def parseYaml? (text : String) : Option Settings := do
  let d ← Document.ofText? text.toList
  (d.record readEntry ⟨none, none, none⟩).map ofFound

/-- The word for a truth value. -/
def truthWord (b : Bool) : List Char := if b then "true".toList else "false".toList

/-- **Writing settings.** One entry after the other. -/
def renderYaml (settings : Settings) : String :=
  String.ofList <|
    Yaml.entryLines "enabled".toList (truthWord settings.enabled) ++
    Yaml.entryLines "default_entry".toList (Yaml.written settings.defaultEntry.toList) ++
    Yaml.entryLines "hide_from_history".toList (truthWord settings.hideFromHistory)

end PaneLayout.Settings
