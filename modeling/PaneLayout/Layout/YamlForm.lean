import PaneLayout.Layout.JsonForm
import PaneLayout.Yaml.Value

set_option autoImplicit false

/-!
# The YAML form of layouts

A configuration is a mapping with the entries `layout` and `entry`, each at most once. Other entries
are passed over.

## Main definitions

* `PaneLayout.LayoutConfig.parseYaml?`: the configuration that a text describes.
-/

namespace PaneLayout.LayoutConfig

open Yaml (Document Reading)

/-- Reads the value of one entry. The mapping around it is open as well. -/
def readEntry (d : Document) (key : String) (found : Fields) (value : Yaml.Node) :
    Reading Fields := do
  if key = "layout" then
    if found.layout.isSome then failure
    let layout ← d.value (Yaml.nestingLimit - 1) value
    return { found with layout := some (.ofJson layout) }
  else if key = "entry" then
    if found.entry.isSome then failure
    let entry ← d.optionalText value
    return { found with entry := some entry }
  else return found

/-- **Reading a configuration** from a text that holds one document. -/
def parseYaml? (text : String) : Option LayoutConfig := do
  let d ← Document.ofText? text.toList
  let found ← d.record readEntry ⟨none, none⟩
  (ofFields found).toOption

end PaneLayout.LayoutConfig
