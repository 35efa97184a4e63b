import PaneLayout.FileTree
import PaneLayout.Json.Fault
import PaneLayout.Settings

set_option autoImplicit false

/-!
# Faults in files

## Main definitions

* `PaneLayout.FileFault`: what was done with which file, and what went wrong.
* `PaneLayout.FileFault.context`: the wording of what was done.
-/

namespace PaneLayout

/-- What can be done with a file. -/
inductive FileActivity where
  | readLayout
  | parseLayout
  | readSettings
  | parseSettings
  | validateSettings
  | createDirectory
  | writeSettings
  deriving DecidableEq, Repr

/-- The wording of an activity that has failed. -/
def FileActivity.failure : FileActivity → String
  | readLayout => "Failed to read layout file"
  | parseLayout => "Failed to parse layout file"
  | readSettings => "Failed to read layout settings from"
  | parseSettings => "Failed to parse layout settings from"
  | validateSettings => "Invalid layout settings in"
  | createDirectory => "Failed to create config directory"
  | writeSettings => "Failed to write layout settings to"

/-- What can be wrong with a file. A text that is no YAML document, or that describes something
else, is not looked at any closer. -/
inductive FileCause where
  | io (fault : IoFault)
  | json (fault : Json.Fault)
  | yaml
  | settings (fault : Settings.Fault)

/-- **Faults in files.** -/
structure FileFault where
  activity : FileActivity
  path : FilePath
  cause : FileCause

/-- The wording of what was done with which file. -/
def FileFault.context (fault : FileFault) : String :=
  s!"{fault.activity.failure} {Text.quoted fault.path.text}"

end PaneLayout
