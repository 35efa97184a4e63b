import PaneLayout.FileFault
import PaneLayout.Notice
import PaneLayout.Settings.YamlForm

set_option autoImplicit false

/-!
# Settings files

## Main definitions

* `PaneLayout.Settings.path`: where settings are kept.
* `PaneLayout.Settings.load`, `PaneLayout.Settings.save`: reads and writes a settings file.
* `PaneLayout.Settings.loadNotices`, `PaneLayout.Settings.saveNotices`: what they have to say
  besides.
-/

namespace PaneLayout.Settings

/-- **Where settings are kept.** Below the directory for configurations if its path is absolute, and
else below the home directory. -/
def path (home : String) (configHome : Option String) : FilePath :=
  let directory : FilePath :=
    match configHome.filter (·.startsWith "/") with
    | some directory => ⟨directory⟩
    | none => (FilePath.mk home).join ".config"
  (directory.join "par-layout").join "config.yaml"

/-- **Loading settings.** Where there is no file, or nothing but blanks in it, the settings are the
standard ones. -/
def load (tree : FileTree) (path : FilePath) : Except FileFault Settings :=
  if !tree.contains path then .ok standard
  else
    match tree.read path with
    | .error fault => .error ⟨.readSettings, path, .io fault⟩
    | .ok text =>
      if (Text.trim text.toList).isEmpty then .ok standard
      else
        match parseYaml? text with
        | none => .error ⟨.parseSettings, path, .yaml⟩
        | some settings =>
          match settings.validate with
          | .error fault => .error ⟨.validateSettings, path, .settings fault⟩
          | .ok () => .ok settings

/-- **Saving settings.** Directories that are missing on the way are created. -/
def save (settings : Settings) (tree : FileTree) (path : FilePath) : Except FileFault FileTree :=
  match tree.createDirectories path.parent with
  | .error fault => .error ⟨.createDirectory, path.parent, .io fault⟩
  | .ok tree =>
    match tree.write path (.file (some settings.renderYaml)) with
    | .error fault => .error ⟨.writeSettings, path, .io fault⟩
    | .ok tree => .ok tree

/-- The notices of loading settings. Nothing is said if they are the standard ones for want of a
text. -/
def loadNotices (tree : FileTree) (path : FilePath) : List Notice :=
  match tree.read path, load tree path with
  | .ok text, .ok _ => if (Text.trim text.toList).isEmpty then [] else [.settingsLoaded path.text]
  | _, _ => []

/-- The notices of saving settings. -/
def saveNotices (settings : Settings) (tree : FileTree) (path : FilePath) : List Notice :=
  match settings.save tree path with
  | .ok _ => [.settingsSaved path.text]
  | .error _ => []

end PaneLayout.Settings
