import PaneLayout.FileFault
import PaneLayout.Layout.YamlForm
import PaneLayout.Notice

set_option autoImplicit false

/-!
# Layout files

The extension of a file tells the form of the layout in it. Where it tells nothing, both forms are
tried.

## Main definitions

* `PaneLayout.LayoutForm`: the form of a layout file.
* `PaneLayout.LayoutConfig.parseAs`: reads a text of a given form.
* `PaneLayout.LayoutConfig.load`: reads a file.
* `PaneLayout.LayoutConfig.loadNotices`: what is said besides.
-/

namespace PaneLayout

/-- **Forms of layout files.** -/
inductive LayoutForm where
  | json
  | yaml
  | either
  deriving DecidableEq, Repr

/-- The form that the extension of a path tells. The case of ASCII letters does not matter. -/
def LayoutForm.ofPath (path : FilePath) : LayoutForm :=
  match path.extension?.map fun e => String.ofList (e.toList.map Char.toLower) with
  | some "json" => .json
  | some "yaml" => .yaml
  | some "yml" => .yaml
  | _ => .either

namespace LayoutConfig

/-- **Reading a configuration of a given form.** Where both are tried, YAML has the last word. -/
def parseAs (form : LayoutForm) (text : String) : Except FileCause LayoutConfig :=
  let asYaml : Except FileCause LayoutConfig :=
    match parseYaml? text with
    | some config => .ok config
    | none => .error .yaml
  match form, parse text with
  | .yaml, _ => asYaml
  | _, .ok config => .ok config
  | .json, .error fault => .error (.json fault)
  | .either, .error _ => asYaml

/-- **Loading a configuration** from a file. -/
def load (tree : FileTree) (path : FilePath) : Except FileFault LayoutConfig :=
  match tree.read path with
  | .error fault => .error ⟨.readLayout, path, .io fault⟩
  | .ok text =>
    match parseAs (.ofPath path) text with
    | .error cause => .error ⟨.parseLayout, path, cause⟩
    | .ok config => .ok config

/-- The notices of loading a configuration. -/
def loadNotices (tree : FileTree) (path : FilePath) : List Notice :=
  match load tree path with
  | .ok config => [.layoutLoaded config.layout.commandCount path.text]
  | .error _ => []

end LayoutConfig

end PaneLayout
