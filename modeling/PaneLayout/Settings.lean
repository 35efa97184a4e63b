import PaneLayout.Text.Blank

set_option autoImplicit false

/-!
# Settings

## Main definitions

* `PaneLayout.Settings`: what the user can set.
* `PaneLayout.Settings.validate`: refuses a default entry mode that has no known name.
-/

namespace PaneLayout

/-- **Settings.** Whether requests are acted upon, the entry mode of requests that name none, and
whether commands are typed with a leading space, which keeps them out of the shell history. -/
structure Settings where
  enabled : Bool
  defaultEntry : String
  hideFromHistory : Bool
  deriving DecidableEq, Repr

namespace Settings

/-- The settings of a user who has set nothing. -/
def standard : Settings := ⟨true, "tab", false⟩

instance : Inhabited Settings := ⟨standard⟩

/-- The names of entry modes. -/
def entryNames : List String := ["window", "tab", "horizontal", "vertical", "pane"]

/-- **Faults of settings.** The default entry mode has no known name. -/
inductive Fault where
  | unknownEntry (name : String)
  deriving DecidableEq, Repr

/-- The wording of a fault. -/
def Fault.message : Fault → String
  | .unknownEntry name =>
    s!"Config validation error: default_entry '{name}' is not one of " ++
      ", ".intercalate entryNames

/-- **Validation.** The default entry mode has to be a known name; blanks around it and the case of
ASCII letters do not matter. -/
def validate (settings : Settings) : Except Fault Unit :=
  let name := String.ofList ((Text.trim settings.defaultEntry.toList).map Char.toLower)
  if name ∈ entryNames then .ok () else .error (.unknownEntry settings.defaultEntry)

end Settings

end PaneLayout
