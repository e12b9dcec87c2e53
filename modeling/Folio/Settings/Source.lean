import Folio.Path.Home
import Folio.Settings.Override
import Folio.Yaml.Parse

/-!
# Settings files

The settings of a conversion are those that the environment gives, changed by a file if one is named.
The file is YAML and holds a mapping of the names of settings to values; a file that says nothing
changes nothing.
-/

set_option autoImplicit false
set_option relaxedAutoImplicit false

namespace Folio

/-- The text of a settings file. -/
def settingsText (files : FileTree) (path : PurePath) : Except SettingsFault (List Char) :=
  if path.holdsNul then .error .nulInPath
  else
    match files.read path with
    | .error fault => .error (.unreadable path.toString fault)
    | .ok content =>
      match readUtf8 content with
      | .error fault => .error (.undecodable fault)
      | .ok text => .ok (withLineFeeds text)

/-- The entries of a mapping, one of whose values may be the mapping itself. -/
def withItself (entries : Entries) : Entries :=
  entries.map fun
    | (key, .enclosing _) => (key, .map entries)
    | entry => entry

/-- The overrides that a settings file gives, from what reading its text as YAML comes to. -/
def overridesOf (path : PurePath) : Except Yaml.Fault Value → Except SettingsFault Entries
  | .error .malformed => .error (.badSource path.toString)
  | .error fault => .error (.noValue fault)
  | .ok (.map entries) => .ok (withItself entries)
  | .ok other => if other.isEmpty then .ok [] else .error .noMapping

/-- The settings that an environment and, if it is named, a settings file give, where `parse` reads
YAML. -/
def Settings.loadWith (parse : List Char → Except Yaml.Fault Value) (env : Environment)
    (homes : Homes) (files : FileTree) (path : Option String) : Except SettingsFault Settings := do
  let s ← Settings.ofEnvironment env
  match path with
  | none => .ok s
  | some path =>
    match (PurePath.ofString path).expanded? homes with
    | none => .error .noHome
    | some path => s.withOverrides (← overridesOf path (parse (← settingsText files path)))

/-- The settings that an environment and, if it is named, a settings file give. -/
def Settings.load (env : Environment) (homes : Homes) (files : FileTree) (path : Option String) :
    Except SettingsFault Settings :=
  loadWith Yaml.parse env homes files path

end Folio
