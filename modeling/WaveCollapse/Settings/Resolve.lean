import WaveCollapse.Settings.Basic
import WaveCollapse.Settings.CommandLine
import WaveCollapse.Settings.Environment
import WaveCollapse.Settings.Field
import WaveCollapse.Toml.Document

/-! # Resolving settings

The command line goes over the environment, the environment over the settings file that the
command line names, and what none of them gives has its standard value. -/

namespace WaveCollapse

/-! ## Settings from a file

A settings file is a TOML document; every field may be a key of its outermost table. Other
keys do not count. Below the outermost table two names are kept: a member of the one gives
its table's value, and a member of the other is refused. -/

namespace Setting

/-- The name of the member whose value is the value of its whole table. -/
def valueName : String := "___figment_value_value"

/-- The name that no member of a table may have. -/
def refusedName : String := "___figment_value_id"

mutual

/-- A TOML value as a setting. -/
def ofToml : Toml → Setting
  | .text s => text s
  | .integer n => integer n
  | .boolean b => boolean b
  | .table _ members => ofMembers members
  | _ => other

/-- A table as a setting. -/
def ofMembers : List (String × Toml) → Setting
  | [] => other
  | (name, v) :: members => if name = valueName then ofToml v else ofMembers members

end

mutual

/-- Whether no table within a value has a member of the refused name. -/
def isAllowed : Toml → Bool
  | .table _ members => membersAllowed members
  | .list items => itemsAllowed items
  | .tables items => tablesAllowed items
  | _ => true

/-- The same for the members of a table. -/
def membersAllowed : List (String × Toml) → Bool
  | [] => true
  | (name, v) :: members => name ≠ refusedName && isAllowed v && membersAllowed members

/-- The same for the items of a list. -/
def itemsAllowed : List Toml → Bool
  | [] => true
  | v :: items => isAllowed v && itemsAllowed items

/-- The same for an array of tables. -/
def tablesAllowed : List (List (String × Toml)) → Bool
  | [] => true
  | members :: items => membersAllowed members && tablesAllowed items

end

end Setting

namespace Layer

/-- The settings in a document. -/
def ofDocument (document : Toml.Members) : Layer := fun f =>
  (document.lookup f.name).map Setting.ofToml

/-- The settings that a text spells. -/
def ofText? (text : String) : Option Layer := do
  let document ← Toml.parse? text
  if document.all (Setting.isAllowed ·.2) then some (ofDocument document) else none

end Layer

/-! ## All layers together -/

/-- The layer of the settings file; without one it is blank. -/
def Files.settingsLayer (files : Files) : Option String → Except RunError Layer
  | none => .ok Layer.blank
  | some path =>
    if files.isFile path then
      match files.readText path with
      | .error _ => .error .settings
      | .ok text =>
        match Layer.ofText? text with
        | some layer => .ok layer
        | none => .error .settings
    else .error (.config (.noSettingsFile path))

/-- The settings of a run, from its command line, its environment and its files. -/
def Arguments.resolve (a : Arguments) (environment : List (String × String)) (files : Files) :
    Except RunError Settings := do
  let file ← files.settingsLayer a.settingsFile
  match Settings.ofLayer (Layer.stack [a.layer, Layer.ofEnvironment environment, file]) with
  | none => throw .settings
  | some settings =>
    match settings.validate with
    | .ok () => return settings
    | .error e => throw (.config e)

end WaveCollapse
