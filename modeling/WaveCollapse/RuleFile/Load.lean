import WaveCollapse.Files
import WaveCollapse.RuleFile.Ron

/-! # Loading rules

The format of a rule file shows in the extension of its name. -/

namespace WaveCollapse

/-- The formats that rule files are written in. -/
inductive RuleFormat where
  | json
  | ron
deriving DecidableEq, Inhabited

/-- Why rules could not be loaded. -/
inductive LoadError where
  | file (cause : FileError)
  /-- The text is not a rule file in its format. -/
  | malformed (format : RuleFormat)
  | invalid (cause : RuleFileError)
  | unsupported (extension : String)
deriving DecidableEq, Inhabited

namespace RuleFormat

/-- The name of a format. -/
def name : RuleFormat → String
  | json => "JSON"
  | ron => "Rusty Object Notation (RON)"

/-- The format of a file by its name; letter case does not count. -/
def ofPath (path : String) : Except LoadError RuleFormat :=
  match (Path.extension? path).map String.toLower with
  | some "ron" => .ok ron
  | some "json" => .ok json
  | other => .error (.unsupported (other.getD "<none>"))

/-- What a text in the format says. -/
def read (format : RuleFormat) (text : String) : Except LoadError RuleFile :=
  let file :=
    match format with
    | json => (Json.parse? text).bind RuleFile.ofJson?
    | ron => RuleFile.ofRon? text
  match file with
  | some file => .ok file
  | none => .error (.malformed format)

/-- The rules that a text in the format gives. -/
def parse (format : RuleFormat) (text : String) : Except LoadError LoadedRules := do
  match (← format.read text).build with
  | .ok loaded => return loaded
  | .error e => throw (.invalid e)

/-- What `parse` notices. -/
def parseNotes (format : RuleFormat) (text : String) : List RuleFile.Note :=
  match format.read text with
  | .ok file => file.buildNotes
  | .error _ => []

end RuleFormat

/-- What is wrong with a text, or the whole message for the other causes. -/
def LoadError.message : LoadError → String
  | file cause => s!"I/O error reading file: {cause.message}"
  | malformed .json => "JSON deserialization failed"
  | malformed .ron => "RON deserialization failed"
  | invalid cause => s!"Invalid rule data: {cause.message}"
  | unsupported extension => s!"Unsupported rule file format: {extension}"

namespace Files

variable (f : Files)

/-- The rules in the file that a path names. -/
def loadRules (path : String) : Except LoadError LoadedRules := do
  let format ← RuleFormat.ofPath path
  match f.readText path with
  | .ok text => format.parse text
  | .error e => throw (.file e)

/-- What loading notices. -/
inductive LoadNote where
  | building (note : RuleFile.Note)
  | loaded (modules : Nat) (kind path : String) (format : RuleFormat)

instance : Narrated LoadNote where
  level
    | .building n => Narrated.level n
    | .loaded .. => .info
  text
    | .building n => Narrated.text n
    | .loaded modules kind path format =>
      s!"Loaded {modules} modules ({kind} rules) from {path} as {format.name}"

/-- What `loadRules` notices. -/
def loadNotes (path : String) : List LoadNote :=
  match RuleFormat.ofPath path, f.readText path with
  | .ok format, .ok text =>
    (format.parseNotes text).map .building ++
      match format.parse text with
      | .ok loaded =>
        [.loaded loaded.registry.modules.length loaded.ruleSet.kind path format]
      | .error _ => []
  | _, _ => []

end Files

end WaveCollapse
