import WaveCollapse.Decimal
import WaveCollapse.Settings.Field

/-! # Settings from the command line

Every field is an option: a flag if it wants a truth value, and otherwise an option whose
value follows it, after a blank or an equals sign. A value is read into what its field wants,
and goes on to the other layers as a setting (`Arguments.layer`); what is left out says nothing,
so a flag that is not raised does not lower one. A value is checked when the next argument shows
that it is complete; until then an argument that nobody knows is what is complained about. -/

namespace WaveCollapse

/-- Why a command line is not accepted; asking for help or the version ends it too. -/
inductive UsageError where
  | unknownArgument
  /-- A number or duration that is none. -/
  | invalidNumber
  /-- A word that is not listed, an empty path, or no value at all. -/
  | invalidValue
  /-- An option that was given before. -/
  | repeated
  /-- A flag with a value. -/
  | unexpectedValue
  | help
  | version
deriving DecidableEq, Inhabited

/-- An option that takes a value: a field, or the settings file. -/
inductive ValueOption where
  | field (f : Field)
  | settings
deriving DecidableEq, Inhabited

/-- What a command line gives. An option that is left out is `none`, and a flag that is not
raised is `false`. -/
structure Arguments where
  ruleFile : Option String := none
  width : Option Nat := none
  height : Option Nat := none
  boundary : Option Boundary := none
  borderModule : Option String := none
  seed : Option Nat := none
  maxSteps : Option Nat := none
  noBacktracking : Bool := false
  selection : Option Selection := none
  stepped : Bool := false
  outputPath : Option String := none
  snapshotPath : Option String := none
  progressInterval : Option Duration := none
  view : Option View := none
  benchmark : Bool := false
  benchmarkRuns : Option Nat := none
  benchmarkTable : Option String := none
  logLevel : Option Level := none
  progressLevel : Option Level := none
  settingsFile : Option String := none
deriving DecidableEq, Inhabited

namespace Arguments

/-! ## As a layer -/

/-- A flag as a setting: one that is not raised says nothing. -/
def flag (raised : Bool) : Option Setting := if raised then some (.boolean true) else none

/-- The layer of what was given. A duration goes on as text, and a choice by its name. -/
def layer (a : Arguments) : Layer
  | .ruleFile => a.ruleFile.map .text
  | .width => a.width.map fun n : Nat => .integer n
  | .height => a.height.map fun n : Nat => .integer n
  | .boundary => a.boundary.map fun b => .text b.name
  | .borderModule => a.borderModule.map .text
  | .seed => a.seed.map fun n : Nat => .integer n
  | .maxSteps => a.maxSteps.map fun n : Nat => .integer n
  | .noBacktracking => flag a.noBacktracking
  | .selection => a.selection.map fun x => .text x.name
  | .stepped => flag a.stepped
  | .outputPath => a.outputPath.map .text
  | .snapshotPath => a.snapshotPath.map .text
  | .progressInterval => a.progressInterval.map fun d => .text d.text
  | .view => a.view.map fun v => .text v.name
  | .benchmark => flag a.benchmark
  | .benchmarkRuns => a.benchmarkRuns.map fun n : Nat => .integer n
  | .benchmarkTable => a.benchmarkTable.map .text
  | .logLevel => a.logLevel.map fun l => .text l.word
  | .progressLevel => a.progressLevel.map fun l => .text l.word

/-! ## Values -/

/-- A path, which must not be empty. -/
def pathOf (s : String) : Except UsageError String :=
  if s.isEmpty then .error .invalidValue else .ok s

/-- A number. -/
def naturalOf (s : String) : Except UsageError Nat :=
  match Decimal.natural64? s.toList with
  | some n => .ok n
  | none => .error .invalidNumber

/-- A duration. -/
def durationOf (s : String) : Except UsageError Duration :=
  match Duration.ofText? s with
  | some d => .ok d
  | none => .error .invalidNumber

/-- One of some words. -/
def choiceOf {α : Type} (ofName? : String → Option α) (s : String) : Except UsageError α :=
  match ofName? s with
  | some x => .ok x
  | none => .error .invalidValue

variable (a : Arguments)

/-- Gives a field the value that a text spells. -/
def give (f : Field) (s : String) : Except UsageError Arguments :=
  match f with
  | .ruleFile => (pathOf s).map fun v => { a with ruleFile := some v }
  | .width => (naturalOf s).map fun v => { a with width := some v }
  | .height => (naturalOf s).map fun v => { a with height := some v }
  | .boundary => (choiceOf Boundary.ofName? s).map fun v => { a with boundary := some v }
  | .borderModule => .ok { a with borderModule := some s }
  | .seed => (naturalOf s).map fun v => { a with seed := some v }
  | .maxSteps => (naturalOf s).map fun v => { a with maxSteps := some v }
  | .selection => (choiceOf Selection.ofName? s).map fun v => { a with selection := some v }
  | .outputPath => (pathOf s).map fun v => { a with outputPath := some v }
  | .snapshotPath => (pathOf s).map fun v => { a with snapshotPath := some v }
  | .progressInterval => (durationOf s).map fun v => { a with progressInterval := some v }
  | .view => (choiceOf View.ofName? s).map fun v => { a with view := some v }
  | .benchmarkRuns => (naturalOf s).map fun v => { a with benchmarkRuns := some v }
  | .benchmarkTable => (pathOf s).map fun v => { a with benchmarkTable := some v }
  | .logLevel => (choiceOf Level.ofWord? s).map fun v => { a with logLevel := some v }
  | .progressLevel =>
    (choiceOf Field.progressLevelOf? s).map fun v => { a with progressLevel := some v }
  | .noBacktracking | .stepped | .benchmark => .error .unexpectedValue

/-- Raises a flag; no other field is raised. -/
def raise : Field → Arguments
  | .noBacktracking => { a with noBacktracking := true }
  | .stepped => { a with stepped := true }
  | .benchmark => { a with benchmark := true }
  | _ => a

/-! ## Arguments one by one -/

/-- Takes a value for an option that was not given before. -/
def accept (o : ValueOption) (s : String) : Except UsageError Arguments :=
  match o with
  | .field f => if (a.layer f).isSome then .error .repeated else a.give f s
  | .settings =>
    if a.settingsFile.isSome then .error .repeated
    else (pathOf s).map fun v => { a with settingsFile := some v }

/-- Takes a flag that was not given before. -/
def acceptFlag (f : Field) : Except UsageError Arguments :=
  if (a.layer f).isSome then .error .repeated else .ok (a.raise f)

/-- An option at the end of what was read, and the value that followed it. -/
abbrev Pending := Option (ValueOption × Option String)

/-- Takes the option at the end of what was read. -/
def settle : Pending → Except UsageError Arguments
  | none => .ok a
  | some (_, none) => .error .invalidValue
  | some (o, some s) => a.accept o s

/-- What an argument with two dashes names. -/
inductive LongName where
  | option (o : ValueOption)
  | flag (f : Field)
  | help
  | version

/-- The option of a field: its name with dashes. -/
def optionName (f : Field) : String :=
  String.ofList (f.name.toList.map fun c => if c = '_' then '-' else c)

/-- The meaning of a long name. -/
def longName? (s : String) : Option LongName :=
  if s = "help" then some .help
  else if s = "version" then some .version
  else if s = "settings" then some (.option .settings)
  else
    (Field.all.find? (optionName · == s)).map fun f =>
      if f.isFlag then .flag f else .option (.field f)

/-- What has been read, and what comes at its end. -/
structure Reading where
  arguments : Arguments := {}
  pending : Pending := none

/-- Takes an option, with its value if it is attached. -/
def Reading.option (r : Reading) (o : ValueOption) (attached : Option String) :
    Except UsageError Reading := do
  let arguments ← r.arguments.settle r.pending
  match attached with
  | none => return { arguments, pending := some (o, none) }
  | some s => return { arguments := ← arguments.accept o s }

/-- Ends the reading with a request, when what was read is in order. -/
def Reading.request (r : Reading) (e : UsageError) : Except UsageError Reading := do
  discard (r.arguments.settle r.pending)
  throw e

/-- Takes an argument after two dashes. -/
def Reading.long (r : Reading) (s : String) : Except UsageError Reading :=
  let name := s.toList.takeWhile (· ≠ '=')
  let attached := match s.toList.dropWhile (· ≠ '=') with
    | [] => none
    | _ :: value => some (String.ofList value)
  match longName? (String.ofList name), attached with
  | none, _ => .error .unknownArgument
  | some (.option o), attached => r.option o attached
  | some _, some _ => .error .unexpectedValue
  | some (.flag f), none => do
    return { arguments := ← (← r.arguments.settle r.pending).acceptFlag f }
  | some .help, none => r.request .help
  | some .version, none => r.request .version

/-- Takes an argument after one dash. -/
def Reading.short (r : Reading) (c : Char) (rest : List Char) : Except UsageError Reading :=
  let attached := match rest with
    | [] => none
    | '=' :: value | value => some (String.ofList value)
  match c with
  | 'r' => r.option (.field .ruleFile) attached
  | 'o' => r.option (.field .outputPath) attached
  | 'h' => r.request .help
  | 'V' => r.request .version
  | _ => .error .unknownArgument

/-- Takes an argument without a dash in front: the value of the option before it. -/
def Reading.word (r : Reading) (s : String) : Except UsageError Reading :=
  match r.pending with
  | some (o, none) => .ok { r with pending := some (o, some s) }
  | _ => .error .unknownArgument

/-- Takes one argument. -/
def Reading.step (r : Reading) (s : String) : Except UsageError Reading :=
  match s.toList with
  | '-' :: '-' :: rest => r.long (String.ofList rest)
  | '-' :: c :: rest => r.short c rest
  | _ => r.word s

/-- Takes all arguments. After two dashes alone only words may follow, and no one wants
them. -/
def Reading.steps (r : Reading) : List String → Except UsageError Reading
  | [] => .ok r
  | "--" :: rest => if rest.isEmpty then .ok r else .error .unknownArgument
  | s :: rest =>
    match r.step s with
    | .error e => .error e
    | .ok r => Reading.steps r rest

/-- What a command line gives. -/
def parse (line : List String) : Except UsageError Arguments := do
  let r ← Reading.steps {} line
  r.arguments.settle r.pending

end Arguments

end WaveCollapse
