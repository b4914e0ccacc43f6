import WaveCollapse.Run.Error
import WaveCollapse.Search.Config
import WaveCollapse.Settings.Field
import WaveCollapse.Text.Quoted

/-! # Settings

The settings of a run. They are put together from layers: a field that no layer gives has
its standard value, and one that some layer gives must be of its kind. -/

namespace WaveCollapse

/-- The settings of a run. -/
structure Settings where
  ruleFile : Option String := none
  width : Nat := 10
  height : Nat := 10
  boundary : Boundary := .clamped
  /-- The module that every cell at the border must have. -/
  borderModule : Option String := none
  seed : Option Nat := none
  /-- The most observations of a search. -/
  maxSteps : Nat := 10000
  /-- Start over on a contradiction. -/
  noBacktracking : Bool := false
  selection : Selection := .randomLowest
  /-- Drive the search step by step. -/
  stepped : Bool := false
  outputPath : String := "output.txt"
  snapshotPath : Option String := none
  progressInterval : Option Duration := none
  view : View := .none
  /-- Compare the two drivers instead of saving a grid. -/
  benchmark : Bool := false
  /-- The number of seeds to compare on. -/
  benchmarkRuns : Nat := 5
  benchmarkTable : Option String := none
  logLevel : Level := .info
  progressLevel : Level := .info
deriving DecidableEq, Inhabited

namespace Settings

/-- The value of a field. -/
def value (s : Settings) : (f : Field) → f.Value
  | .ruleFile => s.ruleFile
  | .width => s.width
  | .height => s.height
  | .boundary => s.boundary
  | .borderModule => s.borderModule
  | .seed => s.seed
  | .maxSteps => s.maxSteps
  | .noBacktracking => s.noBacktracking
  | .selection => s.selection
  | .stepped => s.stepped
  | .outputPath => s.outputPath
  | .snapshotPath => s.snapshotPath
  | .progressInterval => s.progressInterval
  | .view => s.view
  | .benchmark => s.benchmark
  | .benchmarkRuns => s.benchmarkRuns
  | .benchmarkTable => s.benchmarkTable
  | .logLevel => s.logLevel
  | .progressLevel => s.progressLevel

/-! ## From layers -/

/-- The standard value of a field. -/
def standard (f : Field) : f.Value := ({} : Settings).value f

/-- The value of a field: what the layer gives, if it is of the right kind, or else the
standard value. -/
def read (layer : Layer) (f : Field) : Option f.Value :=
  match layer f with
  | none => some (standard f)
  | some setting => f.convert setting

/-- The settings that a layer gives, with the standard values where it gives nothing. -/
def ofLayer (layer : Layer) : Option Settings := do
  return {
    ruleFile := ← read layer .ruleFile
    width := ← read layer .width
    height := ← read layer .height
    boundary := ← read layer .boundary
    borderModule := ← read layer .borderModule
    seed := ← read layer .seed
    maxSteps := ← read layer .maxSteps
    noBacktracking := ← read layer .noBacktracking
    selection := ← read layer .selection
    stepped := ← read layer .stepped
    outputPath := ← read layer .outputPath
    snapshotPath := ← read layer .snapshotPath
    progressInterval := ← read layer .progressInterval
    view := ← read layer .view
    benchmark := ← read layer .benchmark
    benchmarkRuns := ← read layer .benchmarkRuns
    benchmarkTable := ← read layer .benchmarkTable
    logLevel := ← read layer .logLevel
    progressLevel := ← read layer .progressLevel }

variable (s : Settings)

/-! ## Checking -/

/-- The rule file, which a run needs. -/
def requiredRuleFile : Except ConfigError String :=
  match s.ruleFile with
  | some path => .ok path
  | none => .error .noRuleFile

/-- Refuses settings that no run can have. -/
def validate : Except ConfigError Unit :=
  match s.requiredRuleFile with
  | .error e => .error e
  | .ok _ =>
    if s.width = 0 ∨ s.height = 0 then .error (.emptyGrid s.width s.height)
    else if s.benchmark ∧ s.benchmarkRuns = 0 then .error .noBenchmarkRuns
    else .ok ()

/-! ## Using -/

/-- How the settings want a search to be run; nobody watches it. -/
def config : Config where
  backtracking := !s.noBacktracking
  seed := s.seed
  selection := s.selection

/-- The first letter of a level's word is large in descriptions. -/
def levelLabel (level : Level) : String := level.word.capitalize

/-- An optional value in a description. -/
def optionText {α : Type} (f : α → String) : Option α → String
  | some a => s!"Some({f a})"
  | none => "None"

/-- The settings as they are written in a journal. -/
def text : String :=
  let fields := [
    ("rule_file", Text.quoteOption s.ruleFile), ("width", toString s.width),
    ("height", toString s.height), ("boundary_mode", s.boundary.label),
    ("border_module", Text.quoteOption s.borderModule), ("seed", optionText toString s.seed),
    ("max_steps", toString s.maxSteps), ("no_backtracking", toString s.noBacktracking),
    ("selection", s.selection.label), ("stepped", toString s.stepped),
    ("output_path", Text.quote s.outputPath), ("snapshot_path", Text.quoteOption s.snapshotPath),
    ("report_progress_interval", optionText Duration.short s.progressInterval),
    ("visualization_mode", s.view.label), ("benchmark_mode", toString s.benchmark),
    ("benchmark_runs", toString s.benchmarkRuns),
    ("benchmark_csv_output", Text.quoteOption s.benchmarkTable),
    ("global_log_level", levelLabel s.logLevel), ("progress_log_level", levelLabel s.progressLevel)]
  "Settings \x7b " ++ ", ".intercalate (fields.map fun (name, value) => s!"{name}: {value}") ++
    " \x7d"

end Settings

end WaveCollapse
