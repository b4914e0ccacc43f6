import WaveCollapse.Output
import WaveCollapse.RuleFile.Load
import WaveCollapse.Text.Quoted

/-! # Why a run fails

A run stops at the first thing that goes wrong and says what it was. -/

namespace WaveCollapse

/-- Settings that no run can have, or that do not go with the rules. -/
inductive ConfigError where
  /-- The settings file is not there, or is no file. -/
  | noSettingsFile (path : String)
  | noRuleFile
  | emptyGrid (width height : Nat)
  | noBenchmarkRuns
  /-- The types of the rules are not the four directions of a grid. -/
  | notGridRules (types : Nat) (duals : List Nat)
  | unknownBorderModule (name : String)
deriving DecidableEq, Inhabited

/-- The wording of a cause. -/
def ConfigError.message : ConfigError → String
  | noSettingsFile path => s!"Settings file not found: {path}"
  | noRuleFile =>
    "No rule file given; pass --rule-file, set rule_file in the settings file " ++
      "or XWFC_RULE_FILE"
  | emptyGrid width height => s!"Grid dimensions must be positive, got {width}x{height}"
  | noBenchmarkRuns => "Benchmark mode needs at least one run"
  | notGridRules types duals =>
    "Grid rules need four connection types ordered north, south, east, west with duals " ++
      "(north, south) and (east, west); the rule file defines " ++
      s!"{types} with duals {Text.listText duals}"
  | unknownBorderModule name => s!"Unknown border module: {name}"

/-- Why a run fails. -/
inductive RunError where
  | config (cause : ConfigError)
  /-- Some layer of the settings cannot be read, or gives a field a value of the wrong
  kind. -/
  | settings
  | file (cause : FileError)
  | rules (cause : LoadError)
  | collapse (cause : CollapseError)
  | layout (cause : LayoutError)
  | unresolved (cell : Unresolved)
  /-- The two drivers disagree on some seeds. -/
  | mismatch (seeds : List Nat)
deriving DecidableEq, Inhabited

/-- The wording of a cause. -/
def RunError.message : RunError → String
  | config cause => s!"Configuration Error: {cause.message}"
  | settings => "Settings Error"
  | file cause => s!"IO Error: {cause.message}"
  | rules cause => s!"Rule Loading Error: {cause.message}"
  | collapse cause => s!"XWFC Core Error: {cause.message}"
  | layout cause => s!"State Error: {cause.message}"
  | unresolved cell =>
    s!"Cell ({cell.x}, {cell.y}) is not resolved ({cell.candidates} candidates), cannot save"
  | mismatch seeds => s!"Eager and stepped solver disagree on seeds {Text.listText seeds}"

end WaveCollapse
