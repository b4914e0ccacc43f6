import WaveCollapse.Duration
import WaveCollapse.Numbers
import WaveCollapse.Selection
import WaveCollapse.Topology.Grid

/-! # The fields of the settings

Every setting is a field with a name, which is its key in a settings file. A value that
some layer gives for a field is a `Setting`, whatever the field wants; each field says
which kind it wants when the layers have been put together. -/

namespace WaveCollapse

/-- How the grid is shown while it is collapsed. -/
inductive View where
  | none
  | terminal
deriving DecidableEq, Inhabited

namespace View

/-- The name in settings and on the command line. -/
def name : View → String
  | none => "none"
  | terminal => "terminal"

/-- The name in descriptions. -/
def label : View → String
  | none => "None"
  | terminal => "Terminal"

/-- The view called `s` in settings. -/
def ofName? : String → Option View
  | "none" => some none
  | "terminal" => some terminal
  | _ => Option.none

end View

/-- The fields of the settings. -/
inductive Field where
  | ruleFile
  | width
  | height
  | boundary
  | borderModule
  | seed
  | maxSteps
  | noBacktracking
  | selection
  | stepped
  | outputPath
  | snapshotPath
  | progressInterval
  | view
  | benchmark
  | benchmarkRuns
  | benchmarkTable
  | logLevel
  | progressLevel
deriving DecidableEq, Inhabited

namespace Field

/-- All fields. -/
def all : List Field :=
  [ruleFile, width, height, boundary, borderModule, seed, maxSteps, noBacktracking, selection,
    stepped, outputPath, snapshotPath, progressInterval, view, benchmark, benchmarkRuns,
    benchmarkTable, logLevel, progressLevel]

/-- The key of a field. -/
def name : Field → String
  | ruleFile => "rule_file"
  | width => "width"
  | height => "height"
  | boundary => "boundary_mode"
  | borderModule => "border_module"
  | seed => "seed"
  | maxSteps => "max_steps"
  | noBacktracking => "no_backtracking"
  | selection => "selection"
  | stepped => "stepped"
  | outputPath => "output_path"
  | snapshotPath => "snapshot_path"
  | progressInterval => "report_progress_interval"
  | view => "visualization_mode"
  | benchmark => "benchmark_mode"
  | benchmarkRuns => "benchmark_runs"
  | benchmarkTable => "benchmark_csv_output"
  | logLevel => "global_log_level"
  | progressLevel => "progress_log_level"

/-- The level of a log of progress: any but errors. -/
def progressLevelOf? (s : String) : Option Level := (Level.ofWord? s).filter (· ≠ .error)

/-- A flag is raised by its name alone; every other field wants a value. -/
def isFlag : Field → Bool
  | noBacktracking | stepped | benchmark => true
  | _ => false

/-- What a field is in the settings. -/
abbrev Value : Field → Type
  | ruleFile | borderModule | snapshotPath | benchmarkTable => Option String
  | outputPath => String
  | width | height | maxSteps | benchmarkRuns => Nat
  | seed => Option Nat
  | noBacktracking | stepped | benchmark => Bool
  | progressInterval => Option Duration
  | boundary => Boundary
  | selection => Selection
  | view => View
  | logLevel | progressLevel => Level

end Field

/-- A value that some layer gives for a field. -/
inductive Setting where
  | text (s : String)
  /-- A single character, which the environment tells from a text of one. -/
  | letter (c : Char)
  | boolean (b : Bool)
  | integer (n : Int)
  /-- A value that no field wants. -/
  | other
deriving DecidableEq, Inhabited

namespace Setting

/-- The text of a value. -/
def toText? : Setting → Option String
  | text s => some s
  | letter c => some (String.singleton c)
  | _ => none

/-- A number of 64 bits without sign. -/
def toNatural? : Setting → Option Nat
  | integer n => if 0 ≤ n ∧ n < twoTo 64 then some n.toNat else none
  | _ => none

/-- A truth value. -/
def toFlag? : Setting → Option Bool
  | boolean b => some b
  | _ => none

/-- One of some words; a single character is none. -/
def toChoice? {α : Type} (ofName? : String → Option α) : Setting → Option α
  | text s => ofName? s
  | _ => none

/-- A duration, which travels as text. -/
def toDuration? (s : Setting) : Option Duration := s.toText?.bind Duration.ofText?

end Setting

/-- What a setting says for a field, if it is of the right kind. -/
def Field.convert : (f : Field) → Setting → Option f.Value
  | ruleFile | borderModule | snapshotPath | benchmarkTable => fun v => v.toText?.map some
  | outputPath => Setting.toText?
  | width | height | maxSteps | benchmarkRuns => Setting.toNatural?
  | seed => fun v => v.toNatural?.map some
  | noBacktracking | stepped | benchmark => Setting.toFlag?
  | progressInterval => fun v => v.toDuration?.map some
  | boundary => Setting.toChoice? Boundary.ofName?
  | selection => Setting.toChoice? Selection.ofName?
  | view => Setting.toChoice? View.ofName?
  | logLevel => Setting.toChoice? Level.ofWord?
  | progressLevel => Setting.toChoice? progressLevelOf?

/-- What one source of settings gives for each field. -/
def Layer := Field → Option Setting

namespace Layer

/-- A layer that gives nothing. -/
def blank : Layer := fun _ => none

/-- Several layers as one: every field has the value from the first layer that gives it. -/
def stack (layers : List Layer) : Layer := fun f => layers.findSome? (· f)

end Layer

end WaveCollapse
