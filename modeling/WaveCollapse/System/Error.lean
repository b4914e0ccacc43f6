import WaveCollapse.Wave

/-! # What can go wrong with a system

The causes for which a system cannot be built, changed or collapsed, each with its
wording. -/

namespace WaveCollapse

/-- Why a system cannot be built, changed or collapsed. -/
inductive CollapseError where
  /-- A vertex names a class that has no valid layout. -/
  | invalidClass (v : Nat) (cause : LayoutError)
  /-- A vertex names a class below zero. -/
  | negativeClass (v : Nat) (value : Int)
  /-- There is no such variable. -/
  | unknownVariable (v : Nat)
  /-- A layout is refused. -/
  | layout (cause : LayoutError)
  /-- A contradiction was left and no decision to undo. -/
  | exhausted (observations backtracks : Nat)
  /-- The observations allowed did not suffice. -/
  | stepLimit (observations : Nat)
  /-- The observer of the run stopped it. -/
  | aborted (reason : String)
  /-- A snapshot has another number of variables than the system. -/
  | snapshotMismatch (expected found : Nat)
  /-- A snapshot's text does not spell waves. -/
  | checkpoint (reason : String)
  /-- A run ended without an outcome. -/
  | internal (reason : String)
  /-- A wave wider than its word had to be read. -/
  | unreadableWave
deriving DecidableEq, Inhabited

namespace CollapseError

/-- A variable as it is written in messages. -/
def variableText (v : Nat) : String := s!"#{v}"

/-- The wording of a cause. -/
def message : CollapseError → String
  | invalidClass v cause =>
    s!"Invalid exclusion class for variable {variableText v}: {cause.message}"
  | negativeClass v value => s!"Variable {variableText v} has negative exclusion class {value}"
  | unknownVariable v => s!"Unknown wave variable {variableText v}"
  | layout cause => s!"State error: {cause.message}"
  | exhausted o b =>
    s!"No solution: search exhausted after {o} observations and {b} backtracks"
  | stepLimit n => s!"Maximum number of observations ({n}) reached"
  | aborted reason => s!"Collapse aborted: {reason}"
  | snapshotMismatch expected found =>
    s!"Snapshot holds {found} variables, system has {expected}"
  | checkpoint reason => s!"Checkpoint error: {reason}"
  | internal reason => s!"Internal error: {reason}"
  | unreadableWave => s!"A wave is wider than {maxWidth} bits"

end CollapseError

end WaveCollapse
