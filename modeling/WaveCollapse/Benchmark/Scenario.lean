import WaveCollapse.Duration
import WaveCollapse.Numbers
import WaveCollapse.Search.Drive
import WaveCollapse.Settings.Basic
import WaveCollapse.Statistics

/-! # Trials and scenarios

A trial is one search with one driver and one seed. A scenario sums up the trials of one
driver; times and observations are those of the trials that succeeded. -/

namespace WaveCollapse

/-- The two ways to drive a search. -/
inductive DriveMode where
  /-- To the end at once. -/
  | eager
  /-- One event at a time. -/
  | stepped
deriving DecidableEq, Inhabited

namespace DriveMode

/-- The name in tables. -/
def name : DriveMode → String
  | eager => "eager"
  | stepped => "stepped"

/-- Both ways. -/
def all : List DriveMode := [eager, stepped]

/-- Searches this way, with at most `limit` observations. -/
def drive {V ρ : Type} [PickSource ρ] (mode : DriveMode) (s : Solver V ρ) (limit : Nat)
    (journal : Journal) : Ending V ρ :=
  match mode with
  | eager => s.collapse limit journal
  | stepped =>
    (Stepper.ofSolver s limit).finish (journal.tell (Stepper.startNote s limit))

end DriveMode

/-- One search with one driver. -/
structure Trial where
  mode : DriveMode
  seed : Nat
  /-- The time that the search took. -/
  elapsed : Duration
  result : Except CollapseError Stats
  /-- The waves that the search left. -/
  waves : Array Wave := #[]

namespace Trial

/-- The search did not fail. -/
def succeeded (t : Trial) : Bool := t.result.isOk

/-- Two trials end alike: both succeed or both fail, and they leave the same waves. -/
def agrees (a b : Trial) : Bool :=
  a.succeeded == b.succeeded && a.waves.isEqv b.waves Wave.agrees

/-- The time in milliseconds. -/
def milliseconds (t : Trial) : Float :=
  (Statistics.count t.elapsed.seconds + Statistics.count t.elapsed.nanos / 1e9) * 1000

end Trial

/-- What the trials of one driver have in common and in sum. Times are in milliseconds. -/
structure Scenario where
  ruleFile : String
  mode : DriveMode
  width : Nat
  height : Nat
  modules : Nat
  runs : Nat
  succeeded : Nat
  failed : Nat
  meanTime : Option Float
  medianTime : Option Float
  timeDeviation : Option Float
  meanObservations : Option Float
  /-- All backtracks of the trials that succeeded. -/
  backtracks : Nat

/-- Sums up the trials of one driver. -/
def Scenario.ofTrials (ruleFile : String) (s : Settings) (modules : Nat) (mode : DriveMode)
    (trials : List Trial) : Scenario :=
  let ofMode := trials.filter (·.mode == mode)
  let stats := ofMode.filterMap (·.result.toOption)
  let times := (ofMode.filter Trial.succeeded).map Trial.milliseconds
  let meanTime := Statistics.mean times
  { ruleFile, mode, modules, meanTime
    width := s.width, height := s.height
    runs := ofMode.length, succeeded := stats.length, failed := ofMode.length - stats.length
    medianTime := Statistics.median (times.map Sample.ofFloat)
    timeDeviation := meanTime.bind (Statistics.deviation times)
    meanObservations := Statistics.mean (stats.map fun st => Statistics.count st.observations)
    backtracks := total (stats.map (·.backtracks)) }

/-- The scenarios of both drivers and the seeds on which they disagree. -/
structure Comparison where
  scenarios : List Scenario
  mismatched : List Nat

end WaveCollapse
