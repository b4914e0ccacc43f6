import WaveCollapse.Selection
import WaveCollapse.System.Error

/-! # How a search is run

A configuration says how the search recovers from a contradiction and which variable it
observes next, and it may name an observer. The observer is told about the search after
every observation; it judges from all reports so far, so it may be any rule that depends on
what it has seen. -/

namespace WaveCollapse

/-- How far a search has come. -/
structure Progress where
  observations : Nat
  resolved : Nat
  total : Nat
  backtracks : Nat
  restarts : Nat
deriving DecidableEq, Inhabited

/-- Watches a search. Both functions get all reports, the latest first. -/
structure Observer where
  /-- Whether the search goes on. -/
  verdict : List Progress → Except CollapseError Unit
  /-- What the observer records. -/
  records : List Progress → List Record := fun _ => []

/-- How a search is run. -/
structure Config where
  /-- Undo the last decision on a contradiction, instead of starting over. -/
  backtracking : Bool := true
  /-- The seed of the source, if one was given. -/
  seed : Option Nat := none
  selection : Selection := .randomLowest
  observer : Option Observer := none

namespace Config

/-- The configuration as it is written in descriptions. -/
def text (c : Config) : String :=
  let seed := match c.seed with
    | some n => s!"Some({n})"
    | none => "None"
  s!"CollapseConfig \x7b use_backtracking: {c.backtracking}, seed: {seed}, " ++
    s!"selection: {c.selection.label}, progress_callback: {c.observer.isSome} \x7d"

end Config

end WaveCollapse
