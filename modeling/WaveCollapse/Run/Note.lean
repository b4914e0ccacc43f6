import WaveCollapse.Decimal
import WaveCollapse.Search.Event
import WaveCollapse.Settings.Basic
import WaveCollapse.Statistics

/-! # What a run notes

The parts of the library note what they do themselves; these are the notes of the run that
puts them to use. -/

namespace WaveCollapse

/-- What a run notes. -/
inductive RunNote where
  /-- The journal was open before the run. -/
  | journalKept
  | starting
  | settled (s : Settings)
  /-- A table was asked for, but nothing is compared. -/
  | tableIgnored
  | finished
  | searching
  | loading (path : String)
  | loaded (kind : String) (types modules classes : Nat)
  | reporting (interval : Duration)
  | collapsing (s : Settings)
  | observed (v state : Nat)
  | event (e : Event)
  | paused (events : Nat)
  | snapshotSaved (path : String)
  | solved (stats : Stats)
  | failed (cause : CollapseError)
  | gridReady (path : String)
  | savingGrid (path : String)
  | gridSaved (path : String)
  | comparing (runs : Nat)
  | compared (seed : Nat) (eager stepped : Duration × Bool)
  | disagreed (seed : Nat)
  | savingTable (path : String)
  | tableSaved (path : String)

namespace RunNote
open Text (quote)

/-- How long one driver took and whether it succeeded. -/
def driverText (name : String) (elapsed : Duration) (succeeded : Bool) : String :=
  let ending := if succeeded then "ok" else "failed"
  s!"{name} {elapsed.short} ({ending})"

/-- The name of the driver that the settings ask for. -/
def driverName (s : Settings) : String := if s.stepped then "stepped" else "eager"

/-- How severe an event of a watched search is. -/
def eventLevel : Event → Level
  | .backtracked .. | .restarted | .contradiction _ => .debug
  | _ => .trace

instance : Narrated RunNote where
  level
    | journalKept | settled _ | observed .. => .debug
    | event e => eventLevel e
    | tableIgnored | disagreed _ => .warn
    | failed _ => .error
    | _ => .info
  text
    | journalKept => "Logger already initialized, keeping it"
    | starting => "XWFC App Starting"
    | settled s => s!"Resolved settings: {s.text}"
    | tableIgnored => "--benchmark-csv-output is ignored without --benchmark-mode"
    | finished => "XWFC App Finished."
    | searching => "Running XWFC standard mode..."
    | loading path => s!"Loading rules from: {quote path}"
    | loaded kind types modules classes =>
      s!"Rules loaded: {kind} rules, {types} connection types, " ++
        s!"{modules} modules in {classes} exclusion classes"
    | reporting interval => s!"Reporting progress every {interval.text}"
    | collapsing s =>
      s!"Collapsing {s.width}x{s.height} grid ({s.boundary.label} boundary, " ++
        s!"{driverName s} mode, budget {s.maxSteps} observations)"
    | observed v p => s!"Observed {p} at {CollapseError.variableText v}"
    | event e => e.text
    | paused n => s!"Stepped collapse paused {n} times"
    | snapshotSaved path => s!"Saved wave snapshot to {quote path}"
    | solved st =>
      s!"XWFC completed successfully: {st.observations} observations, " ++
        s!"{st.backtracks} backtracks, {st.restarts} restarts, " ++
        s!"{st.propagationSteps} propagation steps"
    | failed cause => s!"XWFC failed: {cause.message}"
    | gridReady path => s!"Saving final grid to: {path}"
    | savingGrid path => s!"Attempting to save grid to {quote path}..."
    | gridSaved path => s!"Successfully saved grid to {quote path}"
    | comparing n => s!"Benchmark mode enabled. Runs per solver mode: {n}"
    | compared seed eager stepped =>
      s!"Seed {seed}: " ++ driverText "eager" eager.1 eager.2 ++ ", " ++
        driverText "stepped" stepped.1 stepped.2
    | disagreed seed => s!"Eager and stepped solver disagree for seed {seed}"
    | savingTable path => s!"Writing benchmark results to {quote path}"
    | tableSaved path => s!"Benchmark results written to {quote path}"

end RunNote

/-! ## A log of progress

An observer that records one line for a report, but no second one within an interval. Time
stands still in a journal, so with an interval only the first report has a line. The
observer never stops a search. -/

/-- How much of the variables is resolved, in percent; all of none counts as done. -/
def Progress.percentage (p : Progress) : Float :=
  if p.total = 0 then 100.0
  else Statistics.count p.resolved / Statistics.count p.total * 100.0

namespace ProgressLog

/-- Whether a report has a line, after the earlier ones. -/
def due (interval : Duration) (earlier : List Progress) : Bool :=
  interval = Duration.zero || earlier.isEmpty

/-- The line of a report. -/
def line (p : Progress) : Record where
  level := .info
  text := s!"Progress: observation {p.observations}, resolved {p.resolved}/{p.total} " ++
    s!"({Decimal.fixed 1 p.percentage}%), {p.backtracks} backtracks, {p.restarts} restarts, " ++
    s!"{Duration.zero.short} elapsed"

/-- The lines that the latest report has, given all reports, the latest first. -/
def linesOf (interval : Duration) : List Progress → List Record
  | [] => []
  | p :: earlier => if due interval earlier then [line p] else []

/-- How many lines all reports have. -/
def count (interval : Duration) : List Progress → Nat
  | [] => 0
  | p :: earlier => (linesOf interval (p :: earlier)).length + count interval earlier

/-- The observer that keeps the log. -/
def observer (interval : Duration) : Observer where
  verdict _ := .ok ()
  records := linesOf interval

end ProgressLog

end WaveCollapse
