import WaveCollapse.Benchmark.Report
import WaveCollapse.Numbers
import WaveCollapse.Run.Standard

/-! # Comparing the drivers

Both drivers search with the same seeds, one after the other, and each pair of trials has
to end alike. Then the scenarios are shown and saved, and a pair that did not fails the
run. -/

namespace WaveCollapse

variable {m : Type → Type} [Monad m]

/-- Saves the scenarios of a comparison. -/
def Comparison.save (c : Comparison) (path : String) : Act m Unit := do
  Act.save path (Scenario.fileText c.scenarios)
  Act.tell [RunNote.tableSaved path]

namespace Settings

variable (watch : Stopwatch m) (s : Settings)

/-- One trial on a fresh grid; only the search itself is timed. -/
def trial (opened : OpenRules) (mode : DriveMode) (seed : Nat) : Act m Trial := do
  let { registry, rules } := opened
  Act.tell (s.prepareNotes registry rules)
  let p ← Act.ofExcept (s.prepare registry rules { s.config with seed := some seed } (.ofSeed seed))
  let journal := (← get).journal
  let (ending, elapsed) ← Act.measure watch fun _ => mode.drive p.solver s.maxSteps journal
  Act.keepJournal fun _ => ((), ending.journal)
  return { mode, seed, elapsed, result := ending.result, waves := ending.solver.system.waves }

/-- The trials of both drivers for one seed, and whether they end alike. -/
def trialPair (opened : OpenRules) (seed : Nat) : Act m (Trial × Trial × Bool) := do
  let eager ← s.trial watch opened .eager seed
  let stepped ← s.trial watch opened .stepped seed
  Act.tell [RunNote.compared seed (eager.elapsed, eager.succeeded)
    (stepped.elapsed, stepped.succeeded)]
  let agree := eager.agrees stepped
  if !agree then
    Act.tell [RunNote.disagreed seed]
  return (eager, stepped, agree)

/-- The seeds to compare on: consecutive, from the configured one on. -/
def seeds : List Nat :=
  (List.range s.benchmarkRuns).map fun i => (s.seed.getD 0 + i) % twoTo 64

/-- Compares both drivers on all seeds. -/
def compare (ruleFile : String) (opened : OpenRules) : Act m Comparison := do
  let pairs ← s.seeds.mapM fun seed => s.trialPair watch opened seed
  let trials := pairs.flatMap fun (eager, stepped, _) => [eager, stepped]
  let modules := opened.registry.modules.length
  return {
    scenarios := DriveMode.all.map fun mode => .ofTrials ruleFile s modules mode trials
    mismatched :=
      (pairs.filter fun (_, _, agree) => !agree).map fun (eager, _, _) => eager.seed }

/-- Compares the drivers, reports, and fails if they disagree on some seed. -/
def runComparison : Act m Unit := do
  Act.tell [RunNote.comparing s.benchmarkRuns]
  let opened ← s.openRules
  let ruleFile ← Act.ofExcept (s.requiredRuleFile.mapError .config)
  let c ← s.compare watch ruleFile opened
  Act.print (c.text (← get).color)
  if let some path := s.benchmarkTable then
    Act.tell [RunNote.savingTable path]
    c.save path
  if !c.mismatched.isEmpty then
    throw (.mismatch c.mismatched)

/-- A whole run with settings that were resolved before. -/
def perform (spare : WordStream) : Act m Unit := do
  Act.tell [RunNote.journalKept, RunNote.starting, RunNote.settled s]
  if s.benchmark then
    s.runComparison watch
  else
    if s.benchmarkTable.isSome then
      Act.tell [RunNote.tableIgnored]
    s.collapseGrid spare
  Act.tell [RunNote.finished]

end Settings

end WaveCollapse
