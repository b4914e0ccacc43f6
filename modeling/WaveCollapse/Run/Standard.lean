import WaveCollapse.Output
import WaveCollapse.Rules.Cache
import WaveCollapse.Run.Act
import WaveCollapse.Run.Note
import WaveCollapse.Run.Setup
import WaveCollapse.Search.Drive
import WaveCollapse.System.Snapshot

/-! # The standard run

Loads the rules, collapses one grid and saves it. A stepwise search may show a frame after
every observation; the last frame is shown however the search ended. -/

namespace WaveCollapse

/-- What is kept of a watched search. -/
structure Watched where
  events : Nat := 0
  /-- Draws the frames, if any are shown. -/
  drawing : Option Drawing
  /-- The frames so far. -/
  shown : String := ""

namespace Watched

/-- The next frame, or nothing if no frames are shown. -/
def nextFrame (w : Watched) (g : Grid) (s : System Nat) : String × Option Drawing :=
  match w.drawing with
  | none => ("", none)
  | some drawing =>
    let (text, drawing) := drawing.frame g s
    (text, some drawing)

/-- Shows the next frame. -/
def showFrame (w : Watched) (g : Grid) (s : System Nat) : Watched :=
  let (text, drawing) := w.nextFrame g s
  { w with drawing, shown := w.shown ++ text }

/-- Sees an event: notes it, and shows a frame after an observation. -/
def see (g : Grid) (e : Event) (s : System Nat) : Watched × Journal → Watched × Journal
  | (w, journal) =>
    let w := { w with events := w.events + 1 }
    match e with
    | .observed v p => (w.showFrame g s, journal.tell (RunNote.observed v p))
    | e => (w, journal.tell (RunNote.event e))

end Watched

namespace Settings
variable {m : Type → Type} [Monad m] (s : Settings)

/-! ## Rules -/

/-- A registry and the rules over it, which answer from a cache. -/
structure OpenRules where
  registry : Registry
  rules : Rules

/-- Checks that rules are rules for a grid, and gives them a cache. -/
def cacheRules (loaded : LoadedRules) : Except RunError OpenRules := do
  loaded.registry.checkCompass.mapError .config
  let rules ← (loaded.ruleSet.rules.cached loaded.registry.stride).mapError .layout
  return { registry := loaded.registry, rules }

/-- Loads the rule file. -/
def openRules : Act m OpenRules := do
  let path ← Act.ofExcept (s.requiredRuleFile.mapError .config)
  Act.tell [RunNote.loading path]
  let files := (← get).files
  Act.tell (files.loadNotes path)
  let loaded ← Act.ofExcept ((files.loadRules path).mapError .rules)
  let rules := loaded.ruleSet.rules
  let r := loaded.registry
  Act.tell [RunNote.loaded loaded.ruleSet.kind rules.typeCount r.modules.length r.classCount]
  let opened ← Act.ofExcept (cacheRules loaded)
  Act.tell [rules.cachedNote r.stride]
  return opened

/-! ## Searching -/

/-- The configuration of a search that reports its progress if the settings want it. -/
def reportingConfig : Config :=
  { s.config with observer := s.progressInterval.map ProgressLog.observer }

/-- The drawing that the settings ask for. -/
def drawing (r : Registry) (color : Bool) : Option Drawing :=
  match s.view with
  | .none => Option.none
  | .terminal => some { registry := r, color }

/-- Searches with the driver that the settings ask for. -/
def search (p : Prepared) (w : Watched) (journal : Journal) :
    (Ending Nat WordStream × Watched) × Journal :=
  if s.stepped then
    let journal := journal.tell (Stepper.startNote p.solver s.maxSteps)
    let (w, st, journal) :=
      (Stepper.ofSolver p.solver s.maxSteps).watch (Watched.see p.grid) w journal
    let ending := st.finish (journal.tell (RunNote.paused w.events))
    ((ending, w), ending.journal)
  else
    let ending := p.solver.collapse s.maxSteps journal
    ((ending, w), ending.journal)

/-! ## Saving -/

/-- Saves the waves, resolved or not, if the settings want it. -/
def saveSnapshot (system : System Nat) : Act m Unit :=
  match s.snapshotPath with
  | none => pure ()
  | some path => do
    Act.save path system.writeSnapshot
    Act.tell [RunNote.snapshotSaved path]

/-- Saves the finished grid. -/
def saveGrid (r : Registry) (g : Grid) (system : System Nat) : Act m Unit := do
  Act.tell [RunNote.gridReady s.outputPath, RunNote.savingGrid s.outputPath]
  let (text, result) := GridText.write r g system
  Act.save s.outputPath text
  Act.ofExcept (result.mapError .unresolved)
  Act.tell [RunNote.gridSaved s.outputPath]

/-- Collapses one grid and saves it. -/
def collapseGrid (spare : WordStream) : Act m Unit := do
  Act.tell [RunNote.searching]
  let { registry, rules } ← s.openRules
  Act.tell (s.progressInterval.toList.map RunNote.reporting)
  Act.tell (s.prepareNotes registry rules)
  let p ← Act.ofExcept (s.prepare registry rules s.reportingConfig spare)
  Act.tell [RunNote.collapsing s]
  let drawing := s.drawing registry (← get).color
  let (ending, watched) ← Act.keepJournal (s.search p { drawing })
  let system := ending.solver.system
  Act.print watched.shown
  s.saveSnapshot system
  match ending.result with
  | .ok stats =>
    Act.tell [RunNote.solved stats]
    Act.print (watched.nextFrame p.grid system).1
    s.saveGrid registry p.grid system
  | .error cause =>
    Act.tell [RunNote.failed cause]
    Act.print (watched.nextFrame p.grid system).1
    throw (.collapse cause)

end Settings

end WaveCollapse
