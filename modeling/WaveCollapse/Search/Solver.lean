import WaveCollapse.Search.Event

/-! # The solver

A search alternates propagation and observation. At first every variable is scheduled, so
that forced states reach their neighbours. When nothing waits on the frontier any more, a
variable of lowest entropy is observed and scheduled. When a variable loses all of its
states the search recovers: with backtracking it returns to the waves before the last
observation and excludes the state that was picked there; without, it gives every variable
its starting wave and goes on with what is left of the source.

`Solver.step` is one step of this, whoever drives it. The *run* holds what belongs to one
call: its limit and its counts. -/

namespace WaveCollapse

/-- A variable that was observed and the state it was collapsed to. -/
structure Choice where
  v : Nat
  state : Nat
deriving DecidableEq, Inhabited

/-- A system with everything its search needs. The stacks have their latest entry first. -/
structure Solver (V ρ : Type) where
  system : System V
  config : Config := {}
  source : ρ
  /-- The waves before each observation that can be undone. -/
  checkpoints : List (Array Wave) := []
  /-- The observations that stand. -/
  choices : List Choice := []
  frontier : Frontier := []
  /-- What the observer was told. -/
  reports : List Progress := []

/-- The limit and the counts of one call. -/
structure Run where
  /-- The most observations that may be made. -/
  limit : Nat
  initialized : Bool := false
  inconsistent : Bool := false
  observations : Nat := 0
  observationsSinceReset : Nat := 0
  backtracks : Nat := 0
  restarts : Nat := 0
  propagationSteps : Nat := 0
deriving DecidableEq, Inhabited

namespace Run

/-- One more observation was made. -/
def counted (r : Run) : Run :=
  { r with
    observations := r.observations + 1
    observationsSinceReset := r.observationsSinceReset + 1 }

/-- The counts of the run. -/
def stats (r : Run) : Stats := ⟨r.observations, r.backtracks, r.restarts, r.propagationSteps⟩

end Run

/-- What a step leads to: an event, or the end of the search. -/
inductive Outcome where
  | event (e : Event)
  | finished (result : Except CollapseError Stats)
deriving Inhabited

/-- A step of a search: where it led, and the solver and the run after it. -/
structure Stepped (V ρ : Type) where
  outcome : Outcome
  solver : Solver V ρ
  run : Run
  notes : List SearchNote := []

namespace Solver
variable {V ρ : Type}

/-! ## Starting -/

/-- Schedules every variable, the first one on top; if some variable has no state this is a
contradiction at once. -/
def schedule (s : Solver V ρ) (run : Run) : Stepped V ρ :=
  match s.system.waves.findIdx? Wave.isEmpty with
  | some v =>
    ⟨.event (.contradiction v), { s with frontier := [] }, { run with inconsistent := true },
      [.emptyBeforehand v]⟩
  | none =>
    ⟨.event (.initialized s.system.size),
      { s with frontier := (List.range s.system.size).map ({ v := · }) }, run, []⟩

/-- The first step of a run: what an earlier run left behind is forgotten. -/
def start (s : Solver V ρ) (run : Run) : Stepped V ρ :=
  schedule { s with checkpoints := [], choices := [] } { run with initialized := true }

/-! ## Observing -/

/-- The report of a run to its observer. -/
def progress (s : Solver V ρ) (run : Run) : Progress where
  observations := run.observations
  resolved := s.system.resolvedCount
  total := s.system.size
  backtracks := run.backtracks
  restarts := run.restarts

/-- Tells the observer, if there is one. Whatever error it answers with aborts the run. -/
def report (s : Solver V ρ) (run : Run) :
    Except CollapseError Unit × Solver V ρ × List SearchNote :=
  match s.config.observer with
  | none => (.ok (), s, [])
  | some observer =>
    let reports := s.progress run :: s.reports
    let verdict := match observer.verdict reports with
      | .ok _ => .ok ()
      | .error (.aborted reason) => .error (.aborted reason)
      | .error other => .error (.aborted other.message)
    (verdict, { s with reports }, (observer.records reports).map .record)

/-- Saves the waves, so that the observation to come can be undone. -/
def remember (s : Solver V ρ) : Solver V ρ :=
  if s.config.backtracking then { s with checkpoints := s.system.waves :: s.checkpoints } else s

/-- Takes over what the observation of a variable left, and schedules the variable. -/
def commit (s : Solver V ρ) (v p : Nat) (seen : Wave.Observation ρ) : Solver V ρ :=
  { s with
    system := { s.system with waves := s.system.waves.setIfInBounds v seen.wave }
    source := seen.source
    choices := ⟨v, p⟩ :: s.choices
    frontier := s.frontier.push v }

/-- Ends the step of an observation: the observer of the run decides whether it goes on. -/
def announce (s : Solver V ρ) (run : Run) (v p : Nat) : Stepped V ρ :=
  let told := s.report run
  let notes := .observation run.observations v p :: told.2.2
  match told.1 with
  | .ok _ => ⟨.event (.observed v p), told.2.1, run, notes⟩
  | .error e => ⟨.finished (.error e), told.2.1, run, notes⟩

/-- Collapses a variable that was selected. -/
def collapseVariable [PickSource ρ] (s : Solver V ρ) (run : Run) (v : Nat) : Stepped V ρ :=
  let w := s.system.wave v
  if ¬ w.Readable then ⟨.finished (.error .unreadableWave), s.remember, run, []⟩
  else
    let seen := w.observe s.source
    match seen.picked with
    | none =>
      ⟨.event (.contradiction v), { s.remember with source := seen.source },
        { run with inconsistent := true }, w.observeNotes.map .wave⟩
    | some p => (s.remember.commit v p seen).announce run.counted v p

/-- Observes the next variable, or ends the run when nothing is ambiguous or its limit is
reached. -/
def observe [PickSource ρ] (s : Solver V ρ) (run : Run) : Stepped V ρ :=
  let (selected, source) := select s.config.selection s.system.waves s.source
  let s := { s with source }
  match selected with
  | none => ⟨.finished (.ok run.stats), s, run, []⟩
  | some v =>
    if run.limit ≤ run.observations then
      ⟨.finished (.error (.stepLimit run.limit)), s, run, []⟩
    else s.collapseVariable run v

/-! ## Recovering -/

/-- Undoes the latest decision whose exclusion leaves its variable a state. The checkpoints
and choices still to be tried are given, the latest first. -/
def unwind (s : Solver V ρ) (run : Run) (notes : List SearchNote) :
    List (Array Wave) → List Choice → Stepped V ρ
  | waves :: checkpoints, c :: choices =>
    match s.system.restore waves with
    | .error e =>
      ⟨.finished (.error e), { s with checkpoints, choices }, run, notes⟩
    | .ok system =>
      let run := { run with backtracks := run.backtracks + 1 }
      let w := (system.wave c.v).remove c.state
      let s := { s with
        system := { system with waves := system.waves.setIfInBounds c.v w } }
      if w.isEmpty then
        unwind s run (notes ++ [.emptiedByExclusion c.state c.v]) checkpoints choices
      else
        ⟨.event (.backtracked c.v c.state choices.length),
          { s with checkpoints, choices, frontier := s.frontier.push c.v }, run,
          notes ++ [.backtracked choices.length c.state c.v]⟩
  | checkpoints, choices =>
    ⟨.finished (.error (.exhausted run.observations run.backtracks)),
      { s with checkpoints := checkpoints.tail, choices := choices.tail }, run, notes⟩

/-- Gives every variable its starting wave. Without an observation since the last time this
would lead to the same contradiction again. -/
def restart (s : Solver V ρ) (run : Run) : Stepped V ρ :=
  if run.observationsSinceReset = 0 then
    ⟨.finished (.error (.exhausted run.observations run.backtracks)), s, run, []⟩
  else
    let resetNotes := s.system.problem.resetNotes.map SearchNote.problem
    match s.system.reset with
    | .error e => ⟨.finished (.error e), s, run, resetNotes⟩
    | .ok system =>
      let run := { run with restarts := run.restarts + 1, observationsSinceReset := 0 }
      let next := schedule { s with system, choices := [], checkpoints := [] } run
      let notes := resetNotes ++ .restarted run.restarts run.observations :: next.notes
      match next.outcome with
      | .event (.initialized _) => { next with outcome := .event .restarted, notes }
      | _ => { next with notes }

/-- Recovers from a contradiction. -/
def recover (s : Solver V ρ) (run : Run) : Stepped V ρ :=
  let run := { run with inconsistent := false }
  if s.config.backtracking then s.unwind run [] s.checkpoints s.choices else s.restart run

/-! ## One step -/

/-- Relaxes one connection, or observes when none waits. -/
def advance [PickSource ρ] (s : Solver V ρ) (run : Run) : Stepped V ρ :=
  let next := s.system.propagateStep s.frontier
  let s := { s with system := next.system, frontier := next.frontier }
  let counted := { run with propagationSteps := run.propagationSteps + 1 }
  let notes := next.notes.map SearchNote.narrowing
  match next.relaxation with
  | .idle => s.observe run
  | .unchanged source destination kind =>
    ⟨.event (.propagated source destination kind false), s, counted, notes⟩
  | .narrowed source destination kind =>
    ⟨.event (.propagated source destination kind true), s, counted, notes⟩
  | .contradiction _ destination _ =>
    ⟨.event (.contradiction destination), s, { counted with inconsistent := true },
      notes ++ [.contradiction destination]⟩
  | .unreadable => ⟨.finished (.error .unreadableWave), s, run, notes⟩

/-- One step of the search. -/
def step [PickSource ρ] (s : Solver V ρ) (run : Run) : Stepped V ρ :=
  if !run.initialized then s.start run
  else if run.inconsistent then s.recover run
  else s.advance run

end Solver

end WaveCollapse
