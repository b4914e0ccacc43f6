import WaveCollapse.Proofs.Search.Decisions

/-! # What one step of a search can do

`Solver.Begins` lists the first steps of a search and `Solver.Move` the steps of a search that
is kept up, each with what it needs and what it leaves.  Nothing else happens: no wave is
unreadable, no selected variable is empty, restoring a saved vector fits, and excluding a
decision never empties its variable, so one contradiction undoes exactly one decision
(`Upkeep.step_move`).
-/

namespace WaveCollapse

namespace Solver
variable {V ρ : Type}

/-- The solver after a step of propagation. -/
def carried (s : Solver V ρ) (next : Propagated V) : Solver V ρ :=
  { s with system := next.system, frontier := next.frontier }

/-- The solver after the variable `v` was collapsed to `p`. -/
def decided (s : Solver V ρ) (v p : Nat) (source : ρ) (reports : List Progress) : Solver V ρ :=
  { s with
    system := { s.system with
      waves := s.system.waves.setIfInBounds v ((s.system.wave v).single p) }
    source
    checkpoints := if s.config.backtracking then s.system.waves :: s.checkpoints else s.checkpoints
    choices := ⟨v, p⟩ :: s.choices
    frontier := [{ v }]
    reports }

theorem decided_checkpoints {s : Solver V ρ} (mode : s.config.backtracking = true) (v p : Nat)
    (source : ρ) (reports : List Progress) :
    (s.decided v p source reports).checkpoints = s.system.waves :: s.checkpoints := by
  unfold decided
  rw [mode]
  rfl

/-- The solver that goes on with the alternative of the last decision. -/
def undone (s : Solver V ρ) (ws : Array Wave) (saved : List (Array Wave)) (c : Choice)
    (choices : List Choice) : Solver V ρ :=
  { s with
    system := { s.system with waves := alternative ws c }
    checkpoints := saved
    choices
    frontier := s.frontier.push c.v }

/-- The solver with a vector in force from which nothing was decided. -/
def renewed (s : Solver V ρ) (ws : Array Wave) (frontier : Frontier) : Solver V ρ :=
  { s with system := { s.system with waves := ws }, checkpoints := [], choices := [], frontier }

/-- What the first step of a search can do. -/
inductive Begins (s : Solver V ρ) (run : Run) : Stepped V ρ → Prop where
  | alive (alive : AliveWaves s.system.waves) :
      Begins s run ⟨.event (.initialized s.system.size),
        s.renewed s.system.waves (.all s.system.size), { run with initialized := true }, []⟩
  | empty {v : Nat} (empty : v < s.system.size ∧ (s.system.wave v).isEmpty = true) :
      Begins s run ⟨.event (.contradiction v), s.renewed s.system.waves [],
        { run with initialized := true, inconsistent := true }, [.emptyBeforehand v]⟩

/-- What any later step of a search can do. -/
inductive Move (s : Solver V ρ) (run : Run) : Stepped V ρ → Prop where
  | unchanged {next : Propagated V} {u v t : Nat} (on : run.inconsistent = false)
      (step : s.system.Relaxes s.frontier next) (what : next.relaxation = .unchanged u v t)
      (notes : List SearchNote) :
      Move s run ⟨.event (.propagated u v t false), s.carried next,
        { run with propagationSteps := run.propagationSteps + 1 }, notes⟩
  | narrowed {next : Propagated V} {u v t : Nat} (on : run.inconsistent = false)
      (step : s.system.Relaxes s.frontier next) (what : next.relaxation = .narrowed u v t)
      (notes : List SearchNote) :
      Move s run ⟨.event (.propagated u v t true), s.carried next,
        { run with propagationSteps := run.propagationSteps + 1 }, notes⟩
  | contradicted {next : Propagated V} {u v t : Nat} (on : run.inconsistent = false)
      (step : s.system.Relaxes s.frontier next) (what : next.relaxation = .contradiction u v t)
      (notes : List SearchNote) :
      Move s run ⟨.event (.contradiction v), s.carried next,
        { run with propagationSteps := run.propagationSteps + 1, inconsistent := true }, notes⟩
  | observed {v p : Nat} {source : ρ} {reports : List Progress} (on : run.inconsistent = false)
      (idle : s.system.nextConnection s.frontier = none)
      (chosen : v ∈ lowestCandidates s.system.waves) (room : run.observations < run.limit)
      (mem : p ∈ s.system.wave v) (notes : List SearchNote) :
      Move s run ⟨.event (.observed v p), s.decided v p source reports, run.counted, notes⟩
  | aborted {v p : Nat} {source : ρ} {reports : List Progress} {reason : String}
      (on : run.inconsistent = false) (idle : s.system.nextConnection s.frontier = none)
      (chosen : v ∈ lowestCandidates s.system.waves) (room : run.observations < run.limit)
      (mem : p ∈ s.system.wave v) (watched : s.config.observer ≠ none)
      (notes : List SearchNote) :
      Move s run ⟨.finished (.error (.aborted reason)), s.decided v p source reports,
        run.counted, notes⟩
  | solved {source : ρ} (on : run.inconsistent = false)
      (idle : s.system.nextConnection s.frontier = none)
      (clear : ∀ v < s.system.size, (s.system.wave v).entropy = 0) (notes : List SearchNote) :
      Move s run ⟨.finished (.ok run.stats), { s with source, frontier := [] }, run, notes⟩
  | limited {v : Nat} {source : ρ} (on : run.inconsistent = false)
      (idle : s.system.nextConnection s.frontier = none)
      (chosen : v ∈ lowestCandidates s.system.waves) (full : run.limit ≤ run.observations)
      (notes : List SearchNote) :
      Move s run ⟨.finished (.error (.stepLimit run.limit)), { s with source, frontier := [] },
        run, notes⟩
  | backtracked {ws : Array Wave} {saved : List (Array Wave)} {c : Choice}
      {choices : List Choice} (off : run.inconsistent = true)
      (mode : s.config.backtracking = true) (checkpoints : s.checkpoints = ws :: saved)
      (taken : s.choices = c :: choices) (notes : List SearchNote) :
      Move s run ⟨.event (.backtracked c.v c.state choices.length),
        s.undone ws saved c choices,
        { run with inconsistent := false, backtracks := run.backtracks + 1 }, notes⟩
  | exhausted (off : run.inconsistent = true) (mode : s.config.backtracking = true)
      (nothing : s.checkpoints = [] ∧ s.choices = []) (notes : List SearchNote) :
      Move s run ⟨.finished (.error (.exhausted run.observations run.backtracks)), s,
        { run with inconsistent := false }, notes⟩
  | hopeless (off : run.inconsistent = true) (mode : s.config.backtracking = false)
      (since : run.observationsSinceReset = 0) (notes : List SearchNote) :
      Move s run ⟨.finished (.error (.exhausted run.observations run.backtracks)), s,
        { run with inconsistent := false }, notes⟩
  | restarted {ws : Array Wave} (off : run.inconsistent = true)
      (mode : s.config.backtracking = false) (since : run.observationsSinceReset ≠ 0)
      (starting : s.system.problem.startingWaves = .ok ws) (alive : AliveWaves ws)
      (notes : List SearchNote) :
      Move s run ⟨.event .restarted, s.renewed ws (.all ws.size),
        { run with
          inconsistent := false, restarts := run.restarts + 1, observationsSinceReset := 0 },
        notes⟩
  | restartedEmpty {ws : Array Wave} {v : Nat} (off : run.inconsistent = true)
      (mode : s.config.backtracking = false) (since : run.observationsSinceReset ≠ 0)
      (starting : s.system.problem.startingWaves = .ok ws)
      (empty : v < ws.size ∧ (waveAt ws v).isEmpty = true) (notes : List SearchNote) :
      Move s run ⟨.event (.contradiction v), s.renewed ws [],
        { run with
          inconsistent := true, restarts := run.restarts + 1, observationsSinceReset := 0 },
        notes⟩
  | unstartable {e : CollapseError} (off : run.inconsistent = true)
      (mode : s.config.backtracking = false) (since : run.observationsSinceReset ≠ 0)
      (starting : s.system.problem.startingWaves = .error e) (notes : List SearchNote) :
      Move s run ⟨.finished (.error e), s, { run with inconsistent := false }, notes⟩

/-! ## Scheduling -/

theorem schedule_of_alive {s : Solver V ρ} (h : AliveWaves s.system.waves) (run : Run) :
    s.schedule run = ⟨.event (.initialized s.system.size),
      { s with frontier := .all s.system.size }, run, []⟩ := by
  unfold schedule
  rw [findIdx?_isEmpty_eq_none.mpr h]
  rfl

/-- Either no wave is empty and all variables are scheduled, or an empty wave is reported. -/
theorem schedule_cases (s : Solver V ρ) (run : Run) :
    AliveWaves s.system.waves ∧ s.schedule run = ⟨.event (.initialized s.system.size),
        { s with frontier := .all s.system.size }, run, []⟩ ∨
      ∃ v, (v < s.system.size ∧ (s.system.wave v).isEmpty = true) ∧
        s.schedule run = ⟨.event (.contradiction v), { s with frontier := [] },
          { run with inconsistent := true }, [.emptyBeforehand v]⟩ := by
  cases h : s.system.waves.findIdx? Wave.isEmpty with
  | none =>
    have ha := findIdx?_isEmpty_eq_none.mp h
    exact .inl ⟨ha, schedule_of_alive ha run⟩
  | some v =>
    refine .inr ⟨v, findIdx?_isEmpty_eq_some h, ?_⟩
    unfold schedule
    rw [h]

/-! ## The step of a run -/

/-- Undoing finds the last decision at once: its exclusion leaves its variable a state. -/
theorem unwind_move {s : Solver V ρ} {run : Run}
    (hd : List.Forall₂ (Undoable s.system.size) s.checkpoints s.choices)
    (off : run.inconsistent = true) (mode : s.config.backtracking = true) :
    Move s run (s.unwind { run with inconsistent := false } [] s.checkpoints s.choices) := by
  cases hcp : s.checkpoints with
  | nil =>
    have hch : s.choices = [] := by
      have := hd.length_eq
      rw [hcp] at this
      exact List.eq_nil_of_length_eq_zero this.symm
    rw [hch]
    -- `unwind` drops one entry from stacks that are empty already
    have hs : s = { s with checkpoints := [], choices := [] } := by
      cases s
      simp_all
    have h := Move.exhausted off mode ⟨hcp, hch⟩ []
    rw [hs] at h ⊢
    exact h
  | cons ws saved =>
    cases hch : s.choices with
    | nil =>
      rw [hcp, hch] at hd
      cases hd
    | cons c choices =>
      rw [hcp, hch] at hd
      obtain ⟨undoable, -⟩ := List.forall₂_cons.mp hd
      unfold unwind System.restore
      rw [if_pos undoable.size]
      simp only [System.wave_eq, undoable.undo]
      exact .backtracked off mode hcp hch _

theorem restart_move {s : Solver V ρ} {run : Run} (off : run.inconsistent = true)
    (mode : s.config.backtracking = false) :
    Move s run (s.restart { run with inconsistent := false }) := by
  unfold restart
  by_cases since : run.observationsSinceReset = 0
  · rw [if_pos since]
    exact .hopeless off mode since _
  · rw [if_neg since]
    unfold System.reset
    cases starting : s.system.problem.startingWaves with
    | error e => exact .unstartable off mode since starting _
    | ok ws =>
      simp only [Except.map]
      rcases schedule_cases
          { s with system := { s.system with waves := ws }, choices := [], checkpoints := [] }
          { run with
            inconsistent := false, restarts := run.restarts + 1, observationsSinceReset := 0 }
        with ⟨ha, h⟩ | ⟨v, he, h⟩
      · rw [h]
        exact .restarted off mode since starting ha _
      · rw [h]
        exact .restartedEmpty off mode since starting he _

/-- The first step of a run. -/
theorem start_begins (s : Solver V ρ) (run : Run) : Begins s run (s.start run) := by
  unfold start
  rcases schedule_cases { s with checkpoints := [], choices := [] }
    { run with initialized := true } with ⟨ha, h⟩ | ⟨v, he, h⟩
  · rw [h]
    exact .alive (s := s) ha
  · rw [h]
    exact .empty (s := s) he

/-- The first step of a run never ends it. -/
theorem start_told (s : Solver V ρ) (run : Run) : ∃ e, (s.start run).outcome = .event e := by
  have hbegins := start_begins s run
  generalize s.start run = next at hbegins
  cases hbegins <;> exact ⟨_, rfl⟩

/-- With no empty wave to begin with, the first step schedules all variables. -/
theorem start_of_alive {s : Solver V ρ} (h : AliveWaves s.system.waves) (run : Run) :
    s.start run = ⟨.event (.initialized s.system.size),
      s.renewed s.system.waves (.all s.system.size), { run with initialized := true }, []⟩ :=
  schedule_of_alive (s := { s with checkpoints := [], choices := [] }) h _

section Steps
variable [PickSource ρ]

/-- Collapsing a variable that has a state leaves one of its states. -/
theorem collapseVariable_of_mem {s : Solver V ρ} {v q : Nat} (hw : (s.system.wave v).WellFormed)
    (hq : q ∈ s.system.wave v) (run : Run) : ∃ p ∈ s.system.wave v, ∃ source,
      s.collapseVariable run v =
        (s.remember.commit v p ⟨some p, (s.system.wave v).single p, source⟩).announce
          run.counted v p := by
  obtain ⟨p, hp, rest, hseen⟩ := Wave.observe_of_mem hq s.source
  refine ⟨p, hp, rest, ?_⟩
  unfold collapseVariable
  simp only [hseen]
  rw [if_neg (not_not_intro hw.readable)]

omit [PickSource ρ] in
/-- An observation is told, or its observer stops the run. -/
theorem announce_cases (s : Solver V ρ) (run : Run) (v p : Nat) : ∃ reports notes,
    s.announce run v p = ⟨.event (.observed v p), { s with reports }, run, notes⟩ ∨
      s.config.observer ≠ none ∧ ∃ reason, s.announce run v p =
        ⟨.finished (.error (.aborted reason)), { s with reports }, run, notes⟩ := by
  cases ho : s.config.observer with
  | none =>
    refine ⟨s.reports, [.observation run.observations v p], .inl ?_⟩
    simp only [announce, report, ho]
  | some observer =>
    refine ⟨s.progress run :: s.reports, .observation run.observations v p ::
      (observer.records (s.progress run :: s.reports)).map .record, ?_⟩
    simp only [announce, report, ho]
    cases hv : observer.verdict (s.progress run :: s.reports) with
    | ok _ => exact .inl rfl
    | error e =>
      refine .inr ⟨by simp, ?_⟩
      cases e with
      | aborted reason => exact ⟨reason, rfl⟩
      | _ => exact ⟨_, rfl⟩

/-- An observation for which nothing is selected ends the search. -/
theorem observe_of_none {s : Solver V ρ} {source : ρ}
    (h : select s.config.selection s.system.waves s.source = (none, source)) (run : Run) :
    s.observe run = ⟨.finished (.ok run.stats), { s with source }, run, []⟩ := by
  unfold observe
  rw [h]

/-- An observation for which a variable is selected is cut short by the limit, or collapses the
variable. -/
theorem observe_of_some {s : Solver V ρ} {source : ρ} {v : Nat}
    (h : select s.config.selection s.system.waves s.source = (some v, source)) (run : Run) :
    s.observe run = if run.limit ≤ run.observations then
        ⟨.finished (.error (.stepLimit run.limit)), { s with source }, run, []⟩
      else { s with source }.collapseVariable run v := by
  unfold observe
  rw [h]

/-- Where no connection waits, a search finds nothing ambiguous, has no observation left, or
collapses a candidate and asks the observer. -/
theorem observe_cases {s : Solver V ρ} (hwf : s.system.WellFormed) (ha : AliveWaves s.system.waves)
    (run : Run) :
    (∃ source, (∀ v < s.system.size, (s.system.wave v).entropy = 0) ∧
      { s with frontier := [] }.observe run =
        ⟨.finished (.ok run.stats), { s with source, frontier := [] }, run, []⟩) ∨
    ∃ v ∈ lowestCandidates s.system.waves,
      (∃ source, run.limit ≤ run.observations ∧ { s with frontier := [] }.observe run =
        ⟨.finished (.error (.stepLimit run.limit)), { s with source, frontier := [] }, run, []⟩) ∨
      ∃ p ∈ s.system.wave v, ∃ source, run.observations < run.limit ∧
        { s with frontier := [] }.observe run =
          (s.decided v p source s.reports).announce run.counted v p := by
  cases hsel : select s.config.selection s.system.waves s.source with
  | mk selected source =>
    cases selected with
    | none =>
      exact .inl ⟨source, select_none hsel, observe_of_none (s := { s with frontier := [] }) hsel run⟩
    | some v =>
      have chosen := select_some hsel
      obtain ⟨hv, -, -⟩ := mem_lowestCandidates.mp chosen
      refine .inr ⟨v, chosen, ?_⟩
      rw [observe_of_some (s := { s with frontier := [] }) hsel]
      by_cases full : run.limit ≤ run.observations
      · rw [if_pos full]
        exact .inl ⟨source, full, rfl⟩
      · rw [if_neg full]
        obtain ⟨q, hq⟩ := (Wave.isEmpty_eq_false_iff (hwf v hv)).mp (ha v hv)
        obtain ⟨p, hp, rest, hcollapse⟩ := collapseVariable_of_mem
          (s := { s with source, frontier := [] }) (hwf v hv) hq run
        refine .inr ⟨p, hp, rest, Nat.lt_of_not_le full, ?_⟩
        rw [hcollapse]
        unfold remember commit decided Frontier.push
        cases s.config.backtracking <;> rfl

/-- Observing where no connection waits. -/
theorem observe_move {s : Solver V ρ} {run : Run} (hwf : s.system.WellFormed)
    (ha : AliveWaves s.system.waves) (on : run.inconsistent = false)
    (idle : s.system.nextConnection s.frontier = none) :
    Move s run ({ s with frontier := [] }.observe run) := by
  rcases observe_cases hwf ha run with ⟨source, clear, hend⟩ |
    ⟨v, chosen, ⟨source, full, hend⟩ | ⟨p, hp, source, room, hannounce⟩⟩
  · rw [hend]
    exact .solved on idle clear _
  · rw [hend]
    exact .limited on idle chosen full _
  · rw [hannounce]
    obtain ⟨reports, notes, htold | ⟨watched, reason, hstopped⟩⟩ :=
      announce_cases (s.decided v p source s.reports) run.counted v p
    · rw [htold]
      exact .observed on idle chosen room hp notes
    · rw [hstopped]
      exact .aborted on idle chosen room hp watched notes

theorem advance_move {s : Solver V ρ} {run : Run} (hs : s.system.Intact)
    (ha : AliveWaves s.system.waves) (on : run.inconsistent = false) :
    Move s run (s.advance run) := by
  have hstep := hs.propagateStep s.frontier
  unfold advance
  generalize s.system.propagateStep s.frontier = next at hstep ⊢
  cases hstep with
  | idle idle => exact observe_move hs.wellFormed ha on idle
  | unchanged h same => exact .unchanged on (.unchanged h same) rfl _
  | narrowed notes h changed left => exact .narrowed on (.narrowed notes h changed left) rfl _
  | contradiction notes h changed emptied =>
    exact .contradicted on (.contradiction notes h changed emptied) rfl _

/-- One step of a search, whatever its rules answer. -/
theorem Upkeep.step_move {start s : Solver V ρ} {limit : Nat} {run : Run}
    (h : Upkeep start limit s run) : Move s run (s.step run) := by
  unfold step
  rw [if_neg (by rw [h.begun]; exact Bool.false_ne_true)]
  cases off : run.inconsistent with
  | false =>
    rw [if_neg Bool.false_ne_true]
    exact advance_move h.intact (h.alive off) off
  | true =>
    rw [if_pos rfl]
    unfold recover
    cases mode : s.config.backtracking with
    | false =>
      rw [if_neg Bool.false_ne_true]
      exact restart_move off mode
    | true =>
      rw [if_pos rfl]
      exact unwind_move (h.undoing mode) off mode

/-- One step of a search that has kept its invariant. -/
theorem Invariant.step_move {start s : Solver V ρ} {limit : Nat} {base : Array Wave} {run : Run}
    (hstart : start.system.Sound) (h : Invariant start limit base s run) :
    Move s run (s.step run) := (h.upkeep hstart).step_move

end Steps

end Solver
end WaveCollapse
