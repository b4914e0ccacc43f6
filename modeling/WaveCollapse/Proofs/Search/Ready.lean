import WaveCollapse.Proofs.Search.Invariant
import WaveCollapse.Proofs.Search.Ring

/-! # Where a search is ready to observe

A search observes where its run has begun, no contradiction is left, and nothing waits on the
frontier.  The waves are arc consistent there, although an observation or a backtrack schedules
one variable only: the frontier covers all connections at every moment (`Invariant.consistent`),
so when it is spent none is left that the waves do not support.  To schedule all variables
again would therefore change nothing.
-/

namespace WaveCollapse.Solver
variable {V ρ : Type}

/-- The next step observes, or ends the search because nothing is left to observe. -/
def Ready (s : Solver V ρ) (run : Run) : Prop :=
  run.initialized = true ∧ run.inconsistent = false ∧
    (s.system.propagateStep s.frontier).relaxation = .idle

instance (s : Solver V ρ) (run : Run) : Decidable (s.Ready run) :=
  inferInstanceAs (Decidable (_ ∧ _ ∧ _))

/-- Where a search is ready, its next step does nothing but observe. -/
theorem Ready.step_eq [PickSource ρ] {s : Solver V ρ} {run : Run} (ready : s.Ready run) :
    s.step run = { s with frontier := [] }.observe run := by
  obtain ⟨begun, on, idle⟩ := ready
  unfold step advance
  rw [begun, on, System.propagateStep_idle idle]
  rfl

/-- Where a search is ready, its waves are arc consistent and none of them is empty. -/
theorem Invariant.consistent_of_ready {start s : Solver V ρ} {limit : Nat} {base : Array Wave}
    {run : Run} (hstart : start.system.Sound) (hinv : Invariant start limit base s run)
    (ready : s.Ready run) :
    AliveWaves s.system.waves ∧ s.system.ArcConsistent (members s.system.waves) := by
  obtain ⟨-, on, idle⟩ := ready
  obtain ⟨halive, hcovered, -⟩ := hinv.consistent on
  have hstep := (hinv.sound hstart).propagateStep s.frontier
  generalize s.system.propagateStep s.frontier = next at hstep idle
  cases hstep with
  | idle none_left => exact ⟨halive, hcovered.arcConsistent none_left⟩
  | unchanged | narrowed | contradiction => cases idle

/-- An observation schedules its variable, and no other. -/
theorem Move.frontier_of_observed {s : Solver V ρ} {run : Run} {next : Stepped V ρ}
    (hmove : Move s run next) {v p : Nat} (told : next.outcome = .event (.observed v p)) :
    next.solver.frontier = [{ v }] := by
  cases hmove with
  | observed =>
    cases told
    rfl
  | _ => cases told

/-- A backtrack schedules the variable of the decision that it undoes, and no other. -/
theorem Move.frontier_of_backtracked {start s : Solver V ρ} {limit : Nat} {base : Array Wave}
    {run : Run} (hinv : Invariant start limit base s run) {next : Stepped V ρ}
    (hmove : Move s run next) {v p depth : Nat}
    (told : next.outcome = .event (.backtracked v p depth)) :
    next.solver.frontier = [{ v }] := by
  cases hmove with
  | backtracked off =>
    cases told
    obtain ⟨hfrontier, -⟩ := hinv.contradicted off
    unfold undone Frontier.push
    rw [hfrontier]
  | _ => cases told

variable [Ord V] [Std.TransOrd V] [PickSource ρ]

/-- **Where a search is ready to observe, propagation from all variables has nothing left to
do.**  No wave is empty, every state at the end of a connection is allowed by some state at its
beginning, and scheduling every variable once more changes no wave and meets no contradiction;
yet an observation and a backtrack schedule one variable only.  And nothing waits on the
frontier where a search recovers. -/
theorem ready_arcConsistent (start : Solver V ρ) (hlaid : start.system.Laid)
    (hwf : start.system.WellFormed) (hrules : start.system.problem.rules.Faithful) {limit : Nat}
    {s : Solver V ρ} {run : Run} (hto : start.LeadsTo { limit } s run) :
    (s.Ready run →
      AliveWaves s.system.waves ∧
      (∀ u, ∀ c ∈ s.system.outgoing u, ∀ y ∈ s.system.wave c.destination,
        ∃ x ∈ s.system.wave u, s.system.problem.rules.allows x c.kind y = true) ∧
      ∀ again journal, (s.schedule again).outcome = .event (.initialized s.system.size) ∧
        (s.schedule again).solver.frontier = .all s.system.size ∧
        s.system.drain (s.schedule again).solver.frontier journal =
          (.ok (), s.system, journal)) ∧
    (run.initialized = true → run.inconsistent = true →
      s.step run = s.recover run ∧ s.frontier = []) ∧
    (run.initialized = true →
      (∀ v p, (s.step run).outcome = .event (.observed v p) →
        (s.step run).solver.frontier = [{ v }]) ∧
      ∀ v p depth, (s.step run).outcome = .event (.backtracked v p depth) →
        (s.step run).solver.frontier = [{ v }]) := by
  have hsound : start.system.Sound := hlaid.sound hwf hrules
  refine ⟨fun ready => ?_, fun begun off => ?_, fun begun => ?_⟩
  · obtain ⟨base, hinv⟩ := hto.invariant hsound ready.1
    obtain ⟨halive, hconsistent⟩ := hinv.consistent_of_ready hsound ready
    refine ⟨halive, hconsistent, fun again journal => ?_⟩
    rw [schedule_of_alive halive again]
    exact ⟨rfl, rfl, (hinv.sound hsound).drain_of_consistent hconsistent _ journal⟩
  · obtain ⟨base, hinv⟩ := hto.invariant hsound begun
    refine ⟨?_, (hinv.contradicted off).1⟩
    unfold step
    simp [begun, off]
  · obtain ⟨base, hinv⟩ := hto.invariant hsound begun
    have hmove := hinv.step_move hsound
    exact ⟨fun v p told => hmove.frontier_of_observed told,
      fun v p depth told => hmove.frontier_of_backtracked hinv told⟩

/-- A ring of four vertices with three states is searched until one of them is decided and
nothing waits; the ring of three with two states until the search has to recover. -/
theorem ready_rings :
    (∃ s run, (Solver.ring 4 3 {} [7, 9, 11]).LeadsTo { limit := 5 } s run ∧
      s.Ready run ∧ run.observations = 1 ∧ AliveWaves s.system.waves ∧
      ∀ journal, s.system.drain (.all s.system.size) journal = (.ok (), s.system, journal)) ∧
    ∃ s run, (Solver.ring 3 2 {} [7]).LeadsTo { limit := 5 } s run ∧
      run.inconsistent = true ∧ run.observations = 1 ∧ s.step run = s.recover run ∧
      s.frontier = [] := by
  constructor
  · have hafter : ((Solver.ring 4 3 {} [7, 9, 11]).after { limit := 5 } 16).any
        (fun q => q.1.Ready q.2 ∧ q.2.observations = 1) = true := by decide +kernel
    obtain ⟨⟨s, run⟩, hto, ready, hobs⟩ := exists_leadsTo_of_after hafter
    obtain ⟨halive, -, hidle⟩ := (ready_arcConsistent _ (System.ring_laid 4 3)
      (System.ring_wellFormed (by decide)) (Rules.differing_faithful 3) hto).1 ready
    refine ⟨s, run, hto, ready, hobs, halive, fun journal => ?_⟩
    obtain ⟨-, hall, hdrain⟩ := hidle run journal
    rwa [hall] at hdrain
  · have hafter : ((Solver.ring 3 2 {} [7]).after { limit := 5 } 13).any
        (fun q => q.2.initialized = true ∧ q.2.inconsistent = true ∧ q.2.observations = 1) =
          true := by decide +kernel
    obtain ⟨⟨s, run⟩, hto, begun, off, hobs⟩ := exists_leadsTo_of_after hafter
    exact ⟨s, run, hto, off, hobs, (ready_arcConsistent _ (System.ring_laid 3 2)
      (System.ring_wellFormed (by decide)) (Rules.differing_faithful 2) hto).2.1 begun off⟩

end WaveCollapse.Solver
