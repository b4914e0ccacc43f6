import WaveCollapse.Proofs.Propagation.Solutions
import WaveCollapse.Proofs.Search.Reach
import WaveCollapse.Proofs.Search.Ring

/-! # An exhausted search has refuted every assignment

With backtracking no event puts a satisfying assignment out of reach (`Lossless.move`):
propagation never takes its states away, an observation divides the reach between the waves
and the new alternative, and undoing a decision goes on with exactly the alternative of that
decision.  When the search is exhausted nothing is in reach any more.

Without backtracking the same holds of the waves alone, as long as nothing was observed since
they were put in force.
-/

namespace WaveCollapse.Solver
variable {V ρ : Type} {start s : Solver V ρ} {limit : Nat} {base : Array Wave} {run : Run}

/-- The search has lost no satisfying assignment. -/
structure Lossless (start : System V) (s : Solver V ρ) (run : Run) : Prop where
  undoing : s.config.backtracking = true →
    ∀ f, start.Satisfies f → Inside start.waves f → s.Reaches f
  restarting : s.config.backtracking = false → run.observationsSinceReset = 0 →
    ∀ base, InForce start run base → ∀ f, start.Satisfies f → Inside base f →
      Inside s.system.waves f

theorem Lossless.begin {next : Stepped V ρ} (h : Begins start { limit } next) :
    Lossless start.system next.solver next.run := by
  have hbase : ∀ base, InForce start.system next.run base → base = start.system.waves := by
    rintro base (⟨-, -, hbase⟩ | ⟨hpos, -⟩)
    · exact hbase
    · cases h <;> exact absurd hpos (Nat.lt_irrefl 0)
  have hwaves : next.solver.system.waves = start.system.waves := by cases h <;> rfl
  constructor
  · intro _ f _ hin
    left
    rw [hwaves]
    exact hin
  · intro _ _ base hforce f _ hin
    rw [hbase base hforce] at hin
    rw [hwaves]
    exact hin

/-! ## The cases of an event -/

/-- Propagation takes no satisfying assignment out of reach. -/
theorem Lossless.of_carried (hstart : start.system.Sound)
    (hinv : Invariant start limit base s run) (h : Lossless start.system s run)
    {next : Propagated V} (step : s.system.Relaxes s.frontier next) {run' : Run}
    (hrun : run'.restarts = run.restarts ∧ run'.observations = run.observations ∧
      run'.observationsSinceReset = run.observationsSinceReset) :
    Lossless start.system (s.carried next) run' := by
  have hs := hinv.sound hstart
  have hkept : ∀ f, start.system.Satisfies f → Inside s.system.waves f →
      Inside next.system.waves f :=
    fun f hf hin => step.inside hs (hf.of_network hinv.network) hin
  constructor
  · intro mode f hf hin
    rcases h.undoing mode f hf hin with hin | halt
    · exact .inl (hkept f hf hin)
    · exact .inr halt
  · intro mode since base' hforce f hf hin
    unfold InForce at hforce
    rw [hrun.1, hrun.2.1, hrun.2.2] at hforce
    rw [hrun.2.2] at since
    exact hkept f hf (h.restarting mode since base' hforce f hf hin)

/-- An observation divides what is in reach between the waves and the new alternative. -/
theorem Lossless.of_decided (hinv : Invariant start limit base s run)
    (h : Lossless start.system s run) {v p : Nat} (hv : v < s.system.size)
    (mem : p ∈ s.system.wave v) (source : ρ) (reports : List Progress) :
    Lossless start.system (s.decided v p source reports) run.counted := by
  have hwv := hinv.wellFormed v hv
  have hsub : (s.system.wave v).single p ⊆ s.system.wave v :=
    Wave.single_subset hwv.readable mem
  constructor
  · intro mode f hf hin
    have hmode : s.config.backtracking = true := mode
    unfold Reaches
    rw [decided_checkpoints hmode]
    rcases h.undoing hmode f hf hin with hin | ⟨e, he, halt⟩
    · by_cases hfv : f v = p
      · left
        refine (inside_set_iff hv hsub).mpr ⟨hin, ?_⟩
        exact (Wave.mem_single hwv.readable mem).mpr hfv
      · exact .inr ⟨(s.system.waves, ⟨v, p⟩), List.mem_cons_self,
          (inside_alternative_iff hv).mpr ⟨hin, hfv⟩⟩
    · exact .inr ⟨e, List.mem_cons_of_mem _ he, halt⟩
  · intro _ since
    exact absurd since (Nat.succ_ne_zero _)

/-- Undoing a decision goes on with the alternative it left. -/
theorem Lossless.of_undone (hinv : Invariant start limit base s run)
    (h : Lossless start.system s run) (off : run.inconsistent = true)
    (mode : s.config.backtracking = true) {ws : Array Wave} {saved : List (Array Wave)}
    {c : Choice} {choices : List Choice} (checkpoints : s.checkpoints = ws :: saved)
    (taken : s.choices = c :: choices) (run' : Run) :
    Lossless start.system (s.undone ws saved c choices) run' := by
  constructor
  · intro _ f hf hin
    rcases h.undoing mode f hf hin with hin | ⟨e, he, halt⟩
    · -- the waves that are given up held no assignment at all
      obtain ⟨-, v, hv, hempty⟩ := hinv.contradicted off
      exact absurd hin (not_inside_of_isEmpty hinv.wellFormed hv hempty f)
    · rw [checkpoints, taken, List.zip_cons_cons] at he
      rcases List.mem_cons.mp he with rfl | he
      · exact .inl halt
      · exact .inr ⟨e, he, halt⟩
  · intro mode'
    exact absurd mode (Bool.eq_false_iff.mp mode')

/-- After a restart all of the starting waves are in reach. -/
theorem Lossless.of_restarted (hinv : Invariant start limit base s run)
    (mode : s.config.backtracking = false) {ws : Array Wave}
    (starting : s.system.problem.startingWaves = .ok ws) (frontier : Frontier) {run' : Run}
    (hrun : 0 < run'.restarts) :
    Lossless start.system (s.renewed ws frontier) run' := by
  constructor
  · intro mode'
    exact absurd mode' (Bool.eq_false_iff.mp mode)
  · rintro _ _ base' (⟨hzero, -, -⟩ | ⟨-, hbase⟩) f _ hin
    · exact absurd hzero (Nat.pos_iff_ne_zero.mp hrun)
    · rw [hinv.network.1, hbase] at starting
      cases starting
      exact hin

/-- **No event puts a satisfying assignment out of reach.** -/
theorem Lossless.move (hstart : start.system.Sound) (hinv : Invariant start limit base s run)
    (h : Lossless start.system s run) {next : Stepped V ρ} {e : Event}
    (hmove : Move s run next) (told : next.outcome = .event e) :
    Lossless start.system next.solver next.run := by
  cases hmove with
  | unchanged _ step | narrowed _ step | contradicted _ step =>
    exact h.of_carried hstart hinv step ⟨rfl, rfl, rfl⟩
  | observed _ _ chosen _ mem =>
    exact h.of_decided hinv (mem_lowestCandidates.mp chosen).1 mem _ _
  | backtracked off mode checkpoints taken => exact h.of_undone hinv off mode checkpoints taken _
  | restarted _ mode _ starting | restartedEmpty _ mode _ starting =>
    exact Lossless.of_restarted hinv mode starting _ (Nat.succ_pos _)
  | aborted | solved | limited | exhausted | hopeless | unstartable => cases told

/-! ## The end of the search -/

/-- With an empty wave and no alternative left, nothing is in reach. -/
theorem Lossless.refuted (hinv : Invariant start limit base s run)
    (h : Lossless start.system s run) (off : run.inconsistent = true)
    (mode : s.config.backtracking = true) (nothing : s.checkpoints = [] ∧ s.choices = []) :
    ∀ f, Inside start.system.waves f → ¬ start.system.Satisfies f := by
  intro f hin hf
  obtain ⟨-, v, hv, hempty⟩ := hinv.contradicted off
  rcases h.undoing mode f hf hin with hreach | ⟨e, he, -⟩
  · exact not_inside_of_isEmpty hinv.wellFormed hv hempty f hreach
  · rw [nothing.1] at he
    cases he

variable [Ord V] [Std.TransOrd V] [PickSource ρ]

/-- **An exhausted search has no solution.**  With backtracking none is inside the waves that
the run started with; without, none is inside the vector put in force last: the waves that the
run started with, then nothing was observed, or the starting waves of the problem. -/
theorem collapse_exhausted_unsatisfiable (s : Solver V ρ) (hlaid : s.system.Laid)
    (hwf : s.system.WellFormed) (hrules : s.system.problem.rules.Faithful) (limit : Nat)
    (journal : Journal) {observations backtracks : Nat}
    (hend : (s.collapse limit journal).result = .error (.exhausted observations backtracks)) :
    (s.config.backtracking = true → ∀ f, Inside s.system.waves f → ¬ s.system.Satisfies f) ∧
      (s.config.backtracking = false →
        ((s.collapse limit journal).run.restarts = 0 → observations = 0 ∧
          ∀ f, Inside s.system.waves f → ¬ s.system.Satisfies f) ∧
        (0 < (s.collapse limit journal).run.restarts → ∃ r, s.system.reset = .ok r ∧
          ∀ f, Inside r.waves f → ¬ s.system.Satisfies f)) := by
  have hsound : s.system.Sound := hlaid.sound hwf hrules
  obtain ⟨base, t, run, next, hinv, hlossless, hmove, hlast, -, hrun⟩ :=
    s.collapse_ends limit hsound (P := Lossless s.system)
      (fun _ h => .begin h)
      (fun _ _ _ _ _ hinv h hmove told => h.move hsound hinv hmove told) journal
  rw [hend] at hlast
  rw [hrun]
  cases hmove with
  | exhausted off mode nothing =>
    cases hlast
    have hmode : s.config.backtracking = true := hinv.config ▸ mode
    exact ⟨fun _ => hlossless.refuted hinv off mode nothing,
      fun mode' => absurd hmode (Bool.eq_false_iff.mp mode')⟩
  | hopeless off mode since =>
    cases hlast
    have hmode : s.config.backtracking = false := hinv.config ▸ mode
    -- the waves are those in force, and one of them is empty
    have hnone : ∀ base, InForce s.system run base →
        ∀ f, Inside base f → ¬ s.system.Satisfies f := by
      intro base hforce f hin hf
      obtain ⟨-, v, hv, hempty⟩ := hinv.contradicted off
      exact not_inside_of_isEmpty hinv.wellFormed hv hempty f
        (hlossless.restarting mode since base hforce f hf hin)
    refine ⟨fun mode' => absurd mode' (Bool.eq_false_iff.mp hmode), fun _ => ?_⟩
    rcases hinv.inForce with ⟨hzero, hobs, hbase⟩ | ⟨hpos, hstarting⟩
    · refine ⟨fun _ => ⟨hobs.symm.trans since, ?_⟩, fun hpos => absurd hzero
        (Nat.pos_iff_ne_zero.mp hpos)⟩
      exact hnone _ (.inl ⟨hzero, hobs, rfl⟩)
    · refine ⟨fun hzero => absurd hzero (Nat.pos_iff_ne_zero.mp hpos), fun _ => ?_⟩
      exact ⟨_, System.reset_eq hstarting, hnone base hinv.inForce⟩
  | unstartable _ _ _ starting =>
    cases hlast
    rcases Problem.startingWaves_error _ starting with ⟨_, _, h⟩ | ⟨_, _, h⟩ <;> cases h
  | unchanged | narrowed | contradicted | observed | aborted | solved | limited | backtracked
  | restarted | restartedEmpty => cases hlast

/-- An odd ring has no colouring with two states, and both states of a vertex are tried. -/
theorem collapse_ring_three :
    ((Solver.ring 3 2 {} [7]).collapse 5 .silent).result = .error (.exhausted 1 1) ∧
      ∀ f, Inside (System.ring 3 2).waves f → ¬ (System.ring 3 2).Satisfies f := by
  have hend : ((Solver.ring 3 2 {} [7]).collapse 5 .silent).result = .error (.exhausted 1 1) :=
    drive_result_of_within (n := 20) (by decide +kernel) _
  exact ⟨hend, (collapse_exhausted_unsatisfiable (Solver.ring 3 2 {} [7])
    (System.ring_laid 3 2) (System.ring_wellFormed (by decide))
    (Rules.differing_faithful 2) 5 .silent hend).1 rfl⟩

end WaveCollapse.Solver
