import WaveCollapse.Proofs.Search.Ring
import WaveCollapse.Proofs.Search.Stacks

/-! # How long a search can take

A search alternates rounds of propagation with steps that spend something: an observation
spends one of those allowed, undoing a decision spends the decision, and a restart spends that
something was observed since the last one.  An observation buys at most one of the other two, so
`units` counts it double, and every step that spends leaves fewer of them
(`Move.effort_lt`).  Between them the work on the frontier falls, and a new round never has more
of it than `System.roundBound`, since at its start no connection waits twice.  So a search ends
within that many steps for every unit, and the run reaches its result (`search_terminates`).
-/

namespace WaveCollapse.Solver
variable {V ρ : Type} {start s t : Solver V ρ} {limit bound : Nat} {base : Array Wave}
  {run r : Run}

/-! ## What a search has to spend -/

/-- What observations bought: decisions to undo, or a restart. -/
def bought (s : Solver V ρ) (run : Run) : Nat :=
  if s.config.backtracking then s.choices.length
  else if run.observationsSinceReset = 0 then 0 else 1

/-- What can still be spent: the observations that are left, twice, and what the others
bought. -/
def units (s : Solver V ρ) (run : Run) : Nat := 2 * (run.limit - run.observations) + s.bought run

/-- What is left of the present round; a contradiction ends it. -/
def current (s : Solver V ρ) (run : Run) : Nat :=
  if run.inconsistent then 0 else s.system.work s.frontier + 1

/-- What is left of a search whose rounds stay below a bound. -/
def effort (bound : Nat) (s : Solver V ρ) (run : Run) : Nat := bound * s.units run + s.current run

theorem current_lt (h : s.system.pending s.frontier ≤ s.system.links) (run : Run) :
    s.current run < s.system.roundBound := by
  unfold current
  split
  · exact Nat.succ_pos _
  · exact System.work_lt_roundBound h

theorem effort_lt_of_current (same : t.units r = s.units run)
    (less : t.current r < s.current run) : t.effort bound r < s.effort bound run := by
  unfold effort
  rw [same]
  exact Nat.add_lt_add_left less _

/-- A unit pays for a round. -/
theorem effort_lt_of_units (fewer : t.units r < s.units run) (round : t.current r < bound) :
    t.effort bound r < s.effort bound run := by
  have hpaid := Nat.mul_le_mul_left bound fewer
  rw [Nat.mul_succ] at hpaid
  unfold effort
  omega

/-- An observation spends two units and buys one. -/
theorem units_decided_lt (room : run.observations < run.limit) (v p : Nat) (source : ρ)
    (reports : List Progress) :
    (s.decided v p source reports).units run.counted < s.units run := by
  have hbought : (s.decided v p source reports).bought run.counted ≤ s.bought run + 1 := by
    unfold bought
    show (if s.config.backtracking then s.choices.length + 1 else _) ≤ _
    split
    · exact Nat.le_refl _
    · show (if run.observationsSinceReset + 1 = 0 then 0 else 1) ≤ _
      rw [if_neg (Nat.succ_ne_zero _)]
      exact Nat.le_add_left 1 _
  have hleft : run.counted.limit - run.counted.observations + 1 = run.limit - run.observations :=
    Nat.succ_pred_eq_of_pos (Nat.sub_pos_of_lt room)
  unfold units
  omega

theorem units_lt_of_bought (same : r.limit - r.observations = run.limit - run.observations)
    (spent : t.bought r + 1 = s.bought run) : t.units r < s.units run := by
  unfold units
  omega

theorem bought_undone (mode : s.config.backtracking = true) {c : Choice} {choices : List Choice}
    (taken : s.choices = c :: choices) (ws : Array Wave) (saved : List (Array Wave)) (r run : Run) :
    (s.undone ws saved c choices).bought r + 1 = s.bought run := by
  unfold bought
  rw [mode, if_pos rfl, taken]
  show (if s.config.backtracking then choices.length else _) + 1 = _
  rw [mode, if_pos rfl, List.length_cons]

theorem bought_renewed (mode : s.config.backtracking = false)
    (since : run.observationsSinceReset ≠ 0) {r : Run} (reset : r.observationsSinceReset = 0)
    (ws : Array Wave) (frontier : Frontier) :
    (s.renewed ws frontier).bought r + 1 = s.bought run := by
  unfold bought
  rw [mode, if_neg Bool.false_ne_true, if_neg since]
  show (if s.config.backtracking then _ else if r.observationsSinceReset = 0 then 0 else 1) + 1 = _
  rw [mode, if_neg Bool.false_ne_true, if_pos reset]

/-! ## Every event leaves less -/

/-- **Every event of a search leaves less to do.** -/
theorem Move.effort_lt (hstart : start.system.Sound) (hinv : Invariant start limit base s run)
    {next : Stepped V ρ} {e : Event} (hmove : Move s run next) (told : next.outcome = .event e) :
    next.solver.effort start.system.roundBound next.run <
      s.effort start.system.roundBound run := by
  have hs := hinv.sound hstart
  obtain ⟨base', hnext⟩ := hinv.move hstart hmove told
  have hbound : next.solver.system.roundBound = start.system.roundBound :=
    System.roundBound_eq hnext.network.2 hnext.size
  have hround : ∀ run', next.solver.system.pending next.solver.frontier ≤
      next.solver.system.links → next.solver.current run' < start.system.roundBound :=
    fun run' h => hbound ▸ current_lt h run'
  cases hmove with
  | @unchanged next _ _ _ on step what =>
    have hless := step.work_lt hs (by rw [what]; rfl)
    refine effort_lt_of_current rfl ?_
    unfold current
    rw [on]
    exact Nat.succ_lt_succ hless
  | @narrowed next _ _ _ on step what =>
    have hless := step.work_lt hs (by rw [what]; rfl)
    refine effort_lt_of_current rfl ?_
    unfold current
    rw [on]
    exact Nat.succ_lt_succ hless
  | contradicted on =>
    refine effort_lt_of_current rfl ?_
    unfold current
    rw [on]
    exact Nat.succ_pos _
  | @observed v p source reports on idle chosen room =>
    exact effort_lt_of_units (units_decided_lt room v p source reports)
      (hround _ (System.outgoing_size_le _ v))
  | @backtracked ws saved c choices off mode checkpoints taken =>
    refine effort_lt_of_units (units_lt_of_bought rfl (bought_undone mode taken ws saved _ _))
      (hround _ ?_)
    -- the contradiction dropped the frontier, so the one frame is all there is
    show System.pending _ (s.frontier.push c.v) ≤ _
    rw [(hinv.contradicted off).1]
    exact System.outgoing_size_le _ c.v
  | @restarted ws off mode since =>
    exact effort_lt_of_units (units_lt_of_bought rfl (bought_renewed mode since rfl ws _))
      (hround _ (System.pending_all_le _ _))
  | @restartedEmpty ws v off mode since =>
    exact effort_lt_of_units (units_lt_of_bought rfl (bought_renewed mode since rfl ws _))
      (hround _ (Nat.zero_le _))
  | aborted | solved | limited | exhausted | hopeless | unstartable => cases told

/-- A search starts with all of its observations, and with nothing bought. -/
theorem units_renewed (hlimit : run.limit - run.observations = limit)
    (hcount : run.observationsSinceReset = 0) (ws : Array Wave) (frontier : Frontier) :
    (s.renewed ws frontier).units run = 2 * limit := by
  unfold units bought
  rw [hlimit, hcount, if_pos rfl]
  show 2 * limit + (if s.config.backtracking then 0 else 0) = _
  rw [ite_self, Nat.add_zero]

theorem Begins.effort_lt {next : Stepped V ρ} (h : Begins start { limit } next) :
    (∃ e, next.outcome = .event e) ∧ next.solver.effort start.system.roundBound next.run <
      start.system.roundBound * (2 * limit + 1) := by
  cases h with
  | alive =>
    refine ⟨⟨_, rfl⟩, ?_⟩
    have hround := current_lt (s := start.renewed start.system.waves (.all start.system.size))
      (System.pending_all_le _ _) { limit, initialized := true }
    unfold effort
    rw [units_renewed rfl rfl, Nat.mul_succ]
    exact Nat.add_lt_add_left hround _
  | empty =>
    refine ⟨⟨_, rfl⟩, ?_⟩
    have hround := current_lt (s := start.renewed start.system.waves []) (Nat.zero_le _)
      { limit, initialized := true, inconsistent := true }
    unfold effort
    rw [units_renewed rfl rfl, Nat.mul_succ]
    exact Nat.add_lt_add_left hround _

/-- No search ends because a wave could not be read. -/
theorem Move.readable {next : Stepped V ρ} (hmove : Move s run next) :
    next.outcome ≠ .finished (.error .unreadableWave) := by
  cases hmove with
  | @unstartable e off mode since starting =>
    rcases Problem.startingWaves_error _ starting with ⟨v, c, rfl⟩ | ⟨v, cause, rfl⟩
    · exact fun h => nomatch h
    · exact fun h => nomatch h
  | unchanged | narrowed | contradicted | observed | aborted | solved | limited | backtracked
  | exhausted | hopeless | restarted | restartedEmpty => exact fun h => nomatch h

section Along
variable [PickSource ρ]

/-- A search that has begun comes to its end within its effort. -/
theorem after_within (hstart : start.system.Sound) (hinv : Invariant start limit base s run) :
    ∃ n t r result, n ≤ s.effort start.system.roundBound run ∧ s.after run n = some (t, r) ∧
      (t.step r).outcome = .finished result ∧ result ≠ .error .unreadableWave := by
  -- by induction on a bound of the effort, which every event lowers
  generalize heffort : s.effort start.system.roundBound run = left
  induction left using Nat.strongRecOn generalizing s run base with
  | ind left ih =>
    have hmove := hinv.step_move hstart
    cases houtcome : (s.step run).outcome with
    | finished result =>
      refine ⟨0, s, run, result, Nat.zero_le _, rfl, houtcome, ?_⟩
      rintro rfl
      exact hmove.readable houtcome
    | event e =>
      obtain ⟨base', hnext⟩ := hinv.move hstart hmove houtcome
      have hless := hmove.effort_lt hstart hinv houtcome
      rw [heffort] at hless
      obtain ⟨n, t, r, result, hn, hafter, hlast⟩ := ih _ hless hnext rfl
      refine ⟨n + 1, t, r, result, Nat.lt_of_le_of_lt hn hless, ?_, hlast⟩
      unfold after
      rw [houtcome]
      exact hafter

/-- A search ends within one round for each of its units, and one more. -/
theorem search_within (hstart : start.system.Sound) (limit : Nat) :
    ∃ n t r result, n ≤ start.system.roundBound * (2 * limit + 1) ∧
      start.after { limit } n = some (t, r) ∧ (t.step r).outcome = .finished result ∧
      result ≠ .error .unreadableWave := by
  have hbegins := start_begins start { limit }
  have hinv := Invariant.begin hstart hbegins
  obtain ⟨⟨e, told⟩, hless⟩ := hbegins.effort_lt
  obtain ⟨n, t, r, result, hn, hafter, hlast⟩ := after_within hstart hinv
  refine ⟨n + 1, t, r, result, Nat.lt_of_le_of_lt hn hless, ?_, hlast⟩
  have hstep : start.step { limit } = start.start { limit } := rfl
  unfold after
  rw [hstep, told]
  exact hafter

end Along

/-! ## Counts -/

/-- The counts of a run that may observe as often as `limit` says. -/
structure Counted (limit : Nat) (run : Run) : Prop where
  /-- There was an observation for every restart, and one more if there was any since. -/
  restarts : run.restarts + (if run.observationsSinceReset = 0 then 0 else 1) ≤ run.observations
  observations : run.observations ≤ limit
  limit : run.limit = limit

theorem Counted.observed (h : Counted limit run) (room : run.observations < run.limit) :
    Counted limit run.counted where
  restarts := by
    have hrestarts := h.restarts
    show run.restarts + (if run.observationsSinceReset + 1 = 0 then 0 else 1) ≤
      run.observations + 1
    rw [if_neg (Nat.succ_ne_zero _)]
    omega
  observations := h.limit ▸ room
  limit := h.limit

theorem Counted.restarted (h : Counted limit run) (since : run.observationsSinceReset ≠ 0)
    (inconsistent : Bool) : Counted limit { run with
      inconsistent, restarts := run.restarts + 1, observationsSinceReset := 0 } where
  restarts := by
    have hrestarts := h.restarts
    rwa [if_neg since] at hrestarts
  observations := h.observations
  limit := h.limit

/-- Every step keeps the counts, the last one included. -/
theorem Move.counted {next : Stepped V ρ} (hmove : Move s run next) (h : Counted limit run) :
    Counted limit next.run := by
  cases hmove with
  | observed on idle chosen room | aborted on idle chosen room => exact h.observed room
  | restarted off mode since | restartedEmpty off mode since => exact h.restarted since _
  | unchanged | narrowed | contradicted | solved | limited | backtracked | exhausted | hopeless
  | unstartable => exact ⟨h.restarts, h.observations, h.limit⟩

theorem Begins.counted {next : Stepped V ρ} (h : Begins start { limit } next) :
    Counted limit next.run := by
  cases h with
  | alive | empty => exact ⟨Nat.le_refl 0, Nat.zero_le _, rfl⟩

/-- At the end of every step of a search, the last one included, the counts are kept. -/
theorem Boundary.counted [PickSource ρ] (hstart : start.system.Sound)
    (h : Boundary start limit s run) : Counted limit run := by
  cases h with
  | fresh => exact ⟨Nat.le_refl 0, Nat.zero_le _, rfl⟩
  | @after t r before =>
    rcases before.induct hstart (P := fun _ r => Counted limit r) (fun _ h => h.counted)
      (fun _ _ _ _ _ _ h hmove _ => hmove.counted h) with ⟨rfl, rfl⟩ | ⟨⟨base, hinv⟩, hcounted⟩
    · exact (start_begins t { limit }).counted
    · exact (hinv.step_move hstart).counted hcounted

variable [PickSource ρ] [Ord V] [Std.TransOrd V]

/-- **Every search ends, and so does every propagation.**  A search takes no more events than its
rounds can have steps: a round for every unit that the limit gives it, and one more.  It ends
with a result of its own.  Propagation from any variable, over any vector, takes no more steps
than its work, and ends as the driver says; over well-formed waves it succeeds or meets a
contradiction.  On the way restarts never outnumber observations, and these keep to the limit. -/
theorem search_terminates (s : Solver V ρ) (hlaid : s.system.Laid) (hwf : s.system.WellFormed)
    (hrules : s.system.problem.rules.Faithful) (limit : Nat) :
    (∃ n t r result, n ≤ s.system.roundBound * (2 * limit + 1) ∧
      s.after { limit } n = some (t, r) ∧ (t.step r).outcome = .finished result ∧
      result ≠ .error .unreadableWave) ∧
    (∀ (ws : Array Wave) (origin : Nat) (journal : Journal),
      let started := { s.system with waves := ws }
      (∃ n t g, n ≤ started.work [{ v := origin }] ∧
        started.afterSteps [{ v := origin }] n = some (t, g) ∧
        (t.propagateStep g).relaxation.verdict? = some (started.propagate origin journal).1) ∧
      (ws.size = s.system.size → WellFormedWaves ws →
        (started.propagate origin journal).1 ≠ .error .unreadableWave)) ∧
    ∀ t r, Boundary s limit t r → r.restarts ≤ r.observations ∧ r.observations ≤ limit := by
  have hsound : s.system.Sound := hlaid.sound hwf hrules
  refine ⟨search_within hsound limit, fun ws origin journal => ⟨?_, fun hsize hws => ?_⟩,
    fun t r h => ?_⟩
  · obtain ⟨n, t, g, hn, hafter, hverdict, -⟩ := System.drain_within { s.system with waves := ws }
      [{ v := origin }] journal
    exact ⟨n, t, g, hn, hafter, hverdict⟩
  · have hstarted : ({ s.system with waves := ws } : System V).Sound :=
      hsound.of_network ⟨rfl, rfl⟩ hsize hws
    exact hstarted.drain_readable _ journal
  · have hcounted := h.counted hsound
    exact ⟨Nat.le_trans (Nat.le_add_right _ _) hcounted.restarts, hcounted.observations⟩

/-- The odd ring with two states, searched with and without backtracking. -/
theorem search_terminates_ring :
    (∃ n t r result, n ≤ 14872 ∧ (Solver.ring 3 2 {} [7]).after { limit := 5 } n = some (t, r) ∧
      (t.step r).outcome = .finished result) ∧
    ∃ t r, Boundary (Solver.ring 3 2 { backtracking := false } [7, 9, 11]) 3 t r ∧
      r.restarts = 1 ∧ r.restarts ≤ r.observations ∧ r.observations ≤ 3 := by
  have hbound : (System.ring 3 2).roundBound * (2 * 5 + 1) = 14872 := by decide +kernel
  constructor
  · obtain ⟨⟨n, t, r, result, hn, hafter, hlast, -⟩, -⟩ := search_terminates
      (Solver.ring 3 2 {} [7]) (System.ring_laid 3 2) (System.ring_wellFormed (by decide))
      (Rules.differing_faithful 2) 5
    exact ⟨n, t, r, result, hbound ▸ hn, hafter, hlast⟩
  · have hafter : ((Solver.ring 3 2 { backtracking := false } [7, 9, 11]).after { limit := 3 }
        20).any (fun q => (q.1.step q.2).run.restarts = 1) = true := by decide +kernel
    obtain ⟨⟨t, r⟩, hto, hone⟩ := exists_leadsTo_of_after hafter
    obtain ⟨-, -, hcounts⟩ := search_terminates
      (Solver.ring 3 2 { backtracking := false } [7, 9, 11]) (System.ring_laid 3 2)
      (System.ring_wellFormed (by decide)) (Rules.differing_faithful 2) 3
    exact ⟨_, _, .after hto, hone, hcounts _ _ (.after hto)⟩

end WaveCollapse.Solver
