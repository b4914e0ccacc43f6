import WaveCollapse.Proofs.Search.Move

/-! # The invariant of a search

The first step establishes the invariant and every event keeps it (`Invariant.move`), so it
holds wherever a search passes through (`LeadsTo.invariant`).  A checkpoint is only taken where
no connection waits, so the saved vector is settled; after it is restored, the one variable
that loses a state is scheduled, which is all that the frontier has to cover.
-/

namespace WaveCollapse.Solver
variable {V ρ : Type} {start s : Solver V ρ} {limit : Nat} {base : Array Wave} {run : Run}

/-- A search with nothing decided: all variables are scheduled, or an empty wave was found. -/
theorem Invariant.of_renewed (hstart : start.system.Sound) {ws : Array Wave} {frontier : Frontier}
    (hnet : s.system.problem = start.system.problem ∧
      s.system.connections = start.system.connections)
    (hconfig : s.config = start.config) (hsize : ws.size = start.system.size)
    (hwf : WellFormedWaves ws)
    (hphase : AliveWaves ws ∧ frontier = .all ws.size ∧ run.inconsistent = false ∨
      (∃ v < ws.size, (waveAt ws v).isEmpty = true) ∧ frontier = [] ∧ run.inconsistent = true)
    (hlimit : run.limit = limit) (hbegun : run.initialized = true)
    (hforce : InForce start.system run ws)
    (hcounts : run.observationsSinceReset = 0 ∧ run.backtracks = 0)
    (hmode : start.config.backtracking = true → run.restarts = 0 ∧ run.observations = 0) :
    Invariant start limit ws (s.renewed ws frontier) run where
  limit := hlimit
  begun := hbegun
  config := hconfig
  network := hnet
  size := hsize
  wellFormed := hwf
  inForce := hforce
  within := .refl ws
  contradicted off := by
    rcases hphase with ⟨-, -, on⟩ | ⟨hempty, hfrontier, -⟩
    · rw [on] at off
      cases off
    · exact ⟨hfrontier, hempty⟩
  consistent on := by
    rcases hphase with ⟨halive, hfrontier, -⟩ | ⟨-, -, off⟩
    · have hsound : ({ s.system with waves := ws } : System V).Sound :=
        hstart.of_network hnet hsize hwf
      refine ⟨halive, ?_, fun c hc => by cases hc⟩
      rw [hfrontier]
      exact hsound.linked.covered_all
    · rw [off] at on
      cases on
  undoing mode := ⟨.nil, (hmode mode).1, by rw [(hmode mode).2, hcounts.2]; rfl⟩
  restarting _ := ⟨rfl, hcounts.2, hcounts.1.symm⟩

/-- A step of propagation that meets no contradiction. -/
theorem Invariant.of_carried (hstart : start.system.Sound) (h : Invariant start limit base s run)
    (on : run.inconsistent = false) {next : Propagated V}
    (step : s.system.Relaxes s.frontier next)
    (hne : ¬ ∃ u v t, next.relaxation = .contradiction u v t) (n : Nat) :
    Invariant start limit base (s.carried next) { run with propagationSteps := n } := by
  have hs := h.sound hstart
  obtain ⟨halive, hcovered, hobeys⟩ := h.consistent on
  have hwithin := step.within hs
  exact {
    limit := h.limit
    begun := h.begun
    config := h.config
    network := ⟨step.network.1.trans h.network.1, step.network.2.trans h.network.2⟩
    size := hwithin.size.trans h.size
    wellFormed := (step.sound hs).wellFormed
    inForce := h.inForce
    within := hwithin.trans h.within
    contradicted := fun off => absurd off (Bool.eq_false_iff.mp on)
    consistent := fun _ => ⟨(step.alive halive).resolve_left hne,
      (step.covered hs hcovered).resolve_left hne, hobeys.mono hwithin⟩
    undoing := h.undoing
    restarting := h.restarting }

/-- A step of propagation that leaves a variable without a state. -/
theorem Invariant.of_contradicted (hstart : start.system.Sound)
    (h : Invariant start limit base s run) {next : Propagated V} {u v t : Nat}
    (step : s.system.Relaxes s.frontier next) (what : next.relaxation = .contradiction u v t)
    (n : Nat) :
    Invariant start limit base (s.carried next)
      { run with propagationSteps := n, inconsistent := true } := by
  have hs := h.sound hstart
  have hwithin := step.within hs
  obtain ⟨hv, -, hempty⟩ := step.emptied hs.intact what
  have hfrontier : next.frontier = [] := by
    cases step with
    | contradiction => rfl
    | idle | unchanged | narrowed => cases what
  exact {
    limit := h.limit
    begun := h.begun
    config := h.config
    network := ⟨step.network.1.trans h.network.1, step.network.2.trans h.network.2⟩
    size := hwithin.size.trans h.size
    wellFormed := (step.sound hs).wellFormed
    inForce := h.inForce
    within := hwithin.trans h.within
    contradicted := fun _ => ⟨hfrontier, v, Nat.lt_of_lt_of_eq hv hwithin.size.symm, hempty⟩
    consistent := fun on => by cases on
    undoing := h.undoing
    restarting := h.restarting }

/-- An observation, told or stopped by the observer of the run. -/
theorem Invariant.of_decided (h : Invariant start limit base s run)
    (on : run.inconsistent = false) (idle : s.system.nextConnection s.frontier = none) {v p : Nat}
    (chosen : v ∈ lowestCandidates s.system.waves) (mem : p ∈ s.system.wave v) (source : ρ)
    (reports : List Progress) :
    Invariant start limit base (s.decided v p source reports) run.counted := by
  obtain ⟨halive, hcovered, hobeys⟩ := h.consistent on
  obtain ⟨hv, hpos, -⟩ := mem_lowestCandidates.mp chosen
  have hwv : (s.system.wave v).WellFormed := h.wellFormed v hv
  have hsub : (s.system.wave v).single p ⊆ s.system.wave v :=
    Wave.single_subset hwv.readable mem
  have hwithin := within_set hsub
  have hconsistent := hcovered.arcConsistent idle
  have hsettled : Settled start.system s.system.waves :=
    ⟨h.size, h.wellFormed, halive,
      hconsistent.of_network ⟨h.network.1.symm, h.network.2.symm⟩⟩
  exact {
    limit := h.limit
    begun := h.begun
    config := h.config
    network := h.network
    size := Array.size_setIfInBounds.trans h.size
    wellFormed := WellFormedWaves.set h.wellFormed (hwv.single p)
    inForce := by
      rcases h.inForce with ⟨hr, hobs, hbase⟩ | hreset
      · exact .inl ⟨hr, congrArg (· + 1) hobs, hbase⟩
      · exact .inr hreset
    within := by
      unfold decided
      cases hmode : s.config.backtracking with
      | true => simpa using hwithin
      | false => simpa using hwithin.trans h.within
    contradicted := fun off => absurd off (Bool.eq_false_iff.mp on)
    consistent := fun _ => by
      -- nothing waited, so the new frame of `v` is all that the connections need
      refine ⟨halive.set_single hwv mem, ?_, ?_⟩
      · exact System.Covered.push (hconsistent.covered []) hsub
      · intro c hc q hq
        rcases List.mem_cons.mp hc with rfl | hc
        · have hq' : q ∈ waveAt (s.system.waves.setIfInBounds v ((s.system.wave v).single p)) v :=
            hq
          rw [waveAt_set_self hv] at hq'
          exact (Wave.mem_single hwv.readable mem).mp hq'
        · exact hobeys.mono hwithin c hc q hq
    undoing := fun mode => by
      obtain ⟨hdecisions, hr, hobs⟩ := h.undoing mode
      have hmode : s.config.backtracking = true := h.config ▸ mode
      refine ⟨?_, hr, ?_⟩
      · rw [decided_checkpoints hmode]
        exact .cons hdecisions hsettled h.within hobeys ⟨hv, mem⟩
          ((Wave.entropy_pos_iff hwv).mp hpos)
      · show run.observations + 1 = run.backtracks + (s.choices.length + 1)
        omega
    restarting := fun mode => by
      obtain ⟨hsaved, hb, hlen⟩ := h.restarting mode
      have hmode : s.config.backtracking = false := h.config ▸ mode
      refine ⟨?_, hb, congrArg (· + 1) hlen⟩
      unfold decided
      rw [hmode]
      exact hsaved }

/-- Undoing the last decision. -/
theorem Invariant.of_undone (h : Invariant start limit base s run)
    (mode : s.config.backtracking = true) {ws : Array Wave}
    {saved : List (Array Wave)} {c : Choice} {choices : List Choice}
    (checkpoints : s.checkpoints = ws :: saved) (taken : s.choices = c :: choices) :
    Invariant start limit base (s.undone ws saved c choices)
      { run with inconsistent := false, backtracks := run.backtracks + 1 } := by
  have hmode : start.config.backtracking = true := h.config ▸ mode
  obtain ⟨hdecisions, hr, hobs⟩ := h.undoing hmode
  rw [checkpoints, taken] at hdecisions
  obtain ⟨hwf, halive⟩ := hdecisions.alternative_alive
  cases hdecisions with
  | cons below settled within obeys _ _ =>
    have hwithin := alternative_within ws c
    -- the vector was saved where nothing waited, so only connections of `c.v` can be broken
    have hrestored : ({ s.system with waves := ws } : System V).ArcConsistent (members ws) :=
      settled.consistent.of_network h.network
    have hcovered : (s.undone ws saved c choices).system.Covered (s.frontier.push c.v) :=
      System.Covered.push (s := { s.system with waves := ws }) (hrestored.covered s.frontier)
        (Wave.remove_subset _ _)
    exact {
      limit := h.limit
      begun := h.begun
      config := h.config
      network := h.network
      size := hwithin.size.trans settled.size
      wellFormed := hwf
      inForce := h.inForce
      within := hwithin.trans within
      contradicted := fun off => by cases off
      consistent := fun _ => ⟨halive, hcovered, obeys.mono hwithin⟩
      undoing := fun _ => by
        refine ⟨below, hr, ?_⟩
        rw [taken, List.length_cons] at hobs
        show run.observations = run.backtracks + 1 + choices.length
        omega
      restarting := fun mode' => absurd hmode (Bool.eq_false_iff.mp mode') }

/-- A restart, whether or not one of the starting waves is empty. -/
theorem Invariant.of_restarted (hstart : start.system.Sound)
    (h : Invariant start limit base s run) (mode : s.config.backtracking = false)
    {ws : Array Wave} (starting : s.system.problem.startingWaves = .ok ws) {frontier : Frontier}
    {r : Run}
    (hphase : AliveWaves ws ∧ frontier = .all ws.size ∧ r.inconsistent = false ∨
      (∃ v < ws.size, (waveAt ws v).isEmpty = true) ∧ frontier = [] ∧ r.inconsistent = true)
    (hrun : r.limit = run.limit ∧ r.initialized = run.initialized ∧ r.backtracks = run.backtracks)
    (hreset : 0 < r.restarts ∧ r.observationsSinceReset = 0) :
    Invariant start limit ws (s.renewed ws frontier) r := by
  obtain ⟨hsize, hwf⟩ := Problem.startingWaves_spec _ starting
  rw [h.network.1] at starting hsize
  have hmode : start.config.backtracking = false := h.config ▸ mode
  refine .of_renewed hstart h.network h.config (hsize.trans hstart.listed.symm) hwf hphase
    (hrun.1.trans h.limit) (hrun.2.1.trans h.begun) (.inr ⟨hreset.1, starting⟩) ⟨hreset.2, ?_⟩ ?_
  · rw [hrun.2.2]
    exact (h.restarting hmode).2.1
  · intro mode'
    exact absurd mode' (Bool.eq_false_iff.mp hmode)

/-! ## Along a search -/

theorem Invariant.begin (hstart : start.system.Sound) {next : Stepped V ρ}
    (h : Begins start { limit } next) :
    Invariant start limit start.system.waves next.solver next.run := by
  cases h with
  | alive halive =>
    exact .of_renewed hstart ⟨rfl, rfl⟩ rfl rfl hstart.wellFormed (.inl ⟨halive, rfl, rfl⟩) rfl rfl
      (.inl ⟨rfl, rfl, rfl⟩) ⟨rfl, rfl⟩ fun _ => ⟨rfl, rfl⟩
  | empty hempty =>
    exact .of_renewed hstart ⟨rfl, rfl⟩ rfl rfl hstart.wellFormed (.inr ⟨⟨_, hempty⟩, rfl, rfl⟩)
      rfl rfl (.inl ⟨rfl, rfl, rfl⟩) ⟨rfl, rfl⟩ fun _ => ⟨rfl, rfl⟩

/-- Every event keeps the invariant; a restart puts another vector in force. -/
theorem Invariant.move (hstart : start.system.Sound)
    (h : Invariant start limit base s run) {next : Stepped V ρ} {e : Event}
    (hmove : Move s run next) (told : next.outcome = .event e) :
    ∃ base', Invariant start limit base' next.solver next.run := by
  cases hmove with
  | unchanged on step what =>
    refine ⟨base, h.of_carried hstart on step ?_ _⟩
    rintro ⟨u, v, t, hc⟩
    cases what.symm.trans hc
  | narrowed on step what =>
    refine ⟨base, h.of_carried hstart on step ?_ _⟩
    rintro ⟨u, v, t, hc⟩
    cases what.symm.trans hc
  | contradicted _ step what => exact ⟨base, h.of_contradicted hstart step what _⟩
  | observed on idle chosen _ mem => exact ⟨base, h.of_decided on idle chosen mem _ _⟩
  | backtracked _ mode checkpoints taken => exact ⟨base, h.of_undone mode checkpoints taken⟩
  | @restarted ws _ mode _ starting halive =>
    exact ⟨ws, h.of_restarted hstart mode starting (.inl ⟨halive, rfl, rfl⟩) ⟨rfl, rfl, rfl⟩
      ⟨Nat.succ_pos _, rfl⟩⟩
  | @restartedEmpty ws _ _ mode _ starting hempty =>
    exact ⟨ws, h.of_restarted hstart mode starting (.inr ⟨⟨_, hempty⟩, rfl, rfl⟩) ⟨rfl, rfl, rfl⟩
      ⟨Nat.succ_pos _, rfl⟩⟩
  | aborted | solved | limited | exhausted | hopeless | unstartable => cases told

section Along
variable [PickSource ρ]

/-- What the first step establishes and every event keeps holds wherever a search passes
through after its first step. -/
theorem LeadsTo.induct (hstart : start.system.Sound)
    {P : Solver V ρ → Run → Prop}
    (first : ∀ next, Begins start { limit } next → P next.solver next.run)
    (later : ∀ base s run next e, Invariant start limit base s run → P s run →
      Move s run next → next.outcome = .event e → P next.solver next.run)
    (h : start.LeadsTo { limit } s run) :
    s = start ∧ run = { limit } ∨ (∃ base, Invariant start limit base s run) ∧ P s run := by
  induction h with
  | start => exact .inl ⟨rfl, rfl⟩
  | @step t r e before told ih =>
    right
    rcases ih with ⟨rfl, rfl⟩ | ⟨⟨base, hinv⟩, hP⟩
    · have hbegins := start_begins t { limit }
      exact ⟨⟨_, Invariant.begin hstart hbegins⟩, first _ hbegins⟩
    · have hmove := hinv.step_move hstart
      exact ⟨hinv.move hstart hmove told, later _ _ _ _ _ hinv hP hmove told⟩

/-- The invariant holds wherever a search passes through after its first step. -/
theorem LeadsTo.invariant (hstart : start.system.Sound) (h : start.LeadsTo { limit } s run)
    (begun : run.initialized = true) : ∃ base, Invariant start limit base s run := by
  rcases h.induct hstart (P := fun _ _ => True) (fun _ _ => trivial)
    (fun _ _ _ _ _ _ _ _ _ => trivial) with ⟨rfl, rfl⟩ | ⟨hinv, -⟩
  · cases begun
  · exact hinv

/-- A search takes its last step from where the invariant holds, and with it whatever the
first step establishes and every event keeps. -/
theorem collapse_ends (limit : Nat) (hstart : start.system.Sound)
    {P : Solver V ρ → Run → Prop}
    (first : ∀ next, Begins start { limit } next → P next.solver next.run)
    (later : ∀ base s run next e, Invariant start limit base s run → P s run →
      Move s run next → next.outcome = .event e → P next.solver next.run)
    (journal : Journal) :
    ∃ base s run next, Invariant start limit base s run ∧ P s run ∧ Move s run next ∧
      next.outcome = .finished (start.collapse limit journal).result ∧
      (start.collapse limit journal).solver = next.solver ∧
      (start.collapse limit journal).run = next.run := by
  obtain ⟨s, run, hto, hlast, hsolver, hrun⟩ := start.collapse_last limit journal
  rcases hto.induct hstart first later with ⟨rfl, rfl⟩ | ⟨⟨base, hinv⟩, hP⟩
  · obtain ⟨e, told⟩ := start_told s { limit }
    cases told.symm.trans hlast
  · exact ⟨base, s, run, _, hinv, hP, hinv.step_move hstart, hlast, hsolver, hrun⟩

end Along

end WaveCollapse.Solver
