import WaveCollapse.Proofs.Propagation.Solutions
import WaveCollapse.Proofs.Search.Ring
import WaveCollapse.Proofs.Search.Upkeep

/-! # The vector that confines a search

All that a search holds lies within one vector: the waves that it started with, until a restart
puts the starting waves of the problem in their place (`Solver.Confined`).  Propagation and
observation only take states away, a checkpoint was saved from waves that lay within the vector,
and undoing a decision takes one more state out of a checkpoint.  Nothing of this depends on what
the rules answer.

So with backtracking a search that ends well has solved the problem that it was started on.  A
restart forgets that problem: a variable that was constrained before the search may end with a
state that it did not have (`collapse_forgets`).
-/

namespace WaveCollapse.Solver
variable {V ρ : Type} {start s : Solver V ρ} {limit : Nat} {base : Array Wave} {run : Run}

/-- The waves of a search and those that it saved lie within the vector in force.  Only without
backtracking is this vector ever replaced. -/
structure Confined (start : Solver V ρ) (base : Array Wave) (s : Solver V ρ) (run : Run) :
    Prop where
  inForce : InForce start.system run base
  unrestarted : start.config.backtracking = true → run.restarts = 0
  within : Within s.system.waves base
  saved : ∀ ws ∈ s.checkpoints, Within ws base

/-- The first step saves nothing and changes no wave. -/
theorem Begins.confined {next : Stepped V ρ} (h : Begins start { limit } next) :
    Confined start start.system.waves next.solver next.run := by
  cases h <;> exact ⟨.inl ⟨rfl, rfl, rfl⟩, fun _ => rfl, .refl _, nofun⟩

/-- A step that takes states away and saves nothing. -/
theorem Confined.of_within (h : Confined start base s run) {t : Solver V ρ} {r : Run}
    (hwithin : Within t.system.waves s.system.waves) (hsaved : t.checkpoints = s.checkpoints)
    (hrun : r.restarts = run.restarts ∧ r.observationsSinceReset = run.observationsSinceReset ∧
      r.observations = run.observations) : Confined start base t r where
  inForce := by
    unfold InForce
    rw [hrun.1, hrun.2.1, hrun.2.2]
    exact h.inForce
  unrestarted mode := hrun.1.trans (h.unrestarted mode)
  within := hwithin.trans h.within
  saved := hsaved ▸ h.saved

/-- An observation takes states away; what it saves are the waves before it. -/
theorem Confined.of_decided (h : Confined start base s run) (hwf : s.system.WellFormed)
    {v p : Nat} (hv : v < s.system.size) (mem : p ∈ s.system.wave v) (source : ρ)
    (reports : List Progress) : Confined start base (s.decided v p source reports) run.counted where
  inForce := by
    rcases h.inForce with ⟨hzero, hobs, hbase⟩ | hreset
    · exact .inl ⟨hzero, congrArg (· + 1) hobs, hbase⟩
    · exact .inr hreset
  unrestarted := h.unrestarted
  within := (within_set (Wave.single_subset (hwf v hv).readable mem)).trans h.within
  saved ws hws := by
    unfold decided at hws
    cases mode : s.config.backtracking with
    | false =>
      rw [mode] at hws
      exact h.saved ws hws
    | true =>
      rw [mode] at hws
      rcases List.mem_cons.mp hws with rfl | hws
      · exact h.within
      · exact h.saved ws hws

/-- The starting waves of the problem take the place of the vector in force. -/
theorem Confined.of_renewed {ws : Array Wave} (mode : start.config.backtracking = false)
    (starting : start.system.problem.startingWaves = .ok ws) (frontier : Frontier) {r : Run}
    (hreset : 0 < r.restarts) : Confined start ws (s.renewed ws frontier) r where
  inForce := .inr ⟨hreset, starting⟩
  unrestarted mode' := absurd mode' (Bool.eq_false_iff.mp mode)
  within := .refl ws
  saved := nofun

/-- Every step keeps a search confined, the last one included. -/
theorem Move.confined (hup : Upkeep start limit s run) (h : Confined start base s run)
    {next : Stepped V ρ} (hmove : Move s run next) :
    ∃ base', Confined start base' next.solver next.run := by
  cases hmove with
  | unchanged _ step | narrowed _ step | contradicted _ step =>
    exact ⟨base, h.of_within (step.within_of_intact hup.intact) rfl ⟨rfl, rfl, rfl⟩⟩
  | observed _ _ chosen _ mem | aborted _ _ chosen _ mem =>
    obtain ⟨hv, -, -⟩ := mem_lowestCandidates.mp chosen
    exact ⟨base, h.of_decided hup.intact.wellFormed hv mem _ _⟩
  | solved | limited | exhausted | hopeless | unstartable =>
    exact ⟨base, h.of_within (.refl _) rfl ⟨rfl, rfl, rfl⟩⟩
  | @backtracked ws saved c choices _ _ checkpoints =>
    have hsaved := h.saved
    rw [checkpoints] at hsaved
    exact ⟨base, h.inForce, h.unrestarted,
      (alternative_within ws c).trans (hsaved ws List.mem_cons_self),
      fun vs hvs => hsaved vs (List.mem_cons_of_mem _ hvs)⟩
  | @restarted ws _ mode _ starting | @restartedEmpty ws _ _ mode _ starting =>
    rw [hup.network.1] at starting
    exact ⟨ws, .of_renewed (hup.config ▸ mode) starting _ (Nat.succ_pos _)⟩

/-! ## Along a search -/

section Along
variable [PickSource ρ]

/-- After every step of a search over an intact system, the last one included, it is confined. -/
theorem LeadsTo.confined (hstart : start.system.Intact) (h : start.LeadsTo { limit } s run) :
    ∃ base, Confined start base (s.step run).solver (s.step run).run := by
  induction h with
  | start => exact ⟨_, (start_begins start { limit }).confined⟩
  | @step t r e before told ih =>
    obtain ⟨base, hconfined⟩ := ih
    rcases (LeadsTo.step before told).upkeep hstart with ⟨hsolver, hrun⟩ | ⟨hup, -⟩
    · rw [hsolver, hrun]
      exact ⟨_, (start_begins start { limit }).confined⟩
    · exact hup.step_move.confined hup hconfined

/-- Between its steps a search is at its beginning, or confined. -/
theorem LeadsTo.confined_or (hstart : start.system.Intact) (h : start.LeadsTo { limit } s run) :
    s = start ∧ run = { limit } ∨ ∃ base, Confined start base s run := by
  cases h with
  | start => exact .inl ⟨rfl, rfl⟩
  | step before _ => exact .inr (before.confined hstart)

/-- All that a search passes through lies within a vector of starting waves, if its start does. -/
theorem LeadsTo.within (hstart : start.system.Intact) {vs : Array Wave}
    (hvs : Within start.system.waves vs) (hreset : start.system.problem.startingWaves = .ok vs)
    (h : start.LeadsTo { limit } s run) :
    Within s.system.waves vs ∧ Within (s.step run).solver.system.waves vs := by
  have hbase : ∀ {base : Array Wave} {r : Run}, InForce start.system r base → Within base vs := by
    rintro base r (⟨-, -, rfl⟩ | ⟨-, hstarting⟩)
    · exact hvs
    · cases hreset.symm.trans hstarting
      exact .refl vs
  obtain ⟨base, hlast⟩ := h.confined hstart
  refine ⟨?_, hlast.within.trans (hbase hlast.inForce)⟩
  rcases h.confined_or hstart with ⟨rfl, -⟩ | ⟨base, hnow⟩
  · exact hvs
  · exact hnow.within.trans (hbase hnow.inForce)

end Along

/-! ## What a successful search has solved -/

/-- A search that ends well ends with one state a variable. -/
theorem Upkeep.resolved_of_ok [PickSource ρ] (h : Upkeep start limit s run) {stats : Stats}
    (last : (s.step run).outcome = .finished (.ok stats)) :
    stats = (s.step run).run.stats ∧
      ∃ value : Nat → Nat, ∀ v < (s.step run).solver.system.size,
        ((s.step run).solver.system.wave v).components = [value v] := by
  have hmove := h.step_move
  generalize s.step run = next at hmove last
  cases hmove with
  | solved on idle clear =>
    cases last
    exact ⟨rfl, System.exists_value fun v hv => Wave.components_of_entropy_zero
      (h.intact.wellFormed v hv) (h.alive on v hv) (clear v hv)⟩
  | unchanged | narrowed | contradicted | observed | aborted | limited | backtracked
  | exhausted | hopeless | restarted | restartedEmpty | unstartable => cases last

variable [PickSource ρ] [Ord V] [Std.TransOrd V]

/-- **What a search that ends well has solved**, from waves constrained in any way before it and
whatever the rules answer.  With backtracking it has not restarted, and while it has not, every
value is a state that its variable had when the search started.  After a restart it is a state of
the wave that a reset gives.  So both ways to recover solve the problem that the search started
with, if it had all that a reset brings back. -/
theorem collapse_ok_confined (s : Solver V ρ) (hlaid : s.system.Laid)
    (hwf : s.system.WellFormed) (limit : Nat) (journal : Journal) {stats : Stats}
    (hok : (s.collapse limit journal).result = .ok stats) :
    let ended := (s.collapse limit journal).solver.system
    ∃ value : Nat → Nat, ended.size = s.system.size ∧
      (∀ v < s.system.size, (ended.wave v).components = [value v]) ∧
      (s.config.backtracking = true → stats.restarts = 0) ∧
      (stats.restarts = 0 → ∀ v < s.system.size, value v ∈ s.system.wave v) ∧
      (0 < stats.restarts →
        ∃ r, s.system.reset = .ok r ∧ ∀ v < s.system.size, value v ∈ r.wave v) ∧
      ∀ r, s.system.reset = .ok r → Within r.waves s.system.waves →
        ∀ v < s.system.size, value v ∈ s.system.wave v := by
  have hstart : s.system.Intact := hlaid.intact hwf
  obtain ⟨t, run, hto, hlast, hended, -⟩ := s.collapse_last limit journal
  have last : (t.step run).outcome = .finished (.ok stats) := hlast.trans (congrArg _ hok)
  obtain ⟨hup, -⟩ := hto.upkeep_of_finished hstart last
  obtain ⟨rfl, value, hvalue⟩ := hup.resolved_of_ok last
  obtain ⟨base, hconfined⟩ := hto.confined hstart
  have hsize : (t.step run).solver.system.size = s.system.size := by
    obtain ⟨-, hintact, hproblem, -⟩ := hto.intact hstart
    exact hstart.size_eq hintact hproblem
  have hin : ∀ v < s.system.size, value v ∈ waveAt base v := by
    intro v hv
    have hmem := (Wave.mem_iff_eq_of_components (hvalue v (hsize ▸ hv))).mpr rfl
    exact (hconfined.within.subset v).2 _ hmem
  rw [hended]
  refine ⟨value, hsize, fun v hv => hvalue v (hsize ▸ hv), hconfined.unrestarted,
    fun hzero => ?_, fun hpos => ⟨_, hconfined.inForce.reset_eq hpos, hin⟩,
    fun r hr hwithin v hv => ?_⟩
  · rw [hconfined.inForce.base_eq hzero] at hin
    exact hin
  · rcases Nat.eq_zero_or_pos (t.step run).run.restarts with hzero | hpos
    · have hmem := hin v hv
      rwa [hconfined.inForce.base_eq hzero] at hmem
    · cases hr.symm.trans (hconfined.inForce.reset_eq hpos)
      exact (hwithin.subset v).2 _ (hin v hv)

/-- A ring of four with one vertex coloured beforehand and another one restricted is coloured within
these constraints; a ring of three that is restarted ends within what a reset gives. -/
theorem collapse_ok_confined_rings :
    (let s := Solver.ringOf 3 [[0], [0, 1, 2], [0, 1], [0, 1, 2]] {} [1, 2, 3, 4, 5]
     let ended := (s.collapse 5 .silent).solver.system
     ∃ value : Nat → Nat, (∀ v < 4, (ended.wave v).components = [value v]) ∧
       ∀ v < 4, value v ∈ s.system.wave v) ∧
    (let s := Solver.ringOf 3 [[0, 1], [0, 1], [0, 1]]
       { backtracking := false, selection := .firstMinimum } [1, 2, 3, 4, 5]
     let ended := (s.collapse 10 .silent).solver.system
     ∃ value : Nat → Nat, (∀ v < 3, (ended.wave v).components = [value v]) ∧
       ∃ r, s.system.reset = .ok r ∧ ∀ v < 3, value v ∈ r.wave v) := by
  have hvalid : (Layout.mk 0 3 3).Valid := by decide
  constructor
  · intro s ended
    have hok : (s.collapse 5 .silent).result = .ok ⟨2, 0, 0, 18⟩ :=
      drive_result_of_within (n := 21) (by decide +kernel) _
    obtain ⟨value, -, hvalue, -, hin, -⟩ := collapse_ok_confined s (System.ringOf_laid 3 _)
      (System.ringOf_wellFormed hvalid _) 5 .silent hok
    exact ⟨value, hvalue, hin rfl⟩
  · intro s ended
    have hok : (s.collapse 10 .silent).result = .ok ⟨3, 0, 1, 27⟩ :=
      drive_result_of_within (n := 32) (by decide +kernel) _
    obtain ⟨value, -, hvalue, -, -, hreset, -⟩ := collapse_ok_confined s
      (System.ringOf_laid 3 _) (System.ringOf_wellFormed hvalid _) 10 .silent hok
    exact ⟨value, hvalue, hreset (by decide)⟩

/-- **A restart forgets what the search was started on.**  With two of three colours allowed the
ring of three has no colouring, and with backtracking the search says so; without, it restarts with
the third colour, ends well, and leaves a vertex with the colour that it was not allowed. -/
theorem collapse_forgets :
    let restarting := Solver.ringOf 3 [[0, 1], [0, 1], [0, 1]]
      { backtracking := false, selection := .firstMinimum } [1, 2, 3, 4, 5]
    let undoing := { restarting with config := { restarting.config with backtracking := true } }
    let ended := (restarting.collapse 10 .silent).solver.system
    (System.ring 3 3).restore restarting.system.waves = .ok restarting.system ∧
      (restarting.collapse 10 .silent).result = .ok ⟨3, 0, 1, 27⟩ ∧
      (2 ∈ ended.wave 2 ∧ 2 ∉ restarting.system.wave 2) ∧
      (undoing.collapse 10 .silent).result = .error (.exhausted 1 1) := by
  intro restarting undoing ended
  have hok : restarting.resultWithin { limit := 10 } 32 = some (.ok ⟨3, 0, 1, 27⟩) := by
    decide +kernel
  refine ⟨rfl, drive_result_of_within hok _, ⟨?_, by decide +kernel⟩, ?_⟩
  · exact drive_solver_of_after hok (P := fun t => 2 ∈ t.system.wave 2) (by decide +kernel) _
  · exact drive_result_of_within (n := 20) (by decide +kernel) _

end WaveCollapse.Solver
