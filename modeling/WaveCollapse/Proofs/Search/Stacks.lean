import WaveCollapse.Proofs.Search.Invariant
import WaveCollapse.Proofs.Search.Ring

/-! # The stacks of a search

With backtracking a checkpoint is saved with every decision, so the two stacks belong together
entry by entry (`Solver.StacksAligned`).  Selection names ambiguous variables only, and
propagation narrows below a checkpoint but never widens: a decided variable keeps its one state
in every checkpoint taken later, hence is never decided twice, and the checkpoints shrink from
the oldest to the latest.  A restarting search saves nothing, and its decisions are those made
since the waves were last put in force.

All of this holds before the first step of a solver that has not searched before, and after
every step of any search, the last one included (`Solver.Boundary`).
-/

namespace WaveCollapse
variable {V ρ : Type}

/-! ## What the decisions that stand say of the vectors above them -/

/-- Where no wave is empty, a decision that is obeyed leaves exactly its state. -/
theorem Obeys.components_eq {ws : Array Wave} {choices : List Choice} (h : Obeys ws choices)
    (hwf : WellFormedWaves ws) (halive : AliveWaves ws) {c : Choice} (hc : c ∈ choices)
    (hv : c.v < ws.size) : (waveAt ws c.v).components = [c.state] := by
  obtain ⟨p, hp⟩ := (Wave.isEmpty_eq_false_iff (hwf c.v hv)).mp (halive c.v hv)
  have hstate : p = c.state := h c hc p hp
  refine Wave.components_eq_singleton fun q => ⟨h c hc q, ?_⟩
  rintro rfl
  rwa [← hstate]

namespace Decisions
variable {s : System V} {base : Array Wave} {saved : List (Array Wave)} {choices : List Choice}

/-- No variable is decided twice: what was decided before has one state, and an ambiguous
variable has two. -/
theorem nodup (h : Decisions s base saved choices) : (choices.map Choice.v).Nodup := by
  induction h with
  | nil => exact List.nodup_nil
  | @cons ws c saved choices _ _ _ obeys decided ambiguous ih =>
    rw [List.map_cons, List.nodup_cons]
    refine ⟨fun hmem => ?_, ih⟩
    obtain ⟨d, hd, hv⟩ := List.mem_map.mp hmem
    obtain ⟨q, hq, hne⟩ := Wave.exists_mem_ne ambiguous d.state
    rw [← hv] at hq
    exact hne (obeys d hd q hq)

/-- Every checkpoint lies within all that were taken before it. -/
theorem pairwise_within (h : Decisions s base saved choices) : saved.Pairwise Within := by
  induction h with
  | nil => exact .nil
  | @cons ws c saved choices _ _ within _ _ _ ih =>
    refine .cons (fun vs hvs => ?_) ih
    cases ih with
    | nil => cases hvs
    | cons hbelow _ =>
      rcases List.mem_cons.mp hvs with rfl | hvs
      · exact within
      · exact within.trans (hbelow vs hvs)

/-- Before each decision no wave was empty, and the decided variable had the decided state and
another one. -/
theorem alive_ambiguous (h : Decisions s base saved choices) :
    ∀ e ∈ saved.zip choices, AliveWaves e.1 ∧ e.2.v < e.1.size ∧
      e.2.state ∈ waveAt e.1 e.2.v ∧ ∃ q ∈ waveAt e.1 e.2.v, q ≠ e.2.state := by
  induction h with
  | nil =>
    intro e he
    cases he
  | cons _ settled _ _ decided ambiguous ih =>
    intro e he
    rw [List.zip_cons_cons] at he
    rcases List.mem_cons.mp he with rfl | he
    · exact ⟨settled.alive, decided.1, decided.2, Wave.exists_mem_ne ambiguous _⟩
    · exact ih e he

/-- A later checkpoint has at an earlier decision exactly the decided state. -/
theorem pairwise_decided (h : Decisions s base saved choices) :
    (saved.zip choices).Pairwise fun later earlier =>
      (waveAt later.1 earlier.2.v).components = [earlier.2.state] := by
  induction h with
  | nil => exact .nil
  | cons below settled _ obeys _ _ ih =>
    rw [List.zip_cons_cons]
    refine .cons (fun e he => ?_) ih
    have hc := (List.of_mem_zip he).2
    refine obeys.components_eq settled.wellFormed settled.alive hc ?_
    rw [settled.size]
    exact below.lt _ hc

end Decisions

namespace Solver

/-- The stacks of a search with backtracking, the latest entries first: as many checkpoints as
decisions, one for each observation that was not undone.  No variable is decided twice; before
its decision no wave was empty and it had the decided state and at least one other.  The waves
lie within the latest checkpoint, every checkpoint within the earlier ones, and later
checkpoints have exactly the decided state at every earlier decision; so have the waves in
force unless a contradiction is to be recovered from. -/
structure StacksAligned (s : Solver V ρ) (run : Run) : Prop where
  length_eq : s.checkpoints.length = s.choices.length
  observations_eq : run.observations = run.backtracks + s.choices.length
  nodup : (s.choices.map Choice.v).Nodup
  ambiguous : ∀ e ∈ s.checkpoints.zip s.choices, AliveWaves e.1 ∧ e.2.v < e.1.size ∧
    e.2.state ∈ waveAt e.1 e.2.v ∧ ∃ q ∈ waveAt e.1 e.2.v, q ≠ e.2.state
  decreasing : s.checkpoints.Pairwise Within
  current : ∀ ws ∈ s.checkpoints.head?, Within s.system.waves ws
  decided : (s.checkpoints.zip s.choices).Pairwise fun later earlier =>
    (waveAt later.1 earlier.2.v).components = [earlier.2.state]
  standing : run.inconsistent = false →
    ∀ c ∈ s.choices, (s.system.wave c.v).components = [c.state]

/-- The stacks of a search that restarts: nothing is saved, nothing was undone, and the
decisions are those made since the last reset. -/
structure StacksUnsaved (s : Solver V ρ) (run : Run) : Prop where
  checkpoints : s.checkpoints = []
  backtracks : run.backtracks = 0
  length_eq : s.choices.length = run.observationsSinceReset

/-- The stacks are as the mode of the search wants them. -/
def StacksKept (mode : Bool) (s : Solver V ρ) (run : Run) : Prop :=
  (mode = true → s.StacksAligned run) ∧ (mode = false → s.StacksUnsaved run)

/-- Stacks without an entry are aligned. -/
theorem StacksAligned.of_nil {s : Solver V ρ} {run : Run}
    (nothing : s.checkpoints = [] ∧ s.choices = []) (counts : run.observations = run.backtracks) :
    s.StacksAligned run where
  length_eq := by rw [nothing.1, nothing.2]; rfl
  observations_eq := by rw [nothing.2]; exact counts
  nodup := by rw [nothing.2]; exact List.nodup_nil
  ambiguous e he := by
    rw [nothing.1] at he
    cases he
  decreasing := by rw [nothing.1]; exact .nil
  current ws hws := by
    rw [nothing.1] at hws
    cases hws
  decided := by rw [nothing.1]; exact .nil
  standing _ c hc := by
    rw [nothing.2] at hc
    cases hc

section Kept
variable {start s : Solver V ρ} {limit : Nat} {base : Array Wave} {run : Run}

theorem Invariant.stacksAligned (hinv : Invariant start limit base s run)
    (mode : start.config.backtracking = true) : s.StacksAligned run := by
  obtain ⟨hdecisions, -, hobs⟩ := hinv.undoing mode
  refine ⟨hdecisions.length_eq, hobs, hdecisions.nodup, hdecisions.alive_ambiguous,
    hdecisions.pairwise_within, fun ws hws => ?_, hdecisions.pairwise_decided,
    fun on c hc => ?_⟩
  · have hwithin := hinv.within
    cases hsaved : s.checkpoints with
    | nil =>
      rw [hsaved] at hws
      cases hws
    | cons vs rest =>
      rw [hsaved] at hws hwithin
      cases hws
      exact hwithin
  · obtain ⟨halive, -, hobeys⟩ := hinv.consistent on
    refine hobeys.components_eq hinv.wellFormed halive hc ?_
    exact Nat.lt_of_lt_of_eq (hdecisions.lt c hc) hinv.size.symm

theorem Invariant.stacksKept (hinv : Invariant start limit base s run) :
    StacksKept start.config.backtracking s run := by
  refine ⟨hinv.stacksAligned, fun mode => ?_⟩
  obtain ⟨hsaved, hundone, hlength⟩ := hinv.restarting mode
  exact ⟨hsaved, hundone, hlength⟩

/-- With the last step of a search too the stacks are kept. -/
theorem Move.stacksKept (hstart : start.system.Sound) (hinv : Invariant start limit base s run)
    {next : Stepped V ρ} (hmove : Move s run next) :
    StacksKept start.config.backtracking next.solver next.run := by
  have hkept := hinv.stacksKept
  have hnext : ∀ e, next.outcome = .event e →
      StacksKept start.config.backtracking next.solver next.run := by
    intro e told
    obtain ⟨base', hinv'⟩ := hinv.move hstart hmove told
    exact hinv'.stacksKept
  cases hmove with
  | aborted on idle chosen _ mem =>
    exact (hinv.of_decided on idle chosen mem _ _).stacksKept
  | solved | limited =>
    -- only the source and a frontier on which nothing waits are gone
    exact ⟨fun mode => { hkept.1 mode with }, fun mode => { hkept.2 mode with }⟩
  | exhausted off mode nothing =>
    refine ⟨fun mode' => ?_, fun mode' => ?_⟩
    · have hobs := (hkept.1 mode').observations_eq
      rw [nothing.2] at hobs
      exact .of_nil nothing hobs
    · rw [hinv.config, mode'] at mode
      cases mode
  | hopeless off mode | unstartable off mode =>
    refine ⟨fun mode' => ?_, fun mode' => { hkept.2 mode' with }⟩
    rw [hinv.config, mode'] at mode
    cases mode
  | unchanged | narrowed | contradicted | observed | backtracked | restarted
  | restartedEmpty => exact hnext _ rfl

/-- A contradiction undoes exactly one decision, since what its exclusion leaves to the decided
variable is not empty, or ends the search when none stands. -/
theorem Move.undoes_one (hinv : Invariant start limit base s run) {next : Stepped V ρ}
    (hmove : Move s run next) (mode : start.config.backtracking = true)
    (off : run.inconsistent = true) :
    (s.checkpoints = [] ∧ s.choices = [] ∧
        next.outcome = .finished (.error (.exhausted run.observations run.backtracks))) ∨
      ∃ ws saved c choices, s.checkpoints = ws :: saved ∧ s.choices = c :: choices ∧
        ((waveAt ws c.v).remove c.state).isEmpty = false ∧
        next.outcome = .event (.backtracked c.v c.state choices.length) ∧
        next.solver.system.wave c.v = (waveAt ws c.v).remove c.state ∧
        next.solver.checkpoints = saved ∧ next.solver.choices = choices ∧
        next.run.backtracks = run.backtracks + 1 := by
  have hmode : s.config.backtracking = true := hinv.config ▸ mode
  cases hmove with
  | exhausted _ _ nothing => exact .inl ⟨nothing.1, nothing.2, rfl⟩
  | @backtracked ws saved c choices _ _ checkpoints taken =>
    have hdecisions := (hinv.undoing mode).1
    rw [checkpoints, taken] at hdecisions
    obtain ⟨undoable, -⟩ := List.forall₂_cons.mp hdecisions.undoable
    exact .inr ⟨ws, saved, c, choices, checkpoints, taken, undoable.undo, rfl,
      waveAt_set_self undoable.decided.1 _, rfl, rfl, rfl⟩
  | unchanged on | narrowed on | contradicted on | observed on | aborted on | solved on
  | limited on => exact absurd off (by rw [on]; exact Bool.false_ne_true)
  | hopeless _ mode' | restarted _ mode' | restartedEmpty _ mode' | unstartable _ mode' =>
    exact absurd hmode (by rw [mode']; exact Bool.false_ne_true)

end Kept

variable [PickSource ρ]

/-- The ends of the steps of a search: before the first step, if the solver has not searched
before, and after every step, whether the search goes on or not. -/
inductive Boundary (start : Solver V ρ) (limit : Nat) : Solver V ρ → Run → Prop where
  | fresh (unused : start.checkpoints = [] ∧ start.choices = []) :
      Boundary start limit start { limit }
  | after {t : Solver V ρ} {r : Run} (before : start.LeadsTo { limit } t r) :
      Boundary start limit (t.step r).solver (t.step r).run

theorem Boundary.stacksKept {start s : Solver V ρ} {limit : Nat} {run : Run}
    (hstart : start.system.Sound) (h : Boundary start limit s run) :
    StacksKept start.config.backtracking s run := by
  cases h with
  | fresh unused =>
    exact ⟨fun _ => .of_nil unused rfl, fun _ => ⟨unused.1, rfl, by rw [unused.2]; rfl⟩⟩
  | @after t r before =>
    rcases before.induct hstart (P := fun _ _ => True) (fun _ _ => trivial)
      (fun _ _ _ _ _ _ _ _ _ => trivial) with ⟨rfl, rfl⟩ | ⟨⟨base, hinv⟩, -⟩
    · exact (Invariant.begin hstart (start_begins t { limit })).stacksKept
    · exact (hinv.step_move hstart).stacksKept hstart hinv

variable [Ord V] [Std.TransOrd V]

/-- **The two stacks of a search stay aligned** at the end of every step, with each other, with
the waves and with the counts of the run.  So one contradiction undoes exactly one decision.
A search that restarts saves nothing and undoes nothing. -/
theorem stacks_aligned (start : Solver V ρ) (hlaid : start.system.Laid)
    (hwf : start.system.WellFormed) (hrules : start.system.problem.rules.Faithful)
    (limit : Nat) :
    (start.config.backtracking = true →
      (∀ s run, Boundary start limit s run → s.StacksAligned run) ∧
      ∀ s run, start.LeadsTo { limit } s run → run.initialized = true →
        run.inconsistent = true →
          (s.checkpoints = [] ∧ s.choices = [] ∧ (s.step run).outcome =
              .finished (.error (.exhausted run.observations run.backtracks))) ∨
            ∃ ws saved c choices, s.checkpoints = ws :: saved ∧ s.choices = c :: choices ∧
              ((waveAt ws c.v).remove c.state).isEmpty = false ∧
              (s.step run).outcome = .event (.backtracked c.v c.state choices.length) ∧
              (s.step run).solver.system.wave c.v = (waveAt ws c.v).remove c.state ∧
              (s.step run).solver.checkpoints = saved ∧ (s.step run).solver.choices = choices ∧
              (s.step run).run.backtracks = run.backtracks + 1) ∧
    (start.config.backtracking = false →
      ∀ s run, Boundary start limit s run → s.StacksUnsaved run) := by
  have hsound : start.system.Sound := hlaid.sound hwf hrules
  refine ⟨fun mode => ⟨fun s run h => ?_, fun s run hto begun off => ?_⟩, fun mode s run h => ?_⟩
  · exact (h.stacksKept hsound).1 mode
  · obtain ⟨base, hinv⟩ := hto.invariant hsound begun
    exact (hinv.step_move hsound).undoes_one hinv mode off
  · exact (h.stacksKept hsound).2 mode

/-- On the odd ring with two states a contradiction undoes the one decision that stands; a
search that restarts has decided as often as it observed since the last restart. -/
theorem stacks_ring_three :
    (∃ s run, (Solver.ring 3 2 {} [7]).LeadsTo { limit := 5 } s run ∧
      run.inconsistent = true ∧ s.choices.length = 1 ∧
      (s.step run).solver.StacksAligned (s.step run).run ∧
      (s.step run).solver.choices = []) ∧
    ∃ s run, Boundary (Solver.ring 3 2 { backtracking := false } [7, 9, 11]) 3 s run ∧
      run.restarts = 1 ∧ s.choices.length = 1 ∧ s.StacksUnsaved run := by
  constructor
  · have hafter : ((Solver.ring 3 2 {} [7]).after { limit := 5 } 13).any
        (fun q => q.2.initialized = true ∧ q.2.inconsistent = true ∧ q.1.choices.length = 1) =
          true := by decide +kernel
    obtain ⟨⟨s, run⟩, hto, begun, off, hlen⟩ := exists_leadsTo_of_after hafter
    obtain ⟨haligned, hundoes⟩ := (stacks_aligned (Solver.ring 3 2 {} [7]) (System.ring_laid 3 2)
      (System.ring_wellFormed (by decide)) (Rules.differing_faithful 2) 5).1 rfl
    refine ⟨s, run, hto, off, hlen, haligned _ _ (.after hto), ?_⟩
    rcases hundoes s run hto begun off with ⟨-, hnone, -⟩ |
      ⟨ws, saved, c, choices, -, htaken, -, -, -, -, hleft, -⟩
    · rw [hnone] at hlen
      cases hlen
    · rw [htaken] at hlen
      rw [hleft]
      exact List.eq_nil_of_length_eq_zero (Nat.succ.inj hlen)
  · have hafter : ((Solver.ring 3 2 { backtracking := false } [7, 9, 11]).after { limit := 3 }
        20).any (fun q => (q.1.step q.2).run.restarts = 1 ∧
          (q.1.step q.2).solver.choices.length = 1) = true := by decide +kernel
    obtain ⟨⟨s, run⟩, hto, hrestarts, hlen⟩ := exists_leadsTo_of_after hafter
    exact ⟨_, _, .after hto, hrestarts, hlen, (stacks_aligned _ (System.ring_laid 3 2)
      (System.ring_wellFormed (by decide)) (Rules.differing_faithful 2) 3).2 rfl _ _ (.after hto)⟩

end Solver
end WaveCollapse
