import Mathlib.Data.List.Forall2
import WaveCollapse.Proofs.Propagation.Run
import WaveCollapse.Proofs.Selection
import WaveCollapse.Proofs.Search.Path

/-! # What holds throughout a search

With backtracking a search keeps two stacks side by side: the decisions that stand, and the
waves before each of them.  `Decisions` says what the stacks always look like: every saved
vector was ready to be observed (`Settled`), lies within the one saved before it, obeys the
decisions below it, and has the decided state and at least one other at the decided variable.
So every decision leaves an `alternative` to go on with, in which no wave is empty.

`Solver.Invariant` joins this to the waves in force: they lie within the last saved vector,
and as long as no contradiction is met none of them is empty, the frontier covers all
connections, and the decisions are obeyed.  `base` is the vector that the search started
from, which a restart replaces.  The part of it that holds whatever the rules answer is
`Solver.Upkeep`; it is all that the next step needs.
-/

namespace WaveCollapse
variable {V ρ : Type}

/-- A vector that is ready to be observed: well-formed waves, none of them empty, supported
by every connection of the system. -/
structure Settled (s : System V) (ws : Array Wave) : Prop where
  size : ws.size = s.size
  wellFormed : WellFormedWaves ws
  alive : AliveWaves ws
  consistent : s.ArcConsistent (members ws)

/-- Where a decision stands, no other state is left. -/
def Obeys (ws : Array Wave) (choices : List Choice) : Prop :=
  ∀ c ∈ choices, ∀ p, p ∈ waveAt ws c.v → p = c.state

theorem Obeys.mono {ws vs : Array Wave} {choices : List Choice} (h : Obeys vs choices)
    (hw : Within ws vs) : Obeys ws choices :=
  fun c hc p hp => h c hc p ((hw.subset c.v).2 p hp)

/-- What a decision leaves to try: the waves before it without the decided state. -/
def alternative (ws : Array Wave) (c : Choice) : Array Wave :=
  ws.setIfInBounds c.v ((waveAt ws c.v).remove c.state)

theorem alternative_within (ws : Array Wave) (c : Choice) : Within (alternative ws c) ws :=
  within_set (Wave.remove_subset _ _)

theorem inside_alternative_iff {ws : Array Wave} {c : Choice} (hv : c.v < ws.size)
    {f : Nat → Nat} : Inside (alternative ws c) f ↔ Inside ws f ∧ f c.v ≠ c.state := by
  unfold alternative
  rw [inside_set_iff hv (Wave.remove_subset _ _)]
  constructor
  · rintro ⟨hin, hf⟩
    exact ⟨hin, (Wave.mem_remove.mp hf).2⟩
  · rintro ⟨hin, hne⟩
    exact ⟨hin, Wave.mem_remove.mpr ⟨hin c.v hv, hne⟩⟩

/-- The saved vectors and the decisions taken from them, the latest first. -/
inductive Decisions (s : System V) (base : Array Wave) :
    List (Array Wave) → List Choice → Prop where
  | nil : Decisions s base [] []
  | cons {ws : Array Wave} {c : Choice} {saved : List (Array Wave)} {choices : List Choice}
      (below : Decisions s base saved choices) (settled : Settled s ws)
      (within : Within ws (saved.headD base)) (obeys : Obeys ws choices)
      (decided : c.v < ws.size ∧ c.state ∈ waveAt ws c.v)
      (ambiguous : 2 ≤ (waveAt ws c.v).components.length) :
      Decisions s base (ws :: saved) (c :: choices)

theorem Decisions.length_eq {s : System V} {base : Array Wave} {saved : List (Array Wave)}
    {choices : List Choice} (h : Decisions s base saved choices) :
    saved.length = choices.length := by
  induction h with
  | nil => rfl
  | cons _ _ _ _ _ _ ih => rw [List.length_cons, List.length_cons, ih]

/-- The last saved vector lies within the base. -/
theorem Decisions.within_base {s : System V} {base : Array Wave} {saved : List (Array Wave)}
    {choices : List Choice} (h : Decisions s base saved choices) :
    Within (saved.headD base) base := by
  induction h with
  | nil => exact .refl base
  | cons _ _ hw _ _ _ ih => exact hw.trans ih

theorem Decisions.lt {s : System V} {base : Array Wave} {saved : List (Array Wave)}
    {choices : List Choice} (h : Decisions s base saved choices) : ∀ c ∈ choices, c.v < s.size := by
  induction h with
  | nil => intro c hc; cases hc
  | cons _ settled _ _ decided _ ih =>
    intro c hc
    rcases List.mem_cons.mp hc with rfl | hc
    · exact Nat.lt_of_lt_of_eq decided.1 settled.size
    · exact ih c hc

/-- A decision that can be undone: no wave of the vector that it was taken from is empty, and
the decided variable has the decided state there and at least one other. -/
structure Undoable (n : Nat) (ws : Array Wave) (c : Choice) : Prop where
  size : ws.size = n
  wellFormed : WellFormedWaves ws
  alive : AliveWaves ws
  decided : c.v < ws.size ∧ c.state ∈ waveAt ws c.v
  ambiguous : 2 ≤ (waveAt ws c.v).components.length

/-- Excluding the decision leaves its variable a state. -/
theorem Undoable.undo {n : Nat} {ws : Array Wave} {c : Choice} (h : Undoable n ws c) :
    ((waveAt ws c.v).remove c.state).isEmpty = false := by
  have hwf := h.wellFormed c.v h.decided.1
  have hlen := Wave.length_components_remove h.decided.2
  have hambiguous := h.ambiguous
  rw [Wave.isEmpty_eq_false_iff (hwf.remove _)]
  exact List.exists_mem_of_length_pos (by omega)

theorem Undoable.alternative_alive {n : Nat} {ws : Array Wave} {c : Choice}
    (h : Undoable n ws c) :
    WellFormedWaves (alternative ws c) ∧ AliveWaves (alternative ws c) :=
  ⟨h.wellFormed.set ((h.wellFormed c.v h.decided.1).remove c.state), h.alive.set h.undo⟩

/-- Every decision that stands can be undone. -/
theorem Decisions.undoable {s : System V} {base : Array Wave} {saved : List (Array Wave)}
    {choices : List Choice} (h : Decisions s base saved choices) :
    List.Forall₂ (Undoable s.size) saved choices := by
  induction h with
  | nil => exact .nil
  | cons _ settled _ _ decided ambiguous ih =>
    exact .cons ⟨settled.size, settled.wellFormed, settled.alive, decided, ambiguous⟩ ih

theorem Decisions.alternative_alive {s : System V} {base ws : Array Wave}
    {saved : List (Array Wave)} {c : Choice} {choices : List Choice}
    (h : Decisions s base (ws :: saved) (c :: choices)) :
    WellFormedWaves (alternative ws c) ∧ AliveWaves (alternative ws c) := by
  cases h.undoable with
  | cons undoable _ => exact undoable.alternative_alive

/-- An assignment inside an alternative differs from the decision that left it. -/
theorem Decisions.differs {s : System V} {base : Array Wave} {saved : List (Array Wave)}
    {choices : List Choice} (h : Decisions s base saved choices) {f : Nat → Nat} :
    ∀ e ∈ saved.zip choices, Inside (alternative e.1 e.2) f → f e.2.v ≠ e.2.state := by
  induction h with
  | nil => intro e he; cases he
  | cons _ _ _ _ decided _ ih =>
    intro e he hin
    rw [List.zip_cons_cons] at he
    rcases List.mem_cons.mp he with rfl | he
    · exact ((inside_alternative_iff decided.1).mp hin).2
    · exact ih e he hin

namespace Solver

/-- The vector that bounds a search: the waves it started with, until a restart puts the
starting waves of the problem in their place. -/
def InForce (start : System V) (run : Run) (base : Array Wave) : Prop :=
  run.restarts = 0 ∧ run.observationsSinceReset = run.observations ∧ base = start.waves ∨
    0 < run.restarts ∧ start.problem.startingWaves = .ok base

theorem InForce.base_eq {start : System V} {run : Run} {base : Array Wave}
    (h : InForce start run base) (unrestarted : run.restarts = 0) : base = start.waves := by
  rcases h with ⟨-, -, hbase⟩ | ⟨hpos, -⟩
  · exact hbase
  · exact absurd unrestarted (Nat.pos_iff_ne_zero.mp hpos)

theorem InForce.reset_eq {start : System V} {run : Run} {base : Array Wave}
    (h : InForce start run base) (restarted : 0 < run.restarts) :
    start.reset = .ok { start with waves := base } := by
  rcases h with ⟨hzero, -, -⟩ | ⟨-, hstarting⟩
  · exact absurd hzero (Nat.pos_iff_ne_zero.mp restarted)
  · exact System.reset_eq hstarting

/-- What holds of a search that has begun, between any two of its steps, whatever its rules
answer. -/
structure Upkeep (start : Solver V ρ) (limit : Nat) (s : Solver V ρ) (run : Run) : Prop where
  limit : run.limit = limit
  begun : run.initialized = true
  config : s.config = start.config
  network : s.system.problem = start.system.problem ∧
    s.system.connections = start.system.connections
  intact : s.system.Intact
  alive : run.inconsistent = false → AliveWaves s.system.waves
  undoing : s.config.backtracking = true →
    List.Forall₂ (Undoable s.system.size) s.checkpoints s.choices
  restarting : s.config.backtracking = false → s.checkpoints = []

/-- What holds of a search that has begun, between any two of its steps. -/
structure Invariant (start : Solver V ρ) (limit : Nat) (base : Array Wave) (s : Solver V ρ)
    (run : Run) : Prop where
  limit : run.limit = limit
  begun : run.initialized = true
  config : s.config = start.config
  network : s.system.problem = start.system.problem ∧
    s.system.connections = start.system.connections
  size : s.system.size = start.system.size
  wellFormed : s.system.WellFormed
  inForce : InForce start.system run base
  within : Within s.system.waves (s.checkpoints.headD base)
  contradicted : run.inconsistent = true →
    s.frontier = [] ∧ ∃ v < s.system.size, (s.system.wave v).isEmpty = true
  consistent : run.inconsistent = false →
    AliveWaves s.system.waves ∧ s.system.Covered s.frontier ∧ Obeys s.system.waves s.choices
  undoing : start.config.backtracking = true →
    Decisions start.system base s.checkpoints s.choices ∧ run.restarts = 0 ∧
      run.observations = run.backtracks + s.choices.length
  restarting : start.config.backtracking = false →
    s.checkpoints = [] ∧ run.backtracks = 0 ∧
      s.choices.length = run.observationsSinceReset

theorem Invariant.sound {start s : Solver V ρ} {limit : Nat} {base : Array Wave} {run : Run}
    (hstart : start.system.Sound) (h : Invariant start limit base s run) : s.system.Sound :=
  hstart.of_network h.network h.size h.wellFormed

theorem Invariant.upkeep {start s : Solver V ρ} {limit : Nat} {base : Array Wave} {run : Run}
    (hstart : start.system.Sound) (h : Invariant start limit base s run) :
    Upkeep start limit s run where
  limit := h.limit
  begun := h.begun
  config := h.config
  network := h.network
  intact := (h.sound hstart).intact
  alive on := (h.consistent on).1
  undoing mode := h.size ▸ (h.undoing (h.config ▸ mode)).1.undoable
  restarting mode := (h.restarting (h.config ▸ mode)).1

/-- All that a search holds lies within the vector in force. -/
theorem Invariant.within_base {start s : Solver V ρ} {limit : Nat} {base : Array Wave} {run : Run}
    (h : Invariant start limit base s run) : Within s.system.waves base := by
  cases mode : start.config.backtracking with
  | true => exact h.within.trans (h.undoing mode).1.within_base
  | false =>
    have hwithin := h.within
    rw [(h.restarting mode).1] at hwithin
    exact hwithin

end Solver
end WaveCollapse
