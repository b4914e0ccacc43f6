import WaveCollapse.Proofs.Search.Path
import WaveCollapse.Proofs.Search.Move

/-! # Picks that are written down in advance

A `Script` is a source that reads its picks off a list.  What an operation picks is then settled by
what the list begins with, and the rest of the list is left for the operations after it.  A step of
a search asks for two picks at most: one for the variable it observes and one for the state of this
variable.  So, for any state of the variable that is selected, some picks make the next step observe
it, whatever picks follow (`Solver.step_drawing`).
-/

namespace WaveCollapse

/-- A source that gives the picks of a list, each reduced below its bound; after the last one, the
first index. -/
structure Script where
  picks : List Nat

instance : PickSource Script where
  pick script n h :=
    match script.picks with
    | [] => (⟨0, h⟩, script)
    | k :: rest => (⟨k % n, Nat.mod_lt k h⟩, ⟨rest⟩)

namespace Script

/-- Every element of a list can be picked. -/
theorem exists_pick {α : Type} {xs : List α} {x : α} (h : x ∈ xs) :
    ∃ k, ∀ rest, PickSource.choose (⟨k :: rest⟩ : Script) xs = (some x, ⟨rest⟩) := by
  obtain ⟨k, hk, hget⟩ := List.mem_iff_getElem.mp h
  refine ⟨k, fun rest => ?_⟩
  unfold PickSource.choose
  rw [dif_pos (Nat.zero_lt_of_lt hk)]
  simp only [PickSource.pick, Nat.mod_eq_of_lt hk, Fin.getElem_fin, hget]

/-- The first candidate can be selected, whichever way ties are broken. -/
theorem exists_select (strategy : Selection) (ws : Array Wave) :
    ∃ picks, ∀ rest, select strategy ws (⟨picks ++ rest⟩ : Script) =
      ((lowestCandidates ws).head?, ⟨rest⟩) := by
  cases strategy with
  | firstMinimum => exact ⟨[], fun _ => rfl⟩
  | randomLowest =>
    unfold select
    cases hcandidates : lowestCandidates ws with
    | nil => exact ⟨[], fun _ => PickSource.choose_nil _⟩
    | cons v rest =>
      obtain ⟨k, hk⟩ := exists_pick (List.mem_cons_self (a := v) (l := rest))
      exact ⟨[k], hk⟩

/-- Every state of a wave can be observed. -/
theorem exists_observe {w : Wave} {p : Nat} (h : p ∈ w) :
    ∃ picks, ∀ rest, w.observe (⟨picks ++ rest⟩ : Script) = ⟨some p, w.single p, ⟨rest⟩⟩ := by
  have hmem : p ∈ w.components := h
  unfold Wave.observe
  split
  · next hnone =>
    rw [hnone] at hmem
    cases hmem
  · next q hone =>
    rw [hone] at hmem
    cases List.mem_singleton.mp hmem
    exact ⟨[], fun _ => rfl⟩
  · obtain ⟨k, hk⟩ := exists_pick hmem
    refine ⟨[k], fun rest => ?_⟩
    simp only [List.singleton_append, hk]

end Script

/-- The solver with its picks written down. -/
def Solver.drawing {V ρ : Type} (s : Solver V ρ) (picks : List Nat) : Solver V Script where
  system := s.system
  config := s.config
  source := ⟨picks⟩
  checkpoints := s.checkpoints
  choices := s.choices
  frontier := s.frontier
  reports := s.reports

/-- The step with the picks after it written down. -/
def Stepped.drawing {V ρ : Type} (next : Stepped V ρ) (picks : List Nat) : Stepped V Script where
  outcome := next.outcome
  solver := next.solver.drawing picks
  run := next.run
  notes := next.notes

namespace Solver
variable {V ρ : Type} {s : Solver V ρ} {run : Run} {f : Nat → Nat}

@[simp] theorem system_drawing (s : Solver V ρ) (picks : List Nat) :
    (s.drawing picks).system = s.system := rfl

@[simp] theorem config_drawing (s : Solver V ρ) (picks : List Nat) :
    (s.drawing picks).config = s.config := rfl

@[simp] theorem source_drawing (s : Solver V ρ) (picks : List Nat) :
    (s.drawing picks).source = ⟨picks⟩ := rfl

@[simp] theorem frontier_drawing (s : Solver V ρ) (picks : List Nat) :
    (s.drawing picks).frontier = s.frontier := rfl

@[simp] theorem reports_drawing (s : Solver V ρ) (picks : List Nat) :
    (s.drawing picks).reports = s.reports := rfl

@[simp] theorem progress_drawing (s : Solver V ρ) (run : Run) (picks : List Nat) :
    (s.drawing picks).progress run = s.progress run := rfl

/-! ## Steps that ask for no picks -/

theorem schedule_drawing (s : Solver V ρ) (run : Run) (picks : List Nat) :
    (s.drawing picks).schedule run = (s.schedule run).drawing picks := by
  unfold schedule
  rw [system_drawing]
  cases s.system.waves.findIdx? Wave.isEmpty <;> rfl

theorem start_drawing (s : Solver V ρ) (run : Run) (picks : List Nat) :
    (s.drawing picks).start run = (s.start run).drawing picks :=
  schedule_drawing { s with checkpoints := [], choices := [] } _ picks

theorem announce_drawing (s : Solver V ρ) (run : Run) (v p : Nat) (picks : List Nat) :
    (s.drawing picks).announce run v p = (s.announce run v p).drawing picks := by
  unfold announce report
  rw [config_drawing, reports_drawing, progress_drawing]
  cases s.config.observer with
  | none => rfl
  | some observer =>
    simp only
    cases observer.verdict (s.progress run :: s.reports) with
    | ok _ => rfl
    | error e => cases e <;> rfl

theorem remember_drawing (s : Solver V ρ) (picks : List Nat) :
    (s.drawing picks).remember = s.remember.drawing picks := by
  unfold remember
  rw [config_drawing]
  cases s.config.backtracking <;> rfl

/-! ## Steps that can be steered -/

/-- With some picks in front the operation leads to one step, whatever picks follow, and if this
step observes a variable, then its state of the assignment. -/
def Steered (ρ : Type) (f : Nat → Nat) (act : List Nat → Stepped V Script) : Prop :=
  ∃ picks, ∃ next : Stepped V ρ, (∀ rest, act (picks ++ rest) = next.drawing rest) ∧
    ∀ v p, next.outcome = .event (.observed v p) → p = f v

/-- An operation that asks for no picks and observes nothing. -/
theorem Steered.of_forall {act : List Nat → Stepped V Script} (next : Stepped V ρ)
    (h : ∀ picks, act picks = next.drawing picks)
    (other : ∀ v p, next.outcome ≠ .event (.observed v p)) : Steered ρ f act :=
  ⟨[], next, h, fun v p told => absurd told (other v p)⟩

/-- An operation that goes over to another one after some picks. -/
theorem Steered.of_front {act later : List Nat → Stepped V Script} (h : Steered ρ f later)
    (picks : List Nat) (onward : ∀ rest, act (picks ++ rest) = later rest) : Steered ρ f act := by
  obtain ⟨more, next, hnext, follows⟩ := h
  refine ⟨picks ++ more, next, fun rest => ?_, follows⟩
  rw [List.append_assoc, onward, hnext]

/-- What is announced is the observation that was made. -/
theorem announce_observed {v p w q : Nat}
    (h : (s.announce run v p).outcome = .event (.observed w q)) : w = v ∧ q = p := by
  obtain ⟨reports, notes, htold | ⟨-, reason, hstopped⟩⟩ := announce_cases s run v p
  · rw [htold] at h
    cases h
    exact ⟨rfl, rfl⟩
  · rw [hstopped] at h
    cases h

/-- Every state of a variable can be what an observation of the variable leaves. -/
theorem collapseVariable_steered {v : Nat} (hw : (s.system.wave v).Readable)
    (hin : f v ∈ s.system.wave v) (run : Run) :
    Steered ρ f fun picks => (s.drawing picks).collapseVariable run v := by
  obtain ⟨picks, hpicks⟩ := Script.exists_observe hin
  refine ⟨picks, (s.remember.commit v (f v)
    ⟨some (f v), (s.system.wave v).single (f v), s.source⟩).announce run.counted v (f v),
    fun rest => ?_, fun w q told => ?_⟩
  · unfold collapseVariable
    simp only [system_drawing, source_drawing, hpicks]
    rw [if_neg (not_not_intro hw), ← announce_drawing, remember_drawing]
    rfl
  · obtain ⟨rfl, rfl⟩ := announce_observed told
    rfl

/-- An observation can take its state from any assignment inside the waves. -/
theorem observe_steered (hwf : s.system.WellFormed) (hin : Inside s.system.waves f) (run : Run) :
    Steered ρ f fun picks => (s.drawing picks).observe run := by
  obtain ⟨picks, hpicks⟩ := Script.exists_select s.config.selection s.system.waves
  cases hhead : (lowestCandidates s.system.waves).head? with
  | none =>
    rw [hhead] at hpicks
    exact ⟨picks, ⟨.finished (.ok run.stats), s, run, []⟩,
      fun rest => observe_of_none (s := s.drawing (picks ++ rest)) (hpicks rest) run, nofun⟩
  | some v =>
    rw [hhead] at hpicks
    have hobserve := fun rest => observe_of_some (s := s.drawing (picks ++ rest)) (hpicks rest) run
    by_cases full : run.limit ≤ run.observations
    · exact ⟨picks, ⟨.finished (.error (.stepLimit run.limit)), s, run, []⟩,
        fun rest => (hobserve rest).trans (if_pos full), nofun⟩
    · obtain ⟨hv, -, -⟩ := mem_lowestCandidates.mp (List.mem_of_head? hhead)
      exact (collapseVariable_steered (hwf v hv).readable (hin v hv) run).of_front picks
        fun rest => (hobserve rest).trans (if_neg full)

/-- Relaxing a connection asks for no picks, so only an observation has to be steered. -/
theorem advance_steered (hs : s.system.Intact) (hin : Inside s.system.waves f) (run : Run) :
    Steered ρ f fun picks => (s.drawing picks).advance run := by
  have hstep := hs.propagateStep s.frontier
  unfold advance
  simp only [system_drawing, frontier_drawing]
  generalize s.system.propagateStep s.frontier = next at hstep ⊢
  cases hstep with
  | idle => exact observe_steered (s := { s with frontier := [] }) hs.wellFormed hin run
  | @unchanged u c rest =>
    exact .of_forall ⟨.event (.propagated u c.destination c.kind false),
      s.carried ⟨.unchanged u c.destination c.kind, s.system, rest, []⟩,
      { run with propagationSteps := run.propagationSteps + 1 }, []⟩ (fun _ => rfl) nofun
  | @narrowed u c rest notes =>
    exact .of_forall ⟨.event (.propagated u c.destination c.kind true),
      s.carried ⟨.narrowed u c.destination c.kind, _, _, notes⟩,
      { run with propagationSteps := run.propagationSteps + 1 }, notes.map .narrowing⟩
      (fun _ => rfl) nofun
  | @contradiction u c _ notes =>
    exact .of_forall ⟨.event (.contradiction c.destination),
      s.carried ⟨.contradiction u c.destination c.kind, _, _, notes⟩,
      { run with propagationSteps := run.propagationSteps + 1, inconsistent := true },
      notes.map .narrowing ++ [.contradiction c.destination]⟩ (fun _ => rfl) nofun

/-- The steps of a search that is not recovering can be steered along any assignment inside the
waves. -/
theorem step_steered (hs : s.system.Intact) (hin : Inside s.system.waves f)
    (on : run.inconsistent = false) : Steered ρ f fun picks => (s.drawing picks).step run := by
  unfold step
  cases run.initialized with
  | false =>
    refine .of_forall (s.start run) (s.start_drawing run) fun v p told => ?_
    have hbegins := s.start_begins run
    generalize s.start run = next at hbegins told
    cases hbegins <;> cases told
  | true =>
    rw [on]
    exact advance_steered hs hin run

end Solver
end WaveCollapse
