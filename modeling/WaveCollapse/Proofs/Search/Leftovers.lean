import WaveCollapse.Proofs.Search.Effects
import WaveCollapse.Proofs.Search.Restored

/-! # Nothing is left over between searches

Whatever earlier searches left on the stacks and on the frontier, and however they ended, the next
search does not depend on it: solvers that agree in the rest search alike, event by event and to
the same end (`Solver.Alike.nothing_left_over`).

Nor does a search use it.  Its first step clears both stacks, and every further one takes what it
puts there from the waves before it and the decision that it makes (`Solver.StacksFrom`).  So what
stands on the stacks was put there by a call of the same search, and only that is ever undone
(`Stepper.Own`).  No wave needs to be well-formed for this: where waves are not, one recovery may
undo several decisions, or none may belong to a saved vector.
-/

namespace WaveCollapse

namespace Solver
variable {V ρ : Type} {s : Solver V ρ} {run : Run}

/-! ## What a step leaves on the stacks -/

/-- What stands on the stacks after a step stood there before it, or is the vector before it, or
the decision made in it.  What it undoes stood on the stacks. -/
structure StacksFrom (s : Solver V ρ) (next : Stepped V ρ) : Prop where
  checkpoints : ∀ ws ∈ next.solver.checkpoints, ws ∈ s.checkpoints ∨ ws = s.system.waves
  choices : ∀ c ∈ next.solver.choices, c ∈ s.choices ∨
    next.solver.choices = c :: s.choices ∧ (next.outcome = .event (.observed c.v c.state) ∨
      ∃ reason, next.outcome = .finished (.error (.aborted reason)))
  undone : ∀ v p depth, next.outcome = .event (.backtracked v p depth) →
    ⟨v, p⟩ ∈ s.choices ∧ ∃ ws ∈ s.checkpoints,
      next.solver.system.waves = alternative ws ⟨v, p⟩

/-- A step that undoes nothing and leaves the stacks as they are, or empty. -/
theorem StacksFrom.of_kept {next : Stepped V ρ}
    (checkpoints : ∀ ws ∈ next.solver.checkpoints, ws ∈ s.checkpoints ∨ ws = s.system.waves)
    (choices : ∀ c ∈ next.solver.choices, c ∈ s.choices)
    (told : ∀ v p depth, next.outcome ≠ .event (.backtracked v p depth)) : StacksFrom s next where
  checkpoints := checkpoints
  choices c hc := .inl (choices c hc)
  undone v p depth h := absurd h (told v p depth)

theorem StacksFrom.of_cleared {next : Stepped V ρ} (checkpoints : next.solver.checkpoints = [])
    (choices : next.solver.choices = [])
    (told : ∀ v p depth, next.outcome ≠ .event (.backtracked v p depth)) : StacksFrom s next := by
  refine .of_kept ?_ ?_ told
  · rw [checkpoints]
    exact nofun
  · rw [choices]
    exact nofun

theorem schedule_stacks (s : Solver V ρ) (run : Run) :
    (s.schedule run).solver.checkpoints = s.checkpoints ∧
      (s.schedule run).solver.choices = s.choices ∧
      ∀ v p depth, (s.schedule run).outcome ≠ .event (.backtracked v p depth) := by
  unfold schedule
  split
  all_goals
    refine ⟨rfl, rfl, fun v p depth told => ?_⟩
    cases told

/-- Undoing takes from the given stacks only, by induction on the vectors still to be tried. -/
theorem unwind_stacks (s : Solver V ρ) (run : Run) (notes : List SearchNote)
    (checkpoints : List (Array Wave)) (choices : List Choice) :
    let next := s.unwind run notes checkpoints choices
    (∀ ws ∈ next.solver.checkpoints, ws ∈ checkpoints) ∧
      (∀ c ∈ next.solver.choices, c ∈ choices) ∧
      ∀ v p depth, next.outcome = .event (.backtracked v p depth) →
        ⟨v, p⟩ ∈ choices ∧ ∃ ws ∈ checkpoints,
          next.solver.system.waves = alternative ws ⟨v, p⟩ := by
  induction checkpoints generalizing s run notes choices with
  | nil =>
    unfold unwind
    refine ⟨fun ws hws => hws, fun c hc => List.mem_of_mem_tail hc, fun v p depth told => ?_⟩
    cases told
  | cons waves checkpoints ih =>
    cases choices with
    | nil =>
      unfold unwind
      refine ⟨fun ws hws => List.mem_of_mem_tail hws, fun c hc => hc, fun v p depth told => ?_⟩
      cases told
    | cons c choices =>
      unfold unwind System.restore
      by_cases hfits : waves.size = s.system.size
      · rw [if_pos hfits]
        dsimp only
        split
        · obtain ⟨hsaved, hchoices, hundone⟩ := ih { s with system := _ } _ _ choices
          refine ⟨fun ws hws => .tail _ (hsaved ws hws), fun d hd => .tail _ (hchoices d hd), ?_⟩
          intro v p depth told
          obtain ⟨hmem, ws, hws, heq⟩ := hundone v p depth told
          exact ⟨.tail _ hmem, ws, .tail _ hws, heq⟩
        · refine ⟨fun ws hws => .tail _ hws, fun d hd => .tail _ hd, ?_⟩
          intro v p depth told
          cases told
          exact ⟨List.mem_cons_self, waves, List.mem_cons_self, rfl⟩
      · rw [if_neg hfits]
        refine ⟨fun ws hws => .tail _ hws, fun d hd => .tail _ hd, fun v p depth told => ?_⟩
        cases told

theorem restart_stacks (s : Solver V ρ) (run : Run) : StacksFrom s (s.restart run) := by
  unfold restart
  split
  · exact .of_kept (fun _ => .inl) (fun _ => id) nofun
  · dsimp only
    split
    · exact .of_kept (fun _ => .inl) (fun _ => id) nofun
    · next system _ =>
      obtain ⟨hsaved, hchoices, htold⟩ := schedule_stacks
        { s with system, choices := [], checkpoints := [] }
        { run with restarts := run.restarts + 1, observationsSinceReset := 0 }
      split
      · exact .of_cleared hsaved hchoices nofun
      · exact .of_cleared hsaved hchoices htold

theorem recover_stacks (s : Solver V ρ) (run : Run) : StacksFrom s (s.recover run) := by
  unfold recover
  dsimp only
  split
  · obtain ⟨hsaved, hchoices, hundone⟩ := unwind_stacks s { run with inconsistent := false } []
      s.checkpoints s.choices
    exact ⟨fun ws hws => .inl (hsaved ws hws), fun c hc => .inl (hchoices c hc), hundone⟩
  · exact restart_stacks s _

theorem remember_checkpoints (s : Solver V ρ) :
    ∀ ws ∈ s.remember.checkpoints, ws ∈ s.checkpoints ∨ ws = s.system.waves := by
  intro ws hws
  unfold remember at hws
  split at hws
  · exact (List.mem_cons.mp hws).symm
  · exact .inl hws

theorem announce_stacks (s : Solver V ρ) (run : Run) (v p : Nat) :
    (s.announce run v p).solver.checkpoints = s.checkpoints ∧
      (s.announce run v p).solver.choices = s.choices ∧
      ((s.announce run v p).outcome = .event (.observed v p) ∨
        ∃ reason, (s.announce run v p).outcome = .finished (.error (.aborted reason))) := by
  obtain ⟨reports, notes, h | ⟨-, reason, h⟩⟩ := announce_cases s run v p
  · rw [h]
    exact ⟨rfl, rfl, .inl rfl⟩
  · rw [h]
    exact ⟨rfl, rfl, .inr ⟨reason, rfl⟩⟩

section Steps
variable [PickSource ρ]

theorem collapseVariable_stacks (s : Solver V ρ) (run : Run) (v : Nat) :
    StacksFrom s (s.collapseVariable run v) := by
  unfold collapseVariable
  dsimp only
  split
  · exact .of_kept (remember_checkpoints s) (fun c hc => choices_remember s ▸ hc) nofun
  · split
    · exact .of_kept (remember_checkpoints s) (fun c hc => choices_remember s ▸ hc) nofun
    · next p _ =>
      obtain ⟨hsaved, hchoices, htold⟩ := announce_stacks
        (s.remember.commit v p ((s.system.wave v).observe s.source)) run.counted v p
      refine ⟨?_, ?_, ?_⟩
      · rw [hsaved]
        exact remember_checkpoints s
      · have hcommitted : ∀ seen, (s.remember.commit v p seen).choices = ⟨v, p⟩ :: s.choices :=
          fun _ => congrArg (_ :: ·) (choices_remember s)
        rw [hchoices, hcommitted]
        intro c hc
        rcases List.mem_cons.mp hc with rfl | hc
        · exact .inr ⟨rfl, htold⟩
        · exact .inl hc
      · intro u q depth told
        rcases htold with h | ⟨reason, h⟩
        · cases h.symm.trans told
        · cases h.symm.trans told

theorem observe_stacks (s : Solver V ρ) (run : Run) : StacksFrom s (s.observe run) := by
  unfold observe
  dsimp only
  split
  · exact .of_kept (fun _ => .inl) (fun _ => id) nofun
  · split
    · exact .of_kept (fun _ => .inl) (fun _ => id) nofun
    · next v _ _ =>
      -- the selection took from the source only
      have h := collapseVariable_stacks
        { s with source := (select s.config.selection s.system.waves s.source).2 } run v
      exact ⟨h.checkpoints, h.choices, h.undone⟩

theorem advance_stacks (s : Solver V ρ) (run : Run) : StacksFrom s (s.advance run) := by
  unfold advance
  dsimp only
  split
  · next idle =>
    rw [System.propagateStep_idle idle]
    have h := observe_stacks { s with frontier := [] } run
    exact ⟨h.checkpoints, h.choices, h.undone⟩
  all_goals exact .of_kept (fun _ => .inl) (fun _ => id) nofun

/-- **Every step of a search that has begun takes what it leaves on the stacks from what it finds.** -/
theorem step_stacks (begun : run.initialized = true) : StacksFrom s (s.step run) := by
  unfold step
  rw [begun, if_neg (by decide)]
  split
  · exact recover_stacks s run
  · exact advance_stacks s run

/-- A search that has begun stays begun: what tells them apart comes first in the potential. -/
theorem begun_of_event (begun : run.initialized = true) {e : Event}
    (told : (s.step run).outcome = .event e) : (s.step run).run.initialized = true := by
  by_contra fresh
  have hbelow := step_below told
  unfold Below potential at hbelow
  rw [if_neg fresh, if_pos begun] at hbelow
  cases hbelow with
  | left _ _ h => exact absurd (show 1 < 0 from h) (Nat.not_lt_zero 1)

end Steps
end Solver

namespace Stepper
open Solver (StacksFrom)
variable {V ρ : Type} [PickSource ρ]

/-! ## What a search holds and undoes -/

/-- What a search holds after `k + 1` calls was put there by calls of its own, and what its last
call undid was told by one of them. -/
structure Own (st : Stepper V ρ) (journal : Journal) (k : Nat) : Prop where
  /-- A saved vector was in force before one of the calls. -/
  checkpoints : ∀ ws ∈ (st.stage journal (k + 1)).solver.checkpoints,
    ∃ i ≤ k, ws = (st.stage journal i).waves
  /-- A decision was made by one of the calls after the first, and told unless the observer has
  stopped the search there. -/
  choices : ∀ c ∈ (st.stage journal (k + 1)).solver.choices, ∃ j ≤ k, 0 < j ∧
    (st.stage journal (j + 1)).solver.choices = c :: (st.stage journal j).solver.choices ∧
    (st.event journal j = some (.observed c.v c.state) ∨
      ∃ reason, (st.stage journal (k + 1)).outcome = some (.error (.aborted reason)))
  /-- Undoing a decision brings back a vector that was in force before one of the calls. -/
  undone : ∀ v p depth, st.event journal k = some (.backtracked v p depth) →
    (∃ j < k, st.event journal j = some (.observed v p)) ∧
      ∃ i < k, (st.stage journal (k + 1)).waves = alternative (st.stage journal i).waves ⟨v, p⟩

section Calls
variable {a b : Solver V ρ} {limit : Nat} {journal : Journal}

/-- As long as it runs, a search that has begun stays begun. -/
theorem begun (a : Solver V ρ) (limit : Nat) (journal : Journal) (k : Nat)
    (running : ((ofSolver a limit).stage journal (k + 1)).outcome = none) :
    ((ofSolver a limit).stage journal (k + 1)).run.initialized = true := by
  induction k with
  | zero =>
    obtain ⟨next, e, begins, -, -, hstage⟩ := first_call a limit journal
    rw [hstage]
    cases begins <;> rfl
  | succ k ih =>
    have hcall := steps (ofSolver a limit) journal (k + 1)
    generalize (ofSolver a limit).stage journal (k + 1 + 1) = after at hcall running ⊢
    generalize (ofSolver a limit).event journal (k + 1) = told at hcall
    generalize (ofSolver a limit).stage journal (k + 1) = before at hcall ih
    cases hcall with
    | told told => exact Solver.begun_of_event (ih rfl) told
    | last => cases running
    | past => exact ih running

omit [PickSource ρ] in
theorem not_backtracked_lastEvent (result : Except CollapseError Stats) (v p depth : Nat) :
    lastEvent result ≠ .backtracked v p depth := by
  cases result <;> exact nofun

/-- A step that takes from the stacks what it leaves there keeps them the search's own. -/
theorem Own.step {st : Stepper V ρ} {k : Nat} {s : Solver V ρ} {run : Run} {next : Stepped V ρ}
    (h : st.Own journal k) (before : st.stage journal (k + 1) = { solver := s, run })
    (hstacks : StacksFrom s next)
    (solver : (st.stage journal (k + 2)).solver = next.solver)
    (told : ∀ e, next.outcome = .event e → st.event journal (k + 1) = some e)
    (last : ∀ result, next.outcome = .finished result →
      (st.stage journal (k + 2)).outcome = some result)
    (undone : ∀ v p depth, st.event journal (k + 1) = some (.backtracked v p depth) →
      next.outcome = .event (.backtracked v p depth)) : st.Own journal (k + 1) := by
  obtain ⟨hcheckpoints, hchoices, -⟩ := h
  rw [before] at hcheckpoints hchoices
  -- as the search has run so far, every decision on the stack was told
  have hdecided : ∀ c ∈ s.choices, ∃ j ≤ k, 0 < j ∧
      (st.stage journal (j + 1)).solver.choices = c :: (st.stage journal j).solver.choices ∧
      st.event journal j = some (.observed c.v c.state) := by
    intro c hc
    obtain ⟨j, hj, hpos, hpushed, hobserved | ⟨_, haborted⟩⟩ := hchoices c hc
    · exact ⟨j, hj, hpos, hpushed, hobserved⟩
    · cases haborted
  refine ⟨fun ws hws => ?_, fun c hc => ?_, fun v p depth hevent => ?_⟩
  · rw [solver] at hws
    rcases hstacks.checkpoints ws hws with hold | rfl
    · obtain ⟨i, hi, hws⟩ := hcheckpoints ws hold
      exact ⟨i, Nat.le_succ_of_le hi, hws⟩
    · refine ⟨k + 1, Nat.le_refl _, ?_⟩
      rw [before]
      rfl
  · rw [solver] at hc
    rcases hstacks.choices c hc with hold | ⟨hpushed, hmade⟩
    · obtain ⟨j, hj, hpos, hpushed, hobserved⟩ := hdecided c hold
      exact ⟨j, Nat.le_succ_of_le hj, hpos, hpushed, .inl hobserved⟩
    · refine ⟨k + 1, Nat.le_refl _, Nat.succ_pos k, ?_, ?_⟩
      · rw [solver, before]
        exact hpushed
      · rcases hmade with hobserved | ⟨reason, haborted⟩
        · exact .inl (told _ hobserved)
        · exact .inr ⟨reason, last _ haborted⟩
  · obtain ⟨hmem, ws, hws, hrestored⟩ := hstacks.undone v p depth (undone v p depth hevent)
    obtain ⟨j, hj, -, -, hobserved⟩ := hdecided _ hmem
    obtain ⟨i, hi, rfl⟩ := hcheckpoints ws hws
    refine ⟨⟨j, Nat.lt_succ_of_le hj, hobserved⟩, i, Nat.lt_succ_of_le hi, ?_⟩
    unfold waves
    rw [solver]
    exact hrestored

/-- Nothing that stands on the stacks of a search is older than the search. -/
theorem own (a : Solver V ρ) (limit : Nat) (journal : Journal) (k : Nat) :
    (ofSolver a limit).Own journal k := by
  induction k with
  | zero =>
    obtain ⟨next, e, begins, told, hevent, hstage⟩ := first_call a limit journal
    have hcleared : next.solver.checkpoints = [] ∧ next.solver.choices = [] := by
      cases begins <;> exact ⟨rfl, rfl⟩
    refine ⟨?_, ?_, fun v p depth hundone => ?_⟩
    · rw [hstage, hcleared.1]
      exact nofun
    · rw [hstage, hcleared.2]
      exact nofun
    · cases hevent.symm.trans hundone
      cases begins <;> cases told
  | succ k ih =>
    have hbegun := begun a limit journal k
    have hcall := steps (ofSolver a limit) journal (k + 1)
    generalize hafter : (ofSolver a limit).stage journal (k + 1 + 1) = after at hcall
    generalize hevent : (ofSolver a limit).event journal (k + 1) = said at hcall
    generalize hbefore : (ofSolver a limit).stage journal (k + 1) = before at hcall hbegun
    cases hcall with
    | told told =>
      refine ih.step hbefore (Solver.step_stacks (hbegun rfl)) (congrArg solver hafter) ?_ ?_ ?_
      · intro e he
        cases told.symm.trans he
        exact hevent
      · intro result hfinished
        cases told.symm.trans hfinished
      · intro v p depth hundone
        cases hevent.symm.trans hundone
        exact told
    | @last _ _ result last =>
      refine ih.step hbefore (Solver.step_stacks (hbegun rfl)) (congrArg solver hafter) ?_ ?_ ?_
      · intro e he
        cases last.symm.trans he
      · intro result hfinished
        cases last.symm.trans hfinished
        exact congrArg outcome hafter
      · intro v p depth hundone
        exact absurd (Option.some.inj (hevent.symm.trans hundone))
          (not_backtracked_lastEvent result v p depth)
    | past ended =>
      have hstill := hafter.trans hbefore.symm
      refine ⟨?_, ?_, fun v p depth hundone => ?_⟩
      · rw [hstill]
        exact fun ws hws => (ih.checkpoints ws hws).imp fun i h => ⟨Nat.le_succ_of_le h.1, h.2⟩
      · rw [hstill]
        exact fun c hc => (ih.choices c hc).imp fun j h => ⟨Nat.le_succ_of_le h.1, h.2⟩
      · cases hevent.symm.trans hundone

/-- From the first call on, alike solvers stand alike. -/
theorem skip_succ_of_alike (h : a.Alike b) (limit : Nat) (journal : Journal) (k : Nat) :
    (ofSolver a limit).skip journal (k + 1) = (ofSolver b limit).skip journal (k + 1) := by
  unfold skip
  rw [h.next_eq]

theorem event_of_alike (h : a.Alike b) (limit : Nat) (journal : Journal) (k : Nat) :
    (ofSolver a limit).event journal k = (ofSolver b limit).event journal k := by
  cases k with
  | zero => exact congrArg Prod.fst (h.next_eq limit journal)
  | succ k =>
    unfold event
    rw [skip_succ_of_alike h]

end Calls
end Stepper

open Stepper in
/-- **Nothing is left over between searches.**  Solvers that agree in their system, configuration
and source, and in what their observer was told, search alike, whatever stands on their stacks and
their frontier: driven to the end, taken one event at a time, or finished after some events.  And
no search holds or undoes what was not its own. -/
theorem Solver.Alike.nothing_left_over {V ρ : Type} [PickSource ρ] {a b : Solver V ρ} (h : a.Alike b)
    (limit : Nat) (journal : Journal) :
    a.collapse limit journal = b.collapse limit journal ∧
      (∀ k, (ofSolver a limit).event journal k = (ofSolver b limit).event journal k ∧
        (ofSolver a limit).skip journal (k + 1) = (ofSolver b limit).skip journal (k + 1)) ∧
      (ofSolver a limit).finish journal = (ofSolver b limit).finish journal ∧
      ∀ k, (ofSolver a limit).Own journal k := by
  refine ⟨h.collapse_eq limit journal, fun k => ⟨event_of_alike h limit journal k,
    skip_succ_of_alike h limit journal k⟩, ?_, own a limit journal⟩
  rw [← finish_skip (ofSolver a limit) journal 1, ← finish_skip (ofSolver b limit) journal 1,
    skip_succ_of_alike h]

/-- A search on the odd ring that its observer stopped right after a decision leaves both stacks
filled.  The search after it undoes its own decision, and ends as it would have without them. -/
theorem Solver.nothing_left_over_ring :
    let observer : Observer := { verdict := fun _ => .error (.unknownVariable 2) }
    let fresh := Solver.ring 3 2 {} [7]
    let watched : Solver Int WordStream := { fresh with config := { observer := some observer } }
    let stopped := ((Stepper.ofSolver watched 5).stage .silent 20).solver
    let again : Solver Int WordStream := { stopped with
      system := fresh.system, config := {}, source := fresh.source, reports := [] }
    (again.choices = [⟨0, 0⟩] ∧ again.checkpoints.length = 1) ∧
      fresh.collapse 5 .silent = again.collapse 5 .silent ∧
      (Stepper.ofSolver again 5).event .silent 13 = some (.backtracked 0 0 0) ∧
      (∃ j < 13, (Stepper.ofSolver fresh 5).event .silent j = some (.observed 0 0)) ∧
      (Stepper.ofSolver fresh 5).finish .silent = (Stepper.ofSolver again 5).finish .silent := by
  intro observer fresh watched stopped again
  have halike : fresh.Alike again := ⟨rfl, rfl, rfl, rfl⟩
  obtain ⟨hcollapse, hevents, hfinish, hown⟩ := halike.nothing_left_over 5 .silent
  have hundone : (Stepper.ofSolver fresh 5).event .silent 13 = some (.backtracked 0 0 0) := by
    decide +kernel
  exact ⟨⟨by decide +kernel, by decide +kernel⟩, hcollapse, (hevents 13).1 ▸ hundone,
    ((hown 13).undone _ _ _ hundone).1, hfinish⟩

end WaveCollapse
