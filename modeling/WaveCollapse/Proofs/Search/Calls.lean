import WaveCollapse.Proofs.Search.Upkeep

/-! # The calls of a stepwise search

`Stepper.event` is the event that call number `k` gives, `Stepper.stage` the stepper before it, and
`Stepper.heard` the list of the events of the first `k` calls.  A call takes a step that is told as
an event, or the last step, or none because the search has ended (`Stepper.steps`).  The first one
takes the first step of a run (`Stepper.first_call`), and over an intact system the steps of the
later ones are those that `Solver.Move` lists (`Stepper.takes`).  So what holds at all stages of a
search is shown by induction on the calls (`Stepper.stage_induct`).
-/

namespace WaveCollapse

/-- The event tells of a recovery from a contradiction. -/
def Event.isRecovery : Event → Bool
  | backtracked .. | restarted => true
  | _ => false

namespace Stepper
open Solver (Begins Move Upkeep)

variable {V ρ : Type} [PickSource ρ] {a : Solver V ρ} {limit : Nat}

/-- The stepper after `k` calls. -/
def stage (st : Stepper V ρ) (journal : Journal) (k : Nat) : Stepper V ρ := (st.skip journal k).1

/-- The event of call number `k`; none when the search has ended before. -/
def event (st : Stepper V ρ) (journal : Journal) (k : Nat) : Option Event :=
  ((st.skip journal k).1.next (st.skip journal k).2).1

/-- The events of the first `k` calls. -/
def heard (st : Stepper V ρ) (journal : Journal) (k : Nat) : List Event :=
  (List.range k).filterMap (st.event journal)

theorem skip_succ (st : Stepper V ρ) (journal : Journal) (k : Nat) :
    st.skip journal (k + 1) = ((st.skip journal k).1.next (st.skip journal k).2).2 := by
  induction k generalizing st journal with
  | zero => rfl
  | succ k ih => exact ih _ _

theorem stage_succ (st : Stepper V ρ) (journal : Journal) (k : Nat) :
    st.stage journal (k + 1) = ((st.skip journal k).1.next (st.skip journal k).2).2.1 := by
  unfold stage
  rw [skip_succ]

@[simp] theorem heard_zero (st : Stepper V ρ) (journal : Journal) : st.heard journal 0 = [] := rfl

theorem heard_succ (st : Stepper V ρ) (journal : Journal) (k : Nat) :
    st.heard journal (k + 1) = st.heard journal k ++ (st.event journal k).toList := by
  unfold heard
  rw [List.range_succ, List.filterMap_append]
  cases h : st.event journal k <;> simp [h]

/-- A search that has ended has no more events. -/
theorem event_of_outcome {st : Stepper V ρ} {journal : Journal} {k : Nat}
    {result : Except CollapseError Stats} (ended : (st.stage journal k).outcome = some result) :
    st.event journal k = none := congrArg Prod.fst (next_of_outcome ended _)

/-- Every search ends: up to some call it is running, and from the next one on it stands still. -/
theorem exists_last (st : Stepper V ρ) (journal : Journal) (running : st.outcome = none) :
    ∃ n result, (∀ k ≤ n, (st.stage journal k).outcome = none) ∧
      (st.stage journal (n + 1)).outcome = some result ∧
      ∀ k > n, st.stage journal k = st.stage journal (n + 1) := by
  cases told : (st.solver.step st.run).outcome with
  | event e =>
    let after : Stepper V ρ := ⟨(st.solver.step st.run).solver, (st.solver.step st.run).run, none⟩
    have hnext := next_event running told journal
    have hafter : ∀ k, st.stage journal (k + 1) =
        after.stage (journal.tellAll (st.solver.step st.run).notes) k := by
      intro k
      unfold stage
      rw [skip, hnext]
    obtain ⟨n, result, hrunning, hended, hstill⟩ :=
      exists_last after (journal.tellAll (st.solver.step st.run).notes) rfl
    refine ⟨n + 1, result, fun k hk => ?_, (hafter (n + 1)).symm ▸ hended, fun k hk => ?_⟩
    · cases k with
      | zero => exact running
      | succ k =>
        rw [hafter]
        exact hrunning k (Nat.le_of_succ_le_succ hk)
    · obtain ⟨k, rfl⟩ := Nat.exists_eq_succ_of_ne_zero (Nat.ne_zero_of_lt hk)
      rw [hafter, hafter]
      exact hstill k (Nat.lt_of_succ_lt_succ hk)
  | finished result =>
    have hnext := next_finished running told journal
    have hstill : ∀ k, st.stage journal (k + 1) = (st.next journal).2.1 := by
      intro k
      unfold stage
      rw [skip, hnext, skip_of_outcome rfl]
    refine ⟨0, result, fun k hk => ?_, ?_, fun k hk => ?_⟩
    · rw [Nat.le_zero.mp hk]
      exact running
    · rw [hstill, hnext]
    · obtain ⟨k, rfl⟩ := Nat.exists_eq_succ_of_ne_zero (Nat.ne_zero_of_lt hk)
      rw [hstill, hstill]
termination_by st.solver.potential st.run
decreasing_by exact Solver.step_below told

/-- The first call of a search takes the first step of its run. -/
theorem first_call (a : Solver V ρ) (limit : Nat) (journal : Journal) :
    ∃ next e, Begins a { limit } next ∧ next.outcome = .event e ∧
      (ofSolver a limit).event journal 0 = some e ∧
      (ofSolver a limit).stage journal 1 = { solver := next.solver, run := next.run } := by
  obtain ⟨e, told⟩ := Solver.start_told a { limit }
  have running : (ofSolver a limit).outcome = none := rfl
  have hnext := next_event running told journal
  exact ⟨_, e, Solver.start_begins a { limit }, told, congrArg Prod.fst hnext,
    congrArg (·.2.1) hnext⟩

/-- What a call does to the stepper: it takes a step of a search that runs, or finds it ended. -/
inductive Steps : Stepper V ρ → Option Event → Stepper V ρ → Prop where
  | told {s : Solver V ρ} {run : Run} {e : Event} (told : (s.step run).outcome = .event e) :
      Steps { solver := s, run } (some e) { solver := (s.step run).solver, run := (s.step run).run }
  | last {s : Solver V ρ} {run : Run} {result : Except CollapseError Stats}
      (last : (s.step run).outcome = .finished result) :
      Steps { solver := s, run } (some (lastEvent result))
        { solver := (s.step run).solver, run := (s.step run).run, outcome := some result }
  | past {st : Stepper V ρ} {result : Except CollapseError Stats}
      (ended : st.outcome = some result) : Steps st none st

theorem next_steps (st : Stepper V ρ) (journal : Journal) :
    Steps st (st.next journal).1 (st.next journal).2.1 := by
  obtain ⟨s, run, outcome⟩ := st
  cases outcome with
  | some result =>
    rw [next_of_outcome rfl]
    exact .past rfl
  | none =>
    cases told : (s.step run).outcome with
    | event e =>
      rw [next_event rfl told]
      exact .told told
    | finished result =>
      rw [next_finished rfl told]
      exact .last told

theorem steps (st : Stepper V ρ) (journal : Journal) (k : Nat) :
    Steps (st.stage journal k) (st.event journal k) (st.stage journal (k + 1)) := by
  rw [stage_succ]
  exact next_steps _ _

/-- What a later call of a search can do to the stepper. -/
inductive Takes (a : Solver V ρ) (limit : Nat) :
    Stepper V ρ → Option Event → Stepper V ρ → Prop where
  | told {s : Solver V ρ} {run : Run} {next : Stepped V ρ} {e : Event}
      (upkeep : Upkeep a limit s run) (move : Move s run next) (told : next.outcome = .event e) :
      Takes a limit { solver := s, run } (some e) { solver := next.solver, run := next.run }
  | last {s : Solver V ρ} {run : Run} {next : Stepped V ρ} {result : Except CollapseError Stats}
      (upkeep : Upkeep a limit s run) (move : Move s run next)
      (last : next.outcome = .finished result) :
      Takes a limit { solver := s, run } (some (lastEvent result))
        { solver := next.solver, run := next.run, outcome := some result }
  | past {st : Stepper V ρ} {result : Except CollapseError Stats}
      (ended : st.outcome = some result) : Takes a limit st none st

/-- What a call does where the search is kept up, or has ended. -/
theorem Steps.takes {st after : Stepper V ρ} {told : Option Event} (hcall : Steps st told after)
    (h : st.outcome = none → Upkeep a limit st.solver st.run) : Takes a limit st told after := by
  cases hcall with
  | told told => exact .told (h rfl) (h rfl).step_move told
  | last last => exact .last (h rfl) (h rfl).step_move last
  | past ended => exact .past ended

/-- As long as it runs, a search that has begun is kept up. -/
theorem upkeep (hs : a.system.Intact) (limit : Nat) (journal : Journal) (k : Nat) :
    ((ofSolver a limit).stage journal (k + 1)).outcome = none →
      Upkeep a limit ((ofSolver a limit).stage journal (k + 1)).solver
        ((ofSolver a limit).stage journal (k + 1)).run := by
  induction k with
  | zero =>
    obtain ⟨next, e, begins, -, -, hstage⟩ := first_call a limit journal
    intro _
    rw [hstage]
    exact .begin hs begins
  | succ k ih =>
    have hcall := (steps (ofSolver a limit) journal (k + 1)).takes ih
    generalize (ofSolver a limit).stage journal (k + 1 + 1) = after at hcall ⊢
    generalize (ofSolver a limit).event journal (k + 1) = told at hcall
    generalize (ofSolver a limit).stage journal (k + 1) = before at hcall ih
    cases hcall with
    | told hup hmove told => exact fun _ => hup.move hmove told
    | last => exact nofun
    | past => exact ih

/-- **Every call after the first takes a step of a search that is kept up, or finds it ended.** -/
theorem takes (hs : a.system.Intact) (limit : Nat) (journal : Journal) (k : Nat) :
    Takes a limit ((ofSolver a limit).stage journal (k + 1))
      ((ofSolver a limit).event journal (k + 1)) ((ofSolver a limit).stage journal (k + 2)) :=
  (steps _ _ _).takes (upkeep hs limit journal k)

/-- The event of a recovery is that of a step after the first. -/
theorem recovery_call (hs : a.system.Intact) {journal : Journal} {k : Nat} {e : Event}
    (told : (ofSolver a limit).event journal k = some e) (recovery : e.isRecovery = true) :
    ∃ j s run next, k = j + 1 ∧
      (ofSolver a limit).stage journal (j + 1) = { solver := s, run } ∧
      Upkeep a limit s run ∧ Move s run next ∧ next.outcome = .event e := by
  cases k with
  | zero =>
    obtain ⟨next, first, begins, htold, hevent, -⟩ := first_call a limit journal
    cases hevent.symm.trans told
    cases begins <;> cases htold <;> cases recovery
  | succ j =>
    have hcall := takes hs limit journal j
    rw [told] at hcall
    generalize (ofSolver a limit).stage journal (j + 2) = after at hcall
    generalize hbefore : (ofSolver a limit).stage journal (j + 1) = before at hcall
    generalize hsaid : some e = said at hcall
    cases hcall with
    | told hup hmove told =>
      cases hsaid
      exact ⟨j, _, _, _, rfl, hbefore, hup, hmove, told⟩
    | @last _ _ _ result =>
      cases hsaid
      cases result <;> cases recovery
    | past => cases hsaid

/-- What the first call establishes and every later one keeps holds at every stage of a search at
which it runs. -/
theorem stage_induct (hs : a.system.Intact) {journal : Journal}
    {P : Nat → Solver V ρ → Run → Prop}
    (first : ∀ next e, Begins a { limit } next → next.outcome = .event e →
      (ofSolver a limit).event journal 0 = some e → P 1 next.solver next.run)
    (later : ∀ k s run next e, (ofSolver a limit).stage journal k = { solver := s, run } →
      Upkeep a limit s run → P k s run → Move s run next → next.outcome = .event e →
      (ofSolver a limit).event journal k = some e →
      (ofSolver a limit).stage journal (k + 1) = { solver := next.solver, run := next.run } →
      P (k + 1) next.solver next.run) (k : Nat) :
    ((ofSolver a limit).stage journal (k + 1)).outcome = none →
      P (k + 1) ((ofSolver a limit).stage journal (k + 1)).solver
        ((ofSolver a limit).stage journal (k + 1)).run := by
  induction k with
  | zero =>
    obtain ⟨next, e, begins, told, hevent, hstage⟩ := first_call a limit journal
    intro _
    rw [hstage]
    exact first next e begins told hevent
  | succ k ih =>
    have hcall := takes hs limit journal k
    generalize hafter : (ofSolver a limit).stage journal (k + 2) = after at hcall
    generalize htold : (ofSolver a limit).event journal (k + 1) = told at hcall
    generalize hbefore : (ofSolver a limit).stage journal (k + 1) = before at hcall ih
    cases hcall with
    | told hup hmove told =>
      exact fun _ => later _ _ _ _ _ hbefore hup (ih rfl) hmove told htold hafter
    | last => exact nofun
    | past ended => exact fun running => nomatch ended.symm.trans running

end Stepper
end WaveCollapse
