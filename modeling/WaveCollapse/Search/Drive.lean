import WaveCollapse.Search.Descent

/-! # Driving a search

Two drivers repeat `Solver.step`. The eager one goes to the end at once; the stepwise one
gives one event at a time and keeps the result when the search has ended. Both end because
every event lowers the potential of the search. -/

namespace WaveCollapse

/-- How a search ended, with the solver and the run it left. -/
structure Ending (V ρ : Type) where
  result : Except CollapseError Stats
  solver : Solver V ρ
  run : Run
  journal : Journal

namespace Solver
variable {V ρ : Type} [PickSource ρ]

/-- Steps on until the search ends. -/
def drive (s : Solver V ρ) (run : Run) (journal : Journal) : Ending V ρ :=
  let next := s.step run
  let journal := journal.tellAll next.notes
  match _h : next.outcome with
  | .event e => drive next.solver next.run (journal.tell (SearchNote.event e))
  | .finished result =>
    ⟨result, next.solver, next.run, journal.tellAll (SearchNote.ofOutcome result)⟩
termination_by s.potential run
decreasing_by exact step_below _h

/-- Searches from the system's present waves, with at most `limit` observations. -/
def collapse (s : Solver V ρ) (limit : Nat) (journal : Journal) : Ending V ρ :=
  s.drive { limit }
    (journal.tell (SearchNote.starting s.system.size limit s.config.backtracking))

end Solver

/-- A search that is taken one event at a time. -/
structure Stepper (V ρ : Type) where
  solver : Solver V ρ
  run : Run
  /-- The result, once the search has ended. -/
  outcome : Option (Except CollapseError Stats) := none

namespace Stepper
variable {V ρ : Type}

/-- A search that is about to start. -/
def ofSolver (s : Solver V ρ) (limit : Nat) : Stepper V ρ := { solver := s, run := { limit } }

/-- What the start of a stepwise search gives to note. -/
def startNote (s : Solver V ρ) (limit : Nat) : SearchNote :=
  .startingStepwise s.system.size limit

/-- The event that tells of a result. -/
def lastEvent : Except CollapseError Stats → Event
  | .ok _ => .completed
  | .error _ => .failed

variable [PickSource ρ]

/-- The next event; none after the search has ended. -/
def next (st : Stepper V ρ) (journal : Journal) : Option Event × Stepper V ρ × Journal :=
  match st.outcome with
  | some _ => (none, st, journal)
  | none =>
    let stepped := st.solver.step st.run
    let journal := journal.tellAll stepped.notes
    match stepped.outcome with
    | .event e => (some e, { st with solver := stepped.solver, run := stepped.run }, journal)
    | .finished result =>
      (some (lastEvent result),
        { solver := stepped.solver, run := stepped.run, outcome := some result },
        journal.tellAll (SearchNote.ofOutcome result))

/-- What the next event of a stepwise search lowers. -/
def potential (st : Stepper V ρ) : Nat × Nat × Nat × Nat × Nat × Nat × Nat :=
  (if st.outcome.isSome then 0 else 1, st.solver.potential st.run)

omit [PickSource ρ] in
theorem potential_ended {st after : Stepper V ρ} (before : st.outcome = none)
    (ended : after.outcome.isSome) :
    WellFoundedRelation.rel after.potential st.potential := by
  unfold potential
  simp only [before, ended, if_true, Option.isSome_none, Bool.false_eq_true, if_false]
  exact Prod.Lex.left _ _ Nat.zero_lt_one

theorem next_below {st : Stepper V ρ} {journal : Journal} {e : Event}
    (h : (st.next journal).1 = some e) :
    WellFoundedRelation.rel (st.next journal).2.1.potential st.potential := by
  unfold next at h ⊢
  split at h
  · cases h
  · rename_i running
    simp only at h ⊢
    split
    · rename_i told
      unfold potential
      simp only [running]
      exact Prod.Lex.right _ (Solver.step_below told)
    · exact potential_ended running rfl

/-- Takes all remaining events. A spectator sees each of them with the system after it, and
may keep something and note something. -/
def watch {σ : Type} (see : Event → System V → σ × Journal → σ × Journal) (st : Stepper V ρ)
    (kept : σ) (journal : Journal) : σ × Stepper V ρ × Journal :=
  match _h : st.next journal with
  | (some e, after, journal) =>
    let (kept, journal) := see e after.solver.system (kept, journal)
    watch see after kept journal
  | (none, after, journal) => (kept, after, journal)
termination_by st.potential
decreasing_by
  have below := next_below (congrArg Prod.fst _h)
  rw [_h] at below
  exact below

/-- Takes all remaining events and gives the result. -/
def finish (st : Stepper V ρ) (journal : Journal) : Ending V ρ :=
  match _h : st.next journal with
  | (some _, after, journal) => finish after journal
  | (none, after, journal) =>
    let result := after.outcome.getD
      (.error (.internal "steppable collapse ended without an outcome"))
    ⟨result, after.solver, after.run, journal⟩
termination_by st.potential
decreasing_by
  have below := next_below (congrArg Prod.fst _h)
  rw [_h] at below
  exact below

end Stepper

end WaveCollapse
