import WaveCollapse.Proofs.System.Laid
import WaveCollapse.Search.Drive

/-! # Two drivers, one search

The journal is written and never read, so a search ends the same way whatever stands in it
(`Solver.drive_journal`).  The stepwise driver takes the same steps as the eager one: watched
to the end it holds the eager result (`Stepper.watch_eq_drive`), and finished it ends as the
eager one does (`Stepper.finish_same`), however many events were taken one by one before
(`Stepper.finish_skip`).  Every step that ends a search says why, so the result is never the
one that stands for a missing outcome (`Solver.drive_ne_internal`).
-/

namespace WaveCollapse
variable {V ρ : Type}

/-- Two searches ended with the same result, and left the same solver and run. -/
def Ending.Same (a b : Ending V ρ) : Prop :=
  a.result = b.result ∧ a.solver = b.solver ∧ a.run = b.run

section Driving
variable [PickSource ρ]

namespace Solver

theorem drive_event {s : Solver V ρ} {run : Run} {e : Event}
    (told : (s.step run).outcome = .event e) (journal : Journal) :
    s.drive run journal = (s.step run).solver.drive (s.step run).run
      ((journal.tellAll (s.step run).notes).tell (SearchNote.event e)) := by
  rw [drive]
  split
  · next e' told' =>
    cases told.symm.trans told'
    rfl
  · next last => cases told.symm.trans last

theorem drive_finished {s : Solver V ρ} {run : Run} {result : Except CollapseError Stats}
    (last : (s.step run).outcome = .finished result) (journal : Journal) :
    s.drive run journal = ⟨result, (s.step run).solver, (s.step run).run,
      (journal.tellAll (s.step run).notes).tellAll (SearchNote.ofOutcome result)⟩ := by
  rw [drive]
  split
  · next told => cases told.symm.trans last
  · next last' =>
    cases last.symm.trans last'
    rfl

/-- What stands in the journal does not matter to a search. -/
theorem drive_journal (s : Solver V ρ) (run : Run) (journal journal' : Journal) :
    (s.drive run journal).Same (s.drive run journal') := by
  cases h : (s.step run).outcome with
  | event e =>
    rw [drive_event h, drive_event h]
    exact drive_journal _ _ _ _
  | finished result =>
    rw [drive_finished h, drive_finished h]
    exact ⟨rfl, rfl, rfl⟩
termination_by s.potential run
decreasing_by exact step_below h

end Solver

namespace Stepper

/-- After the end there are no more events. -/
theorem next_of_outcome {st : Stepper V ρ} {result : Except CollapseError Stats}
    (ended : st.outcome = some result) (journal : Journal) :
    st.next journal = (none, st, journal) := by
  unfold next
  rw [ended]

theorem next_event {st : Stepper V ρ} (running : st.outcome = none) {e : Event}
    (told : (st.solver.step st.run).outcome = .event e) (journal : Journal) :
    st.next journal = (some e,
      { solver := (st.solver.step st.run).solver, run := (st.solver.step st.run).run },
      journal.tellAll (st.solver.step st.run).notes) := by
  unfold next
  rw [running]
  dsimp only
  rw [told]

theorem next_finished {st : Stepper V ρ} (running : st.outcome = none)
    {result : Except CollapseError Stats}
    (last : (st.solver.step st.run).outcome = .finished result) (journal : Journal) :
    st.next journal = (some (lastEvent result),
      { solver := (st.solver.step st.run).solver, run := (st.solver.step st.run).run,
        outcome := some result },
      (journal.tellAll (st.solver.step st.run).notes).tellAll (SearchNote.ofOutcome result)) := by
  unfold next
  rw [running]
  dsimp only
  rw [last]

/-! ## Watching -/

section Watching
variable {σ : Type} {see : Event → System V → σ × Journal → σ × Journal}

theorem watch_none {st after : Stepper V ρ} {journal journal' : Journal}
    (h : st.next journal = (none, after, journal')) (kept : σ) :
    st.watch see kept journal = (kept, after, journal') := by
  rw [watch]
  split
  · next h' => cases h.symm.trans h'
  · next h' =>
    cases h.symm.trans h'
    rfl

theorem watch_some {st after : Stepper V ρ} {journal journal' : Journal} {e : Event}
    (h : st.next journal = (some e, after, journal')) (kept : σ) :
    st.watch see kept journal =
      let seen := see e after.solver.system (kept, journal')
      after.watch see seen.1 seen.2 := by
  rw [watch]
  split
  · next h' =>
    cases h.symm.trans h'
    rfl
  · next h' => cases h.symm.trans h'

/-- **A search watched to its end holds what the eager driver gives.** -/
theorem watch_eq_drive {st : Stepper V ρ} (running : st.outcome = none) (kept : σ)
    (journal journal' : Journal) :
    let ending := st.solver.drive st.run journal'
    (st.watch see kept journal).2.1 = ⟨ending.solver, ending.run, some ending.result⟩ := by
  cases h : (st.solver.step st.run).outcome with
  | event e =>
    rw [watch_some (next_event running h journal), Solver.drive_event h]
    -- the search goes on, so the stepper after the event is running as well
    let after : Stepper V ρ := ⟨(st.solver.step st.run).solver, (st.solver.step st.run).run, none⟩
    have running' : after.outcome = none := rfl
    exact watch_eq_drive running' _ _ _
  | finished result =>
    rw [watch_some (next_finished running h journal), Solver.drive_finished h,
      watch_none (next_of_outcome rfl _)]
termination_by st.solver.potential st.run
decreasing_by exact Solver.step_below h

end Watching

/-! ## Finishing -/

theorem finish_of_outcome {st : Stepper V ρ} {result : Except CollapseError Stats}
    (ended : st.outcome = some result) (journal : Journal) :
    st.finish journal = ⟨result, st.solver, st.run, journal⟩ := by
  rw [finish]
  split
  · next h => cases (next_of_outcome ended journal).symm.trans h
  · next h =>
    cases (next_of_outcome ended journal).symm.trans h
    rw [ended]
    rfl

theorem finish_some {st after : Stepper V ρ} {journal journal' : Journal} {e : Event}
    (h : st.next journal = (some e, after, journal')) :
    st.finish journal = after.finish journal' := by
  rw [finish]
  split
  · next h' =>
    cases h.symm.trans h'
    rfl
  · next h' => cases h.symm.trans h'

/-- **A search that is finished ends as the eager driver ends it.** -/
theorem finish_same {st : Stepper V ρ} (running : st.outcome = none) (journal journal' : Journal) :
    (st.finish journal).Same (st.solver.drive st.run journal') := by
  cases h : (st.solver.step st.run).outcome with
  | event e =>
    rw [finish_some (next_event running h journal), Solver.drive_event h]
    let after : Stepper V ρ := ⟨(st.solver.step st.run).solver, (st.solver.step st.run).run, none⟩
    have running' : after.outcome = none := rfl
    exact finish_same running' _ _
  | finished result =>
    rw [finish_some (next_finished running h journal), finish_of_outcome rfl,
      Solver.drive_finished h]
    exact ⟨rfl, rfl, rfl⟩
termination_by st.solver.potential st.run
decreasing_by exact Solver.step_below h

/-! ## Pausing -/

/-- The stepper and the journal after `k` calls for the next event. -/
def skip (st : Stepper V ρ) (journal : Journal) : Nat → Stepper V ρ × Journal
  | 0 => (st, journal)
  | k + 1 => skip (st.next journal).2.1 (st.next journal).2.2 k

/-- An event taken by itself is one that finishing would have taken. -/
theorem finish_next (st : Stepper V ρ) (journal : Journal) :
    (st.next journal).2.1.finish (st.next journal).2.2 = st.finish journal := by
  cases ended : st.outcome with
  | some result => rw [next_of_outcome ended]
  | none =>
    cases h : (st.solver.step st.run).outcome with
    | event e =>
      have hnext := next_event ended h journal
      rw [finish_some hnext, hnext]
    | finished result =>
      have hnext := next_finished ended h journal
      rw [finish_some hnext, hnext]

/-- **It does not matter how many events are taken before a search is finished.** -/
theorem finish_skip (st : Stepper V ρ) (journal : Journal) (k : Nat) :
    (st.skip journal k).1.finish (st.skip journal k).2 = st.finish journal := by
  induction k generalizing st journal with
  | zero => rfl
  | succ k ih => exact (ih _ _).trans (st.finish_next journal)

end Stepper
end Driving

/-! ## Every end has a cause

A step that ends a search gives a result of its own; the error for a search that ended without
an outcome is none of them.
-/

/-- The outcome is not the error that stands for a missing one. -/
def Outcome.Told (o : Outcome) : Prop := ∀ reason, o ≠ .finished (.error (.internal reason))

theorem Outcome.told_event (e : Event) : (Outcome.event e).Told := fun _ h => nomatch h

theorem Outcome.told_error {e : CollapseError} (h : ∀ reason, e ≠ .internal reason) :
    (Outcome.finished (.error e)).Told := by
  intro reason heq
  cases heq
  exact h reason rfl

namespace Solver
open Outcome

theorem schedule_told (s : Solver V ρ) (run : Run) : (s.schedule run).outcome.Told := by
  unfold schedule
  split
  · exact told_event _
  · exact told_event _

theorem announce_told (s : Solver V ρ) (run : Run) (v p : Nat) :
    (s.announce run v p).outcome.Told := by
  unfold announce report
  cases s.config.observer with
  | none => exact told_event _
  | some observer =>
    dsimp only
    cases observer.verdict (s.progress run :: s.reports) with
    | ok u => exact told_event _
    | error e => cases e <;> exact told_error fun reason h => nomatch h

/-- Undoing goes through the checkpoints, and fails at the first that does not fit or when
none is left. -/
theorem unwind_told (s : Solver V ρ) (run : Run) (notes : List SearchNote)
    (checkpoints : List (Array Wave)) (choices : List Choice) :
    (s.unwind run notes checkpoints choices).outcome.Told := by
  induction checkpoints generalizing s run notes choices with
  | nil =>
    unfold unwind
    refine told_error fun reason h => ?_
    cases h
  | cons waves checkpoints ih =>
    cases choices with
    | nil =>
      unfold unwind
      refine told_error fun reason h => ?_
      cases h
    | cons c choices =>
      unfold unwind System.restore
      by_cases hfits : waves.size = s.system.size
      · rw [if_pos hfits]
        dsimp only
        split
        · exact ih _ _ _ _
        · exact told_event _
      · rw [if_neg hfits]
        refine told_error fun reason h => ?_
        cases h

theorem restart_told (s : Solver V ρ) (run : Run) : (s.restart run).outcome.Told := by
  unfold restart System.reset
  split
  · exact told_error fun reason h => nomatch h
  · dsimp only
    cases hstart : s.system.problem.startingWaves with
    | error e =>
      rcases Problem.startingWaves_error _ hstart with ⟨v, c, rfl⟩ | ⟨v, cause, rfl⟩
      · exact told_error fun reason h => nomatch h
      · exact told_error fun reason h => nomatch h
    | ok waves =>
      dsimp only [Except.map]
      split
      · exact told_event _
      · exact schedule_told _ _

variable [PickSource ρ]

theorem observe_told (s : Solver V ρ) (run : Run) : (s.observe run).outcome.Told := by
  unfold observe
  dsimp only
  split
  · exact fun reason h => nomatch h
  · split
    · exact told_error fun reason h => nomatch h
    · unfold collapseVariable
      dsimp only
      split
      · exact told_error fun reason h => nomatch h
      · split
        · exact told_event _
        · exact announce_told _ _ _ _

theorem advance_told (s : Solver V ρ) (run : Run) : (s.advance run).outcome.Told := by
  unfold advance
  dsimp only
  split
  · exact observe_told _ _
  · exact told_event _
  · exact told_event _
  · exact told_event _
  · exact told_error fun reason h => nomatch h

theorem step_told (s : Solver V ρ) (run : Run) : (s.step run).outcome.Told := by
  unfold step
  split
  · exact schedule_told _ _
  · split
    · unfold recover
      dsimp only
      split
      · exact unwind_told _ _ _ _ _
      · exact restart_told _ _
    · exact advance_told s run

/-- **No search ends without an outcome.** -/
theorem drive_ne_internal (s : Solver V ρ) (run : Run) (journal : Journal) (reason : String) :
    (s.drive run journal).result ≠ .error (.internal reason) := by
  cases h : (s.step run).outcome with
  | event e =>
    rw [drive_event h]
    exact drive_ne_internal _ _ _ reason
  | finished result =>
    rw [drive_finished h]
    rintro rfl
    exact step_told s run reason h
termination_by s.potential run
decreasing_by exact step_below h

end Solver
end WaveCollapse
