import WaveCollapse.Proofs.Search.Drivers

/-! # The way of a search

`Solver.LeadsTo` holds between the solver and run a search begins with and those it passes
through after each of its events.  The eager driver takes its last step from one of these
(`drive_ends`, `collapse_last`), so what holds at the beginning and is kept by every event holds
before that step.  `Solver.passed` lists the events with the solvers after them, and `Solver.resultWithin`
is the driver with a bound on its events, which can be computed by unfolding.
-/

namespace WaveCollapse

/-- The event tells of an observation. -/
def Event.isObservation : Event → Bool
  | observed .. => true
  | _ => false

namespace Solver
variable {V ρ : Type} [PickSource ρ]

/-- The search passes through the solver `t` with the run `r`. -/
inductive LeadsTo (s : Solver V ρ) (run : Run) : Solver V ρ → Run → Prop where
  | start : LeadsTo s run s run
  | step {t : Solver V ρ} {r : Run} {e : Event} (before : LeadsTo s run t r)
      (told : (t.step r).outcome = .event e) : LeadsTo s run (t.step r).solver (t.step r).run

theorem LeadsTo.trans {s t u : Solver V ρ} {run r q : Run} (h : s.LeadsTo run t r)
    (h' : t.LeadsTo r u q) : s.LeadsTo run u q := by
  induction h' with
  | start => exact h
  | step _ told ih => exact .step ih told

/-- What a search passes through is its start, or comes after its first step. -/
theorem LeadsTo.start_or_later {s t : Solver V ρ} {run r : Run} (h : s.LeadsTo run t r) :
    t = s ∧ r = run ∨ ∃ e, (s.step run).outcome = .event e ∧
      (s.step run).solver.LeadsTo (s.step run).run t r := by
  induction h with
  | start => exact .inl ⟨rfl, rfl⟩
  | step _ told ih =>
    right
    rcases ih with ⟨rfl, rfl⟩ | ⟨e, first, hlater⟩
    · exact ⟨_, told, .start⟩
    · exact ⟨e, first, .step hlater told⟩

/-- A search passes through some solver whose next step is the last. -/
theorem drive_ends (s : Solver V ρ) (run : Run) (journal : Journal) :
    ∃ t r, s.LeadsTo run t r ∧
      (t.step r).outcome = .finished (s.drive run journal).result ∧
      (s.drive run journal).solver = (t.step r).solver ∧
      (s.drive run journal).run = (t.step r).run := by
  cases h : (s.step run).outcome with
  | event e =>
    rw [drive_event h]
    obtain ⟨t, r, hto, hlast⟩ := drive_ends (s.step run).solver (s.step run).run
      ((journal.tellAll (s.step run).notes).tell (SearchNote.event e))
    exact ⟨t, r, LeadsTo.trans (.step .start h) hto, hlast⟩
  | finished result =>
    rw [drive_finished h]
    exact ⟨s, run, .start, h, rfl, rfl⟩
termination_by s.potential run
decreasing_by exact step_below ‹_›

/-- A search that is driven to its end takes its last step from where it passes through. -/
theorem collapse_last (s : Solver V ρ) (limit : Nat) (journal : Journal) :
    ∃ t r, s.LeadsTo { limit } t r ∧
      (t.step r).outcome = .finished (s.collapse limit journal).result ∧
      (s.collapse limit journal).solver = (t.step r).solver ∧
      (s.collapse limit journal).run = (t.step r).run :=
  s.drive_ends { limit } _

/-- The events of a search, each with the solver after it. -/
def passed (s : Solver V ρ) (run : Run) : List (Event × Solver V ρ) :=
  match _h : (s.step run).outcome with
  | .event e => (e, (s.step run).solver) :: passed (s.step run).solver (s.step run).run
  | .finished _ => []
termination_by s.potential run
decreasing_by exact step_below _h

theorem passed_of_event {s : Solver V ρ} {run : Run} {e : Event}
    (told : (s.step run).outcome = .event e) :
    s.passed run = (e, (s.step run).solver) :: (s.step run).solver.passed (s.step run).run := by
  rw [passed]
  split
  · next told' =>
    cases told.symm.trans told'
    rfl
  · next last => cases told.symm.trans last

theorem passed_of_finished {s : Solver V ρ} {run : Run} {result : Except CollapseError Stats}
    (last : (s.step run).outcome = .finished result) : s.passed run = [] := by
  rw [passed]
  split
  · next told => cases last.symm.trans told
  · rfl

/-- What a search still passes through is the end of what it passes through in all. -/
theorem LeadsTo.passed_suffix {s t : Solver V ρ} {run r : Run} (h : s.LeadsTo run t r) :
    t.passed r <:+ s.passed run := by
  induction h with
  | start => exact List.suffix_refl _
  | @step t r e _ told ih =>
    rw [passed_of_event told] at ih
    exact (List.suffix_cons _ _).trans ih

/-- **The list has the events of all steps on the way, and no other.** -/
theorem mem_passed_iff {s : Solver V ρ} {run : Run} {e : Event} {u : Solver V ρ} :
    (e, u) ∈ s.passed run ↔
      ∃ t r, s.LeadsTo run t r ∧ (t.step r).outcome = .event e ∧ (t.step r).solver = u := by
  constructor
  · intro h
    cases told : (s.step run).outcome with
    | finished result =>
      rw [passed_of_finished told] at h
      cases h
    | event e' =>
      rw [passed_of_event told] at h
      rcases List.mem_cons.mp h with heq | hlater
      · cases heq
        exact ⟨s, run, .start, told, rfl⟩
      · obtain ⟨t, r, hto, hlast⟩ := mem_passed_iff.mp hlater
        exact ⟨t, r, LeadsTo.trans (.step .start told) hto, hlast⟩
  · rintro ⟨t, r, hto, told, rfl⟩
    refine hto.passed_suffix.subset ?_
    rw [passed_of_event told]
    exact List.mem_cons_self
termination_by s.potential run
decreasing_by exact step_below told

/-- The stacks of decisions that the observations of a search leave, in order. -/
def observedStacks (s : Solver V ρ) (run : Run) : List (List Choice) :=
  ((s.passed run).filter (·.1.isObservation)).map (·.2.choices)

theorem observedStacks_of_event {s : Solver V ρ} {run : Run} {e : Event}
    (told : (s.step run).outcome = .event e) :
    s.observedStacks run = (if e.isObservation then [(s.step run).solver.choices] else []) ++
      (s.step run).solver.observedStacks (s.step run).run := by
  unfold observedStacks
  rw [passed_of_event told]
  cases hobs : e.isObservation with
  | true => simp [hobs]
  | false => simp [hobs]

theorem observedStacks_of_finished {s : Solver V ρ} {run : Run}
    {result : Except CollapseError Stats} (last : (s.step run).outcome = .finished result) :
    s.observedStacks run = [] := by
  unfold observedStacks
  rw [passed_of_finished last]
  rfl

/-! ## Bounded searches -/

/-- The result of a search that ends after at most `n` events. -/
def resultWithin (s : Solver V ρ) (run : Run) : Nat → Option (Except CollapseError Stats)
  | 0 =>
    match (s.step run).outcome with
    | .event _ => none
    | .finished result => some result
  | n + 1 =>
    match (s.step run).outcome with
    | .event _ => (s.step run).solver.resultWithin (s.step run).run n
    | .finished result => some result

/-- The solver and the run after `n` events, if the search has as many. -/
def after (s : Solver V ρ) (run : Run) : Nat → Option (Solver V ρ × Run)
  | 0 => some (s, run)
  | n + 1 =>
    match (s.step run).outcome with
    | .event _ => (s.step run).solver.after (s.step run).run n
    | .finished _ => none

/-- What a search comes to after some events it passes through. -/
theorem leadsTo_of_after {s t : Solver V ρ} {run r : Run} {n : Nat}
    (h : s.after run n = some (t, r)) : s.LeadsTo run t r := by
  induction n generalizing s run with
  | zero =>
    cases h
    exact .start
  | succ n ih =>
    unfold after at h
    split at h
    · next told => exact LeadsTo.trans (.step .start told) (ih h)
    · cases h

/-- A search passes through what can be computed of it after some events. -/
theorem exists_leadsTo_of_after {s : Solver V ρ} {run : Run} {n : Nat}
    {P : Solver V ρ × Run → Prop} [DecidablePred P]
    (h : (s.after run n).any (fun q => decide (P q)) = true) :
    ∃ q : Solver V ρ × Run, s.LeadsTo run q.1 q.2 ∧ P q := by
  obtain ⟨q, hafter, hP⟩ := (Option.any_eq_true _ _).mp h
  exact ⟨q, leadsTo_of_after hafter, of_decide_eq_true hP⟩

/-- A search that ends after at most `n` events has that result. -/
theorem drive_result_of_within {s : Solver V ρ} {run : Run} {n : Nat}
    {result : Except CollapseError Stats} (h : s.resultWithin run n = some result)
    (journal : Journal) : (s.drive run journal).result = result := by
  induction n generalizing s run journal with
  | zero =>
    unfold resultWithin at h
    split at h
    · cases h
    · next last =>
      cases h
      exact congrArg Ending.result (drive_finished last journal)
  | succ n ih =>
    unfold resultWithin at h
    split at h
    · next told =>
      rw [drive_event told]
      exact ih h _
    · next last =>
      cases h
      exact congrArg Ending.result (drive_finished last journal)

/-- A search that ends after exactly `n` events leaves what can be computed of its last step. -/
theorem drive_solver_of_after {s : Solver V ρ} {run : Run} {n : Nat}
    {result : Except CollapseError Stats} (h : s.resultWithin run n = some result)
    {P : Solver V ρ → Prop} [DecidablePred P]
    (hP : (s.after run n).any (fun q => decide (P (q.1.step q.2).solver)) = true)
    (journal : Journal) : P (s.drive run journal).solver := by
  induction n generalizing s run journal with
  | zero =>
    unfold resultWithin at h
    split at h
    · cases h
    · next last =>
      rw [drive_finished last]
      exact of_decide_eq_true hP
  | succ n ih =>
    unfold resultWithin at h
    unfold after at hP
    split at h
    · next told =>
      rw [told] at hP
      rw [drive_event told]
      exact ih h hP _
    · next last =>
      rw [last] at hP
      cases hP

end Solver
end WaveCollapse
