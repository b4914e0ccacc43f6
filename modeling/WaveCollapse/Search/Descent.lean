import WaveCollapse.Search.Solver

/-! # Every search ends

Every step that does not end the search lowers its *potential*, a tuple compared from the
left: whether the run has yet to start, the observations still allowed, the decisions that
can still be undone together with the observations since the last reset, whether the waves
are consistent, the components in sight, and the connections that wait. -/

namespace WaveCollapse.Solver
variable {V ρ : Type}

/-- What every step lowers. -/
def potential (s : Solver V ρ) (run : Run) : Nat × Nat × Nat × Nat × Nat × Nat :=
  (if run.initialized then 0 else 1,
    run.limit - run.observations,
    s.choices.length + run.observationsSinceReset,
    if run.inconsistent then 0 else 1,
    s.system.totalComponents,
    s.system.pending s.frontier)

/-- The order in which potentials fall. -/
abbrev Below (a b : Nat × Nat × Nat × Nat × Nat × Nat) : Prop := WellFoundedRelation.rel a b

theorem below_start {a b : Nat × Nat × Nat × Nat × Nat × Nat} (h : a.1 < b.1) : Below a b := by
  obtain ⟨_, _⟩ := a; obtain ⟨_, _⟩ := b
  exact Prod.Lex.left _ _ h

theorem below_limit {i x y : Nat} {a b : Nat × Nat × Nat × Nat} (h : x < y) :
    Below (i, x, a) (i, y, b) :=
  Prod.Lex.right _ (Prod.Lex.left _ _ h)

theorem below_choices {i l x y : Nat} {a b : Nat × Nat × Nat} (h : x < y) :
    Below (i, l, x, a) (i, l, y, b) :=
  Prod.Lex.right _ (Prod.Lex.right _ (Prod.Lex.left _ _ h))

theorem below_consistency {i l c x y : Nat} {a b : Nat × Nat} (h : x < y) :
    Below (i, l, c, x, a) (i, l, c, y, b) :=
  Prod.Lex.right _ (Prod.Lex.right _ (Prod.Lex.right _ (Prod.Lex.left _ _ h)))

theorem below_components {i l c k x y : Nat} {a b : Nat} (h : x < y) :
    Below (i, l, c, k, x, a) (i, l, c, k, y, b) :=
  Prod.Lex.right _ (Prod.Lex.right _ (Prod.Lex.right _ (Prod.Lex.right _ (Prod.Lex.left _ _ h))))

theorem below_pending {i l c k t x y : Nat} (h : x < y) :
    Below (i, l, c, k, t, x) (i, l, c, k, t, y) :=
  Prod.Lex.right _ (Prod.Lex.right _ (Prod.Lex.right _ (Prod.Lex.right _ (Prod.Lex.right _ h))))

theorem schedule_run (s : Solver V ρ) (run : Run) :
    (s.schedule run).run.initialized = run.initialized ∧
      (s.schedule run).run.limit = run.limit ∧
      (s.schedule run).run.observations = run.observations ∧
      (s.schedule run).run.observationsSinceReset = run.observationsSinceReset ∧
      (s.schedule run).solver.choices = s.choices := by
  unfold schedule
  split <;> simp

/-- Undoing decisions leaves fewer of them. -/
theorem unwind_event {s : Solver V ρ} {run : Run} {notes : List SearchNote}
    {checkpoints : List (Array Wave)} {choices : List Choice} {e : Event}
    (h : (s.unwind run notes checkpoints choices).outcome = .event e) :
    (s.unwind run notes checkpoints choices).run.initialized = run.initialized ∧
      (s.unwind run notes checkpoints choices).run.limit = run.limit ∧
      (s.unwind run notes checkpoints choices).run.observations = run.observations ∧
      (s.unwind run notes checkpoints choices).run.observationsSinceReset =
        run.observationsSinceReset ∧
      (s.unwind run notes checkpoints choices).solver.choices.length < choices.length := by
  induction checkpoints generalizing s run notes choices with
  | nil => simp [unwind] at h
  | cons waves checkpoints ih =>
    cases choices with
    | nil => simp [unwind] at h
    | cons c choices =>
      unfold unwind at h ⊢
      split at h
      · cases h
      · simp only at h ⊢
        split at h
        · rename_i emptied
          simp only [emptied, if_true]
          obtain ⟨h1, h2, h3, h4, h5⟩ := ih h
          exact ⟨h1, h2, h3, h4, Nat.lt_succ_of_lt h5⟩
        · rename_i left
          simp [left]

theorem recover_below {s : Solver V ρ} {run : Run} {e : Event}
    (h : (s.recover run).outcome = .event e) :
    Below ((s.recover run).solver.potential (s.recover run).run) (s.potential run) := by
  unfold recover at h ⊢
  simp only at h ⊢
  split at h
  · rename_i backtracking
    simp only [backtracking, if_true]
    obtain ⟨h1, h2, h3, h4, h5⟩ := unwind_event h
    unfold potential
    rw [h1, h2, h3, h4]
    exact below_choices (by simpa using h5)
  · rename_i backtracking
    simp only [backtracking]
    unfold restart at h ⊢
    simp only at h ⊢
    split at h
    · cases h
    · rename_i some_observation
      rw [if_neg some_observation]
      simp only [Bool.false_eq_true, if_false]
      split at h
      · cases h
      · rename_i system _
        have kept := schedule_run { s with system, choices := [], checkpoints := [] }
          { run with
            inconsistent := false, restarts := run.restarts + 1, observationsSinceReset := 0 }
        simp only at kept
        obtain ⟨h1, h2, h3, h4, h5⟩ := kept
        unfold potential
        split
        all_goals
          simp only [h1, h2, h3, h4, h5]
          exact below_choices (by simp; omega)

variable [PickSource ρ]

omit [PickSource ρ] in
theorem choices_remember (s : Solver V ρ) : s.remember.choices = s.choices := by
  unfold remember
  split <;> rfl

omit [PickSource ρ] in
theorem announce_run (s : Solver V ρ) (run : Run) (v p : Nat) :
    (s.announce run v p).run = run := by
  unfold announce
  simp only
  split <;> rfl

/-- Collapsing a variable lowers the potential of every solver with as many decisions. -/
theorem collapseVariable_below {s before : Solver V ρ} {run : Run} {v : Nat} {e : Event}
    (decisions : before.choices = s.choices) (consistent : run.inconsistent = false)
    (room : run.observations < run.limit)
    (h : (s.collapseVariable run v).outcome = .event e) :
    Below ((s.collapseVariable run v).solver.potential (s.collapseVariable run v).run)
      (before.potential run) := by
  unfold collapseVariable at h ⊢
  simp only at h ⊢
  split at h
  · cases h
  · rename_i readable
    rw [if_neg readable]
    split at h
    · unfold potential
      simp only [consistent, decisions, choices_remember]
      exact below_consistency (by simp)
    · unfold potential
      rw [announce_run]
      exact below_limit (by simp only [Run.counted]; omega)

/-- An observation lowers the potential of every solver with as many decisions. -/
theorem observe_below {s before : Solver V ρ} {run : Run} {e : Event}
    (decisions : before.choices = s.choices) (consistent : run.inconsistent = false)
    (h : (s.observe run).outcome = .event e) :
    Below ((s.observe run).solver.potential (s.observe run).run) (before.potential run) := by
  unfold observe at h ⊢
  simp only at h ⊢
  split at h
  · cases h
  · split at h
    · cases h
    · rename_i room
      rw [if_neg room]
      exact collapseVariable_below decisions consistent (Nat.lt_of_not_le room) h

theorem advance_below {s : Solver V ρ} {run : Run} {e : Event}
    (consistent : run.inconsistent = false) (h : (s.advance run).outcome = .event e) :
    Below ((s.advance run).solver.potential (s.advance run).run) (s.potential run) := by
  unfold advance at h ⊢
  simp only at h ⊢
  split at h
  · exact observe_below rfl consistent h
  · rename_i relaxed
    obtain ⟨same, less⟩ := s.system.propagateStep_unchanged relaxed
    unfold potential
    simp only [same]
    exact below_pending less
  · rename_i relaxed
    exact below_components (s.system.propagateStep_narrowed relaxed)
  · rename_i relaxed
    unfold potential
    simp only [consistent]
    exact below_consistency (by simp)
  · cases h

/-- Every step that is told as an event lowers the potential. -/
theorem step_below {s : Solver V ρ} {run : Run} {e : Event}
    (h : (s.step run).outcome = .event e) :
    Below ((s.step run).solver.potential (s.step run).run) (s.potential run) := by
  unfold step at h ⊢
  split at h
  · rename_i fresh
    simp only [fresh, if_true]
    unfold start
    have kept := schedule_run { s with checkpoints := [], choices := [] }
      { run with initialized := true }
    apply below_start
    unfold potential
    simp only [kept.1]
    simp_all
  · rename_i begun
    rw [if_neg begun]
    split at h
    · rename_i inconsistent
      rw [if_pos inconsistent]
      exact recover_below h
    · rename_i consistent
      rw [if_neg consistent]
      exact advance_below (by simpa using consistent) h

end WaveCollapse.Solver
