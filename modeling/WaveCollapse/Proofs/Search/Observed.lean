import WaveCollapse.Proofs.Search.Calls
import WaveCollapse.Proofs.Search.Ready

/-! # What a search observes

A search asks for the next variable only where it is ready, and there the waves are those that it
found (`step_of_observing`): recovering and propagating tell of no observation and of no success.
So the variable of an observation is one of the candidates of the vector right before it
(`candidate_of_observed`), which are exactly the variables of lowest positive entropy
(`Solver.lowest_observed`), and a search that ends well has found none
(`unambiguous_of_succeeded`).  Nothing of this needs the waves to be well-formed.
-/

namespace WaveCollapse

/-- The variable has the least positive entropy of a vector. -/
def IsLowest (ws : Array Wave) (v : Nat) : Prop :=
  v < ws.size ∧ 0 < (waveAt ws v).entropy ∧
    ∀ u < ws.size, 0 < (waveAt ws u).entropy → (waveAt ws v).entropy ≤ (waveAt ws u).entropy

/-- The step observed a variable, or found that nothing is left to observe. -/
def Outcome.isObserving : Outcome → Bool
  | event e => e.isObservation
  | finished (.ok _) => true
  | finished (.error _) => false

namespace Solver
variable {V ρ : Type} {s : Solver V ρ} {run : Run}

/-! ## Steps that do not observe -/

theorem schedule_not_observing (s : Solver V ρ) (run : Run) :
    (s.schedule run).outcome.isObserving = false := by
  unfold schedule
  split <;> rfl

/-- By induction on the checkpoints that are still to be tried. -/
theorem unwind_not_observing (s : Solver V ρ) (run : Run) (notes : List SearchNote)
    (checkpoints : List (Array Wave)) (choices : List Choice) :
    (s.unwind run notes checkpoints choices).outcome.isObserving = false := by
  induction checkpoints generalizing s run notes choices with
  | nil =>
    unfold unwind
    rfl
  | cons ws checkpoints ih =>
    cases choices with
    | nil =>
      unfold unwind
      rfl
    | cons c choices =>
      unfold unwind
      split
      · rfl
      · dsimp only
        split
        · exact ih _ _ _ _
        · rfl

theorem restart_not_observing (s : Solver V ρ) (run : Run) :
    (s.restart run).outcome.isObserving = false := by
  unfold restart
  split
  · rfl
  · dsimp only
    split
    · rfl
    · split
      · rfl
      · exact schedule_not_observing _ _

theorem recover_not_observing (s : Solver V ρ) (run : Run) :
    (s.recover run).outcome.isObserving = false := by
  unfold recover
  dsimp only
  split
  · exact unwind_not_observing _ _ _ _ _
  · exact restart_not_observing _ _

variable [PickSource ρ]

/-- **Only a search that is ready observes or succeeds.** -/
theorem step_of_observing (h : (s.step run).outcome.isObserving = true) :
    s.Ready run ∧ s.step run = { s with frontier := [] }.observe run := by
  have ready : s.Ready run := by
    unfold step at h
    split at h
    · unfold start at h
      rw [schedule_not_observing] at h
      cases h
    · next begun =>
      split at h
      · rw [recover_not_observing] at h
        cases h
      · next on =>
        unfold advance at h
        dsimp only at h
        split at h
        · next idle => exact ⟨by simpa using begun, by simpa using on, idle⟩
        all_goals cases h
  exact ⟨ready, ready.step_eq⟩

/-! ## Steps that observe -/

/-- Collapsing a variable names this variable, and never ends a search well. -/
theorem collapseVariable_outcome (s : Solver V ρ) (run : Run) (v : Nat) :
    (∀ u p, (s.collapseVariable run v).outcome = .event (.observed u p) → u = v) ∧
      ∀ stats, (s.collapseVariable run v).outcome ≠ .finished (.ok stats) := by
  unfold collapseVariable
  dsimp only
  split
  · constructor
    · intro u p told
      cases told
    · intro stats last
      cases last
  · split
    · constructor
      · intro u p told
        cases told
      · intro stats last
        cases last
    · next p _ =>
      obtain ⟨reports, notes, told | ⟨-, reason, stopped⟩⟩ :=
        announce_cases (s.remember.commit v p ((s.system.wave v).observe s.source)) run.counted v p
      · rw [told]
        constructor
        · rintro u q ⟨⟩
          rfl
        · intro stats last
          cases last
      · rw [stopped]
        constructor
        · intro u q told
          cases told
        · intro stats last
          cases last

/-- A variable that is observed was selected. -/
theorem candidate_of_observe {v p : Nat}
    (told : (s.observe run).outcome = .event (.observed v p)) :
    v ∈ lowestCandidates s.system.waves := by
  cases hselect : select s.config.selection s.system.waves s.source with
  | mk selected source =>
    cases selected with
    | none =>
      rw [observe_of_none hselect] at told
      cases told
    | some u =>
      rw [observe_of_some hselect] at told
      by_cases full : run.limit ≤ run.observations
      · rw [if_pos full] at told
        cases told
      · rw [if_neg full] at told
        rw [(collapseVariable_outcome _ run u).1 v p told]
        exact select_some hselect

/-- A search that succeeds has asked for a variable in vain. -/
theorem unambiguous_of_observe {stats : Stats}
    (last : (s.observe run).outcome = .finished (.ok stats)) :
    (s.observe run).solver.system = s.system ∧
      ∀ v < s.system.size, (s.system.wave v).entropy = 0 := by
  cases hselect : select s.config.selection s.system.waves s.source with
  | mk selected source =>
    cases selected with
    | none =>
      rw [observe_of_none hselect]
      exact ⟨rfl, select_none hselect⟩
    | some u =>
      rw [observe_of_some hselect] at last
      by_cases full : run.limit ≤ run.observations
      · rw [if_pos full] at last
        cases last
      · rw [if_neg full] at last
        exact absurd last ((collapseVariable_outcome _ run u).2 stats)

theorem candidate_of_observed {v p : Nat}
    (told : (s.step run).outcome = .event (.observed v p)) :
    v ∈ lowestCandidates s.system.waves := by
  have hobserving : (s.step run).outcome.isObserving = true := by rw [told]; rfl
  obtain ⟨-, hstep⟩ := step_of_observing hobserving
  rw [hstep] at told
  exact candidate_of_observe (s := { s with frontier := [] }) told

theorem unambiguous_of_succeeded {stats : Stats}
    (last : (s.step run).outcome = .finished (.ok stats)) :
    ∀ v < (s.step run).solver.system.size, ((s.step run).solver.system.wave v).entropy = 0 := by
  have hobserving : (s.step run).outcome.isObserving = true := by rw [last]; rfl
  obtain ⟨-, hstep⟩ := step_of_observing hobserving
  rw [hstep] at last ⊢
  obtain ⟨hsystem, hclear⟩ := unambiguous_of_observe (s := { s with frontier := [] }) last
  rw [hsystem]
  exact hclear

/-- No variable is left with two states or more. -/
theorem components_of_succeeded {stats : Stats}
    (last : (s.step run).outcome = .finished (.ok stats)) :
    ∀ v < (s.step run).solver.system.size,
      ((s.step run).solver.system.wave v).components.length ≤ 1 := by
  intro v hv
  have hzero := unambiguous_of_succeeded last v hv
  have hle := Wave.length_components_le_popcount ((s.step run).solver.system.wave v)
  unfold Wave.entropy at hzero
  omega

/-! ## Along a search -/

/-- **The variables of lowest entropy are found, and they are what a search observes.**  For every
vector the candidates are, in ascending order, the variables of least positive entropy.  Nothing is
selected exactly when every wave is resolved or empty; the first strategy takes the first candidate
and draws no pick, and whatever the random one draws, it takes a candidate.  So every observation of
a search, whoever drives it, is of a variable of least positive entropy in the vector right before
it, and a search that ends well leaves no variable with two states. -/
theorem lowest_observed (ws : Array Wave) (a : Solver V ρ) (limit : Nat) (journal : Journal) :
    ((lowestCandidates ws).Pairwise (· < ·) ∧ ∀ v, v ∈ lowestCandidates ws ↔ IsLowest ws v) ∧
    (∀ strategy (source : ρ), (select strategy ws source).1 = none ↔
      ∀ v < ws.size, (waveAt ws v).isResolved = true ∨ (waveAt ws v).isEmpty = true) ∧
    (∀ source : ρ, (select .firstMinimum ws source).2 = source ∧ ∀ v,
      (select .firstMinimum ws source).1 = some v ↔ IsLowest ws v ∧ ∀ u, IsLowest ws u → v ≤ u) ∧
    (∀ (source : ρ) v, (select .randomLowest ws source).1 = some v → IsLowest ws v) ∧
    (∀ s run, a.LeadsTo { limit } s run → ∀ v p, (s.step run).outcome = .event (.observed v p) →
      IsLowest s.system.waves v) ∧
    (∀ k v p, (Stepper.ofSolver a limit).event journal k = some (.observed v p) →
      IsLowest ((Stepper.ofSolver a limit).stage journal k).solver.system.waves v) ∧
    (∀ stats, (a.collapse limit journal).result = .ok stats →
      let ended := (a.collapse limit journal).solver.system
      ∀ v < ended.size, (ended.wave v).components.length ≤ 1) ∧
    ∀ k stats, ((Stepper.ofSolver a limit).stage journal k).outcome = some (.ok stats) →
      let ended := ((Stepper.ofSolver a limit).stage journal k).solver.system
      ∀ v < ended.size, (ended.wave v).components.length ≤ 1 := by
  refine ⟨⟨lowestCandidates_increasing ws, fun v => mem_lowestCandidates⟩,
    fun strategy source => select_eq_none_iff, fun source => ?_, fun source v hv => ?_,
    fun s run _ v p told => ?_, fun k v p told => ?_, fun stats hok => ?_, fun k stats hok => ?_⟩
  · obtain ⟨hrest, hfirst⟩ := select_firstMinimum ws source
    refine ⟨hrest, fun v => ?_⟩
    simp only [hfirst, mem_lowestCandidates]
    exact Iff.rfl
  · have hselect : select .randomLowest ws source =
        (some v, (select .randomLowest ws source).2) := Prod.ext hv rfl
    exact mem_lowestCandidates.mp (select_some hselect)
  · exact mem_lowestCandidates.mp (candidate_of_observed told)
  · have hcall := Stepper.steps (Stepper.ofSolver a limit) journal k
    rw [told] at hcall
    generalize (Stepper.ofSolver a limit).stage journal k = before at hcall ⊢
    generalize (Stepper.ofSolver a limit).stage journal (k + 1) = after at hcall
    generalize hsaid : some (Event.observed v p) = said at hcall
    cases hcall with
    | told told =>
      cases hsaid
      exact mem_lowestCandidates.mp (candidate_of_observed told)
    | @last _ _ result => cases result <;> cases hsaid
    | past => cases hsaid
  · obtain ⟨t, r, -, hlast, hended, -⟩ := a.collapse_last limit journal
    rw [hok] at hlast
    rw [hended]
    exact components_of_succeeded hlast
  · rcases Stepper.skip_cases a limit journal k with ⟨running, -⟩ | ⟨t, r, result, -, hlast, hended⟩
    · cases running.symm.trans hok
    · have hstage : (Stepper.ofSolver a limit).stage journal k =
          ⟨(t.step r).solver, (t.step r).run, some result⟩ := hended
      rw [hstage] at hok ⊢
      cases hok
      exact components_of_succeeded hlast

/-- Around a ring with waves of one, two and three states the second vertex is the only candidate;
it is observed first, and the search ends well after one more observation. -/
theorem lowest_observed_ring :
    let a := Solver.ringOf 3 [[0, 1, 2], [0, 1], [2], [0, 1, 2]]
      { selection := .firstMinimum } [7, 9]
    let st := Stepper.ofSolver a 5
    (select .firstMinimum a.system.waves a.source).1 = some 1 ∧
      st.event .silent 11 = some (.observed 1 0) ∧
      IsLowest (st.stage .silent 11).solver.system.waves 1 ∧
      ∀ v < (st.stage .silent 22).solver.system.size,
        ((st.stage .silent 22).solver.system.wave v).components.length ≤ 1 := by
  intro a st
  obtain ⟨-, -, -, -, -, hobserved, -, hended⟩ := lowest_observed a.system.waves a 5 .silent
  have told : st.event .silent 11 = some (.observed 1 0) := by decide +kernel
  have succeeded : (st.stage .silent 22).outcome = some (.ok ⟨2, 0, 0, 18⟩) := by decide +kernel
  exact ⟨by decide +kernel, told, hobserved 11 1 0 told, hended 22 _ succeeded⟩

end Solver
end WaveCollapse
