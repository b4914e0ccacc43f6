import WaveCollapse.Proofs.Search.Invariant

/-! # What a search with backtracking can still reach

An assignment is within reach (`Solver.Reaches`) when it is inside the waves in force, or
inside an alternative that some decision left.  Nothing comes into reach again
(`Reaches.of_move`).  So a stack of decisions is spent (`Solver.Spent`) once no assignment in
reach agrees with it; a stack that still stands, or stands below others, cannot be left by an
observation either, since an observation makes the stack longer.  That is why no two
observations of a search leave the same stack (`nodup_observedStacks`).
-/

namespace WaveCollapse.Solver
variable {V ρ : Type} {start s : Solver V ρ} {limit : Nat} {base : Array Wave} {run : Run}

/-- The assignment is inside the waves, or inside an alternative that a decision left. -/
def Reaches (s : Solver V ρ) (f : Nat → Nat) : Prop :=
  Inside s.system.waves f ∨
    ∃ e ∈ s.checkpoints.zip s.choices, Inside (alternative e.1 e.2) f

/-- Nothing comes into reach by an event. -/
theorem Reaches.of_move (hstart : start.system.Sound) (hinv : Invariant start limit base s run)
    (mode : s.config.backtracking = true) {next : Stepped V ρ} {e : Event}
    (hmove : Move s run next) (told : next.outcome = .event e) {f : Nat → Nat}
    (h : next.solver.Reaches f) : s.Reaches f := by
  have hs := hinv.sound hstart
  cases hmove with
  | unchanged _ step | narrowed _ step | contradicted _ step =>
    rcases h with hin | halt
    · exact .inl (Inside.mono hin (step.within hs))
    · exact .inr halt
  | observed _ _ chosen _ mem =>
    have hv := (mem_lowestCandidates.mp chosen).1
    have hsub := Wave.single_subset (hinv.wellFormed _ hv).readable mem
    rcases h with hin | ⟨a, ha, hin⟩
    · exact .inl ((inside_set_iff hv hsub).mp hin).1
    · rw [decided_checkpoints mode] at ha
      rcases List.mem_cons.mp ha with rfl | ha
      · exact .inl (hin.mono (alternative_within _ _))
      · exact .inr ⟨a, ha, hin⟩
  | @backtracked ws saved c choices _ _ checkpoints taken =>
    unfold Reaches
    rw [checkpoints, taken, List.zip_cons_cons]
    rcases h with hin | ⟨a, ha, hin⟩
    · exact .inr ⟨(ws, c), List.mem_cons_self, hin⟩
    · exact .inr ⟨a, List.mem_cons_of_mem _ ha, hin⟩
  | restarted _ mode' | restartedEmpty _ mode' => exact absurd mode (Bool.eq_false_iff.mp mode')
  | aborted | solved | limited | exhausted | hopeless | unstartable => cases told

/-! ## Spent stacks -/

/-- No later observation leaves this stack: it stands, alone or below others, or no assignment
in reach agrees with it. -/
def Spent (s : Solver V ρ) (stack : List Choice) : Prop :=
  stack <:+ s.choices ∨ ∀ f, s.Reaches f → ∃ c ∈ stack, f c.v ≠ c.state

/-- A spent stack stays spent. -/
theorem Spent.move (hstart : start.system.Sound) (hinv : Invariant start limit base s run)
    (mode : s.config.backtracking = true) {next : Stepped V ρ} {e : Event}
    (hmove : Move s run next) (told : next.outcome = .event e) {stack : List Choice}
    (h : s.Spent stack) : next.solver.Spent stack := by
  rcases h with hstands | hdead
  · cases hmove with
    | unchanged | narrowed | contradicted => exact .inl hstands
    | observed => exact .inl (hstands.trans (List.suffix_cons _ _))
    | @backtracked ws saved c choices _ _ checkpoints taken =>
      rw [taken] at hstands
      rcases List.suffix_cons_iff.mp hstands with rfl | hbelow
      · -- the stack lost its last decision, and what is left differs from it somewhere
        right
        have hdecisions := (hinv.undoing (hinv.config ▸ mode)).1
        rw [checkpoints, taken] at hdecisions
        rintro f (hin | ⟨a, ha, hin⟩)
        · exact ⟨c, List.mem_cons_self, hdecisions.differs (ws, c) List.mem_cons_self hin⟩
        · have ha' := List.mem_cons_of_mem (ws, c) ha
          exact ⟨a.2, List.mem_cons_of_mem _ (List.of_mem_zip ha).2, hdecisions.differs a ha' hin⟩
      · exact .inl hbelow
    | restarted _ mode' | restartedEmpty _ mode' => exact absurd mode (Bool.eq_false_iff.mp mode')
    | aborted | solved | limited | exhausted | hopeless | unstartable => cases told
  · exact .inr fun f hf => hdead f (.of_move hstart hinv mode hmove told hf)

/-- An observation leaves a stack that was not spent before it. -/
theorem not_spent_of_decided (hstart : start.system.Sound)
    (hinv : Invariant start limit base s run) (mode : s.config.backtracking = true)
    (on : run.inconsistent = false) (idle : s.system.nextConnection s.frontier = none) {v p : Nat}
    (chosen : v ∈ lowestCandidates s.system.waves) (room : run.observations < run.limit)
    (mem : p ∈ s.system.wave v) (source : ρ) (reports : List Progress) :
    ¬ s.Spent (s.decided v p source reports).choices := by
  have hnext := hinv.of_decided on idle chosen mem source reports
  obtain ⟨halive, -, hobeys⟩ := hnext.consistent on
  have hdecisions := (hnext.undoing (hinv.config ▸ mode)).1
  rintro (hstands | hdead)
  · have hlen := hstands.length_le
    exact absurd hlen (Nat.not_succ_le_self _)
  · -- some assignment is inside the new waves, and all of these obey the new stack
    obtain ⟨f, hin⟩ := exists_inside hnext.wellFormed halive
    have hreach : (s.decided v p source reports).Reaches f := .inl hin
    obtain ⟨c, hc, hne⟩ := hdead f (.of_move hstart hinv mode
      (.observed on idle chosen room mem []) rfl hreach)
    have hv : c.v < (s.decided v p source reports).system.size :=
      Nat.lt_of_lt_of_eq (hdecisions.lt c hc) hnext.size.symm
    exact hne (hobeys c hc _ (hin c.v hv))

/-! ## The observations of a search -/

section Observations
variable [PickSource ρ]

/-- From where the invariant holds, observations leave different stacks, none of them spent. -/
theorem nodup_observedStacks (hstart : start.system.Sound)
    (mode : start.config.backtracking = true) (s : Solver V ρ) (run : Run) {base : Array Wave}
    (hinv : Invariant start limit base s run) :
    (s.observedStacks run).Nodup ∧ ∀ stack, s.Spent stack → stack ∉ s.observedStacks run := by
  have hmove := hinv.step_move hstart
  have hmode : s.config.backtracking = true := hinv.config ▸ mode
  cases told : (s.step run).outcome with
  | finished result =>
    rw [observedStacks_of_finished told]
    exact ⟨List.nodup_nil, fun _ _ => List.not_mem_nil⟩
  | event e =>
    obtain ⟨base', hnext⟩ := hinv.move hstart hmove told
    obtain ⟨hnodup, hfresh⟩ := nodup_observedStacks hstart mode _ _ hnext
    have hkept : ∀ stack, s.Spent stack → stack ∉
        (s.step run).solver.observedStacks (s.step run).run :=
      fun stack h => hfresh stack (h.move hstart hinv hmode hmove told)
    rw [observedStacks_of_event told]
    cases hobs : e.isObservation with
    | false => exact ⟨hnodup, hkept⟩
    | true =>
      generalize s.step run = next at *
      cases hmove with
      | observed on idle chosen room mem =>
        have hnew := not_spent_of_decided hstart hinv hmode on idle chosen room mem
        refine ⟨List.nodup_cons.mpr ⟨?_, hnodup⟩, fun stack h hstack => ?_⟩
        · exact hfresh _ (.inl (List.suffix_refl _))
        · rcases List.mem_cons.mp hstack with rfl | hlater
          · exact hnew _ _ h
          · exact hkept stack h hlater
      | unchanged | narrowed | contradicted | backtracked | restarted | restartedEmpty =>
        cases told
        cases hobs
      | aborted | solved | limited | exhausted | hopeless | unstartable => cases told
termination_by s.potential run
decreasing_by exact step_below told

end Observations

end WaveCollapse.Solver
