import WaveCollapse.Proofs.Search.Drivers
import WaveCollapse.Proofs.Search.Ring
import WaveCollapse.Run.Comparison

/-! # What a comparison of the drivers finds

The trial of a search that could be prepared is that of the eager driver, whichever driver made
it, apart from the time that it took (`Settings.trial_of_prepared`); a search that cannot be
prepared fails both trials in the same way.  So the two trials for a seed never disagree
(`Settings.trialPair_agrees`), and a comparison is a list of scenarios with no mismatch
(`Settings.compare_eq`).  This holds in every monad that time may come from, as long as the
stopwatch hands on what the work gives.
-/

namespace WaveCollapse

/-! ## Trials that end alike -/

theorem Wave.agrees_self (w : Wave) : w.agrees w = true := by
  unfold agrees
  simp only [beq_self_eq_true, Bool.and_self]

theorem Trial.agrees_of_eq {a b : Trial} (result : a.result = b.result)
    (waves : a.waves = b.waves) : a.agrees b = true := by
  unfold agrees succeeded
  rw [result, waves, beq_self_eq_true, Bool.true_and, Array.isEqv_iff_rel]
  exact ⟨rfl, fun i _ => Wave.agrees_self _⟩

/-- Whichever driver is asked for, the search ends as the eager one. -/
theorem DriveMode.drive_same {V ρ : Type} [PickSource ρ] (mode : DriveMode) (s : Solver V ρ)
    (limit : Nat) (journal journal' : Journal) :
    (mode.drive s limit journal).Same (s.collapse limit journal') := by
  cases mode with
  | eager => exact Solver.drive_journal _ _ _ _
  | stepped => exact Stepper.finish_same rfl _ _

/-! ## Measuring -/

section Acts
variable {m : Type → Type} [Monad m] [LawfulMonad m]

/-- A stopwatch gives what the work gives, and takes some time for it. -/
def Stopwatch.Honest (watch : Stopwatch m) : Prop :=
  ∀ {α : Type} (f : Unit → α), ∃ time : m Duration,
    watch.measure f = (fun elapsed => (f (), elapsed)) <$> time

theorem Stopwatch.still_honest : Stopwatch.still.Honest := fun _ => ⟨Duration.zero, rfl⟩

theorem Act.measure_honest {watch : Stopwatch m} (honest : watch.Honest) {α : Type}
    (f : Unit → α) : ∃ time : Act m Duration,
      Act.measure watch f = (fun elapsed => (f (), elapsed)) <$> time := by
  obtain ⟨time, htime⟩ := honest f
  refine ⟨ExceptT.lift (StateT.lift time), ?_⟩
  have inner : (StateT.lift ((fun elapsed => (f (), elapsed)) <$> time) : StateT Workspace m _) =
      (fun elapsed => (f (), elapsed)) <$> StateT.lift time :=
    monadLift_map (n := StateT Workspace m) _ time
  unfold Act.measure
  rw [htime, inner]
  exact monadLift_map (m := StateT Workspace m) (n := ExceptT RunError (StateT Workspace m)) _ _

/-- A failure is the end of an act. -/
theorem Act.throw_bind {α β : Type} (e : RunError) (next : α → Act m β) :
    (throw e : Act m α) >>= next = throw e :=
  pure_bind (m := StateT Workspace m) _ _

/-- What is done to every result can be done to the list of them. -/
theorem mapM_map_eq {α β γ : Type} {n : Type → Type} [Monad n] [LawfulMonad n] (f : α → n β)
    (g : β → γ) (xs : List α) : xs.mapM (fun x => g <$> f x) = List.map g <$> xs.mapM f := by
  induction xs with
  | nil => simp only [List.mapM_nil, map_pure, List.map_nil]
  | cons x xs ih =>
    simp only [List.mapM_cons, ih, bind_map_left, map_bind, map_pure, List.map_cons]

namespace Settings
variable {watch : Stopwatch m} {s : Settings} {opened : OpenRules} {seed : Nat}

/-! ## Trials -/

/-- The trial of a search that was prepared: apart from its name and its time it is that of the
eager driver. -/
def trialOf (s : Settings) (p : Prepared) (seed : Nat) (mode : DriveMode) (elapsed : Duration) :
    Trial :=
  let ending := p.solver.collapse s.maxSteps .silent
  { mode, seed, elapsed, result := ending.result, waves := ending.solver.system.waves }

theorem trial_of_prepared (honest : watch.Honest) {p : Prepared} (prepared :
    s.prepare opened.registry opened.rules { s.config with seed := some seed }
      (.ofSeed seed) = .ok p)
    (mode : DriveMode) : ∃ time : Act m Duration,
      s.trial watch opened mode seed = s.trialOf p seed mode <$> time := by
  have same := fun journal => mode.drive_same p.solver s.maxSteps journal .silent
  -- how long the search takes may depend on the journal that it is given
  obtain ⟨time, htime⟩ := Classical.axiomOfChoice fun journal =>
    Act.measure_honest honest fun _ => mode.drive p.solver s.maxSteps journal
  refine ⟨do
    Act.tell (s.prepareNotes opened.registry opened.rules)
    let w ← get
    let elapsed ← time w.journal
    Act.keepJournal fun _ => ((), (mode.drive p.solver s.maxSteps w.journal).journal)
    return elapsed, ?_⟩
  unfold trial trialOf
  dsimp only
  rw [prepared]
  simp only [Act.ofExcept, pure_bind, htime, bind_map_left, map_bind, map_pure, (same _).1,
    (same _).2.1]

theorem trial_of_error {e : RunError} (failed :
    s.prepare opened.registry opened.rules { s.config with seed := some seed }
      (.ofSeed seed) = .error e)
    (mode : DriveMode) : s.trial watch opened mode seed =
      Act.tell (s.prepareNotes opened.registry opened.rules) >>= fun _ => throw e := by
  unfold trial
  dsimp only
  rw [failed]
  simp only [Act.ofExcept, Act.throw_bind]

/-- The two trials for a seed end alike, or there is no trial. -/
theorem trialPair_agrees (honest : watch.Honest) (seed : Nat) : ∃ pair : Act m (Trial × Trial),
    s.trialPair watch opened seed = (fun found => (found.1, found.2, true)) <$> pair := by
  cases prepared : s.prepare opened.registry opened.rules
      { s.config with seed := some seed } (.ofSeed seed) with
  | error e =>
    refine ⟨Act.tell (s.prepareNotes opened.registry opened.rules) >>= fun _ => throw e, ?_⟩
    unfold trialPair
    rw [trial_of_error prepared]
    simp only [bind_assoc, Act.throw_bind, map_eq_pure_bind]
  | ok p =>
    obtain ⟨time, htime⟩ := trial_of_prepared honest prepared .eager
    obtain ⟨time', htime'⟩ := trial_of_prepared honest prepared .stepped
    have agree : ∀ elapsed elapsed', (s.trialOf p seed .eager elapsed).agrees
        (s.trialOf p seed .stepped elapsed') = true := fun _ _ => Trial.agrees_of_eq rfl rfl
    refine ⟨do
      let eager ← s.trialOf p seed .eager <$> time
      let stepped ← s.trialOf p seed .stepped <$> time'
      Act.tell [RunNote.compared seed (eager.elapsed, eager.succeeded)
        (stepped.elapsed, stepped.succeeded)]
      return (eager, stepped), ?_⟩
    unfold trialPair
    rw [htime, htime']
    simp only [bind_map_left, agree, map_bind, map_pure, Bool.not_true,
      if_neg Bool.false_ne_true]

/-! ## The comparison -/

/-- **A comparison finds no seed on which the drivers disagree.** -/
theorem compare_eq (honest : watch.Honest) (s : Settings) (ruleFile : String)
    (opened : OpenRules) : ∃ scenarios : Act m (List Scenario),
      s.compare watch ruleFile opened = (fun found => ⟨found, []⟩) <$> scenarios := by
  have agrees : ∀ seed, ∃ pair : Act m (Trial × Trial), s.trialPair watch opened seed =
      (fun found => (found.1, found.2, true)) <$> pair := trialPair_agrees honest
  obtain ⟨pair, hpair⟩ := Classical.axiomOfChoice agrees
  refine ⟨do
    let pairs ← s.seeds.mapM pair
    let trials := pairs.flatMap fun (eager, stepped) => [eager, stepped]
    return DriveMode.all.map fun mode =>
      .ofTrials ruleFile s opened.registry.modules.length mode trials, ?_⟩
  have nobody : ∀ pairs : List (Trial × Trial), (pairs.map fun found =>
      (found.1, found.2, true)).filter (fun found => !found.2.2) = [] := fun pairs => by
    simp [List.filter_eq_nil_iff]
  unfold compare
  simp only [hpair, mapM_map_eq, bind_map_left, map_bind, map_pure, List.flatMap_map, nobody,
    List.map_nil]

end Settings
end Acts

/-- **The two drivers are one machine.**  After any number of calls for the next event, finishing
a search gives the result of the eager driver and leaves the same solver and run, and the result
is never the error for a missing outcome.  A comparison of the drivers therefore names no seed,
whatever the settings and the rules. -/
theorem drivers_agree :
    (∀ {V ρ : Type} [PickSource ρ] (s : Solver V ρ) (limit k : Nat) (journal journal' : Journal),
      let paused := (Stepper.ofSolver s limit).skip journal k
      (paused.1.finish paused.2).Same (s.collapse limit journal') ∧
        ∀ reason, (paused.1.finish paused.2).result ≠ .error (.internal reason)) ∧
    ∀ {m : Type → Type} [Monad m] [LawfulMonad m] (watch : Stopwatch m), watch.Honest →
      ∀ (s : Settings) (ruleFile : String) (opened : Settings.OpenRules),
        ∃ scenarios : Act m (List Scenario),
          s.compare watch ruleFile opened = (fun found => ⟨found, []⟩) <$> scenarios := by
  constructor
  · intro V ρ _ s limit k journal journal'
    have same : ((Stepper.ofSolver s limit).finish journal).Same (s.collapse limit journal') :=
      Stepper.finish_same rfl _ _
    dsimp only
    rw [Stepper.finish_skip]
    refine ⟨same, fun reason h => ?_⟩
    exact Solver.drive_ne_internal _ _ _ reason (same.1.symm.trans h)
  · intro m _ _ watch honest s ruleFile opened
    exact Settings.compare_eq honest s ruleFile opened

/-- A search that fails after it undid a decision, paused on the way, and a comparison on a small
grid. -/
theorem drivers_agree_ring :
    let paused := (Stepper.ofSolver (Solver.ring 3 2 {} [7]) 5).skip .silent 4
    (paused.1.finish paused.2).result = .error (.exhausted 1 1) ∧
      ∃ scenarios : Act Id (List Scenario),
        Settings.compare .still { width := 2, height := 2 } "rules.ron"
            ⟨{ modules := [], classSizes := #[2], types := ["side"], duals := #[0] },
              Rules.differing 2⟩ =
          (fun found => ⟨found, []⟩) <$> scenarios := by
  obtain ⟨hsame, hcompare⟩ := drivers_agree
  refine ⟨?_, hcompare .still Stopwatch.still_honest _ _ _⟩
  have hend : ((Solver.ring 3 2 {} [7]).collapse 5 .silent).result = .error (.exhausted 1 1) :=
    Solver.drive_result_of_within (n := 20) (by decide +kernel) _
  exact (hsame (Solver.ring 3 2 {} [7]) 5 4 .silent .silent).1.1.trans hend

end WaveCollapse
