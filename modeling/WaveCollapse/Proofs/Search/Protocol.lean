import WaveCollapse.Proofs.Search.Calls
import WaveCollapse.Proofs.Search.Ring

/-! # The protocol of a search's events

The events of a stepwise search tell all that its decisions and its counts go through.  A search is
inconsistent after a step exactly when that step told of a contradiction (`Move.inconsistent_iff`),
and an inconsistent search recovers or fails (`Move.recovers`); hence contradictions and recoveries
come in pairs.  Replayed from no decision, the events give the decisions that stand, and they count
what the run counts: the first event begins so and every further one keeps it (`Solver.Accounts`).

One thing is not told: an observation at which the observer stops the search is made, and stands,
but the event that follows is the failure.
-/

namespace WaveCollapse

namespace Event

/-- The event tells that a decision was undone. -/
def isBacktrack : Event → Bool
  | backtracked .. => true
  | _ => false

/-- The event tells that a connection was relaxed, if no empty wave is ever scheduled. -/
def isRelaxation : Event → Bool
  | propagated .. | contradiction _ => true
  | _ => false

/-- No event comes after this one. -/
def isLast : Event → Bool
  | completed | failed => true
  | _ => false

/-- The decisions that stand after an event, given those that stood before it, the oldest
first. -/
def replay (decisions : List Choice) : Event → List Choice
  | observed v p => decisions ++ [⟨v, p⟩]
  | backtracked _ _ depth => decisions.take depth
  | restarted => []
  | _ => decisions

end Event

/-- The decisions that a list of events leaves, the oldest first. -/
def replayed (events : List Event) : List Choice := events.foldl Event.replay []

/-- What a list of events counts. -/
def Stats.ofEvents (events : List Event) : Stats where
  observations := events.countP Event.isObservation
  backtracks := events.countP Event.isBacktrack
  restarts := events.count .restarted
  propagationSteps := events.countP Event.isRelaxation

@[simp] theorem replayed_concat (events : List Event) (e : Event) :
    replayed (events ++ [e]) = Event.replay (replayed events) e := List.foldl_concat ..

/-- An event adds to the counts of those before it. -/
theorem Stats.ofEvents_concat (events : List Event) (e : Event) :
    Stats.ofEvents (events ++ [e]) =
      { observations := (ofEvents events).observations + if e.isObservation then 1 else 0
        backtracks := (ofEvents events).backtracks + if e.isBacktrack then 1 else 0
        restarts := (ofEvents events).restarts + if e = .restarted then 1 else 0
        propagationSteps := (ofEvents events).propagationSteps + if e.isRelaxation then 1 else 0 } := by
  unfold ofEvents
  simp only [List.countP_append, List.countP_singleton, List.count_append, List.count_singleton,
    beq_iff_eq]

/-- The event that tells of a result stands for no decision and is not counted. -/
theorem Stats.ofEvents_concat_last (events : List Event) (result : Except CollapseError Stats) :
    Stats.ofEvents (events ++ [Stepper.lastEvent result]) = Stats.ofEvents events ∧
      replayed (events ++ [Stepper.lastEvent result]) = replayed events := by
  rw [ofEvents_concat, replayed_concat]
  cases result <;> exact ⟨rfl, rfl⟩

namespace Solver
variable {V ρ : Type} {a s : Solver V ρ} {limit : Nat} {run : Run} {next : Stepped V ρ} {e : Event}

/-- If the solver restarts after contradictions, its reset vector has no empty wave. -/
def Restartable (s : Solver V ρ) : Prop :=
  s.config.backtracking = false →
    ∀ ws, s.system.problem.startingWaves = .ok ws → AliveWaves ws

theorem Upkeep.restartable (h : Upkeep a limit s run) (ha : a.Restartable) : s.Restartable := by
  unfold Restartable
  rw [h.config, h.network.1]
  exact ha

/-! ## Contradictions and recoveries -/

theorem Begins.inconsistent_iff (h : Begins a { limit } next) (told : next.outcome = .event e) :
    next.run.inconsistent = true ↔ ∃ v, e = .contradiction v := by
  cases h with
  | alive =>
    cases told
    exact ⟨nofun, nofun⟩
  | empty =>
    cases told
    exact ⟨fun _ => ⟨_, rfl⟩, fun _ => rfl⟩

/-- A step leaves a search inconsistent exactly when it tells of a contradiction. -/
theorem Move.inconsistent_iff (hmove : Move s run next) (told : next.outcome = .event e) :
    next.run.inconsistent = true ↔ ∃ v, e = .contradiction v := by
  cases hmove with
  | unchanged on | narrowed on | observed on =>
    cases told
    exact ⟨fun off => absurd off (Bool.eq_false_iff.mp on), nofun⟩
  | contradicted | restartedEmpty =>
    cases told
    exact ⟨fun _ => ⟨_, rfl⟩, fun _ => rfl⟩
  | backtracked | restarted =>
    cases told
    exact ⟨nofun, nofun⟩
  | aborted | solved | limited | exhausted | hopeless | unstartable => cases told

/-- An inconsistent search fails, or recovers in the way that it is configured for. -/
theorem Move.recovers (hmove : Move s run next) (off : run.inconsistent = true)
    (restartable : s.Restartable) :
    (∃ cause, next.outcome = .finished (.error cause)) ∨
      if s.config.backtracking then ∃ v p depth, next.outcome = .event (.backtracked v p depth)
      else next.outcome = .event .restarted := by
  cases hmove with
  | backtracked _ mode =>
    rw [mode]
    exact .inr ⟨_, _, _, rfl⟩
  | restarted _ mode =>
    rw [mode]
    exact .inr rfl
  | restartedEmpty _ mode _ starting empty =>
    have halive := restartable mode _ starting _ empty.1
    exact absurd empty.2 (Bool.eq_false_iff.mp halive)
  | exhausted | hopeless | unstartable => exact .inl ⟨_, rfl⟩
  | unchanged on | narrowed on | contradicted on | observed on | aborted on | solved on
  | limited on => exact absurd off (Bool.eq_false_iff.mp on)

/-- Only an inconsistent search recovers. -/
theorem Move.inconsistent_of_recovery (hmove : Move s run next) (told : next.outcome = .event e)
    (recovery : e.isRecovery = true) : run.inconsistent = true := by
  cases hmove with
  | backtracked off | restarted off => exact off
  | unchanged | narrowed | contradicted | observed | restartedEmpty =>
    cases told
    cases recovery
  | aborted | solved | limited | exhausted | hopeless | unstartable => cases told

/-- The event of a step is none of those that tell of a result. -/
theorem Move.not_last (hmove : Move s run next) (told : next.outcome = .event e) :
    e.isLast = false := by
  cases hmove <;> cases told <;> rfl

theorem Begins.not_last (h : Begins a { limit } next) (told : next.outcome = .event e) :
    e.isLast = false := by
  cases h <;> cases told <;> rfl

/-! ## What the events account for -/

/-- The events so far leave the decisions that stand, and count what the run counts. -/
structure Accounts (events : List Event) (s : Solver V ρ) (run : Run) : Prop where
  decisions : s.choices.reverse = replayed events
  counts : run.stats = Stats.ofEvents events

theorem Begins.accounts (h : Begins a { limit } next) (halive : AliveWaves a.system.waves)
    (told : next.outcome = .event e) : Accounts [e] next.solver next.run := by
  cases h with
  | alive =>
    cases told
    exact ⟨rfl, rfl⟩
  | empty empty => exact absurd empty.2 (Bool.eq_false_iff.mp (halive _ empty.1))

/-- Every event accounts for its step. -/
theorem Move.accounts {events : List Event} (h : Accounts events s run) (hmove : Move s run next)
    (restartable : s.Restartable)
    (told : next.outcome = .event e) : Accounts (events ++ [e]) next.solver next.run := by
  have hcounts := h.counts
  have hdecisions := h.decisions
  cases hmove with
  | unchanged | narrowed | contradicted =>
    cases told
    refine ⟨by rw [replayed_concat]; exact hdecisions, ?_⟩
    rw [Stats.ofEvents_concat, ← hcounts]
    rfl
  | observed =>
    cases told
    refine ⟨?_, ?_⟩
    · rw [replayed_concat, ← hdecisions]
      exact List.reverse_cons
    · rw [Stats.ofEvents_concat, ← hcounts]
      rfl
  | @backtracked ws saved c choices _ _ _ taken =>
    cases told
    refine ⟨?_, ?_⟩
    · rw [replayed_concat, ← hdecisions, taken]
      simp [Event.replay, undone]
    · rw [Stats.ofEvents_concat, ← hcounts]
      rfl
  | restarted =>
    cases told
    refine ⟨by rw [replayed_concat]; rfl, ?_⟩
    rw [Stats.ofEvents_concat, ← hcounts]
    rfl
  | restartedEmpty _ mode _ starting empty =>
    have halive := restartable mode _ starting _ empty.1
    exact absurd empty.2 (Bool.eq_false_iff.mp halive)
  | aborted | solved | limited | exhausted | hopeless | unstartable => cases told

/-- A decision that is undone is the latest of those that stand. -/
theorem Move.removed {events : List Event} (h : Accounts events s run) (hmove : Move s run next)
    {v p depth : Nat} (told : next.outcome = .event (.backtracked v p depth)) :
    (replayed events).length = depth + 1 ∧ (replayed events)[depth]? = some ⟨v, p⟩ := by
  cases hmove with
  | @backtracked ws saved c choices _ _ _ taken =>
    cases told
    rw [← h.decisions, taken, List.reverse_cons]
    simp
  | unchanged | narrowed | contradicted | observed | restarted | restartedEmpty | aborted | solved
  | limited | exhausted | hopeless | unstartable => cases told

/-- The last step leaves the decisions as they are, unless the observer stops the search: then one
stands that no event tells of. -/
theorem Move.accounts_last {events : List Event} (h : Accounts events s run)
    (hmove : Move s run next) {result : Except CollapseError Stats}
    (last : next.outcome = .finished result) :
    (∀ stats, result = .ok stats → stats = Stats.ofEvents events) ∧
      ((∀ reason, result ≠ .error (.aborted reason)) ∧
          next.solver.choices.reverse = replayed events ∨
        s.config.observer ≠ none ∧ (∃ reason, result = .error (.aborted reason)) ∧
          ∃ c, next.solver.choices.reverse = replayed events ++ [c]) := by
  cases hmove with
  | @aborted v p _ _ _ _ _ _ _ _ watched =>
    cases last
    refine ⟨nofun, .inr ⟨watched, ⟨_, rfl⟩, ⟨v, p⟩, ?_⟩⟩
    rw [← h.decisions]
    exact List.reverse_cons
  | solved =>
    cases last
    refine ⟨fun stats hok => ?_, .inl ⟨nofun, h.decisions⟩⟩
    cases hok
    exact h.counts
  | limited | exhausted | hopeless =>
    cases last
    exact ⟨nofun, .inl ⟨nofun, h.decisions⟩⟩
  | unstartable _ _ _ starting =>
    cases last
    refine ⟨nofun, .inl ⟨fun reason heq => ?_, h.decisions⟩⟩
    cases heq
    exact Problem.startingWaves_ne_aborted _ _ starting
  | unchanged | narrowed | contradicted | observed | backtracked | restarted | restartedEmpty =>
    cases last

end Solver

/-! ## The protocol -/

namespace Stepper
open Solver (Begins Move Upkeep Accounts)

variable {V ρ : Type} [PickSource ρ]

/-- The protocol that the events of a stepwise search keep to. -/
structure Protocol (st : Stepper V ρ) (journal : Journal) : Prop where
  /-- The first event says that all variables are scheduled. -/
  first : st.event journal 0 = some (.initialized st.solver.system.size)
  /-- After a contradiction comes the recovery that the search is configured for, or the end. -/
  recovered : ∀ k v, st.event journal k = some (.contradiction v) →
    st.event journal (k + 1) = some .failed ∨
      if st.solver.config.backtracking then
        ∃ u p depth, st.event journal (k + 1) = some (.backtracked u p depth)
      else st.event journal (k + 1) = some .restarted
  /-- A recovery comes after a contradiction only. -/
  recovers : ∀ k e, st.event journal k = some e → e.isRecovery = true →
    ∃ j v, k = j + 1 ∧ st.event journal j = some (.contradiction v)
  /-- One event is the last.  It tells of the result, which is there from then on; no event before
  it does, and after it there are none and nothing changes. -/
  ends : ∃ n result,
    (∀ k < n, ∃ e, st.event journal k = some e ∧ e.isLast = false) ∧
    (st.event journal n = some .completed ∧ (∃ stats, result = .ok stats) ∨
      st.event journal n = some .failed ∧ ∃ cause, result = .error cause) ∧
    (∀ k ≤ n, (st.stage journal k).outcome = none) ∧
    ∀ k > n, st.event journal k = none ∧ (st.stage journal k).outcome = some result ∧
      st.stage journal k = st.stage journal (n + 1)
  /-- After every event the decisions that stand are those that the events so far leave; but where
  the observer stops the search, one more stands that was not told. -/
  decisions : ∀ k e, st.event journal k = some e →
    let left := (st.stage journal (k + 1)).solver.choices.reverse
    let result := (st.stage journal (k + 1)).outcome
    (∀ reason, result ≠ some (.error (.aborted reason))) ∧
        left = replayed (st.heard journal (k + 1)) ∨
      e = .failed ∧ st.solver.config.observer ≠ none ∧
        (∃ reason, result = some (.error (.aborted reason))) ∧
        ∃ c, left = replayed (st.heard journal (k + 1)) ++ [c]
  /-- The decision that is undone is the one at its depth, and no other stands above it. -/
  undone : ∀ k v p depth, st.event journal k = some (.backtracked v p depth) →
    (replayed (st.heard journal k)).length = depth + 1 ∧
      (replayed (st.heard journal k))[depth]? = some ⟨v, p⟩
  /-- The statistics of a success count the events. -/
  counts : ∀ k stats, (st.stage journal k).outcome = some (.ok stats) →
    stats = Stats.ofEvents (st.heard journal k)

section Kept
variable {a : Solver V ρ} {limit : Nat} {journal : Journal}

/-- A call tells of a step, or it tells of the result, or the search has ended before. -/
theorem call_cases (hs : a.system.Intact) (limit : Nat) (journal : Journal) (k : Nat) :
    (∃ e, (ofSolver a limit).event journal k = some e ∧ e.isLast = false ∧
        ((ofSolver a limit).stage journal (k + 1)).outcome = none) ∨
      (∃ result, (ofSolver a limit).event journal k = some (lastEvent result) ∧
        ((ofSolver a limit).stage journal (k + 1)).outcome = some result) ∨
      ∃ result, (ofSolver a limit).event journal k = none ∧
        ((ofSolver a limit).stage journal k).outcome = some result ∧
        (ofSolver a limit).stage journal (k + 1) = (ofSolver a limit).stage journal k := by
  cases k with
  | zero =>
    obtain ⟨next, e, begins, told, hevent, hstage⟩ := first_call a limit journal
    rw [hstage]
    exact .inl ⟨e, hevent, begins.not_last told, rfl⟩
  | succ k =>
    have hcall := takes hs limit journal k
    generalize (ofSolver a limit).stage journal (k + 1 + 1) = after at hcall ⊢
    generalize (ofSolver a limit).event journal (k + 1) = told at hcall ⊢
    generalize (ofSolver a limit).stage journal (k + 1) = before at hcall ⊢
    cases hcall with
    | told _ hmove told => exact .inl ⟨_, rfl, hmove.not_last told, rfl⟩
    | last => exact .inr (.inl ⟨_, rfl, rfl⟩)
    | past ended => exact .inr (.inr ⟨_, rfl, ended, rfl⟩)

/-- A running search is inconsistent exactly when the latest event is a contradiction. -/
theorem inconsistent_iff (hs : a.system.Intact) (limit : Nat) (journal : Journal) (k : Nat)
    (running : ((ofSolver a limit).stage journal (k + 1)).outcome = none) :
    ((ofSolver a limit).stage journal (k + 1)).run.inconsistent = true ↔
      ∃ v, (ofSolver a limit).event journal k = some (.contradiction v) := by
  refine stage_induct (P := fun k _ run => run.inconsistent = true ↔
    ∃ v, (ofSolver a limit).event journal (k - 1) = some (.contradiction v)) hs ?_ ?_ k running
  · intro next e begins told hevent
    rw [begins.inconsistent_iff told, Nat.sub_self, hevent]
    simp only [Option.some.injEq]
  · intro k s run next e _ _ _ hmove told hevent _
    rw [hmove.inconsistent_iff told, Nat.add_sub_cancel, hevent]
    simp only [Option.some.injEq]

/-- A search that has begun from non-empty waves accounts for its steps by its events, as long as
it runs. -/
theorem accounts (hs : a.system.Intact) (halive : AliveWaves a.system.waves)
    (restartable : a.Restartable) (limit : Nat) (journal : Journal) (k : Nat)
    (running : ((ofSolver a limit).stage journal (k + 1)).outcome = none) :
    Accounts ((ofSolver a limit).heard journal (k + 1))
      ((ofSolver a limit).stage journal (k + 1)).solver
      ((ofSolver a limit).stage journal (k + 1)).run := by
  refine stage_induct (P := fun k s run => Accounts ((ofSolver a limit).heard journal k) s run)
    hs ?_ ?_ k running
  · intro next e begins told hevent
    rw [heard_succ, heard_zero, hevent]
    exact begins.accounts halive told
  · intro k s run next e _ hup h hmove told hevent _
    rw [heard_succ, hevent]
    exact hmove.accounts h (hup.restartable restartable) told

omit [PickSource ρ] in
/-- The call that finds a search inconsistent tells of its recovery, or of its failure. -/
theorem Takes.recovers {before after : Stepper V ρ} {told : Option Event}
    (h : Takes a limit before told after) (running : before.outcome = none)
    (off : before.run.inconsistent = true) (restartable : a.Restartable) :
    told = some .failed ∨
      if a.config.backtracking then ∃ v p depth, told = some (.backtracked v p depth)
      else told = some .restarted := by
  cases h with
  | told hup hmove told =>
    have hrecovers := hmove.recovers off (hup.restartable restartable)
    rw [told, hup.config] at hrecovers
    refine .inr ?_
    simpa using hrecovers
  | @last _ _ _ result hup hmove last =>
    have hrecovers := hmove.recovers off (hup.restartable restartable)
    rw [last] at hrecovers
    obtain ⟨cause, rfl⟩ : ∃ cause, result = .error cause := by simpa using hrecovers
    exact .inl rfl
  | past ended => cases running.symm.trans ended

theorem recovered (hs : a.system.Intact) (restartable : a.Restartable) {k v : Nat}
    (told : (ofSolver a limit).event journal k = some (.contradiction v)) :
    (ofSolver a limit).event journal (k + 1) = some .failed ∨
      if a.config.backtracking then
        ∃ u p depth, (ofSolver a limit).event journal (k + 1) = some (.backtracked u p depth)
      else (ofSolver a limit).event journal (k + 1) = some .restarted := by
  have running : ((ofSolver a limit).stage journal (k + 1)).outcome = none := by
    rcases call_cases hs limit journal k with ⟨_, -, -, h⟩ | ⟨result, h, -⟩ | ⟨_, h, -⟩
    · exact h
    · rw [told] at h
      cases result <;> cases h
    · cases told.symm.trans h
  have off := (inconsistent_iff hs limit journal k running).mpr ⟨v, told⟩
  exact (takes hs limit journal k).recovers running off restartable

theorem recovers (hs : a.system.Intact) {k : Nat} {e : Event}
    (told : (ofSolver a limit).event journal k = some e) (recovery : e.isRecovery = true) :
    ∃ j v, k = j + 1 ∧ (ofSolver a limit).event journal j = some (.contradiction v) := by
  obtain ⟨j, s, run, next, rfl, hstage, -, hmove, htold⟩ := recovery_call hs told recovery
  have hiff := inconsistent_iff hs limit journal j
  rw [hstage] at hiff
  obtain ⟨v, hv⟩ := (hiff rfl).mp (hmove.inconsistent_of_recovery htold recovery)
  exact ⟨j, v, rfl, hv⟩

theorem ends (hs : a.system.Intact) (limit : Nat) (journal : Journal) : ∃ n result,
    (∀ k < n, ∃ e, (ofSolver a limit).event journal k = some e ∧ e.isLast = false) ∧
    (ofSolver a limit).event journal n = some (lastEvent result) ∧
    (∀ k ≤ n, ((ofSolver a limit).stage journal k).outcome = none) ∧
    ∀ k > n, (ofSolver a limit).event journal k = none ∧
      ((ofSolver a limit).stage journal k).outcome = some result ∧
      (ofSolver a limit).stage journal k = (ofSolver a limit).stage journal (n + 1) := by
  obtain ⟨n, result, running, ended, still⟩ := exists_last (ofSolver a limit) journal rfl
  refine ⟨n, result, fun k hk => ?_, ?_, running, fun k hk => ?_⟩
  · rcases call_cases hs limit journal k with ⟨e, h, hlast, -⟩ | ⟨_, -, h⟩ | ⟨_, -, h, -⟩
    · exact ⟨e, h, hlast⟩
    · cases (running (k + 1) hk).symm.trans h
    · cases (running k (Nat.le_of_lt hk)).symm.trans h
  · rcases call_cases hs limit journal n with ⟨_, -, -, h⟩ | ⟨_, h, hresult⟩ | ⟨_, -, h, -⟩
    · cases h.symm.trans ended
    · cases hresult.symm.trans ended
      exact h
    · cases (running n (Nat.le_refl n)).symm.trans h
  · have hended : ((ofSolver a limit).stage journal k).outcome = some result := by
      rw [still k hk]
      exact ended
    exact ⟨event_of_outcome hended, hended, still k hk⟩

/-- The last event accounts for the last step. -/
theorem accounts_last (hs : a.system.Intact) (halive : AliveWaves a.system.waves)
    (restartable : a.Restartable) {k : Nat} {e : Event} {result : Except CollapseError Stats}
    (told : (ofSolver a limit).event journal k = some e)
    (ended : ((ofSolver a limit).stage journal (k + 1)).outcome = some result) :
    let left := ((ofSolver a limit).stage journal (k + 1)).solver.choices.reverse
    let heard := (ofSolver a limit).heard journal (k + 1)
    (∀ stats, result = .ok stats → stats = Stats.ofEvents heard) ∧
      ((∀ reason, result ≠ .error (.aborted reason)) ∧ left = replayed heard ∨
        e = .failed ∧ a.config.observer ≠ none ∧ (∃ reason, result = .error (.aborted reason)) ∧
          ∃ c, left = replayed heard ++ [c]) := by
  cases k with
  | zero =>
    obtain ⟨_, _, -, -, -, hstage⟩ := first_call a limit journal
    rw [hstage] at ended
    cases ended
  | succ j =>
    have hheard : (ofSolver a limit).heard journal (j + 2) =
        (ofSolver a limit).heard journal (j + 1) ++ [e] := by
      rw [heard_succ, told]
      rfl
    rw [hheard]
    have haccounts := accounts hs halive restartable limit journal j
    have hcall := takes hs limit journal j
    rw [told] at hcall
    generalize (ofSolver a limit).heard journal (j + 1) = events at haccounts ⊢
    generalize (ofSolver a limit).stage journal (j + 1 + 1) = after at hcall ended ⊢
    generalize (ofSolver a limit).stage journal (j + 1) = before at hcall haccounts
    generalize hsaid : some e = said at hcall
    cases hcall with
    | told => cases ended
    | last hup hmove last =>
      cases hsaid
      cases ended
      obtain ⟨hstats, hleft⟩ := hmove.accounts_last (haccounts rfl) last
      obtain ⟨hcounts, hreplayed⟩ := Stats.ofEvents_concat_last events result
      dsimp only
      rw [hcounts, hreplayed]
      refine ⟨hstats, hleft.imp_right ?_⟩
      rintro ⟨watched, ⟨reason, haborted⟩, hc⟩
      rw [hup.config] at watched
      exact ⟨congrArg lastEvent haborted, watched, ⟨reason, haborted⟩, hc⟩
    | past => cases hsaid

theorem undone (hs : a.system.Intact) (halive : AliveWaves a.system.waves)
    (restartable : a.Restartable) {k v p depth : Nat}
    (told : (ofSolver a limit).event journal k = some (.backtracked v p depth)) :
    (replayed ((ofSolver a limit).heard journal k)).length = depth + 1 ∧
      (replayed ((ofSolver a limit).heard journal k))[depth]? = some ⟨v, p⟩ := by
  obtain ⟨j, s, run, next, rfl, hstage, -, hmove, htold⟩ := recovery_call hs told rfl
  have haccounts := accounts hs halive restartable limit journal j
  rw [hstage] at haccounts
  exact hmove.removed (haccounts rfl) htold

theorem counts (hs : a.system.Intact) (halive : AliveWaves a.system.waves)
    (restartable : a.Restartable) {k : Nat} {stats : Stats}
    (success : ((ofSolver a limit).stage journal k).outcome = some (.ok stats)) :
    stats = Stats.ofEvents ((ofSolver a limit).heard journal k) := by
  induction k with
  | zero => cases success
  | succ k ih =>
    rcases call_cases hs limit journal k with ⟨_, -, -, h⟩ | ⟨result, told, h⟩ | ⟨_, h, -, same⟩
    · cases h.symm.trans success
    · exact (accounts_last hs halive restartable told success).1 stats rfl
    · rw [heard_succ, h]
      rw [same] at success
      simpa using ih success

end Kept

/-- **Every search from a well-formed vector without empty waves keeps to the protocol of its
events**, whatever its rules answer; in restart mode the reset vector must have no empty wave
either. -/
theorem protocol [Ord V] [Std.TransOrd V] (a : Solver V ρ) (hlaid : a.system.Laid) (hwf : a.system.WellFormed)
    (halive : AliveWaves a.system.waves) (restartable : a.Restartable) (limit : Nat)
    (journal : Journal) : Protocol (.ofSolver a limit) journal := by
  have hs := hlaid.intact hwf
  obtain ⟨n, result, before, hlast, running, after⟩ := ends hs limit journal
  refine ⟨?_, fun k v => recovered hs restartable, fun k e => recovers hs, ?_, ?_,
    fun k v p depth => undone hs halive restartable, fun k stats => counts hs halive restartable⟩
  · obtain ⟨next, e, begins, told, hevent, -⟩ := first_call a limit journal
    rw [hevent]
    cases begins with
    | alive =>
      cases told
      rfl
    | empty empty => exact absurd empty.2 (Bool.eq_false_iff.mp (halive _ empty.1))
  · refine ⟨n, result, before, ?_, running, after⟩
    cases result with
    | ok stats => exact .inl ⟨hlast, stats, rfl⟩
    | error cause => exact .inr ⟨hlast, cause, rfl⟩
  · intro k e told left result
    cases hended : result with
    | none => exact .inl ⟨nofun, (accounts hs halive restartable limit journal k hended).decisions⟩
    | some ended =>
      obtain ⟨-, hleft⟩ := accounts_last hs halive restartable told hended
      simp only [ne_eq, Option.some.injEq]
      exact hleft

/-- The odd ring with two states, searched with and without undoing decisions, and the even one,
whose observer stops the search at its first decision. -/
theorem protocol_rings :
    let undoing := ofSolver (Solver.ring 3 2 {} [7]) 5
    let restarting := ofSolver (Solver.ring 3 2 { backtracking := false } [7, 9, 11]) 2
    let observer : Observer := { verdict := fun _ => .error (.unknownVariable 2) }
    let stopped := ofSolver (Solver.ring 4 2 { observer := some observer } [7]) 5
    (undoing.Protocol .silent ∧ undoing.event .silent 12 = some (.contradiction 0) ∧
        undoing.event .silent 13 = some (.backtracked 0 0 0)) ∧
      (restarting.Protocol .silent ∧ restarting.event .silent 13 = some .restarted) ∧
      stopped.Protocol .silent ∧ stopped.event .silent 9 = some .failed ∧
        (stopped.stage .silent 10).solver.choices = [⟨0, 0⟩] ∧
        replayed (stopped.heard .silent 10) = [] := by
  intro undoing restarting observer stopped
  have two : (Layout.mk 0 2 2).Valid := by decide
  refine ⟨⟨?_, by decide +kernel, by decide +kernel⟩, ⟨?_, by decide +kernel⟩, ?_,
    by decide +kernel, by decide +kernel, by decide +kernel⟩
  · exact protocol (Solver.ring 3 2 {} [7]) (System.ring_laid 3 2) (System.ring_wellFormed two)
      (System.ring_alive two) nofun 5 .silent
  · refine protocol (Solver.ring 3 2 { backtracking := false } [7, 9, 11]) (System.ring_laid 3 2)
      (System.ring_wellFormed two) (System.ring_alive two) (fun _ ws hws => ?_) 2 .silent
    have hbuilt : (Problem.ring 3 2).system = .ok (System.ring 3 2) := rfl
    cases ((Problem.ring 3 2).system_waves hbuilt).symm.trans hws
    exact System.ring_alive two
  · exact protocol (Solver.ring 4 2 { observer := some observer } [7]) (System.ring_laid 4 2)
      (System.ring_wellFormed two) (System.ring_alive two) nofun 5 .silent

end Stepper
end WaveCollapse
