import WaveCollapse.Proofs.Search.Termination

/-! # What every search keeps, whatever its rules answer

Propagation, observation and recovery rely on the lengths of the vectors, on well-formed waves
and on connections that lead to variables; none of them relies on what the rules say.  So
`Solver.Upkeep` holds along every search over an intact system (`LeadsTo.upkeep`), and the
system that a search leaves is intact again, whether the search ended or was abandoned.

`System.History` lists the systems that come from one that was built: by setting waves, by
restoring vectors, by resets, by propagation and by earlier searches.  All of them are intact and
have the problem and the connections that were built (`History.intact`).
-/

namespace WaveCollapse

namespace Solver
variable {V ρ : Type} {start s t : Solver V ρ} {limit : Nat} {run r : Run}

/-! ## The steps of a search -/

/-- The first step changes no wave. -/
theorem Begins.waves {next : Stepped V ρ} (h : Begins start { limit } next) :
    next.solver.system = start.system := by
  cases h <;> rfl

theorem Upkeep.begin (hstart : start.system.Intact) {next : Stepped V ρ}
    (h : Begins start { limit } next) : Upkeep start limit next.solver next.run := by
  cases h with
  | alive halive => exact ⟨rfl, rfl, rfl, ⟨rfl, rfl⟩, hstart, fun _ => halive, fun _ => .nil,
      fun _ => rfl⟩
  | empty => exact ⟨rfl, rfl, rfl, ⟨rfl, rfl⟩, hstart, nofun, fun _ => .nil, fun _ => rfl⟩

/-- Every step leaves an intact system, the last one included. -/
theorem Move.intact (hs : s.system.Intact)
    (hundo : s.config.backtracking = true →
      List.Forall₂ (Undoable s.system.size) s.checkpoints s.choices)
    {next : Stepped V ρ} (hmove : Move s run next) :
    next.solver.system.Intact ∧ next.solver.system.problem = s.system.problem ∧
      next.solver.system.connections = s.system.connections := by
  cases hmove with
  | unchanged _ step | narrowed _ step | contradicted _ step =>
    exact ⟨step.intact hs, step.network⟩
  | observed _ _ chosen | aborted _ _ chosen =>
    obtain ⟨hv, -, -⟩ := mem_lowestCandidates.mp chosen
    refine ⟨hs.of_network ⟨rfl, rfl⟩ Array.size_setIfInBounds ?_, rfl, rfl⟩
    exact WellFormedWaves.set hs.wellFormed ((hs.wellFormed _ hv).single _)
  | @backtracked ws saved c choices _ mode checkpoints taken =>
    have hstacks := hundo mode
    rw [checkpoints, taken] at hstacks
    obtain ⟨undoable, -⟩ := List.forall₂_cons.mp hstacks
    refine ⟨hs.of_network ⟨rfl, rfl⟩ ?_ undoable.alternative_alive.1, rfl, rfl⟩
    exact (alternative_within ws c).size.trans undoable.size
  | restarted _ _ _ starting | restartedEmpty _ _ _ starting =>
    obtain ⟨hsize, hwf⟩ := Problem.startingWaves_spec _ starting
    exact ⟨hs.of_network ⟨rfl, rfl⟩ (hsize.trans hs.listed.symm) hwf, rfl, rfl⟩
  | solved | limited | exhausted | hopeless | unstartable => exact ⟨hs, rfl, rfl⟩

/-- An observation of a variable with two states or more can be undone. -/
theorem undoable_decided (hwf : s.system.WellFormed) (ha : AliveWaves s.system.waves) {v p : Nat}
    (chosen : v ∈ lowestCandidates s.system.waves) (mem : p ∈ s.system.wave v)
    (mode : s.config.backtracking = true)
    (hstacks : List.Forall₂ (Undoable s.system.size) s.checkpoints s.choices) (source : ρ)
    (reports : List Progress) :
    let next := s.decided v p source reports
    List.Forall₂ (Undoable next.system.size) next.checkpoints next.choices := by
  obtain ⟨hv, hpos, -⟩ := mem_lowestCandidates.mp chosen
  have hsize : (s.decided v p source reports).system.size = s.system.size :=
    Array.size_setIfInBounds
  intro next
  rw [decided_checkpoints mode, hsize]
  exact .cons ⟨rfl, hwf, ha, ⟨hv, mem⟩, (Wave.entropy_pos_iff (hwf v hv)).mp hpos⟩ hstacks

/-- Every event keeps a search up. -/
theorem Upkeep.move (h : Upkeep start limit s run) {next : Stepped V ρ} {e : Event}
    (hmove : Move s run next) (told : next.outcome = .event e) :
    Upkeep start limit next.solver next.run := by
  obtain ⟨hintact, hproblem, hconnections⟩ := hmove.intact h.intact h.undoing
  have hnet : next.solver.system.problem = start.system.problem ∧
      next.solver.system.connections = start.system.connections :=
    ⟨hproblem.trans h.network.1, hconnections.trans h.network.2⟩
  cases hmove with
  | @unchanged next _ _ _ on step what | @narrowed next _ _ _ on step what =>
    have hsize : next.system.size = s.system.size := (step.within_of_intact h.intact).size
    refine ⟨h.limit, h.begun, h.config, hnet, hintact, fun _ => ?_, hsize ▸ h.undoing,
      h.restarting⟩
    refine (step.alive (h.alive on)).resolve_left ?_
    rintro ⟨_, _, _, hc⟩
    cases what.symm.trans hc
  | @contradicted next _ _ _ on step what =>
    have hsize : next.system.size = s.system.size := (step.within_of_intact h.intact).size
    exact ⟨h.limit, h.begun, h.config, hnet, hintact, nofun, hsize ▸ h.undoing, h.restarting⟩
  | @observed v p source reports on idle chosen room mem =>
    obtain ⟨hv, -, -⟩ := mem_lowestCandidates.mp chosen
    refine ⟨h.limit, h.begun, h.config, hnet, hintact, fun _ => ?_, fun mode => ?_, fun mode => ?_⟩
    · exact (h.alive on).set_single (h.intact.wellFormed v hv) mem
    · exact undoable_decided h.intact.wellFormed (h.alive on) chosen mem mode (h.undoing mode) _ _
    · have mode' : s.config.backtracking = false := mode
      unfold decided
      rw [mode']
      exact h.restarting mode'
  | @backtracked ws saved c choices _ mode checkpoints taken =>
    have hstacks := h.undoing mode
    rw [checkpoints, taken] at hstacks
    obtain ⟨undoable, hbelow⟩ := List.forall₂_cons.mp hstacks
    have hsize : (s.undone ws saved c choices).system.size = s.system.size :=
      (alternative_within ws c).size.trans undoable.size
    exact ⟨h.limit, h.begun, h.config, hnet, hintact, fun _ => undoable.alternative_alive.2,
      fun _ => hsize ▸ hbelow, fun mode' => absurd mode (Bool.eq_false_iff.mp mode')⟩
  | restarted _ _ _ _ alive =>
    exact ⟨h.limit, h.begun, h.config, hnet, hintact, fun _ => alive, fun _ => .nil, fun _ => rfl⟩
  | restartedEmpty =>
    exact ⟨h.limit, h.begun, h.config, hnet, hintact, nofun, fun _ => .nil, fun _ => rfl⟩
  | aborted | solved | limited | exhausted | hopeless | unstartable => cases told

/-- A saved vector fits. -/
theorem Upkeep.restore_eq (h : Upkeep start limit s run) {ws : Array Wave}
    (hws : ws ∈ s.checkpoints) : s.system.restore ws = .ok { s.system with waves := ws } := by
  have hsize : ws.size = s.system.size := by
    cases mode : s.config.backtracking with
    | false =>
      rw [h.restarting mode] at hws
      cases hws
    | true =>
      have hstacks := h.undoing mode
      obtain ⟨i, hi, hget⟩ := List.mem_iff_getElem.mp hws
      have hundoable := (List.forall₂_iff_get.mp hstacks).2 i hi (hstacks.length_eq ▸ hi)
      rw [List.get_eq_getElem, hget] at hundoable
      exact hundoable.size
  unfold System.restore
  rw [if_pos hsize]

/-! ## Along a search -/

section Along
variable [PickSource ρ]

/-- A search over an intact system is at its beginning, or it is kept up and counted. -/
theorem LeadsTo.upkeep (hstart : start.system.Intact) (h : start.LeadsTo { limit } s run) :
    s = start ∧ run = { limit } ∨ Upkeep start limit s run ∧ Counted limit run := by
  induction h with
  | start => exact .inl ⟨rfl, rfl⟩
  | @step t r e _ told ih =>
    right
    rcases ih with ⟨rfl, rfl⟩ | ⟨hup, hcounted⟩
    · have hbegins := start_begins t { limit }
      exact ⟨.begin hstart hbegins, hbegins.counted⟩
    · exact ⟨hup.move hup.step_move told, hup.step_move.counted hcounted⟩

/-- A search that takes its last step has begun. -/
theorem LeadsTo.upkeep_of_finished (hstart : start.system.Intact)
    (h : start.LeadsTo { limit } s run) {result : Except CollapseError Stats}
    (last : (s.step run).outcome = .finished result) :
    Upkeep start limit s run ∧ Counted limit run := by
  rcases h.upkeep hstart with ⟨rfl, rfl⟩ | hkept
  · obtain ⟨e, told⟩ := start_told s { limit }
    cases told.symm.trans last
  · exact hkept

/-- The systems of a search are intact, up to the one that its last step leaves. -/
theorem LeadsTo.intact (hstart : start.system.Intact) (h : start.LeadsTo { limit } s run) :
    (s.system.Intact ∧ s.system.problem = start.system.problem ∧
      s.system.connections = start.system.connections) ∧
    (s.step run).solver.system.Intact ∧
      (s.step run).solver.system.problem = start.system.problem ∧
      (s.step run).solver.system.connections = start.system.connections := by
  rcases h.upkeep hstart with ⟨rfl, rfl⟩ | ⟨hup, -⟩
  · have hsame : (s.step { limit }).solver.system = s.system :=
      (start_begins s { limit }).waves
    rw [hsame]
    exact ⟨⟨hstart, rfl, rfl⟩, hstart, rfl, rfl⟩
  · obtain ⟨hintact, hproblem, hconnections⟩ := hup.step_move.intact hup.intact hup.undoing
    exact ⟨⟨hup.intact, hup.network⟩, hintact, hproblem.trans hup.network.1,
      hconnections.trans hup.network.2⟩

end Along
end Solver

/-- No event is taken after the end. -/
theorem Stepper.skip_of_outcome {V ρ : Type} [PickSource ρ] {st : Stepper V ρ}
    {result : Except CollapseError Stats} (ended : st.outcome = some result) (journal : Journal)
    (k : Nat) : st.skip journal k = (st, journal) := by
  induction k with
  | zero => rfl
  | succ k ih =>
    unfold skip
    rw [next_of_outcome ended]
    exact ih

/-- However many events are taken of a search, it stands where one of its steps begins, or it has
taken its last one. -/
theorem Stepper.skip_cases {V ρ : Type} [PickSource ρ] (a : Solver V ρ) (limit : Nat)
    (journal : Journal) (k : Nat) :
    let st := ((Stepper.ofSolver a limit).skip journal k).1
    (st.outcome = none ∧ a.LeadsTo { limit } st.solver st.run) ∨
      ∃ t r result, a.LeadsTo { limit } t r ∧ (t.step r).outcome = .finished result ∧
        st = ⟨(t.step r).solver, (t.step r).run, some result⟩ := by
  -- by induction on the events, from any point of the search
  have key : ∀ (st : Stepper V ρ) (journal : Journal), st.outcome = none →
      a.LeadsTo { limit } st.solver st.run →
      ((st.skip journal k).1.outcome = none ∧
        a.LeadsTo { limit } (st.skip journal k).1.solver (st.skip journal k).1.run) ∨
      ∃ t r result, a.LeadsTo { limit } t r ∧ (t.step r).outcome = .finished result ∧
        (st.skip journal k).1 = ⟨(t.step r).solver, (t.step r).run, some result⟩ := by
    induction k with
    | zero => exact fun st journal running hto => .inl ⟨running, hto⟩
    | succ k ih =>
      intro st journal running hto
      unfold skip
      cases told : (st.solver.step st.run).outcome with
      | event e =>
        rw [next_event running told]
        exact ih _ _ rfl (.step hto told)
      | finished result =>
        rw [next_finished running told]
        refine .inr ⟨_, _, result, hto, told, ?_⟩
        rw [skip_of_outcome rfl]
  exact key _ journal rfl .start

namespace System
variable {V : Type} {built s : System V}

/-! ## Systems with a history -/

/-- The system comes from the one that was built: by changes of its waves, by propagation from
some variable, by searches to their end and by searches that were abandoned on the way. -/
inductive History (built : System V) : System V → Prop where
  | built : History built built
  | setWave {s r : System V} {v : Nat} {w : Wave} (before : History built s)
      (wellFormed : w.WellFormed) (done : s.setWave v w = .ok r) : History built r
  | restored {s r : System V} {ws : Array Wave} (before : History built s)
      (wellFormed : WellFormedWaves ws) (done : s.restore ws = .ok r) : History built r
  | reset {s r : System V} (before : History built s) (done : s.reset = .ok r) : History built r
  | propagated {s : System V} (before : History built s) (origin : Nat) (journal : Journal) :
      History built (s.propagate origin journal).2.1
  | searched {ρ : Type} [PickSource ρ] {a : Solver V ρ} (before : History built a.system)
      (limit : Nat) (journal : Journal) : History built (a.collapse limit journal).solver.system
  | abandoned {ρ : Type} [PickSource ρ] {a : Solver V ρ} (before : History built a.system)
      (limit : Nat) (journal : Journal) (k : Nat) :
      History built ((Stepper.ofSolver a limit).skip journal k).1.solver.system

/-- **Whatever happened to it, a system is intact and has the network that was built.** -/
theorem History.intact (hbuilt : built.Intact) (h : built.History s) :
    s.Intact ∧ s.problem = built.problem ∧ s.connections = built.connections := by
  induction h with
  | built => exact ⟨hbuilt, rfl, rfl⟩
  | @setWave s r v w _ wellFormed done ih =>
    obtain ⟨hs, hp, hc⟩ := ih
    unfold System.setWave at done
    split at done
    · cases done
      exact ⟨hs.of_network ⟨rfl, rfl⟩ Array.size_setIfInBounds
        (WellFormedWaves.set hs.wellFormed wellFormed), hp, hc⟩
    · cases done
  | @restored s r ws _ wellFormed done ih =>
    obtain ⟨hs, hp, hc⟩ := ih
    unfold System.restore at done
    split at done
    · next hsize =>
      cases done
      exact ⟨hs.of_network ⟨rfl, rfl⟩ hsize wellFormed, hp, hc⟩
    · cases done
  | @reset s r _ done ih =>
    obtain ⟨hs, hp, hc⟩ := ih
    unfold System.reset at done
    obtain ⟨ws, hws, rfl⟩ := map_eq_ok_iff.mp done
    obtain ⟨hsize, hwf⟩ := s.problem.startingWaves_spec hws
    exact ⟨hs.of_network ⟨rfl, rfl⟩ (hsize.trans hs.listed.symm) hwf, hp, hc⟩
  | propagated _ origin journal ih =>
    obtain ⟨hs, hp, hc⟩ := ih
    obtain ⟨hended, ⟨hp', hc'⟩, -⟩ := hs.drain_keeps [{ v := origin }] journal
    exact ⟨hended, hp'.trans hp, hc'.trans hc⟩
  | @searched ρ _ a _ limit journal ih =>
    obtain ⟨hs, hp, hc⟩ := ih
    obtain ⟨t, r, hto, -, hended, -⟩ := a.collapse_last limit journal
    obtain ⟨-, hlast, hp', hc'⟩ := hto.intact hs
    rw [hended]
    exact ⟨hlast, hp'.trans hp, hc'.trans hc⟩
  | @abandoned ρ _ a _ limit journal k ih =>
    obtain ⟨hs, hp, hc⟩ := ih
    rcases Stepper.skip_cases a limit journal k with ⟨-, hto⟩ | ⟨t, r, result, hto, -, hended⟩
    · obtain ⟨⟨hnow, hp', hc'⟩, -⟩ := hto.intact hs
      exact ⟨hnow, hp'.trans hp, hc'.trans hc⟩
    · obtain ⟨-, hlast, hp', hc'⟩ := hto.intact hs
      rw [hended]
      exact ⟨hlast, hp'.trans hp, hc'.trans hc⟩

/-- A reset of any system over the network that was built gives the system that was built. -/
theorem reset_of_network [Ord V] {p : Problem V} (hbuilt : p.system = .ok built)
    (hnet : s.problem = built.problem ∧ s.connections = built.connections) :
    s.problem.startingWaves = .ok built.waves ∧ s.reset = .ok built := by
  have hwaves : s.problem.startingWaves = .ok built.waves := by
    rw [hnet.1, (p.system_laid hbuilt).1]
    exact p.system_waves hbuilt
  refine ⟨hwaves, ?_⟩
  rw [System.reset_eq hwaves]
  cases s
  cases built
  cases hnet.1
  cases hnet.2
  rfl

/-- A reset always gives the system that was built. -/
theorem History.reset_eq [Ord V] [Std.TransOrd V] {p : Problem V} (hbuilt : p.system = .ok built)
    (h : built.History s) : s.reset = .ok built := by
  obtain ⟨-, hlaid, hwf⟩ := p.system_laid hbuilt
  exact (reset_of_network hbuilt (h.intact (hlaid.intact hwf)).2).2

end System
end WaveCollapse
