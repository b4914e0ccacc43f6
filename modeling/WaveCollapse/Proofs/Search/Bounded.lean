import WaveCollapse.Proofs.Search.Exhaustion
import WaveCollapse.Proofs.Search.Success
import WaveCollapse.Proofs.Search.Volume

/-! # Search with backtracking is bounded and complete

What remains of a search starts at the volume of its waves and never grows, so a search with
backtracking makes fewer observations than that.  With a limit that allows as many, and nobody
to stop it, it can end in two ways only: with a solution, or exhausted, and then there is none.
-/

namespace WaveCollapse.Solver
variable {V ρ : Type} [PickSource ρ] {s : Solver V ρ} {limit : Nat}

theorem step_of_alive (halive : AliveWaves s.system.waves) :
    s.step { limit } = ⟨.event (.initialized s.system.size),
      s.renewed s.system.waves (.all s.system.size), { limit, initialized := true }, []⟩ :=
  start_of_alive halive { limit }

/-- Where a search with backtracking ends, it has lost no solution and made fewer observations
than the volume that it started with. -/
theorem collapse_ends_within (hstart : s.system.Sound)
    (mode : s.config.backtracking = true) (halive : AliveWaves s.system.waves) (limit : Nat)
    (journal : Journal) :
    ∃ base t run next, Invariant s limit base t run ∧ Lossless s.system t run ∧
      run.backtracks + t.remaining run ≤ volume s.system.waves ∧ Move t run next ∧
      next.outcome = .finished (s.collapse limit journal).result ∧
      (s.collapse limit journal).run = next.run := by
  have hend := s.collapse_ends limit hstart
    (P := fun t run => Lossless s.system t run ∧
      run.backtracks + t.remaining run ≤ volume s.system.waves) ?_ ?_ journal
  · obtain ⟨base, t, run, next, hinv, ⟨hlossless, hbound⟩, hmove, hlast, -, hrun⟩ := hend
    exact ⟨base, t, run, next, hinv, hlossless, hbound, hmove, hlast, hrun⟩
  · intro next h
    refine ⟨.begin h, ?_⟩
    cases h with
    | alive =>
      rw [remaining_of_consistent rfl]
      show 0 + (volume s.system.waves + 0) ≤ _
      omega
    | empty hempty =>
      exact absurd (halive _ hempty.1) (by rw [← System.wave_eq, hempty.2]; simp)
  · intro base t run next e hinv h hmove told
    refine ⟨h.1.move hstart hinv hmove told, ?_⟩
    exact Nat.le_trans (hmove.remaining_le hstart hinv (hinv.config ▸ mode) told) h.2

omit [PickSource ρ] in
/-- With its last step too a search stays below a volume that it remains within. -/
theorem Move.observations_lt_of_finished {t : Solver V ρ} {base : Array Wave} {run : Run}
    (hinv : Invariant s limit base t run) (mode : t.config.backtracking = true) {bound : Nat}
    (hbound : run.backtracks + t.remaining run ≤ bound) {next : Stepped V ρ}
    (hmove : Move t run next) {result : Except CollapseError Stats}
    (last : next.outcome = .finished result) : next.run.observations < bound := by
  cases hmove with
  | aborted on _ chosen => exact observations_succ_lt hinv mode hbound on chosen
  | solved | limited | exhausted => exact observations_lt hinv mode hbound
  | hopeless _ mode' | unstartable _ mode' => exact absurd mode (Bool.eq_false_iff.mp mode')
  | unchanged | narrowed | contradicted | observed | backtracked | restarted
  | restartedEmpty => cases last

omit [PickSource ρ] in
/-- A search that nobody stops, with a limit that allows as many observations as its volume,
ends with a solution or exhausted, and then there is none. -/
theorem Move.verdict {t : Solver V ρ} {base : Array Wave} {run : Run}
    (hstart : s.system.Sound) (hinv : Invariant s limit base t run)
    (hlossless : Lossless s.system t run) (mode : s.config.backtracking = true)
    (unwatched : s.config.observer = none)
    (hbound : run.backtracks + t.remaining run ≤ limit + 1) {next : Stepped V ρ}
    (hmove : Move t run next) {result : Except CollapseError Stats}
    (last : next.outcome = .finished result) :
    (∃ stats, result = .ok stats) ∧ (∃ f, Inside s.system.waves f ∧ s.system.Satisfies f) ∨
      (∃ observations backtracks, result = .error (.exhausted observations backtracks)) ∧
        ¬ ∃ f, Inside s.system.waves f ∧ s.system.Satisfies f := by
  have hmode : t.config.backtracking = true := hinv.config ▸ mode
  cases hmove with
  | solved on idle clear =>
    cases last
    obtain ⟨value, -, hsat, hin⟩ := hinv.solution hstart on idle clear
    have hbase : base = s.system.waves := by
      rcases hinv.inForce with ⟨-, -, hbase⟩ | ⟨hpos, -⟩
      · exact hbase
      · exact absurd (hinv.undoing mode).2.1 (Nat.pos_iff_ne_zero.mp hpos)
    rw [hbase] at hin
    exact .inl ⟨⟨_, rfl⟩, value, hin,
      hsat.of_network ⟨hinv.network.1.symm, hinv.network.2.symm⟩⟩
  | exhausted off _ nothing =>
    cases last
    refine .inr ⟨⟨_, _, rfl⟩, ?_⟩
    rintro ⟨f, hin, hf⟩
    exact hlossless.refuted hinv off hmode nothing f hin hf
  | limited on _ chosen full =>
    -- one more observation would still be within the volume, hence within the limit
    have hmore := observations_succ_lt hinv hmode hbound on chosen
    rw [hinv.limit] at full
    omega
  | aborted _ _ _ _ _ watched => exact absurd unwatched (hinv.config ▸ watched)
  | hopeless _ mode' | unstartable _ mode' => exact absurd hmode (Bool.eq_false_iff.mp mode')
  | unchanged | narrowed | contradicted | observed | backtracked | restarted
  | restartedEmpty => cases last

variable [Ord V] [Std.TransOrd V]

/-- **Search with backtracking is bounded, does not repeat itself, and is complete.**  It makes
fewer observations than there are assignments inside the waves it starts with, and no two of
them leave the same stack of decisions.  So with a limit that allows as many observations and
no observer to stop it, it ends well when some assignment inside the waves satisfies all
connections, and exhausted when there is none. -/
theorem collapse_bounded_complete (s : Solver V ρ) (hlaid : s.system.Laid)
    (hwf : s.system.WellFormed) (hrules : s.system.problem.rules.Faithful)
    (mode : s.config.backtracking = true) (halive : AliveWaves s.system.waves) (limit : Nat)
    (journal : Journal) :
    (s.collapse limit journal).run.observations ≤ volume s.system.waves - 1 ∧
      (s.observedStacks { limit }).Nodup ∧
      (s.config.observer = none → volume s.system.waves - 1 ≤ limit →
        (∀ n, (s.collapse limit journal).result ≠ .error (.stepLimit n)) ∧
        ((∃ stats, (s.collapse limit journal).result = .ok stats) ↔
          ∃ f, Inside s.system.waves f ∧ s.system.Satisfies f) ∧
        ((∃ observations backtracks, (s.collapse limit journal).result =
            .error (.exhausted observations backtracks)) ↔
          ¬ ∃ f, Inside s.system.waves f ∧ s.system.Satisfies f)) := by
  have hsound : s.system.Sound := hlaid.sound hwf hrules
  obtain ⟨base, t, run, next, hinv, hlossless, hbound, hmove, hlast, hrun⟩ :=
    collapse_ends_within hsound mode halive limit journal
  refine ⟨?_, ?_, fun unwatched hlimit => ?_⟩
  · have hlt := hmove.observations_lt_of_finished hinv (hinv.config ▸ mode) hbound hlast
    rw [hrun]
    exact Nat.le_sub_one_of_lt hlt
  · -- the first event is no observation, and after it the invariant holds
    rw [observedStacks_of_event (congrArg Stepped.outcome (step_of_alive halive))]
    rw [step_of_alive halive]
    exact (nodup_observedStacks hsound mode _ _ (Invariant.begin hsound (.alive halive))).1
  · have hwithin : run.backtracks + t.remaining run ≤ limit + 1 := by omega
    rcases hmove.verdict hsound hinv hlossless mode unwatched hwithin hlast with
      ⟨⟨stats, hok⟩, hsolution⟩ | ⟨⟨observations, backtracks, hend⟩, hnone⟩
    · rw [hok]
      refine ⟨fun _ h => ?_, ⟨fun _ => hsolution, fun _ => ⟨stats, rfl⟩⟩, ?_, ?_⟩
      · cases h
      · rintro ⟨_, _, h⟩
        cases h
      · intro hnone
        exact absurd hsolution hnone
    · rw [hend]
      refine ⟨fun _ h => ?_, ⟨?_, ?_⟩, ⟨fun _ => hnone, fun _ => ⟨_, _, rfl⟩⟩⟩
      · cases h
      · rintro ⟨_, h⟩
        cases h
      · intro hsolution
        exact absurd hsolution hnone

/-- The ring of four vertices has a colouring with two states, so a search with room for all
of its sixteen assignments but one finds one. -/
theorem collapse_ring_four_ok :
    volume (System.ring 4 2).waves = 16 ∧
      ∃ stats, ((Solver.ring 4 2 {} [7]).collapse 15 .silent).result = .ok stats := by
  have hvalid : (Layout.mk 0 2 2).Valid := by decide
  have hvolume : volume (System.ring 4 2).waves = 16 := by decide +kernel
  have hin : Inside (System.ring 4 2).waves (· % 2) :=
    fun v hv => (System.mem_wave_ring hvalid hv).mpr (Nat.mod_lt v (by decide))
  have hends : ∀ u < 4, ∀ c ∈ ((System.ring 4 2).outgoing u).toList,
      (u % 2 != c.destination % 2) = true := by decide +kernel
  have hsat : (System.ring 4 2).Satisfies (· % 2) := by
    intro u c hc
    have hu := (System.ring_laid 4 2).linked.source_lt u c hc
    exact hends u hu c (Array.mem_toList_iff.mpr hc)
  obtain ⟨-, -, hcomplete⟩ := collapse_bounded_complete (Solver.ring 4 2 {} [7])
    (System.ring_laid 4 2) (System.ring_wellFormed hvalid) (Rules.differing_faithful 2) rfl
    (System.ring_alive hvalid) 15 .silent
  have hlimit : volume (System.ring 4 2).waves - 1 ≤ 15 := by omega
  exact ⟨hvolume, (hcomplete rfl hlimit).2.1.mpr ⟨_, hin, hsat⟩⟩

end WaveCollapse.Solver
