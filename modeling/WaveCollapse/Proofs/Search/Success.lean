import WaveCollapse.Proofs.Propagation.Solutions
import WaveCollapse.Proofs.Search.Invariant
import WaveCollapse.Proofs.Search.Ring

/-! # A search that succeeds has found a solution

The last step of a successful search finds no wave with two states and no connection that
waits.  By the invariant no wave is empty then, and the frontier covers all connections, so
the waves have one state each and are arc consistent: they satisfy the system.  They lie
within the vector in force, which is what the search started with until a restart replaces
it by the starting waves.
-/

namespace WaveCollapse.Solver
variable {V ρ : Type}

/-- Where no connection waits and nothing is ambiguous, the waves are a solution inside the
vector in force. -/
theorem Invariant.solution {start s : Solver V ρ} {limit : Nat} {base : Array Wave} {run : Run}
    (hstart : start.system.Sound) (hinv : Invariant start limit base s run)
    (on : run.inconsistent = false) (idle : s.system.nextConnection s.frontier = none)
    (clear : ∀ v < s.system.size, (s.system.wave v).entropy = 0) :
    ∃ value, (∀ v < s.system.size, (s.system.wave v).components = [value v]) ∧
      s.system.Satisfies value ∧ Inside base value := by
  have hs := hinv.sound hstart
  obtain ⟨halive, hcovered, -⟩ := hinv.consistent on
  obtain ⟨value, hvalue⟩ := System.exists_value fun v hv =>
    Wave.components_of_entropy_zero (hs.wellFormed v hv) (halive v hv) (clear v hv)
  refine ⟨value, hvalue, (hcovered.arcConsistent idle).satisfies hs.linked hvalue, ?_⟩
  have hin : Inside s.system.waves value :=
    fun v hv => (Wave.mem_iff_eq_of_components (hvalue v hv)).mpr rfl
  exact hin.mono hinv.within_base

variable [Ord V] [Std.TransOrd V] [PickSource ρ]

/-- A search of a system that still has its starting waves finds a solution inside these, with
or without restarts, and leaves it in the waves. -/
theorem collapse_ok_within_starting (s : Solver V ρ) (hlaid : s.system.Laid)
    (hwf : s.system.WellFormed) (hrules : s.system.problem.rules.Faithful)
    (fresh : s.system.problem.startingWaves = .ok s.system.waves) (limit : Nat)
    (journal : Journal) {stats : Stats} (hok : (s.collapse limit journal).result = .ok stats) :
    let ended := (s.collapse limit journal).solver.system
    ended.problem = s.system.problem ∧ ended.size = s.system.size ∧
      ∃ value : Nat → Nat, (∀ v < s.system.size, (ended.wave v).resolvedState = some (value v)) ∧
        s.system.Satisfies value ∧ Inside s.system.waves value := by
  have hsound : s.system.Sound := hlaid.sound hwf hrules
  obtain ⟨base, t, run, next, hinv, -, hmove, hlast, hsolver, -⟩ :=
    s.collapse_ends limit hsound (P := fun _ _ => True)
      (fun _ _ => trivial) (fun _ _ _ _ _ _ _ _ _ => trivial) journal
  rw [hok] at hlast
  rw [hsolver]
  cases hmove with
  | solved on idle clear =>
    cases hlast
    obtain ⟨value, hvalue, hsat, hinside⟩ := hinv.solution hsound on idle clear
    have hbase : base = s.system.waves := by
      rcases hinv.inForce with ⟨-, -, hbase⟩ | ⟨-, hstarting⟩
      · exact hbase
      · exact Except.ok.inj (hstarting.symm.trans fresh)
    refine ⟨hinv.network.1, hinv.size, value, fun v hv => ?_, ?_, hbase ▸ hinside⟩
    · have hv' : v < t.system.size := Nat.lt_of_lt_of_eq hv hinv.size.symm
      exact Wave.resolvedState_of_components ((hinv.sound hsound).wellFormed v hv') (hvalue v hv')
    · exact hsat.of_network ⟨hinv.network.1.symm, hinv.network.2.symm⟩
  | unchanged | narrowed | contradicted | observed | aborted | limited | backtracked
  | exhausted | hopeless | restarted | restartedEmpty | unstartable => cases hlast

/-- **A search that ends well leaves a solution**: every variable is resolved, to a state of
the wave that it had when the run started or, after a restart, of its starting wave, and
together these states satisfy every connection. -/
theorem collapse_ok_satisfies (s : Solver V ρ) (hlaid : s.system.Laid)
    (hwf : s.system.WellFormed) (hrules : s.system.problem.rules.Faithful) (limit : Nat)
    (journal : Journal) {stats : Stats} (hok : (s.collapse limit journal).result = .ok stats) :
    let ended := (s.collapse limit journal).solver.system
    ∃ value : Nat → Nat, ended.size = s.system.size ∧
      (∀ v < s.system.size, (ended.wave v).components = [value v]) ∧
      s.system.Satisfies value ∧ ended.violations = [] ∧
      (stats.restarts = 0 → ∀ v < s.system.size, value v ∈ s.system.wave v) ∧
      (0 < stats.restarts →
        ∃ r, s.system.reset = .ok r ∧ ∀ v < s.system.size, value v ∈ r.wave v) := by
  have hsound : s.system.Sound := hlaid.sound hwf hrules
  obtain ⟨base, t, run, next, hinv, -, hmove, hlast, hsolver, -⟩ :=
    s.collapse_ends limit hsound (P := fun _ _ => True)
      (fun _ _ => trivial) (fun _ _ _ _ _ _ _ _ _ => trivial) journal
  rw [hok] at hlast
  rw [hsolver]
  cases hmove with
  | @solved source on idle clear notes =>
    cases hlast
    have ht := hinv.sound hsound
    obtain ⟨value, hvalue, hsat, hinside⟩ := hinv.solution hsound on idle clear
    have hin : ∀ v < s.system.size, value v ∈ waveAt base v := by
      intro v hv
      refine hinside v (Nat.lt_of_lt_of_eq hv ?_)
      exact hinv.size.symm.trans hinv.within_base.size
    refine ⟨value, hinv.size, fun v hv => ?_, ?_, ?_, ?_, ?_⟩
    · exact hvalue v (Nat.lt_of_lt_of_eq hv hinv.size.symm)
    · exact hsat.of_network ⟨hinv.network.1.symm, hinv.network.2.symm⟩
    · exact (System.violations_eq_nil_iff ht.wellFormed ht.linked hvalue).mpr hsat
    · intro hzero
      rcases hinv.inForce with ⟨-, -, hbase⟩ | ⟨hpos, -⟩
      · rw [hbase] at hin
        exact hin
      · exact absurd hzero (Nat.pos_iff_ne_zero.mp hpos)
    · intro hpos
      rcases hinv.inForce with ⟨hzero, -, -⟩ | ⟨-, hstarting⟩
      · exact absurd hzero (Nat.pos_iff_ne_zero.mp hpos)
      · exact ⟨_, System.reset_eq hstarting, hin⟩
  | unchanged | narrowed | contradicted | observed | aborted | limited | backtracked
  | exhausted | hopeless | restarted | restartedEmpty | unstartable => cases hlast

/-- A ring of four vertices is coloured with two states after one observation. -/
theorem collapse_ring_four :
    let ended := (Solver.ring 4 2 {} [7]).collapse 5 .silent
    ended.result = .ok ⟨1, 0, 0, 16⟩ ∧
      ∃ value, (∀ v < 4, (ended.solver.system.wave v).components = [value v]) ∧
        (System.ring 4 2).Satisfies value ∧ ∀ v < 4, value v ∈ (System.ring 4 2).wave v := by
  have hok : ((Solver.ring 4 2 {} [7]).collapse 5 .silent).result = .ok ⟨1, 0, 0, 16⟩ :=
    drive_result_of_within (n := 18) (by decide +kernel) _
  obtain ⟨value, -, hone, hsat, -, hin, -⟩ := collapse_ok_satisfies (Solver.ring 4 2 {} [7])
    (System.ring_laid 4 2) (System.ring_wellFormed (by decide))
    (Rules.differing_faithful 2) 5 .silent hok
  exact ⟨hok, value, hone, hsat, hin rfl⟩

end WaveCollapse.Solver
