import WaveCollapse.Proofs.Propagation.Step

/-! # Assignments that satisfy every connection

An assignment satisfies a system when the rules allow its states at the ends of every
connection (`System.Satisfies`).  It is then an arc consistent family with one state a
variable, so propagation never takes one of its states away (`Relaxes.inside`).  In the other
direction, resolved waves that are arc consistent are a satisfying assignment, and then the
system reports no violation.
-/

namespace WaveCollapse
namespace System
variable {V : Type} {s t : System V} {f : Nat → Nat}

/-- The rules allow the states that `f` puts at the ends of every connection. -/
def Satisfies (s : System V) (f : Nat → Nat) : Prop :=
  ∀ u, ∀ c ∈ s.outgoing u, s.problem.rules.allows (f u) c.kind (f c.destination) = true

theorem Satisfies.of_network (h : s.Satisfies f)
    (hnet : t.problem = s.problem ∧ t.connections = s.connections) : t.Satisfies f := by
  unfold Satisfies outgoing at h ⊢
  rw [hnet.1, hnet.2]
  exact h

theorem Satisfies.arcConsistent (h : s.Satisfies f) : s.ArcConsistent fun v p => p = f v := by
  rintro u c hc y rfl
  exact ⟨f u, rfl, h u c hc⟩

/-- A satisfying assignment inside the waves stays inside when a connection is relaxed. -/
theorem Relaxes.inside (hs : s.Sound) (hf : s.Satisfies f) (hin : Inside s.waves f)
    {frontier : Frontier} {next : Propagated V} (h : s.Relaxes frontier next) :
    Inside next.system.waves f := by
  have hcontains : Contains s.waves fun v p => p = f v := by
    rintro v hv p rfl
    exact hin v hv
  intro v hv
  exact h.contains hs hf.arcConsistent hcontains v hv (f v) rfl

/-! ## Resolved systems -/

/-- A system is resolved when every variable has one state. -/
theorem fullyResolved_iff (hwf : s.WellFormed) :
    s.fullyResolved = true ↔ ∀ v < s.size, ∃ p, (s.wave v).components = [p] := by
  unfold fullyResolved
  rw [Array.all_eq_true]
  refine forall_congr' fun v => forall_congr' fun hv => ?_
  have hwave : s.wave v = s.waves[v] := waveAt_eq_getElem hv
  rw [← hwave]
  exact Wave.isResolved_iff (hwf v hv)

/-- The states of a system that is resolved. -/
theorem exists_value (h : ∀ v < s.size, ∃ p, (s.wave v).components = [p]) :
    ∃ value : Nat → Nat, ∀ v < s.size, (s.wave v).components = [value v] := by
  have hone : ∀ v, ∃ p, v < s.size → (s.wave v).components = [p] := by
    intro v
    by_cases hv : v < s.size
    · obtain ⟨p, hp⟩ := h v hv
      exact ⟨p, fun _ => hp⟩
    · exact ⟨0, fun hv' => absurd hv' hv⟩
  exact Classical.axiomOfChoice hone

/-- Arc consistent waves with one state each are a satisfying assignment. -/
theorem ArcConsistent.satisfies (h : s.ArcConsistent (members s.waves)) (hl : s.Linked)
    (hf : ∀ v < s.size, (s.wave v).components = [f v]) : s.Satisfies f := by
  intro u c hc
  have hmem : ∀ v < s.size, ∀ p, p ∈ s.wave v ↔ p = f v :=
    fun v hv p => Wave.mem_iff_eq_of_components (hf v hv)
  have hd : f c.destination ∈ s.wave c.destination :=
    (hmem _ (hl.destination_lt u c hc) _).mpr rfl
  obtain ⟨x, hx, ha⟩ := h u c hc (f c.destination) hd
  rwa [(hmem u (hl.source_lt u c hc) x).mp hx] at ha

/-- A resolved system reports no violation exactly when its states satisfy it. -/
theorem violations_eq_nil_iff (hwf : s.WellFormed) (hl : s.Linked)
    (hf : ∀ v < s.size, (s.wave v).components = [f v]) :
    s.violations = [] ↔ s.Satisfies f := by
  have hstate : ∀ v < s.size, (s.wave v).resolvedState = some (f v) :=
    fun v hv => Wave.resolvedState_of_components (hwf v hv) (hf v hv)
  have hfrom : ∀ u < s.size, s.violationsFrom u = [] ↔
      ∀ c ∈ s.outgoing u, s.problem.rules.allows (f u) c.kind (f c.destination) = true := by
    intro u hu
    unfold violationsFrom
    rw [hstate u hu, List.filterMap_eq_nil_iff]
    refine forall_congr' fun c => ?_
    rw [Array.mem_toList_iff]
    refine forall_congr' fun hc => ?_
    rw [hstate c.destination (hl.destination_lt u c hc)]
    simp
  unfold violations
  rw [List.flatMap_eq_nil_iff]
  constructor
  · intro h u c hc
    have hu := hl.source_lt u c hc
    exact (hfrom u hu).mp (h u (List.mem_range.mpr hu)) c hc
  · intro h u hu
    exact (hfrom u (List.mem_range.mp hu)).mpr (h u)

end System
end WaveCollapse
