import WaveCollapse.Proofs.Propagation.Step
import WaveCollapse.Proofs.Search.Ring

/-! # Frontiers that guard

A connection is unsatisfied when its destination has a state that its source does not admit.  A
frontier guards a system when every such connection waits on it (`System.Guarded`), whatever else
is on it: frames of one variable more than once, of no variable at all, or past their connections.

One step keeps this up unless it meets a contradiction (`Guarded.step`).  The connection it relaxes
is satisfied from then on, with one exception: a loop, whose source is narrowed along with its
destination.  The fresh frame of the destination answers for the loop, and for every connection
that an older frame of this variable has passed and that the narrowing broke.  A push only adds
to what waits, so a run of pushes and steps guards as long as its start did (`Progresses.guarded`).
-/

namespace WaveCollapse

/-- The step emptied a wave. -/
def Relaxation.IsContradiction (r : Relaxation) : Prop := ∃ u v t, r = .contradiction u v t

namespace System
variable {V : Type} {s t : System V} {frontier g : Frontier}

/-- The destination of the connection numbered `i` of `u` has a state that `u` does not admit. -/
def Unsatisfied (s : System V) (u i : Nat) : Prop :=
  ∃ c, (s.outgoing u)[i]? = some c ∧ ¬ s.Satisfied u c

/-- Every unsatisfied connection waits on the frontier. -/
def Guarded (s : System V) (frontier : Frontier) : Prop :=
  ∀ u i, s.Unsatisfied u i → frontier.Waits u i

theorem guarded_iff_guardedFrom : s.Guarded frontier ↔ s.GuardedFrom (fun _ => True) frontier := by
  constructor
  · intro h u _ i c hc
    by_cases hsat : s.Satisfied u c
    · exact .inl hsat
    · exact .inr (h u i ⟨c, hc, hsat⟩)
  · rintro h u i ⟨c, hc, hsat⟩
    exact (h u trivial i c hc).resolve_left hsat

/-- A frontier with a frame for every variable guards. -/
theorem Linked.guarded_all (hs : s.Linked) : s.Guarded (.all s.size) := by
  rintro u i ⟨c, hc, -⟩
  exact Frontier.waits_all (hs.source_lt u c (Array.mem_of_getElem? hc)) i

namespace Guarded

theorem push (h : s.Guarded frontier) (v : Nat) : s.Guarded (frontier.push v) :=
  fun u i hu => (h u i hu).push v

/-- A step that meets no contradiction leaves a frontier that guards what it leaves of the
system. -/
theorem step (hs : s.Intact) (hblind : s.problem.rules.TemplateBlind) (h : s.Guarded frontier)
    (smooth : ¬ (s.propagateStep frontier).relaxation.IsContradiction) :
    (s.propagateStep frontier).system.Guarded (s.propagateStep frontier).frontier := by
  have hrelaxes := hs.propagateStep frontier
  have hnext := hrelaxes.guardedFrom hs hblind (guarded_iff_guardedFrom.mp h)
  have hall := hnext.resolve_left smooth
  exact guarded_iff_guardedFrom.mpr fun u _ => hall u (.inl trivial)

/-- Nothing is unsatisfied where the frontier guards and nothing waits on it. -/
theorem satisfied_of_idle (h : s.Guarded frontier)
    (hidle : (s.propagateStep frontier).relaxation = .idle) (u i : Nat) : ¬ s.Unsatisfied u i := by
  rintro ⟨c, hc, hsat⟩
  exact nextConnection_none (nextConnection_of_idle hidle) hc (h u i ⟨c, hc, hsat⟩)

end Guarded

/-! ## Runs of pushes and steps -/

/-- Pushes and steps lead from one system and frontier to another, and none of the steps meets a
contradiction. -/
inductive Progresses (s : System V) (frontier : Frontier) : System V → Frontier → Prop where
  | start : Progresses s frontier s frontier
  | pushed {t : System V} {g : Frontier} (before : Progresses s frontier t g) (v : Nat) :
      Progresses s frontier t (g.push v)
  | stepped {t : System V} {g : Frontier} (before : Progresses s frontier t g)
      (smooth : ¬ (t.propagateStep g).relaxation.IsContradiction) :
      Progresses s frontier (t.propagateStep g).system (t.propagateStep g).frontier

namespace Progresses

/-- A run changes nothing but waves. -/
theorem network (hs : s.Intact) (h : Progresses s frontier t g) :
    t.Intact ∧ t.problem = s.problem := by
  induction h with
  | start => exact ⟨hs, rfl⟩
  | pushed _ _ ih => exact ih
  | @stepped t g _ _ ih =>
    have hrelaxes := ih.1.propagateStep g
    exact ⟨hrelaxes.intact ih.1, hrelaxes.network.1.trans ih.2⟩

theorem guarded (hs : s.Intact) (hblind : s.problem.rules.TemplateBlind) (hg : s.Guarded frontier)
    (h : Progresses s frontier t g) : t.Guarded g := by
  induction h with
  | start => exact hg
  | pushed _ v ih => exact ih.push v
  | stepped before smooth ih =>
    obtain ⟨hintact, hproblem⟩ := before.network hs
    exact ih.step hintact (hproblem ▸ hblind) smooth

end Progresses

/-- **Every step of propagation keeps what is unsatisfied on the frontier.**  Over rules that read
nothing but the layout off a template, let every unsatisfied connection wait on a frontier.  Then
the same holds after any push, after any step that meets no contradiction, and so after any run of
both; wherever such a run finds nothing left to do, the step changes nothing and no connection is
unsatisfied.  On every frontier, guarding or not, a step finds all waves readable, and one that
meets a contradiction leaves no frame. -/
theorem frontier_guards [Ord V] [Std.TransOrd V] (hlaid : s.Laid) (hwf : s.WellFormed)
    (hblind : s.problem.rules.TemplateBlind) :
    (s.Guarded frontier →
      (∀ v, s.Guarded (frontier.push v)) ∧
      (¬ (s.propagateStep frontier).relaxation.IsContradiction →
        (s.propagateStep frontier).system.Guarded (s.propagateStep frontier).frontier) ∧
      ∀ t g, Progresses s frontier t g → t.Guarded g ∧
        ((t.propagateStep g).relaxation = .idle →
          (t.propagateStep g).system = t ∧ ∀ u i, ¬ t.Unsatisfied u i)) ∧
    (s.propagateStep frontier).relaxation ≠ .unreadable ∧
    ((s.propagateStep frontier).relaxation.IsContradiction →
      (s.propagateStep frontier).frontier = []) := by
  have hs := hlaid.intact hwf
  have hrelaxes := hs.propagateStep frontier
  refine ⟨fun hg => ⟨hg.push, hg.step hs hblind, ?_⟩, ?_, ?_⟩
  · intro t g hrun
    have hguarded := hrun.guarded hs hblind hg
    refine ⟨hguarded, fun hidle => ⟨?_, hguarded.satisfied_of_idle hidle⟩⟩
    rw [propagateStep_idle hidle]
  · generalize s.propagateStep frontier = next at hrelaxes
    intro h
    cases hrelaxes <;> cases h
  · generalize s.propagateStep frontier = next at hrelaxes
    rintro ⟨u, v, k, hk⟩
    cases hrelaxes with
    | idle | unchanged | narrowed => cases hk
    | contradiction => rfl

/-- Around a ring whose first vertex is down to one state the first step narrows the second vertex,
whose older frame has passed both of its connections; a frame of no vertex is no hindrance.  A lone
vertex joined to itself is done after two steps, or loses its only state along with its frontier. -/
theorem frontier_guards_ring :
    let s := System.ringOf 2 [[0], [0, 1], [0, 1], [0, 1]]
    let frontier : Frontier := ⟨9, 3⟩ :: ⟨1, 2⟩ :: Frontier.all 4
    let next := s.propagateStep frontier
    let loop := System.ringOf 2 [[0, 1]]
    let once := loop.propagateStep (.all 1)
    let twice := once.system.propagateStep once.frontier
    let dead := (System.ringOf 2 [[0]]).propagateStep [⟨0, 0⟩]
    next.relaxation = .narrowed 0 1 0 ∧ next.system.Guarded next.frontier ∧
      (∀ u i, ¬ twice.system.Unsatisfied u i) ∧
      dead.relaxation = .contradiction 0 0 0 ∧ dead.frontier = [] := by
  intro s frontier next loop once twice dead
  have hwf := System.ringOf_wellFormed (k := 2) (by decide)
  have hlaid := System.ringOf_laid 2
  have hblind := (Rules.differing_faithful 2).templateBlind
  have narrowed : next.relaxation = .narrowed 0 1 0 := by decide +kernel
  have hframes : s.Guarded frontier := by
    intro u i hu
    obtain ⟨f, hf, hw⟩ := (hlaid _).linked.guarded_all u i hu
    exact ⟨f, List.mem_cons_of_mem _ (List.mem_cons_of_mem _ hf), hw⟩
  have hnext := (frontier_guards (hlaid _) (hwf _) hblind).1 hframes
  have unchanged : once.relaxation = .unchanged 0 0 0 ∧ twice.relaxation = .unchanged 0 0 0 := by
    decide +kernel
  have hrun : loop.Progresses (.all 1) twice.system twice.frontier := by
    refine .stepped (.stepped .start ?_) ?_
    · rintro ⟨u, v, k, hk⟩
      cases unchanged.1.symm.trans hk
    · rintro ⟨u, v, k, hk⟩
      cases unchanged.2.symm.trans hk
  have hloop := (frontier_guards (hlaid [[0, 1]]) (hwf _) hblind).1 (hlaid _).linked.guarded_all
  have emptied : dead.relaxation = .contradiction 0 0 0 := by decide +kernel
  have hdead := (frontier_guards (hlaid [[0]]) (hwf _) hblind).2.2 ⟨0, 0, 0, emptied⟩
  refine ⟨narrowed, hnext.2.1 ?_, ((hloop.2.2 _ _ hrun).2 ?_).2, emptied, hdead⟩
  · rintro ⟨u, v, k, hk⟩
    cases narrowed.symm.trans hk
  · decide +kernel

end System
end WaveCollapse
