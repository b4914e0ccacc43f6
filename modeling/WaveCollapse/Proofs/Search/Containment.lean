import WaveCollapse.Proofs.Rules.Served
import WaveCollapse.Proofs.Search.Confined

/-! # The classes of a system throughout its life

`System.Lived` lists what happens to a system that is only reset, propagated, searched and put
back to what it was at some moment.  All of these leave its waves within those that were built
(`Lived.within`): masks come from rules over other classes, but they only take states away, and a
vector that is put back was within the built one when it was taken.  So every wave keeps its
layout, and its states are among those that its class got from the registry.

The list also says whether a contradiction stands, which is the one way for a variable that was
built with a state to have none (`Lived.alive`).
-/

namespace WaveCollapse

/-! ## Where a search leaves no wave empty -/

namespace Solver
variable {V ρ : Type} {start s : Solver V ρ} {limit : Nat} {run : Run}

/-- The last step of a search whose resets succeed leaves no wave empty, unless the search is
exhausted. -/
theorem Move.alive_of_finished (hup : Upkeep start limit s run) {ws : Array Wave}
    (hreset : start.system.problem.startingWaves = .ok ws) {next : Stepped V ρ}
    (hmove : Move s run next) {result : Except CollapseError Stats}
    (last : next.outcome = .finished result) :
    (∃ o b, result = .error (.exhausted o b)) ∨ AliveWaves next.solver.system.waves := by
  cases hmove with
  | solved on | limited on => exact .inr (hup.alive on)
  | aborted on _ chosen _ mem =>
    obtain ⟨hv, -, -⟩ := mem_lowestCandidates.mp chosen
    exact .inr ((hup.alive on).set_single (hup.intact.wellFormed _ hv) mem)
  | exhausted | hopeless =>
    cases last
    exact .inl ⟨_, _, rfl⟩
  | unstartable _ _ _ starting =>
    rw [hup.network.1, hreset] at starting
    cases starting
  | unchanged | narrowed | contradicted | observed | backtracked | restarted | restartedEmpty =>
    cases last

end Solver

/-- The search stands where a contradiction does: one that it has not recovered from, or that it is
exhausted by.  Before its first step it is the one that stood `before`. -/
def Stepper.Contradicted {V ρ : Type} (st : Stepper V ρ) (before : Prop) : Prop :=
  match st.outcome with
  | some result => ∃ o b, result = .error (.exhausted o b)
  | none => if st.run.initialized then st.run.inconsistent = true else before

/-- Wherever a search is abandoned, a contradiction stands, or no wave is empty, or it has not
begun. -/
theorem Stepper.skip_alive {V ρ : Type} [PickSource ρ] {a : Solver V ρ} (ha : a.system.Intact)
    {ws : Array Wave} (hreset : a.system.problem.startingWaves = .ok ws) (limit : Nat)
    (journal : Journal) (k : Nat) {before : Prop} :
    let st := ((Stepper.ofSolver a limit).skip journal k).1
    st.Contradicted before ∨ AliveWaves st.solver.system.waves ∨
      st.solver.system = a.system ∧ (before → st.Contradicted before) := by
  intro st
  rcases skip_cases a limit journal k with ⟨running, hto⟩ | ⟨t, r, result, hto, last, hended⟩
  · have hcontradicted : st.Contradicted before =
        if st.run.initialized then st.run.inconsistent = true else before := by
      unfold Contradicted
      rw [running]
    rw [hcontradicted]
    rcases hto.upkeep ha with ⟨hsolver, hrun⟩ | ⟨hup, -⟩
    · refine .inr (.inr ⟨congrArg Solver.system hsolver, fun h => ?_⟩)
      rw [hrun]
      exact h
    · rw [hup.begun, if_pos rfl]
      cases off : st.run.inconsistent with
      | true => exact .inl rfl
      | false => exact .inr (.inl (hup.alive off))
  · have hst : st = ⟨(t.step r).solver, (t.step r).run, some result⟩ := hended
    rw [hst]
    obtain ⟨hup, -⟩ := hto.upkeep_of_finished ha last
    exact (hup.step_move.alive_of_finished hup hreset last).imp_right .inl

namespace System
variable {V : Type} {built s : System V} {met : Prop}

/-! ## The life of a system -/

/-- What a system that was built can become by resets, by propagation from any variable, by
searches to their end, by searches that are abandoned on the way, and by putting back what it was
at some moment; and whether a contradiction then stands. -/
inductive Lived (built : System V) : System V → Prop → Prop where
  | built : Lived built built False
  | reset {s r : System V} {met : Prop} (before : Lived built s met) (done : s.reset = .ok r) :
    Lived built r False
  | restored {s t r : System V} {met met' : Prop} (before : Lived built s met)
      (taken : Lived built t met') (done : s.restore t.waves = .ok r) : Lived built r met'
  | propagated {s : System V} {met : Prop} (before : Lived built s met) (origin : Nat)
      (journal : Journal) :
    Lived built (s.propagate origin journal).2.1
      (met ∨ ∃ v, (s.propagate origin journal).1 = .error (.contradiction v))
  | searched {ρ : Type} [PickSource ρ] {a : Solver V ρ} {met : Prop}
      (before : Lived built a.system met) (limit : Nat) (journal : Journal) :
    Lived built (a.collapse limit journal).solver.system
      (∃ o b, (a.collapse limit journal).result = .error (.exhausted o b))
  | abandoned {ρ : Type} [PickSource ρ] {a : Solver V ρ} {met : Prop}
      (before : Lived built a.system met) (limit : Nat) (journal : Journal) (k : Nat) :
    Lived built ((Stepper.ofSolver a limit).skip journal k).1.solver.system
      (((Stepper.ofSolver a limit).skip journal k).1.Contradicted met)

/-- A vector that is put back was well-formed when it was taken. -/
theorem Lived.history (hbuilt : built.Intact) (h : built.Lived s met) : built.History s := by
  induction h with
  | built => exact .built
  | reset _ done ih => exact .reset ih done
  | restored _ _ done ih taken =>
    exact .restored ih (taken.intact hbuilt).1.wellFormed done
  | propagated _ origin journal ih => exact .propagated ih origin journal
  | searched _ limit journal ih => exact .searched ih limit journal
  | abandoned _ limit journal k ih => exact .abandoned ih limit journal k

section Built
variable [Ord V] [Std.TransOrd V] {p : Problem V}

/-- What a system that was built becomes is intact, and its resets give what was built. -/
theorem Lived.intact (hbuilt : p.system = .ok built) (h : built.Lived s met) :
    s.Intact ∧ s.problem.startingWaves = .ok built.waves ∧ s.reset = .ok built := by
  obtain ⟨-, hlaid, hwf⟩ := p.system_laid hbuilt
  obtain ⟨hs, hnet⟩ := (h.history (hlaid.intact hwf)).intact (hlaid.intact hwf)
  exact ⟨hs, reset_of_network hbuilt hnet⟩

/-- **Nothing that happens to a system adds a state to its waves.** -/
theorem Lived.within (hbuilt : p.system = .ok built) (h : built.Lived s met) :
    Within s.waves built.waves := by
  induction h with
  | built => exact .refl _
  | reset before done =>
    cases (before.intact hbuilt).2.2.symm.trans done
    exact .refl _
  | restored _ _ done _ taken =>
    unfold System.restore at done
    split at done
    · cases done
      exact taken
    · cases done
  | propagated before origin journal ih =>
    exact ((before.intact hbuilt).1.drain_keeps [{ v := origin }] journal).2.2.trans ih
  | @searched ρ _ a _ before limit journal ih =>
    obtain ⟨hs, hreset, -⟩ := before.intact hbuilt
    obtain ⟨t, r, hto, -, hended, -⟩ := a.collapse_last limit journal
    rw [hended]
    exact (hto.within hs ih hreset).2
  | @abandoned ρ _ a _ before limit journal k ih =>
    obtain ⟨hs, hreset, -⟩ := before.intact hbuilt
    rcases Stepper.skip_cases a limit journal k with ⟨-, hto⟩ | ⟨t, r, result, hto, -, hended⟩
    · exact (hto.within hs ih hreset).1
    · rw [hended]
      exact (hto.within hs ih hreset).2

/-- **As long as no contradiction stands, a variable that was built with a state has one.** -/
theorem Lived.alive (hbuilt : p.system = .ok built) (h : built.Lived s met) (clear : ¬ met)
    {v : Nat} (hv : v < built.size) (hhad : (built.wave v).isEmpty = false) :
    (s.wave v).isEmpty = false := by
  induction h with
  | built => exact hhad
  | reset before done =>
    cases (before.intact hbuilt).2.2.symm.trans done
    exact hhad
  | restored _ _ done _ taken =>
    unfold System.restore at done
    split at done
    · cases done
      exact taken clear
    · cases done
  | propagated before origin journal ih =>
    rw [not_or] at clear
    rcases (before.intact hbuilt).1.drain_emptied [{ v := origin }] journal with
      ⟨-, hsame⟩ | ⟨u, -, herror, -⟩
    · exact (hsame v).trans (ih clear.1)
    · exact absurd ⟨u, herror⟩ clear.2
  | @searched ρ _ a _ before limit journal ih =>
    obtain ⟨hs, hreset, -⟩ := before.intact hbuilt
    have hwithin := (Lived.searched before limit journal).within hbuilt
    obtain ⟨t, r, hto, last, hended, -⟩ := a.collapse_last limit journal
    obtain ⟨hup, -⟩ := hto.upkeep_of_finished hs last
    have halive := (hup.step_move.alive_of_finished hup hreset last).resolve_left clear
    rw [← hended] at halive
    exact halive v (Nat.lt_of_lt_of_eq hv hwithin.size.symm)
  | @abandoned ρ _ a _ before limit journal k ih =>
    obtain ⟨hs, hreset, -⟩ := before.intact hbuilt
    have hwithin := (Lived.abandoned before limit journal k).within hbuilt
    rcases (Stepper.skip_alive hs hreset limit journal k).resolve_left clear with
      halive | ⟨hsame, hstill⟩
    · exact halive v (Nat.lt_of_lt_of_eq hv hwithin.size.symm)
    · rw [hsame]
      exact ih fun h => clear (hstill h)

/-- **A variable never leaves its class**, whatever happens to its system.  Over rules that are made
from a registry and served in any way, its wave keeps the layout that the registry gives to the class
of its vertex, and all of its states are those of registered modules of this class.  Where the vertex
forces a module of the class, the state of this module is all that the wave has; it is lost only
where a contradiction stands. -/
theorem lived_contained {types : List String} {duals : List Nat} {modules : List (String × Nat)}
    {registry : Registry} (registered : Registry.register types duals modules = .ok registry)
    {set : RuleSet} (tables : set.Over registry) (served : Rules.Served set.rules p.rules)
    (stride : p.stride = registry.stride) (hbuilt : p.system = .ok built)
    (h : built.Lived s met) :
    s.size = p.topology.vertices.length ∧
    ∀ i v, p.topology.vertices[i]? = some v → ∃ c, p.classOf i v = .ok c ∧
      (s.wave i).WellFormed ∧
      (s.wave i).layout = ⟨c, registry.stride, registry.classSize c⟩ ∧
      (∀ x ∈ (s.wave i).components, ∃ m ∈ registry.modules,
        m.state = x ∧ m.classId = c ∧ registry.nameOf x = some m.name) ∧
      ∀ m ∈ registry.modules, m.classId = c → p.forcedAt v = some m.state →
        (s.wave i).components = [m.state] ∨ (s.wave i).components = [] ∧ met := by
  have hlawful := Registry.lawful_of_register registered
  have hlayout : ∀ c, p.layoutOf c = ⟨c, registry.stride, registry.classSize c⟩ := by
    intro c
    unfold Problem.layoutOf
    rw [stride, served.eq set.faithful, tables.shape.1]
  have hs := (h.intact hbuilt).1
  have hwithin := h.within hbuilt
  have hsize : s.size = p.topology.vertices.length := by
    obtain ⟨hp, hlaid, -⟩ := p.system_laid hbuilt
    rw [← hp]
    exact hwithin.size.trans hlaid.size
  refine ⟨hsize, fun i v hv => ?_⟩
  have hi : i < s.size := Nat.lt_of_lt_of_eq (List.getElem?_eq_some_iff.mp hv).1 hsize.symm
  obtain ⟨c, hc, hl, hforced⟩ := p.startingWave_class (p.startingWave_at (p.system_waves hbuilt) hv)
  rw [hlayout] at hl hforced
  have hsub : s.wave i ⊆ waveAt built.waves i := hwithin.subset i
  refine ⟨c, hc, hs.wellFormed i hi, hsub.1.trans hl, fun x hx => ?_, fun m hm hclass hat => ?_⟩
  · have hstates := Wave.mem_states_of_mem (hsub.2 x hx)
    rw [hl] at hstates
    obtain ⟨m, hm, hclass, hstate⟩ := hlawful.mem_states_iff.mp hstates
    exact ⟨m, hm, hstate, hclass, hlawful.nameOf_eq_some_iff.mpr ⟨m, hm, hstate, rfl⟩⟩
  · have honly := hforced m.state (hlawful.mem_states_iff.mpr ⟨m, hm, hclass, rfl⟩) hat
    by_cases hmem : m.state ∈ s.wave i
    · refine .inl (Wave.components_eq_singleton fun q => ⟨fun hq => ?_, fun hq => ?_⟩)
      · exact (honly q).mp (hsub.2 q hq)
      · rwa [hq]
    · have hnone : ∀ q, q ∉ s.wave i := by
        intro q hq
        rw [(honly q).mp (hsub.2 q hq)] at hq
        exact hmem hq
      refine .inr ⟨List.eq_nil_iff_forall_not_mem.mpr hnone, ?_⟩
      by_contra clear
      -- the wave was built with the forced state, so a contradiction took it
      have hv' : i < built.size := Nat.lt_of_lt_of_eq hi hwithin.size
      have hwf := (p.system_laid hbuilt).2.2 i hv'
      have hhad := (Wave.isEmpty_eq_false_iff hwf).mpr ⟨m.state, (honly _).mpr rfl⟩
      obtain ⟨q, hq⟩ := (Wave.isEmpty_eq_false_iff (hs.wellFormed i hi)).mp
        (h.alive hbuilt clear hv' hhad)
      exact hnone q hq

end Built

/-- A corridor of three vertices whose last one is a door. -/
def corridor (rules : Rules) (stride : Nat) : Problem Int where
  topology := Graph.topology
    { vertices := [0, 1, 2]
      edges := [(0, ⟨1, 0, true⟩), (1, ⟨0, 0, false⟩), (1, ⟨2, 0, true⟩), (2, ⟨1, 0, false⟩)]
      attributes := [("class", 2, 2), ("module", 2, 4)] }
  rules
  stride
  classAttribute := some "class"
  boundaryAttribute := some "module"

/-- The door of a corridor, of a class of its own with an unused one before it, is nothing but a
door after a search that was abandoned and a propagation. -/
theorem lived_contained_corridor :
    ∃ registry table built, Registry.register ["E"] [0] [("floor", 0), ("wall", 0), ("door", 2)] =
        .ok registry ∧
      AdjacencyTable.ofTuples registry [⟨0, 1, 0⟩, ⟨0, 4, 0⟩] = .ok table ∧
      (corridor table.rules registry.stride).system = .ok built ∧
      let a : Solver Int WordStream := { system := built, source := ⟨#[], 0, [7]⟩ }
      let left := ((Stepper.ofSolver a 5).skip .silent 3).1.solver.system
      let s := (left.propagate 1 .silent).2.1
      (s.wave 2).layout = ⟨2, 2, 1⟩ ∧
        ∀ x ∈ (s.wave 2).components, registry.nameOf x = some "door" := by
  have hreg : Registry.register ["E"] [0] [("floor", 0), ("wall", 0), ("door", 2)] = .ok
      ⟨[⟨"floor", 0, 0⟩, ⟨"wall", 0, 1⟩, ⟨"door", 2, 4⟩], #[2, 0, 1], ["E"], #[0]⟩ := by
    decide +kernel
  obtain ⟨table, htable, built, hbuilt⟩ : ∃ table, AdjacencyTable.ofTuples
      ⟨[⟨"floor", 0, 0⟩, ⟨"wall", 0, 1⟩, ⟨"door", 2, 4⟩], #[2, 0, 1], ["E"], #[0]⟩
      [⟨0, 1, 0⟩, ⟨0, 4, 0⟩] = .ok table ∧
      ∃ built, (corridor table.rules 2).system = .ok built := ⟨_, rfl, _, rfl⟩
  have hset : (RuleSet.adjacency table).Over _ := ⟨_, htable⟩
  refine ⟨_, table, built, hreg, htable, hbuilt, ?_⟩
  intro a left s
  obtain ⟨-, hvertices⟩ := lived_contained hreg hset (.plain _) rfl hbuilt
    (.propagated (.abandoned (a := a) .built 5 .silent 3) 1 .silent)
  obtain ⟨c, hc, -, hlayout, hmodules, -⟩ := hvertices 2 2 rfl
  cases hc
  refine ⟨hlayout, fun x hx => ?_⟩
  obtain ⟨m, hm, -, hclass, hname⟩ := hmodules x hx
  have hdoor : ∀ m ∈ [(⟨"floor", 0, 0⟩ : Module), ⟨"wall", 0, 1⟩, ⟨"door", 2, 4⟩],
      m.classId = 2 → m.name = "door" := by decide
  rw [hname, hdoor m hm hclass]

end System
end WaveCollapse
