import Mathlib.Data.Finset.Card
import WaveCollapse.Proofs.Propagation.Solutions
import WaveCollapse.Proofs.Search.Script
import WaveCollapse.Proofs.Search.Upkeep

/-! # Searches that follow an assignment

An assignment that satisfies every connection is never lost to propagation, so a search that gives
every variable it observes its state of the assignment keeps the assignment inside its waves
(`Solver.Guided`).  Such a search meets no contradiction, since a contradiction leaves a variable
without a state, and it has nothing to recover from.  Every observation resolves a variable that had
a choice, and no step gives a choice back, so there are no more observations than variables; when no
choice is left, the waves have the states of the assignment and no others.

For every assignment there is such a search: its picks can be written down in advance
(`Solver.exists_picks`).  Nothing but an observation looks at the picks, and an observation takes
them from the front, so the picks that a search needs are those of its next step before those of
the rest.
-/

namespace WaveCollapse

/-! ## Variables with a choice -/

theorem Wave.entropy_pos_of_subset {w v : Wave} (hw : w.WellFormed) (hv : v.WellFormed)
    (h : w ⊆ v) (hpos : 0 < w.entropy) : 0 < v.entropy := by
  rw [Wave.entropy_pos_iff hv]
  exact Nat.le_trans ((Wave.entropy_pos_iff hw).mp hpos)
    (Wave.nodup_components.length_le_of_subset h.2)

namespace System
variable {V : Type} {s t : System V}

/-- The variables that have more than one state. -/
def ambiguous (s : System V) : Finset Nat :=
  (Finset.range s.size).filter fun v => 0 < (s.wave v).entropy

theorem mem_ambiguous {v : Nat} : v ∈ s.ambiguous ↔ v < s.size ∧ 0 < (s.wave v).entropy := by
  unfold ambiguous
  rw [Finset.mem_filter, Finset.mem_range]

theorem card_ambiguous_le (s : System V) : s.ambiguous.card ≤ s.size := by
  unfold ambiguous
  exact (Finset.card_filter_le _ _).trans_eq (Finset.card_range _)

/-- Where states are only taken away, no variable gets a choice back. -/
theorem ambiguous_subset (hs : s.WellFormed) (ht : t.WellFormed) (h : Within t.waves s.waves) :
    t.ambiguous ⊆ s.ambiguous := by
  intro v hv
  obtain ⟨hlt, hpos⟩ := mem_ambiguous.mp hv
  have hlt' : v < s.size := Nat.lt_of_lt_of_eq hlt h.size
  exact mem_ambiguous.mpr
    ⟨hlt', Wave.entropy_pos_of_subset (ht v hlt) (hs v hlt') (h.subset v) hpos⟩

/-- A variable that is collapsed has no choice left. -/
theorem card_ambiguous_lt (hs : s.WellFormed) {v p : Nat} (hv : v ∈ s.ambiguous)
    (mem : p ∈ s.wave v) :
    ({ s with waves := s.waves.setIfInBounds v ((s.wave v).single p) } : System V).ambiguous.card <
      s.ambiguous.card := by
  obtain ⟨hlt, -⟩ := mem_ambiguous.mp hv
  have hwv := hs v hlt
  have hsub := ambiguous_subset
    (t := { s with waves := s.waves.setIfInBounds v ((s.wave v).single p) }) hs
    (WellFormedWaves.set hs (hwv.single p)) (within_set (Wave.single_subset hwv.readable mem))
  refine Finset.card_lt_card ⟨hsub, fun hback => ?_⟩
  obtain ⟨-, hpos⟩ := mem_ambiguous.mp (hback hv)
  rw [System.wave_eq, waveAt_set_self hlt, Wave.entropy_pos_iff (hwv.single p),
    Wave.components_single hwv.readable mem] at hpos
  exact Nat.lt_irrefl _ hpos

end System

/-- An event of a search that only goes forward, observing states of the assignment. -/
def Event.Forward (f : Nat → Nat) : Event → Prop
  | initialized _ | propagated .. => True
  | observed v p => p = f v
  | contradiction _ | backtracked .. | restarted | completed | failed => False

/-- The search ended well at the assignment of `n` variables and never went back. -/
def Ending.Attains {V ρ : Type} (ended : Ending V ρ) (n : Nat) (f : Nat → Nat) : Prop :=
  ∃ stats, ended.result = .ok stats ∧ stats.backtracks = 0 ∧ stats.restarts = 0 ∧
    ∀ v < n, (ended.solver.system.wave v).components = [f v]

namespace Solver
variable {V ρ : Type} {start s : Solver V ρ} {limit : Nat} {run : Run} {f : Nat → Nat}

/-! ## What such a search keeps -/

/-- What holds between the steps of a search that observes states of the assignment only. -/
structure Guided (start : Solver V ρ) (limit : Nat) (f : Nat → Nat) (s : Solver V ρ) (run : Run) :
    Prop where
  upkeep : Upkeep start limit s run
  on : run.inconsistent = false
  inside : Inside s.system.waves f
  unbroken : run.backtracks = 0 ∧ run.restarts = 0
  counted : run.observations + s.system.ambiguous.card ≤ start.system.size

theorem Guided.begin {next : Stepped V ρ} (h : Begins start { limit } next)
    (hstart : start.system.Intact) (hin : Inside start.system.waves f) :
    Guided start limit f next.solver next.run ∧
      ∃ e, next.outcome = .event e ∧ e.Forward f := by
  cases h with
  | alive halive =>
    refine ⟨⟨.begin hstart (.alive halive), rfl, hin, ⟨rfl, rfl⟩, ?_⟩, _, rfl, trivial⟩
    exact (Nat.zero_add _).trans_le start.system.card_ambiguous_le
  | empty hempty =>
    exact absurd hin (not_inside_of_isEmpty hstart.wellFormed hempty.1 hempty.2 f)

/-- Every event of such a search goes forward. -/
theorem Guided.move (h : Guided start limit f s run)
    (hrules : start.system.problem.rules.Faithful) (hf : start.system.Satisfies f)
    {next : Stepped V ρ} (hmove : Move s run next) {e : Event} (told : next.outcome = .event e)
    (follows : ∀ v p, e = .observed v p → p = f v) :
    Guided start limit f next.solver next.run ∧ e.Forward f := by
  have hs : s.system.Sound := h.upkeep.intact.sound (h.upkeep.network.1 ▸ hrules)
  have hf' : s.system.Satisfies f := hf.of_network h.upkeep.network
  have hup := h.upkeep.move hmove told
  cases hmove with
  | @unchanged next _ _ _ _ step | @narrowed next _ _ _ _ step =>
    cases told
    have hfewer := Finset.card_le_card
      (System.ambiguous_subset hs.wellFormed hup.intact.wellFormed (step.within hs))
    exact ⟨⟨hup, h.on, step.inside hs hf' h.inside, h.unbroken,
      Nat.le_trans (Nat.add_le_add_left hfewer _) h.counted⟩, trivial⟩
  | @contradicted next _ v _ _ step what =>
    -- the assignment stays inside, so no variable is left without a state
    obtain ⟨hv, -, hempty⟩ := step.emptied hs.intact what
    have hv' : v < next.system.waves.size :=
      Nat.lt_of_lt_of_eq hv (step.within hs).size.symm
    exact absurd (step.inside hs hf' h.inside)
      (not_inside_of_isEmpty hup.intact.wellFormed hv' hempty f)
  | @observed v p source reports _ _ chosen _ mem =>
    cases told
    cases follows v p rfl
    obtain ⟨hv, hpos, -⟩ := mem_lowestCandidates.mp chosen
    have hwv := hs.wellFormed v hv
    have hfewer := System.card_ambiguous_lt hs.wellFormed (System.mem_ambiguous.mpr ⟨hv, hpos⟩) mem
    have hcounted := h.counted
    refine ⟨⟨hup, h.on, ?_, h.unbroken, ?_⟩, rfl⟩
    · exact (inside_set_iff hv (Wave.single_subset hwv.readable mem)).mpr
        ⟨h.inside, (Wave.mem_single hwv.readable mem).mpr rfl⟩
    · show run.observations + 1 + (s.decided v (f v) source reports).system.ambiguous.card ≤ _
      have hlt : (s.decided v (f v) source reports).system.ambiguous.card <
        s.system.ambiguous.card := hfewer
      omega
  | aborted | solved | limited | exhausted | hopeless | unstartable => cases told
  | backtracked off | restarted off | restartedEmpty off =>
    exact absurd off (Bool.eq_false_iff.mp h.on)

/-- The last step of such a search finds all variables resolved to the assignment, unless its
observations do not suffice. -/
theorem Guided.finished (hstart : start.system.Intact) (unobserved : start.config.observer = none)
    (h : Guided start limit f s run) {next : Stepped V ρ} (hmove : Move s run next)
    {result : Except CollapseError Stats} (last : next.outcome = .finished result) :
    (∃ stats, result = .ok stats ∧ stats.backtracks = 0 ∧ stats.restarts = 0 ∧
        ∀ v < start.system.size, (next.solver.system.wave v).components = [f v]) ∨
      result = .error (.stepLimit limit) ∧ limit < start.system.size := by
  have hsize := hstart.size_eq h.upkeep.intact h.upkeep.network.1
  cases hmove with
  | solved _ _ clear =>
    cases last
    refine .inl ⟨run.stats, rfl, h.unbroken.1, h.unbroken.2, fun v hv => ?_⟩
    have hv' : v < s.system.size := Nat.lt_of_lt_of_eq hv hsize.symm
    obtain ⟨p, hp⟩ := Wave.components_of_entropy_zero (h.upkeep.intact.wellFormed v hv')
      (h.upkeep.alive h.on v hv') (clear v hv')
    have hmem : f v ∈ s.system.wave v := h.inside v hv'
    rw [(Wave.mem_iff_eq_of_components hp).mp hmem]
    exact hp
  | limited _ _ chosen full =>
    cases last
    obtain ⟨hv, hpos, -⟩ := mem_lowestCandidates.mp chosen
    have hpos' := Finset.card_pos.mpr ⟨_, System.mem_ambiguous.mpr ⟨hv, hpos⟩⟩
    have hcounted := h.counted
    have hlimit := h.upkeep.limit
    exact .inr ⟨congrArg (Except.error ∘ CollapseError.stepLimit) hlimit, by omega⟩
  | aborted _ _ _ _ _ watched => exact absurd (h.upkeep.config ▸ unobserved) watched
  | unchanged | narrowed | contradicted | observed | backtracked | restarted | restartedEmpty =>
    cases last
  | exhausted off | hopeless off | unstartable off => exact absurd off (Bool.eq_false_iff.mp h.on)

section Along
variable [PickSource ρ]

/-- Every variable that the search observes gets its state of the assignment. -/
def Follows (start : Solver V ρ) (run : Run) (f : Nat → Nat) : Prop :=
  ∀ t r v p, start.LeadsTo run t r → (t.step r).outcome = .event (.observed v p) → p = f v

/-- After every event of a search that follows an assignment, it is guided. -/
theorem LeadsTo.guided (hs : start.system.Sound) (hf : start.system.Satisfies f)
    (hin : Inside start.system.waves f) (follows : start.Follows { limit } f)
    (h : start.LeadsTo { limit } s run) {e : Event} (told : (s.step run).outcome = .event e) :
    Guided start limit f (s.step run).solver (s.step run).run ∧ e.Forward f := by
  induction h generalizing e with
  | start =>
    obtain ⟨hguided, e', told', hforward⟩ :=
      Guided.begin (start_begins start { limit }) hs.intact hin
    cases told'.symm.trans told
    exact ⟨hguided, hforward⟩
  | @step t r e' before told' ih =>
    have hguided := (ih told').1
    exact hguided.move hs.faithful hf hguided.upkeep.step_move told
      fun v p he => follows _ _ v p (.step before told') (told.trans (congrArg _ he))

/-- Between its steps such a search is at its beginning, or guided. -/
theorem LeadsTo.guided_or (hs : start.system.Sound) (hf : start.system.Satisfies f)
    (hin : Inside start.system.waves f) (follows : start.Follows { limit } f)
    (h : start.LeadsTo { limit } s run) :
    s = start ∧ run = { limit } ∨ Guided start limit f s run := by
  cases h with
  | start => exact .inl ⟨rfl, rfl⟩
  | step before told => exact .inr (before.guided hs hf hin follows told).1

/-- A search that follows an assignment attains it, unless its observations do not suffice. -/
theorem Follows.attains (follows : start.Follows { limit } f) (hs : start.system.Sound)
    (unobserved : start.config.observer = none) (hf : start.system.Satisfies f)
    (hin : Inside start.system.waves f) (journal : Journal) :
    (start.collapse limit journal).Attains start.system.size f ∨
      (start.collapse limit journal).result = .error (.stepLimit limit) ∧
        limit < start.system.size := by
  obtain ⟨t, r, hto, last, hended, -⟩ := start.collapse_last limit journal
  rcases hto.guided_or hs hf hin follows with ⟨rfl, rfl⟩ | hguided
  · obtain ⟨e, told⟩ := start_told t { limit }
    cases told.symm.trans last
  · have hend := hguided.finished hs.intact unobserved hguided.upkeep.step_move last
    rw [← hended] at hend
    exact hend

/-! ## Picks that make a search follow -/

/-- A search follows an assignment if its first step does and what is left of it does. -/
theorem Follows.of_step (first : ∀ v p, (s.step run).outcome = .event (.observed v p) → p = f v)
    (later : ∀ e, (s.step run).outcome = .event e →
      (s.step run).solver.Follows (s.step run).run f) : s.Follows run f := by
  intro t r v p hto told
  rcases hto.start_or_later with ⟨rfl, rfl⟩ | ⟨e, told', hlater⟩
  · exact first v p told
  · exact later e told' t r v p hlater told

end Along

/-- What guides a search does not depend on its picks. -/
theorem Guided.drawing (h : Guided start limit f s run) (picks : List Nat) :
    Guided (start.drawing []) limit f (s.drawing picks) run :=
  ⟨⟨h.upkeep.limit, h.upkeep.begun, h.upkeep.config, h.upkeep.network, h.upkeep.intact,
    h.upkeep.alive, h.upkeep.undoing, h.upkeep.restarting⟩, h.on, h.inside, h.unbroken, h.counted⟩

/-- From where a search is guided, some picks make it follow the assignment to its end. -/
theorem Guided.exists_picks {start : Solver V Script} (s : Solver V Script) (run : Run)
    (h : Guided start limit f s run) (hrules : start.system.problem.rules.Faithful)
    (hf : start.system.Satisfies f) : ∃ picks, (s.drawing picks).Follows run f := by
  obtain ⟨front, next, hnext, follows⟩ := step_steered h.upkeep.intact h.inside h.on
  have hstep : ∀ rest, (s.drawing (front ++ rest)).step run = next.drawing rest := hnext
  cases told : next.outcome with
  | finished result =>
    refine ⟨front ++ [], .of_step ?_ ?_⟩
    · rw [hstep]
      exact follows
    · rw [hstep]
      exact fun e he => nomatch told.symm.trans he
  | event e =>
    have hthere := h.drawing (front ++ [])
    have hmove := hthere.upkeep.step_move
    rw [hstep] at hmove
    have hguided := (hthere.move hrules hf hmove told
      fun v p he => follows v p (told.trans (congrArg _ he))).1
    -- the picks of this step stand before those of the rest, which the step leaves alone
    obtain ⟨later, hlater⟩ := Guided.exists_picks _ _ hguided hrules hf
    refine ⟨front ++ later, .of_step ?_ ?_⟩
    · rw [hstep]
      exact follows
    · rw [hstep]
      exact fun _ _ => hlater
termination_by s.potential run
decreasing_by
  have told' : ((s.drawing (front ++ [])).step run).outcome = .event e := by
    rw [hstep]
    exact told
  have hbelow := step_below told'
  rw [hstep] at hbelow
  exact hbelow

/-- **Every assignment inside the waves that satisfies the system is followed by some search.** -/
theorem exists_picks (hs : start.system.Sound) (hf : start.system.Satisfies f)
    (hin : Inside start.system.waves f) (limit : Nat) :
    ∃ picks, (start.drawing picks).Follows { limit } f := by
  have hbegins := (start.drawing []).start_begins { limit }
  rw [start_drawing] at hbegins
  obtain ⟨hguided, e, told, hforward⟩ := Guided.begin hbegins hs.intact hin
  obtain ⟨picks, hlater⟩ := hguided.exists_picks _ _ hs.faithful hf
  have hstep : (start.drawing picks).step { limit } = (start.start { limit }).drawing picks :=
    start.start_drawing { limit } picks
  refine ⟨picks, .of_step (fun v p hp => ?_) ?_⟩
  · rw [hstep] at hp
    cases told.symm.trans hp
    exact hforward
  · rw [hstep]
    exact fun _ _ => hlater

/-- **Every solution can be generated.**  Over rules that keep their promise, take any assignment
inside the waves that satisfies all connections, and any search that gives each variable it observes
its state of the assignment, whichever variable it selects and in whichever way it would recover.
All of its events go forward and the assignment stays inside the waves: it meets no contradiction,
undoes nothing and never restarts.  It ends with exactly the assignment, unless it is allowed fewer
observations than there are variables.  And there is such a search: with some picks written down in
advance and as many observations as variables, the assignment is what comes out. -/
theorem collapse_guided [PickSource ρ] [Ord V] [Std.TransOrd V] (s : Solver V ρ)
    (hlaid : s.system.Laid) (hwf : s.system.WellFormed)
    (hrules : s.system.problem.rules.Faithful) (unobserved : s.config.observer = none)
    (hf : s.system.Satisfies f) (hin : Inside s.system.waves f) (limit : Nat) :
    (s.Follows { limit } f →
      (∀ e t, (e, t) ∈ s.passed { limit } → e.Forward f ∧ Inside t.system.waves f) ∧
      ∀ journal, (s.collapse limit journal).Attains s.system.size f ∨
        (s.collapse limit journal).result = .error (.stepLimit limit) ∧ limit < s.system.size) ∧
    (s.system.size ≤ limit → ∃ picks, (s.drawing picks).Follows { limit } f ∧
      ∀ journal, ((s.drawing picks).collapse limit journal).Attains s.system.size f) := by
  have hs : s.system.Sound := hlaid.sound hwf hrules
  refine ⟨fun follows => ⟨fun e t hpassed => ?_, follows.attains hs unobserved hf hin⟩,
    fun enough => ?_⟩
  · obtain ⟨u, r, hto, told, rfl⟩ := mem_passed_iff.mp hpassed
    obtain ⟨hguided, hforward⟩ := hto.guided hs hf hin follows told
    exact ⟨hforward, hguided.inside⟩
  · obtain ⟨picks, follows⟩ := exists_picks hs hf hin limit
    refine ⟨picks, follows, fun journal => ?_⟩
    exact (follows.attains hs unobserved hf hin journal).resolve_right
      fun hcut => absurd enough (Nat.not_le_of_lt hcut.2)

/-- A colouring of the ring of five with one vertex coloured beforehand and another one restricted
comes out of a search that never undoes anything. -/
theorem collapse_guided_ring :
    let s := Solver.ringOf 3 [[0, 1, 2], [1], [0, 2], [0, 1, 2], [0, 1, 2]]
      { backtracking := false } []
    let colours := [0, 1, 2, 0, 1]
    ∃ picks, ∀ v < 5, (((s.drawing picks).collapse 5 .silent).solver.system.wave v).components =
      [colours.getD v 0] := by
  intro s colours
  have hvalid : (Layout.mk 0 3 3).Valid := by decide
  have hlaid := System.ringOf_laid 3 [[0, 1, 2], [1], [0, 2], [0, 1, 2], [0, 1, 2]]
  have hf : s.system.Satisfies fun v => colours.getD v 0 := by
    have hproper : ∀ u < 5, ∀ c ∈ (s.system.outgoing u).toList,
        colours.getD u 0 ≠ colours.getD c.destination 0 := by decide +kernel
    intro u c hc
    have hu : u < 5 := hlaid.linked.source_lt u c hc
    exact bne_iff_ne.mpr (hproper u hu c (Array.mem_toList_iff.mpr hc))
  have hin : Inside s.system.waves fun v => colours.getD v 0 := by
    intro v hv
    have hmem : ∀ v < 5, colours.getD v 0 ∈ s.system.wave v := by decide +kernel
    exact hmem v hv
  obtain ⟨picks, -, hattains⟩ := (collapse_guided s hlaid
    (System.ringOf_wellFormed hvalid _) (Rules.differing_faithful 3) rfl hf hin 5).2 (by decide)
  obtain ⟨stats, -, -, -, hvalues⟩ := hattains .silent
  exact ⟨picks, hvalues⟩

end Solver
end WaveCollapse
