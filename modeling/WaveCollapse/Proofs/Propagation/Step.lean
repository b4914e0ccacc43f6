import WaveCollapse.Proofs.Rules.Admitted
import WaveCollapse.Proofs.System.Laid
import WaveCollapse.Propagation

/-! # One step of propagation

A connection *supports* a family of states when every state at its destination is allowed by
some state at its source; a family that every connection supports is arc consistent.  The
frontier *covers* the connections that the waves do not support: some frame of the source has
yet to come to them, be it all of the connections (`System.Covered`) or those that leave some
variables (`System.CoveredFrom`).

`System.Relaxes` lists what one step can do.  From it follow, for every frontier: a step
leaves the waves within what they were (`Relaxes.within`), keeps the frontier's cover unless
it meets a contradiction (`Relaxes.coveredFrom`), and takes no state away that belongs to an arc
consistent family (`Relaxes.contains`).  A narrowed wave may break connections that leave its
variable, also ones that older frames of the same variable have passed; the fresh frame on
top makes up for all of them.  For the cover it is enough that the rules answer alike for
templates of one layout (`Relaxes.guardedFrom`).
-/

namespace WaveCollapse

/-- A set of states for every variable. -/
abbrev Family := Nat → Nat → Prop

/-- The members of the waves of a vector. -/
def members (ws : Array Wave) : Family := fun v p => p ∈ waveAt ws v

/-- The vector holds every state of the family. -/
def Contains (ws : Array Wave) (G : Family) : Prop := ∀ v < ws.size, ∀ p, G v p → p ∈ waveAt ws v

/-- Some frame of `u` has yet to come to the connection numbered `i`. -/
def Frontier.Waits (frontier : Frontier) (u i : Nat) : Prop :=
  ∃ f ∈ frontier, f.v = u ∧ f.next ≤ i

/-- One frame a variable, the first variable on top. -/
def Frontier.all (n : Nat) : Frontier := (List.range n).map ({ v := · })

theorem Frontier.waits_all {n u : Nat} (hu : u < n) (i : Nat) : (Frontier.all n).Waits u i :=
  ⟨{ v := u }, List.mem_map.mpr ⟨u, List.mem_range.mpr hu, rfl⟩, rfl, Nat.zero_le i⟩

/-- All connections of a variable wait once it is pushed. -/
theorem Frontier.waits_push (frontier : Frontier) (v i : Nat) : (frontier.push v).Waits v i :=
  ⟨{ v }, List.mem_cons_self, rfl, Nat.zero_le i⟩

theorem Frontier.Waits.push {frontier : Frontier} {u i : Nat} (h : frontier.Waits u i) (v : Nat) :
    (frontier.push v).Waits u i := by
  obtain ⟨f, hf, hfu, hle⟩ := h
  exact ⟨f, List.mem_cons_of_mem _ hf, hfu, hle⟩

namespace System
variable {V : Type} {s : System V} {frontier : Frontier}

/-- Every state at the destination is allowed by some state at the source. -/
def Supports (s : System V) (G : Family) (u : Nat) (c : Connection) : Prop :=
  ∀ y, G c.destination y → ∃ x, G u x ∧ s.problem.rules.allows x c.kind y = true

/-- Every connection supports the family. -/
def ArcConsistent (s : System V) (G : Family) : Prop := ∀ u, ∀ c ∈ s.outgoing u, s.Supports G u c

/-- Every connection supports the waves or waits on the frontier. -/
def Covered (s : System V) (frontier : Frontier) : Prop :=
  ∀ u (i : Nat) c, (s.outgoing u)[i]? = some c →
    s.Supports (members s.waves) u c ∨ frontier.Waits u i

/-- Every connection that leaves one of the variables `D` supports the waves or waits on the
frontier. -/
def CoveredFrom (s : System V) (D : Nat → Prop) (frontier : Frontier) : Prop :=
  ∀ u, D u → ∀ (i : Nat) c, (s.outgoing u)[i]? = some c →
    s.Supports (members s.waves) u c ∨ frontier.Waits u i

/-- The source admits all that its destination has. -/
def Satisfied (s : System V) (u : Nat) (c : Connection) : Prop :=
  ∀ p ∈ s.wave c.destination,
    p ∈ s.problem.rules.allowed (s.wave u) c.kind (s.wave c.destination)

/-- Every connection that leaves one of the variables `D` is satisfied or waits on the
frontier. -/
def GuardedFrom (s : System V) (D : Nat → Prop) (frontier : Frontier) : Prop :=
  ∀ u, D u → ∀ (i : Nat) c, (s.outgoing u)[i]? = some c →
    s.Satisfied u c ∨ frontier.Waits u i

/-- What one step of propagation can do. -/
inductive Relaxes (s : System V) (frontier : Frontier) : Propagated V → Prop where
  | idle (none_left : s.nextConnection frontier = none) : Relaxes s frontier ⟨.idle, s, [], []⟩
  | unchanged {u : Nat} {c : Connection} {rest : Frontier}
      (next : s.nextConnection frontier = some (u, c, rest))
      (same : s.relaxed u c = s.wave c.destination) :
      Relaxes s frontier ⟨.unchanged u c.destination c.kind, s, rest, []⟩
  | narrowed {u : Nat} {c : Connection} {rest : Frontier} (notes : List NarrowingNote)
      (next : s.nextConnection frontier = some (u, c, rest))
      (changed : s.relaxed u c ≠ s.wave c.destination)
      (left : (s.relaxed u c).isEmpty = false) :
      Relaxes s frontier ⟨.narrowed u c.destination c.kind,
        { s with waves := s.waves.setIfInBounds c.destination (s.relaxed u c) },
        rest.push c.destination, notes⟩
  | contradiction {u : Nat} {c : Connection} {rest : Frontier} (notes : List NarrowingNote)
      (next : s.nextConnection frontier = some (u, c, rest))
      (changed : s.relaxed u c ≠ s.wave c.destination)
      (emptied : (s.relaxed u c).isEmpty = true) :
      Relaxes s frontier ⟨.contradiction u c.destination c.kind,
        { s with waves := s.waves.setIfInBounds c.destination (s.relaxed u c) }, [], notes⟩

/-- A connection supports a vector when its destination has nothing that its source does not
admit. -/
theorem supports_iff_subset (hrules : s.problem.rules.Faithful) {ws : Array Wave} {u : Nat}
    {c : Connection} (hwf : (waveAt ws c.destination).WellFormed) :
    s.Supports (members ws) u c ↔ waveAt ws c.destination ⊆
      s.problem.rules.allowed (waveAt ws u) c.kind (waveAt ws c.destination) := by
  obtain ⟨-, hlayout, hmem⟩ := admitted_spec s.problem.rules.allows (waveAt ws u) c.kind hwf.1
  rw [hrules]
  constructor
  · intro h
    exact ⟨hlayout.symm, fun y hy => (hmem y).mpr ⟨Wave.mem_states_of_mem hy, h y hy⟩⟩
  · intro h y hy
    exact ((hmem y).mp (h.2 y hy)).2

/-- Over faithful rules a connection is satisfied when it supports the waves. -/
theorem satisfied_iff_supports (hrules : s.problem.rules.Faithful) {u : Nat} {c : Connection}
    (hwf : (s.wave c.destination).WellFormed) :
    s.Satisfied u c ↔ s.Supports (members s.waves) u c := by
  rw [supports_iff_subset hrules hwf]
  obtain ⟨-, hlayout, -⟩ := admitted_spec s.problem.rules.allows (s.wave u) c.kind hwf.1
  rw [← hrules] at hlayout
  constructor
  · intro h
    exact ⟨hlayout.symm, h⟩
  · intro h
    exact h.2

/-! ## The next connection -/

theorem nextConnection_none (h : s.nextConnection frontier = none) {u i : Nat} {c : Connection}
    (hc : (s.outgoing u)[i]? = some c) : ¬ frontier.Waits u i := by
  induction frontier with
  | nil => rintro ⟨f, hf, -⟩; cases hf
  | cons g frontier ih =>
    unfold nextConnection at h
    split at h
    · cases h
    · next hg =>
      rintro ⟨f, hf, rfl, hle⟩
      rcases List.mem_cons.mp hf with rfl | hf
      · -- the dropped frame has passed all connections of its variable
        have := (Array.getElem?_eq_some_iff.mp hc).1
        have := Array.getElem?_eq_none_iff.mp hg
        omega
      · exact ih h ⟨f, hf, rfl, hle⟩

/-- The next connection waits, and without it all others that wait still do. -/
theorem nextConnection_some {u : Nat} {c : Connection} {rest : Frontier}
    (h : s.nextConnection frontier = some (u, c, rest)) :
    ∃ i, (s.outgoing u)[i]? = some c ∧ ∀ w j d, (s.outgoing w)[j]? = some d →
      frontier.Waits w j → rest.Waits w j ∨ w = u ∧ j = i := by
  induction frontier with
  | nil => cases h
  | cons g frontier ih =>
    unfold nextConnection at h
    split at h
    · next hg =>
      cases h
      refine ⟨g.next, hg, ?_⟩
      rintro w j d - ⟨f, hf, rfl, hle⟩
      rcases List.mem_cons.mp hf with rfl | hf
      · by_cases hj : j = f.next
        · exact .inr ⟨rfl, hj⟩
        · exact .inl ⟨{ f with next := f.next + 1 }, List.mem_cons_self, rfl,
            Nat.lt_of_le_of_ne hle (Ne.symm hj)⟩
      · exact .inl ⟨f, List.mem_cons_of_mem _ hf, rfl, hle⟩
    · next hg =>
      obtain ⟨i, hi, hrest⟩ := ih h
      refine ⟨i, hi, ?_⟩
      rintro w j d hd ⟨f, hf, rfl, hle⟩
      rcases List.mem_cons.mp hf with rfl | hf
      · have := (Array.getElem?_eq_some_iff.mp hd).1
        have := Array.getElem?_eq_none_iff.mp hg
        omega
      · exact hrest f.v j d hd ⟨f, hf, rfl, hle⟩

theorem nextConnection_mem {u : Nat} {c : Connection} {rest : Frontier}
    (h : s.nextConnection frontier = some (u, c, rest)) : c ∈ s.outgoing u := by
  obtain ⟨i, hi, -⟩ := nextConnection_some h
  exact Array.mem_of_getElem? hi

/-! ## The cases of a step -/

/-- What every step relies on, whatever the rules answer: connections among variables,
well-formed waves, and one of them for every listed vertex. -/
structure Intact (s : System V) : Prop where
  linked : s.Linked
  wellFormed : s.WellFormed
  listed : s.size = s.problem.topology.vertices.length

/-- What propagation and search rely on: faithful rules, connections among variables,
well-formed waves, and one of them for every listed vertex. -/
structure Sound (s : System V) : Prop where
  faithful : s.problem.rules.Faithful
  linked : s.Linked
  wellFormed : s.WellFormed
  listed : s.size = s.problem.topology.vertices.length

theorem Sound.intact (hs : s.Sound) : s.Intact := ⟨hs.linked, hs.wellFormed, hs.listed⟩

theorem Intact.sound (hs : s.Intact) (hrules : s.problem.rules.Faithful) : s.Sound :=
  ⟨hrules, hs.linked, hs.wellFormed, hs.listed⟩

theorem Laid.intact [Ord V] [Std.TransOrd V] (h : s.Laid) (hwf : s.WellFormed) : s.Intact :=
  ⟨h.linked, hwf, h.size⟩

theorem Laid.sound [Ord V] [Std.TransOrd V] (h : s.Laid) (hwf : s.WellFormed)
    (hrules : s.problem.rules.Faithful) : s.Sound :=
  (h.intact hwf).sound hrules

/-- Intact systems over one problem have as many variables. -/
theorem Intact.size_eq {t : System V} (hs : s.Intact) (ht : t.Intact)
    (hproblem : t.problem = s.problem) : t.size = s.size := by
  rw [ht.listed, hproblem, hs.listed]

/-- The same connections over another well-formed vector of this size are intact. -/
theorem Intact.of_network {t : System V} (hs : s.Intact)
    (hnet : t.problem = s.problem ∧ t.connections = s.connections) (hsize : t.size = s.size)
    (hwf : t.WellFormed) : t.Intact where
  linked := by
    obtain ⟨hsource, hdestination⟩ := hs.linked
    unfold outgoing at hsource hdestination
    constructor
    all_goals
      unfold outgoing
      rw [hnet.2, hsize]
      assumption
  wellFormed := hwf
  listed := by
    rw [hsize, hnet.1]
    exact hs.listed

/-- The same connections and rules over another well-formed vector of this size are sound. -/
theorem Sound.of_network {t : System V} (hs : s.Sound)
    (hnet : t.problem = s.problem ∧ t.connections = s.connections) (hsize : t.size = s.size)
    (hwf : t.WellFormed) : t.Sound :=
  (hs.intact.of_network hnet hsize hwf).sound (hnet.1 ▸ hs.faithful)

/-- Whatever the rules answer, a connection leaves part of its destination's wave. -/
theorem Intact.relaxed (hs : s.Intact) {u : Nat} {c : Connection} (hc : c ∈ s.outgoing u) :
    (s.relaxed u c).WellFormed ∧ s.relaxed u c ⊆ s.wave c.destination :=
  ⟨(hs.wellFormed c.destination (hs.linked.destination_lt u c hc)).maskBy _,
    Wave.maskBy_subset _ _⟩

theorem Sound.relaxed (hs : s.Sound) {u : Nat} {c : Connection} (hc : c ∈ s.outgoing u) :
    (s.relaxed u c).WellFormed ∧ s.relaxed u c ⊆ s.wave c.destination ∧
      ∀ p, p ∈ s.relaxed u c ↔ p ∈ s.wave c.destination ∧
        ∃ x, x ∈ s.wave u ∧ s.problem.rules.allows x c.kind p = true := by
  obtain ⟨hwf, hsub⟩ := hs.intact.relaxed hc
  obtain ⟨-, -, hmem⟩ := hs.faithful.maskBy_allowed (s.wave u) c.kind
    (hs.wellFormed c.destination (hs.linked.destination_lt u c hc))
  exact ⟨hwf, hsub, hmem⟩

/-- What a connection leaves of its destination's wave is all of it exactly when the
connection supports the waves. -/
theorem Sound.relaxed_eq_iff (hs : s.Sound) {u : Nat} {c : Connection} (hc : c ∈ s.outgoing u) :
    s.relaxed u c = s.wave c.destination ↔ s.Supports (members s.waves) u c := by
  obtain ⟨hwf, hsub, hmem⟩ := hs.relaxed hc
  constructor
  · intro h y hy
    have hy' : y ∈ s.relaxed u c := by rw [h]; exact hy
    exact ((hmem y).mp hy').2
  · intro h
    exact hwf.eq_of_subset (hs.wellFormed _ (hs.linked.destination_lt u c hc)) hsub
      ⟨hsub.1.symm, fun p hp => (hmem p).mpr ⟨hp, h p hp⟩⟩

theorem Intact.propagateStep (hs : s.Intact) (frontier : Frontier) :
    s.Relaxes frontier (s.propagateStep frontier) := by
  unfold System.propagateStep
  split
  · next h => exact .idle h
  · next u c rest h =>
    have hc := nextConnection_mem h
    obtain ⟨hwf, hsub⟩ := hs.relaxed hc
    have hd := hs.wellFormed _ (hs.linked.destination_lt u c hc)
    have hagrees := Wave.agrees_iff_eq hwf hd hsub.1
    have hu := hs.wellFormed _ (hs.linked.source_lt u c hc)
    simp only
    rw [if_neg (not_not_intro ⟨hu.readable, hd.readable⟩)]
    split
    · next same => exact .unchanged h (hagrees.mp same)
    · next changed =>
      have hne := fun he => changed (hagrees.mpr he)
      split
      · next emptied => exact .contradiction _ h hne emptied
      · next left => exact .narrowed _ h hne (Bool.not_eq_true _ ▸ left)

theorem Sound.propagateStep (hs : s.Sound) (frontier : Frontier) :
    s.Relaxes frontier (s.propagateStep frontier) := hs.intact.propagateStep frontier

/-- Only a frontier on which no connection waits is idle. -/
theorem nextConnection_of_idle (h : (s.propagateStep frontier).relaxation = .idle) :
    s.nextConnection frontier = none := by
  unfold System.propagateStep at h
  split at h
  · assumption
  · dsimp only at h
    split at h
    · cases h
    · split at h
      · cases h
      · split at h <;> cases h

/-- A step that finds no connection waiting changes no wave, and leaves nothing to do. -/
theorem propagateStep_idle (h : (s.propagateStep frontier).relaxation = .idle) :
    s.propagateStep frontier = ⟨.idle, s, [], []⟩ := by
  unfold System.propagateStep
  rw [nextConnection_of_idle h]

/-! ## What a step keeps -/

/-- Taking states away from `v` breaks no connection that leaves another variable. -/
theorem Supports.set {v u : Nat} {c : Connection} {w : Wave} (hu : u ≠ v)
    (hw : w ⊆ s.wave v) (h : s.Supports (members s.waves) u c) :
    ({ s with waves := s.waves.setIfInBounds v w } : System V).Supports
      (members (s.waves.setIfInBounds v w)) u c := by
  intro y hy
  obtain ⟨x, hx, ha⟩ := h y (((within_set hw).subset _).2 y hy)
  refine ⟨x, ?_, ha⟩
  by_cases hv : v < s.waves.size
  · unfold members
    rw [waveAt_set_ne hv w hu]
    exact hx
  · rw [Array.setIfInBounds_eq_of_size_le (by omega)]
    exact hx

/-- Taking states away from `v` leaves every connection satisfied that leaves another variable:
what is left of a destination is part of what it was, and it is asked about alike. -/
theorem Satisfied.set (hblind : s.problem.rules.TemplateBlind) {v u : Nat} {c : Connection}
    {w : Wave} (hu : u ≠ v) (hw : w ⊆ s.wave v) (h : s.Satisfied u c) :
    ({ s with waves := s.waves.setIfInBounds v w } : System V).Satisfied u c := by
  by_cases hv : v < s.waves.size
  · have hsub := (within_set hw).subset c.destination
    intro p hp
    have hold := h p (hsub.2 p hp)
    rw [System.wave_eq, System.wave_eq, ← hblind _ _ _ _ hsub.1] at hold
    rw [System.wave_eq, System.wave_eq, waveAt_set_ne hv w hu]
    exact hold
  · rw [Array.setIfInBounds_eq_of_size_le (by omega)]
    exact h

/-- A connection that takes nothing away is satisfied. -/
theorem satisfied_of_relaxed_eq {u : Nat} {c : Connection}
    (same : s.relaxed u c = s.wave c.destination) : s.Satisfied u c := by
  intro p hp
  rw [← same] at hp
  exact Wave.mem_of_mem_maskBy hp

/-- A connection is satisfied once it has taken away what its source does not admit, unless it is a
loop, whose source has changed as well. -/
theorem satisfied_of_relaxed (hblind : s.problem.rules.TemplateBlind) {u : Nat} {c : Connection}
    (hd : c.destination < s.size) (hu : u ≠ c.destination) :
    ({ s with waves := s.waves.setIfInBounds c.destination (s.relaxed u c) } : System V).Satisfied
      u c := by
  have hsub : s.relaxed u c ⊆ s.wave c.destination := Wave.maskBy_subset _ _
  intro p hp
  rw [System.wave_eq, waveAt_set_self hd] at hp
  rw [System.wave_eq, System.wave_eq, waveAt_set_self hd, waveAt_set_ne hd _ hu,
    hblind _ _ _ _ hsub.1]
  exact Wave.mem_of_mem_maskBy hp

theorem Sound.guardedFrom_iff (hs : s.Sound) {D : Nat → Prop} :
    s.GuardedFrom D frontier ↔ s.CoveredFrom D frontier := by
  unfold GuardedFrom CoveredFrom
  refine forall₂_congr fun u _ => forall₃_congr fun i c hc => or_congr_left ?_
  have hd := hs.linked.destination_lt u c (Array.mem_of_getElem? hc)
  exact satisfied_iff_supports hs.faithful (hs.wellFormed _ hd)

/-- A frontier keeps its cover when states are taken away from a variable that is scheduled. -/
theorem Covered.push {v : Nat} {w : Wave} (h : s.Covered frontier) (hw : w ⊆ s.wave v) :
    ({ s with waves := s.waves.setIfInBounds v w } : System V).Covered (frontier.push v) := by
  intro u i c hc
  by_cases hu : u = v
  · exact .inr (hu ▸ frontier.waits_push v i)
  · exact (h u i c hc).imp (fun hsup => hsup.set hu hw) fun hwaits => hwaits.push v

/-- Where the frontier covers and nothing waits, the waves are arc consistent. -/
theorem Covered.arcConsistent (h : s.Covered frontier)
    (hidle : s.nextConnection frontier = none) : s.ArcConsistent (members s.waves) := by
  intro u c hc
  obtain ⟨i, hi⟩ := Array.mem_iff_getElem?.mp hc
  exact (h u i c hi).resolve_right (nextConnection_none hidle hi)

/-- A frontier with a frame for every variable covers all connections. -/
theorem Linked.covered_all (hs : s.Linked) : s.Covered (.all s.size) := by
  intro u i c hc
  exact .inr (Frontier.waits_all (hs.source_lt u c (Array.mem_of_getElem? hc)) i)

theorem ArcConsistent.covered (h : s.ArcConsistent (members s.waves)) (frontier : Frontier) :
    s.Covered frontier :=
  fun u _ c hc => .inl (h u c (Array.mem_of_getElem? hc))

namespace Relaxes
variable {next : Propagated V}

theorem within_of_intact (hs : s.Intact) (h : s.Relaxes frontier next) :
    Within next.system.waves s.waves := by
  cases h with
  | idle | unchanged => exact .refl _
  | narrowed _ h | contradiction _ h =>
    exact within_set (hs.relaxed (nextConnection_mem h)).2

theorem within (hs : s.Sound) (h : s.Relaxes frontier next) : Within next.system.waves s.waves :=
  h.within_of_intact hs.intact

/-- Only the waves of a system are changed. -/
theorem network (h : s.Relaxes frontier next) :
    next.system.problem = s.problem ∧ next.system.connections = s.connections := by
  cases h <;> exact ⟨rfl, rfl⟩

theorem intact (hs : s.Intact) (h : s.Relaxes frontier next) : next.system.Intact := by
  cases h with
  | idle | unchanged => exact hs
  | narrowed _ h | contradiction _ h =>
    exact hs.of_network ⟨rfl, rfl⟩ Array.size_setIfInBounds
      (WellFormedWaves.set hs.wellFormed (hs.relaxed (nextConnection_mem h)).1)

theorem sound (hs : s.Sound) (h : s.Relaxes frontier next) : next.system.Sound :=
  (h.intact hs.intact).sound (h.network.1 ▸ hs.faithful)

/-- A step that ends in no contradiction leaves the connections guarded that leave some variables,
and those that leave the variable whose wave it changes. -/
theorem guardedFrom (hs : s.Intact) (hblind : s.problem.rules.TemplateBlind) {D : Nat → Prop}
    (hc : s.GuardedFrom D frontier) (h : s.Relaxes frontier next) :
    (∃ u v t, next.relaxation = .contradiction u v t) ∨
      next.system.GuardedFrom (fun u => D u ∨ next.system.wave u ≠ s.wave u) next.frontier := by
  cases h with
  | contradiction => exact .inl ⟨_, _, _, rfl⟩
  | idle hidle =>
    refine .inr fun u hu i c hi => ?_
    have hsat := hc u (hu.resolve_right (not_not_intro rfl)) i c hi
    exact .inl (hsat.resolve_right (nextConnection_none hidle hi))
  | @unchanged u c rest h same =>
    right
    obtain ⟨i, hi, hrest⟩ := nextConnection_some h
    intro w hw j d hd
    rcases hc w (hw.resolve_right (not_not_intro rfl)) j d hd with hsat | hwaits
    · exact .inl hsat
    · rcases hrest w j d hd hwaits with hwaits | ⟨rfl, rfl⟩
      · exact .inr hwaits
      · -- the connection just relaxed
        cases Option.some.inj (hi.symm.trans hd)
        exact .inl (satisfied_of_relaxed_eq same)
  | @narrowed u c rest notes h changed left =>
    right
    obtain ⟨i, hi, hrest⟩ := nextConnection_some h
    have hsub := (hs.relaxed (nextConnection_mem h)).2
    have hd := hs.linked.destination_lt u c (nextConnection_mem h)
    intro w hw j d hwd
    -- a narrowed wave may break any connection that leaves it, loops included
    by_cases hwc : w = c.destination
    · exact .inr (hwc ▸ Frontier.waits_push _ _ j)
    · have hkept := hw.resolve_right (not_not_intro (waveAt_set_ne hd _ hwc))
      rcases hc w hkept j d hwd with hsat | hwaits
      · exact .inl (hsat.set hblind hwc hsub)
      · rcases hrest w j d hwd hwaits with hwaits | ⟨rfl, rfl⟩
        · exact .inr (hwaits.push _)
        · -- the connection just relaxed, which is no loop
          cases Option.some.inj (hi.symm.trans hwd)
          exact .inl (satisfied_of_relaxed hblind hd hwc)

/-- A step that ends in no contradiction keeps the frontier's cover of the connections that
leave some variables, and extends it to the variable whose wave it changes. -/
theorem coveredFrom (hs : s.Sound) {D : Nat → Prop} (hc : s.CoveredFrom D frontier)
    (h : s.Relaxes frontier next) :
    (∃ u v t, next.relaxation = .contradiction u v t) ∨
      next.system.CoveredFrom (fun u => D u ∨ next.system.wave u ≠ s.wave u) next.frontier :=
  (h.guardedFrom hs.intact hs.faithful.templateBlind (hs.guardedFrom_iff.mpr hc)).imp_right
    (h.sound hs).guardedFrom_iff.mp

/-- A step that ends in no contradiction keeps the frontier's cover. -/
theorem covered (hs : s.Sound) (hc : s.Covered frontier) (h : s.Relaxes frontier next) :
    (∃ u v t, next.relaxation = .contradiction u v t) ∨
      next.system.Covered next.frontier :=
  (h.coveredFrom hs (D := fun _ => True) fun u _ => hc u).imp_right
    fun hnext u => hnext u (.inl trivial)

/-- A step takes no state of an arc consistent family away. -/
theorem contains (hs : s.Sound) {G : Family} (hG : s.ArcConsistent G) (hin : Contains s.waves G)
    (h : s.Relaxes frontier next) : Contains next.system.waves G := by
  cases h with
  | idle | unchanged => exact hin
  | @narrowed u c _ _ h | @contradiction u c _ _ h =>
    obtain ⟨-, -, hmem⟩ := hs.relaxed (nextConnection_mem h)
    have hu := hs.linked.source_lt u c (nextConnection_mem h)
    have hd := hs.linked.destination_lt u c (nextConnection_mem h)
    intro v hv p hp
    rw [Array.size_setIfInBounds] at hv
    by_cases hvd : v = c.destination
    · subst hvd
      rw [waveAt_set_self hd]
      obtain ⟨x, hx, ha⟩ := hG u c (nextConnection_mem h) p hp
      exact (hmem p).mpr ⟨hin _ hd p hp, x, hin u hu x hx, ha⟩
    · rw [waveAt_set_ne hd _ hvd]
      exact hin v hv p hp

/-- No wave becomes empty unless the step meets a contradiction. -/
theorem alive (ha : AliveWaves s.waves) (h : s.Relaxes frontier next) :
    (∃ u v t, next.relaxation = .contradiction u v t) ∨ AliveWaves next.system.waves := by
  cases h with
  | contradiction => exact .inl ⟨_, _, _, rfl⟩
  | idle | unchanged => exact .inr ha
  | narrowed _ _ _ left => exact .inr (ha.set left)

/-- A contradiction names a variable that had a state, and leaves it without one. -/
theorem emptied (hs : s.Intact) (h : s.Relaxes frontier next) {u v t : Nat}
    (hnext : next.relaxation = .contradiction u v t) :
    v < s.size ∧ (s.wave v).isEmpty = false ∧ (next.system.wave v).isEmpty = true := by
  cases h with
  | idle | unchanged | narrowed => cases hnext
  | contradiction _ h changed emptied =>
    cases hnext
    have hd := hs.linked.destination_lt _ _ (nextConnection_mem h)
    obtain ⟨hwf, hsub⟩ := hs.relaxed (nextConnection_mem h)
    refine ⟨hd, ?_, ?_⟩
    · -- an empty wave has nothing to lose, so the step would not have changed it
      rw [Bool.eq_false_iff]
      intro hempty
      have hnone := (Wave.isEmpty_iff (hs.wellFormed _ hd)).mp hempty
      exact changed (hwf.eq_of_subset (hs.wellFormed _ hd) hsub
        ⟨hsub.1.symm, fun p hp => absurd hp (hnone p)⟩)
    · rw [System.wave_eq, waveAt_set_self hd]
      exact emptied

/-- No other variable is emptied, and none that is empty gets a state. -/
theorem isEmpty_wave (hs : s.Intact) (h : s.Relaxes frontier next) {x : Nat}
    (other : ∀ u t, next.relaxation ≠ .contradiction u x t) :
    (next.system.wave x).isEmpty = (s.wave x).isEmpty := by
  cases h with
  | idle | unchanged => rfl
  | @narrowed u c _ _ h _ left =>
    have hd := hs.linked.destination_lt _ _ (nextConnection_mem h)
    by_cases hx : x = c.destination
    · obtain ⟨hwf, hsub⟩ := hs.relaxed (nextConnection_mem h)
      obtain ⟨p, hp⟩ := (Wave.isEmpty_eq_false_iff hwf).mp left
      have hhad := (Wave.isEmpty_eq_false_iff (hs.wellFormed _ hd)).mpr ⟨p, hsub.2 p hp⟩
      rw [hx, hhad, System.wave_eq, waveAt_set_self hd]
      exact left
    · rw [System.wave_eq, waveAt_set_ne hd _ hx]
      rfl
  | @contradiction u c _ _ h =>
    have hd := hs.linked.destination_lt _ _ (nextConnection_mem h)
    have hx : x ≠ c.destination := by
      rintro rfl
      exact other u c.kind rfl
    rw [System.wave_eq, waveAt_set_ne hd _ hx]
    rfl

end Relaxes

end System
end WaveCollapse
