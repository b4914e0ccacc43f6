import WaveCollapse.Proofs.Registry
import WaveCollapse.Proofs.System.Network
import WaveCollapse.Proofs.Topology.Words
import WaveCollapse.Run.Setup

/-! # The problem on a grid

Forcing a module on cells sets their two attributes and nothing else, so the grid of the settings
carries the border module on exactly its border cells (`Settings.grid_spec`).  The starting wave
of such a cell has that module's state only, and every other cell starts with the states of class
zero; either way its states are those of modules (`Settings.exists_module_of_starting`).
-/

namespace WaveCollapse

namespace Grid
variable {g : Grid}

/-! ## Forcing modules -/

theorem sameShape_force (g : Grid) (m : Module) (i : Nat) : (g.force m i).SameShape g :=
  (sameShape_setAttribute _ _ _ _).trans (sameShape_setAttribute _ _ _ _)

theorem Sized.force (hg : g.Sized) (m : Module) (i : Nat) : (g.force m i).Sized :=
  (hg.setAttribute _ _ _).setAttribute _ _ _

theorem Sized.valueAt_force (hg : g.Sized) (m : Module) {i : Nat} (hi : i < g.size) (j : Nat) :
    (g.force m i).valueAt classAttribute j =
        (if j = i then some (m.classId : Int) else g.valueAt classAttribute j) ∧
      (g.force m i).valueAt forcedAttribute j =
        if j = i then some (m.state : Int) else g.valueAt forcedAttribute j := by
  have hi' : i < (g.setAttribute classAttribute i (some m.classId)).size :=
    Nat.lt_of_lt_of_eq hi (sameShape_setAttribute _ _ _ _).size.symm
  have hnames : classAttribute ≠ forcedAttribute := by decide
  unfold Grid.force
  rw [(hg.setAttribute _ _ _).valueAt_setAttribute hi',
    (hg.setAttribute _ _ _).valueAt_setAttribute hi', hg.valueAt_setAttribute hi,
    hg.valueAt_setAttribute hi]
  by_cases hj : j = i
  · simp [hj, hnames]
  · simp [hj]

/-- Modules forced on some cells. -/
theorem Sized.foldl_force (hg : g.Sized) (m : Module) {cells : List Nat}
    (hcells : ∀ i ∈ cells, i < g.size) :
    (cells.foldl (·.force m) g).SameShape g ∧ ∀ j,
      (cells.foldl (·.force m) g).valueAt classAttribute j =
          (if j ∈ cells then some (m.classId : Int) else g.valueAt classAttribute j) ∧
        (cells.foldl (·.force m) g).valueAt forcedAttribute j =
          if j ∈ cells then some (m.state : Int) else g.valueAt forcedAttribute j := by
  induction cells generalizing g with
  | nil => exact ⟨⟨rfl, rfl, rfl⟩, fun j => ⟨rfl, rfl⟩⟩
  | cons i cells ih =>
    have hi := hcells i List.mem_cons_self
    have hshape := sameShape_force g m i
    obtain ⟨hrest, hvalues⟩ := ih (hg.force m i) fun j hj =>
      Nat.lt_of_lt_of_eq (hcells j (List.mem_cons_of_mem i hj)) hshape.size.symm
    refine ⟨hrest.trans hshape, fun j => ?_⟩
    obtain ⟨hclass, hforced⟩ := hvalues j
    obtain ⟨hclass', hforced'⟩ := hg.valueAt_force m hi j
    rw [List.foldl_cons, hclass, hforced, hclass', hforced']
    by_cases hj : j ∈ cells
    · simp [hj]
    · simp [hj]

theorem mem_border_iff {i : Nat} : i ∈ g.border ↔ ∃ x y, x < g.width ∧ y < g.height ∧
    g.onBorder x y = true ∧ i = y * g.width + x := by
  unfold border
  simp only [List.mem_flatMap, List.mem_filterMap, List.mem_range]
  constructor
  · rintro ⟨y, hy, x, hx, h⟩
    split at h
    · next hborder => exact ⟨x, y, hx, hy, hborder, (indexOf_eq_some_iff.mp h).2.2⟩
    · cases h
  · rintro ⟨x, y, hx, hy, hborder, hi⟩
    refine ⟨y, hy, x, hx, ?_⟩
    rw [if_pos hborder]
    exact indexOf_eq_some_iff.mpr ⟨hx, hy, hi⟩

theorem border_lt_size {i : Nat} (hi : i ∈ g.border) : i < g.size := by
  obtain ⟨x, y, hx, hy, -, rfl⟩ := mem_border_iff.mp hi
  exact index_lt_size hx hy

end Grid

namespace Settings
variable {s : Settings} {r : Registry}

/-! ## The grid -/

/-- The module that the settings force on a cell. -/
def forcedOn (s : Settings) (r : Registry) (i : Nat) : Option Module :=
  if i ∈ s.openGrid.border then s.borderModule.bind fun name => r.modules.find? (·.name == name)
  else none

/-- The grid of the settings carries the border module on its border, and nothing else. -/
theorem grid_spec {g : Grid} (h : s.grid r = .ok g) : g.SameShape s.openGrid ∧ ∀ i,
    g.valueAt Grid.classAttribute i = (s.forcedOn r i).map (fun m => (m.classId : Int)) ∧
      g.valueAt Grid.forcedAttribute i = (s.forcedOn r i).map fun m => (m.state : Int) := by
  have hopen : ∀ name i, s.openGrid.valueAt name i = none := by
    intro name i
    unfold Grid.valueAt
    show (Array.replicate s.openGrid.size none)[i]?.join = none
    rw [Array.getElem?_replicate]
    split <;> rfl
  unfold grid at h
  unfold forcedOn
  split at h
  · next hnone =>
    cases h
    refine ⟨⟨rfl, rfl, rfl⟩, fun i => ?_⟩
    rw [hopen, hopen, hnone]
    simp
  · next name hname =>
    split at h
    · cases h
    · next m hm =>
      cases h
      have hsized : s.openGrid.Sized := fun a ha => nomatch ha
      obtain ⟨hshape, hvalues⟩ := hsized.foldl_force m fun i hi => Grid.border_lt_size hi
      refine ⟨hshape, fun i => ?_⟩
      obtain ⟨hclass, hforced⟩ := hvalues i
      rw [hclass, hforced, hopen, hopen, hname, Option.bind_some, hm]
      by_cases hi : i ∈ s.openGrid.border
      · simp [hi]
      · simp [hi]

theorem forcedOn_mem {i : Nat} {m : Module} (h : s.forcedOn r i = some m) : m ∈ r.modules := by
  unfold forcedOn at h
  split at h
  · obtain ⟨name, -, hm⟩ := Option.bind_eq_some_iff.mp h
    exact List.mem_of_find?_eq_some hm
  · cases h

/-- On the border of a grid that was made the module of the settings is forced. -/
theorem forcedOn_border {g : Grid} (h : s.grid r = .ok g) {name : String}
    (hname : s.borderModule = some name) {i : Nat} (hi : i ∈ s.openGrid.border) :
    ∃ m, s.forcedOn r i = some m ∧ m.name = name := by
  unfold grid at h
  rw [hname] at h
  dsimp only at h
  split at h
  · cases h
  · next m hm =>
    refine ⟨m, ?_, eq_of_beq (List.find?_some (p := fun a : Module => a.name == name) hm)⟩
    unfold forcedOn
    rw [if_pos hi, hname]
    exact hm

/-! ## The grid in words -/

end Settings

namespace Grid
variable {g : Grid}

end Grid

namespace Settings
variable {s : Settings} {r : Registry}

section Starting
variable {g : Grid} {rules : Rules}

/-- The class and the state that a cell starts with are those of the module forced on it. -/
theorem problemOn_spec (hg : s.grid r = .ok g) (j i : Nat) :
    (problemOn r g rules).classOf j i = .ok (((s.forcedOn r i).map (·.classId)).getD 0) ∧
      (problemOn r g rules).forcedAt i = (s.forcedOn r i).map (·.state) := by
  obtain ⟨-, hvalues⟩ := grid_spec hg
  have hclass : (problemOn r g rules).classAttribute.bind
      ((problemOn r g rules).topology.valueAt i) =
        (s.forcedOn r i).map (fun m => (m.classId : Int)) := (hvalues i).1
  have hforced : (problemOn r g rules).boundaryAttribute.bind
      ((problemOn r g rules).topology.valueAt i) =
        (s.forcedOn r i).map (fun m => (m.state : Int)) := (hvalues i).2
  unfold Problem.classOf Problem.forcedAt
  rw [hclass, hforced]
  cases s.forcedOn r i with
  | none => exact ⟨rfl, rfl⟩
  | some m =>
    refine ⟨if_pos (Int.natCast_nonneg _), ?_⟩
    rw [Option.map_some, Option.bind_some, if_pos (Int.natCast_nonneg m.state)]
    rfl

/-- A forced cell starts with the state of its module, every other one with class zero. -/
theorem startingWave_spec (hg : s.grid r = .ok g) {j i : Nat} {w : Wave}
    (hw : (problemOn r g rules).startingWave j i = .ok w) :
    match s.forcedOn r i with
    | some m => ((problemOn r g rules).layoutOf m.classId).Valid ∧
        w = (Wave.empty ((problemOn r g rules).layoutOf m.classId)).add m.state
    | none => ((problemOn r g rules).layoutOf 0).Valid ∧
        w = Wave.full ((problemOn r g rules).layoutOf 0) := by
  obtain ⟨hclass, hforced⟩ : (problemOn r g rules).classOf j i = _ ∧
    (problemOn r g rules).forcedAt i = _ := problemOn_spec hg j i
  rcases (problemOn r g rules).startingWave_cases j i with
    ⟨e, -, he⟩ | ⟨cause, he⟩ | ⟨c, hc, hvalid, hok⟩
  · cases hw.symm.trans he
  · cases hw.symm.trans he
  · cases hw.symm.trans hok
    cases hclass.symm.trans hc
    rw [hforced]
    cases hon : s.forcedOn r i with
    | none =>
      rw [hon] at hvalid
      exact ⟨hvalid, rfl⟩
    | some m =>
      rw [hon] at hvalid
      exact ⟨hvalid, rfl⟩

/-- Over rules of the registry a class has the layout that the registry gives it. -/
theorem layoutOf_problemOn (hrules : rules.classWidth = r.classSize) (c : Nat) :
    (problemOn r g rules).layoutOf c = ⟨c, r.stride, r.classSize c⟩ := by
  unfold Problem.layoutOf
  show (⟨c, r.stride, rules.classWidth c⟩ : Layout) = _
  rw [hrules]

/-- A state that a cell starts with is that of a module, the forced one where there is one. -/
theorem exists_module_of_starting (hr : r.Lawful) (hrules : rules.classWidth = r.classSize)
    (hg : s.grid r = .ok g) {j i p : Nat} {w : Wave}
    (hw : (problemOn r g rules).startingWave j i = .ok w) (hp : p ∈ w) :
    ∃ m ∈ r.modules, m.state = p ∧ ∀ m', s.forcedOn r i = some m' → m = m' := by
  have hspec := startingWave_spec hg hw
  cases hon : s.forcedOn r i with
  | none =>
    rw [hon] at hspec
    dsimp only at hspec
    rw [layoutOf_problemOn hrules] at hspec
    obtain ⟨hvalid, rfl⟩ := hspec
    rw [Wave.mem_full hvalid] at hp
    obtain ⟨m, hm, -, hstate⟩ := hr.mem_states_iff.mp hp
    exact ⟨m, hm, hstate, fun m' hm' => nomatch hm'⟩
  | some m =>
    rw [hon] at hspec
    dsimp only at hspec
    rw [layoutOf_problemOn hrules] at hspec
    obtain ⟨hvalid, rfl⟩ := hspec
    have hm := forcedOn_mem hon
    have hin := hr.mem_states_iff.mpr ⟨m, hm, rfl, rfl⟩
    have hreadable : (Wave.empty (Layout.mk m.classId r.stride (r.classSize m.classId))).Readable :=
      hvalid.2.1
    rw [Wave.mem_add hreadable hin, or_iff_left (Wave.not_mem_empty _)] at hp
    exact ⟨m, hm, hp.symm, fun m' hm' => Option.some.inj hm'⟩

end Starting

/-! ## The solver -/

/-- What is prepared: the grid of the settings, and a system over it with its starting waves. -/
theorem prepare_spec {rules : Rules} {config : Config} {spare : WordStream} {p : Prepared}
    (h : s.prepare r rules config spare = .ok p) :
    s.grid r = .ok p.grid ∧ p.solver.system.problem = problemOn r p.grid rules ∧
      p.solver.system.Laid ∧ p.solver.system.WellFormed ∧
      p.solver.system.problem.startingWaves = .ok p.solver.system.waves := by
  unfold prepare at h
  obtain ⟨grid, hgrid, h⟩ := bind_eq_ok_iff.mp h
  obtain ⟨system, hsystem, h⟩ := bind_eq_ok_iff.mp h
  cases h
  have hsystem := mapError_eq_ok_iff.mp hsystem
  obtain ⟨hproblem, hlaid, hwf⟩ := Problem.system_laid _ hsystem
  refine ⟨mapError_eq_ok_iff.mp hgrid, hproblem, hlaid, hwf, ?_⟩
  rw [hproblem]
  exact Problem.system_waves _ hsystem

section Prepared
variable {rules : Rules} {config : Config} {spare : WordStream} {p : Prepared}
  (h : s.prepare r rules config spare = .ok p)
include h

theorem shape_of_prepare : p.grid.SameShape s.openGrid :=
  (grid_spec (prepare_spec h).1).1

theorem vertices_of_prepare :
    p.solver.system.problem.topology.vertices = List.range p.grid.size := by
  rw [(prepare_spec h).2.1]
  rfl

theorem size_of_prepare : p.solver.system.size = p.grid.size := by
  rw [(prepare_spec h).2.2.1.size, vertices_of_prepare h, List.length_range]

/-- Every state that a cell starts with is that of a module, the forced one where there is one. -/
theorem exists_module_of_prepare (hr : r.Lawful) (hrules : rules.classWidth = r.classSize)
    {i q : Nat} (hi : i < p.grid.size) (hq : q ∈ p.solver.system.wave i) :
    ∃ m ∈ r.modules, m.state = q ∧ ∀ m', s.forcedOn r i = some m' → m = m' := by
  obtain ⟨hgrid, hproblem, -, -, hwaves⟩ := prepare_spec h
  have hvertex : p.solver.system.problem.topology.vertices[i]? = some i := by
    rw [vertices_of_prepare h]
    exact List.getElem?_range hi
  have hstart := Problem.startingWave_at _ hwaves hvertex
  rw [hproblem] at hstart
  exact exists_module_of_starting hr hrules hgrid hstart hq

/-- An outgoing edge of a cell is a connection of its variable. -/
theorem outgoing_of_prepare {i j kind : Nat} (hi : i < p.grid.size) (hj : j < p.grid.size)
    (hkind : kind < rules.typeCount) (hedge : (⟨j, kind, true⟩ : Edge Nat) ∈ p.grid.incident i) :
    (⟨j, kind⟩ : Connection) ∈ p.solver.system.outgoing i := by
  obtain ⟨-, hproblem, hlaid, -, -⟩ := prepare_spec h
  have hvertices := vertices_of_prepare h
  rw [hlaid.mem_outgoing_iff (hvertices ▸ List.nodup_range), hvertices]
  refine ⟨i, List.getElem?_range hi, ⟨j, kind, true⟩, ?_, List.getElem?_range hj, ?_, rfl⟩
  · rw [hproblem]
    exact hedge
  · rw [hproblem]
    exact hkind

end Prepared

end Settings
end WaveCollapse
