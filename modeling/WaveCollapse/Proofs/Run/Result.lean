import WaveCollapse.Proofs.Output.GridText
import WaveCollapse.Proofs.RuleFile.Meaning
import WaveCollapse.Proofs.Run.Setup
import WaveCollapse.Proofs.Search.Success

/-! # What a search on the grid finds

A search that ends well leaves one module on every cell, and these modules obey the rule file:
its relation holds along every edge (`RuleFile.FitsAlong`), so from each row to the row north of
it and from each column to the next, around the grid where it is periodic, and the border has the
border module (`Settings.Obeys`).
-/

namespace WaveCollapse

/-- Along every edge that leaves a cell the module there is followed by one that the file allows. -/
def RuleFile.FitsAlong (file : RuleFile) (g : Grid) (cell : Nat → Module) : Prop :=
  ∀ i < g.size, ∀ j < g.size, ∀ kind < Compass.duals.length,
    (⟨j, kind, true⟩ : Edge Nat) ∈ g.incident i → file.Allows (cell i).name kind (cell j).name

namespace Settings

/-- Rows of modules, the northernmost first, are as the settings and the rule file want them. -/
structure Obeys (s : Settings) (file : RuleFile) (r : Registry) (m : Nat → Nat → Module) :
    Prop where
  /-- Every cell has a registered module. -/
  registered : ∀ i < s.height, ∀ j < s.width, m i j ∈ r.modules
  /-- Each row fits the row to its north. -/
  north : ∀ i, i + 1 < s.height → ∀ j < s.width,
    file.Allows (m (i + 1) j).name Compass.north (m i j).name
  /-- Each column fits the column to its east. -/
  east : ∀ i < s.height, ∀ j, j + 1 < s.width →
    file.Allows (m i j).name Compass.east (m i (j + 1)).name
  /-- Around a periodic grid the first row is followed by the last one. -/
  aroundNorth : s.boundary = .periodic → ∀ j < s.width,
    file.Allows (m 0 j).name Compass.north (m (s.height - 1) j).name
  /-- Around a periodic grid the last column is followed by the first one. -/
  aroundEast : s.boundary = .periodic → ∀ i < s.height,
    file.Allows (m i (s.width - 1)).name Compass.east (m i 0).name
  /-- The first and last rows and columns have the border module, if there is one. -/
  border : ∀ name, s.borderModule = some name → ∀ i < s.height, ∀ j < s.width,
    (i = 0 ∨ i + 1 = s.height ∨ j = 0 ∨ j + 1 = s.width) → (m i j).name = name

variable {s : Settings} {file : RuleFile} {loaded : LoadedRules}

/-! ## From the waves to modules -/

section Search
variable {config : Config} {spare : WordStream} {p : Prepared}

/-- A solution inside the starting waves puts a module on every cell; modules at the two ends of
an edge fit, and forced cells have the forced module. -/
theorem exists_cells (built : file.build = .ok loaded)
    (compass : loaded.registry.duals.toList = Compass.duals)
    (prepared : s.prepare loaded.registry loaded.ruleSet.rules config spare = .ok p)
    {value : Nat → Nat} (satisfies : p.solver.system.Satisfies value)
    (inside : Inside p.solver.system.waves value) :
    ∃ cell : Nat → Module,
      (∀ i < p.grid.size, cell i ∈ loaded.registry.modules ∧ (cell i).state = value i ∧
        ∀ m, s.forcedOn loaded.registry i = some m → cell i = m) ∧
      file.FitsAlong p.grid cell := by
  have hr := RuleFile.lawful_of_build built
  obtain ⟨hwidth, -, htypes, -⟩ := (RuleFile.over_of_build built).shape
  have hfour : loaded.registry.duals.size = Compass.duals.length := by
    rw [← Array.length_toList, compass]
  have hone : ∀ i, ∃ m : Module, i < p.grid.size → m ∈ loaded.registry.modules ∧
      m.state = value i ∧ ∀ m', s.forcedOn loaded.registry i = some m' → m = m' := by
    intro i
    by_cases hi : i < p.grid.size
    · have hin : value i ∈ p.solver.system.wave i :=
        inside i (Nat.lt_of_lt_of_eq hi (size_of_prepare prepared).symm)
      obtain ⟨m, hm⟩ := exists_module_of_prepare prepared hr hwidth hi hin
      exact ⟨m, fun _ => hm⟩
    · -- beyond the grid any module will do
      exact ⟨default, fun h => absurd h hi⟩
  obtain ⟨cell, hcell⟩ := Classical.axiomOfChoice hone
  refine ⟨cell, hcell, fun i hi j hj kind hkind hedge => ?_⟩
  obtain ⟨hmi, hsi, -⟩ := hcell i hi
  obtain ⟨hmj, hsj, -⟩ := hcell j hj
  have hkind' : kind < loaded.registry.duals.size := hfour ▸ hkind
  have hconnected := outgoing_of_prepare prepared hi hj (htypes ▸ hkind') hedge
  have hallows := satisfies i _ hconnected
  rw [(prepare_spec prepared).2.1, ← hsi, ← hsj] at hallows
  exact (RuleFile.allows_iff_of_build built hmi hmj hkind').mp hallows

end Search

/-! ## From the cells to rows -/

section Rows
variable {g : Grid} {cell : Nat → Module}

theorem index_lt_of_shape (shape : g.SameShape s.openGrid) {x y : Nat} (hx : x < s.width)
    (hy : y < s.height) : y * s.width + x < g.size := by
  rw [shape.size]
  exact Grid.index_lt_size (g := s.openGrid) hx hy

/-- The modules at the two ends of an edge, by the coordinates of the ends. -/
theorem allows_of_edge (shape : g.SameShape s.openGrid) (fits : file.FitsAlong g cell)
    {x y x' y' kind : Nat} (hx : x < s.width) (hy : y < s.height) (hx' : x' < s.width)
    (hy' : y' < s.height) (hkind : kind < Compass.duals.length)
    (hedge : (⟨y' * s.width + x', kind, true⟩ : Edge Nat) ∈ g.incident (y * g.width + x)) :
    file.Allows (cell (y * s.width + x)).name kind (cell (y' * s.width + x')).name := by
  rw [show g.width = s.width from shape.width] at hedge
  exact fits _ (index_lt_of_shape shape hx hy) _ (index_lt_of_shape shape hx' hy') _ hkind hedge

theorem allows_north (shape : g.SameShape s.openGrid) (fits : file.FitsAlong g cell)
    {x y y' : Nat} (hx : x < s.width) (hy : y < s.height) (hy' : y' < s.height)
    (h : g.northOf x y = some (y' * s.width + x)) :
    file.Allows (cell (y * s.width + x)).name Compass.north (cell (y' * s.width + x)).name :=
  allows_of_edge shape fits hx hy hx hy' (by decide)
    (Grid.north_mem_incident (shape.width ▸ hx) (shape.height ▸ hy) h)

theorem allows_east (shape : g.SameShape s.openGrid) (fits : file.FitsAlong g cell)
    {x x' y : Nat} (hx : x < s.width) (hx' : x' < s.width) (hy : y < s.height)
    (h : g.eastOf x y = some (y * s.width + x')) :
    file.Allows (cell (y * s.width + x)).name Compass.east (cell (y * s.width + x')).name :=
  allows_of_edge shape fits hx hy hx' hy (by decide)
    (Grid.east_mem_incident (shape.width ▸ hx) (shape.height ▸ hy) h)

/-- The cells on the four sides have the border module. -/
theorem name_of_border {r : Registry} (hg : s.grid r = .ok g)
    (forced : ∀ i < g.size, ∀ m, s.forcedOn r i = some m → cell i = m) {name : String}
    (hname : s.borderModule = some name) {x y : Nat} (hx : x < s.width) (hy : y < s.height)
    (hside : x = 0 ∨ y = 0 ∨ x + 1 = s.width ∨ y + 1 = s.height) :
    (cell (y * s.width + x)).name = name := by
  have hborder : y * s.width + x ∈ s.openGrid.border := by
    refine Grid.mem_border_iff.mpr ⟨x, y, hx, hy, ?_, rfl⟩
    show (x = 0 || y = 0 || x + 1 = s.width || y + 1 = s.height : Bool) = true
    simp only [Bool.or_eq_true, decide_eq_true_eq]
    omega
  obtain ⟨m, hm, hnamed⟩ := forcedOn_border hg hname hborder
  rw [forced _ (index_lt_of_shape (grid_spec hg).1 hx hy) m hm]
  exact hnamed

/-- The row of the cells at `y` is written after the rows to its north. -/
theorem obeys_of_cells {r : Registry} (hg : s.grid r = .ok g) (hheight : 0 < s.height)
    (hwidth : 0 < s.width)
    (hcell : ∀ i < g.size, cell i ∈ r.modules ∧ ∀ m, s.forcedOn r i = some m → cell i = m)
    (fits : file.FitsAlong g cell) :
    s.Obeys file r fun i j => cell ((s.height - 1 - i) * s.width + j) := by
  have shape := (grid_spec hg).1
  have hgw : g.width = s.width := shape.width
  have hgh : g.height = s.height := shape.height
  have hgb : g.boundary = s.boundary := shape.boundary
  refine ⟨fun i hi j hj => ?_, fun i hi j hj => ?_, fun i hi j hj => ?_, fun periodic j hj => ?_,
    fun periodic i hi => ?_, fun name hname i hi j hj hside => ?_⟩
  · exact (hcell _ (index_lt_of_shape shape hj (by omega))).1
  · -- the row written before this one is the next one to the north
    have hrow : s.height - 1 - i = s.height - 1 - (i + 1) + 1 := by omega
    have h := Grid.northOf_inner (g := g) (x := j) (y := s.height - 1 - (i + 1)) (hgw ▸ hj)
      (by omega)
    rw [hgw, ← hrow] at h
    exact allows_north shape fits hj (by omega) (by omega) h
  · have h := Grid.eastOf_inner (g := g) (x := j) (y := s.height - 1 - i) (by omega) (by omega)
    rw [hgw] at h
    exact allows_east shape fits (by omega) hj (by omega) h
  · have hlast : s.height - 1 - (s.height - 1) = 0 := Nat.sub_self _
    have h := Grid.northOf_last (g := g) (x := j) (y := s.height - 1) (hgb.trans periodic)
      (hgw ▸ hj) (by omega)
    rw [hgw] at h
    rw [hlast]
    exact allows_north shape fits hj (by omega) (by omega) h
  · have h := Grid.eastOf_last (g := g) (x := s.width - 1) (y := s.height - 1 - i)
      (hgb.trans periodic) (by omega) (by omega)
    rw [hgw] at h
    exact allows_east shape fits (by omega) hwidth (by omega) h
  · exact name_of_border hg (fun i hi => (hcell i hi).2) hname hj (by omega) (by omega)

end Rows

/-! ## The text of a search that ended well -/

/-- The characters of a row of modules: their names, with a blank before every name but the first,
and a line feed at the end. -/
def rowOf (s : Settings) (m : Nat → Nat → Module) (i : Nat) : List Char :=
  ((List.range s.width).flatMap fun j => (if j = 0 then [] else [' ']) ++ (m i j).name.toList) ++
    ['\n']

/-- The text of rows of modules, the northernmost first. -/
def textOf (s : Settings) (m : Nat → Nat → Module) : String :=
  String.ofList ((List.range s.height).flatMap (s.rowOf m))

/-- These rows are the lines that are written. -/
theorem textOf_eq (s : Settings) (m : Nat → Nat → Module) :
    s.textOf m = String.join ((List.range s.height).map fun i =>
      GridText.line ((List.range s.width).map fun j => (m i j).name)) := by
  rw [← String.toList_inj, String.toList_join, List.flatMap_map]
  unfold textOf rowOf
  rw [String.toList_ofList]
  exact congrArg (fun f => (List.range s.height).flatMap f)
    (funext fun i => (GridText.toList_line s.width fun j => (m i j).name).symm)

/-- **A search that ends well leaves a grid that can be written**, with rows as the settings and
the rule file want them. -/
theorem write_of_collapse (built : file.build = .ok loaded)
    (compass : loaded.registry.duals.toList = Compass.duals) (hheight : 0 < s.height)
    (hwidth : 0 < s.width) {config : Config} {spare : WordStream} {p : Prepared}
    (prepared : s.prepare loaded.registry loaded.ruleSet.rules config spare = .ok p)
    {limit : Nat} {journal : Journal} {stats : Stats}
    (hok : (p.solver.collapse limit journal).result = .ok stats) :
    ∃ m, s.Obeys file loaded.registry m ∧
      GridText.write loaded.registry p.grid (p.solver.collapse limit journal).solver.system =
        (s.textOf m, .ok ()) := by
  obtain ⟨hg, hproblem, hlaid, hwf, hstarting⟩ := prepare_spec prepared
  have hfaithful : p.solver.system.problem.rules.Faithful := by
    rw [hproblem]
    exact loaded.ruleSet.faithful
  obtain ⟨hkept, hsize, value, hvalue, hsat, hinside⟩ :=
    p.solver.collapse_ok_within_starting hlaid hwf hfaithful hstarting limit journal hok
  obtain ⟨cell, hcell, hfits⟩ := exists_cells built compass prepared hsat hinside
  have shape := shape_of_prepare prepared
  refine ⟨_, obeys_of_cells hg hheight hwidth (fun i hi => ⟨(hcell i hi).1, (hcell i hi).2.2⟩)
    hfits, ?_⟩
  have hvertices := (congrArg (·.topology.vertices) hkept).trans (vertices_of_prepare prepared)
  have hgw : p.grid.width = s.width := shape.width
  have hgh : p.grid.height = s.height := shape.height
  have hnamed : ∀ x < p.grid.width, ∀ y < p.grid.height, ∃ q,
      ((p.solver.collapse limit journal).solver.system.wave (y * p.grid.width + x)).resolvedState =
          some q ∧ loaded.registry.nameOf q = some (cell (y * s.width + x)).name := by
    intro x hx y hy
    have hi := Grid.index_lt_size hx hy
    obtain ⟨hmem, hstate, -⟩ := hcell _ hi
    refine ⟨_, hvalue _ (Nat.lt_of_lt_of_eq hi (size_of_prepare prepared).symm), ?_⟩
    rw [(RuleFile.lawful_of_build built).nameOf_eq_some_iff]
    exact ⟨_, hmem, hstate, hgw ▸ rfl⟩
  rw [GridText.write_resolved hvertices (hsize.trans (size_of_prepare prepared)) hnamed, hgw, hgh,
    textOf_eq]

end Settings
end WaveCollapse
