import WaveCollapse.Random
import WaveCollapse.Registry
import WaveCollapse.Search.Solver
import WaveCollapse.Settings.Basic
import WaveCollapse.System.Basic

/-! # Setting up a search on a grid

The settings say how large the grid is and which module its border must have, and the
registry says which class and state that module has. Both go into attributes of the border
cells, where the problem looks for them. -/

namespace WaveCollapse

namespace Registry

/-- Refuses a registry whose types are not the four directions of a grid. -/
def checkCompass (r : Registry) : Except ConfigError Unit :=
  if r.duals.toList = Compass.duals then .ok ()
  else .error (.notGridRules r.typeCount r.duals.toList)

end Registry

namespace Grid

/-- The attribute that holds the class of a cell. -/
def classAttribute : String := "class"

/-- The attribute that holds the state forced on a cell. -/
def forcedAttribute : String := "boundary"

/-- Whether a cell has no neighbour on some side of a clamped grid. -/
def onBorder (g : Grid) (x y : Nat) : Bool :=
  x = 0 || y = 0 || x + 1 = g.width || y + 1 = g.height

/-- The cells at the border, row by row. -/
def border (g : Grid) : List Nat :=
  (List.range g.height).flatMap fun y =>
    (List.range g.width).filterMap fun x => if g.onBorder x y then g.indexOf x y else none

/-- Forces a module on a cell. -/
def force (g : Grid) (m : Module) (i : Nat) : Grid :=
  (g.setAttribute classAttribute i (some m.classId)).setAttribute forcedAttribute i (some m.state)

end Grid

namespace Settings
variable (s : Settings) (r : Registry)

/-! ## The grid -/

/-- The grid without attributes. -/
def openGrid : Grid := { width := s.width, height := s.height, boundary := s.boundary }

/-- The grid, with the border module on all of its border cells. -/
def grid : Except ConfigError Grid :=
  match s.borderModule with
  | none => .ok s.openGrid
  | some name =>
    match r.modules.find? (·.name == name) with
    | none => .error (.unknownBorderModule name)
    | some m => .ok (s.openGrid.border.foldl (·.force m) s.openGrid)

/-- A note on setting up a grid. -/
inductive GridNote where
  | severalClasses (count : Nat)
  | forced (name : String) (cells : Nat)

instance : Narrated GridNote where
  level
    | .severalClasses _ => .warn
    | .forced .. => .info
  text
    | .severalClasses count =>
      s!"Rule file declares {count} exclusion classes; inner cells only use class 0"
    | .forced name cells => s!"Forced module '{name}' on {cells} border cells"

/-- What `grid` notices. -/
def gridNotes : List GridNote :=
  (if 1 < r.classCount then [.severalClasses r.classCount] else []) ++
    match s.borderModule, s.grid r with
    | some name, .ok _ => [.forced name s.openGrid.border.length]
    | _, _ => []

/-! ## The solver -/

/-- The problem of a grid: its classes and forced states are in its attributes. -/
def problemOn (g : Grid) (rules : Rules) : Problem Nat where
  topology := g.topology
  rules := rules
  stride := r.stride
  classAttribute := some Grid.classAttribute
  boundaryAttribute := some Grid.forcedAttribute

/-- A grid and a solver that is about to search on it. -/
structure Prepared where
  grid : Grid
  solver : Solver Nat WordStream

/-- The solver for a problem on the grid. The words are those of the configured seed, or the
spare ones if none is configured. -/
def prepare (rules : Rules) (config : Config) (spare : WordStream) : Except RunError Prepared := do
  let grid ← (s.grid r).mapError .config
  let system ← (problemOn r grid rules).system.mapError .collapse
  return {
    grid
    solver := { system, config, source := config.seed.elim spare WordStream.ofSeed } }

/-- A note on the grid or on the problem over it. -/
inductive SetupNote where
  | grid (note : GridNote)
  | problem (note : Problem.Note)

instance : Narrated SetupNote where
  level
    | .grid note => Narrated.level note
    | .problem note => Narrated.level note
  text
    | .grid note => Narrated.text note
    | .problem note => Narrated.text note

/-- What `prepare` notices. -/
def prepareNotes (rules : Rules) : List SetupNote :=
  (s.gridNotes r).map .grid ++
    match s.grid r with
    | .ok grid => (problemOn r grid rules).systemNotes.map .problem
    | .error _ => []

end Settings

end WaveCollapse
