import WaveCollapse.Numbers
import WaveCollapse.Topology.Basic

/-! # Grids

A grid of cells with named integer attributes. Cell `(x, y)` has the number
`y * width + x`; north is the direction of growing `y` and east that of growing `x`. Each
cell owns the edge to the cell north of it and the edge to the cell east of it, and the
same edges are reported as incoming at their other ends, so only the types of north and
east occur on edges. A periodic grid wraps around; a clamped one ends at its border.

A grid has no cells of its own until an attribute is set, so its width and height may be words
whose product is none. The definitions in words stop where the number of cells or the number of a
cell is needed and is no word, or where the values of an attribute are not as many as the cells. -/

namespace WaveCollapse

namespace Compass

/-- The connection type towards growing `y`. -/
def north : Nat := 0
/-- The connection type towards falling `y`. -/
def south : Nat := 1
/-- The connection type towards growing `x`. -/
def east : Nat := 2
/-- The connection type towards falling `x`. -/
def west : Nat := 3

/-- The opposite of each of the four types. -/
def duals : List Nat := [south, north, west, east]

end Compass

/-- What happens at the border of a grid. -/
inductive Boundary where
  /-- Cells at the border have fewer neighbours. -/
  | clamped
  /-- Edges wrap around. -/
  | periodic
deriving DecidableEq, Inhabited

namespace Boundary

/-- The name in settings and on the command line. -/
def name : Boundary → String
  | clamped => "clamped"
  | periodic => "periodic"

/-- The name in descriptions. -/
def label : Boundary → String
  | clamped => "Clamped"
  | periodic => "Periodic"

/-- The boundary called `s` in settings. -/
def ofName? : String → Option Boundary
  | "clamped" => some clamped
  | "periodic" => some periodic
  | _ => none

end Boundary

/-- A rectangle of cells with named attributes. -/
structure Grid where
  width : Nat
  height : Nat
  boundary : Boundary := .clamped
  /-- For every attribute in use, its value at each cell. -/
  attributes : List (String × Array (Option Int)) := []
deriving Inhabited

namespace Grid

/-- The number of cells, which need not be a word. -/
def size (g : Grid) : Nat := g.width * g.height

/-- The number of cell `(x, y)`, if there is such a cell. -/
def indexOf (g : Grid) (x y : Nat) : Option Nat :=
  if x < g.width ∧ y < g.height then some (y * g.width + x) else none

/-- The coordinates of a cell. -/
def coordsOf (g : Grid) (i : Nat) : Option (Nat × Nat) :=
  if i < g.size then some (i % g.width, i / g.width) else none

/-- `size` in words. -/
def checkedSize (g : Grid) : Checked Nat := Word.mul g.width g.height

/-- The number of cell `(x, y)` in words. -/
def checkedNumber (g : Grid) (x y : Nat) : Checked Nat := do
  let row ← Word.mul y g.width
  Word.add row x

/-- `indexOf` in words. -/
def checkedIndexOf (g : Grid) (x y : Nat) : Checked (Option Nat) :=
  if x < g.width ∧ y < g.height then (g.checkedNumber x y).map some else .ok none

/-- `coordsOf` in words. -/
def checkedCoordsOf (g : Grid) (i : Nat) : Checked (Option (Nat × Nat)) := do
  let size ← g.checkedSize
  return if i < size then some (i % g.width, i / g.width) else none

/-- The numbers of all cells in words. -/
def checkedVertices (g : Grid) : Checked (List Nat) := do
  let size ← g.checkedSize
  Word.room size 8
  return List.range size

/-! ## Attributes -/

/-- The values of one attribute; one that was never set has none anywhere. -/
def column (g : Grid) (name : String) : Array (Option Int) :=
  ((g.attributes.find? (·.1 == name)).map (·.2)).getD (Array.replicate g.size none)

/-- The value of an attribute at a cell. -/
def valueAt (g : Grid) (name : String) (i : Nat) : Option Int := (g.column name)[i]?.join

/-- Sets an attribute at a cell, or clears it. -/
def setAttribute (g : Grid) (name : String) (i : Nat) (value : Option Int) : Grid :=
  if i < g.size then
    { g with
      attributes :=
        (name, (g.column name).setIfInBounds i value) :: g.attributes.filter (·.1 != name) }
  else g

/-- `column` in words; an attribute that was never set gets room for 16 bytes at each cell. -/
def checkedColumn (g : Grid) (name : String) : Checked (Array (Option Int)) :=
  match g.attributes.find? (·.1 == name) with
  | some a => .ok a.2
  | none => do
    let size ← g.checkedSize
    Word.room size 16
    return Array.replicate size none

/-- `setAttribute` in words; the cell must have a value to be replaced. -/
def checkedSetAttribute (g : Grid) (name : String) (i : Nat) (value : Option Int) :
    Checked Grid := do
  let size ← g.checkedSize
  if i < size then
    let column ← g.checkedColumn name
    let column ← Word.write column i value
    return { g with attributes := (name, column) :: g.attributes.filter (·.1 != name) }
  else return g

/-! ## Neighbours -/

/-- The cell north of `(x, y)`. -/
def northOf (g : Grid) (x y : Nat) : Option Nat :=
  match g.boundary with
  | .clamped => g.indexOf x (y + 1)
  | .periodic => g.indexOf x ((y + 1) % g.height)

/-- The cell south of `(x, y)`. -/
def southOf (g : Grid) (x y : Nat) : Option Nat :=
  match y, g.boundary with
  | 0, .clamped => none
  | 0, .periodic => g.indexOf x (g.height - 1)
  | y + 1, _ => g.indexOf x y

/-- The cell east of `(x, y)`. -/
def eastOf (g : Grid) (x y : Nat) : Option Nat :=
  match g.boundary with
  | .clamped => g.indexOf (x + 1) y
  | .periodic => g.indexOf ((x + 1) % g.width) y

/-- The cell west of `(x, y)`. -/
def westOf (g : Grid) (x y : Nat) : Option Nat :=
  match x, g.boundary with
  | 0, .clamped => none
  | 0, .periodic => g.indexOf (g.width - 1) y
  | x + 1, _ => g.indexOf x y

/-- The edges at a cell: those it owns, then those owned by its neighbours south and
west. -/
def incident (g : Grid) (i : Nat) : List (Edge Nat) :=
  match g.coordsOf i with
  | none => []
  | some (x, y) =>
    [(g.northOf x y).map (⟨·, Compass.north, true⟩),
      (g.eastOf x y).map (⟨·, Compass.east, true⟩),
      (g.southOf x y).map (⟨·, Compass.north, false⟩),
      (g.westOf x y).map (⟨·, Compass.east, false⟩)].filterMap id

/-- `northOf` in words. -/
def checkedNorthOf (g : Grid) (x y : Nat) : Checked (Option Nat) :=
  match g.boundary with
  | .clamped => g.checkedIndexOf x (y + 1)
  | .periodic => g.checkedIndexOf x ((y + 1) % g.height)

/-- `southOf` in words. -/
def checkedSouthOf (g : Grid) (x y : Nat) : Checked (Option Nat) :=
  match y, g.boundary with
  | 0, .clamped => .ok none
  | 0, .periodic => g.checkedIndexOf x (g.height - 1)
  | y + 1, _ => g.checkedIndexOf x y

/-- `eastOf` in words. -/
def checkedEastOf (g : Grid) (x y : Nat) : Checked (Option Nat) :=
  match g.boundary with
  | .clamped => g.checkedIndexOf (x + 1) y
  | .periodic => g.checkedIndexOf ((x + 1) % g.width) y

/-- `westOf` in words. -/
def checkedWestOf (g : Grid) (x y : Nat) : Checked (Option Nat) :=
  match x, g.boundary with
  | 0, .clamped => .ok none
  | 0, .periodic => g.checkedIndexOf (g.width - 1) y
  | x + 1, _ => g.checkedIndexOf x y

/-- `incident` in words. The coordinates of a cell are below the width and the height, so one more
is always a word. -/
def checkedIncident (g : Grid) (i : Nat) : Checked (List (Edge Nat)) := do
  match ← g.checkedCoordsOf i with
  | none => return []
  | some (x, y) =>
    let north ← g.checkedNorthOf x y
    let east ← g.checkedEastOf x y
    let south ← g.checkedSouthOf x y
    let west ← g.checkedWestOf x y
    return [north.map (⟨·, Compass.north, true⟩), east.map (⟨·, Compass.east, true⟩),
      south.map (⟨·, Compass.north, false⟩), west.map (⟨·, Compass.east, false⟩)].filterMap id

/-- The grid as a topology. -/
def topology (g : Grid) : Topology Nat where
  vertices := List.range g.size
  label i := toString i
  valueAt i name := g.valueAt name i
  incident := g.incident

/-! ## Cutting out -/

/-- The part of a grid that is cut out around a cell. -/
structure Cutout where
  grid : Grid
  /-- The number that each cell of the part has in the whole. -/
  origin : List Nat
deriving Inhabited

/-- The rectangle of `w` by `h` cells that starts at `(left, bottom)`, row by row and with all
attributes. The part is clamped whatever the boundary of the whole. -/
def rectangle (g : Grid) (left bottom w h : Nat) : Cutout :=
  let origin := (List.range h).flatMap fun j =>
    (List.range w).map fun i => (bottom + j) * g.width + (left + i)
  { grid := {
      width := w, height := h
      attributes := g.attributes.map fun (name, values) =>
        (name, (origin.map fun i => values[i]?.join).toArray) }
    origin }

/-- The values at some cells in words: room for 16 bytes at each, and a value there. -/
def checkedValues (cells : List Nat) (values : Array (Option Int)) :
    Checked (Array (Option Int)) := do
  Word.room cells.length 16
  (cells.mapM (Word.read values)).map List.toArray

/-- `rectangle` in words. The numbers of all cells are found before any attribute is read. -/
def checkedRectangle (g : Grid) (left bottom w h : Nat) : Checked Cutout := do
  let count ← Word.mul w h
  Word.room count 8
  let places := (List.range h).flatMap fun j =>
    (List.range w).map fun i => (left + i, bottom + j)
  let origin ← places.mapM fun (x, y) => g.checkedNumber x y
  let attributes ← g.attributes.mapM fun (name, values) =>
    (checkedValues origin values).map (name, ·)
  return { grid := { width := w, height := h, attributes }, origin }

/-- How many numbers below `extent` there are from `low` to `far`. -/
def extentTo (extent low far : Nat) : Nat := min far (extent - 1) - low + 1

/-- Cuts out the square of cells at most `radius` away from `(cx, cy)` in either
coordinate, as far as it lies within the grid. This is the part itself, with numbers of any size;
`cutOut` finds it in words. -/
def neighborhood (g : Grid) (cx cy radius : Nat) : Option Cutout :=
  if cx < g.width ∧ cy < g.height then
    some (g.rectangle (cx - radius) (cy - radius)
      (extentTo g.width (cx - radius) (cx + radius))
      (extentTo g.height (cy - radius) (cy + radius)))
  else none

/-- `neighborhood` in words. The far sides of the square are added up before they are clipped to
the grid. -/
def cutOut (g : Grid) (cx cy radius : Nat) : Checked (Option Cutout) := do
  match ← g.checkedIndexOf cx cy with
  | none => return none
  | some _ =>
    let farX ← Word.add cx radius
    let farY ← Word.add cy radius
    let part ← g.checkedRectangle (cx - radius) (cy - radius)
      (extentTo g.width (cx - radius) farX) (extentTo g.height (cy - radius) farY)
    return some part

end Grid

end WaveCollapse
