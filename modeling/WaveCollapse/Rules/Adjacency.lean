import WaveCollapse.Registry
import WaveCollapse.Rules.Basic

/-! # Rules from a table of neighbours

The table holds one truth value for every type and every two pure states. It is filled from
tuples `(x, y, t)`; each allows `y` at the far end of a connection of type `t` that leaves
`x` and, the same connection seen from `y`, `x` at the far end of one of the dual type. So
the table is symmetric under the duals whichever of the two orientations the tuples
list.

The cells lie in one row, a plane of states by states for every type. In words the table can
only be made if it has fewer cells than half the number of words (`checkedCellsOf`). -/

namespace WaveCollapse

/-- `y` is allowed at the far end of a connection of type `t` that leaves `x`. -/
structure NeighborTuple where
  x : Nat
  y : Nat
  t : Nat
deriving DecidableEq, Inhabited

namespace NeighborTuple

/-- The same permission seen from the other end. -/
def flipped (dual : Nat → Nat) (e : NeighborTuple) : NeighborTuple := ⟨e.y, e.x, dual e.t⟩

/-- Refuses a tuple that names a state without a module or a type that does not exist. -/
def check (r : Registry) (e : NeighborTuple) : Except RegistryError Unit :=
  if (r.moduleOf e.x).isNone then .error (.unknownState e.x)
  else if (r.moduleOf e.y).isNone then .error (.unknownState e.y)
  else if r.typeCount ≤ e.t then .error (.unknownConnectionType e.t)
  else .ok ()

end NeighborTuple

/-- A table of allowed neighbours over all pure states. -/
structure AdjacencyTable where
  stateCount : Nat
  duals : Array Nat
  classSizes : Array Nat
  /-- One cell per type and pair of states, see `cellIndex`. -/
  cells : Array Bool
deriving DecidableEq, Inhabited

namespace AdjacencyTable

/-- Where the cell of a tuple lies in a table over `n` states, a number of any size. -/
def cellIndex (n : Nat) (e : NeighborTuple) : Nat := e.t * n * n + e.x * n + e.y

/-- Marks a tuple, seen from both ends. -/
def mark (n : Nat) (dual : Nat → Nat) (cells : Array Bool) (e : NeighborTuple) : Array Bool :=
  (cells.setIfInBounds (cellIndex n e) true).setIfInBounds (cellIndex n (e.flipped dual)) true

/-- The cells of the table that the tuples span, however many. The first tuple that is refused is
reported. -/
def cellsOf (r : Registry) (tuples : List NeighborTuple) : Except RegistryError (Array Bool) :=
  let n := r.stateSpace
  (tuples.forM (NeighborTuple.check r)).map fun _ =>
    tuples.foldl (mark n r.dual) (Array.replicate (r.typeCount * n * n) false)

/-- The table that the tuples span over a registry. -/
def ofTuples (r : Registry) (tuples : List NeighborTuple) :
    Except RegistryError AdjacencyTable :=
  (cellsOf r tuples).map fun cells =>
    { stateCount := r.stateSpace, duals := r.duals, classSizes := r.classSizes, cells }

variable (a : AdjacencyTable)

/-- Whether the table allows `y` across `t` from `x`; out of range nothing is allowed. -/
def allows (x t y : Nat) : Bool :=
  if x < a.stateCount ∧ y < a.stateCount ∧ t < a.duals.size then
    a.cells.getD (cellIndex a.stateCount ⟨x, y, t⟩) false
  else false

/-- How many cells are true. -/
def allowedCount : Nat := a.cells.count true

/-- The rules that the table stands for. -/
def rules : Rules where
  allows := a.allows
  allowed x t template := admitted a.allows x t template
  dual t := a.duals.getD t t
  classWidth c := a.classSizes.getD c 0
  typeCount := a.duals.size
  classCount := a.classSizes.size

/-! ## In words -/

/-- `cellIndex` in words. -/
def checkedCellIndex (n : Nat) (e : NeighborTuple) : Checked Nat := do
  let row ← Word.mul e.t n
  let plane ← Word.mul row n
  let column ← Word.mul e.x n
  let start ← Word.add plane column
  Word.add start e.y

/-- Marks one cell in words; the table has to have it. -/
def checkedPut (n : Nat) (cells : Array Bool) (e : NeighborTuple) : Checked (Array Bool) := do
  let i ← checkedCellIndex n e
  Word.write cells i true

/-- `mark` in words. -/
def checkedMark (n : Nat) (dual : Nat → Nat) (cells : Array Bool) (e : NeighborTuple) :
    Checked (Array Bool) := do
  let cells ← checkedPut n cells e
  checkedPut n cells (e.flipped dual)

/-- Marks the tuples one after the other, in words, up to the first that is refused. -/
def checkedMarkAll (r : Registry) (n : Nat) :
    Array Bool → List NeighborTuple → Checked (Except RegistryError (Array Bool))
  | cells, [] => .ok (.ok cells)
  | cells, e :: rest =>
    match e.check r with
    | .error error => .ok (.error error)
    | .ok () => do
      let cells ← checkedMark n r.dual cells e
      checkedMarkAll r n cells rest

/-- `cellsOf` in words: the number of cells a word, and room for a byte a cell. -/
def checkedCellsOf (r : Registry) (tuples : List NeighborTuple) :
    Checked (Except RegistryError (Array Bool)) := do
  let n ← Word.mul r.classCount r.stride
  let plane ← Word.mul r.typeCount n
  let count ← Word.mul plane n
  Word.room count 1
  checkedMarkAll r n (Array.replicate count false) tuples

/-- `ofTuples` in words. -/
def checkedOfTuples (r : Registry) (tuples : List NeighborTuple) :
    Checked (Except RegistryError AdjacencyTable) :=
  (checkedCellsOf r tuples).map fun filled => filled.map fun cells =>
    { stateCount := r.stateSpace, duals := r.duals, classSizes := r.classSizes, cells }

/-- `allows` in words. -/
def checkedAllows (x t y : Nat) : Checked Bool :=
  if x < a.stateCount ∧ y < a.stateCount ∧ t < a.duals.size then
    (checkedCellIndex a.stateCount ⟨x, y, t⟩).map fun i => a.cells.getD i false
  else .ok false

/-- What filling a table notices. -/
inductive Note where
  /-- A table of some size is about to be filled. -/
  | filling (modules states types cells : Nat)
  /-- The table was filled. -/
  | filled (count : Nat)

instance : Narrated Note where
  level _ := .debug
  text
    | .filling modules states types cells =>
      s!"Generating symmetric rules: modules={modules}, states={states}, " ++
        s!"connection_types={types}, matrix_size={cells}"
    | .filled count => s!"Generated rule vector with {count} true entries."

/-- What `cellsOf` notices. -/
def cellsNotes (r : Registry) (tuples : List NeighborTuple) : List Note :=
  let n := r.stateSpace
  .filling r.modules.length n r.typeCount (r.typeCount * n * n) ::
    match cellsOf r tuples with
    | .ok cells => [.filled (cells.count true)]
    | .error _ => []

end AdjacencyTable

end WaveCollapse
