import Std.Data.TreeMap
import WaveCollapse.Rules.Basic
import WaveCollapse.System.Error
import WaveCollapse.Topology.Basic

/-! # Systems of waves

A *problem* is a topology with rules for its edges. A *system* lays one wave over every
vertex: variable `i` belongs to the vertex at place `i` of the topology's list, and the
connections of a variable are the edges at its vertex, turned so that they lead away from
it. An edge to a vertex that is not listed, or of a type that the rules do not have, gives
no connection. When a vertex is listed twice, edges lead to the later of its variables.

The starting wave of a variable is decided by two attributes of its vertex: the class, which
is zero when there is none, and a forced pure state, which leaves that state only, or
nothing when it lies outside the class. -/

namespace WaveCollapse

/-- A topology with rules, and the names of the attributes that hold a vertex's class and
its forced state. -/
structure Problem (V : Type) where
  topology : Topology V
  rules : Rules
  /-- The distance between the first states of neighbouring classes. -/
  stride : Nat
  classAttribute : Option String := none
  boundaryAttribute : Option String := none

/-- A connection as seen from the variable that it leaves. -/
structure Connection where
  destination : Nat
  kind : Nat
deriving DecidableEq, Inhabited

/-- A connection whose resolved ends the rules reject. -/
structure Violation where
  source : Nat
  destination : Nat
  kind : Nat
deriving DecidableEq, Inhabited

/-- A problem, its connections by variable, and the wave of each variable. -/
structure System (V : Type) where
  problem : Problem V
  connections : Array (Array Connection)
  waves : Array Wave

namespace Problem
variable {V : Type} (p : Problem V)

/-! ## Connections -/

/-- The variable of every vertex; of a repeated vertex the last one. -/
def numbering [Ord V] : Std.TreeMap V Nat :=
  p.topology.vertices.zipIdx.foldl (fun m (v, i) => m.insert v i) ∅

/-- The connection that an edge gives to the vertex it is seen from. -/
def connect? [Ord V] (numbering : Std.TreeMap V Nat) (e : Edge V) : Option Connection :=
  match numbering[e.other]? with
  | none => none
  | some destination =>
    if e.kind < p.rules.typeCount then
      some { destination, kind := if e.outgoing then e.kind else p.rules.dual e.kind }
    else none

/-- The connections of every variable. -/
def connections [Ord V] : Array (Array Connection) :=
  let numbering := p.numbering
  (p.topology.vertices.map fun v =>
    ((p.topology.incident v).filterMap (p.connect? numbering)).toArray).toArray

/-! ## Starting waves -/

/-- The class of variable `i` at vertex `v`. -/
def classOf (i : Nat) (v : V) : Except CollapseError Nat :=
  match p.classAttribute.bind (p.topology.valueAt v) with
  | none => .ok 0
  | some c => if 0 ≤ c then .ok c.toNat else .error (.negativeClass i c)

/-- The state forced at vertex `v`; a negative value forces none. -/
def forcedAt (v : V) : Option Nat :=
  (p.boundaryAttribute.bind (p.topology.valueAt v)).bind fun value =>
    if 0 ≤ value then some value.toNat else none

/-- The layout of a class under the problem's stride. -/
def layoutOf (c : Nat) : Layout := ⟨c, p.stride, p.rules.classWidth c⟩

/-- The starting wave of variable `i` at vertex `v`. -/
def startingWave (i : Nat) (v : V) : Except CollapseError Wave := do
  let layout := p.layoutOf (← p.classOf i v)
  (layout.check).mapError (.invalidClass i)
  match p.forcedAt v with
  | some s => return (Wave.empty layout).add s
  | none => return Wave.full layout

/-- The starting waves of all variables, or the first failure. -/
def startingWaves : Except CollapseError (Array Wave) :=
  (p.topology.vertices.zipIdx.mapM fun (v, i) => p.startingWave i v).map List.toArray

/-- The system of a problem, with its starting waves. -/
def system [Ord V] : Except CollapseError (System V) :=
  p.startingWaves.map fun waves => { problem := p, connections := p.connections, waves }

/-! ## What is worth noting -/

/-- What building or resetting a system noticed. -/
inductive Note where
  | repeatedVertices (listed distinct : Nat)
  | danglingEdge (source other : String)
  | unknownKind (source : String) (kind known : Nat)
  | negativeBoundary (value : Int) (vertex : String)
  | wave (note : Wave.Note)
  | ready (count stride : Nat)

instance : Narrated Note where
  level
    | .wave note => Narrated.level note
    | .ready .. => .debug
    | _ => .warn
  text
    | .repeatedVertices listed distinct =>
      s!"Topology reported {listed} vertices but only {distinct} are distinct"
    | .danglingEdge source other =>
      s!"Skipping dangling edge from {source} to unknown vertex {other}"
    | .unknownKind source kind known =>
      s!"Skipping edge from {source} with connection type {kind} (rules define {known})"
    | .negativeBoundary value vertex =>
      s!"Treating boundary value {value} of {vertex} as unconstrained"
    | .wave note => Narrated.text note
    | .ready count stride =>
      s!"Wave function system ready: {count} variables, global dimension {stride}"

/-- What the starting wave of one variable gives to note. Minus one is the usual way to
force nothing; a lower value is remarkable. -/
def startingNotes (i : Nat) (v : V) : List Note :=
  match p.classOf i v with
  | .error _ => []
  | .ok c =>
    (match p.boundaryAttribute.bind (p.topology.valueAt v) with
      | some value => if value < -1 then [.negativeBoundary value (p.topology.label v)] else []
      | none => []) ++
    (match (p.layoutOf c).check, p.forcedAt v with
      | .ok _, some s => ((Wave.empty (p.layoutOf c)).addNotes s).map .wave
      | _, _ => [])

/-- What a reset notices: every variable up to the first that fails. -/
def resetNotes : List Note :=
  upTo p.topology.vertices.zipIdx
where
  upTo : List (V × Nat) → List Note
    | [] => []
    | (v, i) :: rest =>
      p.startingNotes i v ++
        match p.startingWave i v with
        | .ok _ => upTo rest
        | .error _ => []

/-- What building the system notices. -/
def systemNotes [Ord V] : List Note :=
  let numbering := p.numbering
  let vertices := p.topology.vertices
  (if numbering.size ≠ vertices.length then
    [.repeatedVertices vertices.length numbering.size] else []) ++
  (vertices.flatMap fun v => (p.topology.incident v).filterMap fun e =>
    if !numbering.contains e.other then
      some (.danglingEdge (p.topology.label v) (p.topology.label e.other))
    else if p.rules.typeCount ≤ e.kind then
      some (.unknownKind (p.topology.label v) e.kind p.rules.typeCount)
    else none) ++
  p.resetNotes ++
  match p.startingWaves with
  | .ok waves => [.ready waves.size p.stride]
  | .error _ => []

end Problem

namespace System
variable {V : Type} (s : System V)

/-- The number of variables. -/
def size : Nat := s.waves.size

/-- The wave of a variable; an unknown variable has the wave of no class. -/
def wave (v : Nat) : Wave := s.waves.getD v default

/-- The connections that leave a variable; an unknown one has none. -/
def outgoing (v : Nat) : Array Connection := s.connections.getD v #[]

/-- The vertex of a variable. -/
def vertex (v : Nat) : Option V := s.problem.topology.vertices[v]?

/-- The variable of a vertex. -/
def variableOf [Ord V] (vertex : V) : Option Nat := s.problem.numbering[vertex]?

/-! ## Changing the waves -/

/-- Gives every variable its starting wave again. -/
def reset : Except CollapseError (System V) :=
  s.problem.startingWaves.map fun waves => { s with waves }

/-- Replaces the wave of a variable. -/
def setWave (v : Nat) (w : Wave) : Except CollapseError (System V) :=
  if v < s.size then .ok { s with waves := s.waves.setIfInBounds v w }
  else .error (.unknownVariable v)

/-- Replaces all waves. -/
def restore (waves : Array Wave) : Except CollapseError (System V) :=
  if waves.size = s.size then .ok { s with waves }
  else .error (.snapshotMismatch s.size waves.size)

/-! ## Reading the waves -/

/-- How many variables have exactly one state. -/
def resolvedCount : Nat := s.waves.countP Wave.isResolved

/-- Every variable has exactly one state. -/
def fullyResolved : Bool := s.waves.all Wave.isResolved

/-- The state of every resolved variable. -/
def assignment : Array (Option Nat) := s.waves.map Wave.resolvedState

/-- The violations at the connections of one variable. -/
def violationsFrom (source : Nat) : List Violation :=
  match (s.wave source).resolvedState with
  | none => []
  | some x =>
    (s.outgoing source).toList.filterMap fun c =>
      match (s.wave c.destination).resolvedState with
      | none => none
      | some y =>
        if s.problem.rules.allows x c.kind y then none
        else some ⟨source, c.destination, c.kind⟩

/-- All connections whose resolved ends the rules reject. -/
def violations : List Violation := (List.range s.size).flatMap s.violationsFrom

/-! ## In words -/

/-- `assignment` in words. -/
def checkedAssignment : Checked (Array (Option Nat)) :=
  (s.waves.toList.mapM Wave.checkedResolvedState).map List.toArray

/-- The violation, if there is one, at a connection of a variable that holds state `x`. -/
def checkedViolation? (source x : Nat) (c : Connection) : Checked (Option Violation) := do
  match ← (s.wave c.destination).checkedResolvedState with
  | none => return none
  | some y =>
    if s.problem.rules.allows x c.kind y then return none
    else return some ⟨source, c.destination, c.kind⟩

/-- `violationsFrom` in words. -/
def checkedViolationsFrom (source : Nat) : Checked (List Violation) := do
  match ← (s.wave source).checkedResolvedState with
  | none => return []
  | some x =>
    let found ← (s.outgoing source).toList.mapM (s.checkedViolation? source x)
    return found.filterMap id

/-- `violations` in words. -/
def checkedViolations : Checked (List Violation) :=
  ((List.range s.size).mapM s.checkedViolationsFrom).map List.flatten

end System

end WaveCollapse
