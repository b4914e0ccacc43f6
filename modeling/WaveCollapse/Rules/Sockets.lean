import Std.Data.TreeMap
import WaveCollapse.Registry
import WaveCollapse.Rules.Basic

/-! # Rules from sockets

Every module has a socket on each of its sides: a vector per connection type. Across a
connection of type `t` modules fit exactly when the socket of the one for `t` equals the
socket of the other for the dual of `t`. As an equality between the two sides of one
connection this is symmetric under the duals by its form. -/

namespace WaveCollapse

/-- The sockets of a module, one vector for each connection type. -/
abbrev Sockets := Array (Array Int)

/-- The sockets of all modules. -/
structure SocketTable where
  sockets : Std.TreeMap Nat Sockets
  /-- The length that all vectors have. -/
  dimension : Nat
  duals : Array Nat
  classSizes : Array Nat

namespace SocketTable

/-- The sockets given for each state; what is given later for a state overrides. -/
def gather (entries : List (Nat × Sockets)) : Std.TreeMap Nat Sockets :=
  entries.foldl (fun m e => m.insert e.1 e.2) ∅

/-- Checks vectors against the common length found so far, which the first one sets. -/
def checkVectors (name : String) (dimension : Option Nat) :
    List (Array Int) → Except RegistryError (Option Nat)
  | [] => .ok dimension
  | v :: rest =>
    match dimension with
    | none => checkVectors name (some v.size) rest
    | some d =>
      if d = v.size then checkVectors name (some d) rest
      else .error (.invalidSockets name s!"vector dimension {v.size} differs from {d}")

/-- Checks the sockets of one module: declared, one per type, all of the common length. -/
def checkModule (r : Registry) (sockets : Std.TreeMap Nat Sockets) (dimension : Option Nat)
    (m : Module) : Except RegistryError (Option Nat) :=
  match sockets[m.state]? with
  | none => .error (.invalidSockets m.name "no connection states declared")
  | some vectors =>
    if vectors.size ≠ r.typeCount then
      .error (.invalidSockets m.name
        s!"expected {r.typeCount} connection types, found {vectors.size}")
    else checkVectors m.name dimension vectors.toList

/-- The table of sockets over a registry. Every module needs its sockets; states without a
module may have some too. -/
def ofEntries (r : Registry) (entries : List (Nat × Sockets)) :
    Except RegistryError SocketTable :=
  let sockets := gather entries
  (r.modules.foldlM (checkModule r sockets) none).map fun dimension =>
    { sockets, dimension := dimension.getD 0, duals := r.duals, classSizes := r.classSizes }

variable (s : SocketTable)

/-- The dual of a type; one out of range is its own. -/
def dual (t : Nat) : Nat := s.duals.getD t t

/-- The socket that state `p` has for type `t`. -/
def socket (p t : Nat) : Option (Array Int) := s.sockets[p]?.bind (·[t]?)

/-- Whether the two sockets at a connection are equal. -/
def allows (x t y : Nat) : Bool :=
  match s.socket x t, s.socket y (s.dual t) with
  | some mine, some theirs => mine == theirs
  | _, _ => false

/-- The rules that the sockets stand for. -/
def rules : Rules where
  allows := s.allows
  allowed x t template := admitted s.allows x t template
  dual := s.dual
  classWidth c := s.classSizes.getD c 0
  typeCount := s.duals.size
  classCount := s.classSizes.size

/-- Sockets were accepted. -/
structure Note where
  states : Nat
  dimension : Nat

instance : Narrated Note where
  level _ := .debug
  text n := s!"Connection-state rules: {n.states} modules, vector dimension {n.dimension}"

/-- What `ofEntries` notices. -/
def ofEntriesNotes (r : Registry) (entries : List (Nat × Sockets)) : List Note :=
  match ofEntries r entries with
  | .ok s => [⟨s.sockets.size, s.dimension⟩]
  | .error _ => []

end SocketTable

end WaveCollapse
