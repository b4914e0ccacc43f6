/-! # Topologies

What a system of waves is laid over: vertices, integer attributes of vertices and typed
edges. Every edge is stored with an orientation and seen from both of its ends; the type of
an edge that comes in is that of its stored orientation. -/

namespace WaveCollapse

/-- An edge or loop as seen from one of its ends. -/
structure Edge (V : Type) where
  /-- The vertex at the other end, or the same one for a loop. -/
  other : V
  /-- The type of the edge in its stored orientation. -/
  kind : Nat
  /-- Whether the stored orientation leads away from here. -/
  outgoing : Bool
deriving DecidableEq, Inhabited

/-- A graph with attributes: its vertices in order, which may repeat one, the attributes of
a vertex by name, and the edges at a vertex in order. -/
structure Topology (V : Type) where
  vertices : List V
  /-- How a vertex is written in notes. -/
  label : V → String
  valueAt : V → String → Option Int
  incident : V → List (Edge V)

/-- A graph given by lists. -/
structure Graph where
  vertices : List Int
  /-- The edges, each with the vertex it is seen from. -/
  edges : List (Int × Edge Int)
  /-- Named attributes of vertices; a later entry overrides an earlier one. -/
  attributes : List (String × Int × Int)
deriving Inhabited

namespace Graph

/-- The topology that the lists describe. -/
def topology (g : Graph) : Topology Int where
  vertices := g.vertices
  label v := toString v
  valueAt v name :=
    (g.attributes.reverse.find? fun (n, u, _) => n == name && u == v).map (·.2.2)
  incident v := (g.edges.filter (·.1 == v)).map (·.2)

end Graph

end WaveCollapse
