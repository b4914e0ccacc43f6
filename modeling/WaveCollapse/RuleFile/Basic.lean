import WaveCollapse.Rules.Adjacency
import WaveCollapse.Rules.Sockets

/-! # What a rule file says

A rule file names the connection types, pairs the dual ones, lists the modules and says
which modules fit, either by sockets on the modules or by neighbour triples; sockets win.
`RuleFile.build` checks a file in the order in which it is written down here and reports
the first thing that is wrong. -/

namespace WaveCollapse

/-! ## What a rule file stands for -/

/-- Rules given by a table of neighbours or by sockets. -/
inductive RuleSet where
  | adjacency (table : AdjacencyTable)
  | sockets (table : SocketTable)

namespace RuleSet

/-- The label of the kind of rules. -/
def kind : RuleSet → String
  | adjacency _ => "adjacency"
  | sockets _ => "connection-state"

/-- The rules it stands for. -/
def rules : RuleSet → Rules
  | adjacency table => table.rules
  | sockets table => table.rules

end RuleSet

/-- Rules together with the registry they were built over. -/
structure LoadedRules where
  registry : Registry
  ruleSet : RuleSet

/-! ## What it says -/

/-- A module as a rule file declares it. -/
structure ModuleEntry where
  name : String
  classId : Nat
  /-- The vector for each type name, if the module has any; names in ascending order and
  each once. -/
  sockets : Option (List (String × List Int))
deriving DecidableEq, Inhabited

/-- `y` fits at the far end of a connection of type `t` that leaves `x`, by names. -/
structure NeighborEntry where
  x : String
  y : String
  t : String
deriving DecidableEq, Inhabited

/-- The content of a rule file. -/
structure RuleFile where
  types : List String
  duals : List (String × String)
  modules : List ModuleEntry
  neighbors : List NeighborEntry
deriving DecidableEq, Inhabited

/-- Why the content of a rule file is refused. -/
inductive RuleFileError where
  | noModules
  | unknownType (name : String)
  | conflictingDuals (type : String)
  | missingDual (type : String)
  | noSockets (module : String)
  | noSocket (module type : String)
  | unknownModule (name : String)
  | registry (cause : RegistryError)
deriving DecidableEq, Inhabited

/-- The wording of a refusal. -/
def RuleFileError.message : RuleFileError → String
  | noModules => "No modules defined."
  | unknownType name => s!"Invalid connection type name: {name}"
  | conflictingDuals type => s!"Conflicting duals for connection type {type}"
  | missingDual type => s!"Connection type {type} has no dual"
  | noSockets module => s!"Module {module} has no connection states while others do"
  | noSocket module type => s!"Module {module} has no connection state for {type}"
  | unknownModule name => s!"Unknown module: {name}"
  | registry cause => s!"Rule set error: {cause.message}"

namespace RuleFile

/-- Refusals of the registry are refusals of the file. -/
def liftRegistry {α : Type} : Except RegistryError α → Except RuleFileError α
  | .ok a => .ok a
  | .error e => .error (.registry e)

/-- The number of a type: the first position of its name. -/
def typeIndex (types : List String) (name : String) : Except RuleFileError Nat :=
  match types.findIdx? (· == name) with
  | some t => .ok t
  | none => .error (.unknownType name)

/-! ## Duals -/

/-- Notes that the dual of `a` is `b`, unless another one was noted before. -/
def pairOne (types : List String) (duals : Array (Option Nat)) (a b : Nat) :
    Except RuleFileError (Array (Option Nat)) :=
  match duals.getD a none with
  | some c =>
    if c = b then .ok duals else .error (.conflictingDuals (types.getD a ""))
  | none => .ok (duals.setIfInBounds a (some b))

/-- Reads a pair in both directions. -/
def pair (types : List String) (duals : Array (Option Nat)) (names : String × String) :
    Except RuleFileError (Array (Option Nat)) := do
  let a ← typeIndex types names.1
  let b ← typeIndex types names.2
  let duals ← pairOne types duals a b
  pairOne types duals b a

/-- The dual of every type in order; each needs one. -/
def settled (types : List String) (duals : Array (Option Nat)) : Except RuleFileError (List Nat) :=
  (types.zip duals.toList).mapM fun (type, dual) =>
    match dual with
    | some d => .ok d
    | none => .error (.missingDual type)

/-- The duals that the pairs of names stand for. -/
def dualsOf (types : List String) (pairs : List (String × String)) :
    Except RuleFileError (List Nat) := do
  let duals ← pairs.foldlM (pair types) (Array.replicate types.length none)
  settled types duals

/-! ## Modules and rules -/

variable (file : RuleFile)

/-- The registry of the modules. -/
def registry : Except RuleFileError Registry := do
  if file.modules.isEmpty then throw .noModules
  let duals ← dualsOf file.types file.duals
  liftRegistry (Registry.register file.types duals (file.modules.map fun m => (m.name, m.classId)))

/-- Whether the file gives its rules by sockets: some module has them. -/
def usesSockets : Bool := file.modules.any (·.sockets.isSome)

/-- The state of a module by name. -/
def stateOf (r : Registry) (name : String) : Except RuleFileError Nat :=
  match r.stateOf name with
  | some p => .ok p
  | none => .error (.unknownModule name)

/-- The vectors of a module in the order of the types. They must be given for the types and
for nothing else. -/
def socketEntry (r : Registry) (m : ModuleEntry) : Except RuleFileError (Nat × Sockets) := do
  match m.sockets with
  | none => throw (.noSockets m.name)
  | some given =>
    given.forM fun (name, _) => discard (typeIndex file.types name)
    let vectors ← file.types.mapM fun type =>
      match given.lookup type with
      | some vector => .ok vector.toArray
      | none => .error (.noSocket m.name type)
    return (← stateOf r m.name, vectors.toArray)

/-- The vectors of all modules. -/
def socketEntries (r : Registry) : Except RuleFileError (List (Nat × Sockets)) :=
  file.modules.mapM (socketEntry file r)

/-- A triple of names as a tuple of numbers. -/
def neighborTuple (r : Registry) (e : NeighborEntry) : Except RuleFileError NeighborTuple := do
  let x ← stateOf r e.x
  let y ← stateOf r e.y
  let t ← typeIndex file.types e.t
  return ⟨x, y, t⟩

/-- All triples as tuples. -/
def neighborTuples (r : Registry) : Except RuleFileError (List NeighborTuple) :=
  file.neighbors.mapM (neighborTuple file r)

/-- The rules over the registry of the modules. -/
def ruleSet (r : Registry) : Except RuleFileError RuleSet := do
  if file.usesSockets then
    return .sockets (← liftRegistry (SocketTable.ofEntries r (← socketEntries file r)))
  else
    return .adjacency (← liftRegistry (AdjacencyTable.ofTuples r (← neighborTuples file r)))

/-- The rules that a file gives. -/
def build : Except RuleFileError LoadedRules := do
  let registry ← file.registry
  return { registry, ruleSet := ← file.ruleSet registry }

/-! ## In words -/

/-- `ruleSet` in words: a table of neighbours may be too large. -/
def checkedRuleSet (r : Registry) : Checked (Except RuleFileError RuleSet) :=
  if file.usesSockets then .ok (file.ruleSet r)
  else
    match neighborTuples file r with
    | .error e => .ok (.error e)
    | .ok tuples =>
      (AdjacencyTable.checkedOfTuples r tuples).map fun made =>
        (liftRegistry made).map .adjacency

/-- `build` in words. -/
def checkedBuild : Checked (Except RuleFileError LoadedRules) :=
  match file.registry with
  | .error e => .ok (.error e)
  | .ok registry =>
    (file.checkedRuleSet registry).map fun made =>
      made.map fun ruleSet => { registry, ruleSet }

/-! ## What is worth noting -/

/-- What building notices. -/
inductive Note where
  | registering (note : Registry.Note)
  /-- The file has sockets and triples; the triples do not count. -/
  | ignoring (count : Nat)
  | sockets (note : SocketTable.Note)
  | table (note : AdjacencyTable.Note)
  | built (kind : String) (modules classes : Nat)

instance : Narrated Note where
  level
    | .registering n => Narrated.level n
    | .ignoring _ => .warn
    | .sockets n => Narrated.level n
    | .table n => Narrated.level n
    | .built .. => .debug
  text
    | .registering n => Narrated.text n
    | .ignoring count =>
      s!"Ignoring {count} adjacency entries: modules declare connection states"
    | .sockets n => Narrated.text n
    | .table n => Narrated.text n
    | .built kind modules classes =>
      s!"Built {kind} rules for {modules} modules in {classes} classes"

/-- What registering the modules notices. -/
def registryNotes : List Note :=
  if file.modules.isEmpty then []
  else
    match dualsOf file.types file.duals with
    | .error _ => []
    | .ok duals =>
      (Registry.registerNotes file.types duals
        (file.modules.map fun m => (m.name, m.classId))).map .registering

/-- What making the rules notices. -/
def ruleSetNotes (r : Registry) : List Note :=
  if file.usesSockets then
    (if file.neighbors.isEmpty then [] else [.ignoring file.neighbors.length]) ++
      match socketEntries file r with
      | .ok entries => (SocketTable.ofEntriesNotes r entries).map .sockets
      | .error _ => []
  else
    match neighborTuples file r with
    | .ok tuples => (AdjacencyTable.cellsNotes r tuples).map .table
    | .error _ => []

/-- What `build` notices. -/
def buildNotes : List Note :=
  file.registryNotes ++
    match file.registry with
    | .error _ => []
    | .ok r =>
      file.ruleSetNotes r ++
        match file.ruleSet r with
        | .ok rules => [.built rules.kind r.modules.length r.classCount]
        | .error _ => []

end RuleFile

end WaveCollapse
