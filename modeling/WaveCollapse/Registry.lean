import WaveCollapse.Wave

/-! # The registry of modules

A registry names the connection types with their duals and the modules with their exclusion
classes, and numbers the modules: the modules of class `c` get the pure states from
`c * stride` on in the order in which they are declared, where the stride is the size of
the largest class. -/

namespace WaveCollapse

/-- Why a registry, or rules over it, are refused. -/
inductive RegistryError where
  | noModules
  | noConnectionTypes
  | duplicateModule (name : String)
  | classTooLarge (classId count : Nat)
  | invalidDual (t : Nat)
  | unknownState (p : Nat)
  | unknownConnectionType (t : Nat)
  | invalidSockets (name reason : String)
deriving DecidableEq, Inhabited

/-- The wording of a refusal. -/
def RegistryError.message : RegistryError → String
  | noModules => "Module set cannot be empty."
  | noConnectionTypes => "At least one connection type is required."
  | duplicateModule name => s!"Duplicate module name: {name}"
  | classTooLarge c n => s!"Exclusion class {c} has {n} modules (max {maxWidth})"
  | invalidDual t => s!"Connection type {t} has no valid dual"
  | unknownState p => s!"Unknown pure state: {p}"
  | unknownConnectionType t => s!"Unknown connection type: {t}"
  | invalidSockets name reason => s!"Invalid connection state for module {name}: {reason}"

/-- A registered module and the pure state it got. -/
structure Module where
  name : String
  classId : Nat
  state : Nat
deriving DecidableEq, Inhabited

/-- The modules in declaration order, the size of every class, and the connection types with
their duals. -/
structure Registry where
  modules : List Module
  classSizes : Array Nat
  types : List String
  duals : Array Nat
deriving DecidableEq, Inhabited

namespace Registry

/-! ## Registering -/

/-- The size of every class, up to the highest class in use. -/
def tally (modules : List (String × Nat)) : Array Nat :=
  let classCount := modules.foldl (fun n m => max n (m.2 + 1)) 0
  modules.foldl (fun sizes m => sizes.modify m.2 (· + 1)) (Array.replicate classCount 0)

/-- The largest class. -/
def largest (sizes : Array Nat) : Nat := sizes.foldl max 0

/-- Numbers modules, given how many of each class came before. -/
def enroll (stride : Nat) (before : Array Nat) : List (String × Nat) → List Module
  | [] => []
  | (name, c) :: rest =>
    ⟨name, c, c * stride + before.getD c 0⟩ ::
      enroll stride (before.modify c (· + 1)) rest

/-- The position of the first module that makes its class larger than a wave is wide. -/
def crowded (modules : List (String × Nat)) : Option Nat :=
  (List.range modules.length).find? fun i =>
    match modules[i]? with
    | some (_, c) => maxWidth ≤ (modules.take i).countP (·.2 == c)
    | none => false

/-- The first name that occurred before. -/
def firstRepeated (names : List String) : Option String :=
  ((List.range names.length).find? fun i =>
    match names[i]? with
    | some n => (names.take i).contains n
    | none => false).bind (names[·]?)

/-- The first type without a dual that leads back to it. -/
def firstUnpaired (typeCount : Nat) (duals : Array Nat) : Option Nat :=
  (List.range typeCount).find? fun t => (duals[t]?.bind (duals[·]?)) != some t

/-- Registers modules, given as names with classes. There must be a type and a module, the
duals must pair the types, no class may outgrow a wave and no name may repeat; the first of
these that fails is reported. -/
def register (types : List String) (duals : List Nat) (modules : List (String × Nat)) :
    Except RegistryError Registry :=
  let duals := duals.toArray
  if types.isEmpty then .error .noConnectionTypes
  else if modules.isEmpty then .error .noModules
  else
    match firstUnpaired types.length duals with
    | some t => .error (.invalidDual t)
    | none =>
      if duals.size ≠ types.length then .error (.invalidDual types.length)
      else
        match (crowded modules).bind (modules[·]?) with
        | some (_, c) => .error (.classTooLarge c (maxWidth + 1))
        | none =>
          match firstRepeated (modules.map (·.1)) with
          | some name => .error (.duplicateModule name)
          | none =>
            let sizes := tally modules
            .ok {
              modules := enroll (largest sizes) (Array.replicate sizes.size 0) modules
              classSizes := sizes, types, duals }

/-! ## Looking up -/

variable (r : Registry)

/-- The distance between the first states of neighbouring classes: the largest class. -/
def stride : Nat := largest r.classSizes

/-- The state of the module called `name`. -/
def stateOf (name : String) : Option Nat := (r.modules.find? (·.name == name)).map (·.state)

/-- The module with state `p`. -/
def moduleOf (p : Nat) : Option Module := r.modules.find? (·.state == p)

/-- The name of the module with state `p`. -/
def nameOf (p : Nat) : Option String := (r.moduleOf p).map (·.name)

/-- The size of a class; a class not in use has none. -/
def classSize (c : Nat) : Nat := r.classSizes.getD c 0

/-- How many classes there are, unused ones in between included. -/
def classCount : Nat := r.classSizes.size

/-- The bound below which all states lie. -/
def stateSpace : Nat := r.classCount * r.stride

/-- How many connection types there are. -/
def typeCount : Nat := r.types.length

/-- The number of the type called `name`. -/
def typeIndex (name : String) : Option Nat := r.types.findIdx? (· == name)

/-- The name of a type. -/
def typeName (t : Nat) : Option String := r.types[t]?

/-- The dual of a type; one out of range is its own. -/
def dual (t : Nat) : Nat := r.duals.getD t t

/-! ## What is worth noting -/

/-- A module was registered. -/
structure Note where
  name : String
  classId : Nat

instance : Narrated Note where
  level _ := .debug
  text n := s!"Registered module '{n.name}' in class {n.classId}"

/-- What `register` notices: the modules up to the one that is refused for its class. -/
def registerNotes (types : List String) (duals : List Nat) (modules : List (String × Nat)) :
    List Note :=
  if types.isEmpty ∨ (firstUnpaired types.length duals.toArray).isSome ∨
      duals.length ≠ types.length then []
  else
    ((match crowded modules with
      | some i => modules.take i
      | none => modules).map fun (name, c) => ⟨name, c⟩)

end Registry

end WaveCollapse
