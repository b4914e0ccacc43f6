import WaveCollapse.Ron.Skipped
import WaveCollapse.RuleFile.Json

/-! # Rule files in RON

Records are fields in parentheses, in any order and each at most once, and may carry their
type's name in front. -/

namespace WaveCollapse.RuleFile

open Text Ron

/-- How deep a text may nest. -/
def maxNesting : Nat := 128

/-- The name that a record may carry. -/
def recordName (typeName : String) : Reader Unit := do
  if (← get).head?.any inName then
    if (← name) ≠ typeName then failure
  blanks

/-- The fields of a record, each as what it changes in the record read so far. A field's name
is given to `field` with the record, which refuses a repeated one. -/
def record {α : Type} (typeName : String) (start : α) (field : α → String → Reader α) :
    Reader α := do
  recordName typeName
  expect "("
  let rec fieldsWithin : Nat → α → Reader α
    | 0, _ => failure
    | fuel + 1, a => do
      blanks
      if (← peek) = ')' then return a
      let a ← member name (field a)
      if ← comma then fieldsWithin fuel a
      else if (← peek) = ')' then return a
      else failure
  let s ← get
  let a ← fieldsWithin (s.length + 1) start
  blanks
  expect ")"
  return a

/-- Reads a field for the first time. -/
def once {α : Type} (before : Option α) (value : Reader α) : Reader (Option α) :=
  match before with
  | some _ => failure
  | none => some <$> value

/-- A string with the comma after it; after the last of a tuple the comma may be missing. -/
def tupleString (last : Bool) : Reader String := do
  blanks
  if (← peek) = ')' then failure
  let s ← string
  if !(← comma) && !last then failure
  return s

/-- The end of a tuple. -/
def tupleEnd : Reader Unit := do
  blanks
  expect ")"

/-- A pair of strings. -/
def pairOfRon : Reader (String × String) := do
  expect "("
  let a ← tupleString false
  let b ← tupleString true
  tupleEnd
  return (a, b)

/-- A triple of strings. -/
def neighborOfRon : Reader NeighborEntry := do
  expect "("
  let x ← tupleString false
  let y ← tupleString false
  let t ← tupleString true
  tupleEnd
  return ⟨x, y, t⟩

/-- Vectors by type name; of a repeated name the last one counts. -/
def socketsOfRon : Reader (List (String × List Int)) := do
  let vector : String → Reader (String × List Int) := fun name =>
    return (name, ← list (integer 32))
  return lastByName (← enclosed "\x7b" "\x7d" (member string vector))

/-- A value that may be missing: `None`, or the value inside `Some`. -/
def optionOfRon {α : Type} (extensions : Extensions) (value : Reader α) : Reader (Option α) := do
  if ← takeWord "None" then return none
  if ← takeWord "Some" then
    blanks
    if ← take "(" then
      blanks
      let a ← value
      discard comma
      expect ")"
      return some a
  if extensions.implicitSome then some <$> value else failure

/-- The fields of a module read so far. -/
structure PartialModule where
  name : Option String := none
  classId : Option Nat := none
  sockets : Option (Option (List (String × List Int))) := none

/-- A module. -/
def moduleOfRon (extensions : Extensions) : Reader ModuleEntry := do
  let m ← record "ModuleData" ({} : PartialModule) fun m field => do
    match field with
    | "name" => return { m with name := ← once m.name string }
    | "class" => return { m with classId := ← once m.classId natural64 }
    | "states" =>
      return { m with sockets := ← once m.sockets (optionOfRon extensions socketsOfRon) }
    | _ =>
      skipped (maxNesting - 6)
      return m
  match m.name with
  | some name => return { name, classId := m.classId.getD 0, sockets := m.sockets.join }
  | none => failure

/-- The fields of a rule file read so far. -/
structure PartialFile where
  types : Option (List String) := none
  duals : Option (List (String × String)) := none
  modules : Option (List ModuleEntry) := none
  neighbors : Option (List NeighborEntry) := none

/-- The content of a rule file. -/
def valueOfRon (extensions : Extensions) : Reader RuleFile := do
  let file ← record "RuleFile" ({} : PartialFile) fun f field => do
    match field with
    | "connection_types" => return { f with types := ← once f.types (list string) }
    | "duals" => return { f with duals := ← once f.duals (list pairOfRon) }
    | "modules" => return { f with modules := ← once f.modules (list (moduleOfRon extensions)) }
    | "adjacency" => return { f with neighbors := ← once f.neighbors (list neighborOfRon) }
    | _ =>
      skipped (maxNesting - 2)
      return f
  match file.types, file.duals, file.modules with
  | some types, some duals, some modules =>
    return { types, duals, modules, neighbors := file.neighbors.getD [] }
  | _, _, _ => failure

/-- The content of a rule file in RON. -/
def ofRon? (text : String) : Option RuleFile := document valueOfRon text

end WaveCollapse.RuleFile
