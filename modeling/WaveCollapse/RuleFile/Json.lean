import WaveCollapse.Json.Parser
import WaveCollapse.RuleFile.Basic

/-! # Rule files in JSON

Records may be objects or lists of the fields in order; a field that has a default may be
left out at the end. -/

namespace WaveCollapse

/-- Keeps one value for each name, the last one given, and sorts by name. -/
def lastByName {α : Type} (entries : List (String × α)) : List (String × α) :=
  let names := (entries.map (·.1)).eraseDups.mergeSort (fun a b => !decide (b < a))
  names.filterMap fun name => entries.reverse.find? (·.1 == name)

namespace RuleFile

/-- A pair of strings. -/
def pairOfJson? : Json → Option (String × String)
  | .list [a, b] => do return (← a.toText?, ← b.toText?)
  | _ => none

/-- A triple of strings. -/
def neighborOfJson? : Json → Option NeighborEntry
  | .list [x, y, t] => do return ⟨← x.toText?, ← y.toText?, ← t.toText?⟩
  | _ => none

/-- Vectors by type name; of a repeated name the last one counts. -/
def socketsOfJson? : Json → Option (List (String × List Int))
  | .object members => do
    let entries ← (← Json.named? members).mapM fun (name, j) => (Json.toList? Json.toInt32? j).map (name, ·)
    return lastByName entries
  | _ => none

/-- A value that may be absent or null. -/
def orNull {α : Type} (f : Json → Option α) : Option Json → Option (Option α)
  | none | some .null => some none
  | some j => (f j).map some

/-- A value that may be absent. -/
def orDefault {α : Type} (d : α) (f : Json → Option α) : Option Json → Option α
  | none => some d
  | some j => f j

/-- A module. -/
def moduleOfJson? (j : Json) : Option ModuleEntry := do
  match ← j.toFields? ["name", "class", "states"] with
  | [name, classId, sockets] =>
    return {
      name := ← (← name).toText?
      classId := ← orDefault 0 Json.toNat64? classId
      sockets := ← orNull socketsOfJson? sockets }
  | _ => none

/-- The content of a rule file. -/
def ofJson? (j : Json) : Option RuleFile := do
  match ← j.toFields? ["connection_types", "duals", "modules", "adjacency"] with
  | [types, duals, modules, neighbors] =>
    return {
      types := ← (← types).toList? Json.toText?
      duals := ← (← duals).toList? pairOfJson?
      modules := ← (← modules).toList? moduleOfJson?
      neighbors := ← orDefault [] (Json.toList? neighborOfJson?) neighbors }
  | _ => none

end RuleFile

end WaveCollapse
