import WaveCollapse.Benchmark.Scenario
import WaveCollapse.Decimal
import WaveCollapse.Files
import WaveCollapse.Output
import WaveCollapse.Text.Quoted

/-! # Reports of a comparison

A comparison is shown as a table with columns of fixed width and a verdict below it, and
saved as comma-separated values. A value that there is none of shows as a dash in the table
and is left empty in the file. -/

namespace WaveCollapse.Text.Csv

/-! ## Comma-separated values

A record is one line with a comma between its fields. A field that holds a comma, a quote or
a line break stands between quotes, and quotes inside it are written twice. -/

/-- Whether a field has to stand between quotes because of a character. -/
def isSpecial (c : Char) : Bool := c = ',' || c = '"' || c = '\n' || c = '\r'

/-- A field; quotes are written twice between quotes. -/
def field (s : String) : String :=
  if s.toList.any isSpecial then
    let doubled := s.toList.flatMap fun c => if c = '"' then ['"', '"'] else [c]
    "\"" ++ String.ofList doubled ++ "\""
  else s

/-- A record. -/
def line (fields : List String) : String := ",".intercalate (fields.map field) ++ "\n"

end WaveCollapse.Text.Csv

namespace WaveCollapse

open Terminal

namespace Scenario
variable (s : Scenario)

/-! ## The table -/

/-- A row of the table: the first cell starts its column, the others end theirs. -/
def tableRow (name : String) (cells : List String) : String :=
  let columns := cells.zipWith (fun cell width => padLeft width cell) [6, 6, 12, 12, 12, 10]
  " ".intercalate (padRight 8 name :: columns) ++ "\n"

/-- The titles of the columns. -/
def tableTitles : String :=
  tableRow "Mode" ["Runs", "OK", "Avg (ms)", "Median (ms)", "StdDev (ms)", "Avg Obs"]

/-- A number in the table. -/
def tableNumber (places : Nat) (x : Option Float) : String :=
  (x.map (Decimal.fixed places)).getD "-"

/-- The count of successes as wide as its column: green if nothing failed. -/
def successText (color : Bool) : String :=
  styled color (.colored (if s.failed = 0 then .green else .yellow))
    (padLeft 6 (toString s.succeeded))

/-- The row of a scenario. -/
def tableText (color : Bool) : String :=
  tableRow s.mode.name [toString s.runs, s.successText color, tableNumber 3 s.meanTime,
    tableNumber 3 s.medianTime, tableNumber 3 s.timeDeviation, tableNumber 1 s.meanObservations]

/-! ## The file -/

/-- The titles of the columns in the file. -/
def fileTitles : List String :=
  ["Rule File", "Mode", "Width", "Height", "Num Modules", "Total Runs", "Successful Runs",
    "Failed Runs", "Avg Time (ms)", "Median Time (ms)", "Std Dev Time (ms)",
    "Avg Observations", "Total Backtracks"]

/-- A number in the file. -/
def fileNumber (x : Option Float) : String := (x.map (Decimal.fixed 6)).getD ""

/-- The record of a scenario; of the rule file only the name counts. -/
def fileRecord : List String :=
  [(Path.fileName? s.ruleFile).getD s.ruleFile, s.mode.name, toString s.width,
    toString s.height, toString s.modules, toString s.runs, toString s.succeeded,
    toString s.failed, fileNumber s.meanTime, fileNumber s.medianTime,
    fileNumber s.timeDeviation, fileNumber s.meanObservations, toString s.backtracks]

/-- The file of some scenarios. -/
def fileText (scenarios : List Scenario) : String :=
  String.join ((fileTitles :: scenarios.map fileRecord).map Text.Csv.line)

end Scenario

namespace Comparison
variable (c : Comparison)

/-- The title of the table. -/
def title : String := "--- Benchmark: eager vs stepped ---"

/-- What follows from the mismatches. -/
def verdict (color : Bool) : String :=
  if c.mismatched.isEmpty then
    styled color (.colored .green) "Both drivers agree on every seed."
  else
    styled color { bold := true, hue := some .red } "Drivers disagree on seeds:" ++ " " ++
      Text.listText c.mismatched

/-- The whole table. -/
def text (color : Bool) : String :=
  styled color { bold := true } title ++ "\n" ++ Scenario.tableTitles ++
    String.join (c.scenarios.map (·.tableText color)) ++ c.verdict color ++ "\n"

end Comparison

end WaveCollapse
