import WaveCollapse.Json.Token

/-! # Reading JSON

A document is read from its tokens by a machine with a stack: the lists and objects that
are still open, innermost first. Every token moves the machine once, so there is no limit
on how deep documents nest. -/

namespace WaveCollapse.Json

/-- A list or object that is still open; its content so far is in reverse. -/
inductive Enclosing where
  | list (items : List Json)
  | object (members : List (Option String × Json)) (name : Option String)

/-- What may come next. -/
inductive Expected where
  /-- A value, inside the open lists and objects. -/
  | value (outer : List Enclosing)
  /-- A value or the end of the list just opened. -/
  | firstItem (outer : List Enclosing)
  /-- A member's name or the end of the object just opened. -/
  | firstName (outer : List Enclosing)
  /-- A member's name, after the members already read. -/
  | name (members : List (Option String × Json)) (outer : List Enclosing)
  /-- The colon after a name. -/
  | colon (members : List (Option String × Json)) (name : Option String) (outer : List Enclosing)
  /-- A value was completed; what encloses it goes on or ends. -/
  | following (value : Json) (outer : List Enclosing)

namespace Expected

/-- One token further. -/
def step : Expected → Token → Option Expected
  | value o, t | firstItem o, t =>
    match t with
    | .openBrace => some (firstName o)
    | .openBracket => some (firstItem (.list [] :: o))
    | .null => some (following .null o)
    | .bool b => some (following (.bool b) o)
    | .number s => some (following (.number s) o)
    | .text c => some (following (.text c) o)
    | _ => none
  | firstName o, .closeBrace => some (following (.object []) o)
  | firstName o, .text n => some (colon [] n o)
  | name ms o, .text n => some (colon ms n o)
  | colon ms n o, .colon => some (value (.object ms n :: o))
  | following v (.list items :: o), .comma => some (value (.list (v :: items) :: o))
  | following v (.list items :: o), .closeBracket =>
    some (following (.list (v :: items).reverse) o)
  | following v (.object ms n :: o), .comma => some (name ((n, v) :: ms) o)
  | following v (.object ms n :: o), .closeBrace =>
    some (following (.object ((n, v) :: ms).reverse) o)
  | _, _ => none

/-- The empty list is ended by a bracket where its first item could stand. -/
def stepOrEnd : Expected → Token → Option Expected
  | firstItem (.list [] :: o), .closeBracket => some (following (.list []) o)
  | e, t => step e t

/-- The document, when nothing is left open. -/
def result? : Expected → Option Json
  | following v [] => some v
  | _ => none

end Expected

/-- The document that the tokens spell. -/
def ofTokens? (tokens : List Token) : Option Json :=
  (tokens.foldlM Expected.stepOrEnd (.value [])).bind Expected.result?

/-- The document that a text spells. -/
def parse? (s : String) : Option Json := (Token.scan s).bind ofTokens?

end WaveCollapse.Json
