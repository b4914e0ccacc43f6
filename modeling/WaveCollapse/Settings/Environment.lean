import WaveCollapse.Decimal
import WaveCollapse.Duration
import WaveCollapse.Settings.Field
import WaveCollapse.Toml.Scalar

/-! # Settings from the environment

A variable whose name starts with `XWFC_`, in any letter case, gives the field that the rest
of its name spells. Its value is read as a truth value, a text in quotes, a character in
single quotes, a list, a record or a number, and as plain text when it is none of these. -/

namespace WaveCollapse

namespace Setting

open Text

/-- The blanks around values. -/
def isBlank (c : Char) : Bool := c = ' ' || c = '\t' || c = '\n' || c = '\x0c' || c = '\r'

/-- Skips blanks. -/
def blanks : Reader Unit := discard (takeWhile isBlank)

/-- A character of plain text inside a list or record. -/
def isPlain (c : Char) : Bool := c ∉ ['\x7b', '\x7d', '[', ']', ',']

/-- A text without quotes: a number if it spells one. A number with a point is nothing that
a field wants. -/
def plain (cs : List Char) : Setting :=
  let cs := trim cs
  if cs.contains '.' && Decimal.spellsFloat cs then other
  else
    match Decimal.natural64? cs, Decimal.integer64? cs with
    | some n, _ => integer n
    | none, some n => integer n
    | none, none => text (String.ofList cs)

/-- Items up to `close`, separated by commas. -/
def itemsWithin (close : String) (item : Reader Unit) : Nat → Reader Unit
  | 0 => failure
  | fuel + 1 => do
    if ← take close then return
    item
    if ← take "," then itemsWithin close item fuel else expect close

/-- Items between brackets. -/
def items (opening close : String) (item : Reader Unit) : Reader Unit := do
  expect opening
  itemsWithin close item ((← get).length + 1)

/-- The key of a record's member. -/
def key : Reader Unit := do
  if (← peek) = '"' then discard (Toml.lineString '"')
  else if (← takeWhile Toml.inBareName).isEmpty then failure

/-- A value with the blanks around it; lists and records hold what `item` reads. -/
def valueOver (item : Reader Unit) : Reader Setting := do
  blanks
  let value ←
    if ← take "true" then pure (boolean true)
    else if ← take "false" then pure (boolean false)
    else
      match ← peek? with
      | some '\x7b' =>
        items "\x7b" "\x7d" do
          blanks
          key
          blanks
          expect "="
          blanks
          item
          blanks
        pure other
      | some '[' =>
        items "[" "]" item
        pure other
      | some '"' => text <$> Toml.lineString '"'
      | some '\'' =>
        expect "'"
        let c ← next
        expect "'"
        pure (letter c)
      | _ => plain <$> takeWhile isPlain
  blanks
  return value

/-- A value that may nest `depth` levels deep. -/
def value : Nat → List Char → Option (Setting × List Char)
  | 0, s => valueOver failure s
  | depth + 1, s => valueOver (fun r => (value depth r).map fun (_, rest) => ((), rest)) s

/-- The value that a variable has. What does not read as a value is text as it stands. -/
def ofVariable (content : String) : Setting :=
  (whole (fun s => value (content.length + 1) s) content).getD (text content)

end Setting

namespace Layer

open Text

/-- What the names of variables start with. -/
def variablePrefix : String := "xwfc_"

/-- The parts of a variable's name behind the prefix, which dots separate. White space around
the name and behind the prefix does not count. -/
def variableParts? (name : String) : Option (List String) :=
  let name := (String.ofList (trim name.toList)).toLower
  if name.startsWith variablePrefix then
    some ((String.ofList (trim (name.toList.drop variablePrefix.length))).splitOn ".")
  else none

/-- The field that a variable's name spells. A second part names a member, so that the
variable gives a record; no part may be empty. -/
def variableField? (name : String) : Option (String × Bool) :=
  match variableParts? name with
  | none | some [] => none
  | some (field :: members) =>
    if "" ∈ field :: members then none else some (field, !members.isEmpty)

/-- The settings in the environment. Of several variables for one field the last counts. -/
def ofEnvironment (environment : List (String × String)) : Layer := fun f =>
  environment.reverse.findSome? fun (name, content) =>
    match variableField? name with
    | some (field, nested) =>
      if field = f.name then some (if nested then .other else Setting.ofVariable content) else none
    | none => none

end Layer

end WaveCollapse
