import WaveCollapse.Toml.Scalar

/-! # Reading TOML

A document is read line by line: a header opens a section and closes the one before it, and
every other line adds to the section that is open. -/

namespace WaveCollapse.Toml

open Text

/-! ## Values -/

/-- Skips blanks, comments and line ends. Each comment or line end takes a character. -/
def gapsWithin : Nat → Reader Unit
  | 0 => failure
  | fuel + 1 => do
    blanks
    match ← peek? with
    | some '#' =>
      comment
      gapsWithin fuel
    | _ => if ← newline then gapsWithin fuel

/-- Skips blanks, comments and line ends. -/
def gaps : Reader Unit := do gapsWithin ((← get).length + 1)

/-- The items of a list up to its bracket; a comma may follow the last. -/
def itemsWithin (item : Reader Toml) : Nat → List Toml → Reader Toml
  | 0, _ => failure
  | fuel + 1, found => do
    gaps
    if ← take "]" then return list found.reverse
    let v ← item
    gaps
    if ← take "," then itemsWithin item fuel (v :: found)
    else
      expect "]"
      return list (v :: found).reverse

/-- A key with its value. -/
def assignment (item : Reader Toml) : Reader (List String × Toml) := do
  let path ← key
  expect "="
  blanks
  return (path, ← item)

/-- Adds a value under a dotted key. -/
def Members.assign (ms : Members) (path : List String) (v : Toml) : Option Members := do
  ms.insert path.dropLast (← path.getLast?) v

/-- The members of an inline table up to its brace; no comma follows the last. -/
def membersWithin (item : Reader Toml) : Nat → Members → Reader Toml
  | 0, _ => failure
  | fuel + 1, ms => do
    let (path, v) ← assignment item
    let ms ← ms.assign path v
    blanks
    if ← take "," then membersWithin item fuel ms
    else
      expect "\x7d"
      return table .inline ms

/-- A list, an inline table, or a scalar. -/
def nested (item : Reader Toml) : Reader Toml := do
  let s ← get
  if ← take "[" then itemsWithin item (s.length + 1) []
  else if ← take "\x7b" then
    blanks
    if ← take "\x7d" then return table .inline [] else membersWithin item (s.length + 1) []
  else scalar

/-- A value that may nest `depth` levels deep. -/
def value : Nat → List Char → Option (Toml × List Char)
  | 0, s => scalar s
  | depth + 1, s => nested (fun r => value depth r) s

/-! ## Documents -/

/-- The document so far, and the section that is open. -/
structure Draft where
  document : Members := []
  current : Section := {}
deriving Inhabited

/-- Opens the section of a header. -/
def Draft.head (d : Draft) (path : List String) (repeated : Bool) : Option Draft := do
  let document ← d.current.close d.document
  let (current, document) ← Section.open path repeated document
  return { document, current }

/-- Adds a value to the open section. -/
def Draft.assign (d : Draft) (path : List String) (v : Toml) : Option Draft := do
  return { d with current := { d.current with members := ← d.current.members.assign path v } }

/-- One line that is not blank. -/
def line (d : Draft) : Reader Draft := do
  if ← take "[[" then
    let path ← key
    expect "]]"
    lineEnd
    d.head path true
  else if ← take "[" then
    let path ← key
    expect "]"
    lineEnd
    d.head path false
  else
    let (path, v) ← assignment (fun s => value (maxDepth - 1) s)
    lineEnd
    d.assign path v

/-- All lines. Each takes a character at least. -/
def linesWithin : Nat → Draft → Reader Draft
  | 0, _ => failure
  | fuel + 1, d => do
    blanks
    match ← peek? with
    | none => return d
    | some '#' =>
      lineEnd
      linesWithin fuel d
    | some _ =>
      if ← newline then linesWithin fuel d
      else linesWithin fuel (← line d)

/-- The members of the document that a text spells; a mark of the byte order may come
first. -/
def parse? (s : String) : Option Members := do
  let reader : Reader Draft := do
    discard (take "\ufeff")
    linesWithin (s.length + 1) {}
  let draft ← whole reader s
  draft.current.close draft.document

end WaveCollapse.Toml
