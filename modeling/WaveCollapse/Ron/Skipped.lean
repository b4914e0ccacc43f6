import WaveCollapse.Decimal
import WaveCollapse.Ron.Basic

/-! # Values nobody asks for

A field that a record does not know is skipped, but its value must still be well formed. A
text may nest only so deep: `skipped depth` reads a value that may hold `depth` more
levels, where a list or record takes one for itself and one for each element. -/

namespace WaveCollapse.Ron

open Text

/-- Characters of a number with a fraction or exponent. -/
def inFloat (c : Char) : Bool :=
  c.isDigit || c = 'e' || c = 'E' || c = '.' || c = '+' || c = '-' || c = '_'

/-- A decimal number, or one of the words for infinity and for no number. -/
def float : Reader Unit := do
  for word in ["inf", "+inf", "-inf", "NaN", "+NaN", "-NaN"] do
    if ← takeWord word then return
  if !Decimal.spellsFloat (← takeWhile inFloat) then failure

/-- Whether the number that comes next has a fraction or a decimal exponent. -/
def seesFloat (s : List Char) : Bool :=
  let unsigned := match s with
    | '+' :: r | '-' :: r => r
    | r => r
  (unsigned.takeWhile inInteger).length < (unsigned.takeWhile inFloat).length

/-- A number of any form. An integer that fits 64 bits is taken as such; what is none is
read as a decimal number. -/
def number : Reader Unit := do
  let s ← get
  if seesFloat s then float
  else
    let whole : Reader Unit :=
      if s.head? = some '+' ∨ s.head? = some '-' then discard (integer 64)
      else discard natural64
    whole <|> float

/-- A character between single quotes. -/
def character : Reader Unit := do
  expect "'"
  match ← get with
  | '\\' :: s =>
    match escaped? s with
    | some (_, rest) => set rest
    | none => failure
  | '\'' :: _ => failure
  | _ :: s => set s
  | [] => failure
  expect "'"

/-- Whether a name with a colon comes next, as in a record with named fields. -/
def seesField : Reader Bool := fun s =>
  match name s with
  | none => some (false, s)
  | some (_, rest) =>
    match Blank.plain.skip rest with
    | some (c :: _) => some (c = ':', s)
    | _ => none

/-- What stands between parentheses: named fields, or elements alone. -/
def parenthesized (enter element : Reader Unit) : Reader Unit := do
  let look : Reader Bool := do
    expect "("
    blanks
    seesField
  let s ← get
  let named ← look
  set s
  enter
  if named then
    discard (enclosed "(" ")" (member (discard name) fun _ => element))
  else
    discard (enclosed "(" ")" element)

/-- A value of any form. Lists and records call `enter` first and read what they hold with
`element`; the content of `Some` is read with `content`. -/
def skippedForm (enter content element : Reader Unit) : Reader Unit := do
  if ← takeWord "true" then return
  if ← takeWord "false" then return
  if ← takeWord "None" then return
  if ← seesWord "Some" then
    expect "Some"
    blanks
    expect "("
    blanks
    content
    discard comma
    expect ")"
    return
  if ← take "()" then return
  if ← takeWord "inf" then return
  if ← takeWord "-inf" then return
  if ← takeWord "NaN" then return
  match ← attempt name with
  | some _ =>
    blanks
    if (← get).head? = some '(' then parenthesized enter element
  | none =>
    match ← peek with
    | '(' => parenthesized enter element
    | '[' =>
      enter
      discard (list element)
    | '\x7b' =>
      enter
      discard (enclosed "\x7b" "\x7d" (member element fun _ => element))
    | '"' | 'r' => discard string
    | '\'' => character
    | c => if c.isDigit || c = '+' || c = '-' || c = '.' then number else failure

/-- A value that may nest `depth` levels deep. -/
def skipped : Nat → List Char → Option (Unit × List Char)
  | 0, s => skippedForm failure failure failure s
  | 1, s => skippedForm (pure ()) (fun r => skipped 0 r) failure s
  | depth + 2, s =>
    skippedForm (pure ()) (fun r => skipped (depth + 1) r) (fun r => skipped depth r) s

end WaveCollapse.Ron
