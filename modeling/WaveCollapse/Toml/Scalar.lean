import WaveCollapse.Json.Token
import WaveCollapse.Numbers
import WaveCollapse.Text.Reader
import WaveCollapse.Toml.Basic

/-! # Keys and scalars of TOML -/

namespace WaveCollapse.Toml

open Text

/-! ## Blanks -/

/-- Space and tab. -/
def isBlank (c : Char) : Bool := c = ' ' || c = '\t'

/-- Skips spaces and tabs. -/
def blanks : Reader Unit := discard (takeWhile isBlank)

/-- A character that may stand in a comment or string: no control character but the tab. -/
def isPlain (c : Char) : Bool := c = '\t' || (0x20 ≤ c.toNat && c.toNat ≠ 0x7F)

/-- Takes the end of a line, if it is next. -/
def newline : Reader Bool := do
  if ← take "\n" then return true
  take "\r\n"

/-- Takes a comment, if one is next. -/
def comment : Reader Unit := do
  if ← take "#" then discard (takeWhile isPlain)

/-- What may follow on a line: blanks, a comment, and the end of the line or text. -/
def lineEnd : Reader Unit := do
  blanks
  comment
  if !(← newline) && (← peek?).isSome then failure

/-! ## Strings -/

/-- The character that a short escape stands for. -/
def shortEscape? : Char → Option Char
  | '"' => some '"'
  | '\\' => some '\\'
  | 'b' => some '\x08'
  | 'f' => some '\x0c'
  | 'n' => some '\n'
  | 'r' => some '\r'
  | 't' => some '\t'
  | _ => none

/-- The character with a code of `digits` hexadecimal digits. -/
def coded (digits : Nat) : Reader Char := do
  let s ← get
  let ds := s.take digits
  if ds.length < digits then failure
  set (s.drop digits)
  let code ← Json.hexDigitsValue? ds
  if h : code.isValidChar then return Char.ofNatAux code h else failure

/-- The character that an escape stands for, after its backslash. -/
def escape : Reader Char := do
  match ← next with
  | 'u' => coded 4
  | 'U' => coded 8
  | c => shortEscape? c

/-- The characters of a string on one line up to its closing quote, onto those read before,
which are in reverse. Only between double quotes a backslash is an escape. -/
def lineText (quote : Char) : Nat → List Char → Reader String
  | 0, _ => failure
  | fuel + 1, found => do
    let c ← next
    if c = quote then return String.ofList found.reverse
    else if c = '\\' ∧ quote = '"' then lineText quote fuel ((← escape) :: found)
    else if isPlain c then lineText quote fuel (c :: found)
    else failure

/-- After a backslash: whether only blanks are left on the line. -/
def endsLine (s : List Char) : Bool :=
  match s.dropWhile isBlank with
  | '\n' :: _ | '\r' :: '\n' :: _ => true
  | _ => false

/-- Skips blanks and line ends. -/
def blankLines : List Char → List Char
  | '\r' :: '\n' :: s => blankLines s
  | c :: s => if isBlank c || c = '\n' then blankLines s else c :: s
  | [] => []

/-- The characters of a string over several lines. Up to two quotes may stand inside, also
in front of the three that close it. -/
def linesText (quote : Char) : Nat → List Char → Reader String
  | 0, _ => failure
  | fuel + 1, found => do
    let s ← get
    let quotes := (s.takeWhile (· = quote)).length
    if 3 ≤ quotes then
      let inside := min quotes 5 - 3
      set (s.drop (inside + 3))
      return String.ofList (found.reverse ++ List.replicate inside quote)
    else if ← newline then linesText quote fuel ('\n' :: found)
    else
      let c ← next
      if c = '\\' ∧ quote = '"' then
        if endsLine (← get) then
          modify blankLines
          linesText quote fuel found
        else linesText quote fuel ((← escape) :: found)
      else if c = quote || isPlain c then linesText quote fuel (c :: found)
      else failure

/-- A string between `quote`s on one line. -/
def lineString (quote : Char) : Reader String := do
  expect quote.toString
  lineText quote ((← get).length + 1) []

/-- A string. Three quotes open one over several lines; a line end right after them does not
count. -/
def string (quote : Char) : Reader String := do
  if ← take (String.ofList [quote, quote, quote]) then
    discard newline
    linesText quote ((← get).length + 1) []
  else lineString quote

/-! ## Keys -/

/-- A character of a bare name. -/
def inBareName (c : Char) : Bool := c.isAlphanum || c = '_' || c = '-'

/-- A name, bare or in quotes. -/
def name : Reader String := do
  match ← peek with
  | '"' => lineString '"'
  | '\'' => lineString '\''
  | _ =>
    let cs ← takeWhile inBareName
    if cs.isEmpty then failure
    return String.ofList cs

/-- The names of a dotted key, with blanks around them. -/
def keyWithin : Nat → Reader (List String)
  | 0 => failure
  | parts + 1 => do
    blanks
    let first ← name
    blanks
    if ← take "." then return first :: (← keyWithin parts) else return [first]

/-- How many names a key may have, and one more than values may nest. -/
def maxDepth : Nat := 80

/-- A dotted key: where it leads, and the name there. -/
def key : Reader (List String) := keyWithin (maxDepth - 1)

/-! ## Numbers -/

/-- Digits that satisfy `p`; single underscores may stand between them. -/
def digitsWithin (p : Char → Bool) : Nat → Reader (List Char)
  | 0 => failure
  | fuel + 1 => do
    let ds ← takeWhile p
    if ds.isEmpty then failure
    if ← take "_" then return ds ++ (← digitsWithin p fuel) else return ds

/-- Digits that satisfy `p`. -/
def digits (p : Char → Bool) : Reader (List Char) := do
  digitsWithin p ((← get).length + 1)

/-- A sign, if there is one. -/
def sign : Reader (List Char) := do
  if ← take "-" then return ['-']
  else if ← take "+" then return ['+']
  else return []

/-- A decimal integer without sign; a zero in front stands alone. -/
def unsignedInteger : Reader (List Char) := do
  if ← take "0" then return ['0'] else digits Char.isDigit

/-- The value of digits in a base. -/
def digitsValue (base : Nat) (ds : List Char) : Nat :=
  ds.foldl (fun n c => n * base + (Json.hexValue? c).getD 0) 0

/-- An integer of 64 bits. -/
def within64 (n : Int) : Option Int := if -(twoTo 63 : Int) ≤ n ∧ n < twoTo 63 then some n else none

/-- An integer, decimal or after `0x`, `0o` or `0b` in another base. -/
def wholeNumber : Reader Int := do
  let based (base : Nat) (p : Char → Bool) : Reader Int := do
    within64 (digitsValue base (← digits p))
  if ← take "0x" then based 16 fun c => (Json.hexValue? c).isSome
  else if ← take "0o" then based 8 fun c => '0' ≤ c ∧ c ≤ '7'
  else if ← take "0b" then based 2 fun c => c = '0' ∨ c = '1'
  else
    let s ← sign
    let n := digitsValue 10 (← unsignedInteger)
    within64 (if s = ['-'] then -(n : Int) else n)

/-- A fraction, if there is one. -/
def fraction : Reader (List Char) := do
  if ← take "." then return (← digits Char.isDigit) else return []

/-- An exponent, if there is one: its sign and digits. -/
def exponent : Reader (Option (List Char × List Char)) := do
  if ← takeAny ["e", "E"] then
    let s ← sign
    return some (s, ← digits Char.isDigit)
  else return none

/-- Whether `digits * 10 ^ exponent` rounds to a float above all finite ones. -/
def overflows (ds : List Char) (exponent : Int) : Bool :=
  let significant := ds.dropWhile (· = '0')
  if significant.isEmpty then false
  else
    let magnitude := (significant.length : Int) + exponent
    if magnitude < 300 then false
    else if 320 < magnitude then true
    else
      let limit := twoTo 1024 - twoTo 970
      let n := digitsValue 10 significant
      if 0 ≤ exponent then limit ≤ n * tenTo exponent.toNat
      else limit * tenTo (-exponent).toNat ≤ n

/-- A number with a fraction or exponent, or a word for infinity or for no number. A number
that is too large is refused. -/
def decimal : Reader Unit := do
  let s ← sign
  if ← takeAny ["inf", "nan"] then return
  let whole ← unsignedInteger
  let part ← fraction
  let power ← exponent
  if part.isEmpty && power.isNone then failure
  let shift : Int := match power with
    | none => 0
    | some (['-'], ds) => -(digitsValue 10 ds : Int)
    | some (_, ds) => digitsValue 10 ds
  if s ≠ ['-'] && overflows (whole ++ part) (shift - part.length) then failure

/-! ## Moments -/

/-- A number of exactly `count` digits within bounds. -/
def numeral (count low high : Nat) : Reader Nat := do
  let s ← get
  let ds := s.take count
  if ds.length < count || !ds.all Char.isDigit then failure
  let n := digitsValue 10 ds
  if n < low || high < n then failure
  set (s.drop count)
  return n

/-- The length of a month. -/
def daysIn (year month : Nat) : Nat :=
  if month = 2 then
    if year % 4 = 0 ∧ (year % 100 ≠ 0 ∨ year % 400 = 0) then 29 else 28
  else if month ∈ [4, 6, 9, 11] then 30
  else 31

/-- A date. -/
def date : Reader Unit := do
  let year ← numeral 4 0 9999
  expect "-"
  let month ← numeral 2 1 12
  expect "-"
  discard (numeral 2 1 (daysIn year month))

/-- A time of day. -/
def time : Reader Unit := do
  discard (numeral 2 0 23)
  expect ":"
  discard (numeral 2 0 59)
  expect ":"
  discard (numeral 2 0 60)
  if ← take "." then
    if (← takeWhile Char.isDigit).isEmpty then failure

/-- The distance from universal time, if one is given. -/
def offset : Reader Unit := do
  if ← takeAny ["Z", "z"] then return
  if ← takeAny ["+", "-"] then
    discard (numeral 2 0 23)
    expect ":"
    discard (numeral 2 0 59)

/-- A time after a date. -/
def timeOfDate : Reader Unit := do
  if !(← takeAny ["T", "t", " "]) then failure
  time
  offset

/-- A date, a time, or both. -/
def dateOrTime : Reader Unit := do
  match ← attempt date with
  | some _ => discard (attempt timeOfDate)
  | none => time

/-! ## Scalars -/

/-- What a reader takes, as it is spelled. -/
def spelled (r : Reader Unit) : Reader String := do
  let before ← get
  r
  return String.ofList (before.take (before.length - (← get).length))

/-- A value without parts. -/
def scalar : Reader Toml := do
  match ← peek with
  | '"' => text <$> string '"'
  | '\'' => text <$> string '\''
  | 't' =>
    expect "true"
    return boolean true
  | 'f' =>
    expect "false"
    return boolean false
  | _ =>
    match ← attempt (spelled dateOrTime) with
    | some spelling => return .moment spelling
    | none =>
      match ← attempt (spelled decimal) with
      | some spelling => return .float spelling
      | none => .integer <$> wholeNumber

end WaveCollapse.Toml
