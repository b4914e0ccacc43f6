import WaveCollapse.Json.Basic

/-! # Tokens of JSON text

`Json.Token.scan` cuts a text into tokens. Blanks are space, tab, line feed and carriage
return; every other character belongs to a token, so the tokens spell the text. -/

namespace WaveCollapse.Json

/-- A token of JSON text. -/
inductive Token where
  | openBrace
  | closeBrace
  | openBracket
  | closeBracket
  | colon
  | comma
  | null
  | bool (b : Bool)
  | number (spelling : String)
  | text (content : Option String)
deriving DecidableEq, Inhabited

/-- Part of a string: a character as it stands, or the code unit of a `\u` escape. -/
inductive Piece where
  | char (c : Char)
  | unit (code : Nat)
deriving DecidableEq

namespace Piece

/-- Joins the pieces to text; the two units of a surrogate pair give one character, and a
unit of a pair that stands alone gives nothing. -/
def join : List Piece → Option (List Char)
  | [] => some []
  | char c :: rest => (join rest).map (c :: ·)
  | unit high :: rest =>
    if 0xD800 ≤ high ∧ high < 0xDC00 then
      match rest with
      | unit low :: rest =>
        if 0xDC00 ≤ low ∧ low < 0xE000 then
          (join rest).map (Char.ofNat (0x10000 + (high - 0xD800) * 0x400 + (low - 0xDC00)) :: ·)
        else none
      | _ => none
    else if 0xDC00 ≤ high ∧ high < 0xE000 then none
    else (join rest).map (Char.ofNat high :: ·)

end Piece

/-- The value of a hexadecimal digit. -/
def hexValue? (c : Char) : Option Nat :=
  if c.isDigit then some (c.toNat - '0'.toNat)
  else if 'a' ≤ c ∧ c ≤ 'f' then some (c.toNat - 'a'.toNat + 10)
  else if 'A' ≤ c ∧ c ≤ 'F' then some (c.toNat - 'A'.toNat + 10)
  else none

/-- The value of a run of hexadecimal digits. -/
def hexDigitsValue? (cs : List Char) : Option Nat :=
  cs.foldlM (fun n c => (hexValue? c).map (n * 16 + ·)) 0

/-- The character that a backslash and `c` stand for. -/
def unescape? : Char → Option Char
  | '"' => some '"'
  | '\\' => some '\\'
  | '/' => some '/'
  | 'b' => some '\x08'
  | 'f' => some '\x0c'
  | 'n' => some '\n'
  | 'r' => some '\r'
  | 't' => some '\t'
  | _ => none

/-- The pieces of a string up to its closing quote, in reverse, and the text after it.
Control characters must be escaped. -/
def scanText : List Piece → List Char → Option (List Piece × List Char)
  | acc, '"' :: rest => some (acc, rest)
  | acc, '\\' :: 'u' :: a :: b :: c :: d :: rest =>
    match hexDigitsValue? [a, b, c, d] with
    | some code => scanText (.unit code :: acc) rest
    | none => none
  | acc, '\\' :: e :: rest =>
    match unescape? e with
    | some c => scanText (.char c :: acc) rest
    | none => none
  | acc, c :: rest => if c.toNat < 0x20 then none else scanText (.char c :: acc) rest
  | _, [] => none

/-- Splits off the leading decimal digits; there must be one. -/
def scanDigits (s : List Char) : Option (List Char × List Char) :=
  match s.takeWhile Char.isDigit with
  | [] => none
  | ds => some (ds, s.dropWhile Char.isDigit)

/-- An optional part of a number that starts with `c`: its spelling and what follows. -/
def scanFraction : List Char → Option (List Char × List Char)
  | '.' :: rest => (scanDigits rest).map fun (ds, r) => ('.' :: ds, r)
  | rest => some ([], rest)

/-- The exponent of a number, if there is one. -/
def scanExponent : List Char → Option (List Char × List Char)
  | e :: rest =>
    if e = 'e' ∨ e = 'E' then
      match rest with
      | s :: rest' =>
        if s = '+' ∨ s = '-' then (scanDigits rest').map fun (ds, r) => (e :: s :: ds, r)
        else (scanDigits rest).map fun (ds, r) => (e :: ds, r)
      | [] => none
    else some ([], e :: rest)
  | [] => some ([], [])

/-- The integer part: a zero, or digits that do not start with one. -/
def scanInteger : List Char → Option (List Char × List Char)
  | '0' :: rest => some (['0'], rest)
  | rest => scanDigits rest

/-- A number without its sign. -/
def scanUnsigned (s : List Char) : Option (List Char × List Char) := do
  let (integer, s) ← scanInteger s
  let (fraction, s) ← scanFraction s
  let (exponent, s) ← scanExponent s
  return (integer ++ fraction ++ exponent, s)

/-- A number. -/
def scanNumber : List Char → Option (List Char × List Char)
  | '-' :: rest => (scanUnsigned rest).map fun (cs, r) => ('-' :: cs, r)
  | rest => scanUnsigned rest

namespace Token

/-- The first token of a text that does not start with a blank, and what follows it. -/
def first? : List Char → Option (Token × List Char)
  | '{' :: rest => some (openBrace, rest)
  | '}' :: rest => some (closeBrace, rest)
  | '[' :: rest => some (openBracket, rest)
  | ']' :: rest => some (closeBracket, rest)
  | ':' :: rest => some (colon, rest)
  | ',' :: rest => some (comma, rest)
  | 'n' :: 'u' :: 'l' :: 'l' :: rest => some (null, rest)
  | 't' :: 'r' :: 'u' :: 'e' :: rest => some (bool true, rest)
  | 'f' :: 'a' :: 'l' :: 's' :: 'e' :: rest => some (bool false, rest)
  | '"' :: rest =>
    (scanText [] rest).map fun (pieces, r) =>
      (text ((Piece.join pieces.reverse).map String.ofList), r)
  | rest => (scanNumber rest).map fun (cs, r) => (number (String.ofList cs), r)

/-- Space, tab, line feed and carriage return. -/
def isBlank (c : Char) : Bool := c = ' ' ∨ c = '\t' ∨ c = '\n' ∨ c = '\r'

/-- Scans at most `fuel` tokens onto those already found, which are in reverse. -/
def scanWithin : Nat → List Token → List Char → Option (List Token)
  | 0, _, _ => none
  | fuel + 1, found, s =>
    match s.dropWhile isBlank with
    | [] => some found.reverse
    | s =>
      match first? s with
      | some (token, rest) => scanWithin fuel (token :: found) rest
      | none => none

/-- The tokens of a text. A token takes at least one character, which bounds their number. -/
def scan (s : String) : Option (List Token) := scanWithin (s.length + 1) [] s.toList

end Token

end WaveCollapse.Json
