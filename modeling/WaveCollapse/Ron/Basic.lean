import WaveCollapse.Json.Token
import WaveCollapse.Numbers
import WaveCollapse.Text.Reader

/-! # Reading RON text

RON is read without tokens in between: what a character means depends on what the reader
of a field expects, so every kind of value has a reader of its own. This module has the
readers that all values share: blanks and comments, names,
integers, strings, and elements separated by commas. -/

namespace WaveCollapse.Ron

open Text

/-! ## Blanks -/

/-- Space, tab, line feed and carriage return. -/
def isBlank (c : Char) : Bool := c = ' ' ∨ c = '\t' ∨ c = '\n' ∨ c = '\r'

/-- Where the reader of blanks stands. -/
inductive Blank where
  | plain
  /-- In a comment that ends with the line. -/
  | line
  /-- In a comment inside `depth` other ones. -/
  | block (depth : Nat)

/-- What follows the blanks. A slash that starts no comment and a comment without end are
refused. -/
def Blank.skip : Blank → List Char → Option (List Char)
  | plain, '/' :: '/' :: s => skip line s
  | plain, '/' :: '*' :: s => skip (block 0) s
  | plain, '/' :: _ => none
  | plain, c :: s => if isBlank c then skip plain s else some (c :: s)
  | plain, [] => some []
  | line, '\n' :: s => skip plain s
  | line, _ :: s => skip line s
  | line, [] => some []
  | block d, '/' :: '*' :: s => skip (block (d + 1)) s
  | block 0, '*' :: '/' :: s => skip plain s
  | block (d + 1), '*' :: '/' :: s => skip (block d) s
  | block d, _ :: s => skip (block d) s
  | block _, [] => none

/-- Skips blanks and comments. -/
def blanks : Reader Unit := fun s => (Blank.plain.skip s).map ((), ·)

/-! ## Names -/

/-- A letter or underscore. -/
def startsName (c : Char) : Bool := c.isAlpha || c = '_'

/-- A letter, digit or underscore. -/
def inName (c : Char) : Bool := c.isAlphanum || c = '_'

/-- What a raw name may consist of: also dots and signs. -/
def inRawName (c : Char) : Bool := inName c || c = '.' || c = '+' || c = '-'

/-- A name that is not raw; no dot or sign may touch it. -/
def plainName : Reader String := do
  let name ← takeWhile inName
  match ← get with
  | c :: _ => if inRawName c then failure else return String.ofList name
  | [] => return String.ofList name

/-- A name. `r#` makes a raw one; `r` in front of a quote starts a raw string, which is no
name, and so does `r#` in front of anything else. -/
def name : Reader String := do
  match ← get with
  | 'r' :: '#' :: c :: s =>
    if inRawName c then
      set (c :: s)
      return String.ofList (← takeWhile inRawName)
    else failure
  | ['r'] | 'r' :: '"' :: _ | ['r', '#'] => failure
  | c :: _ => if startsName c then plainName else failure
  | [] => failure

/-- Whether `word` comes next as a whole name. -/
def seesWord (word : String) : Reader Bool := do
  let s ← get
  return word.toList.isPrefixOf s && !((s.drop word.length).head?.any inName)

/-- Takes `word` if it comes next as a whole name. -/
def takeWord (word : String) : Reader Bool := do
  if ← seesWord word then take word else return false

/-! ## Integers -/

/-- A hexadecimal digit or an underscore. -/
def inInteger (c : Char) : Bool := (Json.hexValue? c).isSome || c = '_'

/-- The value of digits in a base; underscores do not count, except in front. -/
def digitsValue? (base : Nat) (ds : List Char) : Option Nat :=
  match ds with
  | [] | '_' :: _ => none
  | ds => (ds.filter (· ≠ '_')).foldlM (fun n c =>
      ((Json.hexValue? c).filter (· < base)).map (n * base + ·)) 0

/-- An integer without sign: decimal, or after `0x`, `0b` or `0o` in another base. -/
def natural : Reader Nat := do
  let base ←
    if ← take "0x" then pure 16
    else if ← take "0b" then pure 2
    else if ← take "0o" then pure 8
    else pure 10
  let ds ← takeWhile inInteger
  match digitsValue? base ds with
  | some n => return n
  | none => failure

/-- A natural number below `2 ^ 64`. -/
def natural64 : Reader Nat := do
  let n ← natural
  if n < twoTo 64 then return n else failure

/-- An integer of `bits` bits, with an optional sign. -/
def integer (bits : Nat) : Reader Int := do
  let negative ← take "-"
  if !negative then discard (take "+")
  let n ← natural
  if negative then if n ≤ twoTo (bits - 1) then return -(n : Int) else failure
  else if n < twoTo (bits - 1) then return (n : Int) else failure

/-! ## Strings -/

/-- The character with a code, if there is one. -/
def charOf? (code : Nat) : Option Char :=
  if h : code.isValidChar then some (Char.ofNatAux code h) else none

/-- The value of one to six hexadecimal digits up to a brace. -/
def bracedCode : Nat → Option Nat → List Char → Option (Nat × List Char)
  | _, some n, '\x7d' :: s => some (n, s)
  | left + 1, n, c :: s =>
    match Json.hexValue? c with
    | some d => bracedCode left (some (n.getD 0 * 16 + d)) s
    | none => none
  | _, _, _ => none

/-- The character that stands after a backslash, and what follows it. -/
def escaped? : List Char → Option (Char × List Char)
  | '\'' :: s => some ('\'', s)
  | '"' :: s => some ('"', s)
  | '\\' :: s => some ('\\', s)
  | 'n' :: s => some ('\n', s)
  | 'r' :: s => some ('\r', s)
  | 't' :: s => some ('\t', s)
  | '0' :: s => some ('\x00', s)
  | 'x' :: a :: b :: s => do
    let code ← Json.hexDigitsValue? [a, b]
    return (← charOf? code, s)
  | 'u' :: '\x7b' :: s => do
    let (code, rest) ← bracedCode 6 none s
    return (← charOf? code, rest)
  | _ => none

/-- The content of a quoted string up to its closing quote, onto what was read, which is in
reverse. -/
def quotedWithin : Nat → List Char → List Char → Option (List Char × List Char)
  | 0, _, _ => none
  | _ + 1, found, '"' :: s => some (found.reverse, s)
  | fuel + 1, found, '\\' :: s =>
    match escaped? s with
    | some (c, rest) => quotedWithin fuel (c :: found) rest
    | none => none
  | fuel + 1, found, c :: s => quotedWithin fuel (c :: found) s
  | _ + 1, _, [] => none

/-- The content of a raw string up to its ending. -/
def rawUntil (ending : List Char) : List Char → List Char → Option (List Char × List Char)
  | found, c :: s =>
    if ending.isPrefixOf (c :: s) then some (found.reverse, (c :: s).drop ending.length)
    else rawUntil ending (c :: found) s
  | _, [] => none

/-- A raw string after its `r`: as many hashes close it as open it. -/
def rawString (s : List Char) : Option (List Char × List Char) :=
  match s.span (· = '#') with
  | (hashes, '"' :: rest) => rawUntil ('"' :: hashes) [] rest
  | _ => none

/-- A string, quoted or raw. -/
def string : Reader String := fun s =>
  let content :=
    match s with
    | '"' :: rest => quotedWithin (rest.length + 1) [] rest
    | 'r' :: rest => rawString rest
    | _ => none
  content.map fun (cs, rest) => (String.ofList cs, rest)

/-! ## Commas -/

/-- Takes a comma with the blanks around it, and says whether there was one. -/
def comma : Reader Bool := do
  blanks
  if ← take "," then
    blanks
    return true
  else return false

/-- Elements up to `close`, which stays, onto those read before, which are in reverse. After
each element comes a comma or `close`. An element takes at least one character, which
bounds their number by the length of the text. -/
def elementsWithin {α : Type} (close : Char) (element : Reader α) :
    Nat → List α → Reader (List α)
  | 0, _ => failure
  | fuel + 1, found => do
    blanks
    if (← peek) = close then return found.reverse
    let a ← element
    if ← comma then elementsWithin close element fuel (a :: found)
    else if (← peek) = close then return (a :: found).reverse
    else failure

/-- Elements between `opening` and `close`. -/
def enclosed {α : Type} (opening close : String) (element : Reader α) : Reader (List α) := do
  expect opening
  let s ← get
  let found ← elementsWithin (close.toList.headD ' ') element (s.length + 1) []
  blanks
  expect close
  return found

/-- A list. -/
def list {α : Type} (element : Reader α) : Reader (List α) := enclosed "[" "]" element

/-- A colon with the blanks around it. -/
def colon : Reader Unit := do
  blanks
  expect ":"
  blanks

/-- A key with its value. -/
def member {κ α : Type} (key : Reader κ) (value : κ → Reader α) : Reader α := do
  let k ← key
  colon
  value k

/-! ## Extensions -/

/-- What a text may ask for in front of its value. The other extensions concern forms that
rule files do not have. -/
structure Extensions where
  /-- `Some` may be left out. -/
  implicitSome : Bool := false
deriving Inhabited

/-- Takes words one after the other, with blanks after each. -/
def expectAll (words : List String) : Reader Unit :=
  words.forM fun word => do
    expect word
    blanks

/-- The names of extensions. -/
def extensionNames : Nat → Extensions → Reader Extensions
  | 0, _ => failure
  | fuel + 1, found => do
    let found ← match ← name with
      | "implicit_some" => pure { found with implicitSome := true }
      | "unwrap_newtypes" | "unwrap_variant_newtypes" => pure found
      | _ => failure
    let separated ← comma
    if (← get).head?.any inName then
      if separated then extensionNames fuel found else failure
    else return found

/-- Attributes in front of a value; each ends behind at least one character. -/
def attributesWithin : Nat → Extensions → Reader Extensions
  | 0, _ => failure
  | fuel + 1, found => do
    if (← get).head? ≠ some '#' then return found
    expectAll ["#", "!", "[", "enable", "("]
    let found ← extensionNames (fuel + 1) found
    blanks
    expectAll [")", "]"]
    attributesWithin fuel found

/-- A whole text: attributes, a value, and nothing but blanks around them. -/
def document {α : Type} (value : Extensions → Reader α) (text : String) : Option α :=
  let reader : Reader α := do
    blanks
    let extensions ← attributesWithin (text.length + 1) {}
    let a ← value extensions
    blanks
    if (← get).isEmpty then return a else failure
  (reader text.toList).map (·.1)

end WaveCollapse.Ron
