/-! # Reading off the front of a text

A `Reader` reads a value off the front of a text, or fails. What it leaves is what the next
reader gets; a reader that is only tried leaves everything when it fails. -/

namespace WaveCollapse.Text

/-- Reads a value off the front of a text, or fails. -/
abbrev Reader := StateT (List Char) Option

/-- The character that comes next, which stays. -/
def peek : Reader Char := do
  match ← get with
  | c :: _ => return c
  | [] => failure

/-- The character that comes next, if any, which stays. -/
def peek? : Reader (Option Char) := do return (← get).head?

/-- Takes the next character. -/
def next : Reader Char := do
  match ← get with
  | c :: s =>
    set s
    return c
  | [] => failure

/-- Takes `word` if it comes next, and says whether it did. -/
def take (word : String) : Reader Bool := do
  let s ← get
  if word.toList.isPrefixOf s then
    set (s.drop word.length)
    return true
  else return false

/-- Takes the first of some words that comes next, and says whether one did. -/
def takeAny : List String → Reader Bool
  | [] => return false
  | word :: words => do if ← take word then return true else takeAny words

/-- Takes `word`, which must come next. -/
def expect (word : String) : Reader Unit := do
  if !(← take word) then failure

/-- Takes the characters up to the first one that does not satisfy `p`. -/
def takeWhile (p : Char → Bool) : Reader (List Char) := do
  let s ← get
  set (s.dropWhile p)
  return s.takeWhile p

/-- Runs a reader if it succeeds; otherwise nothing is read. -/
def attempt {α : Type} (r : Reader α) : Reader (Option α) := fun s =>
  match r s with
  | some (a, rest) => some (some a, rest)
  | none => some (none, s)

/-- What a reader makes of a whole text; nothing may be left. -/
def whole {α : Type} (r : Reader α) (text : String) : Option α :=
  match r text.toList with
  | some (a, []) => some a
  | _ => none

end WaveCollapse.Text
