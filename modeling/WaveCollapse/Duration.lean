import WaveCollapse.Numbers

/-! # Durations

A duration is a number of seconds that fits 64 bits, and nanoseconds. It is written as a
list of numbers with units, the largest first; a year has 365.25 days and a month 30.44. It
is read from such a list in any order, where a number may have a fraction and a unit may
come more than once. -/

namespace WaveCollapse.Text

/-! ## White space -/

/-- The code points of white space beyond ASCII, in order. -/
def wideBlanks : List Nat :=
  [0x85, 0xA0, 0x1680, 0x2000, 0x2001, 0x2002, 0x2003, 0x2004, 0x2005, 0x2006, 0x2007, 0x2008,
    0x2009, 0x200A, 0x2028, 0x2029, 0x202F, 0x205F, 0x3000]

/-- White space: the controls from tab to carriage return, the space, and the wide
blanks. -/
def isBlank (c : Char) : Bool :=
  c = ' ' || (0x09 ≤ c.toNat && c.toNat ≤ 0x0D) || wideBlanks.contains c.toNat

/-- A text without the white space around it. -/
def trim (cs : List Char) : List Char :=
  ((cs.dropWhile isBlank).reverse.dropWhile isBlank).reverse

end WaveCollapse.Text

namespace WaveCollapse

/-- Seconds and nanoseconds. -/
structure Duration where
  seconds : Nat
  nanos : Nat
deriving DecidableEq, Inhabited

namespace Duration

/-- No time at all. -/
def zero : Duration := ⟨0, 0⟩

/-- Nanoseconds in a second. -/
def nanosPerSecond : Nat := 1000000000

/-- Seconds in a year. -/
def year : Nat := 31557600

/-- Seconds in a month. -/
def month : Nat := 2630016

/-- Seconds in a day. -/
def day : Nat := 86400

variable (d : Duration)

/-! ## Units -/

/-- A unit by its length: in nanoseconds for the small ones, in seconds for the others. -/
inductive TimeUnit where
  | small (nanos : Nat)
  | large (seconds : Nat)
deriving DecidableEq

/-- The unit called `s`. -/
def unitOf? (s : String) : Option TimeUnit :=
  if s ∈ ["nanos", "nsec", "ns"] then some (.small 1)
  else if s ∈ ["usec", "us", "µs"] then some (.small 1000)
  else if s ∈ ["millis", "msec", "ms"] then some (.small 1000000)
  else if s ∈ ["seconds", "second", "secs", "sec", "s"] then some (.large 1)
  else if s ∈ ["minutes", "minute", "min", "mins", "m"] then some (.large 60)
  else if s ∈ ["hours", "hour", "hr", "hrs", "h"] then some (.large 3600)
  else if s ∈ ["days", "day", "d"] then some (.large day)
  else if s ∈ ["weeks", "week", "wk", "wks", "w"] then some (.large (7 * day))
  else if s ∈ ["months", "month", "M"] then some (.large month)
  else if s ∈ ["years", "year", "yr", "yrs", "y"] then some (.large year)
  else none

/-! ## Writing -/

/-- A number of units, with the name that the unit has for this number. -/
structure Part where
  count : Nat
  name : String
  unit : TimeUnit

/-- The number with its unit. -/
def Part.text (p : Part) : String := s!"{p.count}{p.name}"

/-- The name of a unit that has a plural. -/
def plural (name : String) (n : Nat) : String := if n = 1 then name else name ++ "s"

/-- The duration in parts, the largest unit first. -/
def parts : List Part :=
  let ofYear := d.seconds % year
  let ofMonth := ofYear % month
  let ofDay := ofMonth % day
  [⟨d.seconds / year, plural "year" (d.seconds / year), .large year⟩,
    ⟨ofYear / month, plural "month" (ofYear / month), .large month⟩,
    ⟨ofMonth / day, plural "day" (ofMonth / day), .large day⟩,
    ⟨ofDay / 3600, "h", .large 3600⟩, ⟨ofDay % 3600 / 60, "m", .large 60⟩,
    ⟨ofDay % 60, "s", .large 1⟩, ⟨d.nanos / 1000000, "ms", .small 1000000⟩,
    ⟨d.nanos / 1000 % 1000, "us", .small 1000⟩, ⟨d.nanos % 1000, "ns", .small 1⟩]

/-- The parts that are written: those of which there are any. -/
def written : List Part := d.parts.filter (·.count ≠ 0)

/-- The duration as a list of numbers with units. -/
def text : String :=
  if d.written.isEmpty then "0s" else " ".intercalate (d.written.map Part.text)

/-- A number with `places` decimals, without the zeros at its end. -/
def decimals (whole part places : Nat) : String :=
  let digits := toString part
  let digits := List.replicate (places - digits.length) '0' ++ digits.toList
  let kept := (digits.reverse.dropWhile (· = '0')).reverse
  if kept.isEmpty then toString whole else s!"{whole}." ++ String.ofList kept

/-- The duration in the largest unit that it fills, as in descriptions. -/
def short : String :=
  if 0 < d.seconds then decimals d.seconds d.nanos 9 ++ "s"
  else if 1000000 ≤ d.nanos then decimals (d.nanos / 1000000) (d.nanos % 1000000) 6 ++ "ms"
  else if 1000 ≤ d.nanos then decimals (d.nanos / 1000) (d.nanos % 1000) 3 ++ "µs"
  else s!"{d.nanos}ns"

/-! ## Reading -/

/-- A number of 64 bits. -/
def within64 (n : Nat) : Option Nat := if n < twoTo 64 then some n else none

/-- Adds seconds and nanoseconds; the seconds must go on to fit. -/
def plus (seconds nanos : Nat) : Option Duration := do
  let nanos ← within64 (d.nanos + nanos)
  let total ← within64 (d.seconds + seconds + nanos / nanosPerSecond)
  return ⟨total, nanos % nanosPerSecond⟩

/-- The digits after a point: their value and ten to the power of their number. -/
structure Fraction where
  numerator : Nat
  denominator : Nat

/-- A fraction of a number; it must come out whole. -/
def Fraction.of (f : Fraction) (n : Nat) : Option Nat := do
  let product ← within64 (f.numerator * n)
  if product % f.denominator = 0 then some (product / f.denominator) else none

/-- Adds a number of units, given as its whole part and its fraction. Of a unit up to a
minute the fraction is a number of nanoseconds, of a longer one a number of seconds;
nanoseconds have no fraction. -/
def plusUnits (whole : Nat) (fraction : Option Fraction) (unit : TimeUnit) : Option Duration :=
  match unit with
  | .small nanos => do
    let d ← d.plus 0 (← within64 (whole * nanos))
    match fraction with
    | none => return d
    | some f =>
      if nanos = 1 then failure
      d.plus 0 (← f.of nanos)
  | .large seconds => do
    let d ← d.plus (← within64 (whole * seconds)) 0
    match fraction with
    | none => return d
    | some f =>
      if seconds ≤ 60 then
        d.plus 0 (← f.of (seconds * nanosPerSecond))
      else d.plus (← f.of seconds) 0

/-- A character that can stand in the name of a unit. -/
def inUnit (c : Char) : Bool := c.isAlpha || c = 'µ'

/-- Splits off the characters up to the first that can stand in a unit, without blanks. -/
def beforeUnit (cs : List Char) : List Char × List Char :=
  ((cs.takeWhile (!inUnit ·)).filter (!Text.isBlank ·), cs.dropWhile (!inUnit ·))

/-- The value of digits below `2 ^ 64`. -/
def number? (ds : List Char) : Option Nat :=
  if ds.all Char.isDigit then
    within64 (ds.foldl (fun n c => n * 10 + (c.toNat - '0'.toNat)) 0)
  else none

/-- The number that digits with at most one point spell. There are digits in front of the
point, and behind it if there is one. -/
def quantity? (cs : List Char) : Option (Nat × Option Fraction) :=
  match cs.span (· ≠ '.') with
  | ([], _) => none
  | (whole, []) => (number? whole).map (·, none)
  | (whole, _ :: digits) => do
    if digits.isEmpty then failure
    let numerator ← number? digits
    let denominator ← within64 (tenTo digits.length)
    return (← number? whole, some ⟨numerator, denominator⟩)

/-- Reads numbers with units, after blanks, onto a duration. Each takes a character at
least. -/
def readWithin : Nat → Duration → List Char → Option Duration
  | 0, _, _ => none
  | fuel + 1, d, cs =>
    match cs.dropWhile Text.isBlank with
    | [] => some d
    | c :: rest =>
      if !c.isDigit then none
      else do
        let (digits, rest) := beforeUnit (c :: rest)
        let (whole, fraction) ← quantity? digits
        let unit ← unitOf? (String.ofList (rest.takeWhile inUnit))
        let rest := rest.dropWhile inUnit
        if rest.head?.any fun c => !c.isDigit && !Text.isBlank c then failure
        let d ← d.plusUnits whole fraction unit
        readWithin fuel d rest

/-- The duration that a text spells. A zero needs no unit; a text without a number is no
duration. -/
def ofText? (s : String) : Option Duration :=
  if s = "0" then some zero
  else if s.toList.all Text.isBlank then none
  else readWithin (s.length + 1) zero s.toList

end Duration

end WaveCollapse
