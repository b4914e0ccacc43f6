import WaveCollapse.Numbers

/-! # JSON documents

The documents the library reads and writes in JSON. Numbers are kept as they are spelled,
because whether `1.0` is an integer is for the reader of a field to say. A string may hold
an escape that stands for half of a surrogate pair only; it is a string nobody asks for in
most documents, so it becomes an error only when its content is wanted. The same holds for
the name of a member. -/

namespace WaveCollapse

/-- A JSON document. -/
inductive Json where
  | null
  | bool (b : Bool)
  /-- A number, as spelled. -/
  | number (spelling : String)
  /-- A string; without content when it holds an unpaired surrogate. -/
  | text (content : Option String)
  | list (items : List Json)
  /-- The members in order; a name may occur more than once, and like a string it may be
  without content. -/
  | object (members : List (Option String × Json))
deriving Inhabited

namespace Json

/-- A number without sign, fraction and exponent. -/
def ofNat (n : Nat) : Json := number (toString n)

/-- A string. -/
def ofString (s : String) : Json := text (some s)

/-- A record's fields in order. -/
def ofFields (fields : List (String × Json)) : Json :=
  object (fields.map fun f => (some f.1, f.2))

/-! ## Typed views -/

/-- The value of a run of decimal digits. -/
def digitsValue? (ds : List Char) : Option Nat :=
  if !ds.isEmpty && ds.all Char.isDigit then
    some (ds.foldl (fun n c => n * 10 + (c.toNat - '0'.toNat)) 0)
  else none

/-- A natural number below `2 ^ 64`, spelled with digits only. -/
def toNat64? : Json → Option Nat
  | number s => (digitsValue? s.toList).filter (· < twoTo 64)
  | _ => none

/-- An integer of 32 bits, spelled with an optional minus and digits; minus zero is a
fraction's spelling and refused. -/
def toInt32? : Json → Option Int
  | number s =>
    match s.toList with
    | '-' :: ds => ((digitsValue? ds).filter fun n => 0 < n ∧ n ≤ twoTo 31).map fun n => -(n : Int)
    | ds => ((digitsValue? ds).filter (· < twoTo 31)).map Int.ofNat
  | _ => none

/-- The content of a string. -/
def toText? : Json → Option String
  | text content => content
  | _ => none

/-- Members by name; every name must have content. -/
def named? (members : List (Option String × Json)) : Option (List (String × Json)) :=
  members.mapM fun m => m.1.map (·, m.2)

/-- The items of a list, each read by `f`. -/
def toList? {α : Type} (f : Json → Option α) : Json → Option (List α)
  | list items => items.mapM f
  | _ => none

/-- The values of a record: a list gives them in field order, an object by name. A known
field may occur once; other members are skipped, or refused with `closed`. The answer has
one entry per field. -/
def toFields? (fields : List String) (closed : Bool := false) : Json → Option (List (Option Json))
  | list items =>
    if items.length ≤ fields.length then
      some (items.map some ++ List.replicate (fields.length - items.length) none)
    else none
  | object members => do
    let members ← named? members
    let known := members.filter fun m => fields.contains m.1
    if closed && known.length < members.length then none
    else if (known.map (·.1)).Nodup then
      some (fields.map fun f => (known.find? (·.1 == f)).map (·.2))
    else none
  | _ => none

end Json

end WaveCollapse
