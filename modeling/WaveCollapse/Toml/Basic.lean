/-! # TOML documents

The tree that a TOML document spells. A table remembers how it came about, because that
decides whether a later line may still add to it: a table written inline is complete, one
that dotted keys made takes more dotted keys, one that is only part of a header's path may
get a header of its own, and one that had its header may not get another. -/

namespace WaveCollapse

namespace Toml

/-- How a table came about. -/
inductive Origin where
  /-- Written inline. -/
  | inline
  /-- Made by the front part of a dotted key. -/
  | dotted
  /-- Made by the front part of a header. -/
  | implied
  /-- Made by its own header. -/
  | stated
deriving DecidableEq, Inhabited

end Toml

/-- A TOML value. Numbers with a fraction and moments in time are kept as spelled. -/
inductive Toml where
  | text (s : String)
  | integer (n : Int)
  | float (spelling : String)
  | boolean (b : Bool)
  | moment (spelling : String)
  | list (items : List Toml)
  | table (origin : Toml.Origin) (members : List (String × Toml))
  /-- An array of tables, the latest first; each was made by a header. -/
  | tables (items : List (List (String × Toml)))
deriving Inhabited

namespace Toml

/-- The members of a table. -/
abbrev Members := List (String × Toml)

/-- Replaces the value of a name that occurs, or adds the name. -/
def Members.put (ms : Members) (name : String) (v : Toml) : Members :=
  if ms.any (·.1 == name) then ms.map fun m => if m.1 = name then (name, v) else m
  else ms ++ [(name, v)]

/-- Changes the members of the table that a path leads to, making the tables that are
missing. A dotted path passes only through tables that no header made. What `change` gets
besides the members is the origin of their table. -/
def change {β : Type} (byDots : Bool) (f : Origin → Members → Option (β × Members)) :
    List String → Origin → Members → Option (β × Members)
  | [], origin, ms => f origin ms
  | name :: path, _, ms =>
    match ms.lookup name with
    | none => do
      let origin := if byDots then .dotted else .implied
      let (b, inner) ← change byDots f path origin []
      return (b, ms ++ [(name, table origin inner)])
    | some (table origin inner) => do
      if origin = .inline ∨ (byDots ∧ origin = .stated) then failure
      let (b, inner) ← change byDots f path origin inner
      return (b, ms.put name (table origin inner))
    | some (tables (latest :: earlier)) => do
      let (b, latest) ← change byDots f path .stated latest
      return (b, ms.put name (tables (latest :: earlier)))
    | some _ => none

/-- Adds a value under a dotted key. The name must be new, and the table that the front part
of the key leads to must be one that dotted keys made. -/
def Members.insert (ms : Members) (path : List String) (name : String) (v : Toml) :
    Option Members := do
  let add (origin : Origin) (ms : Members) : Option (Unit × Members) :=
    if (!path.isEmpty && origin ≠ .dotted) || ms.any (·.1 == name) then none
    else some ((), ms ++ [(name, v)])
  return (← change true add path .stated ms).2

/-! ## Sections -/

/-- The lines below a header: where their members go, and whether they are one of several
tables there. -/
structure Section where
  path : List String := []
  repeated : Bool := false
  members : Members := []
deriving Inhabited

/-- Puts a section that is complete into the document. -/
def Section.close (s : Section) (document : Members) : Option Members :=
  match s.path.getLast? with
  | none => some s.members
  | some name => do
    let add (_ : Origin) (ms : Members) : Option (Unit × Members) :=
      if s.repeated then
        match ms.lookup name with
        | none => some ((), ms.put name (tables [s.members]))
        | some (tables earlier) => some ((), ms.put name (tables (s.members :: earlier)))
        | some _ => none
      else some ((), ms.put name (table .stated s.members))
    return (← change false add s.path.dropLast .stated document).2

/-- Opens the section of a header, with the document that is left without it. A table may
get its header after it was made as part of another header's path. -/
def Section.open (path : List String) (repeated : Bool) (document : Members) :
    Option (Section × Members) := do
  let name ← path.getLast?
  let find (_ : Origin) (ms : Members) : Option (Section × Members) :=
    match ms.lookup name with
    | none => some ({ path, repeated }, ms)
    | some (tables _) => if repeated then some ({ path, repeated }, ms) else none
    | some (table .implied inner) =>
      if repeated then none
      else some ({ path, members := inner }, ms.filter (·.1 ≠ name))
    | some _ => none
  change false find path.dropLast .stated document

end Toml

end WaveCollapse
