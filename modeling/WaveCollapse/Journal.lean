/-! # The journal of a run

Every part of the library says what it noticed as data of its own (a *note*), and a note
knows how severe it is and how it reads. A journal collects the notes of a run as records
and keeps those its threshold asks for; nothing is printed here. -/

namespace WaveCollapse

/-- Severity of a record, the most severe first. -/
inductive Level where
  | error
  | warn
  | info
  | debug
  | trace
deriving DecidableEq, Inhabited

namespace Level

/-- Position in the order of severity: `0` is the most severe. -/
def rank : Level → Nat
  | error => 0
  | warn => 1
  | info => 2
  | debug => 3
  | trace => 4

/-- The name a record is printed with. -/
def name : Level → String
  | error => "ERROR"
  | warn => "WARN"
  | info => "INFO"
  | debug => "DEBUG"
  | trace => "TRACE"

/-- The word for a level in settings and on the command line. -/
def word : Level → String
  | error => "error"
  | warn => "warn"
  | info => "info"
  | debug => "debug"
  | trace => "trace"

/-- The level that a word stands for. -/
def ofWord? : String → Option Level
  | "error" => some error
  | "warn" => some warn
  | "info" => some info
  | "debug" => some debug
  | "trace" => some trace
  | _ => none

end Level

/-- One line of a journal. -/
structure Record where
  level : Level
  text : String
deriving DecidableEq, Inhabited

namespace Record

/-- The line as it is printed: level, space, message. -/
def line (r : Record) : String := r.level.name ++ " " ++ r.text

end Record

/-- Notes of type `ν` can be recorded: each has a severity and a wording. -/
class Narrated (ν : Type) where
  level : ν → Level
  text : ν → String

/-- The records kept so far, and the least severe level still kept; with no threshold
nothing is kept. -/
structure Journal where
  threshold : Option Level
  records : Array Record := #[]
deriving Inhabited

namespace Journal

/-- A journal that keeps nothing. -/
def silent : Journal := { threshold := none }

/-- Whether records of this level are kept. -/
def keeps (j : Journal) (level : Level) : Bool :=
  match j.threshold with
  | none => false
  | some least => level.rank ≤ least.rank

/-- Appends a note; its wording is only worked out when the record is kept. -/
def tell {ν : Type} [Narrated ν] (j : Journal) (note : ν) : Journal :=
  if j.keeps (Narrated.level note) then
    { j with records := j.records.push ⟨Narrated.level note, Narrated.text note⟩ }
  else j

/-- Appends several notes in order. -/
def tellAll {ν : Type} [Narrated ν] (j : Journal) (notes : List ν) : Journal :=
  notes.foldl tell j

end Journal

end WaveCollapse
