import WaveCollapse.Duration
import WaveCollapse.Run.Error

/-! # Acts of a run

A run reads and writes files, prints and keeps a journal; all of this is a workspace, which
its acts change. An act may fail, and what it did until then stands. The acts are the same
in every monad `m`, and only the time that passes comes from there: with a stopwatch that
stands still a run depends on its settings and files alone. -/

namespace WaveCollapse

/-- What a run works on. -/
structure Workspace where
  files : Files := {}
  /-- The text that was printed. -/
  printed : String := ""
  journal : Journal := .silent
  /-- Whether what is printed may have colours. -/
  color : Bool := false
deriving Inhabited

/-- A step of a run. -/
abbrev Act (m : Type → Type) := ExceptT RunError (StateT Workspace m)

/-- Measures how long it takes to work something out. -/
structure Stopwatch (m : Type → Type) where
  measure : {α : Type} → (Unit → α) → m (α × Duration)

/-- The stopwatch for which no time passes. -/
def Stopwatch.still : Stopwatch Id where
  measure f := (f (), Duration.zero)

namespace Act
variable {m : Type → Type} [Monad m]

/-- Goes on with a result, or fails with its error. -/
def ofExcept {α : Type} (r : Except RunError α) : Act m α :=
  match r with
  | .ok a => pure a
  | .error e => throw e

/-- Measures a piece of work. -/
def measure {α : Type} (watch : Stopwatch m) (f : Unit → α) : Act m (α × Duration) :=
  ExceptT.lift (StateT.lift (watch.measure f))

/-- Appends notes to the journal. -/
def tell {ν : Type} [Narrated ν] (notes : List ν) : Act m Unit :=
  modify fun w => { w with journal := w.journal.tellAll notes }

/-- Lets something else keep the journal for a while. -/
def keepJournal {α : Type} (f : Journal → α × Journal) : Act m α :=
  modifyGet fun w =>
    let (a, journal) := f w.journal
    (a, { w with journal })

/-- Prints a text. -/
def print (text : String) : Act m Unit :=
  modify fun w => { w with printed := w.printed ++ text }

/-- Saves a text in the file that a path names. -/
def save (path text : String) : Act m Unit := do
  let files ← ofExcept (((← get).files.writeText path text).mapError .file)
  modify fun w => { w with files }

end Act

end WaveCollapse
