import WaveCollapse.System.Basic
import WaveCollapse.Wave.Document

/-! # Snapshots of systems

The waves of a system as text, and back. Reading asks only that the text spells as many
waves as the system has variables. -/

namespace WaveCollapse.System
variable {V : Type} (s : System V)

/-- The text of the system's waves. -/
def writeSnapshot : String := Wave.snapshotText s.waves.toList

/-- Replaces the waves by those of a text; the system is as before if this fails. -/
def readSnapshot (text : String) : Except CollapseError (System V) :=
  match Wave.ofSnapshotText? text with
  | none => .error (.checkpoint "the text does not spell a list of waves")
  | some waves => s.restore waves.toArray

/-- Whether two lists of waves agree place by place. Waves of one class have to be readable
to be compared, so the answer may be a failure; nothing past the first difference is
compared. -/
def sameWaves : List Wave → List Wave → Except CollapseError Bool
  | [], [] => .ok true
  | w :: ws, v :: vs =>
    if w.layout.classId = v.layout.classId ∧ ¬ (w.Readable ∧ v.Readable) then
      .error .unreadableWave
    else if w.agrees v then sameWaves ws vs
    else .ok false
  | _, _ => .ok false

/-- Whether the system's waves agree with those of a snapshot. -/
def agreesWith (waves : Array Wave) : Except CollapseError Bool :=
  if waves.size = s.size then sameWaves waves.toList s.waves.toList else .ok false

end WaveCollapse.System

namespace WaveCollapse

/-! ## Changing a system in place

A caller that owns a system changes it in place.  A change that fails leaves behind whatever it
has done by then, so the order in which a change reads and writes matters: all of these find out
whether they fail before they write. -/

/-- A change of a system; a failure keeps the system as far as the change came. -/
abbrev Change (V α : Type) := EStateM CollapseError (System V) α

namespace Change
variable {V α : Type}

/-- A result that may be a failure. -/
def ofExcept : Except CollapseError α → Change V α
  | .ok a => pure a
  | .error e => throw e

/-- Gives every variable its starting wave again. The waves are laid aside one by one and
taken over together. -/
def reset : Change V Unit := do
  let p := (← get).problem
  let waves ← p.topology.vertices.zipIdx.foldlM (fun waves entry => do
    let w ← ofExcept (p.startingWave entry.2 entry.1)
    return waves.push w) #[]
  modify fun s => { s with waves }

/-- Replaces the wave of a variable. -/
def setWave (v : Nat) (w : Wave) : Change V Unit := do
  if v < (← get).size then modify fun s => { s with waves := s.waves.setIfInBounds v w }
  else throw (.unknownVariable v)

/-- Replaces all waves. -/
def restore (waves : Array Wave) : Change V Unit := do
  let s ← get
  if waves.size ≠ s.size then throw (.snapshotMismatch s.size waves.size)
  modify fun s => { s with waves }

/-- Replaces the waves by those of a text. -/
def readSnapshot (text : String) : Change V Unit := do
  match Wave.ofSnapshotText? text with
  | none => throw (.checkpoint "the text does not spell a list of waves")
  | some waves => restore waves.toArray

end Change

end WaveCollapse
