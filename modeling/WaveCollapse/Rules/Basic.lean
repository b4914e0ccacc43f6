import WaveCollapse.Wave

/-! # Compatibility rules

Rules say which pure states may sit at the two ends of a typed connection. Every way of
giving rules is brought to one record, `Rules`, and the search knows nothing else.

What a wave admits at the far end of a connection is defined from `allows` alone
(`admitted`): the states of the destination's class that some component of the source
allows. Rules may answer `allowed` in any other way, but must give the same wave
(`Rules.Faithful`). -/

namespace WaveCollapse

/-- Compatibility of pure states across typed connections. -/
structure Rules where
  /-- Whether `y` may sit at the far end of a connection of type `t` that leaves `x`. -/
  allows : (x t y : Nat) → Bool
  /-- The states of the template's class that `x` admits across a connection of type `t`;
  only the layout of the template counts. -/
  allowed : (x : Wave) → (t : Nat) → (template : Wave) → Wave
  /-- The type of a connection as seen from its other end. -/
  dual : Nat → Nat
  /-- How many states an exclusion class has. -/
  classWidth : Nat → Nat
  /-- How many connection types there are. -/
  typeCount : Nat
  /-- How many exclusion classes there are. -/
  classCount : Nat

/-- The states of the template's class that some component of `x` allows, whether or not they are
words. -/
def admitted (allows : Nat → Nat → Nat → Bool) (x : Wave) (t : Nat) (template : Wave) : Wave :=
  let sources := x.components
  (template.layout.states.filter fun y => sources.any fun s => allows s t y).foldl
    Wave.add template.emptied

/-- Looks at one pair of states in words: `y` is added if `s` allows it, unless it is there
already. -/
def checkedAdmit (allows : Nat → Nat → Nat → Bool) (t s : Nat) (w : Wave) (y : Nat) :
    Checked Wave := do
  if ← w.checkedContains y then return w
  else if allows s t y then w.checkedAdd y
  else return w

/-- `admitted` in words, pair by pair: the states of the template's class are listed first, whether
or not `x` has any component. -/
def checkedAdmitted (allows : Nat → Nat → Nat → Bool) (x : Wave) (t : Nat) (template : Wave) :
    Checked Wave := do
  let candidates ← template.layout.checkedStates
  let sources ← x.checkedComponents
  sources.foldlM (fun w s => candidates.foldlM (checkedAdmit allows t s) w) template.emptied

namespace Rules

/-- `allowed` gives what `allows` admits. -/
def Faithful (r : Rules) : Prop :=
  ∀ x t template, r.allowed x t template = admitted r.allows x t template

/-- Reading a connection from its other end turns it into its dual. -/
def Symmetric (r : Rules) : Prop :=
  (∀ t, r.dual (r.dual t) = t) ∧ ∀ x t y, r.allows x t y = r.allows y (r.dual t) x

end Rules

end WaveCollapse
