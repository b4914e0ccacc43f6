import WaveCollapse.Journal
import WaveCollapse.Numbers
import WaveCollapse.Random

/-! # Waves

A *wave* is the set of pure states a variable may still take. Pure states are numbered
through all exclusion classes: class `c` owns the numbers from `c * stride` on, as many as
its width. A wave keeps one bit per pure state of its class, in one 64-bit word, and its
layout says which class and which stretch of numbers the bits stand for.

The constructors accept a layout only if the class has between one and 64 states and fits
its stretch (`Layout.check`). The operations keep the layout and set no bit past the width,
so on such waves the number of set bits is the number of members. A wave read from outside
may break both rules; `popcount`, `entropy` and `isEmpty` then still look at the whole
word, while `components` and equality see the bits below the width only.

Whether the states of a class are words is not checked: the constructors take a class so far out
that the number after its last state, or even its first state, is none. The plain definitions
number such a class like any other; those in words stop where such a number is needed, and on a
layout that lies within the words (`Layout.InWord`) they give what the plain ones give. -/

namespace WaveCollapse

/-- The most pure states one class can have. -/
def maxWidth : Nat := 64

/-- The stretch of pure states of one exclusion class. -/
structure Layout where
  /-- The exclusion class. -/
  classId : Nat
  /-- The distance between the first states of two neighbouring classes. -/
  stride : Nat
  /-- How many pure states the class has. -/
  width : Nat
deriving DecidableEq, Inhabited

/-- Why a layout is refused. -/
inductive LayoutError where
  | emptyClass (classId : Nat)
  | widthExceeded (width : Nat)
  | widerThanStride (classId width stride : Nat)
deriving DecidableEq, Inhabited

/-- The wording of a refusal. -/
def LayoutError.message : LayoutError → String
  | emptyClass c => s!"Exclusion class {c} has no pure states"
  | widthExceeded w =>
    s!"Local dimension {w} exceeds the maximum state width of {maxWidth} bits"
  | widerThanStride c w s =>
    s!"Local dimension {w} of exclusion class {c} exceeds global dimension {s}"

namespace Layout

/-- The first pure state of the class, a number of any size. -/
def base (l : Layout) : Nat := l.classId * l.stride

/-- A class of one to 64 states that fits its stride. Its states need not be words; that they are
is `InWord`. -/
def Valid (l : Layout) : Prop := 0 < l.width ∧ l.width ≤ maxWidth ∧ l.width ≤ l.stride

instance (l : Layout) : Decidable l.Valid := inferInstanceAs (Decidable (_ ∧ _))

/-- The pure states of the class are words, and so is the number after the last of them. The
check of a layout does not look at this. -/
def InWord (l : Layout) : Prop := l.base + l.width < twoTo 64

instance (l : Layout) : Decidable l.InWord := inferInstanceAs (Decidable (_ < _))

/-- Accepts exactly the valid layouts; an empty class is reported first, then one wider
than the word, then one wider than its stride. -/
def check (l : Layout) : Except LayoutError Unit :=
  if l.width = 0 then .error (.emptyClass l.classId)
  else if maxWidth < l.width then .error (.widthExceeded l.width)
  else if l.stride < l.width then .error (.widerThanStride l.classId l.width l.stride)
  else .ok ()

theorem check_eq_ok_iff {l : Layout} : l.check = .ok () ↔ l.Valid := by
  unfold check Valid
  split
  · next empty => exact iff_of_false (by simp) (by omega)
  · split
    · next wide => exact iff_of_false (by simp) (by omega)
    · split
      · next wide => exact iff_of_false (by simp) (by omega)
      · exact iff_of_true rfl (by omega)

/-- The position of `p` within the class, if it belongs to it. -/
def offset? (l : Layout) (p : Nat) : Option Nat :=
  if l.base ≤ p ∧ p < l.base + l.width then some (p - l.base) else none

/-- The first pure state of the class, in words. -/
def checkedBase (l : Layout) : Checked Nat := Word.mul l.classId l.stride

/-- The position of `p` within the class, in words. The end of the class is added up only for a
state that is not below the class. -/
def checkedOffset? (l : Layout) (p : Nat) : Checked (Option Nat) := do
  let base ← l.checkedBase
  if p < base then return none
  else
    let stop ← Word.add base l.width
    return if p < stop then some (p - base) else none

/-- The pure states of the class, in ascending order. -/
def states (l : Layout) : List Nat := (List.range l.width).map (l.base + ·)

/-- `states` in words: room for the list, and every state a word. -/
def checkedStates (l : Layout) : Checked (List Nat) := do
  let base ← l.checkedBase
  Word.room l.width 8
  (List.range l.width).mapM (Word.add base)

theorem offset?_eq_some_iff {l : Layout} {p : Nat} {i : Nat} :
    l.offset? p = some i ↔ i < l.width ∧ p = l.base + i := by
  unfold offset?
  split
  · simp; omega
  · simp; omega

theorem mem_states {l : Layout} {p : Nat} :
    p ∈ l.states ↔ l.base ≤ p ∧ p < l.base + l.width := by
  simp only [states, List.mem_map, List.mem_range]
  constructor
  · rintro ⟨i, hi, rfl⟩; omega
  · intro h; exact ⟨p - l.base, by omega, by omega⟩

end Layout

/-- How many of the lowest `k` bits of `n` are set; stops at the highest set bit. -/
def onesBelow : Nat → Nat → Nat
  | 0, _ => 0
  | k + 1, n => if n = 0 then 0 else n % 2 + onesBelow k (n / 2)

/-- The set of pure states a variable may still take. -/
structure Wave where
  layout : Layout
  /-- Bit `i` says whether the state at offset `i` of the class is still possible. -/
  bits : BitVec 64
deriving DecidableEq, Inhabited

namespace Wave

/-! ## Building waves -/

/-- No state of the class is possible. -/
def empty (l : Layout) : Wave := ⟨l, 0⟩

/-- The word with the lowest `width` bits set. -/
def lowBits (width : Nat) : BitVec 64 := BitVec.ofNat 64 (twoTo (min width maxWidth) - 1)

/-- Every state of the class is possible. -/
def full (l : Layout) : Wave := ⟨l, lowBits l.width⟩

/-- The empty wave of a layout that passes the check. -/
def noneOf (l : Layout) : Except LayoutError Wave := l.check.map fun _ => empty l

/-- The full wave of a layout that passes the check. -/
def allOf (l : Layout) : Except LayoutError Wave := l.check.map fun _ => full l

/-- The empty wave of the same class. -/
def emptied (w : Wave) : Wave := empty w.layout

/-! ## Reading waves -/

/-- No wider than its word, so that every offset has a bit. -/
def Readable (w : Wave) : Prop := w.layout.width ≤ maxWidth

instance (w : Wave) : Decidable w.Readable := inferInstanceAs (Decidable (_ ≤ _))

/-- A valid layout and no bit at or past the width. The operations in words can all be carried out
on a well-formed wave whose layout is `Layout.InWord` too. -/
def WellFormed (w : Wave) : Prop :=
  w.layout.Valid ∧ ∀ i, w.layout.width ≤ i → w.bits.getLsbD i = false

/-- The possible states, in ascending order. -/
def components (w : Wave) : List Nat :=
  ((List.range (min w.layout.width maxWidth)).filter w.bits.getLsbD).map (w.layout.base + ·)

/-- Whether `p` is a possible state; states of other classes never are. -/
def contains (w : Wave) (p : Nat) : Bool :=
  match w.layout.offset? p with
  | some i => w.bits.getLsbD i
  | none => false

/-- How many bits are set. -/
def popcount (w : Wave) : Nat := onesBelow 64 w.bits.toNat

/-- How far the wave is from a single state; zero also when nothing is left. -/
def entropy (w : Wave) : Nat := w.popcount - 1

/-- No bit is set. -/
def isEmpty (w : Wave) : Bool := w.bits == 0

/-- Exactly one bit is set. -/
def isResolved (w : Wave) : Bool := w.popcount == 1

/-- The state of a resolved wave. -/
def resolvedState (w : Wave) : Option Nat :=
  if w.isResolved then w.components.head? else none

/-- Equal class and equal bits below the width; the stride is not looked at. -/
def agrees (w v : Wave) : Bool :=
  w.layout.classId == v.layout.classId && w.layout.width == v.layout.width &&
    (w.bits &&& lowBits w.layout.width) == (v.bits &&& lowBits v.layout.width)

/-- How a class and some of its states are written: `class 1 {5, 7}`. -/
def textOf (classId : Nat) (states : List Nat) : String :=
  s!"class {classId} \x7b" ++ ", ".intercalate (states.map toString) ++ "\x7d"

/-- The class and its possible states. -/
def text (w : Wave) : String := textOf w.layout.classId w.components

/-! ## Changing waves -/

/-- Makes `p` possible. A state of another class empties the wave instead. -/
def add (w : Wave) (p : Nat) : Wave :=
  match w.layout.offset? p with
  | some i => { w with bits := w.bits ||| BitVec.twoPow 64 i }
  | none => w.emptied

/-- Makes `p` impossible. A state of another class changes nothing. -/
def remove (w : Wave) (p : Nat) : Wave :=
  match w.layout.offset? p with
  | some i => { w with bits := w.bits &&& ~~~ BitVec.twoPow 64 i }
  | none => w

/-- What is possible in both; a mask of another layout leaves nothing. -/
def maskBy (w mask : Wave) : Wave :=
  if w.layout = mask.layout then { w with bits := w.bits &&& mask.bits } else w.emptied

/-- What is possible in either; a wave of another layout adds nothing. -/
def union (w v : Wave) : Wave :=
  if w.layout = v.layout then { w with bits := w.bits ||| v.bits } else w

/-- The wave in which only `p` is possible. -/
def single (w : Wave) (p : Nat) : Wave := w.emptied.add p

/-- What an observation leaves: the state picked, if there was one to pick, the wave
afterwards and the source left over. -/
structure Observation (ρ : Type) where
  picked : Option Nat
  wave : Wave
  source : ρ

/-- Collapses the wave to one of its states. A single state is kept without a pick; with
none left the wave stays as it is. -/
def observe {ρ : Type} [PickSource ρ] (w : Wave) (source : ρ) : Observation ρ :=
  match w.components with
  | [] => ⟨none, w, source⟩
  | [p] => ⟨some p, w.single p, source⟩
  | many =>
    match PickSource.choose source many with
    | (some p, rest) => ⟨some p, w.single p, rest⟩
    | (none, rest) => ⟨none, w, rest⟩

/-! ## In words -/

/-- The place of `p` in the word, if `p` belongs to the class. -/
def checkedPlace? (w : Wave) (p : Nat) : Checked (Option Nat) := do
  match ← w.layout.checkedOffset? p with
  | some i => if i < maxWidth then return some i else throw .outOfBounds
  | none => return none

/-- `contains` in words. -/
def checkedContains (w : Wave) (p : Nat) : Checked Bool :=
  (w.checkedPlace? p).map fun
    | some i => w.bits.getLsbD i
    | none => false

/-- `add` in words. -/
def checkedAdd (w : Wave) (p : Nat) : Checked Wave :=
  (w.checkedPlace? p).map fun
    | some i => { w with bits := w.bits ||| BitVec.twoPow 64 i }
    | none => w.emptied

/-- `remove` in words. -/
def checkedRemove (w : Wave) (p : Nat) : Checked Wave :=
  (w.checkedPlace? p).map fun
    | some i => { w with bits := w.bits &&& ~~~ BitVec.twoPow 64 i }
    | none => w

/-- `components` in words; the word has to have a bit for every offset of the class. -/
def checkedComponents (w : Wave) : Checked (List Nat) := do
  let base ← w.layout.checkedBase
  if maxWidth < w.layout.width then throw .outOfBounds
  else ((List.range w.layout.width).filter w.bits.getLsbD).mapM (Word.add base)

/-- `resolvedState` in words; the states of a wave that is not resolved are not looked at. -/
def checkedResolvedState (w : Wave) : Checked (Option Nat) :=
  if w.isResolved then w.checkedComponents.map List.head? else .ok none

/-- `text` in words. -/
def checkedText (w : Wave) : Checked String :=
  w.checkedComponents.map (textOf w.layout.classId)

/-- `observe` in words. -/
def checkedObserve {ρ : Type} [PickSource ρ] (w : Wave) (source : ρ) :
    Checked (Observation ρ) := do
  match ← w.checkedComponents with
  | [] => return ⟨none, w, source⟩
  | [p] => return ⟨some p, ← w.emptied.checkedAdd p, source⟩
  | many =>
    match PickSource.choose source many with
    | (some p, rest) => return ⟨some p, ← w.emptied.checkedAdd p, rest⟩
    | (none, rest) => return ⟨none, w, rest⟩

/-! ## What is worth noting -/

/-- What an operation on a wave noticed. -/
inductive Note where
  /-- A state of another class was added. -/
  | foreignState (p : Nat) (layout : Layout)
  /-- A wave of another layout was united with. -/
  | foreignUnion (other own : Nat)
  /-- A wave without states was observed. -/
  | emptyObserved (classId : Nat)
deriving DecidableEq

instance : Narrated Note where
  level
    | .foreignState .. => .error
    | .foreignUnion .. => .warn
    | .emptyObserved _ => .error
  text
    | .foreignState p l =>
      s!"Pure state {p} does not belong to exclusion class {l.classId} " ++
        s!"(range {l.base}..{l.base + l.width}); clearing state"
    | .foreignUnion other own =>
      s!"Ignoring union of exclusion class {other} into class {own}"
    | .emptyObserved c => s!"Attempted to observe an empty state of exclusion class {c}"

/-- What `add` notices. -/
def addNotes (w : Wave) (p : Nat) : List Note :=
  if (w.layout.offset? p).isNone then [.foreignState p w.layout] else []

/-- What `checkedAdd` notices; the note on a foreign state names the range of the class. -/
def checkedAddNotes (w : Wave) (p : Nat) : Checked (List Note) := do
  match ← w.layout.checkedOffset? p with
  | some _ => return []
  | none =>
    let base ← w.layout.checkedBase
    let _ ← Word.add base w.layout.width
    return [.foreignState p w.layout]

/-- What `union` notices. -/
def unionNotes (w v : Wave) : List Note :=
  if w.layout = v.layout then [] else [.foreignUnion v.layout.classId w.layout.classId]

/-- What `observe` notices. -/
def observeNotes (w : Wave) : List Note :=
  if w.components.isEmpty then [.emptyObserved w.layout.classId] else []

end Wave

end WaveCollapse
