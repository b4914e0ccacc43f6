import WaveCollapse.Wave
import WaveCollapse.Json.Parser
import WaveCollapse.Json.Printer

/-! # Waves as documents

A wave is written with every field: its word together with the word's bit order, start and
length, then class, stride and width. Reading takes exactly that bit order, start and
length and one word; it does not ask whether the layout is valid or whether bits are set
past the width. -/

namespace WaveCollapse.Wave

/-- The name of the bit order in which bit `i` has the weight `2 ^ i`. -/
def bitOrder : String := "bitvec::order::Lsb0"

/-- The word of a wave as a document. -/
def bitsDocument (bits : BitVec 64) : Json :=
  .ofFields [
    ("order", .ofString bitOrder),
    ("head", .ofFields [("width", .ofNat 64), ("index", .ofNat 0)]),
    ("bits", .ofNat 64),
    ("data", .list [.ofNat bits.toNat])]

/-- The wave as a document. -/
def document (w : Wave) : Json :=
  .ofFields [
    ("bits", bitsDocument w.bits),
    ("exclusion_class", .ofNat w.layout.classId),
    ("global_dimension", .ofNat w.layout.stride),
    ("local_dimension", .ofNat w.layout.width)]

/-- The start of the bits within their word: the first of 64. -/
def isFirstBit (j : Json) : Bool :=
  match j.toFields? ["width", "index"] true with
  | some [some width, some index] => width.toNat64? == some 64 && index.toNat64? == some 0
  | _ => false

/-- Reads a word. -/
def bitsOfDocument? (j : Json) : Option (BitVec 64) := do
  match ← j.toFields? ["order", "head", "bits", "data"] true with
  | [some order, some head, some bits, some (.list [word])] =>
    if order.toText? = some bitOrder ∧ isFirstBit head ∧ bits.toNat64? = some 64 then
      return BitVec.ofNat 64 (← word.toNat64?)
    else none
  | _ => none

/-- Reads a wave. -/
def ofDocument? (j : Json) : Option Wave := do
  match ← j.toFields? ["bits", "exclusion_class", "global_dimension", "local_dimension"] with
  | [some bits, some classId, some stride, some width] =>
    return {
      layout := {
        classId := ← classId.toNat64?, stride := ← stride.toNat64?, width := ← width.toNat64? }
      bits := ← bitsOfDocument? bits }
  | _ => none

/-- The waves of a snapshot as indented text. -/
def snapshotText (ws : List Wave) : String := Json.render .indented (.list (ws.map document))

/-- The waves that a snapshot's text holds. -/
def ofSnapshotText? (s : String) : Option (List Wave) :=
  (Json.parse? s).bind (Json.toList? ofDocument?)

end WaveCollapse.Wave
