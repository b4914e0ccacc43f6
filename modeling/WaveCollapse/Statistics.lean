import WaveCollapse.Numbers

/-! # Statistics of measurements

Measurements are kept as the 64 bits of a float, because they are sorted in the total order
of those bits, which tells zeros of different sign and numbers that are none apart. The
spread is that of a sample: the squares are divided by one less than their number. -/

namespace WaveCollapse

/-- A measured number, by its bits. -/
structure Sample where
  bits : UInt64
deriving DecidableEq, Inhabited

namespace Sample

/-- The number. -/
def value (s : Sample) : Float := Float.ofBits s.bits

/-- A number as a measurement. -/
def ofFloat (x : Float) : Sample := ⟨x.toBits⟩

/-- The place of a number in the total order: below zero a larger magnitude comes first. -/
def rank (s : Sample) : Nat :=
  let n := s.bits.toNat
  if n < twoTo 63 then n + twoTo 63 else twoTo 64 - 1 - n

/-- Ascending in the total order. -/
def sort (data : List Sample) : List Sample := data.mergeSort fun a b => a.rank ≤ b.rank

end Sample

namespace Statistics

/-- The number in the middle, or halfway between the two in the middle. -/
def median (data : List Sample) : Option Float :=
  let sorted := Sample.sort data
  let middle := sorted.length / 2
  if sorted.length % 2 = 0 then
    match sorted[middle - 1]?, sorted[middle]? with
    | some a, some b => some ((a.value + b.value) / 2)
    | _, _ => none
  else sorted[middle]?.map Sample.value

/-- The sum in order. -/
def sum (data : List Float) : Float := data.foldl (· + ·) 0

/-- A count as a float. -/
def count (n : Nat) : Float := n.toUInt64.toFloat

/-- The mean of some numbers. -/
def mean (data : List Float) : Option Float :=
  if data.isEmpty then none else some (sum data / count data.length)

/-- The spread around a mean; it takes two numbers at least. -/
def deviation (data : List Float) (mean : Float) : Option Float :=
  if data.length < 2 then none
  else
    let squares := data.map fun x => (mean - x) * (mean - x)
    some (sum squares / count (data.length - 1)).sqrt

end Statistics

end WaveCollapse
