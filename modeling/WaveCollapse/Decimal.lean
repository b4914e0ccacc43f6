import WaveCollapse.Numbers

/-! # Decimal text

Which texts spell a number when it stands alone: on a command line, in the environment, or
as a value of a file; and how a float is written with a fixed number of places. -/

namespace WaveCollapse

/-! ## Digits and their value

A natural number is written with its decimal digits, without a zero in front; their value is the
number. -/

theorem toList_toString (n : Nat) : (toString n).toList = Nat.toDigits 10 n := by
  rw [Nat.toString_eq_ofList_toDigits, String.toList_ofList]

theorem all_isDigit_toDigits (n : Nat) : ∀ c ∈ Nat.toDigits 10 n, c.isDigit = true :=
  fun _ hc => Nat.isDigit_of_mem_toDigits (by decide) (by decide) hc

theorem head?_toDigits_append (n : Nat) (rest : List Char) :
    (Nat.toDigits 10 n ++ rest).head? = (Nat.toDigits 10 n).head? := by
  cases h : Nat.toDigits 10 n with
  | nil => exact absurd h Nat.toDigits_ne_nil
  | cons d ds => rfl

/-- The digits of a positive number do not start with a zero. -/
theorem head?_toDigits {n : Nat} (hn : 0 < n) : (Nat.toDigits 10 n).head? ≠ some '0' := by
  induction n using Nat.strongRecOn with
  | ind n ih =>
    rcases Nat.lt_or_ge n 10 with small | large
    · rw [Nat.toDigits_of_lt_base small]
      have nonzero : ∀ d < 10, 0 < d → [d.digitChar].head? ≠ some '0' := by decide
      exact nonzero n small hn
    · rw [Nat.toDigits_of_base_le (by decide) large, head?_toDigits_append]
      exact ih (n / 10) (by omega) (by omega)

/-- The digits of a number give back its value, from the left to the right. -/
theorem foldl_toDigits (n : Nat) :
    (Nat.toDigits 10 n).foldl (fun n c => n * 10 + (c.toNat - '0'.toNat)) 0 = n := by
  have value := @Nat.ofDigitChars_ten_toDigits n
  rw [Nat.ofDigitChars_eq_foldl] at value
  simp only [Nat.mul_comm 10] at value
  exact value

namespace Decimal

/-! ## How numbers are spelled -/

/-- The value of decimal digits; there must be one. -/
def digits? (cs : List Char) : Option Nat :=
  if !cs.isEmpty && cs.all Char.isDigit then
    some (cs.foldl (fun n c => n * 10 + (c.toNat - '0'.toNat)) 0)
  else none

/-- A number of 64 bits without sign; a plus may stand in front. -/
def natural64? (cs : List Char) : Option Nat :=
  let ds := match cs with
    | '+' :: ds => ds
    | ds => ds
  (digits? ds).filter (· < twoTo 64)

/-- A number of 64 bits with an optional sign. -/
def integer64? (cs : List Char) : Option Int :=
  match cs with
  | '-' :: ds => ((digits? ds).filter (· ≤ twoTo 63)).map fun n => -(n : Int)
  | '+' :: ds | ds => ((digits? ds).filter (· < twoTo 63)).map Int.ofNat

/-- Whether the characters spell a decimal number: a sign, digits with a point anywhere
among them, and an exponent, where all but the digits may be missing. -/
def spellsFloat (cs : List Char) : Bool :=
  let unsigned := match cs with
    | '+' :: r | '-' :: r => r
    | r => r
  let whole := unsigned.takeWhile Char.isDigit
  let rest := unsigned.dropWhile Char.isDigit
  let (fraction, rest) := match rest with
    | '.' :: r => (r.takeWhile Char.isDigit, r.dropWhile Char.isDigit)
    | r => ([], r)
  let exponent := match rest with
    | [] => true
    | e :: r =>
      let ds := match r with
        | '+' :: ds | '-' :: ds => ds
        | ds => ds
      (e = 'e' || e = 'E') && !ds.isEmpty && ds.all Char.isDigit
  !(whole.isEmpty && fraction.isEmpty) && exponent

/-! ## Fixed places

A finite float is an integer times a power of two, so it is a fraction of natural numbers
and can be rounded exactly. `roundDiv` rounds a fraction to the nearest integer and an
exact half to the even neighbour; `fixed` writes a float with a number of places that way. -/

/-- The quotient of two natural numbers, rounded to the nearest; an exact half goes to the
even neighbour. -/
def roundDiv (num den : Nat) : Nat :=
  let q := num / den
  let twice := 2 * (num % den)
  if twice < den then q
  else if den < twice then q + 1
  else if q % 2 = 0 then q else q + 1

/-- A natural number with at least `places` digits. -/
def padded (places n : Nat) : String :=
  let digits := toString n
  String.ofList (List.replicate (places - digits.length) '0') ++ digits

/-- The text of `n / 10 ^ places` with all its places. -/
def scaledText (places n : Nat) : String :=
  let digits := padded (places + 1) n
  let whole := digits.length - places
  if places = 0 then digits
  else String.ofList (digits.toList.take whole) ++ "." ++ String.ofList (digits.toList.drop whole)

/-- The numerator and denominator of `mantissa * 2 ^ exponent`. -/
def fraction (mantissa : Nat) (exponent : Int) : Nat × Nat :=
  if 0 ≤ exponent then (mantissa * twoTo exponent.toNat, 1)
  else (mantissa, twoTo (-exponent).toNat)

/-- A float with `places` digits after the point. -/
def fixed (places : Nat) (x : Float) : String :=
  let bits := x.toBits.toNat
  let exponent : Nat := bits / twoTo 52 % twoTo 11
  let low : Nat := bits % twoTo 52
  let sign := if bits / twoTo 63 = 1 then "-" else ""
  if exponent = 2047 then if low = 0 then sign ++ "inf" else "NaN"
  else
    let (num, den) :=
      if exponent = 0 then fraction low (-1074)
      else fraction (low + twoTo 52) ((exponent : Int) - 1075)
    sign ++ scaledText places (roundDiv (num * tenTo places) den)

end Decimal

end WaveCollapse
