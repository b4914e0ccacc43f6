/-! # Powers, sums and words

The bounds of words are powers of two, and the places of a decimal are powers of ten.

Numbers have any size, and so do the states, cells and tables numbered with them.  What the same
computation makes of numbers that are words of 64 bits is a definition of its own, with a name in
`checked`: every sum and product it forms has to be a word again, every list it makes room for may
not take more bytes than a list can, and every place it looks at has to be there.  Where one of
these fails the computation stops (`Fault`), and where none does it gives what the plain definition
gives. -/

namespace WaveCollapse

/-- A power of two. -/
abbrev twoTo (n : Nat) : Nat := Nat.pow 2 n

/-- A power of ten. -/
abbrev tenTo (n : Nat) : Nat := Nat.pow 10 n

/-- The sum of some numbers. -/
def total (ns : List Nat) : Nat := ns.foldr (· + ·) 0

@[simp]
theorem total_nil : total [] = 0 := rfl

@[simp]
theorem total_cons (n : Nat) (ns : List Nat) : total (n :: ns) = n + total ns := rfl

/-! ## Computing in words -/

/-- Why a computation in words stops. -/
inductive Fault where
  /-- A sum or a product is no word. -/
  | overflow
  /-- A list would take more bytes than a list can. -/
  | capacity
  /-- There is no such place. -/
  | outOfBounds
deriving DecidableEq, Inhabited

/-- What a computation in words comes to. -/
abbrev Checked (α : Type) := Except Fault α

namespace Word
variable {a b n m : Nat}

/-- A number that has to be a word. -/
def check (n : Nat) : Checked Nat := if n < twoTo 64 then .ok n else .error .overflow

/-- A sum of words. -/
def add (a b : Nat) : Checked Nat := check (a + b)

/-- A product of words. -/
def mul (a b : Nat) : Checked Nat := check (a * b)

/-- Room for some items of some bytes each, fewer than half the number of words in all. -/
def room (count bytes : Nat) : Checked Unit :=
  if count * bytes < twoTo 63 then .ok () else .error .capacity

/-- The value at a place. -/
def read {α : Type} (values : Array α) (i : Nat) : Checked α :=
  values[i]?.elim (.error .outOfBounds) .ok

/-- Puts a value at a place. -/
def write {α : Type} (values : Array α) (i : Nat) (value : α) : Checked (Array α) :=
  if i < values.size then .ok (values.setIfInBounds i value) else .error .outOfBounds

/-- A table of results, the first ones first. -/
def tabulate {α : Type} (n : Nat) (f : Nat → Checked α) : Checked (Array α) :=
  ((List.range n).mapM f).map List.toArray

theorem check_eq_ok_iff : check n = .ok m ↔ n < twoTo 64 ∧ n = m := by
  unfold check
  split
  · next h => rw [Except.ok.injEq, and_iff_right h]
  · next h => exact iff_of_false (fun h' => nomatch h') fun h' => h h'.1

theorem check_of_lt (h : n < twoTo 64) : check n = .ok n := if_pos h

theorem check_of_le (h : twoTo 64 ≤ n) : check n = .error .overflow := if_neg (Nat.not_lt_of_le h)

theorem add_of_lt (h : a + b < twoTo 64) : add a b = .ok (a + b) := check_of_lt h

theorem add_of_le (h : twoTo 64 ≤ a + b) : add a b = .error .overflow := check_of_le h

theorem mul_of_lt (h : a * b < twoTo 64) : mul a b = .ok (a * b) := check_of_lt h

theorem mul_of_le (h : twoTo 64 ≤ a * b) : mul a b = .error .overflow := check_of_le h

theorem room_of_lt (h : n * m < twoTo 63) : room n m = .ok () := if_pos h

theorem room_of_le (h : twoTo 63 ≤ n * m) : room n m = .error .capacity :=
  if_neg (Nat.not_lt_of_le h)

theorem read_eq_ok_iff {α : Type} {values : Array α} {i : Nat} {value : α} :
    read values i = .ok value ↔ values[i]? = some value := by
  unfold read
  cases values[i]? with
  | none => exact iff_of_false (fun h => nomatch h) (fun h => nomatch h)
  | some v => rw [Option.elim_some, Except.ok.injEq, Option.some.injEq]

theorem write_of_lt {α : Type} {values : Array α} {i : Nat} (h : i < values.size) (value : α) :
    write values i value = .ok (values.setIfInBounds i value) := if_pos h

end Word

end WaveCollapse
