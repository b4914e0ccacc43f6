import WaveCollapse.Numbers

/-! # Sources of picks

The search asks for one thing only: an index below a positive bound. Whatever can answer
that is a source of picks, so statements about a search hold for every generator, and for
any other way of choosing. A run uses a stream of words drawn from a seed. -/

namespace WaveCollapse

/-- A source of picks: `pick s n` names an index below `n` and the source left over. -/
class PickSource (ρ : Type) where
  pick : ρ → (n : Nat) → 0 < n → Fin n × ρ

namespace PickSource
variable {ρ α : Type} [PickSource ρ]

/-- Picks an element of a list; an empty list has none and draws nothing. -/
def choose (source : ρ) (xs : List α) : Option α × ρ :=
  if h : 0 < xs.length then
    let (i, rest) := pick source xs.length h
    (some xs[i], rest)
  else (none, source)

theorem choose_nil (source : ρ) : choose source ([] : List α) = (none, source) := rfl

theorem choose_isSome {source : ρ} {xs : List α} (h : xs ≠ []) :
    ∃ x ∈ xs, ∃ rest, choose source xs = (some x, rest) := by
  have hl : 0 < xs.length := List.length_pos_iff.mpr h
  refine ⟨xs[(pick source xs.length hl).1], List.getElem_mem _, (pick source xs.length hl).2, ?_⟩
  simp [choose, hl]

theorem mem_of_choose {source rest : ρ} {xs : List α} {x : α}
    (h : choose source xs = (some x, rest)) : x ∈ xs := by
  unfold choose at h
  split at h
  · cases h; exact List.getElem_mem _
  · cases h

end PickSource

/-! ## The seeded source

A stream of 32-bit words from the ChaCha block function with twelve rounds: the key is
drawn from the seed by a permuted congruential generator, the block counter starts at
zero and the nonce is zero. A pick below `n` multiplies a word by `n` and takes the high
half; words whose low half lies above the largest even share are rejected, so that every
index is equally likely. -/

namespace ChaCha

/-- The sixteen words a block is computed on. -/
abbrev Words := Array UInt32

private def rotl (x : UInt32) (k : UInt32) : UInt32 := (x <<< k) ||| (x >>> (32 - k))

/-- One quarter round on the words at the four places. -/
def quarter (w : Words) (a b c d : Nat) : Words :=
  let va := w.getD a 0
  let vb := w.getD b 0
  let vc := w.getD c 0
  let vd := w.getD d 0
  let va := va + vb
  let vd := rotl (vd ^^^ va) 16
  let vc := vc + vd
  let vb := rotl (vb ^^^ vc) 12
  let va := va + vb
  let vd := rotl (vd ^^^ va) 8
  let vc := vc + vd
  let vb := rotl (vb ^^^ vc) 7
  (((w.setIfInBounds a va).setIfInBounds b vb).setIfInBounds c vc).setIfInBounds d vd

/-- A round down the columns and one along the diagonals. -/
def doubleRound (w : Words) : Words :=
  let w := quarter w 0 4 8 12
  let w := quarter w 1 5 9 13
  let w := quarter w 2 6 10 14
  let w := quarter w 3 7 11 15
  let w := quarter w 0 5 10 15
  let w := quarter w 1 6 11 12
  let w := quarter w 2 7 8 13
  quarter w 3 4 9 14

/-- The words before the rounds: four constants, the key, the block number, a zero nonce. -/
def initial (key : Array UInt32) (block : UInt64) : Words :=
  (#[0x61707865, 0x3320646e, 0x79622d32, 0x6b206574] : Words) ++ key ++
    #[block.toUInt32, (block >>> 32).toUInt32, 0, 0]

/-- The sixteen output words of one block. -/
def block (key : Array UInt32) (number : UInt64) : Words :=
  let start := initial key number
  let mixed := (List.range 6).foldl (fun w _ => doubleRound w) start
  mixed.zipWith (· + ·) start

/-- One step of the congruential generator that spreads a seed: the output word and the
next state. -/
def spread (s : UInt64) : UInt32 × UInt64 :=
  let s := s * 6364136223846793005 + 11634580027462260723
  let x := (((s >>> 18) ^^^ s) >>> 27).toUInt32
  let k := (s >>> 59).toUInt32
  ((x >>> k) ||| (x <<< ((32 - k) % 32)), s)

/-- The key of eight words that belongs to a seed. -/
def keyOfSeed (seed : UInt64) : Array UInt32 :=
  ((List.range 8).foldl (fun (acc : Array UInt32 × UInt64) _ =>
    let (word, s) := spread acc.2
    (acc.1.push word, s)) (#[], seed)).1

end ChaCha

/-- A position in the word stream of a key: the number of the next block, and the words of
the current one that are still unread. -/
structure WordStream where
  key : Array UInt32
  next : UInt64
  unread : List UInt32
deriving DecidableEq, Inhabited

namespace WordStream

/-- The stream of a seed, nothing read yet. -/
def ofSeed (seed : Nat) : WordStream :=
  { key := ChaCha.keyOfSeed (UInt64.ofNat seed), next := 0, unread := [] }

/-- The stream of a key given as bytes, the lowest byte of a word first, nothing read yet. -/
def ofBytes (bytes : ByteArray) : WordStream :=
  let word (i : Nat) : UInt32 :=
    (List.range 4).foldr (fun k high => high <<< 8 ||| (bytes.data.getD (4 * i + k) 0).toUInt32) 0
  { key := ((List.range 8).map word).toArray, next := 0, unread := [] }

/-- Reads the next word. -/
def read (s : WordStream) : UInt32 × WordStream :=
  match s.unread with
  | w :: rest => (w, { s with unread := rest })
  | [] =>
    match (ChaCha.block s.key s.next).toList with
    | w :: rest => (w, { s with next := s.next + 1, unread := rest })
    | [] => (0, s)

/-- The largest low half that is accepted for a pick below `n`. -/
def zone (n : Nat) : Nat := n * twoTo (31 - n.log2) - 1

/-- Reads words until one is accepted, at most `patience + 1` of them, and scales it to an
index below `n`. Fewer than half of the words are rejected, so the last word of a long
patience is never reached in practice. -/
def pickWithin : Nat → WordStream → (n : Nat) → 0 < n → Fin n × WordStream
  | patience, s, n, h =>
    let (word, rest) := s.read
    let product := word.toNat * n
    let index : Fin n := ⟨product / twoTo 32, by
      have hw : word.toNat < twoTo 32 := word.toNat_lt
      exact Nat.div_lt_of_lt_mul (Nat.mul_lt_mul_of_pos_right hw h)⟩
    if product % twoTo 32 ≤ zone n then (index, rest)
    else
      match patience with
      | 0 => (index, rest)
      | patience + 1 => pickWithin patience rest n h

instance : PickSource WordStream where
  pick := pickWithin 1024

end WordStream

end WaveCollapse
