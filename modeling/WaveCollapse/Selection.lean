import WaveCollapse.Wave

/-! # Choosing what to observe

The next variable to observe is one of those with the lowest positive entropy. Resolved
and empty waves have entropy zero and are never candidates. The candidates are found in one
pass that keeps the lowest entropy met so far and the variables that have it. -/

namespace WaveCollapse

/-- How ties between equally constrained variables are broken. -/
inductive Selection where
  /-- By a pick among all candidates. -/
  | randomLowest
  /-- By taking the first candidate. -/
  | firstMinimum
deriving DecidableEq, Inhabited

namespace Selection

/-- The name in settings and on the command line. -/
def name : Selection → String
  | randomLowest => "random-lowest"
  | firstMinimum => "first-minimum"

/-- The name in the description of a configuration. -/
def label : Selection → String
  | randomLowest => "RandomLowest"
  | firstMinimum => "FirstMinimum"

/-- The strategy called `s` in settings. -/
def ofName? : String → Option Selection
  | "random-lowest" => some randomLowest
  | "first-minimum" => some firstMinimum
  | _ => none

end Selection

/-- The lowest positive entropy of the waves seen so far, and the variables that have it,
the latest first. -/
structure Lowest where
  entropy : Option Nat := none
  holders : List Nat := []
deriving Inhabited

namespace Lowest

/-- Takes one more variable into account. -/
def meet (l : Lowest) (v entropy : Nat) : Lowest :=
  if entropy = 0 then l
  else
    match l.entropy with
    | none => ⟨some entropy, [v]⟩
    | some least =>
      if entropy < least then ⟨some entropy, [v]⟩
      else if entropy = least then ⟨some least, v :: l.holders⟩
      else l

end Lowest

/-- The variables that share the lowest positive entropy, in ascending order. -/
def lowestCandidates (waves : Array Wave) : List Nat :=
  (waves.toList.zipIdx.foldl (fun (l : Lowest) (w, v) => l.meet v w.entropy) {}).holders.reverse

/-- The variable to observe next, or none when nothing is ambiguous. Only the random
strategy draws a pick, and it does so for a single candidate too. -/
def select {ρ : Type} [PickSource ρ] (strategy : Selection) (waves : Array Wave) (source : ρ) :
    Option Nat × ρ :=
  match strategy with
  | .firstMinimum => ((lowestCandidates waves).head?, source)
  | .randomLowest => PickSource.choose source (lowestCandidates waves)

end WaveCollapse
