import WaveCollapse.Proofs.Search.Path
import WaveCollapse.Proofs.System.Laid
import WaveCollapse.Random

/-! # Rings

The smallest family of systems in which propagation and search both have work to do: `n`
vertices in a ring, each with the states below `k`, where the ends of an edge must differ.
An even ring can be coloured with two states; an odd one needs three, which propagation
alone does not see.
-/

namespace WaveCollapse

/-- The states at the two ends of a connection must differ. -/
def Rules.differing (k : Nat) : Rules where
  allows x _ y := x != y
  allowed := admitted fun x _ y => x != y
  dual t := t
  classWidth _ := k
  typeCount := 1
  classCount := 1

theorem Rules.differing_faithful (k : Nat) : (Rules.differing k).Faithful := fun _ _ _ => rfl

/-- `n` vertices in a ring, joined by edges across which the states differ. -/
def Problem.ring (n k : Nat) : Problem Int where
  topology := Graph.topology
    { vertices := (List.range n).map Int.ofNat
      edges := (List.range n).flatMap fun i =>
        let j := (i + 1) % n
        [(Int.ofNat i, ⟨Int.ofNat j, 0, true⟩), (Int.ofNat j, ⟨Int.ofNat i, 0, false⟩)]
      attributes := [] }
  rules := .differing k
  stride := k

/-- The ring with all states at every vertex. -/
def System.ring (n k : Nat) : System Int where
  problem := .ring n k
  connections := (Problem.ring n k).connections
  waves := Array.replicate n (Wave.full ⟨0, k, k⟩)

theorem System.ring_laid (n k : Nat) : (System.ring n k).Laid := by
  refine ⟨rfl, ?_⟩
  show (Array.replicate n _).size = ((List.range n).map Int.ofNat).length
  rw [Array.size_replicate, List.length_map, List.length_range]

theorem System.wave_ring {n k v : Nat} (hv : v < n) :
    (System.ring n k).wave v = Wave.full ⟨0, k, k⟩ := by
  have hv' : v < (System.ring n k).waves.size := by
    show v < (Array.replicate n _).size
    rwa [Array.size_replicate]
  rw [System.wave_eq, waveAt_eq_getElem hv']
  exact Array.getElem_replicate _

theorem System.size_ring (n k : Nat) : (System.ring n k).size = n := Array.size_replicate

/-- With at least one state and no more than a wave can hold, the waves are well-formed. -/
theorem System.ring_wellFormed {n k : Nat} (hk : (Layout.mk 0 k k).Valid) :
    (System.ring n k).WellFormed := by
  intro v hv
  rw [System.size_ring] at hv
  rw [System.wave_ring hv]
  exact Wave.wellFormed_full hk

theorem System.mem_wave_ring {n k v p : Nat} (hk : (Layout.mk 0 k k).Valid) (hv : v < n) :
    p ∈ (System.ring n k).wave v ↔ p < k := by
  rw [System.wave_ring hv, Wave.mem_full hk, Layout.mem_states]
  show 0 * k ≤ p ∧ p < 0 * k + k ↔ p < k
  omega

theorem System.ring_alive {n k : Nat} (hk : (Layout.mk 0 k k).Valid) :
    AliveWaves (System.ring n k).waves := by
  intro v hv
  have hv' : v < n := Nat.lt_of_lt_of_eq hv (System.size_ring n k)
  refine (Wave.isEmpty_eq_false_iff (System.ring_wellFormed hk v hv)).mpr ⟨0, ?_⟩
  exact (System.mem_wave_ring hk hv').mpr hk.1

/-- The ring with the listed states at its vertices, one list a vertex. -/
def System.ringOf (k : Nat) (states : List (List Nat)) : System Int :=
  { System.ring states.length k with
    waves := (states.map fun qs => qs.foldl Wave.add (Wave.empty ⟨0, k, k⟩)).toArray }

theorem System.ringOf_laid (k : Nat) (states : List (List Nat)) :
    (System.ringOf k states).Laid := by
  refine ⟨rfl, ?_⟩
  show (states.map _).toArray.size = ((List.range states.length).map Int.ofNat).length
  rw [List.size_toArray, List.length_map, List.length_map, List.length_range]

theorem System.ringOf_wellFormed {k : Nat} (hk : (Layout.mk 0 k k).Valid)
    (states : List (List Nat)) : (System.ringOf k states).WellFormed := by
  have hadd : ∀ (qs : List Nat) (w : Wave), w.WellFormed → (qs.foldl Wave.add w).WellFormed := by
    intro qs
    induction qs with
    | nil => exact fun w hw => hw
    | cons q qs ih => exact fun w hw => ih _ (hw.add q)
  intro v hv
  rw [System.wave_eq, waveAt_eq_getElem hv]
  obtain ⟨qs, -, hqs⟩ := List.mem_map.mp (Array.mem_def.mp (Array.getElem_mem hv))
  rw [← hqs]
  exact hadd qs _ (Wave.wellFormed_empty hk)

/-- A search on the ring that draws its picks from the given words. -/
def Solver.ring (n k : Nat) (config : Config) (words : List UInt32) : Solver Int WordStream where
  system := .ring n k
  config := config
  source := { key := #[], next := 0, unread := words }

/-- A search on the ring with the listed states at its vertices. -/
def Solver.ringOf (k : Nat) (states : List (List Nat)) (config : Config) (words : List UInt32) :
    Solver Int WordStream :=
  { Solver.ring states.length k config words with system := .ringOf k states }

/-- Results of searches can be compared. -/
instance decidableEqExcept {ε α : Type} [DecidableEq ε] [DecidableEq α] :
    DecidableEq (Except ε α)
  | .ok a, .ok b => decidable_of_iff (a = b) ⟨congrArg Except.ok, Except.ok.inj⟩
  | .error a, .error b => decidable_of_iff (a = b) ⟨congrArg Except.error, Except.error.inj⟩
  | .ok _, .error _ => isFalse (by simp)
  | .error _, .ok _ => isFalse (by simp)

end WaveCollapse
