import Mathlib.Algebra.BigOperators.Group.List.Basic
import WaveCollapse.Proofs.Search.Invariant

/-! # How much a search can still do

The volume of a vector is the number of assignments inside it (`volume`).  An observation
splits the waves into the part that keeps the decided state and the part that excludes it, and
their volumes add up (`volume_split`).  So the volume in force together with the volumes of
all alternatives, and one for every decision undone, never grows (`Move.remaining_le`), while
every decision that stands has an alternative of volume at least one.  This bounds the
observations of a search with backtracking by the volume that it starts with.
-/

namespace WaveCollapse

/-- The product of the numbers of components. -/
def volume (ws : Array Wave) : Nat := (ws.toList.map fun w => w.components.length).prod

/-- The volume is linear in the components of each wave. -/
theorem volume_factor {ws : Array Wave} {v : Nat} (hv : v < ws.size) :
    ∃ rest, volume ws = (waveAt ws v).components.length * rest ∧
      ∀ w, volume (ws.setIfInBounds v w) = w.components.length * rest := by
  let sizes := ws.toList.map fun w => w.components.length
  refine ⟨(sizes.take v).prod * (sizes.drop (v + 1)).prod, ?_⟩
  have hset : ∀ w, volume (ws.setIfInBounds v w) =
      w.components.length * ((sizes.take v).prod * (sizes.drop (v + 1)).prod) := by
    intro w
    unfold volume
    rw [Array.toList_setIfInBounds, List.map_set, List.prod_set, if_pos (by simpa using hv)]
    rw [Nat.mul_comm (List.prod _) w.components.length, Nat.mul_assoc]
  refine ⟨?_, hset⟩
  rw [← hset, waveAt_eq_getElem hv]
  simp [Array.setIfInBounds, hv]

theorem volume_pos {ws : Array Wave} (hwf : WellFormedWaves ws) (ha : AliveWaves ws) :
    0 < volume ws := by
  refine List.prod_pos_iff_forall_pos_nat.mpr fun n hn => ?_
  obtain ⟨w, hw, rfl⟩ := List.mem_map.mp hn
  obtain ⟨v, hv, rfl⟩ := Array.mem_iff_getElem.mp (Array.mem_toList_iff.mp hw)
  rw [← waveAt_eq_getElem hv]
  obtain ⟨p, hp⟩ := (Wave.isEmpty_eq_false_iff (hwf v hv)).mp (ha v hv)
  exact List.length_pos_of_mem hp

/-- A part of a wave has no more components. -/
theorem Wave.length_components_le {w v : Wave} (h : w ⊆ v) :
    w.components.length ≤ v.components.length :=
  Wave.nodup_components.length_le_of_subset fun p hp => h.2 p hp

theorem volume_set_le {ws : Array Wave} {v : Nat} {w : Wave} (hv : v < ws.size)
    (hw : w ⊆ waveAt ws v) : volume (ws.setIfInBounds v w) ≤ volume ws := by
  obtain ⟨rest, hvolume, hset⟩ := volume_factor hv
  rw [hvolume, hset]
  exact Nat.mul_le_mul_right rest (Wave.length_components_le hw)

/-- **An observation splits the volume**: one part keeps the state, the other excludes it. -/
theorem volume_split {ws : Array Wave} {v p : Nat} (hv : v < ws.size)
    (hw : (waveAt ws v).Readable) (hp : p ∈ waveAt ws v) :
    volume (ws.setIfInBounds v ((waveAt ws v).single p)) +
      volume (ws.setIfInBounds v ((waveAt ws v).remove p)) = volume ws := by
  obtain ⟨rest, hvolume, hset⟩ := volume_factor hv
  rw [hset, hset, hvolume, Wave.components_single hw hp, List.length_singleton, ← Nat.add_mul,
    Nat.add_comm 1, Wave.length_components_remove hp]

theorem two_le_volume {ws : Array Wave} (hwf : WellFormedWaves ws) (ha : AliveWaves ws) {v : Nat}
    (hv : v < ws.size) (h2 : 2 ≤ (waveAt ws v).components.length) : 2 ≤ volume ws := by
  obtain ⟨rest, hvolume, -⟩ := volume_factor hv
  have hpos := volume_pos hwf ha
  rw [hvolume] at hpos ⊢
  have hrest : 0 < rest := Nat.pos_of_mul_pos_left hpos
  calc 2 ≤ (waveAt ws v).components.length := h2
    _ ≤ (waveAt ws v).components.length * rest := Nat.le_mul_of_pos_right _ hrest

namespace Solver
variable {V ρ : Type} {start s : Solver V ρ} {limit : Nat} {base : Array Wave} {run : Run}

/-- The volume of all that the decisions left to try. -/
def untried (saved : List (Array Wave)) (choices : List Choice) : Nat :=
  total (List.zipWith (fun ws c => volume (alternative ws c)) saved choices)

/-- What a search has before it: the waves, or one contradiction, and all alternatives. -/
def remaining (s : Solver V ρ) (run : Run) : Nat :=
  (if run.inconsistent then 1 else volume s.system.waves) + untried s.checkpoints s.choices

theorem remaining_of_consistent (on : run.inconsistent = false) :
    s.remaining run = volume s.system.waves + untried s.checkpoints s.choices := by
  unfold remaining
  rw [on, if_neg Bool.false_ne_true]

theorem remaining_of_inconsistent (off : run.inconsistent = true) :
    s.remaining run = 1 + untried s.checkpoints s.choices := by
  unfold remaining
  rw [off, if_pos rfl]

theorem untried_cons (ws : Array Wave) (saved : List (Array Wave)) (c : Choice)
    (choices : List Choice) : untried (ws :: saved) (c :: choices) =
      volume (alternative ws c) + untried saved choices := rfl

/-- Every decision left something to try. -/
theorem length_le_untried {saved : List (Array Wave)} {choices : List Choice}
    (h : Decisions start.system base saved choices) : choices.length ≤ untried saved choices := by
  induction h with
  | nil => exact Nat.le_refl 0
  | @cons ws c saved choices below settled within obeys decided ambiguous ih =>
    obtain ⟨hwf, halive⟩ :=
      (Decisions.cons below settled within obeys decided ambiguous).alternative_alive
    have hpos := volume_pos hwf halive
    rw [untried_cons, List.length_cons]
    omega

/-! ## What an event leaves -/

/-- Propagation leaves no more than there was. -/
theorem remaining_carried_le (hs : s.system.Sound) {next : Propagated V}
    (step : s.system.Relaxes s.frontier next) (on : run.inconsistent = false) {run' : Run}
    (on' : run'.inconsistent = false) :
    (s.carried next).remaining run' ≤ s.remaining run := by
  have hle : volume next.system.waves ≤ volume s.system.waves := by
    cases step with
    | idle | unchanged => exact Nat.le_refl _
    | narrowed _ h | contradiction _ h =>
      have hc := System.nextConnection_mem h
      exact volume_set_le (hs.linked.destination_lt _ _ hc) (hs.relaxed hc).2.1
  rw [remaining_of_consistent on, remaining_of_consistent on']
  exact Nat.add_le_add_right hle _

/-- A contradiction leaves no more than the waves that it was met in. -/
theorem remaining_contradicted_le (hinv : Invariant start limit base s run) (next : Propagated V)
    (on : run.inconsistent = false) {run' : Run} (off' : run'.inconsistent = true) :
    (s.carried next).remaining run' ≤ s.remaining run := by
  have hpos := volume_pos hinv.wellFormed (hinv.consistent on).1
  rw [remaining_of_consistent on, remaining_of_inconsistent off']
  exact Nat.add_le_add_right hpos _

/-- An observation leaves as much as there was. -/
theorem remaining_decided (hinv : Invariant start limit base s run)
    (mode : s.config.backtracking = true) (on : run.inconsistent = false) {v p : Nat}
    (hv : v < s.system.size) (mem : p ∈ s.system.wave v) (source : ρ) (reports : List Progress) :
    (s.decided v p source reports).remaining run.counted = s.remaining run := by
  have hsplit := volume_split hv (hinv.wellFormed v hv).readable mem
  have hon : run.counted.inconsistent = false := on
  rw [remaining_of_consistent hon, remaining_of_consistent on, decided_checkpoints mode,
    ← hsplit, Nat.add_assoc]
  exact congrArg _ (untried_cons _ _ _ _)

/-- Undoing a decision trades a contradiction for its alternative. -/
theorem remaining_undone (off : run.inconsistent = true) {ws : Array Wave}
    {saved : List (Array Wave)} {c : Choice} {choices : List Choice}
    (checkpoints : s.checkpoints = ws :: saved) (taken : s.choices = c :: choices) {r : Run}
    (on : r.inconsistent = false) :
    1 + (s.undone ws saved c choices).remaining r = s.remaining run := by
  rw [remaining_of_inconsistent off, remaining_of_consistent on, checkpoints, taken,
    untried_cons]
  rfl

/-- **Decisions undone and what remains together never grow.** -/
theorem Move.remaining_le (hstart : start.system.Sound) (hinv : Invariant start limit base s run)
    (mode : s.config.backtracking = true) {next : Stepped V ρ} {e : Event}
    (hmove : Move s run next) (told : next.outcome = .event e) :
    next.run.backtracks + next.solver.remaining next.run ≤ run.backtracks + s.remaining run := by
  have hs := hinv.sound hstart
  cases hmove with
  | unchanged on step | narrowed on step =>
    exact Nat.add_le_add_left (remaining_carried_le hs step on on) _
  | @contradicted next _ _ _ on step =>
    exact Nat.add_le_add_left (remaining_contradicted_le hinv next on rfl) _
  | observed on _ chosen _ mem =>
    have hv := (mem_lowestCandidates.mp chosen).1
    rw [remaining_decided hinv mode on hv mem]
    exact Nat.le_refl _
  | backtracked off _ checkpoints taken =>
    have hundone := remaining_undone off checkpoints taken
      (r := { run with inconsistent := false, backtracks := run.backtracks + 1 }) rfl
    exact Nat.le_of_eq ((Nat.add_assoc _ _ _).trans (congrArg (run.backtracks + ·) hundone))
  | restarted _ mode' | restartedEmpty _ mode' => exact absurd mode (Bool.eq_false_iff.mp mode')
  | aborted | solved | limited | exhausted | hopeless | unstartable => cases told

/-! ## The bound -/

/-- A search that remains within a volume has made fewer observations than that. -/
theorem observations_lt (hinv : Invariant start limit base s run)
    (mode : s.config.backtracking = true) {bound : Nat}
    (hbound : run.backtracks + s.remaining run ≤ bound) : run.observations < bound := by
  obtain ⟨hdecisions, -, hobs⟩ := hinv.undoing (hinv.config ▸ mode)
  have hlen := length_le_untried hdecisions
  cases phase : run.inconsistent with
  | true =>
    rw [remaining_of_inconsistent phase] at hbound
    omega
  | false =>
    have hpos := volume_pos hinv.wellFormed (hinv.consistent phase).1
    rw [remaining_of_consistent phase] at hbound
    omega

/-- While something is still to be decided, at least one more observation fits. -/
theorem observations_succ_lt (hinv : Invariant start limit base s run)
    (mode : s.config.backtracking = true) {bound : Nat}
    (hbound : run.backtracks + s.remaining run ≤ bound) (on : run.inconsistent = false) {v : Nat}
    (chosen : v ∈ lowestCandidates s.system.waves) : run.observations + 1 < bound := by
  obtain ⟨hdecisions, -, hobs⟩ := hinv.undoing (hinv.config ▸ mode)
  have hlen := length_le_untried hdecisions
  obtain ⟨hv, hpos, -⟩ := mem_lowestCandidates.mp chosen
  have htwo := two_le_volume hinv.wellFormed (hinv.consistent on).1 hv
    ((Wave.entropy_pos_iff (hinv.wellFormed v hv)).mp hpos)
  rw [remaining_of_consistent on] at hbound
  omega

end Solver
end WaveCollapse
