import WaveCollapse.Proofs.Wave.WellFormed
import WaveCollapse.System.Basic

/-! # Vectors of waves

The waves of a system, and the waves saved in its checkpoints, are vectors with one wave a
variable.  They are compared variable by variable (`Within`), and an assignment of states is
inside a vector when it takes a member of every wave (`Inside`).
-/

namespace WaveCollapse

/-- The wave of a variable; an unknown variable has the wave of no class. -/
def waveAt (ws : Array Wave) (v : Nat) : Wave := ws.getD v default

theorem System.wave_eq {V : Type} (s : System V) (v : Nat) : s.wave v = waveAt s.waves v := rfl

theorem waveAt_eq_getElem {ws : Array Wave} {v : Nat} (hv : v < ws.size) :
    waveAt ws v = ws[v] := by
  simp [waveAt, hv]

theorem waveAt_set {ws : Array Wave} {v : Nat} (hv : v < ws.size) (w : Wave) (u : Nat) :
    waveAt (ws.setIfInBounds v w) u = if u = v then w else waveAt ws u := by
  unfold waveAt
  rw [Array.getD_eq_getD_getElem?, Array.getD_eq_getD_getElem?, Array.getElem?_setIfInBounds]
  by_cases hu : v = u
  · subst hu
    simp [hv]
  · rw [if_neg hu, if_neg (Ne.symm hu)]

theorem waveAt_set_self {ws : Array Wave} {v : Nat} (hv : v < ws.size) (w : Wave) :
    waveAt (ws.setIfInBounds v w) v = w := by
  rw [waveAt_set hv, if_pos rfl]

theorem waveAt_set_ne {ws : Array Wave} {u v : Nat} (hv : v < ws.size) (w : Wave) (hu : u ≠ v) :
    waveAt (ws.setIfInBounds v w) u = waveAt ws u := by
  rw [waveAt_set hv, if_neg hu]

/-- Every wave is well-formed. -/
def WellFormedWaves (ws : Array Wave) : Prop := ∀ v < ws.size, (waveAt ws v).WellFormed

/-- No wave is empty. -/
def AliveWaves (ws : Array Wave) : Prop := ∀ v < ws.size, (waveAt ws v).isEmpty = false

/-- A property of all waves survives the replacement of one of them. -/
theorem forall_waveAt_set {P : Wave → Prop} {ws : Array Wave} {v : Nat} {w : Wave}
    (h : ∀ u < ws.size, P (waveAt ws u)) (hw : P w) :
    ∀ u < (ws.setIfInBounds v w).size, P (waveAt (ws.setIfInBounds v w) u) := by
  intro u hu
  rw [Array.size_setIfInBounds] at hu
  by_cases huv : u = v
  · rw [huv, waveAt_set_self (huv ▸ hu)]
    exact hw
  · by_cases hv : v < ws.size
    · rw [waveAt_set_ne hv w huv]
      exact h u hu
    · rw [Array.setIfInBounds_eq_of_size_le (by omega)]
      exact h u hu

theorem WellFormedWaves.set {ws : Array Wave} {v : Nat} {w : Wave} (h : WellFormedWaves ws)
    (hw : w.WellFormed) : WellFormedWaves (ws.setIfInBounds v w) :=
  forall_waveAt_set (P := Wave.WellFormed) h hw

theorem AliveWaves.set {ws : Array Wave} {v : Nat} {w : Wave} (h : AliveWaves ws)
    (hw : w.isEmpty = false) : AliveWaves (ws.setIfInBounds v w) :=
  forall_waveAt_set (P := (·.isEmpty = false)) h hw

theorem AliveWaves.set_single {ws : Array Wave} {v p : Nat} {w : Wave} (h : AliveWaves ws)
    (hw : w.WellFormed) (hp : p ∈ w) : AliveWaves (ws.setIfInBounds v (w.single p)) :=
  h.set ((Wave.isEmpty_eq_false_iff (hw.single p)).mpr
    ⟨p, (Wave.mem_single hw.readable hp).mpr rfl⟩)

theorem findIdx?_isEmpty_eq_none {ws : Array Wave} :
    ws.findIdx? Wave.isEmpty = none ↔ AliveWaves ws := by
  rw [Array.findIdx?_eq_none_iff]
  constructor
  · intro h v hv
    rw [waveAt_eq_getElem hv]
    exact h _ (Array.getElem_mem hv)
  · intro h w hw
    obtain ⟨v, hv, rfl⟩ := Array.mem_iff_getElem.mp hw
    rw [← waveAt_eq_getElem hv]
    exact h v hv

theorem findIdx?_isEmpty_eq_some {ws : Array Wave} {v : Nat}
    (h : ws.findIdx? Wave.isEmpty = some v) :
    v < ws.size ∧ (waveAt ws v).isEmpty = true := by
  obtain ⟨hv, he, -⟩ := Array.findIdx?_eq_some_iff_getElem.mp h
  exact ⟨hv, by rw [waveAt_eq_getElem hv]; exact he⟩

/-! ## One vector within another -/

/-- The first vector has as many variables as the second and, at each, the same layout and no
state more. -/
structure Within (ws vs : Array Wave) : Prop where
  size : ws.size = vs.size
  subset : ∀ v, waveAt ws v ⊆ waveAt vs v

theorem Within.refl (ws : Array Wave) : Within ws ws := ⟨rfl, fun _ => Wave.subset_refl _⟩

theorem Within.trans {us vs ws : Array Wave} (h : Within us vs) (h' : Within vs ws) :
    Within us ws :=
  ⟨h.size.trans h'.size, fun v => Wave.subset_trans (h.subset v) (h'.subset v)⟩

/-- Replacing a wave by a part of it leaves a vector within the old one. -/
theorem within_set {ws : Array Wave} {v : Nat} {w : Wave} (hw : w ⊆ waveAt ws v) :
    Within (ws.setIfInBounds v w) ws := by
  refine ⟨Array.size_setIfInBounds, fun u => ?_⟩
  by_cases hv : v < ws.size
  · by_cases hu : u = v
    · rw [hu, waveAt_set_self hv]
      exact hw
    · rw [waveAt_set_ne hv w hu]
      exact Wave.subset_refl _
  · -- an unknown variable: nothing is written
    rw [Array.setIfInBounds_eq_of_size_le (by omega)]
    exact Wave.subset_refl _

/-! ## Assignments inside a vector -/

/-- The assignment takes a member of every wave. -/
def Inside (ws : Array Wave) (f : Nat → Nat) : Prop := ∀ v < ws.size, f v ∈ waveAt ws v

theorem Inside.mono {ws vs : Array Wave} {f : Nat → Nat} (h : Inside ws f) (hw : Within ws vs) :
    Inside vs f := by
  intro v hv
  exact (hw.subset v).2 _ (h v (by rw [hw.size]; exact hv))

/-- An assignment inside a vector is inside it with one wave replaced exactly when it takes a
member of the new wave as well. -/
theorem inside_set_iff {ws : Array Wave} {v : Nat} {w : Wave} {f : Nat → Nat}
    (hv : v < ws.size) (hw : w ⊆ waveAt ws v) :
    Inside (ws.setIfInBounds v w) f ↔ Inside ws f ∧ f v ∈ w := by
  constructor
  · intro h
    refine ⟨h.mono (within_set hw), ?_⟩
    have := h v (by rw [Array.size_setIfInBounds]; exact hv)
    rwa [waveAt_set_self hv] at this
  · rintro ⟨h, hf⟩ u hu
    rw [Array.size_setIfInBounds] at hu
    by_cases huv : u = v
    · rw [huv, waveAt_set_self hv]
      exact hf
    · rw [waveAt_set_ne hv w huv]
      exact h u hu

/-- No assignment is inside a vector that has an empty wave. -/
theorem not_inside_of_isEmpty {ws : Array Wave} (hwf : WellFormedWaves ws) {v : Nat}
    (hv : v < ws.size) (he : (waveAt ws v).isEmpty = true) (f : Nat → Nat) : ¬ Inside ws f :=
  fun h => (Wave.isEmpty_iff (hwf v hv)).mp he (f v) (h v hv)

/-- Inside a vector without an empty wave there is an assignment. -/
theorem exists_inside {ws : Array Wave} (hwf : WellFormedWaves ws) (ha : AliveWaves ws) :
    ∃ f, Inside ws f := by
  have hmem : ∀ v, ∃ p, v < ws.size → p ∈ waveAt ws v := by
    intro v
    by_cases hv : v < ws.size
    · obtain ⟨p, hp⟩ := (Wave.isEmpty_eq_false_iff (hwf v hv)).mp (ha v hv)
      exact ⟨p, fun _ => hp⟩
    · exact ⟨0, fun h => absurd h hv⟩
  exact Classical.axiomOfChoice hmem

end WaveCollapse
