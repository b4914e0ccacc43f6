import Mathlib.Logic.Equiv.Basic
import WaveCollapse.Proofs.Propagation.Largest
import WaveCollapse.Proofs.Search.Move
import WaveCollapse.Proofs.Search.Ring

/-! # What a search propagates before its first observation

The first step of a run schedules all variables, so the propagation that follows computes the
largest arc consistent family inside the waves it was given.  Vertices may be listed in any
order, and the edges at a vertex in any order: the waves that are left when the first variable
is observed are the same.
-/

namespace WaveCollapse.Solver
variable {V ρ : Type} [Ord V] [Std.TransOrd V]

/-- **Propagation from all variables computes the largest arc consistent family**, whatever
the order of its work.  Scheduled by the first step of a run, it ends in a contradiction
exactly when that family leaves some variable without a state, and otherwise with exactly the
states of the family.  So neither the verdict nor the waves change when the variables are
renamed and their connections listed in another order. -/
theorem propagation_largest (s : Solver V ρ) (run : Run) (journal : Journal)
    (hlaid : s.system.Laid) (hwf : s.system.WellFormed)
    (hrules : s.system.problem.rules.Faithful) (halive : AliveWaves s.system.waves) :
    let begun := (s.start run).solver
    let ended := begun.system.drain begun.frontier journal
    (s.system.ArcConsistent s.system.largest ∧ Contains s.system.waves s.system.largest ∧
      ∀ G, s.system.ArcConsistent G → Contains s.system.waves G →
        ∀ v p, G v p → s.system.largest v p) ∧
    ((∃ v, ended.1 = .error (.contradiction v)) ↔
      ∃ v < s.system.size, ∀ p, ¬ s.system.largest v p) ∧
    (ended.1 = .ok () ↔ ∀ v < s.system.size, ∃ p, s.system.largest v p) ∧
    (ended.1 = .ok () → ∀ v < s.system.size, (ended.2.1.wave v).WellFormed ∧
      (ended.2.1.wave v).layout = (s.system.wave v).layout ∧
        ∀ p, p ∈ ended.2.1.wave v ↔ s.system.largest v p) ∧
    ∀ (V' ρ' : Type) [Ord V'] [Std.TransOrd V'] (s' : Solver V' ρ') (run' : Run)
      (journal' : Journal) (π : Nat ≃ Nat), s'.system.Laid → s'.system.problem.rules.Faithful →
      System.Renamed π s.system s'.system →
      let begun' := (s'.start run').solver
      let ended' := begun'.system.drain begun'.frontier journal'
      (ended'.1 = .ok () ↔ ended.1 = .ok ()) ∧
        (ended.1 = .ok () →
          ∀ v < s.system.size, ended'.2.1.wave (π v) = ended.2.1.wave v) := by
  have hsound : s.system.Sound := hlaid.sound hwf hrules
  rw [start_of_alive halive]
  obtain ⟨hcontradiction, hok, hleft⟩ := hsound.drain_all halive journal
  refine ⟨⟨s.system.largest_arcConsistent, s.system.contains_largest,
    fun G hG hin v p hp => System.le_largest hG hin hp⟩, hcontradiction, hok, hleft, ?_⟩
  intro V' ρ' _ _ s' run' journal' π hlaid' hrules' hrenamed
  have hsound' : s'.system.Sound := hlaid'.sound (hrenamed.wellFormed hwf) hrules'
  rw [start_of_alive (hrenamed.alive halive)]
  exact hrenamed.drain_all hsound hsound' halive journal journal'

/-- A ring of three vertices, one of them coloured, is unchanged when the other two are
exchanged. -/
theorem ring_three_renamed :
    let s := System.ringOf 3 [[0], [0, 1, 2], [0, 1, 2]]
    System.Renamed (Equiv.swap 1 2) s s where
  lt_iff v := by
    show Equiv.swap 1 2 v < 3 ↔ v < 3
    by_cases h1 : v = 1
    · rw [h1, Equiv.swap_apply_left]
      decide
    · by_cases h2 : v = 2
      · rw [h2, Equiv.swap_apply_right]
        decide
      · rw [Equiv.swap_apply_of_ne_of_ne h1 h2]
  allows _ _ _ := rfl
  wave := by decide +kernel
  outgoing u hu d hd t := by
    have hu : u < 3 := hu
    have hd : d < 3 := hd
    have hkind : ∀ u < 3, ∀ c ∈ ((System.ring 3 3).outgoing u).toList, c.kind = 0 := by
      decide +kernel
    have hzero : ∀ u < 3, ∀ d < 3,
        ((⟨Equiv.swap 1 2 d, 0⟩ : Connection) ∈ (System.ring 3 3).outgoing (Equiv.swap 1 2 u) ↔
          (⟨d, 0⟩ : Connection) ∈ (System.ring 3 3).outgoing u) := by
      decide +kernel
    have hu' : Equiv.swap 1 2 u < 3 := by
      revert u
      decide
    constructor
    · intro hc
      obtain rfl : t = 0 := hkind _ hu' _ (Array.mem_toList_iff.mpr hc)
      exact (hzero u hu d hd).mp hc
    · intro hc
      obtain rfl : t = 0 := hkind u hu _ (Array.mem_toList_iff.mpr hc)
      exact (hzero u hu d hd).mpr hc

/-- The largest family of this ring leaves the colour of the one vertex to it, and the other two
colours to the other vertices. -/
theorem ring_three_largest :
    let s := System.ringOf 3 [[0], [0, 1, 2], [0, 1, 2]]
    ∀ v < 3, ∀ p, s.largest v p ↔ p < 3 ∧ (p = 0 ↔ v = 0) := by
  intro s v hv p
  have hlaid : s.Laid := System.ringOf_laid 3 _
  have hproper : ∀ u < 3, ∀ c ∈ (s.outgoing u).toList, u ≠ c.destination := by decide +kernel
  have hjoined : ∀ v < 3, v ≠ 0 → ∃ c ∈ (s.outgoing 0).toList, c.destination = v := by
    decide +kernel
  have hgiven : ∀ v < 3, ∀ p ∈ (s.wave v).components, p < 3 ∧ (v = 0 → p = 0) := by
    decide +kernel
  have hkept : ∀ v < 3, ∀ p < 3, (p = 0 ↔ v = 0) → p ∈ s.wave v := by decide +kernel
  have hinside := fun v hv p hp => hgiven v hv p (s.contains_largest v hv p hp)
  -- the two vertices that are left have two colours each, so each has one for the other
  have hcoloured : s.ArcConsistent fun v p => v < 3 ∧ p < 3 ∧ (p = 0 ↔ v = 0) := by
    intro u c hc y hy
    have hu : u < 3 := hlaid.linked.source_lt u c hc
    have hne := hproper u hu c (Array.mem_toList_iff.mpr hc)
    by_cases hu0 : u = 0
    · exact ⟨0, ⟨hu, by omega⟩, bne_iff_ne.mpr (by omega)⟩
    · exact ⟨if y = 1 then 2 else 1, ⟨hu, by split <;> omega⟩, bne_iff_ne.mpr (by split <;> omega)⟩
  constructor
  · intro hp
    obtain ⟨hlt, hfirst⟩ := hinside v hv p hp
    refine ⟨hlt, fun h0 => ?_, hfirst⟩
    by_contra hv0
    obtain ⟨c, hc, rfl⟩ := hjoined v hv hv0
    obtain ⟨x, hx, hdiffer⟩ := s.largest_arcConsistent 0 c (Array.mem_toList_iff.mp hc) p hp
    have hx0 : x = 0 := (hinside 0 (by decide) x hx).2 rfl
    exact bne_iff_ne.mp hdiffer (hx0.trans h0.symm)
  · intro hp
    exact System.le_largest hcoloured (fun u _ q hq => hkept u hq.1 q hq.2.1 hq.2.2) ⟨hv, hp⟩

/-- Around a ring of three vertices with three colours, one of them coloured, propagation takes that
colour and nothing else from the other two, in whichever order the vertices come. -/
theorem propagation_ring_three :
    let s := Solver.ringOf 3 [[0], [0, 1, 2], [0, 1, 2]] {} []
    let begun := (s.start { limit := 0 }).solver
    let ended := begun.system.drain begun.frontier .silent
    (∀ p < 3, p ∈ s.system.wave 1) ∧ ended.1 = .ok () ∧
      (∀ v < 3, ∀ p, p ∈ ended.2.1.wave v ↔ p < 3 ∧ (p = 0 ↔ v = 0)) ∧
      ∀ v < 3, ended.2.1.wave (Equiv.swap 1 2 v) = ended.2.1.wave v := by
  intro s begun ended
  have hlaid := System.ringOf_laid 3 [[0], [0, 1, 2], [0, 1, 2]]
  have halive : AliveWaves s.system.waves := by
    show ∀ v < 3, (waveAt s.system.waves v).isEmpty = false
    decide +kernel
  obtain ⟨-, -, hok, hleft, hrenamed⟩ := propagation_largest s { limit := 0 } .silent hlaid
    (System.ringOf_wellFormed (by decide) _) (Rules.differing_faithful 3) halive
  have hended : ended.1 = .ok () := by
    refine hok.mpr fun v hv => ⟨if v = 0 then 0 else 1, (ring_three_largest v hv _).mpr ?_⟩
    split <;> omega
  refine ⟨by decide +kernel, hended, fun v hv p => ?_, ?_⟩
  · exact ((hleft hended v hv).2.2 p).trans (ring_three_largest v hv p)
  · exact (hrenamed Int WordStream s { limit := 0 } .silent (Equiv.swap 1 2) hlaid
      (Rules.differing_faithful 3) ring_three_renamed).2 hended

end WaveCollapse.Solver
