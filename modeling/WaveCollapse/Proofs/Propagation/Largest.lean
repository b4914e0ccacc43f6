import Mathlib.Logic.Equiv.Defs
import WaveCollapse.Proofs.Propagation.Run

/-! # Propagation and the largest arc consistent family

The union of all arc consistent families inside the waves of a system is arc consistent and
inside the waves itself (`System.largest`).  Propagation from a frontier that covers all
connections computes it: a contradiction is met exactly when some variable has no state in
it, and otherwise the waves that are left have exactly its states.  So neither the verdict nor
the waves depend on the order of the work, or on the names of the variables.
-/

namespace WaveCollapse
namespace System
variable {V : Type} {s : System V} {frontier : Frontier}

/-- The largest arc consistent family inside the waves of a system. -/
def largest (s : System V) : Family :=
  fun v p => ∃ G, s.ArcConsistent G ∧ Contains s.waves G ∧ G v p

theorem largest_arcConsistent (s : System V) : s.ArcConsistent s.largest := by
  rintro u c hc y ⟨G, hG, hin, hy⟩
  obtain ⟨x, hx, ha⟩ := hG u c hc y hy
  exact ⟨x, ⟨G, hG, hin, hx⟩, ha⟩

theorem contains_largest (s : System V) : Contains s.waves s.largest := by
  rintro v hv p ⟨G, -, hin, hp⟩
  exact hin v hv p hp

theorem le_largest {G : Family} (hG : s.ArcConsistent G) (hin : Contains s.waves G) {v p : Nat}
    (hp : G v p) : s.largest v p := ⟨G, hG, hin, hp⟩

/-! ## What propagation computes -/

/-- Where the waves left by a propagation are arc consistent, they are the largest family. -/
theorem Sound.mem_drain_iff (hs : s.Sound) (journal : Journal)
    (hG : s.ArcConsistent (members (s.drain frontier journal).2.1.waves)) {v : Nat}
    (hv : v < s.size) (p : Nat) :
    p ∈ (s.drain frontier journal).2.1.wave v ↔ s.largest v p := by
  obtain ⟨-, -, hwithin, hcontains⟩ := hs.drain_keeps frontier journal
  constructor
  · intro hp
    refine le_largest hG (fun u _ q hq => ?_) hp
    exact (hwithin.subset u).2 q hq
  · intro hp
    refine hcontains _ s.largest_arcConsistent s.contains_largest v ?_ p hp
    rw [hwithin.size]
    exact hv

/-- A propagation that covers all connections meets a contradiction exactly when the largest
family leaves a variable without a state, and otherwise ends with that family. -/
theorem Sound.drain_largest (hs : s.Sound) (hc : s.Covered frontier) (ha : AliveWaves s.waves)
    (journal : Journal) :
    ((∃ v, (s.drain frontier journal).1 = .error (.contradiction v)) ∧
        ∃ v < s.size, ∀ p, ¬ s.largest v p) ∨
      ((s.drain frontier journal).1 = .ok () ∧ (∀ v < s.size, ∃ p, s.largest v p) ∧
        ∀ v < s.size, ∀ p, p ∈ (s.drain frontier journal).2.1.wave v ↔ s.largest v p) := by
  obtain ⟨hended, -, hwithin, hcontains⟩ := hs.drain_keeps frontier journal
  rcases hs.drain_outcome hc ha journal with ⟨v, hv, hverdict, he⟩ | ⟨hok, halive, hG⟩
  · refine .inl ⟨⟨v, hverdict⟩, v, hv, fun p hp => ?_⟩
    have hv' : v < (s.drain frontier journal).2.1.size := by
      unfold size
      rw [hwithin.size]
      exact hv
    have hmem := hcontains _ s.largest_arcConsistent s.contains_largest v hv' p hp
    exact (Wave.isEmpty_iff (hended.wellFormed v hv')).mp he p hmem
  · refine .inr ⟨hok, fun v hv => ?_, fun v hv p => hs.mem_drain_iff journal hG hv p⟩
    have hv' : v < (s.drain frontier journal).2.1.waves.size := by
      rw [hwithin.size]
      exact hv
    obtain ⟨p, hp⟩ := (Wave.isEmpty_eq_false_iff (hended.wellFormed v hv')).mp (halive v hv')
    exact ⟨p, (hs.mem_drain_iff journal hG hv p).mp hp⟩

end System

/-! ## Propagation does not depend on the order of its work

Two systems are renamings of each other (`System.Renamed`) when a bijection between their
variables keeps the waves and the set of connections; how the variables are numbered, and in
which order and how often a variable lists its connections, may differ.  The largest arc
consistent family is then the same up to the names, and with it whatever propagation from all
variables computes.
-/

namespace System
variable {V V' : Type} {π : Nat ≃ Nat} {s : System V} {s' : System V'}

/-- The variable `v` of the first system is the variable `π v` of the second. -/
structure Renamed (π : Nat ≃ Nat) (s : System V) (s' : System V') : Prop where
  lt_iff : ∀ v, π v < s'.size ↔ v < s.size
  allows : ∀ x t y, s'.problem.rules.allows x t y = s.problem.rules.allows x t y
  wave : ∀ v < s.size, s'.wave (π v) = s.wave v
  outgoing : ∀ u < s.size, ∀ d < s.size, ∀ t, (⟨π d, t⟩ : Connection) ∈ s'.outgoing (π u) ↔
    (⟨d, t⟩ : Connection) ∈ s.outgoing u

namespace Renamed

theorem symm_lt (h : Renamed π s s') {v : Nat} (hv : v < s'.size) : π.symm v < s.size := by
  rw [← h.lt_iff, π.apply_symm_apply]
  exact hv

theorem symm (h : Renamed π s s') : Renamed π.symm s' s where
  lt_iff v := by rw [← h.lt_iff, π.apply_symm_apply]
  allows x t y := (h.allows x t y).symm
  wave v hv := by rw [← h.wave _ (h.symm_lt hv), π.apply_symm_apply]
  outgoing u hu d hd t := by
    rw [← h.outgoing _ (h.symm_lt hu) _ (h.symm_lt hd), π.apply_symm_apply, π.apply_symm_apply]

theorem wellFormed (h : Renamed π s s') (hwf : s.WellFormed) : s'.WellFormed := by
  intro v hv
  rw [← h.symm.wave v hv]
  exact hwf _ (h.symm_lt hv)

theorem alive (h : Renamed π s s') (ha : AliveWaves s.waves) : AliveWaves s'.waves := by
  intro v hv
  rw [← System.wave_eq, ← h.symm.wave v hv]
  exact ha _ (h.symm_lt hv)

/-- A family that is arc consistent stays so under other names. -/
theorem arcConsistent (h : Renamed π s s') (hl : s'.Linked) {G : Family}
    (hG : s.ArcConsistent G) : s'.ArcConsistent fun v p => G (π.symm v) p := by
  rintro u ⟨d, t⟩ hc y hy
  have hu := hl.source_lt u _ hc
  have hd := hl.destination_lt u _ hc
  have hmem : (⟨π.symm d, t⟩ : Connection) ∈ s.outgoing (π.symm u) :=
    (h.symm.outgoing u hu d hd t).mpr hc
  obtain ⟨x, hx, ha⟩ := hG _ _ hmem y hy
  exact ⟨x, hx, by rw [h.allows]; exact ha⟩

theorem contains (h : Renamed π s s') {G : Family} (hin : Contains s.waves G) :
    Contains s'.waves fun v p => G (π.symm v) p := by
  intro v hv p hp
  rw [← System.wave_eq, ← h.symm.wave v hv]
  exact hin _ (h.symm_lt hv) p hp

theorem largest_of_largest (h : Renamed π s s') (hl : s'.Linked) {v p : Nat}
    (hp : s.largest v p) : s'.largest (π v) p := by
  refine le_largest (h.arcConsistent hl s.largest_arcConsistent)
    (h.contains s.contains_largest) ?_
  rwa [π.symm_apply_apply]

/-- **The largest family of a renamed system is the renamed largest family.** -/
theorem largest_iff (h : Renamed π s s') (hl : s.Linked) (hl' : s'.Linked) (v p : Nat) :
    s'.largest (π v) p ↔ s.largest v p := by
  constructor
  · intro hp
    have hback := h.symm.largest_of_largest hl hp
    rwa [π.symm_apply_apply] at hback
  · exact h.largest_of_largest hl'

end Renamed

/-- What propagation from all variables computes, for systems without an empty wave. -/
theorem Sound.drain_all (hs : s.Sound) (ha : AliveWaves s.waves) (journal : Journal) :
    let ended := s.drain (.all s.size) journal
    ((∃ v, ended.1 = .error (.contradiction v)) ↔ ∃ v < s.size, ∀ p, ¬ s.largest v p) ∧
      (ended.1 = .ok () ↔ ∀ v < s.size, ∃ p, s.largest v p) ∧
      (ended.1 = .ok () → ∀ v < s.size, (ended.2.1.wave v).WellFormed ∧
        (ended.2.1.wave v).layout = (s.wave v).layout ∧
        ∀ p, p ∈ ended.2.1.wave v ↔ s.largest v p) := by
  obtain ⟨hended, -, hwithin, -⟩ := hs.drain_keeps (.all s.size) journal
  intro ended
  rcases hs.drain_largest hs.linked.covered_all ha journal with
    ⟨⟨v, hverdict⟩, u, hu, hempty⟩ | ⟨hok, hfull, hmem⟩
  · have hnot : ended.1 ≠ .ok () := by
      intro hok
      cases hverdict.symm.trans hok
    refine ⟨⟨fun _ => ⟨u, hu, hempty⟩, fun _ => ⟨v, hverdict⟩⟩, ⟨fun hok => ?_, fun hall => ?_⟩,
      fun hok => absurd hok hnot⟩
    · exact absurd hok hnot
    · obtain ⟨p, hp⟩ := hall u hu
      exact absurd hp (hempty p)
  · refine ⟨⟨?_, ?_⟩, ⟨fun _ => hfull, fun _ => hok⟩, fun _ v hv => ⟨?_, ?_, hmem v hv⟩⟩
    · rintro ⟨v, hverdict⟩
      cases hok.symm.trans hverdict
    · rintro ⟨v, hv, hempty⟩
      obtain ⟨p, hp⟩ := hfull v hv
      exact absurd hp (hempty p)
    · exact hended.wellFormed v (Nat.lt_of_lt_of_eq hv hwithin.size.symm)
    · exact (hwithin.subset v).1

/-- Propagation from all variables has the same verdict and leaves the same waves under other
names. -/
theorem Renamed.drain_all (h : Renamed π s s') (hs : s.Sound) (hs' : s'.Sound)
    (ha : AliveWaves s.waves) (journal journal' : Journal) :
    let ended := s.drain (.all s.size) journal
    let ended' := s'.drain (.all s'.size) journal'
    (ended'.1 = .ok () ↔ ended.1 = .ok ()) ∧
      (ended.1 = .ok () → ∀ v < s.size, ended'.2.1.wave (π v) = ended.2.1.wave v) := by
  intro ended ended'
  obtain ⟨-, hok, hleft⟩ := hs.drain_all ha journal
  obtain ⟨-, hok', hleft'⟩ := hs'.drain_all (h.alive ha) journal'
  have hlargest := h.largest_iff hs.linked hs'.linked
  have hverdict : ended'.1 = .ok () ↔ ended.1 = .ok () := by
    rw [hok, hok']
    constructor
    · intro hall v hv
      obtain ⟨p, hp⟩ := hall (π v) ((h.lt_iff v).mpr hv)
      exact ⟨p, (hlargest v p).mp hp⟩
    · intro hall v hv
      obtain ⟨p, hp⟩ := hall (π.symm v) (h.symm_lt hv)
      have hp' := (hlargest _ p).mpr hp
      rw [π.apply_symm_apply] at hp'
      exact ⟨p, hp'⟩
  refine ⟨hverdict, fun hended v hv => ?_⟩
  obtain ⟨hwf, hlayout, hmem⟩ := hleft hended v hv
  obtain ⟨hwf', hlayout', hmem'⟩ := hleft' (hverdict.mpr hended) (π v) ((h.lt_iff v).mpr hv)
  refine hwf'.ext hwf ?_ fun p => ?_
  · rw [hlayout', hlayout, h.wave v hv]
  · rw [hmem', hmem, hlargest]

end System
end WaveCollapse
