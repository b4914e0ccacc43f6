import WaveCollapse.Wave

/-! # Components under masks

A mask never adds a component, and when the masked wave does not agree with the wave it
came from, at least one component is gone. This is what bounds propagation. -/

namespace WaveCollapse.Wave

theorem getLsbD_lowBits (width i : Nat) :
    (lowBits width).getLsbD i = decide (i < min width maxWidth) := by
  have h64 : maxWidth = 64 := rfl
  simp only [lowBits, BitVec.getLsbD_ofNat]
  by_cases h : i < min width maxWidth
  · have : i < 64 := by omega
    simp [h, this]
  · simp [h]

/-- Fewer members pass a stronger test that some member fails. -/
theorem length_filter_lt {α : Type} {p q : α → Bool} {l : List α}
    (weaker : ∀ x ∈ l, p x = true → q x = true)
    (lost : ∃ x ∈ l, q x = true ∧ p x = false) :
    (l.filter p).length < (l.filter q).length := by
  induction l with
  | nil => obtain ⟨x, hx, _⟩ := lost; cases hx
  | cons a l ih =>
    have weaker' : ∀ x ∈ l, p x = true → q x = true :=
      fun x hx => weaker x (List.mem_cons_of_mem _ hx)
    have mono : (l.filter p).length ≤ (l.filter q).length := by
      rw [← List.countP_eq_length_filter, ← List.countP_eq_length_filter]
      exact List.countP_mono_left weaker'
    obtain ⟨x, hx, hqx, hpx⟩ := lost
    rcases List.mem_cons.mp hx with rfl | hx
    · simp only [List.filter_cons, hqx, hpx, if_true, List.length_cons]
      simpa using Nat.lt_succ_of_le mono
    · have strict := ih weaker' ⟨x, hx, hqx, hpx⟩
      cases hpa : p a
      · cases hqa : q a <;> simp [hpa, hqa] <;> omega
      · have hqa := weaker a (List.mem_cons_self ..) hpa
        simp [hpa, hqa]; omega

theorem maskBy_layout (w m : Wave) : (w.maskBy m).layout = w.layout := by
  unfold maskBy emptied empty
  split <;> rfl

/-- A bit of a masked wave was set before. -/
theorem getLsbD_of_maskBy {w m : Wave} {i : Nat} (h : (w.maskBy m).bits.getLsbD i = true) :
    w.bits.getLsbD i = true := by
  unfold maskBy emptied empty at h
  split at h
  · simp only [BitVec.getLsbD_and, Bool.and_eq_true] at h; exact h.1
  · simp at h

/-- Waves of one layout agree when they have the same bits below the width. -/
theorem agrees_of_bits {w v : Wave} (layout : w.layout = v.layout)
    (same : ∀ i < min v.layout.width maxWidth, w.bits.getLsbD i = v.bits.getLsbD i) :
    w.agrees v = true := by
  unfold agrees
  rw [layout]
  simp only [beq_self_eq_true, Bool.true_and, beq_iff_eq]
  apply BitVec.eq_of_getLsbD_eq
  intro i _
  simp only [BitVec.getLsbD_and, getLsbD_lowBits]
  by_cases h : i < min v.layout.width maxWidth
  · simp [same i h]
  · simp [h]

/-- A mask that changes a wave takes away a component. -/
theorem length_components_maskBy_lt {w m : Wave} (changed : (w.maskBy m).agrees w = false) :
    (w.maskBy m).components.length < w.components.length := by
  have layout := maskBy_layout w m
  have lost : ∃ i ∈ List.range (min w.layout.width maxWidth),
      w.bits.getLsbD i = true ∧ (w.maskBy m).bits.getLsbD i = false := by
    apply Classical.byContradiction
    intro none_lost
    have agreed : (w.maskBy m).agrees w = true := by
      apply agrees_of_bits layout
      intro i hi
      cases hm : (w.maskBy m).bits.getLsbD i
      · cases hw : w.bits.getLsbD i
        · rfl
        · exact absurd ⟨i, List.mem_range.mpr hi, hw, hm⟩ none_lost
      · exact (getLsbD_of_maskBy hm).symm
    rw [agreed] at changed
    cases changed
  unfold components
  rw [layout, List.length_map, List.length_map]
  exact length_filter_lt (fun i _ h => getLsbD_of_maskBy h) lost

end WaveCollapse.Wave
