import WaveCollapse.Proofs.Wave.Members

/-! # Well-formed waves

On a well-formed wave the bits past the width are clear, so what is read off the whole word
(`isEmpty`, `popcount`, `entropy`, `isResolved`) agrees with the members.  Every operation
keeps a wave well-formed.  An observation of a wave with members leaves one of them.
-/

namespace WaveCollapse

/-- The set bits of a number, counted and listed. -/
theorem onesBelow_eq_length (k n : Nat) :
    onesBelow k n = ((List.range k).filter n.testBit).length := by
  induction k generalizing n with
  | zero => rfl
  | succ k ih =>
    rw [List.range_succ_eq_map, List.filter_cons, List.filter_map, onesBelow, ih]
    have hshift : n.testBit ∘ Nat.succ = (n / 2).testBit := by
      funext i
      exact Nat.testBit_succ n i
    rw [hshift]
    split
    · next hn =>
      have hnone : (List.range k).filter (Nat.testBit 0) = [] :=
        List.filter_eq_nil_iff.mpr fun i _ => by simp
      simp [hn, hnone]
    · rcases Nat.mod_two_eq_zero_or_one n with hn | hn <;> simp [Nat.testBit_zero, hn, Nat.add_comm]

namespace Wave
variable {w v m : Wave} {p q : Nat}

theorem WellFormed.readable (hw : w.WellFormed) : w.Readable := hw.1.2.1

theorem WellFormed.min_width (hw : w.WellFormed) :
    min w.layout.width maxWidth = w.layout.width :=
  Nat.min_eq_left hw.1.2.1

/-- A bit of a well-formed wave that is set stands for a member. -/
theorem WellFormed.mem_of_bit (hw : w.WellFormed) {i : Nat} (hi : w.bits.getLsbD i = true) :
    w.layout.base + i ∈ w := by
  have hlt : i < w.layout.width := by
    refine Nat.lt_of_not_le fun hle => ?_
    rw [hw.2 i hle] at hi
    cases hi
  exact (base_add_mem_iff (by rw [hw.min_width]; exact hlt)).mpr hi

/-- A well-formed wave is determined by its layout and its members. -/
theorem WellFormed.ext (hw : w.WellFormed) (hv : v.WellFormed) (hl : w.layout = v.layout)
    (h : ∀ p, p ∈ w ↔ p ∈ v) : w = v := by
  refine ext_bits hl fun i => ?_
  by_cases hi : i < w.layout.width
  · have hiw : i < min w.layout.width maxWidth := by rw [hw.min_width]; exact hi
    have hmem := h (w.layout.base + i)
    rw [base_add_mem_iff hiw, hl, base_add_mem_iff (hl ▸ hiw)] at hmem
    exact Bool.eq_iff_iff.mpr hmem
  · rw [hw.2 i (by omega), hv.2 i (by rw [← hl]; omega)]

theorem WellFormed.eq_of_subset (hw : w.WellFormed) (hv : v.WellFormed) (h : w ⊆ v)
    (h' : v ⊆ w) : w = v :=
  hw.ext hv h.1 fun p => ⟨h.2 p, h'.2 p⟩

theorem isEmpty_iff (hw : w.WellFormed) : w.isEmpty = true ↔ ∀ p, p ∉ w := by
  unfold isEmpty
  rw [beq_iff_eq]
  constructor
  · intro h0 p hp
    obtain ⟨i, -, hb, -⟩ := mem_iff.mp hp
    rw [h0] at hb
    simp at hb
  · intro h
    apply BitVec.eq_of_getLsbD_eq
    intro i _
    cases hb : w.bits.getLsbD i with
    | false => simp
    | true => exact absurd (hw.mem_of_bit hb) (h _)

theorem isEmpty_eq_false_iff (hw : w.WellFormed) : w.isEmpty = false ↔ ∃ p, p ∈ w := by
  rw [← Bool.not_eq_true, isEmpty_iff hw]
  simp

/-- The set bits of the whole word, past the width too. -/
theorem popcount_eq (w : Wave) : w.popcount = ((List.range 64).filter w.bits.getLsbD).length := by
  have htest : w.bits.toNat.testBit = w.bits.getLsbD := by
    funext i
    exact BitVec.testBit_toNat w.bits
  unfold popcount
  rw [onesBelow_eq_length, htest]

/-- No wave has more members than set bits. -/
theorem length_components_le_popcount (w : Wave) : w.components.length ≤ w.popcount := by
  have hbelow : (List.range (min w.layout.width maxWidth)).Sublist (List.range 64) :=
    List.range_sublist.mpr (Nat.min_le_right _ _)
  rw [popcount_eq, components, List.length_map]
  exact (hbelow.filter _).length_le

theorem popcount_eq_zero_iff (w : Wave) : w.popcount = 0 ↔ w.isEmpty = true := by
  rw [popcount_eq, List.length_eq_zero_iff, List.filter_eq_nil_iff, isEmpty, beq_iff_eq]
  constructor
  · intro h
    apply BitVec.eq_of_getLsbD_eq
    intro i hi
    simpa using h i (List.mem_range.mpr hi)
  · intro h i _
    simp [h]

/-- A wave that leaves no choice has one bit or none. -/
theorem entropy_eq_zero_iff (w : Wave) :
    w.entropy = 0 ↔ w.isResolved = true ∨ w.isEmpty = true := by
  rw [← popcount_eq_zero_iff, isResolved, beq_iff_eq, entropy]
  omega

/-- The number of set bits is the number of members. -/
theorem popcount_eq_length (hw : w.WellFormed) : w.popcount = w.components.length := by
  have hle : w.layout.width ≤ 64 := hw.1.2.1
  have hrange : List.range 64 =
      List.range w.layout.width ++ (List.range (64 - w.layout.width)).map (w.layout.width + ·) := by
    rw [← List.range_add, Nat.add_sub_cancel' hle]
  unfold components
  rw [popcount_eq, List.length_map, hw.min_width, hrange, List.filter_append, List.length_append]
  -- the bits past the width are clear, so they count nothing
  have htail : ((List.range (64 - w.layout.width)).map (w.layout.width + ·)).filter
      w.bits.getLsbD = [] := by
    rw [List.filter_eq_nil_iff]
    intro i hi
    obtain ⟨j, -, rfl⟩ := List.mem_map.mp hi
    rw [hw.2 _ (Nat.le_add_right ..)]
    exact Bool.false_ne_true
  rw [htail, List.length_nil, Nat.add_zero]

theorem entropy_pos_iff (hw : w.WellFormed) : 0 < w.entropy ↔ 2 ≤ w.components.length := by
  unfold entropy
  rw [popcount_eq_length hw]
  omega

theorem isResolved_iff (hw : w.WellFormed) : w.isResolved = true ↔ ∃ p, w.components = [p] := by
  unfold isResolved
  rw [popcount_eq_length hw, beq_iff_eq, List.length_eq_one_iff]

theorem resolvedState_of_components (hw : w.WellFormed) (h : w.components = [p]) :
    w.resolvedState = some p := by
  unfold resolvedState
  rw [if_pos ((isResolved_iff hw).mpr ⟨p, h⟩), h]
  rfl

theorem components_of_resolvedState (hw : w.WellFormed) (h : w.resolvedState = some p) :
    w.components = [p] := by
  unfold resolvedState at h
  split at h
  · next hresolved =>
    obtain ⟨q, hq⟩ := (isResolved_iff hw).mp hresolved
    rw [hq] at h
    cases h
    exact hq
  · cases h

/-- A wave that is neither empty nor ambiguous has one member. -/
theorem components_of_entropy_zero (hw : w.WellFormed) (hne : w.isEmpty = false)
    (h0 : w.entropy = 0) : ∃ p, w.components = [p] := by
  obtain ⟨p, hp⟩ := (isEmpty_eq_false_iff hw).mp hne
  have hpos : 0 < w.components.length := List.length_pos_of_mem hp
  have hlt : ¬ 0 < w.entropy := by omega
  rw [entropy_pos_iff hw] at hlt
  exact List.length_eq_one_iff.mp (by omega)

/-- The members are the bits below the width, moved to the start of the class. -/
theorem base_add_mem_iff_lowBits (w : Wave) (i : Nat) :
    w.layout.base + i ∈ w ↔ (w.bits &&& lowBits w.layout.width).getLsbD i = true := by
  rw [BitVec.getLsbD_and, getLsbD_lowBits, Bool.and_eq_true, decide_eq_true_eq]
  constructor
  · intro hp
    obtain ⟨j, hj, -, he⟩ := mem_iff.mp hp
    have hi : i < min w.layout.width maxWidth := by omega
    exact ⟨(base_add_mem_iff hi).mp hp, hi⟩
  · rintro ⟨hb, hi⟩
    exact (base_add_mem_iff hi).mpr hb

/-- Waves agree when they are of one class and width and have their members at the same places
of it; where the classes start does not matter. -/
theorem agrees_iff : w.agrees v = true ↔
    w.layout.classId = v.layout.classId ∧ w.layout.width = v.layout.width ∧
      ∀ i, w.layout.base + i ∈ w ↔ v.layout.base + i ∈ v := by
  unfold agrees
  simp only [Bool.and_eq_true, beq_iff_eq, and_assoc]
  refine and_congr_right fun _ => and_congr_right fun _ => ?_
  simp only [base_add_mem_iff_lowBits, ← Bool.eq_iff_iff]
  exact ⟨fun h i => by rw [h], fun h => BitVec.eq_of_getLsbD_eq fun i _ => h i⟩

/-- Waves of one layout that agree are equal when both are well-formed. -/
theorem agrees_iff_eq (hw : w.WellFormed) (hv : v.WellFormed) (hl : w.layout = v.layout) :
    w.agrees v = true ↔ w = v := by
  constructor
  · intro h
    obtain ⟨-, -, hmem⟩ := agrees_iff.mp h
    refine hw.ext hv hl fun p => ⟨fun hp => ?_, fun hp => ?_⟩
    · obtain ⟨i, -, -, rfl⟩ := mem_iff.mp hp
      exact hl ▸ (hmem i).mp hp
    · obtain ⟨i, -, -, rfl⟩ := mem_iff.mp hp
      exact hl ▸ (hmem i).mpr hp
  · rintro rfl
    exact agrees_iff.mpr ⟨rfl, rfl, fun _ => Iff.rfl⟩

/-! ## The operations keep waves well-formed -/

theorem wellFormed_empty {l : Layout} (hl : l.Valid) : (empty l).WellFormed :=
  ⟨hl, fun i _ => by simp [empty]⟩

theorem wellFormed_full {l : Layout} (hl : l.Valid) : (full l).WellFormed := by
  refine ⟨hl, fun i hi => ?_⟩
  simp only [full] at hi ⊢
  rw [getLsbD_lowBits, decide_eq_false_iff_not]
  omega

theorem WellFormed.add (hw : w.WellFormed) (q : Nat) : (w.add q).WellFormed := by
  refine ⟨by rw [layout_add]; exact hw.1, fun i hi => ?_⟩
  rw [layout_add] at hi
  unfold Wave.add
  split
  · next j hj =>
    obtain ⟨hlt, -⟩ := Layout.offset?_eq_some_iff.mp hj
    have hne : j ≠ i := by omega
    simp [hw.2 i hi, hne]
  · simp [emptied, empty]

theorem WellFormed.remove (hw : w.WellFormed) (q : Nat) : (w.remove q).WellFormed := by
  refine ⟨by rw [layout_remove]; exact hw.1, fun i hi => ?_⟩
  rw [layout_remove] at hi
  unfold Wave.remove
  split
  · simp [hw.2 i hi]
  · exact hw.2 i hi

theorem WellFormed.maskBy (hw : w.WellFormed) (m : Wave) : (w.maskBy m).WellFormed := by
  refine ⟨by rw [maskBy_layout]; exact hw.1, fun i hi => ?_⟩
  rw [maskBy_layout] at hi
  cases hb : (w.maskBy m).bits.getLsbD i with
  | false => rfl
  | true => rw [← hw.2 i hi, getLsbD_of_maskBy hb]

theorem WellFormed.union (hw : w.WellFormed) (hv : v.WellFormed) : (w.union v).WellFormed := by
  refine ⟨by rw [layout_union]; exact hw.1, fun i hi => ?_⟩
  rw [layout_union] at hi
  unfold Wave.union
  split
  · next same =>
    rw [same] at hi
    simp [hw.2 i (same ▸ hi), hv.2 i hi]
  · exact hw.2 i hi

theorem WellFormed.single (hw : w.WellFormed) (p : Nat) : (w.single p).WellFormed :=
  (wellFormed_empty hw.1).add p

/-- Adding states of the class one after the other adds exactly these. -/
theorem foldl_add (hw : w.WellFormed) {qs : List Nat} (hqs : ∀ q ∈ qs, q ∈ w.layout.states) :
    (qs.foldl Wave.add w).WellFormed ∧ (qs.foldl Wave.add w).layout = w.layout ∧
      ∀ p, p ∈ qs.foldl Wave.add w ↔ p ∈ qs ∨ p ∈ w := by
  induction qs generalizing w with
  | nil => exact ⟨hw, rfl, fun p => by simp⟩
  | cons q qs ih =>
    have hq := hqs q List.mem_cons_self
    have hrest : ∀ r ∈ qs, r ∈ (w.add q).layout.states := by
      intro r hr
      rw [layout_add]
      exact hqs r (List.mem_cons_of_mem _ hr)
    obtain ⟨hwf, hl, hmem⟩ := ih (hw.add q) hrest
    refine ⟨hwf, hl.trans (layout_add w q), fun p => ?_⟩
    rw [List.foldl_cons, hmem, mem_add hw.readable hq, List.mem_cons, ← or_assoc,
      or_comm (a := p ∈ qs)]

/-- Adding states of the class sets exactly their bits, on any wave that can be read. -/
theorem getLsbD_foldl_add (hw : w.Readable) {qs : List Nat}
    (hqs : ∀ q ∈ qs, q ∈ w.layout.states) :
    (qs.foldl Wave.add w).layout = w.layout ∧ ∀ i, (qs.foldl Wave.add w).bits.getLsbD i = true ↔
      w.bits.getLsbD i = true ∨ w.layout.base + i ∈ qs := by
  induction qs generalizing w with
  | nil => exact ⟨rfl, fun i => by simp⟩
  | cons q qs ih =>
    have hq := Layout.mem_states.mp (hqs q List.mem_cons_self)
    have hoff : w.layout.offset? q = some (q - w.layout.base) :=
      Layout.offset?_eq_some_iff.mpr ⟨by omega, by omega⟩
    have hlayout := layout_add w q
    have hreadable : (w.add q).Readable := by
      unfold Readable
      rw [hlayout]
      exact hw
    obtain ⟨hl, hbits⟩ := ih hreadable fun r hr => by
      rw [hlayout]
      exact hqs r (List.mem_cons_of_mem _ hr)
    refine ⟨hl.trans hlayout, fun i => ?_⟩
    have hwidth : w.layout.width ≤ 64 := hw
    have hbit : (w.add q).bits.getLsbD i = true ↔
        w.bits.getLsbD i = true ∨ w.layout.base + i = q := by
      simp only [add, hoff, BitVec.getLsbD_or, BitVec.getLsbD_twoPow, Bool.or_eq_true,
        Bool.and_eq_true, decide_eq_true_eq]
      constructor
      · rintro (hb | ⟨-, hi⟩)
        · exact .inl hb
        · exact .inr (by omega)
      · rintro (hb | hi)
        · exact .inl hb
        · exact .inr ⟨by omega, by omega⟩
    rw [List.foldl_cons, hbits, hlayout, hbit, List.mem_cons, or_assoc]

/-! ## Observing -/

section Observing
variable {ρ : Type} [PickSource ρ]

/-- An observation of a wave with members picks one of them and leaves that one only. -/
theorem observe_of_mem (hp : p ∈ w) (source : ρ) :
    ∃ q ∈ w, ∃ rest, w.observe source = ⟨some q, w.single q, rest⟩ := by
  unfold observe
  split
  · next hc => rw [← mem_components, hc] at hp; cases hp
  · next q hc => exact ⟨q, by rw [← mem_components, hc]; exact List.mem_cons_self, source, rfl⟩
  · obtain ⟨q, hq, rest, hchoose⟩ :=
      @PickSource.choose_isSome _ _ _ source _ (List.ne_nil_of_mem hp)
    exact ⟨q, hq, rest, by rw [hchoose]⟩

end Observing

end Wave
end WaveCollapse
