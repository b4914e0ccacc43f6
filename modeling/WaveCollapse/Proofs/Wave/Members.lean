import WaveCollapse.Wave.Components

/-! # Waves as sets of pure states

A wave is read as the set of its components: the states of its class whose bits are set below
the width.  Every operation is described by what it does to this set, and one wave lies within
another when it has the same layout and no member more.
-/

namespace WaveCollapse
namespace Wave

instance : Membership Nat Wave := ⟨fun w p => p ∈ w.components⟩

instance (p : Nat) (w : Wave) : Decidable (p ∈ w) := inferInstanceAs (Decidable (p ∈ w.components))

/-- The same class, and nothing that the other does not have. -/
instance : HasSubset Wave := ⟨fun w v => w.layout = v.layout ∧ ∀ p, p ∈ w → p ∈ v⟩

section Members
variable {w v u m : Wave} {p q i : Nat}

@[simp] theorem mem_components : p ∈ w.components ↔ p ∈ w := Iff.rfl

theorem mem_iff : p ∈ w ↔
    ∃ i < min w.layout.width maxWidth, w.bits.getLsbD i = true ∧ p = w.layout.base + i := by
  rw [← mem_components, components, List.mem_map]
  constructor
  · rintro ⟨i, hi, rfl⟩
    obtain ⟨hr, hb⟩ := List.mem_filter.mp hi
    exact ⟨i, List.mem_range.mp hr, hb, rfl⟩
  · rintro ⟨i, hr, hb, rfl⟩
    exact ⟨i, List.mem_filter.mpr ⟨List.mem_range.mpr hr, hb⟩, rfl⟩

theorem base_add_mem_iff (hi : i < min w.layout.width maxWidth) :
    w.layout.base + i ∈ w ↔ w.bits.getLsbD i = true := by
  rw [mem_iff]
  constructor
  · rintro ⟨j, -, hb, he⟩
    rwa [show i = j from by omega]
  · exact fun hb => ⟨i, hi, hb, rfl⟩

/-- Waves of one layout with the same bits are the same. -/
theorem ext_bits (hl : w.layout = v.layout) (h : ∀ i, w.bits.getLsbD i = v.bits.getLsbD i) :
    w = v := by
  cases w
  cases v
  cases hl
  cases BitVec.eq_of_getLsbD_eq fun i _ => h i
  rfl

theorem mem_states_of_mem (hp : p ∈ w) : p ∈ w.layout.states := by
  obtain ⟨i, hi, -, rfl⟩ := mem_iff.mp hp
  rw [Layout.mem_states]
  omega

theorem nodup_components : w.components.Nodup := by
  refine List.pairwise_map.mpr ?_
  refine (List.nodup_range.filter _).imp ?_
  intro i j hij he
  exact hij (by omega)

/-- A wave with exactly one member lists that member only. -/
theorem components_eq_singleton (h : ∀ q, q ∈ w ↔ q = p) : w.components = [p] := by
  have hnd := nodup_components (w := w)
  cases hc : w.components with
  | nil => exact absurd ((h p).mpr rfl) (by rw [← mem_components, hc]; exact List.not_mem_nil)
  | cons a l =>
    rw [hc] at hnd
    have ha : a = p := (h a).mp (by rw [← mem_components, hc]; exact List.mem_cons_self)
    cases l with
    | nil => rw [ha]
    | cons b l =>
      have hb : b = p := (h b).mp (by rw [← mem_components, hc]; simp)
      exact absurd (ha.trans hb.symm) (List.nodup_cons.mp hnd |>.1 <| by simp [·])

/-- Of two components one differs from `p`. -/
theorem exists_mem_ne (h : 2 ≤ w.components.length) (p : Nat) : ∃ q ∈ w, q ≠ p := by
  apply Classical.byContradiction
  intro hnone
  have hall : w.components ⊆ [p] := by
    intro q hq
    apply Classical.byContradiction
    intro hne
    exact hnone ⟨q, hq, fun he => hne (List.mem_singleton.mpr he)⟩
  have hle := nodup_components.length_le_of_subset hall
  exact absurd (Nat.le_trans h hle) (Nat.not_succ_le_self 1)

theorem mem_iff_eq_of_components (h : w.components = [p]) : q ∈ w ↔ q = p := by
  rw [← mem_components, h, List.mem_singleton]

/-! ## Inclusion -/

@[simp] theorem subset_refl (w : Wave) : w ⊆ w := ⟨rfl, fun _ hp => hp⟩

theorem subset_trans (h : w ⊆ v) (h' : v ⊆ u) : w ⊆ u :=
  ⟨h.1.trans h'.1, fun p hp => h'.2 p (h.2 p hp)⟩

/-! ## What the operations do to the members -/

@[simp] theorem not_mem_empty (l : Layout) : p ∉ empty l := by
  rw [mem_iff]
  rintro ⟨i, -, hb, -⟩
  simp [empty] at hb

theorem mem_full {l : Layout} (hl : l.Valid) : p ∈ full l ↔ p ∈ l.states := by
  obtain ⟨-, hw, -⟩ := hl
  rw [mem_iff, Layout.mem_states]
  simp only [full, getLsbD_lowBits, decide_eq_true_eq]
  constructor
  · rintro ⟨i, hi, -, rfl⟩
    omega
  · intro hp
    exact ⟨p - l.base, by omega, by omega, by omega⟩

@[simp] theorem layout_add (w : Wave) (q : Nat) : (w.add q).layout = w.layout := by
  unfold add emptied empty
  split <;> rfl

@[simp] theorem layout_remove (w : Wave) (q : Nat) : (w.remove q).layout = w.layout := by
  unfold remove
  split <;> rfl

@[simp] theorem layout_single (w : Wave) (q : Nat) : (w.single q).layout = w.layout := by
  unfold single
  rw [layout_add]
  rfl

theorem mem_add (hw : w.Readable) (hq : q ∈ w.layout.states) :
    p ∈ w.add q ↔ p = q ∨ p ∈ w := by
  rw [Layout.mem_states] at hq
  have hoff : w.layout.offset? q = some (q - w.layout.base) :=
    Layout.offset?_eq_some_iff.mpr ⟨by omega, by omega⟩
  have hwidth : w.layout.width ≤ maxWidth := hw
  have h64 : maxWidth = 64 := rfl
  simp only [mem_iff, add, hoff, BitVec.getLsbD_or, BitVec.getLsbD_twoPow, Bool.or_eq_true,
    Bool.and_eq_true, decide_eq_true_eq]
  constructor
  · rintro ⟨i, hi, hb | ⟨-, hb⟩, rfl⟩
    · exact .inr ⟨i, hi, hb, rfl⟩
    · exact .inl (by omega)
  · rintro (rfl | ⟨i, hi, hb, rfl⟩)
    · exact ⟨p - w.layout.base, by omega, .inr ⟨by omega, rfl⟩, by omega⟩
    · exact ⟨i, hi, .inl hb, rfl⟩

/-- A wave to which one state is added has no other state. -/
theorem eq_of_mem_add_empty {l : Layout} (hl : l.Valid) (h : p ∈ (empty l).add q) : p = q := by
  cases hoff : l.offset? q with
  | none =>
    unfold add at h
    rw [show (empty l).layout.offset? q = none from hoff] at h
    exact absurd h (not_mem_empty l)
  | some i =>
    obtain ⟨hi, rfl⟩ := Layout.offset?_eq_some_iff.mp hoff
    have hq : l.base + i ∈ (empty l).layout.states :=
      Layout.mem_states.mpr ⟨Nat.le_add_right _ _, Nat.add_lt_add_left hi _⟩
    rw [mem_add (w := empty l) hl.2.1 hq] at h
    exact h.resolve_right (not_mem_empty l)

theorem mem_remove : p ∈ w.remove q ↔ p ∈ w ∧ p ≠ q := by
  cases hoff : w.layout.offset? q with
  | none =>
    simp only [remove, hoff]
    refine ⟨fun hp => ⟨hp, ?_⟩, fun h => h.1⟩
    rintro rfl
    obtain ⟨i, hi, -, rfl⟩ := mem_iff.mp hp
    rw [Layout.offset?_eq_some_iff.mpr ⟨by omega, rfl⟩] at hoff
    cases hoff
  | some j =>
    obtain ⟨hj, rfl⟩ := Layout.offset?_eq_some_iff.mp hoff
    have h64 : maxWidth = 64 := rfl
    simp only [mem_iff, remove, hoff, BitVec.getLsbD_and, BitVec.getLsbD_not,
      BitVec.getLsbD_twoPow, Bool.and_eq_true, Bool.not_eq_true', decide_eq_true_eq,
      Bool.and_eq_false_imp, decide_eq_false_iff_not]
    constructor
    · rintro ⟨i, hi, ⟨hb, -, hne⟩, rfl⟩
      refine ⟨⟨i, hi, hb, rfl⟩, fun he => ?_⟩
      have hij : j = i := by omega
      exact hne (by omega) hij
    · rintro ⟨⟨i, hi, hb, rfl⟩, hne⟩
      exact ⟨i, hi, ⟨hb, by omega, fun _ he => hne (by rw [he])⟩, rfl⟩

theorem mem_maskBy (h : w.layout = m.layout) : p ∈ w.maskBy m ↔ p ∈ w ∧ p ∈ m := by
  simp only [mem_iff, maskBy, h, if_true, BitVec.getLsbD_and, Bool.and_eq_true]
  constructor
  · rintro ⟨i, hi, ⟨hb, hb'⟩, rfl⟩
    exact ⟨⟨i, hi, hb, rfl⟩, ⟨i, hi, hb', rfl⟩⟩
  · rintro ⟨⟨i, hi, hb, rfl⟩, ⟨j, hj, hb', he⟩⟩
    rw [show j = i from by omega] at hb'
    exact ⟨i, hi, ⟨hb, hb'⟩, rfl⟩

/-- Whatever the mask, what is left was there. -/
theorem maskBy_subset (w m : Wave) : w.maskBy m ⊆ w := by
  have hlayout := maskBy_layout w m
  refine ⟨hlayout, fun p hp => ?_⟩
  obtain ⟨i, hi, hb, rfl⟩ := mem_iff.mp hp
  rw [hlayout] at hi ⊢
  exact mem_iff.mpr ⟨i, hi, getLsbD_of_maskBy hb, rfl⟩

/-- What is left is in the mask; one of another layout leaves nothing. -/
theorem mem_of_mem_maskBy (hp : p ∈ w.maskBy m) : p ∈ m := by
  by_cases h : w.layout = m.layout
  · exact ((mem_maskBy h).mp hp).2
  · rw [maskBy, if_neg h] at hp
    exact absurd hp (not_mem_empty _)

@[simp] theorem layout_union (w v : Wave) : (w.union v).layout = w.layout := by
  unfold union
  split <;> rfl

theorem mem_union (h : w.layout = v.layout) : p ∈ w.union v ↔ p ∈ w ∨ p ∈ v := by
  simp only [mem_iff, union, h, if_true, BitVec.getLsbD_or, Bool.or_eq_true]
  constructor
  · rintro ⟨i, hi, hb | hb, rfl⟩
    · exact .inl ⟨i, hi, hb, rfl⟩
    · exact .inr ⟨i, hi, hb, rfl⟩
  · rintro (⟨i, hi, hb, rfl⟩ | ⟨i, hi, hb, rfl⟩)
    · exact ⟨i, hi, .inl hb, rfl⟩
    · exact ⟨i, hi, .inr hb, rfl⟩

theorem mem_single (hw : w.Readable) (hp : p ∈ w) : q ∈ w.single p ↔ q = p := by
  unfold single
  have hstates : p ∈ w.layout.states := mem_states_of_mem hp
  rw [mem_add (w := w.emptied) hw hstates]
  exact ⟨fun h => h.resolve_right (not_mem_empty _), .inl⟩

theorem components_single (hw : w.Readable) (hp : p ∈ w) : (w.single p).components = [p] :=
  components_eq_singleton fun _ => mem_single hw hp

theorem single_subset (hw : w.Readable) (hp : p ∈ w) : w.single p ⊆ w :=
  ⟨layout_single w p, fun q hq => by rwa [(mem_single hw hp).mp hq]⟩

theorem remove_subset (w : Wave) (q : Nat) : w.remove q ⊆ w :=
  ⟨layout_remove w q, fun _ hp => (mem_remove.mp hp).1⟩

/-- Taking out a member leaves one component fewer. -/
theorem length_components_remove (hp : p ∈ w) :
    (w.remove p).components.length + 1 = w.components.length := by
  have hperm : (w.remove p).components.Perm (w.components.erase p) := by
    refine (List.perm_ext_iff_of_nodup nodup_components (nodup_components.erase p)).mpr ?_
    intro q
    rw [mem_components, mem_remove, nodup_components.mem_erase_iff, mem_components]
    exact and_comm
  have hpos : 0 < w.components.length := List.length_pos_of_mem hp
  rw [hperm.length_eq, List.length_erase_of_mem hp]
  omega

end Members

end Wave
end WaveCollapse
