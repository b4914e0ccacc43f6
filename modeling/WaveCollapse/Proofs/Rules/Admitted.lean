import WaveCollapse.Proofs.Wave.Words
import WaveCollapse.Rules.Basic

/-! # What a wave admits

Across a connection a wave admits the states of the far class that one of its members allows.
The answer has the template's layout, and nothing else of the template counts.

In words the same is computed pair by pair, each state of the class added where it is still
missing.  Every step sets the bits of the states it adds and no others, so the loops end with the
bits of `admitted`, if the states of both waves can be computed at all.
-/

namespace WaveCollapse

theorem admitted_spec (allows : Nat → Nat → Nat → Bool) (x : Wave) (t : Nat) {template : Wave}
    (hl : template.layout.Valid) :
    (admitted allows x t template).WellFormed ∧
      (admitted allows x t template).layout = template.layout ∧
      ∀ y, y ∈ admitted allows x t template ↔
        y ∈ template.layout.states ∧ ∃ s, s ∈ x ∧ allows s t y = true := by
  have hstates : ∀ q ∈ template.layout.states.filter (fun y => x.components.any (allows · t y)),
      q ∈ template.emptied.layout.states := fun q hq => (List.mem_filter.mp hq).1
  obtain ⟨hwf, hlayout, hmem⟩ := Wave.foldl_add (Wave.wellFormed_empty hl) hstates
  refine ⟨hwf, hlayout, fun y => (hmem y).trans ?_⟩
  rw [or_iff_left (Wave.not_mem_empty _), List.mem_filter, List.any_eq_true]
  rfl

/-- A wave without members admits nothing. -/
theorem admitted_of_components_nil (allows : Nat → Nat → Nat → Bool) {x : Wave}
    (h : x.components = []) (t : Nat) (template : Wave) :
    admitted allows x t template = template.emptied := by
  have hnone : template.layout.states.filter (fun y => x.components.any (allows · t y)) = [] := by
    rw [List.filter_eq_nil_iff]
    intro y _
    simp [h]
  unfold admitted
  simp only [hnone, List.foldl_nil]

/-- **What a wave admits, bit by bit**: the states of the template's class that some component
allows.  The template's own bits do not count. -/
theorem admitted_bits (allows : Nat → Nat → Nat → Bool) (x : Wave) (t : Nat) {template : Wave}
    (hl : template.Readable) :
    (admitted allows x t template).layout = template.layout ∧
      ∀ i, (admitted allows x t template).bits.getLsbD i = true ↔
        i < template.layout.width ∧
          ∃ s ∈ x.components, allows s t (template.layout.base + i) = true := by
  have hstates : ∀ q ∈ template.layout.states.filter (fun y => x.components.any (allows · t y)),
      q ∈ template.emptied.layout.states := fun q hq => (List.mem_filter.mp hq).1
  obtain ⟨hlayout, hbits⟩ := Wave.getLsbD_foldl_add (w := template.emptied) hl hstates
  refine ⟨hlayout, fun i => (hbits i).trans ?_⟩
  have hbase : template.emptied.layout.base = template.layout.base := rfl
  rw [hbase, List.mem_filter, Layout.mem_states, List.any_eq_true]
  constructor
  · rintro (hzero | ⟨⟨-, hi⟩, hs⟩)
    · simp [Wave.emptied, Wave.empty] at hzero
    · exact ⟨by omega, hs⟩
  · rintro ⟨hi, hs⟩
    exact .inr ⟨⟨by omega, by omega⟩, hs⟩

/-- Only the layout of a template counts. -/
def Rules.TemplateBlind (r : Rules) : Prop :=
  ∀ x t y y', y.layout = y'.layout → r.allowed x t y = r.allowed x t y'

theorem admitted_congr (allows : Nat → Nat → Nat → Bool) (x : Wave) (t : Nat) {y y' : Wave}
    (h : y.layout = y'.layout) : admitted allows x t y = admitted allows x t y' := by
  unfold admitted Wave.emptied
  rw [h]

theorem Rules.Faithful.templateBlind {r : Rules} (hr : r.Faithful) : r.TemplateBlind := by
  intro x t y y' h
  rw [hr, hr, admitted_congr r.allows x t h]

/-- A well-formed wave under the mask of what `x` admits: the members that `x` supports. -/
theorem Rules.Faithful.maskBy_allowed {r : Rules} (hr : r.Faithful) (x : Wave) (t : Nat)
    {y : Wave} (hy : y.WellFormed) :
    (y.maskBy (r.allowed x t y)).WellFormed ∧ (y.maskBy (r.allowed x t y)).layout = y.layout ∧
      ∀ p, p ∈ y.maskBy (r.allowed x t y) ↔ p ∈ y ∧ ∃ s, s ∈ x ∧ r.allows s t p = true := by
  obtain ⟨-, hlayout, hmem⟩ := admitted_spec r.allows x t hy.1
  refine ⟨hy.maskBy _, Wave.maskBy_layout _ _, fun p => ?_⟩
  rw [hr, Wave.mem_maskBy hlayout.symm, hmem]
  constructor
  · rintro ⟨hp, -, hs⟩
    exact ⟨hp, hs⟩
  · rintro ⟨hp, hs⟩
    exact ⟨hp, Wave.mem_states_of_mem hp, hs⟩

/-! ## In words -/

/-- The states of a class can be listed when the first one and all of them are words. -/
theorem Layout.checkedStates_eq_ok_iff {l : Layout} {ps : List Nat} : l.checkedStates = .ok ps ↔
    l.base < twoTo 64 ∧ l.width * 8 < twoTo 63 ∧ (∀ p ∈ l.states, p < twoTo 64) ∧
      l.states = ps := by
  have hstates : (∀ p ∈ l.states, p < twoTo 64) ↔ ∀ i ∈ List.range l.width, l.base + i < twoTo 64 :=
    List.forall_mem_map
  unfold checkedStates Word.room
  rw [bind_eq_ok_iff, hstates]
  simp only [checkedBase_eq_ok_iff]
  constructor
  · rintro ⟨_, ⟨hbase, rfl⟩, h⟩
    obtain ⟨_, hroom, h⟩ := bind_eq_ok_iff.mp h
    split at hroom
    · next hroom' => exact ⟨hbase, hroom', Wave.mapM_wordAdd_eq_ok_iff.mp h⟩
    · cases hroom
  · rintro ⟨hbase, hroom, h⟩
    refine ⟨_, ⟨hbase, rfl⟩, ?_⟩
    rw [if_pos hroom, ok_bind]
    exact Wave.mapM_wordAdd_eq_ok_iff.mpr h

/-- Of a class that passes the check the states can be listed when the last one is a word. -/
theorem Layout.Valid.exists_checkedStates_iff {l : Layout} (hl : l.Valid) :
    (∃ ps, l.checkedStates = .ok ps) ↔ l.base + l.width ≤ twoTo 64 := by
  obtain ⟨hpos, hwidth, -⟩ := hl
  have hroom : l.width * 8 < twoTo 63 :=
    Nat.lt_of_le_of_lt (Nat.mul_le_mul_right 8 hwidth) (by decide)
  simp only [checkedStates_eq_ok_iff, exists_and_left, exists_eq', and_true, hroom, true_and]
  constructor
  · rintro ⟨-, hlast⟩
    have hlast := hlast (l.base + (l.width - 1)) (Layout.mem_states.mpr ⟨by omega, by omega⟩)
    omega
  · intro hle
    refine ⟨by omega, fun p hp => ?_⟩
    exact Nat.lt_of_lt_of_le (Layout.mem_states.mp hp).2 hle

/-- A step that adds the bits `B x` to every wave of a layout, taken for each `x` of a list. -/
theorem Wave.foldlM_adds {α : Type} {l : Layout} {f : Wave → α → Checked Wave} {B : α → Nat → Prop}
    {xs : List α} (step : ∀ w, w.layout = l → ∀ x ∈ xs, ∃ v, f w x = .ok v ∧ v.layout = l ∧
      ∀ i, v.bits.getLsbD i = true ↔ w.bits.getLsbD i = true ∨ B x i) {w : Wave}
    (hw : w.layout = l) : ∃ v, xs.foldlM f w = .ok v ∧ v.layout = l ∧
      ∀ i, v.bits.getLsbD i = true ↔ w.bits.getLsbD i = true ∨ ∃ x ∈ xs, B x i := by
  induction xs generalizing w with
  | nil => exact ⟨w, rfl, hw, fun i => by simp⟩
  | cons x xs ih =>
    obtain ⟨u, hu, hlu, hbits⟩ := step w hw x List.mem_cons_self
    obtain ⟨v, hv, hlv, hrest⟩ := ih (fun w hw y hy => step w hw y (List.mem_cons_of_mem x hy)) hlu
    refine ⟨v, ?_, hlv, fun i => ?_⟩
    · rw [List.foldlM_cons, hu, ok_bind, hv]
    · rw [hrest, hbits, or_assoc]
      simp only [List.mem_cons, exists_eq_or_imp]

/-- One pair of states: the bit of `y`, if `s` allows it. -/
theorem checkedAdmit_adds (allows : Nat → Nat → Nat → Bool) (t s : Nat) {y : Nat} {w : Wave}
    (hw : w.Readable) (hl : w.layout.InWord) (hy : y ∈ w.layout.states) :
    ∃ v, checkedAdmit allows t s w y = .ok v ∧ v.layout = w.layout ∧ ∀ i,
      v.bits.getLsbD i = true ↔
        w.bits.getLsbD i = true ∨ w.layout.base + i = y ∧ allows s t y = true := by
  have hstates : ∀ q ∈ [y], q ∈ w.layout.states := fun q hq => List.mem_singleton.mp hq ▸ hy
  obtain ⟨hlayout, hadd⟩ := Wave.getLsbD_foldl_add hw hstates
  unfold checkedAdmit
  rw [Wave.checkedContains_eq hw hl, ok_bind]
  by_cases hin : w.contains y = true
  · rw [if_pos hin]
    refine ⟨w, rfl, rfl, fun i => (or_iff_left_of_imp ?_).symm⟩
    -- the bit of a state that is there already is set
    rintro ⟨rfl, -⟩
    have hwidth : i < min w.layout.width maxWidth := by
      have := (Layout.mem_states.mp hy).2
      have hwidth : w.layout.width ≤ maxWidth := hw
      omega
    rw [← Wave.base_add_mem_iff hwidth]
    exact (Wave.contains_iff hw).mp hin
  · rw [if_neg hin]
    cases hallowed : allows s t y with
    | false => exact ⟨w, rfl, rfl, fun i => by simp⟩
    | true =>
      rw [if_pos rfl, Wave.checkedAdd_eq hw hl]
      refine ⟨_, rfl, hlayout, fun i => ?_⟩
      have hbit := hadd i
      rw [List.mem_singleton] at hbit
      rwa [and_iff_left rfl]

/-- **What a wave admits, computed in words**, where the states of both waves can be. -/
theorem checkedAdmitted_eq (allows : Nat → Nat → Nat → Bool) {x : Wave} (t : Nat) {template : Wave}
    (hx : x.checkedComponents = .ok x.components) (hy : template.Readable)
    (hl : template.layout.InWord) :
    checkedAdmitted allows x t template = .ok (admitted allows x t template) := by
  have hstates : template.layout.checkedStates = .ok template.layout.states := by
    refine Layout.checkedStates_eq_ok_iff.mpr ⟨hl.base_lt, ?_, fun p hp => ?_, rfl⟩
    · exact Nat.lt_of_le_of_lt (Nat.mul_le_mul_right 8 hy) (by decide)
    · exact Nat.lt_trans (Layout.mem_states.mp hp).2 hl
  have hsource : ∀ w : Wave, w.layout = template.layout → ∀ s ∈ x.components,
      ∃ v, template.layout.states.foldlM (checkedAdmit allows t s) w = .ok v ∧
        v.layout = template.layout ∧ ∀ i, v.bits.getLsbD i = true ↔ w.bits.getLsbD i = true ∨
          ∃ y ∈ template.layout.states, template.layout.base + i = y ∧ allows s t y = true := by
    intro w hw s _
    refine Wave.foldlM_adds (fun u hu y hmem => ?_) hw
    have hreadable : u.Readable := by
      unfold Wave.Readable
      rwa [hu]
    simpa only [hu] using checkedAdmit_adds allows t s hreadable (hu ▸ hl) (hu ▸ hmem)
  obtain ⟨v, hv, hlayout, hbits⟩ := Wave.foldlM_adds hsource (w := template.emptied) rfl
  obtain ⟨hlayout', hbits'⟩ := admitted_bits allows x t hy
  unfold checkedAdmitted
  rw [hstates, ok_bind, hx, ok_bind, hv, Except.ok.injEq]
  refine Wave.ext_bits (hlayout.trans hlayout'.symm) fun i => ?_
  rw [Bool.eq_iff_iff, hbits, hbits']
  simp only [Wave.emptied, Wave.empty, BitVec.ofNat_eq_ofNat, BitVec.getLsbD_zero,
    Bool.false_eq_true, false_or]
  constructor
  · rintro ⟨s, hs, y, hmem, rfl, hallowed⟩
    have := (Layout.mem_states.mp hmem).2
    exact ⟨by omega, s, hs, hallowed⟩
  · rintro ⟨hi, s, hs, hallowed⟩
    exact ⟨s, hs, _, Layout.mem_states.mpr ⟨by omega, by omega⟩, rfl, hallowed⟩

end WaveCollapse
