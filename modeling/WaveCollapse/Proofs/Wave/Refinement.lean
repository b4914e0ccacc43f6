import Mathlib.Data.Finset.Card
import Mathlib.Order.Interval.Finset.Nat
import WaveCollapse.Proofs.Wave.Words

/-! # Waves as finite sets

A wave that comes from an empty or a full one by any operations is nothing but a finite set of
states of its class: whatever is read off it is read off the set, and every operation on it is
an operation on sets.

The word has room for more bits than the class has states, and `popcount` and `isEmpty` look at
the whole word, `components` only below the width.  What keeps the two together is that no bit
past the width is ever set; this is proved of every reached wave first, and the rest only needs
the waves to be well-formed.

Operations that number the states of the class are taken in words.  They stop where the class
ends past the words, so what they do to the set is said of classes within the words
(`Layout.InWord`); what looks at the layout and the bits only needs no such bound.
-/

namespace WaveCollapse

/-- The states of the class as a finite set. -/
def Layout.stretch (l : Layout) : Finset Nat := Finset.Ico l.base (l.base + l.width)

theorem Layout.mem_stretch {l : Layout} {p : Nat} : p ∈ l.stretch ↔ p ∈ l.states := by
  rw [stretch, Finset.mem_Ico, mem_states]

theorem Layout.offset?_eq_none_iff {l : Layout} {p : Nat} : l.offset? p = none ↔ p ∉ l.stretch := by
  rw [mem_stretch, mem_states, offset?]
  split <;> simp_all

namespace Wave

/-- The possible states as a finite set. -/
def members (w : Wave) : Finset Nat := w.components.toFinset

section Members
variable {w v : Wave} {l : Layout} {p q : Nat}

@[simp] theorem mem_members : p ∈ w.members ↔ p ∈ w := List.mem_toFinset

theorem card_members (w : Wave) : w.members.card = w.components.length :=
  List.toFinset_card_of_nodup nodup_components

theorem members_subset_stretch (w : Wave) : w.members ⊆ w.layout.stretch := fun _ hp =>
  Layout.mem_stretch.mpr (mem_states_of_mem (mem_members.mp hp))

theorem members_eq_empty_iff : w.members = ∅ ↔ w.components = [] := List.toFinset_eq_empty_iff _

theorem members_eq_singleton_iff : w.members = {p} ↔ w.components = [p] := by
  constructor
  · intro h
    refine components_eq_singleton fun q => ?_
    rw [← mem_members, h, Finset.mem_singleton]
  · intro h
    rw [members, h]
    rfl

theorem pairwise_components (w : Wave) : w.components.Pairwise (· < ·) := by
  refine List.pairwise_map.mpr ((List.pairwise_lt_range.filter _).imp ?_)
  exact fun hij => Nat.add_lt_add_left hij _

/-! ## The operations on members -/

@[simp] theorem members_empty (l : Layout) : (empty l).members = ∅ := by
  ext p
  simp

theorem members_full (hl : l.Valid) : (full l).members = l.stretch := by
  ext p
  rw [mem_members, mem_full hl, Layout.mem_stretch]

theorem members_add (hw : w.Readable) (hq : q ∈ w.layout.stretch) :
    (w.add q).members = insert q w.members := by
  ext p
  rw [mem_members, mem_add hw (Layout.mem_stretch.mp hq), Finset.mem_insert, mem_members]

theorem add_of_foreign (hq : q ∉ w.layout.stretch) : w.add q = empty w.layout := by
  unfold add
  rw [Layout.offset?_eq_none_iff.mpr hq]
  rfl

theorem members_remove (w : Wave) (q : Nat) : (w.remove q).members = w.members.erase q := by
  ext p
  rw [mem_members, mem_remove, Finset.mem_erase, mem_members, and_comm]

theorem remove_of_foreign (hq : q ∉ w.layout.stretch) : w.remove q = w := by
  unfold remove
  rw [Layout.offset?_eq_none_iff.mpr hq]

theorem members_maskBy (h : w.layout = v.layout) :
    (w.maskBy v).members = w.members ∩ v.members := by
  ext p
  rw [mem_members, mem_maskBy h, Finset.mem_inter, mem_members, mem_members]

theorem maskBy_of_foreign (h : w.layout ≠ v.layout) : w.maskBy v = empty w.layout := if_neg h

theorem members_union (h : w.layout = v.layout) :
    (w.union v).members = w.members ∪ v.members := by
  ext p
  rw [mem_members, mem_union h, Finset.mem_union, mem_members, mem_members]

theorem union_of_foreign (h : w.layout ≠ v.layout) : w.union v = w := if_neg h

theorem members_single (hw : w.Readable) (hp : p ∈ w) : (w.single p).members = {p} :=
  members_eq_singleton_iff.mpr (components_single hw hp)

end Members

/-! ## Observing a set -/

section Observing
variable {ρ : Type} [PickSource ρ] {w : Wave} {p : Nat}

theorem observe_of_empty (h : w.members = ∅) (source : ρ) :
    w.observe source = ⟨none, w, source⟩ := by
  unfold observe
  rw [members_eq_empty_iff.mp h]

theorem observe_of_singleton (h : w.members = {p}) (source : ρ) :
    w.observe source = ⟨some p, w.single p, source⟩ := by
  unfold observe
  rw [members_eq_singleton_iff.mp h]

/-- What an observation leaves is the wave it was or one member of it. -/
theorem observe_wave (w : Wave) (source : ρ) :
    (w.observe source).wave = w ∨ ∃ p ∈ w, (w.observe source).wave = w.single p := by
  rcases w.members.eq_empty_or_nonempty with hempty | ⟨p, hp⟩
  · exact .inl (by rw [observe_of_empty hempty])
  · obtain ⟨q, hq, rest, hseen⟩ := observe_of_mem (mem_members.mp hp) source
    exact .inr ⟨q, hq, by rw [hseen]⟩

end Observing

/-! ## The waves that can be reached -/

/-- Waves of a layout that come from empty and full ones by the operations, where these do not
stop, with operands of any layout that were reached the same way, any state and any source of
picks. -/
inductive Reached : Layout → Wave → Prop
  | noneOf {l : Layout} {w : Wave} (built : noneOf l = .ok w) : Reached l w
  | allOf {l : Layout} {w : Wave} (built : allOf l = .ok w) : Reached l w
  | emptied {l : Layout} {w : Wave} (hw : Reached l w) : Reached l w.emptied
  | add {l : Layout} {w v : Wave} {p : Nat} (hw : Reached l w) (added : w.checkedAdd p = .ok v) :
    Reached l v
  | remove {l : Layout} {w v : Wave} {p : Nat} (hw : Reached l w)
    (removed : w.checkedRemove p = .ok v) : Reached l v
  | maskBy {l k : Layout} {w m : Wave} (hw : Reached l w) (hm : Reached k m) :
    Reached l (w.maskBy m)
  | union {l k : Layout} {w v : Wave} (hw : Reached l w) (hv : Reached k v) :
    Reached l (w.union v)
  | observe {l : Layout} {w : Wave} {ρ : Type} [PickSource ρ] {source : ρ} {o : Observation ρ}
    (hw : Reached l w) (observed : w.checkedObserve source = .ok o) : Reached l o.wave

variable {l k : Layout} {w v : Wave}

/-- A wave is built for a layout that passes the check. -/
theorem check_map_eq_ok_iff {f : Unit → Wave} :
    l.check.map f = .ok w ↔ l.Valid ∧ f () = w := by
  rw [map_eq_ok_iff, ← Layout.check_eq_ok_iff]
  exact ⟨fun ⟨_, hl, hw⟩ => ⟨hl, hw⟩, fun ⟨hl, hw⟩ => ⟨_, hl, hw⟩⟩

/-- No operation changes the layout or sets a bit past the width. -/
theorem Reached.wellFormed (h : Reached l w) : w.layout = l ∧ w.WellFormed := by
  induction h with
  | noneOf built =>
    obtain ⟨hl, rfl⟩ := check_map_eq_ok_iff.mp built
    exact ⟨rfl, wellFormed_empty hl⟩
  | allOf built =>
    obtain ⟨hl, rfl⟩ := check_map_eq_ok_iff.mp built
    exact ⟨rfl, wellFormed_full hl⟩
  | emptied _ ih => exact ⟨ih.1, wellFormed_empty ih.2.1⟩
  | @add _ _ _ p _ added ih =>
    obtain ⟨-, rfl⟩ := checkedAdd_eq_ok_iff.mp added
    exact ⟨(layout_add _ p).trans ih.1, ih.2.add p⟩
  | @remove _ _ _ p _ removed ih =>
    obtain ⟨-, rfl⟩ := checkedRemove_eq_ok_iff.mp removed
    exact ⟨(layout_remove _ p).trans ih.1, ih.2.remove p⟩
  | maskBy _ _ ih _ => exact ⟨(maskBy_layout _ _).trans ih.1, ih.2.maskBy _⟩
  | union _ _ ih ih' => exact ⟨(layout_union _ _).trans ih.1, ih.2.union ih'.2⟩
  | @observe _ w _ _ source _ _ observed ih =>
    cases observe_of_checkedObserve observed
    rcases observe_wave w source with hw | ⟨p, -, hw⟩
    · exact hw.symm ▸ ih
    · exact hw.symm ▸ ⟨(layout_single w p).trans ih.1, ih.2.single p⟩

/-! ## What a set stands for -/

/-- What a wave of layout `l` and its set of members have in common by the layout and the bits
alone, wherever the states of the class lie. -/
structure StandsFor (l : Layout) (w : Wave) : Prop where
  layout : w.layout = l
  /-- Nothing is set past the width. -/
  clear : ∀ i, l.width ≤ i → w.bits.getLsbD i = false
  within : w.members ⊆ l.stretch
  popcount : w.popcount = w.members.card
  entropy : w.entropy = w.members.card - 1
  isEmpty : w.isEmpty = true ↔ w.members = ∅
  isResolved : w.isResolved = true ↔ w.members.card = 1
  agrees : ∀ {k v}, Reached k v → (w.agrees v = true ↔ l.classId = k.classId ∧
    l.width = k.width ∧ ∀ i, l.base + i ∈ w.members ↔ k.base + i ∈ v.members)
  emptied : w.emptied.members = ∅
  maskBy : ∀ {m}, Reached l m → (w.maskBy m).members = w.members ∩ m.members
  maskBy_foreign : ∀ {k m}, Reached k m → l ≠ k → w.maskBy m = empty l
  union : ∀ {v}, Reached l v → (w.union v).members = w.members ∪ v.members
  union_foreign : ∀ {k v}, Reached k v → l ≠ k → w.union v = w

/-- The states read off a wave are those of its set. -/
structure ReadsAs (w : Wave) : Prop where
  components : ∃ ps, w.checkedComponents = .ok ps ∧ ps.Pairwise (· < ·) ∧ ps.toFinset = w.members
  contains : ∀ p, w.checkedContains p = .ok (decide (p ∈ w.members))
  resolvedState : ∃ o, w.checkedResolvedState = .ok o ∧ ∀ p, o = some p ↔ w.members = {p}

/-- Every operation with a state on a wave of layout `l` is one on its set of members. -/
structure ActsAs (l : Layout) (w : Wave) : Prop where
  add : ∀ p, ∃ v, w.checkedAdd p = .ok v ∧
    v.members = if p ∈ l.stretch then insert p w.members else ∅
  remove : ∀ p, ∃ v, w.checkedRemove p = .ok v ∧ v.members = w.members.erase p
  remove_foreign : ∀ p, p ∉ l.stretch → w.checkedRemove p = .ok w
  /-- An observation picks a member and leaves it only; a single one is not drawn. -/
  observe : ∀ {ρ : Type} [PickSource ρ] (source : ρ), w.members.Nonempty →
    ∃ p ∈ w.members, ∃ o, w.checkedObserve source = .ok o ∧ o.picked = some p ∧
      o.wave.members = {p} ∧ (w.members = {p} → o.source = source)
  observe_empty : ∀ {ρ : Type} [PickSource ρ] (source : ρ), w.members = ∅ →
    w.checkedObserve source = .ok ⟨none, w, source⟩

theorem WellFormed.standsFor (hw : w.WellFormed) : StandsFor w.layout w where
  layout := rfl
  clear := hw.2
  within := members_subset_stretch w
  popcount := by rw [popcount_eq_length hw, card_members]
  entropy := by rw [entropy, popcount_eq_length hw, card_members]
  isEmpty := by
    rw [isEmpty_iff hw, Finset.eq_empty_iff_forall_notMem]
    simp only [mem_members]
  isResolved := by rw [isResolved, popcount_eq_length hw, card_members, beq_iff_eq]
  agrees hv := by
    simp only [mem_members]
    rw [agrees_iff, hv.wellFormed.1]
  emptied := members_empty _
  maskBy hm := members_maskBy hm.wellFormed.1.symm
  maskBy_foreign hm hne := maskBy_of_foreign (hm.wellFormed.1 ▸ hne)
  union hv := members_union hv.wellFormed.1.symm
  union_foreign hv hne := union_of_foreign (hv.wellFormed.1 ▸ hne)

theorem WellFormed.readsAs (hw : w.WellFormed) (hl : w.layout.InWord) : ReadsAs w where
  components := ⟨_, checkedComponents_eq hw.readable hl, pairwise_components w, rfl⟩
  contains p := by
    rw [checkedContains_eq hw.readable hl, Except.ok.injEq, Bool.eq_iff_iff,
      contains_iff hw.readable, decide_eq_true_iff, mem_members]
  resolvedState := by
    refine ⟨_, checkedResolvedState_eq hw.readable hl, fun p => ?_⟩
    rw [members_eq_singleton_iff]
    exact ⟨components_of_resolvedState hw, resolvedState_of_components hw⟩

theorem WellFormed.actsAs (hw : w.WellFormed) (hl : w.layout.InWord) : ActsAs w.layout w where
  add p := by
    refine ⟨_, checkedAdd_eq hw.readable hl p, ?_⟩
    split
    · next hp => exact members_add hw.readable hp
    · next hp => rw [add_of_foreign hp, members_empty]
  remove p := ⟨_, checkedRemove_eq hw.readable hl p, members_remove w p⟩
  remove_foreign p hp := by rw [checkedRemove_eq hw.readable hl, remove_of_foreign hp]
  observe source := by
    rintro ⟨q, hq⟩
    obtain ⟨p, hp, rest, hseen⟩ := observe_of_mem (mem_members.mp hq) source
    refine ⟨p, mem_members.mpr hp, _, checkedObserve_eq hw.readable hl source, ?_, ?_,
      fun hone => ?_⟩
    · rw [hseen]
    · rw [hseen]
      exact members_single hw.readable hp
    · rw [observe_of_singleton hone]
  observe_empty source h := by rw [checkedObserve_eq hw.readable hl, observe_of_empty h]

/-- **Waves refine finite sets.**  The empty wave of a layout is the empty set and the full one the
whole stretch of the class; every wave reached from such waves keeps its layout and sets no bit past
it, and is counted, compared, masked and united as its set is.  Where the class ends within the
words, its states are read and changed as those of the set; elsewhere to ask for a state gives an
answer exactly if the place of the class can be computed for it. -/
theorem reached_refines (l : Layout) :
    (∀ w, noneOf l = .ok w → w.members = ∅) ∧
    (∀ w, allOf l = .ok w → w.members = l.stretch) ∧
    (∀ w, Reached l w → StandsFor l w) ∧
    (l.InWord → ∀ w, Reached l w → ReadsAs w ∧ ActsAs l w) ∧
    ∀ w, Reached l w → ∀ p,
      ((∃ b, w.checkedContains p = .ok b) ↔ l.Reaches p) ∧
      ((∃ v, w.checkedAdd p = .ok v) ↔ l.Reaches p) ∧
      ((∃ v, w.checkedRemove p = .ok v) ↔ l.Reaches p) := by
  refine ⟨fun w built => ?_, fun w built => ?_, fun w h => ?_, fun hl w h => ?_, fun w h p => ?_⟩
  · obtain ⟨-, rfl⟩ := check_map_eq_ok_iff.mp built
    exact members_empty l
  · obtain ⟨hl, rfl⟩ := check_map_eq_ok_iff.mp built
    exact members_full hl
  · obtain ⟨rfl, hw⟩ := h.wellFormed
    exact hw.standsFor
  · obtain ⟨rfl, hw⟩ := h.wellFormed
    exact ⟨hw.readsAs hl, hw.actsAs hl⟩
  · obtain ⟨rfl, hw⟩ := h.wellFormed
    simp only [checkedContains_eq_ok_iff, checkedAdd_eq_ok_iff, checkedRemove_eq_ok_iff,
      hw.readable.answers_iff, exists_and_left, exists_eq', and_true, and_self]

/-- A class that fills the word, without its first state: 63 members, 64 once the state is back,
and none once the first state of the next class is added. -/
theorem reached_refines_full_word :
    (empty ⟨1, 64, 64⟩).members = ∅ ∧ (full ⟨1, 64, 64⟩).members = Finset.Ico 64 128 ∧
    ReadsAs ((full ⟨1, 64, 64⟩).remove 64) ∧
    ((full ⟨1, 64, 64⟩).remove 64).members.card = 63 ∧
    (∃ v, ((full ⟨1, 64, 64⟩).remove 64).checkedAdd 64 = .ok v ∧ v.members.card = 64) ∧
    (∃ v, ((full ⟨1, 64, 64⟩).remove 64).checkedAdd 128 = .ok v ∧ v.members = ∅) := by
  have hfull : Reached ⟨1, 64, 64⟩ (full ⟨1, 64, 64⟩) := .allOf rfl
  have hrest : Reached ⟨1, 64, 64⟩ ((full ⟨1, 64, 64⟩).remove 64) := hfull.remove (p := 64) rfl
  obtain ⟨hnone, hall, hstands, hacts, -⟩ := reached_refines ⟨1, 64, 64⟩
  obtain ⟨reads, acts⟩ := hacts (by decide) _ hrest
  have hcard : ((full ⟨1, 64, 64⟩).remove 64).members.card = 63 := by
    rw [← (hstands _ hrest).popcount]
    decide
  have hgone : 64 ∉ ((full ⟨1, 64, 64⟩).remove 64).members := by
    rw [← decide_eq_false_iff_not, ← Except.ok.injEq (ε := Fault), ← reads.contains]
    decide
  refine ⟨hnone _ rfl, hall _ rfl, reads, hcard, ?_, ?_⟩
  · obtain ⟨v, hv, hmembers⟩ := acts.add 64
    refine ⟨v, hv, ?_⟩
    rw [hmembers, if_pos (by decide), Finset.card_insert_of_notMem hgone, hcard]
  · obtain ⟨v, hv, hmembers⟩ := acts.add 128
    exact ⟨v, hv, hmembers.trans (if_neg (by decide))⟩

/-- Two states that are the last two words: the layout is accepted, but the number after them is no
word, and whether one of them is possible cannot be asked, nor can it be added. -/
theorem reached_refines_last_words :
    let l : Layout := ⟨1, twoTo 64 - 2, 2⟩
    noneOf l = .ok (empty l) ∧ (∀ p ∈ l.stretch, p < twoTo 64) ∧ twoTo 64 - 1 ∈ l.stretch ∧
      (empty l).checkedContains (twoTo 64 - 1) = .error .overflow ∧
      (empty l).checkedAdd (twoTo 64 - 1) = .error .overflow ∧
      ¬ ∀ k w, Reached k w → ReadsAs w ∧ ActsAs k w := by
  intro l
  have hstops : (empty l).checkedContains (twoTo 64 - 1) = .error .overflow := by decide
  have hend : l.base + l.width = twoTo 64 := by decide
  refine ⟨rfl, fun p hp => hend ▸ (Finset.mem_Ico.mp hp).2, ?_, hstops, by decide, fun hall => ?_⟩
  · exact Finset.mem_Ico.mpr ⟨by decide, by decide⟩
  · cases hstops.symm.trans ((hall l _ (.noneOf rfl)).1.contains _)

end Wave
end WaveCollapse
