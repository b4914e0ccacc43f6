import WaveCollapse.Proofs.Except
import WaveCollapse.Proofs.Wave.WellFormed

/-! # Waves in words

An operation in words does what the plain operation does or stops.  What stops it is the place of
the class alone: to tell whether a state belongs to the class, the first state of the class has to
be a word and, for a state that is not below it, the number after the last one too
(`Layout.Reaches`).  Where all of these are words (`Layout.InWord`) nothing stops on a wave that has
a bit for every offset of its class, and every operation in words is the plain one.
-/

namespace WaveCollapse

namespace Layout
variable {l : Layout} {p : Nat} {o : Option Nat}

/-- The numbers that tell whether `p` belongs to the class are words. -/
def Reaches (l : Layout) (p : Nat) : Prop :=
  l.base < twoTo 64 ∧ (p < l.base ∨ l.base + l.width < twoTo 64)

theorem InWord.base_lt (h : l.InWord) : l.base < twoTo 64 :=
  Nat.lt_of_le_of_lt (Nat.le_add_right _ _) h

theorem InWord.reaches (h : l.InWord) (p : Nat) : l.Reaches p := ⟨h.base_lt, .inr h⟩

/-- Classes that fit lie within the words if the number of all states is one. -/
theorem Valid.inWord {classCount : Nat} (hl : l.Valid) (hc : l.classId < classCount)
    (hspace : classCount * l.stride < twoTo 64) : l.InWord := by
  have hstep : (l.classId + 1) * l.stride ≤ classCount * l.stride := Nat.mul_le_mul_right _ hc
  rw [Nat.succ_mul] at hstep
  exact Nat.lt_of_le_of_lt (Nat.le_trans (Nat.add_le_add_left hl.2.2 _) hstep) hspace

theorem checkedBase_eq_ok_iff {n : Nat} :
    l.checkedBase = .ok n ↔ l.base < twoTo 64 ∧ l.base = n := Word.check_eq_ok_iff

/-- The position of a state is found exactly where it can be computed. -/
theorem checkedOffset?_eq_ok_iff : l.checkedOffset? p = .ok o ↔ l.Reaches p ∧ l.offset? p = o := by
  unfold checkedOffset? Reaches offset?
  rw [bind_eq_ok_iff]
  simp only [checkedBase_eq_ok_iff]
  constructor
  · rintro ⟨_, ⟨hbase, rfl⟩, h⟩
    split at h
    · next hlt =>
      cases h
      exact ⟨⟨hbase, .inl hlt⟩, if_neg fun h => Nat.not_le_of_lt hlt h.1⟩
    · next hle =>
      obtain ⟨_, hsum, h⟩ := bind_eq_ok_iff.mp h
      obtain ⟨hstop, rfl⟩ := Word.check_eq_ok_iff.mp hsum
      refine ⟨⟨hbase, .inr hstop⟩, ?_⟩
      simp only [and_iff_right (Nat.le_of_not_lt hle)]
      exact Except.ok.inj h
  · rintro ⟨⟨hbase, hreach⟩, rfl⟩
    refine ⟨_, ⟨hbase, rfl⟩, ?_⟩
    by_cases hlt : p < l.base
    · rw [if_pos hlt, if_neg fun h => Nat.not_le_of_lt hlt h.1]
      rfl
    · simp only [if_neg hlt, and_iff_right (Nat.le_of_not_lt hlt),
        Word.add_of_lt (hreach.resolve_left hlt)]
      rfl

end Layout

namespace Wave
variable {w v : Wave} {p : Nat}

/-! ## Single states -/

/-- A state is contained when it is listed. -/
theorem contains_iff (hw : w.Readable) : w.contains p = true ↔ p ∈ w := by
  have hwidth : w.layout.width ≤ maxWidth := hw
  unfold contains
  split
  · next i hi =>
    obtain ⟨hlt, rfl⟩ := Layout.offset?_eq_some_iff.mp hi
    rw [base_add_mem_iff (by omega)]
  · next hnone =>
    refine iff_of_false Bool.false_ne_true fun hp => ?_
    obtain ⟨i, hi, -, rfl⟩ := mem_iff.mp hp
    cases hnone.symm.trans (Layout.offset?_eq_some_iff.mpr ⟨by omega, rfl⟩)

/-- The place of `p` can be computed, and the word has it. -/
def Answers (w : Wave) (p : Nat) : Prop :=
  w.layout.Reaches p ∧ ∀ i, w.layout.offset? p = some i → i < maxWidth

theorem Readable.answers_iff (hw : w.Readable) : w.Answers p ↔ w.layout.Reaches p := by
  refine and_iff_left fun i hi => ?_
  exact Nat.lt_of_lt_of_le (Layout.offset?_eq_some_iff.mp hi).1 hw

theorem checkedPlace?_eq_ok_iff {o : Option Nat} :
    w.checkedPlace? p = .ok o ↔ w.Answers p ∧ w.layout.offset? p = o := by
  unfold checkedPlace? Answers
  rw [bind_eq_ok_iff]
  simp only [Layout.checkedOffset?_eq_ok_iff]
  constructor
  · rintro ⟨found, ⟨hreach, hfound⟩, h⟩
    cases found with
    | none =>
      cases h
      exact ⟨⟨hreach, fun i hi => by cases hfound.symm.trans hi⟩, hfound⟩
    | some i =>
      dsimp only at h
      split at h
      · next hi =>
        cases h
        exact ⟨⟨hreach, fun j hj => by cases hfound.symm.trans hj; exact hi⟩, hfound⟩
      · cases h
  · rintro ⟨⟨hreach, hplace⟩, rfl⟩
    refine ⟨_, ⟨hreach, rfl⟩, ?_⟩
    cases hfound : w.layout.offset? p with
    | none => rfl
    | some i => exact if_pos (hplace i hfound)

/-- What only depends on the place of `p` is computed exactly where the place is. -/
theorem map_checkedPlace?_eq_ok_iff {α : Type} {f : Option Nat → α} {a : α} :
    (w.checkedPlace? p).map f = .ok a ↔ w.Answers p ∧ f (w.layout.offset? p) = a := by
  rw [map_eq_ok_iff]
  simp only [checkedPlace?_eq_ok_iff]
  constructor
  · rintro ⟨_, ⟨hw, rfl⟩, rfl⟩
    exact ⟨hw, rfl⟩
  · rintro ⟨hw, rfl⟩
    exact ⟨_, ⟨hw, rfl⟩, rfl⟩

theorem checkedContains_eq_ok_iff {b : Bool} :
    w.checkedContains p = .ok b ↔ w.Answers p ∧ w.contains p = b := map_checkedPlace?_eq_ok_iff

theorem checkedAdd_eq_ok_iff : w.checkedAdd p = .ok v ↔ w.Answers p ∧ w.add p = v :=
  map_checkedPlace?_eq_ok_iff

theorem checkedRemove_eq_ok_iff : w.checkedRemove p = .ok v ↔ w.Answers p ∧ w.remove p = v :=
  map_checkedPlace?_eq_ok_iff

/-! ## All states -/

/-- A list of sums is computed exactly when each of them is a word. -/
theorem mapM_wordAdd_eq_ok_iff {a : Nat} {ns ps : List Nat} :
    ns.mapM (Word.add a) = .ok ps ↔ (∀ n ∈ ns, a + n < twoTo 64) ∧ ns.map (a + ·) = ps := by
  constructor
  · intro h
    have hwords : ∀ n ∈ ns, a + n < twoTo 64 := by
      intro n hn
      obtain ⟨p, -, hp⟩ := exists_mem_of_mapM_ok h hn
      exact (Word.check_eq_ok_iff.mp hp).1
    refine ⟨hwords, ?_⟩
    rw [mapM_eq_ok_of_forall fun n hn => Word.add_of_lt (hwords n hn)] at h
    exact Except.ok.inj h
  · rintro ⟨hwords, rfl⟩
    exact mapM_eq_ok_of_forall fun n hn => Word.add_of_lt (hwords n hn)

/-- The states of a wave are listed exactly when its word has a bit for each of the class and the
first state of the class and all states of the wave are words. -/
theorem checkedComponents_eq_ok_iff {ps : List Nat} : w.checkedComponents = .ok ps ↔
    w.Readable ∧ w.layout.base < twoTo 64 ∧ (∀ p ∈ w, p < twoTo 64) ∧ w.components = ps := by
  have hlist : w.Readable → w.components =
      ((List.range w.layout.width).filter w.bits.getLsbD).map (w.layout.base + ·) := by
    intro hw
    unfold components
    rw [Nat.min_eq_left hw]
  unfold checkedComponents
  rw [bind_eq_ok_iff]
  simp only [Layout.checkedBase_eq_ok_iff]
  constructor
  · rintro ⟨_, ⟨hbase, rfl⟩, h⟩
    split at h
    · cases h
    · next hw =>
      have hw : w.Readable := Nat.le_of_not_lt hw
      obtain ⟨hwords, hps⟩ := mapM_wordAdd_eq_ok_iff.mp h
      refine ⟨hw, hbase, fun p hp => ?_, (hlist hw).trans hps⟩
      have hp : p ∈ w.components := hp
      rw [hlist hw] at hp
      obtain ⟨i, hi, rfl⟩ := List.mem_map.mp hp
      exact hwords i hi
  · rintro ⟨hw, hbase, hwords, rfl⟩
    refine ⟨_, ⟨hbase, rfl⟩, ?_⟩
    rw [if_neg (Nat.not_lt_of_le hw), mapM_wordAdd_eq_ok_iff]
    refine ⟨fun i hi => hwords _ ?_, (hlist hw).symm⟩
    show _ ∈ w.components
    rw [hlist hw]
    exact List.mem_map_of_mem hi

/-- A resolved wave is one whose states can be listed, if its state can be read. -/
theorem checkedResolvedState_eq_ok_iff {o : Option Nat} : w.checkedResolvedState = .ok o ↔
    (w.isResolved = true → w.checkedComponents = .ok w.components) ∧ w.resolvedState = o := by
  unfold checkedResolvedState resolvedState
  split
  · next hone =>
    rw [map_eq_ok_iff]
    constructor
    · rintro ⟨ps, hps, rfl⟩
      obtain ⟨-, -, -, rfl⟩ := checkedComponents_eq_ok_iff.mp hps
      exact ⟨fun _ => hps, rfl⟩
    · rintro ⟨hps, rfl⟩
      exact ⟨_, hps hone, rfl⟩
  · next hone =>
    rw [Except.ok.injEq]
    exact (and_iff_right fun h => absurd h hone).symm

/-- An observation in words that does not stop is the plain one. -/
theorem observe_of_checkedObserve {ρ : Type} [PickSource ρ] {source : ρ} {o : Observation ρ}
    (h : w.checkedObserve source = .ok o) : w.observe source = o := by
  have hsingle : ∀ {p v}, w.emptied.checkedAdd p = .ok v → w.single p = v :=
    fun h => (checkedAdd_eq_ok_iff.mp h).2
  unfold checkedObserve at h
  obtain ⟨ps, hps, h⟩ := bind_eq_ok_iff.mp h
  obtain ⟨-, -, -, hps⟩ := checkedComponents_eq_ok_iff.mp hps
  unfold observe
  rw [hps]
  cases ps with
  | nil => exact Except.ok.inj h
  | cons p ps =>
    cases ps with
    | nil =>
      obtain ⟨v, hv, h⟩ := bind_eq_ok_iff.mp h
      cases h
      dsimp only
      rw [hsingle hv]
    | cons q ps =>
      dsimp only at h ⊢
      cases hpick : PickSource.choose source (p :: q :: ps) with
      | mk picked rest =>
        rw [hpick] at h
        cases picked with
        | none => exact Except.ok.inj h
        | some r =>
          obtain ⟨v, hv, h⟩ := bind_eq_ok_iff.mp h
          cases h
          dsimp only
          rw [hsingle hv]

/-! ## Classes within the words -/

section InWord
variable (hw : w.Readable) (hl : w.layout.InWord)
include hw hl

theorem checkedContains_eq (p : Nat) : w.checkedContains p = .ok (w.contains p) :=
  checkedContains_eq_ok_iff.mpr ⟨hw.answers_iff.mpr (hl.reaches p), rfl⟩

theorem checkedAdd_eq (p : Nat) : w.checkedAdd p = .ok (w.add p) :=
  checkedAdd_eq_ok_iff.mpr ⟨hw.answers_iff.mpr (hl.reaches p), rfl⟩

theorem checkedRemove_eq (p : Nat) : w.checkedRemove p = .ok (w.remove p) :=
  checkedRemove_eq_ok_iff.mpr ⟨hw.answers_iff.mpr (hl.reaches p), rfl⟩

theorem checkedComponents_eq : w.checkedComponents = .ok w.components := by
  refine checkedComponents_eq_ok_iff.mpr ⟨hw, hl.base_lt, fun p hp => ?_, rfl⟩
  exact Nat.lt_trans (Layout.mem_states.mp (mem_states_of_mem hp)).2 hl

theorem checkedResolvedState_eq : w.checkedResolvedState = .ok w.resolvedState :=
  checkedResolvedState_eq_ok_iff.mpr ⟨fun _ => checkedComponents_eq hw hl, rfl⟩

theorem checkedObserve_eq {ρ : Type} [PickSource ρ] (source : ρ) :
    w.checkedObserve source = .ok (w.observe source) := by
  have hsingle : ∀ p, w.emptied.checkedAdd p = .ok (w.single p) :=
    checkedAdd_eq (w := w.emptied) hw hl
  unfold checkedObserve observe
  rw [checkedComponents_eq hw hl, ok_bind]
  cases w.components with
  | nil => rfl
  | cons p ps =>
    cases ps with
    | nil =>
      dsimp only
      rw [hsingle]
      rfl
    | cons q ps =>
      dsimp only
      cases PickSource.choose source (p :: q :: ps) with
      | mk picked rest =>
        cases picked with
        | none => rfl
        | some r =>
          dsimp only
          rw [hsingle]
          rfl

end InWord

end Wave
end WaveCollapse
