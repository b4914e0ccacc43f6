import WaveCollapse.Proofs.System.Vector
import WaveCollapse.Selection

/-! # The variables of lowest entropy

One pass over the waves keeps the least positive entropy met so far and its holders
(`LowestOf`).  The candidates are therefore exactly the variables whose entropy is positive
and no larger than any other positive one (`mem_lowestCandidates`), in ascending order
(`lowestCandidates_increasing`), and a selection names one of them or finds that nothing is
ambiguous (`select_some`, `select_eq_none_iff`).
-/

namespace WaveCollapse

/-- What the pass knows after the waves `es`, each with its variable. -/
structure LowestOf (es : List (Wave × Nat)) (l : Lowest) : Prop where
  holders : l.holders = ((es.filter fun e => l.entropy = some e.1.entropy).map (·.2)).reverse
  least : ∀ e ∈ es, 0 < e.1.entropy → ∃ n, l.entropy = some n ∧ n ≤ e.1.entropy
  attained : ∀ n, l.entropy = some n → 0 < n ∧ ∃ e ∈ es, e.1.entropy = n

/-- A bound below all entropies met so far is held by none of them. -/
theorem LowestOf.filter_eq_nil {es : List (Wave × Nat)} {l : Lowest} (h : LowestOf es l) {n : Nat}
    (hn : 0 < n) (hlow : ∀ m, l.entropy = some m → n < m) :
    es.filter (fun e => (some n : Option Nat) = some e.1.entropy) = [] := by
  rw [List.filter_eq_nil_iff]
  intro e he hd
  have hen : n = e.1.entropy := Option.some.inj (of_decide_eq_true hd)
  obtain ⟨m, hm, hle⟩ := h.least e he (by omega)
  have := hlow m hm
  omega

theorem LowestOf.meet {es : List (Wave × Nat)} {l : Lowest} (h : LowestOf es l) (w : Wave)
    (v : Nat) : LowestOf (es ++ [(w, v)]) (l.meet v w.entropy) := by
  unfold Lowest.meet
  split
  · next hzero =>
    have hnot : l.entropy ≠ some w.entropy := by
      intro he
      have := (h.attained _ he).1
      omega
    refine ⟨?_, fun e he hpos => ?_, fun n hn => ?_⟩
    · rw [h.holders, List.filter_append, List.filter_cons_of_neg (by simpa using hnot)]
      simp
    · rcases List.mem_append.mp he with he | he
      · exact h.least e he hpos
      · obtain rfl := List.mem_singleton.mp he
        exact absurd hzero (Nat.pos_iff_ne_zero.mp hpos)
    · obtain ⟨hpos, e, he, hen⟩ := h.attained n hn
      exact ⟨hpos, e, List.mem_append_left _ he, hen⟩
  · next hpos =>
    -- whatever the pass knew, an entropy below it starts a new list of holders
    have fresh (hlow : ∀ m, l.entropy = some m → w.entropy < m) :
        LowestOf (es ++ [(w, v)]) ⟨some w.entropy, [v]⟩ := by
      refine ⟨?_, fun e he hepos => ⟨_, rfl, ?_⟩, fun n hn => ?_⟩
      · rw [List.filter_append, h.filter_eq_nil (by omega) hlow]
        simp
      · rcases List.mem_append.mp he with he | he
        · obtain ⟨m, hm, hle⟩ := h.least e he hepos
          have := hlow m hm
          omega
        · obtain rfl := List.mem_singleton.mp he
          exact Nat.le_refl _
      · cases hn
        exact ⟨by omega, (w, v), by simp, rfl⟩
    split
    · next hnone => exact fresh fun m hm => by rw [hnone] at hm; cases hm
    · next least hleast =>
      split
      · next hlt => exact fresh fun m hm => by rw [hleast] at hm; cases hm; exact hlt
      · next hnlt =>
        have kept (e : Wave × Nat) (he : e ∈ es ++ [(w, v)]) (hepos : 0 < e.1.entropy) :
            ∃ n, some least = some n ∧ n ≤ e.1.entropy := by
          rcases List.mem_append.mp he with he | he
          · exact hleast ▸ h.least e he hepos
          · obtain rfl := List.mem_singleton.mp he
            exact ⟨least, rfl, Nat.le_of_not_lt hnlt⟩
        have still (n : Nat) (hn : some least = some n) :
            0 < n ∧ ∃ e ∈ es ++ [(w, v)], e.1.entropy = n := by
          obtain ⟨hn0, e, he, hen⟩ := h.attained n (hleast.trans hn)
          exact ⟨hn0, e, List.mem_append_left _ he, hen⟩
        split
        · next heq =>
          refine ⟨?_, kept, still⟩
          rw [h.holders, hleast, List.filter_append, List.filter_cons_of_pos (by simp [heq])]
          simp
        · next hne =>
          refine ⟨?_, fun e he hepos => hleast ▸ kept e he hepos, fun n hn => still n (hleast ▸ hn)⟩
          have hnot : l.entropy ≠ some w.entropy := by
            rw [hleast]
            intro he
            exact hne (Option.some.inj he).symm
          rw [h.holders, List.filter_append, List.filter_cons_of_neg (by simpa using hnot)]
          simp

theorem LowestOf.foldl {done : List (Wave × Nat)} {l : Lowest} (h : LowestOf done l)
    (es : List (Wave × Nat)) :
    LowestOf (done ++ es) (es.foldl (fun (l : Lowest) (w, v) => l.meet v w.entropy) l) := by
  induction es generalizing done l with
  | nil => rwa [List.append_nil]
  | cons e es ih => simpa using ih (h.meet e.1 e.2)

theorem mem_zipIdx_waves {ws : Array Wave} {w : Wave} {v : Nat} :
    (w, v) ∈ ws.toList.zipIdx ↔ v < ws.size ∧ waveAt ws v = w := by
  rw [List.mem_zipIdx_iff_getElem?, Array.getElem?_toList]
  constructor
  · intro h
    obtain ⟨hv, hw⟩ := Array.getElem?_eq_some_iff.mp h
    exact ⟨hv, (waveAt_eq_getElem hv).trans hw⟩
  · rintro ⟨hv, rfl⟩
    rw [waveAt_eq_getElem hv]
    exact Array.getElem?_eq_getElem hv

/-- What the pass over a whole vector knows. -/
theorem lowestOf_waves (ws : Array Wave) : LowestOf ws.toList.zipIdx
    (ws.toList.zipIdx.foldl (fun (l : Lowest) (w, v) => l.meet v w.entropy) {}) := by
  have hstart : LowestOf [] {} := ⟨rfl, by simp, by simp⟩
  exact hstart.foldl ws.toList.zipIdx

/-- **The candidates are the variables with the least positive entropy.** -/
theorem mem_lowestCandidates {ws : Array Wave} {v : Nat} : v ∈ lowestCandidates ws ↔
    v < ws.size ∧ 0 < (waveAt ws v).entropy ∧
      ∀ u < ws.size, 0 < (waveAt ws u).entropy → (waveAt ws v).entropy ≤ (waveAt ws u).entropy := by
  have h := lowestOf_waves ws
  unfold lowestCandidates
  generalize ws.toList.zipIdx.foldl _ _ = l at h ⊢
  rw [h.holders, List.reverse_reverse, List.mem_map]
  constructor
  · rintro ⟨⟨w, i⟩, he, rfl⟩
    obtain ⟨he, hd⟩ := List.mem_filter.mp he
    have hl := of_decide_eq_true hd
    obtain ⟨hi, rfl⟩ := mem_zipIdx_waves.mp he
    refine ⟨hi, (h.attained _ hl).1, fun u hu hpos => ?_⟩
    obtain ⟨n, hn, hle⟩ := h.least _ (mem_zipIdx_waves.mpr ⟨hu, rfl⟩) hpos
    cases Option.some.inj (hl.symm.trans hn)
    exact hle
  · rintro ⟨hv, hpos, hmin⟩
    obtain ⟨n, hn, hle⟩ := h.least _ (mem_zipIdx_waves.mpr ⟨hv, rfl⟩) hpos
    obtain ⟨hn0, ⟨w, u⟩, he, rfl⟩ := h.attained n hn
    obtain ⟨hu, rfl⟩ := mem_zipIdx_waves.mp he
    have heq : (waveAt ws u).entropy = (waveAt ws v).entropy :=
      Nat.le_antisymm hle (hmin u hu hn0)
    refine ⟨(waveAt ws v, v), List.mem_filter.mpr ⟨mem_zipIdx_waves.mpr ⟨hv, rfl⟩, ?_⟩, rfl⟩
    rw [hn, heq]
    exact decide_eq_true rfl

/-- The candidates come in ascending order, each once. -/
theorem lowestCandidates_increasing (ws : Array Wave) :
    (lowestCandidates ws).Pairwise (· < ·) := by
  have h := lowestOf_waves ws
  unfold lowestCandidates
  generalize ws.toList.zipIdx.foldl _ _ = l at h ⊢
  rw [h.holders, List.reverse_reverse]
  -- the holders are some of the variables that the pass has gone through
  have hplaces : (ws.toList.zipIdx.map (·.2)).Pairwise (· < ·) := by
    rw [List.zipIdx_map_snd]
    exact List.pairwise_lt_range'
  exact hplaces.sublist (List.filter_sublist.map _)

/-- Where some wave is ambiguous there is a candidate. -/
theorem exists_lowestCandidate {ws : Array Wave} {v : Nat} (hv : v < ws.size)
    (hpos : 0 < (waveAt ws v).entropy) : ∃ u, u ∈ lowestCandidates ws := by
  have h := lowestOf_waves ws
  obtain ⟨n, hn, -⟩ := h.least _ (mem_zipIdx_waves.mpr ⟨hv, rfl⟩) hpos
  obtain ⟨hn0, ⟨w, u⟩, he, hu⟩ := h.attained n hn
  obtain ⟨hlt, rfl⟩ := mem_zipIdx_waves.mp he
  refine ⟨u, mem_lowestCandidates.mpr ⟨hlt, hu ▸ hn0, fun i hi hi0 => ?_⟩⟩
  obtain ⟨m, hm, hle⟩ := h.least _ (mem_zipIdx_waves.mpr ⟨hi, rfl⟩) hi0
  cases Option.some.inj (hn.symm.trans hm)
  exact hu ▸ hle

/-! ## Selecting -/

section Select
variable {ρ : Type} [PickSource ρ] {strategy : Selection} {ws : Array Wave} {source rest : ρ}

theorem select_some {v : Nat} (h : select strategy ws source = (some v, rest)) :
    v ∈ lowestCandidates ws := by
  unfold select at h
  split at h
  · exact List.mem_of_head? (congrArg Prod.fst h)
  · exact PickSource.mem_of_choose h

theorem select_none (h : select strategy ws source = (none, rest)) :
    ∀ v < ws.size, (waveAt ws v).entropy = 0 := by
  intro v hv
  refine Nat.eq_zero_of_not_pos fun hpos => ?_
  obtain ⟨u, hu⟩ := exists_lowestCandidate hv hpos
  unfold select at h
  split at h
  · rw [List.head?_eq_none_iff.mp (congrArg Prod.fst h)] at hu
    cases hu
  · obtain ⟨x, -, r, hx⟩ := @PickSource.choose_isSome _ _ _ source _ (List.ne_nil_of_mem hu)
    rw [hx] at h
    cases h

/-- **Nothing is selected exactly when every wave is resolved or empty.** -/
theorem select_eq_none_iff : (select strategy ws source).1 = none ↔
    ∀ v < ws.size, (waveAt ws v).isResolved = true ∨ (waveAt ws v).isEmpty = true := by
  simp only [← Wave.entropy_eq_zero_iff]
  cases hselect : select strategy ws source with
  | mk selected rest =>
    cases selected with
    | none => simpa using select_none hselect
    | some v =>
      obtain ⟨hv, hpos, -⟩ := mem_lowestCandidates.mp (select_some hselect)
      simp only [reduceCtorEq, false_iff]
      intro hclear
      have := hclear v hv
      omega

/-- The first candidate is the least one, and taking it draws no pick. -/
theorem select_firstMinimum (ws : Array Wave) (source : ρ) :
    (select .firstMinimum ws source).2 = source ∧ ∀ v,
      (select .firstMinimum ws source).1 = some v ↔
        v ∈ lowestCandidates ws ∧ ∀ u ∈ lowestCandidates ws, v ≤ u := by
  refine ⟨rfl, fun v => ?_⟩
  have hsorted := lowestCandidates_increasing ws
  show (lowestCandidates ws).head? = some v ↔ _
  cases hc : lowestCandidates ws with
  | nil => simp
  | cons w rest =>
    rw [hc, List.pairwise_cons] at hsorted
    rw [List.head?_cons, Option.some.injEq]
    constructor
    · rintro rfl
      refine ⟨List.mem_cons_self, fun u hu => ?_⟩
      rcases List.mem_cons.mp hu with rfl | hu
      · exact Nat.le_refl _
      · exact Nat.le_of_lt (hsorted.1 u hu)
    · rintro ⟨hv, hleast⟩
      have hle := hleast w List.mem_cons_self
      rcases List.mem_cons.mp hv with rfl | hv
      · rfl
      · have := hsorted.1 v hv
        omega

end Select

end WaveCollapse
