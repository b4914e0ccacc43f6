import WaveCollapse.Proofs.Registry

/-! # The numbering of modules

Positions are counted class by class while the declarations are read, but how far apart the
classes start is known only when all are: the distance is the size of the largest class.
`enroll_states` follows one class through the declarations, whatever stands between its modules;
as no class is larger than the distance, the states of two classes never meet.  `Registry.Numbers`
collects what this makes of a registry, and `register_numbers` says when there is one.
-/

namespace WaveCollapse.Registry

/-! ## The states of one class -/

/-- The modules of a class are numbered one after the other, from the count before them on; by
induction on the declarations, in which one of another class changes neither. -/
theorem enroll_states (stride : Nat) (modules : List (String × Nat)) (before : Array Nat) (c : Nat)
    (hsize : ∀ m ∈ modules, m.2 < before.size) :
    ((enroll stride before modules).filter (·.classId == c)).map (·.state) =
      List.range' (c * stride + before.getD c 0) (modules.countP (·.2 == c)) := by
  induction modules generalizing before with
  | nil => rfl
  | cons m modules ih =>
    obtain ⟨name, d⟩ := m
    have hd : d < before.size := hsize (name, d) List.mem_cons_self
    have hrest : ∀ m ∈ modules, m.2 < (before.modify d (· + 1)).size := by
      intro m hm
      rw [Array.size_modify]
      exact hsize m (List.mem_cons_of_mem _ hm)
    unfold enroll
    by_cases hcd : d = c
    · subst hcd
      have hcount : (before.modify d (· + 1)).getD d 0 = before.getD d 0 + 1 := by
        simp [Array.getD, hd, Array.getElem_modify]
      rw [List.filter_cons_of_pos (by simp), List.map_cons, ih _ hrest, hcount,
        List.countP_cons_of_pos (by simp), List.range'_succ]
      rfl
    · have hcount : (before.modify d (· + 1)).getD c 0 = before.getD c 0 := by
        simp [Array.getD, Array.getElem_modify, hcd]
      rw [List.filter_cons_of_neg (by simpa using hcd), ih _ hrest, hcount,
        List.countP_cons_of_neg (by simpa using hcd)]

/-- The modules stand in the order of their declarations, with their names and classes. -/
theorem enroll_declared (stride : Nat) (modules : List (String × Nat)) (before : Array Nat) :
    (enroll stride before modules).map (fun m => (m.name, m.classId)) = modules := by
  induction modules generalizing before with
  | nil => rfl
  | cons m modules ih => exact congrArg (_ :: ·) (ih _)

theorem foldl_max_eq_or_mem (xs : List Nat) (n : Nat) :
    xs.foldl max n = n ∨ xs.foldl max n ∈ xs := by
  induction xs generalizing n with
  | nil => exact .inl rfl
  | cons x xs ih =>
    rw [List.foldl_cons]
    rcases ih (max n x) with h | h
    · rw [h]
      rcases Nat.le_total n x with hle | hle
      · rw [Nat.max_eq_right hle]
        exact .inr List.mem_cons_self
      · exact .inl (Nat.max_eq_left hle)
    · exact .inr (List.mem_cons_of_mem _ h)

/-- The largest class is one of the classes. -/
theorem exists_largest (sizes : Array Nat) : ∃ c, sizes.getD c 0 = largest sizes := by
  have hlargest : largest sizes = sizes.toList.foldl max 0 := by
    unfold largest
    rw [← Array.foldl_toList]
  rcases foldl_max_eq_or_mem sizes.toList 0 with h | h
  · exact ⟨0, Nat.le_antisymm (getD_le_largest sizes 0) (by rw [hlargest, h]; exact Nat.zero_le _)⟩
  · obtain ⟨c, hc⟩ := List.mem_iff_getElem?.mp h
    refine ⟨c, ?_⟩
    rw [Array.getD_eq_getD_getElem?, ← Array.getElem?_toList, hc, hlargest]
    rfl

/-! ## The numbering -/

/-- The registry is a faithful numbering of the declared modules. -/
structure Numbers (modules : List (String × Nat)) (r : Registry) : Prop where
  /-- The modules are those that were declared, in that order. -/
  declared : r.modules.map (fun m => (m.name, m.classId)) = modules
  /-- The size of a class counts its declarations. -/
  sizes : ∀ c, r.classSize c = modules.countP (·.2 == c)
  /-- The stride is the size of the largest class. -/
  largest : (∀ c, r.classSize c ≤ r.stride) ∧ ∃ c, r.classSize c = r.stride
  /-- The states of a class follow one another, in the order of its declarations. -/
  states : ∀ c, (r.modules.filter (·.classId == c)).map (·.state) =
    List.range' (c * r.stride) (r.classSize c)
  /-- Names and states determine each other. -/
  inverse : ∀ name p, r.stateOf name = some p ↔ r.nameOf p = some name
  /-- The declared names have a state, and no others. -/
  named : ∀ name, (∃ p, r.stateOf name = some p) ↔ name ∈ modules.map (·.1)
  /-- The states of the modules have a module, and no others. -/
  registered : ∀ p, (r.moduleOf p = none ↔ p ∉ r.modules.map (·.state)) ∧
    ∀ m, r.moduleOf p = some m ↔ m ∈ r.modules ∧ m.state = p
  /-- A registered state lies in the stretch of its class, and of no other. -/
  stretch : ∀ p m, r.moduleOf p = some m → ∀ c,
    c * r.stride ≤ p ∧ p < c * r.stride + r.classSize c ↔ c = m.classId
  /-- All states lie in the state space. -/
  space : ∀ m ∈ r.modules, m.state < r.stateSpace

/-- The duals pair the types when each has one, and that leads back to it. -/
theorem paired_iff {n : Nat} {duals : List Nat} (hlength : duals.length = n) :
    (∀ t < n, (duals.toArray[t]?.bind (duals.toArray[·]?)) = some t) ↔
      ∀ t < n, ∃ d < n, duals[t]? = some d ∧ duals[d]? = some t := by
  refine forall₂_congr fun t ht => ?_
  rw [Option.bind_eq_some_iff]
  constructor
  · rintro ⟨d, hd, hback⟩
    rw [List.getElem?_toArray] at hd hback
    exact ⟨d, hlength ▸ (List.getElem?_eq_some_iff.mp hback).1, hd, hback⟩
  · rintro ⟨d, -, hd, hback⟩
    rw [← List.getElem?_toArray] at hd hback
    exact ⟨d, hd, hback⟩

theorem numbers_of_register {types : List String} {duals : List Nat}
    {modules : List (String × Nat)} {r : Registry} (h : register types duals modules = .ok r) :
    r.Numbers modules := by
  have hlawful := lawful_of_register h
  have hr : r.modules = enroll r.stride (Array.replicate (tally modules).size 0) modules := by
    obtain ⟨-, -, -, -, -, -, rfl⟩ := register_eq_ok_iff.mp h
    rfl
  refine ⟨?_, classSize_of_register h, ⟨r.classSize_le_stride, exists_largest r.classSizes⟩, ?_,
    fun name p => hlawful.nameOf_eq_some_iff_stateOf.symm, ?_, ?_, ?_,
    fun m => hlawful.state_lt_stateSpace⟩
  · rw [hr]
    exact enroll_declared _ _ _
  · intro c
    rw [hr, enroll_states _ _ _ _ fun m hm => ?_, classSize_of_register h]
    · congr 1
      simp [Array.getD]
    · rw [Array.size_replicate]
      exact lt_size_tally hm
  · intro name
    rw [← names_of_register h, List.mem_map]
    constructor
    · rintro ⟨p, hp⟩
      obtain ⟨m, hm, -, hname⟩ := hlawful.stateOf_eq_some_iff.mp hp
      exact ⟨m, hm, hname⟩
    · rintro ⟨m, hm, hname⟩
      exact ⟨m.state, hlawful.stateOf_eq_some_iff.mpr ⟨m, hm, rfl, hname⟩⟩
  · intro p
    refine ⟨?_, fun m => hlawful.moduleOf_eq_some_iff⟩
    rw [Option.eq_none_iff_forall_ne_some, List.mem_map]
    constructor
    · rintro hnone ⟨m, hm, hp⟩
      exact hnone m (hlawful.moduleOf_eq_some_iff.mpr ⟨hm, hp⟩)
    · intro hfree m hm
      exact hfree ⟨m, hlawful.moduleOf_eq_some_iff.mp hm⟩
  · intro p m hm c
    refine Iff.trans (Layout.mem_states (l := ⟨c, r.stride, r.classSize c⟩)).symm ?_
    rw [hlawful.mem_states_iff]
    constructor
    · rintro ⟨m', hm', rfl, hp⟩
      cases hm.symm.trans (hlawful.moduleOf_eq_some_iff.mpr ⟨hm', hp⟩)
      rfl
    · rintro rfl
      obtain ⟨hmem, hp⟩ := hlawful.moduleOf_eq_some_iff.mp hm
      exact ⟨m, hmem, rfl, hp⟩

/-- **The registry is a faithful numbering.**  There is one exactly when there are types and
modules, every type has a dual that leads back to it, names differ and classes fit a wave; and then
the modules of class `c` have the states from `c * stride` on, in the order of their
declarations. -/
theorem register_numbers (types : List String) (duals : List Nat)
    (modules : List (String × Nat)) :
    ((∃ r, register types duals modules = .ok r) ↔
      types ≠ [] ∧ modules ≠ [] ∧ duals.length = types.length ∧
        (∀ t < types.length, ∃ d < types.length, duals[t]? = some d ∧ duals[d]? = some t) ∧
        (modules.map (·.1)).Nodup ∧ ∀ c, modules.countP (·.2 == c) ≤ 64) ∧
    ∀ r, register types duals modules = .ok r → r.Numbers modules := by
  refine ⟨?_, fun r => numbers_of_register⟩
  constructor
  · rintro ⟨r, h⟩
    obtain ⟨htypes, hmodules, hpaired, hlength, hroom, hnames, -⟩ := register_eq_ok_iff.mp h
    exact ⟨htypes, hmodules, hlength, (paired_iff hlength).mp hpaired, hnames, hroom⟩
  · rintro ⟨htypes, hmodules, hlength, hpaired, hnames, hroom⟩
    exact ⟨_, register_eq_ok_iff.mpr ⟨htypes, hmodules, (paired_iff hlength).mpr hpaired, hlength,
      hroom, hnames, rfl⟩⟩

/-- Two classes that are interleaved, and two that are not used in between. -/
theorem register_numbers_gap :
    let modules := [("grass", 0), ("door", 3), ("water", 0), ("window", 3), ("sand", 0)]
    let r : Registry := {
      modules := [⟨"grass", 0, 0⟩, ⟨"door", 3, 9⟩, ⟨"water", 0, 1⟩, ⟨"window", 3, 10⟩, ⟨"sand", 0, 2⟩]
      classSizes := #[3, 0, 0, 2], types := ["road", "rail"], duals := #[1, 0] }
    register ["road", "rail"] [1, 0] modules = .ok r ∧ r.Numbers modules ∧
      r.stateOf "window" = some 10 ∧ r.nameOf 10 = some "window" ∧ r.moduleOf 11 = none ∧
      (∀ t < 2, ∃ d < 2, [1, 0][t]? = some d ∧ [1, 0][d]? = some t) := by
  intro modules r
  have hok : register ["road", "rail"] [1, 0] modules = .ok r := by decide
  obtain ⟨hiff, hnumbers⟩ := register_numbers ["road", "rail"] [1, 0] modules
  obtain ⟨-, -, -, hpaired, -⟩ := hiff.mp ⟨r, hok⟩
  have hwindow : r.stateOf "window" = some 10 := by decide
  exact ⟨hok, hnumbers r hok, hwindow, ((hnumbers r hok).inverse _ _).mp hwindow, by decide,
    hpaired⟩

end WaveCollapse.Registry
