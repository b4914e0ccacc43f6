import Mathlib.Data.List.Nodup
import WaveCollapse.Proofs.Except
import WaveCollapse.Proofs.Wave.Members
import WaveCollapse.Registry

/-! # What a registry is

`register` succeeds for names that differ, types that are paired and classes that fit a wave
(`register_eq_ok_iff`).  The module declared at place `i` then has the state at the offset that
counts the modules of its class before it (`modules_of_register`), so states and names
determine each other, and every offset below the size of a class belongs to some module.
-/

namespace WaveCollapse

/-! ## Counting through a list -/

section Counting
variable {α : Type} {p : α → Bool} {l : List α}

/-- Counting up to `n` comes to a place where the next element counts. -/
theorem exists_countP_take_eq {n : Nat} (h : n < l.countP p) :
    ∃ i, ∃ a, l[i]? = some a ∧ p a = true ∧ (l.take i).countP p = n := by
  induction l generalizing n with
  | nil => cases h
  | cons b l ih =>
    by_cases hb : p b = true
    · rw [List.countP_cons_of_pos hb] at h
      cases n with
      | zero => exact ⟨0, b, rfl, hb, rfl⟩
      | succ n =>
        obtain ⟨i, a, ha, hp, hcount⟩ := ih (Nat.lt_of_succ_lt_succ h)
        refine ⟨i + 1, a, ha, hp, ?_⟩
        rw [List.take_succ_cons, List.countP_cons_of_pos hb, hcount]
    · rw [List.countP_cons_of_neg hb] at h
      obtain ⟨i, a, ha, hp, hcount⟩ := ih h
      refine ⟨i + 1, a, ha, hp, ?_⟩
      rw [List.take_succ_cons, List.countP_cons_of_neg hb, hcount]

/-- Past an element that counts, more has been counted. -/
theorem countP_take_lt {i j : Nat} {a : α} (ha : l[i]? = some a) (hp : p a = true) (hij : i < j) :
    (l.take i).countP p < (l.take j).countP p := by
  obtain ⟨hi, rfl⟩ := List.getElem?_eq_some_iff.mp ha
  have hnext : (l.take (i + 1)).countP p = (l.take i).countP p + 1 := by
    rw [List.take_succ_eq_append_getElem hi, List.countP_append]
    simp [hp]
  have hmono : (l.take (i + 1)).countP p ≤ (l.take j).countP p :=
    (List.take_sublist_take_left hij).countP_le
  omega

theorem countP_take_lt_countP {i : Nat} {a : α} (ha : l[i]? = some a) (hp : p a = true) :
    (l.take i).countP p < l.countP p := by
  have hi : i < l.length := (List.getElem?_eq_some_iff.mp ha).1
  have h := countP_take_lt ha hp hi
  rwa [List.take_length] at h

end Counting

namespace Registry

/-! ## The parts of a registration -/

theorem getD_foldl_modify (modules : List (String × Nat)) (sizes : Array Nat) {c : Nat}
    (hc : c < sizes.size) :
    (modules.foldl (fun sizes m => sizes.modify m.2 (· + 1)) sizes).getD c 0 =
      sizes.getD c 0 + modules.countP (·.2 == c) := by
  induction modules generalizing sizes with
  | nil => rfl
  | cons m modules ih =>
    rw [List.foldl_cons, ih _ (by rwa [Array.size_modify])]
    by_cases hm : m.2 = c
    · subst hm
      rw [List.countP_cons_of_pos (p := fun a : String × Nat => a.2 == m.2)
        (beq_self_eq_true m.2)]
      simp [Array.getD, hc, Array.getElem_modify]
      omega
    · rw [List.countP_cons_of_neg (by simpa using hm)]
      simp [Array.getD, hc, Array.getElem_modify, hm]

theorem size_foldl_modify (modules : List (String × Nat)) (sizes : Array Nat) :
    (modules.foldl (fun sizes m => sizes.modify m.2 (· + 1)) sizes).size = sizes.size := by
  induction modules generalizing sizes with
  | nil => rfl
  | cons m modules ih => rw [List.foldl_cons, ih, Array.size_modify]

/-- The greatest value of a function over a list, found by a fold. -/
theorem foldl_max_ge {α : Type} (f : α → Nat) (xs : List α) (n : Nat) :
    n ≤ xs.foldl (fun n x => max n (f x)) n ∧
      ∀ x ∈ xs, f x ≤ xs.foldl (fun n x => max n (f x)) n := by
  induction xs generalizing n with
  | nil => exact ⟨Nat.le_refl n, fun x hx => nomatch hx⟩
  | cons a xs ih =>
    obtain ⟨hle, hall⟩ := ih (max n (f a))
    refine ⟨Nat.le_trans (Nat.le_max_left _ _) hle, fun x hx => ?_⟩
    rcases List.mem_cons.mp hx with rfl | hx
    · exact Nat.le_trans (Nat.le_max_right n (f x)) hle
    · exact hall x hx

theorem lt_size_tally {modules : List (String × Nat)} {m : String × Nat} (hm : m ∈ modules) :
    m.2 < (tally modules).size := by
  unfold tally
  rw [size_foldl_modify, Array.size_replicate]
  exact (foldl_max_ge (fun m : String × Nat => m.2 + 1) modules 0).2 m hm

/-- The size of a class is the number of its modules. -/
theorem tally_getD (modules : List (String × Nat)) (c : Nat) :
    (tally modules).getD c 0 = modules.countP (·.2 == c) := by
  by_cases hc : c < (tally modules).size
  · unfold tally at hc ⊢
    rw [size_foldl_modify, Array.size_replicate] at hc
    rw [getD_foldl_modify _ _ (by rwa [Array.size_replicate])]
    simp [Array.getD, hc]
  · have hnone : modules.countP (·.2 == c) = 0 := by
      rw [List.countP_eq_zero]
      intro m hm hmc
      exact hc (eq_of_beq hmc ▸ lt_size_tally hm)
    rw [hnone]
    simp [Array.getD, hc]

theorem getD_le_largest (sizes : Array Nat) (c : Nat) : sizes.getD c 0 ≤ largest sizes := by
  rw [Array.getD_eq_getD_getElem?]
  by_cases hc : c < sizes.size
  · rw [Array.getElem?_eq_getElem hc]
    unfold largest
    rw [← Array.foldl_toList]
    exact (foldl_max_ge id sizes.toList 0).2 _ (Array.getElem_mem_toList hc)
  · rw [Array.getElem?_eq_none (Nat.not_lt.mp hc)]
    exact Nat.zero_le _

/-- The module at place `i` gets the offset after the modules of its class before it. -/
theorem enroll_getElem? (stride : Nat) (modules : List (String × Nat)) (before : Array Nat)
    (hsize : ∀ m ∈ modules, m.2 < before.size) (i : Nat) :
    (enroll stride before modules)[i]? = modules[i]?.map fun m =>
      ⟨m.1, m.2, m.2 * stride + (before.getD m.2 0 + (modules.take i).countP (·.2 == m.2))⟩ := by
  induction modules generalizing before i with
  | nil => rfl
  | cons a modules ih =>
    obtain ⟨name, c⟩ := a
    have hc : c < before.size := hsize (name, c) List.mem_cons_self
    cases i with
    | zero => rfl
    | succ i =>
      unfold enroll
      rw [List.getElem?_cons_succ, List.getElem?_cons_succ, ih]
      · cases hm : modules[i]? with
        | none => rfl
        | some m =>
          have hmc : m.2 < before.size :=
            hsize m (List.mem_cons_of_mem _ (List.mem_of_getElem? hm))
          simp only [Option.map_some, List.take_succ_cons]
          -- the module enrolled first counts for those of its own class
          by_cases hcm : c = m.2
          · rw [List.countP_cons_of_pos (p := fun a : String × Nat => a.2 == m.2)
              (beq_iff_eq.mpr hcm)]
            simp [Array.getD, hmc, Array.getElem_modify, hcm]
            omega
          · rw [List.countP_cons_of_neg (by simpa using hcm)]
            simp [Array.getD, hmc, Array.getElem_modify, hcm]
      · intro m hm
        rw [Array.size_modify]
        exact hsize m (List.mem_cons_of_mem _ hm)

theorem firstUnpaired_eq_none_iff {n : Nat} {duals : Array Nat} :
    firstUnpaired n duals = none ↔ ∀ t < n, (duals[t]?.bind (duals[·]?)) = some t := by
  unfold firstUnpaired
  simp [List.find?_eq_none]

/-- No module is the first too many of its class exactly when all classes fit a wave. -/
theorem crowded_eq_none_iff {modules : List (String × Nat)} :
    crowded modules = none ↔ ∀ c, modules.countP (·.2 == c) ≤ maxWidth := by
  unfold crowded
  rw [List.find?_eq_none]
  constructor
  · intro h c
    refine Nat.not_lt.mp fun hover => ?_
    -- in a class that is too large some module comes after a full wave of others
    obtain ⟨i, m, hm, hmc, hcount⟩ := exists_countP_take_eq hover
    have hi : i < modules.length := (List.getElem?_eq_some_iff.mp hm).1
    refine h i (List.mem_range.mpr hi) ?_
    rw [hm]
    have hc : m.2 = c := eq_of_beq hmc
    simp only [hc, hcount, decide_eq_true_eq]
    exact Nat.le_refl _
  · intro h i hi hfound
    split at hfound
    · next name c hm =>
      have hlt := countP_take_lt_countP (p := (·.2 == c)) hm (beq_self_eq_true c)
      exact absurd (of_decide_eq_true hfound) (Nat.not_le_of_lt (Nat.lt_of_lt_of_le hlt (h c)))
    · cases hfound

/-- A name is among those before its place when one of them is the same. -/
theorem contains_take_iff {names : List String} {j : Nat} (hj : j < names.length) :
    (match names[j]? with
      | some n => (names.take j).contains n
      | none => false) = true ↔ ∃ i, ∃ _ : i < j, names[i]? = names[j]? := by
  rw [List.getElem?_eq_getElem hj]
  simp only [List.contains_iff_mem, List.mem_iff_getElem?, List.getElem?_take]
  constructor
  · rintro ⟨i, hi⟩
    split at hi
    · next hij => exact ⟨i, hij, hi⟩
    · cases hi
  · rintro ⟨i, hij, hi⟩
    exact ⟨i, by rw [if_pos hij, hi]⟩

/-- No name occurred before exactly when the names differ. -/
theorem firstRepeated_eq_none_iff {names : List String} :
    firstRepeated names = none ↔ names.Nodup := by
  unfold firstRepeated
  rw [List.nodup_iff_getElem?_ne_getElem?]
  constructor
  · intro h i j hij hj heq
    generalize hfind : List.find? _ (List.range names.length) = found at h
    cases found with
    | none =>
      exact List.find?_eq_none.mp hfind j (List.mem_range.mpr hj) ((contains_take_iff hj).mpr ⟨i, hij, heq⟩)
    | some k =>
      have hk := List.mem_range.mp (List.mem_of_find?_eq_some hfind)
      rw [Option.bind_some, List.getElem?_eq_getElem hk] at h
      cases h
  · intro h
    rw [List.find?_eq_none.mpr]
    · rfl
    · intro j hj hfound
      have hj' := List.mem_range.mp hj
      obtain ⟨i, hij, heq⟩ := (contains_take_iff hj').mp hfound
      exact h i j hij hj' heq

/-! ## Registering -/

/-- **When modules are registered, and as what.** -/
theorem register_eq_ok_iff {types : List String} {duals : List Nat}
    {modules : List (String × Nat)} {r : Registry} :
    register types duals modules = .ok r ↔
      types ≠ [] ∧ modules ≠ [] ∧
        (∀ t < types.length, (duals.toArray[t]?.bind (duals.toArray[·]?)) = some t) ∧
        duals.length = types.length ∧ (∀ c, modules.countP (·.2 == c) ≤ maxWidth) ∧
        (modules.map (·.1)).Nodup ∧
        r = { modules := enroll (largest (tally modules))
                (Array.replicate (tally modules).size 0) modules
              classSizes := tally modules, types, duals := duals.toArray } := by
  rw [← firstUnpaired_eq_none_iff, ← crowded_eq_none_iff, ← firstRepeated_eq_none_iff]
  unfold register
  simp only [List.isEmpty_iff, List.size_toArray]
  by_cases htypes : types = []
  · simp [htypes]
  by_cases hmodules : modules = []
  · simp [htypes, hmodules]
  rw [if_neg htypes, if_neg hmodules]
  cases hpaired : firstUnpaired types.length duals.toArray with
  | some t => simp
  | none =>
    by_cases hlength : duals.length = types.length
    · rw [if_neg (not_not_intro hlength)]
      cases hcrowded : crowded modules with
      | some i =>
        -- the place of a crowded class is one in the list, so its module is there to be named
        have hi : i < modules.length := by
          have hmem := List.mem_of_find?_eq_some hcrowded
          exact List.mem_range.mp hmem
        simp [List.getElem?_eq_getElem hi]
      | none =>
        cases hrepeated : firstRepeated (modules.map (·.1)) with
        | some name => simp
        | none => simp [htypes, hmodules, hlength, eq_comm]
    · simp [hlength]

/-- What holds of every registry that was made by registering modules. -/
structure Lawful (r : Registry) : Prop where
  /-- Every type has a dual that leads back to it. -/
  paired : ∀ t < r.typeCount, (r.duals[t]?.bind (r.duals[·]?)) = some t
  /-- Every type has a dual, and nothing else has. -/
  duals_size : r.duals.size = r.typeCount
  /-- Every class fits a wave. -/
  room : ∀ c, r.classSize c ≤ maxWidth
  /-- Modules differ in their names. -/
  names : (r.modules.map (·.name)).Nodup
  /-- Modules differ in their states. -/
  states : (r.modules.map (·.state)).Nodup
  /-- A module lies within the stretch of its class. -/
  offset : ∀ m ∈ r.modules, ∃ k < r.classSize m.classId, m.state = m.classId * r.stride + k
  /-- Every offset of a class belongs to a module. -/
  full : ∀ c, ∀ k < r.classSize c,
    ∃ m ∈ r.modules, m.classId = c ∧ m.state = c * r.stride + k

theorem classSize_le_stride (r : Registry) (c : Nat) : r.classSize c ≤ r.stride :=
  getD_le_largest r.classSizes c

/-- The place of a number in the stretches of all classes. -/
theorem eq_of_offset_eq {c d k j stride : Nat} (hk : k < stride) (hj : j < stride)
    (h : c * stride + k = d * stride + j) : c = d ∧ k = j := by
  have hpos : 0 < stride := Nat.zero_lt_of_lt hk
  have hdiv : c = d := by
    have := congrArg (· / stride) h
    simpa [Nat.mul_add_div, Nat.mul_comm _ stride, Nat.div_eq_of_lt hk, Nat.div_eq_of_lt hj,
      Nat.mul_add_div hpos] using this
  subst hdiv
  exact ⟨rfl, Nat.add_left_cancel h⟩

section Registered
variable {types : List String} {duals : List Nat} {modules : List (String × Nat)} {r : Registry}
  (h : register types duals modules = .ok r)
include h

theorem classSize_of_register (c : Nat) : r.classSize c = modules.countP (·.2 == c) := by
  obtain ⟨-, -, -, -, -, -, rfl⟩ := register_eq_ok_iff.mp h
  exact tally_getD modules c

theorem typeCount_pos_of_register : 0 < r.typeCount := by
  obtain ⟨htypes, -, -, -, -, -, rfl⟩ := register_eq_ok_iff.mp h
  exact List.length_pos_iff.mpr htypes

theorem modules_of_register (i : Nat) : r.modules[i]? = modules[i]?.map fun m =>
    ⟨m.1, m.2, m.2 * r.stride + (modules.take i).countP (·.2 == m.2)⟩ := by
  obtain ⟨-, -, -, -, -, -, rfl⟩ := register_eq_ok_iff.mp h
  refine (enroll_getElem? _ modules _ (fun m hm => ?_) i).trans ?_
  · rw [Array.size_replicate]
    exact lt_size_tally hm
  · congr 1
    funext m
    simp [Array.getD, stride]

/-- A module comes from the declaration at its place. -/
theorem declared_of_register {i : Nat} {m : Module} (hm : r.modules[i]? = some m) :
    ∃ a, modules[i]? = some a ∧ m.name = a.1 ∧ m.classId = a.2 ∧
      m.state = a.2 * r.stride + (modules.take i).countP (·.2 == a.2) ∧
      (modules.take i).countP (·.2 == a.2) < r.classSize a.2 := by
  rw [modules_of_register h, Option.map_eq_some_iff] at hm
  obtain ⟨a, ha, rfl⟩ := hm
  refine ⟨a, ha, rfl, rfl, rfl, ?_⟩
  rw [classSize_of_register h]
  exact countP_take_lt_countP (p := (·.2 == a.2)) ha (beq_self_eq_true a.2)

theorem names_of_register : r.modules.map (·.name) = modules.map (·.1) := by
  refine List.ext_getElem? fun i => ?_
  rw [List.getElem?_map, List.getElem?_map, modules_of_register h, Option.map_map]
  rfl

theorem states_nodup_of_register : (r.modules.map (·.state)).Nodup := by
  rw [List.nodup_iff_getElem?_ne_getElem?]
  intro i j hij hj heq
  rw [List.length_map] at hj
  rw [List.getElem?_map, List.getElem?_map, List.getElem?_eq_getElem hj,
    List.getElem?_eq_getElem (Nat.lt_trans hij hj), Option.map_some, Option.map_some,
    Option.some.injEq] at heq
  obtain ⟨a, ha, -, -, hsa, hka⟩ :=
    declared_of_register h (List.getElem?_eq_getElem (Nat.lt_trans hij hj))
  obtain ⟨b, hb, -, -, hsb, hkb⟩ := declared_of_register h (List.getElem?_eq_getElem hj)
  rw [hsa, hsb] at heq
  obtain ⟨hclass, hcount⟩ := eq_of_offset_eq
    (Nat.lt_of_lt_of_le hka (r.classSize_le_stride _))
    (Nat.lt_of_lt_of_le hkb (r.classSize_le_stride _)) heq
  -- the earlier of two modules of one class has fewer before it
  have hless := countP_take_lt (p := (·.2 == a.2)) ha (beq_self_eq_true a.2) hij
  rw [hcount, ← hclass] at hless
  exact Nat.lt_irrefl _ hless

/-- **What registering makes is lawful.** -/
theorem lawful_of_register : r.Lawful := by
  obtain ⟨-, -, hpaired, hlength, hroom, hnames, hr⟩ := register_eq_ok_iff.mp h
  have htypes : r.types = types ∧ r.duals = duals.toArray := by
    rw [hr]
    exact ⟨rfl, rfl⟩
  refine ⟨?_, ?_, ?_, ?_, states_nodup_of_register h, ?_, ?_⟩
  · unfold typeCount
    rw [htypes.1, htypes.2]
    exact hpaired
  · unfold typeCount
    rw [htypes.1, htypes.2]
    exact hlength
  · intro c
    rw [classSize_of_register h]
    exact hroom c
  · rw [names_of_register h]
    exact hnames
  · intro m hm
    obtain ⟨i, hi⟩ := List.mem_iff_getElem?.mp hm
    obtain ⟨a, -, -, hclass, hstate, hlt⟩ := declared_of_register h hi
    exact ⟨_, hclass ▸ hlt, hclass ▸ hstate⟩
  · -- counting through the modules of a class comes to every offset
    intro c k hk
    rw [classSize_of_register h] at hk
    obtain ⟨i, a, ha, hac, hcount⟩ := exists_countP_take_eq hk
    have hc : a.2 = c := eq_of_beq hac
    have hi := modules_of_register h i
    rw [ha, Option.map_some, hc, hcount] at hi
    exact ⟨_, List.mem_of_getElem? hi, rfl, rfl⟩

end Registered

/-! ## Looking up -/

theorem lt_classCount_of_lt {r : Registry} {c k : Nat} (h : k < r.classSize c) :
    c < r.classCount := by
  by_contra hc
  unfold classSize at h
  rw [Array.getD_eq_getD_getElem?, Array.getElem?_eq_none (Nat.not_lt.mp hc)] at h
  cases h

namespace Lawful
variable {r : Registry} (h : r.Lawful)
include h

theorem moduleOf_eq_some_iff {p : Nat} {m : Module} :
    r.moduleOf p = some m ↔ m ∈ r.modules ∧ m.state = p := by
  constructor
  · intro hm
    exact ⟨List.mem_of_find?_eq_some hm,
      eq_of_beq (List.find?_some (p := fun a : Module => a.state == p) hm)⟩
  · rintro ⟨hm, rfl⟩
    exact find?_key h.states hm

theorem nameOf_eq_some_iff {p : Nat} {name : String} :
    r.nameOf p = some name ↔ ∃ m ∈ r.modules, m.state = p ∧ m.name = name := by
  unfold nameOf
  rw [Option.map_eq_some_iff]
  constructor
  · rintro ⟨m, hm, hname⟩
    obtain ⟨hmem, hstate⟩ := h.moduleOf_eq_some_iff.mp hm
    exact ⟨m, hmem, hstate, hname⟩
  · rintro ⟨m, hmem, hstate, hname⟩
    exact ⟨m, h.moduleOf_eq_some_iff.mpr ⟨hmem, hstate⟩, hname⟩

theorem stateOf_eq_some_iff {p : Nat} {name : String} :
    r.stateOf name = some p ↔ ∃ m ∈ r.modules, m.state = p ∧ m.name = name := by
  unfold stateOf
  rw [Option.map_eq_some_iff]
  constructor
  · rintro ⟨m, hm, hstate⟩
    exact ⟨m, List.mem_of_find?_eq_some hm, hstate,
      eq_of_beq (List.find?_some (p := fun a : Module => a.name == name) hm)⟩
  · rintro ⟨m, hmem, hstate, rfl⟩
    exact ⟨m, find?_key h.names hmem, hstate⟩

/-- Names and states determine each other. -/
theorem nameOf_eq_some_iff_stateOf {p : Nat} {name : String} :
    r.nameOf p = some name ↔ r.stateOf name = some p :=
  h.nameOf_eq_some_iff.trans h.stateOf_eq_some_iff.symm

theorem state_lt_stateSpace {m : Module} (hm : m ∈ r.modules) : m.state < r.stateSpace := by
  obtain ⟨k, hk, hstate⟩ := h.offset m hm
  have hc : m.classId + 1 ≤ r.classCount := lt_classCount_of_lt hk
  have hstretch : (m.classId + 1) * r.stride ≤ r.classCount * r.stride :=
    Nat.mul_le_mul_right _ hc
  have hfit := r.classSize_le_stride m.classId
  rw [Nat.succ_mul] at hstretch
  unfold stateSpace
  omega

/-- The layout that a class with modules has is valid. -/
theorem layout_valid {c : Nat} (hc : 0 < r.classSize c) :
    (Layout.mk c r.stride (r.classSize c)).Valid :=
  ⟨hc, h.room c, r.classSize_le_stride c⟩

/-- The states of a class are those of its modules. -/
theorem mem_states_iff {c p : Nat} : p ∈ (Layout.mk c r.stride (r.classSize c)).states ↔
    ∃ m ∈ r.modules, m.classId = c ∧ m.state = p := by
  rw [Layout.mem_states]
  constructor
  · rintro ⟨hle, hlt⟩
    have hk : p - c * r.stride < r.classSize c := Nat.sub_lt_left_of_lt_add hle hlt
    obtain ⟨m, hm, hclass, hstate⟩ := h.full c _ hk
    exact ⟨m, hm, hclass, hstate.trans (Nat.add_sub_cancel' hle)⟩
  · rintro ⟨m, hm, rfl, rfl⟩
    obtain ⟨k, hk, hstate⟩ := h.offset m hm
    rw [hstate]
    exact ⟨Nat.le_add_right _ _, Nat.add_lt_add_left hk _⟩

theorem dual_dual (t : Nat) : r.dual (r.dual t) = t := by
  unfold dual
  rw [Array.getD_eq_getD_getElem?, Array.getD_eq_getD_getElem?]
  by_cases ht : t < r.duals.size
  · have hback := h.paired t (h.duals_size ▸ ht)
    rw [Array.getElem?_eq_getElem ht] at hback ⊢
    rw [Option.bind_some] at hback
    rw [Option.getD_some, hback, Option.getD_some]
  · rw [Array.getElem?_eq_none (Nat.not_lt.mp ht), Option.getD_none,
      Array.getElem?_eq_none (Nat.not_lt.mp ht), Option.getD_none]

theorem dual_lt {t : Nat} (ht : t < r.typeCount) : r.dual t < r.typeCount := by
  have hback := h.paired t ht
  have hsize : t < r.duals.size := h.duals_size ▸ ht
  unfold dual
  rw [Array.getD_eq_getD_getElem?, ← h.duals_size]
  rw [Array.getElem?_eq_getElem hsize] at hback ⊢
  rw [Option.bind_some] at hback
  exact (Array.getElem?_eq_some_iff.mp hback).1

end Lawful
end Registry
end WaveCollapse
