import WaveCollapse.Proofs.Registry
import WaveCollapse.Proofs.Rules.Cached
import WaveCollapse.RuleFile.Basic

/-! # Rules over a registry

A table of neighbours allows what its tuples say, read from either end of the connection
(`AdjacencyTable.allows_iff`); a table of sockets allows what fits (`SocketTable.allows_iff`).
Both answer what their `allows` admits, and their classes are those of the registry, so a cache
under the registry's stride can always be filled.
-/

namespace WaveCollapse

/-! ## Neighbours -/

namespace NeighborTuple

theorem check_eq_ok_iff {r : Registry} {e : NeighborTuple} :
    check r e = .ok () ↔ (∃ m, r.moduleOf e.x = some m) ∧ (∃ m, r.moduleOf e.y = some m) ∧
      e.t < r.typeCount := by
  unfold check
  rw [← Option.isSome_iff_exists, ← Option.isSome_iff_exists]
  cases r.moduleOf e.x with
  | none => simp
  | some m =>
    cases r.moduleOf e.y with
    | none => simp
    | some m' =>
      by_cases ht : r.typeCount ≤ e.t
      · simp [ht]
      · simp [ht, Nat.lt_of_not_le ht]

end NeighborTuple

namespace AdjacencyTable

theorem cellIndex_eq (n : Nat) (e : NeighborTuple) :
    cellIndex n e = (e.t * n + e.x) * n + e.y := by
  unfold cellIndex
  rw [Nat.add_mul]

/-- No two tuples of states below `n` share a cell. -/
theorem cellIndex_inj {n : Nat} {e f : NeighborTuple} (hex : e.x < n) (hey : e.y < n)
    (hfx : f.x < n) (hfy : f.y < n) (h : cellIndex n e = cellIndex n f) : e = f := by
  rw [cellIndex_eq, cellIndex_eq] at h
  obtain ⟨hrow, hy⟩ := Registry.eq_of_offset_eq hey hfy h
  obtain ⟨ht, hx⟩ := Registry.eq_of_offset_eq hex hfx hrow
  cases e
  cases f
  cases ht
  cases hx
  cases hy
  rfl

theorem cellIndex_lt {n types : Nat} {e : NeighborTuple} (hx : e.x < n) (hy : e.y < n)
    (ht : e.t < types) : cellIndex n e < types * n * n := by
  rw [cellIndex_eq]
  have hrow : e.t * n + e.x < types * n := by
    have hle : (e.t + 1) * n ≤ types * n := Nat.mul_le_mul_right n ht
    rw [Nat.succ_mul] at hle
    omega
  have hle : (e.t * n + e.x + 1) * n ≤ types * n * n := Nat.mul_le_mul_right n hrow
  rw [Nat.succ_mul] at hle
  omega

theorem size_mark (n : Nat) (dual : Nat → Nat) (cells : Array Bool) (e : NeighborTuple) :
    (mark n dual cells e).size = cells.size := by
  unfold mark
  rw [Array.size_setIfInBounds, Array.size_setIfInBounds]

theorem getD_set_true {cells : Array Bool} {i j : Nat} (hi : i < cells.size) :
    (cells.setIfInBounds j true).getD i false = true ↔ cells.getD i false = true ∨ i = j := by
  rw [Array.getD_eq_getD_getElem?, Array.getD_eq_getD_getElem?, Array.getElem?_setIfInBounds]
  by_cases hij : j = i
  · subst hij
    simp [hi]
  · rw [if_neg hij, or_iff_left (Ne.symm hij)]

theorem getD_mark {n : Nat} {dual : Nat → Nat} {cells : Array Bool} {i : Nat}
    (hi : i < cells.size) (e : NeighborTuple) :
    (mark n dual cells e).getD i false = true ↔ cells.getD i false = true ∨
      i = cellIndex n e ∨ i = cellIndex n (e.flipped dual) := by
  unfold mark
  rw [getD_set_true (by rwa [Array.size_setIfInBounds]), getD_set_true hi, or_assoc]

/-- The cells that tuples mark. -/
theorem getD_foldl_mark {n : Nat} {dual : Nat → Nat} (tuples : List NeighborTuple)
    {cells : Array Bool} {i : Nat} (hi : i < cells.size) :
    (tuples.foldl (mark n dual) cells).getD i false = true ↔ cells.getD i false = true ∨
      ∃ e ∈ tuples, i = cellIndex n e ∨ i = cellIndex n (e.flipped dual) := by
  induction tuples generalizing cells with
  | nil => simp
  | cons e tuples ih =>
    rw [List.foldl_cons, ih (by rwa [size_mark]), getD_mark hi, or_assoc]
    simp only [List.mem_cons, exists_eq_or_imp]

variable {r : Registry} {tuples : List NeighborTuple} {table : AdjacencyTable}

theorem ofTuples_eq_ok_iff : ofTuples r tuples = .ok table ↔
    (∀ e ∈ tuples, NeighborTuple.check r e = .ok ()) ∧
      table = ⟨r.stateSpace, r.duals, r.classSizes, tuples.foldl (mark r.stateSpace r.dual)
        (Array.replicate (r.typeCount * r.stateSpace * r.stateSpace) false)⟩ := by
  unfold ofTuples cellsOf
  rw [← forM_eq_ok_iff]
  simp only [map_eq_ok_iff]
  constructor
  · rintro ⟨cells, ⟨u, hchecked, rfl⟩, rfl⟩
    exact ⟨hchecked, rfl⟩
  · rintro ⟨hchecked, rfl⟩
    exact ⟨_, ⟨(), hchecked, rfl⟩, rfl⟩

/-- **What a table allows: its tuples, seen from both ends.** -/
theorem allows_iff (hr : r.Lawful) (h : ofTuples r tuples = .ok table) (x t y : Nat) :
    table.allows x t y = true ↔
      ⟨x, y, t⟩ ∈ tuples ∨ t < r.typeCount ∧ ⟨y, x, r.dual t⟩ ∈ tuples := by
  obtain ⟨hchecked, rfl⟩ := ofTuples_eq_ok_iff.mp h
  have hrange : ∀ e ∈ tuples, e.x < r.stateSpace ∧ e.y < r.stateSpace ∧ e.t < r.typeCount := by
    intro e he
    obtain ⟨⟨m, hx⟩, ⟨m', hy⟩, ht⟩ := NeighborTuple.check_eq_ok_iff.mp (hchecked e he)
    obtain ⟨hm, hmx⟩ := hr.moduleOf_eq_some_iff.mp hx
    obtain ⟨hm', hmy⟩ := hr.moduleOf_eq_some_iff.mp hy
    exact ⟨hmx ▸ hr.state_lt_stateSpace hm, hmy ▸ hr.state_lt_stateSpace hm', ht⟩
  unfold allows
  dsimp only
  rw [hr.duals_size]
  by_cases hin : x < r.stateSpace ∧ y < r.stateSpace ∧ t < r.typeCount
  · obtain ⟨hx, hy, ht⟩ := hin
    have hi := cellIndex_lt (e := ⟨x, y, t⟩) hx hy ht
    rw [if_pos ⟨hx, hy, ht⟩, getD_foldl_mark _ (by rwa [Array.size_replicate])]
    rw [or_iff_right (by simp [Array.getD, hi])]
    constructor
    · rintro ⟨e, he, hcell | hcell⟩
      · obtain ⟨hex, hey, -⟩ := hrange e he
        exact .inl (cellIndex_inj hx hy hex hey hcell ▸ he)
      · obtain ⟨hex, hey, -⟩ := hrange e he
        have hflip := cellIndex_inj (f := e.flipped r.dual) hx hy hey hex hcell
        refine .inr ⟨ht, ?_⟩
        cases hflip
        rw [hr.dual_dual]
        exact he
    · rintro (he | ⟨-, he⟩)
      · exact ⟨_, he, .inl rfl⟩
      · refine ⟨_, he, .inr ?_⟩
        unfold NeighborTuple.flipped
        rw [hr.dual_dual]
  · -- beyond the table there is no cell, and no tuple either
    rw [if_neg hin]
    refine iff_of_false Bool.false_ne_true ?_
    rintro (he | ⟨ht, he⟩)
    · exact hin (hrange _ he)
    · obtain ⟨hy, hx, -⟩ := hrange _ he
      exact hin ⟨hx, hy, ht⟩

end AdjacencyTable

/-! ## Sockets -/

namespace SocketTable
variable {r : Registry} {entries : List (Nat × Sockets)} {table : SocketTable}

/-- Sockets fit when they are the same vector. -/
theorem allows_iff (s : SocketTable) (x t y : Nat) :
    s.allows x t y = true ↔ ∃ v, s.socket x t = some v ∧ s.socket y (s.dual t) = some v := by
  unfold allows
  constructor
  · intro h
    split at h
    · next mine theirs hmine htheirs =>
      have heq : mine = theirs := eq_of_beq h
      exact ⟨mine, hmine, heq ▸ htheirs⟩
    · cases h
  · rintro ⟨v, hmine, htheirs⟩
    rw [hmine, htheirs]
    exact beq_self_eq_true v

theorem of_ofEntries (h : ofEntries r entries = .ok table) :
    table.sockets = gather entries ∧ table.duals = r.duals ∧ table.classSizes = r.classSizes := by
  unfold ofEntries at h
  obtain ⟨dimension, -, rfl⟩ := map_eq_ok_iff.mp h
  exact ⟨rfl, rfl, rfl⟩

/-- The length found so far, if there is one, is `n`. -/
def Length (dimension : Option Nat) (n : Nat) : Prop := ∀ d, dimension = some d → d = n

theorem exists_length (dimension : Option Nat) : ∃ n, Length dimension n := by
  cases dimension with
  | none => exact ⟨0, fun d h => nomatch h⟩
  | some d => exact ⟨d, fun d' h => (Option.some.inj h).symm⟩

/-- Vectors pass for a length exactly when that is what they have. -/
theorem checkVectors_iff (name : String) (n : Nat) (vectors : List (Array Int))
    (dimension : Option Nat) :
    (∃ found, checkVectors name dimension vectors = .ok found ∧ Length found n) ↔
      Length dimension n ∧ ∀ v ∈ vectors, v.size = n := by
  induction vectors generalizing dimension with
  | nil =>
    constructor
    · rintro ⟨found, h, hfound⟩
      cases h
      exact ⟨hfound, fun v hv => (List.not_mem_nil hv).elim⟩
    · rintro ⟨hlength, -⟩
      exact ⟨dimension, rfl, hlength⟩
  | cons v vectors ih =>
    rw [List.forall_mem_cons]
    -- after the first vector its length is the one found
    have hv : Length (some v.size) n ↔ v.size = n :=
      ⟨fun h => h v.size rfl, fun h d hd => (Option.some.inj hd).symm.trans h⟩
    cases dimension with
    | none =>
      show (∃ found, checkVectors name (some v.size) vectors = .ok found ∧ Length found n) ↔ _
      rw [ih, hv]
      exact (and_iff_right fun d h => nomatch h).symm
    | some d =>
      unfold checkVectors
      dsimp only
      by_cases hd : d = v.size
      · rw [if_pos hd, hd, ih, hv]
        tauto
      · rw [if_neg hd]
        refine iff_of_false (fun ⟨found, h, _⟩ => nomatch h) ?_
        rintro ⟨hlength, hsize, -⟩
        exact hd ((hlength d rfl).trans hsize.symm)

/-- The module has a vector of length `n` for each type. -/
def Equipped (r : Registry) (sockets : Std.TreeMap Nat Sockets) (n : Nat) (m : Module) : Prop :=
  ∃ vectors, sockets[m.state]? = some vectors ∧ vectors.size = r.typeCount ∧
    ∀ v ∈ vectors.toList, v.size = n

theorem checkModule_iff (r : Registry) (sockets : Std.TreeMap Nat Sockets) (n : Nat)
    (dimension : Option Nat) (m : Module) :
    (∃ found, checkModule r sockets dimension m = .ok found ∧ Length found n) ↔
      Length dimension n ∧ Equipped r sockets n m := by
  unfold checkModule Equipped
  cases sockets[m.state]? with
  | none =>
    refine iff_of_false (fun ⟨found, h, _⟩ => nomatch h) ?_
    rintro ⟨-, vectors, hvectors, -⟩
    cases hvectors
  | some vectors =>
    dsimp only
    by_cases hsize : vectors.size = r.typeCount
    · rw [if_neg (not_not_intro hsize), checkVectors_iff]
      refine and_congr_right fun _ => ⟨fun h => ⟨vectors, rfl, hsize, h⟩, ?_⟩
      rintro ⟨vectors', hsame, -, h⟩
      cases hsame
      exact h
    · rw [if_pos hsize]
      refine iff_of_false (fun ⟨found, h, _⟩ => nomatch h) ?_
      rintro ⟨-, vectors', hsame, hsize', -⟩
      cases hsame
      exact hsize hsize'

/-- **Sockets make a table exactly when every module is equipped for one length.** -/
theorem ofEntries_isOk_iff : (∃ table, ofEntries r entries = .ok table) ↔
    ∃ n, ∀ m ∈ r.modules, Equipped r (gather entries) n m := by
  unfold ofEntries
  simp only [map_eq_ok_iff]
  have hfold := fun n => exists_foldlM_ok_iff
    (fun dimension m (_ : m ∈ r.modules) => checkModule_iff r (gather entries) n dimension m) none
  constructor
  · rintro ⟨table, found, h, -⟩
    obtain ⟨n, hn⟩ := exists_length found
    exact ⟨n, ((hfold n).mp ⟨found, h, hn⟩).2⟩
  · rintro ⟨n, hall⟩
    obtain ⟨found, h, -⟩ := (hfold n).mpr ⟨(fun d hd => nomatch hd), hall⟩
    exact ⟨_, found, h, rfl⟩

/-- What is gathered for a state was given for it. -/
theorem mem_of_gather {p : Nat} {vectors : Sockets} (h : (gather entries)[p]? = some vectors) :
    (p, vectors) ∈ entries := by
  have hall : ∀ m : Std.TreeMap Nat Sockets,
      (entries.foldl (fun m e => m.insert e.1 e.2) m)[p]? = some vectors →
        m[p]? = some vectors ∨ (p, vectors) ∈ entries := by
    clear h
    induction entries with
    | nil => exact fun m h => .inl h
    | cons e entries ih =>
      intro m h
      rcases ih _ h with hm | hmem
      · rw [Std.TreeMap.getElem?_insert] at hm
        split at hm
        · next hep =>
          cases hm
          cases Std.LawfulEqOrd.eq_of_compare hep
          exact .inr List.mem_cons_self
        · exact .inl hm
      · exact .inr (List.mem_cons_of_mem e hmem)
  rcases hall ∅ h with hempty | hmem
  · simp at hempty
  · exact hmem

/-- Every state with vectors is gathered. -/
theorem exists_gather {p : Nat} {given : Sockets} (h : (p, given) ∈ entries) :
    ∃ vectors, (gather entries)[p]? = some vectors := by
  have hall : ∀ m : Std.TreeMap Nat Sockets, p ∈ m ∨ (∃ given, (p, given) ∈ entries) →
      p ∈ entries.foldl (fun m e => m.insert e.1 e.2) m := by
    clear h
    induction entries with
    | nil =>
      rintro m (hm | ⟨given, hmem⟩)
      · exact hm
      · cases hmem
    | cons e entries ih =>
      rintro m (hm | ⟨given, hmem⟩)
      · exact ih _ (.inl (Std.TreeMap.mem_insert.mpr (.inr hm)))
      · rcases List.mem_cons.mp hmem with rfl | hmem
        · exact ih _ (.inl (Std.TreeMap.mem_insert.mpr (.inl Std.ReflCmp.compare_self)))
        · exact ih _ (.inr ⟨given, hmem⟩)
  have hmem := hall ∅ (.inr ⟨given, h⟩)
  exact ⟨_, Std.TreeMap.getElem?_eq_some_getElem hmem⟩

end SocketTable

/-! ## Rule sets -/

namespace RuleSet

/-- The rules are a table over the registry. -/
def Over (r : Registry) : RuleSet → Prop
  | adjacency table => ∃ tuples, AdjacencyTable.ofTuples r tuples = .ok table
  | sockets table => ∃ entries, SocketTable.ofEntries r entries = .ok table

theorem faithful (set : RuleSet) : set.rules.Faithful := by
  cases set with
  | adjacency table => exact fun _ _ _ => rfl
  | sockets table => exact fun _ _ _ => rfl

variable {r : Registry} {set : RuleSet}

/-- Rules over a registry have its classes, its types and its duals. -/
theorem Over.shape (h : set.Over r) :
    set.rules.classWidth = r.classSize ∧ set.rules.classCount = r.classCount ∧
      set.rules.typeCount = r.duals.size ∧ set.rules.dual = r.dual := by
  cases set with
  | adjacency table =>
    obtain ⟨tuples, h⟩ := h
    obtain ⟨-, rfl⟩ := AdjacencyTable.ofTuples_eq_ok_iff.mp h
    exact ⟨rfl, rfl, rfl, rfl⟩
  | sockets table =>
    obtain ⟨entries, h⟩ := h
    obtain ⟨-, hduals, hsizes⟩ := SocketTable.of_ofEntries h
    refine ⟨?_, ?_, ?_, ?_⟩
    · show (fun c => table.classSizes.getD c 0) = r.classSize
      rw [hsizes]
      rfl
    · show table.classSizes.size = r.classCount
      rw [hsizes]
      rfl
    · show table.duals.size = r.duals.size
      rw [hduals]
    · show (fun t => table.duals.getD t t) = r.dual
      rw [hduals]
      rfl

/-- Under the registry's stride a cache can always be made. -/
theorem Over.cached_isOk (hr : r.Lawful) (h : set.Over r) {q : Rules}
    (hwidth : q.classWidth = set.rules.classWidth) : ∃ c, q.cached r.stride = .ok c := by
  have hsize : q.classWidth = r.classSize := hwidth.trans h.shape.1
  have hfits : ∀ c < q.classCount, 0 < q.classWidth c →
      (MaskCache.layout q r.stride c).Valid := by
    intro c _ hc
    unfold MaskCache.layout
    rw [hsize] at hc ⊢
    exact hr.layout_valid hc
  obtain ⟨m, hm⟩ := MaskCache.fill_isOk hfits
  unfold Rules.cached
  rw [hm]
  exact ⟨_, rfl⟩

end RuleSet
end WaveCollapse
