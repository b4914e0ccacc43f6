import Mathlib.Data.Finset.Union
import Mathlib.Data.Nat.Count
import WaveCollapse.Proofs.Rules.Tables

/-! # The closure of a list of tuples

A table of neighbours is filled from tuples that each say something about both ends of a
connection.  What it holds in the end is the set of these tuples together with their mirror images
(`NeighborTuple.closure`), whatever the order of the list and however often it says the same:
different triples have different cells, a write never clears one, and every write lies within the
table.  The table is refused for the first tuple that names a state without a module or a type
that does not exist, and for what is wrong with it first (`NeighborTuple.Offends`).

In words a table either fits, and then every index that is formed for a tuple or a question is a
word and filling the table does not stop (`checkedOfTuples_eq`), or it does not, and then no table
is made over the registry at all (`fits_of_checkedOfTuples`).
-/

namespace WaveCollapse

/-- The state has a module. -/
def Registry.Registers (r : Registry) (p : Nat) : Prop := ∃ m ∈ r.modules, m.state = p

theorem Registry.Lawful.exists_moduleOf_iff {r : Registry} (hr : r.Lawful) {p : Nat} :
    (∃ m, r.moduleOf p = some m) ↔ r.Registers p :=
  exists_congr fun _ => hr.moduleOf_eq_some_iff

theorem Registry.Lawful.moduleOf_isNone_iff {r : Registry} (hr : r.Lawful) {p : Nat} :
    (r.moduleOf p).isNone = true ↔ ¬ r.Registers p := by
  rw [← hr.exists_moduleOf_iff, ← Option.isSome_iff_exists, Option.isNone_iff_eq_none,
    Option.not_isSome_iff_eq_none]

theorem Registry.Lawful.lt_stateSpace {r : Registry} (hr : r.Lawful) {p : Nat}
    (h : r.Registers p) : p < r.stateSpace := by
  obtain ⟨m, hm, rfl⟩ := h
  exact hr.state_lt_stateSpace hm

namespace NeighborTuple

/-! ## Tuples that are refused -/

/-- Both states have a module and the type exists. -/
structure Proper (r : Registry) (e : NeighborTuple) : Prop where
  source : r.Registers e.x
  destination : r.Registers e.y
  kind : e.t < r.typeCount

/-- What is wrong with a tuple first: its source, then its destination, then its type. -/
inductive Offends (r : Registry) (e : NeighborTuple) : RegistryError → Prop where
  | source (hx : ¬ r.Registers e.x) : Offends r e (.unknownState e.x)
  | destination (hx : r.Registers e.x) (hy : ¬ r.Registers e.y) :
    Offends r e (.unknownState e.y)
  | kind (hx : r.Registers e.x) (hy : r.Registers e.y) (ht : r.typeCount ≤ e.t) :
    Offends r e (.unknownConnectionType e.t)

variable {r : Registry} {e : NeighborTuple} {tuples : List NeighborTuple}

theorem check_eq_ok_iff_proper (hr : r.Lawful) : check r e = .ok () ↔ Proper r e := by
  rw [check_eq_ok_iff, hr.exists_moduleOf_iff, hr.exists_moduleOf_iff]
  exact ⟨fun ⟨hx, hy, ht⟩ => ⟨hx, hy, ht⟩, fun ⟨hx, hy, ht⟩ => ⟨hx, hy, ht⟩⟩

theorem check_eq_error_iff (hr : r.Lawful) {error : RegistryError} :
    check r e = .error error ↔ Offends r e error := by
  have hnone := fun p => hr.moduleOf_isNone_iff (p := p)
  unfold check
  constructor
  · intro h
    split at h
    · next hx =>
      cases h
      exact .source ((hnone _).mp hx)
    · next hx =>
      rw [hnone, not_not] at hx
      split at h
      · next hy =>
        cases h
        exact .destination hx ((hnone _).mp hy)
      · next hy =>
        rw [hnone, not_not] at hy
        split at h
        · next ht =>
          cases h
          exact .kind hx hy ht
        · cases h
  · rintro (hx | ⟨hx, hy⟩ | ⟨hx, hy, ht⟩)
    · rw [if_pos ((hnone _).mpr hx)]
    · rw [if_neg (mt (hnone _).mp (not_not.mpr hx)), if_pos ((hnone _).mpr hy)]
    · rw [if_neg (mt (hnone _).mp (not_not.mpr hx)), if_neg (mt (hnone _).mp (not_not.mpr hy)),
        if_pos ht]

/-! ## The closure -/

/-- The tuples as seen from either end. -/
def closure (r : Registry) (tuples : List NeighborTuple) : Finset NeighborTuple :=
  tuples.toFinset ∪ tuples.toFinset.image (flipped r.dual)

theorem mem_closure : e ∈ closure r tuples ↔ ∃ f ∈ tuples, e = f ∨ e = f.flipped r.dual := by
  unfold closure
  rw [Finset.mem_union, Finset.mem_image, List.mem_toFinset]
  constructor
  · rintro (he | ⟨f, hf, rfl⟩)
    · exact ⟨e, he, .inl rfl⟩
    · exact ⟨f, List.mem_toFinset.mp hf, .inr rfl⟩
  · rintro ⟨f, hf, rfl | rfl⟩
    · exact .inl hf
    · exact .inr ⟨f, List.mem_toFinset.mpr hf, rfl⟩

theorem Proper.flipped (hr : r.Lawful) (he : Proper r e) : Proper r (e.flipped r.dual) :=
  ⟨he.destination, he.source, hr.dual_lt he.kind⟩

/-- The closure of proper tuples is proper. -/
theorem proper_of_mem_closure (hr : r.Lawful) (hall : ∀ f ∈ tuples, Proper r f)
    (he : e ∈ closure r tuples) : Proper r e := by
  obtain ⟨f, hf, rfl | rfl⟩ := mem_closure.mp he
  · exact hall e hf
  · exact (hall f hf).flipped hr

/-- A triple is in the closure of proper tuples when it is listed or its mirror image is. -/
theorem mem_closure_iff (hr : r.Lawful) (hall : ∀ f ∈ tuples, Proper r f) :
    e ∈ closure r tuples ↔
      e ∈ tuples ∨ e.t < r.typeCount ∧ ⟨e.y, e.x, r.dual e.t⟩ ∈ tuples := by
  rw [mem_closure]
  constructor
  · rintro ⟨f, hf, rfl | rfl⟩
    · exact .inl hf
    · refine .inr ⟨hr.dual_lt (hall f hf).kind, ?_⟩
      rwa [show (f.flipped r.dual).t = r.dual f.t from rfl, hr.dual_dual]
  · rintro (he | ⟨-, he⟩)
    · exact ⟨e, he, .inl rfl⟩
    · refine ⟨_, he, .inr ?_⟩
      unfold NeighborTuple.flipped
      rw [hr.dual_dual]

end NeighborTuple

namespace AdjacencyTable
variable {r : Registry} {tuples : List NeighborTuple} {table : AdjacencyTable}

/-! ## Counting cells -/

theorem count_true_eq_card (cells : Array Bool) :
    cells.count true = {i ∈ Finset.range cells.size | cells.getD i false = true}.card := by
  have hcells : cells.toList = (List.range cells.size).map fun i => cells.getD i false := by
    refine List.ext_getElem (by simp) fun i h _ => ?_
    have hi : i < cells.size := h
    simp [Array.getD, hi]
  rw [← Nat.count_eq_card_filter_range, ← Array.count_toList, hcells, List.count_eq_countP,
    List.countP_map, Nat.count]
  congr 1

theorem size_foldl_mark (n : Nat) (dual : Nat → Nat) (cells : Array Bool) :
    (tuples.foldl (mark n dual) cells).size = cells.size := by
  induction tuples generalizing cells with
  | nil => rfl
  | cons e tuples ih => rw [List.foldl_cons, ih, size_mark]

/-- Before anything is marked. -/
def blank (r : Registry) : Array Bool :=
  Array.replicate (r.typeCount * r.stateSpace * r.stateSpace) false

/-- The cells of the table when some tuples have been marked. -/
def marked (r : Registry) (tuples : List NeighborTuple) : Array Bool :=
  tuples.foldl (mark r.stateSpace r.dual) (blank r)

theorem size_marked : (marked r tuples).size = r.typeCount * r.stateSpace * r.stateSpace := by
  unfold marked
  rw [size_foldl_mark, blank, Array.size_replicate]

theorem cellIndex_lt_marked (hr : r.Lawful) {e : NeighborTuple} (he : e.Proper r)
    (tuples : List NeighborTuple) :
    cellIndex r.stateSpace e < (marked r tuples).size := by
  rw [size_marked]
  exact cellIndex_lt (hr.lt_stateSpace he.source) (hr.lt_stateSpace he.destination) he.kind

/-- The cells that are true are those of the closure. -/
theorem getD_marked {i : Nat} (hi : i < (marked r tuples).size) :
    (marked r tuples).getD i false = true ↔
      ∃ e ∈ NeighborTuple.closure r tuples, cellIndex r.stateSpace e = i := by
  rw [size_marked] at hi
  unfold marked
  rw [getD_foldl_mark tuples (by rwa [blank, Array.size_replicate])]
  rw [or_iff_right (by simp [blank, Array.getD, hi])]
  constructor
  · rintro ⟨e, he, rfl | rfl⟩
    · exact ⟨e, NeighborTuple.mem_closure.mpr ⟨e, he, .inl rfl⟩, rfl⟩
    · exact ⟨_, NeighborTuple.mem_closure.mpr ⟨e, he, .inr rfl⟩, rfl⟩
  · rintro ⟨e, he, rfl⟩
    obtain ⟨f, hf, rfl | rfl⟩ := NeighborTuple.mem_closure.mp he
    · exact ⟨e, hf, .inl rfl⟩
    · exact ⟨f, hf, .inr rfl⟩

/-- As many cells are true as there are triples in the closure. -/
theorem count_marked (hr : r.Lawful) (hall : ∀ e ∈ tuples, e.Proper r) :
    (marked r tuples).count true = (NeighborTuple.closure r tuples).card := by
  have hproper := fun e => NeighborTuple.proper_of_mem_closure (e := e) hr hall
  have himage : {i ∈ Finset.range (marked r tuples).size | (marked r tuples).getD i false = true} =
      (NeighborTuple.closure r tuples).image (cellIndex r.stateSpace) := by
    ext i
    rw [Finset.mem_filter, Finset.mem_range, Finset.mem_image]
    constructor
    · rintro ⟨hi, htrue⟩
      exact (getD_marked hi).mp htrue
    · rintro ⟨e, he, rfl⟩
      have hi := cellIndex_lt_marked hr (hproper e he) tuples
      exact ⟨hi, (getD_marked hi).mpr ⟨e, he, rfl⟩⟩
  rw [count_true_eq_card, himage]
  refine Finset.card_image_of_injOn fun e he f hf h => ?_
  have hep := hproper e he
  have hfp := hproper f hf
  exact cellIndex_inj (hr.lt_stateSpace hep.source) (hr.lt_stateSpace hep.destination)
    (hr.lt_stateSpace hfp.source) (hr.lt_stateSpace hfp.destination) h

/-- What is marked depends on the closure only. -/
theorem marked_congr {tuples' : List NeighborTuple} (h : ∀ e, e ∈ tuples' ↔ e ∈ tuples) :
    marked r tuples' = marked r tuples := by
  have hsize : (marked r tuples').size = (marked r tuples).size := by rw [size_marked, size_marked]
  have hclosure : NeighborTuple.closure r tuples' = NeighborTuple.closure r tuples := by
    ext e
    simp only [NeighborTuple.mem_closure, h]
  refine Array.ext hsize fun i hi hi' => ?_
  have hsame : (marked r tuples').getD i false = true ↔ (marked r tuples).getD i false = true := by
    rw [getD_marked hi, getD_marked hi', hclosure]
  simpa [Array.getD, hi, hi', ← Bool.eq_iff_iff] using hsame

/-! ## The table -/

theorem ofTuples_eq_ok_iff_marked (hr : r.Lawful) : ofTuples r tuples = .ok table ↔
    (∀ e ∈ tuples, e.Proper r) ∧
      table = ⟨r.stateSpace, r.duals, r.classSizes, marked r tuples⟩ := by
  rw [ofTuples_eq_ok_iff]
  simp only [NeighborTuple.check_eq_ok_iff_proper hr]
  rfl

theorem ofTuples_eq_error_iff (hr : r.Lawful) {error : RegistryError} :
    ofTuples r tuples = .error error ↔ ∃ before e after, tuples = before ++ e :: after ∧
      (∀ f ∈ before, f.Proper r) ∧ e.Offends r error := by
  unfold ofTuples cellsOf
  rw [map_eq_error_iff, map_eq_error_iff, forM_eq_error_iff]
  simp only [NeighborTuple.check_eq_ok_iff_proper hr, NeighborTuple.check_eq_error_iff hr]

/-! ## In words -/

/-- A table over the registry takes fewer bytes than half the number of words. -/
def Fits (r : Registry) : Prop := r.typeCount * r.stateSpace * r.stateSpace < twoTo 63

section Index
variable {n : Nat} {e : NeighborTuple}

theorem cellIndex_of_checkedCellIndex {i : Nat} (h : checkedCellIndex n e = .ok i) :
    cellIndex n e = i := by
  obtain ⟨_, hrow, h⟩ := bind_eq_ok_iff.mp h
  obtain ⟨_, hplane, h⟩ := bind_eq_ok_iff.mp h
  obtain ⟨_, hcolumn, h⟩ := bind_eq_ok_iff.mp h
  obtain ⟨_, hstart, h⟩ := bind_eq_ok_iff.mp h
  obtain ⟨-, rfl⟩ := Word.check_eq_ok_iff.mp hrow
  obtain ⟨-, rfl⟩ := Word.check_eq_ok_iff.mp hplane
  obtain ⟨-, rfl⟩ := Word.check_eq_ok_iff.mp hcolumn
  obtain ⟨-, rfl⟩ := Word.check_eq_ok_iff.mp hstart
  exact (Word.check_eq_ok_iff.mp h).2

/-- The numbers on the way to an index are no greater than the index. -/
theorem checkedCellIndex_of_lt (hx : e.x < n) (h : cellIndex n e < twoTo 64) :
    checkedCellIndex n e = .ok (cellIndex n e) := by
  unfold cellIndex at h
  have hstart := Nat.lt_of_le_of_lt (Nat.le_add_right _ _) h
  have hplane := Nat.lt_of_le_of_lt (Nat.le_add_right _ _) hstart
  have hcolumn := Nat.lt_of_le_of_lt (Nat.le_add_left _ _) hstart
  have hrow := Nat.lt_of_le_of_lt (Nat.le_mul_of_pos_right _ (Nat.zero_lt_of_lt hx)) hplane
  unfold checkedCellIndex
  rw [Word.mul_of_lt hrow, ok_bind, Word.mul_of_lt hplane, ok_bind, Word.mul_of_lt hcolumn, ok_bind,
    Word.add_of_lt hstart, ok_bind, Word.add_of_lt h]
  rfl

/-- A cell of the table is marked. -/
theorem checkedPut_of_lt {cells : Array Bool} (hx : e.x < n) (hcell : cellIndex n e < cells.size)
    (hword : cells.size < twoTo 64) :
    checkedPut n cells e = .ok (cells.setIfInBounds (cellIndex n e) true) := by
  unfold checkedPut
  rw [checkedCellIndex_of_lt hx (Nat.lt_trans hcell hword), ok_bind, Word.write_of_lt hcell]

end Index

/-- A table that fits has its cells numbered with words. -/
theorem Fits.size_lt (hfits : Fits r) :
    r.typeCount * r.stateSpace * r.stateSpace < twoTo 64 := Nat.lt_trans hfits (by decide)

/-- Every proper tuple has a cell in a table that fits. -/
theorem Fits.checkedCellIndex_eq (hfits : Fits r) {e : NeighborTuple} (hx : e.x < r.stateSpace)
    (hy : e.y < r.stateSpace) (ht : e.t < r.typeCount) :
    checkedCellIndex r.stateSpace e = .ok (cellIndex r.stateSpace e) :=
  checkedCellIndex_of_lt hx (Nat.lt_trans (cellIndex_lt hx hy ht) hfits.size_lt)

/-- Marking a proper tuple does not stop. -/
theorem checkedMark_eq (hr : r.Lawful) (hfits : Fits r) {cells : Array Bool}
    (hsize : cells.size = r.typeCount * r.stateSpace * r.stateSpace) {e : NeighborTuple}
    (he : e.Proper r) :
    checkedMark r.stateSpace r.dual cells e = .ok (mark r.stateSpace r.dual cells e) := by
  have hput : ∀ cells : Array Bool, cells.size = r.typeCount * r.stateSpace * r.stateSpace →
      ∀ f : NeighborTuple, f.Proper r → checkedPut r.stateSpace cells f =
        .ok (cells.setIfInBounds (cellIndex r.stateSpace f) true) := by
    intro cells hsize f hf
    have hx := hr.lt_stateSpace hf.source
    refine checkedPut_of_lt hx ?_ (hsize ▸ hfits.size_lt)
    exact hsize ▸ cellIndex_lt hx (hr.lt_stateSpace hf.destination) hf.kind
  unfold checkedMark mark
  rw [hput cells hsize e he, ok_bind,
    hput _ (by rw [Array.size_setIfInBounds, hsize]) _ (he.flipped hr)]

/-- Marking one tuple after the other stops at none: a tuple that is not refused has its cells. -/
theorem checkedMarkAll_eq (hr : r.Lawful) (hfits : Fits r) (tuples : List NeighborTuple)
    {cells : Array Bool} (hsize : cells.size = r.typeCount * r.stateSpace * r.stateSpace) :
    checkedMarkAll r r.stateSpace cells tuples = .ok ((tuples.forM (NeighborTuple.check r)).map
      fun _ => tuples.foldl (mark r.stateSpace r.dual) cells) := by
  induction tuples generalizing cells with
  | nil => rfl
  | cons e tuples ih =>
    unfold checkedMarkAll
    rw [show (e :: tuples).forM (NeighborTuple.check r) =
      (e.check r).bind fun _ => tuples.forM (NeighborTuple.check r) from rfl]
    cases hcheck : e.check r with
    | error error => rfl
    | ok _ =>
      have he : e.Proper r := (NeighborTuple.check_eq_ok_iff_proper hr).mp hcheck
      dsimp only
      rw [checkedMark_eq hr hfits hsize he, ok_bind, ih (by rwa [size_mark])]
      rfl

/-- **A table that fits is made in words as it is in numbers of any size.** -/
theorem checkedOfTuples_eq (hr : r.Lawful) (htypes : 0 < r.typeCount) (hfits : Fits r)
    (tuples : List NeighborTuple) : checkedOfTuples r tuples = .ok (ofTuples r tuples) := by
  have hcount := hfits.size_lt
  have hplane : r.typeCount * r.stateSpace < twoTo 64 := by
    refine Nat.lt_of_le_of_lt ?_ hcount
    rw [Nat.mul_assoc]
    exact Nat.mul_le_mul_left _ (Nat.le_mul_self _)
  have hstates : r.stateSpace < twoTo 64 :=
    Nat.lt_of_le_of_lt (Nat.le_mul_of_pos_left _ htypes) hplane
  have hcells : checkedCellsOf r tuples = .ok (cellsOf r tuples) := by
    unfold checkedCellsOf
    rw [show Word.mul r.classCount r.stride = .ok r.stateSpace from Word.mul_of_lt hstates, ok_bind,
      Word.mul_of_lt hplane, ok_bind, Word.mul_of_lt hcount, ok_bind,
      Word.room_of_lt (by rwa [Nat.mul_one]), ok_bind,
      checkedMarkAll_eq hr hfits tuples Array.size_replicate]
    rfl
  unfold checkedOfTuples
  rw [hcells]
  rfl

/-- What is made in words fits. -/
theorem fits_of_checkedOfTuples {result : Except RegistryError AdjacencyTable}
    (h : checkedOfTuples r tuples = .ok result) : Fits r := by
  obtain ⟨_, h, -⟩ := map_eq_ok_iff.mp h
  obtain ⟨_, hstates, h⟩ := bind_eq_ok_iff.mp h
  obtain ⟨_, hplane, h⟩ := bind_eq_ok_iff.mp h
  obtain ⟨_, hcount, h⟩ := bind_eq_ok_iff.mp h
  obtain ⟨_, hroom, -⟩ := bind_eq_ok_iff.mp h
  obtain ⟨-, rfl⟩ := Word.check_eq_ok_iff.mp hstates
  obtain ⟨-, rfl⟩ := Word.check_eq_ok_iff.mp hplane
  obtain ⟨-, rfl⟩ := Word.check_eq_ok_iff.mp hcount
  by_contra hpast
  refine absurd hroom ?_
  rw [Word.room_of_le]
  · rintro ⟨⟩
  · rw [Nat.mul_one]
    exact Nat.le_of_not_lt hpast

/-- Over as many cells as there are words, or more, it is a product that stops. -/
theorem checkedOfTuples_overflow
    (h : twoTo 64 ≤ r.typeCount * r.stateSpace * r.stateSpace) (tuples : List NeighborTuple) :
    checkedOfTuples r tuples = .error .overflow := by
  have hcells : checkedCellsOf r tuples = .error .overflow := by
    unfold checkedCellsOf
    rcases Nat.lt_or_ge r.stateSpace (twoTo 64) with hstates | hstates
    · rw [show Word.mul r.classCount r.stride = .ok r.stateSpace from Word.mul_of_lt hstates,
        ok_bind]
      rcases Nat.lt_or_ge (r.typeCount * r.stateSpace) (twoTo 64) with hplane | hplane
      · rw [Word.mul_of_lt hplane, ok_bind, Word.mul_of_le h, error_bind]
      · rw [Word.mul_of_le hplane, error_bind]
    · rw [show Word.mul r.classCount r.stride = .error .overflow from Word.mul_of_le hstates,
        error_bind]
  unfold checkedOfTuples
  rw [hcells]
  rfl

/-- The table holds what its tuples say, seen from either end, and nothing else. -/
structure Spans (r : Registry) (tuples : List NeighborTuple) (table : AdjacencyTable) : Prop where
  /-- Every question has an answer; what is allowed was listed, in one of two ways, and out of
  range nothing is. -/
  allows_iff : ∀ x t y, ∃ allowed, table.checkedAllows x t y = .ok allowed ∧ (allowed = true ↔
    ⟨x, y, t⟩ ∈ tuples ∨ t < r.typeCount ∧ ⟨y, x, r.dual t⟩ ∈ tuples)
  /-- Different triples of states of the table have different cells. -/
  apart : ∀ (e f : NeighborTuple) i, e.x < r.stateSpace → e.y < r.stateSpace →
    f.x < r.stateSpace → f.y < r.stateSpace → checkedCellIndex r.stateSpace e = .ok i →
    checkedCellIndex r.stateSpace f = .ok i → e = f
  /-- Every tuple is marked, at both of its ends, in a table that has a cell for it. -/
  writes : ∀ before e after, tuples = before ++ e :: after →
    ∃ i < (marked r before).size, ∃ j < (marked r before).size,
      checkedCellIndex r.stateSpace e = .ok i ∧
      checkedCellIndex r.stateSpace (e.flipped r.dual) = .ok j
  /-- Every triple of the table that may be asked for has a cell. -/
  reads : ∀ x t y, x < table.stateCount → y < table.stateCount → t < table.duals.size →
    ∃ i < table.cells.size, checkedCellIndex table.stateCount ⟨x, y, t⟩ = .ok i
  /-- As many cells are true as there are different triples. -/
  count : table.allowedCount = (NeighborTuple.closure r tuples).card
  /-- These are the triples that are allowed. -/
  closed : ∀ e, e ∈ NeighborTuple.closure r tuples ↔ table.checkedAllows e.x e.t e.y = .ok true
  /-- Neither the order nor the repetition of the tuples matters. -/
  unordered : ∀ tuples' : List NeighborTuple, (∀ e, e ∈ tuples' ↔ e ∈ tuples) →
    checkedOfTuples r tuples' = .ok (.ok table)

/-- A table that fits answers in words as it does in numbers of any size. -/
theorem checkedAllows_eq (hr : r.Lawful) (hfits : Fits r) (h : ofTuples r tuples = .ok table)
    (x t y : Nat) : table.checkedAllows x t y = .ok (table.allows x t y) := by
  obtain ⟨-, rfl⟩ := (ofTuples_eq_ok_iff_marked hr).mp h
  unfold checkedAllows allows
  dsimp only
  split
  · next hrange =>
    obtain ⟨hx, hy, ht⟩ := hrange
    rw [hfits.checkedCellIndex_eq (e := ⟨x, y, t⟩) hx hy (hr.duals_size ▸ ht)]
    rfl
  · rfl

theorem spans_of_ofTuples (hr : r.Lawful) (htypes : 0 < r.typeCount) (hfits : Fits r)
    (h : ofTuples r tuples = .ok table) : table.Spans r tuples := by
  have hanswers := checkedAllows_eq hr hfits h
  have hallows := AdjacencyTable.allows_iff hr h
  obtain ⟨hall, rfl⟩ := (ofTuples_eq_ok_iff_marked hr).mp h
  have hindex : ∀ e : NeighborTuple, e.Proper r →
      checkedCellIndex r.stateSpace e = .ok (cellIndex r.stateSpace e) := fun e he =>
    hfits.checkedCellIndex_eq (hr.lt_stateSpace he.source) (hr.lt_stateSpace he.destination) he.kind
  refine ⟨fun x t y => ⟨_, hanswers x t y, hallows x t y⟩, ?_, ?_, ?_, count_marked hr hall, ?_, ?_⟩
  · intro e f i hex hey hfx hfy he hf
    refine cellIndex_inj hex hey hfx hfy ?_
    rw [cellIndex_of_checkedCellIndex he, cellIndex_of_checkedCellIndex hf]
  · rintro before e after rfl
    have he := hall e (List.mem_append_right before List.mem_cons_self)
    exact ⟨_, cellIndex_lt_marked hr he before, _, cellIndex_lt_marked hr (he.flipped hr) before,
      hindex e he, hindex _ (he.flipped hr)⟩
  · intro x t y hx hy ht
    have ht : t < r.typeCount := hr.duals_size ▸ ht
    refine ⟨_, ?_, hfits.checkedCellIndex_eq (e := ⟨x, y, t⟩) hx hy ht⟩
    rw [size_marked]
    exact cellIndex_lt (e := ⟨x, y, t⟩) hx hy ht
  · intro e
    rw [NeighborTuple.mem_closure_iff hr hall, hanswers, Except.ok.injEq]
    exact (hallows e.x e.t e.y).symm
  · intro tuples' hsame
    rw [checkedOfTuples_eq hr htypes hfits, Except.ok.injEq]
    refine (ofTuples_eq_ok_iff_marked hr).mpr ⟨fun e he => hall e ((hsame e).mp he), ?_⟩
    rw [marked_congr hsame]

/-- **A table of neighbours is the closure of its tuples.**  Over a registry whose table fits,
nothing stops: the table is refused exactly when some tuple names a state without a module or a type
that does not exist, and then for the first such tuple; otherwise it holds the tuples and their
mirror images, each in a cell of its own.  Over any other registry no table is made, whatever the
tuples are. -/
theorem ofTuples_closure {types : List String} {duals : List Nat} {modules : List (String × Nat)}
    (hreg : Registry.register types duals modules = .ok r) (tuples : List NeighborTuple) :
    (r.typeCount * r.stateSpace * r.stateSpace < twoTo 63 →
      (∃ result, checkedOfTuples r tuples = .ok result) ∧
      ((∃ table, checkedOfTuples r tuples = .ok (.ok table)) ↔ ∀ e ∈ tuples, e.Proper r) ∧
      (∀ error, checkedOfTuples r tuples = .ok (.error error) ↔ ∃ before e after,
        tuples = before ++ e :: after ∧ (∀ f ∈ before, f.Proper r) ∧ e.Offends r error) ∧
      ∀ table, checkedOfTuples r tuples = .ok (.ok table) → table.Spans r tuples) ∧
    (twoTo 63 ≤ r.typeCount * r.stateSpace * r.stateSpace →
      ∃ fault, checkedOfTuples r tuples = .error fault) := by
  have hr := Registry.lawful_of_register hreg
  have htypes := Registry.typeCount_pos_of_register hreg
  constructor
  · intro hfits
    simp only [checkedOfTuples_eq hr htypes hfits, Except.ok.injEq]
    refine ⟨⟨_, rfl⟩, ?_, fun error => ofTuples_eq_error_iff hr,
      fun table => spans_of_ofTuples hr htypes hfits⟩
    constructor
    · rintro ⟨table, h⟩
      exact ((ofTuples_eq_ok_iff_marked hr).mp h).1
    · exact fun hall => ⟨_, (ofTuples_eq_ok_iff_marked hr).mpr ⟨hall, rfl⟩⟩
  · intro hpast
    cases hmade : checkedOfTuples r tuples with
    | error fault => exact ⟨fault, rfl⟩
    | ok result => exact absurd (fits_of_checkedOfTuples hmade) (Nat.not_lt_of_le hpast)

/-- Classes with an unused one between them, a type that is its own dual, and tuples that say the
same from both ends, twice, or of a state and itself: five triples.  The second tuple of another
list names the state of the gap before its bad type. -/
theorem ofTuples_closure_gap :
    let r : Registry := {
      modules := [⟨"a", 0, 0⟩, ⟨"b", 0, 1⟩, ⟨"door", 2, 4⟩], classSizes := #[2, 0, 1]
      types := ["E", "W", "up"], duals := #[1, 0, 2] }
    let tuples : List NeighborTuple :=
      [⟨0, 4, 0⟩, ⟨4, 0, 1⟩, ⟨0, 1, 2⟩, ⟨1, 0, 2⟩, ⟨0, 4, 0⟩, ⟨1, 1, 2⟩]
    Registry.register ["E", "W", "up"] [1, 0, 2] [("a", 0), ("b", 0), ("door", 2)] = .ok r ∧
      (∃ table, checkedOfTuples r tuples = .ok (.ok table) ∧ table.Spans r tuples ∧
        table.allowedCount = 5 ∧ table.checkedAllows 4 1 0 = .ok true ∧
        table.checkedAllows 4 0 0 = .ok false ∧
        checkedOfTuples r [⟨1, 1, 2⟩, ⟨0, 1, 2⟩, ⟨4, 0, 1⟩, ⟨1, 0, 2⟩, ⟨0, 4, 0⟩] =
          .ok (.ok table)) ∧
      checkedOfTuples r [⟨0, 1, 0⟩, ⟨0, 3, 7⟩, ⟨9, 9, 9⟩] = .ok (.error (.unknownState 3)) := by
  intro r tuples
  have hsame : ∀ e : NeighborTuple,
      e ∈ ([⟨1, 1, 2⟩, ⟨0, 1, 2⟩, ⟨4, 0, 1⟩, ⟨1, 0, 2⟩, ⟨0, 4, 0⟩] : List NeighborTuple) ↔
        e ∈ tuples := by
    intro e
    simp only [tuples, List.mem_cons, List.not_mem_nil, or_false]
    tauto
  have hreg : Registry.register ["E", "W", "up"] [1, 0, 2] [("a", 0), ("b", 0), ("door", 2)] =
      .ok r := by decide
  have hsmall : r.typeCount * r.stateSpace * r.stateSpace < twoTo 63 := by decide
  have hr := Registry.lawful_of_register hreg
  obtain ⟨table, htable, hcount, hback, hforth⟩ : ∃ table, ofTuples r tuples = .ok table ∧
      table.allowedCount = 5 ∧ table.allows 4 1 0 = true ∧ table.allows 4 0 0 = false :=
    ⟨_, rfl, by decide +kernel⟩
  have hmade := checkedOfTuples_eq hr (by decide) hsmall tuples
  rw [htable] at hmade
  have hanswers := checkedAllows_eq hr hsmall htable
  obtain ⟨-, -, -, hspans⟩ := (ofTuples_closure hreg tuples).1 hsmall
  obtain ⟨-, -, herror, -⟩ := (ofTuples_closure hreg [⟨0, 1, 0⟩, ⟨0, 3, 7⟩, ⟨9, 9, 9⟩]).1 hsmall
  refine ⟨hreg, ⟨table, hmade, hspans table hmade, hcount, ?_, ?_, ?_⟩, ?_⟩
  · rw [hanswers, hback]
  · rw [hanswers, hforth]
  · exact (hspans table hmade).unordered _ hsame
  · refine (herror _).mpr ⟨[⟨0, 1, 0⟩], ⟨0, 3, 7⟩, [⟨9, 9, 9⟩], rfl, ?_, ?_⟩
    · rintro f hf
      cases List.mem_singleton.mp hf
      exact ⟨⟨⟨"a", 0, 0⟩, by decide, rfl⟩, ⟨⟨"b", 0, 1⟩, by decide, rfl⟩, by decide⟩
    · exact .destination ⟨⟨"a", 0, 0⟩, by decide, rfl⟩ (by unfold Registry.Registers; decide)

/-! ## A table that does not fit -/

/-- A class as large as a wave is wide, and one module of a class far away. -/
def spread (far : Nat) : List (String × Nat) :=
  (List.range 65).map fun i =>
    (String.ofList (List.replicate i 'a'), if i < 64 then 0 else far)

theorem nodup_names_spread (far : Nat) : ((spread far).map (·.1)).Nodup := by
  unfold spread
  rw [List.map_map]
  refine List.Nodup.map (fun i j hij => ?_) List.nodup_range
  exact (List.replicate_inj.mp (String.ofList_injective hij)).1

theorem countP_spread {far : Nat} (hfar : 0 < far) (c : Nat) :
    (spread far).countP (·.2 == c) = if c = 0 then 64 else if c = far then 1 else 0 := by
  have hcrowd : (List.range 64).countP (fun i => (if i < 64 then 0 else far) == c) =
      if c = 0 then 64 else 0 := by
    have hall : ∀ i ∈ List.range 64, (if i < 64 then 0 else far) = 0 :=
      fun i hi => if_pos (List.mem_range.mp hi)
    split
    · next hc =>
      refine (List.countP_eq_length.mpr fun i hi => ?_).trans List.length_range
      exact beq_iff_eq.mpr ((hall i hi).trans hc.symm)
    · next hc =>
      exact List.countP_eq_zero.mpr fun i hi h =>
        hc ((hall i hi).symm.trans (beq_iff_eq.mp h)).symm
  have hlast : ((if 64 < 64 then 0 else far) == c) = true ↔ c = far := by
    rw [if_neg (Nat.lt_irrefl 64), beq_iff_eq, eq_comm]
  have hsplit : (spread far).countP (·.2 == c) =
      (List.range 64).countP (fun i => (if i < 64 then 0 else far) == c) +
        if ((if 64 < 64 then 0 else far) == c) = true then 1 else 0 := by
    unfold spread
    rw [List.countP_map, List.range_succ, List.countP_append, List.countP_singleton]
    rfl
  rw [hsplit, hcrowd]
  simp only [hlast]
  split
  · next hc => rw [if_neg fun h => Nat.ne_of_gt hfar (h.symm.trans hc)]
  · exact Nat.zero_add _

/-- Such modules are registered over any types that are their own duals. -/
theorem register_spread {far : Nat} (hfar : 0 < far) {types : List String} (htypes : types ≠ []) :
    ∃ r, Registry.register types (List.range types.length) (spread far) = .ok r ∧
      r.typeCount = types.length ∧ 64 * (far + 1) ≤ r.stateSpace := by
  have hcount := countP_spread hfar
  have hpaired : ∀ t < types.length, ((List.range types.length).toArray[t]?.bind
      ((List.range types.length).toArray[·]?)) = some t := by
    intro t ht
    simp only [List.getElem?_toArray, List.getElem?_range ht, Option.bind_some]
  have hroom : ∀ c, (spread far).countP (·.2 == c) ≤ maxWidth := by
    intro c
    rw [hcount]
    split
    · exact Nat.le_refl _
    · split <;> decide
  have hsome : spread far ≠ [] :=
    List.ne_nil_of_length_pos ((List.length_map _).trans List.length_range ▸ Nat.succ_pos 64)
  have hreg := Registry.register_eq_ok_iff.mpr ⟨htypes, hsome, hpaired, List.length_range,
    hroom, nodup_names_spread far, rfl⟩
  refine ⟨_, hreg, rfl, ?_⟩
  have hsize := Registry.classSize_of_register hreg
  refine (Nat.mul_comm _ _).trans_le (Nat.mul_le_mul ?_ ?_)
  · refine Registry.lt_classCount_of_lt (k := 0) ?_
    rw [hsize, hcount, if_neg (Nat.ne_of_gt hfar), if_pos rfl]
    exact Nat.one_pos
  · refine Nat.le_trans ?_ (Registry.classSize_le_stride _ 0)
    rw [hsize, hcount, if_pos rfl]

/-- Sixty-four states and one far away, numbered below two to the power of 29, with as many types:
the table would have as many cells as there are words, and the first states, proper as they are,
cannot be told to be neighbours. -/
theorem ofTuples_closure_past_words :
    let types := List.replicate 64 "t"
    let tuple : NeighborTuple := ⟨0, 0, 0⟩
    (∃ r, Registry.register types (List.range 64) (spread (twoTo 23 - 1)) = .ok r ∧
      tuple.Proper r ∧ checkedOfTuples r [tuple] = .error .overflow) ∧
    ¬ ∀ types duals modules r tuples, Registry.register types duals modules = .ok r →
      (∀ e ∈ tuples, NeighborTuple.Proper r e) →
        ∃ table, checkedOfTuples r tuples = .ok (.ok table) := by
  intro types tuple
  have hfar : 0 < twoTo 23 - 1 := by decide
  have hnamed : types ≠ [] := List.cons_ne_nil _ _
  obtain ⟨r, hreg, htypes, hstates⟩ := register_spread hfar hnamed
  have hr := Registry.lawful_of_register hreg
  have hfirst : r.Registers 0 := by
    have hcrowd : 0 < r.classSize 0 := by
      rw [Registry.classSize_of_register hreg, countP_spread hfar, if_pos rfl]
      decide
    obtain ⟨m, hm, -, hstate⟩ := hr.full 0 0 hcrowd
    exact ⟨m, hm, by rw [hstate, Nat.zero_mul]⟩
  have hproper : tuple.Proper r := ⟨hfirst, hfirst, htypes.symm ▸ Nat.zero_lt_succ 63⟩
  have hstops : checkedOfTuples r [tuple] = .error .overflow := by
    refine checkedOfTuples_overflow ?_ _
    have hwords : twoTo 64 ≤ 64 * (64 * (twoTo 23 - 1 + 1)) * (64 * (twoTo 23 - 1 + 1)) := by decide
    rw [htypes, List.length_replicate]
    exact Nat.le_trans hwords (Nat.mul_le_mul (Nat.mul_le_mul_left 64 hstates) hstates)
  refine ⟨⟨r, hreg, hproper, hstops⟩, fun hall => ?_⟩
  obtain ⟨table, htable⟩ := hall types _ _ r [tuple] hreg fun e he => by
    cases List.mem_singleton.mp he
    exact hproper
  cases hstops.symm.trans htable

end AdjacencyTable
end WaveCollapse
