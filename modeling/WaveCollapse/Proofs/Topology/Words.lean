import WaveCollapse.Proofs.Except
import WaveCollapse.Proofs.Topology.Cutout

/-! # Grids in words

Where the number of cells is a word, so is the number of every cell, and nothing stops as long as
the numbers and values asked for fit into a list: the definitions in words are the plain ones.
Where it is none, nothing that depends on it can be asked.  Either way a result in words is the
plain one.
-/

namespace WaveCollapse.Grid
variable {g : Grid} {x y i : Nat}

/-! ## Results -/

theorem number_of_checkedNumber {n : Nat} (h : g.checkedNumber x y = .ok n) :
    y * g.width + x = n := by
  obtain ⟨_, hrow, h⟩ := bind_eq_ok_iff.mp h
  obtain ⟨-, rfl⟩ := Word.check_eq_ok_iff.mp hrow
  exact (Word.check_eq_ok_iff.mp h).2

theorem indexOf_of_checkedIndexOf {o : Option Nat} (h : g.checkedIndexOf x y = .ok o) :
    g.indexOf x y = o := by
  unfold checkedIndexOf at h
  unfold indexOf
  split at h
  · next hin =>
    obtain ⟨n, hn, rfl⟩ := map_eq_ok_iff.mp h
    rw [if_pos hin, number_of_checkedNumber hn]
  · next hin =>
    rw [if_neg hin]
    exact Except.ok.inj h

/-! ## Grids whose number of cells is a word -/

section Words
variable (hsize : g.width * g.height < twoTo 64)
include hsize

theorem checkedSize_eq : g.checkedSize = .ok g.size := Word.mul_of_lt hsize

theorem checkedNumber_eq (hx : x < g.width) (hy : y < g.height) :
    g.checkedNumber x y = .ok (y * g.width + x) := by
  have hlt : y * g.width + x < twoTo 64 := Nat.lt_trans (index_lt_size hx hy) hsize
  unfold checkedNumber
  rw [Word.mul_of_lt (Nat.lt_of_le_of_lt (Nat.le_add_right _ x) hlt), ok_bind, Word.add_of_lt hlt]

theorem checkedIndexOf_eq (x y : Nat) : g.checkedIndexOf x y = .ok (g.indexOf x y) := by
  unfold checkedIndexOf indexOf
  split
  · next hin =>
    rw [checkedNumber_eq hsize hin.1 hin.2]
    rfl
  · rfl

theorem checkedCoordsOf_eq (i : Nat) : g.checkedCoordsOf i = .ok (g.coordsOf i) := by
  unfold checkedCoordsOf
  rw [checkedSize_eq hsize]
  rfl

theorem checkedVertices_eq (hroom : g.size * 8 < twoTo 63) :
    g.checkedVertices = .ok g.topology.vertices := by
  unfold checkedVertices
  rw [checkedSize_eq hsize, ok_bind, Word.room_of_lt hroom]
  rfl

/-- The edges at a cell. -/
theorem checkedIncident_eq (i : Nat) : g.checkedIncident i = .ok (g.incident i) := by
  have hindex := checkedIndexOf_eq hsize
  have hnorth : ∀ x y, g.checkedNorthOf x y = .ok (g.northOf x y) := by
    intro x y
    unfold checkedNorthOf northOf
    split <;> exact hindex _ _
  have heast : ∀ x y, g.checkedEastOf x y = .ok (g.eastOf x y) := by
    intro x y
    unfold checkedEastOf eastOf
    split <;> exact hindex _ _
  have hsouth : ∀ x y, g.checkedSouthOf x y = .ok (g.southOf x y) := by
    intro x y
    unfold checkedSouthOf southOf
    split
    · rfl
    · exact hindex _ _
    · exact hindex _ _
  have hwest : ∀ x y, g.checkedWestOf x y = .ok (g.westOf x y) := by
    intro x y
    unfold checkedWestOf westOf
    split
    · rfl
    · exact hindex _ _
    · exact hindex _ _
  unfold checkedIncident incident
  rw [checkedCoordsOf_eq hsize, ok_bind]
  cases g.coordsOf i with
  | none => rfl
  | some cell =>
    obtain ⟨x, y⟩ := cell
    dsimp only
    rw [hnorth, ok_bind, heast, ok_bind, hsouth, ok_bind, hwest, ok_bind]
    rfl

end Words

/-! ## Grids past the words -/

section PastWords
variable (hsize : twoTo 64 ≤ g.width * g.height)
include hsize

theorem checkedSize_past : g.checkedSize = .error .overflow := Word.check_of_le hsize

theorem checkedCoordsOf_past (i : Nat) : g.checkedCoordsOf i = .error .overflow := by
  unfold checkedCoordsOf
  rw [checkedSize_past hsize, error_bind]

theorem checkedVertices_past : g.checkedVertices = .error .overflow := by
  unfold checkedVertices
  rw [checkedSize_past hsize, error_bind]

theorem checkedIncident_past (i : Nat) : g.checkedIncident i = .error .overflow := by
  unfold checkedIncident
  rw [checkedCoordsOf_past hsize, error_bind]

end PastWords

/-! ## Cutting out -/

section Rectangle
variable {left bottom w h : Nat} {cells : List Nat} {values : Array (Option Int)}

theorem values_of_checkedValues {column : Array (Option Int)}
    (hc : checkedValues cells values = .ok column) :
    (cells.map fun i => values[i]?.join).toArray = column := by
  obtain ⟨_, -, hc⟩ := bind_eq_ok_iff.mp hc
  obtain ⟨found, hfound, rfl⟩ := map_eq_ok_iff.mp hc
  rw [eq_map_of_mapM_ok (fun i _ v hv => ?_) hfound]
  rw [Word.read_eq_ok_iff.mp hv]
  rfl

theorem checkedValues_eq (hin : ∀ i ∈ cells, i < values.size)
    (hroom : cells.length * 16 < twoTo 63) :
    checkedValues cells values = .ok (cells.map fun i => values[i]?.join).toArray := by
  have hread : ∀ i ∈ cells, Word.read values i = .ok values[i]?.join := by
    intro i hi
    rw [Word.read_eq_ok_iff, Array.getElem?_eq_getElem (hin i hi)]
    rfl
  unfold checkedValues
  rw [Word.room_of_lt hroom, ok_bind, mapM_eq_ok_of_forall hread]
  rfl

/-- The places of a rectangle, numbered one by one. -/
theorem map_number_places (g : Grid) (left bottom w h : Nat) :
    ((List.range h).flatMap fun j => (List.range w).map fun i => (left + i, bottom + j)).map
        (fun place => place.2 * g.width + place.1) =
      (g.rectangle left bottom w h).origin := by
  simp only [rectangle, List.map_flatMap, List.map_map, Function.comp_def]

/-- A rectangle that is cut out in words is the plain one. -/
theorem rectangle_of_checkedRectangle {c : Cutout}
    (hc : g.checkedRectangle left bottom w h = .ok c) : g.rectangle left bottom w h = c := by
  obtain ⟨_, -, hc⟩ := bind_eq_ok_iff.mp hc
  obtain ⟨_, -, hc⟩ := bind_eq_ok_iff.mp hc
  obtain ⟨origin, horigin, hc⟩ := bind_eq_ok_iff.mp hc
  obtain ⟨attributes, hattributes, hc⟩ := bind_eq_ok_iff.mp hc
  cases hc
  have horigin := eq_map_of_mapM_ok
    (fun place _ n hn => number_of_checkedNumber (x := place.1) (y := place.2) hn) horigin
  rw [map_number_places] at horigin
  subst horigin
  rw [← eq_map_of_mapM_ok (fun a _ b hb => ?_) hattributes]
  · rfl
  · obtain ⟨column, hcolumn, rfl⟩ := map_eq_ok_iff.mp hb
    rw [← values_of_checkedValues hcolumn]
    rfl

/-- A rectangle within the grid is cut out if every attribute has a value at each cell and there is
room for the values. -/
theorem checkedRectangle_eq (hsize : g.width * g.height < twoTo 64) (hg : g.Sized)
    (hx : left + w ≤ g.width) (hy : bottom + h ≤ g.height) (hroom : w * h * 16 < twoTo 63) :
    g.checkedRectangle left bottom w h = .ok (g.rectangle left bottom w h) := by
  have hcount : w * h < twoTo 64 := by
    have h64 : twoTo 64 = twoTo 63 * 2 := rfl
    omega
  have hplaces : ∀ place ∈ (List.range h).flatMap fun j =>
      (List.range w).map fun i => (left + i, bottom + j),
      g.checkedNumber place.1 place.2 = .ok (place.2 * g.width + place.1) := by
    intro place hplace
    obtain ⟨j, hj, hplace⟩ := List.mem_flatMap.mp hplace
    obtain ⟨i, hi, rfl⟩ := List.mem_map.mp hplace
    rw [List.mem_range] at hi hj
    exact checkedNumber_eq hsize (by omega) (by omega)
  have hcolumns : ∀ a ∈ g.attributes,
      (checkedValues (g.rectangle left bottom w h).origin a.2).map (a.1, ·) =
        .ok (a.1, ((g.rectangle left bottom w h).origin.map fun i => a.2[i]?.join).toArray) := by
    intro a ha
    have hfits := rectangle_fits hx hy
    have hin : ∀ v ∈ (g.rectangle left bottom w h).origin, v < a.2.size :=
      fun v hv => Nat.lt_of_lt_of_eq (hfits.inside v hv) (hg a ha).symm
    have hlength : (g.rectangle left bottom w h).origin.length = w * h := length_origin
    rw [checkedValues_eq hin (hlength ▸ hroom)]
    rfl
  unfold checkedRectangle
  rw [Word.mul_of_lt hcount, ok_bind, Word.room_of_lt (by omega), ok_bind]
  dsimp only
  rw [mapM_eq_ok_of_forall hplaces, ok_bind, map_number_places, mapM_eq_ok_of_forall hcolumns]
  rfl

end Rectangle

section Square
variable {cx cy radius : Nat}

/-- A square that is cut out in words is the plain one. -/
theorem neighborhood_of_cutOut {o : Option Cutout} (h : g.cutOut cx cy radius = .ok o) :
    g.neighborhood cx cy radius = o := by
  obtain ⟨center, hcenter, h⟩ := bind_eq_ok_iff.mp h
  have hindex := indexOf_of_checkedIndexOf hcenter
  unfold indexOf at hindex
  unfold neighborhood
  by_cases hin : cx < g.width ∧ cy < g.height
  · rw [if_pos hin] at hindex ⊢
    subst hindex
    obtain ⟨_, hx, h⟩ := bind_eq_ok_iff.mp h
    obtain ⟨-, rfl⟩ := Word.check_eq_ok_iff.mp hx
    obtain ⟨_, hy, h⟩ := bind_eq_ok_iff.mp h
    obtain ⟨-, rfl⟩ := Word.check_eq_ok_iff.mp hy
    obtain ⟨part, hpart, h⟩ := bind_eq_ok_iff.mp h
    cases h
    rw [rectangle_of_checkedRectangle hpart]
  · rw [if_neg hin] at hindex ⊢
    subst hindex
    exact Except.ok.inj h

/-- Outside the grid there is nothing to cut out, and nothing to compute. -/
theorem cutOut_outside (hin : ¬ (cx < g.width ∧ cy < g.height)) :
    g.cutOut cx cy radius = .ok none := by
  unfold cutOut checkedIndexOf
  rw [if_neg hin]
  rfl

section Words
variable (hsize : g.width * g.height < twoTo 64) (hcx : cx < g.width) (hcy : cy < g.height)
include hsize hcx hcy

/-- Around a cell the far sides are added up first. -/
theorem cutOut_overflow (hpast : twoTo 64 ≤ cx + radius ∨ twoTo 64 ≤ cy + radius) :
    g.cutOut cx cy radius = .error .overflow := by
  unfold cutOut
  rw [checkedIndexOf_eq hsize, ok_bind, indexOf_eq_some_iff.mpr ⟨hcx, hcy, rfl⟩]
  dsimp only
  by_cases hx : cx + radius < twoTo 64
  · rw [Word.add_of_lt hx, ok_bind,
      Word.add_of_le (hpast.resolve_left (Nat.not_le_of_lt hx)), error_bind]
  · rw [Word.add_of_le (Nat.le_of_not_lt hx), error_bind]

/-- A square whose far sides are words is cut out. -/
theorem cutOut_eq (hg : g.Sized) (hx : cx + radius < twoTo 64) (hy : cy + radius < twoTo 64)
    (hroom : extentTo g.width (cx - radius) (cx + radius) *
      extentTo g.height (cy - radius) (cy + radius) * 16 < twoTo 63) :
    g.cutOut cx cy radius = .ok (g.neighborhood cx cy radius) := by
  unfold cutOut neighborhood
  rw [checkedIndexOf_eq hsize, ok_bind, indexOf_eq_some_iff.mpr ⟨hcx, hcy, rfl⟩]
  dsimp only
  rw [if_pos ⟨hcx, hcy⟩, Word.add_of_lt hx, ok_bind, Word.add_of_lt hy, ok_bind,
    checkedRectangle_eq hsize hg (clipped_le hcx radius) (clipped_le hcy radius) hroom]
  rfl

end Words
end Square

end WaveCollapse.Grid
