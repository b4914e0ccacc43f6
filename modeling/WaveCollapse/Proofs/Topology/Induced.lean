import Mathlib.Algebra.Order.Group.Abs
import Mathlib.Algebra.Order.Group.Int
import WaveCollapse.Proofs.Topology.Words

/-! # The part of a grid around a cell

What is cut out around a cell is a rectangle, and everything about it is read off the corner at
which the rectangle starts: its cells are numbered row by row; its attributes are those of the
whole; and where the whole is clamped a cell of the part keeps exactly the edges whose other end
lies in the part, because the side of a cell leaves the rectangle exactly when the cell there is
none of its own.  The square around a cell, clipped to the grid, is such a rectangle.  Its far sides
must be found first, though, and a square that ends past the words is not cut out.
-/

namespace WaveCollapse.Grid

/-! ## Rows of numbers -/

theorem getElem?_rows {f : Nat → Nat → Nat} {w h i j : Nat} (hi : i < w) (hj : j < h) :
    ((List.range h).flatMap fun j => (List.range w).map (f j))[j * w + i]? = some (f j i) := by
  induction h with
  | zero => cases hj
  | succ h ih =>
    have hlength : ((List.range h).flatMap fun j => (List.range w).map (f j)).length = h * w := by
      simp [List.length_flatMap]
    rw [List.range_succ, List.flatMap_append]
    rcases Nat.lt_or_eq_of_le (Nat.le_of_lt_succ hj) with hlt | rfl
    · have hrow : (j + 1) * w ≤ h * w := Nat.mul_le_mul_right w hlt
      rw [Nat.succ_mul] at hrow
      rw [List.getElem?_append_left (by rw [hlength]; omega)]
      exact ih hlt
    · rw [List.getElem?_append_right (by rw [hlength]; omega), hlength, Nat.add_sub_cancel_left]
      simp [hi]

/-! ## Places in a rectangle -/

section Rectangle
variable {g : Grid} {left bottom w h : Nat}

/-- The cells of the rectangle, row by row. -/
theorem origin_getElem? {i j : Nat} (hi : i < w) (hj : j < h) :
    (g.rectangle left bottom w h).origin[j * w + i]? =
      some ((bottom + j) * g.width + (left + i)) :=
  getElem?_rows (f := fun j i => (bottom + j) * g.width + (left + i)) hi hj

/-- A place in the rectangle is a row and a place in the row. -/
theorem exists_place {k v : Nat} (hk : (g.rectangle left bottom w h).origin[k]? = some v) :
    ∃ i < w, ∃ j < h, k = j * w + i ∧ v = (bottom + j) * g.width + (left + i) := by
  have hlt : k < (g.rectangle left bottom w h).grid.size := by
    rw [← length_origin]
    exact (List.getElem?_eq_some_iff.mp hk).1
  obtain ⟨i, j, hi, hj, rfl⟩ := exists_cell hlt
  have hi' : i < w := hi
  have hj' : j < h := hj
  cases hk.symm.trans (origin_getElem? hi' hj')
  exact ⟨i, hi', j, hj', rfl, rfl⟩

/-- An attribute has its values at the cells of the rectangle. -/
theorem column_rectangle (name : String) : (g.rectangle left bottom w h).grid.column name =
    ((g.rectangle left bottom w h).origin.map (g.valueAt name)).toArray := by
  have hfind : (g.rectangle left bottom w h).grid.attributes.find? (·.1 == name) =
      (g.attributes.find? (·.1 == name)).map fun a =>
        (a.1, ((g.rectangle left bottom w h).origin.map fun v : Nat => a.2[v]?.join).toArray) := by
    show (g.attributes.map _).find? _ = _
    rw [List.find?_map]
    rfl
  have hvalue : g.valueAt name = fun v : Nat =>
      (((g.attributes.find? (·.1 == name)).map (·.2)).getD
        (Array.replicate g.size none))[v]?.join := rfl
  rw [hvalue]
  unfold column
  rw [hfind]
  cases g.attributes.find? (·.1 == name) with
  | some a => rfl
  | none =>
    -- an attribute that was never set has no value at any cell
    have hnone : ∀ v : Nat, ((Array.replicate g.size (none : Option Int))[v]?).join = none := by
      intro v
      rw [Array.getElem?_replicate]
      split <;> rfl
    simp only [Option.map_none, Option.getD_none, hnone, List.map_const', length_origin,
      List.toArray_replicate]

theorem valueAt_rectangle {k v : Nat} (hk : (g.rectangle left bottom w h).origin[k]? = some v)
    (name : String) : (g.rectangle left bottom w h).grid.valueAt name k = g.valueAt name v := by
  show ((g.rectangle left bottom w h).grid.column name)[k]?.join = _
  rw [column_rectangle, List.getElem?_toArray, List.getElem?_map, hk]
  rfl

section Inside
variable (hx : left + w ≤ g.width) (hy : bottom + h ≤ g.height)
include hx hy

/-- A cell of the whole belongs to the rectangle when its coordinates do. -/
theorem cell_mem_origin_iff {x y : Nat} (hxg : x < g.width) (hyg : y < g.height) :
    y * g.width + x ∈ (g.rectangle left bottom w h).origin ↔
      (left ≤ x ∧ x < left + w) ∧ bottom ≤ y ∧ y < bottom + h := by
  rw [mem_origin_iff]
  constructor
  · rintro ⟨i, hi, j, hj, heq⟩
    obtain ⟨rfl, rfl⟩ := index_inj hxg hyg (by omega) (by omega) heq
    omega
  · rintro ⟨⟨hl, hr⟩, hb, ht⟩
    exact ⟨x - left, by omega, y - bottom, by omega, by
      rw [Nat.add_sub_cancel' hl, Nat.add_sub_cancel' hb]⟩

/-- A place beside the rectangle is none of its own, and one within it stands for a cell. -/
theorem indexOf_rectangle (a b : Nat) :
    ((g.rectangle left bottom w h).grid.indexOf a b).map
        ((g.rectangle left bottom w h).origin[·]?) =
      ((g.indexOf (left + a) (bottom + b)).filter
        (· ∈ (g.rectangle left bottom w h).origin)).map some := by
  by_cases hab : a < w ∧ b < h
  · obtain ⟨ha, hb⟩ := hab
    have hsub : (g.rectangle left bottom w h).grid.indexOf a b = some (b * w + a) :=
      indexOf_eq_some_iff.mpr ⟨ha, hb, rfl⟩
    have hwhole : g.indexOf (left + a) (bottom + b) =
        some ((bottom + b) * g.width + (left + a)) :=
      indexOf_eq_some_iff.mpr ⟨by omega, by omega, rfl⟩
    have hmem := (cell_mem_origin_iff hx hy (by omega) (by omega)).mpr
      ⟨⟨Nat.le_add_right left a, Nat.add_lt_add_left ha _⟩,
        Nat.le_add_right bottom b, Nat.add_lt_add_left hb _⟩
    rw [hsub, hwhole, Option.filter_some_pos (by simpa using hmem), Option.map_some,
      Option.map_some, origin_getElem? ha hb]
  · have hsub : (g.rectangle left bottom w h).grid.indexOf a b = none := if_neg hab
    rw [hsub]
    cases hwhole : g.indexOf (left + a) (bottom + b) with
    | none => rfl
    | some v =>
      obtain ⟨hxg, hyg, rfl⟩ := indexOf_eq_some_iff.mp hwhole
      have hout : (bottom + b) * g.width + (left + a) ∉ (g.rectangle left bottom w h).origin := by
        rw [cell_mem_origin_iff hx hy hxg hyg]
        omega
      rw [Option.filter_some_neg (by simpa using hout)]
      rfl

/-- Each side of a cell is kept exactly when it leads into the rectangle. -/
theorem sides_rectangle (hg : g.boundary = .clamped) (i j : Nat) :
    let part := g.rectangle left bottom w h
    (part.grid.northOf i j).map (part.origin[·]?) =
        ((g.northOf (left + i) (bottom + j)).filter (· ∈ part.origin)).map some ∧
      (part.grid.eastOf i j).map (part.origin[·]?) =
        ((g.eastOf (left + i) (bottom + j)).filter (· ∈ part.origin)).map some ∧
      (part.grid.southOf i j).map (part.origin[·]?) =
        ((g.southOf (left + i) (bottom + j)).filter (· ∈ part.origin)).map some ∧
      (part.grid.westOf i j).map (part.origin[·]?) =
        ((g.westOf (left + i) (bottom + j)).filter (· ∈ part.origin)).map some := by
  intro part
  have hindex := indexOf_rectangle (g := g) hx hy
  have hout : ∀ x y, ¬ (left ≤ x ∧ bottom ≤ y) →
      ((g.indexOf x y).filter (· ∈ part.origin)).map some = none := by
    intro x y hxy
    cases hwhole : g.indexOf x y with
    | none => rfl
    | some v =>
      obtain ⟨hxg, hyg, rfl⟩ := indexOf_eq_some_iff.mp hwhole
      have hmem : y * g.width + x ∉ part.origin := by
        rw [cell_mem_origin_iff hx hy hxg hyg]
        omega
      rw [Option.filter_some_neg (by simpa using hmem)]
      rfl
  have hpart : part.grid.boundary = .clamped := rfl
  unfold northOf eastOf southOf westOf
  rw [hg, hpart]
  refine ⟨hindex i (j + 1), hindex (i + 1) j, ?_, ?_⟩
  · cases j with
    | succ j => exact hindex i j
    | zero =>
      -- south of the first row of the rectangle there may be a cell, but not of the part
      cases hb : bottom with
      | zero => rfl
      | succ b => exact (hout (left + i) b (by omega)).symm
  · cases i with
    | succ i => exact hindex i j
    | zero =>
      cases hl : left with
      | zero => rfl
      | succ l => exact (hout l (bottom + j) (by omega)).symm

end Inside
end Rectangle

/-! ## Edges -/

/-- An edge of the part, with the number that its other end has in the whole. -/
def Cutout.inWhole (c : Cutout) (e : Edge Nat) : Option (Edge Nat) :=
  (c.origin[e.other]?).map fun v => { e with other := v }

/-- Two lists of options that agree entry by entry, filtered and mapped. -/
theorem map_filterMap_id {α β γ : Type} {f : α → γ} {p : β → Bool} {k : β → γ}
    {ls : List (Option α)} {ms : List (Option β)}
    (h : List.Forall₂ (fun l m => l.map f = (m.filter p).map k) ls ms) :
    (ls.filterMap id).map f = ((ms.filterMap id).filter p).map k := by
  induction h with
  | nil => rfl
  | @cons l m ls ms hlm _ ih =>
    cases m with
    | none =>
      cases l with
      | none => exact ih
      | some a => cases hlm
    | some b =>
      by_cases hb : p b = true
      · rw [Option.filter_some_pos hb] at hlm
        cases l with
        | none => cases hlm
        | some a =>
          rw [List.filterMap_cons_some (f := id) rfl, List.filterMap_cons_some (f := id) rfl,
            List.filter_cons_of_pos hb, List.map_cons, List.map_cons, ih, Option.some.inj hlm]
      · rw [Option.filter_some_neg (Bool.eq_false_iff.mpr hb)] at hlm
        cases l with
        | none =>
          rw [List.filterMap_cons_none (f := id) rfl, List.filterMap_cons_some (f := id) rfl,
            List.filter_cons_of_neg hb, ih]
        | some a => cases hlm

theorem inWhole_side {c : Cutout} {sub whole : Option Nat}
    (h : sub.map (c.origin[·]?) = (whole.filter (· ∈ c.origin)).map some) (kind : Nat)
    (outgoing : Bool) : (sub.map fun n => (⟨n, kind, outgoing⟩ : Edge Nat)).map c.inWhole =
      ((whole.map fun v => (⟨v, kind, outgoing⟩ : Edge Nat)).filter
        (·.other ∈ c.origin)).map some := by
  have hsub : (sub.map fun n => (⟨n, kind, outgoing⟩ : Edge Nat)).map c.inWhole =
      (sub.map (c.origin[·]?)).map (Option.map fun v => ⟨v, kind, outgoing⟩) := by
    rw [Option.map_map, Option.map_map]
    rfl
  rw [hsub, h]
  cases whole with
  | none => rfl
  | some v =>
    rw [Option.map_some]
    by_cases hv : v ∈ c.origin
    · rw [Option.filter_some_pos (by simpa using hv), Option.filter_some_pos (by simpa using hv)]
      rfl
    · rw [Option.filter_some_neg (by simpa using hv), Option.filter_some_neg (by simpa using hv)]
      rfl

/-- **A part of a clamped grid has the edges of the whole between its cells**, in their order. -/
theorem incident_rectangle {g : Grid} {left bottom w h : Nat} (hg : g.boundary = .clamped)
    (hx : left + w ≤ g.width) (hy : bottom + h ≤ g.height) {k v : Nat}
    (hk : (g.rectangle left bottom w h).origin[k]? = some v) :
    let part := g.rectangle left bottom w h
    (part.grid.incident k).map part.inWhole =
      ((g.incident v).filter (·.other ∈ part.origin)).map some := by
  intro part
  obtain ⟨i, hi, j, hj, rfl, rfl⟩ := exists_place hk
  obtain ⟨hnorth, heast, hsouth, hwest⟩ := sides_rectangle hx hy hg i j
  have hcell : part.grid.incident (j * w + i) = _ := incident_cell (g := part.grid) hi hj
  rw [hcell, incident_cell (by omega) (by omega)]
  refine map_filterMap_id ?_
  exact .cons (inWhole_side hnorth _ _) (.cons (inWhole_side heast _ _)
    (.cons (inWhole_side hsouth _ _) (.cons (inWhole_side hwest _ _) .nil)))

/-! ## The square around a cell -/

/-- The part consists of the cells around `(cx, cy)`, with all that the whole has there. -/
structure Cutout.Surrounds (c : Cutout) (g : Grid) (cx cy radius : Nat) : Prop where
  /-- Its cells are those at most `radius` away from the centre in either coordinate. -/
  cells : ∀ v, v ∈ c.origin ↔ ∃ x y, g.coordsOf v = some (x, y) ∧
    |(x : Int) - cx| ≤ radius ∧ |(y : Int) - cy| ≤ radius
  /-- They stand in increasing order, and no cell stands twice. -/
  increasing : c.origin.Pairwise (· < ·)
  /-- Every cell of the part comes from one of the whole. -/
  size : c.grid.size = c.origin.length
  /-- Cell `(i, j)` of the part is that many cells away from the first cell of the square. -/
  laid : ∀ i j k, c.grid.indexOf i j = some k → ∃ v, c.origin[k]? = some v ∧
    g.coordsOf v = some (cx - radius + i, cy - radius + j)
  /-- All attributes are kept. -/
  attributes : ∀ name (k v : Nat), c.origin[k]? = some v →
    c.grid.valueAt name k = g.valueAt name v
  /-- The part does not wrap around. -/
  clamped : c.grid.boundary = .clamped
  /-- Of a whole that does not either, a cell has the edges to other cells of the part, in their
  order. -/
  edges : g.boundary = .clamped → ∀ k v : Nat, c.origin[k]? = some v →
    (c.grid.incident k).map c.inWhole =
      ((g.incident v).filter (·.other ∈ c.origin)).map some

theorem neighborhood_surrounds {g : Grid} {cx cy : Nat} (hcx : cx < g.width)
    (hcy : cy < g.height) (radius : Nat) :
    ∃ c, g.neighborhood cx cy radius = some c ∧ c.Surrounds g cx cy radius := by
  refine ⟨_, neighborhood_eq_some_iff.mpr ⟨⟨hcx, hcy⟩, rfl⟩, ?_⟩
  have hx := clipped_le hcx radius
  have hy := clipped_le hcy radius
  refine ⟨fun v => ?_, origin_increasing hx, length_origin.symm, fun i j k hk => ?_,
    fun name k v hk => valueAt_rectangle hk name, rfl,
    fun hg k v hk => incident_rectangle hg hx hy hk⟩
  · constructor
    · intro hv
      obtain ⟨i, hi, j, hj, rfl⟩ := mem_origin_iff.mp hv
      unfold extentTo at hi hj
      refine ⟨_, _, coordsOf_eq_some_iff.mpr ⟨by omega, by omega, rfl⟩, ?_, ?_⟩
      · rw [abs_le]
        omega
      · rw [abs_le]
        omega
    · rintro ⟨x, y, hcell, hnearx, hneary⟩
      obtain ⟨hxg, hyg, rfl⟩ := coordsOf_eq_some_iff.mp hcell
      rw [abs_le] at hnearx hneary
      rw [cell_mem_origin_iff hx hy hxg hyg]
      unfold extentTo
      omega
  · obtain ⟨hi, hj, rfl⟩ := indexOf_eq_some_iff.mp hk
    refine ⟨_, origin_getElem? hi hj, coordsOf_eq_some_iff.mpr ⟨?_, ?_, rfl⟩⟩
    · exact Nat.lt_of_lt_of_le (Nat.add_lt_add_left hi _) hx
    · exact Nat.lt_of_lt_of_le (Nat.add_lt_add_left hj _) hy

/-- **The square around a cell is cut out when its far sides are words.**  There is nothing to cut
out exactly when the centre is outside the grid.  In a grid whose number of cells is a word and
whose attributes have a value at each cell, around a cell, if there is room for a value at each cell
of the square: a square that would end past the words stops the computation, and any other is cut
out, with its cells, their attributes and the edges between them, however much of it the grid
has. -/
theorem cutOut_surrounds (g : Grid) (cx cy radius : Nat) :
    (g.cutOut cx cy radius = .ok none ↔ ¬ (cx < g.width ∧ cy < g.height)) ∧
    (g.width * g.height < twoTo 64 → g.Sized →
      extentTo g.width (cx - radius) (cx + radius) *
        extentTo g.height (cy - radius) (cy + radius) * 16 < twoTo 63 →
      cx < g.width → cy < g.height →
      ((twoTo 64 ≤ cx + radius ∨ twoTo 64 ≤ cy + radius) →
        g.cutOut cx cy radius = .error .overflow) ∧
      (cx + radius < twoTo 64 → cy + radius < twoTo 64 →
        ∃ c, g.cutOut cx cy radius = .ok (some c) ∧ c.Surrounds g cx cy radius)) := by
  refine ⟨⟨fun h hin => ?_, cutOut_outside⟩, fun hsize hg hroom hcx hcy =>
    ⟨cutOut_overflow hsize hcx hcy, fun hx hy => ?_⟩⟩
  · have hnone := neighborhood_of_cutOut h
    unfold neighborhood at hnone
    rw [if_pos hin] at hnone
    cases hnone
  · obtain ⟨c, hc, hsurrounds⟩ := neighborhood_surrounds hcx hcy radius
    refine ⟨c, ?_, hsurrounds⟩
    rw [cutOut_eq hsize hcx hcy hg hx hy hroom, hc]

/-- At a corner of a clamped grid, where the square is clipped on two sides; with a radius for which
the far sides are just words; and outside the grid, where the radius does not matter. -/
theorem cutOut_surrounds_corner :
    let g := ({ width := 4, height := 3 } : Grid).setAttribute "boundary" 1 (some 7)
    (∃ c, g.cutOut 0 0 1 = .ok (some c) ∧ c.Surrounds g 0 0 1 ∧ c.origin = [0, 1, 4, 5] ∧
      c.grid.valueAt "boundary" 1 = some 7 ∧
      (c.grid.incident 3).map c.inWhole =
        [some ⟨1, Compass.north, false⟩, some ⟨4, Compass.east, false⟩]) ∧
    (∃ c, g.cutOut 3 2 (twoTo 64 - 4) = .ok (some c) ∧ c.Surrounds g 3 2 (twoTo 64 - 4)) ∧
    g.cutOut 4 0 (twoTo 64) = .ok none := by
  intro g
  have hplain : ({ width := 4, height := 3 } : Grid).Sized := by
    intro a ha
    cases ha
  have hg : g.Sized := hplain.setAttribute _ _ _
  obtain ⟨-, hcorner⟩ := cutOut_surrounds g 0 0 1
  obtain ⟨-, hwide⟩ := cutOut_surrounds g 3 2 (twoTo 64 - 4)
  obtain ⟨houtside, -⟩ := cutOut_surrounds g 4 0 (twoTo 64)
  obtain ⟨-, hcorner⟩ := hcorner (by decide) hg (by decide) (by decide) (by decide)
  obtain ⟨-, hwide⟩ := hwide (by decide) hg (by decide) (by decide) (by decide)
  refine ⟨?_, hwide (by decide) (by decide), houtside.mpr (by decide)⟩
  obtain ⟨c, hc, hsurrounds⟩ := hcorner (by decide) (by decide)
  have horigin : c.origin = [0, 1, 4, 5] := by
    have hpart := neighborhood_of_cutOut hc
    cases hpart
    rfl
  refine ⟨c, hc, hsurrounds, horigin, ?_, ?_⟩
  · rw [hsurrounds.attributes "boundary" 1 1 (by rw [horigin]; rfl)]
    decide
  · rw [hsurrounds.edges rfl 3 5 (by rw [horigin]; rfl), horigin]
    decide

/-- Around the second of two cells with the largest radius there is, every cell is near enough, but
the far side of the square is no word: nothing is cut out, where one number less gives both
cells. -/
theorem cutOut_past_words :
    let g : Grid := { width := 2, height := 1 }
    let radius := twoTo 64 - 1
    (1 < g.width ∧ 0 < g.height ∧ radius < twoTo 64) ∧
      (∀ v x y, g.coordsOf v = some (x, y) → |(x : Int) - (1 : Nat)| ≤ radius ∧
        |(y : Int) - (0 : Nat)| ≤ radius) ∧
      g.cutOut 1 0 radius = .error .overflow ∧
      ¬ (∃ c, g.cutOut 1 0 radius = .ok (some c) ∧ c.Surrounds g 1 0 radius) ∧
      ∃ c, g.cutOut 1 0 (radius - 1) = .ok (some c) ∧ c.origin = [0, 1] := by
  intro g radius
  have hsize : g.width * g.height < twoTo 64 := by decide
  have hpast : g.cutOut 1 0 radius = .error .overflow :=
    cutOut_overflow hsize (by decide) (by decide) (.inl (by decide))
  refine ⟨by decide, fun v x y hcell => ?_, hpast, ?_, g.rectangle 0 0 2 1, ?_, rfl⟩
  · obtain ⟨hx, hy, -⟩ := coordsOf_eq_some_iff.mp hcell
    have hx' : x < 2 := hx
    have hy' : y < 1 := hy
    have hradius : radius = 18446744073709551615 := rfl
    rw [abs_le, abs_le, hradius]
    omega
  · rintro ⟨c, hc, -⟩
    cases hpast.symm.trans hc
  · have hg : g.Sized := by
      intro a ha
      cases ha
    rw [cutOut_eq hsize (by decide) (by decide) hg (by decide) (by decide) (by decide)]
    have hleft : 1 - (radius - 1) = 0 := by decide
    have hbottom : 0 - (radius - 1) = 0 := by decide
    have hw : extentTo g.width (1 - (radius - 1)) (1 + (radius - 1)) = 2 := by decide
    have hh : extentTo g.height (0 - (radius - 1)) (0 + (radius - 1)) = 1 := by decide
    rw [neighborhood, if_pos (by decide), hw, hh, hleft, hbottom]

end WaveCollapse.Grid
