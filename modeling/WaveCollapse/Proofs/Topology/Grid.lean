import WaveCollapse.Topology.Grid

/-! # Cells, edges and attributes of a grid

The number of a cell and its coordinates determine each other.  The edges at a cell lead to its
neighbours on the four sides and are seen from there as well (`mem_incident_swap`), and setting
an attribute at a cell changes nothing else.
-/

namespace WaveCollapse.Grid
variable {g : Grid}

/-! ## Cells -/

theorem indexOf_eq_some_iff {x y i : Nat} :
    g.indexOf x y = some i ↔ x < g.width ∧ y < g.height ∧ i = y * g.width + x := by
  unfold indexOf
  by_cases hin : x < g.width ∧ y < g.height
  · rw [if_pos hin, Option.some.injEq, ← and_assoc, and_iff_right hin]
    exact eq_comm
  · rw [if_neg hin]
    refine iff_of_false (fun h => nomatch h) ?_
    rintro ⟨hx, hy, -⟩
    exact hin ⟨hx, hy⟩

theorem index_lt_size {x y : Nat} (hx : x < g.width) (hy : y < g.height) :
    y * g.width + x < g.size := by
  have hrows : (y + 1) * g.width ≤ g.height * g.width := Nat.mul_le_mul_right _ hy
  rw [Nat.succ_mul] at hrows
  unfold size
  rw [Nat.mul_comm g.width]
  omega

theorem coordsOf_eq_some_iff {i x y : Nat} :
    g.coordsOf i = some (x, y) ↔ x < g.width ∧ y < g.height ∧ i = y * g.width + x := by
  unfold coordsOf
  constructor
  · intro h
    split at h
    · next hi =>
      cases h
      unfold size at hi
      have hpos : 0 < g.width := Nat.pos_of_mul_pos_right (Nat.zero_lt_of_lt hi)
      refine ⟨Nat.mod_lt _ hpos, Nat.div_lt_of_lt_mul hi, ?_⟩
      rw [Nat.mul_comm]
      exact (Nat.div_add_mod i g.width).symm
    · cases h
  · rintro ⟨hx, hy, rfl⟩
    rw [if_pos (index_lt_size hx hy)]
    have hpos : 0 < g.width := Nat.zero_lt_of_lt hx
    rw [Nat.mul_comm, Nat.mul_add_mod, Nat.mod_eq_of_lt hx, Nat.mul_add_div hpos,
      Nat.div_eq_of_lt hx, Nat.add_zero]

/-- Every number below the size is that of a cell. -/
theorem exists_cell {i : Nat} (hi : i < g.size) :
    ∃ x y, x < g.width ∧ y < g.height ∧ i = y * g.width + x := by
  have h : g.coordsOf i = some (i % g.width, i / g.width) := if_pos hi
  exact ⟨_, _, coordsOf_eq_some_iff.mp h⟩

/-- Cells with one number have the same coordinates. -/
theorem index_inj {x y x' y' : Nat} (hx : x < g.width) (hy : y < g.height) (hx' : x' < g.width)
    (hy' : y' < g.height) (h : y * g.width + x = y' * g.width + x') : x = x' ∧ y = y' := by
  have hcoords := coordsOf_eq_some_iff.mpr ⟨hx, hy, rfl⟩
  rw [h, coordsOf_eq_some_iff.mpr ⟨hx', hy', rfl⟩] at hcoords
  cases hcoords
  exact ⟨rfl, rfl⟩

theorem indexOf_eq_some_iff_coordsOf {x y i : Nat} :
    g.indexOf x y = some i ↔ g.coordsOf i = some (x, y) :=
  indexOf_eq_some_iff.trans coordsOf_eq_some_iff.symm

theorem exists_indexOf_iff {x y : Nat} :
    (∃ i, g.indexOf x y = some i) ↔ x < g.width ∧ y < g.height := by
  simp only [indexOf_eq_some_iff]
  exact ⟨fun ⟨_, hx, hy, _⟩ => ⟨hx, hy⟩, fun ⟨hx, hy⟩ => ⟨_, hx, hy, rfl⟩⟩

theorem exists_coordsOf_iff {i : Nat} : (∃ c, g.coordsOf i = some c) ↔ i < g.size := by
  unfold coordsOf
  split
  · next hi => exact iff_of_true ⟨_, rfl⟩ hi
  · next hi => exact iff_of_false (fun ⟨_, h⟩ => nomatch h) hi

/-! ## Edges -/

theorem incident_cell {x y : Nat} (hx : x < g.width) (hy : y < g.height) :
    g.incident (y * g.width + x) =
      [(g.northOf x y).map (⟨·, Compass.north, true⟩),
        (g.eastOf x y).map (⟨·, Compass.east, true⟩),
        (g.southOf x y).map (⟨·, Compass.north, false⟩),
        (g.westOf x y).map (⟨·, Compass.east, false⟩)].filterMap id := by
  unfold incident
  rw [coordsOf_eq_some_iff.mpr ⟨hx, hy, rfl⟩]

theorem north_mem_incident {x y j : Nat} (hx : x < g.width) (hy : y < g.height)
    (h : g.northOf x y = some j) :
    (⟨j, Compass.north, true⟩ : Edge Nat) ∈ g.incident (y * g.width + x) := by
  rw [incident_cell hx hy, List.mem_filterMap]
  exact ⟨some ⟨j, Compass.north, true⟩, by simp [h], rfl⟩

theorem east_mem_incident {x y j : Nat} (hx : x < g.width) (hy : y < g.height)
    (h : g.eastOf x y = some j) :
    (⟨j, Compass.east, true⟩ : Edge Nat) ∈ g.incident (y * g.width + x) := by
  rw [incident_cell hx hy, List.mem_filterMap]
  exact ⟨some ⟨j, Compass.east, true⟩, by simp [h], rfl⟩

/-- Inside the grid the cell to the north is one row further. -/
theorem northOf_inner {x y : Nat} (hx : x < g.width) (hy : y + 1 < g.height) :
    g.northOf x y = some ((y + 1) * g.width + x) := by
  unfold northOf
  cases g.boundary with
  | clamped => exact indexOf_eq_some_iff.mpr ⟨hx, hy, rfl⟩
  | periodic =>
    dsimp only
    rw [Nat.mod_eq_of_lt hy]
    exact indexOf_eq_some_iff.mpr ⟨hx, hy, rfl⟩

theorem eastOf_inner {x y : Nat} (hx : x + 1 < g.width) (hy : y < g.height) :
    g.eastOf x y = some (y * g.width + (x + 1)) := by
  unfold eastOf
  cases g.boundary with
  | clamped => exact indexOf_eq_some_iff.mpr ⟨hx, hy, rfl⟩
  | periodic =>
    dsimp only
    rw [Nat.mod_eq_of_lt hx]
    exact indexOf_eq_some_iff.mpr ⟨hx, hy, rfl⟩

/-- Around a periodic grid the northernmost row is followed by the southernmost. -/
theorem northOf_last {x y : Nat} (hg : g.boundary = .periodic) (hx : x < g.width)
    (hy : y + 1 = g.height) : g.northOf x y = some (0 * g.width + x) := by
  unfold northOf
  rw [hg]
  dsimp only
  rw [hy, Nat.mod_self]
  exact indexOf_eq_some_iff.mpr ⟨hx, by omega, rfl⟩

theorem eastOf_last {x y : Nat} (hg : g.boundary = .periodic) (hx : x + 1 = g.width)
    (hy : y < g.height) : g.eastOf x y = some (y * g.width + 0) := by
  unfold eastOf
  rw [hg]
  dsimp only
  rw [hx, Nat.mod_self]
  exact indexOf_eq_some_iff.mpr ⟨by omega, hy, rfl⟩

theorem incident_eq_nil {i : Nat} (hi : g.size ≤ i) : g.incident i = [] := by
  unfold incident coordsOf
  rw [if_neg (Nat.not_lt_of_le hi)]

/-- The four edges at a cell. -/
theorem mem_incident_cell_iff {x y : Nat} (hx : x < g.width) (hy : y < g.height)
    {e : Edge Nat} : e ∈ g.incident (y * g.width + x) ↔
      g.northOf x y = some e.other ∧ e.kind = Compass.north ∧ e.outgoing = true ∨
      g.eastOf x y = some e.other ∧ e.kind = Compass.east ∧ e.outgoing = true ∨
      g.southOf x y = some e.other ∧ e.kind = Compass.north ∧ e.outgoing = false ∨
      g.westOf x y = some e.other ∧ e.kind = Compass.east ∧ e.outgoing = false := by
  obtain ⟨other, kind, outgoing⟩ := e
  rw [incident_cell hx hy]
  simp only [List.mem_filterMap, List.mem_cons, List.not_mem_nil, or_false, id, exists_eq_right]
  simp only [eq_comm (a := some _), Option.map_eq_some_iff, Edge.mk.injEq]
  grind

theorem indexOf_eq_cell_iff {a b x y : Nat} (hx : x < g.width) (hy : y < g.height) :
    g.indexOf a b = some (y * g.width + x) ↔ a = x ∧ b = y := by
  rw [indexOf_eq_some_iff]
  constructor
  · rintro ⟨ha, hb, h⟩
    obtain ⟨rfl, rfl⟩ := index_inj ha hb hx hy h.symm
    exact ⟨rfl, rfl⟩
  · rintro ⟨rfl, rfl⟩
    exact ⟨hx, hy, rfl⟩

/-- Counting on around a circle. -/
theorem succ_mod_eq_iff {a b n : Nat} (ha : a < n) (hb : b < n) :
    (a + 1) % n = b ↔ a + 1 = b ∨ a + 1 = n ∧ b = 0 := by
  rcases Nat.lt_or_eq_of_le (Nat.succ_le_of_lt ha) with hlt | heq
  · rw [Nat.mod_eq_of_lt hlt]
    omega
  · rw [Nat.succ_eq_add_one] at heq
    rw [heq, Nat.mod_self]
    omega

/-- One cell is north of another exactly when the other is south of it. -/
theorem northOf_eq_some_iff {x y x' y' : Nat} (hx : x < g.width) (hy : y < g.height)
    (hx' : x' < g.width) (hy' : y' < g.height) :
    g.northOf x y = some (y' * g.width + x') ↔ g.southOf x' y' = some (y * g.width + x) := by
  unfold northOf southOf
  cases g.boundary with
  | clamped =>
    rw [indexOf_eq_cell_iff hx' hy']
    cases y' with
    | zero => simp
    | succ n =>
      dsimp only
      rw [indexOf_eq_cell_iff hx hy]
      omega
  | periodic =>
    dsimp only
    rw [indexOf_eq_cell_iff hx' hy', succ_mod_eq_iff hy hy']
    cases y' with
    | zero | succ =>
      dsimp only
      rw [indexOf_eq_cell_iff hx hy]
      omega

/-- One cell is east of another exactly when the other is west of it. -/
theorem eastOf_eq_some_iff {x y x' y' : Nat} (hx : x < g.width) (hy : y < g.height)
    (hx' : x' < g.width) (hy' : y' < g.height) :
    g.eastOf x y = some (y' * g.width + x') ↔ g.westOf x' y' = some (y * g.width + x) := by
  unfold eastOf westOf
  cases g.boundary with
  | clamped =>
    rw [indexOf_eq_cell_iff hx' hy']
    cases x' with
    | zero => simp
    | succ n =>
      dsimp only
      rw [indexOf_eq_cell_iff hx hy]
      omega
  | periodic =>
    dsimp only
    rw [indexOf_eq_cell_iff hx' hy', succ_mod_eq_iff hx hx']
    cases x' with
    | zero | succ =>
      dsimp only
      rw [indexOf_eq_cell_iff hx hy]
      omega

/-- What is next to a cell is a cell. -/
theorem cell_of_neighbour {x y j : Nat} (h : g.northOf x y = some j ∨ g.eastOf x y = some j ∨
    g.southOf x y = some j ∨ g.westOf x y = some j) :
    ∃ x' y', x' < g.width ∧ y' < g.height ∧ j = y' * g.width + x' := by
  have hcell : ∀ {a b}, g.indexOf a b = some j →
      ∃ x' y', x' < g.width ∧ y' < g.height ∧ j = y' * g.width + x' :=
    fun h => ⟨_, _, indexOf_eq_some_iff.mp h⟩
  unfold northOf eastOf southOf westOf at h
  rcases h with h | h | h | h
  · split at h <;> exact hcell h
  · split at h <;> exact hcell h
  · split at h
    · cases h
    · exact hcell h
    · exact hcell h
  · split at h
    · cases h
    · exact hcell h
    · exact hcell h

/-- **An edge of a grid is seen from both of its ends**, with one type and with opposite
orientations, however the grid wraps around and however small it is. -/
theorem mem_incident_swap {u : Nat} {e : Edge Nat} (h : e ∈ g.incident u) :
    e.other < g.size ∧ (⟨u, e.kind, !e.outgoing⟩ : Edge Nat) ∈ g.incident e.other := by
  have hu : u < g.size := by
    refine Nat.lt_of_not_le fun hle => ?_
    rw [incident_eq_nil hle] at h
    cases h
  obtain ⟨x, y, hx, hy, rfl⟩ := exists_cell hu
  obtain ⟨other, kind, outgoing⟩ := e
  rw [mem_incident_cell_iff hx hy] at h
  dsimp only at h ⊢
  obtain ⟨x', y', hx', hy', rfl⟩ := cell_of_neighbour (x := x) (y := y) (j := other) 
    (h.imp And.left (.imp And.left (.imp And.left And.left)))
  refine ⟨index_lt_size hx' hy', (mem_incident_cell_iff hx' hy').mpr ?_⟩
  dsimp only
  rcases h with ⟨hside, rfl, rfl⟩ | ⟨hside, rfl, rfl⟩ | ⟨hside, rfl, rfl⟩ | ⟨hside, rfl, rfl⟩
  · exact .inr (.inr (.inl ⟨(northOf_eq_some_iff hx hy hx' hy').mp hside, rfl, rfl⟩))
  · exact .inr (.inr (.inr ⟨(eastOf_eq_some_iff hx hy hx' hy').mp hside, rfl, rfl⟩))
  · exact .inl ⟨(northOf_eq_some_iff hx' hy' hx hy).mpr hside, rfl, rfl⟩
  · exact .inr (.inl ⟨(eastOf_eq_some_iff hx' hy' hx hy).mpr hside, rfl, rfl⟩)

/-! ## Attributes -/

/-- Every attribute has a value for each cell. -/
def Sized (g : Grid) : Prop := ∀ a ∈ g.attributes, a.2.size = g.size

theorem Sized.column (hg : g.Sized) (name : String) : (g.column name).size = g.size := by
  unfold Grid.column
  cases hfind : g.attributes.find? (·.1 == name) with
  | none => exact Array.size_replicate
  | some a => exact hg a (List.mem_of_find?_eq_some hfind)

/-- The grids with the same cells and edges. -/
structure SameShape (g h : Grid) : Prop where
  width : g.width = h.width
  height : g.height = h.height
  boundary : g.boundary = h.boundary

theorem SameShape.size {h : Grid} (hgh : g.SameShape h) : g.size = h.size := by
  unfold Grid.size
  rw [hgh.width, hgh.height]

theorem SameShape.trans {h k : Grid} (hgh : g.SameShape h) (hhk : h.SameShape k) :
    g.SameShape k :=
  ⟨hgh.width.trans hhk.width, hgh.height.trans hhk.height, hgh.boundary.trans hhk.boundary⟩

/-- The edges of a grid do not depend on its attributes. -/
theorem SameShape.incident {h : Grid} (hgh : g.SameShape h) : g.incident = h.incident := by
  obtain ⟨width, height, boundary, attributes⟩ := g
  obtain ⟨hwidth, hheight, hboundary⟩ := hgh
  cases hwidth
  cases hheight
  cases hboundary
  rfl

theorem sameShape_setAttribute (g : Grid) (name : String) (i : Nat) (value : Option Int) :
    (g.setAttribute name i value).SameShape g := by
  unfold setAttribute
  split <;> exact ⟨rfl, rfl, rfl⟩

theorem Sized.setAttribute (hg : g.Sized) (name : String) (i : Nat) (value : Option Int) :
    (g.setAttribute name i value).Sized := by
  intro a ha
  rw [(sameShape_setAttribute g name i value).size]
  unfold Grid.setAttribute at ha
  split at ha
  · rcases List.mem_cons.mp ha with rfl | ha
    · exact Array.size_setIfInBounds.trans (hg.column name)
    · exact hg a (List.mem_filter.mp ha).1
  · exact hg a ha

/-- A named entry that replaces those of its name. -/
theorem find?_replaced {α : Type} (l : List (String × α)) (name : String) (a : α)
    (other : String) : ((name, a) :: l.filter (·.1 != name)).find? (·.1 == other) =
      if other = name then some (name, a) else l.find? (·.1 == other) := by
  by_cases hname : other = name
  · subst hname
    rw [if_pos rfl]
    exact List.find?_cons_of_pos (beq_self_eq_true other)
  · rw [if_neg hname, List.find?_cons_of_neg (by simpa using Ne.symm hname), List.find?_filter]
    congr 1
    funext b
    -- an entry of another name is kept by the filter
    by_cases hb : b.1 = other
    · simp [hb, hname]
    · simp [hb]

theorem column_setAttribute {i : Nat} (hi : i < g.size) (name : String) (value : Option Int)
    (other : String) : (g.setAttribute name i value).column other =
      if other = name then (g.column name).setIfInBounds i value else g.column other := by
  unfold setAttribute
  rw [if_pos hi]
  show ((List.find? (·.1 == other) ((name, (g.column name).setIfInBounds i value) ::
    g.attributes.filter (·.1 != name))).map (·.2)).getD (Array.replicate g.size none) = _
  rw [find?_replaced]
  by_cases hname : other = name
  · rw [if_pos hname, if_pos hname]
    rfl
  · rw [if_neg hname, if_neg hname]
    rfl

/-- Setting an attribute at a cell changes that value only. -/
theorem Sized.valueAt_setAttribute (hg : g.Sized) {i : Nat} (hi : i < g.size) (name : String)
    (value : Option Int) (other : String) (j : Nat) :
    (g.setAttribute name i value).valueAt other j =
      if other = name ∧ j = i then value else g.valueAt other j := by
  unfold valueAt
  rw [column_setAttribute hi]
  by_cases hname : other = name
  · subst hname
    rw [if_pos rfl, Array.getElem?_setIfInBounds]
    by_cases hj : j = i
    · subst hj
      rw [if_pos rfl, if_pos (Nat.lt_of_lt_of_eq hi (hg.column other).symm), if_pos ⟨rfl, rfl⟩]
      rfl
    · rw [if_neg (Ne.symm hj), if_neg (fun h => hj h.2)]
  · rw [if_neg hname, if_neg (fun h => hname h.1)]

end WaveCollapse.Grid
