import Mathlib.Data.List.Nodup
import WaveCollapse.Proofs.Topology.Grid

/-! # Parts cut out of a grid

The cells of a part are different cells of the whole (`Cutout.Fits`).  The part keeps an edge at
one of its cells if it has one of the same type and orientation that leads to the same cell
(`Cutout.Keeps`).  It does not keep the edges that leave it, and it is clamped, so it does not
keep those that wrap around either, although both of their ends may lie in it.  An edge that is
kept at one end is kept at the other (`Cutout.keeps_swap`), so where an edge within the part is
lost both of its ends lose it.  What is cut out around a cell is a rectangle (`Grid.rectangle`),
and a rectangle within the grid fits.
-/

namespace WaveCollapse.Grid

namespace Cutout

/-- The cells of a part are different cells of the whole, and its attributes have a value for
each of them. -/
structure Fits (c : Cutout) (g : Grid) : Prop where
  nodup : c.origin.Nodup
  inside : ∀ v ∈ c.origin, v < g.size
  length : c.origin.length = c.grid.size
  sized : c.grid.Sized

/-- The part has an edge at cell `i` that stands for the edge `e` of the whole. -/
def Keeps (c : Cutout) (i : Nat) (e : Edge Nat) : Prop :=
  ∃ d ∈ c.grid.incident i,
    d.kind = e.kind ∧ d.outgoing = e.outgoing ∧ c.origin[d.other]? = some e.other

instance (c : Cutout) (i : Nat) (e : Edge Nat) : Decidable (c.Keeps i e) :=
  inferInstanceAs (Decidable (∃ d ∈ _, _))

/-- Some edge of the whole at cell `i` is lost in the part. -/
def Severs (c : Cutout) (g : Grid) (i : Nat) : Prop :=
  match c.origin[i]? with
  | some v => ∃ e ∈ g.incident v, ¬ c.Keeps i e
  | none => False

instance (c : Cutout) (g : Grid) (i : Nat) : Decidable (c.Severs g i) := by
  unfold Severs
  split <;> infer_instance

theorem severs_of_not_keeps {c : Cutout} {g : Grid} {i v : Nat} (hi : c.origin[i]? = some v)
    {e : Edge Nat} (he : e ∈ g.incident v) (hlost : ¬ c.Keeps i e) : c.Severs g i := by
  unfold Severs
  rw [hi]
  exact ⟨e, he, hlost⟩

/-- An edge within the part that is kept at one end is kept at the other. -/
theorem keeps_swap {c : Cutout} {j u v kind : Nat} {outgoing : Bool}
    (hj : c.origin[j]? = some v) (hkept : c.Keeps j ⟨u, kind, !outgoing⟩) :
    ∃ i, c.origin[i]? = some u ∧ c.Keeps i ⟨v, kind, outgoing⟩ := by
  obtain ⟨d, hd, hkind, hout, hother⟩ := hkept
  refine ⟨d.other, hother, _, (mem_incident_swap hd).2, hkind, ?_, hj⟩
  simp [hout]

end Cutout

/-! ## Rectangles -/

/-- The square around a cell, clipped to the grid, is a rectangle. -/
theorem neighborhood_eq_some_iff {g : Grid} {cx cy radius : Nat} {c : Cutout} :
    g.neighborhood cx cy radius = some c ↔ (cx < g.width ∧ cy < g.height) ∧
      c = g.rectangle (cx - radius) (cy - radius)
        (extentTo g.width (cx - radius) (cx + radius))
        (extentTo g.height (cy - radius) (cy + radius)) := by
  unfold neighborhood
  by_cases hin : cx < g.width ∧ cy < g.height
  · rw [if_pos hin, and_iff_right hin, Option.some.injEq]
    exact eq_comm
  · rw [if_neg hin]
    exact iff_of_false (fun h => nomatch h) fun h => hin h.1

section Rectangle
variable {g : Grid} {left bottom w h : Nat}

theorem length_origin : (g.rectangle left bottom w h).origin.length =
    (g.rectangle left bottom w h).grid.size := by
  simp [rectangle, size, Nat.mul_comm, List.length_flatMap]

theorem mem_origin_iff {v : Nat} : v ∈ (g.rectangle left bottom w h).origin ↔
    ∃ i < w, ∃ j < h, v = (bottom + j) * g.width + (left + i) := by
  simp only [rectangle, List.mem_flatMap, List.mem_map, List.mem_range]
  constructor
  · rintro ⟨j, hj, i, hi, rfl⟩
    exact ⟨i, hi, j, hj, rfl⟩
  · rintro ⟨i, hi, j, hj, rfl⟩
    exact ⟨j, hj, i, hi, rfl⟩

/-- The numbers of the cells grow. -/
theorem origin_increasing (hx : left + w ≤ g.width) :
    (g.rectangle left bottom w h).origin.Pairwise (· < ·) := by
  refine List.pairwise_flatMap.mpr ⟨fun j _ => ?_, ?_⟩
  · refine List.pairwise_map.mpr (List.pairwise_lt_range.imp fun {i i'} hlt => ?_)
    omega
  · refine List.pairwise_lt_range.imp_of_mem fun {j j'} _ _ hlt => ?_
    intro v hv v' hv'
    obtain ⟨i, hi, rfl⟩ := List.mem_map.mp hv
    obtain ⟨i', hi', rfl⟩ := List.mem_map.mp hv'
    -- a row ends before the next one starts
    have hrow : (bottom + j + 1) * g.width ≤ (bottom + j') * g.width :=
      Nat.mul_le_mul_right _ (by omega)
    rw [Nat.succ_mul] at hrow
    rw [List.mem_range] at hi
    omega

/-- A rectangle that lies within the grid fits. -/
theorem rectangle_fits (hx : left + w ≤ g.width) (hy : bottom + h ≤ g.height) :
    (g.rectangle left bottom w h).Fits g where
  nodup := (origin_increasing hx).imp Nat.ne_of_lt
  inside v hv := by
    obtain ⟨i, hi, j, hj, rfl⟩ := mem_origin_iff.mp hv
    exact index_lt_size (by omega) (by omega)
  length := length_origin
  sized a ha := by
    obtain ⟨b, -, rfl⟩ := List.mem_map.mp ha
    rw [List.size_toArray, List.length_map]
    exact length_origin

end Rectangle

/-- A side of the square, clipped to the grid, ends within it. -/
theorem clipped_le {c n : Nat} (hc : c < n) (radius : Nat) :
    c - radius + extentTo n (c - radius) (c + radius) ≤ n := by
  unfold extentTo
  omega

/-- What is cut out around a cell fits. -/
theorem neighborhood_fits {g : Grid} {cx cy radius : Nat} {c : Cutout}
    (h : g.neighborhood cx cy radius = some c) : c.Fits g := by
  obtain ⟨⟨hcx, hcy⟩, rfl⟩ := neighborhood_eq_some_iff.mp h
  exact rectangle_fits (clipped_le hcx radius) (clipped_le hcy radius)

/-! ## Forcing states on a part -/

/-- The part with a state forced on some of its cells, that of the cell they were taken from. -/
def Cutout.forced (c : Cutout) (name : String) (value : Nat → Nat) (cells : List Nat) : Grid :=
  cells.foldl (fun g i => g.setAttribute name i (c.origin[i]?.map fun v => (value v : Int))) c.grid

/-- Values set at some cells, each to what is asked for there. -/
theorem Sized.foldl_setAttribute {g : Grid} (hg : g.Sized) (name : String)
    (value : Nat → Option Int) (cells : List Nat) :
    let after := cells.foldl (fun g i => g.setAttribute name i (value i)) g
    after.SameShape g ∧ ∀ i < g.size, after.valueAt name i =
      if i ∈ cells then value i else g.valueAt name i := by
  induction cells generalizing g with
  | nil => exact ⟨⟨rfl, rfl, rfl⟩, fun i _ => rfl⟩
  | cons j cells ih =>
    have hshape := sameShape_setAttribute g name j (value j)
    obtain ⟨hrest, hvalues⟩ := ih (hg.setAttribute name j (value j))
    refine ⟨hrest.trans hshape, fun i hi => ?_⟩
    have hvalue := hvalues i (hshape.size.symm ▸ hi)
    rw [List.foldl_cons, hvalue]
    by_cases hcells : i ∈ cells
    · simp [hcells]
    · rw [if_neg hcells]
      by_cases hij : i = j
      · subst hij
        rw [hg.valueAt_setAttribute hi]
        simp
      · have hkept : (g.setAttribute name j (value j)).valueAt name i = g.valueAt name i := by
          by_cases hj : j < g.size
          · rw [hg.valueAt_setAttribute hj, if_neg fun h => hij h.2]
          · unfold Grid.setAttribute
            rw [if_neg hj]
        simp [hkept, hcells, hij]

theorem Cutout.Fits.forced {c : Cutout} {g : Grid} (h : c.Fits g) (name : String)
    (value : Nat → Nat) (cells : List Nat) :
    (c.forced name value cells).SameShape c.grid ∧ ∀ i ∈ cells, ∀ v, c.origin[i]? = some v →
      (c.forced name value cells).valueAt name i = some (value v : Int) := by
  obtain ⟨hshape, hvalues⟩ := h.sized.foldl_setAttribute name
    (fun i => c.origin[i]?.map fun v => (value v : Int)) cells
  refine ⟨hshape, fun i hi v hv => ?_⟩
  have hlt : i < c.grid.size := h.length ▸ (List.getElem?_eq_some_iff.mp hv).1
  have hvalue := hvalues i hlt
  rw [if_pos hi, hv] at hvalue
  exact hvalue

end WaveCollapse.Grid
