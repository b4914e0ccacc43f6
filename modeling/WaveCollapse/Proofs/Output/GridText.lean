import WaveCollapse.Output
import WaveCollapse.Proofs.Except
import WaveCollapse.Proofs.System.Network
import WaveCollapse.Proofs.Topology.Grid
import WaveCollapse.Proofs.Wave.WellFormed

/-! # The text of a resolved grid

When the wave of every cell has one state and that state a module, the whole grid is written:
the rows from north to south, each with the names of its modules from west to east
(`GridText.write_resolved`).  The characters of such a row are those of `GridText.toList_line`.
-/

namespace WaveCollapse

/-- The waves over the cells of a grid, where the system has one wave a cell. -/
theorem Grid.waveRows_eq {g : Grid} {s : System Nat} (hvertices : s.problem.topology.vertices =
    List.range g.size) (hsize : s.size = g.size) :
    g.waveRows s = (List.range g.height).map fun y =>
      (List.range g.width).map fun x => some (s.wave (y * g.width + x)) := by
  unfold waveRows
  refine List.map_congr_left fun y hy => List.map_congr_left fun x hx => ?_
  have hx' := List.mem_range.mp hx
  have hy' := List.mem_range.mp hy
  have hi : y * g.width + x < g.size := index_lt_size hx' hy'
  have hnumber : s.problem.numbering[y * g.width + x]? = some (y * g.width + x) := by
    rw [Problem.numbering_eq_some_iff (hvertices ▸ List.nodup_range), hvertices,
      List.getElem?_range hi]
  have hi' : y * g.width + x < s.waves.size := Nat.lt_of_lt_of_eq hi hsize.symm
  rw [indexOf_eq_some_iff.mpr ⟨hx', hy', rfl⟩, Option.bind_some, hnumber, Option.bind_some,
    Array.getElem?_eq_getElem hi', System.wave_eq, waveAt_eq_getElem hi']

namespace GridText
variable {r : Registry}

/-- Numbering the images of a range. -/
theorem zipIdx_map_range {α : Type} (f : Nat → α) (n : Nat) :
    ((List.range n).map f).zipIdx = (List.range n).map fun i => (f i, i) := by
  refine List.ext_getElem? fun i => ?_
  rw [List.getElem?_zipIdx, List.getElem?_map, List.getElem?_map]
  by_cases hi : i < n
  · rw [List.getElem?_range hi]
    simp
  · rw [List.getElem?_eq_none (by simpa using hi)]
    rfl

theorem row_resolved {w : Nat} {waves : Nat → Wave} {name : Nat → String}
    (h : ∀ x < w, ∃ p, (waves x).resolvedState = some p ∧ r.nameOf p = some (name x)) (y : Nat) :
    row r y ((List.range w).map fun x => some (waves x)) = .ok ((List.range w).map name) := by
  unfold row
  rw [zipIdx_map_range, List.mapM_map]
  refine mapM_eq_ok_of_forall fun x hx => ?_
  obtain ⟨p, hp, hname⟩ := h x (List.mem_range.mp hx)
  show cell r x y (some (waves x)) = _
  unfold cell stateName
  rw [Option.bind_some, hp]
  dsimp only
  rw [hname]
  rfl

/-- Joining is putting the separator before every part but the first. -/
theorem intercalate_cons_flatMap {α : Type} (sep part : List α) (parts : List (List α)) :
    sep.intercalate (part :: parts) = part ++ parts.flatMap (sep ++ ·) := by
  induction parts generalizing part with
  | nil => rw [List.intercalate_singleton, List.flatMap_nil, List.append_nil]
  | cons next parts ih =>
    rw [List.intercalate_cons_cons, ih, List.flatMap_cons, List.append_assoc, List.append_assoc]

/-- The characters of a line: a blank before every name but the first, and a line feed at its
end. -/
theorem toList_line (n : Nat) (name : Nat → String) :
    (line ((List.range n).map name)).toList =
      ((List.range n).flatMap fun i => (if i = 0 then [] else [' ']) ++ (name i).toList) ++
        ['\n'] := by
  unfold line
  rw [String.toList_append, String.toList_intercalate, List.map_map]
  refine congrArg (· ++ ['\n']) ?_
  cases n with
  | zero => rfl
  | succ n =>
    rw [List.range_succ_eq_map, List.map_cons, intercalate_cons_flatMap, List.flatMap_cons,
      List.map_map, List.flatMap_map, List.flatMap_map]
    rfl

theorem linesOf_resolved (names : Nat → List String)
    {rows : List (List (Option Wave) × Nat)}
    (h : ∀ e ∈ rows, row r e.2 e.1 = .ok (names e.2)) :
    linesOf r rows = (String.join (rows.map fun e => line (names e.2)), .ok ()) := by
  induction rows with
  | nil => rfl
  | cons e rows ih =>
    obtain ⟨waves, y⟩ := e
    unfold linesOf
    rw [h (waves, y) List.mem_cons_self, List.map_cons, String.join_cons,
      ih fun e he => h e (List.mem_cons_of_mem _ he)]

/-- Counting down is counting up from the other end. -/
theorem reverse_map_range {α : Type} (f : Nat → α) (n : Nat) :
    ((List.range n).map f).reverse = (List.range n).map fun i => f (n - 1 - i) := by
  refine List.ext_getElem (by simp) fun i hi _ => ?_
  simp

/-- **A resolved grid is written in full**, the northernmost row first. -/
theorem write_resolved {g : Grid} {s : System Nat}
    (hvertices : s.problem.topology.vertices = List.range g.size) (hsize : s.size = g.size)
    {name : Nat → Nat → String}
    (h : ∀ x < g.width, ∀ y < g.height, ∃ p,
      (s.wave (y * g.width + x)).resolvedState = some p ∧ r.nameOf p = some (name x y)) :
    write r g s = (String.join ((List.range g.height).map fun i =>
      line ((List.range g.width).map fun x => name x (g.height - 1 - i))), .ok ()) := by
  unfold write
  rw [Grid.waveRows_eq hvertices hsize, zipIdx_map_range, reverse_map_range,
    linesOf_resolved fun y => (List.range g.width).map (name · y)]
  · rw [List.map_map]
    rfl
  · intro e he
    obtain ⟨i, hi, rfl⟩ := List.mem_map.mp he
    have hi' := List.mem_range.mp hi
    exact row_resolved (fun x hx => h x hx _ (by omega)) _

end GridText
end WaveCollapse
