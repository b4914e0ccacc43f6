import WaveCollapse.Proofs.System.Pasted
import WaveCollapse.Proofs.Topology.Words
import WaveCollapse.Proofs.Wave.Words

/-! # Edges and connections counted from both ends

Every side of a cell adds at most one edge, and the neighbour there adds the same edge on its
opposite side, so an edge occurs as often at one of its ends as at the other, also where several
sides lead to one cell or back to the cell itself (`Grid.count_incident_swap`).  An outgoing edge
gives a connection of its type and an incoming one a connection of the dual type, if the rules have
the type of the edge.  When duals undo themselves the two lists of connections therefore mirror
each other as well (`System.Laid.count_outgoing_swap`), whichever types the rules have.
-/

namespace WaveCollapse

/-! ## Edges -/

namespace Grid
variable {g : Grid}

theorem count_filterMap_id_cons {α : Type} [DecidableEq α] (a : α) (o : Option α)
    (os : List (Option α)) : ((o :: os).filterMap id).count a =
      (if o = some a then 1 else 0) + (os.filterMap id).count a := by
  cases o with
  | none => simp
  | some b =>
    rw [List.filterMap_cons_some (f := id) rfl, List.count_cons, Nat.add_comm]
    simp

/-- The edge on one side of a cell. -/
theorem side_eq_some_iff {side : Option Nat} {kind : Nat} {outgoing : Bool} {e : Edge Nat} :
    side.map (fun j => (⟨j, kind, outgoing⟩ : Edge Nat)) = some e ↔
      side = some e.other ∧ e.kind = kind ∧ e.outgoing = outgoing := by
  obtain ⟨other, kind', outgoing'⟩ := e
  rw [Option.map_eq_some_iff]
  simp only [Edge.mk.injEq]
  constructor
  · rintro ⟨j, hj, rfl, rfl, rfl⟩
    exact ⟨hj, rfl, rfl⟩
  · rintro ⟨hj, rfl, rfl⟩
    exact ⟨other, hj, rfl, rfl, rfl⟩

/-- How often an edge occurs at a cell: once for each of the four sides that it is on. -/
theorem count_incident_cell {x y : Nat} (hx : x < g.width) (hy : y < g.height) (e : Edge Nat) :
    (g.incident (y * g.width + x)).count e =
      (if g.northOf x y = some e.other ∧ e.kind = Compass.north ∧ e.outgoing = true then 1 else 0) +
      (if g.eastOf x y = some e.other ∧ e.kind = Compass.east ∧ e.outgoing = true then 1 else 0) +
      (if g.southOf x y = some e.other ∧ e.kind = Compass.north ∧ e.outgoing = false
        then 1 else 0) +
      (if g.westOf x y = some e.other ∧ e.kind = Compass.east ∧ e.outgoing = false
        then 1 else 0) := by
  rw [incident_cell hx hy]
  simp only [count_filterMap_id_cons, side_eq_some_iff, List.filterMap_nil, List.count_nil,
    Nat.add_zero, Nat.add_assoc]

/-- No edge leads out of the grid. -/
theorem count_incident_outside {u : Nat} (hu : g.size ≤ u) (v kind : Nat) (outgoing : Bool) :
    (g.incident v).count ⟨u, kind, outgoing⟩ = 0 := by
  refine List.count_eq_zero.mpr fun h => ?_
  exact Nat.not_lt_of_le hu (mem_incident_swap h).1

/-- **An edge occurs as often at one of its ends as at the other.** -/
theorem count_incident_swap (g : Grid) (u v kind : Nat) (outgoing : Bool) :
    (g.incident u).count ⟨v, kind, outgoing⟩ = (g.incident v).count ⟨u, kind, !outgoing⟩ := by
  rcases Nat.lt_or_ge u g.size with hu | hu
  · rcases Nat.lt_or_ge v g.size with hv | hv
    · obtain ⟨x, y, hx, hy, rfl⟩ := exists_cell hu
      obtain ⟨x', y', hx', hy', rfl⟩ := exists_cell hv
      rw [count_incident_cell hx hy, count_incident_cell hx' hy']
      -- each side of the one cell is the opposite side of the other
      simp only [northOf_eq_some_iff hx hy hx' hy', eastOf_eq_some_iff hx hy hx' hy',
        northOf_eq_some_iff hx' hy' hx hy, eastOf_eq_some_iff hx' hy' hx hy]
      cases outgoing <;> simp [Nat.add_comm]
    · rw [count_incident_outside hv, incident_eq_nil hv, List.count_nil]
  · rw [count_incident_outside hu, incident_eq_nil hu, List.count_nil]

end Grid

/-! ## Connections -/

/-- The type that a connection has when its edge, seen as outgoing or incoming, has type `t`. -/
def Rules.turned (r : Rules) (outgoing : Bool) (t : Nat) : Nat := if outgoing then t else r.dual t

theorem Rules.turned_turned {r : Rules} (hdual : ∀ t, r.dual (r.dual t) = t) (outgoing : Bool)
    (t : Nat) : r.turned outgoing (r.turned outgoing t) = t := by
  cases outgoing with
  | true => rfl
  | false => exact hdual t

namespace Problem
variable {p : Problem Nat} (hdual : ∀ t, p.rules.dual (p.rules.dual t) = t)
include hdual

theorem connect?_numbered_iff {e : Edge Nat} (he : p.numbering[e.other]? = some e.other)
    {v t : Nat} : p.connect? p.numbering e = some ⟨v, t⟩ ↔
      e.other = v ∧ e.kind = p.rules.turned e.outgoing t ∧ e.kind < p.rules.typeCount := by
  have hkind : p.rules.turned e.outgoing e.kind = t ↔ e.kind = p.rules.turned e.outgoing t :=
    ⟨fun h => by rw [← h, Rules.turned_turned hdual],
      fun h => by rw [h, Rules.turned_turned hdual]⟩
  unfold connect?
  rw [he]
  dsimp only
  split
  · next hlt =>
    rw [Option.some.injEq, Connection.mk.injEq, and_iff_left hlt, ← hkind]
    rfl
  · next hlt => exact iff_of_false (fun h => nomatch h) fun h => hlt h.2.2

/-- The edges of one orientation that give a connection of type `t`. -/
theorem countP_connect? {edges : List (Edge Nat)}
    (hedges : ∀ e ∈ edges, p.numbering[e.other]? = some e.other) (v t : Nat) (outgoing : Bool) :
    edges.countP (fun e => p.connect? p.numbering e == some ⟨v, t⟩ && e.outgoing == outgoing) =
      if p.rules.turned outgoing t < p.rules.typeCount then
        edges.count ⟨v, p.rules.turned outgoing t, outgoing⟩ else 0 := by
  have hgives : ∀ e ∈ edges,
      ((p.connect? p.numbering e == some ⟨v, t⟩ && e.outgoing == outgoing) = true ↔
        p.rules.turned outgoing t < p.rules.typeCount ∧
          e = ⟨v, p.rules.turned outgoing t, outgoing⟩) := by
    intro e he
    rw [Bool.and_eq_true, beq_iff_eq, beq_iff_eq, connect?_numbered_iff hdual (hedges e he)]
    obtain ⟨other, kind, seen⟩ := e
    simp only [Edge.mk.injEq]
    constructor
    · rintro ⟨⟨rfl, rfl, hlt⟩, rfl⟩
      exact ⟨hlt, rfl, rfl, rfl⟩
    · rintro ⟨hlt, rfl, rfl, rfl⟩
      exact ⟨⟨rfl, rfl, hlt⟩, rfl⟩
  by_cases hlt : p.rules.turned outgoing t < p.rules.typeCount
  · rw [if_pos hlt, List.count_eq_countP]
    exact List.countP_congr fun e he => by rw [hgives e he, beq_iff_eq, and_iff_right hlt]
  · rw [if_neg hlt]
    exact List.countP_eq_zero.mpr fun e he h => hlt ((hgives e he).mp h).1

/-- How often a connection occurs: as the outgoing edges of its type and the incoming ones of the
dual type, where the rules have the type of the edge. -/
theorem count_connections {edges : List (Edge Nat)}
    (hedges : ∀ e ∈ edges, p.numbering[e.other]? = some e.other) (v t : Nat) :
    (edges.filterMap (p.connect? p.numbering)).count ⟨v, t⟩ =
      (if t < p.rules.typeCount then edges.count ⟨v, t, true⟩ else 0) +
      (if p.rules.dual t < p.rules.typeCount then edges.count ⟨v, p.rules.dual t, false⟩
        else 0) := by
  have hout := countP_connect? hdual hedges v t true
  have hin := countP_connect? hdual hedges v t false
  have hincoming : ∀ e : Edge Nat, (!(e.outgoing == true)) = (e.outgoing == false) :=
    fun e => by cases e.outgoing <;> rfl
  rw [List.count_filterMap, List.countP_eq_countP_filter_add _ _ (·.outgoing == true)]
  simp only [List.countP_filter, hincoming, hout, hin]
  rfl

end Problem

namespace System
variable {g : Grid} {s : System Nat}

/-- A cell is numbered with its own number. -/
theorem numbering_grid (hgrid : s.problem.topology = g.topology) {i : Nat} (hi : i < g.size) :
    s.problem.numbering[i]? = some i := by
  have hvertices : s.problem.topology.vertices = List.range g.size := by
    rw [hgrid]
    rfl
  rw [Problem.numbering_eq_some_iff (by rw [hvertices]; exact List.nodup_range), hvertices]
  exact List.getElem?_range hi

/-- The connections of a variable on a grid, in the order of the edges of its cell. -/
theorem Laid.outgoing_grid (hs : s.Laid) (hgrid : s.problem.topology = g.topology) (u : Nat) :
    (s.outgoing u).toList = (g.incident u).filterMap (s.problem.connect? s.problem.numbering) := by
  unfold outgoing
  rw [hs.connections, Array.getD_eq_getD_getElem?]
  unfold Problem.connections
  rw [hgrid, List.getElem?_toArray, List.getElem?_map,
    show g.topology.vertices = List.range g.size from rfl]
  rcases Nat.lt_or_ge u g.size with hu | hu
  · rw [List.getElem?_range hu]
    rfl
  · rw [List.getElem?_eq_none (by rwa [List.length_range]), Grid.incident_eq_nil hu]
    rfl

/-- **A connection occurs as often as its mirror image.** -/
theorem Laid.count_outgoing_swap (hs : s.Laid) (hgrid : s.problem.topology = g.topology)
    (hdual : ∀ t, s.problem.rules.dual (s.problem.rules.dual t) = t) (u v t : Nat) :
    (s.outgoing u).count ⟨v, t⟩ = (s.outgoing v).count ⟨u, s.problem.rules.dual t⟩ := by
  have hedges : ∀ u, ∀ e ∈ g.incident u, s.problem.numbering[e.other]? = some e.other :=
    fun u e he => numbering_grid hgrid (Grid.mem_incident_swap he).1
  rw [← Array.count_toList, ← Array.count_toList, hs.outgoing_grid hgrid, hs.outgoing_grid hgrid,
    Problem.count_connections hdual (hedges u), Problem.count_connections hdual (hedges v), hdual,
    Grid.count_incident_swap g u v t true, Grid.count_incident_swap g u v _ false, Nat.add_comm]
  rfl

/-- A violation is a connection between resolved variables that is not allowed. -/
theorem mem_violations_iff {V : Type} {s : System V} {u v t : Nat} :
    (⟨u, v, t⟩ : Violation) ∈ s.violations ↔ u < s.size ∧ ⟨v, t⟩ ∈ s.outgoing u ∧
      ∃ x y, (s.wave u).resolvedState = some x ∧ (s.wave v).resolvedState = some y ∧
        s.problem.rules.allows x t y = false := by
  have hfrom : ∀ source, (⟨u, v, t⟩ : Violation) ∈ s.violationsFrom source ↔
      source = u ∧ ⟨v, t⟩ ∈ s.outgoing u ∧
        ∃ x y, (s.wave u).resolvedState = some x ∧ (s.wave v).resolvedState = some y ∧
          s.problem.rules.allows x t y = false := by
    intro source
    unfold violationsFrom
    constructor
    · intro h
      split at h
      · cases h
      · next x hx =>
        obtain ⟨c, hc, hviolates⟩ := List.mem_filterMap.mp h
        split at hviolates
        · cases hviolates
        · next y hy =>
          split at hviolates
          · cases hviolates
          · next hallows =>
            cases hviolates
            exact ⟨rfl, Array.mem_toList_iff.mp hc, x, y, hx, hy, Bool.eq_false_iff.mpr hallows⟩
    · rintro ⟨rfl, hc, x, y, hx, hy, hallows⟩
      rw [hx]
      refine List.mem_filterMap.mpr ⟨⟨v, t⟩, Array.mem_toList_iff.mpr hc, ?_⟩
      rw [hy]
      dsimp only
      rw [if_neg (Bool.eq_false_iff.mp hallows)]
  unfold violations
  rw [List.mem_flatMap]
  constructor
  · rintro ⟨source, hsource, h⟩
    obtain ⟨rfl, h⟩ := (hfrom source).mp h
    exact ⟨List.mem_range.mp hsource, h⟩
  · rintro ⟨hu, h⟩
    exact ⟨u, List.mem_range.mpr hu, (hfrom u).mpr ⟨rfl, h⟩⟩

/-- A violation is reported together with its mirror image. -/
theorem Laid.mem_violations_swap (hs : s.Laid) (hgrid : s.problem.topology = g.topology)
    (hsym : s.problem.rules.Symmetric) {u v t : Nat}
    (h : (⟨u, v, t⟩ : Violation) ∈ s.violations) :
    (⟨v, u, s.problem.rules.dual t⟩ : Violation) ∈ s.violations := by
  obtain ⟨-, hc, x, y, hx, hy, hallows⟩ := mem_violations_iff.mp h
  have hback : ⟨u, s.problem.rules.dual t⟩ ∈ s.outgoing v := by
    rw [← Array.count_pos_iff, ← hs.count_outgoing_swap hgrid hsym.1]
    exact Array.count_pos_iff.mpr hc
  refine mem_violations_iff.mpr ⟨hs.linked.destination_lt u _ hc, hback, y, x, hy, hx, ?_⟩
  rw [← hsym.2, hallows]

/-- The violations in words, if they can be listed, are the plain ones. -/
theorem violations_of_checkedViolations {V : Type} {s : System V} {vs : List Violation}
    (h : s.checkedViolations = .ok vs) : s.violations = vs := by
  obtain ⟨lists, hlists, rfl⟩ := map_eq_ok_iff.mp h
  have hfrom : ∀ source ∈ List.range s.size, ∀ found, s.checkedViolationsFrom source = .ok found →
      s.violationsFrom source = found := by
    intro source _ found hfound
    obtain ⟨state, hstate, hfound⟩ := bind_eq_ok_iff.mp hfound
    obtain ⟨-, hstate⟩ := Wave.checkedResolvedState_eq_ok_iff.mp hstate
    unfold violationsFrom
    rw [hstate]
    cases state with
    | none => exact Except.ok.inj hfound
    | some x =>
      obtain ⟨answers, hanswers, hfound⟩ := bind_eq_ok_iff.mp hfound
      cases hfound
      dsimp only
      rw [← eq_map_of_mapM_ok (fun c _ o ho => ?_) hanswers, List.filterMap_map]
      · rfl
      · obtain ⟨y, hy, ho⟩ := bind_eq_ok_iff.mp ho
        obtain ⟨-, hy⟩ := Wave.checkedResolvedState_eq_ok_iff.mp hy
        rw [hy]
        cases y with
        | none => exact Except.ok.inj ho
        | some y =>
          dsimp only at ho ⊢
          split at ho
          · next hallowed => rw [if_pos hallowed, ← Except.ok.inj ho]
          · next hallowed => rw [if_neg hallowed, ← Except.ok.inj ho]
  unfold violations
  rw [List.flatMap_def, eq_map_of_mapM_ok hfrom hlists]

/-- Where the states of all variables can be read, the violations can be listed. -/
theorem checkedViolations_eq {V : Type} {s : System V}
    (h : ∀ v, (s.wave v).checkedResolvedState = .ok (s.wave v).resolvedState) :
    s.checkedViolations = .ok s.violations := by
  have hone : ∀ source x c, ∃ o, s.checkedViolation? source x c = .ok o := by
    intro source x c
    unfold checkedViolation?
    rw [h, ok_bind]
    cases (s.wave c.destination).resolvedState with
    | none => exact ⟨_, rfl⟩
    | some y =>
      dsimp only
      split <;> exact ⟨_, rfl⟩
  have hlisted : ∃ lists, (List.range s.size).mapM s.checkedViolationsFrom = .ok lists := by
    refine exists_mapM_ok_iff.mpr fun source _ => ?_
    unfold checkedViolationsFrom
    rw [h, ok_bind]
    cases (s.wave source).resolvedState with
    | none => exact ⟨_, rfl⟩
    | some x =>
      obtain ⟨found, hfound⟩ := exists_mapM_ok_iff.mpr fun c (_ : c ∈ (s.outgoing source).toList) =>
        hone source x c
      dsimp only
      rw [hfound]
      exact ⟨_, rfl⟩
  obtain ⟨lists, hlists⟩ := hlisted
  have hchecked : s.checkedViolations = .ok lists.flatten := map_eq_ok_iff.mpr ⟨lists, hlists, rfl⟩
  rw [hchecked, violations_of_checkedViolations hchecked]

/-- **The edges of a grid are reciprocal, and so are the connections over it.**  If the number of
cells is a word, every question has an answer: cells and their numbers determine each other, and an
edge occurs as often at its one end as, turned round, at the other; a system can be laid over these
cells and edges.  If it is none, cells cannot be numbered, nor the edges at a number found.  In a
system over a grid a connection occurs as often as the one of the dual type that leads back, so with
rules that are the same from both ends a violation is reported together with its mirror image; the
violations are listed if the waves can be read and their states are words. -/
theorem grid_reciprocal (g : Grid) :
    (g.width * g.height < twoTo 64 →
      (∀ x y, ∃ o, g.checkedIndexOf x y = .ok o) ∧ (∀ i, ∃ o, g.checkedCoordsOf i = .ok o) ∧
      (∀ x y i, g.checkedIndexOf x y = .ok (some i) ↔ g.checkedCoordsOf i = .ok (some (x, y))) ∧
      (∀ x y, (∃ i, g.checkedIndexOf x y = .ok (some i)) ↔ x < g.width ∧ y < g.height) ∧
      (∀ i, (∃ cell, g.checkedCoordsOf i = .ok (some cell)) ↔ i < g.width * g.height) ∧
      (∀ u v kind outgoing, ∃ atU atV, g.checkedIncident u = .ok atU ∧
        g.checkedIncident v = .ok atV ∧
        atU.count ⟨v, kind, outgoing⟩ = atV.count ⟨u, kind, !outgoing⟩) ∧
      (∀ v, g.checkedIncident v = .ok (g.topology.incident v)) ∧
      (g.width * g.height * 8 < twoTo 63 → g.checkedVertices = .ok g.topology.vertices)) ∧
    (twoTo 64 ≤ g.width * g.height → g.checkedVertices = .error .overflow ∧
      ∀ i, g.checkedCoordsOf i = .error .overflow ∧ g.checkedIncident i = .error .overflow) ∧
    ∀ s : System Nat, s.Laid → s.problem.topology = g.topology →
      (∀ t, s.problem.rules.dual (s.problem.rules.dual t) = t) →
      (∀ u v t, (s.outgoing u).count ⟨v, t⟩ =
        (s.outgoing v).count ⟨u, s.problem.rules.dual t⟩) ∧
      ((∀ x t y, s.problem.rules.allows x t y =
          s.problem.rules.allows y (s.problem.rules.dual t) x) →
        (∀ u v t, ⟨u, v, t⟩ ∈ s.violations ↔ ⟨v, u, s.problem.rules.dual t⟩ ∈ s.violations) ∧
        (∀ vs, s.checkedViolations = .ok vs →
          ∀ u v t, ⟨u, v, t⟩ ∈ vs ↔ ⟨v, u, s.problem.rules.dual t⟩ ∈ vs) ∧
        ((∀ v, (s.wave v).Readable ∧ (s.wave v).layout.InWord) →
          ∃ vs, s.checkedViolations = .ok vs)) := by
  refine ⟨fun hsize => ?_, fun hsize => ⟨Grid.checkedVertices_past hsize, fun i =>
    ⟨Grid.checkedCoordsOf_past hsize i, Grid.checkedIncident_past hsize i⟩⟩, ?_⟩
  · simp only [Grid.checkedIndexOf_eq hsize, Grid.checkedCoordsOf_eq hsize,
      Grid.checkedIncident_eq hsize, Except.ok.injEq]
    refine ⟨fun x y => ⟨_, rfl⟩, fun i => ⟨_, rfl⟩,
      fun x y i => Grid.indexOf_eq_some_iff_coordsOf, fun x y => Grid.exists_indexOf_iff,
      fun i => Grid.exists_coordsOf_iff, fun u v kind outgoing => ?_, fun v => rfl,
      Grid.checkedVertices_eq hsize⟩
    exact ⟨_, _, rfl, rfl, Grid.count_incident_swap g u v kind outgoing⟩
  · intro s hs hgrid hdual
    refine ⟨hs.count_outgoing_swap hgrid hdual, fun hallows => ?_⟩
    have hswap : ∀ u v t,
        ⟨u, v, t⟩ ∈ s.violations ↔ ⟨v, u, s.problem.rules.dual t⟩ ∈ s.violations := by
      intro u v t
      refine ⟨hs.mem_violations_swap hgrid ⟨hdual, hallows⟩, fun h => ?_⟩
      have hback := hs.mem_violations_swap hgrid ⟨hdual, hallows⟩ h
      rwa [hdual] at hback
    refine ⟨hswap, fun vs hvs => ?_, fun hwaves => ?_⟩
    · rw [← violations_of_checkedViolations hvs]
      exact hswap
    · exact ⟨_, checkedViolations_eq fun v =>
        Wave.checkedResolvedState_eq (hwaves v).1 (hwaves v).2⟩

/-- Two cells side by side that wrap around, so that each is east of the other and north of itself.
States must grow by one eastwards and stay the same northwards; the rules have no type for west,
which only connections get.  Cell 0 holds the state below that of cell 1. -/
theorem grid_reciprocal_two_cells :
    let g : Grid := { width := 2, height := 1, boundary := .periodic }
    let allows := fun x t y : Nat =>
      match t with
      | 2 => x + 1 == y
      | 3 => y + 1 == x
      | _ => x == y
    let p : Problem Nat := {
      topology := g.topology, stride := 2
      rules := { allows, allowed := admitted allows, dual := fun t => Compass.duals.getD t t
                 classWidth := fun _ => 2, typeCount := 3, classCount := 1 } }
    let s : System Nat := ⟨p, p.connections,
      #[(Wave.empty ⟨0, 2, 2⟩).add 0, (Wave.empty ⟨0, 2, 2⟩).add 1]⟩
    g.checkedIndexOf 1 0 = .ok (some 1) ∧
      (∃ edges, g.checkedIncident 0 = .ok edges ∧
        edges.count ⟨0, Compass.north, true⟩ = edges.count ⟨0, Compass.north, false⟩) ∧
      s.outgoing 0 = #[⟨0, 0⟩, ⟨1, 2⟩, ⟨0, 1⟩, ⟨1, 3⟩] ∧
      (s.outgoing 1).count ⟨0, 3⟩ = (s.outgoing 0).count ⟨1, 2⟩ ∧
      ∃ vs, s.checkedViolations = .ok vs ∧ (⟨0, 1, 3⟩ : Violation) ∈ vs := by
  intro g allows p s
  have hdual : ∀ t, p.rules.dual (p.rules.dual t) = t
    | 0 | 1 | 2 | 3 => rfl
    | _ + 4 => rfl
  have hsame : ∀ x t y, p.rules.allows x t y = p.rules.allows y (p.rules.dual t) x
    | x, 0, y | x, 1, y => Bool.beq_comm
    | _, 2, _ | _, 3, _ => rfl
    | x, _ + 4, y => Bool.beq_comm
  have hlaid : s.Laid := ⟨rfl, rfl⟩
  obtain ⟨hwords, -, hsystems⟩ := grid_reciprocal g
  obtain ⟨-, -, hnumbers, -, -, hedges, -⟩ := hwords (by decide)
  obtain ⟨hconnections, hviolations⟩ := hsystems s hlaid rfl hdual
  refine ⟨(hnumbers 1 0 1).mpr (by decide), ?_, by decide +kernel, (hconnections 0 1 2).symm, ?_⟩
  · obtain ⟨edges, edges', hat, hat', hcount⟩ := hedges 0 0 Compass.north true
    cases hat.symm.trans hat'
    exact ⟨edges, hat, hcount⟩
  · obtain ⟨-, hmirror, hlisted⟩ := hviolations hsame
    have hother : (default : Wave).Readable ∧ (default : Wave).layout.InWord := by decide
    obtain ⟨vs, hvs⟩ := hlisted fun v => by
      rcases v with _ | _ | v
      · exact ⟨by decide, by decide⟩
      · exact ⟨by decide, by decide⟩
      · exact hother
    have hfound : (⟨1, 0, 2⟩ : Violation) ∈ s.violations := by decide +kernel
    rw [violations_of_checkedViolations hvs] at hfound
    exact ⟨vs, hvs, (hmirror vs hvs 1 0 2).mp hfound⟩

/-- The first of as many cells as there are words: it has a number, but what lies at that number
cannot be asked. -/
theorem grid_reciprocal_past_words :
    let g : Grid := { width := twoTo 33, height := twoTo 33 }
    g.width < twoTo 64 ∧ g.height < twoTo 64 ∧ 0 < g.width * g.height ∧
      g.checkedIndexOf 0 0 = .ok (some 0) ∧ g.checkedCoordsOf 0 = .error .overflow ∧
      ¬ ∀ (h : Grid) x y i,
        h.checkedIndexOf x y = .ok (some i) ↔ h.checkedCoordsOf i = .ok (some (x, y)) := by
  intro g
  have hnumber : g.checkedIndexOf 0 0 = .ok (some 0) := by decide
  have hstops : g.checkedCoordsOf 0 = .error .overflow := by decide
  refine ⟨by decide, by decide, by decide, hnumber, hstops, fun hall => ?_⟩
  cases hstops.symm.trans ((hall g 0 0 0).mp hnumber)

end System
end WaveCollapse
