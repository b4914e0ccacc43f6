import WaveCollapse.Proofs.Search.Upkeep
import WaveCollapse.Proofs.Search.Success
import WaveCollapse.Proofs.System.Pasted
import WaveCollapse.Proofs.Topology.Words

/-! # Parts of a grid searched again

Part of a solved grid can be cut out, searched anew and put back.  The part is clamped, so it
knows nothing of the edges that lead out of it or wrap around; where such an edge was lost, the
state of the whole is forced on the cell before the search.  A forced cell starts with that state
only, so it keeps it, and the waves that are put back fit (`regenerated_pastes_back`).
-/

namespace WaveCollapse
namespace Solver
variable {ρ : Type} [PickSource ρ]

/-- A search on a fresh system over a grid leaves every forced cell with the state that is forced
on it, and its solution. -/
theorem collapse_ok_on_grid {h : Grid} {p : Problem Nat} (hgrid : p.topology = h.topology)
    (hrules : p.rules.Faithful) {a : Solver Nat ρ} (hbuilt : p.system = .ok a.system) {limit : Nat}
    {journal : Journal} {stats : Stats} (hok : (a.collapse limit journal).result = .ok stats) :
    let part := (a.collapse limit journal).solver.system
    part.WellFormed ∧ part.size = h.size ∧ ∃ value : Nat → Nat,
      (∀ i < h.size, (part.wave i).components = [value i]) ∧ a.system.Satisfies value ∧
      ∀ i < h.size, ∀ q, p.forcedAt i = some q → value i = q := by
  obtain ⟨hp, hlaid, hwf⟩ := p.system_laid hbuilt
  have hwaves := p.system_waves hbuilt
  have hsize : a.system.size = h.size := hlaid.size_of_grid (by rw [hp, hgrid])
  have past : a.system.History (a.collapse limit journal).solver.system :=
    .searched .built limit journal
  obtain ⟨hintact, -⟩ := past.intact (hlaid.intact hwf)
  obtain ⟨-, hended, value, hvalue, hsat, hinside⟩ := collapse_ok_within_starting a hlaid hwf
    (by rwa [hp]) (by rw [hp]; exact hwaves) limit journal hok
  refine ⟨hintact.wellFormed, hended.trans hsize, value, fun i hi => ?_, hsat, fun i hi q hq => ?_⟩
  · have hi' := Nat.lt_of_lt_of_eq hi hsize.symm
    refine Wave.components_of_resolvedState (hintact.wellFormed i ?_) (hvalue i hi')
    exact Nat.lt_of_lt_of_eq hi' hended.symm
  · have hvertex : p.topology.vertices[i]? = some i := by
      rw [hgrid]
      exact List.getElem?_range hi
    exact p.eq_of_mem_startingWave (p.startingWave_at hwaves hvertex) hq
      (hinside i (Nat.lt_of_lt_of_eq hi hsize.symm))

/-- **A part of a solved grid that was searched again can be put back.**  The whole has one state
a cell and no violation; the part is the neighborhood of a cell, with the states of the whole
forced on all cells that lost an edge, and on any others.  If a search on it succeeds, its waves
can be put back, every cell of the whole is resolved again, no connection of the whole is
violated, the cells outside the part keep their waves, those of the part have the new ones, and
where a state was forced it is the old one.  This holds for every size and boundary of the whole,
around which the part may reach. -/
theorem regenerated_pastes_back {g : Grid} {cx cy radius : Nat} {cut : Grid.Cutout}
    (hcut : g.cutOut cx cy radius = .ok (some cut)) {whole : System Nat}
    (hgrid : whole.problem.topology = g.topology) (hlaid : whole.Laid) (hwf : whole.WellFormed)
    (hrules : whole.problem.rules.Faithful) {old : Nat → Nat}
    (hold : ∀ v < whole.size, (whole.wave v).resolvedState = some (old v))
    (clean : whole.violations = []) {name : String}
    (hname : whole.problem.boundaryAttribute = some name) {cells : List Nat}
    (hcells : ∀ i, cut.Severs g i → i ∈ cells) {a : Solver Nat ρ}
    (hbuilt : { whole.problem with topology := (cut.forced name old cells).topology }.system =
      .ok a.system)
    {limit : Nat} {journal : Journal} {stats : Stats}
    (hok : (a.collapse limit journal).result = .ok stats) :
    let part := (a.collapse limit journal).solver.system
    ∃ pasted, whole.paste part cut.origin = .ok pasted ∧ pasted.fullyResolved = true ∧
      pasted.violations = [] ∧ (∀ v ∉ cut.origin, pasted.wave v = whole.wave v) ∧
      (∀ (i v : Nat), cut.origin[i]? = some v → pasted.wave v = part.wave i) ∧
      ∀ i ∈ cells, ∀ v, cut.origin[i]? = some v → (pasted.wave v).resolvedState = some (old v) := by
  have hfits := Grid.neighborhood_fits (Grid.neighborhood_of_cutOut hcut)
  obtain ⟨hshape, hforced⟩ := hfits.forced name old cells
  obtain ⟨hp, hpart, -⟩ := Problem.system_laid _ hbuilt
  have hwholesize : whole.size = g.size := hlaid.size_of_grid hgrid
  have hone : ∀ v < whole.size, (whole.wave v).components = [old v] :=
    fun v hv => Wave.components_of_resolvedState (hwf v hv) (hold v hv)
  -- the part: its solution, which has the old state wherever one was forced
  obtain ⟨hpartwf, hpartsize, new, hnew, hsat, hkept⟩ :=
    collapse_ok_on_grid (h := cut.forced name old cells)
      (p := { whole.problem with topology := (cut.forced name old cells).topology })
      rfl hrules hbuilt hok
  have hplace : ∀ {i v : Nat}, cut.origin[i]? = some v →
      i < (cut.forced name old cells).size := fun hi => by
    rw [hshape.size, ← hfits.length]
    exact (List.getElem?_eq_some_iff.mp hi).1
  have hagree : ∀ i ∈ cells, ∀ v, cut.origin[i]? = some v → new i = old v := by
    intro i hi v hv
    refine hkept i (hplace hv) (old v) ?_
    unfold Problem.forcedAt
    rw [hname, Option.bind_some]
    show ((cut.forced name old cells).valueAt name i).bind _ = _
    rw [hforced i hi v hv, Option.bind_some, if_pos (Int.natCast_nonneg _)]
    rfl
  -- the whole: the new states on the part and the old ones elsewhere
  intro part
  obtain ⟨pasted, hpaste, hnet, hsize, houtside, hinside⟩ := System.paste_spec part hfits.nodup
    fun v hv => Nat.lt_of_lt_of_eq (hfits.inside v hv) hwholesize.symm
  let f : Nat → Nat := fun v => if v ∈ cut.origin then new (cut.origin.idxOf v) else old v
  have hfinside : ∀ (i v : Nat), cut.origin[i]? = some v → f v = new i := by
    intro i v hi
    obtain ⟨hlt, rfl⟩ := List.getElem?_eq_some_iff.mp hi
    show (if _ then _ else _) = _
    rw [if_pos (List.getElem_mem hlt), hfits.nodup.idxOf_getElem]
  have hfoutside : ∀ v ∉ cut.origin, f v = old v := fun v hv => if_neg hv
  have hstates : ∀ v < pasted.size,
      (pasted.wave v).WellFormed ∧ (pasted.wave v).components = [f v] := by
    intro v hv
    by_cases hin : v ∈ cut.origin
    · obtain ⟨i, hi⟩ := List.mem_iff_getElem?.mp hin
      have hlt := hplace hi
      rw [hinside i v hi, hfinside i v hi]
      exact ⟨hpartwf i (hpartsize ▸ hlt), hnew i hlt⟩
    · rw [houtside v hin, hfoutside v hin]
      exact ⟨hwf v (hsize ▸ hv), hone v (hsize ▸ hv)⟩
  have hpastedwf : pasted.WellFormed := fun v hv => (hstates v hv).1
  have hlinked : pasted.Linked :=
    ((hlaid.intact hwf).of_network hnet hsize hpastedwf).linked
  have hwhole : whole.Satisfies f := by
    have holdsat := (System.violations_eq_nil_iff hwf hlaid.linked hone).mp clean
    refine System.pasted_satisfies hlaid hgrid hpart (by rw [hp]) hshape (by rw [hp]) holdsat hsat
      (fun i v hi hsevered => hagree i (hcells i hsevered) v hi) hfinside hfoutside
  refine ⟨pasted, hpaste, ?_, ?_, houtside, hinside, fun i hi v hv => ?_⟩
  · exact (System.fullyResolved_iff hpastedwf).mpr fun v hv => ⟨f v, (hstates v hv).2⟩
  · exact (System.violations_eq_nil_iff hpastedwf hlinked fun v hv => (hstates v hv).2).mpr
      (hwhole.of_network hnet)
  · have hlt : v < pasted.size := by
      rw [hsize, hwholesize]
      exact hfits.inside v (List.mem_of_getElem? hv)
    have hcomponents := (hstates v hlt).2
    rw [hfinside i v hv, hagree i hi v hv] at hcomponents
    exact Wave.resolvedState_of_components (hpastedwf v hlt) hcomponents

/-! ## A chessboard around which the part reaches -/

/-- Four by four cells that wrap around, with three states that differ across every edge. -/
def torusProblem : Problem Nat where
  topology := { width := 4, height := 4, boundary := .periodic : Grid }.topology
  rules := { Rules.differing 3 with typeCount := 4 }
  stride := 3
  boundaryAttribute := some "boundary"

/-- The colour of a cell of the chessboard. -/
def chessboard (v : Nat) : Nat := (v / 4 + v % 4) % 2

/-- A wave with one of the three states. -/
def torusWave (p : Nat) : Wave := (Wave.empty ⟨0, 3, 3⟩).add p

/-- The chessboard is cut out around a cell of its corner, searched again there, and put back:
only the cell in the middle of the part was free. -/
theorem regenerated_pastes_back_torus :
    let whole : System Nat := ⟨torusProblem, torusProblem.connections,
      ((List.range 16).map fun v => torusWave (chessboard v)).toArray⟩
    let cut : Grid.Cutout := ⟨{ width := 3, height := 3 }, [0, 1, 2, 4, 5, 6, 8, 9, 10]⟩
    let cells := [0, 1, 2, 3, 5, 6, 7, 8]
    let part := { torusProblem with topology := (cut.forced "boundary" chessboard cells).topology }
    let a : Solver Nat WordStream :=
      { system := ⟨part, part.connections, #[torusWave 0, torusWave 1, torusWave 0, torusWave 1,
          Wave.full ⟨0, 3, 3⟩, torusWave 1, torusWave 0, torusWave 1, torusWave 0]⟩
        source := { key := #[], next := 0, unread := [0, 2147483648] } }
    let ended := a.collapse 3 .silent
    ended.result = .ok ⟨1, 0, 0, 32⟩ ∧
      ∃ pasted, whole.paste ended.solver.system cut.origin = .ok pasted ∧
        pasted.violations = [] ∧ (pasted.wave 15).resolvedState = some 0 ∧
        (pasted.wave 1).resolvedState = some 1 := by
  intro whole cut cells part a ended
  have hok : ended.result = .ok ⟨1, 0, 0, 32⟩ :=
    drive_result_of_within (n := 60) (by decide +kernel) _
  have hwave : ∀ v < whole.size, whole.wave v = torusWave (chessboard v) := by decide +kernel
  have hwf : whole.WellFormed := fun v hv => by
    rw [hwave v hv]
    exact (Wave.wellFormed_empty (by decide)).add _
  have hcells : ∀ i, cut.Severs { width := 4, height := 4, boundary := .periodic } i →
      i ∈ cells := by
    have hlow : ∀ i < 9, cut.Severs { width := 4, height := 4, boundary := .periodic } i →
        i ∈ cells := by decide +kernel
    intro i hsevered
    by_cases hi : i < 9
    · exact hlow i hi hsevered
    · unfold Grid.Cutout.Severs at hsevered
      rw [List.getElem?_eq_none (Nat.le_of_not_lt hi)] at hsevered
      exact hsevered.elim
  have hcut : ({ width := 4, height := 4, boundary := .periodic } : Grid).cutOut 1 1 1 =
      .ok (some cut) := rfl
  have hlaid : whole.Laid := ⟨rfl, by decide +kernel⟩
  have hold : ∀ v < whole.size, (whole.wave v).resolvedState = some (chessboard v) := by
    decide +kernel
  have hclean : whole.violations = [] := by decide +kernel
  have hbuilt : part.system = .ok a.system := part.system_eq_ok (by decide +kernel)
  obtain ⟨pasted, hpaste, -, hsatisfied, houtside, -, hkept⟩ :=
    regenerated_pastes_back hcut rfl hlaid hwf (Rules.differing_faithful 3) hold hclean rfl hcells
      hbuilt hok
  refine ⟨hok, pasted, hpaste, hsatisfied, ?_, ?_⟩
  · rw [houtside 15 (by decide)]
    decide +kernel
  · exact hkept 1 (by decide) 1 rfl

end Solver
end WaveCollapse
